import MonitorAudit.Proofs.Audit.Findings
import MonitorAudit.Proofs.ClassFile.LineLookup

/-!
# Sites and line tables

A body of code may hold several line tables, which describe its lines together. The site of a block
is taken from the first of them alone (`Code.siteAt_isGivenBy_firstRows`).

That is what all tables say exactly if the first one suffices at the offset of the block: for each
row of any table that has started there, the first table has one that has started too and starts no
earlier (`Code.isGivenBy_lineRows_of_suffices`). Where it does not suffice, a row of a later table
is passed over, be it for an earlier row of the first table or for the bare offset
(`Code.exists_passed_over`). `Audit.blocks_sited_by_first_table` says so of the blocks of an audit.
-/

set_option autoImplicit false

namespace MonitorAudit

/-! ### What rows say of an offset -/

/-- The row has started at the offset, and none of the rows that have starts later. -/
structure LineNumber.IsLatestAt (offset : Nat) (rows : List LineNumber) (row : LineNumber) :
    Prop where
  mem : row ∈ rows
  start_le : row.startPc.toNat ≤ offset
  latest : ∀ other ∈ rows, other.startPc.toNat ≤ offset → other.startPc ≤ row.startPc

theorem LineNumber.AppliesAt.isLatestAt {offset : Nat} {rows : List LineNumber} {row : LineNumber}
    (h : row.AppliesAt offset rows) : row.IsLatestAt offset rows := by
  obtain ⟨hstart, -, hlatest⟩ := LineNumber.appliesAt_iff.mp h
  exact ⟨h.mem, hstart, hlatest⟩

/-- The rows give the site of an offset: the line of a row that starts latest, or the offset itself
where none of them has started. -/
inductive Site.IsGivenBy (rows : List LineNumber) (offset : Nat) : Site → Prop
  | line {row : LineNumber} (isLatest : row.IsLatestAt offset rows) :
      IsGivenBy rows offset (.line row.line)
  | offset (none_started : ∀ row ∈ rows, offset < row.startPc.toNat) :
      IsGivenBy rows offset (.offset offset)

theorem Site.isGivenBy_offset_iff {rows : List LineNumber} {offset place : Nat} :
    (Site.offset place).IsGivenBy rows offset ↔
      place = offset ∧ ∀ row ∈ rows, offset < row.startPc.toNat := by
  constructor
  · intro h
    generalize hsite : Site.offset place = site at h
    cases h with
    | line isLatest => cases hsite
    | offset none_started =>
      cases hsite
      exact ⟨rfl, none_started⟩
  · rintro ⟨rfl, hnone⟩
    exact .offset hnone

/-! ### The line tables of a body -/

namespace Code

/-- The line tables of a body that could be read, in their order. -/
def lineTables (body : Code) : List LineNumberTable :=
  body.attributes.filterMap fun
    | .lineNumberTable table => some table
    | _ => none

/-- The rows of all line tables of a body. -/
def lineRows (body : Code) : List LineNumber := body.lineTables.flatMap (·.rows)

/-- The rows of the first line table of a body; there are none where it has no table. -/
def firstRows (body : Code) : List LineNumber := (body.lineTables.take 1).flatMap (·.rows)

/-- For each row that has started at the offset the first table has one that starts no earlier. -/
def FirstSuffices (body : Code) (offset : Nat) : Prop :=
  ∀ row ∈ body.lineRows, row.startPc.toNat ≤ offset →
    ∃ first ∈ body.firstRows, first.startPc.toNat ≤ offset ∧ row.startPc ≤ first.startPc

variable (body : Code) (offset : Nat)

theorem lineNumberTable?_eq_head? : body.lineNumberTable? = body.lineTables.head? := by
  rw [lineTables, List.head?_filterMap]
  rfl

theorem mem_lineRows_of_mem_firstRows {row : LineNumber} (h : row ∈ body.firstRows) :
    row ∈ body.lineRows := by
  obtain ⟨table, htable, hrow⟩ := List.mem_flatMap.mp h
  exact List.mem_flatMap.mpr ⟨table, List.mem_of_mem_take htable, hrow⟩

/-- The site of an offset is the line of the row of the first table that applies there, or the
offset where none applies. -/
theorem siteAt_cases :
    (body.siteAt offset = .offset offset ∧
      ∀ row ∈ body.firstRows, offset < row.startPc.toNat) ∨
    ∃ row : LineNumber, row.AppliesAt offset body.firstRows ∧
      body.siteAt offset = .line row.line := by
  unfold siteAt firstRows
  rw [lineNumberTable?_eq_head?]
  cases body.lineTables with
  | nil => exact .inl ⟨rfl, by simp⟩
  | cons table tables =>
    simp only [List.head?_cons, List.take_succ_cons, List.take_zero, List.flatMap_cons,
      List.flatMap_nil, List.append_nil]
    cases hline : table.lineFor? offset with
    | none => exact .inl ⟨rfl, (table.lineFor?_eq_none_iff offset).mp hline⟩
    | some line =>
      obtain ⟨row, hrow, rfl⟩ := (table.lineFor?_eq_some_iff offset line).mp hline
      exact .inr ⟨row, hrow, rfl⟩

/-- The first table gives the site. -/
theorem siteAt_isGivenBy_firstRows : (body.siteAt offset).IsGivenBy body.firstRows offset := by
  rcases body.siteAt_cases offset with ⟨hsite, hnone⟩ | ⟨row, hrow, hsite⟩
  · rw [hsite]
    exact .offset hnone
  · rw [hsite]
    exact .line hrow.isLatestAt

/-- All tables give the site if the first one suffices. -/
theorem isGivenBy_lineRows_of_suffices (h : body.FirstSuffices offset) :
    (body.siteAt offset).IsGivenBy body.lineRows offset := by
  rcases body.siteAt_cases offset with ⟨hsite, hnone⟩ | ⟨row, hrow, hsite⟩
  · rw [hsite]
    refine .offset fun row hrow ↦ Nat.lt_of_not_le fun hstart ↦ ?_
    obtain ⟨first, hfirst, hstarted, -⟩ := h row hrow hstart
    exact Nat.not_le_of_lt (hnone first hfirst) hstarted
  · rw [hsite]
    have hlatest := hrow.isLatestAt
    refine .line ⟨body.mem_lineRows_of_mem_firstRows hrow.mem, hlatest.start_le, ?_⟩
    intro other hother hstart
    obtain ⟨first, hfirst, hstarted, hle⟩ := h other hother hstart
    exact UInt16.le_trans hle (hlatest.latest first hfirst hstarted)

/-- A first table that does not suffice passes over a row of another table that has started: the
site is the offset, or the line of a row that starts earlier. -/
theorem exists_passed_over (h : ¬ body.FirstSuffices offset) :
    ∃ passed ∈ body.lineRows, passed.startPc.toNat ≤ offset ∧
      (body.siteAt offset = .offset offset ∨
        ∃ row : LineNumber, row.AppliesAt offset body.firstRows ∧
          body.siteAt offset = .line row.line ∧ row.startPc < passed.startPc) := by
  unfold FirstSuffices at h
  push Not at h
  obtain ⟨passed, hpassed, hstart, hfirst⟩ := h
  refine ⟨passed, hpassed, hstart, ?_⟩
  rcases body.siteAt_cases offset with ⟨hsite, -⟩ | ⟨row, hrow, hsite⟩
  · exact .inl hsite
  · refine .inr ⟨row, hrow, hsite, ?_⟩
    exact UInt16.not_le.mp (hfirst row hrow.mem hrow.isLatestAt.start_le)

/-- A body with at most one line table has no rows but those of the first. -/
theorem firstSuffices_of_length_le (h : body.lineTables.length ≤ 1) :
    body.FirstSuffices offset := by
  intro row hrow hstart
  refine ⟨row, ?_, hstart, UInt16.le_refl _⟩
  rwa [firstRows, List.take_of_length_le h]

end Code

/-! ### The blocks of an audit -/

namespace Audit

variable {unit : String} {bytes : List UInt8} {classFile : ClassFile} {findings : List Finding}

theorem mem_blocks_iff {className methodName : String} {body : Code} {finding : Finding} :
    finding ∈ body.blocks className methodName ↔ ∃ entry ∈ body.monitorEntries,
      finding = .synchronizedBlock className methodName (body.siteAt entry.offset) := by
  simp [Code.blocks, eq_comm]

theorem mem_strayBlocks_iff {bodies : List Code} {finding : Finding} :
    finding ∈ classFile.strayBlocks bodies ↔ ∃ body ∈ bodies, ∃ entry ∈ body.monitorEntries,
      finding = .synchronizedBlock classFile.name "" (body.siteAt entry.offset) := by
  simp only [ClassFile.strayBlocks, List.mem_flatMap, mem_blocks_iff]

/-- A block that is found comes from an instruction of a body of the class that enters a monitor. -/
theorem exists_entry_of_mem_findings (hparse : ClassFile.parse unit bytes = .ok classFile)
    (haudit : auditBytes unit bytes = .ok findings) {className methodName : String} {site : Site}
    (h : .synchronizedBlock className methodName site ∈ findings) :
    ∃ body ∈ classFile.bodies, ∃ entry ∈ body.monitorEntries, site = body.siteAt entry.offset := by
  rw [findings_eq_of_auditBytes hparse haudit, List.mem_append, List.mem_append] at h
  rcases h with hfields | hmethods | hclass
  · obtain ⟨body, hbody, entry, hentry, hblock⟩ := mem_strayBlocks_iff.mp hfields
    cases hblock
    exact ⟨body, List.mem_append_left _ hbody, entry, hentry, rfl⟩
  · obtain ⟨method, hmethod, hfinding⟩ := List.mem_flatMap.mp hmethods
    rcases List.mem_append.mp hfinding with hdeclared | hblocks
    · split at hdeclared <;> simp at hdeclared
    · obtain ⟨body, hbody, hblock⟩ := List.mem_flatMap.mp hblocks
      obtain ⟨entry, hentry, hblock⟩ := mem_blocks_iff.mp hblock
      cases hblock
      exact ⟨body, ClassFile.mem_bodies_of_method hmethod hbody, entry, hentry, rfl⟩
  · obtain ⟨body, hbody, entry, hentry, hblock⟩ := mem_strayBlocks_iff.mp hclass
    cases hblock
    exact ⟨body, ClassFile.mem_bodies_of_attribute hbody, entry, hentry, rfl⟩

/-- Each instruction of a body of the class that enters a monitor is found as a block. -/
theorem exists_block_of_mem_bodies (hparse : ClassFile.parse unit bytes = .ok classFile)
    (haudit : auditBytes unit bytes = .ok findings) {body : Code} (hbody : body ∈ classFile.bodies)
    {entry : Instruction} (hentry : entry ∈ body.monitorEntries) :
    ∃ methodName,
      .synchronizedBlock classFile.name methodName (body.siteAt entry.offset) ∈ findings := by
  rw [findings_eq_of_auditBytes hparse haudit]
  simp only [ClassFile.bodies, List.mem_append] at hbody ⊢
  rcases hbody with hfields | hmethods | hclass
  · exact ⟨"", .inl (mem_strayBlocks_iff.mpr ⟨body, hfields, entry, hentry, rfl⟩)⟩
  · obtain ⟨method, hmethod, hbody⟩ := List.mem_flatMap.mp hmethods
    refine ⟨method.name, .inr (.inl (List.mem_flatMap.mpr ⟨method, hmethod, ?_⟩))⟩
    refine List.mem_append_right _ (List.mem_flatMap.mpr ⟨body, hbody, ?_⟩)
    exact mem_blocks_iff.mpr ⟨entry, hentry, rfl⟩
  · exact ⟨"", .inr (.inr (mem_strayBlocks_iff.mpr ⟨body, hclass, entry, hentry, rfl⟩))⟩

/-- The blocks that an audit finds are the instructions that enter a monitor, each at the site that
the first line table of its body gives for its offset. All line tables of the body together give
that site if the first one suffices there, as it does where there is no other. If it does not, a row
of another table that has started at the offset is passed over, for the bare offset or for a row of
the first table that starts earlier. -/
theorem blocks_sited_by_first_table (hparse : ClassFile.parse unit bytes = .ok classFile)
    (haudit : auditBytes unit bytes = .ok findings) :
    (∀ className methodName site, .synchronizedBlock className methodName site ∈ findings →
      ∃ body ∈ classFile.bodies, ∃ entry ∈ body.monitorEntries,
        site = body.siteAt entry.offset) ∧
    ∀ body ∈ classFile.bodies, ∀ entry ∈ body.monitorEntries,
      (∃ methodName,
        .synchronizedBlock classFile.name methodName (body.siteAt entry.offset) ∈ findings) ∧
      (body.siteAt entry.offset).IsGivenBy body.firstRows entry.offset ∧
      (body.lineTables.length ≤ 1 → body.FirstSuffices entry.offset) ∧
      (body.FirstSuffices entry.offset →
        (body.siteAt entry.offset).IsGivenBy body.lineRows entry.offset) ∧
      (¬ body.FirstSuffices entry.offset →
        ∃ passed ∈ body.lineRows, passed.startPc.toNat ≤ entry.offset ∧
          (body.siteAt entry.offset = .offset entry.offset ∨
            ∃ row : LineNumber, row.AppliesAt entry.offset body.firstRows ∧
              body.siteAt entry.offset = .line row.line ∧ row.startPc < passed.startPc)) := by
  constructor
  · intro className methodName site hblock
    exact exists_entry_of_mem_findings hparse haudit hblock
  · intro body hbody entry hentry
    exact ⟨exists_block_of_mem_bodies hparse haudit hbody hentry,
      body.siteAt_isGivenBy_firstRows entry.offset, body.firstSuffices_of_length_le entry.offset,
      body.isGivenBy_lineRows_of_suffices entry.offset, body.exists_passed_over entry.offset⟩

/-- The bytes of a class with a method that enters a monitor at the offsets zero and two. It has
three line tables of one row each: line five from the offset one on, line seven from zero on and
line nine from two on. -/
def splitTables : List UInt8 :=
  [0xCA, 0xFE, 0xBA, 0xBE, 0x00, 0x00, 0x00, 0x34, 0x00, 0x07, 0x01, 0x00, 0x01, 0x41, 0x07, 0x00,
    0x01, 0x01, 0x00, 0x04, 0x43, 0x6F, 0x64, 0x65, 0x01, 0x00, 0x01, 0x6D, 0x01, 0x00, 0x03, 0x28,
    0x29, 0x56, 0x01, 0x00, 0x0F, 0x4C, 0x69, 0x6E, 0x65, 0x4E, 0x75, 0x6D, 0x62, 0x65, 0x72, 0x54,
    0x61, 0x62, 0x6C, 0x65, 0x00, 0x21, 0x00, 0x02, 0x00, 0x00, 0x00, 0x00, 0x00, 0x00, 0x00, 0x01,
    0x00, 0x01, 0x00, 0x04, 0x00, 0x05, 0x00, 0x01, 0x00, 0x03, 0x00, 0x00, 0x00, 0x34, 0x00, 0x01,
    0x00, 0x00, 0x00, 0x00, 0x00, 0x04, 0xC2, 0x00, 0xC2, 0xB1, 0x00, 0x00, 0x00, 0x03, 0x00, 0x06,
    0x00, 0x00, 0x00, 0x06, 0x00, 0x01, 0x00, 0x01, 0x00, 0x05, 0x00, 0x06, 0x00, 0x00, 0x00, 0x06,
    0x00, 0x01, 0x00, 0x00, 0x00, 0x07, 0x00, 0x06, 0x00, 0x00, 0x00, 0x06, 0x00, 0x01, 0x00, 0x02,
    0x00, 0x09, 0x00, 0x00]

theorem blocks_splitTables :
    ∃ classFile, ClassFile.parse "A.class" splitTables = .ok classFile ∧
      auditBytes "A.class" splitTables = .ok
        [.synchronizedBlock "A" "m" (.offset 0), .synchronizedBlock "A" "m" (.line 5)] ∧
      ∃ body ∈ classFile.bodies, body.lineRows = [⟨1, 5⟩, ⟨0, 7⟩, ⟨2, 9⟩] ∧
        (∃ entry ∈ body.monitorEntries, .offset 0 = body.siteAt entry.offset) ∧
        (Site.offset 0).IsGivenBy body.firstRows 0 ∧
        ¬ (Site.offset 0).IsGivenBy body.lineRows 0 := by
  have hchecks : (match ClassFile.parse "A.class" splitTables with
      | .ok classFile => classFile.bodies.all fun body ↦ body.lineRows = [⟨1, 5⟩, ⟨0, 7⟩, ⟨2, 9⟩]
      | .error _ => false) = true := by decide +kernel
  have hvalue : (auditBytes "A.class" splitTables).toOption = some
      [.synchronizedBlock "A" "m" (.offset 0), .synchronizedBlock "A" "m" (.line 5)] := by
    decide +kernel
  cases hparse : ClassFile.parse "A.class" splitTables with
  | error failure => simp [hparse] at hchecks
  | ok classFile =>
    rw [hparse] at hchecks
    cases haudit : auditBytes "A.class" splitTables with
    | error failure => simp [haudit, Except.toOption] at hvalue
    | ok findings =>
      rw [haudit] at hvalue
      obtain rfl := Option.some.inj hvalue
      obtain ⟨hfound, hsites⟩ := blocks_sited_by_first_table hparse haudit
      obtain ⟨body, hbody, entry, hentry, hsite⟩ := hfound "A" "m" (.offset 0) List.mem_cons_self
      have hrows : body.lineRows = [⟨1, 5⟩, ⟨0, 7⟩, ⟨2, 9⟩] :=
        of_decide_eq_true (List.all_eq_true.mp hchecks body hbody)
      have hgiven := (hsites body hbody entry hentry).2.1
      rw [← hsite] at hgiven
      have hplace : 0 = entry.offset := (Site.isGivenBy_offset_iff.mp hgiven).1
      rw [← hplace] at hgiven
      refine ⟨classFile, rfl, rfl, body, hbody, hrows, ⟨entry, hentry, hsite⟩, hgiven, ?_⟩
      intro hall
      have hstarted := (Site.isGivenBy_offset_iff.mp hall).2 ⟨0, 7⟩ (by simp [hrows])
      exact Nat.lt_irrefl 0 hstarted

end Audit

end MonitorAudit
