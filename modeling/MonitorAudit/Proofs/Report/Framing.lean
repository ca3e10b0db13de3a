import MonitorAudit.Proofs.Audit.Sequence
import MonitorAudit.Proofs.Report.LineBreaks
import MonitorAudit.Report.UnitReport

/-!
# The text of reports and its lines

The text of reports has an `Entry` for each finding and for each failure, in their order and with a
line break behind it. How an entry begins says what it is for (`Entry.words_prefix_iff`).

The names of classes and methods are written as they stand in the constant pool, and a line break in
one of them breaks its entry. `UnitReport.textOf_framed_iff` says that nothing else does: the lines
of the text are the entries exactly if no name that the text shows has a line break.
-/

set_option autoImplicit false

namespace MonitorAudit

namespace UnitReport

/-! ### Entries -/

/-- What an entry is for. -/
inductive Heading where
  | method
  | block
  | failure
  deriving DecidableEq, Repr

/-- The words with which an entry begins. -/
def Heading.words : Heading → String
  | method => "synchronized method: "
  | block => "synchronized block: "
  | failure => "ERROR: "

/-- What the text of reports has a line for: a finding, or the failure of a unit. -/
inductive Entry where
  | finding (value : Finding)
  | failure (message : String)
  deriving DecidableEq, Repr

/-- The entries of a report. -/
def entries (report : UnitReport) : List Entry :=
  match report.outcome with
  | .scanned findings => findings.map .finding
  | .failed message => [.failure message]

/-- The names that the entries of an audit show: those of its findings, or those of the class and
the method for which it fails. -/
def shownNames (source : Audit.Source) : List String :=
  match Audit.auditBytes source.unit source.bytes with
  | .ok findings => findings.flatMap Finding.names
  | .error failure => failure.names

/-- The report of a class file. -/
def ofSource (source : Audit.Source) : UnitReport := ofBytes source.unit source.bytes

namespace Entry

def heading : Entry → Heading
  | finding (.synchronizedMethod _ _) => .method
  | finding (.synchronizedBlock _ _ _) => .block
  | failure _ => .failure

def text : Entry → String
  | finding value => value.text
  | failure message => "ERROR: " ++ message

theorem words_prefix (entry : Entry) : entry.heading.words.toList <+: entry.text.toList := by
  cases entry with
  | failure message =>
    rw [text, String.toList_append]
    exact List.prefix_append _ _
  | finding value =>
    unfold text Finding.text
    cases value <;> simp only [String.toList_append, List.append_assoc] <;>
      exact List.prefix_append _ _

end Entry

/-- No heading begins another one. -/
theorem Heading.eq_of_prefix {first second : Heading}
    (h : first.words.toList <+: second.words.toList) : first = second := by
  revert h
  cases first <;> cases second <;> decide

/-- An entry begins with the words for what it is, and with no others. -/
theorem Entry.words_prefix_iff (entry : Entry) (heading : Heading) :
    heading.words.toList <+: entry.text.toList ↔ heading = entry.heading := by
  constructor
  · intro h
    rcases List.prefix_or_prefix_of_prefix h entry.words_prefix with hfirst | hsecond
    · exact Heading.eq_of_prefix hfirst
    · exact (Heading.eq_of_prefix hsecond).symm
  · rintro rfl
    exact entry.words_prefix

/-! ### Texts -/

/-- Entries with a line break behind each. -/
def written (entries : List Entry) : List Char :=
  entries.flatMap fun entry ↦ entry.text.toList ++ ['\n']

/-- The lines of the text are the entries. What stands behind the last line break is empty. -/
def IsFramed (entries : List Entry) (text : String) : Prop :=
  text.toList.splitOn '\n' = entries.map (·.text.toList) ++ [[]]

theorem lines_eq (report : UnitReport) : report.lines = report.entries.map Entry.text := by
  unfold lines entries
  cases report.outcome with
  | scanned findings => rw [List.map_map]; rfl
  | failed message => rfl

theorem toList_textOf (reports : List UnitReport) :
    (textOf reports).toList = written (reports.flatMap entries) := by
  have hlines : reports.flatMap lines = (reports.flatMap entries).map Entry.text := by
    rw [List.map_flatMap]
    exact congrArg (reports.flatMap ·) (funext lines_eq)
  rw [textOf, hlines, String.toList_join, List.map_map, List.flatMap_map]
  simp [written]

/-- There is an entry for each finding and for each failure. -/
theorem length_entries (reports : List UnitReport) :
    (reports.flatMap entries).length =
      (reports.flatMap findings).length + reports.countP isFailure := by
  induction reports with
  | nil => rfl
  | cons report reports ih =>
    have hreport : report.entries.length =
        report.findings.length + if report.isFailure then 1 else 0 := by
      unfold entries findings isFailure
      cases report.outcome <;> simp
    rw [List.flatMap_cons, List.length_append, ih, hreport, List.flatMap_cons, List.length_append,
      List.countP_cons]
    omega

theorem count_written (entries : List Entry) :
    (written entries).count '\n' =
      entries.length + lineBreaks (String.join (entries.map Entry.text)) := by
  induction entries with
  | nil => rfl
  | cons entry entries ih =>
    have hentry : (entry.text.toList ++ ['\n']).count '\n' = lineBreaks entry.text + 1 := by
      rw [List.count_append]
      rfl
    rw [written, List.flatMap_cons, List.count_append, hentry, ← written, ih, List.length_cons,
      List.map_cons, lineBreaks_join_cons]
    omega

/-- A text has one line more than it has line breaks. -/
theorem length_splitOn (text : List Char) :
    (text.splitOn '\n').length = text.count '\n' + 1 := by
  induction text with
  | nil => rfl
  | cons c text ih =>
    rw [List.splitOn_cons_eq_if_modifyHead, List.count_cons]
    split
    · rw [List.length_cons, ih]
    · rw [List.length_modifyHead, ih]

theorem splitOn_written {entries : List Entry}
    (h : ∀ entry ∈ entries, '\n' ∉ entry.text.toList) :
    (written entries).splitOn '\n' = entries.map (·.text.toList) ++ [[]] := by
  induction entries with
  | nil => rfl
  | cons entry entries ih =>
    obtain ⟨hentry, hentries⟩ := List.forall_mem_cons.mp h
    rw [written, List.flatMap_cons, List.append_assoc, List.singleton_append,
      List.splitOn_append_cons_self_of_not_mem hentry, ← written, ih hentries]
    rfl

/-- Entries are the lines of their text exactly if none of them has a line break. The lines are as
many as the entries only if there are no more line breaks than those behind them. -/
theorem isFramed_iff {reports : List UnitReport} :
    IsFramed (reports.flatMap entries) (textOf reports) ↔
      lineBreaks (String.join ((reports.flatMap entries).map Entry.text)) = 0 := by
  rw [IsFramed, toList_textOf]
  constructor
  · intro h
    have hlength := congrArg List.length h
    rw [length_splitOn, count_written, List.length_append, List.length_map,
      List.length_singleton] at hlength
    omega
  · intro h
    exact splitOn_written fun entry hentry ↦
      lineBreaks_join_eq_zero_iff.mp h entry.text (List.mem_map_of_mem hentry)

/-! ### Names -/

/-- The entries of an audit have the line breaks of the names that they show, if the unit has
none. -/
theorem lineBreaks_entries {source : Audit.Source} (hunit : '\n' ∉ source.unit.toList) :
    lineBreaks (String.join ((ofSource source).entries.map Entry.text)) =
      lineBreaks (String.join (shownNames source)) := by
  unfold shownNames ofSource ofBytes
  cases haudit : Audit.auditBytes source.unit source.bytes with
  | ok findings =>
    have htexts : (scanned source.unit source.bytes findings).entries.map Entry.text =
        findings.flatMap fun finding ↦ [finding.text] := by
      rw [← List.map_eq_flatMap]
      exact List.map_map
    refine (congrArg (lineBreaks <| String.join ·) htexts).trans ?_
    exact lineBreaks_join_flatMap_congr fun finding _ ↦ finding.lineBreaks_text
  | error failure =>
    obtain ⟨hname, hknown⟩ := Audit.namesKnown_of_auditBytes haudit
    have hwords : lineBreaks "ERROR: " = 0 := rfl
    show lineBreaks (String.join ["ERROR: " ++ failure.message]) =
      lineBreaks (String.join failure.names)
    rw [lineBreaks_join_cons, lineBreaks_append, failure.lineBreaks_message hknown, hname, hwords,
      lineBreaks_eq_zero_iff.mpr hunit, lineBreaks_join_nil]
    omega

theorem lineBreaks_flatMap_entries {sources : List Audit.Source}
    (hunits : ∀ source ∈ sources, '\n' ∉ source.unit.toList) :
    lineBreaks (String.join (((sources.map ofSource).flatMap entries).map Entry.text)) =
      lineBreaks (String.join (sources.flatMap shownNames)) := by
  rw [List.flatMap_map, List.map_flatMap]
  exact lineBreaks_join_flatMap_congr fun source hsource ↦
    lineBreaks_entries (hunits source hsource)

/-- The text of the reports of class files, whose units have no line breaks in their names, has an
entry for each finding and for each failure, in their order and with a line break behind it. An
entry begins with the words for what it is: for a failure, or for the kind of its finding. Besides
the line breaks behind entries the text has just those of the names of classes and methods that it
shows, and so its lines are the entries exactly if none of these names has a line break. -/
theorem textOf_framed_iff (sources : List Audit.Source)
    (hunits : ∀ source ∈ sources, '\n' ∉ source.unit.toList) :
    let reports := sources.map ofSource
    let shown := reports.flatMap entries
    let names := sources.flatMap shownNames
    (textOf reports).toList = written shown ∧
      (∀ entry ∈ shown, ∀ heading : Heading,
        heading.words.toList <+: entry.text.toList ↔ heading = entry.heading) ∧
      lineBreaks (textOf reports) =
        (reports.flatMap findings).length + reports.countP isFailure +
          lineBreaks (String.join names) ∧
      (IsFramed shown (textOf reports) ↔ ∀ name ∈ names, '\n' ∉ name.toList) := by
  intro reports shown names
  have hnames : lineBreaks (String.join (shown.map Entry.text)) = lineBreaks (String.join names) :=
    lineBreaks_flatMap_entries hunits
  refine ⟨toList_textOf reports, fun entry _ ↦ entry.words_prefix_iff, ?_, ?_⟩
  · rw [lineBreaks, toList_textOf, count_written, length_entries]
    exact congrArg _ hnames
  · rw [isFramed_iff, hnames, lineBreaks_join_eq_zero_iff]

/-- The bytes of a class with one method, which is declared synchronized and has a line break in its
name: behind it stands what looks like a failure. -/
def forgingClass : List UInt8 :=
  [0xCA, 0xFE, 0xBA, 0xBE, 0x00, 0x00, 0x00, 0x34, 0x00, 0x05, 0x01, 0x00, 0x01, 0x41, 0x07, 0x00,
    0x01, 0x01, 0x00, 0x0A, 0x6D, 0x0A, 0x45, 0x52, 0x52, 0x4F, 0x52, 0x3A, 0x20, 0x42, 0x01, 0x00,
    0x03, 0x28, 0x29, 0x56, 0x00, 0x21, 0x00, 0x02, 0x00, 0x00, 0x00, 0x00, 0x00, 0x00, 0x00, 0x01,
    0x00, 0x20, 0x00, 0x03, 0x00, 0x04, 0x00, 0x00, 0x00, 0x00]

theorem auditBytes_forgingClass :
    Audit.auditBytes "A.class" forgingClass = .ok [.synchronizedMethod "A" "m\nERROR: B"] := by
  decide +kernel

/-- One finding and no failure, but two lines, of which one begins like a failure. -/
theorem textOf_forgingClass :
    let reports := [ofBytes "A.class" forgingClass]
    '\n' ∉ "A.class".toList ∧
      textOf reports = "synchronized method: A#m\nERROR: B\n" ∧
      (reports.flatMap findings).length = 1 ∧ reports.countP isFailure = 0 ∧
      lineBreaks (textOf reports) = 2 ∧
      (textOf reports).toList.splitOn '\n' =
        ["synchronized method: A#m".toList, "ERROR: B".toList, []] ∧
      Heading.failure.words.toList <+: "ERROR: B".toList := by
  intro reports
  have hreports : reports =
      [scanned "A.class" forgingClass [.synchronizedMethod "A" "m\nERROR: B"]] := by
    show [ofBytes "A.class" forgingClass] = _
    rw [ofBytes, auditBytes_forgingClass]
  have htext : textOf reports = "synchronized method: A#m\nERROR: B\n" := by
    rw [hreports]
    rfl
  refine ⟨by decide, htext, ?_, ?_, ?_, ?_, by decide⟩
  · rw [hreports]
    rfl
  · rw [hreports]
    rfl
  · rw [htext]
    rfl
  · rw [htext]
    decide

theorem not_isFramed_forgingClass :
    let sources : List Audit.Source := [⟨"A.class", forgingClass⟩, ⟨"B.class", [0xCA, 0xFE]⟩]
    let reports := sources.map ofSource
    (∀ source ∈ sources, '\n' ∉ source.unit.toList) ∧
      sources.flatMap shownNames = ["A", "m\nERROR: B"] ∧
      lineBreaks (textOf reports) = 3 ∧ ¬ IsFramed (reports.flatMap entries) (textOf reports) := by
  intro sources reports
  have hshort : Audit.auditBytes "B.class" [0xCA, 0xFE] =
      .error ⟨"B.class", none, none, .malformed (.truncated 0 2)⟩ := by decide +kernel
  have hunits : ∀ source ∈ sources, '\n' ∉ source.unit.toList := by decide
  have hnames : sources.flatMap shownNames = ["A", "m\nERROR: B"] := by
    show shownNames ⟨"A.class", forgingClass⟩ ++ (shownNames ⟨"B.class", [0xCA, 0xFE]⟩ ++ []) = _
    rw [shownNames, auditBytes_forgingClass, shownNames, hshort]
    rfl
  have hreports : reports =
      [scanned "A.class" forgingClass [.synchronizedMethod "A" "m\nERROR: B"],
        failed "B.class" (some (Sha256.hexDigest [0xCA, 0xFE]))
          "B.class: truncated class file at offset 0 (wanted 2 more bytes)"] := by
    show [ofBytes "A.class" forgingClass, ofBytes "B.class" [0xCA, 0xFE]] = _
    rw [ofBytes, ofBytes, auditBytes_forgingClass, hshort]
    rfl
  obtain ⟨-, -, hcount, hframed⟩ := textOf_framed_iff sources hunits
  rw [hnames] at hcount hframed
  refine ⟨hunits, hnames, ?_, fun h ↦ ?_⟩
  · rw [show sources.map ofSource = reports from rfl, hreports] at hcount
    rw [hreports]
    exact hcount
  · exact absurd (hframed.mp h) (by decide)

end UnitReport

end MonitorAudit
