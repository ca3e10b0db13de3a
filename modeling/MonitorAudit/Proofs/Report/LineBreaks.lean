import MonitorAudit.Proofs.Audit.FaultNames

/-!
# Line breaks in what is written

The wordings of findings and faults are put together from words, numbers and names. Words and
numbers have no line breaks, so a wording has the line breaks of the names in it and no others
(`Finding.lineBreaks_text`, `AttributeFault.lineBreaks_message`). The names of attributes that a
fault can give have none either, and what is left for a failure is its unit and the class and the
method for which it is reported (`ScanFailure.lineBreaks_message`).
-/

set_option autoImplicit false

namespace MonitorAudit

/-- The number of line breaks in a text. -/
def lineBreaks (text : String) : Nat := text.toList.count '\n'

theorem lineBreaks_append (first second : String) :
    lineBreaks (first ++ second) = lineBreaks first + lineBreaks second := by
  rw [lineBreaks, String.toList_append, List.count_append]
  rfl

theorem lineBreaks_eq_zero_iff {text : String} : lineBreaks text = 0 ↔ '\n' ∉ text.toList :=
  List.count_eq_zero

/-! ### Texts together -/

theorem lineBreaks_join_nil : lineBreaks (String.join []) = 0 := rfl

theorem lineBreaks_join_cons (text : String) (texts : List String) :
    lineBreaks (String.join (text :: texts)) =
      lineBreaks text + lineBreaks (String.join texts) := by
  rw [String.join_cons, lineBreaks_append]

theorem lineBreaks_join_append (front back : List String) :
    lineBreaks (String.join (front ++ back)) =
      lineBreaks (String.join front) + lineBreaks (String.join back) := by
  simp only [lineBreaks, String.toList_join, List.flatMap_append, List.count_append]

theorem lineBreaks_join_eq_zero_iff {texts : List String} :
    lineBreaks (String.join texts) = 0 ↔ ∀ text ∈ texts, '\n' ∉ text.toList := by
  simp only [lineBreaks_eq_zero_iff, String.toList_join, List.mem_flatMap, not_exists, not_and]

/-- Rows may be exchanged for others that have as many line breaks. -/
theorem lineBreaks_join_flatMap_congr {α : Type} {rows others : α → List String} {items : List α}
    (h : ∀ item ∈ items,
      lineBreaks (String.join (rows item)) = lineBreaks (String.join (others item))) :
    lineBreaks (String.join (items.flatMap rows)) =
      lineBreaks (String.join (items.flatMap others)) := by
  induction items with
  | nil => rfl
  | cons item items ih =>
    obtain ⟨hitem, hitems⟩ := List.forall_mem_cons.mp h
    rw [List.flatMap_cons, List.flatMap_cons, lineBreaks_join_append, lineBreaks_join_append, hitem,
      ih hitems]

/-! ### Words and numbers -/

theorem lineBreaks_text (text : String) : lineBreaks (toString text) = lineBreaks text := rfl

theorem lineBreak_ne_digitChar (digit : Nat) : '\n' ≠ Nat.digitChar digit := by
  match digit with
  | 0 | 1 | 2 | 3 | 4 | 5 | 6 | 7 | 8 | 9 | 10 | 11 | 12 | 13 | 14 | 15 => decide
  | more + 16 => simp [Nat.digitChar]

theorem count_toDigits {base : Nat} (hbase : 1 < base) (value : Nat) :
    (Nat.toDigits base value).count '\n' = 0 := by
  rw [List.count_eq_zero]
  induction value using Nat.strongRecOn with
  | ind value ih =>
    rw [Nat.toDigits_eq_if hbase]
    split
    · exact List.mem_singleton.not.mpr (lineBreak_ne_digitChar value)
    · have hfront := ih (value / base) (Nat.div_lt_self (by omega) hbase)
      exact List.not_mem_append hfront (List.mem_singleton.not.mpr (lineBreak_ne_digitChar _))

theorem lineBreaks_nat (value : Nat) : lineBreaks (toString value) = 0 := by
  rw [lineBreaks, Nat.toString_eq_ofList_toDigits, String.toList_ofList]
  exact count_toDigits (by decide) value

theorem lineBreaks_uint8 (value : UInt8) : lineBreaks (toString value) = 0 :=
  lineBreaks_nat value.toNat

theorem lineBreaks_uint16 (value : UInt16) : lineBreaks (toString value) = 0 :=
  lineBreaks_nat value.toNat

theorem lineBreaks_uint32 (value : UInt32) : lineBreaks (toString value) = 0 :=
  lineBreaks_nat value.toNat

theorem lineBreaks_hexNumber (width value : Nat) : lineBreaks (hexNumber width value) = 0 := by
  have hzeros (count : Nat) : (List.replicate count '0').count '\n' = 0 :=
    List.count_eq_zero.mpr fun h ↦ absurd (List.eq_of_mem_replicate h) (by decide)
  have hpadded : lineBreaks (Hexadecimal.padded width value) = 0 := by
    rw [Hexadecimal.padded, lineBreaks, String.toList_ofList, List.count_append, hzeros,
      count_toDigits (by decide)]
  rw [hexNumber, lineBreaks_append, hpadded]
  rfl

theorem ConstantKind.lineBreaks_name (kind : ConstantKind) : lineBreaks kind.name = 0 := by
  cases kind <;> rfl

theorem Attribute.lineBreaks_of_isKnownName {name : String} (h : IsKnownName name) :
    lineBreaks name = 0 := by
  rcases h with rfl | ⟨kind, rfl⟩
  · rfl
  · cases kind with
    | annotations visible | parameterAnnotations visible | typeAnnotations visible =>
      cases visible <;> rfl
    | _ => rfl

/-! ### Faults -/

theorem MalformedClass.lineBreaks_message (fault : MalformedClass) :
    lineBreaks fault.message = 0 := by
  unfold message
  split <;> simp only [lineBreaks_append, lineBreaks_text, lineBreaks_nat, lineBreaks_uint8,
    lineBreaks_uint16, lineBreaks_hexNumber] <;> rfl

theorem PoolFault.lineBreaks_message (fault : PoolFault) : lineBreaks fault.message = 0 := by
  unfold message
  split <;> simp only [lineBreaks_append, lineBreaks_text, lineBreaks_uint16,
    ConstantKind.lineBreaks_name] <;> rfl

/-- The wording of a fault of a record has the line breaks of the names in it. -/
theorem AttributeFault.lineBreaks_message (fault : AttributeFault) :
    lineBreaks fault.message = lineBreaks (String.join fault.names) := by
  unfold message names
  cases fault <;> simp only [lineBreaks_append, lineBreaks_text, lineBreaks_nat, lineBreaks_uint8,
    lineBreaks_uint32, lineBreaks_join_cons] <;> rfl

theorem InstructionFault.lineBreaks_message (fault : InstructionFault) :
    lineBreaks fault.message = 0 := by
  unfold message
  split <;> simp only [lineBreaks_append, lineBreaks_text, lineBreaks_nat,
    lineBreaks_hexNumber] <;> rfl

theorem ClassFault.lineBreaks_message {fault : ClassFault} (h : fault.NamesKnown) :
    lineBreaks fault.message = 0 := by
  cases fault with
  | malformed fault => exact fault.lineBreaks_message
  | pool fault => exact fault.lineBreaks_message
  | instruction fault => exact fault.lineBreaks_message
  | record fault =>
    refine fault.lineBreaks_message.trans (lineBreaks_join_eq_zero_iff.mpr fun name hname ↦ ?_)
    exact lineBreaks_eq_zero_iff.mp (Attribute.lineBreaks_of_isKnownName (h name hname))

/-! ### Failures and findings -/

/-- The names of the class and the method for which a failure is reported. -/
def ScanFailure.names (failure : ScanFailure) : List String :=
  failure.className?.toList ++ failure.methodName?.toList

/-- The names of the class and the method of a finding. -/
def Finding.names : Finding → List String
  | synchronizedMethod className methodName | synchronizedBlock className methodName _ =>
    [className, methodName]

/-- What is written for a failure has the line breaks of its unit and of its names. -/
theorem ScanFailure.lineBreaks_message {failure : ScanFailure} (h : failure.fault.NamesKnown) :
    lineBreaks failure.message =
      lineBreaks failure.unit + lineBreaks (String.join failure.names) := by
  obtain ⟨unit, className?, methodName?, fault⟩ := failure
  have hfault : lineBreaks fault.message = 0 := ClassFault.lineBreaks_message h
  have hcolon : lineBreaks ": " = 0 := rfl
  have hin : lineBreaks " (in " = 0 := rfl
  have hmethod : lineBreaks " (in method " = 0 := rfl
  have hmark : lineBreaks "#" = 0 := rfl
  have hclose : lineBreaks ")" = 0 := rfl
  have hempty : lineBreaks "" = 0 := rfl
  unfold message names
  cases className? <;> cases methodName? <;>
    simp only [lineBreaks_append, lineBreaks_text, hfault, hcolon, hin, hmethod, hmark, hclose,
      hempty, Option.toList_none, Option.toList_some, List.nil_append, List.cons_append,
      lineBreaks_join_cons, lineBreaks_join_nil] <;> omega

theorem Site.lineBreaks_text (site : Site) : lineBreaks site.text = 0 := by
  unfold text
  split <;> simp only [lineBreaks_append, MonitorAudit.lineBreaks_text, lineBreaks_nat,
    lineBreaks_uint16] <;> rfl

/-- What is written for a finding has the line breaks of its names. -/
theorem Finding.lineBreaks_text (finding : Finding) :
    lineBreaks finding.text = lineBreaks (String.join finding.names) := by
  have hmethod : lineBreaks "synchronized method: " = 0 := rfl
  have hblock : lineBreaks "synchronized block: " = 0 := rfl
  have hmark : lineBreaks "#" = 0 := rfl
  have hblank : lineBreaks " " = 0 := rfl
  unfold text names
  cases finding <;>
    simp only [lineBreaks_append, MonitorAudit.lineBreaks_text, Site.lineBreaks_text, hmethod,
      hblock, hmark, hblank, lineBreaks_join_cons, lineBreaks_join_nil] <;> omega

end MonitorAudit
