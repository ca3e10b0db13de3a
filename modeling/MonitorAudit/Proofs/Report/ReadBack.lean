import MonitorAudit.Proofs.Report.JsonReader
import MonitorAudit.Proofs.Report.JsonWriter
import MonitorAudit.Report.UnitReport

/-!
# Reports that are read back

`UnitReport.value` is the object that a report is in standard JSON, and `UnitReport.ofValue?` reads
a report from such an object by the names of its members, wherever they stand in it.

What is written for a list of reports is one array and a line break, and it denotes the reports and
nothing else (`UnitReport.jsonOf_denotes_reports`). So any reader of the standard gets the reports
back, whatever characters are in their texts.
-/

set_option autoImplicit false

namespace MonitorAudit

open JsonSyntax

/-! ### Reports as values -/

def Site.value : Site → JsonValue
  | line number => .object [("line", .number number.toNat)]
  | offset start => .object [("offset", .number start)]

def Finding.value : Finding → JsonValue
  | synchronizedMethod className methodName =>
    .object [("kind", .string "synchronized_method"), ("class", .string className),
      ("method", .string methodName)]
  | synchronizedBlock className methodName site =>
    .object [("kind", .string "synchronized_block"), ("class", .string className),
      ("method", .string methodName), ("location", site.value)]

/-- The members of a report that say what became of the unit. -/
def UnitOutcome.values : UnitOutcome → List (String × JsonValue)
  | scanned findings =>
    [("status", .string "scanned"), ("findings", .array (findings.map Finding.value))]
  | failed message => [("status", .string "failed"), ("error", .string message)]

/-- The object of a report. It has a digest exactly if the report has one. -/
def UnitReport.value (report : UnitReport) : JsonValue :=
  .object (("unit", .string report.unit) ::
    (report.sha256?.toList.map fun digest ↦ ("sha256", .string digest)) ++ report.outcome.values)

/-! ### Reading reports from values -/

namespace JsonValue

/-- The member of an object that has the name. -/
def member? (name : String) : JsonValue → Option JsonValue
  | object members => members.lookup name
  | _ => none

def text? : JsonValue → Option String
  | string text => some text
  | _ => none

def items? : JsonValue → Option (List JsonValue)
  | array items => some items
  | _ => none

/-- A number that is whole and not below zero. -/
def natural? : JsonValue → Option Nat
  | number value => if value.den = 1 ∧ 0 ≤ value.num then some value.num.toNat else none
  | _ => none

end JsonValue

/-- Reads a site from an object that has a line or an offset, and not both. -/
def Site.ofValue? (value : JsonValue) : Option Site :=
  match value.member? "line", value.member? "offset" with
  | some number, none => do
    let line ← number.natural?
    if line < 0x10000 then some (.line (UInt16.ofNat line)) else none
  | none, some number => do
    let start ← number.natural?
    return .offset start
  | _, _ => none

def Finding.ofValue? (value : JsonValue) : Option Finding := do
  let kind ← (← value.member? "kind").text?
  let className ← (← value.member? "class").text?
  let methodName ← (← value.member? "method").text?
  if kind = "synchronized_method" then return .synchronizedMethod className methodName
  else if kind = "synchronized_block" then
    let site ← Site.ofValue? (← value.member? "location")
    return .synchronizedBlock className methodName site
  else none

def UnitOutcome.ofValue? (value : JsonValue) : Option UnitOutcome := do
  let status ← (← value.member? "status").text?
  if status = "scanned" then
    let findings ← (← value.member? "findings").items?
    return .scanned (← findings.mapM Finding.ofValue?)
  else if status = "failed" then return .failed (← (← value.member? "error").text?)
  else none

namespace UnitReport

/-- The digest of a report, which may be missing. -/
def digestOf? (value : JsonValue) : Option (Option String) :=
  match value.member? "sha256" with
  | none => some none
  | some digest => digest.text?.map some

def ofValue? (value : JsonValue) : Option UnitReport := do
  let unit ← (← value.member? "unit").text?
  let sha256? ← digestOf? value
  let outcome ← UnitOutcome.ofValue? value
  return ⟨unit, sha256?, outcome⟩

/-- Reads reports from an array. -/
def listOfValue? (value : JsonValue) : Option (List UnitReport) := do
  (← value.items?).mapM ofValue?

end UnitReport

/-! ### Reading undoes the values -/

theorem JsonValue.natural?_number (value : Nat) : (number value).natural? = some value := by
  simp [natural?]

theorem Site.ofValue?_value (site : Site) : ofValue? site.value = some site := by
  cases site with
  | line number =>
    have hnumber := JsonValue.natural?_number number.toNat
    have hlt : number.toNat < 0x10000 := number.toNat_lt
    simp [ofValue?, value, JsonValue.member?, List.lookup_cons, hnumber, hlt]
  | offset start =>
    have hstart := JsonValue.natural?_number start
    simp [ofValue?, value, JsonValue.member?, List.lookup_cons, hstart]

theorem Finding.ofValue?_value (finding : Finding) : ofValue? finding.value = some finding := by
  cases finding with
  | synchronizedMethod className methodName =>
    simp [ofValue?, value, JsonValue.member?, List.lookup_cons, JsonValue.text?]
  | synchronizedBlock className methodName site =>
    simp [ofValue?, value, JsonValue.member?, List.lookup_cons, JsonValue.text?,
      Site.ofValue?_value]

/-- Where each value is read back, so is a list of them. -/
theorem mapM_ofValue? {α : Type} {read : JsonValue → Option α} {write : α → JsonValue}
    (h : ∀ item, read (write item) = some item) (items : List α) :
    (items.map write).mapM read = some items := by
  induction items with
  | nil => rfl
  | cons item items ih => simp [h, ih]

namespace UnitReport

variable (report : UnitReport)

/-- The digest stands in the way of no other member. -/
theorem member?_value {name : String} (h : name ≠ "sha256") :
    report.value.member? name =
      ((("unit", .string report.unit) :: report.outcome.values).lookup name) := by
  unfold value JsonValue.member?
  cases report.sha256? with
  | none => rfl
  | some digest => simp [List.lookup_cons, beq_eq_false_iff_ne.mpr h]

/-- There is a digest to read exactly if the report has one. -/
theorem digestOf?_value : digestOf? report.value = some report.sha256? := by
  unfold digestOf? value JsonValue.member?
  cases report.sha256? with
  | none =>
    cases report.outcome with
    | scanned _ | failed _ => simp [UnitOutcome.values, List.lookup_cons]
  | some digest => simp [List.lookup_cons, JsonValue.text?]

theorem ofValue?_outcome : UnitOutcome.ofValue? report.value = some report.outcome := by
  have hmember {name : String} (h : name ≠ "sha256") := report.member?_value h
  unfold UnitOutcome.ofValue?
  rw [hmember (by decide), hmember (by decide), hmember (by decide)]
  cases report.outcome with
  | scanned findings =>
    have hfindings := mapM_ofValue? Finding.ofValue?_value findings
    simp [UnitOutcome.values, List.lookup_cons, JsonValue.text?, JsonValue.items?, hfindings]
  | failed message => simp [UnitOutcome.values, List.lookup_cons, JsonValue.text?]

theorem ofValue?_value : ofValue? report.value = some report := by
  have hunit : report.value.member? "unit" = some (.string report.unit) := by
    rw [member?_value report (by decide), List.lookup_cons_self]
  simp [ofValue?, hunit, JsonValue.text?, digestOf?_value, ofValue?_outcome]

theorem listOfValue?_map (reports : List UnitReport) :
    listOfValue? (.array (reports.map value)) = some reports :=
  mapM_ofValue? ofValue?_value reports

end UnitReport

/-! ### What is written -/

open Json (Writes writes_string writes_number writes_array writes_object)

section Written

variable {depth : Nat}

theorem forall₂_map {α : Type} {write : α → Json} {read : α → JsonValue}
    (h : ∀ item, Writes depth (write item) (read item)) (items : List α) :
    List.Forall₂ (Writes depth) (items.map write) (items.map read) := by
  rw [List.forall₂_map_left_iff, List.forall₂_map_right_iff, List.forall₂_same]
  exact fun item _ ↦ h item

theorem Site.writes_toJson (site : Site) : Writes (depth + 2) site.toJson site.value := by
  cases site with
  | line number | offset start =>
    exact writes_object (.cons ⟨rfl, writes_number _⟩ .nil) (by simp)

theorem Finding.writes_toJson (finding : Finding) :
    Writes (depth + 3) finding.toJson finding.value := by
  cases finding with
  | synchronizedMethod className methodName =>
    exact writes_object (.cons ⟨rfl, writes_string _⟩ <| .cons ⟨rfl, writes_string _⟩ <|
      .cons ⟨rfl, writes_string _⟩ .nil) (by simp)
  | synchronizedBlock className methodName site =>
    exact writes_object (.cons ⟨rfl, writes_string _⟩ <| .cons ⟨rfl, writes_string _⟩ <|
      .cons ⟨rfl, writes_string _⟩ <| .cons ⟨rfl, site.writes_toJson⟩ .nil) (by simp)

/-- The members of two objects have the same names in the same order, and the values are written. -/
def WritesMembers (depth : Nat) (members : List (String × Json))
    (values : List (String × JsonValue)) : Prop :=
  List.Forall₂ (fun member value ↦ member.1 = value.1 ∧ Writes depth member.2 value.2)
    members values

theorem UnitOutcome.writes_members (outcome : UnitOutcome) :
    WritesMembers (depth + 4) outcome.members outcome.values := by
  cases outcome with
  | scanned findings =>
    have hfindings : Writes (depth + 4) (.array (findings.map Finding.toJson))
        (.array (findings.map Finding.value)) :=
      writes_array (forall₂_map Finding.writes_toJson findings)
    exact .cons ⟨rfl, writes_string _⟩ (.cons ⟨rfl, hfindings⟩ .nil)
  | failed message => exact .cons ⟨rfl, writes_string _⟩ (.cons ⟨rfl, writes_string _⟩ .nil)

theorem UnitReport.writes_toJson (report : UnitReport) :
    Writes (depth + 5) report.toJson report.value := by
  have hfront : WritesMembers (depth + 4)
      (("unit", .string report.unit) :: report.sha256?.toList.map fun digest ↦
        ("sha256", .string digest))
      (("unit", .string report.unit) :: report.sha256?.toList.map fun digest ↦
        ("sha256", .string digest)) := by
    cases report.sha256? with
    | none => exact .cons ⟨rfl, writes_string _⟩ .nil
    | some digest => exact .cons ⟨rfl, writes_string _⟩ (.cons ⟨rfl, writes_string _⟩ .nil)
  refine writes_object (List.rel_append hfront report.outcome.writes_members) ?_
  -- No name stands there twice.
  cases report.sha256? with
  | none | some digest =>
    cases report.outcome with
    | scanned findings | failed message => simp [UnitOutcome.values]

end Written

/-! ### Reports -/

namespace UnitReport

/-- What is written for reports is one array and a line break, and it denotes the reports and
nothing else, whatever characters are in their texts. A reader of the standard that goes six levels
deep gets the reports back from it, in their order and with all that is in them. So different lists
of reports are written differently. -/
theorem jsonOf_denotes_reports (reports : List UnitReport) :
    (∃ body, (jsonOf reports).toList = body ++ ['\n'] ∧
      JsonSyntax.ValueText 6 body (.array (reports.map value))) ∧
    (∀ found, JsonValue.Denotes (jsonOf reports) found ↔ found = .array (reports.map value)) ∧
    (∀ limit, 6 ≤ limit →
      (JsonValue.read? limit (jsonOf reports)).bind listOfValue? = some reports) ∧
    ∀ others, jsonOf others = jsonOf reports → others = reports := by
  have hwrites (reports : List UnitReport) :
      Writes 6 (.array (reports.map toJson)) (.array (reports.map value)) :=
    writes_array (forall₂_map writes_toJson reports)
  have hdenotes : JsonValue.Denotes (jsonOf reports) (.array (reports.map value)) :=
    ⟨6, (hwrites reports).denotes⟩
  have hread (reports : List UnitReport) {limit : Nat} (hlimit : 6 ≤ limit) :
      (JsonValue.read? limit (jsonOf reports)).bind listOfValue? = some reports := by
    unfold jsonOf
    rw [JsonValue.read?_of_padded hlimit (hwrites reports).denotes]
    exact listOfValue?_map reports
  refine ⟨?_, ?_, ?_, ?_⟩
  · refine ⟨Json.render 0 (.array (reports.map toJson)), ?_, hwrites reports 0⟩
    simp [jsonOf, Json.text]
  · intro found
    constructor
    · intro hfound
      exact hfound.unique hdenotes
    · rintro rfl
      exact hdenotes
  · intro limit hlimit
    exact hread reports hlimit
  · intro others hsame
    have hothers := hread others (Nat.le_refl 6)
    rw [hsame, hread reports (Nat.le_refl 6)] at hothers
    exact (Option.some.inj hothers).symm

/-- A report whose texts hold a quote, a backslash, a line break, a NUL and a supplementary
character, and one of a failure. -/
def awkwardReports : List UnitReport :=
  [⟨"a\"\\\n.class", some "00", .scanned [.synchronizedMethod "p\x00" "😀",
      .synchronizedBlock "p" "run" (.line 7), .synchronizedBlock "p" "run" (.offset 65536)]⟩,
    ⟨"", none, .failed "\x1f"⟩]

theorem jsonOf_awkwardReports :
    (JsonValue.read? 6 (jsonOf awkwardReports)).bind listOfValue? = some awkwardReports ∧
      jsonOf awkwardReports ≠ jsonOf [] :=
  ⟨(jsonOf_denotes_reports awkwardReports).2.2.1 6 (Nat.le_refl 6), fun hsame ↦
    absurd ((jsonOf_denotes_reports []).2.2.2 awkwardReports hsame) (by decide)⟩

end UnitReport

end MonitorAudit
