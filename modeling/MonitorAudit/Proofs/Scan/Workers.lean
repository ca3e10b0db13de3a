import Mathlib.Data.List.Chain
import Mathlib.Logic.Relation
import MonitorAudit.Proofs.Scan.FirstFailure

/-!
# Workers

Inputs can be scanned by workers, one for each input, that run at the same time. They share a cell
that holds the position of the first input known to fail. A worker that fails fast loads the cell
and skips its input if that stands behind the position; otherwise it scans the input, cuts the
reports at the first failure and, if there is one, lowers the cell to its own position. A load may
see any value that the cell has held so far, and the steps of the workers come in any order: `Move`
is one step of one worker, and a schedule is a sequence of moves. What there is to report about each
input is arbitrary. A scan that fails fast may answer all of it or only what comes through the first
failure (`IsAnswer`), as `scanInput` does (`isAnswer_scanInput`).

Every move leaves fewer steps to do (`Workers.Move.remaining_lt`), and workers can move until all of
them have come to an end (`Workers.exists_move_iff`). `Workers.IsSound` is what every move
preserves: a skipped input stands behind one that fails. All schedules therefore end, and with the
outcome of the inputs in their order (`Workers.schedules_end_alike`). It is that of a scan of one
input after the other (`Workers.Reachable.outcome_eq_scanInputs`).
-/

set_option autoImplicit false

namespace MonitorAudit

/-! ### What the scan of an input answers -/

/-- What the scan of an input may answer about which there are some reports. -/
inductive IsAnswer (failFast : Bool) (reports : List UnitReport) : List UnitReport → Prop
  | all : IsAnswer failFast reports reports
  | cut (failFast_eq : failFast = true) : IsAnswer failFast reports (throughFirstFailure reports)

namespace IsAnswer

variable {failFast : Bool} {reports answer : List UnitReport}

/-- An answer tells whether the input fails. -/
theorem any_eq (h : IsAnswer failFast reports answer) :
    answer.any (·.isFailure) = reports.any (·.isFailure) := by
  cases h with
  | all => rfl
  | cut => exact any_throughFirstFailure reports

/-- Cut at the first failure all answers are the same. -/
theorem cut_eq (h : IsAnswer failFast reports answer) :
    throughFirstFailure answer = throughFirstFailure reports := by
  cases h with
  | all => rfl
  | cut => exact throughFirstFailure_throughFirstFailure reports

/-- An answer that does not end the scan has nothing left to cut. -/
theorem eq_of_passed (h : IsAnswer failFast reports answer)
    (hpassed : (failFast && answer.any (·.isFailure)) = false) :
    answer = if failFast then throughFirstFailure reports else reports := by
  cases failFast with
  | false =>
    cases h with
    | all => rfl
    | cut hfailFast => exact absurd hfailFast Bool.false_ne_true
  | true =>
    rw [if_pos rfl, ← h.cut_eq]
    exact (throughFirstFailure_of_passed hpassed).symm

end IsAnswer

/-- The scan of an input cuts its reports by itself. -/
theorem isAnswer_scanInput (access : FileAccess Id) (failFast : Bool) (path : String) :
    IsAnswer failFast (scanInput access false path).run (scanInput access failFast path).run := by
  cases failFast with
  | false => exact .all
  | true =>
    rw [scanInput_failFast]
    exact .cut rfl

/-! ### The steps of the workers -/

/-- How far a worker has come with its input. -/
inductive WorkerStage where
  /-- The worker has not started. -/
  | waiting
  /-- The input is not skipped and has yet to be scanned. -/
  | admitted
  /-- A failure was found that the cell does not tell of yet. -/
  | failing (reports : List UnitReport)
  | finished (reports : List UnitReport)
  | skipped
  deriving DecidableEq, Repr

namespace WorkerStage

/-- Whether nothing is left to do. -/
def isDone : WorkerStage → Bool
  | finished _ | skipped => true
  | _ => false

/-- The reports of the input, if it was scanned. -/
def reports? : WorkerStage → Option (List UnitReport)
  | finished reports => some reports
  | _ => none

/-- How many steps are left at most. -/
def remaining : WorkerStage → Nat
  | waiting => 3
  | admitted => 2
  | failing _ => 1
  | finished _ | skipped => 0

end WorkerStage

/-- The shared cell: what it holds and what it held before. Nothing stands for no failure. -/
structure FailureCell where
  latest : Option Nat
  earlier : List (Option Nat)
  deriving DecidableEq, Repr

namespace FailureCell

/-- The cell before any failure. -/
def initial : FailureCell := ⟨none, []⟩

/-- The values that a load may see. -/
def held (cell : FailureCell) : List (Option Nat) := cell.latest :: cell.earlier

/-- The cell lowered to a position. -/
def lower (cell : FailureCell) (position : Nat) : FailureCell :=
  ⟨some (cell.latest.elim position (min position)), cell.held⟩

end FailureCell

/-- The workers, by the positions of their inputs, and the cell that they share. -/
structure Workers where
  stages : List WorkerStage
  cell : FailureCell
  deriving DecidableEq, Repr

namespace Workers

/-- So many workers before their first step. -/
def start (count : Nat) : Workers := ⟨.replicate count .waiting, .initial⟩

/-- One step of one worker, where the reports of an input stand at its position. -/
inductive Move (failFast : Bool) (results : List (List UnitReport)) : Workers → Workers → Prop
  | load {stages : List WorkerStage} {cell : FailureCell} {position : Nat} {seen : Option Nat}
      (stage : stages[position]? = some .waiting) (seen_held : seen ∈ cell.held) :
      Move failFast results ⟨stages, cell⟩
        ⟨stages.set position
          (if failFast && seen.any (· < position) then .skipped else .admitted), cell⟩
  | scan {stages : List WorkerStage} {cell : FailureCell} {position : Nat}
      {reports answer : List UnitReport} (stage : stages[position]? = some .admitted)
      (result : results[position]? = some reports) (answered : IsAnswer failFast reports answer) :
      Move failFast results ⟨stages, cell⟩
        ⟨stages.set position
          (if failFast && answer.any (·.isFailure) then .failing (throughFirstFailure answer)
            else .finished answer), cell⟩
  | record {stages : List WorkerStage} {cell : FailureCell} {position : Nat}
      {reports : List UnitReport} (stage : stages[position]? = some (.failing reports)) :
      Move failFast results ⟨stages, cell⟩
        ⟨stages.set position (.finished reports), cell.lower position⟩

/-- The workers that some schedule leads to. -/
def Reachable (failFast : Bool) (results : List (List UnitReport)) : Workers → Prop :=
  Relation.ReflTransGen (Move failFast results) (start results.length)

/-- Whether all workers have come to an end. -/
def isDone (workers : Workers) : Bool := workers.stages.all (·.isDone)

/-- The outcome of workers that have come to an end. -/
def outcome (failFast : Bool) (workers : Workers) : ScanOutcome :=
  .gather failFast (workers.stages.map (·.reports?))

/-! ### What every move preserves -/

variable {failFast : Bool} {results : List (List UnitReport)}

/-- The input at a position fails. -/
def Fails (results : List (List UnitReport)) (position : Nat) : Prop :=
  ∃ reports, results[position]? = some reports ∧ reports.any (·.isFailure) = true

/-- The stage of a worker agrees with what is to be found out about its input. -/
inductive Agrees (failFast : Bool) (results : List (List UnitReport)) (position : Nat) :
    WorkerStage → Prop
  | waiting : Agrees failFast results position .waiting
  | admitted : Agrees failFast results position .admitted
  | failing {reports : List UnitReport} (failFast_eq : failFast = true)
      (result : results[position]? = some reports)
      (failed : reports.any (·.isFailure) = true) :
      Agrees failFast results position (.failing (throughFirstFailure reports))
  | finished {reports : List UnitReport} (result : results[position]? = some reports) :
      Agrees failFast results position
        (.finished (if failFast then throughFirstFailure reports else reports))
  | skipped {first : Nat} (failFast_eq : failFast = true) (first_lt : first < position)
      (fails : Fails results first) : Agrees failFast results position .skipped

/-- Each worker has come to a stage that agrees with its input, and the cell has only held positions
of inputs that fail. -/
structure IsSound (failFast : Bool) (results : List (List UnitReport)) (workers : Workers) :
    Prop where
  length_eq : workers.stages.length = results.length
  agrees : ∀ position stage, workers.stages[position]? = some stage →
    Agrees failFast results position stage
  fails : ∀ position, some position ∈ workers.cell.held → Fails results position

theorem isSound_start : (start results.length).IsSound failFast results where
  length_eq := List.length_replicate
  agrees position stage h := by
    obtain ⟨-, rfl⟩ : position < results.length ∧ .waiting = stage := by
      simpa [start, List.getElem?_replicate] using h
    exact .waiting
  fails position h := by simp [start, FailureCell.initial, FailureCell.held] at h

/-- A worker may come to any stage that agrees with its input. -/
theorem IsSound.set {stages : List WorkerStage} {cell : FailureCell}
    (h : IsSound failFast results ⟨stages, cell⟩) {position : Nat} {stage : WorkerStage}
    (hstage : Agrees failFast results position stage) :
    IsSound failFast results ⟨stages.set position stage, cell⟩ where
  length_eq := by simpa using h.length_eq
  agrees other found hfound := by
    rw [List.getElem?_set] at hfound
    split at hfound
    · rename_i hposition
      obtain ⟨-, rfl⟩ : position < stages.length ∧ stage = found := by simpa using hfound
      exact hposition ▸ hstage
    · exact h.agrees other found hfound
  fails := h.fails

/-- The cell may be lowered to the position of an input that fails. -/
theorem IsSound.lower {stages : List WorkerStage} {cell : FailureCell}
    (h : IsSound failFast results ⟨stages, cell⟩) {position : Nat}
    (hfails : Fails results position) :
    IsSound failFast results ⟨stages, cell.lower position⟩ where
  length_eq := h.length_eq
  agrees := h.agrees
  fails other hother := by
    rcases List.mem_cons.mp hother with hlatest | hearlier
    · cases hcell : cell.latest with
      | none =>
        obtain rfl : other = position := by
          simpa [FailureCell.lower, hcell] using hlatest
        exact hfails
      | some before =>
        have hbefore : Fails results before := h.fails before (by simp [FailureCell.held, hcell])
        obtain rfl : other = min position before := by
          simpa [FailureCell.lower, hcell] using hlatest
        rcases Nat.le_total position before with hle | hle
        · rwa [Nat.min_eq_left hle]
        · rwa [Nat.min_eq_right hle]
    · exact h.fails other hearlier

/-- Every step of every worker keeps the workers sound. -/
theorem Move.isSound {workers next : Workers} (hmove : Move failFast results workers next)
    (h : workers.IsSound failFast results) : next.IsSound failFast results := by
  cases hmove with
  | @load stages cell position seen hstage hseen =>
    apply h.set
    split
    · rename_i hskip
      simp only [Bool.and_eq_true, Option.any_eq_true, decide_eq_true_eq] at hskip
      obtain ⟨hfailFast, first, hfirst, hlt⟩ := hskip
      -- The value may be an old one, but an old one too is the position of a failure.
      exact .skipped hfailFast hlt (h.fails first (hfirst ▸ hseen))
    · exact .admitted
  | @scan stages cell position reports answer hstage hresult hanswered =>
    apply h.set
    split
    · rename_i hfailing
      rw [Bool.and_eq_true, hanswered.any_eq] at hfailing
      rw [hanswered.cut_eq]
      exact .failing hfailing.1 hresult hfailing.2
    · rename_i hpassing
      rw [hanswered.eq_of_passed (by simpa using hpassing)]
      exact .finished hresult
  | @record stages cell position found hstage =>
    cases h.agrees position _ hstage with
    | @failing reports hfailFast hresult hfailed =>
      refine IsSound.lower (h.set ?_) ⟨reports, hresult, hfailed⟩
      have hfinished : Agrees failFast results position
          (.finished (if failFast then throughFirstFailure reports else reports)) :=
        .finished hresult
      rwa [if_pos hfailFast] at hfinished

/-- Whatever the schedule, the workers stay sound. -/
theorem Reachable.isSound {workers : Workers} (h : Reachable failFast results workers) :
    workers.IsSound failFast results := by
  induction h with
  | refl => exact isSound_start
  | tail _ hmove ih => exact hmove.isSound ih

/-! ### Coming to an end -/

/-- How many steps workers at some stages have left at most. -/
def remainingOf : List WorkerStage → Nat
  | [] => 0
  | stage :: stages => stage.remaining + remainingOf stages

/-- How many steps all workers have left at most. -/
def remaining (workers : Workers) : Nat := remainingOf workers.stages

/-- A worker that leaves a stage behind has fewer steps left. -/
theorem remainingOf_set_lt {stages : List WorkerStage} {position : Nat} {stage next : WorkerStage}
    (hstage : stages[position]? = some stage) (hnext : next.remaining < stage.remaining) :
    remainingOf (stages.set position next) < remainingOf stages := by
  induction stages generalizing position with
  | nil => simp at hstage
  | cons first stages ih =>
    cases position with
    | zero =>
      obtain rfl : first = stage := by simpa using hstage
      exact Nat.add_lt_add_right hnext _
    | succ position => exact Nat.add_lt_add_left (ih (by simpa using hstage)) _

/-- No schedule goes on for ever. -/
theorem Move.remaining_lt {workers next : Workers} (hmove : Move failFast results workers next) :
    next.remaining < workers.remaining := by
  cases hmove with
  | load hstage hseen =>
    refine remainingOf_set_lt hstage ?_
    split <;> decide
  | scan hstage hresult hanswered =>
    refine remainingOf_set_lt hstage ?_
    split <;> simp [WorkerStage.remaining]
  | record hstage => exact remainingOf_set_lt hstage Nat.one_pos

/-- A schedule has no more moves than there are steps left. -/
theorem length_le_remaining {workers : Workers} {schedule : List Workers}
    (h : List.IsChain (Move failFast results) (workers :: schedule)) :
    schedule.length ≤ workers.remaining := by
  induction schedule generalizing workers with
  | nil => exact Nat.zero_le _
  | cons next schedule ih =>
    obtain ⟨hmove, hrest⟩ := List.isChain_cons_cons.mp h
    exact Nat.lt_of_le_of_lt (ih hrest) hmove.remaining_lt

/-- Each worker has three steps at most. -/
theorem remaining_start (count : Nat) : (start count).remaining = 3 * count := by
  induction count with
  | zero => rfl
  | succ count ih =>
    show WorkerStage.waiting.remaining + (start count).remaining = 3 * (count + 1)
    rw [ih, Nat.mul_succ, Nat.add_comm]
    rfl

/-- A worker that has something left to do keeps the workers from their end. -/
theorem isDone_eq_false {workers : Workers} {position : Nat} {stage : WorkerStage}
    (hstage : workers.stages[position]? = some stage) (hdone : stage.isDone = false) :
    workers.isDone = false :=
  List.all_eq_false.mpr ⟨stage, List.mem_of_getElem? hstage, by simp [hdone]⟩

/-- Workers can move exactly if they have not all come to an end. -/
theorem exists_move_iff {workers : Workers} (h : workers.IsSound failFast results) :
    (∃ next, Move failFast results workers next) ↔ workers.isDone = false := by
  constructor
  · rintro ⟨next, hmove⟩
    cases hmove with
    | load hstage => exact isDone_eq_false hstage rfl
    | scan hstage => exact isDone_eq_false hstage rfl
    | record hstage => exact isDone_eq_false hstage rfl
  · intro hdone
    obtain ⟨stages, cell⟩ := workers
    obtain ⟨stage, hmem, hstage⟩ : ∃ stage ∈ stages, stage.isDone = false := by
      simpa [isDone] using hdone
    obtain ⟨position, hposition⟩ := List.mem_iff_getElem?.mp hmem
    cases stage with
    | waiting => exact ⟨_, .load hposition List.mem_cons_self⟩
    | admitted =>
      have hlt : position < results.length := by
        rw [← h.length_eq]
        exact (List.getElem?_eq_some_iff.mp hposition).1
      exact ⟨_, .scan hposition (List.getElem?_eq_getElem hlt) .all⟩
    | failing reports => exact ⟨_, .record hposition⟩
    | finished reports => simp [WorkerStage.isDone] at hstage
    | skipped => simp [WorkerStage.isDone] at hstage

/-- Wherever a schedule has led the workers, some way to go on leads all of them to an end. -/
theorem Reachable.exists_isDone {workers : Workers} (h : Reachable failFast results workers) :
    ∃ last, Relation.ReflTransGen (Move failFast results) workers last ∧ last.isDone = true := by
  induction hcount : workers.remaining using Nat.strongRecOn generalizing workers with
  | ind count ih =>
    cases hdone : workers.isDone with
    | true => exact ⟨workers, .refl, hdone⟩
    | false =>
      obtain ⟨next, hmove⟩ := (exists_move_iff h.isSound).mpr hdone
      have hlt : next.remaining < count := hcount ▸ hmove.remaining_lt
      obtain ⟨last, hlast, hend⟩ := ih next.remaining hlt (h.tail hmove) rfl
      exact ⟨last, .head hmove hlast, hend⟩

/-! ### The outcome -/

/-- Behind an input that does not end the scan nothing is skipped on its account. -/
theorem Agrees.of_cons {reports : List UnitReport} {position : Nat} {stage : WorkerStage}
    (h : Agrees failFast (reports :: results) (position + 1) stage)
    (hreports : (failFast && reports.any (·.isFailure)) = false) :
    Agrees failFast results position stage := by
  cases h with
  | waiting => exact .waiting
  | admitted => exact .admitted
  | failing hfailFast hresult hfailed => exact .failing hfailFast hresult hfailed
  | finished hresult => exact .finished hresult
  | @skipped first hfailFast hlt hfails =>
    cases first with
    | zero =>
      obtain ⟨found, hfound, hfailed⟩ := hfails
      obtain rfl : reports = found := by simpa using hfound
      simp [hfailFast, hfailed] at hreports
    | succ first => exact .skipped hfailFast (Nat.lt_of_succ_lt_succ hlt) hfails

/-- What workers at their ends have found out is what the inputs have to tell. -/
theorem gather_of_agrees {results : List (List UnitReport)} {stages : List WorkerStage}
    (hlength : stages.length = results.length)
    (hagrees : ∀ position stage, stages[position]? = some stage →
      Agrees failFast results position stage)
    (hdone : ∀ stage ∈ stages, stage.isDone = true) :
    ScanOutcome.gather failFast (stages.map (·.reports?)) =
      .gather failFast (results.map fun reports ↦
        some (if failFast then throughFirstFailure reports else reports)) := by
  induction results generalizing stages with
  | nil =>
    obtain rfl := List.length_eq_zero_iff.mp hlength
    rfl
  | cons reports results ih =>
    cases stages with
    | nil => simp at hlength
    | cons stage stages =>
      have hstage := hagrees 0 stage rfl
      have hfirst : stage.reports? =
          some (if failFast then throughFirstFailure reports else reports) := by
        cases hstage with
        | finished hresult =>
          obtain rfl := Option.some.inj hresult
          rfl
        -- Nothing stands in front of the first input on whose account it could be skipped.
        | skipped hfailFast hlt hfails => exact absurd hlt (Nat.not_lt_zero _)
        | _ => simp [WorkerStage.isDone] at hdone
      have hany : (if failFast then throughFirstFailure reports else reports).any (·.isFailure) =
          reports.any (·.isFailure) := by
        split
        · exact any_throughFirstFailure reports
        · rfl
      rw [List.map_cons, List.map_cons, hfirst, ScanOutcome.gather, ScanOutcome.gather, hany]
      cases hreports : failFast && reports.any (·.isFailure) with
      | true => rfl
      | false =>
        have hrest := ih (Nat.succ.inj hlength)
          (fun position found hfound ↦ (hagrees (position + 1) found hfound).of_cons hreports)
          fun found hfound ↦ hdone found (List.mem_cons_of_mem stage hfound)
        rw [hrest]

/-- The outcome of workers that have come to their ends is that of all reports in order, cut at the
first failure of each input if the scan fails fast. -/
theorem Reachable.outcome_eq {workers : Workers} (h : Reachable failFast results workers)
    (hdone : workers.isDone = true) :
    workers.outcome failFast = .gather failFast (results.map fun reports ↦
      some (if failFast then throughFirstFailure reports else reports)) :=
  gather_of_agrees h.isSound.length_eq h.isSound.agrees (List.all_eq_true.mp hdone)

/-- Without failing fast workers find all reports of all inputs. -/
theorem Reachable.outcome_all {workers : Workers} (h : Reachable false results workers)
    (hdone : workers.isDone = true) : workers.outcome false = ⟨results.flatten, false⟩ := by
  rw [h.outcome_eq hdone]
  exact ScanOutcome.gather_all results

/-- Failing fast workers find the reports through the first failure. -/
theorem Reachable.outcome_cut {workers : Workers} (h : Reachable true results workers)
    (hdone : workers.isDone = true) : workers.outcome true =
      ⟨throughFirstFailure results.flatten, results.flatten.any (·.isFailure)⟩ := by
  rw [h.outcome_eq hdone]
  exact ScanOutcome.gather_cut results

/-- Failing fast workers find all reports if none is of a failure. -/
theorem Reachable.outcome_of_passed {workers : Workers} (h : Reachable true results workers)
    (hdone : workers.isDone = true) (hpassed : ∀ report ∈ results.flatten,
      report.isFailure = false) : workers.outcome true = ⟨results.flatten, false⟩ := by
  have hany := any_isFailure_eq_false hpassed
  rw [h.outcome_cut hdone, throughFirstFailure_of_passed hany, hany]

/-- Failing fast workers find the reports in front of the first failure, and that one. -/
theorem Reachable.outcome_of_failed {workers : Workers} (h : Reachable true results workers)
    (hdone : workers.isDone = true) {front behind : List UnitReport} {failing : UnitReport}
    (hreports : results.flatten = front ++ failing :: behind)
    (hfront : ∀ report ∈ front, report.isFailure = false) (hfailing : failing.isFailure = true) :
    workers.outcome true = ⟨front ++ [failing], true⟩ := by
  rw [h.outcome_cut hdone, hreports,
    throughFirstFailure_append_cons (any_isFailure_eq_false hfront) hfailing]
  simp [hfailing]

/-- Whatever the schedule, the outcome of workers that have come to their ends is that of a scan of
one input after the other. -/
theorem Reachable.outcome_eq_scanInputs {access : FileAccess Id} {inputs : List String}
    {workers : Workers}
    (h : Reachable failFast (inputs.map fun path ↦ (scanInput access false path).run) workers)
    (hdone : workers.isDone = true) :
    workers.outcome failFast = (scanInputs access failFast inputs).run := by
  rw [h.outcome_eq hdone, scanInputs_eq_gather, List.map_map]
  cases failFast with
  | false => rfl
  | true => simp [scanInput_failFast, Function.comp_def]

/-- Every schedule comes to an end, whatever the reports of the inputs are, and all of them end with
the same outcome. A schedule has at most three moves for each input, workers can move until all have
come to an end, and wherever they are they can come to it. Without failing fast the outcome holds
all reports in the order of the inputs. Failing fast it holds them through the first failure, if
there is one. A skipped input always stands behind one that fails. -/
theorem schedules_end_alike (failFast : Bool) (results : List (List UnitReport)) :
    (∀ workers next, Move failFast results workers next → next.remaining < workers.remaining) ∧
    (∀ schedule, List.IsChain (Move failFast results) (start results.length :: schedule) →
      schedule.length ≤ 3 * results.length) ∧
    ∀ workers, Reachable failFast results workers →
      ((∃ next, Move failFast results workers next) ↔ workers.isDone = false) ∧
      (∃ last, Relation.ReflTransGen (Move failFast results) workers last ∧ last.isDone = true) ∧
      (∀ position, workers.stages[position]? = some .skipped →
        failFast = true ∧ ∃ first < position, Fails results first) ∧
      (workers.isDone = true →
        (failFast = false → workers.outcome failFast = ⟨results.flatten, false⟩) ∧
        (failFast = true → (∀ report ∈ results.flatten, report.isFailure = false) →
          workers.outcome failFast = ⟨results.flatten, false⟩) ∧
        (failFast = true → ∀ front failing behind, results.flatten = front ++ failing :: behind →
          (∀ report ∈ front, report.isFailure = false) → failing.isFailure = true →
            workers.outcome failFast = ⟨front ++ [failing], true⟩ ∧
              (workers.outcome failFast).failures = 1) ∧
        ∀ other, Reachable failFast results other → other.isDone = true →
          other.outcome failFast = workers.outcome failFast) := by
  refine ⟨fun _ _ hmove ↦ hmove.remaining_lt, fun schedule hschedule ↦ ?_, fun workers h ↦
    ⟨exists_move_iff h.isSound, h.exists_isDone, ?_, fun hdone ↦ ⟨?_, ?_, ?_, ?_⟩⟩⟩
  · rw [← remaining_start]
    exact length_le_remaining hschedule
  · intro position hskipped
    cases h.isSound.agrees position _ hskipped with
    | skipped hfailFast hlt hfails => exact ⟨hfailFast, _, hlt, hfails⟩
  · rintro rfl
    exact h.outcome_all hdone
  · rintro rfl hpassed
    exact h.outcome_of_passed hdone hpassed
  · rintro rfl front failing behind hreports hfront hfailing
    rw [h.outcome_of_failed hdone hreports hfront hfailing]
    exact ⟨rfl, ScanOutcome.failures_append_singleton hfront hfailing true⟩
  · intro other hother hend
    rw [hother.outcome_eq hend, h.outcome_eq hdone]

/-! ### A race -/

/-- A worker that is let in by some value of the cell scans an input that fails. -/
theorem Reachable.scan_failing {stages : List WorkerStage} {cell : FailureCell}
    (h : Reachable true results ⟨stages, cell⟩) (position : Nat) (seen : Option Nat)
    {reports answer : List UnitReport} (stage : stages[position]? = some .waiting)
    (seen_held : seen ∈ cell.held) (admitted : seen.any (· < position) = false)
    (result : results[position]? = some reports) (answered : IsAnswer true reports answer)
    (failed : reports.any (·.isFailure) = true) :
    Reachable true results
      ⟨stages.set position (.finished (throughFirstFailure reports)), cell.lower position⟩ := by
  have hlt : position < stages.length := (List.getElem?_eq_some_iff.mp stage).1
  have hload := h.tail (.load stage seen_held)
  rw [admitted] at hload
  have hscan := hload.tail (.scan (List.getElem?_set_self hlt) result answered)
  rw [List.set_set, answered.any_eq, answered.cut_eq, failed] at hscan
  have hrecord := hscan.tail (.record (List.getElem?_set_self hlt))
  rwa [List.set_set] at hrecord

/-- The reports of an archive with a sound and two broken members, and of three broken files. -/
def racedResults : List (List UnitReport) :=
  [[⟨"a.jar!/A.class", none, .scanned []⟩, .failed "a.jar!/B.class" none "broken",
      .failed "a.jar!/C.class" none "broken"],
    [.failed "b.class" none "broken"], [.failed "c.class" none "broken"],
    [.failed "d.class" none "broken"]]

/-- Four workers of which the last one skips its input. The third one was let in by a value that
the cell held before the second one lowered it, and the first one lowered the cell last. -/
def racedWorkers : Workers where
  stages := [
    .finished [⟨"a.jar!/A.class", none, .scanned []⟩, .failed "a.jar!/B.class" none "broken"],
    .finished [.failed "b.class" none "broken"], .finished [.failed "c.class" none "broken"],
    .skipped]
  cell := ⟨some 0, [some 1, some 1, none]⟩

theorem reachable_racedWorkers : Reachable true racedResults racedWorkers := by
  have hstart : Reachable true racedResults (start 4) := .refl
  have hsecond := hstart.scan_failing 1 none rfl (by decide) rfl rfl .all rfl
  have hthird := hsecond.scan_failing 2 none rfl (by decide) rfl rfl .all rfl
  have hfourth := hthird.tail (@Move.load _ _ _ _ 3 (some 1) rfl (by decide))
  exact Reachable.scan_failing hfourth 0 (some 1) rfl (by decide) rfl rfl (.cut rfl) rfl

theorem outcome_racedWorkers :
    Reachable true racedResults racedWorkers ∧ racedWorkers.isDone = true ∧
    racedWorkers.outcome true = ⟨[⟨"a.jar!/A.class", none, .scanned []⟩,
      .failed "a.jar!/B.class" none "broken"], true⟩ ∧
    (racedWorkers.outcome true).failures = 1 ∧
    ∃ first < 3, Fails racedResults first := by
  obtain ⟨-, -, hskipped, hdone⟩ :=
    (schedules_end_alike true racedResults).2.2 racedWorkers reachable_racedWorkers
  obtain ⟨-, -, hfailed, -⟩ := hdone rfl
  obtain ⟨houtcome, hfailures⟩ := hfailed rfl [⟨"a.jar!/A.class", none, .scanned []⟩]
    (.failed "a.jar!/B.class" none "broken") _ rfl (by decide) rfl
  exact ⟨reachable_racedWorkers, rfl, houtcome, hfailures, (hskipped 3 rfl).2⟩

end Workers

end MonitorAudit
