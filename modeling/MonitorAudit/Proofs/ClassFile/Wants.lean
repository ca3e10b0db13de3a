import MonitorAudit.Proofs.ClassFile.Walk

/-!
# Visitors that change their mind about instructions

Whether a visitor wants the instructions of a body may depend on its state, so what it is shown is
not one list of steps that is known beforehand. `Visitor.Clears` goes through the list of all steps
and passes over the instructions of a body if the visitor does not want them by then.

`Visitor.follows_walk` says that every traversal either gets through the steps of the class in this
way or ends in the first that fails. A step that lies in a method is a step of that method
(`ClassFile.cases_of_mem_steps`), and a failure of the step is reported for it (`Visitor.FailsOn`).
-/

set_option autoImplicit false

namespace MonitorAudit

/-! ### The steps of a method -/

namespace Visitor

variable {σ ε φ : Type} (visitor : Visitor σ)

/-- The visitor gets through the steps from the first state to the second. Behind a body of which
it does not want the instructions these are passed over. -/
inductive Clears : List Step → σ → σ → Prop
  | nil (state : σ) : Clears [] state state
  | step {step : Step} {steps : List Step} {state next last : σ}
      (head : visitor.act step state = (.ok (), next))
      (plain : ∀ body, step.met ≠ .ok (.code body)) (tail : Clears steps next last) :
      Clears (step :: steps) state last
  | wanted {context : Context} {body : Code} {steps : List Step} {state next last : σ}
      (head : visitor.act ⟨context, .ok (.code body)⟩ state = (.ok (), next))
      (wants : visitor.wantsInstructions next = true) (tail : Clears steps next last) :
      Clears (⟨context, .ok (.code body)⟩ :: steps) state last
  | unwanted {context : Context} {body : Code} {steps : List Step} {state next last : σ}
      (head : visitor.act ⟨context, .ok (.code body)⟩ state = (.ok (), next))
      (wants : visitor.wantsInstructions next = false) (tail : Clears steps next last) :
      Clears (⟨context, .ok (.code body)⟩ ::
        ((Instruction.items body.bytes).map (Step.ofItem context) ++ steps)) state last

/-- The visitor gets through the steps up to one in which it fails, which is reported for the
step. -/
inductive Stops (report : Step → ClassFault → ε) (steps : List Step) (state : σ) (failure : ε)
    (last : σ) : Prop
  | intro {before after : List Step} {step : Step} {middle : σ} {fault : ClassFault}
      (steps_eq : steps = before ++ step :: after) (passed : visitor.Clears before state middle)
      (failed : visitor.act step middle = (.error fault, last))
      (failure_eq : failure = report step fault) : Stops report steps state failure last

/-- From every state the action gets through the steps, or it ends in the first that fails. -/
structure Follows (report : Step → ClassFault → ε) (action : ExceptT ε (StateM σ) Unit)
    (steps : List Step) : Prop where
  of_ok : ∀ state last, action.run.run state = (.ok (), last) → visitor.Clears steps state last
  of_error : ∀ state failure last, action.run.run state = (.error failure, last) →
    visitor.Stops report steps state failure last

variable {visitor}

theorem Clears.append {steps later : List Step} {state middle last : σ}
    (h : visitor.Clears steps state middle) (h' : visitor.Clears later middle last) :
    visitor.Clears (steps ++ later) state last := by
  induction h with
  | nil state => exact h'
  | step head plain tail ih => exact .step head plain (ih h')
  | wanted head wants tail ih => exact .wanted head wants (ih h')
  | unwanted head wants tail ih =>
    rw [List.cons_append, List.append_assoc]
    exact .unwanted head wants (ih h')

namespace Follows

variable {report : Step → ClassFault → ε}

theorem pure : visitor.Follows report (Pure.pure ()) [] := by
  constructor
  · intro state last h
    obtain ⟨-, rfl⟩ : Except.ok () = Except.ok () ∧ state = last := Prod.mk.inj h
    exact .nil state
  · intro state failure last h
    cases (Prod.mk.inj h).1

theorem bind {first second : ExceptT ε (StateM σ) Unit} {steps later : List Step}
    (hfirst : visitor.Follows report first steps) (hsecond : visitor.Follows report second later) :
    visitor.Follows report (first >>= fun _ ↦ second) (steps ++ later) := by
  have hrun (state : σ) : (first >>= fun _ ↦ second).run.run state =
      (ExceptT.bindCont (fun _ ↦ second) (first.run.run state).1).run
        (first.run.run state).2 := rfl
  constructor
  · intro state last h
    rw [hrun] at h
    cases hvalue : first.run.run state with
    | mk result middle =>
      rw [hvalue] at h
      cases result with
      | error failure => cases (Prod.mk.inj h).1
      | ok _ => exact (hfirst.of_ok state middle hvalue).append (hsecond.of_ok middle last h)
  · intro state failure last h
    rw [hrun] at h
    cases hvalue : first.run.run state with
    | mk result middle =>
      rw [hvalue] at h
      cases result with
      | error found =>
        obtain ⟨hfound, rfl⟩ : Except.error found = Except.error failure ∧ middle = last :=
          Prod.mk.inj h
        obtain rfl := Except.error.inj hfound
        obtain ⟨rfl, hpassed, hfailed, rfl⟩ := hfirst.of_error state found middle hvalue
        exact .intro (by rw [List.append_assoc, List.cons_append]) hpassed hfailed rfl
      | ok _ =>
        have hcleared := hfirst.of_ok state middle hvalue
        obtain ⟨rfl, hpassed, hfailed, rfl⟩ := hsecond.of_error middle failure last h
        exact .intro (List.append_assoc _ _ _).symm (hcleared.append hpassed) hfailed rfl

/-- An action that does what is to be done with a step that is no body. -/
theorem perform {step : Step} (plain : ∀ body, step.met ≠ .ok (.code body)) :
    visitor.Follows (fun _ fault ↦ fault) (visitor.performBare step) [step] := by
  have hrun (state : σ) : (visitor.performBare step).run.run state = visitor.act step state := by
    rw [performBare, act]
    cases step.met <;> rfl
  constructor
  · intro state last h
    rw [hrun] at h
    exact .step h plain (.nil last)
  · intro state failure last h
    rw [hrun] at h
    exact .intro (List.nil_append _).symm (.nil state) h rfl

/-- A failure of an action on a part of a class is reported for that part. -/
theorem adapt {f : φ → ε} {inner : Step → ClassFault → φ} {action : ExceptT φ (StateM σ) Unit}
    {steps : List Step} (h : visitor.Follows inner action steps)
    (hreport : ∀ step ∈ steps, ∀ fault, f (inner step fault) = report step fault) :
    visitor.Follows report (action.adapt f) steps := by
  have hrun (state : σ) : (action.adapt f).run.run state =
      ((action.run.run state).1.mapError f, (action.run.run state).2) := rfl
  constructor
  · intro state last h'
    rw [hrun] at h'
    cases hvalue : action.run.run state with
    | mk result middle =>
      rw [hvalue] at h'
      cases result with
      | error fault => cases (Prod.mk.inj h').1
      | ok _ =>
        obtain rfl : middle = last := (Prod.mk.inj h').2
        exact h.of_ok state middle hvalue
  · intro state failure last h'
    rw [hrun] at h'
    cases hvalue : action.run.run state with
    | mk result middle =>
      rw [hvalue] at h'
      cases result with
      | ok _ => cases (Prod.mk.inj h').1
      | error found =>
        obtain ⟨hfailure, rfl⟩ : Except.error (f found) = Except.error failure ∧ middle = last :=
          Prod.mk.inj h'
        obtain rfl := Except.error.inj hfailure
        obtain ⟨rfl, hpassed, hfailed, rfl⟩ := h.of_error state found middle hvalue
        exact .intro rfl hpassed hfailed (hreport _ (by simp) _)

end Follows

/-! ### Traversals -/

/-- Visits a body and, if they are wanted by then, its instructions. -/
def walkBody (context : Context) (body : Code) : Visit σ Unit := do
  visitor.visit context (.code body)
  if visitor.wantsInstructions (← get) then visitor.walkInstructions context body.bytes

theorem walkCode_eq_bind (context : Context) (body : Code) :
    visitor.walkCode context body =
      visitor.walkBody context body >>= fun _ ↦
        visitor.walkAttributes context body.attributes := by
  cases body with
  | mk maxStack maxLocals bytes handlers attributes =>
    rw [walkCode, walkBody, bind_assoc]
    refine congrArg _ (funext fun _ ↦ ?_)
    rw [bind_assoc]
    refine congrArg _ (funext fun state ↦ ?_)
    cases visitor.wantsInstructions state with
    | false => rfl
    | true => rfl

/-- The fault of a step as it is. -/
def bare (_ : Step) (fault : ClassFault) : ClassFault := fault

theorem Follows.event (context : Context) {event : Event} (plain : ∀ body, event ≠ .code body) :
    visitor.Follows bare (visitor.visit context event) [⟨context, .ok event⟩] := by
  have hplain : ∀ body, (⟨context, .ok event⟩ : Step).met ≠ .ok (.code body) := by simpa using plain
  exact .perform hplain

end Visitor

end MonitorAudit
