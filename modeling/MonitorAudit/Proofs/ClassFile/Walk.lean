import MonitorAudit.Proofs.ClassFile.Steps

/-!
# A traversal as a fold over its steps

`Visitor.act` is what a visitor does with one step from a state. `Visitor.Passes` says that a
visitor gets through steps one after the other, none of which fails, and `Visitor.Ends` how it ends
with steps that it performs up to the first that fails. A failure is reported for the class of the
step and, inside a method, for the method.

`Visitor.walk_ends_iff` says that a traversal ends as its steps end, for every visitor that either
always or never wants instructions. `Step.IsPlaced` says that the context of a step names what
encloses it: an attribute is one of those that hang off the innermost part that is named, and an
instruction is one of the body that is named.
-/

set_option autoImplicit false

namespace MonitorAudit

/-! ### What the context of a step names -/

/-- The attributes that hang off the innermost part that a context names. -/
def Context.attributes (context : Context) : List Attribute :=
  match context.code?, context.method?, context.field? with
  | some body, _, _ => body.attributes
  | none, some method, _ => method.attributes
  | none, none, some field => field.attributes
  | none, none, none => context.classFile.attributes

/-- The context of a step names what encloses it. -/
def Step.IsPlaced (step : Step) : Prop :=
  match step.met with
  | .ok .classFile =>
    step.context.field? = none ∧ step.context.method? = none ∧ step.context.code? = none
  | .ok (.field member) => step.context.field? = some member ∧ step.context.code? = none
  | .ok (.method member) => step.context.method? = some member ∧ step.context.code? = none
  | .ok (.code body) => step.context.code? = some body
  | .ok (.instruction value) =>
    ∃ body ∈ step.context.code?, .ok value ∈ Instruction.items body.bytes
  | .ok (.record value) => (value : Attribute) ∈ step.context.attributes
  | .error fault => ∃ body ∈ step.context.code?, .error fault ∈ Instruction.items body.bytes

/-- A step lies in the class, in the field and in the method of a context. -/
def Step.SharesMember (step : Step) (context : Context) : Prop :=
  step.context.classFile = context.classFile ∧ step.context.field? = context.field? ∧
    step.context.method? = context.method?

/-- The step of an item of a body names the body. -/
theorem Step.isPlaced_ofItem {context : Context} {body : Code} (hcode : context.code? = some body)
    {item : Except InstructionFault Instruction} (hitem : item ∈ Instruction.items body.bytes) :
    (Step.ofItem context item).IsPlaced := by
  cases item with
  | ok value => exact ⟨body, hcode, hitem⟩
  | error fault => exact ⟨body, hcode, hitem⟩

/-- The steps of an attribute lie where the attribute does, and each names what encloses it. -/
theorem Attribute.isPlaced_of_mem_steps (wants : Bool) (value : Attribute) (context : Context)
    (hvalue : value ∈ context.attributes) :
    ∀ step ∈ value.steps wants context, step.IsPlaced ∧ step.SharesMember context := by
  induction value using Attribute.body_induction generalizing context with
  | code body ih =>
    intro step hstep
    rw [Attribute.steps, Code.steps_eq, List.mem_cons, List.mem_append] at hstep
    rcases hstep with rfl | hitem | hinside
    · exact ⟨rfl, rfl, rfl, rfl⟩
    · cases wants with
      | false => simp at hitem
      | true =>
        obtain ⟨item, hfound, rfl⟩ := List.mem_map.mp hitem
        exact ⟨Step.isPlaced_ofItem rfl hfound, rfl, rfl, rfl⟩
    · obtain ⟨inner, hinner, hstep⟩ := List.mem_flatMap.mp hinside
      exact ih inner hinner { context with code? := some body } hinner step hstep
  | record value hrecord =>
    intro step hstep
    obtain ⟨record, hevent, rfl⟩ := Attribute.exists_event_eq_record hrecord
    rw [Attribute.steps_of_ne_code hrecord, List.mem_singleton, hevent] at hstep
    rw [hstep]
    exact ⟨hvalue, rfl, rfl, rfl⟩

/-- So do the steps of all attributes of the innermost part. -/
theorem Attribute.isPlaced_of_mem_stepsOfAll (wants : Bool) (context : Context) :
    ∀ step ∈ Attribute.stepsOfAll wants context context.attributes,
      step.IsPlaced ∧ step.SharesMember context := by
  intro step hstep
  rw [Attribute.stepsOfAll_eq_flatMap] at hstep
  obtain ⟨value, hvalue, hstep⟩ := List.mem_flatMap.mp hstep
  exact Attribute.isPlaced_of_mem_steps wants value context hvalue step hstep

theorem Member.isPlaced_of_mem_stepsOfField (wants : Bool) (classFile : ClassFile)
    (field : Member) :
    ∀ step ∈ field.stepsOfField wants (.ofClass classFile),
      step.IsPlaced ∧ step.SharesMember ⟨classFile, some field, none, none⟩ := by
  intro step hstep
  rw [stepsOfField, List.mem_cons] at hstep
  rcases hstep with rfl | hinside
  · exact ⟨⟨rfl, rfl⟩, rfl, rfl, rfl⟩
  · exact Attribute.isPlaced_of_mem_stepsOfAll wants ⟨classFile, some field, none, none⟩
      step hinside

theorem Member.isPlaced_of_mem_stepsOfMethod (wants : Bool) (classFile : ClassFile)
    (method : Member) :
    ∀ step ∈ method.stepsOfMethod wants (.ofClass classFile),
      step.IsPlaced ∧ step.SharesMember ⟨classFile, none, some method, none⟩ := by
  intro step hstep
  rw [stepsOfMethod, List.mem_cons] at hstep
  rcases hstep with rfl | hinside
  · exact ⟨⟨rfl, rfl⟩, rfl, rfl, rfl⟩
  · exact Attribute.isPlaced_of_mem_stepsOfAll wants ⟨classFile, none, some method, none⟩
      step hinside

/-- The context of each step of a class names what encloses it. -/
theorem ClassFile.isPlaced_of_mem_steps (wants : Bool) (classFile : ClassFile) :
    ∀ step ∈ classFile.steps wants, step.IsPlaced := by
  intro step hstep
  rw [steps, List.mem_cons, List.mem_append, List.mem_append] at hstep
  rcases hstep with rfl | hfield | hmethod | hinside
  · exact ⟨rfl, rfl, rfl⟩
  · obtain ⟨field, -, hstep⟩ := List.mem_flatMap.mp hfield
    exact (Member.isPlaced_of_mem_stepsOfField wants classFile field step hstep).1
  · obtain ⟨method, -, hstep⟩ := List.mem_flatMap.mp hmethod
    exact (Member.isPlaced_of_mem_stepsOfMethod wants classFile method step hstep).1
  · exact (Attribute.isPlaced_of_mem_stepsOfAll wants (.ofClass classFile) step hinside).1

/-! ### Steps up to the first that fails -/

namespace Visitor

variable {σ : Type} (visitor : Visitor σ)

/-- What the visitor does with a step from a state: how it goes and the state that it leaves. -/
def act (step : Step) (state : σ) : Except ClassFault Unit × σ :=
  match step.met with
  | .ok event => (visitor.visit step.context event).run.run state
  | .error fault => (.error (.instruction fault), state)

/-- The visitor gets through all of the steps from the first state to the second. -/
inductive Passes : List Step → σ → σ → Prop
  | nil (state : σ) : Passes [] state state
  | cons {step : Step} {steps : List Step} {state next last : σ}
      (head : visitor.act step state = (.ok (), next)) (tail : Passes steps next last) :
      Passes (step :: steps) state last

/-- How the visitor ends with the steps from a state: it gets through all of them, or it fails in
the first of them that fails. -/
inductive Ends (steps : List Step) (state : σ) : Except ScanFailure Unit → σ → Prop
  | passed {last : σ} (all : visitor.Passes steps state last) : Ends steps state (.ok ()) last
  | failed {before after : List Step} {step : Step} {middle last : σ} {fault : ClassFault}
      (steps_eq : steps = before ++ step :: after) (passed : visitor.Passes before state middle)
      (failure : visitor.act step middle = (.error fault, last)) :
      Ends steps state (.error (step.failure fault)) last

variable {visitor}

/-- A step that succeeds leaves the rest of the steps to be ended. -/
theorem ends_cons_iff {step : Step} {steps : List Step} {state next : σ}
    (hstep : visitor.act step state = (.ok (), next)) (result : Except ScanFailure Unit)
    (last : σ) :
    visitor.Ends (step :: steps) state result last ↔ visitor.Ends steps next result last := by
  constructor
  · rintro (⟨hall⟩ | ⟨hsteps, hpassed, hfailure⟩)
    · cases hall with
      | cons hhead htail =>
        obtain rfl : _ = next := (Prod.mk.inj (hhead.symm.trans hstep)).2
        exact .passed htail
    · cases hpassed with
      | nil =>
        obtain ⟨rfl, rfl⟩ := List.cons.inj hsteps
        simp [hstep] at hfailure
      | cons hhead htail =>
        obtain ⟨rfl, rfl⟩ := List.cons.inj hsteps
        obtain rfl : _ = next := (Prod.mk.inj (hhead.symm.trans hstep)).2
        exact .failed rfl htail hfailure
  · rintro (⟨hall⟩ | ⟨rfl, hpassed, hfailure⟩)
    · exact .passed (.cons hstep hall)
    · exact .failed rfl (.cons hstep hpassed) hfailure

/-- Nothing follows a step that fails. -/
theorem ends_cons_of_error_iff {step : Step} {steps : List Step} {state left : σ}
    {fault : ClassFault} (hstep : visitor.act step state = (.error fault, left))
    (result : Except ScanFailure Unit) (last : σ) :
    visitor.Ends (step :: steps) state result last ↔
      result = .error (step.failure fault) ∧ last = left := by
  constructor
  · rintro (⟨hall⟩ | ⟨hsteps, hpassed, hfailure⟩)
    · cases hall with
      | cons hhead htail => simp [hhead] at hstep
    · cases hpassed with
      | nil =>
        obtain ⟨rfl, rfl⟩ := List.cons.inj hsteps
        obtain ⟨hfault, rfl⟩ := Prod.mk.inj (hfailure.symm.trans hstep)
        exact ⟨by rw [Except.error.inj hfault], rfl⟩
      | cons hhead htail =>
        obtain ⟨rfl, rfl⟩ := List.cons.inj hsteps
        simp [hhead] at hstep
  · rintro ⟨rfl, rfl⟩
    have hsteps : step :: steps = [] ++ step :: steps := rfl
    exact .failed hsteps (.nil state) hstep

theorem perform_run (step : Step) (state : σ) :
    (visitor.perform step).run.run state =
      ((visitor.act step state).1.mapError step.failure, (visitor.act step state).2) := by
  obtain ⟨context, met⟩ := step
  cases met <;> rfl

/-- Performing steps from a state ends as the steps end. -/
theorem forM_perform_ends_iff (steps : List Step) (state : σ) (result : Except ScanFailure Unit)
    (last : σ) :
    (forM steps visitor.perform).run.run state = (result, last) ↔
      visitor.Ends steps state result last := by
  induction steps generalizing state with
  | nil =>
    show (Except.ok (), state) = (result, last) ↔ _
    constructor
    · intro h
      obtain ⟨rfl, rfl⟩ := Prod.mk.inj h
      exact .passed (.nil state)
    · rintro (⟨⟨⟩⟩ | ⟨hsteps, -, -⟩)
      · rfl
      · simp at hsteps
  | cons step steps ih =>
    rw [List.forM_cons]
    show (ExceptT.bindCont (fun _ ↦ forM steps visitor.perform)
      ((visitor.perform step).run.run state).1).run ((visitor.perform step).run.run state).2 =
        (result, last) ↔ _
    rw [perform_run]
    cases hstep : visitor.act step state with
    | mk outcome next =>
      cases outcome with
      | ok _ => exact (ih next).trans (ends_cons_iff hstep result last).symm
      | error fault =>
        rw [ends_cons_of_error_iff hstep]
        show (Except.error (step.failure fault), next) = (result, last) ↔ _
        rw [Prod.mk.injEq, eq_comm, @eq_comm _ next]

/-! ### Traversals -/

/-- A traversal of a class ends as the steps of the class end: the visitor gets through all of them,
or it fails in the first that fails, for the class and, inside a method, for the method. The context
of each step names what encloses it, and the steps of a field, of a method and of the attributes of
the class lie there. -/
theorem walk_ends_iff {wants : Bool} (hwants : ∀ state, visitor.wantsInstructions state = wants)
    (classFile : ClassFile) (state : σ) :
    (∀ result last, (visitor.walk classFile).run.run state = (result, last) ↔
      visitor.Ends (classFile.steps wants) state result last) ∧
    (∀ step ∈ classFile.steps wants, step.IsPlaced) ∧
    (∀ field : Member, ∀ step ∈ field.stepsOfField wants (.ofClass classFile),
      step.SharesMember ⟨classFile, some field, none, none⟩) ∧
    (∀ method : Member, ∀ step ∈ method.stepsOfMethod wants (.ofClass classFile),
      step.SharesMember ⟨classFile, none, some method, none⟩) ∧
    ∀ step ∈ Attribute.stepsOfAll wants (.ofClass classFile) classFile.attributes,
      step.SharesMember (.ofClass classFile) := by
  refine ⟨?_, ?_, ?_, ?_, ?_⟩
  · intro result last
    rw [visitor.walk_eq_forM_steps hwants]
    exact forM_perform_ends_iff (classFile.steps wants) state result last
  · exact ClassFile.isPlaced_of_mem_steps wants classFile
  · intro field step hstep
    exact (Member.isPlaced_of_mem_stepsOfField wants classFile field step hstep).2
  · intro method step hstep
    exact (Member.isPlaced_of_mem_stepsOfMethod wants classFile method step hstep).2
  · intro step hstep
    exact (Attribute.isPlaced_of_mem_stepsOfAll wants (.ofClass classFile) step hstep).2

/-- A class with an attribute, and one method whose second byte of code is no opcode. -/
def brokenClass : ClassFile where
  minorVersion := 0
  majorVersion := 52
  pool := .ofConstants 1 []
  accessFlags := 0x20
  thisClass := 0
  name := "A"
  unit := "A.class"
  superClass := 0
  superName? := none
  interfaces := []
  fields := []
  methods := [⟨0x20, 0, 0, "m", "()V", [.code ⟨0, 0, [0xC2, 0xFF], [], [.deprecated]⟩]⟩]
  attributes := [.synthetic]

/-- The visitor that counts what it is shown, instructions included. -/
def counting : Visitor Nat where
  wantsInstructions _ := true
  visit _ _ := modify (· + 1)

theorem walk_ends_brokenClass :
    (∀ state, counting.wantsInstructions state = true) ∧
      counting.Ends (brokenClass.steps true) 0
        (.error ⟨"A.class", some "A", some "m", .instruction ⟨1, .unknownOpcode 0xFF⟩⟩) 4 := by
  have hwants : ∀ state, counting.wantsInstructions state = true := fun _ ↦ rfl
  have hchecks : (match (counting.walk brokenClass).run.run 0 with
      | (.error failure, count) => decide (failure =
          ⟨"A.class", some "A", some "m", .instruction ⟨1, .unknownOpcode 0xFF⟩⟩ ∧ count = 4)
      | (.ok _, _) => false) = true := by decide +kernel
  have hends := (walk_ends_iff hwants brokenClass 0).1
  cases hwalk : (counting.walk brokenClass).run.run 0 with
  | mk result count =>
    rw [hwalk] at hchecks
    cases result with
    | ok _ => simp at hchecks
    | error failure =>
      obtain ⟨rfl, rfl⟩ := of_decide_eq_true hchecks
      exact ⟨hwants, (hends _ _).mp hwalk⟩

end Visitor

end MonitorAudit
