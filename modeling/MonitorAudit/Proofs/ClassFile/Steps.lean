import MonitorAudit.ClassFile.Traversal

/-!
# The steps of a traversal

What a traversal meets does not depend on the visitor, apart from whether instructions are wanted.
`ClassFile.steps` lists it beforehand: each `Step` is an event in its context, or an instruction
that does not decode. `Visitor.perform` is what a visitor does with one step, and a failure there
carries the class and, inside a method, the method.

`Visitor.walk_eq_forM_steps` says that a traversal performs the steps in their order, up to the
first that fails.
-/

set_option autoImplicit false

namespace MonitorAudit

/-- What a traversal meets somewhere in a class: an event, or an instruction that does not
decode. -/
structure Step where
  context : Context
  met : Except InstructionFault Event

namespace Step

/-- A fault at the step, with the class and, inside a method, the method. -/
def failure (step : Step) (fault : ClassFault) : ScanFailure :=
  ⟨step.context.classFile.unit, some step.context.classFile.name,
    step.context.method?.map (·.name), fault⟩

/-- The step of an item of a body. -/
def ofItem (context : Context) (item : Except InstructionFault Instruction) : Step :=
  ⟨context, item.map .instruction⟩

end Step

/-! ### The list of steps -/

mutual

/-- The steps of an attribute. -/
def Attribute.steps (wants : Bool) (context : Context) : Attribute → List Step
  | .code body => Code.steps wants { context with code? := some body } body
  | value => [⟨context, .ok value.event⟩]

/-- The steps of a body: the body, its instructions if they are wanted, and its attributes. -/
def Code.steps (wants : Bool) (context : Context) : Code → List Step
  | ⟨maxStack, maxLocals, bytes, handlers, attributes⟩ =>
    ⟨context, .ok (.code ⟨maxStack, maxLocals, bytes, handlers, attributes⟩)⟩ ::
      ((if wants then (Instruction.items bytes).map (Step.ofItem context) else []) ++
        Attribute.stepsOfAll wants context attributes)

/-- The steps of attributes in their order. -/
def Attribute.stepsOfAll (wants : Bool) (context : Context) : List Attribute → List Step
  | [] => []
  | value :: values => value.steps wants context ++ Attribute.stepsOfAll wants context values

end

/-- The steps of a field: the field and its attributes. -/
def Member.stepsOfField (wants : Bool) (context : Context) (field : Member) : List Step :=
  ⟨{ context with field? := some field }, .ok (.field field)⟩ ::
    Attribute.stepsOfAll wants { context with field? := some field } field.attributes

/-- The steps of a method: the method and its attributes. -/
def Member.stepsOfMethod (wants : Bool) (context : Context) (method : Member) : List Step :=
  ⟨{ context with method? := some method }, .ok (.method method)⟩ ::
    Attribute.stepsOfAll wants { context with method? := some method } method.attributes

/-- The steps of a class: the class, its fields, its methods and its attributes. -/
def ClassFile.steps (wants : Bool) (classFile : ClassFile) : List Step :=
  ⟨.ofClass classFile, .ok .classFile⟩ ::
    (classFile.fields.flatMap (Member.stepsOfField wants (.ofClass classFile)) ++
      (classFile.methods.flatMap (Member.stepsOfMethod wants (.ofClass classFile)) ++
        Attribute.stepsOfAll wants (.ofClass classFile) classFile.attributes))

/-! ### Bodies inside attributes -/

mutual

/-- What holds of an attribute if it holds of those inside it holds of every attribute. -/
theorem Attribute.holds_of_inside {motive : Attribute → Prop}
    (code : ∀ body : Code, (∀ value ∈ body.attributes, motive value) → motive (.code body))
    (record : ∀ value, (∀ body, value ≠ .code body) → motive value) (value : Attribute) :
    motive value := by
  cases value with
  | code body => exact code body (Code.holds_inside code record body)
  | _ => exact record _ (by simp)

theorem Code.holds_inside {motive : Attribute → Prop}
    (code : ∀ body : Code, (∀ value ∈ body.attributes, motive value) → motive (.code body))
    (record : ∀ value, (∀ body, value ≠ .code body) → motive value) (body : Code) :
    ∀ value ∈ body.attributes, motive value := by
  cases body with
  | mk maxStack maxLocals bytes handlers attributes =>
    exact Attribute.all_hold_of_inside code record attributes

theorem Attribute.all_hold_of_inside {motive : Attribute → Prop}
    (code : ∀ body : Code, (∀ value ∈ body.attributes, motive value) → motive (.code body))
    (record : ∀ value, (∀ body, value ≠ .code body) → motive value) (values : List Attribute) :
    ∀ value ∈ values, motive value := by
  cases values with
  | nil => simp
  | cons value values =>
    have hvalue : motive value := Attribute.holds_of_inside code record value
    have hvalues : ∀ found ∈ values, motive found :=
      Attribute.all_hold_of_inside code record values
    simpa using ⟨hvalue, hvalues⟩

end

/-- Induction along the bodies that enclose an attribute. -/
@[elab_as_elim]
theorem Attribute.body_induction {motive : Attribute → Prop} (value : Attribute)
    (code : ∀ body : Code, (∀ value ∈ body.attributes, motive value) → motive (.code body))
    (record : ∀ value, (∀ body, value ≠ .code body) → motive value) : motive value :=
  Attribute.holds_of_inside code record value

theorem Attribute.steps_of_ne_code {value : Attribute} (h : ∀ body, value ≠ .code body)
    (wants : Bool) (context : Context) :
    value.steps wants context = [⟨context, .ok value.event⟩] := by
  cases value with
  | code body => exact absurd rfl (h body)
  | _ => rw [Attribute.steps]; simp

/-- The steps of attributes are those of each. -/
theorem Attribute.stepsOfAll_eq_flatMap (wants : Bool) (context : Context)
    (values : List Attribute) :
    stepsOfAll wants context values = values.flatMap (steps wants context) := by
  induction values with
  | nil => rw [stepsOfAll, List.flatMap_nil]
  | cons value values ih => rw [stepsOfAll, ih, List.flatMap_cons]

/-- The steps of a body, by its parts. -/
theorem Code.steps_eq (wants : Bool) (context : Context) (body : Code) :
    body.steps wants context = ⟨context, .ok (.code body)⟩ ::
      ((if wants then (Instruction.items body.bytes).map (Step.ofItem context) else []) ++
        body.attributes.flatMap (Attribute.steps wants context)) := by
  cases body with
  | mk maxStack maxLocals bytes handlers attributes =>
    rw [Code.steps, Attribute.stepsOfAll_eq_flatMap]

/-! ### Where the steps of a part lie -/

/-- A step lies in the class and in the method of a context. -/
def Step.LiesIn (step : Step) (context : Context) : Prop :=
  step.context.classFile = context.classFile ∧ step.context.method? = context.method?

/-- The steps of an attribute lie in the class and in the method in which the attribute lies. -/
theorem Attribute.liesIn_of_mem_steps (wants : Bool) (value : Attribute) (context : Context) :
    ∀ step ∈ value.steps wants context, step.LiesIn context := by
  induction value using Attribute.body_induction generalizing context with
  | code body ih =>
    intro step hstep
    rw [Attribute.steps, Code.steps_eq, List.mem_cons, List.mem_append] at hstep
    rcases hstep with rfl | hitem | hinside
    · exact ⟨rfl, rfl⟩
    · cases wants with
      | false => simp at hitem
      | true =>
        obtain ⟨item, -, rfl⟩ := List.mem_map.mp hitem
        exact ⟨rfl, rfl⟩
    · obtain ⟨value, hvalue, hstep⟩ := List.mem_flatMap.mp hinside
      have hinner := ih value hvalue { context with code? := some body } step hstep
      exact hinner
  | record value hvalue =>
    intro step hstep
    rw [Attribute.steps_of_ne_code hvalue, List.mem_singleton] at hstep
    rw [hstep]
    exact ⟨rfl, rfl⟩

/-- So do the steps of attributes. -/
theorem Attribute.liesIn_of_mem_stepsOfAll (wants : Bool) (context : Context)
    (values : List Attribute) :
    ∀ step ∈ Attribute.stepsOfAll wants context values, step.LiesIn context := by
  intro step hstep
  rw [Attribute.stepsOfAll_eq_flatMap] at hstep
  obtain ⟨value, -, hstep⟩ := List.mem_flatMap.mp hstep
  exact Attribute.liesIn_of_mem_steps wants value context step hstep

/-- A fault at a step carries the class and the method in which the step lies. -/
theorem Step.LiesIn.failure_eq {step : Step} {context : Context} (h : step.LiesIn context) :
    step.failure = ScanFailure.mk context.classFile.unit (some context.classFile.name)
      (context.method?.map (·.name)) := by
  funext fault
  rw [Step.failure, h.1, h.2]

/-! ### Performing steps -/

/-- A failure of a sequence is a failure of its first or of its second part. -/
theorem adapt_bind {σ ε φ α β : Type} (f : ε → φ) (first : ExceptT ε (StateM σ) α)
    (next : α → ExceptT ε (StateM σ) β) :
    (first >>= next).adapt f = first.adapt f >>= fun value ↦ (next value).adapt f := by
  apply ExceptT.ext
  rw [ExceptT.run_adapt, ExceptT.run_bind, ExceptT.run_bind, ExceptT.run_adapt, map_bind,
    bind_map_left]
  congr 1
  funext result
  cases result with
  | error fault => rfl
  | ok value => rw [← ExceptT.run_adapt]; rfl

/-- The failure of a list of actions is the failure of one of them. -/
theorem adapt_forM {σ ε φ α : Type} (f : ε → φ) (actions : α → ExceptT ε (StateM σ) Unit)
    (values : List α) :
    (forM values actions).adapt f = forM values fun value ↦ (actions value).adapt f := by
  induction values with
  | nil => rfl
  | cons value values ih => rw [List.forM_cons, List.forM_cons, adapt_bind, ih]

/-- Actions on lists one behind the other are actions on the list of all values. -/
theorem forM_flatMap {m : Type → Type} [Monad m] [LawfulMonad m] {α β : Type} (f : α → List β)
    (actions : β → m Unit) (values : List α) :
    forM (values.flatMap f) actions = forM values fun value ↦ forM (f value) actions := by
  induction values with
  | nil => rfl
  | cons value values ih => rw [List.flatMap_cons, List.forM_append, List.forM_cons, ih]

/-- Actions that agree on the values of a list agree on the list. -/
theorem forM_congr {m : Type → Type} [Monad m] {α : Type} {actions others : α → m Unit}
    {values : List α} (h : ∀ value ∈ values, actions value = others value) :
    forM values actions = forM values others := by
  induction values with
  | nil => rfl
  | cons value values ih =>
    rw [List.forM_cons, List.forM_cons, h value List.mem_cons_self,
      ih fun later hlater ↦ h later (List.mem_cons_of_mem value hlater)]

namespace Visitor

variable {σ : Type} (visitor : Visitor σ)

/-- What the visitor does with a step. -/
def performBare (step : Step) : Visit σ Unit :=
  match step.met with
  | .ok event => visitor.visit step.context event
  | .error fault => throw (.instruction fault)

/-- What the visitor does with a step. A failure carries the place of the step. -/
def perform (step : Step) : ExceptT ScanFailure (StateM σ) Unit :=
  (visitor.performBare step).adapt step.failure

theorem walkAttribute_of_ne_code {value : Attribute} (h : ∀ body, value ≠ .code body)
    (context : Context) :
    visitor.walkAttribute context value = visitor.visit context value.event := by
  cases value with
  | code body => exact absurd rfl (h body)
  | _ => rw [walkAttribute]; simp

theorem walkAttributes_eq_forM (context : Context) (values : List Attribute) :
    visitor.walkAttributes context values = forM values (visitor.walkAttribute context) := by
  induction values with
  | nil => rw [walkAttributes, List.forM_nil]
  | cons value values ih => rw [walkAttributes, ih, List.forM_cons]

/-- Instructions are visited by performing their steps. -/
theorem walkInstructions_eq_forM_steps (context : Context) (bytes : List UInt8) :
    visitor.walkInstructions context bytes =
      forM ((Instruction.items bytes).map (Step.ofItem context)) visitor.performBare := by
  rw [walkInstructions, List.forM_eq_forM, List.forM_map]
  congr 1
  funext item
  cases item <;> rfl

variable {wants : Bool} (hwants : ∀ state, visitor.wantsInstructions state = wants)

include hwants

/-- A body is visited, then its instructions if they are wanted, and then its attributes. -/
theorem walkCode_eq (context : Context) (body : Code) :
    visitor.walkCode context body = (do
      visitor.visit context (.code body)
      if wants then visitor.walkInstructions context body.bytes
      visitor.walkAttributes context body.attributes) := by
  cases body with
  | mk maxStack maxLocals bytes handlers attributes =>
    rw [walkCode]
    simp only [hwants]
    rfl

/-- An attribute is visited by performing its steps. -/
theorem walkAttribute_eq_forM_steps (value : Attribute) (context : Context) :
    visitor.walkAttribute context value =
      forM (value.steps wants context) visitor.performBare := by
  induction value using Attribute.body_induction generalizing context with
  | code body ih =>
    have hinside : visitor.walkAttributes { context with code? := some body } body.attributes =
        forM (body.attributes.flatMap (Attribute.steps wants { context with code? := some body }))
          visitor.performBare := by
      rw [walkAttributes_eq_forM, forM_flatMap]
      exact forM_congr fun value hvalue ↦ ih value hvalue _
    rw [walkAttribute, Attribute.steps, Code.steps_eq, visitor.walkCode_eq hwants, hinside,
      List.forM_cons, List.forM_append]
    cases wants with
    | false => rfl
    | true =>
      rw [walkInstructions_eq_forM_steps]
      rfl
  | record value hvalue =>
    rw [Attribute.steps_of_ne_code hvalue, visitor.walkAttribute_of_ne_code hvalue,
      List.forM_cons, List.forM_nil]
    exact (bind_pure _).symm

/-- Attributes are visited by performing their steps. A failure carries the place of its step. -/
theorem walkAttributes_adapt_eq (context : Context) (values : List Attribute) :
    (visitor.walkAttributes context values).adapt (ScanFailure.mk context.classFile.unit
        (some context.classFile.name) (context.method?.map (·.name))) =
      forM (Attribute.stepsOfAll wants context values) visitor.perform := by
  have hbare : visitor.walkAttributes context values =
      forM (Attribute.stepsOfAll wants context values) visitor.performBare := by
    rw [walkAttributes_eq_forM, Attribute.stepsOfAll_eq_flatMap, forM_flatMap]
    exact forM_congr fun value _ ↦ visitor.walkAttribute_eq_forM_steps hwants value context
  rw [hbare, adapt_forM]
  apply forM_congr
  intro step hstep
  rw [perform, (Attribute.liesIn_of_mem_stepsOfAll wants context values step hstep).failure_eq]

/-- A traversal performs the steps of the class in their order, up to the first that fails. -/
theorem walk_eq_forM_steps (classFile : ClassFile) :
    visitor.walk classFile = forM (classFile.steps wants) visitor.perform := by
  have hfield (field : Member) :
      (visitor.walkField (.ofClass classFile) field).adapt
          (ScanFailure.mk classFile.unit classFile.name none) =
        forM (field.stepsOfField wants (.ofClass classFile)) visitor.perform := by
    rw [walkField, adapt_bind, Member.stepsOfField, List.forM_cons]
    exact congrArg _ (funext fun _ ↦ visitor.walkAttributes_adapt_eq hwants _ _)
  have hmethod (method : Member) :
      (visitor.walkMethod (.ofClass classFile) method).adapt
          (ScanFailure.mk classFile.unit classFile.name method.name) =
        forM (method.stepsOfMethod wants (.ofClass classFile)) visitor.perform := by
    rw [walkMethod, adapt_bind, Member.stepsOfMethod, List.forM_cons]
    exact congrArg _ (funext fun _ ↦ visitor.walkAttributes_adapt_eq hwants _ _)
  rw [walk, ClassFile.steps, List.forM_cons, List.forM_append, List.forM_append, forM_flatMap,
    forM_flatMap, ← visitor.walkAttributes_adapt_eq hwants (.ofClass classFile)]
  simp only [← hfield, ← hmethod]
  rfl

end Visitor

end MonitorAudit
