import MonitorAudit.ClassFile.Basic
import MonitorAudit.Bytecode.Instruction

/-!
# Traversal

`walk` visits a class depth first: the class, each field and its attributes, each method and its
attributes, and the attributes of the class. A body of code comes with its instructions, if the
visitor wants them, and then its own attributes. Any other attribute is one event, a `RecordEvent`
of its kind. The visitor sees each `Event` in the `Context` in which it lies, may change its state,
and may fail, which ends the traversal. An instruction that does not decode ends it too. The fault
then carries the class and, inside a method, the method.
-/

set_option autoImplicit false

namespace MonitorAudit

/-- What encloses an event. -/
structure Context where
  classFile : ClassFile
  field? : Option Member
  method? : Option Member
  code? : Option Code

namespace Context

/-- The context of a class, outside its members. -/
def ofClass (classFile : ClassFile) : Context := ⟨classFile, none, none, none⟩

/-- The source line of an offset in the enclosing code, if its line table has one. -/
def lineFor? (context : Context) (offset : Nat) : Option UInt16 := do
  let body ← context.code?
  let table ← body.lineNumberTable?
  table.lineFor? offset

end Context

/-! ### Events -/

/-- What a visitor is told of an attribute other than the body of a method. -/
inductive RecordEvent where
  | lineNumberTable (table : LineNumberTable)
  /-- The variables have signatures where the table is one of generic types, else descriptors. -/
  | localVariables (rows : List LocalVariable) (generic : Bool)
  | exceptions (classIndices : List UInt16)
  | constantValue (index : UInt16)
  | deprecated
  | synthetic
  | signature (index : UInt16)
  | sourceFile (index : UInt16)
  | innerClasses (classes : List InnerClass)
  | enclosingMethod (classIndex methodIndex : UInt16)
  | bootstrapMethods (methods : List BootstrapMethod)
  | methodParameters (parameters : List MethodParameter)
  | annotations (entries : List AnnotationEntry) (visible : Bool)
  | parameterAnnotations (parameters : List (List AnnotationEntry)) (visible : Bool)
  | typeAnnotations (entries : List TypeAnnotationEntry) (visible : Bool)
  | annotationDefault (value : ElementValue)
  | stackMapTable (frames : List StackMapFrame)
  | unknown (name : String) (data : List UInt8)

namespace RecordEvent

/-- The event of variables with descriptors. -/
@[match_pattern]
abbrev localVariableTable (rows : List LocalVariable) : RecordEvent := localVariables rows false

/-- The event of variables with signatures. -/
@[match_pattern]
abbrev localVariableTypeTable (rows : List LocalVariable) : RecordEvent := localVariables rows true

/-- The attribute that an event tells of. -/
def toAttribute : RecordEvent → Attribute
  | lineNumberTable table => .lineNumberTable table
  | localVariableTable rows => .localVariableTable rows
  | localVariableTypeTable rows => .localVariableTypeTable rows
  | exceptions classIndices => .exceptions classIndices
  | constantValue index => .constantValue index
  | deprecated => .deprecated
  | synthetic => .synthetic
  | signature index => .signature index
  | sourceFile index => .sourceFile index
  | innerClasses classes => .innerClasses classes
  | enclosingMethod classIndex methodIndex => .enclosingMethod classIndex methodIndex
  | bootstrapMethods methods => .bootstrapMethods methods
  | methodParameters parameters => .methodParameters parameters
  | annotations entries visible => .annotations visible entries
  | parameterAnnotations parameters visible => .parameterAnnotations visible parameters
  | typeAnnotations entries visible => .typeAnnotations visible entries
  | annotationDefault value => .annotationDefault value
  | stackMapTable frames => .stackMapTable frames
  | unknown name data => .unknown name data

instance : Coe RecordEvent Attribute := ⟨toAttribute⟩

end RecordEvent

/-- What a traversal meets. -/
inductive Event where
  | classFile
  | field (member : Member)
  | method (member : Member)
  | code (body : Code)
  | instruction (value : Instruction)
  | record (value : RecordEvent)

/-- The event of an attribute. -/
def Attribute.event : Attribute → Event
  | .code body => .code body
  | .lineNumberTable table => .record (.lineNumberTable table)
  | .localVariableTable rows => .record (.localVariables rows false)
  | .localVariableTypeTable rows => .record (.localVariables rows true)
  | .exceptions classIndices => .record (.exceptions classIndices)
  | .constantValue index => .record (.constantValue index)
  | .deprecated => .record .deprecated
  | .synthetic => .record .synthetic
  | .signature index => .record (.signature index)
  | .sourceFile index => .record (.sourceFile index)
  | .innerClasses classes => .record (.innerClasses classes)
  | .enclosingMethod classIndex methodIndex => .record (.enclosingMethod classIndex methodIndex)
  | .bootstrapMethods methods => .record (.bootstrapMethods methods)
  | .methodParameters parameters => .record (.methodParameters parameters)
  | .annotations visible entries => .record (.annotations entries visible)
  | .parameterAnnotations visible parameters => .record (.parameterAnnotations parameters visible)
  | .typeAnnotations visible entries => .record (.typeAnnotations entries visible)
  | .annotationDefault value => .record (.annotationDefault value)
  | .stackMapTable frames => .record (.stackMapTable frames)
  | .unknown name data => .record (.unknown name data)

/-- Each attribute other than a body has an event of its own, from which it can be told. -/
theorem Attribute.exists_event_eq_record {value : Attribute} (h : ∀ body, value ≠ .code body) :
    ∃ record : RecordEvent, value.event = .record record ∧ record = value := by
  cases value with
  | code body => exact absurd rfl (h body)
  | _ => exact ⟨_, rfl, rfl⟩

/-! ### Visitors -/

/-- A step of a traversal that changes a state of `σ` and may fail. -/
abbrev Visit (σ α : Type) : Type := ExceptT ClassFault (StateM σ) α

/-- What is done with each event of a traversal. -/
structure Visitor (σ : Type) where
  /-- Whether the instructions of a body are to be visited. -/
  wantsInstructions : σ → Bool
  visit : Context → Event → Visit σ Unit

namespace Visitor

variable {σ : Type} (visitor : Visitor σ)

/-- Visits the instructions of a body up to the first that does not decode. -/
def walkInstructions (context : Context) (bytes : List UInt8) : Visit σ Unit :=
  (Instruction.items bytes).forM fun
    | .ok instruction => visitor.visit context (.instruction instruction)
    | .error fault => throw (.instruction fault)

mutual

/-- Visits an attribute. -/
def walkAttribute (context : Context) : Attribute → Visit σ Unit
  | .code body => walkCode { context with code? := some body } body
  | value => visitor.visit context value.event

/-- Visits a body, its instructions where they are wanted, and its attributes. -/
def walkCode (context : Context) : Code → Visit σ Unit
  | ⟨maxStack, maxLocals, bytes, handlers, attributes⟩ => do
    visitor.visit context (.code ⟨maxStack, maxLocals, bytes, handlers, attributes⟩)
    if visitor.wantsInstructions (← get) then visitor.walkInstructions context bytes
    walkAttributes context attributes

/-- Visits attributes in their order. -/
def walkAttributes (context : Context) : List Attribute → Visit σ Unit
  | [] => pure ()
  | value :: values => do
    walkAttribute context value
    walkAttributes context values

end

/-- Visits a field and its attributes. -/
def walkField (context : Context) (field : Member) : Visit σ Unit := do
  let context := { context with field? := some field }
  visitor.visit context (.field field)
  visitor.walkAttributes context field.attributes

/-- Visits a method and its attributes. -/
def walkMethod (context : Context) (method : Member) : Visit σ Unit := do
  let context := { context with method? := some method }
  visitor.visit context (.method method)
  visitor.walkAttributes context method.attributes

/-- Visits a class. -/
def walk (classFile : ClassFile) : ExceptT ScanFailure (StateM σ) Unit := do
  let context := Context.ofClass classFile
  let inClass := ScanFailure.mk classFile.unit classFile.name none
  let inMethod (method : Member) := ScanFailure.mk classFile.unit classFile.name method.name
  (visitor.visit context .classFile).adapt inClass
  classFile.fields.forM fun field ↦ (visitor.walkField context field).adapt inClass
  classFile.methods.forM fun method ↦ (visitor.walkMethod context method).adapt (inMethod method)
  (visitor.walkAttributes context classFile.attributes).adapt inClass

end Visitor

end MonitorAudit
