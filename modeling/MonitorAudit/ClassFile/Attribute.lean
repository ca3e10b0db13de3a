import MonitorAudit.ClassFile.ElementValue
import MonitorAudit.ClassFile.LineNumberTable
import MonitorAudit.ClassFile.StackMapFrame

/-!
# Attributes

An `Attribute` is a piece of information that hangs off a class, a field, a method or a body of
code. `Code`, the body of a method, holds attributes of its own; `AttributeKind` names the other
attributes whose structure is known. Attributes of any other name are kept as bytes.
-/

set_option autoImplicit false

namespace MonitorAudit

/-- A stretch of code and the handler for the exceptions that it throws. -/
structure ExceptionHandler where
  startPc : UInt16
  endPc : UInt16
  handlerPc : UInt16
  /-- The class that is caught, or zero for every exception. -/
  catchType : UInt16
  deriving DecidableEq, Repr

/-- A local variable of a body of code. -/
structure LocalVariable where
  startPc : UInt16
  length : UInt16
  nameIndex : UInt16
  /-- The descriptor, or the signature where the table is one of generic types. -/
  descriptorIndex : UInt16
  slot : UInt16
  deriving DecidableEq, Repr

/-- A class inside a class. -/
structure InnerClass where
  innerIndex : UInt16
  outerIndex : UInt16
  nameIndex : UInt16
  accessFlags : UInt16
  deriving DecidableEq, Repr

/-- A method that links a dynamic call site, with its static arguments. -/
structure BootstrapMethod where
  methodRef : UInt16
  arguments : List UInt16
  deriving DecidableEq, Repr

/-- A formal parameter of a method. -/
structure MethodParameter where
  nameIndex : UInt16
  accessFlags : UInt16
  deriving DecidableEq, Repr

mutual

/-- The body of a method. -/
structure Code where
  maxStack : UInt16
  maxLocals : UInt16
  bytes : List UInt8
  handlers : List ExceptionHandler
  attributes : List Attribute

/-- A piece of information that hangs off a part of a class file. -/
inductive Attribute where
  | code (body : Code)
  | lineNumberTable (table : LineNumberTable)
  | localVariableTable (rows : List LocalVariable)
  | localVariableTypeTable (rows : List LocalVariable)
  | exceptions (classIndices : List UInt16)
  | constantValue (index : UInt16)
  | deprecated
  | synthetic
  | signature (index : UInt16)
  | sourceFile (index : UInt16)
  | innerClasses (classes : List InnerClass)
  /-- The method is zero where no method encloses the class. -/
  | enclosingMethod (classIndex methodIndex : UInt16)
  | bootstrapMethods (methods : List BootstrapMethod)
  | methodParameters (parameters : List MethodParameter)
  | annotations (visible : Bool) (entries : List AnnotationEntry)
  | parameterAnnotations (visible : Bool) (parameters : List (List AnnotationEntry))
  | typeAnnotations (visible : Bool) (entries : List TypeAnnotationEntry)
  | annotationDefault (value : ElementValue)
  | stackMapTable (frames : List StackMapFrame)
  | unknown (name : String) (data : List UInt8)

end

/-- The attributes whose structure is known and that hold no attributes of their own. -/
inductive AttributeKind where
  | lineNumberTable
  | localVariableTable
  | localVariableTypeTable
  | exceptions
  | constantValue
  | deprecated
  | synthetic
  | signature
  | sourceFile
  | innerClasses
  | enclosingMethod
  | bootstrapMethods
  | methodParameters
  | annotations (visible : Bool)
  | parameterAnnotations (visible : Bool)
  | typeAnnotations (visible : Bool)
  | annotationDefault
  | stackMapTable
  deriving DecidableEq, Repr

namespace AttributeKind

/-- Every kind. -/
def all : List AttributeKind :=
  [.lineNumberTable, .localVariableTable, .localVariableTypeTable, .exceptions, .constantValue,
    .deprecated, .synthetic, .signature, .sourceFile, .innerClasses, .enclosingMethod,
    .bootstrapMethods, .methodParameters, .annotations true, .annotations false,
    .parameterAnnotations true, .parameterAnnotations false, .typeAnnotations true,
    .typeAnnotations false, .annotationDefault, .stackMapTable]

/-- The name of the kind in a class file. -/
def name : AttributeKind → String
  | lineNumberTable => "LineNumberTable"
  | localVariableTable => "LocalVariableTable"
  | localVariableTypeTable => "LocalVariableTypeTable"
  | exceptions => "Exceptions"
  | constantValue => "ConstantValue"
  | deprecated => "Deprecated"
  | synthetic => "Synthetic"
  | signature => "Signature"
  | sourceFile => "SourceFile"
  | innerClasses => "InnerClasses"
  | enclosingMethod => "EnclosingMethod"
  | bootstrapMethods => "BootstrapMethods"
  | methodParameters => "MethodParameters"
  | annotations true => "RuntimeVisibleAnnotations"
  | annotations false => "RuntimeInvisibleAnnotations"
  | parameterAnnotations true => "RuntimeVisibleParameterAnnotations"
  | parameterAnnotations false => "RuntimeInvisibleParameterAnnotations"
  | typeAnnotations true => "RuntimeVisibleTypeAnnotations"
  | typeAnnotations false => "RuntimeInvisibleTypeAnnotations"
  | annotationDefault => "AnnotationDefault"
  | stackMapTable => "StackMapTable"

/-- The kind that a name in a class file denotes. -/
def ofName? (name : String) : Option AttributeKind := all.find? fun kind ↦ kind.name = name

theorem ofName?_name (kind : AttributeKind) : ofName? kind.name = some kind := by
  cases kind with
  | annotations visible | parameterAnnotations visible | typeAnnotations visible =>
    cases visible <;> decide
  | _ => decide

theorem name_of_ofName? {name : String} {kind : AttributeKind} (h : ofName? name = some kind) :
    kind.name = name := by
  simpa using List.find?_some h

end AttributeKind

/-- The name of the attribute that holds a method's body. -/
def Code.attributeName : String := "Code"

/-- The line table of a body of code: the first one where there are several. -/
def Code.lineNumberTable? (body : Code) : Option LineNumberTable :=
  body.attributes.findSome? fun
    | .lineNumberTable table => some table
    | _ => none

/-- The name of an attribute in a class file. -/
def Attribute.name : Attribute → String
  | .code _ => Code.attributeName
  | .lineNumberTable _ => AttributeKind.lineNumberTable.name
  | .localVariableTable _ => AttributeKind.localVariableTable.name
  | .localVariableTypeTable _ => AttributeKind.localVariableTypeTable.name
  | .exceptions _ => AttributeKind.exceptions.name
  | .constantValue _ => AttributeKind.constantValue.name
  | .deprecated => AttributeKind.deprecated.name
  | .synthetic => AttributeKind.synthetic.name
  | .signature _ => AttributeKind.signature.name
  | .sourceFile _ => AttributeKind.sourceFile.name
  | .innerClasses _ => AttributeKind.innerClasses.name
  | .enclosingMethod _ _ => AttributeKind.enclosingMethod.name
  | .bootstrapMethods _ => AttributeKind.bootstrapMethods.name
  | .methodParameters _ => AttributeKind.methodParameters.name
  | .annotations visible _ => (AttributeKind.annotations visible).name
  | .parameterAnnotations visible _ => (AttributeKind.parameterAnnotations visible).name
  | .typeAnnotations visible _ => (AttributeKind.typeAnnotations visible).name
  | .annotationDefault _ => AttributeKind.annotationDefault.name
  | .stackMapTable _ => AttributeKind.stackMapTable.name
  | .unknown name _ => name

end MonitorAudit
