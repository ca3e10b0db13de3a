import MonitorAudit.Files.Path

/-!
# Kinds of input

The extension of a path says what it is scanned as.
-/

set_option autoImplicit false

namespace MonitorAudit

/-- What an input is scanned as. -/
inductive InputKind where
  | classFile
  | archive
  | unknown
  deriving DecidableEq, Repr

/-- The kind of the input at a path. -/
def InputKind.ofPath (path : String) : InputKind :=
  match Path.extension? path with
  | some "class" => .classFile
  | some "jar" => .archive
  | _ => .unknown

end MonitorAudit
