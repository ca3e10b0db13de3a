import MonitorAudit.Files.Access
import MonitorAudit.Scan.InputKind

/-!
# Inputs

The inputs of a scan are the files at the paths that are given. A directory stands for the class
files and archives below it, in the order of the names on the way to them, but one that is named by
a dash alone stands for none: such a path means standard input. Any other path stands for itself,
whatever is there.
-/

set_option autoImplicit false

namespace MonitorAudit

variable {m : Type → Type} [Monad m]

/-- The order of names: that of the code points of their first difference. -/
def compareNames (first second : String) : Ordering :=
  List.compareLex (fun left right ↦ compare left.toNat right.toNat) first.toList second.toList

/-- The ways to files, name by name in the order of names. -/
def inNameOrder (ways : List (List String)) : List (List String) :=
  ways.mergeSort fun first second ↦ (List.compareLex compareNames first second).isLE

/-- The inputs that a path stands for. -/
def inputsAt (access : FileAccess m) (path : String) : m (List String) := do
  if ← access.isDirectory path then
    if Path.isDash path then return []
    else
      let ways ← access.filesUnder path
      let files := (inNameOrder ways).map (Path.joinAll path)
      return files.filter fun file ↦ InputKind.ofPath file ≠ .unknown
  else return [path]

/-- The inputs that paths stand for. -/
def inputsOf (access : FileAccess m) (paths : List String) : m (List String) := do
  return (← paths.mapM (inputsAt access)).flatten

theorem perm_inNameOrder (ways : List (List String)) : (inNameOrder ways).Perm ways :=
  ways.mergeSort_perm _

end MonitorAudit
