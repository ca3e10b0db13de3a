/-!
# Paths

A path is a text whose parts are divided by slashes. Empty parts and single dots say nothing about
where a path leads, except that a trailing one asks for a directory. `fileName?` is the last part
that says something, unless it leads upwards, and `extension?` what stands behind its last dot. A
path that says nothing but a dash (`isDash`) means standard input where a directory is asked for.
-/

set_option autoImplicit false

namespace MonitorAudit.Path

/-- The parts of a path, the empty ones included. -/
def parts (path : String) : List String := path.splitOn "/"

/-- The last part of a path, where that is a name. -/
def fileName? (path : String) : Option String :=
  match ((parts path).filter fun part ↦ part ≠ "" ∧ part ≠ ".").getLast? with
  | some ".." => none
  | last => last

/-- Whether a path says nothing but a dash. -/
def isDash (path : String) : Bool :=
  match parts path with
  | "-" :: rest => rest.all fun part ↦ part = "" ∨ part = "."
  | _ => false

/-- What stands behind the last dot of a name. A dot at the very start of it does not count. -/
def nameExtension? (name : List Char) : Option (List Char) :=
  let reversed := name.reverse
  match reversed.dropWhile (· ≠ '.') with
  | [] => none
  | ['.'] => none
  | _ => some (reversed.takeWhile (· ≠ '.')).reverse

/-- The extension of the last part of a path. -/
def extension? (path : String) : Option String := do
  let name ← fileName? path
  let behind ← nameExtension? name.toList
  return String.ofList behind

/-- The path of a part inside a directory. -/
def join (directory name : String) : String :=
  if directory.endsWith "/" then directory ++ name else directory ++ "/" ++ name

/-- The path that leads from a directory through the names given. -/
def joinAll (directory : String) (names : List String) : String := names.foldl join directory

end MonitorAudit.Path
