import MonitorAudit.Files.Access
import MonitorAudit.Files.Path

/-!
# Trees of files

A `Tree` holds the files, directories and links below a working directory. `Tree.resolve` follows a
path through it: each part of a path but the last has to lead to a directory, a trailing slash asks
for a directory too, and links are followed, so many at most. Outside the working directory there
is nothing, and a path that is too long leads nowhere.
-/

set_option autoImplicit false

namespace MonitorAudit

/-- Where something stands in a tree: the names that lead to it from the working directory. -/
abbrev Place := List String

/-- What stands at a place. -/
inductive Node where
  | file (bytes : List UInt8)
  | directory
  | link (target : String)
  deriving DecidableEq, Repr

/-- The files, directories and links below a working directory. -/
structure Tree where
  nodes : List (Place × Node)
  deriving DecidableEq, Repr

namespace Tree

/-- A working directory in which there is nothing. -/
def empty : Tree := ⟨[]⟩

/-- What stands at a place. -/
def node? (tree : Tree) (place : Place) : Option Node :=
  if place.isEmpty then some .directory else tree.nodes.lookup place

/-- The tree with something at a place, instead of what stood there. -/
def set (tree : Tree) (place : Place) (node : Node) : Tree :=
  ⟨(place, node) :: tree.nodes.filter (·.1 ≠ place)⟩

@[simp] theorem node?_nil (tree : Tree) : tree.node? [] = some .directory := rfl

theorem node?_set_self (tree : Tree) {place : Place} (node : Node) (h : place ≠ []) :
    (tree.set place node).node? place = some node := by
  simp [node?, set, h]

/-! ### Paths -/

/-- The greatest number of links that are followed on the way of one path. -/
def greatestLinks : Nat := 40

/-- The greatest number of bytes of a name. -/
def greatestName : Nat := 255

/-- The greatest number of bytes of a path. -/
def greatestPath : Nat := 4095

/-- Where the parts of a path lead from a place on, through at most so many links. -/
def follow (tree : Tree) (links : Nat) (place : Place) : List String → Except FileFault Place
  | [] => .ok place
  | part :: rest =>
    if tree.node? place ≠ some .directory then .error .notADirectory
    else if part = "" ∨ part = "." then tree.follow links place rest
    else if part = ".." then
      if place.isEmpty then .error .notFound else tree.follow links place.dropLast rest
    else if greatestName < part.utf8ByteSize then .error .nameTooLong
    else
      match tree.node? (place ++ [part]) with
      | none => .error .notFound
      | some (.link target) =>
        match links with
        | 0 => .error .tooManyLinks
        | links + 1 =>
          if target.startsWith "/" then .error .notFound
          else tree.follow links place (Path.parts target ++ rest)
      | some _ => tree.follow links (place ++ [part]) rest
termination_by parts => (links, parts.length)

/-- Where a path leads. -/
def resolve (tree : Tree) (path : String) : Except FileFault Place :=
  if '\x00' ∈ path.toList then .error .containsNul
  else if greatestPath < path.utf8ByteSize then .error .nameTooLong
  else if path = "" ∨ path.startsWith "/" then .error .notFound
  else tree.follow greatestLinks [] (Path.parts path)

/-! ### Building -/

/-- The tree with directories along the parts of a path, and the place to which these lead. -/
def makeDirectories (tree : Tree) (place : Place) : List String → Tree × Place
  | [] => (tree, place)
  | part :: rest =>
    match tree.follow greatestLinks place [part] with
    | .ok next => tree.makeDirectories next rest
    | .error _ =>
      let next := place ++ [part]
      (tree.set next .directory).makeDirectories next rest

/-- Where a file is held that is written at a place: at the end of the links that start there, of
which there are so many at most. -/
def destination (tree : Tree) : Nat → Place → Place
  | 0, place => place
  | links + 1, place =>
    match tree.node? place with
    | some (.link target) =>
      let directories := (Path.parts target).dropLast
      let name := (Path.parts target).getLastD ""
      match tree.follow links place.dropLast directories with
      | .ok directory => tree.destination links (directory ++ [name])
      | .error _ => place
    | _ => place

/-- The tree with something at a path, and with the directories on the way to it. -/
def put (tree : Tree) (path : String) (node : Node) : Tree :=
  let names := (Path.parts path).filter (· ≠ "")
  match node, names.getLast? with
  | .directory, _ => (tree.makeDirectories [] names).1
  | _, none => tree
  | .link target, some name =>
    let (tree, place) := tree.makeDirectories [] names.dropLast
    tree.set (place ++ [name]) (.link target)
  | .file bytes, some name =>
    let (tree, place) := tree.makeDirectories [] names.dropLast
    tree.set (tree.destination greatestLinks (place ++ [name])) (.file bytes)

/-! ### Access -/

/-- Whether a path leads to a directory. -/
def isDirectory (tree : Tree) (path : String) : Bool :=
  match tree.resolve path with
  | .ok place => tree.node? place == some .directory
  | .error _ => false

/-- The names that lead from a directory to each file below it. -/
def filesUnder (tree : Tree) (path : String) : List (List String) :=
  match tree.resolve path with
  | .ok place =>
    tree.nodes.filterMap fun
      | (found, .file _) => if place.isPrefixOf found then some (found.drop place.length) else none
      | _ => none
  | .error _ => []

/-- What is opened at a path: the bytes of a file, or nothing for a directory. -/
def opened (tree : Tree) (path : String) : Except FileFault (Option (List UInt8)) := do
  match tree.node? (← tree.resolve path) with
  | some (.file bytes) => return some bytes
  | some .directory => return none
  | _ => throw .notFound

/-- The bytes of the file to which a path leads. -/
def read (tree : Tree) (path : String) : Except FileFault (List UInt8) := do
  match ← tree.opened path with
  | some bytes => return bytes
  | none => throw .isADirectory

/-- The bytes of the file to which a path leads, mapped into memory. There is no device to map a
directory from. -/
def map (tree : Tree) (path : String) : Except MappingFault (List UInt8) := do
  match ← (tree.opened path).mapError .unopened with
  | some bytes => return bytes
  | none => throw (.unmapped .noSuchDevice)

/-- Access to the files of a tree. -/
def access (tree : Tree) : FileAccess Id where
  isDirectory := tree.isDirectory
  filesUnder := tree.filesUnder
  read := tree.read
  map := tree.map

end Tree

end MonitorAudit
