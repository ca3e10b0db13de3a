/-!
# Access to files

`FileAccess` is what a scan asks of a file system, in any monad, so that a scan runs on the files of
a machine and on a tree held in memory alike. `FileFault` is why a file cannot be read, and
`MappingFault` why it cannot be mapped into memory.
-/

set_option autoImplicit false

namespace MonitorAudit

/-- Why a file cannot be read. -/
inductive FileFault where
  | notFound
  | noSuchDevice
  | notADirectory
  | isADirectory
  /-- The path, or a name in it, has more bytes than it can have. -/
  | nameTooLong
  | tooManyLinks
  /-- The path holds the character zero, which the system would take for its end. -/
  | containsNul
  /-- Any other cause, by its wording and the number that the system gives it. -/
  | other (description : String) (code : Nat)
  deriving DecidableEq, Repr

namespace FileFault

/-- The wording of the cause. -/
def description : FileFault → String
  | notFound => "No such file or directory"
  | noSuchDevice => "No such device"
  | notADirectory => "Not a directory"
  | isADirectory => "Is a directory"
  | nameTooLong => "File name too long"
  | tooManyLinks => "Too many levels of symbolic links"
  | containsNul => "file name contained an unexpected NUL byte"
  | other description _ => description

/-- The number that the system gives the cause. -/
def code? : FileFault → Option Nat
  | notFound => some 2
  | noSuchDevice => some 19
  | notADirectory => some 20
  | isADirectory => some 21
  | nameTooLong => some 36
  | tooManyLinks => some 40
  | containsNul => none
  | other _ code => some code

def message (fault : FileFault) : String :=
  match fault.code? with
  | some code => s!"{fault.description} (os error {code})"
  | none => fault.description

/-- The fault of a number, with the wording for a cause that has no name here. -/
def ofCode (code : Nat) (description : String) : FileFault :=
  match code with
  | 2 => notFound
  | 19 => noSuchDevice
  | 20 => notADirectory
  | 21 => isADirectory
  | 36 => nameTooLong
  | 40 => tooManyLinks
  | _ => other description code

theorem code?_ofCode (code : Nat) (description : String) :
    (ofCode code description).code? = some code := by
  unfold ofCode
  split <;> rfl

end FileFault

/-- Why a file cannot be mapped into memory. -/
inductive MappingFault where
  /-- The file cannot be opened. -/
  | unopened (fault : FileFault)
  /-- The file has been opened, but not all that can be opened can be mapped. -/
  | unmapped (fault : FileFault)
  deriving DecidableEq, Repr

/-- What a scan asks of a file system. -/
structure FileAccess (m : Type → Type) where
  /-- Whether there is a directory at a path. -/
  isDirectory : String → m Bool
  /-- The names that lead from a directory to each regular file below it. Links below it lead
  nowhere. -/
  filesUnder : String → m (List (List String))
  /-- The bytes of the file at a path. -/
  read : String → m (Except FileFault (List UInt8))
  /-- The bytes of the file at a path, mapped into memory. -/
  map : String → m (Except MappingFault (List UInt8))

end MonitorAudit
