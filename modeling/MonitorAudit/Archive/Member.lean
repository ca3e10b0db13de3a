import MonitorAudit.Archive.Entry

/-!
# Class files in an archive

A `Member` is an entry of an archive that is scanned: one whose name is that of a class file, or one
that cannot be opened, whatever its name is. Members have the order of the directory.
-/

set_option autoImplicit false

namespace MonitorAudit.Archive

/-- The name of an entry of an archive as a unit. -/
def memberUnit (path entry : String) : String := path ++ "!/" ++ entry

/-- Why there are no bytes of a member. -/
inductive MemberFault where
  | unopenable (unit : String) (fault : Fault)
  | unreadable (unit : String) (fault : ContentFault)
  deriving DecidableEq, Repr

def MemberFault.message : MemberFault → String
  | unopenable unit fault => s!"Failed to open {unit}: {fault.message}"
  | unreadable unit fault => s!"Failed to decompress {unit}: {fault.message}"

/-- A class file in an archive. -/
structure Member where
  unit : String
  bytes : Except MemberFault (List UInt8)

/-- Whether the name of an entry is that of a class file. -/
def isClassName (name : String) : Bool := name.endsWith ".class"

/-- The member that an entry makes, if it makes one. An entry that cannot be opened is named by its
place in the directory. -/
def memberOf? (path : String) (archive : List UInt8) (entry : Entry) (index : Nat) :
    Option Member :=
  match entry.stored archive with
  | .error fault =>
    let unit := memberUnit path s!"#{index}"
    some ⟨unit, .error (.unopenable unit fault)⟩
  | .ok (method, bytes) =>
    if isClassName entry.name then
      let unit := memberUnit path entry.name
      some ⟨unit, (entry.contents method bytes).mapError (.unreadable unit)⟩
    else none

/-- The entries of an archive. -/
def entries (archive : List UInt8) : Except Fault (List Entry) := do
  let extent ← directoryExtent archive
  readAt archive extent.start (Decoder.times extent.count (Entry.decoder extent.shift))

/-- The class files of the archive at a path. -/
def members (path : String) (archive : List UInt8) : Except Fault (List Member) :=
  (entries archive).map fun entries ↦
    entries.zipIdx.filterMap fun (entry, index) ↦ memberOf? path archive entry index

end MonitorAudit.Archive
