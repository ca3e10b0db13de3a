import MonitorAudit.Text.Blank
import MonitorAudit.Text.Shown

/-!
# Worker counts

The number of workers that share a scan, in decimal digits with at most one plus sign in front. Zero
leaves the choice to the scan. `WorkerCount.read` reads the text of an option, and
`WorkerCount.ofEnvironment` the value of the environment variable, which may have blanks around it.
-/

set_option autoImplicit false

namespace MonitorAudit

/-- Why a text is no number of workers. -/
inductive NumberFault where
  | empty
  | invalidDigit
  | tooLarge
  deriving DecidableEq, Repr

def NumberFault.message : NumberFault → String
  | empty => "cannot parse integer from empty string"
  | invalidDigit => "invalid digit found in string"
  | tooLarge => "number too large to fit in target type"

namespace WorkerCount

/-- The digit that a character is. -/
def digit? (c : Char) : Option Nat :=
  if '0' ≤ c ∧ c ≤ '9' then some (c.toNat - '0'.toNat) else none

/-- The number of further digits, behind the value of those already read. The first fault from the
left counts. -/
def readDigits : Nat → List Char → Except NumberFault UInt64
  | value, [] => .ok (UInt64.ofNat value)
  | value, c :: rest =>
    match digit? c with
    | none => .error .invalidDigit
    | some digit =>
      if 10 * value + digit < UInt64.size then readDigits (10 * value + digit) rest
      else .error .tooLarge

/-- The number that a text writes. -/
def read : List Char → Except NumberFault UInt64
  | [] => .error .empty
  | ['+'] => .error .invalidDigit
  | '+' :: digits => readDigits 0 digits
  | digits => readDigits 0 digits

/-- The environment variable that sets the number of workers. -/
def environmentVariable : String := "SYNC_SCANNER_JOBS"

/-- The number of workers that the value of the environment variable sets, or the message why it
sets none. -/
def ofEnvironment (value : String) : Except String UInt64 :=
  (read (trim value.toList)).mapError fun fault ↦
    s!"Invalid {environmentVariable} value: {shown value}: {fault.message}"

end WorkerCount

end MonitorAudit
