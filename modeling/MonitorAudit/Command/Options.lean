import MonitorAudit.Command.WorkerCount

/-!
# Options of the command line

The arguments name the paths to scan and set a few options, which may come in any order and in a
long or a short form. `Options.ofArguments` reads them from left to right.

An option that takes a value may have it attached; otherwise the next argument that does not start
with a dash is its value. Such a value, like a run of paths, is *pending* until another option or
path begins or the arguments end, and only then is it looked at (`Reading.settle`). So of two
mistakes the one that is met first in this order is reported. Behind a double dash every argument
is a path.
-/

set_option autoImplicit false

namespace MonitorAudit

/-- How reports are written. -/
inductive OutputFormat where
  | text
  | json
  deriving DecidableEq, Repr

/-- What the command line asks for. -/
structure Options where
  paths : List String
  format : OutputFormat
  jobs? : Option UInt64
  failFast : Bool
  quiet : Bool
  deriving DecidableEq, Repr

/-- Why the arguments are not carried out. -/
inductive UsageFault where
  | unknownArgument
  /-- An option lacks its value, or has one that is not among those it takes. -/
  | invalidValue
  /-- A value that should be a number is none. -/
  | invalidNumber
  /-- An option is given twice. -/
  | repeated
  | missingPath
  /-- A switch has a value attached. -/
  | unexpectedValue
  /-- Not a mistake: the user asks for help. -/
  | helpRequested
  deriving DecidableEq, Repr

/-- The exit code of the program. -/
def UsageFault.exitCode : UsageFault → UInt8
  | helpRequested => 0
  | _ => 2

/-- The options that take a value. -/
inductive ValueOption where
  | format
  | jobs
  deriving DecidableEq, Repr

/-- The options without a value. -/
inductive Switch where
  | failFast
  | quiet
  | help
  deriving DecidableEq, Repr

/-- Any option. -/
inductive AnyOption where
  | value (option : ValueOption)
  | switch (option : Switch)
  deriving DecidableEq, Repr

/-- The option of a long name. -/
def AnyOption.ofLong? : List Char → Option AnyOption
  | ['f', 'o', 'r', 'm', 'a', 't'] => some (.value .format)
  | ['j', 'o', 'b', 's'] => some (.value .jobs)
  | ['f', 'a', 'i', 'l', '-', 'f', 'a', 's', 't'] => some (.switch .failFast)
  | ['q', 'u', 'i', 'e', 't'] => some (.switch .quiet)
  | ['h', 'e', 'l', 'p'] => some (.switch .help)
  | _ => none

/-- The option of a letter. -/
def AnyOption.ofLetter? : Char → Option AnyOption
  | 'f' => some (.value .format)
  | 'j' => some (.value .jobs)
  | 'q' => some (.switch .quiet)
  | 'h' => some (.switch .help)
  | _ => none

/-- What an argument looks like. -/
inductive Argument where
  /-- A double dash alone. -/
  | separator
  /-- A long name, with the text behind an equals sign. -/
  | long (name : List Char) (attached? : Option (List Char))
  /-- Letters behind a dash. -/
  | letters (letters : List Char)
  | bare (text : List Char)
  deriving DecidableEq, Repr

/-- Tells the kinds of argument apart by the dashes in front. A dash alone is bare. -/
def Argument.of : List Char → Argument
  | ['-', '-'] => .separator
  | '-' :: '-' :: rest =>
    let name := rest.takeWhile (· ≠ '=')
    match rest.dropWhile (· ≠ '=') with
    | [] => .long name none
    | _ :: attached => .long name (some attached)
  | ['-'] => .bare ['-']
  | '-' :: rest => .letters rest
  | text => .bare text

/-! ### Reading -/

/-- What has begun and is not yet looked at. -/
inductive Pending where
  | none
  | option (option : ValueOption) (value? : Option (List Char))
  | paths (paths : List (List Char))
  deriving DecidableEq, Repr

/-- The arguments read so far. -/
structure Reading where
  paths : List String
  format? : Option OutputFormat
  jobs? : Option UInt64
  failFast : Bool
  quiet : Bool
  pending : Pending
  /-- Whether a double dash has been met. -/
  separated : Bool
  deriving DecidableEq, Repr

namespace Reading

/-- Nothing read yet. -/
def start : Reading := ⟨[], none, none, false, false, .none, false⟩

/-- Gives an option its value. An option takes one value, and takes it once. -/
def give (reading : Reading) (option : ValueOption) (value? : Option (List Char)) :
    Except UsageFault Reading :=
  match value?, option with
  | none, _ => .error .invalidValue
  | some value, .format =>
    if reading.format?.isSome then .error .repeated
    else if value = "text".toList then .ok { reading with format? := some .text }
    else if value = "json".toList then .ok { reading with format? := some .json }
    else .error .invalidValue
  | some value, .jobs =>
    if reading.jobs?.isSome then .error .repeated
    else
      match WorkerCount.read value with
      | .ok jobs => .ok { reading with jobs? := some jobs }
      | .error _ => .error .invalidNumber

/-- Looks at what is pending. No path is empty. -/
def settle (reading : Reading) : Except UsageFault Reading :=
  let settled := { reading with pending := .none }
  match reading.pending with
  | .none => .ok settled
  | .option option value? => settled.give option value?
  | .paths paths =>
    if paths.any List.isEmpty then .error .invalidValue
    else .ok { settled with paths := settled.paths ++ paths.map String.ofList }

/-- Turns a switch on. -/
def turnOn (reading : Reading) (switch : Switch) : Except UsageFault Reading := do
  let reading ← reading.settle
  match switch with
  | .failFast =>
    if reading.failFast then .error .repeated else .ok { reading with failFast := true }
  | .quiet => if reading.quiet then .error .repeated else .ok { reading with quiet := true }
  | .help => .error .helpRequested

/-- Begins an option, whose value may be attached. -/
def begin (reading : Reading) (option : ValueOption) (attached? : Option (List Char)) :
    Except UsageFault Reading := do
  let reading ← reading.settle
  match attached? with
  | some value => reading.give option (some value)
  | none => .ok { reading with pending := .option option none }

/-- Reads the letters behind a dash: switches, and at most one option, whose value is what is left
behind an equals sign that may be there. -/
def readLetters (reading : Reading) : List Char → Except UsageFault Reading
  | [] => .ok reading
  | letter :: rest =>
    match AnyOption.ofLetter? letter with
    | none => .error .unknownArgument
    | some (.switch switch) => do readLetters (← reading.turnOn switch) rest
    | some (.value option) =>
      match rest with
      | [] => reading.begin option none
      | '=' :: value => reading.begin option (some value)
      | value => reading.begin option (some value)

/-- Reads an argument that is the value of the option in front of it or else a path. -/
def readBare (reading : Reading) (text : List Char) : Except UsageFault Reading :=
  match reading.pending, reading.separated with
  | .option option none, false => .ok { reading with pending := .option option (some text) }
  | .paths paths, _ => .ok { reading with pending := .paths (paths ++ [text]) }
  | _, _ => do return { ← reading.settle with pending := .paths [text] }

/-- Reads an argument. -/
def read (reading : Reading) (text : List Char) : Except UsageFault Reading :=
  if reading.separated then reading.readBare text
  else
    match Argument.of text with
    | .separator => .ok { reading with separated := true }
    | .long name attached? =>
      match AnyOption.ofLong? name, attached? with
      | none, _ => .error .unknownArgument
      | some (.switch _), some _ => .error .unexpectedValue
      | some (.switch switch), none => reading.turnOn switch
      | some (.value option), _ => reading.begin option attached?
    | .letters letters => reading.readLetters letters
    | .bare text => reading.readBare text

/-- The options when all arguments have been read. There has to be a path. -/
def finish (reading : Reading) : Except UsageFault Options := do
  let reading ← reading.settle
  if reading.paths.isEmpty then .error .missingPath
  else
    return { paths := reading.paths, format := reading.format?.getD .text, jobs? := reading.jobs?,
             failFast := reading.failFast, quiet := reading.quiet }

end Reading

namespace Options

/-- The options that the arguments set. -/
def ofArguments (arguments : List String) : Except UsageFault Options := do
  let reading ← arguments.foldlM (fun reading argument ↦ reading.read argument.toList) Reading.start
  reading.finish

/-- The number of workers: the option, or else the environment variable, or else zero. The message
says what is wrong with the variable. -/
def workerCount (options : Options) (environment? : Option String) : Except String UInt64 :=
  match options.jobs?, environment? with
  | some jobs, _ => .ok jobs
  | none, some value => WorkerCount.ofEnvironment value
  | none, none => .ok 0

end Options

end MonitorAudit
