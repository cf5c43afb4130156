import TieredDispatch.CommandLine.Options

/-!
# Reading the command line

Options are written `--name value` or `--name=value`, flags `--name`; there are no other arguments.
The arguments are read from left to right. A separate value stays **pending** until the next option
is reached, and only then it is checked, so an argument that belongs nowhere, or a value where none
belongs, is found before a bad value right in front of it. An absent option falls back to its
environment variable, and then to its default.
-/

namespace TieredDispatch

/-! ## Why a command line does not lead to a run -/

/-- What ends the reading of a command line. -/
inductive ParseStop
  /-- An option without its value, or a flag variable that is neither `true` nor `false`. -/
  | invalidValue
  | unknownArgument
  /-- An option given twice. -/
  | argumentConflict
  /-- A flag with a value. -/
  | tooManyValues
  /-- A value of the wrong form. -/
  | valueValidation
  | displayHelp
  | displayVersion
deriving DecidableEq, Inhabited, Repr

namespace ParseStop

instance : ToString ParseStop where
  toString
    | invalidValue => "InvalidValue"
    | unknownArgument => "UnknownArgument"
    | argumentConflict => "ArgumentConflict"
    | tooManyValues => "TooManyValues"
    | valueValidation => "ValueValidation"
    | displayHelp => "DisplayHelp"
    | displayVersion => "DisplayVersion"

/-- The exit code of the program. -/
def exitCode : ParseStop → Nat
  | displayHelp | displayVersion => 0
  | _ => 2

/-- The stop that a long name asks for. -/
def ofLong? : String → Option ParseStop
  | "help" => some displayHelp
  | "version" => some displayVersion
  | _ => none

/-- The stop that a letter behind a dash asks for. -/
def ofShort? : Char → Option ParseStop
  | 'h' => some displayHelp
  | 'V' => some displayVersion
  | _ => none

end ParseStop

/-! ## The table of options -/

/-- What is written behind an option, and how it is stored. -/
inductive OptionKind
  | flag (store : Bool → Options → Options)
  | valued (store : String → Option (Options → Options))

/-- What a separate value stores, if it is a good one. A flag has no value to store. -/
def OptionKind.read : OptionKind → String → Option (Options → Options)
  | flag _, _ => none
  | valued store, text => store text

/-- An option of the command line. -/
structure OptionSpec where
  name : String
  kind : OptionKind
  /-- The environment variable that stands in for the option. -/
  fallback : Option String := none

namespace OptionSpec

/-- An option whose value is a 64-bit word. -/
def word (name : String) (store : UInt64 → Options → Options)
    (fallback : Option String := none) : OptionSpec :=
  { name, kind := .valued fun text => (parseWord? text).map store, fallback }

/-- All options, in order. -/
def all : List OptionSpec := [
  .word "threads" (fun n o => { o with threads := n }) (some "TIERJIT_THREADS"),
  .word "methods" (fun n o => { o with methods := n }) (some "TIERJIT_METHODS"),
  .word "calls-per-thread" (fun n o => { o with callsPerThread := n })
    (some "TIERJIT_CALLS_PER_THREAD"),
  .word "seed" (fun n o => { o with seed := n }),
  .word "work" (fun n o => { o with work := n }),
  .word "l1-threshold" (fun n o => { o with l1Threshold := n }) (some "TIERJIT_L1_THRESHOLD"),
  .word "l2-threshold" (fun n o => { o with l2Threshold := n }) (some "TIERJIT_L2_THRESHOLD"),
  { name := "background", kind := .flag fun b o => { o with background := b }
    fallback := some "TIERJIT_BACKGROUND" },
  .word "compile-workers" (fun n o => { o with compileWorkers := n })
    (some "TIERJIT_COMPILE_WORKERS"),
  .word "shards" (fun n o => { o with shards := n }),
  .word "compile-delay-ms" (fun n o => { o with compileDelayMs := n }),
  .word "fail-every" (fun n o => { o with failEvery := some n }),
  { name := "json", kind := .flag fun b o => { o with json := b } },
  { name := "log.level"
    kind := .valued fun text =>
      (LogLevel.parse? text).map fun level o => { o with logLevel := level }
    fallback := some "TIERJIT_LOG_LEVEL" },
  { name := "log.color"
    kind := .valued fun text =>
      (LogColor.parse text).toOption.map fun color o => { o with logColor := color }
    fallback := some "TIERJIT_LOG_COLOR" }]

/-- The option of a name. -/
def find? (name : String) : Option OptionSpec :=
  all.find? fun spec => spec.name = name

end OptionSpec

/-! ## Arguments -/

/-- The form of one argument. -/
inductive Argument
  /-- The mark `--`, behind which nothing is an option. -/
  | escape
  /-- A name behind two dashes, and what follows an equals sign. -/
  | long (name : String) (value : Option String)
  /-- The first letter behind a single dash. -/
  | short (c : Char)
  | word (text : String)
deriving DecidableEq, Repr

/-- The form of an argument. A single dash is a plain word. -/
def Argument.of (text : String) : Argument :=
  match text.toList with
  | ['-', '-'] => .escape
  | '-' :: '-' :: rest =>
    let name := String.ofList (rest.takeWhile (· ≠ '='))
    match rest.dropWhile (· ≠ '=') with
    | _ :: value => .long name (some (String.ofList value))
    | [] => .long name none
  | '-' :: c :: _ => .short c
  | _ => .word text

/-! ## Reading the arguments -/

/-- How far the arguments are read. -/
structure ParseState where
  options : Options := {}
  /-- The names of the options stored so far. -/
  given : List String := []
  /-- The option that was reached last, and its value if it came already. -/
  pending : Option (OptionSpec × Option String) := none
  /-- Whether the mark `--` was passed. -/
  escaped : Bool := false

namespace ParseState

/-- Stores an option, unless it was stored before or its value is bad. -/
def store (s : ParseState) (spec : OptionSpec) (set : Option (Options → Options)) :
    Except ParseStop ParseState :=
  if spec.name ∈ s.given then
    .error .argumentConflict
  else
    match set with
    | some set => .ok { s with options := set s.options, given := spec.name :: s.given }
    | none => .error .valueValidation

/-- Stores the pending option. -/
def settle (s : ParseState) : Except ParseStop ParseState :=
  match s.pending with
  | none => .ok s
  | some (_, none) => .error .invalidValue
  | some (spec, some value) => { s with pending := none }.store spec (spec.kind.read value)

/-- Reads a name behind two dashes. A name that is none, and a value where none belongs, are found
before the pending option is looked at. -/
def acceptLong (s : ParseState) (name : String) (value : Option String) :
    Except ParseStop ParseState :=
  match ParseStop.ofLong? name, OptionSpec.find? name, value with
  | some _, _, some _ => .error .tooManyValues
  | some stop, _, none => s.settle >>= fun _ => .error stop
  | none, none, _ => .error .unknownArgument
  | none, some spec, some value =>
    match spec.kind with
    | .flag _ => .error .tooManyValues
    | .valued read => s.settle >>= fun s => s.store spec (read value)
  | none, some spec, none =>
    match spec.kind with
    | .flag set => s.settle >>= fun s => s.store spec (some (set true))
    | .valued _ => s.settle >>= fun s => .ok { s with pending := some (spec, none) }

/-- Reads one argument. -/
def accept (s : ParseState) (argument : Argument) : Except ParseStop ParseState :=
  if s.escaped then
    .error .unknownArgument
  else
    match argument with
    | .escape => .ok { s with escaped := true }
    | .long name value => s.acceptLong name value
    | .short c =>
      match ParseStop.ofShort? c with
      | some stop => s.settle >>= fun _ => .error stop
      | none => .error .unknownArgument
    | .word text =>
      match s.pending with
      | some (spec, none) => .ok { s with pending := some (spec, some text) }
      | _ => .error .unknownArgument

/-- Falls back to the environment for an option that is absent. -/
def fallBack (environment : String → Option String) (s : ParseState) (spec : OptionSpec) :
    Except ParseStop ParseState :=
  if spec.name ∈ s.given then
    .ok s
  else
    match spec.fallback >>= environment with
    | none => .ok s
    | some value =>
      match spec.kind, value with
      | .valued read, value => s.store spec (read value)
      | .flag set, "true" => s.store spec (some (set true))
      | .flag set, "false" => s.store spec (some (set false))
      | .flag _, _ => .error .invalidValue

end ParseState

/-- Reads the options of a run from the arguments and the environment. -/
def Options.parse (arguments : List String) (environment : String → Option String) :
    Except ParseStop Options := do
  let s ← (arguments.map Argument.of).foldlM ParseState.accept {}
  let s ← s.settle
  let s ← OptionSpec.all.foldlM (ParseState.fallBack environment) s
  pure s.options

end TieredDispatch
