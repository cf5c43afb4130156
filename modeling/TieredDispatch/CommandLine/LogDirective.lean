import TieredDispatch.Pattern.Modes
import TieredDispatch.Simulation.Workload
import TieredDispatch.Text.Alphanumeric
import TieredDispatch.Text.Bytes

/-!
# Directives of a log filter

A **directive** sets a verbosity for all events, or for some of them. Its full form is
`target[span{field=value}]=level`. It is about the events whose target starts with the given one,
that are inside the span, and that have the field. All parts but one may be left out: a level alone
is about all events, and without a level every event is shown.

The parts are found in the text without the blanks around it, but taken from the same places of the
text with its blanks, counted in bytes. Blanks behind a directive so become part of what comes last
in it, and blanks before it shift all parts. A part that would begin or end inside a character
cannot be taken.
-/

namespace TieredDispatch

/-! ## Directives and the events they are about -/

/-- What a directive asks for of a field: its name, and perhaps a pattern for its value. -/
structure FieldCondition where
  name : String
  value : Option String := none
deriving DecidableEq, Repr

/-- How much is shown of the events that a directive is about. -/
structure LogDirective where
  /-- The start of the target, empty for all targets. -/
  target : String := ""
  /-- The span that the events have to be inside of. -/
  span : Option String := none
  /-- The field that the events need to have. -/
  field : Option FieldCondition := none
  /-- The verbosity of the least severe level shown, zero to show nothing. -/
  verbosity : Nat
deriving DecidableEq, Repr

/-- Whether an event has a field. Its message is one of its fields. -/
def ProgramEvent.hasField (event : ProgramEvent) (name : String) : Bool :=
  name == "message" || event.fields.any fun field => field.1 == name

namespace LogDirective

/-- Whether a directive is about an event. No event of the program is inside a span, and values are
only compared for the fields of spans. -/
def applies (directive : LogDirective) (event : ProgramEvent) : Bool :=
  directive.span.isNone
    && directive.field.all (fun field => field.value.isNone && event.hasField field.name)
    && event.target.startsWith directive.target

/-- Whether, of two directives that are about the same event, the second goes before the first. The
longer target goes first, then a directive with a field, then the name that is later in the order of
its characters. Of directives alike the later one counts. -/
def yieldsTo (directive other : LogDirective) : Bool :=
  if directive.target.length = other.target.length then
    match directive.field, other.field with
    | none, _ => true
    | some _, none => false
    | some field, some otherField => (compare field.name otherField.name).isLE
  else
    directive.target.length < other.target.length

/-! ## Reading -/

/-- Why a text is no directive. -/
inductive Fault
  /-- The text does not have the form of a directive. -/
  | malformed
  /-- A part of the directive begins or ends inside a character. -/
  | splitsCharacter
deriving DecidableEq, Repr

/-- The verbosity a text stands for: a level, or `off`. -/
def parseVerbosity? (text : String) : Option Nat :=
  if text.toLower = "off" ∨ parseWord? text = some 0 then some 0
  else (LogLevel.parse? text).map (·.verbosity)

/-- The part of a text from one place on. -/
def partFrom (start : Nat) (text : List Char) : Except Fault String :=
  match bytesFrom? start text with
  | some part => .ok (String.ofList part)
  | none => .error .splitsCharacter

/-- The part of a text from one place up to another. -/
def partBetween (start stop : Nat) (text : List Char) : Except Fault String :=
  match bytesBetween? start stop text with
  | some part => .ok (String.ofList part)
  | none => .error .splitsCharacter

/-- Reads the level that starts at a place of the text. All events are shown if it is left out. -/
def readLevel (text : List Char) (start : Nat) : Except Fault Nat := do
  let level ← partFrom start text
  if level = "" then
    pure LogLevel.trace.verbosity
  else
    match parseVerbosity? level with
    | some verbosity => pure verbosity
    | none => throw .malformed

/-- Reads what follows the closing bracket, an equals sign and a level, if there is anything. -/
def readEnding (text : List Char) (place : Nat) : List Char → Except Fault Nat
  | [] => .ok LogLevel.trace.verbosity
  | '=' :: _ => readLevel text (place + 1)
  | _ => .error .malformed

/-- Reads a name, perhaps with an equals sign and a value behind it. A second equals sign ends the
value. A value is a number or a pattern. -/
def parseField (text : String) : Except Fault FieldCondition :=
  let name := String.ofList (text.toList.takeWhile (· ≠ '='))
  match text.toList.dropWhile (· ≠ '=') with
  | [] => .ok { name }
  | _ :: rest =>
    let value := rest.takeWhile (· ≠ '=')
    if isNumber value ∨ isPattern value then
      .ok { name, value := some (String.ofList value) }
    else
      .error .malformed

/-- Reads a field up to the closing bracket. `rest` is the text behind the opening brace, which is
at the given place. Gives back the place and the text behind the bracket. -/
def readField (text : List Char) (place : Nat) (rest : List Char) :
    Except Fault (FieldCondition × Nat × List Char) := do
  let name := rest.takeWhile (· ≠ '\x7d')
  match rest.dropWhile (· ≠ '\x7d') with
  | [] => throw .malformed
  | _ :: rest =>
    let stop := place + byteLength name
    let part ← partBetween place stop text
    if part = "" then
      throw .malformed
    else
      let field ← parseField part
      match rest with
      | ']' :: rest => pure (field, stop + 2, rest)
      | _ => throw .malformed

/-- Reads what follows the opening bracket, at the given place. A span without a name is only one if
there is no field. -/
def readBracket (target : String) (text : List Char) (place : Nat) (rest : List Char) :
    Except Fault LogDirective := do
  let inName (c : Char) : Bool := c ≠ ']' && c ≠ '\x7b'
  let stop := place + byteLength (rest.takeWhile inName)
  match rest.dropWhile inName with
  | [] => throw .malformed
  | c :: rest =>
    let span ← partBetween place stop text
    if c = ']' then
      let verbosity ← readEnding text (stop + 1) rest
      pure { target, span := some span, verbosity }
    else
      let (field, place, rest) ← readField text (stop + 1) rest
      let verbosity ← readEnding text place rest
      pure { target, span := if span = "" then none else some span, field := some field, verbosity }

/-- Reads a text that is a level or a target as a whole. -/
def ofLevelOrTarget (text : List Char) : LogDirective :=
  match parseVerbosity? (String.ofList text) with
  | some verbosity => { verbosity }
  | none => { target := String.ofList text, verbosity := LogLevel.trace.verbosity }

/-- Whether a character can be the first of a level or a target. -/
def startsTarget (c : Char) : Bool :=
  isAlphanumeric c || c == '-' || c == ':' || c == '_'

/-- Reads a directive. -/
def parse (text : List Char) : Except Fault LogDirective :=
  match trimWhite text with
  | [] => .error .malformed
  | '[' :: rest => readBracket "" text 1 rest
  | c :: rest =>
    if startsTarget c then
      let inTarget (c : Char) : Bool := c ≠ '=' && c ≠ '['
      let stop := byteLength (c :: rest.takeWhile inTarget)
      match rest.dropWhile inTarget with
      | [] => .ok (ofLevelOrTarget text)
      | c :: rest => do
        let target ← partBetween 0 stop text
        if c = '=' then
          let verbosity ← readLevel text (stop + 1)
          pure { target, verbosity }
        else
          readBracket target text (stop + 1) rest
    else
      .error .malformed

/-- Why a text is no directive, if it is none. -/
def fault? (text : List Char) : Option Fault :=
  match parse text with
  | .ok _ => none
  | .error fault => some fault

end LogDirective

end TieredDispatch
