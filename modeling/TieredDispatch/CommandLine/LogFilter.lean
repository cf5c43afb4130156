import TieredDispatch.CommandLine.LogDirective

/-!
# Log filters

A filter decides which events of the program become log lines. It is written as directives with
commas between them; pieces that are no directives are passed over. Of the directives that are about
an event the most specific one counts; an event that no directive is about is not shown.
-/

namespace TieredDispatch

/-- Directives in the order in which they are written. -/
structure LogFilter where
  directives : List LogDirective
deriving DecidableEq, Repr

namespace LogFilter

/-! ## Reading -/

/-- The filter that shows all events up to a level. -/
def ofLevel (level : LogLevel) : LogFilter :=
  ⟨[{ verbosity := level.verbosity }]⟩

/-- The pieces of a filter, those without any character left out. -/
def pieces (text : String) : List (List Char) :=
  ((text.splitOn ",").filter (· ≠ "")).map (·.toList)

/-- Whether a piece of a filter can be taken apart. -/
def isReadable (piece : List Char) : Bool :=
  LogDirective.fault? piece != some .splitsCharacter

/-- Whether a piece of a filter cannot be taken apart, which leaves the whole filter unread. -/
def isUnreadable (text : String) : Bool :=
  (pieces text).any fun piece => !isReadable piece

/-- The pieces of a filter that are passed over. Reading ends at a piece that cannot be taken
apart. -/
def ignored (text : String) : List String :=
  (((pieces text).takeWhile isReadable).filter fun piece =>
    LogDirective.fault? piece == some .malformed).map String.ofList

/-- Reads a filter, if it can be read. Without any directive the level counts. -/
def parse? (text : String) (level : LogLevel) : Option LogFilter :=
  if isUnreadable text then
    none
  else
    match (pieces text).filterMap fun piece => (LogDirective.parse piece).toOption with
    | [] => some (ofLevel level)
    | directives => some ⟨directives⟩

/-! ## Filtering -/

/-- The directive that counts for an event. -/
def directive? (filter : LogFilter) (event : ProgramEvent) : Option LogDirective :=
  (filter.directives.filter (·.applies event)).foldl (fun best directive =>
    match best with
    | some other => if other.yieldsTo directive then some directive else best
    | none => some directive) none

/-- Whether an event becomes a log line. -/
def shows (filter : LogFilter) (event : ProgramEvent) : Bool :=
  (filter.directive? event).any fun directive => event.level.verbosity ≤ directive.verbosity

end LogFilter

end TieredDispatch
