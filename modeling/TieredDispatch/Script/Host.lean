import TieredDispatch.Dispatch.Session

/-!
# A scripted host

A host whose compiler and engine follow a script: for each method, or each method and tier, the
script says how often the collaborator panics or reports an error, and which methods it calls before
it answers. Everything the host does inline is recorded as an event. In background mode compilations
run at times of their own, so there they record nothing and make no calls.
-/

namespace TieredDispatch

/-! ## Allowances -/

/-- How often something goes wrong for a key, and with which reason. -/
structure Allowance (κ : Type) where
  key : κ
  times : Nat
  reason : String := ""

/-- Uses up one occurrence for a key, and gives back its reason. The first entry of a key counts. -/
def Allowance.spend {κ : Type} [DecidableEq κ] (key : κ) :
    List (Allowance κ) → Option String × List (Allowance κ)
  | [] => (none, [])
  | entry :: rest =>
    if entry.key = key then
      if 0 < entry.times then
        (some entry.reason, { entry with times := entry.times - 1 } :: rest)
      else
        (none, entry :: rest)
    else
      let (reason, rest) := Allowance.spend key rest
      (reason, entry :: rest)

/-! ## The script -/

/-- What the collaborators do. Of several entries for one key the last counts. -/
structure Script where
  synchronous : Bool := true
  /-- How deep the collaborators nest their calls. -/
  depth : Nat := 3
  panics : List (Allowance Request) := []
  failures : List (Allowance Request) := []
  executionFailures : List (Allowance MethodId) := []
  interpretationFailures : List (Allowance MethodId) := []
  /-- The calls made while compiling. -/
  onCompile : List (Request × List MethodId) := []
  /-- The calls made while executing or interpreting. -/
  onRun : List (MethodId × List MethodId) := []

/-- The calls scripted for a key. -/
def Script.callsOf {κ : Type} [DecidableEq κ] (key : κ) (entries : List (κ × List MethodId)) :
    List MethodId :=
  (entries.reverse.lookup key).getD []

/-- An artifact knows what it was compiled from, and on which attempt. -/
structure ScriptArtifact where
  method : MethodId
  tier : Tier
  attempt : Nat
deriving DecidableEq, Repr

/-- What running an artifact puts out. -/
def ScriptArtifact.output (artifact : ScriptArtifact) : String :=
  toString artifact.tier ++ "#" ++ toString artifact.attempt ++ ":" ++ toString artifact.method.val

/-- Something the host did. -/
inductive HostEvent
  | compile (request : Request) (attempt : Nat)
  | execute (output : String)
  | interpret (m : MethodId)
  | nested (m : MethodId) (result : CallResult String)

/-- The host's state: what is left of the allowances, latest entries first, and what was done so
far. -/
structure ScriptHost where
  panics : List (Allowance Request)
  failures : List (Allowance Request)
  executionFailures : List (Allowance MethodId)
  interpretationFailures : List (Allowance MethodId)
  /-- The compilations attempted so far, newest first. -/
  attempts : List Request := []
  /-- What was done since the record was last cleared, newest first. -/
  recorded : List HostEvent := []

/-- A host at the start of its script. -/
def ScriptHost.start (script : Script) : ScriptHost where
  panics := script.panics.reverse
  failures := script.failures.reverse
  executionFailures := script.executionFailures.reverse
  interpretationFailures := script.interpretationFailures.reverse

namespace ScriptHost

/-- Records an event. -/
def record (host : ScriptHost) (event : HostEvent) : ScriptHost :=
  { host with recorded := event :: host.recorded }

/-- What was recorded, oldest first. -/
def events (host : ScriptHost) : List HostEvent :=
  host.recorded.reverse

/-- Clears the record. -/
def clear (host : ScriptHost) : ScriptHost :=
  { host with recorded := [] }

/-- Number of compilations attempted for a method at a tier. -/
def attemptsOf (host : ScriptHost) (request : Request) : Nat :=
  host.attempts.count request

/-- Decides how an attempt to compile ends: a panic goes before an error, and an error before an
artifact. -/
def decideCompile (host : ScriptHost) (request : Request) :
    Outcome ScriptArtifact × ScriptHost :=
  match Allowance.spend request host.panics with
  | (some _, panics) =>
    let text := "injected panic for " ++ toString request.method ++ " at " ++ toString request.tier
    (.panic (.text text), { host with panics })
  | (none, _) =>
    match Allowance.spend request host.failures with
    | (some reason, failures) => (.error reason, { host with failures })
    | (none, _) => (.value ⟨request.method, request.tier, host.attempts.length⟩, host)

end ScriptHost

/-! ## The collaborators -/

namespace Script

/-- The compiler's work. -/
def compile (script : Script) (host : ScriptHost) (request : Request) :
    Activity ScriptHost ScriptArtifact :=
  let host := { host with attempts := request :: host.attempts }
  let host :=
    if script.synchronous then host.record (.compile request host.attempts.length) else host
  let (outcome, host) := host.decideCompile request
  { state := host
    nested := if script.synchronous then callsOf request script.onCompile else []
    conclude := fun host => (outcome, host) }

/-- The engine's work for an artifact. -/
def execute (script : Script) (host : ScriptHost) (artifact : ScriptArtifact) :
    Activity ScriptHost String where
  state := host.record (.execute artifact.output)
  nested := callsOf artifact.method script.onRun
  conclude host :=
    match Allowance.spend artifact.method host.executionFailures with
    | (some reason, executionFailures) => (.error reason, { host with executionFailures })
    | (none, _) => (.value artifact.output, host)

/-- The engine's work for a method without an artifact. -/
def interpret (script : Script) (host : ScriptHost) (m : MethodId) :
    Activity ScriptHost String where
  state := host.record (.interpret m)
  nested := callsOf m script.onRun
  conclude host :=
    match Allowance.spend m host.interpretationFailures with
    | (some reason, interpretationFailures) =>
      (.error reason, { host with interpretationFailures })
    | (none, _) => (.value ("I:" ++ toString m.val), host)

/-- The scripted compiler and engine. -/
def collaborators (script : Script) : Collaborators ScriptHost ScriptArtifact String where
  compile := script.compile
  execute := script.execute
  interpret := script.interpret
  onNested host m result := host.record (.nested m result)

end Script

end TieredDispatch
