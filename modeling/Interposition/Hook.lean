import Interposition.DenyList
import Interposition.Host
/-!
Hooking callables.

A hook on a name that exists exchanges the dispatch target of the existing
entry, which keeps its identity, its owner and its origin.  A hook on a name
that does not exist installs a new entry, unless the deny list forbids the
name.
-/

namespace Interposition

/-- What a hook did. -/
inductive HookOutcome where
  /-- There was no entry, and one was installed. -/
  | installed
  /-- The entry with the name now dispatches to the new handler.  `previous` is
  the handler that it dispatched to just before. -/
  | patched (previous : Handler)
deriving DecidableEq, Repr

namespace HookOutcome

def isInstalled : HookOutcome → Bool
  | .installed => true
  | .patched _ => false

/-- The handler that a hook displaced. -/
def previous? : HookOutcome → Option Handler
  | .installed => none
  | .patched previous => some previous

def inspect : HookOutcome → String
  | .installed => "Installed"
  | .patched previous =>
    Text.Inspect.record "Patched" [("previous", previous.inspect)]

end HookOutcome

/-- Why a name could not be hooked. -/
inductive HookError where
  /-- The name is absent, and the deny list forbids to install it. -/
  | unhookable (name : Name)
deriving DecidableEq, Repr

namespace HookError

def message : HookError → String
  | .unhookable name =>
    "function " ++ name.display ++ " is disabled and cannot be hooked"

def inspect : HookError → String
  | .unhookable name => Text.Inspect.record "Unhookable" [("name", name.inspect)]

end HookError

namespace Host

/-- Exchange the dispatch target of an existing callable.  The deny list has no
say in this. -/
def patch (name : Name) (handler : Handler) (host : Host) : Option Handler × Host :=
  match host.registry.get? .callable name with
  | none => (none, host)
  | some entry =>
    let (previous, swapped) := host.onRegistry (Registry.swapTarget entry.id handler)
    (some previous, swapped.emit (.patched name entry.owner))

/-- Make a callable in the image under a free name. -/
def install (name : Name) (handler : Handler) (owner : Owner) (host : Host) : Host :=
  let draft := Draft.callable name owner .image handler
  let (_, defined) := host.onRegistry (Registry.define draft)
  defined.emit (.installed name owner)

/-- Point a name at a handler: patch the callable with this name, or install
one. -/
def hook (deny : DenyList) (name : Name) (handler : Handler) (owner : Owner) (host : Host) :
    Except HookError HookOutcome × Host :=
  match host.patch name handler with
  | (some previous, patched) => (.ok (.patched previous), patched)
  | (none, _) =>
    if deny.contains name then (.error (.unhookable name), host.emit (.refused name))
    else (.ok .installed, host.install name handler owner)

end Host

/-- The outcomes of a batch of hooks, in the order of the batch. -/
structure BatchReport where
  outcomes : List (Name × Except HookError HookOutcome)

namespace BatchReport

/-- The names that could not be hooked. -/
def failures (report : BatchReport) : List Name :=
  report.outcomes.filterMap fun (name, outcome) =>
    match outcome with
    | .ok _ => none
    | .error _ => some name

/-- Whether every name was hooked. -/
def isSuccess (report : BatchReport) : Bool :=
  report.failures.isEmpty

/-- The number of names that were installed. -/
def installed (report : BatchReport) : Nat :=
  report.outcomes.countP fun (_, outcome) =>
    match outcome with
    | .ok .installed => true
    | _ => false

/-- The number of names that were patched. -/
def patched (report : BatchReport) : Nat :=
  report.outcomes.countP fun (_, outcome) =>
    match outcome with
    | .ok (.patched _) => true
    | _ => false

/-- The inspection form of one outcome. -/
def inspectOutcome : Name × Except HookError HookOutcome → String
  | (name, .ok outcome) =>
    Text.Inspect.pair name.inspect (Text.Inspect.tagged "Ok" outcome.inspect)
  | (name, .error error) =>
    Text.Inspect.pair name.inspect (Text.Inspect.tagged "Err" error.inspect)

def inspect (report : BatchReport) : String :=
  Text.Inspect.record "BatchReport"
    [("outcomes", Text.Inspect.list (report.outcomes.map inspectOutcome))]

end BatchReport

namespace Host

/-- Hook one pair after the other, whatever becomes of each. -/
def hookEach (deny : DenyList) (owner : Owner) :
    List (Name × Handler) → Host → List (Name × Except HookError HookOutcome) × Host
  | [], host => ([], host)
  | (name, handler) :: rest, host =>
    let (outcome, hooked) := host.hook deny name handler owner
    let (outcomes, final) := hookEach deny owner rest hooked
    ((name, outcome) :: outcomes, final)

/-- Hook a batch of names and report on all of them. -/
def hookBatch (deny : DenyList) (hooks : List (Name × Handler)) (owner : Owner)
    (host : Host) : BatchReport × Host :=
  let (outcomes, hooked) := hookEach deny owner hooks host
  let report : BatchReport := ⟨outcomes⟩
  if report.isSuccess then (report, hooked)
  else (report, hooked.emit (.batchIncomplete owner report.failures))

end Host
end Interposition
