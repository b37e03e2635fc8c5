import Interposition.Eviction
import Interposition.ForcedConstant
import Interposition.Hook
/-!
Taking over the public surface of a component that was loaded earlier.

A successor supersedes a target in three steps: the constants, types and
callables of the target are evicted, replacements are registered under the
freed names, and what has to stay bound to an existing entry is hooked.  The
replacements are registered under the owner tag of the target, so that a later
eviction of the target still finds them.
-/

namespace Interposition

/-- Registers symbols on behalf of one owner during a takeover. -/
structure Registrar where
  deny : DenyList
  owner : Owner

namespace Registrar

/-- Define a callable in the image under a free name. -/
def function (registrar : Registrar) (name : Name) (handler : Handler) (host : Host) :
    Except RegistryError Callable × Host :=
  host.onRegistry (Registry.define (.callable name registrar.owner .image handler))

/-- Define a type in the image under a free name. -/
def defineType (registrar : Registrar) (name : Name) (host : Host) :
    Except RegistryError TypeDef × Host :=
  host.onRegistry (Registry.define (.type name registrar.owner .image))

/-- Bind a constant whoever held the name before. -/
def forceConstant (registrar : Registrar) (name : Name) (value : Value)
    (flags : ConstFlags) (host : Host) : Option Constant × Host :=
  host.forceConstant name value flags registrar.owner

/-- Patch or install a callable. -/
def hook (registrar : Registrar) (name : Name) (handler : Handler) (host : Host) :
    Except HookError HookOutcome × Host :=
  host.hook registrar.deny name handler registrar.owner

end Registrar

/-- Why a takeover failed. -/
inductive TakeoverError where
  /-- The target is loaded, but a type that it registers is not there. -/
  | loadOrder (target : Owner) (marker : Name)
  /-- A definition was refused. -/
  | registry (error : RegistryError)
  /-- A hook was refused. -/
  | hook (error : HookError)
deriving DecidableEq, Repr

namespace TakeoverError

def message : TakeoverError → String
  | .loadOrder target marker =>
    target.display ++ " must be loaded before its successor: type " ++ marker.display ++
      " is not registered"
  | .registry error => error.message
  | .hook error => error.message

def inspect : TakeoverError → String
  | .loadOrder target marker =>
    Text.Inspect.record "LoadOrder"
      [("target", target.inspect), ("marker", marker.inspect)]
  | .registry error => Text.Inspect.tagged "Registry" error.inspect
  | .hook error => Text.Inspect.tagged "Hook" error.inspect

end TakeoverError

/-- What a takeover did. -/
structure TakeoverReport where
  /-- The owner of the replacements. -/
  owner : Owner
  evicted : EvictionReport
deriving DecidableEq, Repr

def TakeoverReport.inspect (report : TakeoverReport) : String :=
  Text.Inspect.record "TakeoverReport"
    [("owner", report.owner.inspect), ("evicted", report.evicted.inspect)]

/-- A takeover that is about to happen. -/
structure Takeover where
  deny : DenyList
  successor : Owner
  target? : Option Owner
  /-- A type that the target registers when it is loaded. -/
  marker : Name

namespace Takeover

/-- The owner under which replacements are registered. -/
def owner (takeover : Takeover) : Owner :=
  takeover.target?.getD takeover.successor

/-- What registers the replacements. -/
def registrar (takeover : Takeover) : Registrar :=
  ⟨takeover.deny, takeover.owner⟩

/-- Clear the surface of the target.  If its marker is missing, nothing is
touched; without a target there is nothing to clear. -/
def clear (takeover : Takeover) (host : Host) :
    Except TakeoverError EvictionReport × Host :=
  match takeover.target? with
  | none => (.ok .none, host)
  | some target =>
    if host.registry.contains .type takeover.marker then
      let (evicted, cleared) := host.evictAll target
      (.ok evicted, cleared)
    else (.error (.loadOrder target takeover.marker), host)

/-- Report a takeover whose replacements were all registered. -/
def complete (takeover : Takeover) (evicted : EvictionReport) (host : Host) :
    TakeoverReport × Host :=
  (⟨takeover.owner, evicted⟩,
    host.emit (.takeover takeover.successor takeover.owner evicted.total))

/-- Clear the surface of the target, register the replacements, and report.  An
error of the registration ends the takeover without a report. -/
def supersede (takeover : Takeover)
    (register : Registrar → Host → Except TakeoverError Unit × Host) (host : Host) :
    Except TakeoverError TakeoverReport × Host :=
  match takeover.clear host with
  | (.error error, host) => (.error error, host)
  | (.ok evicted, cleared) =>
    match register takeover.registrar cleared with
    | (.error error, host) => (.error error, host)
    | (.ok (), registered) =>
      let (report, host) := takeover.complete evicted registered
      (.ok report, host)

end Takeover

/-- One registration with fixed arguments. -/
inductive Registration where
  | function (name : Name) (handler : Handler)
  | hook (name : Name) (handler : Handler)
  | constant (name : Name) (value : Value) (flags : ConstFlags)
  | type (name : Name)

namespace Registration

/-- Carry out a registration. -/
def run (registrar : Registrar) (registration : Registration) (host : Host) :
    Except TakeoverError Unit × Host :=
  match registration with
  | .function name handler =>
    let (outcome, host) := registrar.function name handler host
    ((outcome.mapError .registry).map fun _ => (), host)
  | .hook name handler =>
    let (outcome, host) := registrar.hook name handler host
    ((outcome.mapError .hook).map fun _ => (), host)
  | .constant name value flags =>
    let (_, host) := registrar.forceConstant name value flags host
    (.ok (), host)
  | .type name =>
    let (outcome, host) := registrar.defineType name host
    ((outcome.mapError .registry).map fun _ => (), host)

/-- Carry out registrations in order, up to the first one that fails. -/
def runAll (registrar : Registrar) :
    List Registration → Host → Except TakeoverError Unit × Host
  | [], host => (.ok (), host)
  | registration :: rest, host =>
    match registration.run registrar host with
    | (.error error, host) => (.error error, host)
    | (.ok (), host) => runAll registrar rest host

end Registration
end Interposition
