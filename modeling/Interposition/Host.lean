import Interposition.Event
import Interposition.Registry
/-!
The host: a registry together with the log of what was done to it.

Operations of the host are functions from a host to an answer and the next
host.
-/

namespace Interposition

/-- A registry and its event log, the oldest event first. -/
structure Host where
  registry : Registry
  log : List Event

namespace Host

/-- An empty registry and an empty log. -/
def empty : Host := ⟨.empty, []⟩

instance : Inhabited Host := ⟨empty⟩

/-- Append an event to the log. -/
def emit (event : Event) (host : Host) : Host :=
  { host with log := host.log ++ [event] }

/-- Run an operation of the registry, which emits nothing. -/
def onRegistry {α : Type} (operation : Registry → α × Registry) (host : Host) : α × Host :=
  let (answer, registry) := operation host.registry
  (answer, { host with registry := registry })

end Host

namespace RegistryError

/-- The text of a refusal, for messages. -/
def message : RegistryError → String
  | .duplicate table name => table.label ++ ": duplicate name " ++ name.display

/-- The inspection form of a refusal. -/
def inspect : RegistryError → String
  | .duplicate table name =>
    Text.Inspect.record "Duplicate"
      [("table", String.ofList (Text.quote table.label.toList)), ("name", name.inspect)]

end RegistryError
end Interposition
