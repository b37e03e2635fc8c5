import Interposition.Entry
/-!
The event log.

Hooking, eviction, forced constants and takeovers report what they did as
events.  An event says what happened and to whom; `message` and `fields` are
its written form.
-/

namespace Interposition

/-- How much an event matters. -/
inductive Level where
  | debug
  | info
  | warn
deriving DecidableEq, Repr

/-- The written name of a level. -/
def Level.label : Level → String
  | .debug => "DEBUG"
  | .info => "INFO"
  | .warn => "WARN"

/-- Something that happened to the registry. -/
inductive Event where
  /-- A callable of `owner` got another dispatch target. -/
  | patched (name : Name) (owner : Owner)
  /-- A hook made a callable for `owner`. -/
  | installed (name : Name) (owner : Owner)
  /-- A hook was refused because its name is absent and denied. -/
  | refused (name : Name)
  /-- Some hooks of a batch for `owner` were refused. -/
  | batchIncomplete (owner : Owner) (failed : List Name)
  /-- A pass over a table removed the entries of `owner`. -/
  | evicted (table : Kind) (owner : Owner) (removed : Nat)
  /-- A forced constant of `owner` displaced one of `previousOwner`. -/
  | replaced (name : Name) (owner previousOwner : Owner)
  /-- A successor completed a takeover and registered under `owner`. -/
  | takeover (successor owner : Owner) (evicted : Nat)
deriving DecidableEq, Repr

/-- A field of a written event. -/
inductive EventField where
  | text (text : String)
  | count (count : Nat)
deriving DecidableEq, Repr

namespace Event

def level : Event → Level
  | .patched .. | .installed .. | .evicted .. | .replaced .. => .debug
  | .refused .. | .batchIncomplete .. => .warn
  | .takeover .. => .info

def message : Event → String
  | .patched .. => "patched callable"
  | .installed .. => "installed callable"
  | .refused .. => "refusing to install disabled function"
  | .batchIncomplete .. => "batch hook incomplete"
  | .evicted .. => "evicted owner entries"
  | .replaced .. => "replaced constant"
  | .takeover .. => "takeover complete"

/-- The named fields of an event. -/
def fields : Event → List (String × EventField)
  | .patched name owner | .installed name owner =>
    [("name", .text name.display), ("owner", .text owner.display)]
  | .refused name => [("name", .text name.display)]
  | .batchIncomplete owner failed =>
    [("owner", .text owner.display), ("count", .count failed.length),
      ("failed", .text (Text.Inspect.list (failed.map Name.inspect)))]
  | .evicted table owner removed =>
    [("table", .text table.label), ("owner", .text owner.display),
      ("removed", .count removed)]
  | .replaced name owner previousOwner =>
    [("name", .text name.display), ("owner", .text owner.display),
      ("previous_owner", .text previousOwner.display)]
  | .takeover successor owner total =>
    [("successor", .text successor.display), ("owner", .text owner.display),
      ("evicted", .count total)]

end Event
end Interposition
