import Interposition.Table.Edit
/-!
The registry: three published tables and the dispatch targets of callables.

A table is published as a snapshot.  A snapshot never changes; writing to a
table publishes another snapshot with a version of its own.  Readers that hold
a snapshot keep seeing it.  A write is derived from the snapshot that was
loaded for it and takes effect only if this snapshot is still the current one,
which `compareAndSwap` decides by the version.

Dispatch targets live outside the tables, under the identity of their entry.
Hooking a callable therefore publishes nothing, and an entry keeps its target
when it is removed from its table.
-/

namespace Interposition

/-- A published state of one table. -/
structure Snapshot (kind : Kind) where
  version : Nat
  entries : EntryMap kind

namespace Snapshot

variable {kind : Kind}

/-- The first snapshot of a table. -/
def initial : Snapshot kind := ⟨0, .empty⟩

instance : Inhabited (Snapshot kind) := ⟨initial⟩

/-- Whether two snapshots of one table are one and the same. -/
def isSame (first second : Snapshot kind) : Bool :=
  first.version == second.version

def get? (snapshot : Snapshot kind) (name : Name) : Option (Entry kind) :=
  snapshot.entries.get? name

def contains (snapshot : Snapshot kind) (name : Name) : Bool :=
  snapshot.entries.contains name

/-- All names, in the order of their registration. -/
def names (snapshot : Snapshot kind) : List Name :=
  snapshot.entries.keys

/-- All entries, in the order of their registration. -/
def toList (snapshot : Snapshot kind) : List (Entry kind) :=
  snapshot.entries.values

def size (snapshot : Snapshot kind) : Nat :=
  snapshot.entries.size

end Snapshot

/-- The three tables, the dispatch target of every callable that was ever
made, and the next identity to hand out. -/
structure Registry where
  callables : Snapshot .callable
  constants : Snapshot .constant
  types : Snapshot .type
  targets : EntryId → Handler
  fresh : EntryId

namespace Registry

/-- A registry without entries. -/
def empty : Registry :=
  { callables := .initial
    constants := .initial
    types := .initial
    targets := fun _ => ⟨0⟩
    fresh := 0 }

instance : Inhabited Registry := ⟨empty⟩

/-- The current snapshot of a table. -/
def current (registry : Registry) : (kind : Kind) → Snapshot kind
  | .callable => registry.callables
  | .constant => registry.constants
  | .type => registry.types

/-- Make a snapshot the current one. -/
def setCurrent (registry : Registry) : {kind : Kind} → Snapshot kind → Registry
  | .callable, snapshot => { registry with callables := snapshot }
  | .constant, snapshot => { registry with constants := snapshot }
  | .type, snapshot => { registry with types := snapshot }

/-- Publish entries as the next snapshot of a table. -/
def publish {kind : Kind} (registry : Registry) (next : EntryMap kind) : Registry :=
  registry.setCurrent ⟨(registry.current kind).version + 1, next⟩

/-- Publish entries if the given snapshot is still the current one. -/
def compareAndSwap {kind : Kind} (registry : Registry) (loaded : Snapshot kind)
    (next : EntryMap kind) : Option Registry :=
  if (registry.current kind).isSame loaded then some (registry.publish next) else none

/-- Edit a table while nobody else writes to it. -/
def update {kind : Kind} {α : Type} (edit : EntryMap kind → Edit kind α)
    (registry : Registry) : α × Registry :=
  match edit (registry.current kind).entries with
  | .keep answer => (answer, registry)
  | .publish next answer => (answer, registry.publish next)

/-- The handler that calls of an entry are dispatched to. -/
def target (registry : Registry) (entry : Callable) : Handler :=
  registry.targets entry.id

/-- Exchange the dispatch target of the entry with an identity, in the table or
not. -/
def swapTarget (id : EntryId) (handler : Handler) (registry : Registry) :
    Handler × Registry :=
  (registry.targets id,
    { registry with
      targets := fun other => if other = id then handler else registry.targets other })

/-- Hand out an identity that no entry has. -/
def reserve (registry : Registry) : EntryId × Registry :=
  (registry.fresh, { registry with fresh := registry.fresh + 1 })

/-- Give the entry to be its dispatch target, if it is a callable. -/
def bindTarget {kind : Kind} (draft : Draft kind) (id : EntryId) (registry : Registry) :
    Registry :=
  match draft.handler? with
  | none => registry
  | some handler => (swapTarget id handler registry).2

/-- Make an entry with an identity of its own; for a callable also its dispatch
target. -/
def allocate {kind : Kind} (draft : Draft kind) (registry : Registry) :
    Entry kind × Registry :=
  let (id, reserved) := registry.reserve
  (draft.entry id, bindTarget draft id reserved)

/-- Register an entry under a free name.  A refusal leaves the registry as it
is. -/
def define {kind : Kind} (draft : Draft kind) (registry : Registry) :
    Except RegistryError (Entry kind) × Registry :=
  if (registry.current kind).contains draft.name then
    (.error (.duplicate kind draft.name), registry)
  else
    let (entry, allocated) := registry.allocate draft
    allocated.update (Edit.insert entry)

/-- Register an entry whatever its name was bound to, and return the entry that
was displaced. -/
def replace {kind : Kind} (draft : Draft kind) (registry : Registry) :
    Option (Entry kind) × Registry :=
  let (entry, allocated) := registry.allocate draft
  allocated.update (Edit.replace entry)

/-- Remove the entry with a name. -/
def remove (kind : Kind) (name : Name) (registry : Registry) :
    Option (Entry kind) × Registry :=
  registry.update (Edit.remove name)

/-- Remove every entry that a predicate turns down, and return the removed
entries in order. -/
def retain {kind : Kind} (predicate : Entry kind → Bool) (registry : Registry) :
    List (Entry kind) × Registry :=
  let ((removed, _), next) := registry.update (Edit.retain (fun _ => predicate) [])
  (removed, next)

/-- Look up an entry. -/
def get? (registry : Registry) (kind : Kind) (name : Name) : Option (Entry kind) :=
  (registry.current kind).get? name

def contains (registry : Registry) (kind : Kind) (name : Name) : Bool :=
  (registry.current kind).contains name

/-- The handler that a call of a name is dispatched to. -/
def resolve? (registry : Registry) (name : Name) : Option Handler :=
  (registry.get? .callable name).map registry.target

/-- The value of a constant. -/
def constant? (registry : Registry) (name : Name) : Option Value :=
  (registry.get? .constant name).map (·.content.value)

/-- The inspection form of a table. -/
def inspectTable (registry : Registry) (kind : Kind) : String :=
  Text.Inspect.record "SymbolTable"
    [("label", String.ofList (Text.quote kind.label.toList)),
      ("len", toString (registry.current kind).size)]

/-- The inspection form of the registry. -/
def inspect (registry : Registry) : String :=
  Text.Inspect.record "SymbolRegistry"
    ([Kind.callable, .constant, .type].map fun kind =>
      (kind.label, registry.inspectTable kind))

@[simp] theorem current_setCurrent {kind : Kind} (registry : Registry)
    (snapshot : Snapshot kind) :
    (registry.setCurrent snapshot).current kind = snapshot := by
  cases kind <;> rfl

theorem current_setCurrent_of_ne {kind other : Kind} (registry : Registry)
    (snapshot : Snapshot kind) (different : other ≠ kind) :
    (registry.setCurrent snapshot).current other = registry.current other := by
  cases kind <;> cases other <;> first | rfl | exact absurd rfl different

@[simp] theorem targets_setCurrent {kind : Kind} (registry : Registry)
    (snapshot : Snapshot kind) :
    (registry.setCurrent snapshot).targets = registry.targets := by
  cases kind <;> rfl

@[simp] theorem fresh_setCurrent {kind : Kind} (registry : Registry)
    (snapshot : Snapshot kind) :
    (registry.setCurrent snapshot).fresh = registry.fresh := by
  cases kind <;> rfl

@[simp] theorem current_publish {kind : Kind} (registry : Registry)
    (next : EntryMap kind) :
    (registry.publish next).current kind =
      ⟨(registry.current kind).version + 1, next⟩ := by
  simp [publish]

@[simp] theorem current_swapTarget {kind : Kind} (registry : Registry) (id : EntryId)
    (handler : Handler) :
    (registry.swapTarget id handler).2.current kind = registry.current kind := by
  cases kind <;> rfl

@[simp] theorem current_bindTarget {kind other : Kind} (draft : Draft kind) (id : EntryId)
    (registry : Registry) :
    (registry.bindTarget draft id).current other = registry.current other := by
  cases other <;> cases draft <;> rfl

@[simp] theorem current_allocate {kind other : Kind} (draft : Draft kind)
    (registry : Registry) :
    (registry.allocate draft).2.current other = registry.current other := by
  cases other <;> cases draft <;> rfl

end Registry
end Interposition
