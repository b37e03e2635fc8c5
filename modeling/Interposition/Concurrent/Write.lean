import Interposition.Registry
/-!
Writing to a table that others write to as well.

A write is carried out in attempts.  An attempt loads the current snapshot of
the table, derives new entries from it, and publishes them if that snapshot is
still the current one.  If another write came first, the attempt is lost and
the write starts over from the new snapshot.  A write that decides to leave the
table as it is ends with the load.

Loading and publishing are the two atomic steps of an attempt.
-/

namespace Interposition.Concurrent

/-- A write to a table of a kind.  The entries that it offers have their
identity already. -/
inductive Write (kind : Kind) where
  | insert (entry : Entry kind)
  | replace (entry : Entry kind)
  | remove (name : Name)
  /-- Remove what a predicate turns down.  The predicate may remember the
  entries that it was asked about before, the latest first. -/
  | retain (predicate : List (Entry kind) → Entry kind → Bool) (seen : List (Entry kind))

/-- What a write answers. -/
inductive WriteAnswer (kind : Kind) where
  | inserted (result : Except RegistryError (Entry kind))
  | replaced (previous? : Option (Entry kind))
  | removed (removed? : Option (Entry kind))
  /-- The removed entries, and all entries the predicate was asked about. -/
  | retained (removed seen : List (Entry kind))

variable {kind : Kind}

namespace Write

/-- What a write makes of the entries it loaded. -/
def edit (write : Write kind) (entries : EntryMap kind) : Edit kind (WriteAnswer kind) :=
  match write with
  | .insert entry => (Edit.insert entry entries).map .inserted
  | .replace entry => (Edit.replace entry entries).map .replaced
  | .remove name => (Edit.remove name entries).map .removed
  | .retain predicate seen =>
    (Edit.retain predicate seen entries).map fun (removed, seen) => .retained removed seen

/-- The write after an attempt with the given answer was lost.  A predicate
remembers what it saw during the attempt. -/
def afterLoss (write : Write kind) (answer : WriteAnswer kind) : Write kind :=
  match write, answer with
  | .retain predicate _, .retained _ seen => .retain predicate seen
  | write, _ => write

end Write

/-- Where a write stands between two atomic steps. -/
inductive WriteStage (kind : Kind) where
  /-- About to load the current snapshot. -/
  | loading (write : Write kind)
  /-- About to publish entries that were derived from a loaded snapshot. -/
  | publishing (write : Write kind) (loaded : Snapshot kind) (next : EntryMap kind)
      (answer : WriteAnswer kind)

/-- What an atomic step of a write leads to. -/
inductive WriteProgress (kind : Kind) where
  | ongoing (stage : WriteStage kind)
  /-- The attempt was lost to another write. -/
  | lost (stage : WriteStage kind)
  | finished (answer : WriteAnswer kind)

/-- Carry out the next atomic step of a write. -/
def WriteStage.step (stage : WriteStage kind) (registry : Registry) :
    WriteProgress kind × Registry :=
  match stage with
  | .loading write =>
    let loaded := registry.current kind
    match write.edit loaded.entries with
    | .keep answer => (.finished answer, registry)
    | .publish next answer => (.ongoing (.publishing write loaded next answer), registry)
  | .publishing write loaded next answer =>
    match registry.compareAndSwap loaded next with
    | some published => (.finished answer, published)
    | none => (.lost (.loading (write.afterLoss answer)), registry)

end Interposition.Concurrent
