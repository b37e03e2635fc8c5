import Interposition.Host
/-!
Eviction by owner.

A pass over a table removes the entries that an owner registered there.  It
walks over one snapshot and publishes the survivors at once, so that nobody
sees a table with only some of them removed.  Callables and types that the
hosting platform provides stay, whoever owns them.
-/

namespace Interposition

/-- The number of entries removed from each table. -/
structure EvictionReport where
  constants : Nat
  types : Nat
  callables : Nat
deriving DecidableEq, Repr

namespace EvictionReport

/-- The report of an eviction that did not take place. -/
def none : EvictionReport := ⟨0, 0, 0⟩

/-- The number of entries removed from all tables. -/
def total (report : EvictionReport) : Nat :=
  report.constants + report.types + report.callables

def inspect (report : EvictionReport) : String :=
  Text.Inspect.record "EvictionReport"
    [("constants", toString report.constants), ("types", toString report.types),
      ("callables", toString report.callables)]

end EvictionReport

namespace Entry

/-- Whether evicting an owner removes the entry. -/
def isEvictedWith {kind : Kind} (owner : Owner) (entry : Entry kind) : Bool :=
  entry.owner == owner && entry.isEvictable

end Entry

namespace Host

/-- Remove the entries of an owner from one table. -/
def evict (kind : Kind) (owner : Owner) (host : Host) : List (Entry kind) × Host :=
  let (removed, swept) :=
    host.onRegistry (Registry.retain fun entry => !entry.isEvictedWith owner)
  (removed, swept.emit (.evicted kind owner removed.length))

/-- Remove the entries of an owner from all tables: constants first, then
types, then callables. -/
def evictAll (owner : Owner) (host : Host) : EvictionReport × Host :=
  let (constants, host) := host.evict .constant owner
  let (types, host) := host.evict .type owner
  let (callables, host) := host.evict .callable owner
  (⟨constants.length, types.length, callables.length⟩, host)

end Host
end Interposition
