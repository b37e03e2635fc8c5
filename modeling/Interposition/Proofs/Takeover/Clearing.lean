import Interposition.Eviction
import Interposition.Proofs.Registry.WellFormed
/-!
What an eviction leaves behind.

Evicting an owner leaves the entries of other owners, and those that may not be
evicted, in their order and with their targets.  `Registry.owned` counts the
rest, which is what the report says.
-/

namespace Interposition

/-- Whether a binding of a table outlives the eviction of an owner. -/
def Owner.spares {kind : Kind} (owner : Owner) (pair : Name × Entry kind) : Bool :=
  !pair.2.isEvictedWith owner

/-- The entries of a table that the eviction of an owner removes, in order. -/
def Registry.evictable (registry : Registry) (kind : Kind) (owner : Owner) : List (Entry kind) :=
  (registry.current kind).toList.filter (·.isEvictedWith owner)

/-- The number of entries in a table that evicting an owner removes. -/
def Registry.owned (registry : Registry) (kind : Kind) (owner : Owner) : Nat :=
  (registry.current kind).toList.countP (·.isEvictedWith owner)

/-- What the eviction of an owner makes of a registry. -/
structure Registry.Cleared (owner : Owner) (before after : Registry) : Prop where
  entries : ∀ kind,
    (after.current kind).entries = (before.current kind).entries.part owner.spares
  targets : after.targets = before.targets
  fresh : after.fresh = before.fresh

section Evict

variable (kind : Kind) (owner : Owner) (host : Host)

/-- The entries that evicting an owner removes, in order. -/
theorem retain_eq (registry : Registry) :
    registry.retain (fun entry : Entry kind => !entry.isEvictedWith owner) =
      ((registry.current kind).toList.filter (·.isEvictedWith owner),
        if ((registry.current kind).toList.filter (·.isEvictedWith owner)).isEmpty then registry
        else registry.publish ((registry.current kind).entries.part owner.spares)) := by
  simp only [Registry.retain, Registry.update, Edit.retain, OrderedMap.sweep_steady,
    Bool.not_not]
  split <;> rename_i edited <;> split at edited <;> cases edited <;> rename_i removed
  · rw [Snapshot.toList, if_pos removed, List.isEmpty_iff.mp removed]
  · rw [Snapshot.toList, if_neg removed]
    rfl

/-- The entries that outlive the eviction of an owner, in order. -/
theorem values_part_spares (entries : EntryMap kind) :
    (entries.part owner.spares).values = entries.values.filter (!·.isEvictedWith owner) := by
  rw [OrderedMap.values, OrderedMap.part, OrderedMap.values, List.filter_map]
  rfl

/-- If nothing is removed, everything is spared. -/
theorem part_spares_eq_self {entries : EntryMap kind}
    (none : entries.values.filter (·.isEvictedWith owner) = []) :
    entries.part owner.spares = entries := by
  have all : entries.pairs.filter owner.spares = entries.pairs := by
    refine List.filter_eq_self.mpr fun pair member => ?_
    have kept := List.filter_eq_nil_iff.mp none pair.2
      (EntryMap.mem_values_of_mem_pairs member)
    rw [Owner.spares, Bool.not_eq_true']
    exact Bool.not_eq_true _ ▸ kept
  rw [OrderedMap.part, all]

theorem entries_evict :
    ((host.evict kind owner).2.registry.current kind).entries =
      (host.registry.current kind).entries.part owner.spares := by
  simp only [Host.evict, Host.onRegistry, Host.emit, retain_eq]
  split
  · rename_i none
    exact (part_spares_eq_self kind owner (List.isEmpty_iff.mp none)).symm
  · rw [Registry.current_publish]

theorem current_evict_of_ne {other : Kind} (different : other ≠ kind) :
    (host.evict kind owner).2.registry.current other = host.registry.current other := by
  simp only [Host.evict, Host.onRegistry, Host.emit, retain_eq]
  split
  · rfl
  · exact Registry.current_publish_of_ne _ _ different

theorem targets_evict : (host.evict kind owner).2.registry.targets = host.registry.targets := by
  simp only [Host.evict, Host.onRegistry, Host.emit, retain_eq]
  split
  · rfl
  · exact Registry.targets_publish _ _

theorem fresh_evict : (host.evict kind owner).2.registry.fresh = host.registry.fresh := by
  simp only [Host.evict, Host.onRegistry, Host.emit, retain_eq]
  split
  · rfl
  · exact Registry.fresh_publish _ _

theorem length_evict : (host.evict kind owner).1.length = host.registry.owned kind owner := by
  simp only [Host.evict, Host.onRegistry, Host.emit, retain_eq]
  rw [Registry.owned, List.countP_eq_length_filter]

end Evict

variable (owner : Owner) (host : Host)

theorem cleared_evictAll :
    Registry.Cleared owner host.registry (host.evictAll owner).2.registry := by
  have constants : Kind.constant ≠ Kind.type ∧ Kind.constant ≠ Kind.callable := by decide
  have types : Kind.type ≠ Kind.constant ∧ Kind.type ≠ Kind.callable := by decide
  have callables : Kind.callable ≠ Kind.constant ∧ Kind.callable ≠ Kind.type := by decide
  simp only [Host.evictAll]
  constructor
  · intro kind
    cases kind with
    | callable =>
        rw [entries_evict, current_evict_of_ne _ _ _ callables.2,
          current_evict_of_ne _ _ _ callables.1]
    | constant =>
        rw [current_evict_of_ne _ _ _ constants.2, current_evict_of_ne _ _ _ constants.1,
          entries_evict]
    | type =>
        rw [current_evict_of_ne _ _ _ types.2, entries_evict,
          current_evict_of_ne _ _ _ types.1]
  · rw [targets_evict, targets_evict, targets_evict]
  · rw [fresh_evict, fresh_evict, fresh_evict]

/-- The report of an eviction counts what the owner had in each table. -/
theorem report_evictAll :
    (host.evictAll owner).1 =
      ⟨host.registry.owned .constant owner, host.registry.owned .type owner,
        host.registry.owned .callable owner⟩ := by
  have types : Kind.type ≠ Kind.constant := by decide
  have callables : Kind.callable ≠ Kind.constant ∧ Kind.callable ≠ Kind.type := by decide
  simp only [Host.evictAll, length_evict, Registry.owned]
  rw [current_evict_of_ne _ _ _ types, current_evict_of_ne _ _ _ callables.2,
    current_evict_of_ne _ _ _ callables.1]

namespace Registry.Cleared

variable {owner : Owner} {before after : Registry}

theorem wellFormed (cleared : Cleared owner before after) (wellFormed : before.WellFormed) :
    after.WellFormed where
  sound kind := by
    rw [cleared.entries]
    exact (wellFormed.sound kind).part _
  belowFresh kind id member := by
    rw [cleared.fresh]
    rw [cleared.entries] at member
    exact wellFormed.belowFresh kind id ((EntryMap.ids_part_sublist _ _).subset member)

/-- What was cleared holds nothing to clear. -/
theorem owned_eq_zero (cleared : Cleared owner before after) (kind : Kind) :
    after.owned kind owner = 0 := by
  rw [owned, Snapshot.toList, cleared.entries, List.countP_eq_zero]
  intro entry member
  obtain ⟨pair, inPart, rfl⟩ := List.mem_map.mp member
  have spared := (List.mem_filter.mp inPart).2
  rw [Owner.spares, Bool.not_eq_true'] at spared
  rw [spared]
  exact Bool.false_ne_true

end Registry.Cleared
end Interposition
