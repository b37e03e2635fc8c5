import Interposition.Proofs.Operation.Deeds
/-!
Registries without what an owner has in them.

A pass over a table publishes the survivors if there is something to remove, and does
nothing otherwise.  `Snapshot.without` is the table after it, with its version.  An
eviction of all tables makes `Registry.without` of a registry, and so do its three
passes in any order; what a pass answers depends on its own table only.
-/

namespace Interposition

/-- What evicting an owner makes of a table. -/
def Snapshot.without {kind : Kind} (owner : Owner) (snapshot : Snapshot kind) : Snapshot kind :=
  if (snapshot.toList.filter (·.isEvictedWith owner)).isEmpty then snapshot
  else ⟨snapshot.version + 1, snapshot.entries.part owner.spares⟩

/-- What evicting an owner makes of a registry. -/
def Registry.without (owner : Owner) (registry : Registry) : Registry :=
  { registry with
    callables := registry.callables.without owner
    constants := registry.constants.without owner
    types := registry.types.without owner }

variable {kind : Kind} {owner : Owner}

/-- Registries with the same tables, targets and identities to hand out are the same. -/
theorem Registry.ext_current {first second : Registry}
    (current : ∀ kind, first.current kind = second.current kind)
    (targets : first.targets = second.targets) (fresh : first.fresh = second.fresh) :
    first = second := by
  obtain ⟨callables, constants, types, _, _⟩ := first
  cases targets
  cases fresh
  cases (current .callable : callables = second.callables)
  cases (current .constant : constants = second.constants)
  cases (current .type : types = second.types)
  rfl

namespace Snapshot

variable {snapshot : Snapshot kind}

theorem without_of_nothing (nothing : snapshot.toList.filter (·.isEvictedWith owner) = []) :
    snapshot.without owner = snapshot := by
  rw [without, nothing]
  rfl

theorem entries_without (owner : Owner) (snapshot : Snapshot kind) :
    (snapshot.without owner).entries = snapshot.entries.part owner.spares := by
  rw [without]
  split
  · rename_i nothing
    exact (part_spares_eq_self kind owner (List.isEmpty_iff.mp nothing)).symm
  · rfl

/-- What is left, in order. -/
theorem toList_without (owner : Owner) (snapshot : Snapshot kind) :
    (snapshot.without owner).toList = snapshot.toList.filter (!·.isEvictedWith owner) := by
  rw [toList, entries_without]
  exact values_part_spares kind owner snapshot.entries

/-- Nothing is left of the owner. -/
theorem filter_without (owner : Owner) (snapshot : Snapshot kind) :
    (snapshot.without owner).toList.filter (·.isEvictedWith owner) = [] := by
  simp [toList_without, List.filter_filter]

/-- A second pass finds nothing to remove and publishes nothing. -/
theorem without_without (owner : Owner) (snapshot : Snapshot kind) :
    (snapshot.without owner).without owner = snapshot.without owner :=
  without_of_nothing (filter_without owner snapshot)

end Snapshot

namespace Registry

variable (owner : Owner) (registry : Registry)

@[simp] theorem current_without (kind : Kind) :
    (registry.without owner).current kind = (registry.current kind).without owner := by
  cases kind <;> rfl

@[simp] theorem targets_without : (registry.without owner).targets = registry.targets := rfl

@[simp] theorem fresh_without : (registry.without owner).fresh = registry.fresh := rfl

theorem without_without : (registry.without owner).without owner = registry.without owner := by
  apply ext_current
  · intro kind
    simp only [current_without, Snapshot.without_without]
  · rfl
  · rfl

theorem cleared_without : Cleared owner registry (registry.without owner) where
  entries kind := by rw [current_without, Snapshot.entries_without]
  targets := rfl
  fresh := rfl

theorem length_evictable (kind : Kind) :
    (registry.evictable kind owner).length = registry.owned kind owner := by
  simp only [evictable, owned, List.countP_eq_length_filter]

variable {registry}

theorem WellFormed.without (wellFormed : registry.WellFormed) :
    (registry.without owner).WellFormed :=
  (cleared_without owner registry).wellFormed wellFormed

/-- What is bound to a name, if it is not the owner's. -/
theorem WellFormed.get?_without (wellFormed : registry.WellFormed) (kind : Kind) (name : Name) :
    (registry.without owner).get? kind name =
      (registry.get? kind name).filter (!·.isEvictedWith owner) := by
  rw [get?, Snapshot.get?, current_without, Snapshot.entries_without,
    OrderedMap.get?_part (wellFormed.sound kind).distinctKeys]
  rfl

end Registry

namespace Host

variable (kind : Kind) (owner : Owner) (host : Host)

theorem answer_evict : (host.evict kind owner).1 = host.registry.evictable kind owner := by
  simp only [evict, onRegistry, emit, retain_eq, Registry.evictable]

/-- A pass publishes what it leaves, if it finds something of the owner. -/
theorem registry_evict :
    (host.evict kind owner).2.registry =
      if (host.registry.evictable kind owner).isEmpty then host.registry
      else host.registry.publish ((host.registry.current kind).entries.part owner.spares) := by
  simp only [evict, onRegistry, emit, retain_eq, Registry.evictable]
  rfl

theorem current_evict_self :
    (host.evict kind owner).2.registry.current kind =
      (host.registry.current kind).without owner := by
  simp only [evict, onRegistry, emit, retain_eq, Snapshot.without]
  split
  · rfl
  · exact Registry.current_publish _ _

/-- A pass leaves its table without the owner, and the other tables as they are. -/
theorem current_evict (other : Kind) :
    (host.evict kind owner).2.registry.current other =
      if other = kind then (host.registry.current other).without owner
      else host.registry.current other := by
  split
  · rename_i same
    subst same
    exact current_evict_self other owner host
  · exact current_evict_of_ne kind owner host ‹_›

/-- A pass leaves alone what the other tables hold of the owner. -/
theorem evictable_evict_of_ne {other : Kind} (different : other ≠ kind) :
    (host.evict kind owner).2.registry.evictable other owner =
      host.registry.evictable other owner := by
  simp only [Registry.evictable, current_evict_of_ne kind owner host different]

end Host

namespace Operation

variable (owner : Owner)

/-- What passes make of a table. -/
theorem current_passes (kinds : List Kind) (host : Host) (kind : Kind) :
    (runAll (kinds.map (.evict · owner)) host).2.registry.current kind =
      if kind ∈ kinds then (host.registry.current kind).without owner
      else host.registry.current kind := by
  induction kinds generalizing host with
  | nil => rfl
  | cons first rest inductionHypothesis =>
      simp only [List.map_cons, runAll, run, inductionHypothesis, Host.current_evict,
        List.mem_cons]
      by_cases same : kind = first
      · simp [same, Snapshot.without_without]
      · simp [same]

theorem targets_passes (kinds : List Kind) (host : Host) :
    (runAll (kinds.map (.evict · owner)) host).2.registry.targets = host.registry.targets := by
  induction kinds generalizing host with
  | nil => rfl
  | cons first rest inductionHypothesis =>
      simp only [List.map_cons, runAll, run, inductionHypothesis, targets_evict]

theorem fresh_passes (kinds : List Kind) (host : Host) :
    (runAll (kinds.map (.evict · owner)) host).2.registry.fresh = host.registry.fresh := by
  induction kinds generalizing host with
  | nil => rfl
  | cons first rest inductionHypothesis =>
      simp only [List.map_cons, runAll, run, inductionHypothesis, fresh_evict]

/-- A pass answers what its own table holds, whichever passes came before. -/
theorem answers_passes {kinds : List Kind} (distinct : kinds.Nodup) (host : Host) :
    (runAll (kinds.map (.evict · owner)) host).1 =
      kinds.map fun kind => (.evict kind owner, .evicted (host.registry.evictable kind owner)) := by
  induction kinds generalizing host with
  | nil => rfl
  | cons first rest inductionHypothesis =>
      obtain ⟨apart, distinctRest⟩ := List.nodup_cons.mp distinct
      simp only [List.map_cons, runAll, run, inductionHypothesis distinctRest, Host.answer_evict]
      congr 1
      apply List.map_congr_left
      intro kind member
      -- The first pass was over another table.
      have different : kind ≠ first := fun same => apart (same ▸ member)
      simp only [Registry.evictable, Host.current_evict, if_neg different]

/-- Passes over all tables, in any order. -/
theorem registry_passes {kinds : List Kind} (all : ∀ kind, kind ∈ kinds) (host : Host) :
    (runAll (kinds.map (.evict · owner)) host).2.registry = host.registry.without owner := by
  apply Registry.ext_current
  · intro kind
    rw [current_passes, if_pos (all kind), Registry.current_without]
  · exact targets_passes owner kinds host
  · exact fresh_passes owner kinds host

end Operation

/-- An eviction of all tables is a pass over each. -/
theorem Host.registry_evictAll (owner : Owner) (host : Host) :
    (host.evictAll owner).2.registry = host.registry.without owner :=
  @Operation.registry_passes owner [.constant, .type, .callable]
    (fun kind => by cases kind <;> decide) host

end Interposition
