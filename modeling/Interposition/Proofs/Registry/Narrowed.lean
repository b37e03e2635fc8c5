import Interposition.Proofs.Registry.WellFormed
/-!
Tables that lose entries.

A table that loses entries leaves the others where they are, and nothing else of the
registry changes.  `Registry.Thinned` says this, whatever is lost.  Removing a name or
evicting an owner leaves what passes a test, which is `Registry.Narrowed`.
-/

namespace Interposition
namespace Registry

/-- What it makes of a registry if a table loses some of its entries. -/
structure Thinned (kind : Kind) (before after : Registry) : Prop where
  sublist : (after.current kind).entries.pairs.Sublist (before.current kind).entries.pairs
  others : ∀ other, other ≠ kind → after.current other = before.current other
  targets : after.targets = before.targets
  fresh : after.fresh = before.fresh

/-- What it makes of a registry if a table is narrowed to what passes a test. -/
structure Narrowed {kind : Kind} (test : Name × Entry kind → Bool) (before after : Registry) :
    Prop where
  entries : (after.current kind).entries = (before.current kind).entries.part test
  others : ∀ other, other ≠ kind → after.current other = before.current other
  targets : after.targets = before.targets
  fresh : after.fresh = before.fresh

namespace Thinned

variable {kind : Kind} {before after : Registry}

/-- What stays keeps its order. -/
theorem toList_sublist (thinned : Thinned kind before after) (other : Kind) :
    (after.current other).toList.Sublist (before.current other).toList := by
  by_cases same : other = kind
  · subst same
    exact thinned.sublist.map _
  · rw [thinned.others other same]

theorem wellFormed (thinned : Thinned kind before after) (wellFormed : before.WellFormed) :
    after.WellFormed where
  sound other := by
    by_cases same : other = kind
    · subst same
      exact (wellFormed.sound other).of_sublist thinned.sublist
    · rw [thinned.others other same]
      exact wellFormed.sound other
  belowFresh other id member := by
    rw [thinned.fresh]
    exact wellFormed.belowFresh other id (((thinned.toList_sublist other).map _).subset member)

end Thinned

namespace Narrowed

variable {kind : Kind} {test : Name × Entry kind → Bool} {before after : Registry}

theorem thinned (narrowed : Narrowed test before after) : Thinned kind before after where
  sublist := by
    rw [narrowed.entries]
    exact List.filter_sublist
  others := narrowed.others
  targets := narrowed.targets
  fresh := narrowed.fresh

theorem wellFormed (narrowed : Narrowed test before after) (wellFormed : before.WellFormed) :
    after.WellFormed :=
  narrowed.thinned.wellFormed wellFormed

/-- A name of the narrowed table is bound to what it was bound to, if that passes. -/
theorem get?_eq_some_iff (narrowed : Narrowed test before after)
    (wellFormed : before.WellFormed) {name : Name} {entry : Entry kind} :
    after.get? kind name = some entry ↔
      before.get? kind name = some entry ∧ test (name, entry) = true := by
  rw [get?, Snapshot.get?, narrowed.entries,
    OrderedMap.get?_part (wellFormed.sound kind).distinctKeys, Option.filter_eq_some_iff]
  rfl

/-- Names of the other tables are not touched. -/
theorem get?_of_ne (narrowed : Narrowed test before after) {other : Kind}
    (different : other ≠ kind) (name : Name) :
    after.get? other name = before.get? other name := by
  rw [get?, get?, narrowed.others other different]

end Narrowed

variable {kind : Kind}

/-- Publishing fewer entries thins a table. -/
theorem thinned_publish {registry : Registry} {next : EntryMap kind}
    (sublist : next.pairs.Sublist (registry.current kind).entries.pairs) :
    Thinned kind registry (registry.publish next) where
  sublist := by rwa [current_publish]
  others _ different := current_publish_of_ne registry _ different
  targets := targets_publish registry _
  fresh := fresh_publish registry _

/-- Publishing a part of a table narrows it. -/
theorem narrowed_publish (test : Name × Entry kind → Bool) (registry : Registry) :
    Narrowed test registry (registry.publish ((registry.current kind).entries.part test)) where
  entries := by rw [current_publish]
  others _ different := current_publish_of_ne registry _ different
  targets := targets_publish registry _
  fresh := fresh_publish registry _

/-- A removal of a free name does nothing. -/
theorem remove_of_absent {registry : Registry} {name : Name}
    (absent : registry.get? kind name = none) :
    registry.remove kind name = (none, registry) := by
  have unbound : (registry.current kind).entries.get? name = none := absent
  rw [remove, update, Edit.remove, unbound]

theorem remove_of_found {registry : Registry} {name : Name} {entry : Entry kind}
    (found : registry.get? kind name = some entry) :
    registry.remove kind name =
      (some entry, registry.publish ((registry.current kind).entries.erase name)) := by
  have bound : (registry.current kind).entries.get? name = some entry := found
  rw [remove, update, Edit.remove, bound]

/-- A removal answers what the name was bound to, and leaves everything else. -/
theorem remove_eq (kind : Kind) (name : Name) (registry : Registry) :
    (registry.remove kind name).1 = registry.get? kind name ∧
      Narrowed (fun pair : Name × Entry kind => pair.1 ≠ name) registry
        (registry.remove kind name).2 := by
  cases found : registry.get? kind name with
  | none =>
      have kept := OrderedMap.erase_eq_self (OrderedMap.get?_eq_none_iff.mp found)
      rw [remove_of_absent found]
      exact ⟨rfl, kept.symm, fun _ _ => rfl, rfl, rfl⟩
  | some entry =>
      rw [remove_of_found found]
      exact ⟨rfl, narrowed_publish _ registry⟩

end Registry
end Interposition
