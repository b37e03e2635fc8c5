import Interposition.Proofs.Registry.WellFormed
/-!
New entries.

Defining an entry under a free name and replacing an entry come to the same: a
new entry, with an identity that no other has, stands at the end of its table.
`Registry.put` is this change of a registry.
-/

namespace Interposition
namespace Registry

theorem contains_of_get? {registry : Registry} {kind : Kind} {name : Name} {entry : Entry kind}
    (found : registry.get? kind name = some entry) : registry.contains kind name = true :=
  congrArg Option.isSome found

theorem contains_eq_false_iff {registry : Registry} {kind : Kind} {name : Name} :
    registry.contains kind name = false ↔ registry.get? kind name = none := by
  simp [contains, get?, Snapshot.contains, Snapshot.get?, OrderedMap.contains]

/-- Make a new entry and put it at the end of its table. -/
def put {kind : Kind} (draft : Draft kind) (registry : Registry) : Registry :=
  (registry.allocate draft).2.publish
    ((registry.current kind).entries.append draft.name (draft.entry registry.fresh))

section Put

variable {kind : Kind} (draft : Draft kind) (registry : Registry)

theorem update_eq_publish {α : Type} {edit : EntryMap kind → Edit kind α}
    {next : EntryMap kind} {answer : α}
    (edited : edit (registry.current kind).entries = .publish next answer) :
    registry.update edit = (answer, registry.publish next) := by
  rw [update, edited]

/-- Inserting a new entry under a free name. -/
theorem insert_allocated (free : registry.contains kind draft.name = false) :
    (registry.allocate draft).2.update (Edit.insert (draft.entry registry.fresh)) =
      (.ok (draft.entry registry.fresh), registry.put draft) := by
  have unbound : (registry.current kind).entries.contains draft.name = false := free
  apply update_eq_publish
  rw [current_allocate]
  exact if_neg (by simp [Draft.entry, unbound])

/-- A definition under a taken name is refused. -/
theorem define_of_taken (taken : registry.contains kind draft.name = true) :
    registry.define draft = (.error (.duplicate kind draft.name), registry) :=
  if_pos taken

theorem define_eq_put (free : registry.contains kind draft.name = false) :
    registry.define draft = (.ok (draft.entry registry.fresh), registry.put draft) := by
  have inserted := insert_allocated draft registry free
  rw [contains] at free
  rw [define, if_neg (by simp [free])]
  exact inserted

theorem replace_eq_put :
    registry.replace draft = (registry.get? kind draft.name, registry.put draft) := by
  rw [replace]
  apply update_eq_publish
  change Edit.replace (draft.entry registry.fresh)
    ((registry.allocate draft).2.current kind).entries = _
  rw [current_allocate]
  rfl

@[simp] theorem entries_put :
    ((registry.put draft).current kind).entries =
      (registry.current kind).entries.append draft.name (draft.entry registry.fresh) := by
  rw [put, current_publish]

theorem current_put_of_ne {other : Kind} (different : other ≠ kind) :
    (registry.put draft).current other = registry.current other := by
  rw [put, current_publish_of_ne _ _ different, current_allocate]

theorem fresh_allocate : (registry.allocate draft).2.fresh = registry.fresh + 1 :=
  fresh_bindTarget draft registry.fresh registry.reserve.2

@[simp] theorem fresh_put : (registry.put draft).fresh = registry.fresh + 1 := by
  rw [put, fresh_publish, fresh_allocate]

theorem targets_put_of_ne {id : EntryId} (old : id ≠ registry.fresh) :
    (registry.put draft).targets id = registry.targets id := by
  rw [put, targets_publish]
  exact targets_bindTarget_of_ne draft registry.reserve.2 old

theorem targets_put_fresh (name : Name) (owner : Owner) (origin : Origin) (handler : Handler) :
    (registry.put (.callable name owner origin handler)).targets registry.fresh = handler := by
  rw [put, targets_publish]
  exact targets_retarget_self registry.reserve.2 registry.fresh handler

theorem get?_put_self :
    (registry.put draft).get? kind draft.name = some (draft.entry registry.fresh) := by
  rw [get?, Snapshot.get?, entries_put]
  exact OrderedMap.get?_append_self _ _ _

theorem get?_put_of_ne {other : Kind} {name : Name}
    (different : ¬(other = kind ∧ name = draft.name)) :
    (registry.put draft).get? other name = registry.get? other name := by
  by_cases same : other = kind
  · subst same
    rw [get?, Snapshot.get?, entries_put]
    exact OrderedMap.get?_append_of_ne _ (fun named => different ⟨rfl, named⟩) _
  · rw [get?, get?, current_put_of_ne draft registry same]

end Put

theorem WellFormed.put {kind : Kind} {registry : Registry} (wellFormed : registry.WellFormed)
    (draft : Draft kind) : (registry.put draft).WellFormed := by
  have allocated : (registry.allocate draft).2.WellFormed :=
    wellFormed.of_current (fun other => current_allocate draft registry)
      (fresh_allocate draft registry ▸ Nat.le_succ registry.fresh)
  have unused : (draft.entry registry.fresh).id ∉
      EntryMap.ids (registry.current kind).entries :=
    fun member => Nat.lt_irrefl _ (wellFormed.belowFresh kind _ member)
  apply allocated.publish
  · exact (wellFormed.sound kind).append unused
  · intro id member
    rw [fresh_allocate]
    have appended := EntryMap.ids_append (registry.current kind).entries
      (draft.entry registry.fresh)
    rcases List.mem_append.mp (appended ▸ member) with old | new
    · have before := (EntryMap.ids_part_sublist _ _).subset old
      exact Nat.lt_succ_of_lt (wellFormed.belowFresh kind id before)
    · rw [List.mem_singleton.mp new]
      exact Nat.lt_succ_self _

/-- Callables in the table keep their targets. -/
theorem WellFormed.target_put {kind : Kind} {registry : Registry}
    (wellFormed : registry.WellFormed) (draft : Draft kind) {name : Name} {entry : Callable}
    (found : registry.get? .callable name = some entry) :
    (registry.put draft).target entry = registry.target entry := by
  apply targets_put_of_ne
  exact Nat.ne_of_lt (wellFormed.id_lt_fresh found)

/-- Calls of a name go to the handler that its new callable came with. -/
theorem resolve?_put_self (registry : Registry) (name : Name) (owner : Owner) (origin : Origin)
    (handler : Handler) :
    (registry.put (.callable name owner origin handler)).resolve? name = some handler := by
  have bound := get?_put_self (.callable name owner origin handler) registry
  rw [Draft.name] at bound
  rw [resolve?, bound]
  exact congrArg some (targets_put_fresh registry name owner origin handler)

/-- Calls of other names go where they went before. -/
theorem WellFormed.resolve?_put_of_ne {kind : Kind} {registry : Registry}
    (wellFormed : registry.WellFormed) (draft : Draft kind) {name : Name}
    (different : ¬(Kind.callable = kind ∧ name = draft.name)) :
    (registry.put draft).resolve? name = registry.resolve? name := by
  rw [resolve?, resolve?, get?_put_of_ne draft registry different]
  exact Option.map_congr fun entry found => wellFormed.target_put draft found

/-- A new entry stands last, and what held its name is gone. -/
theorem WellFormed.toList_put {kind : Kind} {registry : Registry}
    (wellFormed : registry.WellFormed) (draft : Draft kind) :
    ((registry.put draft).current kind).toList =
      (registry.current kind).toList.filter (fun entry => entry.name ≠ draft.name) ++
        [draft.entry registry.fresh] := by
  have appended := EntryMap.values_append (registry.current kind).entries
    (draft.entry registry.fresh)
  have kept := (wellFormed.sound kind).values_part fun name => name ≠ draft.name
  rw [← OrderedMap.erase_eq_part] at kept
  rw [Snapshot.toList, entries_put]
  exact appended.trans (congrArg (· ++ _) kept)

/-- Under a free name a new entry displaces nothing. -/
theorem WellFormed.toList_put_of_free {kind : Kind} {registry : Registry}
    (wellFormed : registry.WellFormed) {draft : Draft kind}
    (free : registry.get? kind draft.name = none) :
    ((registry.put draft).current kind).toList =
      (registry.current kind).toList ++ [draft.entry registry.fresh] := by
  have others : (registry.current kind).toList.filter (fun entry => entry.name ≠ draft.name) =
      (registry.current kind).toList := by
    refine List.filter_eq_self.mpr fun entry member => decide_eq_true fun named => ?_
    have bound := (wellFormed.sound kind).get?_name member
    rw [named] at bound
    exact Option.some_ne_none entry (bound.symm.trans free)
  rw [wellFormed.toList_put, others]

end Registry
end Interposition
