import Interposition.Proofs.Table.Sound
/-!
Registries as they come to be.

A registry is well formed if its three tables are sound and all identities in
them were handed out before.  The empty registry is well formed, and every
operation keeps a registry so.  Two operations are looked at more closely:
`publish`, which changes one table and nothing else, and the exchange of a
dispatch target, which is written `retarget` here and changes no table at all.
-/

namespace Interposition
namespace Registry

/-- The registry with another dispatch target under an identity. -/
def retarget (id : EntryId) (handler : Handler) (registry : Registry) : Registry :=
  (registry.swapTarget id handler).2

/-- The dispatch targets of the callables in the table, in order. -/
def handlers (registry : Registry) : List Handler :=
  (registry.current .callable).toList.map registry.target

section Retarget

variable (registry : Registry) (id : EntryId) (handler : Handler)

@[simp] theorem current_retarget (kind : Kind) :
    (registry.retarget id handler).current kind = registry.current kind :=
  current_swapTarget registry id handler

@[simp] theorem get?_retarget (kind : Kind) (name : Name) :
    (registry.retarget id handler).get? kind name = registry.get? kind name := by
  rw [get?, get?, current_retarget]

@[simp] theorem fresh_retarget : (registry.retarget id handler).fresh = registry.fresh := rfl

@[simp] theorem targets_retarget_self : (registry.retarget id handler).targets id = handler :=
  if_pos rfl

theorem targets_retarget_of_ne {other : EntryId} (different : other ≠ id) :
    (registry.retarget id handler).targets other = registry.targets other :=
  if_neg different

/-- Writing what is there changes nothing. -/
theorem retarget_eq_self (same : registry.targets id = handler) :
    registry.retarget id handler = registry := by
  have unchanged : (registry.retarget id handler).targets = registry.targets := by
    funext other
    by_cases equal : other = id
    · rw [equal, targets_retarget_self, same]
    · exact targets_retarget_of_ne registry id handler equal
  cases registry
  simpa [retarget, swapTarget] using unchanged

theorem retarget_comm {other : EntryId} (different : other ≠ id) (otherHandler : Handler) :
    (registry.retarget other otherHandler).retarget id handler =
      (registry.retarget id handler).retarget other otherHandler := by
  simp only [retarget, swapTarget, Registry.mk.injEq, true_and, and_true]
  funext query
  by_cases first : query = id
  · simp [first, different.symm]
  · simp [first]

end Retarget

section Publish

variable {kind : Kind} (registry : Registry) (next : EntryMap kind)

theorem current_publish_of_ne {other : Kind} (different : other ≠ kind) :
    (registry.publish next).current other = registry.current other :=
  current_setCurrent_of_ne registry _ different

@[simp] theorem targets_publish : (registry.publish next).targets = registry.targets :=
  targets_setCurrent registry _

@[simp] theorem fresh_publish : (registry.publish next).fresh = registry.fresh :=
  fresh_setCurrent registry _

/-- What is published stands beside the tables that are there. -/
theorem current_publish_congr {first second : Registry}
    (same : ∀ kind, first.current kind = second.current kind) (other : Kind) :
    (first.publish next).current other = (second.publish next).current other := by
  by_cases equal : other = kind
  · subst equal
    rw [current_publish, current_publish, same]
  · rw [current_publish_of_ne first next equal, current_publish_of_ne second next equal, same]

theorem publish_retarget (id : EntryId) (handler : Handler) :
    (registry.retarget id handler).publish next =
      (registry.publish next).retarget id handler := by
  cases kind <;> rfl

end Publish

@[simp] theorem current_reserve (registry : Registry) (kind : Kind) :
    registry.reserve.2.current kind = registry.current kind := by
  cases kind <;> rfl

@[simp] theorem get?_reserve (registry : Registry) (kind : Kind) (name : Name) :
    registry.reserve.2.get? kind name = registry.get? kind name := by
  rw [get?, get?, current_reserve]

@[simp] theorem fresh_reserve (registry : Registry) :
    registry.reserve.2.fresh = registry.fresh + 1 := rfl

@[simp] theorem targets_reserve (registry : Registry) :
    registry.reserve.2.targets = registry.targets := rfl

/-- Binding the target of an entry to be is one `retarget`, or nothing. -/
theorem bindTarget_eq {kind : Kind} (draft : Draft kind) (id : EntryId) (registry : Registry) :
    registry.bindTarget draft id =
      match draft.handler? with
      | none => registry
      | some handler => registry.retarget id handler := by
  cases draft <;> rfl

@[simp] theorem fresh_bindTarget {kind : Kind} (draft : Draft kind) (id : EntryId)
    (registry : Registry) : (registry.bindTarget draft id).fresh = registry.fresh := by
  cases draft <;> rfl

/-- Binding a target touches the target of that identity only. -/
theorem targets_bindTarget_of_ne {kind : Kind} (draft : Draft kind) {id other : EntryId}
    (registry : Registry) (different : other ≠ id) :
    (registry.bindTarget draft id).targets other = registry.targets other := by
  rw [bindTarget_eq]
  split
  · rfl
  · exact targets_retarget_of_ne registry id _ different

/-- What every registry keeps through all operations. -/
structure WellFormed (registry : Registry) : Prop where
  sound : ∀ kind, EntryMap.Sound (registry.current kind).entries
  /-- Identities in a table were handed out before. -/
  belowFresh : ∀ kind, ∀ id ∈ EntryMap.ids (registry.current kind).entries, id < registry.fresh

theorem wellFormed_empty : empty.WellFormed where
  sound kind := by cases kind <;> exact EntryMap.sound_empty
  belowFresh kind id member := by
    cases kind <;> exact absurd member (List.not_mem_nil)

variable {registry : Registry}

/-- Well-formedness is a matter of the tables and of the next identity. -/
theorem WellFormed.of_current {other : Registry} (wellFormed : registry.WellFormed)
    (current : ∀ kind, other.current kind = registry.current kind)
    (fresh : registry.fresh ≤ other.fresh) : other.WellFormed where
  sound kind := by
    rw [current]
    exact wellFormed.sound kind
  belowFresh kind id member := by
    rw [current] at member
    exact Nat.lt_of_lt_of_le (wellFormed.belowFresh kind id member) fresh

theorem WellFormed.retarget (wellFormed : registry.WellFormed) (id : EntryId)
    (handler : Handler) : (registry.retarget id handler).WellFormed :=
  wellFormed.of_current (fun kind => current_retarget registry id handler kind)
    (Nat.le_refl _)

theorem WellFormed.publish (wellFormed : registry.WellFormed) {kind : Kind}
    {next : EntryMap kind} (sound : EntryMap.Sound next)
    (below : ∀ id ∈ EntryMap.ids next, id < registry.fresh) :
    (registry.publish next).WellFormed where
  sound other := by
    by_cases same : other = kind
    · subst same
      rw [current_publish]
      exact sound
    · rw [current_publish_of_ne registry next same]
      exact wellFormed.sound other
  belowFresh other id member := by
    rw [fresh_publish]
    by_cases same : other = kind
    · subst same
      rw [current_publish] at member
      exact below id member
    · rw [current_publish_of_ne registry next same] at member
      exact wellFormed.belowFresh other id member

/-- The identity of a bound entry was handed out before. -/
theorem WellFormed.id_lt_fresh (wellFormed : registry.WellFormed) {kind : Kind} {name : Name}
    {entry : Entry kind} (found : registry.get? kind name = some entry) :
    entry.id < registry.fresh :=
  wellFormed.belowFresh kind entry.id (EntryMap.mem_ids_of_mem (EntryMap.mem_values_of_get? found))

/-- An entry is bound to its own name. -/
theorem WellFormed.name_eq (wellFormed : registry.WellFormed) {kind : Kind} {name : Name}
    {entry : Entry kind} (found : registry.get? kind name = some entry) : entry.name = name :=
  (wellFormed.sound kind).named (name, entry) (OrderedMap.mem_of_get?_eq_some found)

/-- Entries of different names have different identities. -/
theorem WellFormed.id_ne_of_name_ne (wellFormed : registry.WellFormed) {kind : Kind}
    {name other : Name} {entry another : Entry kind}
    (found : registry.get? kind name = some entry)
    (foundOther : registry.get? kind other = some another) (different : other ≠ name) :
    another.id ≠ entry.id := by
  intro same
  have pair := (wellFormed.sound kind).pair_eq_of_id_eq
    (OrderedMap.mem_of_get?_eq_some foundOther) (OrderedMap.mem_of_get?_eq_some found) same
  exact different (congrArg Prod.fst pair)

section Resolve

variable {name other : Name} {entry : Callable}

/-- Calls of a name go to the handler that its callable was just given. -/
theorem resolve?_retarget_self (found : registry.get? .callable name = some entry)
    (handler : Handler) : (registry.retarget entry.id handler).resolve? name = some handler := by
  rw [resolve?, get?_retarget, found]
  exact congrArg some (targets_retarget_self registry entry.id handler)

/-- Calls of other names go where they went before. -/
theorem WellFormed.resolve?_retarget_of_ne (wellFormed : registry.WellFormed)
    (found : registry.get? .callable name = some entry) (different : other ≠ name)
    (handler : Handler) :
    (registry.retarget entry.id handler).resolve? other = registry.resolve? other := by
  rw [resolve?, resolve?, get?_retarget]
  refine Option.map_congr fun another foundOther => ?_
  exact targets_retarget_of_ne registry entry.id handler
    (wellFormed.id_ne_of_name_ne found foundOther different)

end Resolve

end Registry
end Interposition
