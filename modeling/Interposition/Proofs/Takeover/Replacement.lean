import Mathlib.Data.List.Dedup
import Interposition.Proofs.Takeover.Clearing
import Interposition.Proofs.Takeover.Registrations
/-!
What registrations do to the tables.

Registrations on behalf of an owner leave alone what an eviction of the owner
would spare, except for constants whose names they force.  What they add is
what a later eviction removes, and the counts of its report are the numbers of
names forced, of types defined and of callables made.
-/

namespace Interposition

namespace Registration

/-- The constants that a list of registrations forces, as often as they are. -/
def forcedNames (registrations : List Registration) : List Name :=
  registrations.filterMap fun registration =>
    match registration with
    | .constant name _ _ => some name
    | _ => none

/-- The names of a table that a list of registrations takes from whoever holds
them. -/
def taken (kind : Kind) (registrations : List Registration) : List Name :=
  match kind with
  | .constant => forcedNames registrations
  | _ => []

/-- Whether a registration defines a type. -/
def isType : Registration → Bool
  | .type _ => true
  | _ => false

variable {registrar : Registrar} {registration : Registration} {registry next last : Registry}
  {registrations : List Registration} {kind : Kind}

theorem taken_cons (kind : Kind) (registration : Registration)
    (rest : List Registration) :
    taken kind (registration :: rest) = taken kind [registration] ++ taken kind rest := by
  cases kind with
  | constant => cases registration <;> rfl
  | _ => rfl

/-- Everything that is not taken stays. -/
theorem part_taken_eq_self {entries : EntryMap kind} (none : taken kind registrations = []) :
    (entries.part fun pair => pair.1 ∉ taken kind registrations) = entries := by
  apply OrderedMap.part_eq_self
  intro pair member
  rw [none]
  simp

section Put

variable {owner : Owner} {other : Kind} {draft : Draft other}

/-- A new entry that an eviction removes is not among what the eviction spares, but
it may displace something there. -/
theorem spared_put (evictable : (draft.entry registry.fresh).isEvictedWith owner = true) :
    ((registry.put draft).current other).entries.part owner.spares =
      ((registry.current other).entries.part owner.spares).part
        fun pair => pair.1 ≠ draft.name := by
  rw [Registry.entries_put]
  apply OrderedMap.part_append_of_not
  rw [Owner.spares, evictable]
  rfl

/-- Under a free name nothing is displaced. -/
theorem spared_put_of_free
    (evictable : (draft.entry registry.fresh).isEvictedWith owner = true)
    (free : registry.get? other draft.name = none) (kind : Kind) :
    ((registry.put draft).current kind).entries.part owner.spares =
      (registry.current kind).entries.part owner.spares := by
  by_cases same : kind = other
  · subst same
    rw [spared_put evictable]
    apply OrderedMap.erase_eq_self
    intro member
    apply OrderedMap.get?_eq_none_iff.mp free
    exact (List.filter_sublist.map _).subset member
  · rw [Registry.current_put_of_ne draft registry same]

/-- A new entry under a free name counts as one more to evict. -/
theorem owned_put_of_free
    (evictable : (draft.entry registry.fresh).isEvictedWith owner = true)
    (free : registry.get? other draft.name = none) (kind : Kind) :
    (registry.put draft).owned kind owner =
      registry.owned kind owner + if kind = other then 1 else 0 := by
  by_cases same : kind = other
  · subst same
    have unchanged : (registry.current kind).entries.erase draft.name =
        (registry.current kind).entries :=
      OrderedMap.erase_eq_self (OrderedMap.get?_eq_none_iff.mp free)
    have added := EntryMap.values_append (registry.current kind).entries
      (draft.entry registry.fresh)
    have named : (draft.entry registry.fresh).name = draft.name := rfl
    rw [named, unchanged] at added
    rw [Registry.owned, Registry.owned, Snapshot.toList, Registry.entries_put, added,
      List.countP_append, List.countP_singleton, if_pos evictable, if_pos rfl]
    rfl
  · rw [Registry.owned, Registry.owned, Registry.current_put_of_ne draft registry same,
      if_neg same]
    rfl

end Put

theorem isEvictedWith_callable (owner : Owner) (name : Name) (handler : Handler) (id : EntryId) :
    ((Draft.callable name owner .image handler).entry id).isEvictedWith owner = true := by
  simp [Entry.isEvictedWith, Draft.entry, Draft.owner, Entry.isEvictable, Draft.content,
    Origin.isImage]

theorem isEvictedWith_constant (owner : Owner) (name : Name) (value : Value)
    (flags : ConstFlags) (id : EntryId) :
    ((Draft.constant name value flags owner).entry id).isEvictedWith owner = true := by
  simp [Entry.isEvictedWith, Draft.entry, Draft.owner, Entry.isEvictable]

theorem isEvictedWith_type (owner : Owner) (name : Name) (id : EntryId) :
    ((Draft.type name owner .image).entry id).isEvictedWith owner = true := by
  simp [Entry.isEvictedWith, Draft.entry, Draft.owner, Entry.isEvictable, Draft.content,
    Origin.isImage]

/-- A registration leaves what an eviction would spare, except for what it
takes. -/
theorem Succeeds.spared (succeeds : registration.Succeeds registrar registry next)
    (kind : Kind) :
    (next.current kind).entries.part registrar.owner.spares =
      ((registry.current kind).entries.part registrar.owner.spares).part
        fun pair => pair.1 ∉ taken kind [registration] := by
  cases succeeds with
  | function free =>
      rw [part_taken_eq_self (by cases kind <;> rfl)]
      exact spared_put_of_free (isEvictedWith_callable _ _ _ _)
        (Registry.contains_eq_false_iff.mp free) kind
  | installed free allowed =>
      rw [part_taken_eq_self (by cases kind <;> rfl)]
      exact spared_put_of_free (isEvictedWith_callable _ _ _ _) free kind
  | patched found =>
      rw [part_taken_eq_self (by cases kind <;> rfl), Registry.current_retarget]
  | constant name value flags =>
      by_cases same : kind = .constant
      · subst same
        rw [spared_put (isEvictedWith_constant _ _ _ _ _)]
        congr 1
        funext pair
        rw [Bool.eq_iff_iff, decide_eq_true_iff, decide_eq_true_iff]
        simp [taken, forcedNames, Draft.name]
      · rw [part_taken_eq_self (by cases kind <;> first | rfl | exact absurd rfl same),
          Registry.current_put_of_ne _ _ same]
  | type free =>
      rw [part_taken_eq_self (by cases kind <;> rfl)]
      exact spared_put_of_free (isEvictedWith_type _ _ _)
        (Registry.contains_eq_false_iff.mp free) kind

/-- Registrations leave what an eviction would spare, except for what they
take. -/
theorem SucceedAll.spared (succeedAll : SucceedAll registrar registry registrations last)
    (kind : Kind) :
    (last.current kind).entries.part registrar.owner.spares =
      ((registry.current kind).entries.part registrar.owner.spares).part
        fun pair => pair.1 ∉ taken kind registrations := by
  induction succeedAll with
  | nil => exact (part_taken_eq_self (by cases kind <;> rfl)).symm
  | @cons registry next last registration rest succeeds succeedAll inductionHypothesis =>
      rw [inductionHypothesis, succeeds.spared, OrderedMap.part_part,
        taken_cons kind registration rest]
      congr 1
      funext pair
      simp [Bool.and_comm]

/-- What registrations that succeed add to the types of an owner. -/
theorem SucceedAll.owned_type
    (succeedAll : SucceedAll registrar registry registrations last) :
    last.owned .type registrar.owner =
      registry.owned .type registrar.owner + registrations.countP isType := by
  induction succeedAll with
  | nil => simp
  | @cons registry next last registration rest succeeds succeedAll inductionHypothesis =>
      have step : next.owned .type registrar.owner =
          registry.owned .type registrar.owner + if registration.isType then 1 else 0 := by
        cases succeeds with
        | function free =>
            exact owned_put_of_free (isEvictedWith_callable _ _ _ _)
              (Registry.contains_eq_false_iff.mp free) .type
        | installed free allowed =>
            exact owned_put_of_free (isEvictedWith_callable _ _ _ _) free .type
        | patched found => rfl
        | constant name value flags =>
            rw [Registry.owned, Registry.owned, Registry.current_put_of_ne _ _ (by decide)]
            rfl
        | type free =>
            exact owned_put_of_free (isEvictedWith_type _ _ _)
              (Registry.contains_eq_false_iff.mp free) .type
      rw [inductionHypothesis, step, List.countP_cons]
      omega

/-- What a registration that succeeds adds to the callables of an owner. -/
theorem owned_callable_run {host after : Host}
    (ran : registration.run registrar host = (.ok (), after)) :
    after.registry.owned .callable registrar.owner =
      host.registry.owned .callable registrar.owner +
        if registration.creates registrar host then 1 else 0 := by
  generalize reached : after.registry = next
  have succeeds := succeeds_of_run ran
  rw [reached] at succeeds
  cases succeeds with
  | function free =>
      rw [creates, function_of_free _ free]
      exact owned_put_of_free (isEvictedWith_callable _ _ _ _)
        (Registry.contains_eq_false_iff.mp free) .callable
  | installed free allowed =>
      rw [creates, Registrar.hook, Host.hook_of_absent _ _ _ free, allowed]
      exact owned_put_of_free (isEvictedWith_callable _ _ _ _) free .callable
  | patched found =>
      rename_i name handler entry
      rw [creates, Registrar.hook, Host.hook_of_found _ _ _ found]
      rfl
  | constant name value flags =>
      rw [Registry.owned, Registry.owned, Registry.current_put_of_ne _ _ (by decide)]
      rfl
  | type free =>
      exact owned_put_of_free (isEvictedWith_type _ _ _) (Registry.contains_eq_false_iff.mp free)
        .callable

theorem owned_callable_runAll {host after : Host}
    (ran : runAll registrar registrations host = (.ok (), after)) :
    after.registry.owned .callable registrar.owner =
      host.registry.owned .callable registrar.owner +
        callablesMade registrar registrations host := by
  induction registrations generalizing host with
  | nil =>
      obtain ⟨-, rfl⟩ := Prod.mk.inj ran
      rfl
  | cons registration rest inductionHypothesis =>
      rw [runAll] at ran
      split at ran
      · cases ran
      · rename_i next succeeded
        rw [inductionHypothesis ran, owned_callable_run succeeded, callablesMade, succeeded]
        dsimp only
        omega

theorem Succeeds.wellFormed (succeeds : registration.Succeeds registrar registry next)
    (wellFormed : registry.WellFormed) : next.WellFormed := by
  cases succeeds with
  | patched found => exact wellFormed.retarget _ _
  | _ => exact wellFormed.put _

theorem SucceedAll.wellFormed (succeedAll : SucceedAll registrar registry registrations last)
    (wellFormed : registry.WellFormed) : last.WellFormed := by
  induction succeedAll with
  | nil => exact wellFormed
  | cons succeeds _ inductionHypothesis =>
      exact inductionHypothesis (succeeds.wellFormed wellFormed)

/-- The names of the constants of an owner. -/
def ownedNames (registry : Registry) (owner : Owner) : List Name :=
  ((registry.current .constant).entries.part fun pair => pair.2.isEvictedWith owner).keys

theorem length_ownedNames (registry : Registry) (owner : Owner) :
    (ownedNames registry owner).length = registry.owned .constant owner := by
  rw [ownedNames, OrderedMap.length_keys, OrderedMap.size, OrderedMap.part, Registry.owned,
    Snapshot.toList, OrderedMap.values, List.countP_map, List.countP_eq_length_filter]
  rfl

/-- A new constant of the owner adds its name. -/
theorem mem_ownedNames_put {owner : Owner} (forced : Name) (value : Value) (flags : ConstFlags)
    (name : Name) :
    name ∈ ownedNames (registry.put (.constant forced value flags owner)) owner ↔
      name ∈ ownedNames registry owner ∨ name = forced := by
  have evictable := isEvictedWith_constant owner forced value flags registry.fresh
  rw [ownedNames, Registry.entries_put, OrderedMap.part_append_of_pos evictable,
    OrderedMap.keys_append, ownedNames]
  by_cases same : name = forced <;> simp [Draft.name, same]

/-- If the names of the constants of an owner are known, so is their number. -/
theorem owned_constant_of_names {owner : Owner} {names : List Name}
    (sound : EntryMap.Sound (registry.current .constant).entries)
    (same : ∀ name, name ∈ ownedNames registry owner ↔ name ∈ names) :
    registry.owned .constant owner = names.dedup.length := by
  rw [← length_ownedNames]
  apply List.Perm.length_eq
  apply (List.perm_ext_iff_of_nodup (sound.part _).distinctKeys (List.nodup_dedup _)).mpr
  intro name
  rw [List.mem_dedup]
  exact same name

theorem Succeeds.mem_ownedNames (succeeds : registration.Succeeds registrar registry next)
    (name : Name) :
    name ∈ ownedNames next registrar.owner ↔
      name ∈ ownedNames registry registrar.owner ∨ name ∈ forcedNames [registration] := by
  cases succeeds with
  | constant forced value flags =>
      rw [mem_ownedNames_put]
      simp [forcedNames]
  | patched found =>
      rw [ownedNames, Registry.current_retarget]
      simp [forcedNames, ownedNames]
  | _ =>
      rw [ownedNames, Registry.current_put_of_ne _ _ (by decide)]
      simp [forcedNames, ownedNames]

theorem SucceedAll.mem_ownedNames
    (succeedAll : SucceedAll registrar registry registrations last) (name : Name) :
    name ∈ ownedNames last registrar.owner ↔
      name ∈ ownedNames registry registrar.owner ∨ name ∈ forcedNames registrations := by
  induction succeedAll with
  | nil => simp [forcedNames]
  | @cons registry next last registration rest succeeds succeedAll inductionHypothesis =>
      have split := taken_cons .constant registration rest
      rw [inductionHypothesis, succeeds.mem_ownedNames, or_assoc, ← List.mem_append]
      exact split ▸ Iff.rfl

/-- What registrations that succeed add to the constants of an owner who had
none. -/
theorem SucceedAll.owned_constant
    (succeedAll : SucceedAll registrar registry registrations last)
    (wellFormed : registry.WellFormed) (none : registry.owned .constant registrar.owner = 0) :
    last.owned .constant registrar.owner = (forcedNames registrations).dedup.length := by
  rw [← length_ownedNames] at none
  apply owned_constant_of_names ((succeedAll.wellFormed wellFormed).sound .constant)
  intro name
  rw [succeedAll.mem_ownedNames, List.eq_nil_of_length_eq_zero none]
  simp

end Registration
end Interposition
