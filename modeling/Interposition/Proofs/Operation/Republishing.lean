import Interposition.Proofs.Operation.Isolation
/-!
When a table is published again.

A call that is refused leaves everything as it is.  One that is not exchanges the target
of one callable, which publishes nothing, or publishes one table with other entries than
before: with a new one, or with fewer.  `Operation.Effect` lists these, and
`Operation.effect_run` says that there is nothing else.  So the version of a table tells
whether its entries changed: no call publishes a copy of what is there.
-/

namespace Interposition
namespace Operation

/-- Whether an operation is a single call, not a batch of them. -/
def isSingle : Operation → Bool
  | .batch .. => false
  | _ => true

/-- The callable that an operation points at a handler, if it is there. -/
def points? : Operation → Option (Name × Handler)
  | .hook _ name handler _ | .patch name handler => some (name, handler)
  | _ => none

/-- Whether an answer says that nothing was done: a name was taken, denied or free, or an
owner had nothing. -/
def Answer.isRefusal : Answer → Bool
  | .defined (.error _) | .hooked (.error _) | .patched none | .removed none | .evicted [] => true
  | _ => false

/-- What a single call makes of a registry. -/
inductive Effect (registry : Registry) : Answer → Registry → Prop where
  | refused {answer : Answer} (refusal : answer.isRefusal = true) : Effect registry answer registry
  | put {answer : Answer} {kind : Kind} (draft : Draft kind) (accepted : answer.isRefusal = false) :
      Effect registry answer (registry.put draft)
  | pointed {answer : Answer} {name : Name} {entry : Callable}
      (found : registry.get? .callable name = some entry) (handler : Handler)
      (accepted : answer.isRefusal = false) :
      Effect registry answer (registry.retarget entry.id handler)
  | thinned {answer : Answer} {kind : Kind} {next : EntryMap kind}
      (fewer : next.values.length < (registry.current kind).toList.length)
      (accepted : answer.isRefusal = false) : Effect registry answer (registry.publish next)

section Run

variable (host : Host)

theorem effect_define {kind : Kind} (draft : Draft kind) :
    Effect host.registry ((define draft).run host).1 ((define draft).run host).2.registry := by
  simp only [run, Host.onRegistry]
  cases taken : host.registry.contains kind draft.name with
  | true =>
      rw [Registry.define_of_taken draft _ taken]
      exact .refused rfl
  | false =>
      rw [Registry.define_eq_put draft _ taken]
      exact .put draft rfl

theorem effect_hook (deny : DenyList) (name : Name) (handler : Handler) (owner : Owner) :
    Effect host.registry (.hooked (host.hook deny name handler owner).1)
      (host.hook deny name handler owner).2.registry := by
  have hooked := Host.hooked_hook deny name handler owner host
  generalize (host.hook deny name handler owner).1 = outcome at hooked ⊢
  generalize (host.hook deny name handler owner).2.registry = next at hooked ⊢
  cases hooked with
  | patched found => exact .pointed found handler rfl
  | refused absent denied => exact .refused rfl
  | installed absent allowed => exact .put _ rfl

theorem effect_patch (name : Name) (handler : Handler) :
    Effect host.registry (.patched (host.patch name handler).1)
      (host.patch name handler).2.registry := by
  cases bound : host.registry.get? .callable name with
  | none =>
      rw [Host.patch_of_absent handler bound]
      exact .refused rfl
  | some entry =>
      rw [Host.patch_of_found handler bound]
      exact .pointed bound handler rfl

theorem effect_remove (wellFormed : host.registry.WellFormed) (kind : Kind) (name : Name) :
    Effect host.registry (.removed (host.registry.remove kind name).1)
      (host.registry.remove kind name).2 := by
  rw [Registry.remove, Registry.update, Edit.remove]
  cases bound : (host.registry.current kind).entries.get? name with
  | none => exact .refused rfl
  | some entry =>
      have balance := OrderedMap.values_erase_perm (wellFormed.sound kind).distinctKeys name
      refine .thinned ?_ rfl
      rw [Snapshot.toList, ← balance.length_eq, bound, List.length_append]
      exact Nat.lt_succ_self _

theorem effect_evict (kind : Kind) (owner : Owner) :
    Effect host.registry (.evicted (host.evict kind owner).1)
      (host.evict kind owner).2.registry := by
  simp only [Host.evict, Host.onRegistry, Host.emit, retain_eq]
  split <;> rename_i removed
  · rw [List.isEmpty_iff.mp removed]
    exact .refused rfl
  · obtain ⟨entry, rest, evicted⟩ := List.exists_cons_of_ne_nil (mt List.isEmpty_iff.mpr removed)
    refine .thinned ?_ (by rw [evicted]; rfl)
    have member : entry ∈ (host.registry.current kind).toList.filter (·.isEvictedWith owner) :=
      evicted ▸ List.mem_cons_self
    rw [List.mem_filter] at member
    rw [values_part_spares, Snapshot.toList, List.length_filter_lt_length_iff_exists]
    exact ⟨entry, member.1, by simp [member.2]⟩

/-- A single call has one of the effects. -/
theorem effect_run (wellFormed : host.registry.WellFormed) {operation : Operation}
    (single : operation.isSingle = true) :
    Effect host.registry (operation.run host).1 (operation.run host).2.registry := by
  cases operation with
  | define draft => exact effect_define host draft
  | force name value flags owner =>
      simp only [run, Registration.registry_forceConstant]
      exact .put _ rfl
  | hook deny name handler owner => exact effect_hook host deny name handler owner
  | batch deny hooks owner => exact absurd single Bool.false_ne_true
  | patch name handler => exact effect_patch host name handler
  | remove kind name => exact effect_remove host wellFormed kind name
  | evict kind owner => exact effect_evict host kind owner

end Run

namespace Effect

variable {registry next : Registry} {answer : Answer}

/-- A refusal leaves the registry as it is. -/
theorem eq_of_refusal (effect : Effect registry answer next) (refusal : answer.isRefusal = true) :
    next = registry := by
  cases effect with
  | refused => rfl
  | put _ accepted | pointed _ _ accepted | thinned _ accepted =>
      exact absurd (accepted.symm.trans refusal) Bool.false_ne_true

/-- At most one table is published, at most once, and then with other entries. -/
theorem unchanged_or_published (effect : Effect registry answer next)
    (wellFormed : registry.WellFormed) :
    (∀ kind, next.current kind = registry.current kind) ∨
      ∃ kind, (next.current kind).version = (registry.current kind).version + 1 ∧
        EntryMap.ids (next.current kind).entries ≠ EntryMap.ids (registry.current kind).entries ∧
        ∀ other, other ≠ kind → next.current other = registry.current other := by
  cases effect with
  | refused => exact .inl fun _ => rfl
  | @put kind draft accepted =>
      refine .inr ⟨kind, ?_, ?_, fun other => Registry.current_put_of_ne draft registry⟩
      · rw [Registry.put, Registry.current_publish, Registry.current_allocate]
      · intro same
        have new : registry.fresh ∈ EntryMap.ids ((registry.put draft).current kind).entries := by
          have appended := EntryMap.ids_append (registry.current kind).entries
            (draft.entry registry.fresh)
          rw [Registry.entries_put]
          exact appended ▸ List.mem_append_right _ (List.mem_singleton_self _)
        rw [same] at new
        exact Nat.lt_irrefl _ (wellFormed.belowFresh kind _ new)
  | pointed found handler accepted =>
      exact .inl fun kind => Registry.current_retarget registry _ handler kind
  | @thinned kind next fewer accepted =>
      refine .inr ⟨kind, ?_, ?_, fun other => Registry.current_publish_of_ne registry next⟩
      · rw [Registry.current_publish]
      · intro same
        have lengths := congrArg List.length same
        rw [Registry.current_publish, EntryMap.ids, EntryMap.ids, List.length_map,
          List.length_map] at lengths
        exact Nat.ne_of_lt fewer lengths

/-- A table is the same snapshot as before if it has the same entries as before. -/
theorem isSame_iff (effect : Effect registry answer next) (wellFormed : registry.WellFormed)
    (kind : Kind) :
    (next.current kind).isSame (registry.current kind) = true ↔
      EntryMap.ids (next.current kind).entries = EntryMap.ids (registry.current kind).entries := by
  have unchanged (same : next.current kind = registry.current kind) :
      (next.current kind).isSame (registry.current kind) = true ↔
        EntryMap.ids (next.current kind).entries =
          EntryMap.ids (registry.current kind).entries := by
    rw [same]
    exact iff_of_true (beq_self_eq_true _) rfl
  rcases effect.unchanged_or_published wellFormed with all | ⟨changed, version, ids, others⟩
  · exact unchanged (all kind)
  · by_cases same : kind = changed
    · subst same
      refine iff_of_false ?_ ids
      rw [Snapshot.isSame, version, beq_iff_eq]
      exact Nat.succ_ne_self _
    · exact unchanged (others kind same)

end Effect

/-- A patch, or a hook, of a callable that is there exchanges its target. -/
theorem registry_run_of_points {operation : Operation} {host : Host} {name : Name}
    {handler : Handler} {entry : Callable} (points : operation.points? = some (name, handler))
    (found : host.registry.get? .callable name = some entry) :
    (operation.run host).2.registry = host.registry.retarget entry.id handler := by
  cases operation with
  | hook deny name handler owner =>
      cases points
      rw [run, Host.hook_of_found deny handler owner found]
  | patch name handler =>
      cases points
      rw [run, Host.patch_of_found handler found]
  | define | force | batch | remove | evict => cases points

end Operation

namespace Host.Reaches

open Operation

variable {held : EntryId → Prop} {host : Host}

/-- A single call, whenever it is made, publishes a table again exactly when the entries
of the table change, and it publishes at most once.  A call that is refused changes no
table and no target; one that points a callable at a handler changes no table and no
other target. -/
theorem republishes (reaches : Reaches held .empty host) (operation : Operation)
    (single : operation.isSingle = true) :
    (∀ kind,
      ((operation.run host).2.registry.current kind).isSame (host.registry.current kind) = true ↔
        EntryMap.ids ((operation.run host).2.registry.current kind).entries =
          EntryMap.ids (host.registry.current kind).entries) ∧
      ((∀ kind, (operation.run host).2.registry.current kind = host.registry.current kind) ∨
        ∃ kind,
          ((operation.run host).2.registry.current kind).version =
            (host.registry.current kind).version + 1 ∧
          ∀ other, other ≠ kind →
            (operation.run host).2.registry.current other = host.registry.current other) ∧
      ((operation.run host).1.isRefusal = true →
        (∀ kind, (operation.run host).2.registry.current kind = host.registry.current kind) ∧
        (operation.run host).2.registry.targets = host.registry.targets) ∧
      ∀ name handler entry, operation.points? = some (name, handler) →
        host.registry.get? .callable name = some entry →
          (∀ kind, (operation.run host).2.registry.current kind = host.registry.current kind) ∧
          (operation.run host).2.registry.target entry = handler ∧
          ∀ id, id ≠ entry.id →
            (operation.run host).2.registry.targets id = host.registry.targets id := by
  have wellFormed := reaches.evolves.wellFormed Registry.wellFormed_empty
  have effect := effect_run host wellFormed single
  refine ⟨effect.isSame_iff wellFormed, ?_, ?_, ?_⟩
  · refine (effect.unchanged_or_published wellFormed).imp_right ?_
    rintro ⟨kind, version, -, others⟩
    exact ⟨kind, version, others⟩
  · intro refusal
    rw [effect.eq_of_refusal refusal]
    exact ⟨fun _ => rfl, rfl⟩
  · intro name handler entry points found
    rw [registry_run_of_points points found]
    exact ⟨fun kind => Registry.current_retarget host.registry entry.id handler kind,
      Registry.targets_retarget_self host.registry entry.id handler,
      fun _ => Registry.targets_retarget_of_ne host.registry entry.id handler⟩

/-- Calls on a host with a callable and a forced constant: a hook on the callable, another
constant under the name of the first, and a patch of a name that nobody has. -/
theorem republishes_of_calls :
    let name : Name := ⟨[0x66]⟩
    let owner : Owner := ⟨0, "owner"⟩
    let entry : Callable := ⟨0, name, owner, Origin.image⟩
    let defined := ((Operation.define (.callable name owner .image ⟨1⟩)).run .empty).2
    let host := ((Operation.force name .null default owner).run defined).2
    let hooked := ((Operation.hook .empty name ⟨2⟩ owner).run host).2
    let forced := ((Operation.force name (.bool true) default owner).run host).2
    let missed := ((Operation.patch ⟨[0x67]⟩ ⟨3⟩).run host).2
    hooked.registry.target entry = ⟨2⟩ ∧
      (hooked.registry.current .callable).isSame (host.registry.current .callable) = true ∧
      (forced.registry.current .constant).isSame (host.registry.current .constant) = false ∧
      missed.registry.targets = host.registry.targets := by
  intro name owner entry defined host hooked forced missed
  have reaches : Reaches (fun _ => False) .empty host := .operation (.operation (.refl _) _) _
  obtain ⟨hookSame, -, -, points⟩ := republishes reaches (.hook .empty name ⟨2⟩ owner) rfl
  obtain ⟨forceSame, -, -, -⟩ := republishes reaches (.force name (.bool true) default owner) rfl
  obtain ⟨-, -, refused, -⟩ := republishes reaches (.patch ⟨[0x67]⟩ ⟨3⟩) rfl
  refine ⟨(points name ⟨2⟩ entry rfl rfl).2.1,
    (hookSame .callable).mpr (by decide +kernel), ?_, (refused (by decide +kernel)).2⟩
  exact Bool.eq_false_iff.mpr (mt (forceSame .constant).mp (by decide +kernel))

end Host.Reaches
end Interposition
