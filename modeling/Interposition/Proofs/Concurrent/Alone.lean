import Interposition.Proofs.Concurrent.Frame
import Interposition.Proofs.Registry.Put
/-!
Calls alone are the operations of the registry and of the host.

A call that runs by itself reserves an identity first, even if it does not come
to use it.  Apart from this it answers what the operation answers, and leaves
the same tables with the same targets.
-/

namespace Interposition

theorem Registry.update_map {kind : Kind} {α β : Type} (edit : EntryMap kind → Edit kind α)
    (f : α → β) (registry : Registry) :
    registry.update (fun entries => (edit entries).map f) =
      (f (registry.update edit).1, (registry.update edit).2) := by
  rw [update, update]
  cases edit (registry.current kind).entries <;> rfl

namespace Concurrent

/-- Two registries with the same tables, and the same targets of the callables in
them. -/
def Matches (first second : Registry) : Prop :=
  Agree (fun id => id ∈ EntryMap.ids (second.current .callable).entries) first second

theorem Matches.refl (registry : Registry) : Matches registry registry :=
  ⟨fun _ => rfl, fun _ _ => rfl⟩

theorem matches_reserve (registry : Registry) : Matches registry.reserve.2 registry :=
  ⟨Registry.current_reserve registry, fun _ _ => rfl⟩

theorem Matches.retarget {first second : Registry} (same : Matches first second)
    (id : EntryId) (handler : Handler) :
    Matches (first.retarget id handler) (second.retarget id handler) := by
  rw [Matches, Registry.current_retarget]
  exact Agree.retarget same id handler

/-- Reserving an identity, and binding its target, is not seen in the tables. -/
theorem matches_of_reserved {registry reserved : Registry} (wellFormed : registry.WellFormed)
    (current : ∀ kind, reserved.current kind = registry.current kind)
    (targets : ∀ id, id ≠ registry.fresh → reserved.targets id = registry.targets id) :
    Matches reserved registry := by
  constructor
  · exact current
  · intro id member
    exact targets id (Nat.ne_of_lt (wellFormed.belowFresh .callable id member))

namespace Request

variable {kind : Kind} {registry : Registry} (deny : DenyList)

/-- A call that runs by itself, with the next identity. -/
def perform (request : Request) (registry : Registry) : Answer × Registry :=
  request.alone deny registry.fresh registry.reserve.2

theorem perform_define (draft : Draft kind) (wellFormed : registry.WellFormed) :
    ((define draft).perform deny registry).1 =
        .written (.inserted (registry.define draft).1) ∧
      Matches ((define draft).perform deny registry).2 (registry.define draft).2 := by
  have performed : (define draft).perform deny registry = _ :=
    congrArg (fun result => (Answer.written result.1, result.2))
      (Registry.update_map (Edit.insert (draft.entry registry.fresh)) WriteAnswer.inserted
        (registry.reserve.2.bindTarget draft registry.fresh))
  rw [performed]
  cases taken : registry.contains kind draft.name with
  | false =>
      have inserted : (registry.reserve.2.bindTarget draft registry.fresh).update
          (Edit.insert (draft.entry registry.fresh)) =
            (.ok (draft.entry registry.fresh), registry.put draft) :=
        Registry.insert_allocated draft registry taken
      rw [Registry.define_eq_put draft registry taken, inserted]
      exact ⟨rfl, .refl _⟩
  | true =>
      have refused := Registry.define_of_taken draft registry taken
      have bound : (registry.current kind).entries.contains (draft.entry registry.fresh).name =
          true := taken
      have kept : (registry.reserve.2.bindTarget draft registry.fresh).update
          (Edit.insert (draft.entry registry.fresh)) =
            (.error (.duplicate kind draft.name),
              registry.reserve.2.bindTarget draft registry.fresh) := by
        rw [Registry.update, Registry.current_bindTarget, Registry.current_reserve,
          Edit.insert, if_pos bound]
        rfl
      rw [refused, kept]
      refine ⟨rfl, matches_of_reserved wellFormed ?_ ?_⟩
      · intro other
        rw [Registry.current_bindTarget, Registry.current_reserve]
      · intro id old
        exact Registry.targets_bindTarget_of_ne draft registry.reserve.2 old

theorem perform_replace (draft : Draft kind) :
    (replace draft).perform deny registry =
      (.written (.replaced (registry.replace draft).1), (registry.replace draft).2) :=
  congrArg (fun result => (Answer.written result.1, result.2))
    (Registry.update_map (Edit.replace (draft.entry registry.fresh)) WriteAnswer.replaced
      (registry.reserve.2.bindTarget draft registry.fresh))

/-- An edit of a table is the same on a registry that reserved an identity. -/
theorem matches_update (registry : Registry) {α : Type} (edit : EntryMap kind → Edit kind α) :
    (registry.reserve.2.update edit).1 = (registry.update edit).1 ∧
      Matches (registry.reserve.2.update edit).2 (registry.update edit).2 := by
  rw [Registry.update, Registry.update, Registry.current_reserve]
  cases edit (registry.current kind).entries with
  | keep answer => exact ⟨rfl, Registry.current_reserve registry, fun _ _ => rfl⟩
  | publish next answer =>
      refine ⟨rfl, Registry.current_publish_congr next (Registry.current_reserve registry), ?_⟩
      intro id _
      rw [Registry.targets_publish, Registry.targets_publish, Registry.targets_reserve]

theorem perform_remove (name : Name) :
    ((remove kind name).perform deny registry).1 =
        .written (.removed (registry.remove kind name).1) ∧
      Matches ((remove kind name).perform deny registry).2 (registry.remove kind name).2 := by
  have performed : (remove kind name).perform deny registry = _ :=
    congrArg (fun result => (Answer.written result.1, result.2))
      (Registry.update_map (Edit.remove name) WriteAnswer.removed registry.reserve.2)
  obtain ⟨answer, tables⟩ := matches_update registry (Edit.remove name)
  rw [performed]
  exact ⟨congrArg (Answer.written <| .removed ·) answer, tables⟩

theorem perform_retain (keep : Entry kind → Bool) :
    ((retain kind fun _ => keep).perform deny registry).1.returned =
        .written (.retained (registry.retain keep).1 []) ∧
      Matches ((retain kind fun _ => keep).perform deny registry).2
        (registry.retain keep).2 := by
  have performed : (retain kind fun _ => keep).perform deny registry = _ :=
    congrArg (fun result => (Answer.written result.1, result.2))
      (Registry.update_map (Edit.retain (fun _ => keep) [])
        (fun answer => WriteAnswer.retained answer.1 answer.2) registry.reserve.2)
  obtain ⟨answer, tables⟩ :=
    matches_update registry (Edit.retain (fun _ => keep) [])
  rw [performed]
  have removed : (registry.reserve.2.update (Edit.retain (fun _ => keep) [])).1.1 =
      (registry.retain keep).1 := congrArg Prod.fst answer
  exact ⟨congrArg (Answer.written <| .retained · []) removed, tables⟩

theorem perform_patch (name : Name) (handler : Handler) (host : Host) :
    ((patch name handler).perform deny host.registry).1 =
        .patched (host.patch name handler).1 ∧
      Matches ((patch name handler).perform deny host.registry).2
        (host.patch name handler).2.registry := by
  cases found : host.registry.get? .callable name with
  | none =>
      simp only [perform, alone, Host.patch, Registry.get?_reserve, found]
      exact ⟨trivial, matches_reserve host.registry⟩
  | some entry =>
      simp only [perform, alone, Host.patch, Registry.get?_reserve, found]
      exact ⟨rfl, (matches_reserve host.registry).retarget entry.id handler⟩

theorem perform_hook (name : Name) (handler : Handler) (owner : Owner) (host : Host) :
    ((hook name handler owner).perform deny host.registry).1 =
        .hooked (host.hook deny name handler owner).1 ∧
      Matches ((hook name handler owner).perform deny host.registry).2
        (host.hook deny name handler owner).2.registry := by
  cases found : host.registry.get? .callable name with
  | some entry =>
      simp only [perform, alone, Host.hook, Host.patch, Registry.get?_reserve, found]
      exact ⟨rfl, (matches_reserve host.registry).retarget entry.id handler⟩
  | none =>
      simp only [perform, alone, Host.hook, Host.patch, Registry.get?_reserve, found]
      split
      · exact ⟨rfl, matches_reserve host.registry⟩
      · have free : host.registry.contains .callable
            (installDraft name handler owner).name = false :=
          Option.isSome_eq_false_iff.mpr (Option.isNone_iff_eq_none.mpr found)
        have inserted := Registry.insert_allocated _ host.registry free
        have defined := Registry.define_eq_put _ host.registry free
        have same : ((host.registry.allocate (installDraft name handler owner)).2.update
            (Edit.insert ((installDraft name handler owner).entry host.registry.fresh))).2 =
              (host.install name handler owner).registry := by
          rw [inserted]
          exact (congrArg Prod.snd defined).symm
        exact ⟨rfl, same ▸ .refl _⟩

theorem perform_resolve (name : Name) :
    ((resolve name).perform deny registry).1 = .resolved (registry.resolve? name) ∧
      Matches ((resolve name).perform deny registry).2 registry := by
  refine ⟨?_, matches_reserve registry⟩
  simp only [perform, alone, Registry.resolve?, Registry.get?_reserve]
  rfl

end Request
end Concurrent
end Interposition
