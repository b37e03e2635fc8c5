import Interposition.Hook
import Interposition.Proofs.Registry.Put
/-!
What a hook does.

`Registry.Hooked` lists the three things that a hook can come to, and
`Host.hooked_hook` says that every hook comes to one of them.  A batch is its
hooks, one after the other (`Host.hookEach_append`).
-/

namespace Interposition

/-- What a hook on a name comes to: its answer and the next registry. -/
inductive Registry.Hooked (deny : DenyList) (name : Name) (handler : Handler) (owner : Owner)
    (registry : Registry) : Except HookError HookOutcome → Registry → Prop where
  | patched {entry : Callable} (found : registry.get? .callable name = some entry) :
      Hooked deny name handler owner registry (.ok (.patched (registry.target entry)))
        (registry.retarget entry.id handler)
  | refused (absent : registry.get? .callable name = none)
      (denied : deny.contains name = true) :
      Hooked deny name handler owner registry (.error (.unhookable name)) registry
  | installed (absent : registry.get? .callable name = none)
      (allowed : deny.contains name = false) :
      Hooked deny name handler owner registry (.ok .installed)
        (registry.put (.callable name owner .image handler))

namespace Host

variable {deny : DenyList} {name : Name} {owner : Owner} {host : Host}

/-- A patch of a name that is bound. -/
theorem patch_of_found (handler : Handler) {entry : Callable}
    (found : host.registry.get? .callable name = some entry) :
    host.patch name handler =
      (some (host.registry.target entry),
        ⟨host.registry.retarget entry.id handler, host.log ++ [.patched name entry.owner]⟩) := by
  simp only [patch, found]
  rfl

/-- A patch of a name that is free. -/
theorem patch_of_absent (handler : Handler)
    (absent : host.registry.get? .callable name = none) :
    host.patch name handler = (none, host) := by
  simp [patch, absent]

theorem registry_install (handler : Handler) (owner : Owner)
    (absent : host.registry.get? .callable name = none) :
    (host.install name handler owner).registry =
      host.registry.put (.callable name owner .image handler) := by
  have defined := Registry.define_eq_put (.callable name owner .image handler) host.registry
    (Registry.contains_eq_false_iff.mpr absent)
  simp only [install, onRegistry, defined]
  rfl

/-- A hook on a name that is bound, denied or not. -/
theorem hook_of_found (deny : DenyList) (handler : Handler) (owner : Owner) {entry : Callable}
    (found : host.registry.get? .callable name = some entry) :
    host.hook deny name handler owner =
      (.ok (.patched (host.registry.target entry)),
        ⟨host.registry.retarget entry.id handler, host.log ++ [.patched name entry.owner]⟩) := by
  rw [hook, patch_of_found handler found]

theorem hook_of_absent (deny : DenyList) (handler : Handler) (owner : Owner)
    (absent : host.registry.get? .callable name = none) :
    host.hook deny name handler owner =
      if deny.contains name then (.error (.unhookable name), host.emit (.refused name))
      else (.ok .installed, host.install name handler owner) := by
  rw [hook, patch_of_absent handler absent]

theorem hooked_hook (deny : DenyList) (name : Name) (handler : Handler) (owner : Owner)
    (host : Host) :
    Registry.Hooked deny name handler owner host.registry (host.hook deny name handler owner).1
      (host.hook deny name handler owner).2.registry := by
  cases bound : host.registry.get? .callable name with
  | some entry =>
      rw [hook_of_found deny handler owner bound]
      exact .patched bound
  | none =>
      rw [hook_of_absent deny handler owner bound]
      cases denied : deny.contains name with
      | true => exact .refused bound denied
      | false =>
          simp only [Bool.false_eq_true, if_false, registry_install handler owner bound]
          exact .installed bound denied

/-- A hook is refused if the name is free and denied, and not otherwise. -/
theorem hook_eq_unhookable_iff (deny : DenyList) (name : Name) (handler : Handler) (owner : Owner)
    (host : Host) :
    (host.hook deny name handler owner).1 = .error (.unhookable name) ↔
      host.registry.get? .callable name = none ∧ deny.contains name = true := by
  constructor
  · intro refused
    have did := hooked_hook deny name handler owner host
    rw [refused] at did
    generalize (host.hook deny name handler owner).2.registry = next at did
    cases did with
    | refused absent denied => exact ⟨absent, denied⟩
  · rintro ⟨absent, denied⟩
    rw [hook_of_absent deny handler owner absent, if_pos denied]

/-- A batch is hooked piece by piece. -/
theorem hookEach_append (deny : DenyList) (owner : Owner) (first second : List (Name × Handler))
    (host : Host) :
    hookEach deny owner (first ++ second) host =
      ((hookEach deny owner first host).1 ++
          (hookEach deny owner second (hookEach deny owner first host).2).1,
        (hookEach deny owner second (hookEach deny owner first host).2).2) := by
  induction first generalizing host with
  | nil => rfl
  | cons pair rest inductionHypothesis => simp [hookEach, inductionHypothesis]

theorem length_hookEach (deny : DenyList) (owner : Owner) (hooks : List (Name × Handler))
    (host : Host) : (hookEach deny owner hooks host).1.length = hooks.length := by
  induction hooks generalizing host with
  | nil => rfl
  | cons pair rest inductionHypothesis => simp [hookEach, inductionHypothesis]

@[simp] theorem outcomes_hookBatch (deny : DenyList) (hooks : List (Name × Handler))
    (owner : Owner) (host : Host) :
    (host.hookBatch deny hooks owner).1.outcomes = (hookEach deny owner hooks host).1 := by
  rw [hookBatch]
  dsimp only
  split <;> rfl

@[simp] theorem registry_hookBatch (deny : DenyList) (hooks : List (Name × Handler))
    (owner : Owner) (host : Host) :
    (host.hookBatch deny hooks owner).2.registry =
      (hookEach deny owner hooks host).2.registry := by
  rw [hookBatch]
  dsimp only
  split <;> rfl

/-- A batch answers for each of its pairs what a hook answers after the pairs
before it. -/
theorem getElem?_outcomes_hookBatch (deny : DenyList) (first second : List (Name × Handler))
    (name : Name) (handler : Handler) (owner : Owner) (host : Host) :
    (host.hookBatch deny (first ++ (name, handler) :: second) owner).1.outcomes[first.length]? =
      some (name, ((hookEach deny owner first host).2.hook deny name handler owner).1) := by
  rw [outcomes_hookBatch, hookEach_append, List.getElem?_append_right (by simp [length_hookEach]),
    length_hookEach, Nat.sub_self]
  rfl

end Host
end Interposition
