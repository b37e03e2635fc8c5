import Interposition.Operation
import Interposition.Proofs.Hook.Hooked
import Interposition.Proofs.Registry.Narrowed
import Interposition.Proofs.Takeover.Clearing
import Interposition.Proofs.Takeover.Registrations
/-!
What operations do.

An operation with its answer tells what was done: an entry was made, a name was
pointed at a handler, a name was removed, or an owner was evicted.  An operation
that was refused did nothing, and a batch did what its hooks did.  Which of these
it comes to is decided by the names that are bound before the operation
(`Operation.ofOperation_run`).  `Deed.Does` says what each deed makes of a registry,
and `Operation.doAll_runAll` that a run of operations makes of it what its deeds do,
one after the other.
-/

namespace Interposition

/-- Something that was done to a registry. -/
inductive Deed where
  /-- A new entry was made. -/
  | made {kind : Kind} (draft : Draft kind)
  /-- A callable that is there was given another handler. -/
  | pointed (name : Name) (handler : Handler)
  | removed (kind : Kind) (name : Name)
  | evicted (kind : Kind) (owner : Owner)

namespace Deed

/-- What a hook did, by its outcome. -/
def ofHook (owner : Owner) (name : Name) (handler : Handler) :
    Except HookError HookOutcome → List Deed
  | .ok .installed => [.made (.callable name owner .image handler)]
  | .ok (.patched _) => [.pointed name handler]
  | .error _ => []

/-- What an operation did, by its answer. -/
def ofOperation : Operation × Operation.Answer → List Deed
  | (.define draft, .defined (.ok _)) => [.made draft]
  | (.force name value flags owner, .forced _) => [.made (.constant name value flags owner)]
  | (.hook _ name handler owner, .hooked result) => ofHook owner name handler result
  | (.batch _ hooks owner, .batch report) =>
    (hooks.zip report.outcomes).flatMap fun (hook, outcome) =>
      ofHook owner hook.1 hook.2 outcome.2
  | (.patch name handler, .patched (some _)) => [.pointed name handler]
  | (.remove kind name, .removed (some _)) => [.removed kind name]
  | (.evict kind owner, .evicted _) => [.evicted kind owner]
  | _ => []

/-- What a hook on a name is to do: point the name if it is bound, and make an entry if it is
free and allowed. -/
def dueHook (deny : DenyList) (owner : Owner) (bound : Bool) (name : Name) (handler : Handler) :
    List Deed :=
  if bound then [.pointed name handler]
  else if deny.contains name then []
  else [.made (.callable name owner .image handler)]

/-- What the hooks of a batch are to do, by the names that are bound before it.  A free name
that is allowed is bound for the hooks after the first one on it. -/
def dueHooks (deny : DenyList) (owner : Owner) (bound : Name → Bool) :
    List (Name × Handler) → List Deed
  | [] => []
  | (name, handler) :: rest =>
    dueHook deny owner (bound name) name handler ++
      dueHooks deny owner (fun other => bound other || (other == name && !deny.contains name)) rest

/-- What an operation is to do, by the names that are bound before it. -/
def due (registry : Registry) : Operation → List Deed
  | @Operation.define kind draft =>
    if registry.contains kind draft.name then [] else [.made draft]
  | .force name value flags owner => [.made (.constant name value flags owner)]
  | .hook deny name handler owner =>
    dueHook deny owner (registry.contains .callable name) name handler
  | .batch deny hooks owner => dueHooks deny owner (registry.contains .callable) hooks
  | .patch name handler =>
    if registry.contains .callable name then [.pointed name handler] else []
  | .remove kind name => if registry.contains kind name then [.removed kind name] else []
  | .evict kind owner => [.evicted kind owner]

/-- What a deed makes of a registry. -/
inductive Does (registry : Registry) : Deed → Registry → Prop where
  /-- Only constants are made under a name that is taken. -/
  | made {kind : Kind} {draft : Draft kind}
      (free : kind ≠ .constant → registry.get? kind draft.name = none) :
      Does registry (.made draft) (registry.put draft)
  | pointed {name : Name} {entry : Callable} (handler : Handler)
      (found : registry.get? .callable name = some entry) :
      Does registry (.pointed name handler) (registry.retarget entry.id handler)
  | removed {kind : Kind} {name : Name} {next : Registry}
      (narrowed : registry.Narrowed (fun pair : Name × Entry kind => pair.1 ≠ name) next) :
      Does registry (.removed kind name) next
  | evicted {kind : Kind} {owner : Owner} {next : Registry}
      (narrowed : registry.Narrowed (@Owner.spares kind owner) next) :
      Does registry (.evicted kind owner) next

/-- What deeds make of a registry, one after the other. -/
inductive DoAll : Registry → List Deed → Registry → Prop where
  | nil (registry : Registry) : DoAll registry [] registry
  | cons {registry next last : Registry} {deed : Deed} {rest : List Deed}
      (does : deed.Does registry next) (doAll : DoAll next rest last) :
      DoAll registry (deed :: rest) last

theorem Does.doAll {registry next : Registry} {deed : Deed} (does : deed.Does registry next) :
    DoAll registry [deed] next :=
  .cons does (.nil next)

theorem DoAll.append {registry next last : Registry} {first second : List Deed}
    (doFirst : DoAll registry first next) (doSecond : DoAll next second last) :
    DoAll registry (first ++ second) last := by
  induction doFirst with
  | nil => exact doSecond
  | cons does _ inductionHypothesis => exact .cons does (inductionHypothesis doSecond)

theorem Does.wellFormed {registry next : Registry} {deed : Deed} (does : deed.Does registry next)
    (wellFormed : registry.WellFormed) : next.WellFormed := by
  cases does with
  | made free => exact wellFormed.put _
  | pointed handler found => exact wellFormed.retarget _ _
  | removed narrowed => exact narrowed.wellFormed wellFormed
  | evicted narrowed => exact narrowed.wellFormed wellFormed

theorem DoAll.wellFormed {registry last : Registry} {deeds : List Deed}
    (doAll : DoAll registry deeds last) (wellFormed : registry.WellFormed) : last.WellFormed := by
  induction doAll with
  | nil => exact wellFormed
  | cons does _ inductionHypothesis => exact inductionHypothesis (does.wellFormed wellFormed)

end Deed

open Deed

variable (host : Host)

/-- An eviction narrows a table to what it spares. -/
theorem Host.narrowed_evict (kind : Kind) (owner : Owner) :
    Registry.Narrowed (@Owner.spares kind owner) host.registry
      (host.evict kind owner).2.registry where
  entries := entries_evict kind owner host
  others _ different := current_evict_of_ne kind owner host different
  targets := targets_evict kind owner host
  fresh := fresh_evict kind owner host

/-- A hook does what its outcome tells. -/
theorem Host.doAll_hook (deny : DenyList) (name : Name) (handler : Handler) (owner : Owner) :
    DoAll host.registry (ofHook owner name handler (host.hook deny name handler owner).1)
      (host.hook deny name handler owner).2.registry := by
  have hooked := hooked_hook deny name handler owner host
  generalize (host.hook deny name handler owner).1 = outcome at hooked ⊢
  generalize (host.hook deny name handler owner).2.registry = next at hooked ⊢
  cases hooked with
  | patched found => exact (Does.pointed handler found).doAll
  | refused absent denied => exact .nil host.registry
  | installed absent allowed => exact (Does.made fun _ => absent).doAll

/-- The hooks of a batch do what their outcomes tell, one after the other. -/
theorem Host.doAll_hookEach (deny : DenyList) (hooks : List (Name × Handler)) (owner : Owner) :
    DoAll host.registry
      ((hooks.zip (hookEach deny owner hooks host).1).flatMap fun (hook, outcome) =>
        ofHook owner hook.1 hook.2 outcome.2)
      (hookEach deny owner hooks host).2.registry := by
  induction hooks generalizing host with
  | nil => exact .nil host.registry
  | cons hook rest inductionHypothesis =>
      obtain ⟨name, handler⟩ := hook
      exact (host.doAll_hook deny name handler owner).append (inductionHypothesis _)

/-- A hook makes what it is to make of a name that is bound, denied, or neither. -/
theorem Host.ofHook_hook (deny : DenyList) (name : Name) (handler : Handler) (owner : Owner) :
    ofHook owner name handler (host.hook deny name handler owner).1 =
      dueHook deny owner (host.registry.contains .callable name) name handler := by
  have hooked := hooked_hook deny name handler owner host
  generalize (host.hook deny name handler owner).1 = outcome at hooked ⊢
  generalize (host.hook deny name handler owner).2.registry = next at hooked
  cases hooked with
  | patched found =>
      rw [Registry.contains_of_get? found]
      rfl
  | refused absent denied =>
      rw [Registry.contains_eq_false_iff.mpr absent, dueHook, if_pos denied]
      rfl
  | installed absent allowed =>
      rw [Registry.contains_eq_false_iff.mpr absent, dueHook, allowed]
      rfl

/-- A hook binds its name, unless the name is free and denied. -/
theorem Host.contains_hook (deny : DenyList) (name : Name) (handler : Handler) (owner : Owner)
    (other : Name) :
    (host.hook deny name handler owner).2.registry.contains .callable other =
      (host.registry.contains .callable other || (other == name && !deny.contains name)) := by
  have hooked := hooked_hook deny name handler owner host
  generalize (host.hook deny name handler owner).1 = outcome at hooked
  generalize (host.hook deny name handler owner).2.registry = next at hooked ⊢
  cases hooked with
  | @patched entry found =>
      have same : (host.registry.retarget entry.id handler).contains .callable other =
          host.registry.contains .callable other := by
        rw [Registry.contains, Registry.contains, Registry.current_retarget]
      rw [same]
      by_cases here : other = name
      · rw [here, Registry.contains_of_get? found, Bool.true_or]
      · rw [beq_eq_false_iff_ne.mpr here, Bool.false_and, Bool.or_false]
  | refused absent denied => rw [denied, Bool.not_true, Bool.and_false, Bool.or_false]
  | installed absent allowed =>
      by_cases here : other = name
      · have bound : (host.registry.put (.callable name owner .image handler)).contains
            .callable name = true :=
          Registry.contains_of_get?
            (Registry.get?_put_self (.callable name owner .image handler) host.registry)
        rw [here, bound, allowed, beq_self_eq_true, Bool.not_false, Bool.and_true, Bool.or_true]
      · have same : (host.registry.put (.callable name owner .image handler)).contains
            .callable other = host.registry.contains .callable other :=
          congrArg Option.isSome
            (Registry.get?_put_of_ne _ host.registry fun both => here both.2)
        rw [same, beq_eq_false_iff_ne.mpr here, Bool.false_and, Bool.or_false]

theorem Host.ofHook_hookEach (deny : DenyList) (hooks : List (Name × Handler)) (owner : Owner) :
    ((hooks.zip (hookEach deny owner hooks host).1).flatMap fun (hook, outcome) =>
        ofHook owner hook.1 hook.2 outcome.2) =
      dueHooks deny owner (host.registry.contains .callable) hooks := by
  induction hooks generalizing host with
  | nil => rfl
  | cons hook rest inductionHypothesis =>
      obtain ⟨name, handler⟩ := hook
      have first := host.ofHook_hook deny name handler owner
      have others := inductionHypothesis (host.hook deny name handler owner).2
      rw [funext (host.contains_hook deny name handler owner)] at others
      rw [dueHooks, ← first, ← others]
      rfl

namespace Operation

/-- A definition makes an entry, or it is refused. -/
theorem doAll_define {kind : Kind} (draft : Draft kind) :
    DoAll host.registry (ofOperation (.define draft, ((define draft).run host).1))
      ((define draft).run host).2.registry := by
  simp only [run, Host.onRegistry]
  cases taken : host.registry.contains kind draft.name with
  | true =>
      rw [Registry.define_of_taken draft _ taken]
      exact .nil host.registry
  | false =>
      rw [Registry.define_eq_put draft _ taken]
      exact (Does.made fun _ => Registry.contains_eq_false_iff.mp taken).doAll

/-- A patch points a name that is there. -/
theorem doAll_patch (name : Name) (handler : Handler) :
    DoAll host.registry (ofOperation (.patch name handler, ((patch name handler).run host).1))
      ((patch name handler).run host).2.registry := by
  simp only [run]
  cases bound : host.registry.get? .callable name with
  | none =>
      rw [Host.patch_of_absent handler bound]
      exact .nil host.registry
  | some entry =>
      rw [Host.patch_of_found handler bound]
      exact (Does.pointed handler bound).doAll

/-- A removal removes a name that is there, and does nothing otherwise. -/
theorem doAll_remove (kind : Kind) (name : Name) :
    DoAll host.registry (ofOperation (.remove kind name, ((remove kind name).run host).1))
      ((remove kind name).run host).2.registry := by
  simp only [run, Host.onRegistry]
  cases bound : host.registry.get? kind name with
  | some entry =>
      obtain ⟨answered, narrowed⟩ := Registry.remove_eq kind name host.registry
      rw [answered, bound]
      exact (Does.removed narrowed).doAll
  | none =>
      rw [Registry.remove_of_absent bound]
      exact .nil host.registry

/-- An operation does what its answer tells. -/
theorem doAll_run (operation : Operation) :
    DoAll host.registry (ofOperation (operation, (operation.run host).1))
      (operation.run host).2.registry := by
  cases operation with
  | define draft => exact doAll_define host draft
  | force name value flags owner =>
      simp only [run, Registration.registry_forceConstant]
      exact (Does.made fun other => absurd rfl other).doAll
  | hook deny name handler owner => exact host.doAll_hook deny name handler owner
  | batch deny hooks owner =>
      simp only [run, ofOperation, Host.outcomes_hookBatch, Host.registry_hookBatch]
      exact host.doAll_hookEach deny hooks owner
  | patch name handler => exact doAll_patch host name handler
  | remove kind name => exact doAll_remove host kind name
  | evict kind owner => exact (Does.evicted (host.narrowed_evict kind owner)).doAll

/-- What an operation answers is by the names that are bound before it: a definition makes an
entry just when its name is free, and a hook points its name just when it is bound. -/
theorem ofOperation_run (operation : Operation) :
    ofOperation (operation, (operation.run host).1) = due host.registry operation := by
  cases operation with
  | @define kind draft =>
      simp only [run, Host.onRegistry, due]
      cases taken : host.registry.contains kind draft.name with
      | true =>
          rw [Registry.define_of_taken draft _ taken]
          rfl
      | false =>
          rw [Registry.define_eq_put draft _ taken]
          rfl
  | force name value flags owner => rfl
  | hook deny name handler owner => exact host.ofHook_hook deny name handler owner
  | batch deny hooks owner =>
      simp only [run, ofOperation, Host.outcomes_hookBatch]
      exact host.ofHook_hookEach deny hooks owner
  | patch name handler =>
      simp only [run, due]
      cases bound : host.registry.get? .callable name with
      | none =>
          rw [Host.patch_of_absent handler bound, Registry.contains_eq_false_iff.mpr bound]
          rfl
      | some entry =>
          rw [Host.patch_of_found handler bound, Registry.contains_of_get? bound]
          rfl
  | remove kind name =>
      simp only [run, Host.onRegistry, due]
      cases bound : host.registry.get? kind name with
      | none =>
          rw [Registry.remove_of_absent bound, Registry.contains_eq_false_iff.mpr bound]
          rfl
      | some entry =>
          rw [(Registry.remove_eq kind name host.registry).1, bound,
            Registry.contains_of_get? bound]
          rfl
  | evict kind owner => rfl

/-- A run of operations does what its answers tell. -/
theorem doAll_runAll (operations : List Operation) :
    DoAll host.registry ((runAll operations host).1.flatMap ofOperation)
      (runAll operations host).2.registry := by
  induction operations generalizing host with
  | nil => exact .nil host.registry
  | cons operation rest inductionHypothesis =>
      exact (doAll_run host operation).append (inductionHypothesis _)

end Operation
end Interposition
