import Interposition.Proofs.Operation.Isolation
/-!
Operations that leave a callable alone.

A callable goes on dispatching to its handler for as long as nobody points its name at
another one, removes it, or evicts its owner, unless it is not of the image.
`Operation.Spares` says this of an operation, `Deed.Spares` of what it does, and
`Operation.dispatches_run` is what follows for the callable.
-/

namespace Interposition

/-- Whether a callable is bound to its name and dispatches to a handler. -/
structure Registry.Dispatches (registry : Registry) (entry : Callable) (handler : Handler) :
    Prop where
  wellFormed : registry.WellFormed
  found : registry.get? .callable entry.name = some entry
  target : registry.target entry = handler

/-- Whether an operation leaves a callable alone.  A definition does so even under its name. -/
def Operation.Spares (entry : Callable) : Operation → Prop
  | .define _ | .force .. => True
  | .hook _ name .. | .patch name _ => name ≠ entry.name
  | .batch _ hooks _ => ∀ hook ∈ hooks, hook.1 ≠ entry.name
  | .remove kind name => kind = .callable → name ≠ entry.name
  | .evict kind owner => kind = .callable → entry.isEvictedWith owner = false

instance (entry : Callable) : (operation : Operation) → Decidable (operation.Spares entry)
  | .define _ | .force .. => inferInstanceAs (Decidable True)
  | .hook _ name .. | .patch name _ => inferInstanceAs (Decidable (name ≠ entry.name))
  | .batch _ hooks _ => inferInstanceAs (Decidable (∀ hook ∈ hooks, hook.1 ≠ entry.name))
  | .remove kind name => inferInstanceAs (Decidable (kind = .callable → name ≠ entry.name))
  | .evict kind owner =>
    inferInstanceAs (Decidable (kind = .callable → entry.isEvictedWith owner = false))

/-- Whether a deed leaves a callable alone. -/
def Deed.Spares (entry : Callable) : Deed → Prop
  | .made _ => True
  | .pointed name _ => name ≠ entry.name
  | .removed kind name => kind = .callable → name ≠ entry.name
  | .evicted kind owner => kind = .callable → entry.isEvictedWith owner = false

variable {entry : Callable} {handler : Handler} {registry next : Registry}

namespace Deed

/-- What a hook on another name does. -/
theorem spares_ofHook {name : Name} (different : name ≠ entry.name) (owner : Owner)
    (handler : Handler) (outcome : Except HookError HookOutcome) :
    ∀ deed ∈ ofHook owner name handler outcome, deed.Spares entry := by
  unfold ofHook
  split
  · exact List.forall_mem_singleton.mpr trivial
  · exact List.forall_mem_singleton.mpr different
  · exact List.forall_mem_nil _

/-- An operation that leaves a callable alone does nothing to it. -/
theorem spares_ofOperation (asked : Operation × Operation.Answer)
    (spares : asked.1.Spares entry) : ∀ deed ∈ ofOperation asked, deed.Spares entry := by
  fun_cases ofOperation asked with
  | case1 kind draft => exact List.forall_mem_singleton.mpr trivial
  | case2 name value flags owner => exact List.forall_mem_singleton.mpr trivial
  | case3 deny name handler owner outcome => exact spares_ofHook spares owner handler outcome
  | case4 deny hooks owner report =>
      intro deed member
      obtain ⟨⟨hook, outcome⟩, paired, did⟩ := List.mem_flatMap.mp member
      exact spares_ofHook (spares hook (List.of_mem_zip paired).1) _ _ _ deed did
  | case5 name handler => exact List.forall_mem_singleton.mpr spares
  | case6 kind name => exact List.forall_mem_singleton.mpr spares
  | case7 kind owner => exact List.forall_mem_singleton.mpr spares
  | case8 => exact List.forall_mem_nil _

/-- A deed that leaves a callable alone leaves it bound, with its target. -/
theorem Does.dispatches {deed : Deed} (does : deed.Does registry next)
    (spares : deed.Spares entry) (dispatches : registry.Dispatches entry handler) :
    next.Dispatches entry handler := by
  have nextFormed := does.wellFormed dispatches.wellFormed
  obtain ⟨wellFormed, found, target⟩ := dispatches
  cases does with
  | @made kind draft free =>
      refine ⟨nextFormed, ?_, (wellFormed.target_put draft found).trans target⟩
      rw [Registry.get?_put_of_ne draft registry, found]
      rintro ⟨rfl, named⟩
      have absent := free (fun constant => nomatch constant)
      exact Option.some_ne_none entry (found.symm.trans (named ▸ absent))
  | @pointed name other given bound =>
      refine ⟨nextFormed, by rw [Registry.get?_retarget, found], ?_⟩
      have apart := wellFormed.id_ne_of_name_ne bound found (Ne.symm spares)
      exact (Registry.targets_retarget_of_ne registry _ given apart).trans target
  | @removed kind name _ narrowed =>
      refine ⟨nextFormed, ?_, by rw [Registry.target, narrowed.targets]; exact target⟩
      by_cases same : kind = .callable
      · subst same
        exact (narrowed.get?_eq_some_iff wellFormed).mpr
          ⟨found, decide_eq_true (Ne.symm (spares rfl))⟩
      · rw [narrowed.get?_of_ne (Ne.symm same), found]
  | @evicted kind owner _ narrowed =>
      refine ⟨nextFormed, ?_, by rw [Registry.target, narrowed.targets]; exact target⟩
      by_cases same : kind = .callable
      · subst same
        refine (narrowed.get?_eq_some_iff wellFormed).mpr ⟨found, ?_⟩
        rw [Owner.spares, spares rfl]
        rfl
      · rw [narrowed.get?_of_ne (Ne.symm same), found]

theorem DoAll.dispatches {deeds : List Deed} (doAll : DoAll registry deeds next)
    (spares : ∀ deed ∈ deeds, deed.Spares entry) (dispatches : registry.Dispatches entry handler) :
    next.Dispatches entry handler := by
  induction doAll with
  | nil => exact dispatches
  | cons does _ inductionHypothesis =>
      obtain ⟨first, rest⟩ := List.forall_mem_cons.mp spares
      exact inductionHypothesis rest (does.dispatches first dispatches)

end Deed

/-- Calls of a callable go where they went, whatever is done that leaves it alone. -/
theorem Operation.dispatches_run {operation : Operation} (spares : operation.Spares entry)
    {host : Host} (dispatches : host.registry.Dispatches entry handler) :
    (operation.run host).2.registry.Dispatches entry handler :=
  (doAll_run host operation).dispatches (Deed.spares_ofOperation _ spares) dispatches

end Interposition
