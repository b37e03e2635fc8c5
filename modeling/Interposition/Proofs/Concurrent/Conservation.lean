import Interposition.Proofs.Concurrent.Installation
/-!
No handler is lost, and none is handed out twice.

`System.handlers` lists the places of handlers in a system: the callables in the
table, the callables that calls removed, and the handlers that calls returned as
displaced.  `System.handlers_run` says that these places hold the handlers that
were there in the beginning and those that calls accepted since, each of them
once.
-/

namespace Interposition.Concurrent

/-- The handler of a finished call, if it was not accepted. -/
def Record.refused? (record : Record) : Option Handler :=
  if record.answer.isAccepted then none else record.request.handler?

theorem handlers_split_perm (records : List Record) :
    (records.filterMap (·.placed?) ++ records.filterMap (·.refused?)).Perm
      (records.filterMap (·.request.handler?)) := by
  induction records with
  | nil => exact .refl _
  | cons record rest inductionHypothesis =>
      cases passed : record.request.handler? with
      | none => simpa [Record.placed?, Request.placed?, Record.refused?, passed]
      | some handler =>
          cases accepted : record.answer.isAccepted with
          | true => simpa [Record.placed?, Request.placed?, Record.refused?, passed, accepted]
          | false =>
              simp only [List.filterMap_cons, Record.placed?, Request.placed?, Record.refused?,
                passed, accepted]
              exact List.perm_middle.trans (inductionHypothesis.cons handler)

namespace System

/-- The handlers in their places: targets of callables in the table, targets of
removed callables, and handlers that were returned as displaced. -/
def handlers (system : System) : List Handler :=
  system.registry.handlers ++
    (system.records.flatMap (·.answer.evicted)).map system.registry.target ++
    system.records.filterMap (·.answer.previous?)

theorem Explained.handlers_perm {initial last : Registry} {system : System}
    {history : List Moment} (explained : system.Explained initial history last)
    (wellFormed : initial.WellFormed) (orderly : system.Orderly initial.fresh) :
    system.handlers.Perm (initial.handlers ++ system.records.filterMap (·.placed?)) := by
  have conserved := explained.serial.handlers_perm (explained.tidy wellFormed orderly)
  have live : last.handlers = system.registry.handlers := by
    rw [Registry.handlers, Registry.handlers, explained.agree.current]
    exact List.map_congr_left fun entry member =>
      explained.target_eq wellFormed orderly (Or.inl member)
  have evictedHere : (history.flatMap (·.record.answer.evicted)).Perm
      (system.records.flatMap (·.answer.evicted)) := by
    have finished := explained.perm.flatMap_right (·.answer.evicted)
    rwa [List.flatMap_map] at finished
  have evicted : (history.flatMap (·.record.answer.evicted)).map last.target =
      (history.flatMap (·.record.answer.evicted)).map system.registry.target := by
    refine List.map_congr_left fun entry member => ?_
    obtain ⟨moment, inHistory, handed⟩ := List.mem_flatMap.mp member
    apply explained.target_eq wellFormed orderly
    exact Or.inr ⟨moment.record, explained.perm.subset (List.mem_map_of_mem inHistory),
      .of_mem_evicted handed⟩
  have previous := explained.perm.filterMap (·.answer.previous?)
  have placed := explained.perm.filterMap (·.placed?)
  rw [List.filterMap_map] at previous placed
  rw [live, evicted] at conserved
  have places := ((evictedHere.map system.registry.target).append_left
    system.registry.handlers).append previous
  exact places.symm.trans (conserved.trans (placed.append_left _))

section Run

variable {registry : Registry} {requests : List (List Request)}

/-- If all handlers are distinct, those that were there and those that finished
calls passed are. -/
theorem nodup_passed
    (distinct : (registry.handlers ++ requests.flatten.filterMap (·.handler?)).Nodup)
    (deny : DenyList) (schedule : List Nat) :
    (registry.handlers ++
      ((start registry deny requests).run schedule).records.filterMap
        (·.request.handler?)).Nodup := by
  have all := requests_run (start registry deny requests) schedule
  have began : (start registry deny requests).requests = requests.flatten := by
    simp [System.requests]
  rw [began] at all
  have nodup := ((all.filterMap (·.handler?)).append_left registry.handlers).symm.nodup distinct
  have finished : (((start registry deny requests).run schedule).records.map (·.request)).Sublist
      ((start registry deny requests).run schedule).requests :=
    (List.sublist_append_right _ _).trans (List.sublist_append_right _ _)
  have passed := finished.filterMap (·.handler?)
  rw [List.filterMap_map] at passed
  exact (passed.append_left registry.handlers).nodup nodup

/-- Whatever threads do, the handlers that were there and those that calls
accepted are in their places, each in exactly one, and a handler that was not
accepted is in none.  Of the hooks on a name that nobody else binds and nobody
removes, exactly one installs a callable. -/
theorem handlers_run (wellFormed : registry.WellFormed)
    (steady : ∀ request ∈ requests.flatten, request.IsSteady)
    (distinct : (registry.handlers ++ requests.flatten.filterMap (·.handler?)).Nodup)
    (deny : DenyList) (schedule : List Nat) :
    ((start registry deny requests).run schedule).handlers.Perm
      (registry.handlers ++
        ((start registry deny requests).run schedule).records.filterMap (·.placed?)) ∧
    ((start registry deny requests).run schedule).handlers.Nodup ∧
    (∀ handler ∈ ((start registry deny requests).run schedule).records.filterMap (·.refused?),
      handler ∉ ((start registry deny requests).run schedule).handlers) ∧
    (((start registry deny requests).run schedule).isFinished →
      (((start registry deny requests).run schedule).records.map (·.request)).Perm
        requests.flatten) ∧
    ∀ name, registry.get? .callable name = none → deny.contains name = false →
      (∀ record ∈ ((start registry deny requests).run schedule).records,
        record.answer.isAccepted = true → record.request.defines name = false) →
      (∀ record ∈ ((start registry deny requests).run schedule).records,
        ∀ removed ∈ record.answer.evicted, removed.name ≠ name) →
      (∃ record ∈ ((start registry deny requests).run schedule).records,
        record.request.hooks name = true) →
      ((start registry deny requests).run schedule).records.countP (·.installs name) = 1 := by
  obtain ⟨history, last, explained, -⟩ := exists_explained wellFormed steady deny schedule
  have orderly := (orderly_start wellFormed steady deny).run schedule
  have places := explained.handlers_perm wellFormed orderly
  have passed := (handlers_split_perm
    ((start registry deny requests).run schedule).records).append_left registry.handlers
  have apart := passed.symm.nodup (nodup_passed distinct deny schedule)
  rw [← List.append_assoc, List.nodup_append] at apart
  obtain ⟨placedOnce, -, refused⟩ := apart
  refine ⟨places, places.symm.nodup placedOnce, ?_, ?_, ?_⟩
  · intro handler inRefused inPlace
    exact refused handler (places.subset inPlace) handler inRefused rfl
  · exact perm_requests_of_isFinished (.refl _)
  · intro name absent allowed undefined stays hooked
    have calls : ∀ moment ∈ history,
        moment.record ∈ ((start registry deny requests).run schedule).records :=
      fun moment member => explained.perm.subset (List.mem_map_of_mem member)
    have once := explained.serial.countP_installs (explained.tidy wellFormed orderly) absent
      (by rw [deny_run]; exact allowed)
      (fun moment member => undefined moment.record (calls moment member))
      (fun moment member => stays moment.record (calls moment member))
      (by
        obtain ⟨record, finished, hooks⟩ := hooked
        obtain ⟨moment, member, rfl⟩ := List.mem_map.mp (explained.perm.symm.subset finished)
        exact ⟨moment, member, hooks⟩)
    rw [← explained.perm.countP_eq]
    exact once

/-- A hook patches a callable that is evicted at the same time, a second hook installs
one under the same name, and a patch of another name is refused. -/
theorem handlers_run_of_eviction :
    let name : Name := ⟨[0x66]⟩
    let owner : Owner := ⟨0, "first"⟩
    let requests : List (List Request) :=
      [[.define (.callable name owner .image ⟨1⟩)], [.hook name ⟨2⟩ owner],
        [.evict .callable owner, .patch ⟨[0x67]⟩ ⟨3⟩, .hook name ⟨4⟩ owner]]
    let final := (start .empty .empty requests).run [0, 0, 0, 1, 1, 2, 2, 2, 1, 2, 2, 2, 2, 2, 2]
    Registry.WellFormed .empty ∧ (∀ request ∈ requests.flatten, request.IsSteady) ∧
      (Registry.empty.handlers ++ requests.flatten.filterMap (·.handler?)).Nodup ∧
      final.isFinished ∧
      final.handlers.Perm
        (Registry.empty.handlers ++ final.records.filterMap (·.placed?)) ∧
      final.handlers.Nodup ∧
      ⟨3⟩ ∉ final.handlers := by
  intro name owner requests final
  have steady : ∀ request ∈ requests.flatten, request.IsSteady := by
    intro request member
    simp only [requests, List.flatten_cons, List.flatten_nil, List.append_nil, List.cons_append,
      List.nil_append, List.mem_cons, List.not_mem_nil, or_false] at member
    rcases member with rfl | rfl | rfl | rfl | rfl
    · trivial
    · trivial
    · exact ⟨_, rfl⟩
    · trivial
    · trivial
  have distinct :
      (Registry.empty.handlers ++ requests.flatten.filterMap (·.handler?)).Nodup := by
    decide
  obtain ⟨places, once, refused, -, -⟩ :=
    handlers_run Registry.wellFormed_empty steady distinct .empty
      [0, 0, 0, 1, 1, 2, 2, 2, 1, 2, 2, 2, 2, 2, 2]
  have finished : final.isFinished = true := by decide
  have patchRefused : (⟨3⟩ : Handler) ∈ final.records.filterMap (·.refused?) := by decide
  exact ⟨Registry.wellFormed_empty, steady, distinct, finished, places, once,
    refused ⟨3⟩ patchRefused⟩

end Run

end System
end Interposition.Concurrent
