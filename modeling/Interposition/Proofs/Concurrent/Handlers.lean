import Interposition.Proofs.Concurrent.Linearizability
/-!
Where handlers are.

A handler that was accepted by a call is in one place: it is the dispatch
target of a callable in the table, or of one that a call removed, or a call
returned it as the handler that it displaced.  `System.handlers` lists these
places, and `Outcome.handlers_perm` says what one call does to them: whatever
goes out of a place goes into another one.
-/

namespace Interposition

namespace Concurrent

/-- The handler that a call passes. -/
def Request.handler? : Request → Option Handler
  | .define draft | .replace draft => draft.handler?
  | .hook _ handler _ | .patch _ handler => some handler
  | _ => none

/-- Whether an answer says that the call did with its handler what it was made
for. -/
def Answer.isAccepted : Answer → Bool
  | .written (.inserted (.ok _)) | .written (.replaced _) => true
  | .hooked (.ok _) | .patched (some _) => true
  | _ => false

/-- The handler that an answer returns as displaced. -/
def Answer.previous? : Answer → Option Handler
  | .hooked (.ok outcome) => outcome.previous?
  | .patched previous? => previous?
  | _ => none

/-- The callables that an answer hands out as removed. -/
def Answer.evicted : Answer → List Callable
  | @Answer.written .callable answer => answer.removals
  | _ => []

/-- The handler of a call with the given answer, if it was accepted. -/
def Request.placed? (request : Request) (answer : Answer) : Option Handler :=
  if answer.isAccepted then request.handler? else none

/-- The handler of a finished call, if it was accepted. -/
def Record.placed? (record : Record) : Option Handler :=
  record.request.placed? record.answer

theorem Answer.Removes.of_mem_evicted {answer : Answer} {entry : Callable}
    (member : entry ∈ answer.evicted) : answer.Removes entry := by
  cases answer with
  | @written kind answer =>
      cases kind with
      | callable => exact .written member
      | _ => cases member
  | _ => cases member

section Handlers

variable (registry : Registry)

/-- The target of a callable that is not in the table does not matter. -/
theorem handlers_retarget_of_notMem {id : EntryId} (handler : Handler)
    (absent : id ∉ EntryMap.ids (registry.current .callable).entries) :
    (registry.retarget id handler).handlers = registry.handlers := by
  rw [Registry.handlers, Registry.handlers, Registry.current_retarget]
  refine List.map_congr_left fun entry member => ?_
  apply Registry.targets_retarget_of_ne
  rintro rfl
  exact absent (EntryMap.mem_ids_of_mem member)

/-- Exchanging a target in the table takes one handler out and puts another one
in. -/
theorem handlers_retarget_perm
    (sound : EntryMap.Sound (registry.current .callable).entries) {entry : Callable}
    (member : entry ∈ (registry.current .callable).toList) (handler : Handler) :
    (registry.target entry :: (registry.retarget entry.id handler).handlers).Perm
      (handler :: registry.handlers) := by
  obtain ⟨before, after, split⟩ := List.append_of_mem member
  have moved : (registry.current .callable).toList.Perm (entry :: (before ++ after)) := by
    rw [split]
    exact List.perm_middle
  have others := (moved.map Entry.id).nodup sound.distinctIds
  rw [List.map_cons, List.nodup_cons] at others
  have unchanged : (before ++ after).map (registry.retarget entry.id handler).target =
      (before ++ after).map registry.target := by
    refine List.map_congr_left fun other inOthers => ?_
    apply Registry.targets_retarget_of_ne
    intro same
    exact others.1 (same ▸ List.mem_map_of_mem inOthers)
  have exchanged := moved.map (registry.retarget entry.id handler).target
  rw [List.map_cons, unchanged] at exchanged
  have targeted : (registry.retarget entry.id handler).target entry = handler :=
    Registry.targets_retarget_self registry entry.id handler
  rw [targeted] at exchanged
  rw [Registry.handlers, Registry.handlers, Registry.current_retarget]
  apply (exchanged.cons _).trans
  apply (List.Perm.swap _ _ _).trans
  exact (moved.map registry.target).symm.cons _

theorem target_publish {kind : Kind} (entries : EntryMap kind) :
    (registry.publish entries).target = registry.target := by
  funext entry
  rw [Registry.target, Registry.targets_publish]
  rfl

theorem handlers_publish_of_ne {kind : Kind} (entries : EntryMap kind)
    (other : kind ≠ .callable) : (registry.publish entries).handlers = registry.handlers := by
  rw [Registry.handlers, Registry.handlers, target_publish,
    Registry.current_publish_of_ne registry entries other.symm]

/-- Publishing in the table of callables moves handlers with their callables. -/
theorem handlers_publish_perm {write : Write .callable} {entries : EntryMap .callable}
    {written : WriteAnswer .callable}
    (published : Write.Published (registry.current .callable).entries write entries written)
    (sound : EntryMap.Sound (registry.current .callable).entries) :
    ((registry.publish entries).handlers ++ written.removals.map registry.target).Perm
      (registry.handlers ++ write.offer.map registry.target) := by
  have moved := (published.values_perm sound.distinctKeys).map registry.target
  rw [List.map_append, List.map_append] at moved
  rw [Registry.handlers, Registry.handlers, target_publish, Registry.current_publish]
  exact moved

end Handlers

namespace Outcome

variable {deny : DenyList} {id : EntryId} {registry next : Registry} {request : Request}
  {answer : Answer}

@[simp] theorem previous?_written {kind : Kind} (answer : WriteAnswer kind) :
    (Answer.written answer).previous? = none := rfl

theorem evicted_of_ne_callable {kind : Kind} (other : kind ≠ .callable)
    (answer : WriteAnswer kind) : (Answer.written answer).evicted = [] := by
  cases kind with
  | callable => exact absurd rfl other
  | _ => rfl

theorem evicted_written {kind : Kind} {answer : WriteAnswer kind} (none : answer.removals = []) :
    (Answer.written answer).evicted = [] := by
  cases kind with
  | callable => exact none
  | _ => rfl

/-- Whoever prepares a call leaves the targets of the callables in the table as
they are. -/
theorem handlers_prepare (request : Request)
    (unused : id ∉ EntryMap.ids (registry.current .callable).entries) :
    (request.prepare id registry).handlers = registry.handlers := by
  rw [Request.prepare_eq_retarget]
  exact handlers_retarget_of_notMem registry _ unused

/-- The callable that an accepted call offers has the handler that it passes. -/
theorem map_target_offer {write : Write .callable} {entries after : EntryMap .callable}
    {written : WriteAnswer .callable} (writes : request.Writes id write)
    (published : Write.Published entries write after written) (registry : Registry) :
    write.offer.map (request.prepare id registry).target =
      (request.placed? (.written written)).toList := by
  have bound : ∀ draft : Draft .callable,
      [(registry.bindTarget draft id).target (draft.entry id)] = draft.handler?.toList := by
    rintro ⟨name, owner, origin, handler⟩
    exact congrArg ([·]) (Registry.targets_retarget_self registry id handler)
  cases published with
  | inserted free =>
      cases writes with
      | define draft => exact bound draft
  | replaced entry =>
      cases writes with
      | replace draft => exact bound draft
  | removed found => rfl
  | retained matched => rfl

/-- A call that writes another table has no handler. -/
theorem placed?_of_ne_callable {kind : Kind} {write : Write kind}
    (writes : request.Writes id write) (other : kind ≠ .callable) (answer : Answer) :
    request.placed? answer = none := by
  have none : ∀ draft : Draft kind, draft.handler? = none := by
    intro draft
    cases draft with
    | callable => exact absurd rfl other
    | constant => rfl
    | type => rfl
  rw [Request.placed?]
  split
  · cases writes with
    | define draft => exact none draft
    | replace draft => exact none draft
    | _ => rfl
  · rfl

/-- A call moves handlers from place to place, and loses none. -/
theorem handlers_perm (outcome : Outcome deny id registry request answer next)
    (sound : EntryMap.Sound (registry.current .callable).entries)
    (unused : id ∉ EntryMap.ids (registry.current .callable).entries) :
    (next.handlers ++ answer.evicted.map next.target ++ answer.previous?.toList).Perm
      (registry.handlers ++ (request.placed? answer).toList) := by
  cases outcome with
  | @kept kind _ write written writes kept =>
      have refused : (Answer.written written).isAccepted = false ∧ written.removals = [] := by
        cases kept <;> exact ⟨rfl, rfl⟩
      rw [evicted_written refused.2, Request.placed?, refused.1, handlers_prepare request unused]
      simp
  | @published kind _ write entries written writes published =>
      by_cases callable : kind = .callable
      · subst callable
        rw [← Request.current_prepare id request registry] at published sound
        have moved := handlers_publish_perm _ published sound
        rw [map_target_offer writes published, handlers_prepare request unused] at moved
        rw [previous?_written, Option.toList_none, List.append_nil, target_publish]
        exact moved
      · rw [placed?_of_ne_callable writes callable, handlers_publish_of_ne _ entries callable,
          handlers_prepare request unused, evicted_of_ne_callable callable]
        simp
  | read kind => simp [Answer.evicted, Answer.previous?, Request.placed?, Answer.isAccepted]
  | @accessed _ name entry _ left found accesses =>
      have exchanged := handlers_retarget_perm registry sound
        (EntryMap.mem_values_of_get? found) left
      have placed : ((registry.retarget entry.id left).handlers ++ [registry.target entry]).Perm
          (registry.handlers ++ [left]) :=
        (List.perm_append_singleton _ _).trans
          (exchanged.trans (List.perm_append_singleton _ _).symm)
      cases accesses with
      | hook =>
          simpa [Answer.evicted, Answer.previous?, HookOutcome.previous?, Request.placed?,
            Answer.isAccepted, Request.handler?] using placed
      | patch =>
          simpa [Answer.evicted, Answer.previous?, Request.placed?, Answer.isAccepted,
            Request.handler?] using placed
      | resolve =>
          rw [Registry.retarget_eq_self registry entry.id (registry.target entry) rfl]
          simp [Answer.evicted, Answer.previous?, Request.placed?, Answer.isAccepted]
  | missed absent misses =>
      cases misses <;>
        simp [Answer.evicted, Answer.previous?, Request.placed?, Answer.isAccepted]
  | @installed name handler owner entries written allowed published =>
      rw [← Registry.current_retarget registry id handler] at published sound
      have moved := handlers_publish_perm _ published sound
      rw [handlers_retarget_of_notMem registry handler unused] at moved
      have targeted : (registry.retarget id handler).target
          ((installDraft name handler owner).entry id) = handler :=
        Registry.targets_retarget_self registry id handler
      cases published with
      | inserted free =>
          rw [Write.offer, List.map_singleton, targeted] at moved
          simpa [WriteAnswer.removals, Answer.evicted, Answer.previous?, HookOutcome.previous?,
            Request.placed?, Answer.isAccepted, Request.handler?] using moved

end Outcome

/-- The target of a removed callable stays as it is when others make calls. -/
theorem Serial.target_evicted {deny : DenyList} {last : Registry} {moment : Moment}
    {rest : List Moment} (serial : Serial deny moment.after rest last)
    (outcome : Outcome deny moment.record.offered moment.before moment.record.request
      moment.record.answer moment.after)
    (tidy : Tidy moment.before (moment :: rest)) {entry : Callable}
    (removes : moment.record.answer.Removes entry) :
    last.target entry = moment.after.target entry := by
  obtain ⟨present, gone⟩ := outcome.of_removes (tidy.sound .callable)
    (tidy.unused moment List.mem_cons_self .callable) removes
  have unoffered := tidy.ne_offered (EntryMap.mem_ids_of_mem present)
  have absent := serial.absent gone fun later inRest =>
    unoffered later (List.mem_cons_of_mem moment inRest)
  apply serial.targets_last
  intro later inRest
  exact ⟨unoffered later (List.mem_cons_of_mem moment inRest), Or.inr (absent later inRest)⟩

/-- Calls that run one after the other move handlers from place to place, and lose
none. -/
theorem Serial.handlers_perm {deny : DenyList} {first last : Registry} {history : List Moment}
    (serial : Serial deny first history last) (tidy : Tidy first history) :
    (last.handlers ++ (history.flatMap (·.record.answer.evicted)).map last.target ++
        history.filterMap (·.record.answer.previous?)).Perm
      (first.handlers ++ history.filterMap (·.record.placed?)) := by
  induction serial with
  | nil => simp
  | @cons moment rest last outcome serial inductionHypothesis =>
      have later := inductionHypothesis (tidy.next outcome)
      have now := outcome.handlers_perm (tidy.sound .callable)
        (tidy.unused moment List.mem_cons_self .callable)
      have evicted : moment.record.answer.evicted.map last.target =
          moment.record.answer.evicted.map moment.after.target :=
        List.map_congr_left fun entry member =>
          serial.target_evicted outcome tidy (.of_mem_evicted member)
      have split : ∀ f : Moment → Option Handler,
          (moment :: rest).filterMap f = (f moment).toList ++ rest.filterMap f := by
        intro f
        cases taken : f moment <;> simp [taken]
      rw [List.flatMap_cons, List.map_append, evicted, split, split]
      -- Both permutations are about the handlers in between, which cancel out.
      rw [List.perm_iff_count] at later now ⊢
      intro handler
      have laterCount := later handler
      have nowCount := now handler
      simp only [List.count_append] at laterCount nowCount ⊢
      rw [Record.placed?]
      omega

end Concurrent
end Interposition
