import Interposition.Proofs.Concurrent.Explained
/-!
Concurrent calls are linearizable.

`replay` runs calls one after the other, each of them alone.  A system is
linearized by an order of its finished calls if this order respects real time
and the calls, replayed in it, give the same answers and leave the same tables
and dispatch targets.  `System.exists_linearization` finds such an order for
every program and every schedule.
-/

namespace Interposition.Concurrent

/-- Run calls one after the other.  The answers, and the registry afterwards. -/
def replay (deny : DenyList) : List Record → Registry → List Answer × Registry
  | [], registry => ([], registry)
  | record :: rest, registry =>
    let (answer, next) := record.request.alone deny record.offered registry
    let (answers, last) := replay deny rest next
    (answer :: answers, last)

/-- A serial history is what its calls come to when they are replayed. -/
theorem Serial.replay_eq {deny : DenyList} {first last : Registry} {history : List Moment}
    (serial : Serial deny first history last)
    (steady : ∀ moment ∈ history, moment.record.request.IsSteady) :
    (replay deny (history.map (·.record)) first).1.map (·.returned) =
        history.map (·.record.answer.returned) ∧
      (replay deny (history.map (·.record)) first).2 = last := by
  induction serial with
  | nil => exact ⟨rfl, rfl⟩
  | @cons moment rest last outcome serial inductionHypothesis =>
      obtain ⟨answer, next⟩ := outcome.alone_eq (steady moment List.mem_cons_self)
      obtain ⟨answers, final⟩ := inductionHypothesis fun later inRest =>
        steady later (List.mem_cons_of_mem moment inRest)
      rw [List.map_cons, replay]
      dsimp only
      rw [next]
      exact ⟨congrArg₂ List.cons answer answers, final⟩

/-- To show that a relation holds between all earlier and all later members of a
list, consider the list split at the earlier one. -/
theorem pairwise_of_split {α : Type} {relation : α → α → Prop} {list : List α}
    (split : ∀ early member late, list = early ++ member :: late →
      ∀ later ∈ late, relation member later) : list.Pairwise relation := by
  induction list with
  | nil => exact .nil
  | cons head tail inductionHypothesis =>
      apply List.pairwise_cons.mpr
      constructor
      · exact split [] head tail rfl
      · apply inductionHypothesis
        intro early member late equal
        exact split (head :: early) member late (congrArg (head :: ·) equal)

namespace System

/-- A sequential order of the finished calls that comes to the same as the
system: the answers are the same, the tables have the same entries in the same
order, and these entries and the removed ones have the same targets. -/
structure LinearizedBy (initial : Registry) (order : List Record) (system : System) :
    Prop where
  perm : order.Perm system.records
  realTime : order.Pairwise fun first second => ¬second.Precedes first
  answers : (replay system.deny order initial).1.map (·.returned) =
    order.map (·.answer.returned)
  tables : ∀ kind,
    (replay system.deny order initial).2.current kind = system.registry.current kind
  targets : ∀ entry : Callable,
    (entry ∈ (system.registry.current .callable).toList ∨
      ∃ record ∈ order, record.answer.Removes entry) →
    (replay system.deny order initial).2.target entry = system.registry.target entry

variable {initial last : Registry} {system : System} {history : List Moment}

/-- The targets of the callables that are in the table or were removed are those of
the history. -/
theorem Explained.target_eq (explained : system.Explained initial history last)
    (wellFormed : initial.WellFormed) (orderly : system.Orderly initial.fresh)
    {entry : Callable}
    (handed : entry ∈ (system.registry.current .callable).toList ∨
      ∃ record ∈ system.records, record.answer.Removes entry) :
    last.target entry = system.registry.target entry := by
  apply explained.agree.targets
  rcases handed with live | ⟨record, finished, removes⟩
  · exact orderly.known .callable entry.id (EntryMap.mem_ids_of_mem live)
  · obtain ⟨moment, member, rfl⟩ := List.mem_map.mp (explained.perm.symm.subset finished)
    obtain ⟨early, late, rfl⟩ := List.append_of_mem member
    obtain ⟨before, outcome, -, tidy⟩ :=
      explained.serial.around (explained.tidy wellFormed orderly)
    have present := (outcome.of_removes (tidy.sound .callable)
      (tidy.unused moment List.mem_cons_self .callable) removes).1
    refine (before.known wellFormed (EntryMap.mem_ids_of_mem present)).mono ?_
    intro record inEarly
    apply explained.perm.subset
    rw [List.map_append]
    exact List.mem_append_left _ inEarly

theorem Explained.linearizedBy (explained : system.Explained initial history last)
    (wellFormed : initial.WellFormed) (orderly : system.Orderly initial.fresh) :
    system.LinearizedBy initial (history.map (·.record)) := by
  have steady : ∀ moment ∈ history, moment.record.request.IsSteady := by
    intro moment member
    have finished := explained.perm.subset (List.mem_map_of_mem member)
    apply orderly.steady
    exact List.mem_append_right _ (List.mem_append_right _ (List.mem_map_of_mem finished))
  obtain ⟨answers, final⟩ := explained.serial.replay_eq steady
  constructor
  · exact explained.perm
  · exact explained.realTime
  · rw [answers, List.map_map]
    rfl
  · intro kind
    rw [final]
    exact explained.agree.current kind
  · intro entry handed
    rw [final]
    apply explained.target_eq wellFormed orderly
    exact handed.imp_right fun ⟨record, inOrder, removes⟩ =>
      ⟨record, explained.perm.subset inOrder, removes⟩

/-- A call that accessed a callable stands before its removal. -/
theorem Explained.accessed_first (explained : system.Explained initial history last)
    (wellFormed : initial.WellFormed) (orderly : system.Orderly initial.fresh)
    {offered : EntryId} {name : Name} {entry : Callable}
    (accessed : Accessed history offered name entry) :
    (history.map (·.record)).Pairwise fun earlier later =>
      earlier.answer.Removes entry → later.offered ≠ offered := by
  rw [List.pairwise_map]
  apply pairwise_of_split
  rintro early moment late rfl later inLate removes rfl
  have tidyHistory := explained.tidy wellFormed orderly
  obtain ⟨-, outcome, after, tidy⟩ := explained.serial.around tidyHistory
  obtain ⟨present, gone⟩ := outcome.of_removes (tidy.sound .callable)
    (tidy.unused moment List.mem_cons_self .callable) removes
  have unoffered := tidy.ne_offered (EntryMap.mem_ids_of_mem present)
  obtain ⟨same, inHistory, offers, -, found⟩ := accessed
  have laterInHistory : later ∈ early ++ moment :: late :=
    List.mem_append_right _ (List.mem_cons_of_mem moment inLate)
  obtain rfl : same = later :=
    List.inj_on_of_nodup_map tidyHistory.distinct inHistory laterInHistory offers
  apply after.absent gone _ same inLate (mem_ids_of_get? found)
  exact fun other inRest => unoffered other (List.mem_cons_of_mem moment inRest)

theorem requests_run (system : System) (schedule : List Nat) :
    (system.run schedule).requests.Perm system.requests := by
  induction schedule generalizing system with
  | nil => exact .refl _
  | cons index rest inductionHypothesis =>
      exact (inductionHypothesis (system.step index)).trans
        (system.step_moved index).requests_perm

/-- When all threads are finished, all calls are. -/
theorem requests_of_isFinished (finished : system.isFinished) :
    system.requests = system.records.map (·.request) := by
  have all := List.all_eq_true.mp finished
  have idle : ∀ thread ∈ system.threads, thread.running? = none ∧ thread.todo = [] := by
    intro thread member
    have done := all thread member
    simpa [Thread.isFinished] using done
  have waiting : system.waiting = [] := by
    rw [System.waiting, List.flatMap_eq_nil_iff]
    exact fun thread member => (idle thread member).2
  have underway : system.underway = [] := by
    rw [System.underway, List.flatMap_eq_nil_iff]
    intro thread member
    rw [(idle thread member).1]
    rfl
  rw [requests, waiting, underway]
  rfl

section Run

variable {registry : Registry} {requests : List (List Request)}

theorem perm_requests_of_isFinished {deny : DenyList} {schedule : List Nat}
    {order : List Record}
    (perm : order.Perm ((start registry deny requests).run schedule).records)
    (finished : ((start registry deny requests).run schedule).isFinished) :
    (order.map (·.request)).Perm requests.flatten := by
  have all := requests_run (start registry deny requests) schedule
  rw [requests_of_isFinished finished] at all
  apply (perm.map _).trans
  simpa [System.requests] using all

/-- Whatever threads do, there is a sequential order of their finished calls.
In this order a call that found a callable, and is still to access its target,
stands before the removal of the callable, even if it comes to the target
later. -/
theorem exists_linearization (wellFormed : registry.WellFormed)
    (steady : ∀ request ∈ requests.flatten, request.IsSteady) (deny : DenyList)
    (schedule : List Nat) :
    ∃ order,
      ((start registry deny requests).run schedule).LinearizedBy registry order ∧
      (((start registry deny requests).run schedule).isFinished →
        (order.map (·.request)).Perm requests.flatten) ∧
      ∀ first, first <+: schedule →
        ∀ running ∈ ((start registry deny requests).run first).underway, ∀ name entry,
          running.stage.held? = some (name, entry) →
            order.Pairwise fun earlier later =>
              earlier.answer.Removes entry → later.offered ≠ running.offered := by
  obtain ⟨history, last, explained, touches⟩ :=
    exists_explained wellFormed steady deny schedule
  have orderly := (orderly_start wellFormed steady deny).run schedule
  refine ⟨history.map (·.record), explained.linearizedBy wellFormed orderly,
    perm_requests_of_isFinished explained.perm, ?_⟩
  · intro first isFirst running member name entry held
    rcases touches first isFirst running member name entry held with
      ⟨same, stillUnderway, offers, -⟩ | accessed
    · -- The call is not finished, so its identity is that of no finished one.
      rw [List.pairwise_map]
      apply pairwise_of_split
      rintro early moment late rfl later inLate - sameOffer
      have inHistory : later ∈ early ++ moment :: late :=
        List.mem_append_right _ (List.mem_cons_of_mem moment inLate)
      have finished := explained.perm.subset (List.mem_map_of_mem inHistory)
      apply (List.nodup_append.mp orderly.distinct).2.2
      · exact List.mem_map_of_mem finished
      · exact List.mem_map_of_mem stillUnderway
      · exact sameOffer.trans offers.symm
    · exact explained.accessed_first wellFormed orderly accessed

/-- A hook looks a callable up, the callable is evicted, and the hook patches it
only then.  The name is free in the end, and the evicted callable has the handler of the hook.
In the order, the hook stands before the eviction. -/
theorem exists_linearization_of_late_hook :
    let name : Name := ⟨[0x66]⟩
    let owner : Owner := ⟨0, "first"⟩
    let entry : Callable := ⟨0, name, owner, .image⟩
    let requests : List (List Request) :=
      [[.define (.callable name owner .image ⟨1⟩)], [.hook name ⟨2⟩ ⟨1, "second"⟩],
        [.evict .callable owner, .resolve name]]
    let system := start .empty .empty requests
    let schedule := [0, 0, 0, 1, 1, 2, 2, 2, 1, 2, 2]
    let final := system.run schedule
    Registry.WellFormed .empty ∧ (∀ request ∈ requests.flatten, request.IsSteady) ∧
      final.isFinished ∧
      final.records.map (·.answer) =
        [.written (.inserted (.ok entry)), .hooked (.ok (.patched ⟨1⟩)),
          .written (.retained [entry] [entry]), .resolved none] ∧
      (final.registry.current .callable).names = [] ∧ final.registry.target entry = ⟨2⟩ ∧
      ∃ order, final.LinearizedBy .empty order ∧
        (order.map (·.request)).Perm requests.flatten ∧
        order.Pairwise fun earlier later =>
          earlier.answer.Removes entry → later.offered ≠ 1 := by
  intro name owner entry requests system schedule final
  have steady : ∀ request ∈ requests.flatten, request.IsSteady := by
    intro request member
    simp only [requests, List.flatten_cons, List.flatten_nil, List.append_nil, List.cons_append,
      List.nil_append, List.mem_cons, List.not_mem_nil, or_false] at member
    rcases member with rfl | rfl | rfl | rfl
    · trivial
    · trivial
    · exact ⟨_, rfl⟩
    · trivial
  have finished : final.isFinished = true := by decide +kernel
  have underway : (system.run [0, 0, 0, 1, 1]).underway =
      [⟨.hook name ⟨2⟩ ⟨1, "second"⟩, 1, 3,
        .hooking name ⟨2⟩ ⟨1, "second"⟩ (.exchanging entry), 0, 0⟩] := rfl
  have answered : final.records.map (·.answer) =
      [.written (.inserted (.ok entry)), .hooked (.ok (.patched ⟨1⟩)),
        .written (.retained [entry] [entry]), .resolved none] := by
    subst final system schedule requests entry owner name
    rfl
  refine ⟨Registry.wellFormed_empty, steady, finished, answered, by decide +kernel,
    by decide +kernel, ?_⟩
  obtain ⟨order, linearized, complete, late⟩ :=
    exists_linearization Registry.wellFormed_empty steady .empty schedule
  have early := late [0, 0, 0, 1, 1] ⟨[2, 2, 2, 1, 2, 2], rfl⟩ _
    (underway ▸ List.mem_cons_self) name entry rfl
  exact ⟨order, linearized, complete finished, early⟩

end Run

end System
end Interposition.Concurrent
