import Interposition.Concurrent.Trial
import Interposition.Proofs.Concurrent.Programs
import Interposition.Proofs.Concurrent.Turns
/-!
Threads that take their turns come to an end.

`Stage.remaining` is how many turns a call has before it if nobody disturbs it.  A turn of the
call lowers it, and only a call that ends disturbs others, since only such a call publishes a
table.  So whatever the schedule, some call ends before a thread that has something left to do
takes more than four turns (`System.left_lt_of_count`).  Threads that take turns in rounds
are finished after five rounds for each call, and five more (`System.isFinished_runInTurn`), so
that a trial is always played to its end (`Trial.isFinished_play`), and what it counts is an
answer for each of its calls (`Trial.perm_requests_play`).
-/

namespace Interposition.Concurrent

variable {kind : Kind}

/-- How many turns a write has before it if nobody else publishes its table. -/
def WriteStage.remaining (registry : Registry) : WriteStage kind → Nat
  | .loading _ => 2
  | .publishing _ loaded _ _ => if (registry.current kind).isSame loaded then 1 else 3

/-- How many turns a call has before it if nobody else publishes a table.  A hook that finds
its name taken when it is about to install an entry has to start over. -/
def Stage.remaining (registry : Registry) : Stage → Nat
  | .writing stage => stage.remaining registry
  | .reading _ => 1
  | .hooking name _ _ .looking => 3 - occupancy registry name
  | .hooking _ _ _ (.exchanging _) => 1
  | .hooking name _ _ (.installing stage) => stage.remaining registry + occupancy registry name
  | .patching _ _ found? => 2 - found?.toList.length
  | .resolving _ found? => 2 - found?.toList.length

theorem WriteStage.remaining_congr {first second : Registry}
    (tables : ∀ kind, second.current kind = first.current kind) (stage : WriteStage kind) :
    stage.remaining second = stage.remaining first := by
  cases stage with
  | loading write => rfl
  | publishing write loaded entries answer => rw [remaining, remaining, tables]

/-- Targets do not matter for what a call has before it. -/
theorem Stage.remaining_congr {first second : Registry}
    (tables : ∀ kind, second.current kind = first.current kind) (stage : Stage) :
    stage.remaining second = stage.remaining first := by
  cases stage with
  | writing stage => exact stage.remaining_congr tables
  | hooking name handler owner stage =>
      cases stage with
      | looking => rw [remaining, remaining, occupancy_congr tables]
      | exchanging entry => rfl
      | installing stage =>
          rw [remaining, remaining, occupancy_congr tables, stage.remaining_congr tables]
  | reading | patching | resolving => rfl

section Step

variable {deny : DenyList} {id : EntryId} {registry next : Registry} {request : Request}

theorem WriteStage.remaining_lt_of_ongoing {stage after : WriteStage kind}
    (stepped : stage.step registry = (.ongoing after, next)) :
    after.remaining registry < stage.remaining registry := by
  cases stage with
  | loading write =>
      rw [step] at stepped
      split at stepped <;> cases stepped
      have current : (registry.current kind).isSame (registry.current kind) = true := by
        rw [Snapshot.isSame, beq_self_eq_true]
      rw [remaining, remaining, if_pos current]
      exact Nat.one_lt_two
  | publishing write loaded entries answer =>
      rw [step] at stepped
      split at stepped <;> cases stepped

/-- An attempt is lost only from a snapshot that is not the current one any more. -/
theorem WriteStage.remaining_lt_of_lost {stage after : WriteStage kind}
    (stepped : stage.step registry = (.lost after, next)) :
    after.remaining registry < stage.remaining registry := by
  cases stage with
  | loading write =>
      rw [step] at stepped
      split at stepped <;> cases stepped
  | publishing write loaded entries answer =>
      rw [step] at stepped
      split at stepped <;> rename_i swapped <;> cases stepped
      have stale : ¬(registry.current kind).isSame loaded = true := by
        intro current
        rw [Registry.compareAndSwap, if_pos current] at swapped
        cases swapped
      rw [remaining, remaining, if_neg stale]
      exact Nat.lt_succ_self 2

/-- An insertion is refused when it loads, before it has entries to publish. -/
theorem WriteStage.remaining_of_refused {stage : WriteStage kind} {entry : Entry kind}
    (stands : stage.StandsAt registry (.insert entry)) {error : RegistryError}
    (refused : stage.step registry = (.finished (.inserted (.error error)), next)) :
    stage.remaining registry = 2 := by
  cases stands with
  | loading => rfl
  | publishing edited past =>
      rw [step] at refused
      split at refused <;> cases refused
      rw [Write.edit, Edit.insert] at edited
      split at edited <;> cases edited

/-- A hook that goes on has less before it. -/
theorem HookStage.remaining_lt {name : Name} {handler : Handler} {owner : Owner}
    {stage : HookStage} {progress : Progress} {after : Stage}
    (pursues : (Stage.hooking name handler owner stage).Pursues deny id registry request)
    (stepped : stage.step deny id name handler owner registry = (progress, next))
    (goes : progress.stage? = some after) :
    after.remaining registry < (Stage.hooking name handler owner stage).remaining registry := by
  cases pursues with
  | looking =>
      rw [step] at stepped
      split at stepped
      · cases stepped
        cases goes
        have once := occupancy_le_one registry name
        rw [Stage.remaining, Stage.remaining]
        omega
      · rename_i absent
        have free : occupancy registry name = 0 := by
          rw [occupancy, Registry.contains_eq_false_iff.mpr absent]
          rfl
        split at stepped <;> cases stepped <;> cases goes
        rw [Stage.remaining, Stage.remaining, WriteStage.remaining, free]
        exact Nat.lt_succ_self 2
  | exchanging =>
      cases stepped
      cases goes
  | installing allowed stands =>
      rw [step] at stepped
      split at stepped <;> rename_i result <;> cases stepped <;> cases goes
      · exact Nat.add_lt_add_right (WriteStage.remaining_lt_of_ongoing result) _
      · exact Nat.add_lt_add_right (WriteStage.remaining_lt_of_lost result) _
      · have taken : occupancy registry name = 1 :=
          if_pos (WriteStage.contains_of_refused stands result)
        rw [Stage.remaining, Stage.remaining, WriteStage.remaining_of_refused stands result, taken]
        exact Nat.lt_succ_self 2

/-- A call that goes on has less before it. -/
theorem Stage.remaining_lt {stage after : Stage} {progress : Progress}
    (pursues : stage.Pursues deny id registry request)
    (stepped : stage.step deny id registry = (progress, next))
    (goes : progress.stage? = some after) :
    after.remaining registry < stage.remaining registry := by
  cases stage with
  | writing stage =>
      rw [step] at stepped
      split at stepped <;> rename_i result <;> cases stepped <;> cases goes
      · exact WriteStage.remaining_lt_of_ongoing result
      · exact WriteStage.remaining_lt_of_lost result
  | reading kind =>
      cases stepped
      cases goes
  | hooking name handler owner stage => exact HookStage.remaining_lt pursues stepped goes
  | patching name handler found? | resolving name found? =>
      cases found? with
      | none =>
          rw [step] at stepped
          split at stepped <;> cases stepped <;> cases goes
          exact Nat.one_lt_two
      | some entry =>
          cases stepped
          cases goes

theorem WriteStage.remaining_le_three (stage : WriteStage kind) : stage.remaining registry ≤ 3 := by
  cases stage with
  | loading write => exact Nat.le_succ 2
  | publishing write loaded entries answer =>
      rw [remaining]
      split <;> omega

theorem Stage.remaining_le_four (stage : Stage) : stage.remaining registry ≤ 4 := by
  cases stage with
  | writing stage => exact Nat.le_succ_of_le stage.remaining_le_three
  | reading kind => exact Nat.le_add_left 1 3
  | hooking name handler owner stage =>
      cases stage with
      | looking =>
          rw [remaining]
          omega
      | exchanging entry => exact Nat.le_add_left 1 3
      | installing stage =>
          exact Nat.add_le_add stage.remaining_le_three (occupancy_le_one registry name)
  | patching name handler found? | resolving name found? =>
      rw [remaining]
      omega

theorem Request.remaining_start_lt (id : EntryId) (request : Request) (first second : Registry) :
    (request.start id first).1.remaining second < 4 := by
  cases request with
  | hook name handler owner =>
      rw [start, Stage.remaining]
      omega
  | define | replace | remove | retain | read | patch | resolve =>
      simp [start, Stage.remaining, WriteStage.remaining]

end Step

/-- How many turns a thread takes at most until it ends a call, if nobody disturbs it. -/
def Thread.remaining (registry : Registry) (thread : Thread) : Nat :=
  match thread.running? with
  | none => 4
  | some running => running.stage.remaining registry

/-- How many calls of a thread have not ended. -/
def Thread.left (thread : Thread) : Nat :=
  thread.running?.toList.length + thread.todo.length

namespace Thread

variable {deny : DenyList} {clock : Nat} {registry next : Registry} {thread after : Thread}

theorem remaining_congr {first second : Registry}
    (tables : ∀ kind, second.current kind = first.current kind) (thread : Thread) :
    thread.remaining second = thread.remaining first := by
  rw [remaining, remaining]
  split
  · rfl
  · exact Stage.remaining_congr tables _

theorem remaining_le_four (thread : Thread) : thread.remaining registry ≤ 4 := by
  rw [remaining]
  split
  · exact Nat.le_refl 4
  · exact Stage.remaining_le_four _

theorem Turned.left_le (turned : thread.Turned deny clock registry after next) :
    after.left ≤ thread.left := by
  cases turned with
  | idle finished => exact Nat.le_refl _
  | began idle todo =>
      simp only [left, idle, todo, Option.toList_some, Option.toList_none, List.length_cons,
        List.length_nil]
      omega
  | onward underway stepped counts =>
      simp only [left, underway, Option.toList_some, List.length_singleton, Nat.le_refl]
  | finished underway stepped =>
      simp only [left, underway, Option.toList_some, Option.toList_none, List.length_cons,
        List.length_nil]
      omega

/-- A turn of a thread that has something left to do ends a call, or it leaves the tables as
they are and brings the thread closer to the end of one. -/
theorem Turned.closer (turned : thread.Turned deny clock registry after next)
    (unfinished : thread.isFinished = false)
    (pursues : ∀ running, thread.running? = some running →
      running.stage.Pursues deny running.offered registry running.request) :
    after.left < thread.left ∨
      (∀ kind, next.current kind = registry.current kind) ∧ after.isFinished = false ∧
        after.remaining registry < thread.remaining registry := by
  cases turned with
  | idle finished =>
      rw [unfinished] at finished
      cases finished
  | @began request rest idle todo =>
      refine .inr ⟨fun kind => ?_, rfl, ?_⟩
      · rw [Request.current_prepare, Registry.current_reserve]
      · simp only [remaining, idle]
        exact request.remaining_start_lt _ _ registry
  | @onward running again progress next underway stepped counts =>
      have goes : progress.stage? = some again.stage := by cases counts <;> rfl
      have pursued := Stage.pursued (pursues running underway)
      rw [stepped] at pursued
      refine .inr ⟨(pursued.of_goes goes).2.1, rfl, ?_⟩
      simp only [remaining, underway]
      exact Stage.remaining_lt (pursues running underway) stepped goes
  | finished underway stepped =>
      left
      simp only [left, underway, Option.toList_some, Option.toList_none, List.length_cons,
        List.length_nil]
      omega

end Thread

namespace System

/-- How many calls have not ended. -/
def left (system : System) : Nat :=
  (system.threads.map (·.left)).sum

theorem left_start (registry : Registry) (deny : DenyList) (requests : List (List Request)) :
    (start registry deny requests).left = requests.flatten.length := by
  simp [left, start, Thread.left, Thread.ofRequests, Function.comp_def, List.length_flatten]

theorem length_threads_run (system : System) (schedule : List Nat) :
    (system.run schedule).threads.length = system.threads.length := by
  have programs := congrArg List.length (system.programs_run schedule)
  rwa [List.length_map, List.length_map] at programs

/-- A step of a system changes what the thread that takes it has left. -/
theorem left_step (system : System) {index : Nat} {thread : Thread}
    (scheduled : system.threads[index]? = some thread) :
    (system.step index).left + thread.left =
      system.left + (thread.step system.deny system.clock system.registry).1.left := by
  obtain ⟨inRange, atIndex⟩ := List.getElem?_eq_some_iff.mp scheduled
  obtain ⟨before, after, threads, -, replaced⟩ := List.exists_of_set inRange
  rw [atIndex] at threads
  have changed : (system.step index).threads =
      before ++ (thread.step system.deny system.clock system.registry).1 :: after := by
    rw [step, scheduled]
    exact replaced
  simp only [left, threads, changed, List.map_append, List.map_cons, List.sum_append,
    List.sum_cons]
  omega

theorem left_step_le (system : System) (index : Nat) : (system.step index).left ≤ system.left := by
  cases scheduled : system.threads[index]? with
  | none =>
      rw [step, scheduled]
      exact Nat.le_refl _
  | some thread =>
      have changed := system.left_step scheduled
      have turned := thread.step_turned system.deny system.clock system.registry
      have fewer := turned.left_le
      omega

/-- That a run brought each thread closer to the end of a call, by each turn that it took. -/
def Closer (system : System) (schedule : List Nat) : Prop :=
  ∀ index thread, system.threads[index]? = some thread → thread.isFinished = false →
    ∃ after, (system.run schedule).threads[index]? = some after ∧ after.isFinished = false ∧
      after.remaining (system.run schedule).registry + schedule.count index ≤
        thread.remaining system.registry

variable {initial : Registry} {system : System}

/-- A turn that no thread has a use for changes nothing. -/
theorem step_eq_of_idle {index : Nat}
    (idle : ∀ thread, system.threads[index]? = some thread → thread.isFinished = true) :
    system.step index = { system with clock := system.clock + 1 } := by
  rw [step]
  split
  · rfl
  · rename_i thread scheduled
    rw [Thread.step_eq_of_isFinished (idle thread scheduled)]
    obtain ⟨inRange, rfl⟩ := List.getElem?_eq_some_iff.mp scheduled
    dsimp only
    rw [List.set_getElem_self]

theorem closer_of_idle {index : Nat}
    (idle : ∀ thread, system.threads[index]? = some thread → thread.isFinished = true) :
    system.Closer [index] := by
  intro other thread present unfinished
  have away : index ≠ other := by
    rintro rfl
    rw [idle thread present] at unfinished
    cases unfinished
  rw [run_cons, run_nil, step_eq_of_idle idle]
  refine ⟨thread, present, unfinished, ?_⟩
  rw [List.count_singleton, beq_eq_false_iff_ne.mpr away]
  exact Nat.le_refl _

/-- A turn that leaves the tables as they are does not delay any other thread. -/
theorem closer_of_turn {index : Nat} {taker : Thread}
    (scheduled : system.threads[index]? = some taker)
    (tables : ∀ kind, (system.step index).registry.current kind = system.registry.current kind)
    (still : (taker.step system.deny system.clock system.registry).1.isFinished = false)
    (closer : (taker.step system.deny system.clock system.registry).1.remaining system.registry <
      taker.remaining system.registry) : system.Closer [index] := by
  intro other thread present unfinished
  rw [run_cons, run_nil, getElem?_threads_step]
  split
  · rename_i same
    subst same
    rw [scheduled] at present ⊢
    cases present
    refine ⟨_, rfl, still, ?_⟩
    rw [List.count_singleton_self, Thread.remaining_congr tables]
    exact closer
  · rename_i different
    refine ⟨thread, present, unfinished, ?_⟩
    rw [List.count_singleton, beq_eq_false_iff_ne.mpr different, Thread.remaining_congr tables]
    exact Nat.le_refl _

/-- A turn ends a call, or it brings the thread that takes it closer to the end of one. -/
theorem closer_step (accounted : system.Accounted initial) (index : Nat) :
    (system.step index).left < system.left ∨ system.Closer [index] := by
  by_cases idle : ∀ thread, system.threads[index]? = some thread → thread.isFinished = true
  · exact .inr (closer_of_idle idle)
  · push Not at idle
    obtain ⟨taker, scheduled, unfinished⟩ := idle
    have turned := taker.step_turned system.deny system.clock system.registry
    have pursues : ∀ running, taker.running? = some running →
        running.stage.Pursues system.deny running.offered system.registry running.request := by
      intro running underway
      refine accounted.pursues running (List.mem_flatMap.mpr ⟨taker, ?_, ?_⟩)
      · exact List.mem_of_getElem? scheduled
      · rw [underway]
        exact List.mem_singleton_self running
    rcases turned.closer (Bool.not_eq_true _ ▸ unfinished) pursues with
      ended | ⟨tables, still, closer⟩
    · have changed := system.left_step scheduled
      omega
    · refine .inr (closer_of_turn scheduled ?_ still closer)
      rw [step, scheduled]
      exact tables

theorem left_run_le (system : System) (schedule : List Nat) :
    (system.run schedule).left ≤ system.left := by
  induction schedule generalizing system with
  | nil => exact Nat.le_refl _
  | cons index rest inductionHypothesis =>
      exact Nat.le_trans (inductionHypothesis _) (system.left_step_le index)

/-- A run ends a call, or each of its turns brings a thread closer to the end of one. -/
theorem closer_run (accounted : system.Accounted initial) (schedule : List Nat) :
    (system.run schedule).left < system.left ∨ system.Closer schedule := by
  induction schedule using List.reverseRecOn with
  | nil => exact .inr fun index thread present unfinished =>
      ⟨thread, present, unfinished, Nat.le_refl _⟩
  | append_singleton earlier last inductionHypothesis =>
      rw [run_append]
      rcases inductionHypothesis with ended | closer
      · exact .inl (Nat.lt_of_le_of_lt (left_run_le _ _) ended)
      · rcases closer_step (accounted.run earlier) last with ended | next
        · exact .inl (Nat.lt_of_lt_of_le ended (left_run_le _ _))
        · right
          intro index thread present unfinished
          obtain ⟨between, presentThen, unfinishedThen, before⟩ :=
            closer index thread present unfinished
          obtain ⟨after, presentNow, unfinishedNow, since⟩ :=
            next index between presentThen unfinishedThen
          rw [run_append, List.count_append]
          exact ⟨after, presentNow, unfinishedNow, by omega⟩

/-- Whatever the schedule, a call ends before a thread that has something left to do takes
more than four turns. -/
theorem left_lt_of_count (accounted : system.Accounted initial) {schedule : List Nat}
    {index : Nat} {thread : Thread} (present : system.threads[index]? = some thread)
    (unfinished : thread.isFinished = false) (turns : 4 < schedule.count index) :
    (system.run schedule).left < system.left := by
  rcases closer_run accounted schedule with ended | closer
  · exact ended
  · obtain ⟨after, -, -, covered⟩ := closer index thread present unfinished
    have bound : thread.remaining system.registry ≤ 4 := thread.remaining_le_four
    omega

section Rounds

variable {order : List Nat}

theorem runInTurn_of_isFinished (finished : system.isFinished = true) (turns : Nat) :
    runInTurn order turns system = system := by
  cases turns with
  | zero => rfl
  | succ turns => rw [runInTurn, if_pos finished]

theorem runInTurn_add (first second : Nat) (system : System) :
    runInTurn order (first + second) system =
      runInTurn order second (runInTurn order first system) := by
  induction first generalizing system with
  | zero =>
      rw [Nat.zero_add]
      rfl
  | succ first inductionHypothesis =>
      rw [Nat.succ_add, runInTurn, runInTurn]
      split
      · rename_i finished
        exact (runInTurn_of_isFinished finished second).symm
      · exact inductionHypothesis (system.run order)

/-- As long as threads are not finished, they run one round after the other. -/
theorem runInTurn_eq_run (turns : Nat) (system : System)
    (unfinished : (runInTurn order turns system).isFinished = false) :
    runInTurn order turns system = system.run (List.replicate turns order).flatten := by
  induction turns generalizing system with
  | zero => rfl
  | succ turns inductionHypothesis =>
      rw [runInTurn] at unfinished ⊢
      split at unfinished
      · rename_i finished
        rw [finished] at unfinished
        cases unfinished
      · rename_i ongoing
        rw [if_neg ongoing, inductionHypothesis _ unfinished, List.replicate_succ,
          List.flatten_cons, run_append]

theorem exists_unfinished (unfinished : system.isFinished = false) :
    ∃ (index : Nat) (thread : Thread),
      system.threads[index]? = some thread ∧ thread.isFinished = false := by
  obtain ⟨thread, member, ongoing⟩ := List.all_eq_false.mp unfinished
  obtain ⟨index, present⟩ := List.getElem?_of_mem member
  exact ⟨index, thread, present, Bool.not_eq_true _ ▸ ongoing⟩

/-- Five rounds in which every thread has a turn finish all threads, or they end a call. -/
theorem left_lt_of_rounds (accounted : system.Accounted initial)
    (fair : ∀ index < system.threads.length, index ∈ order)
    (unfinished : (runInTurn order 5 system).isFinished = false) :
    (runInTurn order 5 system).left < system.left := by
  have before : system.isFinished = false := by
    by_contra finished
    rw [runInTurn_of_isFinished (Bool.not_eq_false _ ▸ finished)] at unfinished
    exact finished unfinished
  obtain ⟨index, thread, present, ongoing⟩ := exists_unfinished before
  have member := fair index (List.getElem?_eq_some_iff.mp present).1
  have turn : 1 ≤ order.count index := List.count_pos_iff.mpr member
  rw [runInTurn_eq_run 5 system unfinished]
  apply left_lt_of_count accounted present ongoing
  rw [List.count_flatten, List.map_replicate, List.sum_replicate_nat]
  omega

/-- Threads that take turns are finished after five rounds for each call, and five more. -/
theorem isFinished_runInTurn (accounted : system.Accounted initial)
    (fair : ∀ index < system.threads.length, index ∈ order) {turns : Nat}
    (enough : 5 * (system.left + 1) ≤ turns) :
    (runInTurn order turns system).isFinished = true := by
  induction calls : system.left using Nat.strongRecOn generalizing system turns with
  | _ calls inductionHypothesis =>
      obtain ⟨more, rfl⟩ := Nat.exists_eq_add_of_le (show 5 ≤ turns by omega)
      rw [runInTurn_add]
      by_cases finished : (runInTurn order 5 system).isFinished = true
      · rw [runInTurn_of_isFinished finished]
        exact finished
      · have ongoing := Bool.not_eq_true _ ▸ finished
        have fewer := left_lt_of_rounds accounted fair ongoing
        have ran := runInTurn_eq_run 5 system ongoing
        rw [ran] at fewer ⊢
        refine inductionHypothesis _ (calls ▸ fewer) (accounted.run _) ?_ ?_ rfl
        · rw [length_threads_run]
          exact fair
        · omega

end Rounds

end System

namespace Trial

/-- The threads of a trial all have a turn in every round. -/
theorem mem_order {index threads : Nat} (inRange : index < threads) (first : Nat) :
    index ∈ (List.range threads).rotateLeft first := by
  have member := List.mem_range.mpr inRange
  rw [List.rotateLeft]
  split
  · exact member
  · dsimp only
    rw [List.mem_append, or_comm, ← List.mem_append, List.take_append_drop]
    exact member

/-- A trial is played to its end, whichever thread begins, and whatever its calls are. -/
theorem isFinished_play {registry : Registry} (wellFormed : registry.WellFormed) (first : Nat)
    (deny : DenyList) (requests : List (List Request)) :
    (play first registry deny requests).isFinished = true := by
  rw [play]
  refine System.isFinished_runInTurn (.start wellFormed deny requests) ?_ ?_
  · intro index inRange
    rw [System.start, List.length_map] at inRange
    exact mem_order inRange first
  · rw [System.left_start, turnsFor]
    omega

/-- What a trial counts is an answer for each of its calls. -/
theorem perm_requests_play {registry : Registry} (wellFormed : registry.WellFormed) (first : Nat)
    (deny : DenyList) (requests : List (List Request)) :
    ((play first registry deny requests).records.map (·.request)).Perm requests.flatten := by
  have finished := isFinished_play wellFormed first deny requests
  rw [play] at finished ⊢
  obtain ⟨schedule, ran⟩ := System.exists_run_eq_runInTurn
    ((List.range requests.length).rotateLeft first) (turnsFor requests.flatten.length)
    (System.start registry deny requests)
  rw [ran] at finished ⊢
  exact System.perm_requests_of_isFinished (.refl _) finished

end Trial
end Interposition.Concurrent
