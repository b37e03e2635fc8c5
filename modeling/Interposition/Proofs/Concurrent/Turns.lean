import Mathlib.Algebra.GroupWithZero.Nat
import Interposition.Proofs.Concurrent.Contention
/-!
Turns of threads.

A turn of a thread begins its next call, goes on with the call under way, or ends it
(`Thread.step_turned`).  A call takes few turns between its beginning, its lost attempts, its
rounds and its end, so that these account for all of its turns: each turn of a thread that
has something left to do raises what the thread is allowed (`Thread.Turned.allowance_lt`).
A thread that is not finished has had no more turns than that (`System.count_le_allowance`).
-/

namespace Interposition.Concurrent

/-- What a turn of a thread can come to. -/
inductive Thread.Turned (deny : DenyList) (clock : Nat) (thread : Thread) (registry : Registry) :
    Thread → Registry → Prop where
  | idle (finished : thread.isFinished = true) : Turned deny clock thread registry thread registry
  | began {request : Request} {rest : List Request} (idle : thread.running? = none)
      (todo : thread.todo = request :: rest) :
      Turned deny clock thread registry
        { thread with running? := some (.start request registry clock), todo := rest }
        (request.prepare registry.fresh registry.reserve.2)
  | onward {running again : Running} {progress : Progress} {next : Registry}
      (underway : thread.running? = some running)
      (stepped : running.stage.step deny running.offered registry = (progress, next))
      (counts : running.Counts progress again) :
      Turned deny clock thread registry { thread with running? := some again } next
  | finished {running : Running} {answer : Answer} {next : Registry}
      (underway : thread.running? = some running)
      (stepped : running.stage.step deny running.offered registry = (.finished answer, next)) :
      Turned deny clock thread registry
        { thread with
          running? := none
          records := thread.records ++ [running.record answer clock] } next

theorem Thread.step_turned (deny : DenyList) (clock : Nat) (thread : Thread)
    (registry : Registry) :
    Turned deny clock thread registry (thread.step deny clock registry).1
      (thread.step deny clock registry).2 := by
  obtain ⟨running?, todo, records⟩ := thread
  cases running? with
  | none =>
      cases todo with
      | nil => exact .idle rfl
      | cons request rest => exact .began rfl rfl
  | some running =>
      rw [step]
      dsimp only
      split <;> rename_i stepped
      · exact .onward rfl stepped (.ongoing _)
      · exact .onward rfl stepped (.lost _)
      · exact .onward rfl stepped (.again _)
      · exact .finished rfl stepped

theorem Thread.step_eq_of_isFinished {deny : DenyList} {clock : Nat} {thread : Thread}
    {registry : Registry} (finished : thread.isFinished = true) :
    thread.step deny clock registry = (thread, registry) := by
  obtain ⟨running?, todo, records⟩ := thread
  cases running? with
  | some running => cases finished
  | none =>
      cases todo with
      | nil => rfl
      | cons request rest => cases finished

/-- How many steps a call took since it began, lost an attempt or started over. -/
def Stage.depth : Stage → Nat
  | .writing (.loading _) => 0
  | .writing (.publishing ..) => 1
  | .reading _ => 0
  | .hooking _ _ _ .looking => 0
  | .hooking _ _ _ (.exchanging _) => 1
  | .hooking _ _ _ (.installing (.loading _)) => 1
  | .hooking _ _ _ (.installing (.publishing ..)) => 2
  | .patching _ _ found? => found?.toList.length
  | .resolving _ found? => found?.toList.length

/-- How many turns a call under way may have taken. -/
def Running.allowance (running : Running) : Nat :=
  1 + running.stage.depth + 3 * (running.losses + running.rounds)

/-- How many turns a finished call may have taken. -/
def Record.allowance (record : Record) : Nat :=
  4 + 3 * (record.losses + record.rounds)

/-- How many turns a thread may have taken. -/
def Thread.allowance (thread : Thread) : Nat :=
  (thread.records.map (·.allowance)).sum + (thread.running?.toList.map (·.allowance)).sum

theorem Stage.depth_le_two (stage : Stage) : stage.depth ≤ 2 := by
  cases stage with
  | writing stage => cases stage <;> simp [depth]
  | reading kind => exact Nat.zero_le _
  | hooking name handler owner stage =>
      cases stage with
      | looking | exchanging entry => simp [depth]
      | installing stage => cases stage <;> simp [depth]
  | patching name handler found? | resolving name found? => cases found? <;> simp [depth]

section Turn

variable {deny : DenyList} {id : EntryId} {registry next : Registry}

/-- A write goes on only from loading to publishing. -/
theorem WriteStage.loading_of_ongoing {kind : Kind} {stage after : WriteStage kind}
    (stepped : stage.step registry = (.ongoing after, next)) :
    ∃ write loaded entries answer, stage = .loading write ∧
      after = .publishing write loaded entries answer := by
  cases stage with
  | loading write =>
      rw [step] at stepped
      split at stepped <;> cases stepped
      exact ⟨write, _, _, _, rfl, rfl⟩
  | publishing write loaded entries answer =>
      rw [step] at stepped
      split at stepped <;> cases stepped

/-- A step on the way of a call takes it further. -/
theorem Stage.depth_lt_of_ongoing {stage after : Stage}
    (stepped : stage.step deny id registry = (.ongoing after, next)) :
    stage.depth < after.depth := by
  cases stage with
  | writing stage =>
      rw [step] at stepped
      split at stepped <;> rename_i result <;> cases stepped
      obtain ⟨write, loaded, entries, answer, rfl, rfl⟩ := WriteStage.loading_of_ongoing result
      exact Nat.zero_lt_one
  | reading kind => cases stepped
  | hooking name handler owner stage =>
      cases stage with
      | looking =>
          rw [step, HookStage.step] at stepped
          split at stepped
          · cases stepped
            exact Nat.zero_lt_one
          · split at stepped <;> cases stepped
            exact Nat.zero_lt_one
      | exchanging entry => cases stepped
      | installing stage =>
          rw [step, HookStage.step] at stepped
          split at stepped <;> rename_i result <;> cases stepped
          obtain ⟨write, loaded, entries, answer, rfl, rfl⟩ := WriteStage.loading_of_ongoing result
          exact Nat.one_lt_two
  | patching name handler found? =>
      cases found? with
      | none =>
          rw [step] at stepped
          split at stepped <;> cases stepped
          exact Nat.zero_lt_one
      | some entry => cases stepped
  | resolving name found? =>
      cases found? with
      | none =>
          rw [step] at stepped
          split at stepped <;> cases stepped
          exact Nat.zero_lt_one
      | some entry => cases stepped

/-- A turn of a call that goes on raises what the call is allowed. -/
theorem Running.Counts.allowance_lt {running again : Running} {progress : Progress}
    (counts : running.Counts progress again)
    (stepped : running.stage.step deny running.offered registry = (progress, next)) :
    running.allowance < again.allowance := by
  have depth := running.stage.depth_le_two
  cases counts with
  | ongoing stage =>
      have further := Stage.depth_lt_of_ongoing stepped
      simp only [allowance]
      omega
  | lost stage | again stage =>
      simp only [allowance]
      omega

theorem Running.allowance_lt_record (running : Running) (answer : Answer) (clock : Nat) :
    running.allowance < (running.record answer clock).allowance := by
  have depth := running.stage.depth_le_two
  simp only [allowance, Record.allowance, record]
  omega

/-- Each turn of a thread that is not finished raises what the thread is allowed. -/
theorem Thread.Turned.allowance_lt {clock : Nat} {thread after : Thread}
    (turned : thread.Turned deny clock registry after next)
    (unfinished : thread.isFinished = false) : thread.allowance < after.allowance := by
  cases turned with
  | idle finished =>
      rw [unfinished] at finished
      cases finished
  | began idle todo =>
      simp only [allowance, idle, Running.allowance, Option.toList_some, Option.toList_none,
        List.map_cons, List.map_nil, List.sum_cons, List.sum_nil]
      omega
  | onward underway stepped counts =>
      have raised := counts.allowance_lt stepped
      simpa [allowance, underway] using raised
  | @finished running answer next underway stepped =>
      have raised := running.allowance_lt_record answer clock
      simpa [allowance, underway] using raised

end Turn

namespace System

/-- A step of a system is a turn of a thread, if there is one to take it. -/
theorem exists_turn (system : System) (index : Nat) :
    ((system.step index).registry = system.registry ∧
      (system.step index).threads = system.threads) ∨
    ∃ before thread after next, system.threads = before ++ thread :: after ∧
      (system.step index).threads = before ++ next :: after ∧
      thread.Turned system.deny system.clock system.registry next
        (system.step index).registry := by
  rw [step]
  cases scheduled : system.threads[index]? with
  | none => exact .inl ⟨rfl, rfl⟩
  | some thread =>
      obtain ⟨inRange, atIndex⟩ := List.getElem?_eq_some_iff.mp scheduled
      obtain ⟨before, after, threads, -, replaced⟩ := List.exists_of_set inRange
      rw [atIndex] at threads
      exact .inr ⟨before, thread, after, _, threads, replaced, thread.step_turned _ _ _⟩

theorem getElem?_threads_step (system : System) (index other : Nat) :
    (system.step index).threads[other]? =
      if index = other then
        system.threads[index]?.map fun thread =>
          (thread.step system.deny system.clock system.registry).1
      else system.threads[other]? := by
  rw [step]
  split
  · rename_i absent
    split
    · rename_i same
      rw [← same, absent]
      rfl
    · rfl
  · rename_i thread scheduled
    rw [List.getElem?_set, scheduled]
    have inRange := (List.getElem?_eq_some_iff.mp scheduled).1
    rw [if_pos inRange]
    rfl

/-- A thread that is not finished has had no more turns than its calls account for. -/
theorem count_le_allowance (system : System) (schedule : List Nat) {index : Nat} :
    ∀ thread, (system.run schedule).threads[index]? = some thread → thread.isFinished = false →
      schedule.count index ≤ thread.allowance := by
  induction schedule using List.reverseRecOn with
  | nil => exact fun thread _ _ => Nat.zero_le _
  | append_singleton earlier last inductionHypothesis =>
      intro thread scheduled unfinished
      rw [run_append, run_cons, run_nil, getElem?_threads_step] at scheduled
      rw [List.count_append, List.count_singleton]
      split at scheduled
      · rename_i same
        subst same
        obtain ⟨before, wasScheduled, rfl⟩ := Option.map_eq_some_iff.mp scheduled
        have turned := before.step_turned (system.run earlier).deny (system.run earlier).clock
          (system.run earlier).registry
        have wasUnfinished : before.isFinished = false := by
          by_contra finished
          rw [Thread.step_eq_of_isFinished (Bool.not_eq_false _ ▸ finished)] at unfinished
          exact finished unfinished
        have had := inductionHypothesis before wasScheduled wasUnfinished
        have raised := turned.allowance_lt wasUnfinished
        rw [beq_self_eq_true, if_pos rfl]
        omega
      · rename_i different
        have had := inductionHypothesis thread scheduled unfinished
        rw [beq_eq_false_iff_ne.mpr different]
        exact had

end System
end Interposition.Concurrent
