import Interposition.Concurrent.System
import Interposition.Proofs.Concurrent.Stages
/-!
What a step of a system can do.

A scheduled thread is idle, begins its next call, goes on with the call under
way, or finishes it.  `System.step_moved` says so once, in terms of the calls of
all threads: those that wait, those under way and those finished.  Which thread
makes a call and in which order the threads are listed does not matter, so these
are compared up to order.
-/

namespace Interposition.Concurrent

/-- The record of a call that finishes at the given time. -/
def Running.record (running : Running) (answer : Answer) (clock : Nat) : Record :=
  { request := running.request
    offered := running.offered
    answer := answer
    began := running.began
    ended := clock
    losses := running.losses
    rounds := running.rounds }

/-- A call that begins. -/
def Running.start (request : Request) (registry : Registry) (clock : Nat) : Running :=
  ⟨request, registry.fresh, clock,
    (request.start registry.fresh registry.reserve.2).1, 0, 0⟩

namespace System

/-- The calls under way. -/
def underway (system : System) : List Running :=
  system.threads.flatMap (·.running?.toList)

/-- The calls that were not begun yet. -/
def waiting (system : System) : List Request :=
  system.threads.flatMap (·.todo)

/-- The steps of a system. -/
inductive Moved (system next : System) : Prop where
  | idle (registry : next.registry = system.registry)
      (records : next.records = system.records) (underway : next.underway = system.underway)
      (waiting : next.waiting = system.waiting)
  | began {request : Request}
      (registry : next.registry =
        request.prepare system.registry.fresh system.registry.reserve.2)
      (records : next.records = system.records)
      (underway : next.underway.Perm
        (.start request system.registry system.clock :: system.underway))
      (waiting : system.waiting.Perm (request :: next.waiting))
  | onward {running again : Running} {others : List Running} {progress : Progress}
      (stepped : running.stage.step system.deny running.offered system.registry =
        (progress, next.registry))
      (goes : progress.stage? = some again.stage) (request : again.request = running.request)
      (offered : again.offered = running.offered) (began : again.began = running.began)
      (records : next.records = system.records)
      (before : system.underway.Perm (running :: others))
      (underway : next.underway.Perm (again :: others))
      (waiting : next.waiting = system.waiting)
  | finished {running : Running} {others : List Running} {answer : Answer}
      (stepped : running.stage.step system.deny running.offered system.registry =
        (.finished answer, next.registry))
      (records : next.records.Perm (running.record answer system.clock :: system.records))
      (before : system.underway.Perm (running :: others))
      (underway : next.underway.Perm others) (waiting : next.waiting = system.waiting)

theorem deny_step (system : System) (index : Nat) : (system.step index).deny = system.deny := by
  rw [step]
  split <;> rfl

theorem clock_step (system : System) (index : Nat) :
    (system.step index).clock = system.clock + 1 := by
  rw [step]
  split <;> rfl

@[simp] theorem deny_run (system : System) (schedule : List Nat) :
    (system.run schedule).deny = system.deny := by
  induction schedule generalizing system with
  | nil => rfl
  | cons index rest inductionHypothesis =>
      rw [run_cons, inductionHypothesis, deny_step]

theorem clock_run (system : System) (schedule : List Nat) :
    (system.run schedule).clock = system.clock + schedule.length := by
  induction schedule generalizing system with
  | nil => rfl
  | cons index rest inductionHypothesis =>
      rw [run_cons, inductionHypothesis, clock_step, List.length_cons]
      omega

section Threads

variable {system : System} {before after : List Thread} {thread : Thread}

/-- What one thread contributes may be listed first. -/
theorem flatMap_perm_middle {α : Type} (f : Thread → List α) (before after : List Thread)
    (thread : Thread) :
    ((before ++ thread :: after).flatMap f).Perm
      (f thread ++ (before ++ after).flatMap f) := by
  have moved : (before ++ thread :: after).Perm (thread :: (before ++ after)) :=
    List.perm_middle
  have contributed := moved.flatMap_right f
  rwa [List.flatMap_cons] at contributed

theorem underway_perm (threads : system.threads = before ++ thread :: after) :
    system.underway.Perm
      (thread.running?.toList ++ (before ++ after).flatMap (·.running?.toList)) := by
  rw [underway, threads]
  exact flatMap_perm_middle _ before after thread

theorem waiting_perm (threads : system.threads = before ++ thread :: after) :
    system.waiting.Perm (thread.todo ++ (before ++ after).flatMap (·.todo)) := by
  rw [waiting, threads]
  exact flatMap_perm_middle _ before after thread

theorem records_perm (threads : system.threads = before ++ thread :: after) :
    system.records.Perm (thread.records ++ (before ++ after).flatMap (·.records)) := by
  rw [records, threads]
  exact flatMap_perm_middle _ before after thread

/-- A step that begins a call. -/
theorem moved_began (threads : system.threads = before ++ thread :: after)
    (idle : thread.running? = none) {request : Request} {rest : List Request}
    (todo : thread.todo = request :: rest) {next : System}
    (registry : next.registry =
      request.prepare system.registry.fresh system.registry.reserve.2)
    (replaced : next.threads = before ++
      { thread with
        running? := some (.start request system.registry system.clock)
        todo := rest } :: after) :
    system.Moved next := by
  apply Moved.began registry
  · simp [records, threads, replaced]
  · have others := underway_perm threads
    rw [idle] at others
    exact (underway_perm replaced).trans (others.symm.cons _)
  · have others := waiting_perm threads
    rw [todo] at others
    exact others.trans ((waiting_perm replaced).symm.cons _)

/-- A step that goes on with a call. -/
theorem moved_onward (threads : system.threads = before ++ thread :: after)
    {running : Running} (underway : thread.running? = some running) (again : Running)
    {progress : Progress} {next : System}
    (stepped : running.stage.step system.deny running.offered system.registry =
      (progress, next.registry))
    (goes : progress.stage? = some again.stage) (request : again.request = running.request)
    (offered : again.offered = running.offered) (began : again.began = running.began)
    (replaced : next.threads = before ++ { thread with running? := some again } :: after) :
    system.Moved next := by
  have first := underway_perm threads
  rw [underway] at first
  apply Moved.onward stepped goes request offered began _ first
  · exact underway_perm replaced
  · simp [waiting, threads, replaced]
  · simp [records, threads, replaced]

/-- A step that ends a call. -/
theorem moved_finished (threads : system.threads = before ++ thread :: after)
    {running : Running} (underway : thread.running? = some running) {answer : Answer}
    {next : System}
    (stepped : running.stage.step system.deny running.offered system.registry =
      (.finished answer, next.registry))
    (replaced : next.threads = before ++
      { thread with
        running? := none
        records := thread.records ++ [running.record answer system.clock] } :: after) :
    system.Moved next := by
  have first := underway_perm threads
  rw [underway] at first
  apply Moved.finished stepped _ first
  · exact underway_perm replaced
  · simp [waiting, threads, replaced]
  · have added := records_perm replaced
    rw [List.append_assoc] at added
    exact (added.trans List.perm_middle).trans ((records_perm threads).symm.cons _)

end Threads

theorem step_moved (system : System) (index : Nat) : system.Moved (system.step index) := by
  rw [step]
  cases scheduled : system.threads[index]? with
  | none => exact .idle rfl rfl rfl rfl
  | some thread =>
      obtain ⟨inRange, atIndex⟩ := List.getElem?_eq_some_iff.mp scheduled
      have split : ∃ before after, system.threads = before ++ system.threads[index] :: after ∧
          before.length = index ∧
          system.threads.set index (thread.step system.deny system.clock system.registry).1 =
            before ++ (thread.step system.deny system.clock system.registry).1 :: after :=
        List.exists_of_set inRange
      obtain ⟨before, after, threads, -, replaced⟩ := split
      rw [atIndex] at threads
      dsimp only
      rw [replaced, Thread.step]
      cases underway : thread.running? with
      | none =>
          cases todo : thread.todo with
          | nil =>
              dsimp only
              rw [← threads]
              exact .idle rfl rfl rfl rfl
          | cons request rest => exact moved_began threads underway todo rfl rfl
      | some running =>
          cases stepped : running.stage.step system.deny running.offered system.registry with
          | mk progress next =>
              simp only [stepped]
              cases progress with
              | ongoing stage =>
                  exact moved_onward threads underway { running with stage := stage } stepped rfl
                    rfl rfl rfl rfl
              | lost stage =>
                  exact moved_onward threads underway
                    { running with stage := stage, losses := running.losses + 1 } stepped rfl rfl
                    rfl rfl rfl
              | again stage =>
                  exact moved_onward threads underway
                    { running with stage := stage, rounds := running.rounds + 1 } stepped rfl rfl
                    rfl rfl rfl
              | finished answer => exact moved_finished threads underway stepped rfl

end System
end Interposition.Concurrent
