import Interposition.Concurrent.Call
/-!
Threads on one registry.

A system is a registry with threads that make calls on it.  A schedule names
the thread of every step; any schedule is possible.  Since steps are atomic,
the order of steps is the order of time: a call came before another one if it
ended before the other began.

Each finished call leaves a record of its answer, of the steps at which it
began and ended, and of how often it had to start over.
-/

namespace Interposition.Concurrent

/-- A call under way. -/
structure Running where
  request : Request
  /-- The identity of an entry that the call offers. -/
  offered : EntryId
  /-- The step at which the call began. -/
  began : Nat
  stage : Stage
  /-- How many attempts to publish were lost. -/
  losses : Nat
  /-- How often a hook found its name taken and started over. -/
  rounds : Nat

/-- A finished call. -/
structure Record where
  request : Request
  offered : EntryId
  answer : Answer
  began : Nat
  ended : Nat
  losses : Nat
  rounds : Nat

/-- A thread: the call under way, the calls to make after it, and the records
of the finished ones, the oldest first. -/
structure Thread where
  running? : Option Running
  todo : List Request
  records : List Record

/-- A thread that has not begun. -/
def Thread.ofRequests (requests : List Request) : Thread :=
  ⟨none, requests, []⟩

/-- Whether a thread has nothing left to do. -/
def Thread.isFinished (thread : Thread) : Bool :=
  thread.running?.isNone && thread.todo.isEmpty

/-- Carry out the next step of a thread at the given time: begin a call, or
take an atomic step of the call under way. -/
def Thread.step (deny : DenyList) (clock : Nat) (thread : Thread) (registry : Registry) :
    Thread × Registry :=
  match thread.running? with
  | none =>
    match thread.todo with
    | [] => (thread, registry)
    | request :: rest =>
      let (offered, registry) := registry.reserve
      let (stage, registry) := request.start offered registry
      ({ thread with
          running? := some ⟨request, offered, clock, stage, 0, 0⟩
          todo := rest },
        registry)
  | some running =>
    match running.stage.step deny running.offered registry with
    | (.ongoing stage, registry) =>
      ({ thread with running? := some { running with stage := stage } }, registry)
    | (.lost stage, registry) =>
      ({ thread with
          running? := some { running with stage := stage, losses := running.losses + 1 } },
        registry)
    | (.again stage, registry) =>
      ({ thread with
          running? := some { running with stage := stage, rounds := running.rounds + 1 } },
        registry)
    | (.finished answer, registry) =>
      let record : Record :=
        { request := running.request
          offered := running.offered
          answer := answer
          began := running.began
          ended := clock
          losses := running.losses
          rounds := running.rounds }
      ({ thread with running? := none, records := thread.records ++ [record] }, registry)

/-- Threads, the registry they share, the deny list of their hooks, and the
number of steps taken. -/
structure System where
  registry : Registry
  deny : DenyList
  threads : List Thread
  clock : Nat

namespace System

/-- A system whose threads have not begun. -/
def start (registry : Registry) (deny : DenyList) (requests : List (List Request)) :
    System :=
  ⟨registry, deny, requests.map Thread.ofRequests, 0⟩

/-- Let one thread take a step. -/
def step (system : System) (index : Nat) : System :=
  match system.threads[index]? with
  | none => { system with clock := system.clock + 1 }
  | some thread =>
    let (thread, registry) := thread.step system.deny system.clock system.registry
    { system with
      registry := registry
      threads := system.threads.set index thread
      clock := system.clock + 1 }

/-- Let threads take steps as scheduled. -/
def run (system : System) (schedule : List Nat) : System :=
  schedule.foldl step system

/-- Whether all threads have nothing left to do. -/
def isFinished (system : System) : Bool :=
  system.threads.all Thread.isFinished

/-- The records of all threads. -/
def records (system : System) : List Record :=
  system.threads.flatMap (·.records)

/-- Let threads take steps in turn, in the given order, until all of them are
finished, for at most the given number of turns. -/
def runInTurn (order : List Nat) : Nat → System → System
  | 0, system => system
  | turns + 1, system =>
    if system.isFinished then system else runInTurn order turns (system.run order)

theorem run_nil (system : System) : system.run [] = system := rfl

theorem run_cons (system : System) (index : Nat) (schedule : List Nat) :
    system.run (index :: schedule) = (system.step index).run schedule := rfl

theorem run_append (system : System) (first second : List Nat) :
    system.run (first ++ second) = (system.run first).run second := by
  simp [run]

/-- Running in turn is running by some schedule. -/
theorem exists_run_eq_runInTurn (order : List Nat) (turns : Nat) (system : System) :
    ∃ schedule, runInTurn order turns system = system.run schedule := by
  induction turns generalizing system with
  | zero => exact ⟨[], rfl⟩
  | succ turns inductionHypothesis =>
      rw [runInTurn]
      split
      · exact ⟨[], rfl⟩
      · obtain ⟨schedule, same⟩ := inductionHypothesis (system.run order)
        exact ⟨order ++ schedule, by rw [same, run_append]⟩

end System
end Interposition.Concurrent
