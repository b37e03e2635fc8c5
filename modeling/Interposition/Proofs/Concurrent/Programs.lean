import Interposition.Proofs.Concurrent.Custody
/-!
Threads make their calls in order.

The calls that a thread has finished, the one under way and those to make are its program
(`Thread.program`), which no step changes.  So when a call of a thread has finished, those
that stand before it in the program have finished, too (`Thread.exists_earlier`).
A finished read answers the snapshot that was current at its last step
(`System.Decides.snapshot_eq`).
-/

namespace Interposition.Concurrent

/-- The calls of a thread, in the order in which it makes them. -/
def Thread.program (thread : Thread) : List Request :=
  thread.records.map (·.request) ++ (thread.running?.toList.map (·.request) ++ thread.todo)

namespace Thread

variable {thread : Thread}

@[simp] theorem program_ofRequests (requests : List Request) :
    (ofRequests requests).program = requests := rfl

@[simp] theorem program_step (deny : DenyList) (clock : Nat) (thread : Thread)
    (registry : Registry) : (thread.step deny clock registry).1.program = thread.program := by
  obtain ⟨running?, todo, records⟩ := thread
  cases running? with
  | none =>
      cases todo with
      | nil => rfl
      | cons request rest => rfl
  | some running =>
      rw [step]
      dsimp only
      split
      · rfl
      · rfl
      · rfl
      · simp [program]

theorem request_mem_program {record : Record} (finished : record ∈ thread.records) :
    record.request ∈ thread.program :=
  List.mem_append_left _ (List.mem_map_of_mem finished)

/-- A call that stands in a program where a finished call does, or before it, has finished. -/
theorem exists_earlier {first rest : List Request} {request : Request}
    (program : thread.program = first ++ request :: rest) {record : Record}
    (finished : record ∈ thread.records) (late : record.request ∉ first) :
    ∃ earlier ∈ thread.records, earlier.request = request := by
  have made : record.request ∈ thread.records.map (·.request) := List.mem_map_of_mem finished
  rw [Thread.program] at program
  rcases List.append_eq_append_iff.mp program with ⟨others, split, -⟩ | ⟨others, split, tail⟩
  · rw [split] at late
    exact absurd (List.mem_append_left _ made) late
  · cases others with
    | nil =>
        rw [split, List.append_nil] at made
        exact absurd made late
    | cons other others =>
        have same : request = other := (List.cons.inj tail).1
        have inRecords : request ∈ thread.records.map (·.request) := by
          rw [split, same]
          exact List.mem_append_right _ List.mem_cons_self
        exact List.mem_map.mp inRecords

end Thread

namespace System

/-- No step changes what threads are to do. -/
theorem programs_step (system : System) (index : Nat) :
    (system.step index).threads.map Thread.program = system.threads.map Thread.program := by
  rw [step]
  split
  · rfl
  · rename_i thread scheduled
    obtain ⟨inRange, atIndex⟩ := List.getElem?_eq_some_iff.mp scheduled
    rw [List.map_set, Thread.program_step, ← atIndex, ← List.getElem_map Thread.program]
    · exact List.set_getElem_self _
    · rwa [List.length_map]

theorem programs_run (system : System) (schedule : List Nat) :
    (system.run schedule).threads.map Thread.program = system.threads.map Thread.program := by
  induction schedule generalizing system with
  | nil => rfl
  | cons index rest inductionHypothesis =>
      rw [run_cons, inductionHypothesis, programs_step]

theorem programs_start (registry : Registry) (deny : DenyList) (requests : List (List Request)) :
    (start registry deny requests).threads.map Thread.program = requests := by
  simp [start, Function.comp_def, Thread.program_ofRequests]

/-- A finished call is one of those that its thread was to make. -/
theorem exists_program {registry : Registry} {deny : DenyList} {requests : List (List Request)}
    {schedule : List Nat} {index : Nat} {thread : Thread}
    (scheduled : ((start registry deny requests).run schedule).threads[index]? = some thread)
    {record : Record} (finished : record ∈ thread.records) :
    ∃ program, requests[index]? = some program ∧ record.request ∈ program := by
  have programs := programs_run (start registry deny requests) schedule
  rw [programs_start] at programs
  refine ⟨thread.program, ?_, Thread.request_mem_program finished⟩
  rw [← programs, List.getElem?_map, scheduled]
  rfl

/-- A finished call is one of those that threads were to make. -/
theorem request_mem_requests {registry : Registry} {deny : DenyList}
    {requests : List (List Request)} {schedule : List Nat} {record : Record}
    (finished : record ∈ ((start registry deny requests).run schedule).records) :
    record.request ∈ requests.flatten := by
  obtain ⟨thread, member, inThread⟩ := List.mem_flatMap.mp finished
  obtain ⟨index, scheduled⟩ := List.getElem?_of_mem member
  obtain ⟨program, planned, requested⟩ := exists_program scheduled inThread
  exact List.mem_flatten.mpr ⟨program, List.mem_of_getElem? planned, requested⟩

/-- A moment of a run lies before the last step of a call or after it. -/
theorem before_or_after {schedule first moment rest : List Nat} {index : Nat}
    (split : schedule = first ++ index :: rest) (earlier : moment <+: schedule) :
    moment <+: first ∨ first ++ [index] <+: moment := by
  have ends : first ++ [index] <+: schedule := ⟨rest, by rw [split, List.append_assoc]; rfl⟩
  have before : first <+: schedule := ⟨index :: rest, split.symm⟩
  by_cases short : moment.length ≤ first.length
  · exact Or.inl (List.prefix_of_prefix_length_le earlier before short)
  · refine Or.inr (List.prefix_of_prefix_length_le ends earlier ?_)
    rw [List.length_append, List.length_singleton]
    omega

section Moments

variable {registry : Registry} {deny : DenyList} {requests : List (List Request)}
  {schedule : List Nat}

/-- Every finished call was decided at some moment of the run. -/
theorem exists_decides {record : Record}
    (finished : record ∈ ((start registry deny requests).run schedule).records) :
    ∃ first index rest, schedule = first ++ index :: rest ∧ record.ended = first.length ∧
      (start registry deny requests).Decides first index record := by
  rcases decides_of_mem_records _ schedule record finished with
    atStart | ⟨first, index, rest, split, decides⟩
  · rw [records_start] at atStart
    cases atStart
  · have ended := decides.1
    rw [show (start registry deny requests).clock = 0 from rfl, Nat.zero_add] at ended
    exact ⟨first, index, rest, split, ended, decides⟩

/-- A call that ended after a moment of a run was decided at a later one. -/
theorem exists_decides_later {moment : List Nat} (earlier : moment <+: schedule) {late : Record}
    (finished : late ∈ ((start registry deny requests).run schedule).records)
    (order : moment.length < late.ended) :
    ∃ later index, moment <+: later ∧ (start registry deny requests).Decides later index late := by
  obtain ⟨later, lateIndex, others, lateSplit, lateEnded, decides⟩ := exists_decides finished
  have short : moment.length ≤ later.length := by omega
  exact ⟨later, lateIndex,
    List.prefix_of_prefix_length_le earlier ⟨_, lateSplit.symm⟩ short, decides⟩

end Moments

end System

/-- The snapshot of a table that a read answers. -/
def Answer.snapshot? (kind : Kind) : Answer → Option (Snapshot kind)
  | .read other snapshot => if same : other = kind then some (same ▸ snapshot) else none
  | _ => none

theorem Answer.eq_read_of_snapshot? {kind : Kind} {answer : Answer} {snapshot : Snapshot kind}
    (loaded : answer.snapshot? kind = some snapshot) : answer = .read kind snapshot := by
  cases answer with
  | read other found =>
      rw [snapshot?] at loaded
      split at loaded
      · rename_i same
        subst same
        cases loaded
        rfl
      · cases loaded
  | _ => cases loaded

/-- A finished read loaded the snapshot that was current at its last step. -/
theorem System.Decides.snapshot_eq {system : System} {first : List Nat} {index : Nat}
    {record : Record} (decides : system.Decides first index record) {kind : Kind}
    {snapshot : Snapshot kind} (answered : record.answer = .read kind snapshot) :
    snapshot = (system.run first).registry.current kind := by
  obtain ⟨-, running, -, -, -, stepped⟩ := decides
  have ends := Stage.ends_of_step stepped
  rw [answered] at ends
  generalize running.stage = stage at ends
  cases ends with
  | read => rfl

end Interposition.Concurrent
