import Mathlib.Algebra.Order.BigOperators.Group.List
import Mathlib.Algebra.Order.Group.Nat
import Mathlib.Data.Nat.Choose.Basic
import Interposition.Proofs.Concurrent.Linearizability
import Interposition.Proofs.Concurrent.Turns
/-!
Calls start over only because of others.

At every moment of a run, the lost attempts and the rounds of each call are covered by calls
of others that ended meanwhile (`System.Attributed`).  A step that begins a call or goes on
with one keeps this, and so does a step that ends one, because it may cover one more attempt
and one more round of each call under way.

Of any two calls only one can end during the other, so all calls together lose at most one
attempt for each pair of calls (`System.Attributed.total_le`).  Since lost attempts and rounds
account for the turns of threads, a thread that gets enough turns is finished
(`System.contention_run`).
-/

namespace Interposition.Concurrent

section Pairs

variable {α : Type}

theorem choose_two_succ (n : Nat) : (n + 1).choose 2 = n + n.choose 2 := by
  rw [Nat.choose_succ_succ' n 1, Nat.choose_one_right]

/-- One more call ended before those that ended after it. -/
theorem sum_countP_lt_cons (time : α → Nat) (first : α) (rest calls : List α) :
    (calls.map fun call => (first :: rest).countP fun other => time other < time call).sum =
      (calls.map fun call => rest.countP fun other => time other < time call).sum +
        calls.countP fun call => time first < time call := by
  induction calls with
  | nil => rfl
  | cons call calls inductionHypothesis =>
      rw [List.map_cons, List.map_cons, List.sum_cons, List.sum_cons, inductionHypothesis,
        List.countP_cons, List.countP_cons]
      omega

/-- A call ended before others or after them, but not both. -/
theorem countP_lt_add_countP_gt_le (time : α → Nat) (first : α) (rest : List α) :
    (rest.countP fun other => time other < time first) +
      rest.countP (fun other => time first < time other) ≤ rest.length := by
  induction rest with
  | nil => exact Nat.le_refl _
  | cons other rest inductionHypothesis =>
      simp only [List.countP_cons, List.length_cons, decide_eq_true_eq]
      split <;> split <;> omega

/-- Of two calls only one ended before the other one. -/
theorem sum_countP_lt_le_choose (time : α → Nat) (calls : List α) :
    (calls.map fun call => calls.countP fun other => time other < time call).sum ≤
      calls.length.choose 2 := by
  induction calls with
  | nil => exact Nat.le_refl _
  | cons first rest inductionHypothesis =>
      have once := countP_lt_add_countP_gt_le time first rest
      rw [List.map_cons, List.sum_cons, sum_countP_lt_cons, List.countP_cons, List.length_cons,
        choose_two_succ]
      simp only [Nat.lt_irrefl, decide_false, Bool.false_eq_true, if_false]
      omega

/-- Calls that each cost at most one for each call that ended before. -/
theorem sum_le_choose (time cost : α → Nat) (calls : List α)
    (covered : ∀ call ∈ calls, cost call ≤ calls.countP fun other => time other < time call) :
    (calls.map cost).sum ≤ calls.length.choose 2 :=
  Nat.le_trans (List.sum_le_sum covered) (sum_countP_lt_le_choose time calls)

/-- Further calls that each cost at most one for each call that ended. -/
theorem add_sum_le_choose {ended spent : Nat} (before : spent ≤ ended.choose 2) (cost : α → Nat)
    (calls : List α) (covered : ∀ call ∈ calls, cost call ≤ ended) :
    spent + (calls.map cost).sum ≤ (ended + calls.length).choose 2 := by
  induction calls with
  | nil => exact before
  | cons first rest inductionHypothesis =>
      have others := inductionHypothesis fun call member =>
        covered call (List.mem_cons_of_mem first member)
      have one := covered first List.mem_cons_self
      rw [List.map_cons, List.sum_cons, List.length_cons, ← Nat.add_assoc ended, choose_two_succ]
      omega

end Pairs

namespace System

/-- The calls that ended after the given time. -/
def since (system : System) (time : Nat) : List Record :=
  system.records.filter fun record => time < record.ended

/-- Whether what calls lost is covered by calls of others, at a moment of a run. -/
structure Attributed (initial : Registry) (system : System) : Prop where
  accounted : system.Accounted initial
  past : ∀ record ∈ system.records, record.began < record.ended ∧ record.ended < system.clock
  /-- Versions count publications. -/
  version : ∀ kind, (system.registry.current kind).version =
    (initial.current kind).version + system.records.countP (·.publishes kind)
  tables : ∀ record ∈ system.records, ∀ kind, record.publishes kind = true →
    record.request.table? = some kind
  begun : ∀ running ∈ system.underway, running.began < system.clock
  underway : ∀ running ∈ system.underway,
    running.stage.Contends system.registry (system.since running.began) running.losses
      running.rounds
  finished : ∀ record ∈ system.records,
    Contended record.request (system.records.filter record.spans) record.losses record.rounds

namespace Attributed

variable {initial : Registry} {system next : System}

theorem start (wellFormed : initial.WellFormed) (deny : DenyList)
    (requests : List (List Request)) :
    (System.start initial deny requests).Attributed initial where
  accounted := .start wellFormed deny requests
  past := by simp [records_start]
  version kind := by
    rw [records_start]
    rfl
  tables := by simp [records_start]
  begun := by simp
  underway := by simp
  finished := by simp [records_start]

/-- Steps that end no call. -/
theorem keep (attributed : system.Attributed initial) (accounted : next.Accounted initial)
    (clock : next.clock = system.clock + 1) (records : next.records.Perm system.records)
    (tables : ∀ kind, next.registry.current kind = system.registry.current kind)
    (underway : ∀ running ∈ next.underway, running.began ≤ system.clock ∧
      running.stage.Contends system.registry (system.since running.began) running.losses
        running.rounds) : next.Attributed initial where
  accounted := accounted
  past record member := by
    obtain ⟨long, past⟩ := attributed.past record (records.subset member)
    exact ⟨long, clock ▸ Nat.lt_succ_of_lt past⟩
  version kind := by
    rw [tables, records.countP_eq]
    exact attributed.version kind
  tables record member := attributed.tables record (records.subset member)
  begun running member := clock ▸ Nat.lt_succ_of_le (underway running member).1
  underway running member := (underway running member).2.congr tables (records.filter _)
  finished record member :=
    (attributed.finished record (records.subset member)).of_perm (records.filter _)

/-- Steps that begin a call. -/
theorem begin (attributed : system.Attributed initial) (accounted : next.Accounted initial)
    (clock : next.clock = system.clock + 1) (records : next.records.Perm system.records)
    {request : Request}
    (registry : next.registry =
      request.prepare system.registry.fresh system.registry.reserve.2)
    (underway : next.underway.Perm
      (.start request system.registry system.clock :: system.underway)) :
    next.Attributed initial := by
  refine attributed.keep accounted clock records (fun kind => ?_) fun running member => ?_
  · rw [registry, Request.current_prepare, Registry.current_reserve]
  · rcases List.mem_cons.mp (underway.subset member) with rfl | old
    · exact ⟨Nat.le_refl _, request.contends_start _ _ _ _⟩
    · exact ⟨Nat.le_of_lt (attributed.begun running old), attributed.underway running old⟩

/-- Steps that go on with a call. -/
theorem proceed (attributed : system.Attributed initial) (accounted : next.Accounted initial)
    (clock : next.clock = system.clock + 1) (records : next.records.Perm system.records)
    {running again : Running} {others : List Running} {progress : Progress}
    (stepped : running.stage.step system.deny running.offered system.registry =
      (progress, next.registry))
    (counts : running.Counts progress again) (before : system.underway.Perm (running :: others))
    (underway : next.underway.Perm (again :: others)) : next.Attributed initial := by
  have member : running ∈ system.underway := before.symm.subset List.mem_cons_self
  have pursues := attributed.accounted.pursues running member
  have pursued := Stage.pursued pursues
  rw [stepped] at pursued
  have goes : progress.stage? = some again.stage := by cases counts <;> rfl
  have began : again.began = running.began := by cases counts <;> rfl
  obtain ⟨-, current, -⟩ := pursued.of_goes goes
  refine attributed.keep accounted clock records current fun other present => ?_
  rcases List.mem_cons.mp (underway.subset present) with rfl | old
  · rw [began]
    exact ⟨Nat.le_of_lt (attributed.begun running member),
      counts.contends pursues (attributed.underway running member) stepped⟩
  · have was := before.symm.subset (List.mem_cons_of_mem _ old)
    exact ⟨Nat.le_of_lt (attributed.begun other was), attributed.underway other was⟩

/-- Steps that end a call. -/
theorem finish (attributed : system.Attributed initial) (accounted : next.Accounted initial)
    (clock : next.clock = system.clock + 1) {running : Running} {others : List Running}
    {answer : Answer}
    (stepped : running.stage.step system.deny running.offered system.registry =
      (.finished answer, next.registry))
    (records : next.records.Perm (running.record answer system.clock :: system.records))
    (before : system.underway.Perm (running :: others)) (underway : next.underway.Perm others) :
    next.Attributed initial := by
  have member : running ∈ system.underway := before.symm.subset List.mem_cons_self
  have pursues := attributed.accounted.pursues running member
  have began := attributed.begun running member
  have pursued := Stage.pursued pursues
  rw [stepped] at pursued
  have affects : (running.record answer system.clock).Affects system.registry next.registry :=
    pursued.affects attributed.accounted.wellFormed accounted.wellFormed (fun _ => rfl) rfl
  -- What ended during a finished call does not change any more.
  have settled {record : Record} (ended : record.ended ≤ system.clock) :
      (next.records.filter record.spans).Perm (system.records.filter record.spans) := by
    have spanned := records.filter record.spans
    have late : ¬record.spans (running.record answer system.clock) = true :=
      fun spans => Nat.not_lt_of_le ended (Record.spans_iff.mp spans).2
    rwa [List.filter_cons_of_neg late] at spanned
  constructor
  · exact accounted
  · intro record present
    rcases List.mem_cons.mp (records.subset present) with rfl | old
    · exact ⟨began, clock ▸ Nat.lt_succ_self _⟩
    · obtain ⟨long, past⟩ := attributed.past record old
      exact ⟨long, clock ▸ Nat.lt_succ_of_lt past⟩
  · intro kind
    rw [affects.version, attributed.version, records.countP_eq, List.countP_cons, Nat.add_assoc]
  · intro record present kind publishes
    rcases List.mem_cons.mp (records.subset present) with rfl | old
    · exact Stage.table?_of_publishes pursues stepped (Record.publishes_iff.mp publishes)
    · exact attributed.tables record old kind publishes
  · intro other present
    have was := before.symm.subset (List.mem_cons_of_mem _ (underway.subset present))
    exact clock ▸ Nat.lt_succ_of_lt (attributed.begun other was)
  · intro other present
    have was := before.symm.subset (List.mem_cons_of_mem _ (underway.subset present))
    have ended := records.filter fun record => other.began < record.ended
    have late : other.began < (running.record answer system.clock).ended :=
      attributed.begun other was
    rw [List.filter_cons, if_pos (decide_eq_true late)] at ended
    exact ((attributed.underway other was).cons affects).congr (fun _ => rfl) ended
  · intro record present
    rcases List.mem_cons.mp (records.subset present) with rfl | old
    · have contended := (attributed.underway running member).contended pursues
      refine contended.of_perm ((settled (Nat.le_refl _)).trans (.of_eq ?_))
      refine List.filter_congr fun other finished => Bool.eq_iff_iff.mpr ?_
      rw [Record.spans_iff, decide_eq_true_eq]
      exact and_iff_left (attributed.past other finished).2
    · exact (attributed.finished record old).of_perm
        (settled (Nat.le_of_lt (attributed.past record old).2))

/-- Steps that change no thread. -/
theorem idle (attributed : system.Attributed initial) (accounted : next.Accounted initial)
    (clock : next.clock = system.clock + 1) (registry : next.registry = system.registry)
    (threads : next.threads = system.threads) : next.Attributed initial := by
  have records : next.records = system.records := by
    rw [System.records, threads, System.records]
  have underway : next.underway = system.underway := by
    rw [System.underway, threads, System.underway]
  refine attributed.keep accounted clock (.of_eq records) (fun _ => registry ▸ rfl) ?_
  intro running member
  rw [underway] at member
  exact ⟨Nat.le_of_lt (attributed.begun running member), attributed.underway running member⟩

theorem step (attributed : system.Attributed initial) (index : Nat) :
    (system.step index).Attributed initial := by
  have accounted := attributed.accounted.step index
  have clock := system.clock_step index
  rcases system.exists_turn index with ⟨registry, threads⟩ |
    ⟨before, thread, after, next, threads, replaced, turned⟩
  · exact attributed.idle accounted clock registry threads
  · generalize system.step index = result at accounted clock replaced turned ⊢
    have records := records_perm threads
    have nextRecords := records_perm replaced
    have underway := underway_perm threads
    have nextUnderway := underway_perm replaced
    generalize same : result.registry = registry at turned
    cases turned with
    | idle finished => exact attributed.idle accounted clock same (replaced.trans threads.symm)
    | began idle todo =>
        rw [idle] at underway
        exact attributed.begin accounted clock (nextRecords.trans records.symm) same
          (nextUnderway.trans (underway.symm.cons _))
    | onward running stepped counts =>
        rw [running] at underway
        rw [← same] at stepped
        exact attributed.proceed accounted clock (nextRecords.trans records.symm) stepped counts
          underway nextUnderway
    | finished running stepped =>
        rw [running] at underway
        rw [← same] at stepped
        rw [List.append_assoc] at nextRecords
        exact attributed.finish accounted clock stepped
          (nextRecords.trans (List.perm_middle.trans (records.symm.cons _))) underway nextUnderway

theorem run (attributed : system.Attributed initial) (schedule : List Nat) :
    (system.run schedule).Attributed initial := by
  induction schedule generalizing system with
  | nil => exact attributed
  | cons index rest inductionHypothesis => exact inductionHypothesis (attributed.step index)

end Attributed

/-- What calls cost altogether, those under way as well as those finished. -/
def total (system : System) (among : Request → Bool) (cost : Nat → Nat → Nat) : Nat :=
  ((system.records.filter fun record => among record.request).map
      fun record => cost record.losses record.rounds).sum +
    ((system.underway.filter fun running => among running.request).map
      fun running => cost running.losses running.rounds).sum

/-- How many attempts the writes to a table lost altogether. -/
def losses (system : System) (kind : Kind) : Nat :=
  system.total (fun request => request.table? = some kind) fun losses _ => losses

namespace Attributed

variable {initial : Registry} {system : System}

/-- Calls that pay at most one for each call that ended meanwhile pay at most one for each
two calls. -/
theorem total_le (attributed : system.Attributed initial) (among : Request → Bool)
    (cost : Nat → Nat → Nat)
    (covered : ∀ request others losses rounds, among request = true → others ⊆ system.records →
      Contended request others losses rounds →
      cost losses rounds ≤ others.countP fun other => among other.request) :
    system.total among cost ≤ (system.requests.countP among).choose 2 := by
  have finished : ((system.records.filter fun record => among record.request).map
      fun record => cost record.losses record.rounds).sum ≤
        (system.records.countP fun record => among record.request).choose 2 := by
    rw [List.countP_eq_length_filter]
    refine sum_le_choose (·.ended) _ _ fun record member => ?_
    obtain ⟨present, counts⟩ := List.mem_filter.mp member
    apply Nat.le_trans (covered _ _ _ _ counts List.filter_sublist.subset
      (attributed.finished record present))
    rw [List.countP_filter, List.countP_filter]
    refine List.countP_mono_left fun other _ both => ?_
    rw [Bool.and_eq_true, Record.spans_iff] at both
    rw [Bool.and_eq_true, decide_eq_true_eq]
    exact ⟨both.2.2, both.1⟩
  have all := add_sum_le_choose finished (fun running : Running => cost running.losses
    running.rounds) (system.underway.filter fun running => among running.request)
    fun running member => by
      obtain ⟨present, counts⟩ := List.mem_filter.mp member
      have pursues := attributed.accounted.pursues running present
      exact Nat.le_trans (covered _ _ _ _ counts List.filter_sublist.subset
        ((attributed.underway running present).contended pursues))
        (List.filter_sublist.countP_le)
  apply Nat.le_trans all
  refine Nat.choose_le_choose 2 ?_
  rw [← List.countP_eq_length_filter, requests, List.countP_append, List.countP_append,
    List.countP_map, List.countP_map]
  simp only [Function.comp_def]
  omega

/-- The writes to a table lose at most one attempt for each two of them. -/
theorem losses_le (attributed : system.Attributed initial) (kind : Kind) :
    system.losses kind ≤
      (system.requests.countP fun request => request.table? = some kind).choose 2 := by
  refine attributed.total_le _ _ fun request others losses rounds writes among contended => ?_
  refine Nat.le_trans (contended.lost kind (of_decide_eq_true writes)) ?_
  exact List.countP_mono_left fun other member publishes =>
    decide_eq_true (attributed.tables other (among member) kind publishes)

end Attributed

theorem sum_allowance_records (records : List Record) :
    (records.map (·.allowance)).sum = 4 * records.length +
      3 * ((records.map (·.losses)).sum + (records.map (·.rounds)).sum) := by
  induction records with
  | nil => rfl
  | cons record rest inductionHypothesis =>
      have paid : record.allowance = 4 + 3 * (record.losses + record.rounds) := rfl
      simp only [List.map_cons, List.sum_cons, List.length_cons]
      omega

theorem sum_allowance_underway (underway : List Running) :
    (underway.map (·.allowance)).sum ≤ 4 * underway.length +
      3 * ((underway.map (·.losses)).sum + (underway.map (·.rounds)).sum) := by
  induction underway with
  | nil => exact Nat.le_refl _
  | cons running rest inductionHypothesis =>
      have depth := running.stage.depth_le_two
      have paid : running.allowance =
        1 + running.stage.depth + 3 * (running.losses + running.rounds) := rfl
      simp only [List.map_cons, List.sum_cons, List.length_cons]
      omega

theorem allowance_le_of_mem {system : System} {thread : Thread} (member : thread ∈ system.threads) :
    thread.allowance ≤ (system.records.map (·.allowance)).sum +
      (system.underway.map (·.allowance)).sum := by
  obtain ⟨before, after, threads⟩ := List.append_of_mem member
  rw [((records_perm threads).map _).sum_nat, ((underway_perm threads).map _).sum_nat,
    List.map_append, List.map_append, List.sum_append, List.sum_append, Thread.allowance]
  omega

theorem two_mul_choose_two_add (n : Nat) : 2 * n.choose 2 + n = n * n := by
  induction n with
  | zero => rfl
  | succ n inductionHypothesis =>
      rw [choose_two_succ, Nat.succ_mul_succ, ← inductionHypothesis]
      omega

/-- What a thread is allowed depends only on the number of all calls. -/
theorem Attributed.allowance_le {initial : Registry} {system : System}
    (attributed : system.Attributed initial) {thread : Thread} (member : thread ∈ system.threads) :
    thread.allowance ≤ system.requests.length * (3 * system.requests.length + 1) := by
  have losses := attributed.total_le (fun _ => true) (fun losses _ => losses)
    fun request others losses rounds _ _ contended =>
      Nat.le_trans contended.losses_le_length (Nat.le_of_eq (by simp))
  have rounds := attributed.total_le (fun _ => true) (fun _ rounds => rounds)
    fun request others losses rounds _ _ contended =>
      Nat.le_trans contended.rounds_le_length (Nat.le_of_eq (by simp))
  rw [total, List.filter_true, List.filter_true, List.countP_true] at losses rounds
  have paid := allowance_le_of_mem member
  rw [sum_allowance_records] at paid
  have underway := sum_allowance_underway system.underway
  have calls : system.records.length + system.underway.length ≤ system.requests.length := by
    simp only [requests, List.length_append, List.length_map]
    omega
  have pairs := two_mul_choose_two_add system.requests.length
  have square : system.requests.length * (3 * system.requests.length + 1) =
      3 * (system.requests.length * system.requests.length) + system.requests.length := by
    rw [Nat.mul_add, Nat.mul_left_comm, Nat.mul_one]
  omega

/-- Whether no two of the finished calls overlap. -/
def IsSequential (system : System) : Prop :=
  ∀ first ∈ system.records, ∀ second ∈ system.records,
    first = second ∨ first.Precedes second ∨ second.Precedes first

/-- In a sequential run no call ends during another one. -/
theorem Attributed.filter_spans_eq_nil {initial : Registry} {system : System}
    (attributed : system.Attributed initial) (sequential : system.IsSequential) {record : Record}
    (finished : record ∈ system.records) : system.records.filter record.spans = [] := by
  refine List.filter_eq_nil_iff.mpr fun other otherFinished spans => ?_
  obtain ⟨late, early⟩ := Record.spans_iff.mp spans
  have long := (attributed.past other otherFinished).1
  rcases sequential record finished other otherFinished with rfl | before | after
  · exact Nat.lt_irrefl _ early
  · rw [Record.Precedes] at before
    omega
  · rw [Record.Precedes] at after
    omega

section Run

variable {registry : Registry} {requests : List (List Request)}

/-- Who makes a call start over.  Whatever threads do, each publication gives a table a new
version, and each call, finished or under way, loses at most one attempt for each call of
others that published its table meanwhile, and goes at most one more round for each one that
registered its name.  All writes to a table lose at most one attempt for each two of them.
A hook goes at most one more round while nobody removes its name, and in a sequential run
nothing starts over.  A thread that gets enough turns is finished. -/
theorem contention_run (wellFormed : registry.WellFormed) (deny : DenyList)
    (schedule : List Nat) :
    let final := (start registry deny requests).run schedule
    let calls := requests.flatten.length
    (∀ kind, (final.registry.current kind).version =
      (registry.current kind).version + final.records.countP (·.publishes kind)) ∧
    (∀ record ∈ final.records,
      Contended record.request (final.records.filter record.spans) record.losses record.rounds) ∧
    (∀ running ∈ final.underway,
      Contended running.request (final.since running.began) running.losses running.rounds) ∧
    (∀ kind,
      let writers := requests.flatten.countP fun request => request.table? = some kind
      final.losses kind ≤ writers * (writers - 1) / 2) ∧
    (∀ record ∈ final.records, ∀ name handler owner, record.request = .hook name handler owner →
      (∀ other ∈ final.records, record.spans other = true → other.removes name = false) →
      record.rounds ≤ 1) ∧
    (final.IsSequential → ∀ record ∈ final.records, record.losses = 0 ∧ record.rounds = 0) ∧
    ∀ index thread, final.threads[index]? = some thread →
      calls * (3 * calls + 1) < schedule.count index → thread.isFinished = true := by
  intro final calls
  have attributed : final.Attributed registry :=
    (Attributed.start wellFormed deny requests).run schedule
  have all : final.requests.Perm requests.flatten := by
    simpa [System.requests] using requests_run (start registry deny requests) schedule
  refine ⟨attributed.version, attributed.finished, ?_, ?_, ?_, ?_, ?_⟩
  · exact fun running member =>
      (attributed.underway running member).contended (attributed.accounted.pursues running member)
  · intro kind writers
    have lost := attributed.losses_le kind
    rwa [all.countP_eq, Nat.choose_two_right] at lost
  · intro record finished name handler owner hook kept
    have rounds := ((attributed.finished record finished).again name handler owner hook).2
    have none : (final.records.filter record.spans).countP (·.removes name) = 0 := by
      rw [List.countP_eq_zero]
      intro other member
      obtain ⟨present, spans⟩ := List.mem_filter.mp member
      rw [kept other present spans]
      exact Bool.false_ne_true
    rwa [none] at rounds
  · intro sequential record finished
    have contended := attributed.finished record finished
    rw [attributed.filter_spans_eq_nil sequential finished] at contended
    exact ⟨Nat.le_zero.mp contended.losses_le_length, Nat.le_zero.mp contended.rounds_le_length⟩
  · intro index thread scheduled many
    by_contra unfinished
    have had := count_le_allowance _ schedule thread scheduled (Bool.not_eq_true _ ▸ unfinished)
    have allowed := attributed.allowance_le (List.mem_of_getElem? scheduled)
    rw [all.length_eq] at allowed
    exact Nat.not_lt_of_le (Nat.le_trans had allowed) many

/-- A hook for whose name another thread registers a callable, removes it and registers it
again, each time after the hook has not found it.  The hook loses two attempts and goes two
more rounds, and then patches what it finds. -/
theorem contention_run_of_race :
    let name : Name := ⟨[0x66]⟩
    let owner : Owner := ⟨0, "owner"⟩
    let registration : Request := .define (.callable name owner .image ⟨1⟩)
    let requests : List (List Request) :=
      [[.hook name ⟨2⟩ ⟨1, "other"⟩], [registration, .remove .callable name, registration]]
    let schedule := [0, 0, 0, 1, 1, 1, 0, 0, 1, 1, 1, 0, 0, 1, 1, 1, 0, 0] ++ List.replicate 50 0
    let final := (start .empty .empty requests).run schedule
    Registry.empty.WellFormed ∧
      final.records.map (fun record => (record.losses, record.rounds)) =
        [(2, 2), (0, 0), (0, 0), (0, 0)] ∧
      final.losses .callable = 2 ∧ final.losses .callable ≤ 4 * 3 / 2 ∧
      (∃ record ∈ final.records, record.request.table? = some .callable ∧ record.losses = 2 ∧
        2 ≤ (final.records.filter record.spans).countP (·.publishes .callable)) ∧
      ∃ thread ∈ final.threads, thread.records.length = 1 ∧ thread.isFinished = true := by
  intro name owner registration requests schedule final
  have wellFormed := Registry.wellFormed_empty
  obtain ⟨-, finished, -, losses, -, -, ends⟩ :=
    @contention_run .empty requests wellFormed .empty schedule
  have contended : ∃ record ∈ final.records,
      record.request.table? = some .callable ∧ record.losses = 2 := by decide +kernel
  obtain ⟨record, member, writes, lost⟩ := contended
  have first : final.threads[0]?.map (·.records.length) = some 1 := by decide +kernel
  obtain ⟨thread, scheduled, once⟩ := Option.map_eq_some_iff.mp first
  refine ⟨wellFormed, by decide +kernel, by decide +kernel, losses .callable,
    ⟨record, member, writes, lost, ?_⟩, thread, List.mem_of_getElem? scheduled, once,
    ends 0 thread scheduled (by decide +kernel)⟩
  have covered := (finished record member).lost .callable writes
  rwa [lost] at covered

end Run

end System
end Interposition.Concurrent
