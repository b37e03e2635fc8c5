import Interposition.Proofs.Concurrent.Programs
import Interposition.Proofs.Concurrent.Retries
import Interposition.Proofs.Eviction.Exact
/-!
What a sweep asks its predicate.

A sweep is carried out in attempts.  Each attempt asks the predicate about every entry of
the snapshot that it loaded, once and in the order of the table.  A predicate that remembers
what it was asked goes on remembering it when an attempt was lost, so that the next attempt
may be answered otherwise.  At every moment of a run, a sweep under way stands where its
lost attempts led it (`Running.Sweeps`).  When it ends, it has removed what its predicate
turned down during the last attempt (`Record.Swept`).

If nobody else published the table meanwhile, there was only one attempt, so that no entry
was asked about twice and just those that were turned down are gone (`System.attempts_run`).
Otherwise an entry may be asked about again, and one that was turned down may stay
(`System.not_sweepsOnce_of_removal`).
-/

namespace Interposition

/-- What a sweep removes and what it leaves make up the map. -/
theorem OrderedMap.merges_sweepPairs {κ α : Type} (keep : List α → α → Bool) (seen : List α)
    (pairs : List (κ × α)) :
    Merges (sweepPairs keep seen pairs).removed (sweepPairs keep seen pairs).kept.values
      (pairs.map (·.2)) := by
  induction pairs generalizing seen with
  | nil => exact .nil
  | cons pair rest inductionHypothesis =>
      obtain ⟨key, value⟩ := pair
      have tail := inductionHypothesis (value :: seen)
      cases kept : keep seen value with
      | true => simpa [sweepPairs, kept, values] using tail.second
      | false => simpa [sweepPairs, kept] using tail.first

namespace Concurrent

variable {kind : Kind}

/-- Whether a predicate turns an entry down while it is asked about entries in order.  It has
seen other entries before, the latest first. -/
def TurnsDown (predicate : List (Entry kind) → Entry kind → Bool)
    (seen entries : List (Entry kind)) (entry : Entry kind) : Prop :=
  ∃ before after, entries = before ++ entry :: after ∧
    predicate (before.reverse ++ seen) entry = false

/-- What attempts that load the given snapshots ask about, the latest first. -/
def askedIn (snapshots : List (Snapshot kind)) : List (Entry kind) :=
  (snapshots.flatMap (·.toList)).reverse

/-- The entries of a kind that a predicate was asked about, the latest first. -/
def Answer.asked (kind : Kind) : Answer → List (Entry kind)
  | .written (.retained _ seen) => ofKind kind seen
  | _ => []

/-- How a sweep went.  Its attempts loaded the given snapshots; all of them were lost but the
last one, which made the next snapshot of the last one. -/
structure Record.Swept (record : Record) (predicate : List (Entry kind) → Entry kind → Bool)
    (lost : List (Snapshot kind)) (last next : Snapshot kind) : Prop where
  answer : record.answer =
    .written (.retained (record.answer.handedOut kind) (record.answer.asked kind))
  losses : lost.length = record.losses
  /-- The predicate is asked about the entries of one snapshot after the other, in order. -/
  asked : record.answer.asked kind = askedIn (lost ++ [last])
  /-- An entry is asked about once by each attempt that finds it in the table. -/
  count : ∀ id, ((record.answer.asked kind).map (·.id)).count id =
    (lost ++ [last]).countP fun snapshot => id ∈ EntryMap.ids snapshot.entries
  /-- The last attempt decides what is removed. -/
  removed : ∀ entry, entry ∈ record.answer.handedOut kind ↔
    TurnsDown predicate (askedIn lost) last.toList entry
  merges : Merges (record.answer.handedOut kind) next.toList last.toList
  unchanged : record.answer.handedOut kind = [] → next = last

/-- Whether a sweep asked about no entry twice, in the order of the given table, and removed
just what its predicate turned down when it was asked. -/
structure Record.SweepsOnce (record : Record)
    (predicate : List (Entry kind) → Entry kind → Bool) (table : List (Entry kind)) : Prop where
  once : ((record.answer.asked kind).map (·.id)).Nodup
  order : (record.answer.asked kind).reverse.Sublist table
  removed : ∀ entry, entry ∈ record.answer.handedOut kind ↔
    TurnsDown predicate [] (record.answer.asked kind).reverse entry

/-- The snapshot that a write loaded and has not published from yet. -/
def WriteStage.loaded : WriteStage kind → List (Snapshot kind)
  | .loading _ => []
  | .publishing _ loaded _ _ => [loaded]

/-- Whether a snapshot was the current one at some moment of a run after the given time. -/
def System.Showed (system : System) (schedule : List Nat) (time : Nat)
    (snapshot : Snapshot kind) : Prop :=
  ∃ moment, moment <+: schedule ∧ time < moment.length ∧
    (system.run moment).registry.current kind = snapshot

/-- How a sweep under way stands at a moment of a run, after it lost attempts from the given
snapshots. -/
structure Running.Sweeps (running : Running) (system : System) (schedule : List Nat)
    (predicate : List (Entry kind) → Entry kind → Bool) (lost : List (Snapshot kind))
    (stage : WriteStage kind) : Prop where
  place : running.stage = .writing stage
  /-- The predicate remembers what the lost attempts asked. -/
  stands : stage.StandsAt (system.run schedule).registry (.retain predicate (askedIn lost))
  losses : lost.length = running.losses
  showed : ∀ snapshot ∈ lost ++ stage.loaded, system.Showed schedule running.began snapshot
  ascending : (lost ++ stage.loaded).Pairwise (·.version < ·.version)
  stale : ∀ snapshot ∈ lost,
    snapshot.version < ((system.run schedule).registry.current kind).version

section Asked

theorem askedIn_append (lost : List (Snapshot kind)) (loaded : Snapshot kind) :
    askedIn (lost ++ [loaded]) = loaded.toList.reverse ++ askedIn lost := by
  simp [askedIn]

/-- Attempts ask about an entry once for each table that has it. -/
theorem count_askedIn {snapshots : List (Snapshot kind)}
    (sound : ∀ snapshot ∈ snapshots, EntryMap.Sound snapshot.entries) (id : EntryId) :
    ((askedIn snapshots).map (·.id)).count id =
      snapshots.countP fun snapshot => id ∈ EntryMap.ids snapshot.entries := by
  rw [askedIn, List.map_reverse, List.count_reverse]
  induction snapshots with
  | nil => rfl
  | cons first rest inductionHypothesis =>
      have distinct := (sound first List.mem_cons_self).distinctIds
      have others := inductionHypothesis fun snapshot member =>
        sound snapshot (List.mem_cons_of_mem first member)
      have once : (first.toList.map (·.id)).count id =
          if id ∈ EntryMap.ids first.entries then 1 else 0 := distinct.count
      rw [List.flatMap_cons, List.map_append, List.count_append, others, once,
        List.countP_cons, Nat.add_comm]
      simp only [decide_eq_true_eq]

/-- A predicate that looks at the entry alone does not care when it is asked. -/
theorem turnsDown_steady {keep : Entry kind → Bool} {seen entries : List (Entry kind)}
    {entry : Entry kind} :
    TurnsDown (fun _ => keep) seen entries entry ↔ entry ∈ entries ∧ keep entry = false := by
  constructor
  · rintro ⟨before, after, rfl, refused⟩
    exact ⟨List.mem_append_right _ List.mem_cons_self, refused⟩
  · rintro ⟨member, refused⟩
    obtain ⟨before, after, split⟩ := List.append_of_mem member
    exact ⟨before, after, split, refused⟩

/-- If no attempt was lost, there was only one. -/
theorem Record.Swept.sweepsOnce {record : Record}
    {predicate : List (Entry kind) → Entry kind → Bool} {lost : List (Snapshot kind)}
    {last next : Snapshot kind} (swept : record.Swept predicate lost last next)
    (alone : record.losses = 0) (sound : EntryMap.Sound last.entries) :
    record.SweepsOnce predicate last.toList := by
  obtain rfl : lost = [] := List.eq_nil_of_length_eq_zero (swept.losses.trans alone)
  have asked : record.answer.asked kind = last.toList.reverse := by
    simpa [askedIn] using swept.asked
  constructor
  case once =>
    rw [asked, List.map_reverse, List.nodup_reverse]
    exact sound.distinctIds
  case order =>
    rw [asked, List.reverse_reverse]
  case removed =>
    rw [asked, List.reverse_reverse]
    exact swept.removed

end Asked

section Step

variable {registry next : Registry} {predicate : List (Entry kind) → Entry kind → Bool}
  {seen : List (Entry kind)} {stage after : WriteStage kind}

/-- A write goes on from loading the current snapshot. -/
theorem WriteStage.loaded_of_ongoing {write : Write kind} (stands : stage.StandsAt registry write)
    (stepped : stage.step registry = (.ongoing after, next)) :
    next = registry ∧ after.StandsAt registry write ∧
      after.loaded = [registry.current kind] := by
  cases WriteStage.moved_of_step stands stepped with
  | loaded edited => exact ⟨rfl, .publishing edited (Or.inl rfl), rfl⟩

/-- A predicate remembers what it was asked by an attempt that is lost. -/
theorem WriteStage.loaded_of_lost (stands : stage.StandsAt registry (.retain predicate seen))
    (stepped : stage.step registry = (.lost after, next)) :
    next = registry ∧ ∃ loaded, stage.loaded = [loaded] ∧
      loaded.version < (registry.current kind).version ∧
      after = .loading (.retain predicate (loaded.toList.reverse ++ seen)) := by
  cases stands with
  | loading =>
      rw [WriteStage.step] at stepped
      split at stepped <;> cases stepped
  | @publishing loaded entries answer edited past =>
      rw [WriteStage.step] at stepped
      split at stepped
      · cases stepped
      · rename_i failed
        cases stepped
        refine ⟨rfl, loaded, rfl, version_lt_of_lost past failed, ?_⟩
        rw [Write.edit_retain] at edited
        split at edited <;> cases edited
        rw [Write.afterLoss, OrderedMap.sweep, OrderedMap.seen_sweepPairs]
        rfl

/-- A sweep ends with what an attempt makes of the current snapshot. -/
theorem WriteStage.sweep_of_finished {answer : WriteAnswer kind}
    (stands : stage.StandsAt registry (.retain predicate seen))
    (stepped : stage.step registry = (.finished answer, next)) :
    ∃ removed, answer = .retained removed ((registry.current kind).toList.reverse ++ seen) ∧
      (∀ entry, entry ∈ removed ↔
        TurnsDown predicate seen (registry.current kind).toList entry) ∧
      Merges removed (next.current kind).toList (registry.current kind).toList ∧
      (removed = [] → next.current kind = registry.current kind) := by
  have turnedDown (entry : Entry kind) :
      entry ∈ ((registry.current kind).entries.sweep predicate seen).removed ↔
        TurnsDown predicate seen (registry.current kind).toList entry :=
    OrderedMap.mem_removed_sweepPairs_iff
  have merges := OrderedMap.merges_sweepPairs predicate seen (registry.current kind).entries.pairs
  have asked : ((registry.current kind).entries.sweep predicate seen).seen =
      (registry.current kind).toList.reverse ++ seen :=
    OrderedMap.seen_sweepPairs predicate seen _
  cases WriteStage.moved_of_step stands stepped with
  | kept edited =>
      rw [Write.edit_retain] at edited
      split at edited <;> cases edited
      rename_i nothing
      rw [List.isEmpty_iff.mp nothing] at turnedDown
      refine ⟨[], by rw [asked], turnedDown, ?_, fun _ => rfl⟩
      simpa using merges_filter (fun _ => false) (registry.current kind).toList
  | published edited =>
      rw [Write.edit_retain] at edited
      split at edited <;> cases edited
      rename_i something
      refine ⟨_, by rw [asked], turnedDown, ?_, fun nothing => ?_⟩
      · rw [Registry.current_publish]
        exact merges
      · exact absurd (List.isEmpty_iff.mpr nothing) something

end Step

theorem System.Showed.mono {system : System} {schedule later : List Nat} {time : Nat}
    {snapshot : Snapshot kind} (showed : system.Showed schedule time snapshot)
    (before : schedule <+: later) : system.Showed later time snapshot := by
  obtain ⟨moment, earlier, after, current⟩ := showed
  exact ⟨moment, earlier.trans before, after, current⟩

namespace Running.Sweeps

variable {system : System} {schedule : List Nat} {index : Nat}
  {predicate : List (Entry kind) → Entry kind → Bool} {lost : List (Snapshot kind)}
  {stage : WriteStage kind} {running again : Running}

/-- A sweep begins with no attempts behind it. -/
theorem start (system : System) (schedule : List Nat)
    (predicate : List (Entry kind) → Entry kind → Bool) (registry : Registry) (clock : Nat) :
    (Running.start (.retain kind predicate) registry clock).Sweeps system schedule predicate []
      (.loading (.retain predicate [])) where
  place := rfl
  stands := .loading
  losses := rfl
  showed := by simp [WriteStage.loaded]
  ascending := .nil
  stale := by simp

/-- A step of another call leaves a sweep where it is. -/
theorem keep (sweeps : running.Sweeps system schedule predicate lost stage)
    (newer : ∀ kind, (system.run (schedule ++ [index])).registry.current kind =
        (system.run schedule).registry.current kind ∨
      ((system.run schedule).registry.current kind).version <
        ((system.run (schedule ++ [index])).registry.current kind).version) :
    running.Sweeps system (schedule ++ [index]) predicate lost stage where
  place := sweeps.place
  stands := sweeps.stands.mono newer
  losses := sweeps.losses
  showed snapshot member := (sweeps.showed snapshot member).mono (List.prefix_append _ _)
  ascending := sweeps.ascending
  stale snapshot member := by
    have older := sweeps.stale snapshot member
    rcases newer kind with same | published
    · rwa [same]
    · exact Nat.lt_trans older published

/-- The current snapshot is newer than those of the lost attempts. -/
theorem ascending_current (sweeps : running.Sweeps system schedule predicate lost stage) :
    (lost ++ [(system.run schedule).registry.current kind]).Pairwise
      (·.version < ·.version) := by
  refine List.pairwise_append.mpr
    ⟨(List.pairwise_append.mp sweeps.ascending).1, List.pairwise_singleton _ _, ?_⟩
  intro older member current isCurrent
  rw [List.mem_singleton.mp isCurrent]
  exact sweeps.stale older member

/-- A sweep begins an attempt with the current snapshot. -/
theorem load (sweeps : running.Sweeps system schedule predicate lost stage)
    (begun : running.began < schedule.length) {after : WriteStage kind}
    (stepped : stage.step (system.run schedule).registry =
      (.ongoing after, (system.run (schedule ++ [index])).registry)) :
    Running.Sweeps { running with stage := .writing after } system (schedule ++ [index])
      predicate lost after := by
  obtain ⟨same, standing, loads⟩ := WriteStage.loaded_of_ongoing sweeps.stands stepped
  constructor
  case place => rfl
  case stands => rwa [same]
  case losses => exact sweeps.losses
  case showed =>
    rw [loads]
    intro snapshot member
    rcases List.mem_append.mp member with old | new
    · exact (sweeps.showed snapshot (List.mem_append_left _ old)).mono (List.prefix_append _ _)
    · rw [List.mem_singleton.mp new]
      exact ⟨schedule, List.prefix_append _ _, begun, rfl⟩
  case ascending =>
    rw [loads]
    exact sweeps.ascending_current
  case stale =>
    rw [same]
    exact sweeps.stale

/-- A sweep loses an attempt and remembers what it asked. -/
theorem lose (sweeps : running.Sweeps system schedule predicate lost stage)
    {after : WriteStage kind}
    (stepped : stage.step (system.run schedule).registry =
      (.lost after, (system.run (schedule ++ [index])).registry)) :
    ∃ loaded, Running.Sweeps
      { running with stage := .writing after, losses := running.losses + 1 } system
      (schedule ++ [index]) predicate (lost ++ [loaded]) after := by
  obtain ⟨same, loaded, loads, older, rfl⟩ := WriteStage.loaded_of_lost sweeps.stands stepped
  have showed := sweeps.showed
  have ascending := sweeps.ascending
  rw [loads] at showed ascending
  refine ⟨loaded, ?_⟩
  constructor
  case place => rfl
  case stands =>
    rw [same, askedIn_append]
    exact .loading
  case losses =>
    rw [List.length_append, sweeps.losses]
    rfl
  case showed =>
    rw [WriteStage.loaded, List.append_nil]
    exact fun snapshot member => (showed snapshot member).mono (List.prefix_append _ _)
  case ascending => rwa [WriteStage.loaded, List.append_nil]
  case stale =>
    rw [same]
    intro snapshot member
    rcases List.mem_append.mp member with old | new
    · exact sweeps.stale snapshot old
    · rwa [List.mem_singleton.mp new]

/-- Whatever a step of a sweep comes to, the sweep stands where its lost attempts led it. -/
theorem proceed (sweeps : running.Sweeps system schedule predicate lost stage)
    (begun : running.began < schedule.length) {deny : DenyList} {id : EntryId}
    {progress : Progress}
    (stepped : running.stage.step deny id (system.run schedule).registry =
      (progress, (system.run (schedule ++ [index])).registry))
    (counts : running.Counts progress again) :
    ∃ lost stage, again.Sweeps system (schedule ++ [index]) predicate lost stage := by
  rw [sweeps.place, Stage.step] at stepped
  split at stepped <;> rename_i result <;> cases stepped <;> cases counts
  · exact ⟨lost, _, sweeps.load begun result⟩
  · obtain ⟨loaded, lost⟩ := sweeps.lose result
    exact ⟨_, _, lost⟩

/-- A sweep ends with what its last attempt makes of the table. -/
theorem finish (sweeps : running.Sweeps system schedule predicate lost stage)
    (sound : ∀ snapshot ∈ lost ++ [(system.run schedule).registry.current kind],
      EntryMap.Sound snapshot.entries)
    {deny : DenyList} {id : EntryId} {answer : Answer} {next : Registry}
    (stepped : running.stage.step deny id (system.run schedule).registry =
      (.finished answer, next)) (clock : Nat) :
    (running.record answer clock).Swept predicate lost
      ((system.run schedule).registry.current kind) (next.current kind) := by
  rw [sweeps.place] at stepped
  obtain ⟨given, rfl, result⟩ := Stage.exists_written_of_finished stepped
  obtain ⟨removed, rfl, turnedDown, merges, unchanged⟩ :=
    WriteStage.sweep_of_finished sweeps.stands result
  rw [← askedIn_append]
  generalize all : askedIn (lost ++ [(system.run schedule).registry.current kind]) = asked
  have handedOut : (Answer.written (.retained removed asked)).handedOut kind = removed :=
    ofKind_self removed
  have askedAbout : (Answer.written (.retained removed asked)).asked kind = asked :=
    ofKind_self asked
  constructor <;> simp only [Running.record, handedOut, askedAbout]
  case losses => exact sweeps.losses
  case asked => exact all.symm
  case count =>
    rw [← all]
    exact count_askedIn sound
  case removed => exact turnedDown
  case merges => exact merges
  case unchanged => exact unchanged

end Running.Sweeps

namespace System

/-- A step leaves a table as it is or publishes it. -/
theorem Accounted.newer_step {initial : Registry} {system : System}
    (accounted : system.Accounted initial) (index : Nat) (kind : Kind) :
    (system.step index).registry.current kind = system.registry.current kind ∨
      (system.registry.current kind).version <
        ((system.step index).registry.current kind).version := by
  cases system.step_moved index with
  | idle registry => exact Or.inl (by rw [registry])
  | began registry =>
      exact Or.inl (by rw [registry, Request.current_prepare, Registry.current_reserve])
  | onward stepped goes _ _ _ _ before =>
      have pursued := Stage.pursued (accounted.pursues _ (before.symm.subset List.mem_cons_self))
      rw [stepped] at pursued
      exact Or.inl ((pursued.of_goes goes).2.1 kind)
  | finished stepped _ before =>
      have pursued := Stage.pursued (accounted.pursues _ (before.symm.subset List.mem_cons_self))
      rw [stepped] at pursued
      exact pursued.newer kind

/-- What a call under way was one step before. -/
inductive Continues (system next : System) (running : Running) : Prop where
  | kept (member : running ∈ system.underway)
  | began {request : Request} (same : running = .start request system.registry system.clock)
  | onward {before : Running} {progress : Progress} (member : before ∈ system.underway)
      (stepped : before.stage.step system.deny before.offered system.registry =
        (progress, next.registry))
      (counts : before.Counts progress running)

theorem continues_of_mem (system : System) (index : Nat) {running : Running}
    (member : running ∈ (system.step index).underway) :
    system.Continues (system.step index) running := by
  rcases system.exists_turn index with
    ⟨-, threads⟩ | ⟨before, thread, after, next, threads, replaced, turned⟩
  · rw [underway, threads] at member
    exact .kept member
  · have was := underway_perm threads
    generalize system.step index = result at member replaced turned ⊢
    rcases List.mem_append.mp ((underway_perm replaced).subset member) with own | other
    · generalize same : result.registry = registry at turned
      cases turned with
      | idle finished => exact .kept (was.symm.subset (List.mem_append_left _ own))
      | began idle todo => exact .began (List.mem_singleton.mp own)
      | onward isRunning stepped counts =>
          rw [List.mem_singleton.mp own]
          rw [isRunning] at was
          rw [← same] at stepped
          exact .onward (was.symm.subset List.mem_cons_self) stepped counts
      | finished isRunning stepped => cases own
    · exact .kept (was.symm.subset (List.mem_append_right _ other))

section Run

variable {registry : Registry} {requests : List (List Request)}
  {predicate : List (Entry kind) → Entry kind → Bool}

/-- At every moment of a run, each sweep under way stands where its lost attempts led it. -/
theorem exists_sweeps (wellFormed : registry.WellFormed) (deny : DenyList) (schedule : List Nat) :
    ∀ running ∈ ((start registry deny requests).run schedule).underway,
      running.request = .retain kind predicate → ∃ lost stage,
        running.Sweeps (start registry deny requests) schedule predicate lost stage := by
  induction schedule using List.reverseRecOn with
  | nil => simp [run_nil]
  | append_singleton earlier last inductionHypothesis =>
      intro running member sweeps
      have attributed := (Attributed.start wellFormed deny requests).run earlier
      have newer := attributed.accounted.newer_step last
      have step : (start registry deny requests).run (earlier ++ [last]) =
          ((start registry deny requests).run earlier).step last := by
        rw [run_append, run_cons, run_nil]
      rw [step] at member
      rw [← step] at newer
      cases continues_of_mem _ last member with
      | kept old =>
          obtain ⟨lost, stage, stood⟩ := inductionHypothesis running old sweeps
          exact ⟨lost, stage, stood.keep newer⟩
      | began same =>
          subst same
          cases sweeps
          exact ⟨[], _, .start _ _ predicate _ _⟩
      | @onward before progress old stepped counts =>
          have request : before.request = running.request := by cases counts <;> rfl
          obtain ⟨lost, stage, stood⟩ := inductionHypothesis before old (request.trans sweeps)
          have begun := attributed.begun before old
          rw [clock_run, show (start registry deny requests).clock = 0 from rfl,
            Nat.zero_add] at begun
          rw [← step] at stepped
          exact stood.proceed begun stepped counts

/-- Snapshots that were current at some moment are sound. -/
theorem Showed.sound (wellFormed : registry.WellFormed) {deny : DenyList} {schedule : List Nat}
    {time : Nat} {snapshot : Snapshot kind}
    (showed : (start registry deny requests).Showed schedule time snapshot) :
    EntryMap.Sound snapshot.entries := by
  obtain ⟨moment, -, -, rfl⟩ := showed
  exact ((Accounted.start wellFormed deny requests).run moment).wellFormed.sound kind

/-- How a sweep goes, whatever its predicate remembers and whatever others do meanwhile.  Its
lost attempts loaded snapshots that others published during the call, the older ones first,
and the last one loaded the snapshot that was current when the call ended.  It loses at most
one attempt for each call that publishes the table meanwhile.  A predicate that looks at the
entry alone is not disturbed by this; and if there is no such call, the sweep asks about no
entry twice and removes just what was turned down. -/
theorem attempts_run (wellFormed : registry.WellFormed) (deny : DenyList) (schedule : List Nat)
    {record : Record} (finished : record ∈ ((start registry deny requests).run schedule).records)
    (sweeps : record.request = .retain kind predicate) :
    let system := start registry deny requests
    let records := (system.run schedule).records
    ∃ (lost : List (Snapshot kind)) (first rest : List Nat) (index : Nat),
      let last := (system.run first).registry.current kind
      let next := (system.run (first ++ [index])).registry.current kind
      schedule = first ++ index :: rest ∧ record.ended = first.length ∧
      record.Swept predicate lost last next ∧
      (∀ snapshot ∈ lost, system.Showed first record.began snapshot) ∧
      (lost ++ [last]).Pairwise (·.version < ·.version) ∧
      record.losses ≤ (records.filter record.spans).countP (·.publishes kind) ∧
      (∀ keep, predicate = (fun _ => keep) → ∀ entry,
        entry ∈ record.answer.handedOut kind ↔ entry ∈ last.toList ∧ keep entry = false) ∧
      ((∀ other ∈ records, record.spans other = true → other.publishes kind = false) →
        record.SweepsOnce predicate last.toList) := by
  intro system records
  have attributed := (Attributed.start wellFormed deny requests).run schedule
  have covered := (attributed.finished record finished).lost kind (by rw [sweeps]; rfl)
  rcases finishes_of_mem_records system schedule record finished with
    atStart | ⟨first, index, rest, running, split, underway, answer, ends, stepped⟩
  · rw [records_start] at atStart
    cases atStart
  have request : running.request = record.request := by rw [ends]; rfl
  obtain ⟨lost, stage, stood⟩ :=
    exists_sweeps wellFormed deny first running underway (request.trans sweeps)
  have began : running.began = record.began := by rw [ends]; rfl
  have ended : record.ended = first.length := by
    rw [ends]
    exact Nat.zero_add first.length
  have showed : ∀ snapshot ∈ lost, system.Showed first record.began snapshot :=
    fun snapshot member => began ▸ stood.showed snapshot (List.mem_append_left _ member)
  have current : EntryMap.Sound ((system.run first).registry.current kind).entries :=
    ((Accounted.start wellFormed deny requests).run first).wellFormed.sound kind
  have sound : ∀ snapshot ∈ lost ++ [(system.run first).registry.current kind],
      EntryMap.Sound snapshot.entries := by
    intro snapshot member
    rcases List.mem_append.mp member with old | new
    · exact (showed snapshot old).sound wellFormed
    · rwa [List.mem_singleton.mp new]
  have swept : record.Swept predicate lost ((system.run first).registry.current kind)
      ((system.run (first ++ [index])).registry.current kind) := by
    rw [ends]
    exact stood.finish sound stepped _
  refine ⟨lost, first, rest, index, split, ended, swept, showed, stood.ascending_current, covered,
    ?_, ?_⟩
  · rintro keep rfl entry
    exact (swept.removed entry).trans turnsDown_steady
  · intro alone
    have none : (records.filter record.spans).countP (·.publishes kind) = 0 := by
      rw [List.countP_eq_zero]
      intro other member
      obtain ⟨present, spans⟩ := List.mem_filter.mp member
      rw [alone other present spans]
      exact Bool.false_ne_true
    exact swept.sweepsOnce (Nat.le_zero.mp (none ▸ covered)) current

/-- A sweep that turns down every second entry that it asks about.  It loses an attempt to a
removal and another one to a definition, and asks about one entry three times. -/
theorem attempts_run_of_losses :
    let owner : Owner := ⟨0, "owner"⟩
    let type (letter : UInt8) : Draft .type := .type ⟨[letter]⟩ owner .image
    let initial := ((Registry.empty.put (type 0x41)).put (type 0x42)).put (type 0x43)
    let predicate : List TypeDef → TypeDef → Bool := fun seen _ => (seen.length + 1) % 2 != 0
    let requests : List (List Request) :=
      [[.retain .type predicate], [.remove .type ⟨[0x41]⟩, .define (type 0x44)]]
    let schedule := [0, 0, 1, 1, 1, 0, 0, 1, 1, 1, 0, 0, 0]
    let final := (start initial .empty requests).run schedule
    initial.WellFormed ∧ final.isFinished ∧
      ∃ record ∈ final.records, record.request = .retain .type predicate ∧
        (record.answer.asked .type).map (·.id) = [5, 2, 1, 2, 1, 2, 1, 0] ∧
        (record.answer.handedOut .type).map (·.id) = [1, 5] ∧
        ∃ lost last next, record.Swept predicate lost last next ∧ lost.length = 2 ∧
          (lost ++ [last]).Pairwise (·.version < ·.version) ∧
          2 ≤ (final.records.filter record.spans).countP (·.publishes .type) := by
  intro owner type initial predicate requests schedule final
  have wellFormed : initial.WellFormed := ((Registry.wellFormed_empty.put _).put _).put _
  have sweep : ∃ thread ∈ final.threads[0]?, ∃ record ∈ thread.records, record.losses = 2 ∧
      (record.answer.asked .type).map (·.id) = [5, 2, 1, 2, 1, 2, 1, 0] ∧
      (record.answer.handedOut .type).map (·.id) = [1, 5] := by decide +kernel
  obtain ⟨thread, scheduled, record, inThread, losses, asked, removed⟩ := sweep
  obtain ⟨program, planned, requested⟩ := exists_program scheduled inThread
  cases planned
  have sweeps := List.mem_singleton.mp requested
  have finished : record ∈ final.records :=
    List.mem_flatMap.mpr ⟨thread, List.mem_of_getElem? scheduled, inThread⟩
  obtain ⟨lost, first, rest, index, -, -, swept, -, ascending, covered, -, -⟩ :=
    attempts_run wellFormed .empty schedule finished sweeps
  rw [losses] at covered
  exact ⟨wellFormed, by decide +kernel, record, finished, sweeps, asked, removed, lost, _, _, swept,
    swept.losses.trans losses, ascending, covered⟩

/-- A sweep that turns down every second entry that it asks about, over two types.  The first
one is removed by another call before the sweep publishes, so that the second one, which was
turned down, is asked about again and stays. -/
theorem not_sweepsOnce_of_removal :
    let owner : Owner := ⟨0, "owner"⟩
    let type (letter : UInt8) : Draft .type := .type ⟨[letter]⟩ owner .image
    let initial := (Registry.empty.put (type 0x41)).put (type 0x42)
    let predicate : List TypeDef → TypeDef → Bool := fun seen _ => (seen.length + 1) % 2 != 0
    let requests : List (List Request) := [[.retain .type predicate], [.remove .type ⟨[0x41]⟩]]
    let final := (start initial .empty requests).run [0, 0, 1, 1, 1, 0, 0]
    initial.WellFormed ∧ final.isFinished ∧
      EntryMap.ids (final.registry.current .type).entries = [1] ∧
      ∃ record ∈ final.records, record.request = .retain .type predicate ∧
        (record.answer.asked .type).map (·.id) = [1, 1, 0] ∧
        record.answer.handedOut .type = [] ∧
        (∃ entry, entry.id = 1 ∧
          TurnsDown predicate [] (record.answer.asked .type).reverse entry) ∧
        ∀ table, ¬record.SweepsOnce predicate table := by
  intro owner type initial predicate requests final
  have wellFormed : initial.WellFormed := (Registry.wellFormed_empty.put _).put _
  have sweep : ∃ thread ∈ final.threads[0]?, ∃ record ∈ thread.records,
      (record.answer.asked .type).map (·.id) = [1, 1, 0] ∧
      (record.answer.handedOut .type).length = 0 := by decide +kernel
  obtain ⟨thread, scheduled, record, inThread, asked, removed⟩ := sweep
  obtain ⟨program, planned, requested⟩ := exists_program scheduled inThread
  cases planned
  have finished : record ∈ final.records :=
    List.mem_flatMap.mpr ⟨thread, List.mem_of_getElem? scheduled, inThread⟩
  refine ⟨wellFormed, by decide +kernel, by decide +kernel, record, finished,
    List.mem_singleton.mp requested, asked, List.eq_nil_of_length_eq_zero removed, ?_, ?_⟩
  · -- The first attempt asked about the second entry when it had seen the first one.
    obtain ⟨again, rest, same, -, ids⟩ := List.map_eq_cons_iff.mp asked
    obtain ⟨entry, earlier, rfl, second, ids⟩ := List.map_eq_cons_iff.mp ids
    obtain ⟨first, none, rfl, -, ids⟩ := List.map_eq_cons_iff.mp ids
    cases List.map_eq_nil_iff.mp ids
    have refused : predicate [first] entry = false := by simp [predicate]
    exact ⟨entry, second, [first], [again], by rw [same]; rfl, refused⟩
  · intro table once
    have distinct := once.once
    rw [asked] at distinct
    revert distinct
    decide

end Run

end System
end Concurrent
end Interposition
