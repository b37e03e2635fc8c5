import Interposition.Proofs.Concurrent.Linearizability
/-!
Writers and readers of a table.

Calls that only write tables or only read them take effect one after the other,
each with its last atomic step.  `System.exists_publication_order` says so for
every moment of a run: what is published then is what the calls that are
decided by then come to one after the other, in the order of their last steps.

A call that is about to publish has loaded a snapshot before.  If it succeeds,
that snapshot was the current one all the time in between
(`System.current_of_loadedAt`), since versions only go up.
-/

namespace Interposition.Concurrent

/-- Stages before the load of the snapshot that a write is derived from. -/
inductive Stage.Loads : Kind → Stage → Prop where
  | writing {kind : Kind} (write : Write kind) : Loads kind (.writing (.loading write))
  | installing (name : Name) (handler : Handler) (owner : Owner) (write : Write .callable) :
      Loads .callable (.hooking name handler owner (.installing (.loading write)))

/-- Stages before the publication of entries that were derived from a loaded
snapshot. -/
inductive Stage.Publishes : {kind : Kind} → Snapshot kind → EntryMap kind → Stage → Prop where
  | writing {kind : Kind} (write : Write kind) (loaded : Snapshot kind) (next : EntryMap kind)
      (answer : WriteAnswer kind) :
      Publishes loaded next (.writing (.publishing write loaded next answer))
  | installing (name : Name) (handler : Handler) (owner : Owner) (write : Write .callable)
      (loaded : Snapshot .callable) (next : EntryMap .callable)
      (answer : WriteAnswer .callable) :
      Publishes loaded next
        (.hooking name handler owner (.installing (.publishing write loaded next answer)))

section Stage

variable {deny : DenyList} {id : EntryId} {registry : Registry} {kind : Kind}
  {loaded : Snapshot kind} {next : EntryMap kind}

theorem Request.not_publishes_start {request : Request} :
    ¬(request.start id registry).1.Publishes loaded next := by
  intro publishes
  cases request <;> cases publishes

/-- A write that is about to publish has just loaded, unless it stood there
before. -/
theorem WriteStage.step_eq_publishing {stage : WriteStage kind} {write : Write kind}
    {answer : WriteAnswer kind} {progress : WriteProgress kind}
    (stepped : (stage.step registry).1 = progress)
    (goes : progress = .ongoing (.publishing write loaded next answer) ∨
      progress = .lost (.publishing write loaded next answer)) :
    stage = .loading write ∧ registry.current kind = loaded := by
  cases stage with
  | loading other =>
      rw [WriteStage.step] at stepped
      split at stepped
      · rcases goes with rfl | rfl <;> cases stepped
      · rcases goes with rfl | rfl <;> cases stepped
        exact ⟨rfl, rfl⟩
  | publishing other held derived returned =>
      rw [WriteStage.step] at stepped
      split at stepped <;> rcases goes with rfl | rfl <;> cases stepped

/-- A hook that is about to publish has just loaded the current snapshot. -/
theorem HookStage.loads_of_publishes {name : Name} {handler : Handler} {owner : Owner}
    {stage : HookStage} {after : Stage}
    (goes : (stage.step deny id name handler owner registry).1.stage? = some after)
    (publishes : after.Publishes loaded next) :
    (Stage.hooking name handler owner stage).Loads kind ∧ registry.current kind = loaded := by
  cases stage with
  | looking =>
      rw [HookStage.step] at goes
      split at goes
      · cases goes
        cases publishes
      · split at goes
        · cases goes
        · cases goes
          cases publishes
  | exchanging entry => cases goes
  | installing stage =>
      rw [HookStage.step] at goes
      split at goes
      · rename_i progress stepped
        cases goes
        cases publishes
        obtain ⟨rfl, same⟩ :=
          WriteStage.step_eq_publishing (congrArg Prod.fst stepped) (Or.inl rfl)
        exact ⟨.installing name handler owner _, same⟩
      · rename_i progress stepped
        cases goes
        cases publishes
        obtain ⟨rfl, same⟩ :=
          WriteStage.step_eq_publishing (congrArg Prod.fst stepped) (Or.inr rfl)
        exact ⟨.installing name handler owner _, same⟩
      · cases goes
        cases publishes
      · cases goes

/-- A call that is about to publish has just loaded the current snapshot. -/
theorem Stage.loads_of_publishes {stage after : Stage}
    (goes : (stage.step deny id registry).1.stage? = some after)
    (publishes : after.Publishes loaded next) :
    stage.Loads kind ∧ registry.current kind = loaded := by
  cases stage with
  | writing stage =>
      rw [Stage.step] at goes
      split at goes
      · rename_i progress stepped
        cases goes
        cases publishes
        obtain ⟨rfl, same⟩ :=
          WriteStage.step_eq_publishing (congrArg Prod.fst stepped) (Or.inl rfl)
        exact ⟨.writing _, same⟩
      · rename_i progress stepped
        cases goes
        cases publishes
        obtain ⟨rfl, same⟩ :=
          WriteStage.step_eq_publishing (congrArg Prod.fst stepped) (Or.inr rfl)
        exact ⟨.writing _, same⟩
      · cases goes
  | reading => cases goes
  | hooking name handler owner stage => exact HookStage.loads_of_publishes goes publishes
  | patching name handler found? =>
      cases found? with
      | none =>
          rw [Stage.step] at goes
          split at goes <;> cases goes
          cases publishes
      | some entry => cases goes
  | resolving name found? =>
      cases found? with
      | none =>
          rw [Stage.step] at goes
          split at goes <;> cases goes
          cases publishes
      | some entry => cases goes

end Stage

namespace System

variable {base : EntryId} {system : System}

/-- A table is as it was, or has a new version. -/
theorem Orderly.current_step (orderly : system.Orderly base) (index : Nat) (kind : Kind) :
    (system.step index).registry.current kind = system.registry.current kind ∨
      (system.registry.current kind).version <
        ((system.step index).registry.current kind).version := by
  cases system.step_moved index with
  | idle registry =>
      left
      rw [registry]
  | began registry =>
      left
      rw [registry, Request.current_prepare, Registry.current_reserve]
  | onward stepped goes _ _ _ _ before =>
      left
      obtain ⟨-, -, ⟨handler, registry⟩, -⟩ :=
        orderly.went (before.symm.subset List.mem_cons_self) stepped goes
      rw [registry, Registry.current_retarget]
  | @finished running _ answer stepped _ before =>
      have member : running ∈ system.underway := before.symm.subset List.mem_cons_self
      have moved := Stage.step_moved (orderly.serves running member)
      rw [stepped] at moved
      exact (orderly.settled member moved).newer kind

theorem Orderly.current_run (orderly : system.Orderly base) (schedule : List Nat)
    (kind : Kind) :
    (system.run schedule).registry.current kind = system.registry.current kind ∨
      (system.registry.current kind).version <
        ((system.run schedule).registry.current kind).version := by
  induction schedule generalizing system with
  | nil => exact Or.inl rfl
  | cons index rest inductionHypothesis =>
      rw [run_cons]
      rcases inductionHypothesis (orderly.step index) with same | newer
      · rw [same]
        exact orderly.current_step index kind
      · right
        rcases orderly.current_step index kind with unchanged | published
        · rwa [← unchanged]
        · exact Nat.lt_trans published newer

/-- Versions do not recur: if a table has one version twice, nothing was
published in between. -/
theorem Orderly.current_between (orderly : system.Orderly base) {first : List Nat}
    (rest : List Nat) {kind : Kind}
    (recurs : ((system.run (first ++ rest)).registry.current kind).version =
      (system.registry.current kind).version) :
    (system.run first).registry.current kind = system.registry.current kind := by
  rcases orderly.current_run first kind with same | newer
  · exact same
  · have later := (orderly.run first).current_run rest kind
    rw [← run_append] at later
    rcases later with same | newest
    · rw [same] at recurs
      omega
    · omega

/-- Records stay, and later ones end later. -/
theorem records_run (system : System) (schedule : List Nat) :
    ∃ later, (system.run schedule).records.Perm (system.records ++ later) ∧
      ∀ record ∈ later, system.clock ≤ record.ended := by
  induction schedule generalizing system with
  | nil => exact ⟨[], by simp [run_nil], by simp⟩
  | cons index rest inductionHypothesis =>
      obtain ⟨later, records, ended⟩ := inductionHypothesis (system.step index)
      have after : ∀ record ∈ later, system.clock ≤ record.ended := by
        intro record member
        have := ended record member
        rw [clock_step] at this
        omega
      rw [run_cons]
      cases system.step_moved index with
      | idle _ same => exact ⟨later, same ▸ records, after⟩
      | began _ same => exact ⟨later, same ▸ records, after⟩
      | onward _ _ _ _ _ same => exact ⟨later, same ▸ records, after⟩
      | @finished running _ answer _ more =>
          refine ⟨running.record answer system.clock :: later, ?_, ?_⟩
          · apply (records.trans (more.append_right later)).trans
            exact List.perm_middle.symm
          · intro record member
            rcases List.mem_cons.mp member with rfl | old
            · exact Nat.le_refl _
            · exact after record old

/-- The records of a moment are those of the calls that ended before it. -/
theorem records_take {registry : Registry} {requests : List (List Request)}
    (wellFormed : registry.WellFormed)
    (steady : ∀ request ∈ requests.flatten, request.IsSteady) (deny : DenyList)
    (schedule : List Nat) (count : Nat) :
    (((start registry deny requests).run schedule).records.filter (·.ended < count)).Perm
      ((start registry deny requests).run (schedule.take count)).records := by
  have began : (start registry deny requests).clock = 0 := rfl
  have orderly := (orderly_start wellFormed steady deny).run (schedule.take count)
  have clock := (start registry deny requests).clock_run (schedule.take count)
  rw [began, List.length_take] at clock
  have orderlyLast := (orderly_start wellFormed steady deny).run schedule
  have clockLast := (start registry deny requests).clock_run schedule
  rw [began] at clockLast
  obtain ⟨later, records, ended⟩ :=
    ((start registry deny requests).run (schedule.take count)).records_run (schedule.drop count)
  rw [← run_append, List.take_append_drop] at records
  apply (records.filter _).trans
  rw [List.filter_append, List.filter_eq_self.mpr, List.filter_eq_nil_iff.mpr, List.append_nil]
  · intro record member
    have late := ended record member
    have past := orderlyLast.past record
      (records.symm.subset (List.mem_append_right _ member))
    rw [decide_eq_true_eq]
    omega
  · intro record member
    have past := (orderly.past record member).2
    rw [decide_eq_true_eq]
    omega

/-- Whether the last of some steps is the last atomic step of a finished call: it
gives the answer of the call and leaves the registry as it then is. -/
def Decides (system : System) (first : List Nat) (index : Nat) (record : Record) : Prop :=
  record.ended = system.clock + first.length ∧
    ∃ running ∈ (system.run first).underway,
      running.request = record.request ∧ running.offered = record.offered ∧
      running.stage.step system.deny running.offered (system.run first).registry =
        (.finished record.answer, (system.run (first ++ [index])).registry)

/-- Whether the last of some steps ends a call that is under way and leaves the given
record of it. -/
def Finishes (system : System) (first : List Nat) (index : Nat) (running : Running)
    (record : Record) : Prop :=
  running ∈ (system.run first).underway ∧
    ∃ answer, record = running.record answer (system.clock + first.length) ∧
      running.stage.step system.deny running.offered (system.run first).registry =
        (.finished answer, (system.run (first ++ [index])).registry)

/-- Every finished call was under way until some step ended it. -/
theorem finishes_of_mem_records (system : System) (schedule : List Nat) :
    ∀ record ∈ (system.run schedule).records, record ∈ system.records ∨
      ∃ first index rest running, schedule = first ++ index :: rest ∧
        system.Finishes first index running record := by
  induction schedule using List.reverseRecOn with
  | nil => exact fun record member => Or.inl member
  | append_singleton earlier last inductionHypothesis =>
      intro record member
      have extended : record ∈ (system.run earlier).records → record ∈ system.records ∨
          ∃ first index rest running, earlier ++ [last] = first ++ index :: rest ∧
            system.Finishes first index running record := by
        intro old
        rcases inductionHypothesis record old with
          atStart | ⟨first, index, rest, running, rfl, finishes⟩
        · exact Or.inl atStart
        · exact Or.inr ⟨first, index, rest ++ [last], running, by simp, finishes⟩
      rw [run_append, run_cons, run_nil] at member
      cases (system.run earlier).step_moved last with
      | idle _ same => exact extended (same ▸ member)
      | began _ same => exact extended (same ▸ member)
      | onward _ _ _ _ _ same => exact extended (same ▸ member)
      | @finished running _ answer stepped more before =>
          rcases List.mem_cons.mp (more.subset member) with rfl | old
          · right
            refine ⟨earlier, last, [], running, rfl, before.symm.subset List.mem_cons_self,
              answer, by rw [clock_run], ?_⟩
            rw [deny_run] at stepped
            rw [run_append, run_cons, run_nil]
            exact stepped
          · exact extended old

/-- Every finished call was decided by some step. -/
theorem decides_of_mem_records (system : System) (schedule : List Nat) :
    ∀ record ∈ (system.run schedule).records, record ∈ system.records ∨
      ∃ first index rest, schedule = first ++ index :: rest ∧
        system.Decides first index record := by
  intro record member
  rcases finishes_of_mem_records system schedule record member with
    atStart | ⟨first, index, rest, running, split, underway, answer, rfl, stepped⟩
  · exact Or.inl atStart
  · exact Or.inr ⟨first, index, rest, split, rfl, running, underway, rfl, rfl, stepped⟩

/-- Whether the last of some steps is the one at which a call loaded the
snapshot that it is about to publish from.  The given steps came since, and the
call stands where it stood. -/
def LoadedAt {kind : Kind} (system : System) (first : List Nat) (index : Nat)
    (rest : List Nat) (running : Running) (loaded : Snapshot kind) : Prop :=
  (∃ before ∈ (system.run first).underway,
    before.offered = running.offered ∧ before.stage.Loads kind) ∧
  (system.run first).registry.current kind = loaded ∧
  ∀ middle, middle <+: rest → ∃ same ∈ (system.run (first ++ index :: middle)).underway,
    same.offered = running.offered ∧ same.stage = running.stage

/-- A call that is about to publish has loaded a snapshot before. -/
theorem exists_loadedAt {kind : Kind} {loaded : Snapshot kind} {next : EntryMap kind}
    {system : System} (idle : system.underway = []) (schedule : List Nat) :
    ∀ running ∈ (system.run schedule).underway, running.stage.Publishes loaded next →
      ∃ first index rest, schedule = first ++ index :: rest ∧
        system.LoadedAt first index rest running loaded := by
  induction schedule using List.reverseRecOn with
  | nil =>
      intro running member
      rw [run_nil, idle] at member
      cases member
  | append_singleton earlier last inductionHypothesis =>
      intro running member publishes
      have extended : running ∈ (system.run earlier).underway →
          ∃ first index rest, earlier ++ [last] = first ++ index :: rest ∧
            system.LoadedAt first index rest running loaded := by
        intro old
        obtain ⟨first, index, rest, rfl, loads, current, since⟩ :=
          inductionHypothesis running old publishes
        refine ⟨first, index, rest ++ [last], by simp, loads, current, ?_⟩
        intro middle isPrefix
        rcases List.prefix_concat_iff.mp isPrefix with rfl | isPrefix
        · refine ⟨running, ?_, rfl, rfl⟩
          rw [← List.cons_append, ← List.append_assoc]
          exact member
        · exact since middle isPrefix
      have stepped := member
      rw [run_append, run_cons, run_nil] at stepped
      cases (system.run earlier).step_moved last with
      | idle _ _ same => exact extended (same ▸ stepped)
      | began _ _ more =>
          rcases List.mem_cons.mp (more.subset stepped) with rfl | old
          · exact absurd publishes Request.not_publishes_start
          · exact extended old
      | @onward before _ others progress went goes _ offered _ _ inBefore inNext =>
          rcases List.mem_cons.mp (inNext.subset stepped) with rfl | old
          · have goesOn : (before.stage.step (system.run earlier).deny before.offered
                (system.run earlier).registry).1.stage? = some running.stage := by
              rw [went]
              exact goes
            obtain ⟨loads, current⟩ := Stage.loads_of_publishes goesOn publishes
            refine ⟨earlier, last, [], rfl, ⟨before, inBefore.symm.subset List.mem_cons_self,
              offered.symm, loads⟩, current, ?_⟩
            intro middle isPrefix
            rw [List.prefix_nil.mp isPrefix]
            exact ⟨running, member, rfl, rfl⟩
          · exact extended (inBefore.symm.subset (List.mem_cons_of_mem _ old))
      | finished _ _ inBefore inNext =>
          exact extended
            (inBefore.symm.subset (List.mem_cons_of_mem _ (inNext.subset stepped)))

section Run

variable {registry : Registry} {requests : List (List Request)}

/-- A history of calls that only use tables is in the order of their ends. -/
theorem Explained.ended_lt {initial last : Registry} {history : List Moment}
    (explained : system.Explained initial history last)
    (tableCalls : ∀ record ∈ system.records, record.request.IsTableCall) :
    (history.map (·.record)).Pairwise fun earlier later => earlier.ended < later.ended := by
  refine explained.anchored.imp_of_mem ?_
  intro earlier later inHistory _ anchored
  exact anchored (tableCalls earlier (explained.perm.subset inHistory))

theorem tableCalls_run
    (tableCalls : ∀ request ∈ requests.flatten, request.IsTableCall) (deny : DenyList)
    (schedule : List Nat) :
    ∀ record ∈ ((start registry deny requests).run schedule).records,
      record.request.IsTableCall := by
  intro record member
  apply tableCalls
  have all := requests_run (start registry deny requests) schedule
  have started : (start registry deny requests).requests = requests.flatten := by
    simp [System.requests]
  rw [← started]
  apply all.subset
  exact List.mem_append_right _ (List.mem_append_right _ (List.mem_map_of_mem member))

/-- The calls of a history that ended before a moment are the history of this
moment. -/
theorem filter_history_eq {order : List Record} (wellFormed : registry.WellFormed)
    (steady : ∀ request ∈ requests.flatten, request.IsSteady) (deny : DenyList)
    {schedule : List Nat} {count : Nat} {earlier : List Record}
    (perm : order.Perm ((start registry deny requests).run schedule).records)
    (sorted : order.Pairwise fun first second => first.ended < second.ended)
    (permEarlier : earlier.Perm
      ((start registry deny requests).run (schedule.take count)).records)
    (sortedEarlier : earlier.Pairwise fun first second => first.ended < second.ended) :
    order.filter (·.ended < count) = earlier := by
  apply List.Perm.eq_of_pairwise _ (sorted.filter _) sortedEarlier
  · apply (perm.filter _).trans
    exact (records_take wellFormed steady deny schedule count).trans permEarlier.symm
  · intro first second _ _ before after
    exact absurd before (Nat.lt_asymm after)

/-- What a call is about to publish was derived from the snapshot that is
current since the call loaded it, or the publication fails. -/
theorem current_of_loadedAt (wellFormed : registry.WellFormed)
    (steady : ∀ request ∈ requests.flatten, request.IsSteady) {deny : DenyList}
    {first rest : List Nat} {index : Nat} {running : Running} {kind : Kind}
    {loaded : Snapshot kind} {next : EntryMap kind} {published : Registry}
    (loadedAt : (start registry deny requests).LoadedAt first index rest running loaded)
    (swapped : ((start registry deny requests).run
      (first ++ index :: rest)).registry.compareAndSwap loaded next = some published)
    {middle : List Nat} (between : middle <+: rest) :
    ((start registry deny requests).run (first ++ index :: middle)).registry.current kind =
      loaded := by
  obtain ⟨-, current, -⟩ := loadedAt
  obtain ⟨late, rfl⟩ := between
  have orderly := (orderly_start wellFormed steady deny).run first
  have same : (((start registry deny requests).run
      (first ++ index :: (middle ++ late))).registry.current kind).version =
        loaded.version := by
    rw [Registry.compareAndSwap] at swapped
    split at swapped
    · rename_i same
      rwa [Snapshot.isSame, beq_iff_eq] at same
    · cases swapped
  rw [← current]
  rw [run_append]
  apply orderly.current_between late
  rw [current, ← run_append, List.cons_append]
  exact same

/-- Calls that only write tables or only read them take effect with their last
atomic steps.  And a call publishes only what it derived from the snapshot that
is current since the call loaded it. -/
theorem exists_publication_order (wellFormed : registry.WellFormed)
    (steady : ∀ request ∈ requests.flatten, request.IsSteady)
    (tableCalls : ∀ request ∈ requests.flatten, request.IsTableCall) (deny : DenyList)
    (schedule : List Nat) :
    (∃ order : List Record,
      order.Pairwise (fun earlier later => earlier.ended < later.ended) ∧
      (∀ record ∈ order, ∃ first index rest, schedule = first ++ index :: rest ∧
        (start registry deny requests).Decides first index record) ∧
      (∀ count, ((start registry deny requests).run (schedule.take count)).LinearizedBy
        registry (order.filter (·.ended < count))) ∧
      (((start registry deny requests).run schedule).isFinished →
        (order.map (·.request)).Perm requests.flatten)) ∧
    ∀ running ∈ ((start registry deny requests).run schedule).underway,
      ∀ (kind : Kind) (loaded : Snapshot kind) (next : EntryMap kind),
        running.stage.Publishes loaded next →
          ∃ first index rest, schedule = first ++ index :: rest ∧
            (start registry deny requests).LoadedAt first index rest running loaded ∧
            ∀ published,
              ((start registry deny requests).run schedule).registry.compareAndSwap loaded next =
                some published →
              ∀ middle, middle <+: rest →
                ((start registry deny requests).run (first ++ index :: middle)).registry.current
                  kind = loaded := by
  constructor
  · obtain ⟨history, last, explained, -⟩ := exists_explained wellFormed steady deny schedule
    have sorted := explained.ended_lt (tableCalls_run tableCalls deny schedule)
    refine ⟨history.map (·.record), sorted, ?_, ?_,
      perm_requests_of_isFinished explained.perm⟩
    · intro record member
      have finished := explained.perm.subset member
      rcases decides_of_mem_records _ schedule record finished with atStart | decided
      · rw [records_start] at atStart
        cases atStart
      · exact decided
    · intro count
      obtain ⟨earlier, middle, explainedEarlier, -⟩ :=
        exists_explained wellFormed steady deny (schedule.take count)
      have sortedEarlier := explainedEarlier.ended_lt (tableCalls_run tableCalls deny _)
      rw [filter_history_eq wellFormed steady deny explained.perm sorted explainedEarlier.perm
        sortedEarlier]
      exact explainedEarlier.linearizedBy wellFormed
        ((orderly_start wellFormed steady deny).run (schedule.take count))
  · intro running member kind loaded next publishes
    obtain ⟨first, index, rest, rfl, loadedAt⟩ :=
      exists_loadedAt underway_start schedule running member publishes
    refine ⟨first, index, rest, rfl, loadedAt, ?_⟩
    intro published swapped middle between
    exact current_of_loadedAt wellFormed steady loadedAt swapped between

/-- Two definitions of one type and a reader.  The first definition loses its
attempt to publish and is refused with the next load.  What is published and read is the second
one. -/
theorem exists_publication_order_of_race :
    let name : Name := ⟨[0x54]⟩
    let requests : List (List Request) :=
      [[.define (.type name ⟨0, "first"⟩ .image)],
        [.define (.type name ⟨1, "second"⟩ .image), .read .type]]
    let winner : Entry .type := ⟨1, name, ⟨1, "second"⟩, .image⟩
    let refusal : Except RegistryError (Entry .type) := .error (.duplicate .type name)
    let system := start .empty .empty requests
    let schedule := [0, 0, 1, 1, 1, 0, 1, 0, 1]
    let final := system.run schedule
    Registry.WellFormed .empty ∧ (∀ request ∈ requests.flatten, request.IsSteady) ∧
      (∀ request ∈ requests.flatten, request.IsTableCall) ∧
      final.isFinished ∧
      final.records.map (fun record => (record.answer, record.losses)) =
        [(.written (.inserted refusal), 1), (.written (.inserted (.ok winner)), 0),
          (.read .type ⟨1, ⟨[(name, winner)]⟩⟩, 0)] ∧
      (final.registry.current .type).names = [name] ∧
      ∃ order : List Record,
        order.Pairwise (fun earlier later => earlier.ended < later.ended) ∧
        (∀ count, (system.run (schedule.take count)).LinearizedBy .empty
          (order.filter (·.ended < count))) ∧
        (order.map (·.request)).Perm requests.flatten := by
  intro name requests winner refusal system schedule final
  have steady : ∀ request ∈ requests.flatten, request.IsSteady := by
    simp [requests, Request.IsSteady]
  have tableCalls : ∀ request ∈ requests.flatten, request.IsTableCall := by
    simp [requests, Request.IsTableCall]
  have finished : final.isFinished = true := by decide
  have answered : final.records.map (fun record => (record.answer, record.losses)) =
      [(.written (.inserted refusal), 1), (.written (.inserted (.ok winner)), 0),
        (.read .type ⟨1, ⟨[(name, winner)]⟩⟩, 0)] := by
    subst final system schedule requests winner refusal name
    rfl
  refine ⟨Registry.wellFormed_empty, steady, tableCalls, finished, answered, by decide, ?_⟩
  obtain ⟨⟨order, sorted, -, explains, complete⟩, -⟩ :=
    exists_publication_order Registry.wellFormed_empty steady tableCalls .empty schedule
  exact ⟨order, sorted, explains, complete finished⟩

end Run

end System
end Interposition.Concurrent
