import Mathlib.Data.List.Induction
import Interposition.Proofs.Concurrent.Orderly
/-!
Every run has a sequential history.

`System.Explained` relates a system to a serial history of its finished calls.
A call is added to the history when it finishes.  Mostly it goes to the end,
for it took effect just now.  The exception is a call that found a callable,
lost it to a removal, and accessed its dispatch target only then: it goes just
before the removal.  This is possible because nobody looked at that target
since, and it respects real time because the call began before the removal and
ended after it.
-/

namespace Interposition.Concurrent

/-- Whether a call ended before another one began. -/
def Record.Precedes (first second : Record) : Prop :=
  first.ended < second.began

/-- Whether the calls of a history are found in another one, at moments with the
same tables. -/
def Carries (history later : List Moment) : Prop :=
  ∀ moment ∈ history, ∃ same ∈ later, same.record = moment.record ∧
    (∀ kind, same.before.current kind = moment.before.current kind) ∧
    ∀ kind, same.after.current kind = moment.after.current kind

/-- Whether a callable that a name was bound to was removed from its table after
the given time. -/
def Lost (history : List Moment) (name : Name) (entry : Callable) (time : Nat) : Prop :=
  ∃ moment ∈ history, moment.record.request.IsTableCall ∧
    moment.before.get? .callable name = some entry ∧
    entry.id ∉ EntryMap.ids (moment.after.current .callable).entries ∧
    time ≤ moment.record.ended

/-- Whether a call accessed a callable while its name was bound to it. -/
def Accessed (history : List Moment) (offered : EntryId) (name : Name) (entry : Callable) :
    Prop :=
  ∃ moment ∈ history, moment.record.offered = offered ∧
    ¬moment.record.request.IsTableCall ∧
    moment.before.get? .callable name = some entry

section Carries

variable {history later : List Moment} {name : Name} {entry : Callable}

theorem carries_append (history added : List Moment) : Carries history (history ++ added) :=
  fun moment member => ⟨moment, List.mem_append_left _ member, rfl, fun _ => rfl, fun _ => rfl⟩

theorem carries_insert (early late : List Moment) (inserted : Moment) (id : EntryId)
    (handler : Handler) :
    Carries (early ++ late) (early ++ inserted :: late.map (·.retarget id handler)) := by
  intro moment member
  rcases List.mem_append.mp member with inEarly | inLate
  · exact ⟨moment, List.mem_append_left _ inEarly, rfl, fun _ => rfl, fun _ => rfl⟩
  · refine ⟨moment.retarget id handler, List.mem_append_right _ (List.mem_cons_of_mem _
      (List.mem_map_of_mem inLate)), rfl, ?_, ?_⟩
    · exact Registry.current_retarget moment.before id handler
    · exact Registry.current_retarget moment.after id handler

theorem Lost.carry {time : Nat} (lost : Lost history name entry time)
    (carries : Carries history later) : Lost later name entry time := by
  obtain ⟨moment, member, tableCall, found, gone, since⟩ := lost
  obtain ⟨same, present, record, before, after⟩ := carries moment member
  refine ⟨same, present, record ▸ tableCall, ?_, ?_, record ▸ since⟩
  · rwa [Registry.get?, before]
  · rwa [after]

theorem Accessed.carry {offered : EntryId} (accessed : Accessed history offered name entry)
    (carries : Carries history later) : Accessed later offered name entry := by
  obtain ⟨moment, member, same, access, found⟩ := accessed
  obtain ⟨other, present, record, before, -⟩ := carries moment member
  refine ⟨other, present, record ▸ same, record ▸ access, ?_⟩
  rwa [Registry.get?, before]

end Carries

theorem pairwise_insert {α : Type} {relation : α → α → Prop} {early late : List α} {added : α}
    (pairwise : (early ++ late).Pairwise relation)
    (after : ∀ old ∈ early, relation old added) (before : ∀ old ∈ late, relation added old) :
    (early ++ added :: late).Pairwise relation := by
  obtain ⟨inEarly, inLate, across⟩ := List.pairwise_append.mp pairwise
  refine List.pairwise_append.mpr ⟨inEarly, List.pairwise_cons.mpr ⟨before, inLate⟩, ?_⟩
  intro old member new present
  rcases List.mem_cons.mp present with rfl | inLate
  · exact after old member
  · exact across old member new inLate

namespace System

/-- A serial history of the finished calls that agrees with a system. -/
structure Explained (initial : Registry) (system : System) (history : List Moment)
    (last : Registry) : Prop where
  serial : Serial system.deny initial history last
  perm : (history.map (·.record)).Perm system.records
  realTime : (history.map (·.record)).Pairwise fun first second => ¬second.Precedes first
  /-- A call that only uses tables stands before all calls that ended later. -/
  anchored : (history.map (·.record)).Pairwise fun first second =>
    first.request.IsTableCall → first.ended < second.ended
  agree : Agree (Known initial.fresh system.records .callable) last system.registry
  /-- What a call holds is still bound to its name, or was lost meanwhile. -/
  bound : ∀ running ∈ system.underway, ∀ name entry,
    running.stage.held? = some (name, entry) →
      system.registry.get? .callable name = some entry ∨
        Lost history name entry running.began

variable {initial last : Registry} {system next : System} {history : List Moment}

/-- What a step at which a call ends does to records and calls under way. -/
structure Ends (system next : System) (running : Running) (others : List Running)
    (answer : Answer) : Prop where
  records : next.records.Perm (running.record answer system.clock :: system.records)
  before : system.underway.Perm (running :: others)
  underway : next.underway.Perm others
  deny : next.deny = system.deny

section Ends

variable {running : Running} {others : List Running} {answer : Answer}

theorem Ends.mem (ends : system.Ends next running others answer) : running ∈ system.underway :=
  ends.before.symm.subset List.mem_cons_self

theorem Ends.mem_of_mem (ends : system.Ends next running others answer) {other : Running}
    (member : other ∈ next.underway) : other ∈ system.underway :=
  ends.before.symm.subset (List.mem_cons_of_mem _ (ends.underway.subset member))

theorem Ends.eq_or_mem (ends : system.Ends next running others answer) {other : Running}
    (member : other ∈ system.underway) : other = running ∨ other ∈ next.underway :=
  (List.mem_cons.mp (ends.before.subset member)).imp_right (ends.underway.symm.subset ·)

end Ends

/-- The calls of a history are over. -/
theorem Explained.past (explained : system.Explained initial history last)
    (orderly : system.Orderly initial.fresh) :
    ∀ record ∈ history.map (·.record),
      record.began ≤ record.ended ∧ record.ended < system.clock :=
  fun record present => orderly.past record (explained.perm.subset present)

/-- A call that takes effect when it finishes goes to the end of the history. -/
theorem Explained.append (explained : system.Explained initial history last)
    (orderly : system.Orderly initial.fresh) {running : Running} {others : List Running}
    {answer : Answer} (ends : system.Ends next running others answer)
    (outcome : Outcome system.deny running.offered system.registry running.request answer
      next.registry) :
    ∃ after, next.Explained initial
      (history ++ [⟨running.record answer system.clock, last, after⟩]) after := by
  have past := explained.past orderly
  obtain ⟨after, alone, agree⟩ :=
    outcome.agrees explained.agree.symm (orderly.known .callable)
  have knownBefore : ∀ id, Known initial.fresh next.records .callable id →
      Known initial.fresh system.records .callable id ∨
        (id = running.offered ∧ answer.Adds .callable) :=
    fun id known => known.of_perm_cons ends.records
  refine ⟨after, ?_, ?_, ?_, ?_, ?_, ?_⟩
  · rw [ends.deny]
    apply explained.serial.append
    exact @Serial.cons _ ⟨running.record answer system.clock, last, after⟩ _ _ alone (.nil after)
  · rw [List.map_append]
    apply (List.perm_append_singleton _ _).trans
    exact (explained.perm.cons _).trans ends.records.symm
  · rw [List.map_append]
    refine List.pairwise_append.mpr ⟨explained.realTime, List.pairwise_singleton _ _, ?_⟩
    intro record present new isNew precedes
    rw [List.mem_singleton.mp isNew] at precedes
    have earlier := past record present
    have later : system.clock < record.began := precedes
    omega
  · rw [List.map_append]
    refine List.pairwise_append.mpr ⟨explained.anchored, List.pairwise_singleton _ _, ?_⟩
    intro record present new isNew _
    rw [List.mem_singleton.mp isNew]
    exact (past record present).2
  · exact agree.symm.mono knownBefore
  · intro other present name entry held
    have wasUnderway := ends.mem_of_mem present
    rcases explained.bound other wasUnderway name entry held with found | lost
    · rcases outcome.get?_next (orderly.wellFormed.sound .callable)
        (orderly.unused ends.mem .callable) found with stays | ⟨tableCall, gone⟩
      · exact Or.inl stays
      · refine Or.inr ⟨_, List.mem_append_right _ List.mem_cons_self, tableCall, ?_, ?_, ?_⟩
        · exact (explained.agree.get? .callable name).trans found
        · rw [← agree.current]
          exact gone
        · exact Nat.le_of_lt (orderly.begun other wasUnderway)
    · exact Or.inr (lost.carry (carries_append history _))

theorem Explained.tidy (explained : system.Explained initial history last)
    (wellFormed : initial.WellFormed) (orderly : system.Orderly initial.fresh) :
    Tidy initial history where
  sound := wellFormed.sound
  unused := by
    intro moment member kind came
    have finished := explained.perm.subset (List.mem_map_of_mem member)
    have least := (orderly.range _ (List.mem_append_left _ (List.mem_map_of_mem finished))).1
    exact Nat.not_lt_of_le least (wellFormed.belowFresh kind _ came)
  distinct := by
    have offers := explained.perm.map (·.offered)
    rw [List.map_map] at offers
    exact offers.symm.nodup (List.nodup_append.mp orderly.distinct).1

/-- From a removal on, nobody looks at the target of the removed callable. -/
theorem Explained.quiet {early late : List Moment} {moment : Moment}
    (explained : system.Explained initial (early ++ moment :: late) last)
    (wellFormed : initial.WellFormed) (orderly : system.Orderly initial.fresh) {name : Name}
    {entry : Callable} (tableCall : moment.record.request.IsTableCall)
    (found : moment.before.get? .callable name = some entry)
    (gone : entry.id ∉ EntryMap.ids (moment.after.current .callable).entries) :
    ∀ later ∈ moment :: late, later.Quiet entry.id := by
  obtain ⟨-, -, after, tidy⟩ :=
    explained.serial.around (explained.tidy wellFormed orderly)
  have unoffered := tidy.ne_offered (mem_ids_of_get? found)
  have absent := after.absent gone fun other inLate =>
    unoffered other (List.mem_cons_of_mem moment inLate)
  intro other member
  refine ⟨unoffered other member, ?_⟩
  rcases List.mem_cons.mp member with rfl | inLate
  · exact Or.inl tableCall
  · exact Or.inr (absent other inLate)

/-- What stands from a removal on ended at the removal or later. -/
theorem Explained.ended_le {early late : List Moment} {moment : Moment}
    (explained : system.Explained initial (early ++ moment :: late) last)
    (tableCall : moment.record.request.IsTableCall) :
    ∀ record ∈ (moment :: late).map (·.record), moment.record.ended ≤ record.ended := by
  have anchored := explained.anchored
  rw [List.map_append, List.map_cons] at anchored
  have after := (List.pairwise_cons.mp (List.pairwise_append.mp anchored).2.1).1
  intro record present
  rcases List.mem_cons.mp present with rfl | inLate
  · exact Nat.le_refl _
  · exact Nat.le_of_lt (after record inLate tableCall)

/-- A call that accesses a callable which it lost goes just before the removal. -/
theorem Explained.insert (explained : system.Explained initial history last)
    (wellFormed : initial.WellFormed) (orderly : system.Orderly initial.fresh)
    {running : Running} {others : List Running} {name : Name} {entry : Callable}
    {answer : Answer} {left : Handler} (ends : system.Ends next running others answer)
    (held : running.stage.held? = some (name, entry))
    (lost : Lost history name entry running.began)
    (accesses : running.request.Accesses name (system.registry.target entry) answer left)
    (registry : next.registry = system.registry.retarget entry.id left) :
    ∃ later after, next.Explained initial later after ∧ Carries history later ∧
      Accessed later running.offered name entry := by
  have past := explained.past orderly
  obtain ⟨moment, inHistory, tableCall, found, gone, since⟩ := lost
  obtain ⟨early, late, rfl⟩ := List.append_of_mem inHistory
  have quiet := explained.quiet wellFormed orderly tableCall found gone
  have target : last.targets entry.id = system.registry.target entry :=
    explained.agree.targets entry.id (orderly.held running ends.mem name entry held)
  have inserted := explained.serial.insert found quiet (running.record answer system.clock)
    (target ▸ accesses)
  have carries := carries_insert early (moment :: late)
    ⟨running.record answer system.clock, moment.before, moment.before.retarget entry.id left⟩
    entry.id left
  have order : (early ++ ⟨running.record answer system.clock, moment.before,
      moment.before.retarget entry.id left⟩ ::
        (moment :: late).map (·.retarget entry.id left)).map (·.record) =
      early.map (·.record) ++
        running.record answer system.clock :: (moment :: late).map (·.record) := by
    simp [Moment.retarget, Function.comp_def]
  have oldOrder : (early ++ moment :: late).map (·.record) =
      early.map (·.record) ++ (moment :: late).map (·.record) := List.map_append
  rw [oldOrder] at past
  refine ⟨_, _, ⟨ends.deny ▸ inserted, ?_, ?_, ?_, ?_, ?_⟩, carries, ?_⟩
  · rw [order]
    apply List.perm_middle.trans
    rw [← oldOrder]
    exact (explained.perm.cons _).trans ends.records.symm
  · rw [order]
    apply pairwise_insert (oldOrder ▸ explained.realTime)
    · intro record present precedes
      have earlier := past record (List.mem_append_left _ present)
      have later : system.clock < record.began := precedes
      omega
    · -- The removal came after the call began.
      intro record present precedes
      have ended : record.ended < running.began := precedes
      have after := explained.ended_le tableCall record present
      omega
  · rw [order]
    apply pairwise_insert (oldOrder ▸ explained.anchored)
    · intro record present _
      exact (past record (List.mem_append_left _ present)).2
    · intro record present isTableCall
      exact absurd isTableCall accesses.not_isTableCall
  · rw [registry]
    refine (explained.agree.retarget entry.id left).mono fun id known => ?_
    rcases known.of_perm_cons ends.records with old | ⟨-, adds⟩
    · exact old
    · exact absurd adds accesses.not_adds
  · intro other present otherName otherEntry otherHeld
    rcases explained.bound other (ends.mem_of_mem present) otherName otherEntry otherHeld with
      stays | lost
    · left
      rw [registry, Registry.get?_retarget]
      exact stays
    · exact Or.inr (lost.carry carries)
  · exact ⟨_, List.mem_append_right _ List.mem_cons_self, rfl, accesses.not_isTableCall,
      found⟩

/-- A step that ends no call leaves the history as it is. -/
theorem Explained.keep (explained : system.Explained initial history last)
    (deny : next.deny = system.deny) (records : next.records = system.records)
    (current : ∀ kind, next.registry.current kind = system.registry.current kind)
    (targets : ∀ id, Known initial.fresh system.records .callable id →
      next.registry.targets id = system.registry.targets id)
    (held : ∀ running ∈ next.underway, ∀ name entry,
      running.stage.held? = some (name, entry) →
        running ∈ system.underway ∨ system.registry.get? .callable name = some entry) :
    next.Explained initial history last := by
  constructor
  · rw [deny]
    exact explained.serial
  · rw [records]
    exact explained.perm
  · exact explained.realTime
  · exact explained.anchored
  · rw [records]
    constructor
    · intro kind
      rw [current]
      exact explained.agree.current kind
    · intro id known
      rw [targets id known]
      exact explained.agree.targets id known
  · intro running member name entry holds
    rw [Registry.get?, current]
    rcases held running member name entry holds with old | found
    · exact explained.bound running old name entry holds
    · exact Or.inl found

/-- Whether a call holds a callable, or accessed it when it finished. -/
def Touches (system : System) (history : List Moment) (offered : EntryId) (name : Name)
    (entry : Callable) : Prop :=
  (∃ running ∈ system.underway, running.offered = offered ∧
    running.stage.held? = some (name, entry)) ∨ Accessed history offered name entry

theorem Touches.of_underway {later : List Moment} {offered : EntryId} {name : Name}
    {entry : Callable} (touches : system.Touches history offered name entry)
    (stays : ∀ running ∈ system.underway, running.stage.held? = some (name, entry) →
      running ∈ next.underway ∨ Accessed later running.offered name entry)
    (carries : Carries history later) : next.Touches later offered name entry := by
  rcases touches with ⟨running, member, rfl, held⟩ | accessed
  · rcases stays running member held with still | accessed
    · exact Or.inl ⟨running, still, rfl, held⟩
    · exact Or.inr accessed
  · exact Or.inr (accessed.carry carries)

theorem Orderly.known_lt {base : EntryId} (orderly : system.Orderly base) {kind : Kind}
    {id : EntryId} (known : Known base system.records kind id) : id < system.registry.fresh := by
  rcases known with old | ⟨record, member, rfl, -⟩
  · exact Nat.lt_of_lt_of_le old orderly.base_le
  · exact (orderly.range _ (List.mem_append_left _ (List.mem_map_of_mem member))).2

/-- When a call ends, the others stand where they stood. -/
theorem Ends.touches {running : Running} {others : List Running} {answer : Answer}
    {later : List Moment} (ends : system.Ends next running others answer)
    (carries : Carries history later)
    (accessed : ∀ name entry, running.stage.held? = some (name, entry) →
      Accessed later running.offered name entry)
    (offered : EntryId) (name : Name) (entry : Callable)
    (touches : system.Touches history offered name entry) :
    next.Touches later offered name entry := by
  refine touches.of_underway ?_ carries
  intro other present held
  rcases ends.eq_or_mem present with rfl | stays
  · exact Or.inr (accessed name entry held)
  · exact Or.inl stays

/-- A call that finishes has its place in the history. -/
theorem Explained.finish (explained : system.Explained initial history last)
    (wellFormed : initial.WellFormed) (orderly : system.Orderly initial.fresh)
    {running : Running} {others : List Running} {answer : Answer}
    (stepped : running.stage.step system.deny running.offered system.registry =
      (.finished answer, next.registry))
    (ends : system.Ends next running others answer) :
    ∃ later after, next.Explained initial later after ∧
      ∀ offered name entry, system.Touches history offered name entry →
        next.Touches later offered name entry := by
  have moved := Stage.step_moved (orderly.serves running ends.mem)
  rw [stepped] at moved
  dsimp only at moved
  generalize registry : next.registry = registryAfter at moved
  cases moved with
  | onward goes => cases goes
  | decided outcome free =>
      rw [← registry] at outcome
      obtain ⟨after, explainedNext⟩ := explained.append orderly ends outcome
      refine ⟨_, after, explainedNext, ends.touches (carries_append history _) ?_⟩
      intro name entry held
      rw [free] at held
      cases held
  | @accessed name entry _ left held accesses =>
      rcases explained.bound running ends.mem name entry held with found | lost
      · -- The callable is still bound, so the call goes to the end.
        have outcome : Outcome system.deny running.offered system.registry running.request answer
            next.registry := registry ▸ .accessed found accesses
        obtain ⟨after, explainedNext⟩ := explained.append orderly ends outcome
        refine ⟨_, after, explainedNext, ends.touches (carries_append history _) ?_⟩
        intro otherName otherEntry otherHeld
        rw [held] at otherHeld
        cases otherHeld
        refine ⟨_, List.mem_append_right _ List.mem_cons_self, rfl,
          accesses.not_isTableCall, ?_⟩
        exact (explained.agree.get? .callable name).trans found
      · -- The callable was removed meanwhile, so the call goes before the removal.
        obtain ⟨later, after, explainedNext, carries, accessed⟩ :=
          explained.insert wellFormed orderly ends held lost accesses registry
        refine ⟨later, after, explainedNext, ends.touches carries ?_⟩
        intro otherName otherEntry otherHeld
        rw [held] at otherHeld
        cases otherHeld
        exact accessed

theorem Explained.step (explained : system.Explained initial history last)
    (wellFormed : initial.WellFormed) (orderly : system.Orderly initial.fresh) (index : Nat) :
    ∃ later after, (system.step index).Explained initial later after ∧
      ∀ offered name entry, system.Touches history offered name entry →
        (system.step index).Touches later offered name entry := by
  have deny := system.deny_step index
  have same := carries_append history []
  rw [List.append_nil] at same
  cases system.step_moved index with
  | idle registry records underway waiting =>
      refine ⟨history, last, explained.keep deny records ?_ ?_ ?_, ?_⟩
      · intro kind
        rw [registry]
      · intro id known
        rw [registry]
      · intro running member name entry held
        exact Or.inl (underway ▸ member)
      · intro offered name entry touches
        refine touches.of_underway ?_ same
        intro running member held
        exact Or.inl (underway.symm ▸ member)
  | @began request registry records underway waiting =>
      refine ⟨history, last, explained.keep deny records ?_ ?_ ?_, ?_⟩
      · intro kind
        rw [registry, Request.current_prepare, Registry.current_reserve]
      · intro id known
        rw [registry]
        exact Request.targets_prepare_of_ne _ request _ (Nat.ne_of_lt (orderly.known_lt known))
      · intro running member name entry held
        rcases List.mem_cons.mp (underway.subset member) with rfl | old
        · rw [Running.start, Request.held?_start] at held
          cases held
        · exact Or.inl old
      · intro offered name entry touches
        refine touches.of_underway ?_ same
        intro running member held
        exact Or.inl (underway.symm.subset (List.mem_cons_of_mem _ member))
  | @onward running again others progress stepped goes request offered began records before
      underway waiting =>
      have member : running ∈ system.underway := before.symm.subset List.mem_cons_self
      obtain ⟨free, -, ⟨handler, registry⟩, found⟩ := orderly.went member stepped goes
      refine ⟨history, last, explained.keep deny records ?_ ?_ ?_, ?_⟩
      · intro kind
        rw [registry, Registry.current_retarget]
      · intro id known
        rw [registry]
        apply Registry.targets_retarget_of_ne
        rintro rfl
        exact orderly.unknown member .callable known
      · intro other present name entry held
        rcases List.mem_cons.mp (underway.subset present) with rfl | old
        · exact Or.inr (found name entry held)
        · exact Or.inl (before.symm.subset (List.mem_cons_of_mem _ old))
      · intro offered name entry touches
        refine touches.of_underway ?_ same
        intro other present held
        rcases List.mem_cons.mp (before.subset present) with rfl | old
        · rw [free] at held
          cases held
        · exact Or.inl (underway.symm.subset (List.mem_cons_of_mem _ old))
  | finished stepped records before underway waiting =>
      exact explained.finish wellFormed orderly stepped ⟨records, before, underway, deny⟩

theorem explained_start (registry : Registry) (deny : DenyList)
    (requests : List (List Request)) :
    (start registry deny requests).Explained registry [] registry where
  serial := .nil registry
  perm := by simp
  realTime := .nil
  anchored := .nil
  agree := ⟨fun _ => rfl, fun _ _ => rfl⟩
  bound := by simp

/-- Every run has a sequential history, in which a call that held a callable at
some time has accessed it when it finishes. -/
theorem exists_explained {registry : Registry} {requests : List (List Request)}
    (wellFormed : registry.WellFormed)
    (steady : ∀ request ∈ requests.flatten, request.IsSteady) (deny : DenyList)
    (schedule : List Nat) :
    ∃ history last,
      ((start registry deny requests).run schedule).Explained registry history last ∧
      ∀ first, first <+: schedule →
        ∀ running ∈ ((start registry deny requests).run first).underway, ∀ name entry,
          running.stage.held? = some (name, entry) →
            ((start registry deny requests).run schedule).Touches history running.offered name
              entry := by
  induction schedule using List.reverseRecOn with
  | nil =>
      refine ⟨[], registry, explained_start registry deny requests, ?_⟩
      intro first isFirst running member
      rw [List.prefix_nil.mp isFirst, run_nil, underway_start] at member
      cases member
  | append_singleton rest index inductionHypothesis =>
      obtain ⟨history, last, explained, touches⟩ := inductionHypothesis
      have orderly := (orderly_start wellFormed steady deny).run rest
      obtain ⟨later, after, explainedNext, touchesNext⟩ :=
        explained.step wellFormed orderly index
      refine ⟨later, after, ?_, ?_⟩
      · rw [run_append, run_cons, run_nil]
        exact explainedNext
      · intro first isFirst running member name entry held
        -- A call under way in the end holds what it holds; an earlier one holds it
        -- still or accessed it.
        rcases List.prefix_concat_iff.mp isFirst with rfl | isFirst
        · exact Or.inl ⟨running, member, rfl, held⟩
        · rw [run_append, run_cons, run_nil]
          exact touchesNext _ _ _ (touches first isFirst running member name entry held)

end System
end Interposition.Concurrent
