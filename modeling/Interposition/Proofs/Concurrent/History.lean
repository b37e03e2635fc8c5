import Interposition.Concurrent.System
import Interposition.Proofs.Concurrent.Frame
/-!
Sequential histories.

A history is a list of moments: finished calls, each with the registry before
it and after it.  It is `Serial` if the calls ran one after the other, each of
them undisturbed.  Two things can be done to a serial history.  A call may be
added at its end; and a call that only accesses the dispatch target of some
callable may be inserted just before a moment, if nothing from there on looks
at that target (`Serial.insert`).
-/

namespace Interposition.Concurrent

/-- A finished call with the registry before it and after it. -/
structure Moment where
  record : Record
  before : Registry
  after : Registry

/-- The moment in a registry with another dispatch target. -/
def Moment.retarget (id : EntryId) (handler : Handler) (moment : Moment) : Moment :=
  { moment with
    before := moment.before.retarget id handler
    after := moment.after.retarget id handler }

/-- Whether the call of a moment leaves a dispatch target alone. -/
def Moment.Quiet (id : EntryId) (moment : Moment) : Prop :=
  id ≠ moment.record.offered ∧
    (moment.record.request.IsTableCall ∨
      id ∉ EntryMap.ids (moment.before.current .callable).entries)

/-- Calls that ran one after the other. -/
inductive Serial (deny : DenyList) : Registry → List Moment → Registry → Prop where
  | nil (registry : Registry) : Serial deny registry [] registry
  | cons {moment : Moment} {rest : List Moment} {last : Registry}
      (outcome : Outcome deny moment.record.offered moment.before moment.record.request
        moment.record.answer moment.after)
      (serial : Serial deny moment.after rest last) :
      Serial deny moment.before (moment :: rest) last

/-- An identity that a table of a kind may hold: it is older than the given one,
or a call put its entry in. -/
def Known (base : EntryId) (records : List Record) (kind : Kind) (id : EntryId) : Prop :=
  id < base ∨ ∃ record ∈ records, record.offered = id ∧ record.answer.Adds kind

theorem Known.mono {base : EntryId} {records more : List Record} {kind : Kind} {id : EntryId}
    (known : Known base records kind id) (subset : ∀ record ∈ records, record ∈ more) :
    Known base more kind id :=
  known.imp_right fun ⟨record, member, added⟩ => ⟨record, subset record member, added⟩

theorem Known.of_perm_cons {base : EntryId} {record : Record} {records more : List Record}
    {kind : Kind} {id : EntryId} (known : Known base more kind id)
    (perm : more.Perm (record :: records)) :
    Known base records kind id ∨ (id = record.offered ∧ record.answer.Adds kind) := by
  rcases known with old | ⟨other, member, same, adds⟩
  · exact Or.inl (Or.inl old)
  · rcases List.mem_cons.mp (perm.subset member) with rfl | present
    · exact Or.inr ⟨same.symm, adds⟩
    · exact Or.inl (Or.inr ⟨other, present, same, adds⟩)

/-- A registry and the calls that run on it from there: the tables are sound, and
every call offers an identity of its own. -/
structure Tidy (registry : Registry) (history : List Moment) : Prop where
  sound : ∀ kind, EntryMap.Sound (registry.current kind).entries
  unused : ∀ moment ∈ history, ∀ kind,
    moment.record.offered ∉ EntryMap.ids (registry.current kind).entries
  distinct : (history.map (·.record.offered)).Nodup

theorem Tidy.next {deny : DenyList} {moment : Moment} {rest : List Moment}
    (tidy : Tidy moment.before (moment :: rest))
    (outcome : Outcome deny moment.record.offered moment.before moment.record.request
      moment.record.answer moment.after) : Tidy moment.after rest := by
  have distinct := tidy.distinct
  rw [List.map_cons, List.nodup_cons] at distinct
  constructor
  · exact outcome.sound_next tidy.sound (tidy.unused moment List.mem_cons_self)
  · intro later inRest kind came
    rcases outcome.ids_next came with old | ⟨offered, -⟩
    · exact tidy.unused later (List.mem_cons_of_mem moment inRest) kind old
    · exact distinct.1 (offered ▸ List.mem_map_of_mem inRest)
  · exact distinct.2

/-- What is in a table is not offered from then on. -/
theorem Tidy.ne_offered {registry : Registry} {history : List Moment}
    (tidy : Tidy registry history) {kind : Kind} {id : EntryId}
    (member : id ∈ EntryMap.ids (registry.current kind).entries) :
    ∀ moment ∈ history, id ≠ moment.record.offered := by
  rintro moment inHistory rfl
  exact tidy.unused moment inHistory kind member

namespace Serial

variable {deny : DenyList} {first middle last : Registry} {history early late : List Moment}

theorem append (left : Serial deny first early middle) (right : Serial deny middle late last) :
    Serial deny first (early ++ late) last := by
  induction left with
  | nil => exact right
  | cons outcome _ inductionHypothesis => exact .cons outcome (inductionHypothesis right)

theorem split (serial : Serial deny first (early ++ late) last) :
    ∃ middle, Serial deny first early middle ∧ Serial deny middle late last := by
  induction early generalizing first with
  | nil => exact ⟨first, .nil first, serial⟩
  | cons moment rest inductionHypothesis =>
      cases serial with
      | cons outcome serial =>
          obtain ⟨middle, left, right⟩ := inductionHypothesis serial
          exact ⟨middle, .cons outcome left, right⟩

/-- Only entries that calls put in come into a table. -/
theorem ids_last (serial : Serial deny first history last) {kind : Kind} {id : EntryId}
    (member : id ∈ EntryMap.ids (last.current kind).entries) :
    id ∈ EntryMap.ids (first.current kind).entries ∨
      ∃ moment ∈ history, moment.record.offered = id ∧ moment.record.answer.Adds kind := by
  induction serial with
  | nil => exact Or.inl member
  | @cons moment rest last outcome serial inductionHypothesis =>
      rcases inductionHypothesis member with old | ⟨later, inRest, added⟩
      · rcases outcome.ids_next old with older | ⟨rfl, adds⟩
        · exact Or.inl older
        · exact Or.inr ⟨moment, List.mem_cons_self, rfl, adds⟩
      · exact Or.inr ⟨later, List.mem_cons_of_mem moment inRest, added⟩

/-- What is in a table is known. -/
theorem known (serial : Serial deny first history last) (wellFormed : first.WellFormed)
    {kind : Kind} {id : EntryId}
    (member : id ∈ EntryMap.ids (last.current kind).entries) :
    Known first.fresh (history.map (·.record)) kind id := by
  rcases serial.ids_last member with old | ⟨moment, inHistory, added⟩
  · exact Or.inl (wellFormed.belowFresh kind id old)
  · exact Or.inr ⟨moment.record, List.mem_map_of_mem inHistory, added⟩

/-- What is in no table and is not offered stays out. -/
theorem absent (serial : Serial deny first history last) {kind : Kind} {id : EntryId}
    (out : id ∉ EntryMap.ids (first.current kind).entries)
    (unoffered : ∀ moment ∈ history, id ≠ moment.record.offered) :
    ∀ moment ∈ history, id ∉ EntryMap.ids (moment.before.current kind).entries := by
  induction serial with
  | nil => simp
  | @cons moment rest last outcome serial inductionHypothesis =>
      intro later member
      rcases List.mem_cons.mp member with rfl | inRest
      · exact out
      · apply inductionHypothesis _ _ later inRest
        · intro came
          rcases outcome.ids_next came with old | ⟨offered, -⟩
          · exact out old
          · exact unoffered moment List.mem_cons_self offered
        · exact fun other inRest => unoffered other (List.mem_cons_of_mem moment inRest)

/-- A target that all calls leave alone stays as it is. -/
theorem targets_last (serial : Serial deny first history last) {id : EntryId}
    (quiet : ∀ moment ∈ history, moment.Quiet id) : last.targets id = first.targets id := by
  induction serial with
  | nil => rfl
  | @cons moment rest last outcome serial inductionHypothesis =>
      rw [inductionHypothesis fun later inRest =>
        quiet later (List.mem_cons_of_mem moment inRest)]
      obtain ⟨apart, untouched⟩ := quiet moment List.mem_cons_self
      exact outcome.targets_next apart untouched

/-- Such a target may as well have been another one all the time. -/
theorem retarget (serial : Serial deny first history last) {id : EntryId}
    (quiet : ∀ moment ∈ history, moment.Quiet id) (handler : Handler) :
    Serial deny (first.retarget id handler) (history.map (·.retarget id handler))
      (last.retarget id handler) := by
  induction serial with
  | nil registry => exact .nil _
  | @cons moment rest last outcome serial inductionHypothesis =>
      obtain ⟨apart, untouched⟩ := quiet moment List.mem_cons_self
      exact @Serial.cons deny (moment.retarget id handler) _ _
        (outcome.retarget apart untouched handler)
        (inductionHypothesis fun later inRest =>
          quiet later (List.mem_cons_of_mem moment inRest))

/-- Insert a call that accesses the target of a callable before a moment from
which on nobody looks at that target. -/
theorem insert {lost : Moment} (serial : Serial deny first (early ++ lost :: late) last)
    {name : Name} {entry : Callable} (found : lost.before.get? .callable name = some entry)
    (quiet : ∀ moment ∈ lost :: late, moment.Quiet entry.id) (record : Record)
    {left : Handler}
    (accesses : record.request.Accesses name (last.targets entry.id) record.answer left) :
    Serial deny first
      (early ++ ⟨record, lost.before, lost.before.retarget entry.id left⟩ ::
        (lost :: late).map (·.retarget entry.id left))
      (last.retarget entry.id left) := by
  obtain ⟨middle, before, after⟩ := serial.split
  rw [after.targets_last quiet] at accesses
  cases after with
  | cons outcome rest =>
      apply before.append
      apply @Serial.cons deny ⟨record, lost.before, _⟩
      · exact .accessed found accesses
      · exact (Serial.cons outcome rest).retarget quiet left

/-- A tidy history may be split at any point. -/
theorem tidy_split (serial : Serial deny first (early ++ late) last)
    (tidy : Tidy first (early ++ late)) :
    ∃ middle, Serial deny first early middle ∧ Serial deny middle late last ∧
      Tidy middle late := by
  induction early generalizing first with
  | nil => exact ⟨first, .nil first, serial, tidy⟩
  | cons moment rest inductionHypothesis =>
      cases serial with
      | cons outcome serial =>
          obtain ⟨middle, left, right, tidyMiddle⟩ :=
            inductionHypothesis serial (tidy.next outcome)
          exact ⟨middle, .cons outcome left, right, tidyMiddle⟩

/-- A serial history around one of its moments. -/
theorem around {moment : Moment} (serial : Serial deny first (early ++ moment :: late) last)
    (tidy : Tidy first (early ++ moment :: late)) :
    Serial deny first early moment.before ∧
      Outcome deny moment.record.offered moment.before moment.record.request
        moment.record.answer moment.after ∧
      Serial deny moment.after late last ∧ Tidy moment.before (moment :: late) := by
  obtain ⟨middle, before, fromMoment, tidyMoment⟩ := serial.tidy_split tidy
  cases fromMoment with
  | cons outcome after => exact ⟨before, outcome, after, tidyMoment⟩

end Serial
end Interposition.Concurrent
