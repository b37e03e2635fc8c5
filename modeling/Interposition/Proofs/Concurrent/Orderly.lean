import Interposition.Proofs.Concurrent.History
import Interposition.Proofs.Concurrent.Moves
/-!
What every system keeps at all times.

`System.Orderly` collects it.  Every call has an identity of its own to offer,
every call under way stands where its request can stand, whatever is in a table
was there in the beginning or was put in by a call that has finished, and so was
whatever a call under way holds.  `Orderly.run` is the induction over schedules.
-/

namespace Interposition.Concurrent
namespace System

/-- The identities that calls offer or offered. -/
def offers (system : System) : List EntryId :=
  system.records.map (·.offered) ++ system.underway.map (·.offered)

/-- All calls: those that wait, those under way and those finished. -/
def requests (system : System) : List Request :=
  system.waiting ++ (system.underway.map (·.request) ++ system.records.map (·.request))

/-- Every call has an identity of its own to offer, none of them older than the
given one. -/
structure Numbered (base : EntryId) (system : System) : Prop where
  distinct : system.offers.Nodup
  base_le : base ≤ system.registry.fresh
  range : ∀ id ∈ system.offers, base ≤ id ∧ id < system.registry.fresh

structure Orderly (base : EntryId) (system : System) : Prop where
  wellFormed : system.registry.WellFormed
  steady : ∀ request ∈ system.requests, request.IsSteady
  distinct : system.offers.Nodup
  base_le : base ≤ system.registry.fresh
  range : ∀ id ∈ system.offers, base ≤ id ∧ id < system.registry.fresh
  past : ∀ record ∈ system.records, record.began ≤ record.ended ∧ record.ended < system.clock
  begun : ∀ running ∈ system.underway, running.began < system.clock
  serves : ∀ running ∈ system.underway,
    running.stage.Serves system.deny running.offered system.registry running.request
  known : ∀ kind, ∀ id ∈ EntryMap.ids (system.registry.current kind).entries,
    Known base system.records kind id
  held : ∀ running ∈ system.underway, ∀ name entry,
    running.stage.held? = some (name, entry) → Known base system.records .callable entry.id

variable {base : EntryId} {system next : System}

/-- Steps move calls on, and lose none. -/
theorem Moved.requests_perm (moved : system.Moved next) :
    next.requests.Perm system.requests := by
  cases moved with
  | idle registry records underway waiting =>
      rw [requests, requests, records, underway, waiting]
  | @began request registry records underway waiting =>
      rw [requests, requests, records]
      have started := (underway.map (·.request)).append_right
        (system.records.map (·.request))
      apply (started.append_left next.waiting).trans
      exact List.perm_middle.trans (waiting.symm.append_right _)
  | onward stepped goes request offered began records before underway waiting =>
      have first := before.map (·.request)
      have second := underway.map (·.request)
      rw [List.map_cons, request] at second
      rw [List.map_cons] at first
      rw [requests, requests, records, waiting]
      exact ((second.trans first.symm).append_right _).append_left _
  | finished stepped records before underway waiting =>
      have first := (before.map (·.request)).append_right (system.records.map (·.request))
      have second := (underway.map (·.request)).append (records.map (·.request))
      rw [requests, requests, waiting]
      exact (second.trans (List.perm_middle.trans first.symm)).append_left _

theorem Moved.offers_perm_of_began {request : Request} (records : next.records = system.records)
    (underway : next.underway.Perm
      (.start request system.registry system.clock :: system.underway)) :
    next.offers.Perm (system.registry.fresh :: system.offers) := by
  have started := (underway.map (·.offered)).append_left (system.records.map (·.offered))
  rw [System.offers, System.offers, records]
  exact started.trans List.perm_middle

theorem Moved.offers_perm_of_onward {running again : Running} {others : List Running}
    (offered : again.offered = running.offered) (records : next.records = system.records)
    (before : system.underway.Perm (running :: others))
    (underway : next.underway.Perm (again :: others)) : next.offers.Perm system.offers := by
  have first := (before.map (·.offered)).append_left (system.records.map (·.offered))
  have second := (underway.map (·.offered)).append_left (system.records.map (·.offered))
  rw [List.map_cons, offered] at second
  rw [System.offers, System.offers, records]
  exact second.trans first.symm

theorem Moved.offers_perm_of_finished {running : Running} {others : List Running}
    {answer : Answer}
    (records : next.records.Perm (running.record answer system.clock :: system.records))
    (before : system.underway.Perm (running :: others)) (underway : next.underway.Perm others) :
    next.offers.Perm system.offers := by
  have first := (before.map (·.offered)).append_left (system.records.map (·.offered))
  have second := (records.map (·.offered)).append (underway.map (·.offered))
  exact second.trans (List.perm_middle.symm.trans first.symm)

/-- Steps that begin no call. -/
theorem Numbered.keep (numbered : system.Numbered base) (offers : next.offers.Perm system.offers)
    (fresh : next.registry.fresh = system.registry.fresh) : next.Numbered base where
  distinct := offers.symm.nodup numbered.distinct
  base_le := by
    rw [fresh]
    exact numbered.base_le
  range id member := by
    rw [fresh]
    exact numbered.range id (offers.subset member)

/-- Steps that begin a call. -/
theorem Numbered.begin (numbered : system.Numbered base)
    (offers : next.offers.Perm (system.registry.fresh :: system.offers))
    (fresh : next.registry.fresh = system.registry.fresh + 1) : next.Numbered base where
  distinct := by
    refine offers.symm.nodup (List.nodup_cons.mpr ⟨?_, numbered.distinct⟩)
    exact fun member => Nat.lt_irrefl _ (numbered.range _ member).2
  base_le := by
    rw [fresh]
    exact Nat.le_succ_of_le numbered.base_le
  range id member := by
    rw [fresh]
    rcases List.mem_cons.mp (offers.subset member) with rfl | old
    · exact ⟨numbered.base_le, Nat.lt_succ_self _⟩
    · obtain ⟨least, below⟩ := numbered.range id old
      exact ⟨least, Nat.lt_succ_of_lt below⟩

theorem Numbered.range_of_underway (numbered : system.Numbered base) {running : Running}
    (member : running ∈ system.underway) :
    base ≤ running.offered ∧ running.offered < system.registry.fresh :=
  numbered.range _ (List.mem_append_right _ (List.mem_map_of_mem member))

/-- What a call under way offers was offered by no finished call. -/
theorem Numbered.offered_ne_of_record (numbered : system.Numbered base) {running : Running}
    (member : running ∈ system.underway) {record : Record} (finished : record ∈ system.records) :
    record.offered ≠ running.offered :=
  (List.nodup_append.mp numbered.distinct).2.2 record.offered (List.mem_map_of_mem finished)
    running.offered (List.mem_map_of_mem member)

theorem Orderly.numbered (orderly : system.Orderly base) : system.Numbered base :=
  ⟨orderly.distinct, orderly.base_le, orderly.range⟩

/-- What a call under way offers was put in by nobody. -/
theorem Orderly.unknown (orderly : system.Orderly base) {running : Running}
    (member : running ∈ system.underway) (kind : Kind) :
    ¬Known base system.records kind running.offered := by
  rintro (old | ⟨record, finished, same, -⟩)
  · exact Nat.not_lt_of_le (orderly.numbered.range_of_underway member).1 old
  · exact orderly.numbered.offered_ne_of_record member finished same

theorem Orderly.unused (orderly : system.Orderly base) {running : Running}
    (member : running ∈ system.underway) (kind : Kind) :
    running.offered ∉ EntryMap.ids (system.registry.current kind).entries :=
  fun present => orderly.unknown member kind (orderly.known kind _ present)

theorem Orderly.offered_ne (orderly : system.Orderly base) {running other : Running}
    {others : List Running} (before : system.underway.Perm (running :: others))
    (member : other ∈ others) : other.offered ≠ running.offered := by
  have distinct := (before.map (·.offered)).nodup (List.nodup_append.mp orderly.distinct).2.1
  rw [List.map_cons, List.nodup_cons] at distinct
  intro same
  exact distinct.1 (same ▸ List.mem_map_of_mem member)

/-- What the end of a call does to a registry. -/
structure Settled (system : System) (running : Running) (answer : Answer)
    (next : Registry) : Prop where
  wellFormed : next.WellFormed
  fresh : next.fresh = system.registry.fresh
  newer : ∀ kind, next.current kind = system.registry.current kind ∨
    (system.registry.current kind).version < (next.current kind).version
  ids : ∀ kind, ∀ id ∈ EntryMap.ids (next.current kind).entries,
    id ∈ EntryMap.ids (system.registry.current kind).entries ∨
      (id = running.offered ∧ answer.Adds kind)
  targets : ∀ other ∈ system.underway, other.offered ≠ running.offered →
    next.targets other.offered = system.registry.targets other.offered

theorem Orderly.settled (orderly : system.Orderly base) {running : Running} {answer : Answer}
    {registry : Registry} (member : running ∈ system.underway)
    (moved : running.stage.Moved system.deny running.offered system.registry running.request
      (.finished answer) registry) :
    Settled system running answer registry := by
  cases moved with
  | onward goes => cases goes
  | decided outcome free =>
      have range := orderly.numbered.range_of_underway member
      exact
        { wellFormed := outcome.wellFormed_next orderly.wellFormed range.2
            (orderly.unused member)
          fresh := outcome.fresh_next
          newer := fun kind => (outcome.version kind).imp_right fun next => by omega
          ids := fun kind id present => outcome.ids_next present
          targets := fun other inUnderway different =>
            outcome.targets_next different (Or.inr (orderly.unused inUnderway .callable)) }
  | @accessed name entry _ left held accesses =>
      have isKnown := orderly.held running member name entry held
      refine
        { wellFormed := orderly.wellFormed.retarget entry.id left
          fresh := rfl
          newer := fun kind => Or.inl (Registry.current_retarget _ _ _ kind)
          ids := ?_
          targets := ?_ }
      · intro kind id present
        rw [Registry.current_retarget] at present
        exact Or.inl present
      · intro other inUnderway different
        apply Registry.targets_retarget_of_ne
        intro same
        exact orderly.unknown inUnderway .callable (same ▸ isKnown)

theorem Orderly.finish (orderly : system.Orderly base) {running : Running}
    {others : List Running} {answer : Answer}
    (stepped : running.stage.step system.deny running.offered system.registry =
      (.finished answer, next.registry))
    (records : next.records.Perm (running.record answer system.clock :: system.records))
    (before : system.underway.Perm (running :: others)) (underway : next.underway.Perm others)
    (waiting : next.waiting = system.waiting) (deny : next.deny = system.deny)
    (clock : next.clock = system.clock + 1) : next.Orderly base := by
  have member : running ∈ system.underway := before.symm.subset List.mem_cons_self
  have inUnderway : ∀ other ∈ next.underway, other ∈ others ∧ other ∈ system.underway :=
    fun other present =>
      ⟨underway.subset present,
        before.symm.subset (List.mem_cons_of_mem _ (underway.subset present))⟩
  have moved := Stage.step_moved (orderly.serves running member)
  rw [stepped] at moved
  have settled := orderly.settled member moved
  have numbered := orderly.numbered.keep
    (Moved.offers_perm_of_finished records before underway) settled.fresh
  have more : ∀ record ∈ system.records, record ∈ next.records :=
    fun record present => records.symm.subset (List.mem_cons_of_mem _ present)
  have requests := (Moved.finished stepped records before underway waiting).requests_perm
  exact
    { wellFormed := settled.wellFormed
      steady := fun request present => orderly.steady request (requests.subset present)
      distinct := numbered.distinct
      base_le := numbered.base_le
      range := numbered.range
      past := by
        intro record present
        rcases List.mem_cons.mp (records.subset present) with rfl | old
        · have begun := orderly.begun running member
          exact ⟨Nat.le_of_lt begun, by rw [clock]; exact Nat.lt_succ_self _⟩
        · have past := orderly.past record old
          omega
      begun := by
        intro other present
        have begun := orderly.begun other (inUnderway other present).2
        omega
      serves := by
        intro other present
        obtain ⟨inOthers, wasUnderway⟩ := inUnderway other present
        rw [deny]
        exact (orderly.serves other wasUnderway).mono settled.newer
          (settled.targets other wasUnderway (orderly.offered_ne before inOthers))
      known := by
        intro kind id present
        rcases settled.ids kind id present with old | ⟨rfl, adds⟩
        · exact (orderly.known kind id old).mono more
        · exact Or.inr ⟨running.record answer system.clock,
            records.symm.subset List.mem_cons_self, rfl, adds⟩
      held := fun other present name entry found =>
        (orderly.held other (inUnderway other present).2 name entry found).mono more }

theorem Orderly.idle (orderly : system.Orderly base) (registry : next.registry = system.registry)
    (records : next.records = system.records) (underway : next.underway = system.underway)
    (waiting : next.waiting = system.waiting) (deny : next.deny = system.deny)
    (clock : next.clock = system.clock + 1) : next.Orderly base := by
  have requests : next.requests = system.requests := by
    rw [System.requests, System.requests, records, underway, waiting]
  have offers : next.offers = system.offers := by
    rw [System.offers, System.offers, records, underway]
  constructor
  · rw [registry]
    exact orderly.wellFormed
  · rw [requests]
    exact orderly.steady
  · rw [offers]
    exact orderly.distinct
  · rw [registry]
    exact orderly.base_le
  · rw [offers, registry]
    exact orderly.range
  · intro record member
    have past := orderly.past record (records ▸ member)
    omega
  · intro running member
    have begun := orderly.begun running (underway ▸ member)
    omega
  · rw [underway, deny, registry]
    exact orderly.serves
  · rw [registry, records]
    exact orderly.known
  · rw [underway, records]
    exact orderly.held

theorem Orderly.begin (orderly : system.Orderly base) {request : Request}
    (registry : next.registry =
      request.prepare system.registry.fresh system.registry.reserve.2)
    (records : next.records = system.records)
    (underway : next.underway.Perm
      (.start request system.registry system.clock :: system.underway))
    (waiting : system.waiting.Perm (request :: next.waiting)) (deny : next.deny = system.deny)
    (clock : next.clock = system.clock + 1) : next.Orderly base := by
  have requests := (Moved.began registry records underway waiting).requests_perm
  have steady : request.IsSteady :=
    orderly.steady request (List.mem_append_left _ (waiting.symm.subset List.mem_cons_self))
  have current : ∀ kind, next.registry.current kind = system.registry.current kind := by
    intro kind
    rw [registry, Request.current_prepare, Registry.current_reserve]
  have fresh : next.registry.fresh = system.registry.fresh + 1 := by
    rw [registry, Request.fresh_prepare, Registry.fresh_reserve]
  have numbered := orderly.numbered.begin (Moved.offers_perm_of_began records underway) fresh
  constructor
  · exact orderly.wellFormed.of_current current (fresh ▸ Nat.le_succ _)
  · exact fun other member => orderly.steady other (requests.subset member)
  · exact numbered.distinct
  · exact numbered.base_le
  · exact numbered.range
  · intro record member
    have past := orderly.past record (records ▸ member)
    omega
  · intro running member
    rw [clock]
    rcases List.mem_cons.mp (underway.subset member) with rfl | old
    · exact Nat.lt_succ_self _
    · exact Nat.lt_succ_of_lt (orderly.begun running old)
  · intro running member
    rw [deny, registry]
    rcases List.mem_cons.mp (underway.subset member) with rfl | old
    · exact request.serves_start steady system.deny system.registry.fresh _
    · have below := (orderly.numbered.range_of_underway old).2
      refine (orderly.serves running old).mono (fun kind => Or.inl ?_) ?_
      · rw [Request.current_prepare, Registry.current_reserve]
      · exact Request.targets_prepare_of_ne _ request _ (Nat.ne_of_lt below)
  · intro kind id member
    rw [current] at member
    rw [records]
    exact orderly.known kind id member
  · intro running member name entry found
    rw [records]
    rcases List.mem_cons.mp (underway.subset member) with rfl | old
    · rw [Running.start, Request.held?_start] at found
      cases found
    · exact orderly.held running old name entry found

/-- What a call that goes on does to the registry, and what it holds then. -/
theorem Orderly.went (orderly : system.Orderly base) {running : Running} {progress : Progress}
    {after : Stage} {registry : Registry} (member : running ∈ system.underway)
    (stepped : running.stage.step system.deny running.offered system.registry =
      (progress, registry)) (goes : progress.stage? = some after) :
    running.stage.held? = none ∧
      after.Serves system.deny running.offered registry running.request ∧
      (∃ handler, registry = system.registry.retarget running.offered handler) ∧
      ∀ name entry, after.held? = some (name, entry) →
        system.registry.get? .callable name = some entry := by
  have moved := Stage.step_moved (orderly.serves running member)
  rw [stepped] at moved
  dsimp only at moved
  cases moved with
  | onward goesOn free serves unchanged held =>
      rw [goes] at goesOn
      cases goesOn
      exact ⟨free, serves, unchanged, held⟩
  | decided => cases goes
  | accessed => cases goes

theorem Orderly.proceed (orderly : system.Orderly base) {running again : Running}
    {others : List Running} {progress : Progress}
    (stepped : running.stage.step system.deny running.offered system.registry =
      (progress, next.registry))
    (goes : progress.stage? = some again.stage) (request : again.request = running.request)
    (offered : again.offered = running.offered) (began : again.began = running.began)
    (records : next.records = system.records)
    (before : system.underway.Perm (running :: others))
    (underway : next.underway.Perm (again :: others)) (waiting : next.waiting = system.waiting)
    (deny : next.deny = system.deny) (clock : next.clock = system.clock + 1) :
    next.Orderly base := by
  have member : running ∈ system.underway := before.symm.subset List.mem_cons_self
  have requests := (Moved.onward stepped goes request offered began records before underway
    waiting).requests_perm
  obtain ⟨-, serves, ⟨handler, registry⟩, held⟩ := orderly.went member stepped goes
  have current : ∀ kind, next.registry.current kind = system.registry.current kind := by
    intro kind
    rw [registry, Registry.current_retarget]
  have fresh : next.registry.fresh = system.registry.fresh := by
    rw [registry, Registry.fresh_retarget]
  have numbered := orderly.numbered.keep
    (Moved.offers_perm_of_onward offered records before underway) fresh
  constructor
  · exact orderly.wellFormed.of_current current (Nat.le_of_eq fresh.symm)
  · exact fun other member => orderly.steady other (requests.subset member)
  · exact numbered.distinct
  · exact numbered.base_le
  · exact numbered.range
  · intro record member
    have past := orderly.past record (records ▸ member)
    omega
  · intro other member
    rw [clock]
    rcases List.mem_cons.mp (underway.subset member) with rfl | old
    · rw [began]
      exact Nat.lt_succ_of_lt (orderly.begun running ‹_›)
    · exact Nat.lt_succ_of_lt
        (orderly.begun other (before.symm.subset (List.mem_cons_of_mem _ old)))
  · intro other member
    rw [deny]
    rcases List.mem_cons.mp (underway.subset member) with rfl | old
    · rw [offered, request]
      exact serves
    · refine (orderly.serves other (before.symm.subset (List.mem_cons_of_mem _ old))).mono
        (fun kind => Or.inl (current kind)) ?_
      rw [registry]
      exact Registry.targets_retarget_of_ne _ _ _ (orderly.offered_ne before old)
  · intro kind id member
    rw [current] at member
    rw [records]
    exact orderly.known kind id member
  · intro other member name entry found
    rw [records]
    rcases List.mem_cons.mp (underway.subset member) with rfl | old
    · exact orderly.known .callable entry.id (mem_ids_of_get? (held name entry found))
    · exact orderly.held other (before.symm.subset (List.mem_cons_of_mem _ old)) name entry
        found

theorem Orderly.step (orderly : system.Orderly base) (index : Nat) :
    (system.step index).Orderly base := by
  have deny := system.deny_step index
  have clock := system.clock_step index
  cases system.step_moved index with
  | idle registry records underway waiting =>
      exact orderly.idle registry records underway waiting deny clock
  | began registry records underway waiting =>
      exact orderly.begin registry records underway waiting deny clock
  | onward stepped goes request offered began records before underway waiting =>
      exact orderly.proceed stepped goes request offered began records before underway waiting
        deny clock
  | finished stepped records before underway waiting =>
      exact orderly.finish stepped records before underway waiting deny clock

theorem Orderly.run (orderly : system.Orderly base) (schedule : List Nat) :
    (system.run schedule).Orderly base := by
  induction schedule generalizing system with
  | nil => exact orderly
  | cons index rest inductionHypothesis => exact inductionHypothesis (orderly.step index)

section Start

variable {registry : Registry} {deny : DenyList} {requests : List (List Request)}

@[simp] theorem records_start : (start registry deny requests).records = [] := by
  simp [start, records, Thread.ofRequests]

@[simp] theorem underway_start : (start registry deny requests).underway = [] := by
  simp [start, underway, Thread.ofRequests]

@[simp] theorem waiting_start :
    (start registry deny requests).waiting = requests.flatten := by
  simp [start, waiting, Thread.ofRequests, List.flatMap_map, List.flatMap_id']

theorem orderly_start (wellFormed : registry.WellFormed)
    (steady : ∀ request ∈ requests.flatten, request.IsSteady) (deny : DenyList) :
    (start registry deny requests).Orderly registry.fresh where
  wellFormed := wellFormed
  steady := by simpa [System.requests] using steady
  distinct := by simp [offers]
  base_le := Nat.le_refl _
  range := by simp [offers]
  past := by simp
  begun := by simp
  serves := by simp
  known kind id member := Or.inl (wellFormed.belowFresh kind id member)
  held := by simp

end Start

end System
end Interposition.Concurrent
