import Interposition.Proofs.Concurrent.Publication
import Interposition.Proofs.Concurrent.Pursuit
import Interposition.Proofs.Registry.Put
/-!
No entry is lost, doubled or brought back.

`System.places` lists where the entries of a table are: in the table, or handed
out by a finished call.  At any moment of any run these are the entries of the
start and those that calls put in since, each of them once
(`System.places_run`).  Predicates may remember what they were asked, also by
attempts that were lost; this does not touch the balance.
-/

namespace Interposition.Concurrent

/-- The entries of a kind that a finished call put into the table. -/
def Record.added (kind : Kind) (record : Record) : List (Entry kind) :=
  record.request.added kind record.offered record.answer

/-- Whether a finished call is an insertion that found its name taken. -/
def Record.isDuplicate (record : Record) : Bool :=
  match record.answer with
  | .written (.inserted (.error _)) => true
  | _ => false

theorem Record.added_of_isDuplicate {record : Record} (duplicate : record.isDuplicate = true)
    (kind : Kind) : record.added kind = [] := by
  unfold Record.isDuplicate at duplicate
  split at duplicate
  · rename_i refused
    rw [Record.added, refused]
    cases record.request <;> rfl
  · cases duplicate

theorem Record.offered_of_mem_added {record : Record} {kind : Kind} {entry : Entry kind}
    (member : entry ∈ record.added kind) : entry.id = record.offered := by
  have offered := Request.ids_added_sublist kind record.offered record.request record.answer
  exact List.mem_singleton.mp (offered.subset (List.mem_map_of_mem member))

/-- One exchange after others keeps the balance. -/
theorem perm_exchange {α : Type} {before after removed added handedOut start earlier : List α}
    (exchange : (after ++ removed).Perm (before ++ added))
    (places : (before ++ handedOut).Perm (start ++ earlier)) :
    (after ++ (removed ++ handedOut)).Perm (start ++ (added ++ earlier)) := by
  calc after ++ (removed ++ handedOut)
    _ = (after ++ removed) ++ handedOut := (List.append_assoc _ _ _).symm
    List.Perm _ ((before ++ added) ++ handedOut) := exchange.append_right _
    List.Perm _ ((added ++ before) ++ handedOut) := List.perm_append_comm.append_right _
    _ = added ++ (before ++ handedOut) := List.append_assoc _ _ _
    List.Perm _ (added ++ (start ++ earlier)) := places.append_left _
    List.Perm _ (start ++ (added ++ earlier)) := List.perm_append_comm_assoc _ _ _

namespace System

/-- Where the entries of a table are: in the table, or handed out. -/
def places (kind : Kind) (system : System) : List (Entry kind) :=
  (system.registry.current kind).toList ++
    system.records.flatMap (·.answer.handedOut kind)

/-- What every system keeps, whatever predicates remember: each call has an
identity of its own, calls stand where their requests can stand, and all entries
are accounted for. -/
structure Accounted (initial : Registry) (system : System) : Prop where
  started : initial.WellFormed
  wellFormed : system.registry.WellFormed
  numbered : system.Numbered initial.fresh
  pursues : ∀ running ∈ system.underway,
    running.stage.Pursues system.deny running.offered system.registry running.request
  places : ∀ kind, (system.places kind).Perm
    ((initial.current kind).toList ++ system.records.flatMap (·.added kind))

namespace Accounted

variable {initial : Registry} {system next : System}

theorem start (wellFormed : initial.WellFormed) (deny : DenyList)
    (requests : List (List Request)) :
    (System.start initial deny requests).Accounted initial where
  started := wellFormed
  wellFormed := wellFormed
  numbered := ⟨by simp [offers], Nat.le_refl _, by simp [offers]⟩
  pursues := by simp
  places kind := by
    rw [System.places, records_start]
    exact .refl _

/-- Whatever is in a table was there in the beginning or was put in by a call
that has finished. -/
theorem mem_or_added (accounted : system.Accounted initial) {kind : Kind} {id : EntryId}
    (member : id ∈ EntryMap.ids (system.registry.current kind).entries) :
    id < initial.fresh ∨ ∃ record ∈ system.records, ∃ entry ∈ record.added kind,
      entry.id = id ∧ record.offered = id := by
  obtain ⟨entry, inTable, rfl⟩ := List.mem_map.mp member
  rcases List.mem_append.mp
    ((accounted.places kind).subset (List.mem_append_left _ inTable)) with old | new
  · exact Or.inl (accounted.started.belowFresh kind entry.id (EntryMap.mem_ids_of_mem old))
  · obtain ⟨record, finished, added⟩ := List.mem_flatMap.mp new
    exact Or.inr ⟨record, finished, entry, added, rfl, (Record.offered_of_mem_added added).symm⟩

/-- What a call under way offers was put in by nobody. -/
theorem unused (accounted : system.Accounted initial) {running : Running}
    (member : running ∈ system.underway) (kind : Kind) :
    running.offered ∉ EntryMap.ids (system.registry.current kind).entries := by
  intro present
  rcases accounted.mem_or_added present with old | ⟨record, finished, -, -, -, same⟩
  · exact Nat.not_lt_of_le (accounted.numbered.range_of_underway member).1 old
  · exact accounted.numbered.offered_ne_of_record member finished same

theorem idle (accounted : system.Accounted initial) (registry : next.registry = system.registry)
    (records : next.records = system.records) (underway : next.underway = system.underway)
    (deny : next.deny = system.deny) : next.Accounted initial := by
  have offers : next.offers = system.offers := by
    rw [System.offers, System.offers, records, underway]
  constructor
  · exact accounted.started
  · rw [registry]
    exact accounted.wellFormed
  · exact accounted.numbered.keep (.of_eq offers) (congrArg Registry.fresh registry)
  · rw [underway, deny, registry]
    exact accounted.pursues
  · intro kind
    rw [System.places, registry, records]
    exact accounted.places kind

theorem begin (accounted : system.Accounted initial) {request : Request}
    (registry : next.registry =
      request.prepare system.registry.fresh system.registry.reserve.2)
    (records : next.records = system.records)
    (underway : next.underway.Perm
      (.start request system.registry system.clock :: system.underway))
    (deny : next.deny = system.deny) : next.Accounted initial := by
  have current (kind : Kind) : next.registry.current kind = system.registry.current kind := by
    rw [registry, Request.current_prepare, Registry.current_reserve]
  have fresh : next.registry.fresh = system.registry.fresh + 1 := by
    rw [registry, Request.fresh_prepare, Registry.fresh_reserve]
  constructor
  · exact accounted.started
  · exact accounted.wellFormed.of_current current (fresh ▸ Nat.le_succ _)
  · exact accounted.numbered.begin (Moved.offers_perm_of_began records underway) fresh
  · intro running member
    rw [deny]
    rcases List.mem_cons.mp (underway.subset member) with rfl | old
    · exact request.pursues_start system.deny system.registry.fresh _ _
    · exact (accounted.pursues running old).mono fun kind => Or.inl (current kind)
  · intro kind
    rw [System.places, current, records]
    exact accounted.places kind

theorem proceed (accounted : system.Accounted initial) {running again : Running}
    {others : List Running} {progress : Progress}
    (stepped : running.stage.step system.deny running.offered system.registry =
      (progress, next.registry))
    (goes : progress.stage? = some again.stage) (request : again.request = running.request)
    (offered : again.offered = running.offered) (records : next.records = system.records)
    (before : system.underway.Perm (running :: others))
    (underway : next.underway.Perm (again :: others)) (deny : next.deny = system.deny) :
    next.Accounted initial := by
  have member : running ∈ system.underway := before.symm.subset List.mem_cons_self
  have pursued := Stage.pursued (accounted.pursues running member)
  rw [stepped] at pursued
  obtain ⟨pursues, current, fresh⟩ := pursued.of_goes goes
  constructor
  · exact accounted.started
  · exact accounted.wellFormed.of_current current (Nat.le_of_eq fresh.symm)
  · exact accounted.numbered.keep
      (Moved.offers_perm_of_onward offered records before underway) fresh
  · intro other present
    rw [deny]
    rcases List.mem_cons.mp (underway.subset present) with rfl | old
    · rw [offered, request]
      exact pursues
    · exact (accounted.pursues other (before.symm.subset (List.mem_cons_of_mem _ old))).mono
        fun kind => Or.inl (current kind)
  · intro kind
    rw [System.places, current, records]
    exact accounted.places kind

theorem finish (accounted : system.Accounted initial) {running : Running}
    {others : List Running} {answer : Answer}
    (stepped : running.stage.step system.deny running.offered system.registry =
      (.finished answer, next.registry))
    (records : next.records.Perm (running.record answer system.clock :: system.records))
    (before : system.underway.Perm (running :: others)) (underway : next.underway.Perm others)
    (deny : next.deny = system.deny) : next.Accounted initial := by
  have member : running ∈ system.underway := before.symm.subset List.mem_cons_self
  have below := (accounted.numbered.range_of_underway member).2
  have pursued := Stage.pursued (accounted.pursues running member)
  rw [stepped] at pursued
  constructor
  · exact accounted.started
  · exact pursued.wellFormed accounted.wellFormed below (accounted.unused member)
  · exact accounted.numbered.keep (Moved.offers_perm_of_finished records before underway)
      pursued.fresh
  · intro other present
    rw [deny]
    have was : other ∈ system.underway :=
      before.symm.subset (List.mem_cons_of_mem _ (underway.subset present))
    exact (accounted.pursues other was).mono pursued.newer
  · -- The last step of a call exchanges entries of the table for entries handed out.
    intro kind
    have handedOut := records.flatMap_right (·.answer.handedOut kind)
    have added := records.flatMap_right (·.added kind)
    have exchanged := perm_exchange (pursued.exchange accounted.wellFormed kind)
      (accounted.places kind)
    exact ((handedOut.append_left _).trans exchanged).trans (added.symm.append_left _)

theorem step (accounted : system.Accounted initial) (index : Nat) :
    (system.step index).Accounted initial := by
  have deny := system.deny_step index
  cases system.step_moved index with
  | idle registry records underway waiting =>
      exact accounted.idle registry records underway deny
  | began registry records underway waiting =>
      exact accounted.begin registry records underway deny
  | onward stepped goes request offered began records before underway waiting =>
      exact accounted.proceed stepped goes request offered records before underway deny
  | finished stepped records before underway waiting =>
      exact accounted.finish stepped records before underway deny

theorem run (accounted : system.Accounted initial) (schedule : List Nat) :
    (system.run schedule).Accounted initial := by
  induction schedule generalizing system with
  | nil => exact accounted
  | cons index rest inductionHypothesis => exact inductionHypothesis (accounted.step index)

/-- No entry has two places. -/
theorem nodup_places (accounted : system.Accounted initial) (kind : Kind) :
    ((system.places kind).map (·.id)).Nodup := by
  have offered : ((system.records.flatMap (·.added kind)).map (·.id)).Sublist
      (system.records.map (·.offered)) := by
    generalize system.records = records
    induction records with
    | nil => exact .refl _
    | cons record rest inductionHypothesis =>
        rw [List.flatMap_cons, List.map_append, List.map_cons]
        exact (Request.ids_added_sublist kind _ _ _).append inductionHypothesis
  have finished := (List.nodup_append.mp accounted.numbered.distinct).1
  apply ((accounted.places kind).map (·.id)).symm.nodup
  rw [List.map_append]
  refine List.nodup_append.mpr
    ⟨(accounted.started.sound kind).distinctIds, offered.nodup finished, ?_⟩
  rintro old inStart new isNew rfl
  have below := accounted.started.belowFresh kind old inStart
  have least := (accounted.numbered.range old (List.mem_append_left _ (offered.subset isNew))).1
  exact Nat.not_lt_of_le least below

end Accounted

/-- Calls that finished in a part of a run have finished in the whole run. -/
theorem mem_records_of_earlier {system : System} {first schedule : List Nat}
    (earlier : first <+: schedule) {record : Record}
    (member : record ∈ (system.run first).records) : record ∈ (system.run schedule).records := by
  obtain ⟨rest, rfl⟩ := earlier
  rw [run_append]
  obtain ⟨later, records, -⟩ := (system.run first).records_run rest
  exact records.symm.subset (List.mem_append_left _ member)

section Run

variable {registry : Registry} {requests : List (List Request)}

/-- Whatever threads do, the registry stays well formed. -/
theorem wellFormed_run (wellFormed : registry.WellFormed) (deny : DenyList)
    (schedule : List Nat) :
    ((start registry deny requests).run schedule).registry.WellFormed :=
  ((Accounted.start wellFormed deny requests).run schedule).wellFormed

/-- At any moment, the entries of the start and those that calls put into a table
are in the table or were handed out, each of them once.  What was handed out does
not come back, and what an insertion offered under a taken name is in the table at
no time. -/
theorem places_run (wellFormed : registry.WellFormed) (deny : DenyList) (schedule : List Nat)
    (kind : Kind) :
    let system := start registry deny requests
    ((system.run schedule).places kind).Perm
      ((registry.current kind).toList ++ (system.run schedule).records.flatMap (·.added kind)) ∧
    (((system.run schedule).places kind).map (·.id)).Nodup ∧
    (∀ first, first <+: schedule → ∀ record ∈ (system.run first).records,
      ∀ entry ∈ record.answer.handedOut kind,
        entry.id ∉ EntryMap.ids ((system.run schedule).registry.current kind).entries) ∧
    ∀ record ∈ (system.run schedule).records, record.isDuplicate = true →
      ∀ first, first <+: schedule →
        record.offered ∉ EntryMap.ids ((system.run first).registry.current kind).entries := by
  intro system
  have accounted (moment : List Nat) : (system.run moment).Accounted registry :=
    (Accounted.start wellFormed deny requests).run moment
  refine ⟨(accounted schedule).places kind, (accounted schedule).nodup_places kind, ?_, ?_⟩
  · intro first earlier record finished entry handedOut present
    have apart := (accounted schedule).nodup_places kind
    rw [places, List.map_append] at apart
    have out : entry ∈ (system.run schedule).records.flatMap (·.answer.handedOut kind) :=
      List.mem_flatMap.mpr ⟨record, mem_records_of_earlier earlier finished, handedOut⟩
    exact (List.nodup_append.mp apart).2.2 entry.id present entry.id
      (List.mem_map_of_mem out) rfl
  · intro record finished duplicate first earlier present
    have inOffers : record.offered ∈ (system.run schedule).offers :=
      List.mem_append_left _ (List.mem_map_of_mem finished)
    rcases (accounted first).mem_or_added present with
      old | ⟨other, otherFinished, entry, added, -, same⟩
    · exact Nat.not_lt_of_le ((accounted schedule).numbered.range _ inOffers).1 old
    · -- Identities are offered once, so the call that put the entry in is the refused one.
      have once := (List.nodup_append.mp (accounted schedule).numbered.distinct).1
      have equal := List.inj_on_of_nodup_map once
        (mem_records_of_earlier earlier otherFinished) finished same
      rw [equal, Record.added_of_isDuplicate duplicate] at added
      cases added

/-- A constant that two evictions, a removal and a replacement are after at the same
time.  The replacement wins; the removal then takes out the new constant, and the
evictions, one of which remembers what it was asked, find nothing more.  In between
a definition finds the name taken. -/
theorem places_run_of_race :
    let name : Name := ⟨[0x63]⟩
    let owner : Owner := ⟨0, "first"⟩
    let initial := Registry.empty.put (.constant name (.int 1) ⟨0⟩ owner)
    let requests : List (List Request) :=
      [[.retain .constant fun seen _ => !seen.isEmpty], [.remove .constant name],
        [.replace (.constant name (.int 2) ⟨0⟩ ⟨1, "second"⟩)],
        [.define (.constant name (.int 3) ⟨0⟩ owner)], [.evict .constant owner]]
    let schedule := [0, 1, 2, 4, 0, 1, 2, 4, 2, 0, 1, 4, 3, 3, 1, 1, 0, 4]
    let final := (start initial .empty requests).run schedule
    initial.WellFormed ∧ final.isFinished ∧
      final.records.map (·.losses) = [1, 1, 0, 0, 1] ∧
      final.records.map (fun record => (record.answer.handedOut .constant).map (·.id)) =
        [[], [3], [0], [], []] ∧
      (final.places .constant).Perm
        ((initial.current .constant).toList ++ final.records.flatMap (·.added .constant)) ∧
      ((final.places .constant).map (·.id)).Nodup ∧
      0 ∉ EntryMap.ids (final.registry.current .constant).entries ∧
      ∃ record ∈ final.records, record.isDuplicate = true ∧ record.offered = 5 ∧
        ∀ first, first <+: schedule → 5 ∉
          EntryMap.ids (((start initial .empty requests).run first).registry.current
            .constant).entries := by
  intro name owner initial requests schedule
  have wellFormed : initial.WellFormed := Registry.wellFormed_empty.put _
  obtain ⟨places, once, gone, never⟩ :=
    @places_run initial requests wellFormed .empty schedule .constant
  have handedOut : ∃ record ∈ ((start initial .empty requests).run schedule).records,
      ∃ entry ∈ record.answer.handedOut .constant, entry.id = 0 := by decide +kernel
  have duplicate : ∃ record ∈ ((start initial .empty requests).run schedule).records,
      record.isDuplicate = true ∧ record.offered = 5 := by decide +kernel
  obtain ⟨displacing, finished, entry, displaced, first⟩ := handedOut
  obtain ⟨refused, inRecords, isDuplicate, offered⟩ := duplicate
  refine ⟨wellFormed, by decide +kernel, by decide +kernel, by decide +kernel, places, once, ?_,
    refused, inRecords, isDuplicate, offered, ?_⟩
  · rw [← first]
    exact gone schedule (List.prefix_refl _) displacing finished entry displaced
  · rw [← offered]
    exact never refused inRecords isDuplicate

end Run

end System
end Interposition.Concurrent
