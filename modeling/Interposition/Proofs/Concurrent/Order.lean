import Interposition.Proofs.Concurrent.Custody
import Interposition.Proofs.Hook.Denial
import Interposition.Proofs.Operation.Isolation
/-!
What a table looks like.

Whatever threads do, the names of a table are distinct, a lookup finds what a walk over
the table passes, and the walk passes the entries in the order in which they were
published.  A call publishes at most one snapshot, with its last atomic step: what
stays keeps its order, and what the call put in stands last (`Record.Publishes`).
`System.Precedes` is the order of these steps.  A takeover and a batch of hooks are the
calls that a thread makes one after the other (`Request.takeover`, `Request.batch`).
-/

namespace Interposition

/-- Whether the names, the entries, the size and the lookups of a snapshot agree. -/
structure Snapshot.Represents {kind : Kind} (snapshot : Snapshot kind) : Prop where
  distinct : snapshot.names.Nodup
  /-- Every entry stands under its own name. -/
  keys : ∀ pair ∈ snapshot.entries.pairs, pair.1 = pair.2.name
  names : snapshot.names = snapshot.toList.map (·.name)
  size : snapshot.size = snapshot.toList.length
  /-- A lookup answers the entry that has the name byte for byte, and nothing else. -/
  get? : ∀ name entry,
    snapshot.get? name = some entry ↔ entry ∈ snapshot.toList ∧ entry.name.bytes = name.bytes
  contains : ∀ name, snapshot.contains name = true ↔ name ∈ snapshot.names

theorem Name.eq_of_bytes_eq {first second : Name} (same : first.bytes = second.bytes) :
    first = second := by
  cases first
  cases second
  exact congrArg mk same

theorem EntryMap.Sound.represents {kind : Kind} {snapshot : Snapshot kind}
    (sound : EntryMap.Sound snapshot.entries) : snapshot.Represents where
  distinct := sound.distinctKeys
  keys pair member := (sound.named pair member).symm
  names := sound.keys_eq
  size := (OrderedMap.length_values snapshot.entries).symm
  get? name entry := by
    constructor
    · intro found
      have named := sound.named _ (OrderedMap.mem_of_get?_eq_some found)
      exact ⟨EntryMap.mem_values_of_get? found, congrArg Name.bytes named⟩
    · rintro ⟨member, same⟩
      obtain rfl : entry.name = name := Name.eq_of_bytes_eq same
      exact sound.get?_name member
  contains name := OrderedMap.contains_eq_true_iff

namespace Concurrent

variable {kind : Kind}

/-- A registration under an owner, as a call. -/
def Request.ofRegistration (owner : Owner) : Registration → Request
  | .function name handler => .define (.callable name owner .image handler)
  | .hook name handler => .hook name handler owner
  | .constant name value flags => .replace (.constant name value flags owner)
  | .type name => .define (.type name owner .image)

/-- A takeover, as calls that a thread makes one after the other.  One that comes too early
or is refused a registration makes the calls up to there. -/
def Request.takeover (takeover : Takeover) (registrations : List Registration) : List Request :=
  let clear :=
    match takeover.target? with
    | none => []
    | some target =>
      [.read .type, .evict .constant target, .evict .type target, .evict .callable target]
  clear ++ registrations.map (ofRegistration takeover.owner)

/-- What the last atomic step of a call makes of a table. -/
structure Record.Publishes (record : Record) (before after : Snapshot kind) : Prop where
  /-- What stays keeps its order, and what the call put in stands last. -/
  tables : ∃ kept, after.toList = kept ++ record.added kind ∧ kept.Sublist before.toList
  /-- A call that puts nothing in and hands nothing out publishes nothing. -/
  unchanged : record.added kind = [] → record.answer.handedOut kind = [] → after = before

/-- Whether a finished call published an entry before another finished call published the
other one. -/
def System.Precedes (system : System) (earlier later : Entry kind) : Prop :=
  ∃ first ∈ system.records, ∃ second ∈ system.records,
    earlier ∈ first.added kind ∧ later ∈ second.added kind ∧ first.ended < second.ended

/-- A call puts at most one entry into a table. -/
theorem Request.pairwise_added (kind : Kind) (id : EntryId) (request : Request) (answer : Answer)
    {relation : Entry kind → Entry kind → Prop} :
    (request.added kind id answer).Pairwise relation := by
  have short := (request.ids_added_sublist kind id answer).length_le
  rw [List.length_map, List.length_singleton] at short
  generalize request.added kind id answer = added at short ⊢
  match added with
  | [] => exact .nil
  | [entry] => exact List.pairwise_singleton _ _
  | _ :: _ :: _ => simp at short

/-- What a write leaves of a table keeps its order, and what it offers stands last. -/
theorem Write.exists_values_of_edit {write : Write kind} {entries next : EntryMap kind}
    {answer : WriteAnswer kind} (edited : write.edit entries = .publish next answer) :
    ∃ kept, next.values = kept ++ write.offer ∧ kept.Sublist entries.values := by
  cases write with
  | insert entry =>
      rw [edit, Edit.insert] at edited
      split at edited <;> cases edited
      exact ⟨_, EntryMap.values_append entries entry, List.filter_sublist.map _⟩
  | replace entry =>
      cases edited
      exact ⟨_, EntryMap.values_append entries entry, List.filter_sublist.map _⟩
  | remove name =>
      rw [edit, Edit.remove] at edited
      split at edited <;> cases edited
      exact ⟨_, (List.append_nil _).symm, List.filter_sublist.map _⟩
  | retain predicate seen =>
      rw [edit, Edit.retain] at edited
      dsimp only at edited
      split at edited <;> cases edited
      exact ⟨_, (List.append_nil _).symm,
        (OrderedMap.sweepPairs_sublist predicate seen entries.pairs).map _⟩

/-- A write that publishes puts something in or takes something out. -/
theorem Write.offer_or_removals_of_edit {write : Write kind} {entries next : EntryMap kind}
    {answer : WriteAnswer kind} (edited : write.edit entries = .publish next answer) :
    write.offer ≠ [] ∨ answer.removals ≠ [] := by
  cases write with
  | insert entry => exact Or.inl (List.cons_ne_nil _ _)
  | replace entry => exact Or.inl (List.cons_ne_nil _ _)
  | remove name =>
      rw [edit, Edit.remove] at edited
      split at edited <;> cases edited
      exact Or.inr (List.cons_ne_nil _ _)
  | retain predicate seen =>
      rw [edit, Edit.retain] at edited
      dsimp only at edited
      split at edited <;> cases edited
      rename_i removes
      exact Or.inr fun nothing => removes (List.isEmpty_iff.mpr nothing)

/-- What the step with which a call ends makes of a table. -/
theorem Stage.Pursued.exists_toList {deny : DenyList} {id : EntryId} {registry next : Registry}
    {request : Request} {answer : Answer}
    (pursued : Stage.Pursued deny id registry request (.finished answer) next) (kind : Kind) :
    (∃ kept, (next.current kind).toList = kept ++ request.added kind id answer ∧
      kept.Sublist (registry.current kind).toList) ∧
    (request.added kind id answer = [] → answer.handedOut kind = [] →
      next.current kind = registry.current kind) := by
  cases pursued with
  | onward goes => cases goes
  | silent nothing tables fresh =>
      rw [tables, (nothing kind).2]
      exact ⟨⟨_, (List.append_nil _).symm, List.Sublist.refl _⟩, fun _ _ => rfl⟩
  | @published other write entries given answer edited offers handedOut added allowed =>
      rw [added, handedOut]
      by_cases same : other = kind
      · subst same
        rw [ofKind_self, ofKind_self, Registry.current_publish]
        refine ⟨Write.exists_values_of_edit edited, fun noOffer noRemovals => ?_⟩
        rcases Write.offer_or_removals_of_edit edited with offer | removals
        · exact absurd noOffer offer
        · exact absurd noRemovals removals
      · rw [ofKind_of_ne same, Registry.current_publish_of_ne registry entries (Ne.symm same)]
        exact ⟨⟨_, (List.append_nil _).symm, List.Sublist.refl _⟩, fun _ _ => rfl⟩

namespace System

variable {system next : System}

/-- What a step decides: nothing, or a call that ends with it. -/
theorem unchanged_or_decides {initial : Registry} (system : System) (schedule : List Nat)
    (index : Nat) (accounted : (system.run schedule).Accounted initial) :
    (∀ kind, (system.run (schedule ++ [index])).registry.current kind =
        (system.run schedule).registry.current kind) ∨
      ∃ record ∈ (system.run (schedule ++ [index])).records,
        system.Decides schedule index record := by
  rw [run_append, run_cons, run_nil]
  cases (system.run schedule).step_moved index with
  | idle registry => exact Or.inl fun kind => by rw [registry]
  | began registry =>
      refine Or.inl fun kind => ?_
      rw [registry, Request.current_prepare, Registry.current_reserve]
  | onward stepped goes _ _ _ _ before =>
      have member := before.symm.subset List.mem_cons_self
      have pursued := Stage.pursued (accounted.pursues _ member)
      rw [stepped] at pursued
      exact Or.inl (pursued.of_goes goes).2.1
  | @finished running _ answer stepped records before =>
      refine Or.inr ⟨running.record answer (system.run schedule).clock,
        records.symm.subset List.mem_cons_self, system.clock_run schedule, running,
        before.symm.subset List.mem_cons_self, rfl, rfl, ?_⟩
      rw [deny_run] at stepped
      rw [run_append, run_cons, run_nil]
      exact stepped

/-- The step that decides a call publishes what the call says. -/
theorem Decides.publishes {initial : Registry} {schedule : List Nat} {index : Nat}
    {record : Record} (decides : system.Decides schedule index record)
    (accounted : (system.run schedule).Accounted initial) (kind : Kind) :
    record.Publishes ((system.run schedule).registry.current kind)
      ((system.run (schedule ++ [index])).registry.current kind) := by
  obtain ⟨-, running, member, request, offered, stepped⟩ := decides
  have pursued := Stage.pursued (accounted.pursues running member)
  rw [deny_run, stepped] at pursued
  obtain ⟨tables, unchanged⟩ := pursued.exists_toList kind
  rw [request, offered] at tables unchanged
  exact ⟨tables, unchanged⟩

/-- Calls that have finished stay finished, and what was published before stays so. -/
theorem Precedes.mono {earlier later : Entry kind} (precedes : system.Precedes earlier later)
    (records : ∀ record ∈ system.records, record ∈ next.records) :
    next.Precedes earlier later := by
  obtain ⟨first, firstFinished, second, secondFinished, added⟩ := precedes
  exact ⟨first, records first firstFinished, second, records second secondFinished, added⟩

/-- What keeps the entries of all tables in the order of their publication. -/
structure InOrder (system : System) : Prop where
  accounted : system.Accounted .empty
  past : ∀ record ∈ system.records, record.ended < system.clock
  ordered : ∀ kind, (system.registry.current kind).toList.Pairwise system.Precedes

namespace InOrder

theorem start (deny : DenyList) (requests : List (List Request)) :
    (System.start .empty deny requests).InOrder where
  accounted := .start Registry.wellFormed_empty deny requests
  past := by
    rw [records_start]
    simp
  ordered kind := by
    cases kind <;> exact .nil

/-- A step that publishes nothing. -/
theorem keep (inOrder : system.InOrder) (accounted : next.Accounted .empty)
    (current : ∀ kind, next.registry.current kind = system.registry.current kind)
    (records : next.records = system.records) (clock : next.clock = system.clock + 1) :
    next.InOrder where
  accounted := accounted
  past record finished := by
    rw [clock]
    rw [records] at finished
    exact Nat.lt_succ_of_lt (inOrder.past record finished)
  ordered kind := by
    rw [current]
    refine (inOrder.ordered kind).imp fun precedes => precedes.mono ?_
    rw [records]
    exact fun _ finished => finished

/-- Everything in a table was put in by a call that has finished. -/
theorem exists_added (inOrder : system.InOrder) {entry : Entry kind}
    (member : entry ∈ (system.registry.current kind).toList) :
    ∃ record ∈ system.records, entry ∈ record.added kind := by
  have placed := (inOrder.accounted.places kind).subset (List.mem_append_left _ member)
  have none : (Registry.empty.current kind).toList = [] := by
    cases kind <;> rfl
  rw [none, List.nil_append] at placed
  exact List.mem_flatMap.mp placed

/-- A step that ends a call puts what it publishes after everything else. -/
theorem finish (inOrder : system.InOrder) (accounted : next.Accounted .empty)
    {running : Running} {answer : Answer} (member : running ∈ system.underway)
    (stepped : running.stage.step system.deny running.offered system.registry =
      (.finished answer, next.registry))
    (records : next.records.Perm (running.record answer system.clock :: system.records))
    (clock : next.clock = system.clock + 1) : next.InOrder where
  accounted := accounted
  past record finished := by
    rw [clock]
    rcases List.mem_cons.mp (records.subset finished) with rfl | old
    · exact Nat.lt_succ_self _
    · exact Nat.lt_succ_of_lt (inOrder.past record old)
  ordered kind := by
    have pursued := Stage.pursued (inOrder.accounted.pursues running member)
    rw [stepped] at pursued
    obtain ⟨⟨kept, after, sublist⟩, -⟩ := pursued.exists_toList kind
    have still : ∀ record ∈ system.records, record ∈ next.records := fun record old =>
      records.symm.subset (List.mem_cons_of_mem _ old)
    rw [after]
    refine List.pairwise_append.mpr ⟨?_, ?_, ?_⟩
    · exact ((inOrder.ordered kind).sublist sublist).imp fun precedes => precedes.mono still
    · exact Request.pairwise_added kind _ _ _
    · -- What stays was put in by a call that ended before this one.
      intro earlier inKept later inAdded
      obtain ⟨record, finished, added⟩ := inOrder.exists_added (sublist.subset inKept)
      exact ⟨record, still record finished, _, records.symm.subset List.mem_cons_self, added,
        inAdded, inOrder.past record finished⟩

theorem step (inOrder : system.InOrder) (index : Nat) : (system.step index).InOrder := by
  have accounted := inOrder.accounted.step index
  have clock := system.clock_step index
  cases system.step_moved index with
  | idle registry records => exact inOrder.keep accounted (fun _ => by rw [registry]) records clock
  | began registry records =>
      refine inOrder.keep accounted (fun kind => ?_) records clock
      rw [registry, Request.current_prepare, Registry.current_reserve]
  | onward stepped goes _ _ _ records before =>
      have member := before.symm.subset List.mem_cons_self
      have pursued := Stage.pursued (inOrder.accounted.pursues _ member)
      rw [stepped] at pursued
      exact inOrder.keep accounted (pursued.of_goes goes).2.1 records clock
  | finished stepped records before =>
      exact inOrder.finish accounted (before.symm.subset List.mem_cons_self) stepped records clock

theorem run (inOrder : system.InOrder) (schedule : List Nat) : (system.run schedule).InOrder := by
  induction schedule generalizing system with
  | nil => exact inOrder
  | cons index rest inductionHypothesis => exact inductionHypothesis (inOrder.step index)

end InOrder

/-- At every moment of every run, a walk over a table, its names, its size and its lookups
agree, and the walk follows the order of publication.  Tables change with the last
atomic steps of calls and at no other time, and every call that has finished published
what it says with its last step.  Callers who reach a host by calls that run alone,
takeovers among them, find its tables so, too. -/
theorem represents_run (deny : DenyList) (requests : List (List Request)) (schedule : List Nat) :
    let system := start .empty deny requests
    let now := system.run schedule
    (∀ kind, (now.registry.current kind).Represents ∧
        (now.registry.current kind).toList.Pairwise now.Precedes) ∧
      (∀ index, let next := system.run (schedule ++ [index])
        (∀ kind, next.registry.current kind = now.registry.current kind) ∨
          ∃ record ∈ next.records, system.Decides schedule index record ∧
            ∀ kind, record.Publishes (now.registry.current kind) (next.registry.current kind)) ∧
      (∀ record ∈ now.records, ∃ first index rest, schedule = first ++ index :: rest ∧
        system.Decides first index record ∧
        ∀ kind, record.Publishes ((system.run first).registry.current kind)
          ((system.run (first ++ [index])).registry.current kind)) ∧
      ∀ held host, Host.Reaches held .empty host → ∀ kind,
        (host.registry.current kind).Represents ∧
          ((host.registry.current kind).toList.map (·.id)).Pairwise (· < ·) := by
  intro system now
  have inOrder (moment : List Nat) : (system.run moment).InOrder :=
    (InOrder.start deny requests).run moment
  refine ⟨fun kind => ?_, fun index => ?_, fun record finished => ?_,
    fun held host reaches kind => ?_⟩
  · exact ⟨((inOrder schedule).accounted.wellFormed.sound kind).represents,
      (inOrder schedule).ordered kind⟩
  · rcases unchanged_or_decides system schedule index (inOrder schedule).accounted with
      unchanged | ⟨record, finished, decides⟩
    · exact Or.inl unchanged
    · exact Or.inr ⟨record, finished, decides, decides.publishes (inOrder schedule).accounted⟩
  · rcases decides_of_mem_records system schedule record finished with
      atStart | ⟨first, index, rest, split, decides⟩
    · rw [records_start] at atStart
      cases atStart
    · exact ⟨first, index, rest, split, decides, decides.publishes (inOrder first).accounted⟩
  · have formed := reaches.evolves.wellFormed Registry.wellFormed_empty
    exact ⟨(formed.sound kind).represents, reaches.evolves.ascending kind⟩

/-- A takeover next to a batch of hooks.  The callable that the target had made first is
evicted and installed again, after the batch has installed another one, for which the
takeover loses an attempt; and a constant that was there first is forced and stands last. -/
theorem represents_run_of_takeover :
    let target : Owner := ⟨0, "target"⟩
    let other : Owner := ⟨1, "other"⟩
    let marker : Name := ⟨[0x4d]⟩
    let shared : Name := ⟨[0x73]⟩
    let free : Name := ⟨[0x66]⟩
    let takeover : Takeover := ⟨.empty, ⟨2, "successor"⟩, some target, marker⟩
    let requests : List (List Request) :=
      [.define (.type marker target .image) :: .define (.callable shared target .image ⟨1⟩) ::
          Request.takeover takeover [.hook shared ⟨3⟩, .constant shared (.int 2) ⟨0⟩],
        Request.batch [(shared, ⟨2⟩), (free, ⟨4⟩)] other,
        [.define (.constant shared (.int 1) ⟨0⟩ other),
          .define (.constant free (.int 1) ⟨0⟩ other)]]
    let schedule := List.replicate 6 0 ++ (List.replicate 10 [0, 2, 1, 0]).flatten
    let final := (start .empty .empty requests).run schedule
    final.isFinished ∧ final.records.map (·.losses) = [0, 0, 0, 0, 0, 0, 1, 0, 0, 0, 0, 0] ∧
      (final.registry.current .callable).names = [free, shared] ∧
      (final.registry.current .constant).names = [free, shared] ∧
      ∀ kind, (final.registry.current kind).Represents ∧
        (final.registry.current kind).toList.Pairwise final.Precedes := by
  intro target other marker shared free takeover requests schedule final
  exact ⟨by decide +kernel, by decide +kernel, by decide +kernel, by decide +kernel,
    (represents_run .empty requests schedule).1⟩

end System
end Concurrent
end Interposition
