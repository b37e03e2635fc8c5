import Interposition.Proofs.Concurrent.Order
import Interposition.Proofs.Concurrent.Programs
/-!
An eviction of all tables, as readers see it.

A thread evicts an owner in three passes, constants first, then types, then callables.
While others neither register anything under the owner nor remove its callables and types,
what the owner has in a table only becomes less, and each pass takes all of it away with
one step.  So a reader sees what a pass takes away entirely or not at all; and one that
misses a callable or a type of the owner knows that the passes before have taken place
(`System.passes_run`).
-/

namespace Interposition

namespace Concurrent

/-- The eviction of an owner from all tables, as calls that a thread makes one after the
other. -/
def Request.evictAll (owner : Owner) : List Request :=
  [.evict .constant owner, .evict .type owner, .evict .callable owner]

/-- Whether a call registers nothing under an owner, and leaves the callables and types
alone that the owner has in a registry.  Constants of the owner may be displaced and
removed. -/
def Request.Respects (owner : Owner) (registry : Registry) : Request → Prop
  | .define draft => draft.owner ≠ owner
  | @Request.replace kind draft => draft.owner ≠ owner ∧
      (kind ≠ .constant → ∀ entry ∈ registry.evictable kind owner, entry.name ≠ draft.name)
  | .remove kind name =>
      kind ≠ .constant → ∀ entry ∈ registry.evictable kind owner, entry.name ≠ name
  | .retain kind predicate =>
      kind ≠ .constant → ∀ entry ∈ registry.evictable kind owner,
        ∀ seen, predicate seen entry = true
  | .hook _ _ other => other ≠ owner
  | .read _ | .patch _ _ | .resolve _ => True

variable {kind : Kind} {owner : Owner} {registry : Registry}

theorem Entry.owner_of_isEvictedWith {entry : Entry kind}
    (evicted : entry.isEvictedWith owner = true) : entry.owner = owner :=
  eq_of_beq (Bool.and_eq_true_iff.mp evicted).1

theorem Entry.owner_ne_of_constant {constant : Constant}
    (spared : constant.isEvictedWith owner = false) : constant.owner ≠ owner := by
  intro owned
  simp [Entry.isEvictedWith, Entry.isEvictable, owned] at spared

/-- What a call adds is made of a draft that is not of the owner. -/
theorem Request.Respects.owner_ne {request : Request} (respects : request.Respects owner registry)
    {id : EntryId} {answer : Answer} {entry : Entry kind}
    (added : entry ∈ request.added kind id answer) : entry.owner ≠ owner := by
  have made {other : Kind} {draft : Draft other} (foreign : draft.owner ≠ owner)
      (member : entry ∈ ofKind kind [draft.entry id]) : entry.owner ≠ owner := by
    by_cases same : other = kind
    · subst same
      rw [ofKind_self, List.mem_singleton] at member
      rwa [member]
    · rw [ofKind_of_ne same] at member
      cases member
  unfold Request.added at added
  split at added
  · exact made respects added
  · exact made respects.1 added
  · rename_i name handler other
    exact @made .callable (installDraft name handler other) respects added
  · cases added

/-- An eviction of all tables registers nothing. -/
theorem Request.added_of_mem_evictAll {request : Request} (member : request ∈ evictAll owner)
    (kind : Kind) (id : EntryId) (answer : Answer) : request.added kind id answer = [] := by
  simp only [evictAll, List.mem_cons, List.not_mem_nil, or_false] at member
  rcases member with rfl | rfl | rfl <;> rfl

/-- A call that respects an owner hands out nothing that the owner has. -/
theorem Request.Respects.not_mem_removals {start : Registry} {request : Request}
    (respects : request.Respects owner start) (lasting : kind ≠ .constant) {id : EntryId}
    {write : Write kind} (writes : request.Writes id write) {entries next : EntryMap kind}
    (sound : EntryMap.Sound entries) {given : WriteAnswer kind}
    (edited : write.edit entries = .publish next given) {entry : Entry kind}
    (belongs : entry ∈ start.evictable kind owner) : entry ∉ given.removals := by
  intro removed
  have named {name : Name} (found : entries.get? name = some entry) : entry.name = name :=
    sound.named (name, entry) (OrderedMap.mem_of_get?_eq_some found)
  cases writes with
  | define draft =>
      rw [Write.edit, Edit.insert] at edited
      split at edited <;> cases edited
      cases removed
  | replace draft =>
      cases edited
      exact respects.2 lasting entry belongs (named (Option.mem_toList.mp removed))
  | remove name =>
      rw [Write.edit, Edit.remove] at edited
      split at edited <;> cases edited
      rename_i found
      rw [List.mem_singleton.mp removed] at belongs named
      exact respects lasting _ belongs (named found)
  | retain predicate seen =>
      rw [Write.edit, Edit.retain] at edited
      dsimp only at edited
      split at edited <;> cases edited
      obtain ⟨earlier, turnedDown⟩ := OrderedMap.exists_not_keep_of_mem_removed removed
      rw [respects lasting entry belongs earlier] at turnedDown
      cases turnedDown

/-- The last step of a pass takes away everything that the owner then has in the table. -/
theorem Stage.evictable_of_step {deny : DenyList} {id : EntryId} {next : Registry} {stage : Stage}
    (pursues : stage.Pursues deny id registry (.evict kind owner)) {answer : Answer}
    (stepped : stage.step deny id registry = (.finished answer, next)) :
    answer.handedOut kind = registry.evictable kind owner ∧ next.evictable kind owner = [] := by
  generalize requested : Request.evict kind owner = request at pursues
  cases pursues with
  | writing writes stands =>
      cases writes with
      | retain predicate seen =>
          cases requested
          obtain ⟨given, rfl, result⟩ := Stage.exists_written_of_finished stepped
          cases WriteStage.moved_of_step stands result with
          | kept edited =>
              rw [Write.edit_retain_steady] at edited
              split at edited <;> cases edited
              rename_i nothing
              simp only [Bool.not_not, List.isEmpty_iff] at nothing
              rw [Answer.handedOut, ofKind_self]
              exact ⟨nothing.symm, nothing⟩
          | published edited =>
              rw [Write.edit_retain_steady] at edited
              split at edited <;> cases edited
              simp only [Answer.handedOut, ofKind_self, WriteAnswer.removals, Bool.not_not]
              refine ⟨rfl, List.filter_eq_nil_iff.mpr fun entry member => ?_⟩
              rw [Registry.current_publish] at member
              obtain ⟨pair, kept, rfl⟩ := List.mem_map.mp member
              simpa using (List.mem_filter.mp kept).2
      | _ => cases requested
  | _ => cases requested

/-- A pass does not respect its owner, if there is something to take away. -/
theorem Request.not_respects_evict (lasting : kind ≠ .constant) {entry : Entry kind}
    (belongs : entry ∈ registry.evictable kind owner) :
    ¬(Request.evict kind owner).Respects owner registry := by
  intro respects
  have kept : (!entry.isEvictedWith owner) = true := respects lasting entry belongs []
  rw [(List.mem_filter.mp belongs).2] at kept
  cases kept

/-- A pass over what somebody else has respects the owner. -/
theorem Request.respects_evict {other : Owner} (different : other ≠ owner) :
    (Request.evict kind other).Respects owner registry := by
  intro lasting entry belongs seen
  have owned := Entry.owner_of_isEvictedWith (List.mem_filter.mp belongs).2
  simp [Entry.isEvictedWith, owned, different.symm]

/-- What an eviction of all tables writes to a table is the pass over that table. -/
theorem Request.Writes.eq_evict {id : EntryId} {request : Request} {write : Write kind}
    (writes : request.Writes id write) (member : request ∈ Request.evictAll owner) :
    request = .evict kind owner := by
  simp only [Request.evictAll, List.mem_cons, List.not_mem_nil, or_false] at member
  rcases member with rfl | rfl | rfl <;> cases writes <;> rfl

namespace System

variable {requests : List (List Request)}

section Harmless

variable (wellFormed : registry.WellFormed) (deny : DenyList)
  (harmless : ∀ request ∈ requests.flatten,
    request ∈ Request.evictAll owner ∨ request.Respects owner registry)

include wellFormed harmless

/-- What an owner has in a table only becomes less. -/
theorem mem_of_mem_later {earlier later : List Nat} (before : earlier <+: later)
    {entry : Entry kind} (owned : entry.owner = owner)
    (member : entry ∈ (((start registry deny requests).run later).registry.current kind).toList) :
    entry ∈ (((start registry deny requests).run earlier).registry.current kind).toList := by
  obtain ⟨rest, rfl⟩ := before
  induction rest using List.reverseRecOn with
  | nil => rwa [List.append_nil] at member
  | append_singleton rest index inductionHypothesis =>
      refine inductionHypothesis ?_
      rw [← List.append_assoc] at member
      have accounted := (Accounted.start wellFormed deny requests).run (earlier ++ rest)
      rcases unchanged_or_decides _ _ index accounted with unchanged | ⟨record, finished, decides⟩
      · rwa [unchanged] at member
      · obtain ⟨kept, after, sublist⟩ := (decides.publishes accounted kind).tables
        rw [after] at member
        rcases List.mem_append.mp member with old | new
        · exact sublist.subset old
        · rcases harmless record.request (request_mem_requests finished) with pass | respects
          · rw [Record.added, Request.added_of_mem_evictAll pass] at new
            cases new
          · exact absurd owned (respects.owner_ne new)

/-- A callable or a type of the owner that is missing was taken away by the pass over its
table. -/
theorem exists_pass (lasting : kind ≠ .constant) {entry : Entry kind}
    (belongs : entry ∈ registry.evictable kind owner) {moment : List Nat}
    (missing : entry ∉
      (((start registry deny requests).run moment).registry.current kind).toList) :
    ∃ pass ∈ ((start registry deny requests).run moment).records,
      pass.request = .evict kind owner := by
  have accounted := (Accounted.start wellFormed deny requests).run moment
  have placed := (accounted.places kind).symm.subset
    (List.mem_append_left _ (List.mem_filter.mp belongs).1)
  rcases List.mem_append.mp placed with present | out
  · exact absurd present missing
  · obtain ⟨pass, finished, handedOut⟩ := List.mem_flatMap.mp out
    refine ⟨pass, finished, ?_⟩
    obtain ⟨first, index, rest, -, -, -, running, underway, request, -, stepped⟩ :=
      exists_decides finished
    have accounted := (Accounted.start wellFormed deny requests).run first
    have pursues := accounted.pursues running underway
    rw [deny_run] at pursues
    obtain ⟨write, writes, entries, given, edited, removed⟩ :=
      Stage.exists_removals pursues stepped handedOut
    rw [request] at writes
    rcases harmless pass.request (request_mem_requests finished) with evicts | respects
    · exact writes.eq_evict evicts
    · exact absurd removed (respects.not_mem_removals lasting writes
        (accounted.wellFormed.sound kind) edited belongs)

/-- After a pass the owner has nothing in the table any more. -/
theorem evictable_eq_nil {moment later : List Nat} (before : moment <+: later) {pass : Record}
    (finished : pass ∈ ((start registry deny requests).run moment).records)
    (evicts : pass.request = .evict kind owner) :
    ((start registry deny requests).run later).registry.evictable kind owner = [] := by
  obtain ⟨first, index, rest, rfl, -, -, running, underway, request, -, stepped⟩ :=
    exists_decides finished
  have accounted := (Accounted.start wellFormed deny requests).run first
  have pursues := accounted.pursues running underway
  rw [deny_run, request, evicts] at pursues
  have none := (Stage.evictable_of_step pursues stepped).2
  have after : first ++ [index] <+: later :=
    List.IsPrefix.trans ⟨rest, by rw [List.append_assoc]; rfl⟩ before
  refine List.filter_eq_nil_iff.mpr fun entry member evicted => ?_
  have was := mem_of_mem_later wellFormed deny harmless after
    (Entry.owner_of_isEvictedWith evicted) member
  exact List.filter_eq_nil_iff.mp none entry was evicted

/-- A read after a pass finds nothing that the pass would have taken away. -/
theorem not_isEvictedWith {moment later : List Nat} {index : Nat} (before : moment <+: later)
    {pass reader : Record}
    (finished : pass ∈ ((start registry deny requests).run moment).records)
    (evicts : pass.request = .evict kind owner)
    (decides : (start registry deny requests).Decides later index reader)
    {snapshot : Snapshot kind} (answered : reader.answer = .read kind snapshot) :
    ∀ entry ∈ snapshot.toList, entry.isEvictedWith owner = false := by
  intro entry member
  rw [decides.snapshot_eq answered] at member
  have nothing := evictable_eq_nil wellFormed deny harmless before finished evicts
  exact Bool.eq_false_iff.mpr (List.filter_eq_nil_iff.mp nothing entry member)

/-- A pass takes away nothing but what the owner had at the start, and every reader sees all
of that or nothing. -/
theorem handedOut_of_evicts {schedule : List Nat} {pass : Record}
    (finished : pass ∈ ((start registry deny requests).run schedule).records)
    (evicts : pass.request = .evict kind owner) :
    (∀ entry ∈ pass.answer.handedOut kind, entry ∈ registry.evictable kind owner) ∧
    ∀ reader ∈ ((start registry deny requests).run schedule).records, ∀ snapshot,
      reader.answer = .read kind snapshot →
      (∀ entry ∈ pass.answer.handedOut kind, entry ∈ snapshot.toList) ∨
        ∀ entry ∈ pass.answer.handedOut kind, entry ∉ snapshot.toList := by
  obtain ⟨moment, index, rest, split, -, -, running, underway, request, -, stepped⟩ :=
    exists_decides finished
  have accounted := (Accounted.start wellFormed deny requests).run moment
  have pursues := accounted.pursues running underway
  rw [deny_run, request, evicts] at pursues
  obtain ⟨handedOut, nothing⟩ := Stage.evictable_of_step pursues stepped
  have owned {entry : Entry kind} (member : entry ∈ pass.answer.handedOut kind) :
      entry.isEvictedWith owner = true ∧
        entry ∈ (((start registry deny requests).run moment).registry.current kind).toList := by
    rw [handedOut] at member
    exact (List.mem_filter.mp member).symm
  refine ⟨fun entry member => ?_, fun reader readerFinished snapshot answered => ?_⟩
  · obtain ⟨evicted, present⟩ := owned member
    have atStart := mem_of_mem_later wellFormed deny harmless List.nil_prefix
      (Entry.owner_of_isEvictedWith evicted) present
    exact List.mem_filter.mpr ⟨atStart, evicted⟩
  · obtain ⟨later, readerIndex, others, readerSplit, -, reads⟩ := exists_decides readerFinished
    rw [reads.snapshot_eq answered]
    -- The reader loaded its snapshot before the last step of the pass or after it.
    rcases before_or_after split ⟨_, readerSplit.symm⟩ with early | late
    · left
      intro entry member
      obtain ⟨evicted, present⟩ := owned member
      exact mem_of_mem_later wellFormed deny harmless early
        (Entry.owner_of_isEvictedWith evicted) present
    · right
      intro entry member present
      obtain ⟨evicted, -⟩ := owned member
      have was := mem_of_mem_later wellFormed deny harmless late
        (Entry.owner_of_isEvictedWith evicted) present
      exact List.filter_eq_nil_iff.mp nothing entry was evicted

end Harmless

/-- When a pass over callables or types has taken place, those that stand before it in the
eviction have, too. -/
theorem exists_earlier_pass {before after : List (List Request)} {first last : List Request}
    (program : requests = before ++ (first ++ Request.evictAll owner ++ last) :: after)
    (respects : ∀ request ∈ first ++ last ++ (before ++ after).flatten,
      request.Respects owner registry)
    {deny : DenyList} {moment : List Nat} {pass : Record}
    (finished : pass ∈ ((start registry deny requests).run moment).records)
    (evicts : pass.request = .evict kind owner) (lasting : kind ≠ .constant) {entry : Entry kind}
    (belongs : entry ∈ registry.evictable kind owner) {other : Kind} (early : List Request)
    {late : List Request} (split : Request.evictAll owner = early ++ .evict other owner :: late)
    (follows : .evict kind owner ∉ early) :
    ∃ earlier ∈ ((start registry deny requests).run moment).records,
      earlier.request = .evict other owner := by
  have disrespects {request : Request} (same : request = .evict kind owner)
      (member : request ∈ first ++ last ++ (before ++ after).flatten) : False :=
    Request.not_respects_evict lasting belongs (same ▸ respects request member)
  obtain ⟨thread, inThreads, inThread⟩ := List.mem_flatMap.mp finished
  have among := List.mem_map_of_mem (f := Thread.program) inThreads
  rw [programs_run, programs_start, program] at among
  have foreign (others : thread.program ∈ before ++ after) : False :=
    disrespects evicts (List.mem_append_right _
      (List.mem_flatten.mpr ⟨_, others, Thread.request_mem_program inThread⟩))
  rcases List.mem_append.mp among with inBefore | inRest
  · exact (foreign (List.mem_append_left _ inBefore)).elim
  · rcases List.mem_cons.mp inRest with own | inAfter
    · rw [split, List.append_assoc, List.append_assoc, ← List.append_assoc] at own
      have late : pass.request ∉ first ++ early := by
        intro member
        rcases List.mem_append.mp member with inFirst | inEarly
        · exact disrespects evicts
            (List.mem_append_left _ (List.mem_append_left _ inFirst))
        · exact follows (evicts ▸ inEarly)
      obtain ⟨earlier, inRecords, request⟩ := Thread.exists_earlier own inThread late
      exact ⟨earlier, List.mem_flatMap.mpr ⟨thread, inThreads, inRecords⟩, request⟩
    · exact (foreign (List.mem_append_right _ inAfter)).elim

/-- Besides the eviction itself, all calls respect the owner. -/
theorem harmless_of_respects {before after : List (List Request)} {first last : List Request}
    (program : requests = before ++ (first ++ Request.evictAll owner ++ last) :: after)
    (respects : ∀ request ∈ first ++ last ++ (before ++ after).flatten,
      request.Respects owner registry) :
    ∀ request ∈ requests.flatten,
      request ∈ Request.evictAll owner ∨ request.Respects owner registry := by
  intro request member
  rw [program] at member
  simp only [List.flatten_append, List.flatten_cons, List.mem_append] at member
  have others := respects request
  simp only [List.flatten_append, List.mem_append] at others
  tauto

/-- A reader that misses a callable or a type of the owner finds nothing later that an
earlier pass takes away. -/
theorem not_isEvictedWith_of_missing (wellFormed : registry.WellFormed) {deny : DenyList}
    {before after : List (List Request)} {first last : List Request}
    (program : requests = before ++ (first ++ Request.evictAll owner ++ last) :: after)
    (respects : ∀ request ∈ first ++ last ++ (before ++ after).flatten,
      request.Respects owner registry)
    (lasting : kind ≠ .constant) {other : Kind} (early : List Request) {late : List Request}
    (split : Request.evictAll owner = early ++ .evict other owner :: late)
    (follows : .evict kind owner ∉ early) {schedule : List Nat} {reader later : Record}
    (finished : reader ∈ ((start registry deny requests).run schedule).records)
    {snapshot : Snapshot kind} (answered : reader.answer = .read kind snapshot)
    (missing : ∃ entry ∈ registry.evictable kind owner, entry ∉ snapshot.toList)
    (laterFinished : later ∈ ((start registry deny requests).run schedule).records)
    (order : reader.ended < later.ended) {laterSnapshot : Snapshot other}
    (read : later.answer = .read other laterSnapshot) :
    ∀ entry ∈ laterSnapshot.toList, entry.isEvictedWith owner = false := by
  have harmless := harmless_of_respects program respects
  obtain ⟨entry, belongs, missed⟩ := missing
  obtain ⟨moment, index, rest, steps, ended, reads⟩ := exists_decides finished
  rw [reads.snapshot_eq answered] at missed
  obtain ⟨pass, passed, evicts⟩ := exists_pass wellFormed deny harmless lasting belongs missed
  obtain ⟨earlier, earlierPassed, earlierEvicts⟩ :=
    exists_earlier_pass program respects passed evicts lasting belongs early split follows
  obtain ⟨laterMoment, laterIndex, onward, decides⟩ :=
    exists_decides_later ⟨_, steps.symm⟩ laterFinished (ended ▸ order)
  exact not_isEvictedWith wellFormed deny harmless onward earlierPassed earlierEvicts decides read

/-- What readers see of an eviction of all tables, in any interleaving with calls that
respect the owner.  A pass takes away what the owner had at the start and still has.  A
snapshot of its table holds all of this or nothing.  A reader that misses a callable finds
neither a type nor a constant of the owner later, and one that misses a type finds no
constant later. -/
theorem passes_run (wellFormed : registry.WellFormed) (deny : DenyList)
    {before after : List (List Request)} {first last : List Request}
    (program : requests = before ++ (first ++ Request.evictAll owner ++ last) :: after)
    (respects : ∀ request ∈ first ++ last ++ (before ++ after).flatten,
      request.Respects owner registry)
    (schedule : List Nat) :
    let records := ((start registry deny requests).run schedule).records
    (∀ pass ∈ records, ∀ kind, pass.request = .evict kind owner →
      (∀ entry ∈ pass.answer.handedOut kind, entry ∈ registry.evictable kind owner) ∧
      ∀ reader ∈ records, ∀ snapshot, reader.answer = .read kind snapshot →
        (∀ entry ∈ pass.answer.handedOut kind, entry ∈ snapshot.toList) ∨
          ∀ entry ∈ pass.answer.handedOut kind, entry ∉ snapshot.toList) ∧
    (∀ reader ∈ records, ∀ callables, reader.answer = .read .callable callables →
      (∃ entry ∈ registry.evictable .callable owner, entry ∉ callables.toList) →
      ∀ later ∈ records, reader.ended < later.ended →
        (∀ types, later.answer = .read .type types →
          ∀ entry ∈ types.toList, entry.isEvictedWith owner = false) ∧
        ∀ constants, later.answer = .read .constant constants →
          ∀ entry ∈ constants.toList, entry.owner ≠ owner) ∧
    ∀ reader ∈ records, ∀ types, reader.answer = .read .type types →
      (∃ entry ∈ registry.evictable .type owner, entry ∉ types.toList) →
      ∀ later ∈ records, reader.ended < later.ended →
        ∀ constants, later.answer = .read .constant constants →
          ∀ entry ∈ constants.toList, entry.owner ≠ owner := by
  intro records
  have harmless := harmless_of_respects program respects
  refine ⟨fun pass finished kind evicts =>
    handedOut_of_evicts wellFormed deny harmless finished evicts, ?_, ?_⟩
  · intro reader finished callables answered missing later laterFinished order
    constructor
    · intro types read
      exact not_isEvictedWith_of_missing wellFormed program respects (by decide)
        [.evict .constant owner] rfl (by simp [Request.evict]) finished answered missing
        laterFinished order read
    · intro constants read entry member
      exact Entry.owner_ne_of_constant (not_isEvictedWith_of_missing wellFormed program respects
        (by decide) [] rfl List.not_mem_nil finished answered missing laterFinished order read
        entry member)
  · intro reader finished types answered missing later laterFinished order constants read entry
      member
    exact Entry.owner_ne_of_constant (not_isEvictedWith_of_missing wellFormed program respects
      (by decide) [] rfl List.not_mem_nil finished answered missing laterFinished order read
      entry member)

/-- While an owner is evicted, one of its constants is displaced by a forced one, for which
the pass over the constants loses an attempt.  A reader goes through the tables twice: after
that pass, and again after the last one. -/
theorem passes_run_of_displacement :
    let target : Owner := ⟨0, "target"⟩
    let other : Owner := ⟨1, "other"⟩
    let first : Name := ⟨[0x66]⟩
    let second : Name := ⟨[0x67]⟩
    let initial := (((Registry.empty.put (.callable first target .image ⟨1⟩)).put
      (.type first target .image)).put (.constant first (.int 1) ⟨0⟩ target)).put
        (.constant second (.int 2) ⟨0⟩ target)
    let walk : List Request := [.read .callable, .read .type, .read .constant]
    let requests : List (List Request) :=
      [Request.evictAll target, walk ++ walk,
        [.replace (.constant first (.int 3) ⟨0⟩ other), .hook second ⟨2⟩ other,
          .evict .callable other]]
    let schedule := [0, 0, 2, 2, 2, 0, 0, 0, 1, 1, 1, 1, 1, 1, 2, 2, 2, 2] ++
      List.replicate 6 0 ++ [2, 2, 2] ++ List.replicate 6 1
    let final := (start initial .empty requests).run schedule
    initial.WellFormed ∧ final.isFinished ∧
      final.records.map (·.losses) = [1, 0, 0, 0, 0, 0, 0, 0, 0, 0, 0, 0] ∧
      final.records.map (fun record => (record.answer.handedOut .constant).map (·.id)) =
        [[3], [], [], [], [], [], [], [], [], [2], [], []] ∧
      ∃ reader ∈ final.records, ∃ callables, reader.answer = .read .callable callables ∧
        (∃ entry ∈ initial.evictable .callable target, entry ∉ callables.toList) ∧
        ∀ later ∈ final.records, reader.ended < later.ended →
          (∀ types, later.answer = .read .type types →
            ∀ entry ∈ types.toList, entry.isEvictedWith target = false) ∧
          ∀ constants, later.answer = .read .constant constants →
            ∀ entry ∈ constants.toList, entry.owner ≠ target := by
  intro target other first second initial walk requests schedule final
  have wellFormed : initial.WellFormed :=
    (((Registry.wellFormed_empty.put _).put _).put _).put _
  have foreign : other ≠ target := by decide
  have respects : ∀ request ∈ ([] : List Request) ++ [] ++
      ([] ++ [walk ++ walk, [.replace (.constant first (.int 3) ⟨0⟩ other), .hook second ⟨2⟩ other,
        .evict .callable other]]).flatten, request.Respects target initial := by
    simp only [walk, List.nil_append, List.flatten_cons, List.flatten_nil, List.append_nil,
      List.cons_append, List.forall_mem_cons]
    exact ⟨trivial, trivial, trivial, trivial, trivial, trivial,
      ⟨foreign, fun lasting => absurd rfl lasting⟩, foreign, Request.respects_evict foreign,
      List.forall_mem_nil _⟩
  obtain ⟨-, readers, -⟩ :=
    @passes_run target initial requests wellFormed .empty [] _ [] [] rfl respects schedule
  have misses : ∃ reader ∈ final.records, ((reader.answer.snapshot? .callable).any
      fun callables => callables.toList.all fun entry => entry.id ≠ 0) = true := by decide +kernel
  obtain ⟨reader, finished, missing⟩ := misses
  obtain ⟨callables, loaded, others⟩ := (Option.any_eq_true _ _).mp missing
  have answered := Answer.eq_read_of_snapshot? loaded
  have missed : ∃ entry ∈ initial.evictable .callable target, entry ∉ callables.toList := by
    refine ⟨⟨0, first, target, Origin.image⟩, List.mem_singleton_self _, fun present => ?_⟩
    have other := List.all_eq_true.mp others _ present
    exact absurd rfl (of_decide_eq_true other)
  exact ⟨wellFormed, by decide +kernel, by decide +kernel, by decide +kernel, reader, finished,
    callables, answered, missed, readers reader finished callables answered missed⟩

end System
end Concurrent
end Interposition
