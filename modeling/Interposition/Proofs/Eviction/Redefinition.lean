import Interposition.Proofs.Eviction.Without
import Interposition.Proofs.Operation.Meaning
/-!
Defining again what was evicted.

An evicted entry can be told from its identity and its target: they give the draft that it
could have been made from (`Registry.draft`).  Definitions under names that are free, and of
which no two are the same, all succeed, and put new entries with the drafts at the ends of
their tables (`Registry.Grown`).  The names of what an eviction removes are such names, so
everything can be defined again, and nothing but identities and the places in the tables
differs from before (`Operation.redefine_evicted`).
-/

namespace Interposition

/-- The draft that an entry could have been made from, a callable with the handler that it
dispatches to. -/
def Registry.draft (registry : Registry) {kind : Kind} (entry : Entry kind) : Draft kind :=
  entry.draft (registry.targets entry.id)

/-- Define what a registry knows as an entry. -/
def Registry.redefine (registry : Registry) {kind : Kind} (entry : Entry kind) : Operation :=
  .define (registry.draft entry)

/-- Define everything again that an eviction removes, the constants first, then the types, then
the callables. -/
def Registry.redefinitions (owner : Owner) (registry : Registry) : List Operation :=
  (registry.evictable .constant owner).map registry.redefine ++
    (registry.evictable .type owner).map registry.redefine ++
    (registry.evictable .callable owner).map registry.redefine

namespace Operation

/-- What an operation defines in a table. -/
def draft? (kind : Kind) : Operation → Option (Draft kind)
  | @define other draft => if same : other = kind then some (same ▸ draft) else none
  | _ => none

/-- What operations define in a table, in order. -/
def drafts (kind : Kind) (operations : List Operation) : List (Draft kind) :=
  operations.filterMap (draft? kind)

/-- Definitions under names that are free, and of which no two are the same. -/
structure DefineFree (registry : Registry) (operations : List Operation) : Prop where
  definitions : ∀ operation ∈ operations,
    ∃ (kind : Kind) (draft : Draft kind), operation = .define draft
  free : ∀ kind, ∀ draft ∈ drafts kind operations, registry.get? kind draft.name = none
  distinct : ∀ kind, ((drafts kind operations).map Draft.name).Nodup

end Operation

/-- What definitions that all succeed make of a registry. -/
structure Registry.Grown (operations : List Operation) (registry next : Registry) : Prop where
  wellFormed : next.WellFormed
  fresh_le : registry.fresh ≤ next.fresh
  targets : ∀ id < registry.fresh, next.targets id = registry.targets id
  /-- New entries stand at the end, in the order in which they were defined. -/
  exists_toList : ∀ kind, ∃ made : List (Entry kind),
    (next.current kind).toList = (registry.current kind).toList ++ made ∧
      made.map next.draft = Operation.drafts kind operations

variable {kind : Kind} {registry next last : Registry} {operations : List Operation}

namespace Operation

@[simp] theorem draft?_define_self (draft : Draft kind) :
    (define draft).draft? kind = some draft := by
  simp [draft?]

theorem draft?_define_of_ne {other : Kind} (different : other ≠ kind) (draft : Draft other) :
    (define draft).draft? kind = none := by
  simp [draft?, different]

theorem drafts_append (kind : Kind) (first second : List Operation) :
    drafts kind (first ++ second) = drafts kind first ++ drafts kind second :=
  List.filterMap_append

/-- Entries that are defined again, in their own table. -/
theorem drafts_redefine_self (registry : Registry) (entries : List (Entry kind)) :
    drafts kind (entries.map registry.redefine) = entries.map registry.draft := by
  rw [drafts, List.filterMap_map, ← List.filterMap_eq_map]
  congr 1
  funext entry
  exact draft?_define_self (registry.draft entry)

theorem drafts_redefine_of_ne {other : Kind} (different : other ≠ kind) (registry : Registry)
    (entries : List (Entry other)) : drafts kind (entries.map registry.redefine) = [] := by
  rw [drafts, List.filterMap_map, List.filterMap_eq_nil_iff]
  intro entry _
  exact draft?_define_of_ne different (registry.draft entry)

theorem drafts_redefinitions (owner : Owner) (registry : Registry) (kind : Kind) :
    drafts kind (registry.redefinitions owner) =
      (registry.evictable kind owner).map registry.draft := by
  simp only [Registry.redefinitions, drafts_append]
  cases kind with
  | callable =>
      rw [drafts_redefine_of_ne (by decide), drafts_redefine_of_ne (by decide),
        drafts_redefine_self, List.nil_append, List.nil_append]
  | constant =>
      rw [drafts_redefine_self, drafts_redefine_of_ne (by decide),
        drafts_redefine_of_ne (by decide), List.append_nil, List.append_nil]
  | type =>
      rw [drafts_redefine_of_ne (by decide), drafts_redefine_self,
        drafts_redefine_of_ne (by decide), List.append_nil, List.nil_append]

end Operation

namespace Registry

theorem name_draft (registry : Registry) (entry : Entry kind) :
    (registry.draft entry).name = entry.name :=
  entry.name_draft _

/-- A new entry has the draft that it was made from. -/
theorem draft_put (draft : Draft kind) (registry : Registry) :
    (registry.put draft).draft (draft.entry registry.fresh) = draft := by
  cases draft with
  | callable name owner origin handler =>
      have given := targets_put_fresh registry name owner origin handler
      simp [Registry.draft, Entry.draft, Draft.entry, Draft.name, Draft.owner, Draft.content, given]
  | constant => rfl
  | type => rfl

/-- Entries keep their drafts as long as their targets are not exchanged. -/
theorem draft_congr {entry : Entry kind}
    (same : next.targets entry.id = registry.targets entry.id) :
    next.draft entry = registry.draft entry := by
  rw [draft, draft, same]

namespace Grown

theorem nil (wellFormed : registry.WellFormed) : Grown [] registry registry where
  wellFormed := wellFormed
  fresh_le := Nat.le_refl _
  targets _ _ := rfl
  exists_toList _ := ⟨[], (List.append_nil _).symm, rfl⟩

/-- One definition under a free name. -/
theorem define (wellFormed : registry.WellFormed) {draft : Draft kind}
    (free : registry.get? kind draft.name = none) :
    Grown [.define draft] registry (registry.put draft) where
  wellFormed := wellFormed.put draft
  fresh_le := by simp
  targets id old := targets_put_of_ne draft registry (Nat.ne_of_lt old)
  exists_toList other := by
    by_cases same : other = kind
    · subst same
      refine ⟨_, wellFormed.toList_put_of_free free, ?_⟩
      simp [Operation.drafts, draft_put]
    · refine ⟨[], ?_, ?_⟩
      · rw [current_put_of_ne draft registry same, List.append_nil]
      · simp [Operation.drafts, Operation.draft?_define_of_ne (Ne.symm same)]

theorem append {first second : List Operation} (grown : Grown first registry next)
    (further : Grown second next last) : Grown (first ++ second) registry last where
  wellFormed := further.wellFormed
  fresh_le := Nat.le_trans grown.fresh_le further.fresh_le
  targets id old := by
    rw [further.targets id (Nat.lt_of_lt_of_le old grown.fresh_le), grown.targets id old]
  exists_toList kind := by
    obtain ⟨made, nextList, drafted⟩ := grown.exists_toList kind
    obtain ⟨later, lastList, draftedLater⟩ := further.exists_toList kind
    -- What the first definitions made was there before the others, which point nothing elsewhere.
    have still : made.map last.draft = made.map next.draft := by
      apply List.map_congr_left
      intro entry member
      have inNext : entry ∈ (next.current kind).toList := by simp [nextList, member]
      apply draft_congr
      apply further.targets
      exact grown.wellFormed.belowFresh kind entry.id (EntryMap.mem_ids_of_mem inNext)
    refine ⟨made ++ later, ?_, ?_⟩
    · rw [lastList, nextList, List.append_assoc]
    · rw [List.map_append, still, drafted, draftedLater, Operation.drafts_append]

end Grown
end Registry

namespace Operation

/-- The first of such definitions succeeds, and the others are such definitions still. -/
theorem DefineFree.tail {draft : Draft kind} {rest : List Operation}
    (free : DefineFree registry (.define draft :: rest)) :
    registry.get? kind draft.name = none ∧ DefineFree (registry.put draft) rest := by
  have own : drafts kind (.define draft :: rest) = draft :: drafts kind rest := by
    simp [drafts]
  refine ⟨free.free kind draft (by simp [own]), ?_⟩
  constructor
  case definitions =>
    intro operation member
    exact free.definitions operation (List.mem_cons_of_mem _ member)
  case free =>
    intro other later member
    by_cases same : other = kind
    · subst same
      have names := free.distinct other
      rw [own, List.map_cons, List.nodup_cons] at names
      have different : later.name ≠ draft.name := fun equal =>
        names.1 (equal ▸ List.mem_map_of_mem member)
      rw [Registry.get?_put_of_ne draft registry (fun both => different both.2)]
      exact free.free other later (by simp [own, member])
    · rw [Registry.get?_put_of_ne draft registry (fun both => same both.1)]
      apply free.free other later
      simpa [drafts, draft?_define_of_ne (Ne.symm same)] using member
  case distinct =>
    intro other
    refine (free.distinct other).sublist (List.Sublist.map _ ?_)
    exact (List.sublist_cons_self _ _).filterMap _

/-- Definitions under names that are free, and of which no two are the same, all succeed. -/
theorem DefineFree.runAll {host : Host} (free : DefineFree host.registry operations)
    (wellFormed : host.registry.WellFormed) :
    (∀ done ∈ (runAll operations host).1, ∃ (kind : Kind) (entry : Entry kind),
      done.2 = .defined (.ok entry)) ∧
      Registry.Grown operations host.registry (runAll operations host).2.registry := by
  induction operations generalizing host with
  | nil => exact ⟨by simp [Operation.runAll], .nil wellFormed⟩
  | cons operation rest inductionHypothesis =>
      obtain ⟨kind, draft, rfl⟩ := free.definitions operation List.mem_cons_self
      obtain ⟨unbound, freeRest⟩ := free.tail
      have defined := Registry.define_eq_put draft host.registry
        (Registry.contains_eq_false_iff.mpr unbound)
      have next : ((define draft).run host).2.registry = host.registry.put draft := by
        simp [run, Host.onRegistry, defined]
      obtain ⟨succeeded, grown⟩ := @inductionHypothesis ((define draft).run host).2
        (next ▸ freeRest) (next ▸ wellFormed.put draft)
      rw [next] at grown
      refine ⟨?_, (Registry.Grown.define wellFormed unbound).append grown⟩
      rw [Operation.runAll, List.forall_mem_cons]
      refine ⟨⟨kind, draft.entry host.registry.fresh, ?_⟩, succeeded⟩
      simp [run, Host.onRegistry, defined]

/-- A run keeps the operations that it was given. -/
theorem operations_runAll (operations : List Operation) (host : Host) :
    (runAll operations host).1.map (·.1) = operations := by
  induction operations generalizing host with
  | nil => rfl
  | cons operation rest inductionHypothesis => simp [runAll, inductionHypothesis]

end Operation

/-- Whether an entry is evicted can be told from its draft. -/
theorem Draft.isEvictedWith_entry (draft : Draft kind) (id other : EntryId) (owner : Owner) :
    (draft.entry id).isEvictedWith owner = (draft.entry other).isEvictedWith owner := by
  cases draft <;> rfl

namespace Registry

variable {owner : Owner}

theorem isEvictedWith_of_draft_eq {first second : Entry kind}
    (same : next.draft first = registry.draft second) :
    first.isEvictedWith owner = second.isEvictedWith owner := by
  rw [← first.entry_draft (next.targets first.id),
    ← second.entry_draft (registry.targets second.id)]
  rw [draft, draft] at same
  rw [same]
  exact Draft.isEvictedWith_entry _ _ _ owner

/-- A name is bound to what stands in the table under it. -/
theorem WellFormed.map_draft_get?_eq_some_iff (wellFormed : registry.WellFormed) {name : Name}
    {draft : Draft kind} :
    (registry.get? kind name).map registry.draft = some draft ↔
      draft ∈ (registry.current kind).toList.map registry.draft ∧ draft.name = name := by
  rw [Option.map_eq_some_iff, List.mem_map]
  constructor
  · rintro ⟨entry, found, rfl⟩
    refine ⟨⟨entry, EntryMap.mem_values_of_get? found, rfl⟩, ?_⟩
    rw [name_draft, wellFormed.name_eq found]
  · rintro ⟨⟨entry, member, rfl⟩, rfl⟩
    refine ⟨entry, ?_, rfl⟩
    rw [name_draft]
    exact (wellFormed.sound kind).get?_name member

/-- Registries that hold the same drafts in a table, in any order, bind names to the same. -/
theorem WellFormed.map_draft_get?_congr (wellFormed : registry.WellFormed)
    (nextWellFormed : next.WellFormed)
    (perm : ((next.current kind).toList.map next.draft).Perm
      ((registry.current kind).toList.map registry.draft)) (name : Name) :
    (next.get? kind name).map next.draft = (registry.get? kind name).map registry.draft := by
  ext draft
  rw [nextWellFormed.map_draft_get?_eq_some_iff, wellFormed.map_draft_get?_eq_some_iff,
    perm.mem_iff]

/-- What an eviction removes was bound to its name, and the name is free afterwards. -/
theorem WellFormed.get?_without_of_evictable (wellFormed : registry.WellFormed)
    {entry : Entry kind} (member : entry ∈ registry.evictable kind owner) :
    (registry.without owner).get? kind entry.name = none := by
  obtain ⟨inTable, evicted⟩ := List.mem_filter.mp member
  have bound : registry.get? kind entry.name = some entry :=
    (wellFormed.sound kind).get?_name inTable
  rw [wellFormed.get?_without, bound]
  simp [evicted]

/-- The names of what an eviction removes are free afterwards, and no two are the same. -/
theorem WellFormed.defineFree_redefinitions (wellFormed : registry.WellFormed) (owner : Owner) :
    Operation.DefineFree (registry.without owner) (registry.redefinitions owner) where
  definitions operation member := by
    simp only [redefinitions, List.mem_append, List.mem_map] at member
    obtain (⟨entry, -, rfl⟩ | ⟨entry, -, rfl⟩) | ⟨entry, -, rfl⟩ := member <;>
      exact ⟨_, registry.draft entry, rfl⟩
  free kind draft member := by
    rw [Operation.drafts_redefinitions] at member
    obtain ⟨entry, evicted, rfl⟩ := List.mem_map.mp member
    rw [name_draft]
    exact wellFormed.get?_without_of_evictable evicted
  distinct kind := by
    have distinct := (wellFormed.sound kind).distinctKeys
    rw [OrderedMap.DistinctKeys, (wellFormed.sound kind).keys_eq] at distinct
    rw [Operation.drafts_redefinitions, List.map_map]
    simp only [Function.comp_def, name_draft]
    exact distinct.sublist (List.filter_sublist.map _)

/-- What a registry looks like after everything that an eviction removed was defined again. -/
structure Restored (owner : Owner) (registry last : Registry) : Prop where
  /-- The survivors in their order, and then what was removed in its order, made anew. -/
  exists_toList : ∀ kind, ∃ renewed : List (Entry kind),
    (last.current kind).toList =
      (registry.current kind).toList.filter (!·.isEvictedWith owner) ++ renewed ∧
    renewed.map last.draft = (registry.evictable kind owner).map registry.draft ∧
    last.evictable kind owner = renewed
  /-- Names are bound to entries of the same content, callables with the same targets. -/
  get?_eq : ∀ kind name,
    (last.get? kind name).map last.draft = (registry.get? kind name).map registry.draft

/-- Survivors keep their drafts, and the new entries have those of what was removed. -/
theorem Grown.restored (wellFormed : registry.WellFormed)
    (grown : Grown (registry.redefinitions owner) (registry.without owner) last) :
    Restored owner registry last := by
  have table (kind : Kind) : ∃ renewed : List (Entry kind),
      (last.current kind).toList =
        (registry.current kind).toList.filter (!·.isEvictedWith owner) ++ renewed ∧
      renewed.map last.draft = (registry.evictable kind owner).map registry.draft := by
    obtain ⟨made, lastList, madeDrafts⟩ := grown.exists_toList kind
    rw [current_without, Snapshot.toList_without] at lastList
    exact ⟨made, lastList, madeDrafts.trans (Operation.drafts_redefinitions owner registry kind)⟩
  constructor
  case exists_toList =>
    intro kind
    obtain ⟨renewed, lastList, drafts⟩ := table kind
    refine ⟨renewed, lastList, drafts, ?_⟩
    -- The owner of a new entry is known from its draft alone.
    have all : renewed.filter (·.isEvictedWith owner) = renewed := by
      rw [List.filter_eq_self]
      intro entry member
      have known : last.draft entry ∈ (registry.evictable kind owner).map registry.draft :=
        drafts ▸ List.mem_map_of_mem member
      obtain ⟨old, evicted, same⟩ := List.mem_map.mp known
      rw [← isEvictedWith_of_draft_eq same]
      exact (List.mem_filter.mp evicted).2
    rw [evictable, lastList, List.filter_append, all]
    simp [List.filter_filter]
  case get?_eq =>
    intro kind
    obtain ⟨renewed, lastList, drafts⟩ := table kind
    have survivors : ((registry.current kind).toList.filter (!·.isEvictedWith owner)).map
        last.draft =
        ((registry.current kind).toList.filter (!·.isEvictedWith owner)).map registry.draft := by
      apply List.map_congr_left
      intro entry member
      have inTable := List.mem_of_mem_filter member
      apply draft_congr
      apply grown.targets
      exact wellFormed.belowFresh kind entry.id (EntryMap.mem_ids_of_mem inTable)
    apply wellFormed.map_draft_get?_congr grown.wellFormed
    rw [lastList, List.map_append, survivors, drafts, ← List.map_append]
    apply List.Perm.map
    exact List.perm_append_comm.trans (List.filter_append_perm _ _)

theorem Restored.names_evictable (restored : Restored owner registry last) (kind : Kind) :
    (last.evictable kind owner).map (·.name) = (registry.evictable kind owner).map (·.name) := by
  obtain ⟨renewed, -, drafts, rfl⟩ := restored.exists_toList kind
  have names := congrArg (List.map Draft.name) drafts
  simpa only [List.map_map, Function.comp_def, name_draft] using names

theorem Restored.owned_eq (restored : Restored owner registry last) (kind : Kind) :
    last.owned kind owner = registry.owned kind owner := by
  have names := congrArg List.length (restored.names_evictable kind)
  rwa [List.length_map, List.length_map, length_evictable, length_evictable] at names

end Registry

namespace Operation

/-- Everything that the three passes of an eviction removed can be defined again, in the order
in which it was handed out: no definition is refused, each table holds the survivors and then
what was removed, and names are bound to what they were bound to, but for identities.
Evicting the owner again removes the same. -/
theorem redefine_evicted {host : Host} (wellFormed : host.registry.WellFormed) (owner : Owner) :
    let constants := host.evict .constant owner
    let types := constants.2.evict .type owner
    let callables := types.2.evict .callable owner
    let operations := constants.1.map host.registry.redefine ++
      types.1.map host.registry.redefine ++ callables.1.map host.registry.redefine
    let redefined := runAll operations callables.2
    redefined.1.map (·.1) = operations ∧
    (∀ done ∈ redefined.1, ∃ (kind : Kind) (entry : Entry kind),
      done.2 = .defined (.ok entry)) ∧
    Registry.Restored owner host.registry redefined.2.registry ∧
    (∀ kind, (redefined.2.evict kind owner).1.map (·.name) =
      (host.evict kind owner).1.map (·.name)) ∧
    (redefined.2.evictAll owner).1 =
      ⟨constants.1.length, types.1.length, callables.1.length⟩ := by
  have types : ((host.evict .constant owner).2.evict .type owner).1 =
      host.registry.evictable .type owner := by
    rw [Host.answer_evict, Host.evictable_evict_of_ne _ _ _ (by decide)]
  have callables : (((host.evict .constant owner).2.evict .type owner).2.evict .callable owner).1 =
      host.registry.evictable .callable owner := by
    rw [Host.answer_evict, Host.evictable_evict_of_ne _ _ _ (by decide),
      Host.evictable_evict_of_ne _ _ _ (by decide)]
  have cleared : (((host.evict .constant owner).2.evict .type owner).2.evict
      .callable owner).2.registry = host.registry.without owner :=
    Host.registry_evictAll owner host
  dsimp only
  rw [Host.answer_evict, types, callables, ← Registry.redefinitions]
  obtain ⟨succeeded, grown⟩ := DefineFree.runAll
    (cleared ▸ wellFormed.defineFree_redefinitions owner) (cleared ▸ wellFormed.without owner)
  rw [cleared] at grown
  have restored := grown.restored wellFormed
  refine ⟨operations_runAll _ _, succeeded, restored, ?_, ?_⟩
  · intro kind
    rw [Host.answer_evict, Host.answer_evict]
    exact restored.names_evictable kind
  · rw [report_evictAll]
    simp only [Registry.length_evictable, restored.owned_eq]

/-- Everything of an owner is defined again: a callable that was hooked since it was made, one
of two constants and a type, next to a type that the platform provides and to what another
owner has. -/
theorem redefine_evicted_of_hooked :
    let owner : Owner := ⟨0, "component"⟩
    let other : Owner := ⟨1, "other"⟩
    let first : Name := ⟨[0x66]⟩
    let second : Name := ⟨[0x67]⟩
    let third : Name := ⟨[0x68]⟩
    let registry := (((((((Registry.empty.put (.callable first owner .image ⟨1⟩)).put
      (.callable second other .image ⟨2⟩)).put (.callable third owner .image ⟨3⟩)).retarget 0
      ⟨4⟩).put (.constant first (.int 1) ⟨0⟩ owner)).put (.constant second (.int 2) ⟨0⟩ other)).put
      (.type first owner .intrinsic)).put (.type second owner .image)
    let host : Host := ⟨registry, []⟩
    let constants := host.evict .constant owner
    let types := constants.2.evict .type owner
    let callables := types.2.evict .callable owner
    let operations := constants.1.map registry.redefine ++ types.1.map registry.redefine ++
      callables.1.map registry.redefine
    let redefined := runAll operations callables.2
    registry.WellFormed ∧ operations.length = 4 ∧
      Registry.Restored owner registry redefined.2.registry ∧
      (redefined.2.registry.current .callable).names = [second, first, third] ∧
      redefined.2.registry.handlers = [⟨2⟩, ⟨4⟩, ⟨3⟩] ∧
      (redefined.2.registry.current .type).names = [first, second] ∧
      (redefined.2.evictAll owner).1 = ⟨1, 1, 2⟩ := by
  intro owner other first second third registry
  have wellFormed : registry.WellFormed :=
    (((((((Registry.wellFormed_empty.put _).put _).put _).retarget _ _).put _).put _).put _).put _
  have result := @redefine_evicted ⟨registry, []⟩ wellFormed owner
  dsimp only at result ⊢
  obtain ⟨-, -, restored, -, report⟩ := result
  refine ⟨wellFormed, by decide +kernel, restored, by decide +kernel, by decide +kernel,
    by decide +kernel, report.trans (by decide +kernel)⟩

end Operation
end Interposition
