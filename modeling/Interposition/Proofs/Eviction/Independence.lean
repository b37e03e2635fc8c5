import Interposition.Proofs.Eviction.Without
/-!
Evictions and what others do meanwhile.

An operation that is made for other owners, and that names nothing the eviction of an
owner would remove, does not notice whether that eviction has taken place: it answers the
same, and leaves the same behind but for what is evicted (`Operation.unaware_run`).  So
it does not matter when in a run of such operations the owner is evicted.

What an operation does to a registry is the publication of a table, of which
`Registry.without_publish` says it, or the exchange of a target, which is in no table.
`Registry.Commutes` collects what the one change keeps for the next.
-/

namespace Interposition

namespace Operation

/-- The owner for whom an operation is made. -/
def actsFor? : Operation → Option Owner
  | .define draft => some draft.owner
  | .force _ _ _ owner | .hook _ _ _ owner | .batch _ _ owner | .evict _ owner => some owner
  | .patch .. | .remove .. => none

/-- The names that an operation is about, each with its table. -/
def subjects : Operation → List (Kind × Name)
  | @define kind draft => [(kind, draft.name)]
  | .force name .. => [(.constant, name)]
  | .hook _ name .. | .patch name _ => [(.callable, name)]
  | .batch _ hooks _ => hooks.map fun hook => (.callable, hook.1)
  | .remove kind name => [(kind, name)]
  | .evict .. => []

end Operation

namespace Registry

/-- Whether the eviction of an owner removes nothing under a name. -/
def Keeps (owner : Owner) (registry : Registry) (kind : Kind) (name : Name) : Prop :=
  ∀ entry ∈ registry.evictable kind owner, entry.name ≠ name

/-- Whether a change of a registry to `next` commutes with the eviction of an owner: the eviction
still removes the same, and `rest`, which the change made of the registry without the owner,
is `next` without the owner. -/
structure Commutes (owner : Owner) (registry next rest : Registry) : Prop where
  wellFormed : next.WellFormed
  evictable : ∀ kind, next.evictable kind owner = registry.evictable kind owner
  without : rest = next.without owner

end Registry

/-- Whether an operation keeps away from an owner: it is made for somebody else, and the
eviction of the owner removes nothing that it names. -/
structure Operation.KeepsFrom (owner : Owner) (registry : Registry) (operation : Operation) :
    Prop where
  foreign : operation.actsFor? ≠ some owner
  elsewhere : ∀ subject ∈ operation.subjects, registry.Keeps owner subject.1 subject.2

instance (owner : Owner) (registry : Registry) (kind : Kind) (name : Name) :
    Decidable (registry.Keeps owner kind name) :=
  inferInstanceAs (Decidable (∀ entry ∈ registry.evictable kind owner, entry.name ≠ name))

instance (owner : Owner) (registry : Registry) (operation : Operation) :
    Decidable (operation.KeepsFrom owner registry) :=
  decidable_of_iff
    (operation.actsFor? ≠ some owner ∧
      ∀ subject ∈ operation.subjects, registry.Keeps owner subject.1 subject.2)
    ⟨fun keeps => ⟨keeps.1, keeps.2⟩, fun keepsFrom => ⟨keepsFrom.foreign, keepsFrom.elsewhere⟩⟩

variable {kind : Kind} {owner other : Owner} {registry next rest last : Registry} {name : Name}

theorem Entry.not_isEvictedWith_of_ne {entry : Entry kind} (foreign : entry.owner ≠ owner) :
    entry.isEvictedWith owner = false := by
  simp [isEvictedWith, foreign]

/-- An entry is evicted with one owner at most. -/
theorem Entry.not_isEvictedWith_other (different : other ≠ owner) {entry : Entry kind}
    (evicted : entry.isEvictedWith other = true) : entry.isEvictedWith owner = false := by
  apply not_isEvictedWith_of_ne
  intro owned
  simp [isEvictedWith, owned, different.symm] at evicted

/-- Erasing a name that is kept takes nothing from what the eviction removes. -/
theorem EntryMap.Sound.filter_values_erase {entries : EntryMap kind} (sound : entries.Sound)
    (kept : ∀ entry ∈ entries.values.filter (·.isEvictedWith owner), entry.name ≠ name) :
    (entries.erase name).values.filter (·.isEvictedWith owner) =
      entries.values.filter (·.isEvictedWith owner) := by
  rw [OrderedMap.erase_eq_part, sound.values_part fun other => other ≠ name, List.filter_filter]
  apply List.filter_congr
  intro entry member
  cases evicted : entry.isEvictedWith owner with
  | false => simp
  | true => simpa using kept entry (List.mem_filter.mpr ⟨member, evicted⟩)

namespace Registry

theorem evictable_publish {entries : EntryMap kind} (registry : Registry)
    (same : entries.values.filter (·.isEvictedWith owner) = registry.evictable kind owner)
    (other : Kind) :
    (registry.publish entries).evictable other owner = registry.evictable other owner := by
  by_cases equal : other = kind
  · subst equal
    rw [evictable, current_publish]
    exact same
  · simp only [evictable, current_publish_of_ne registry entries equal]

/-- A table can be published before an eviction or after it, if the eviction removes the same
from it as from the one that it takes the place of. -/
theorem without_publish {entries : EntryMap kind} (registry : Registry)
    (same : entries.values.filter (·.isEvictedWith owner) = registry.evictable kind owner) :
    (registry.without owner).publish (entries.part owner.spares) =
      (registry.publish entries).without owner := by
  apply ext_current
  · intro other
    rw [current_without]
    by_cases equal : other = kind
    · subst equal
      -- Both sides count the eviction as a version of its own exactly if it removes something.
      have removed : (registry.current other).toList.filter (·.isEvictedWith owner) =
          entries.values.filter (·.isEvictedWith owner) := same.symm
      rw [current_publish, current_publish, current_without, Snapshot.without, Snapshot.without,
        removed, Snapshot.toList]
      split
      · rename_i nothing
        rw [part_spares_eq_self other owner (List.isEmpty_iff.mp nothing)]
      · rfl
    · simp only [current_publish_of_ne _ _ equal, current_without]
  · simp
  · simp

theorem allocate_without (owner : Owner) (draft : Draft kind) (registry : Registry) :
    ((registry.without owner).allocate draft).2 = (registry.allocate draft).2.without owner := by
  cases draft <;> rfl

/-- An eviction leaves alone what the other owners have. -/
theorem evictable_without_of_ne (different : other ≠ owner) (registry : Registry) (kind : Kind) :
    (registry.without owner).evictable kind other = registry.evictable kind other := by
  rw [evictable, current_without, Snapshot.toList_without, List.filter_filter]
  apply List.filter_congr
  intro entry _
  cases evicted : entry.isEvictedWith other with
  | false => rfl
  | true => simp [Entry.not_isEvictedWith_other different evicted]

/-- A name that is kept is bound to the same before and after an eviction. -/
theorem WellFormed.get?_without_of_keeps (wellFormed : registry.WellFormed)
    (keeps : registry.Keeps owner kind name) :
    (registry.without owner).get? kind name = registry.get? kind name := by
  rw [wellFormed.get?_without]
  cases found : registry.get? kind name with
  | none => rfl
  | some entry =>
      have member := EntryMap.mem_values_of_get? found
      have spared : entry.isEvictedWith owner = false := by
        by_contra evicted
        refine keeps entry (List.mem_filter.mpr ⟨member, by simpa using evicted⟩) ?_
        exact wellFormed.name_eq found
      simp [spared]

namespace Commutes

theorem refl (wellFormed : registry.WellFormed) :
    Commutes owner registry registry (registry.without owner) :=
  ⟨wellFormed, fun _ => rfl, rfl⟩

/-- What is kept stays kept. -/
theorem keeps (commutes : Commutes owner registry next rest)
    (keeps : registry.Keeps owner kind name) : next.Keeps owner kind name := by
  rw [Keeps, commutes.evictable]
  exact keeps

theorem trans {after : Registry} (first : Commutes owner registry next rest)
    (second : Commutes owner next last after) : Commutes owner registry last after where
  wellFormed := second.wellFormed
  evictable kind := (second.evictable kind).trans (first.evictable kind)
  without := second.without

/-- A new entry of another owner. -/
theorem put (wellFormed : registry.WellFormed) {draft : Draft kind}
    (foreign : draft.owner ≠ owner) (keeps : registry.Keeps owner kind draft.name) :
    Commutes owner registry (registry.put draft) ((registry.without owner).put draft) := by
  have spared : (draft.entry registry.fresh).isEvictedWith owner = false :=
    Entry.not_isEvictedWith_of_ne foreign
  -- The entry may displace one, but none that the eviction removes, and is none itself.
  have same : ((registry.current kind).entries.append draft.name
      (draft.entry registry.fresh)).values.filter (·.isEvictedWith owner) =
      (registry.allocate draft).2.evictable kind owner := by
    have appended := EntryMap.values_append (registry.current kind).entries
      (draft.entry registry.fresh)
    have kept : ((registry.current kind).entries.erase
        (draft.entry registry.fresh).name).values.filter (·.isEvictedWith owner) =
        registry.evictable kind owner := (wellFormed.sound kind).filter_values_erase keeps
    refine (congrArg (List.filter _) appended).trans ?_
    rw [List.filter_append, kept, List.filter_cons_of_neg (by simp [spared]), List.filter_nil,
      List.append_nil, Registry.evictable, Registry.evictable, current_allocate]
  constructor
  case wellFormed => exact wellFormed.put draft
  case evictable =>
    intro other
    rw [Registry.put, evictable_publish _ same]
    simp only [Registry.evictable, current_allocate]
  case without =>
    have passes : owner.spares (draft.name, draft.entry registry.fresh) = true := by
      simp [Owner.spares, spared]
    rw [Registry.put, Registry.put, allocate_without, ← without_publish _ same, current_without,
      Snapshot.entries_without, OrderedMap.part_append_of_pos passes, fresh_without]

theorem retarget (wellFormed : registry.WellFormed) (id : EntryId) (handler : Handler) :
    Commutes owner registry (registry.retarget id handler)
      ((registry.without owner).retarget id handler) where
  wellFormed := wellFormed.retarget id handler
  evictable kind := by simp only [Registry.evictable, current_retarget]
  without := rfl

/-- A table that loses entries, but none that the eviction removes. -/
theorem publish_part (wellFormed : registry.WellFormed) (test : Name × Entry kind → Bool)
    (same : ((registry.current kind).entries.part test).values.filter (·.isEvictedWith owner) =
      registry.evictable kind owner) :
    Commutes owner registry (registry.publish ((registry.current kind).entries.part test))
      ((registry.without owner).publish
        (((registry.without owner).current kind).entries.part test)) := by
  have swapped : ((registry.without owner).current kind).entries.part test =
      ((registry.current kind).entries.part test).part owner.spares := by
    rw [current_without, Snapshot.entries_without, OrderedMap.part_part, OrderedMap.part_part]
    simp only [Bool.and_comm]
  rw [swapped, without_publish _ same]
  refine ⟨?_, evictable_publish _ same, rfl⟩
  exact (thinned_publish List.filter_sublist).wellFormed wellFormed

end Commutes
end Registry

/-- What is kept stays kept, so an operation stays away. -/
theorem Operation.KeepsFrom.of_commutes {operation : Operation}
    (keepsFrom : operation.KeepsFrom owner registry)
    (commutes : Registry.Commutes owner registry next rest) : operation.KeepsFrom owner next where
  foreign := keepsFrom.foreign
  elsewhere subject member := commutes.keeps (keepsFrom.elsewhere subject member)

namespace Host

open Registry (Commutes)

theorem report_hookBatch (deny : DenyList) (hooks : List (Name × Handler)) (owner : Owner)
    (host : Host) :
    (host.hookBatch deny hooks owner).1 = ⟨(hookEach deny owner hooks host).1⟩ :=
  congrArg BatchReport.mk (outcomes_hookBatch deny hooks owner host)

/-- A forced constant answers what its name was bound to. -/
theorem answer_forceConstant (name : Name) (value : Value) (flags : ConstFlags) (owner : Owner)
    (host : Host) :
    (host.forceConstant name value flags owner).1 = host.registry.get? .constant name := by
  have replaced := Registry.replace_eq_put (.constant name value flags owner) host.registry
  simp only [forceConstant, onRegistry, replaced, Draft.name]
  cases host.registry.get? .constant name <;> rfl

/-- Whether an action does not notice that an owner was evicted: without the owner, it answers
the same and leaves the same behind, but for what is evicted. -/
structure Unaware {α : Type} (owner : Owner) (action : Host → α × Host) (host rest : Host) :
    Prop where
  answer : (action rest).1 = (action host).1
  commutes : Commutes owner host.registry (action host).2.registry (action rest).2.registry

variable {host rest : Host} (wellFormed : host.registry.WellFormed)
  (cleared : rest.registry = host.registry.without owner)

include wellFormed cleared

/-- A name that is kept is bound to the same on both sides. -/
theorem get?_of_cleared (keeps : host.registry.Keeps owner kind name) :
    rest.registry.get? kind name = host.registry.get? kind name := by
  rw [cleared, wellFormed.get?_without_of_keeps keeps]

/-- A definition for another owner under a name that is kept. -/
theorem unaware_define {draft : Draft kind} (foreign : draft.owner ≠ owner)
    (keeps : host.registry.Keeps owner kind draft.name) :
    Unaware owner (onRegistry (Registry.define draft)) host rest := by
  have bound : rest.registry.contains kind draft.name = host.registry.contains kind draft.name :=
    congrArg Option.isSome (get?_of_cleared wellFormed cleared keeps)
  cases taken : host.registry.contains kind draft.name with
  | true =>
      rw [taken] at bound
      constructor <;> simp only [onRegistry, Registry.define_of_taken draft _ taken,
        Registry.define_of_taken draft _ bound]
      exact cleared ▸ .refl wellFormed
  | false =>
      rw [taken] at bound
      constructor <;> simp only [onRegistry, Registry.define_eq_put draft _ taken,
        Registry.define_eq_put draft _ bound] <;> rw [cleared]
      · rfl
      · exact .put wellFormed foreign keeps

/-- A constant that is forced for another owner under a name that is kept. -/
theorem unaware_forceConstant (value : Value) (flags : ConstFlags) (foreign : other ≠ owner)
    (keeps : host.registry.Keeps owner .constant name) :
    Unaware owner (forceConstant name value flags other) host rest where
  answer := by
    simp only [answer_forceConstant, get?_of_cleared wellFormed cleared keeps]
  commutes := by
    simp only [Registration.registry_forceConstant, cleared]
    exact .put wellFormed foreign keeps

/-- A patch of a name that is kept. -/
theorem unaware_patch (handler : Handler) (keeps : host.registry.Keeps owner .callable name) :
    Unaware owner (patch name handler) host rest := by
  have bound := get?_of_cleared wellFormed cleared keeps
  cases found : host.registry.get? .callable name with
  | some entry =>
      rw [found] at bound
      constructor <;> rw [patch_of_found handler found, patch_of_found handler bound, cleared]
      · rfl
      · exact .retarget wellFormed entry.id handler
  | none =>
      rw [found] at bound
      constructor <;> rw [patch_of_absent handler found, patch_of_absent handler bound]
      exact cleared ▸ .refl wellFormed

/-- A hook for another owner on a name that is kept. -/
theorem unaware_hook (deny : DenyList) (handler : Handler) (foreign : other ≠ owner)
    (keeps : host.registry.Keeps owner .callable name) :
    Unaware owner (hook deny name handler other) host rest := by
  have bound := get?_of_cleared wellFormed cleared keeps
  cases found : host.registry.get? .callable name with
  | some entry =>
      rw [found] at bound
      constructor <;> rw [hook_of_found deny handler other found,
        hook_of_found deny handler other bound, cleared]
      · rfl
      · exact .retarget wellFormed entry.id handler
  | none =>
      rw [found] at bound
      constructor <;> rw [hook_of_absent deny handler other found,
        hook_of_absent deny handler other bound]
      · split <;> rfl
      · split
        · exact cleared ▸ .refl wellFormed
        · simp only [registry_install handler other found, registry_install handler other bound,
            cleared]
          exact .put wellFormed foreign keeps

/-- The hooks of a batch, one after the other. -/
theorem unaware_hookEach (deny : DenyList) (foreign : other ≠ owner)
    (hooks : List (Name × Handler))
    (keeps : ∀ hook ∈ hooks, host.registry.Keeps owner .callable hook.1) :
    Unaware owner (hookEach deny other hooks) host rest := by
  induction hooks generalizing host rest with
  | nil => exact ⟨rfl, cleared ▸ .refl wellFormed⟩
  | cons pair others inductionHypothesis =>
      obtain ⟨name, handler⟩ := pair
      obtain ⟨keepsFirst, keepsOthers⟩ := List.forall_mem_cons.mp keeps
      have first := unaware_hook wellFormed cleared deny handler foreign keepsFirst
      have second := inductionHypothesis first.commutes.wellFormed first.commutes.without
        fun hook member => first.commutes.keeps (keepsOthers hook member)
      constructor
      · simp only [hookEach, first.answer, second.answer]
      · exact first.commutes.trans second.commutes

/-- A removal of a name that is kept. -/
theorem unaware_remove (keeps : host.registry.Keeps owner kind name) :
    Unaware owner (onRegistry (Registry.remove kind name)) host rest := by
  have bound := get?_of_cleared wellFormed cleared keeps
  cases found : host.registry.get? kind name with
  | none =>
      rw [found] at bound
      constructor <;> simp only [onRegistry, Registry.remove_of_absent found,
        Registry.remove_of_absent bound]
      exact cleared ▸ .refl wellFormed
  | some entry =>
      rw [found] at bound
      constructor <;> simp only [onRegistry, Registry.remove_of_found found,
        Registry.remove_of_found bound]
      rw [cleared]
      exact .publish_part wellFormed _ ((wellFormed.sound kind).filter_values_erase keeps)

/-- An eviction of another owner. -/
theorem unaware_evict (different : other ≠ owner) (kind : Kind) :
    Unaware owner (evict kind other) host rest := by
  have removed := Registry.evictable_without_of_ne different host.registry kind
  constructor
  case answer => rw [answer_evict, answer_evict, cleared, removed]
  case commutes =>
    rw [registry_evict, registry_evict, cleared, removed]
    split
    · exact .refl wellFormed
    · apply Commutes.publish_part wellFormed
      rw [values_part_spares, List.filter_filter]
      apply List.filter_congr
      intro entry _
      cases evicted : entry.isEvictedWith owner with
      | false => rfl
      | true => simp [Entry.not_isEvictedWith_other different.symm evicted]

end Host

namespace Operation

section Run

variable {host rest : Host} (wellFormed : host.registry.WellFormed)
  (cleared : rest.registry = host.registry.without owner)

include wellFormed cleared

/-- An operation that keeps away from an owner does not notice whether the owner was evicted. -/
theorem unaware_run {operation : Operation} (keepsFrom : operation.KeepsFrom owner host.registry) :
    Host.Unaware owner operation.run host rest := by
  obtain ⟨foreign, elsewhere⟩ := keepsFrom
  cases operation with
  | @define kind draft =>
      have unaware := Host.unaware_define wellFormed cleared
        (fun same => foreign (congrArg some same))
        (elsewhere (kind, draft.name) List.mem_cons_self)
      exact ⟨congrArg Answer.defined unaware.answer, unaware.commutes⟩
  | force name value flags other =>
      have unaware := Host.unaware_forceConstant wellFormed cleared value flags
        (fun same => foreign (congrArg some same))
        (elsewhere (.constant, name) List.mem_cons_self)
      exact ⟨congrArg Answer.forced unaware.answer, unaware.commutes⟩
  | hook deny name handler other =>
      have unaware := Host.unaware_hook wellFormed cleared deny handler
        (fun same => foreign (congrArg some same))
        (elsewhere (.callable, name) List.mem_cons_self)
      exact ⟨congrArg Answer.hooked unaware.answer, unaware.commutes⟩
  | batch deny hooks other =>
      have unaware := Host.unaware_hookEach wellFormed cleared deny
        (fun same => foreign (congrArg some same)) hooks
        fun hook member => elsewhere (.callable, hook.1) (List.mem_map_of_mem member)
      constructor
      · simp only [run, Host.report_hookBatch, unaware.answer]
      · simp only [run, Host.registry_hookBatch, unaware.commutes]
  | patch name handler =>
      have unaware := Host.unaware_patch wellFormed cleared handler
        (elsewhere (.callable, name) List.mem_cons_self)
      exact ⟨congrArg Answer.patched unaware.answer, unaware.commutes⟩
  | remove kind name =>
      have unaware := Host.unaware_remove wellFormed cleared
        (elsewhere (kind, name) List.mem_cons_self)
      exact ⟨congrArg Answer.removed unaware.answer, unaware.commutes⟩
  | evict kind other =>
      have unaware := Host.unaware_evict wellFormed cleared
        (fun same => foreign (congrArg some same)) kind
      exact ⟨congrArg Answer.evicted unaware.answer, unaware.commutes⟩

/-- Nor does a run of such operations. -/
theorem unaware_runAll {operations : List Operation}
    (keepsFrom : ∀ operation ∈ operations, operation.KeepsFrom owner host.registry) :
    Host.Unaware owner (runAll operations) host rest := by
  induction operations generalizing host rest with
  | nil => exact ⟨rfl, cleared ▸ .refl wellFormed⟩
  | cons operation others inductionHypothesis =>
      obtain ⟨keepsFirst, keepsOthers⟩ := List.forall_mem_cons.mp keepsFrom
      have first := unaware_run wellFormed cleared keepsFirst
      have second := inductionHypothesis first.commutes.wellFormed first.commutes.without
        fun operation member => (keepsOthers operation member).of_commutes first.commutes
      constructor
      · simp only [runAll, first.answer, second.answer]
      · exact first.commutes.trans second.commutes

end Run

/-- It does not matter whether an owner is evicted before or after a run of operations that are
made for others and that name nothing the eviction removes: the operations answer the same,
the eviction removes the same, and the registry is the same in the end.  Nor does the order
matter in which an eviction goes over the tables. -/
theorem evictAll_comm_runAll {host : Host} (wellFormed : host.registry.WellFormed)
    {operations : List Operation}
    (keepsFrom : ∀ operation ∈ operations, operation.KeepsFrom owner host.registry) :
    let ran := runAll operations host
    let cleared := host.evictAll owner
    let ranLater := runAll operations cleared.2
    let clearedLater := ran.2.evictAll owner
    ranLater.1 = ran.1 ∧ clearedLater.1 = cleared.1 ∧
    (∀ kind, (ran.2.evict kind owner).1 = (host.evict kind owner).1) ∧
    clearedLater.2.registry = ranLater.2.registry ∧
    ∀ kinds : List Kind, kinds.Perm [.constant, .type, .callable] →
      let passed := runAll (kinds.map (.evict · owner)) host
      passed.1 = kinds.map (fun kind => (.evict kind owner, .evicted (host.evict kind owner).1)) ∧
        passed.2.registry = cleared.2.registry := by
  obtain ⟨answers, commutes⟩ := unaware_runAll wellFormed (Host.registry_evictAll owner host)
    keepsFrom
  refine ⟨answers, ?_, ?_, ?_, ?_⟩
  · simp only [report_evictAll, ← Registry.length_evictable, commutes.evictable]
  · intro kind
    simp only [Host.answer_evict, commutes.evictable]
  · rw [commutes.without, Host.registry_evictAll]
  · intro kinds perm
    have distinct : kinds.Nodup := perm.nodup_iff.mpr (by decide)
    have all (kind : Kind) : kind ∈ kinds := perm.mem_iff.mpr (by cases kind <;> decide)
    dsimp only
    rw [answers_passes owner distinct, registry_passes owner all, Host.registry_evictAll]
    simp only [Host.answer_evict, and_self]

/-- Others define, force, hook, are refused and evict one of them, next to an owner with a
callable that the platform provides, which they hook, too. -/
theorem evictAll_comm_runAll_of_intrinsic :
    let owner : Owner := ⟨0, "component"⟩
    let other : Owner := ⟨1, "other"⟩
    let third : Owner := ⟨0, "third"⟩
    let own : Name := ⟨[0x6f]⟩
    let builtin : Name := ⟨[0x62]⟩
    let shared : Name := ⟨[0x73]⟩
    let made : Name := ⟨[0x6d]⟩
    let registry := ((((Registry.empty.put (.callable own owner .image ⟨1⟩)).put
      (.callable builtin owner .intrinsic ⟨2⟩)).put (.callable shared third .image ⟨3⟩)).put
      (.constant own (.int 1) ⟨0⟩ owner)).put (.constant shared (.int 2) ⟨0⟩ third)
    let operations : List Operation :=
      [.hook .empty builtin ⟨4⟩ other, .define (.callable made other .image ⟨5⟩),
        .define (.callable builtin other .image ⟨6⟩), .force shared (.int 3) ⟨0⟩ other,
        .batch (.ofNames [⟨[0x64]⟩]) [(made, ⟨7⟩), (⟨[0x64]⟩, ⟨8⟩)] other, .patch shared ⟨9⟩,
        .evict .callable third, .define (.type own other .image)]
    let host : Host := ⟨registry, []⟩
    let ranLater := runAll operations (host.evictAll owner).2
    let clearedLater := (runAll operations host).2.evictAll owner
    registry.WellFormed ∧ (∀ operation ∈ operations, operation.KeepsFrom owner registry) ∧
      clearedLater.1 = ⟨1, 0, 1⟩ ∧ clearedLater.2.registry = ranLater.2.registry ∧
      (ranLater.2.registry.current .callable).names = [builtin, made] ∧
      ranLater.2.registry.handlers = [⟨4⟩, ⟨7⟩] ∧
      (runAll [.evict .callable owner, .evict .constant owner, .evict .type owner]
        host).2.registry = (host.evictAll owner).2.registry := by
  intro owner other third own builtin shared made registry operations
  have wellFormed : registry.WellFormed :=
    ((((Registry.wellFormed_empty.put _).put _).put _).put _).put _
  have keepsFrom : ∀ operation ∈ operations, operation.KeepsFrom owner registry := by
    decide +kernel
  obtain ⟨-, report, -, same, orders⟩ :=
    @evictAll_comm_runAll owner ⟨registry, []⟩ wellFormed operations keepsFrom
  refine ⟨wellFormed, keepsFrom, report.trans (by decide +kernel), same, by decide +kernel,
    by decide +kernel, ?_⟩
  exact (orders [.callable, .constant, .type] (by decide)).2

end Operation
end Interposition
