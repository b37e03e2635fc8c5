import Interposition.Proofs.Eviction.Without
/-!
What an eviction removes.

A pass removes the entries that the owner has in a table, and of callables and types
only those that were made in the image.  It hands them out in the order of the table,
and what it leaves keeps its order, so that the table before is the two lists merged
(`Registry.Loses`).  An eviction of all tables does this to each
(`Host.exact_evictions`).
-/

namespace Interposition

/-- Whether a list is made of two others, each of which keeps its order in it. -/
inductive Merges {α : Type} : List α → List α → List α → Prop where
  | nil : Merges [] [] []
  | first {value : α} {first second whole : List α} (merges : Merges first second whole) :
      Merges (value :: first) second (value :: whole)
  | second {value : α} {first second whole : List α} (merges : Merges first second whole) :
      Merges first (value :: second) (value :: whole)

/-- What passes a test and what does not make up a list. -/
theorem merges_filter {α : Type} (test : α → Bool) (whole : List α) :
    Merges (whole.filter test) (whole.filter (!test ·)) whole := by
  induction whole with
  | nil => exact .nil
  | cons value rest inductionHypothesis =>
      cases passes : test value with
      | true => simpa [passes] using inductionHypothesis.first
      | false => simpa [passes] using inductionHypothesis.second

/-- Whether an owner registered an entry: number and name both agree. -/
def Owner.has {kind : Kind} (owner : Owner) (entry : Entry kind) : Bool :=
  entry.owner.number == owner.number && entry.owner.name == owner.name

/-- What becomes of a registry if a table loses the entries that pass a test, and nothing
else happens. -/
structure Registry.Loses {kind : Kind} (test : Entry kind → Bool) (removed : List (Entry kind))
    (before after : Registry) : Prop where
  exactly : removed = (before.current kind).toList.filter test
  kept : (after.current kind).toList = (before.current kind).toList.filter (!test ·)
  merges : Merges removed (after.current kind).toList (before.current kind).toList
  /-- Names of what is kept stay bound to it, and names of what is removed become free. -/
  get?_eq : ∀ name, after.get? kind name = (before.get? kind name).filter (!test ·)
  targets : after.targets = before.targets
  others : ∀ other, other ≠ kind → after.current other = before.current other
  fresh : after.fresh = before.fresh

variable {owner : Owner} {host : Host}

/-- An eviction removes what the owner has, except what the platform provides. -/
theorem Entry.isEvictedWith_eq {kind : Kind} (owner : Owner) (entry : Entry kind) :
    entry.isEvictedWith owner = (owner.has entry && entry.isEvictable) := by
  have same : (entry.owner == owner) = owner.has entry := by
    rw [Bool.eq_iff_iff, Owner.has, Bool.and_eq_true, beq_iff_eq, beq_iff_eq, beq_iff_eq]
    obtain ⟨_, _, ⟨_, _⟩, _⟩ := entry
    obtain ⟨_, _⟩ := owner
    simp
  rw [isEvictedWith, same]

theorem Origin.isImage_eq (origin : Origin) : origin.isImage = (origin == .image) := by
  cases origin <;> rfl

namespace Host

theorem loses_evict (wellFormed : host.registry.WellFormed) (kind : Kind) (owner : Owner) :
    Registry.Loses (Entry.isEvictedWith owner) (host.evict kind owner).1 host.registry
      (host.evict kind owner).2.registry := by
  have kept := values_part_spares kind owner (host.registry.current kind).entries
  rw [← entries_evict] at kept
  constructor
  case exactly => exact answer_evict kind owner host
  case kept => exact kept
  case merges =>
    rw [answer_evict, Snapshot.toList, kept]
    exact merges_filter _ _
  case get?_eq =>
    intro name
    rw [Registry.get?, Snapshot.get?, entries_evict,
      OrderedMap.get?_part (wellFormed.sound kind).distinctKeys]
    rfl
  case targets => exact targets_evict kind owner host
  case others => exact fun other different => current_evict_of_ne kind owner host different
  case fresh => exact fresh_evict kind owner host

/-- A pass that finds nothing of the owner removes nothing and publishes nothing. -/
theorem evict_of_nothing {kind : Kind} (nothing : host.registry.evictable kind owner = []) :
    (host.evict kind owner).1 = [] ∧ (host.evict kind owner).2.registry = host.registry := by
  have none : (host.registry.current kind).toList.filter (·.isEvictedWith owner) = [] := nothing
  simp [evict, onRegistry, emit, retain_eq, none]

theorem evict_again (kind : Kind) (owner : Owner) (host : Host) :
    ((host.evict kind owner).2.evict kind owner).1 = [] ∧
      ((host.evict kind owner).2.evict kind owner).2.registry =
        (host.evict kind owner).2.registry := by
  apply evict_of_nothing
  rw [Registry.evictable, current_evict_self, Snapshot.filter_without]

theorem evictAll_again (owner : Owner) (host : Host) :
    ((host.evictAll owner).2.evictAll owner).1 = ⟨0, 0, 0⟩ ∧
      ((host.evictAll owner).2.evictAll owner).2.registry =
        (host.evictAll owner).2.registry := by
  constructor
  · simp [report_evictAll, (cleared_evictAll owner host).owned_eq_zero]
  · rw [registry_evictAll, registry_evictAll, Registry.without_without]

/-- A pass removes exactly what its owner has in its table, and what it leaves keeps its
order and its targets.  An eviction of all tables removes what the three passes remove, and
reports how much that is.  Repeating a pass or an eviction does nothing.

Every registry that operations lead to is well formed. -/
theorem exact_evictions {host : Host} (wellFormed : host.registry.WellFormed) (owner : Owner) :
    let constants := host.evict .constant owner
    let types := host.evict .type owner
    let callables := host.evict .callable owner
    let cleared := host.evictAll owner
    Registry.Loses (fun entry : Constant => owner.has entry)
      constants.1 host.registry constants.2.registry ∧
    Registry.Loses (fun entry : TypeDef => owner.has entry && entry.content == Origin.image)
      types.1 host.registry types.2.registry ∧
    Registry.Loses (fun entry : Callable => owner.has entry && entry.content == Origin.image)
      callables.1 host.registry callables.2.registry ∧
    (∀ kind, cleared.2.registry.current kind = (host.evict kind owner).2.registry.current kind) ∧
    cleared.2.registry.targets = host.registry.targets ∧
    cleared.1 = ⟨constants.1.length, types.1.length, callables.1.length⟩ ∧
    cleared.1.total = constants.1.length + types.1.length + callables.1.length ∧
    (∀ kind, let passed := (host.evict kind owner).2
      (passed.evict kind owner).1 = [] ∧
        (passed.evict kind owner).2.registry = passed.registry) ∧
    (cleared.2.evictAll owner).1 = ⟨0, 0, 0⟩ ∧
    (cleared.2.evictAll owner).2.registry = cleared.2.registry := by
  have report : (host.evictAll owner).1 =
      ⟨(host.evict .constant owner).1.length, (host.evict .type owner).1.length,
        (host.evict .callable owner).1.length⟩ := by
    simp only [report_evictAll, length_evict]
  obtain ⟨nothing, unchanged⟩ := evictAll_again owner host
  dsimp only
  refine ⟨?_, ?_, ?_, ?_, ?_, report, ?_, fun kind => evict_again kind owner host, nothing,
    unchanged⟩
  · have test : (Entry.isEvictedWith owner : Constant → Bool) = fun entry => owner.has entry := by
      funext entry
      simp [Entry.isEvictedWith_eq, Entry.isEvictable]
    have loses := loses_evict wellFormed .constant owner
    rw [test] at loses
    exact loses
  · have test : (Entry.isEvictedWith owner : TypeDef → Bool) =
        fun entry => owner.has entry && entry.content == Origin.image := by
      funext entry
      rw [Entry.isEvictedWith_eq, Entry.isEvictable, Origin.isImage_eq]
    have loses := loses_evict wellFormed .type owner
    rw [test] at loses
    exact loses
  · have test : (Entry.isEvictedWith owner : Callable → Bool) =
        fun entry => owner.has entry && entry.content == Origin.image := by
      funext entry
      rw [Entry.isEvictedWith_eq, Entry.isEvictable, Origin.isImage_eq]
    have loses := loses_evict wellFormed .callable owner
    rw [test] at loses
    exact loses
  · intro kind
    rw [registry_evictAll, Registry.current_without, current_evict_self]
  · rw [registry_evictAll, Registry.targets_without]
  · rw [report, EvictionReport.total]

/-- Evicting an owner next to one with the same number and one with the same name, and next to
callables and types of its own that the platform provides. -/
theorem exact_evictions_of_namesakes :
    let owner : Owner := ⟨1, "component"⟩
    let renumbered : Owner := ⟨2, "component"⟩
    let renamed : Owner := ⟨1, "other"⟩
    let first : Name := ⟨[0x66]⟩
    let second : Name := ⟨[0x67]⟩
    let third : Name := ⟨[0x68]⟩
    let fourth : Name := ⟨[0x69]⟩
    let fifth : Name := ⟨[0x6a]⟩
    let callables := ((((Registry.empty.put (.callable first owner .image ⟨1⟩)).put
      (.callable second renumbered .image ⟨2⟩)).put (.callable third owner .intrinsic ⟨3⟩)).put
      (.callable fourth owner .image ⟨4⟩)).put (.callable fifth renamed .image ⟨5⟩)
    let registry := (((callables.put (.type first owner .intrinsic)).put
      (.type second owner .image)).put (.constant first (.int 1) ⟨0⟩ renamed)).put
      (.constant third (.int 2) ⟨0⟩ owner)
    let host : Host := ⟨registry, []⟩
    let cleared := host.evictAll owner
    registry.WellFormed ∧
      (host.evict .constant owner).1.map (·.name) = [third] ∧
      (host.evict .type owner).1.map (·.name) = [second] ∧
      (host.evict .callable owner).1.map (·.name) = [first, fourth] ∧
      (cleared.2.registry.current .callable).names = [second, third, fifth] ∧
      cleared.1 = ⟨1, 1, 2⟩ ∧ cleared.1.total = 4 ∧ (cleared.2.evictAll owner).1 = ⟨0, 0, 0⟩ := by
  intro owner renumbered renamed first second third fourth fifth callables registry
  have wellFormed : registry.WellFormed :=
    ((((((((Registry.wellFormed_empty.put _).put _).put _).put _).put _).put _).put _).put _).put _
  obtain ⟨constants, types, callables, -, -, report, total, -, again, -⟩ :=
    @exact_evictions ⟨registry, []⟩ wellFormed owner
  refine ⟨wellFormed, ?_, ?_, ?_, by decide +kernel, ?_, ?_, again⟩
  · rw [constants.exactly]
    decide +kernel
  · rw [types.exactly]
    decide +kernel
  · rw [callables.exactly]
    decide +kernel
  · exact report.trans (by decide +kernel)
  · exact total.trans (by decide +kernel)

end Host
end Interposition
