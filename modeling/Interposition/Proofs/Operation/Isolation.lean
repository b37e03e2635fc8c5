import Interposition.Image
import Interposition.Proofs.Operation.Deeds
import Interposition.Proofs.Registry.Evolution
import Interposition.Proofs.Takeover.Ending
/-!
Entries that left their table.

Callers keep entries that they looked up, and exchange targets through them.  As long
as an entry stands in its table, this is what a patch of its name does.  Once it has
left, by an eviction, a removal or another constant under its name, it has nothing to
do with the registry any more, in either direction: nothing that is done to the host,
to a new entry of the same name among it, reaches the old entry, and nothing that is
done to the old entry reaches the tables and the entries in them.

`Host.Reaches` is what callers can do to a host.  It comes down to
`Registry.Evolves`, from which `Host.Reaches.isolates` follows.
-/

namespace Interposition

/-- What callers make of a host by any number of calls.  Entries with the identities in
`held` are those whose targets they exchange directly. -/
inductive Host.Reaches (held : EntryId → Prop) : Host → Host → Prop where
  | refl (host : Host) : Reaches held host host
  | operation {first host : Host} (reaches : Reaches held first host) (operation : Operation) :
      Reaches held first (operation.run host).2
  /-- Bind a name to a new entry, whatever held it. -/
  | replace {first host : Host} (reaches : Reaches held first host) {kind : Kind}
      (draft : Draft kind) : Reaches held first (host.onRegistry (Registry.replace draft)).2
  /-- Edit a table.  The edit has to derive what it publishes from the entries that it is
  given, which it may leave out and not make up. -/
  | update {first host : Host} (reaches : Reaches held first host) {kind : Kind} {α : Type}
      (edit : EntryMap kind → Edit kind α)
      (derived : ∀ entries next answer, edit entries = .publish next answer →
        next.pairs.Sublist entries.pairs) :
      Reaches held first (host.onRegistry (Registry.update edit)).2
  /-- Exchange the target of an entry that a caller holds. -/
  | exchange {first host : Host} (reaches : Reaches held first host) {id : EntryId}
      (chosen : held id) (handler : Handler) :
      Reaches held first (host.onRegistry (Registry.swapTarget id handler)).2
  /-- Call a callable, whose handlers may call and patch others. -/
  | call {first : Host} {image next : Image} (reaches : Reaches held first image.host)
      {depth : Nat} {name : Name} {arguments : List Value} {answer : Option Value}
      (called : image.callNamed depth name arguments = some (answer, next)) :
      Reaches held first next.host
  /-- Take over a component.  What registers the replacements may do anything else, too. -/
  | takeover {first host : Host} (reaches : Reaches held first host) (takeover : Takeover)
      (register : Registrar → Host → Except TakeoverError Unit × Host)
      (registers : ¬takeover.Premature host.registry →
        Reaches held (takeover.cleared host)
          (register takeover.registrar (takeover.cleared host)).2) :
      Reaches held first (takeover.supersede register host).2

namespace Registry

/-- Exchange the target of an entry that a caller holds, again and again. -/
def exchangeAll (id : EntryId) (handlers : List Handler) (registry : Registry) : Registry :=
  handlers.foldl (fun registry handler => (registry.swapTarget id handler).2) registry

/-- That a callable has nothing to do with a registry: it does not stand in the table, and
exchanging its target is seen by nobody who does not hold it. -/
structure Isolates (registry : Registry) (id : EntryId) : Prop where
  absent : id ∉ EntryMap.ids (registry.current .callable).entries
  current : ∀ handlers kind, (registry.exchangeAll id handlers).current kind = registry.current kind
  get? : ∀ handlers kind name,
    (registry.exchangeAll id handlers).get? kind name = registry.get? kind name
  target : ∀ handlers, ∀ entry ∈ (registry.current .callable).toList,
    (registry.exchangeAll id handlers).target entry = registry.target entry
  resolve? : ∀ handlers name,
    (registry.exchangeAll id handlers).resolve? name = registry.resolve? name

@[simp] theorem current_exchangeAll (id : EntryId) (handlers : List Handler)
    (registry : Registry) (kind : Kind) :
    (registry.exchangeAll id handlers).current kind = registry.current kind := by
  induction handlers generalizing registry with
  | nil => rfl
  | cons handler rest inductionHypothesis =>
      exact (inductionHypothesis _).trans (current_swapTarget registry id handler)

theorem targets_exchangeAll_of_ne {id other : EntryId} (different : other ≠ id)
    (handlers : List Handler) (registry : Registry) :
    (registry.exchangeAll id handlers).targets other = registry.targets other := by
  induction handlers generalizing registry with
  | nil => rfl
  | cons handler rest inductionHypothesis =>
      exact (inductionHypothesis _).trans
        (targets_retarget_of_ne registry id handler different)

/-- A callable that does not stand in the table is isolated. -/
theorem isolates_of_absent {registry : Registry} {id : EntryId}
    (absent : id ∉ EntryMap.ids (registry.current .callable).entries) : registry.Isolates id where
  absent := absent
  current handlers kind := current_exchangeAll id handlers registry kind
  get? handlers kind name := by
    rw [Registry.get?, Registry.get?, current_exchangeAll]
  target handlers entry member := by
    refine targets_exchangeAll_of_ne ?_ handlers registry
    rintro rfl
    exact absent (EntryMap.mem_ids_of_mem member)
  resolve? handlers name := by
    rw [Registry.resolve?, Registry.resolve?, Registry.get?, current_exchangeAll]
    refine Option.map_congr fun entry found => targets_exchangeAll_of_ne ?_ handlers registry
    rintro rfl
    exact absent (EntryMap.mem_ids_of_mem (EntryMap.mem_values_of_get? found))

end Registry

open Registry (Changes Evolves)

variable {held : EntryId → Prop}

/-- What deeds make of a registry is an evolution. -/
theorem Deed.DoAll.evolves {registry last : Registry} {deeds : List Deed}
    (doAll : DoAll registry deeds last) : Evolves held registry last := by
  induction doAll with
  | nil => exact .refl
  | cons does _ inductionHypothesis =>
      refine .head ?_ inductionHypothesis
      cases does with
      | made free => exact .put _
      | pointed handler found => exact .patched found handler
      | removed narrowed => exact .thinned narrowed.thinned
      | evicted narrowed => exact .thinned narrowed.thinned

namespace Script

/-- What a handler does to the host is to patch callables. -/
theorem evolves_run {invoke : Handler → List Value → Image → Option (Value × Image)}
    (invoked : ∀ handler arguments image value next,
      invoke handler arguments image = some (value, next) →
        Evolves held image.host.registry next.host.registry)
    (script : Script) {image next : Image} {value : Value}
    (ran : script.run invoke image = some (value, next)) :
    Evolves held image.host.registry next.host.registry := by
  induction script generalizing image with
  | done value =>
      cases ran
      exact .refl
  | call handler arguments next inductionHypothesis =>
      rw [run] at ran
      split at ran
      · cases ran
      · rename_i result image called
        exact (invoked _ _ _ _ _ called).trans (inductionHypothesis _ ran)
  | callSaved slot arguments next inductionHypothesis =>
      rw [run] at ran
      split at ran
      · exact inductionHypothesis _ ran
      · split at ran
        · cases ran
        · rename_i called
          exact (invoked _ _ _ _ _ called).trans (inductionHypothesis _ ran)
  | callNamed name arguments next inductionHypothesis =>
      rw [run] at ran
      split at ran
      · exact inductionHypothesis _ ran
      · split at ran
        · cases ran
        · rename_i called
          exact (invoked _ _ _ _ _ called).trans (inductionHypothesis _ ran)
  | patch name handler next inductionHypothesis =>
      rw [run] at ran
      exact (Operation.doAll_patch image.host name handler).evolves.trans
        (inductionHypothesis _ ran)

end Script

namespace Image

theorem evolves_invoke (depth : Nat) {handler : Handler} {arguments : List Value}
    {image next : Image} {value : Value}
    (called : invoke depth handler arguments image = some (value, next)) :
    Evolves held image.host.registry next.host.registry := by
  induction depth generalizing handler arguments image value next with
  | zero => cases called
  | succ depth inductionHypothesis =>
      exact Script.evolves_run (fun _ _ _ _ _ => inductionHypothesis) _ called

theorem evolves_callNamed {depth : Nat} {name : Name} {arguments : List Value}
    {image next : Image} {answer : Option Value}
    (called : image.callNamed depth name arguments = some (answer, next)) :
    Evolves held image.host.registry next.host.registry := by
  rw [callNamed] at called
  split at called
  · cases called
    exact .refl
  · obtain ⟨⟨value, reached⟩, invoked, same⟩ := Option.map_eq_some_iff.mp called
    cases same
    exact evolves_invoke depth invoked

end Image

namespace Takeover

/-- What a takeover makes of a registry that it does not come too early for. -/
theorem registry_supersede {takeover : Takeover} {host : Host}
    (ready : ¬takeover.Premature host.registry)
    (register : Registrar → Host → Except TakeoverError Unit × Host) :
    (takeover.supersede register host).2.registry =
      (register takeover.registrar (takeover.cleared host)).2.registry := by
  rw [supersede, clear_of_not_premature ready]
  dsimp only
  split <;> rename_i ran <;> rw [ran]
  rfl

/-- Clearing the surface of a target is three evictions. -/
theorem evolves_cleared (takeover : Takeover) (host : Host) :
    Evolves held host.registry (takeover.cleared host).registry := by
  cases targeted : takeover.target? with
  | none =>
      simp only [cleared, targeted, Option.elim]
      exact .refl
  | some target =>
      simp only [cleared, targeted, Option.elim, Host.evictAll]
      have evicts (kind : Kind) (host : Host) :
          Evolves held host.registry (host.evict kind target).2.registry :=
        .single (.thinned (host.narrowed_evict kind target).thinned)
      exact ((evicts .constant host).trans (evicts .type _)).trans (evicts .callable _)

end Takeover

namespace Host.Reaches

variable {first last : Host}

/-- What callers make of a host comes down to changes of its registry. -/
theorem evolves (reaches : Reaches held first last) :
    Evolves held first.registry last.registry := by
  induction reaches with
  | refl => exact .refl
  | @operation _ host _ operation inductionHypothesis =>
      exact inductionHypothesis.trans (Operation.doAll_run host operation).evolves
  | @replace _ host _ kind draft inductionHypothesis =>
      refine inductionHypothesis.tail ?_
      rw [onRegistry, Registry.replace_eq_put]
      exact .put draft
  | @update _ host _ kind α edit derived inductionHypothesis =>
      refine inductionHypothesis.trans ?_
      rw [onRegistry, Registry.update]
      split
      rename_i edited
      split at edited <;> cases edited
      · exact .refl
      · rename_i published
        exact .single (.thinned (Registry.thinned_publish (derived _ _ _ published)))
  | exchange _ chosen handler inductionHypothesis =>
      exact inductionHypothesis.tail (.exchanged chosen handler)
  | call _ called inductionHypothesis =>
      exact inductionHypothesis.trans (Image.evolves_callNamed called)
  | @takeover _ host _ takeover register registers inductionHypothesis registersHypothesis =>
      refine inductionHypothesis.trans ?_
      by_cases premature : takeover.Premature host.registry
      · rw [Takeover.supersede_of_premature premature]
      · rw [Takeover.registry_supersede premature]
        exact (takeover.evolves_cleared host).trans (registersHypothesis premature)

end Host.Reaches

/-- An exchange through an entry that stands in the table is a patch of its name. -/
theorem Host.patch_of_mem {host : Host} (wellFormed : host.registry.WellFormed) {entry : Callable}
    (member : entry ∈ (host.registry.current .callable).toList) (handler : Handler) :
    (host.patch entry.name handler).1 = some (host.registry.swapTarget entry.id handler).1 ∧
      (host.patch entry.name handler).2.registry =
        (host.registry.swapTarget entry.id handler).2 := by
  have bound : host.registry.get? .callable entry.name = some entry :=
    (wellFormed.sound .callable).get?_name member
  rw [patch_of_found handler bound]
  exact ⟨rfl, rfl⟩

namespace Host.Reaches

/-- An entry that left its table stays out of it, keeps its content and, as long as nobody
who holds it exchanges it, its target; and exchanging it touches nothing in the registry.
An entry that stands in its table is exchanged as a patch of its name exchanges it. -/
theorem isolated {kind : Kind} {entry : Entry kind} {before between : EntryId → Prop}
    {first second third : Host} (started : Reaches before .empty first)
    (member : entry ∈ (first.registry.current kind).toList)
    (onward : Reaches between first second)
    (gone : entry ∉ (second.registry.current kind).toList) (later : Reaches held second third) :
    (∀ other ∈ (third.registry.current kind).toList, other.id ≠ entry.id) ∧
      (∀ chosen moment, Reaches chosen first moment →
        ∀ other ∈ (moment.registry.current kind).toList, other.id = entry.id → other = entry) ∧
      (kind = .callable →
        (¬held entry.id →
          third.registry.targets entry.id = second.registry.targets entry.id) ∧
        third.registry.Isolates entry.id) ∧
      ∀ live ∈ (third.registry.current .callable).toList, ∀ handler,
        (third.patch live.name handler).1 = some (third.registry.swapTarget live.id handler).1 ∧
        (third.patch live.name handler).2.registry =
          (third.registry.swapTarget live.id handler).2 := by
  have firstFormed := started.evolves.wellFormed Registry.wellFormed_empty
  have secondFormed := onward.evolves.wellFormed firstFormed
  have thirdFormed := later.evolves.wellFormed secondFormed
  have old : entry.id < first.registry.fresh :=
    firstFormed.belowFresh kind entry.id (EntryMap.mem_ids_of_mem member)
  have older := Nat.lt_of_lt_of_le old onward.evolves.fresh_le
  have itself (chosen : EntryId → Prop) (moment : Host) (reaches : Reaches chosen first moment)
      (other : Entry kind) (there : other ∈ (moment.registry.current kind).toList)
      (same : other.id = entry.id) : other = entry :=
    reaches.evolves.eq_of_id_eq firstFormed member there same
  have left : entry.id ∉ EntryMap.ids (second.registry.current kind).entries := by
    intro present
    obtain ⟨other, there, same⟩ := List.mem_map.mp present
    rw [itself between second onward other there same] at there
    exact gone there
  have absent := later.evolves.not_mem_ids secondFormed older left
  refine ⟨?_, itself, ?_, fun live there => third.patch_of_mem thirdFormed there⟩
  · intro other there same
    exact absent (same ▸ EntryMap.mem_ids_of_mem there)
  · rintro rfl
    exact ⟨later.evolves.targets_of_gone secondFormed older left,
      Registry.isolates_of_absent absent⟩

/-- A callable that was evicted while somebody held it, and whose name was defined and
hooked again. -/
theorem isolated_of_eviction :
    let name : Name := ⟨[0x66]⟩
    let owner : Owner := ⟨0, "owner"⟩
    let other : Owner := ⟨1, "other"⟩
    let entry : Callable := ⟨0, name, owner, Origin.image⟩
    let first := ((Operation.define (.callable name owner .image ⟨1⟩)).run .empty).2
    let second := ((Operation.evict .callable owner).run first).2
    let defined := ((Operation.define (.callable name other .image ⟨2⟩)).run second).2
    let third := ((Operation.hook .empty name ⟨3⟩ owner).run defined).2
    entry ∈ (first.registry.current .callable).toList ∧
      entry ∉ (second.registry.current .callable).toList ∧
      third.registry.resolve? name = some ⟨3⟩ ∧
      third.registry.targets entry.id = ⟨1⟩ ∧
      third.registry.Isolates entry.id := by
  intro name owner other entry first second defined third
  have started : Reaches (fun _ => False) .empty first := .operation (.refl _) _
  have onward : Reaches (fun _ => False) first second := .operation (.refl _) _
  have later : Reaches (fun _ => False) second third := .operation (.operation (.refl _) _) _
  have member : entry ∈ (first.registry.current .callable).toList := List.mem_singleton_self entry
  have gone : entry ∉ (second.registry.current .callable).toList := List.not_mem_nil
  obtain ⟨-, -, isolated, -⟩ := isolated started member onward gone later
  obtain ⟨kept, isolates⟩ := isolated rfl
  exact ⟨member, gone, by decide +kernel, (kept id).trans rfl, isolates⟩

end Host.Reaches
end Interposition
