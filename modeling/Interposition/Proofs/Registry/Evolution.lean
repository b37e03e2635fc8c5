import Mathlib.Logic.Relation
import Interposition.Proofs.Registry.Narrowed
import Interposition.Proofs.Registry.Put
/-!
How registries evolve.

Whatever is done to a registry puts a new entry at the end of a table, takes entries
out of a table, or exchanges a dispatch target: that of a callable under its name, or
that of an entry that a caller holds.  `Registry.Evolves` is any number of such
changes.  In all of them what stays in a table keeps its order and what is new
follows it (`Evolves.exists_toList`), so an entry that left its table never comes
back; and its target is exchanged by nobody but those who hold it
(`Evolves.targets_of_gone`).
-/

namespace Interposition
namespace Registry

/-- A change of a registry.  Callers hold entries with the identities in `held`, in
their table or not, and exchange their targets directly. -/
inductive Changes (held : EntryId → Prop) (registry : Registry) : Registry → Prop where
  | put {kind : Kind} (draft : Draft kind) : Changes held registry (registry.put draft)
  | thinned {kind : Kind} {next : Registry} (thinned : Thinned kind registry next) :
      Changes held registry next
  | patched {name : Name} {entry : Callable} (found : registry.get? .callable name = some entry)
      (handler : Handler) : Changes held registry (registry.retarget entry.id handler)
  | exchanged {id : EntryId} (chosen : held id) (handler : Handler) :
      Changes held registry (registry.retarget id handler)

/-- Any number of changes of a registry. -/
abbrev Evolves (held : EntryId → Prop) : Registry → Registry → Prop :=
  Relation.ReflTransGen (Changes held)

variable {held : EntryId → Prop} {first next last : Registry} {kind : Kind}

namespace Changes

theorem wellFormed (changes : Changes held first next) (wellFormed : first.WellFormed) :
    next.WellFormed := by
  cases changes with
  | put draft => exact wellFormed.put draft
  | thinned thinned => exact thinned.wellFormed wellFormed
  | patched found handler => exact wellFormed.retarget _ handler
  | exchanged chosen handler => exact wellFormed.retarget _ handler

theorem fresh_le (changes : Changes held first next) : first.fresh ≤ next.fresh := by
  cases changes with
  | put draft =>
      rw [fresh_put]
      exact Nat.le_succ _
  | thinned thinned => exact Nat.le_of_eq thinned.fresh.symm
  | patched found handler => exact Nat.le_refl _
  | exchanged chosen handler => exact Nat.le_refl _

/-- What stays keeps its order, and at most a new entry follows it. -/
theorem exists_toList (changes : Changes held first next) (wellFormed : first.WellFormed)
    (kind : Kind) :
    ∃ kept made, (next.current kind).toList = kept ++ made ∧
      kept.Sublist (first.current kind).toList ∧ ∀ entry ∈ made, first.fresh ≤ entry.id := by
  have unchanged (same : next.current kind = first.current kind) :
      ∃ kept made, (next.current kind).toList = kept ++ made ∧
        kept.Sublist (first.current kind).toList ∧ ∀ entry ∈ made, first.fresh ≤ entry.id :=
    ⟨_, [], by rw [same, List.append_nil], List.Sublist.refl _, by simp⟩
  cases changes with
  | @put other draft =>
      by_cases same : kind = other
      · subst same
        refine ⟨_, _, wellFormed.toList_put draft, List.filter_sublist, ?_⟩
        exact List.forall_mem_singleton.mpr (Nat.le_refl _)
      · exact unchanged (current_put_of_ne draft first same)
  | thinned thinned =>
      exact ⟨_, [], (List.append_nil _).symm, thinned.toList_sublist kind, by simp⟩
  | patched found handler => exact unchanged (current_retarget first _ handler kind)
  | exchanged chosen handler => exact unchanged (current_retarget first _ handler kind)

/-- Entries stand in the order in which they were made. -/
theorem ascending (changes : Changes held first next) (wellFormed : first.WellFormed)
    (ordered : ∀ kind, ((first.current kind).toList.map (·.id)).Pairwise (· < ·)) (kind : Kind) :
    ((next.current kind).toList.map (·.id)).Pairwise (· < ·) := by
  cases changes with
  | @put other draft =>
      by_cases same : kind = other
      · subst same
        have kept : (((first.current kind).toList.filter fun entry => entry.name ≠ draft.name).map
            (·.id)).Sublist ((first.current kind).toList.map (·.id)) := List.filter_sublist.map _
        rw [wellFormed.toList_put, List.map_append]
        refine List.pairwise_append.mpr
          ⟨(ordered kind).sublist kept, List.pairwise_singleton _ _, ?_⟩
        intro old member made single
        rw [List.mem_singleton.mp single]
        exact wellFormed.belowFresh kind old (kept.subset member)
      · rw [current_put_of_ne draft first same]
        exact ordered kind
  | thinned thinned => exact (ordered kind).sublist ((thinned.toList_sublist kind).map _)
  | patched found handler =>
      rw [current_retarget]
      exact ordered kind
  | exchanged chosen handler =>
      rw [current_retarget]
      exact ordered kind

end Changes

namespace Evolves

theorem wellFormed (evolves : Evolves held first last) (wellFormed : first.WellFormed) :
    last.WellFormed := by
  induction evolves with
  | refl => exact wellFormed
  | tail _ changes inductionHypothesis => exact changes.wellFormed inductionHypothesis

theorem fresh_le (evolves : Evolves held first last) : first.fresh ≤ last.fresh := by
  induction evolves with
  | refl => exact Nat.le_refl _
  | tail _ changes inductionHypothesis => exact Nat.le_trans inductionHypothesis changes.fresh_le

/-- What stays keeps its order, and what is new follows it. -/
theorem exists_toList (evolves : Evolves held first last) (wellFormed : first.WellFormed)
    (kind : Kind) :
    ∃ kept made, (last.current kind).toList = kept ++ made ∧
      kept.Sublist (first.current kind).toList ∧ ∀ entry ∈ made, first.fresh ≤ entry.id := by
  induction evolves with
  | refl => exact ⟨_, [], (List.append_nil _).symm, List.Sublist.refl _, by simp⟩
  | @tail middle next earlier changes inductionHypothesis =>
      obtain ⟨kept, made, middleList, keptSublist, madeRecent⟩ := inductionHypothesis
      obtain ⟨still, added, nextList, stillSublist, addedRecent⟩ :=
        changes.exists_toList (Evolves.wellFormed earlier wellFormed) kind
      -- What is still there is split at the place where the old entries ended.
      rw [middleList] at stillSublist
      obtain ⟨old, recent, rfl, oldSublist, recentSublist⟩ :=
        List.sublist_append_iff.mp stillSublist
      refine ⟨old, recent ++ added, by rw [nextList, List.append_assoc],
        oldSublist.trans keptSublist, ?_⟩
      intro entry member
      rcases List.mem_append.mp member with inRecent | inAdded
      · exact madeRecent entry (recentSublist.subset inRecent)
      · exact Nat.le_trans (fresh_le earlier) (addedRecent entry inAdded)

/-- From an empty registry on, entries stand in the order in which they were made. -/
theorem ascending (evolves : Evolves held .empty last) (kind : Kind) :
    ((last.current kind).toList.map (·.id)).Pairwise (· < ·) := by
  induction evolves generalizing kind with
  | refl => cases kind <;> exact .nil
  | tail earlier changes inductionHypothesis =>
      exact changes.ascending (Evolves.wellFormed earlier wellFormed_empty) inductionHypothesis kind

/-- An entry whose identity was handed out at the start was there at the start. -/
theorem mem_of_id_lt (evolves : Evolves held first last) (wellFormed : first.WellFormed)
    {entry : Entry kind} (member : entry ∈ (last.current kind).toList)
    (old : entry.id < first.fresh) : entry ∈ (first.current kind).toList := by
  obtain ⟨kept, made, lastList, sublist, recent⟩ := evolves.exists_toList wellFormed kind
  rw [lastList] at member
  rcases List.mem_append.mp member with inKept | inMade
  · exact sublist.subset inKept
  · exact absurd (recent entry inMade) (Nat.not_le_of_lt old)

/-- An entry stays what it is for as long as it stands in its table. -/
theorem eq_of_id_eq (evolves : Evolves held first last) (wellFormed : first.WellFormed)
    {entry other : Entry kind} (member : entry ∈ (first.current kind).toList)
    (there : other ∈ (last.current kind).toList) (same : other.id = entry.id) : other = entry := by
  have old := wellFormed.belowFresh kind entry.id (EntryMap.mem_ids_of_mem member)
  rw [← same] at old
  have also := evolves.mem_of_id_lt wellFormed there old
  obtain ⟨pair, inPairs, rfl⟩ := List.mem_map.mp member
  obtain ⟨otherPair, otherInPairs, rfl⟩ := List.mem_map.mp also
  exact congrArg Prod.snd ((wellFormed.sound kind).pair_eq_of_id_eq otherInPairs inPairs same)

/-- An identity that was handed out and stands in no table does not come back. -/
theorem not_mem_ids (evolves : Evolves held first last) (wellFormed : first.WellFormed)
    {id : EntryId} (old : id < first.fresh)
    (gone : id ∉ EntryMap.ids (first.current kind).entries) :
    id ∉ EntryMap.ids (last.current kind).entries := by
  intro back
  obtain ⟨entry, member, rfl⟩ := List.mem_map.mp back
  exact gone (EntryMap.mem_ids_of_mem (evolves.mem_of_id_lt wellFormed member old))

/-- The target of a callable that left its table is exchanged by those who hold it, and by
nobody else. -/
theorem targets_of_gone (evolves : Evolves held first last) (wellFormed : first.WellFormed)
    {id : EntryId} (old : id < first.fresh)
    (gone : id ∉ EntryMap.ids (first.current .callable).entries) (spared : ¬held id) :
    last.targets id = first.targets id := by
  induction evolves with
  | refl => rfl
  | @tail middle next earlier changes inductionHypothesis =>
      rw [← inductionHypothesis]
      cases changes with
      | put draft =>
          exact targets_put_of_ne draft middle
            (Nat.ne_of_lt (Nat.lt_of_lt_of_le old (fresh_le earlier)))
      | thinned thinned => rw [thinned.targets]
      | patched found handler =>
          refine targets_retarget_of_ne middle _ handler ?_
          rintro rfl
          exact not_mem_ids earlier wellFormed old gone
            (EntryMap.mem_ids_of_mem (EntryMap.mem_values_of_get? found))
      | exchanged chosen handler =>
          refine targets_retarget_of_ne middle _ handler ?_
          rintro rfl
          exact spared chosen

end Evolves
end Registry
end Interposition
