import Interposition.Registry
import Interposition.Proofs.Table.Part
/-!
What the entries of a table keep through every edit.

`Sound` collects it: no name is bound twice, every entry stands under its own
name, and no entry stands in the table twice.  Since every edit either leaves
out some entries or appends one, soundness is shown once for a part of a table
and once for an appended entry.  The main statements are `Sound.part` and
`Sound.append`; `Sound.get?_part` says that an entry bound to a name either
stays bound to it in a part of the table or is not in that part at all.
-/

namespace Interposition

/-- The identities of the entries of a table, in order. -/
def EntryMap.ids {kind : Kind} (entries : EntryMap kind) : List EntryId :=
  entries.values.map (·.id)

/-- What every table keeps through all edits. -/
structure EntryMap.Sound {kind : Kind} (entries : EntryMap kind) : Prop where
  distinctKeys : entries.DistinctKeys
  /-- Every entry stands under its own name. -/
  named : ∀ pair ∈ entries.pairs, pair.2.name = pair.1
  distinctIds : (EntryMap.ids entries).Nodup

namespace EntryMap

variable {kind : Kind} {entries : EntryMap kind}

theorem mem_values_of_mem_pairs {pair : Name × Entry kind} (member : pair ∈ entries.pairs) :
    pair.2 ∈ entries.values :=
  List.mem_map_of_mem member

theorem mem_values_of_get? {name : Name} {entry : Entry kind}
    (found : entries.get? name = some entry) : entry ∈ entries.values :=
  mem_values_of_mem_pairs (OrderedMap.mem_of_get?_eq_some found)

theorem mem_ids_of_mem {entry : Entry kind} (member : entry ∈ entries.values) :
    entry.id ∈ ids entries :=
  List.mem_map_of_mem member

theorem sound_empty : Sound (OrderedMap.empty : EntryMap kind) :=
  ⟨List.nodup_nil, by simp [OrderedMap.empty], List.nodup_nil⟩

theorem ids_part_sublist (entries : EntryMap kind) (test : Name × Entry kind → Bool) :
    (ids (entries.part test)).Sublist (ids entries) :=
  (List.filter_sublist.map _).map _

theorem ids_append (entries : EntryMap kind) (entry : Entry kind) :
    ids (entries.append entry.name entry) = ids (entries.erase entry.name) ++ [entry.id] := by
  simp [ids, OrderedMap.append, OrderedMap.values]

/-- Leaving out entries of a sound table keeps it sound. -/
theorem Sound.of_sublist {fewer : EntryMap kind} (sound : Sound entries)
    (sublist : fewer.pairs.Sublist entries.pairs) : Sound fewer where
  distinctKeys := (sublist.map _).nodup sound.distinctKeys
  named pair member := sound.named pair (sublist.subset member)
  distinctIds := ((sublist.map _).map _).nodup sound.distinctIds

/-- A part of a sound table is sound. -/
theorem Sound.part (sound : Sound entries) (test : Name × Entry kind → Bool) :
    Sound (entries.part test) :=
  sound.of_sublist List.filter_sublist

/-- Appending an entry with an unused identity keeps a table sound. -/
theorem Sound.append (sound : Sound entries) {entry : Entry kind}
    (unused : entry.id ∉ ids entries) : Sound (entries.append entry.name entry) where
  distinctKeys := sound.distinctKeys.append entry.name entry
  named pair member := by
    rcases List.mem_append.mp member with old | new
    · exact sound.named pair (List.mem_of_mem_filter old)
    · rw [List.mem_singleton.mp new]
  distinctIds := by
    have kept := ids_part_sublist entries fun pair => pair.1 ≠ entry.name
    rw [ids_append, OrderedMap.erase_eq_part]
    refine List.nodup_append.mpr ⟨kept.nodup sound.distinctIds, by simp, ?_⟩
    rintro old member new single rfl
    rw [List.mem_singleton] at single
    exact unused (single ▸ kept.subset member)

theorem values_append (entries : EntryMap kind) (entry : Entry kind) :
    (entries.append entry.name entry).values = (entries.erase entry.name).values ++ [entry] := by
  simp [OrderedMap.append, OrderedMap.values]

/-- The names of a table are those of its entries. -/
theorem Sound.keys_eq (sound : Sound entries) : entries.keys = entries.values.map (·.name) := by
  rw [OrderedMap.keys, OrderedMap.values, List.map_map]
  apply List.map_congr_left
  intro pair member
  exact (sound.named pair member).symm

/-- An entry of a sound table is bound to its name. -/
theorem Sound.get?_name (sound : Sound entries) {entry : Entry kind}
    (member : entry ∈ entries.values) : entries.get? entry.name = some entry := by
  obtain ⟨pair, inPairs, rfl⟩ := List.mem_map.mp member
  rw [sound.named pair inPairs]
  exact OrderedMap.get?_eq_some_of_mem sound.distinctKeys inPairs

/-- What a test of names leaves of a sound table. -/
theorem Sound.values_part (sound : Sound entries) (test : Name → Bool) :
    (entries.part fun pair => test pair.1).values =
      entries.values.filter fun entry => test entry.name := by
  rw [OrderedMap.values, OrderedMap.part, OrderedMap.values, List.filter_map]
  congr 1
  refine List.filter_congr fun pair member => ?_
  rw [Function.comp_apply, sound.named pair member]

/-- Entries of a sound table with the same identity stand at the same place. -/
theorem Sound.pair_eq_of_id_eq (sound : Sound entries) {first second : Name × Entry kind}
    (firstMember : first ∈ entries.pairs) (secondMember : second ∈ entries.pairs)
    (same : first.2.id = second.2.id) : first = second := by
  have distinct : (entries.pairs.map fun pair => pair.2.id).Nodup := by
    have := sound.distinctIds
    rwa [ids, OrderedMap.values, List.map_map] at this
  exact List.inj_on_of_nodup_map distinct firstMember secondMember same

/-- An entry that is bound to a name either stays bound to it in a part of the
table, or is not in that part. -/
theorem Sound.get?_part (sound : Sound entries) (test : Name × Entry kind → Bool)
    {name : Name} {entry : Entry kind} (found : entries.get? name = some entry) :
    (entries.part test).get? name = some entry ∨ entry.id ∉ ids (entries.part test) := by
  have member := OrderedMap.mem_of_get?_eq_some found
  by_cases passes : test (name, entry) = true
  · exact Or.inl (OrderedMap.get?_eq_some_of_mem (sound.part test).distinctKeys
      (List.mem_filter.mpr ⟨member, passes⟩))
  · refine Or.inr fun present => passes ?_
    obtain ⟨other, otherMember, sameId⟩ := List.mem_map.mp present
    obtain ⟨pair, pairMember, rfl⟩ := List.mem_map.mp otherMember
    obtain ⟨inEntries, passed⟩ := List.mem_filter.mp pairMember
    rwa [sound.pair_eq_of_id_eq inEntries member sameId] at passed

/-- The same when an entry with an unused identity is appended. -/
theorem Sound.get?_append (sound : Sound entries) {added : Entry kind}
    (unused : added.id ∉ ids entries) {name : Name} {entry : Entry kind}
    (found : entries.get? name = some entry) :
    (entries.append added.name added).get? name = some entry ∨
      entry.id ∉ ids (entries.append added.name added) := by
  by_cases same : name = added.name
  · right
    rw [ids_append, List.mem_append, not_or, List.mem_singleton]
    constructor
    · rcases sound.get?_part (fun pair => pair.1 ≠ added.name) found with stays | gone
      · rw [← OrderedMap.erase_eq_part] at stays
        have kept := OrderedMap.mem_of_get?_eq_some stays
        simp [OrderedMap.erase, same] at kept
      · exact gone
    · rintro equal
      exact unused (equal ▸ mem_ids_of_mem (mem_values_of_get? found))
  · left
    rw [OrderedMap.get?_append_of_ne _ same, found]

end EntryMap
end Interposition
