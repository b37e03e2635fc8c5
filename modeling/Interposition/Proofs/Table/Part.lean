import Interposition.OrderedMap
import Mathlib.Data.List.Nodup
/-!
Parts of an ordered map.

Every change of a map leaves out some of its pairs, or appends one at the end
after it left out the pair with the same key.  `part` is what a test leaves;
erasing a key is such a part.  A sweep leaves out what its predicate turns down
(`mem_removed_sweepPairs_iff`).  If the predicate does not remember anything, this is a
part too (`sweep_steady`); in any case nothing is lost (`values_sweep_perm`).
-/

namespace Interposition

namespace OrderedMap

variable {κ α : Type}

/-- The map with only those pairs that pass a test. -/
def part (map : OrderedMap κ α) (test : κ × α → Bool) : OrderedMap κ α :=
  ⟨map.pairs.filter test⟩

theorem part_eq_self {map : OrderedMap κ α} {test : κ × α → Bool}
    (passes : ∀ pair ∈ map.pairs, test pair = true) : map.part test = map := by
  rw [part, List.filter_eq_self.mpr passes]

theorem part_part (map : OrderedMap κ α) (first second : κ × α → Bool) :
    (map.part first).part second = map.part fun pair => second pair && first pair := by
  rw [part, part, part, List.filter_filter]

section Lookup

variable [DecidableEq κ]

theorem erase_eq_part (map : OrderedMap κ α) (key : κ) :
    map.erase key = map.part fun pair => pair.1 ≠ key := rfl

/-- Erasing a key that is not there changes nothing. -/
theorem erase_eq_self {map : OrderedMap κ α} {key : κ} (absent : key ∉ map.keys) :
    map.erase key = map := by
  apply part_eq_self
  intro pair member
  rw [decide_eq_true_eq]
  rintro rfl
  exact absent (List.mem_map_of_mem member)

/-- A part that leaves out an appended value. -/
theorem part_append_of_not {map : OrderedMap κ α} {key : κ} {value : α} {test : κ × α → Bool}
    (fails : test (key, value) = false) :
    (map.append key value).part test = (map.part test).erase key := by
  rw [part, part, append, erase, erase, List.filter_append,
    List.filter_cons_of_neg (by simp [fails]), List.filter_nil, List.append_nil,
    List.filter_comm]

/-- A part that takes in an appended value. -/
theorem part_append_of_pos {map : OrderedMap κ α} {key : κ} {value : α} {test : κ × α → Bool}
    (passes : test (key, value) = true) :
    (map.append key value).part test = (map.part test).append key value := by
  rw [part, append, erase, List.filter_append, List.filter_cons_of_pos passes, List.filter_nil,
    List.filter_comm]
  rfl

/-- Erasing a key takes back that it was appended. -/
theorem erase_append_self (map : OrderedMap κ α) (key : κ) (value : α) :
    (map.append key value).erase key = map.erase key := by
  rw [erase_eq_part, part_append_of_not (by simp), ← erase_eq_part]
  exact erase_eq_self (by simp [keys_erase])

theorem mem_of_get?_eq_some {map : OrderedMap κ α} {key : κ} {value : α}
    (found : map.get? key = some value) : (key, value) ∈ map.pairs := by
  obtain ⟨before, after, split, -⟩ := List.lookup_eq_some_iff.mp found
  rw [split]
  simp

/-- With distinct keys a lookup finds every pair of the map. -/
theorem get?_eq_some_of_mem {map : OrderedMap κ α} (distinct : map.DistinctKeys) {key : κ}
    {value : α} (member : (key, value) ∈ map.pairs) : map.get? key = some value := by
  obtain ⟨before, after, split⟩ := List.append_of_mem member
  refine List.lookup_eq_some_iff.mpr ⟨before, after, split, ?_⟩
  rw [DistinctKeys, keys, split, List.map_append, List.map_cons, List.nodup_append] at distinct
  intro pair earlier
  rw [bne_iff_ne]
  exact (distinct.2.2 pair.1 (List.mem_map_of_mem earlier) key (by simp)).symm

/-- A lookup in a part of a map. -/
theorem get?_part {map : OrderedMap κ α} (distinct : map.DistinctKeys) (test : κ × α → Bool)
    (key : κ) :
    (map.part test).get? key = (map.get? key).filter fun value => test (key, value) := by
  have distinctPart : (map.part test).DistinctKeys := (List.filter_sublist.map _).nodup distinct
  ext value
  rw [Option.filter_eq_some_iff]
  constructor
  · intro found
    obtain ⟨member, passes⟩ := List.mem_filter.mp (mem_of_get?_eq_some found)
    exact ⟨get?_eq_some_of_mem distinct member, passes⟩
  · rintro ⟨found, passes⟩
    exact get?_eq_some_of_mem distinctPart
      (List.mem_filter.mpr ⟨mem_of_get?_eq_some found, passes⟩)

theorem get?_erase_self (map : OrderedMap κ α) (key : κ) : (map.erase key).get? key = none := by
  rw [get?_eq_none_iff, keys_erase]
  simp

theorem get?_erase_of_ne (map : OrderedMap κ α) {key other : κ} (different : other ≠ key) :
    (map.erase key).get? other = map.get? other := by
  obtain ⟨pairs⟩ := map
  simp only [erase, get?]
  induction pairs with
  | nil => rfl
  | cons pair rest inductionHypothesis =>
      obtain ⟨first, value⟩ := pair
      by_cases erased : first = key
      · have passed : (other == first) = false := by
          simpa [erased] using different
        rw [List.filter_cons_of_neg (by simpa using erased), inductionHypothesis,
          List.lookup_cons, passed]
      · rw [List.filter_cons_of_pos (by simpa using erased), List.lookup_cons,
          List.lookup_cons, inductionHypothesis]

/-- Erasing a key takes out what it was bound to, and nothing else. -/
theorem values_erase_perm {map : OrderedMap κ α} (distinct : map.DistinctKeys) (key : κ) :
    ((map.erase key).values ++ (map.get? key).toList).Perm map.values := by
  cases found : map.get? key with
  | none =>
      rw [erase_eq_self (get?_eq_none_iff.mp found), Option.toList_none, List.append_nil]
  | some value =>
      obtain ⟨before, after, split⟩ := List.append_of_mem (mem_of_get?_eq_some found)
      rw [DistinctKeys, keys, split, List.map_append, List.map_cons] at distinct
      have apart := List.nodup_append.mp distinct
      have first : before.filter (fun pair => pair.1 ≠ key) = before := by
        refine List.filter_eq_self.mpr fun pair member => decide_eq_true ?_
        exact apart.2.2 pair.1 (List.mem_map_of_mem member) key List.mem_cons_self
      have second : after.filter (fun pair => pair.1 ≠ key) = after := by
        refine List.filter_eq_self.mpr fun pair member => decide_eq_true fun same => ?_
        have occurs : pair.1 ∈ after.map (·.1) := List.mem_map_of_mem member
        rw [same] at occurs
        exact (List.nodup_cons.mp apart.2.1).1 occurs
      have erased : (map.erase key).pairs = before ++ after := by
        rw [erase, split, List.filter_append, List.filter_cons_of_neg (by simp), first, second]
      rw [values, values, erased, split]
      simp only [Option.toList_some, List.map_append, List.map_cons, List.append_assoc]
      have swapped : (after.map (·.2) ++ [value]).Perm ([value] ++ after.map (·.2)) :=
        List.perm_append_comm
      exact swapped.append_left _

/-- Appending a value makes a map larger by one, less what it displaces. -/
theorem size_append {map : OrderedMap κ α} (distinct : map.DistinctKeys) (key : κ) (value : α) :
    (map.append key value).size + (map.get? key).toList.length = map.size + 1 := by
  have balance := (values_erase_perm distinct key).length_eq
  rw [List.length_append, length_values, length_values] at balance
  have grown : (map.append key value).size = (map.erase key).size + 1 := by
    rw [size, append, List.length_append, List.length_singleton, size]
  rw [grown, ← balance, Nat.add_right_comm]

theorem get?_append_self (map : OrderedMap κ α) (key : κ) (value : α) :
    (map.append key value).get? key = some value := by
  have absent := map.get?_erase_self key
  rw [get?] at absent
  rw [get?, append, List.lookup_append, absent]
  simp

theorem get?_append_of_ne (map : OrderedMap κ α) {key other : κ} (different : other ≠ key)
    (value : α) : (map.append key value).get? other = map.get? other := by
  rw [← get?_erase_of_ne map different]
  have passed : List.lookup other [(key, value)] = none := by
    rw [List.lookup_cons, beq_false_of_ne different, List.lookup_nil]
  rw [get?, append, List.lookup_append, passed, Option.or_none, get?]

end Lookup

/-- A predicate that does not remember splits a map by a filter. -/
theorem sweepPairs_steady (keep : α → Bool) (seen : List α) (pairs : List (κ × α)) :
    sweepPairs (fun _ => keep) seen pairs =
      { kept := ⟨pairs.filter fun pair => keep pair.2⟩
        removed := (pairs.map (·.2)).filter fun value => !keep value
        seen := (pairs.map (·.2)).reverse ++ seen } := by
  induction pairs generalizing seen with
  | nil => rfl
  | cons pair rest inductionHypothesis =>
      obtain ⟨key, value⟩ := pair
      cases kept : keep value <;> simp [sweepPairs, inductionHypothesis, kept]

/-- Whatever its predicate does, a sweep leaves pairs where they are. -/
theorem sweepPairs_sublist (keep : List α → α → Bool) (seen : List α) (pairs : List (κ × α)) :
    (sweepPairs keep seen pairs).kept.pairs.Sublist pairs := by
  induction pairs generalizing seen with
  | nil => exact .slnil
  | cons pair rest inductionHypothesis =>
      obtain ⟨key, value⟩ := pair
      cases kept : keep seen value with
      | true => simpa [sweepPairs, kept] using inductionHypothesis (value :: seen)
      | false => simpa [sweepPairs, kept] using (inductionHypothesis (value :: seen)).cons _

/-- A sweep asks about every value once, in order. -/
theorem seen_sweepPairs (keep : List α → α → Bool) (seen : List α) (pairs : List (κ × α)) :
    (sweepPairs keep seen pairs).seen = (pairs.map (·.2)).reverse ++ seen := by
  induction pairs generalizing seen with
  | nil => rfl
  | cons pair rest inductionHypothesis =>
      obtain ⟨key, value⟩ := pair
      have tail := inductionHypothesis (value :: seen)
      cases kept : keep seen value <;> simp [sweepPairs, kept, tail]

/-- A sweep removes what its predicate turned down when it was asked, after the values before
it, and nothing else. -/
theorem mem_removed_sweepPairs_iff {keep : List α → α → Bool} {seen : List α}
    {pairs : List (κ × α)} {value : α} :
    value ∈ (sweepPairs keep seen pairs).removed ↔ ∃ before after,
      pairs.map (·.2) = before ++ value :: after ∧ keep (before.reverse ++ seen) value = false := by
  induction pairs generalizing seen with
  | nil => simp [sweepPairs]
  | cons pair rest inductionHypothesis =>
      obtain ⟨key, first⟩ := pair
      -- The value is the first one, or it is asked about after the first one was seen.
      have split : (∃ before after, first :: rest.map (·.2) = before ++ value :: after ∧
            keep (before.reverse ++ seen) value = false) ↔
          (value = first ∧ keep seen first = false) ∨
            value ∈ (sweepPairs keep (first :: seen) rest).removed := by
        rw [inductionHypothesis]
        constructor
        · rintro ⟨before, after, same, refused⟩
          cases before with
          | nil =>
              cases same
              exact Or.inl ⟨rfl, refused⟩
          | cons head before =>
              obtain ⟨rfl, others⟩ := List.cons.inj same
              exact Or.inr ⟨before, after, others, by simpa using refused⟩
        · rintro (⟨rfl, refused⟩ | ⟨before, after, same, refused⟩)
          · exact ⟨[], _, rfl, refused⟩
          · exact ⟨first :: before, after, by rw [same]; rfl, by simpa using refused⟩
      rw [List.map_cons, split]
      cases kept : keep seen first <;> simp [sweepPairs, kept]

/-- What a sweep removes was turned down at some time. -/
theorem exists_not_keep_of_mem_removed {keep : List α → α → Bool} {seen : List α}
    {pairs : List (κ × α)} {value : α} (member : value ∈ (sweepPairs keep seen pairs).removed) :
    ∃ earlier, keep earlier value = false := by
  obtain ⟨before, -, -, refused⟩ := mem_removed_sweepPairs_iff.mp member
  exact ⟨_, refused⟩

/-- Whatever its predicate does, a sweep leaves a value or removes it. -/
theorem sweepPairs_perm (keep : List α → α → Bool) (seen : List α) (pairs : List (κ × α)) :
    ((sweepPairs keep seen pairs).kept.values ++ (sweepPairs keep seen pairs).removed).Perm
      (pairs.map (·.2)) := by
  induction pairs generalizing seen with
  | nil => exact .refl _
  | cons pair rest inductionHypothesis =>
      obtain ⟨key, value⟩ := pair
      have tail := inductionHypothesis (value :: seen)
      cases kept : keep seen value with
      | true => simpa [sweepPairs, kept, values] using tail
      | false => simpa [sweepPairs, kept] using List.perm_middle.trans (tail.cons value)

theorem values_sweep_perm (map : OrderedMap κ α) (keep : List α → α → Bool) (seen : List α) :
    ((map.sweep keep seen).kept.values ++ (map.sweep keep seen).removed).Perm map.values :=
  sweepPairs_perm keep seen map.pairs

theorem sweep_steady (map : OrderedMap κ α) (keep : α → Bool) (seen : List α) :
    map.sweep (fun _ => keep) seen =
      { kept := map.part fun pair => keep pair.2
        removed := map.values.filter fun value => !keep value
        seen := map.values.reverse ++ seen } :=
  sweepPairs_steady keep seen map.pairs

end OrderedMap

end Interposition
