import Mathlib.Data.Set.Card
import Interposition.DenyList
import Interposition.Proofs.DenyList.Items
/-!
What a deny list denies.

`DenyList.Lists` says which items an operator has written, and `Name.Alike` which names are
the same but for the case of their letters; neither goes through the code that reads a list.
`DenyList.parse_denies` puts the two together: a parsed list denies the names that are alike
to a written item, it has one name for each of them, and as a value it is nothing more than
the set of names that it denies.
-/

namespace Interposition

/-- Whether a byte is a lowercase ASCII letter and another one the same letter in
uppercase. -/
def IsLowercaseOf (lower upper : UInt8) : Prop :=
  0x41 ≤ upper ∧ upper ≤ 0x5A ∧ lower.toNat = upper.toNat + 0x20

/-- Whether two bytes are equal but for the case of an ASCII letter. -/
def SameLetter (first second : UInt8) : Prop :=
  first = second ∨ IsLowercaseOf first second ∨ IsLowercaseOf second first

/-- Whether two names are equal but for the case of their ASCII letters. -/
def Name.Alike (first second : Name) : Prop :=
  List.Forall₂ SameLetter first.bytes second.bytes

/-- Folding makes bytes equal that differ in the case of a letter, and no others. -/
theorem foldByte_eq_iff {first second : UInt8} :
    foldByte first = foldByte second ↔ SameLetter first second := by
  unfold foldByte SameLetter IsLowercaseOf
  split <;> split <;> rename_i one other <;>
    simp only [UInt8.le_iff_toNat_le, ← UInt8.toNat_inj, UInt8.toNat_add,
      UInt8.reduceToNat] at one other ⊢ <;>
    omega

theorem Name.fold_eq_iff {first second : Name} :
    first.fold = second.fold ↔ first.Alike second := by
  rw [Name.fold, Name.fold, Name.mk.injEq, ← List.forall₂_eq_eq_eq, List.forall₂_map_left_iff,
    List.forall₂_map_right_iff]
  simp only [foldByte_eq_iff, Name.Alike]

namespace DenyList

/-- Whether an operator who writes a text lists an item in it: the item is a piece of the text
between commas, without the white space around it, and something is left of it. -/
def Lists (text item : List Char) : Prop :=
  item ≠ [] ∧ ∃ piece, Text.HasPiece ',' text piece ∧ Text.StripsTo piece item

/-- Whether a list has been made by denying names one after the other. -/
inductive Built : DenyList → Prop where
  | empty : Built .empty
  | insert {list : DenyList} (name : Name) (built : Built list) : Built (list.insert name)

/-- The list that denies the names of two lists. -/
def union (first second : DenyList) : DenyList :=
  second.names.foldl insert first

variable {first second list : DenyList}

theorem contains_eq_true_iff {name : Name} :
    list.contains name = true ↔ name.fold ∈ list.names := by
  simp [contains]

theorem Built.foldl_insert (built : Built list) (names : List Name) :
    Built (names.foldl DenyList.insert list) := by
  induction names generalizing list with
  | nil => exact built
  | cons name names inductionHypothesis => exact inductionHypothesis (built.insert name)

theorem built_ofNames (names : List Name) : Built (ofNames names) :=
  Built.empty.foldl_insert names

theorem Built.union (built : Built first) : Built (first.union second) :=
  built.foldl_insert second.names

/-- A list that has been built has folded names. -/
theorem Built.fold_eq (built : Built list) : ∀ name ∈ list.names, name.fold = name := by
  induction built with
  | empty => exact fun name member => absurd member List.not_mem_nil
  | @insert list inserted built inductionHypothesis =>
      unfold DenyList.insert
      split
      · exact inductionHypothesis
      · simp only [List.mem_append, List.mem_singleton]
        rintro name (member | rfl)
        · exact inductionHypothesis name member
        · exact fold_fold inserted

/-- A list that has been built has each name once. -/
theorem Built.nodup (built : Built list) : list.names.Nodup := by
  induction built with
  | empty => exact List.nodup_nil
  | @insert list inserted built inductionHypothesis =>
      unfold DenyList.insert
      split
      · exact inductionHypothesis
      · rename_i absent
        rw [contains_eq_true_iff] at absent
        simpa using inductionHypothesis.concat absent

/-- The names of a list that has been built are the folded names that it denies. -/
theorem Built.mem_names (built : Built list) {name : Name} :
    name ∈ list.names ↔ name.fold = name ∧ list.contains name = true := by
  rw [contains_eq_true_iff]
  constructor
  · intro member
    have folded := built.fold_eq name member
    exact ⟨folded, by rwa [folded]⟩
  · rintro ⟨folded, member⟩
    rwa [folded] at member

theorem isSubset_eq_true_iff : first.isSubset second = true ↔ first.names ⊆ second.names := by
  simp [isSubset, List.subset_def]

/-- Lists are equal when they deny the same names. -/
theorem Built.beq_iff (one : Built first) (other : Built second) :
    (first == second) = true ↔ ∀ query, first.contains query = second.contains query := by
  have unfolded : (first == second) = (first.isSubset second && second.isSubset first) := rfl
  rw [unfolded, Bool.and_eq_true, isSubset_eq_true_iff, isSubset_eq_true_iff]
  constructor
  · rintro ⟨forth, back⟩ query
    rw [Bool.eq_iff_iff, contains_eq_true_iff, contains_eq_true_iff]
    exact ⟨fun member => forth member, fun member => back member⟩
  · intro same
    refine ⟨fun name member => ?_, fun name member => ?_⟩
    · rw [one.mem_names] at member
      rw [other.mem_names, ← same]
      exact member
    · rw [other.mem_names] at member
      rw [one.mem_names, same]
      exact member

theorem contains_union (built : Built second) (query : Name) :
    (first.union second).contains query = (first.contains query || second.contains query) := by
  rw [Bool.eq_iff_iff, union, contains_foldl_insert, Bool.or_eq_true, or_comm]
  refine or_congr_right ?_
  rw [contains_eq_true_iff]
  constructor
  · rintro ⟨listed, member, folded⟩
    rwa [← folded, built.fold_eq listed member]
  · intro member
    exact ⟨query.fold, member, fold_fold query⟩

/-- The items that are left of a list of texts, after trimming and without blank ones. -/
theorem mem_filter_trim {items : List (List Char)} {item : List Char} :
    item ∈ (items.map Text.trim).filter (!·.isEmpty) ↔
      item ≠ [] ∧ ∃ text ∈ items, Text.StripsTo text item := by
  simp only [List.mem_filter, List.mem_map, Text.trim_eq_iff]
  rw [and_comm]
  simp

/-- A list of texts denies what is left of them, each as a whole. -/
theorem contains_ofItems {items : List (List Char)} {query : Name} :
    (ofItems items).contains query = true ↔
      ∃ item, (item ≠ [] ∧ ∃ text ∈ items, Text.StripsTo text item) ∧
        (Name.ofText item).Alike query := by
  rw [ofItems, contains_ofNames]
  simp only [List.mem_map, exists_exists_and_eq_and, mem_filter_trim, Name.fold_eq_iff]

/-- A text denies the items that are listed in it. -/
theorem contains_parse {text : List Char} {query : Name} :
    (parse text).contains query = true ↔
      ∃ item, Lists text item ∧ (Name.ofText item).Alike query := by
  rw [parse, contains_ofItems]
  simp only [Text.mem_fields_iff, Lists]

theorem built_parse (text : List Char) : Built (parse text) :=
  built_ofNames _

/-- The size of a parsed list is the number of different items, folded. -/
theorem encard_folded (text : List Char) :
    {folded | ∃ item, Lists text item ∧ (Name.ofText item).fold = folded}.encard =
      (parse text).size := by
  have same : {folded | ∃ item, Lists text item ∧ (Name.ofText item).fold = folded} =
      (parse text).names.toFinset := by
    ext folded
    rw [List.coe_toFinset, Set.mem_ofPred_eq, Set.mem_ofPred_eq, (built_parse text).mem_names,
      contains_parse]
    simp only [← Name.fold_eq_iff]
    constructor
    · rintro ⟨item, listed, rfl⟩
      exact ⟨fold_fold _, item, listed, (fold_fold _).symm⟩
    · rintro ⟨stays, item, listed, alike⟩
      exact ⟨item, listed, alike.trans stays⟩
  rw [same, Set.encard_coe_eq_coe_finsetCard,
    List.toFinset_card_of_nodup (built_parse text).nodup, size]

/-- A text that is put together from two of them denies what they deny. -/
theorem contains_parse_comma (text other : List Char) (query : Name) :
    (parse (text ++ ',' :: other)).contains query =
      ((parse text).contains query || (parse other).contains query) := by
  rw [Bool.eq_iff_iff, Bool.or_eq_true]
  simp only [parse, contains_ofItems, Text.fields_append_separator, List.mem_append, or_and_right,
    exists_or, and_or_left]

/-- A parsed list denies just the names that are alike to an item that is listed in the text.
Its size is the number of different items, folded.  Two texts with a comma between them give
the union of their lists.  And lists, however they have been built, are equal just when they
deny the same names. -/
theorem parse_denies :
    (∀ text query, (parse text).contains query = true ↔
      ∃ item, Lists text item ∧ (Name.ofText item).Alike query) ∧
    (∀ text, {folded | ∃ item, Lists text item ∧ (Name.ofText item).fold = folded}.encard =
      (parse text).size) ∧
    (∀ text other, (parse (text ++ ',' :: other) == (parse text).union (parse other)) = true ∧
      ∀ query, ((parse text).union (parse other)).contains query =
        ((parse text).contains query || (parse other).contains query)) ∧
    (∀ text, Built (parse text)) ∧
    ∀ first second, Built first → Built second →
      ((first == second) = true ↔ ∀ query, first.contains query = second.contains query) := by
  refine ⟨fun text query => contains_parse, encard_folded, fun text other => ⟨?_, fun query => ?_⟩,
    built_parse, fun first second one other => one.beq_iff other⟩
  · rw [(built_parse _).beq_iff (built_parse text).union]
    intro query
    rw [contains_parse_comma, contains_union (built_parse other)]
  · exact contains_union (built_parse other) query

/-- Two texts list the same three items: one starts with a comma and has a doubled one, its
white space is not only of ASCII, and case, order and repetition are not the same.  White
space inside of an item counts, and so does the case of a letter with an accent. -/
theorem parse_denies_of_respelled :
    let text := ",\u00A0Exec ,,sys Tem\u3000,\u00C9,".toList
    let other := "\u00C9,SYS TEM,exec,\t EXEC".toList
    Built (parse text) ∧ Built (parse other) ∧ (parse text).size = 3 ∧
      (∃ item, Lists text item ∧ (Name.ofText item).Alike (.ofString "sYs tEm")) ∧
      (¬∃ item, Lists text item ∧ (Name.ofText item).Alike (.ofString "\u00E9")) ∧
      ∀ query, (parse text).contains query = (parse other).contains query := by
  intro text other
  obtain ⟨lists, -, -, built, equal⟩ := parse_denies
  refine ⟨built text, built other, by decide +kernel, ?_, ?_, ?_⟩
  · exact (lists text _).mp (by decide +kernel)
  · rw [← lists text]
    decide +kernel
  · exact (equal _ _ (built text) (built other)).mp (by decide +kernel)

end DenyList
end Interposition
