import Interposition.Name
import Interposition.Text.Blank
import Interposition.Text.Fields
/-!
The deny list: names that must never be installed when they are absent.

An operator writes such a list by hand, so letters of either case mean the same
name.  Only the letters of ASCII are folded; all other bytes count as they are.
A deny list is a set: order and repetition of its names mean nothing.
-/

namespace Interposition

/-- A byte with an uppercase ASCII letter turned to lowercase. -/
def foldByte (byte : UInt8) : UInt8 :=
  if 0x41 ≤ byte ∧ byte ≤ 0x5A then byte + 0x20 else byte

/-- A name with its ASCII letters in lowercase. -/
def Name.fold (name : Name) : Name :=
  ⟨name.bytes.map foldByte⟩

/-- A set of folded names. -/
structure DenyList where
  names : List Name
deriving Repr, Inhabited

namespace DenyList

/-- The list that denies nothing. -/
def empty : DenyList := ⟨[]⟩

/-- Whether a name is denied. -/
def contains (list : DenyList) (name : Name) : Bool :=
  list.names.contains name.fold

/-- Deny one more name. -/
def insert (list : DenyList) (name : Name) : DenyList :=
  if list.contains name then list else ⟨list.names ++ [name.fold]⟩

/-- Deny the given names, just as they are. -/
def ofNames (names : List Name) : DenyList :=
  names.foldl insert empty

/-- Deny the items of a list of texts.  Items are trimmed, and blank ones
skipped. -/
def ofItems (items : List (List Char)) : DenyList :=
  ofNames (((items.map Text.trim).filter (!·.isEmpty)).map Name.ofText)

/-- Deny the items of a text that lists them between commas. -/
def parse (text : List Char) : DenyList :=
  ofItems (Text.fields ',' text)

/-- The number of names. -/
def size (list : DenyList) : Nat :=
  list.names.length

def isEmpty (list : DenyList) : Bool :=
  list.names.isEmpty

/-- Whether every name of the first is one of the second. -/
def isSubset (first second : DenyList) : Bool :=
  first.names.all second.names.contains

/-- Equality as sets. -/
def equal (first second : DenyList) : Bool :=
  first.isSubset second && second.isSubset first

instance : BEq DenyList := ⟨equal⟩

theorem foldByte_foldByte (byte : UInt8) : foldByte (foldByte byte) = foldByte byte := by
  unfold foldByte
  split
  · rename_i letter
    have lowercase : ¬(0x41 ≤ byte + 0x20 ∧ byte + 0x20 ≤ 0x5A) := by
      obtain ⟨first, last⟩ := letter
      rw [UInt8.le_iff_toNat_le] at first last
      rw [UInt8.le_iff_toNat_le, UInt8.le_iff_toNat_le, UInt8.toNat_add]
      simp only [UInt8.reduceToNat] at first last ⊢
      omega
    rw [if_neg lowercase]
  · rfl

/-- Folding twice is folding once. -/
theorem fold_fold (name : Name) : name.fold.fold = name.fold := by
  simp [Name.fold, Function.comp_def, foldByte_foldByte]

theorem contains_empty (name : Name) : empty.contains name = false := rfl

/-- Inserting a name denies it, in any case, and nothing else. -/
theorem contains_insert (list : DenyList) (inserted name : Name) :
    (list.insert inserted).contains name =
      (decide (inserted.fold = name.fold) || list.contains name) := by
  unfold insert
  split
  · rename_i present
    by_cases same : inserted.fold = name.fold
    · have denied : list.contains name = true := by
        rw [contains, ← same]
        exact present
      simp [denied]
    · simp [same]
  · by_cases same : inserted.fold = name.fold <;>
      simp [contains, same, Ne.symm]

theorem contains_foldl_insert (names : List Name) (list : DenyList) (name : Name) :
    (names.foldl insert list).contains name = true ↔
      (∃ listed ∈ names, listed.fold = name.fold) ∨ list.contains name = true := by
  induction names generalizing list with
  | nil => simp
  | cons first rest inductionHypothesis =>
      rw [List.foldl_cons, inductionHypothesis, contains_insert]
      simp only [Bool.or_eq_true, decide_eq_true_eq, List.mem_cons, exists_eq_or_imp]
      rw [← or_assoc, or_comm (a := _ = _)]

/-- A list denies its names, in any case, and nothing else. -/
theorem contains_ofNames {names : List Name} {name : Name} :
    (ofNames names).contains name = true ↔ ∃ listed ∈ names, listed.fold = name.fold := by
  simp [ofNames, contains_foldl_insert, contains_empty]

end DenyList
end Interposition
