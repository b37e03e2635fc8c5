import Interposition.Text.Blank
import Interposition.Text.Fields
import Mathlib.Data.List.DropRight
/-!
The items of a text.

An item stands between separators, with white space around it.  `Text.HasPiece` and
`Text.StripsTo` say so of a text, without going through it; `Text.mem_fields_iff` and
`Text.trim_eq_iff` say that cutting a text into fields and trimming a field find just
these.  Texts that are put together with separators are cut into the fields of all of them
(`Text.fields_intercalate`), and white space that is put around a text is trimmed away
again (`Text.trim_append_blank`).
-/

namespace Interposition.Text

/-- Whether a text can be cut at separators into parts, one of which is the given piece, and
in that piece there is no separator. -/
def HasPiece (separator : Char) (text piece : List Char) : Prop :=
  separator ∉ piece ∧ ∃ parts, piece ∈ parts ∧ text = [separator].intercalate parts

/-- Whether a core is what is left of a text without the white space at both ends. -/
structure StripsTo (text core : List Char) : Prop where
  padded : ∃ left right, text = left ++ core ++ right ∧ ∀ c ∈ left ++ right, isBlank c = true
  first : ∀ c ∈ core.head?, isBlank c = false
  last : ∀ c ∈ core.getLast?, isBlank c = false

section Fields

variable {separator : Char}

theorem fields_eq_splitOn (text : List Char) : fields separator text = text.splitOn separator := by
  induction text with
  | nil => rfl
  | cons c rest inductionHypothesis =>
      rw [fields, List.splitOn_cons_eq_if_modifyHead, ← inductionHypothesis]
      obtain ⟨field, others, shape⟩ :=
        List.exists_cons_of_ne_nil (fields_ne_nil separator rest)
      simp [shape]

/-- A text is its fields, put together again. -/
theorem intercalate_fields (text : List Char) :
    [separator].intercalate (fields separator text) = text := by
  rw [fields_eq_splitOn, List.intercalate_splitOn]

theorem not_mem_of_mem_fields {text field : List Char} (member : field ∈ fields separator text) :
    separator ∉ field := by
  induction text generalizing field with
  | nil =>
      rw [fields, List.mem_singleton] at member
      exact member ▸ List.not_mem_nil
  | cons c rest inductionHypothesis =>
      obtain ⟨head, others, shape⟩ :=
        List.exists_cons_of_ne_nil (fields_ne_nil separator rest)
      rw [shape] at inductionHypothesis
      by_cases cut : c = separator
      · simp only [fields, shape, if_pos cut, List.mem_cons] at member
        rcases member with rfl | member
        · exact List.not_mem_nil
        · exact inductionHypothesis (List.mem_cons.mpr member)
      · simp only [fields, shape, if_neg cut, List.headD_cons, List.tail_cons,
          List.mem_cons] at member
        rcases member with rfl | member
        · have absent := inductionHypothesis List.mem_cons_self
          simp [Ne.symm cut, absent]
        · exact inductionHypothesis (List.mem_cons_of_mem _ member)

/-- Texts put together with separators have the fields of all of them. -/
theorem fields_intercalate {parts : List (List Char)} (some : parts ≠ []) :
    fields separator ([separator].intercalate parts) = parts.flatMap (fields separator) := by
  induction parts with
  | nil => exact absurd rfl some
  | cons part parts inductionHypothesis =>
      cases parts with
      | nil => simp
      | cons next others =>
          have rest := inductionHypothesis (List.cons_ne_nil next others)
          rw [List.intercalate_cons_cons, List.append_assoc, List.singleton_append,
            fields_append_separator, rest, ← List.flatMap_cons]

/-- The fields of a text are its pieces. -/
theorem mem_fields_iff {text piece : List Char} :
    piece ∈ fields separator text ↔ HasPiece separator text piece := by
  constructor
  · intro member
    exact ⟨not_mem_of_mem_fields member, fields separator text, member,
      (intercalate_fields text).symm⟩
  · rintro ⟨absent, parts, member, rfl⟩
    rw [fields_intercalate (List.ne_nil_of_mem member), List.mem_flatMap]
    exact ⟨piece, member, by simp [fields_eq_singleton absent]⟩

end Fields

/-- White space in front of a text that starts with something else. -/
theorem dropWhile_append_blank {left core : List Char} (blank : ∀ c ∈ left, isBlank c = true)
    (first : ∀ c ∈ core.head?, isBlank c = false) :
    (left ++ core).dropWhile isBlank = core := by
  rw [List.dropWhile_append_of_pos blank]
  cases core with
  | nil => rfl
  | cons c rest => exact List.dropWhile_cons_of_neg (by simp [first c rfl])

theorem trim_eq_rdropWhile (text : List Char) :
    trim text = (text.dropWhile isBlank).rdropWhile isBlank := rfl

theorem isBlank_head?_trim (text : List Char) :
    ∀ c ∈ (trim text).head?, isBlank c = false := by
  intro c head
  obtain ⟨others, shape⟩ := List.head?_eq_some_iff.mp head
  obtain ⟨tail, rest⟩ : trim text <+: text.dropWhile isBlank := List.rdropWhile_prefix isBlank _
  have dropped := List.head?_dropWhile_not isBlank text
  simpa [← rest, shape] using dropped

/-- What is left of a text after trimming starts and ends with something else than white
space. -/
theorem stripsTo_trim (text : List Char) : StripsTo text (trim text) where
  padded := by
    refine ⟨text.takeWhile isBlank, (text.dropWhile isBlank).rtakeWhile isBlank, ?_, ?_⟩
    · rw [trim_eq_rdropWhile, List.append_assoc, List.rdropWhile_append_rtakeWhile,
        List.takeWhile_append_dropWhile]
    · intro c member
      rcases List.mem_append.mp member with taken | taken
      · exact List.mem_takeWhile_imp taken
      · exact List.mem_rtakeWhile_imp taken
  first := isBlank_head?_trim text
  last := by
    intro c tail
    have dropped := List.head?_dropWhile_not isBlank (text.dropWhile isBlank).reverse
    rw [trim, List.getLast?_reverse] at tail
    simpa [Option.mem_def.mp tail] using dropped

theorem StripsTo.trim_eq {text core : List Char} (strips : StripsTo text core) :
    trim text = core := by
  obtain ⟨left, right, rfl, blank⟩ := strips.padded
  by_cases nothing : core = []
  · subst nothing
    exact trim_blank _ (by simpa using blank)
  · have head : (core ++ right).head? = core.head? := List.head?_append_of_ne_nil _ nothing
    have front : (left ++ (core ++ right)).dropWhile isBlank = core ++ right :=
      dropWhile_append_blank (fun c member => blank c (by simp [member])) (head ▸ strips.first)
    have back : (right.reverse ++ core.reverse).dropWhile isBlank = core.reverse :=
      dropWhile_append_blank (fun c member => blank c (by simp [List.mem_reverse.mp member]))
        (by simpa using strips.last)
    rw [trim, List.append_assoc, front, List.reverse_append, back, List.reverse_reverse]

/-- What is not white space is still there without the white space at both ends. -/
theorem StripsTo.mem {text core : List Char} {c : Char} (strips : StripsTo text core)
    (solid : isBlank c = false) (member : c ∈ text) : c ∈ core := by
  obtain ⟨left, right, rfl, blank⟩ := strips.padded
  by_contra outside
  have padding : c ∈ left ++ right := by simpa [outside] using member
  simp [blank c padding] at solid

/-- Trimming leaves the core of a text. -/
theorem trim_eq_iff {text core : List Char} : trim text = core ↔ StripsTo text core :=
  ⟨fun trimmed => trimmed ▸ stripsTo_trim text, StripsTo.trim_eq⟩

/-- White space around a text makes no difference to what is left of it. -/
theorem trim_append_blank {left right : List Char} (text : List Char)
    (blank : ∀ c ∈ left ++ right, isBlank c = true) :
    trim (left ++ text ++ right) = trim text := by
  have strips := stripsTo_trim text
  obtain ⟨before, after, shape, inside⟩ := strips.padded
  refine StripsTo.trim_eq ⟨⟨left ++ before, after ++ right, ?_, ?_⟩, strips.first, strips.last⟩
  · calc left ++ text ++ right
        = left ++ (before ++ trim text ++ after) ++ right := by rw [← shape]
      _ = left ++ before ++ trim text ++ (after ++ right) := by simp only [List.append_assoc]
  · simp only [List.mem_append] at blank inside ⊢
    rintro c ((outer | inner) | (inner | outer))
    · exact blank c (.inl outer)
    · exact inside c (.inl inner)
    · exact inside c (.inr inner)
    · exact blank c (.inr outer)

end Interposition.Text
