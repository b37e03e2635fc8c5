/-!
Text cut into fields at a separator.
-/

namespace Interposition.Text

/-- The fields of a text between separators.  There is always one more field
than there are separators. -/
def fields (separator : Char) : List Char → List (List Char)
  | [] => [[]]
  | c :: rest =>
    let others := fields separator rest
    if c = separator then [] :: others
    else (c :: others.headD []) :: others.tail

theorem fields_ne_nil (separator : Char) (text : List Char) :
    fields separator text ≠ [] := by
  cases text with
  | nil => simp [fields]
  | cons c rest =>
      rw [fields]
      split <;> simp

/-- A text without separators is one field. -/
theorem fields_eq_singleton {separator : Char} {text : List Char}
    (absent : separator ∉ text) : fields separator text = [text] := by
  induction text with
  | nil => rfl
  | cons c rest inductionHypothesis =>
      simp only [List.mem_cons, not_or] at absent
      simp [fields, inductionHypothesis absent.2, Ne.symm absent.1]

/-- Fields of a text put together with a separator are the fields of its
parts. -/
theorem fields_append_separator (separator : Char) (first second : List Char) :
    fields separator (first ++ separator :: second) =
      fields separator first ++ fields separator second := by
  induction first with
  | nil => simp [fields]
  | cons c rest inductionHypothesis =>
      have present := fields_ne_nil separator rest
      obtain ⟨field, others, shape⟩ := List.exists_cons_of_ne_nil present
      by_cases cut : c = separator
      · simp [fields, cut, inductionHypothesis]
      · simp [fields, cut, inductionHypothesis, shape]

end Interposition.Text
