import Interposition.Proofs.Operation.Deeds
/-!
What a history means.

The entry that was made from a draft stands as long as nothing did away with it, and
a callable has the handler that its name was given last since it was made.
`Deed.Stands` and `Deed.lastHandler` read this off a list of deeds without looking at
any table.  Both look forward from the deed that made the entry; `means_concat_iff`
says what the last deed of a history adds to the reading.
-/

namespace Interposition

/-- Where the entry to be comes from, if entries of its kind tell. -/
def Draft.origin? : {kind : Kind} → Draft kind → Option Origin
  | _, .callable _ _ origin _ => some origin
  | _, .constant .. => none
  | _, .type _ _ origin => some origin

namespace Deed

/-- Whether a deed does away with the entry that was made from a draft.  Only a
constant is displaced by another one of its name. -/
def Ends {kind : Kind} (draft : Draft kind) : Deed → Prop
  | @made other later => kind = .constant ∧ other = .constant ∧ later.name = draft.name
  | .pointed _ _ => False
  | .removed other name => other = kind ∧ name = draft.name
  | .evicted other owner =>
    other = kind ∧ draft.owner = owner ∧ draft.origin? ≠ some .intrinsic

/-- Whether an entry was made from a draft and nothing did away with it since. -/
structure Stands {kind : Kind} (history : List Deed) (draft : Draft kind) (since : List Deed) :
    Prop where
  made : ∃ before, history = before ++ .made draft :: since
  lasting : ∀ deed ∈ since, ¬deed.Ends draft

/-- The handler that a deed gives to a callable that is there. -/
def handlerFor? (name : Name) : Deed → Option Handler
  | .pointed other handler => if other = name then some handler else none
  | _ => none

/-- The handler that deeds gave to a name last, or the one it had before. -/
def lastHandler (name : Name) (first : Handler) (since : List Deed) : Handler :=
  (since.filterMap (handlerFor? name)).getLast?.getD first

end Deed

/-- The draft of a callable with the handler that deeds gave to it last. -/
def Draft.after (since : List Deed) : {kind : Kind} → Draft kind → Draft kind
  | _, .callable name owner origin first =>
    .callable name owner origin (Deed.lastHandler name first since)
  | _, draft => draft

namespace Draft

variable {kind : Kind} (draft : Draft kind)

@[simp] theorem name_after (since : List Deed) : (draft.after since).name = draft.name := by
  cases draft <;> rfl

@[simp] theorem owner_after (since : List Deed) : (draft.after since).owner = draft.owner := by
  cases draft <;> rfl

@[simp] theorem origin?_after (since : List Deed) :
    (draft.after since).origin? = draft.origin? := by
  cases draft <;> rfl

@[simp] theorem entry_after (since : List Deed) (id : EntryId) :
    (draft.after since).entry id = draft.entry id := by
  cases draft <;> rfl

@[simp] theorem after_nil : draft.after [] = draft := by
  cases draft <;> rfl

theorem after_concat (since : List Deed) (deed : Deed) :
    draft.after (since ++ [deed]) = (draft.after since).after [deed] := by
  cases draft with
  | callable name owner origin first =>
      simp only [after, Deed.lastHandler, List.filterMap_append, List.getLast?_append,
        Option.getD_or]
  | _ => rfl

/-- Only a deed that points the name of a callable changes its handler. -/
theorem after_singleton {deed : Deed}
    (other : ∀ handler, kind = .callable → deed ≠ .pointed draft.name handler) :
    draft.after [deed] = draft := by
  cases draft with
  | callable name owner origin first =>
      have none : deed.handlerFor? name = none := by
        cases deed with
        | pointed named handler =>
            refine if_neg ?_
            rintro rfl
            exact other handler rfl rfl
        | _ => rfl
      simp [after, Deed.lastHandler, none]
  | _ => rfl

end Draft

namespace Deed

variable {kind : Kind} {history : List Deed} {deed : Deed}

/-- What does away with an entry has nothing to do with its handler. -/
theorem ends_after_iff (draft : Draft kind) (since : List Deed) :
    deed.Ends (draft.after since) ↔ deed.Ends draft := by
  cases deed <;> simp [Ends]

/-- Whether a history makes of a draft that its entry stands, a callable with the
handler of the draft. -/
def Means (history : List Deed) (draft : Draft kind) : Prop :=
  ∃ first since, Stands history first since ∧ draft = first.after since

/-- What one more deed means: it makes an entry, and of what stood before it leaves
what it does not do away with. -/
theorem means_concat_iff {draft : Draft kind} :
    Means (history ++ [deed]) draft ↔
      deed = .made draft ∨
        ∃ before, Means history before ∧ ¬deed.Ends before ∧ draft = before.after [deed] := by
  constructor
  · rintro ⟨first, since, ⟨⟨before, split⟩, lasting⟩, rfl⟩
    rcases List.eq_nil_or_concat' since with rfl | ⟨earlier, last, rfl⟩
    · rw [Draft.after_nil]
      exact Or.inl (List.append_singleton_inj.mp split).2
    · rw [← List.cons_append, ← List.append_assoc] at split
      obtain ⟨rfl, rfl⟩ := List.append_singleton_inj.mp split
      refine Or.inr ⟨first.after earlier, ⟨first, earlier, ⟨⟨before, rfl⟩, ?_⟩, rfl⟩, ?_,
        first.after_concat earlier deed⟩
      · intro other member
        exact lasting other (List.mem_append_left _ member)
      · rw [ends_after_iff]
        exact lasting deed (List.mem_append_right _ List.mem_cons_self)
  · rintro (rfl | ⟨_, ⟨first, since, ⟨⟨before, rfl⟩, lasting⟩, rfl⟩, stays, rfl⟩)
    · exact ⟨draft, [], ⟨⟨history, rfl⟩, by simp⟩, draft.after_nil.symm⟩
    · rw [ends_after_iff] at stays
      refine ⟨first, since ++ [deed], ⟨⟨before, ?_⟩, ?_⟩, (first.after_concat since deed).symm⟩
      · rw [List.append_assoc, List.cons_append]
      · intro other member
        rcases List.mem_append.mp member with old | new
        · exact lasting other old
        · rw [List.mem_singleton.mp new]
          exact stays

end Deed
end Interposition
