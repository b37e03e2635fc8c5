import Interposition.Image
import Interposition.Proofs.Operation.Reading
/-!
What a name means.

A name is bound to what its history means, and calls of it go where its history says.
`Registry.Shows` is what a registry makes of a draft, as `Deed.Means` is what a history
makes of it.  `Deed.Does.shows_iff` says what one deed makes of the entries that are
shown, in the words in which `Deed.means_concat_iff` says it of the history, so that
the two agree after any number of deeds.  `Operation.told_runAll` says it of every run
of operations.
-/

namespace Interposition

namespace Deed

/-- What a host tells about names by what was done to it. -/
structure Told (history : List Deed) (host : Host) : Prop where
  /-- A callable is bound if it was made and not done away with; its owner and its
  origin are those that it was made with. -/
  callable : ∀ name owner origin,
    (∃ entry, host.registry.get? .callable name = some entry ∧ entry.owner = owner ∧
      entry.content = origin) ↔
    ∃ first since, Stands history (.callable name owner origin first) since
  /-- Its calls return what the handler does that its name was given last. -/
  called : ∀ name owner origin first since,
    Stands history (.callable name owner origin first) since →
      host.registry.resolve? name = some (lastHandler name first since) ∧
      ∀ depth arguments image, image.host = host →
        Image.callNamed depth name arguments image =
          (Image.invoke depth (lastHandler name first since) arguments image).map
            fun (value, image) => (some value, image)
  /-- Without such a callable there is nothing to call. -/
  uncalled : ∀ name,
    (∀ owner origin first since, ¬Stands history (.callable name owner origin first) since) →
      ∀ depth arguments image, image.host = host →
        Image.callNamed depth name arguments image = some (none, image)
  constant : ∀ name value flags owner,
    (∃ entry, host.registry.get? .constant name = some entry ∧ entry.owner = owner ∧
      entry.content = ⟨value, flags⟩) ↔
    ∃ since, Stands history (.constant name value flags owner) since
  /-- A constant reads as the value that its name was bound to last. -/
  value : ∀ name value, host.registry.constant? name = some value ↔
    ∃ flags owner since, Stands history (.constant name value flags owner) since
  type : ∀ name owner origin,
    (∃ entry, host.registry.get? .type name = some entry ∧ entry.owner = owner ∧
      entry.content = origin) ↔
    ∃ since, Stands history (.type name owner origin) since

end Deed

/-- Whether the entry made from a draft stands in its table, a callable with the
handler of the draft. -/
def Registry.Shows {kind : Kind} (registry : Registry) (draft : Draft kind) : Prop :=
  ∃ id, registry.get? kind draft.name = some (draft.entry id) ∧
    ∀ handler, draft.handler? = some handler → registry.targets id = handler

/-- The draft that an entry could have been made from, with the given first handler of
a callable. -/
def Entry.draft (handler : Handler) : {kind : Kind} → Entry kind → Draft kind
  | .callable, entry => .callable entry.name entry.owner entry.content handler
  | .constant, entry => .constant entry.name entry.content.value entry.content.flags entry.owner
  | .type, entry => .type entry.name entry.owner entry.content

namespace Entry

variable {kind : Kind} (handler : Handler) (entry : Entry kind)

theorem name_draft : (entry.draft handler).name = entry.name := by
  cases kind <;> rfl

theorem entry_draft : (entry.draft handler).entry entry.id = entry := by
  cases kind <;> rfl

theorem handler?_draft (other : Handler) (first : (entry.draft handler).handler? = some other) :
    handler = other := by
  cases kind with
  | callable => exact Option.some.inj first
  | _ => cases first

end Entry

/-- An entry and, for a callable, its first handler make up a draft. -/
theorem Draft.eq_of_entry_eq {kind : Kind} {first second : Draft kind} {id other : EntryId}
    (same : first.entry id = second.entry other)
    (handlers : first.handler? = second.handler?) : first = second := by
  cases first with
  | callable =>
      cases second
      cases same
      cases handlers
      rfl
  | constant =>
      cases second
      cases same
      rfl
  | type =>
      cases second
      cases same
      rfl

namespace Deed

variable {kind : Kind} {registry next : Registry} {history : List Deed} {deed : Deed}

/-- What an eviction spares. -/
theorem spares_iff (owner : Owner) (draft : Draft kind) (id : EntryId) :
    owner.spares (draft.name, draft.entry id) = true ↔
      ¬(draft.owner = owner ∧ draft.origin? ≠ some .intrinsic) := by
  cases draft with
  | constant =>
      simp [Owner.spares, Entry.isEvictedWith, Entry.isEvictable, Draft.entry, Draft.origin?]
  | callable name holder origin first =>
      cases origin <;> simp [Owner.spares, Entry.isEvictedWith, Entry.isEvictable, Draft.entry,
        Draft.origin?, Draft.content, Origin.isImage]
  | type name holder origin =>
      cases origin <;> simp [Owner.spares, Entry.isEvictedWith, Entry.isEvictable, Draft.entry,
        Draft.origin?, Draft.content, Origin.isImage]

/-- The first handler of a new callable is its target. -/
theorem targets_put_of_handler? {draft : Draft kind} {handler : Handler}
    (first : draft.handler? = some handler) :
    (registry.put draft).targets registry.fresh = handler := by
  cases draft with
  | callable name owner origin given =>
      rw [Registry.targets_put_fresh]
      exact Option.some.inj first
  | _ => cases first

/-- A new entry is shown with the content of its draft and its first handler. -/
theorem shows_put_self_iff (added draft : Draft kind) (named : draft.name = added.name) :
    (registry.put added).Shows draft ↔ draft = added := by
  constructor
  · rintro ⟨id, bound, dispatched⟩
    rw [named, Registry.get?_put_self] at bound
    have same : added.entry registry.fresh = draft.entry id := Option.some.inj bound
    have fresh : registry.fresh = id := congrArg Entry.id same
    subst fresh
    refine (Draft.eq_of_entry_eq same ?_).symm
    cases added with
    | callable name owner origin handler =>
        cases draft with
        | callable _ _ _ given =>
            have target := dispatched given rfl
            rw [Registry.targets_put_fresh] at target
            exact congrArg some target
    | _ =>
        cases draft
        rfl
  · rintro rfl
    exact ⟨registry.fresh, Registry.get?_put_self _ _,
      fun handler first => targets_put_of_handler? first⟩

/-- What is shown under other names stays as it is when an entry is put. -/
theorem shows_put_of_ne {other : Kind} (added : Draft other) (wellFormed : registry.WellFormed)
    {draft : Draft kind} (different : ¬(kind = other ∧ draft.name = added.name)) :
    (registry.put added).Shows draft ↔ registry.Shows draft := by
  refine exists_congr fun id => ?_
  rw [Registry.get?_put_of_ne added registry different]
  refine and_congr_right fun found => ?_
  have old : id ≠ registry.fresh := Nat.ne_of_lt (wellFormed.id_lt_fresh found)
  rw [Registry.targets_put_of_ne added registry old]

/-- What is shown under other names stays as it is when a callable is pointed at another
handler. -/
theorem shows_retarget_of_ne {name : Name} {entry : Callable} (wellFormed : registry.WellFormed)
    (found : registry.get? .callable name = some entry) (handler : Handler) {draft : Draft kind}
    (different : ¬(kind = .callable ∧ draft.name = name)) :
    (registry.retarget entry.id handler).Shows draft ↔ registry.Shows draft := by
  refine exists_congr fun id => ?_
  rw [Registry.get?_retarget]
  refine and_congr_right fun bound => ?_
  cases draft with
  | callable other owner origin given =>
      have apart : id ≠ entry.id :=
        wellFormed.id_ne_of_name_ne found bound fun same => different ⟨rfl, same⟩
      rw [Registry.targets_retarget_of_ne registry _ _ apart]
  | _ => exact forall_congr' fun other => forall_congr' fun absurdity => nomatch absurdity

/-- What is shown under the name of a callable that is pointed at another handler. -/
theorem shows_retarget_self_iff {name : Name} {entry : Callable}
    (found : registry.get? .callable name = some entry) (handler : Handler)
    {draft : Draft .callable} (named : draft.name = name) :
    (registry.retarget entry.id handler).Shows draft ↔
      ∃ before, registry.Shows before ∧ draft = before.after [.pointed name handler] := by
  subst named
  obtain ⟨name, owner, origin, given⟩ := draft
  constructor
  · rintro ⟨id, bound, dispatched⟩
    rw [Registry.get?_retarget] at bound
    cases found.symm.trans bound
    have target := dispatched given rfl
    rw [Draft.entry, Registry.targets_retarget_self] at target
    subst target
    refine ⟨.callable name owner origin (registry.targets id), ⟨id, bound, ?_⟩, ?_⟩
    · rintro _ ⟨⟩
      rfl
    · simp [Draft.after, lastHandler, handlerFor?, Draft.name]
  · rintro ⟨before, ⟨id, bound, dispatched⟩, same⟩
    have renamed : (Draft.callable name owner origin given).name = before.name := by
      rw [same, Draft.name_after]
    have entries : (Draft.callable name owner origin given).entry id = before.entry id := by
      rw [same, Draft.entry_after]
    rw [← renamed, ← entries] at bound
    cases found.symm.trans bound
    refine ⟨id, by rwa [Registry.get?_retarget], ?_⟩
    rintro _ ⟨⟩
    have last := congrArg Draft.handler? same
    rw [Draft.entry, Registry.targets_retarget_self]
    cases before with
    | callable other _ _ first =>
        obtain rfl : name = other := renamed
        simp [Draft.after, lastHandler, handlerFor?, Draft.handler?, Draft.name] at last
        exact last.symm

/-- What a narrowed table makes of the entries that a registry shows. -/
theorem shows_narrowed_iff {other : Kind} {test : Name × Entry other → Bool}
    (narrowed : registry.Narrowed test next) (wellFormed : registry.WellFormed)
    (tested : ∀ (draft : Draft other) id,
      test (draft.name, draft.entry id) = true ↔ ¬deed.Ends draft)
    (spared : ∀ draft : Draft kind, kind ≠ other → ¬deed.Ends draft) (draft : Draft kind) :
    next.Shows draft ↔ registry.Shows draft ∧ ¬deed.Ends draft := by
  rw [Registry.Shows, Registry.Shows, narrowed.targets, ← exists_and_right]
  refine exists_congr fun id => ?_
  by_cases same : kind = other
  · subst same
    rw [narrowed.get?_eq_some_iff wellFormed, tested draft id]
    exact and_right_comm
  · rw [narrowed.get?_of_ne same]
    exact (and_iff_left (spared draft same)).symm

/-- A deed that neither makes nor points anything leaves what it does not do away with. -/
theorem exists_before_iff (unmade : ∀ draft : Draft kind, deed ≠ .made draft)
    (unpointed : ∀ name handler, deed ≠ .pointed name handler) (draft : Draft kind) :
    (deed = .made draft ∨
        ∃ before, registry.Shows before ∧ ¬deed.Ends before ∧ draft = before.after [deed]) ↔
      registry.Shows draft ∧ ¬deed.Ends draft := by
  have unchanged (any : Draft kind) : any.after [deed] = any :=
    any.after_singleton fun handler _ => unpointed any.name handler
  constructor
  · rintro (made | ⟨before, shown, stays, rfl⟩)
    · exact absurd made (unmade draft)
    · rw [unchanged]
      exact ⟨shown, stays⟩
  · rintro ⟨shown, stays⟩
    exact Or.inr ⟨draft, shown, stays, (unchanged draft).symm⟩

/-- What a new entry makes of the entries that a registry shows.  It displaces a constant
or nothing. -/
theorem shows_put_iff {other : Kind} (added : Draft other) (wellFormed : registry.WellFormed)
    (free : other ≠ .constant → registry.get? other added.name = none) (draft : Draft kind) :
    (registry.put added).Shows draft ↔
      Deed.made added = .made draft ∨
        ∃ before, registry.Shows before ∧ ¬(Deed.made added).Ends before ∧
          draft = before.after [.made added] := by
  have unpointed (any : Draft kind) : any.after [.made added] = any :=
    any.after_singleton fun _ _ same => nomatch same
  by_cases named : kind = other ∧ draft.name = added.name
  · obtain ⟨rfl, named⟩ := named
    rw [shows_put_self_iff added draft named]
    constructor
    · rintro rfl
      exact Or.inl rfl
    · rintro (same | ⟨before, ⟨id, bound, -⟩, stays, rfl⟩)
      · cases same
        rfl
      · rw [unpointed] at named
        by_cases constant : kind = .constant
        · exact absurd ⟨constant, constant, named.symm⟩ stays
        · rw [named, free constant] at bound
          cases bound
  · rw [shows_put_of_ne added wellFormed named]
    constructor
    · intro shown
      refine Or.inr ⟨draft, shown, ?_, (unpointed draft).symm⟩
      rintro ⟨constant, otherConstant, displaced⟩
      exact named ⟨constant.trans otherConstant.symm, displaced.symm⟩
    · rintro (same | ⟨before, shown, -, rfl⟩)
      · cases same
        exact absurd ⟨rfl, rfl⟩ named
      · rw [unpointed]
        exact shown

/-- What another handler of a callable makes of the entries that a registry shows. -/
theorem shows_retarget_iff {name : Name} {entry : Callable} (wellFormed : registry.WellFormed)
    (found : registry.get? .callable name = some entry) (handler : Handler) (draft : Draft kind) :
    (registry.retarget entry.id handler).Shows draft ↔
      ∃ before, registry.Shows before ∧ draft = before.after [.pointed name handler] := by
  by_cases named : kind = .callable ∧ draft.name = name
  · obtain ⟨rfl, named⟩ := named
    exact shows_retarget_self_iff found handler named
  · have unpointed (any : Draft kind) (same : any.name = draft.name) :
        any.after [.pointed name handler] = any := by
      refine any.after_singleton ?_
      rintro given callable ⟨⟩
      exact named ⟨callable, same.symm⟩
    rw [shows_retarget_of_ne wellFormed found handler named]
    constructor
    · intro shown
      exact ⟨draft, shown, (unpointed draft rfl).symm⟩
    · rintro ⟨before, shown, rfl⟩
      rw [unpointed before (before.name_after _).symm]
      exact shown

/-- What a deed makes of the entries that a registry shows. -/
theorem Does.shows_iff (does : deed.Does registry next) (wellFormed : registry.WellFormed)
    (draft : Draft kind) :
    next.Shows draft ↔
      deed = .made draft ∨
        ∃ before, registry.Shows before ∧ ¬deed.Ends before ∧ draft = before.after [deed] := by
  cases does with
  | made free => exact shows_put_iff _ wellFormed free draft
  | pointed handler found =>
      rw [shows_retarget_iff wellFormed found handler draft]
      simp [Ends]
  | @removed other name _ narrowed =>
      refine Iff.trans ?_ (exists_before_iff ?_ ?_ draft).symm
      · apply shows_narrowed_iff narrowed wellFormed
        · intro draft id
          rw [decide_eq_true_iff]
          exact not_congr ⟨fun same => ⟨rfl, same.symm⟩, fun named => named.2.symm⟩
        · rintro draft different ⟨same, -⟩
          exact different same.symm
      · rintro _ ⟨⟩
      · rintro _ _ ⟨⟩
  | @evicted other owner _ narrowed =>
      refine Iff.trans ?_ (exists_before_iff ?_ ?_ draft).symm
      · apply shows_narrowed_iff narrowed wellFormed
        · intro draft id
          rw [spares_iff]
          exact not_congr ⟨fun evicted => ⟨rfl, evicted⟩, And.right⟩
        · rintro draft different ⟨same, -⟩
          exact different same.symm
      · rintro _ ⟨⟩
      · rintro _ _ ⟨⟩

/-- The entries that a registry shows are those that its history means, and stay so
whatever is done to it. -/
theorem DoAll.shows_iff_means {deeds : List Deed} (doAll : DoAll registry deeds next)
    (wellFormed : registry.WellFormed)
    (meant : ∀ kind (draft : Draft kind), registry.Shows draft ↔ Means history draft) :
    ∀ kind (draft : Draft kind), next.Shows draft ↔ Means (history ++ deeds) draft := by
  induction doAll generalizing history with
  | nil =>
      rw [List.append_nil]
      exact meant
  | @cons registry next last deed rest does _ inductionHypothesis =>
      rw [List.append_cons]
      refine inductionHypothesis (does.wellFormed wellFormed) fun kind draft => ?_
      rw [does.shows_iff wellFormed, means_concat_iff]
      simp only [meant]

/-- A registry without entries shows nothing, and nothing means nothing. -/
theorem shows_empty_iff_means_nil (draft : Draft kind) :
    Registry.empty.Shows draft ↔ Means [] draft := by
  constructor
  · rintro ⟨id, bound, -⟩
    cases kind <;> cases bound
  · rintro ⟨first, since, ⟨⟨before, split⟩, -⟩, -⟩
    exact absurd split (List.append_ne_nil_of_right_ne_nil _ (List.cons_ne_nil _ _)).symm

/-- What the history of a callable tells about calls of its name. -/
theorem resolve?_of_stands {name : Name} {owner : Owner} {origin : Origin} {first : Handler}
    {since : List Deed} (stands : Stands history (.callable name owner origin first) since)
    (meant : ∀ kind (draft : Draft kind), registry.Shows draft ↔ Means history draft) :
    registry.resolve? name = some (lastHandler name first since) := by
  obtain ⟨id, bound, dispatched⟩ := (meant _ _).mpr ⟨_, since, stands, rfl⟩
  rw [Draft.name_after, Draft.entry_after] at bound
  rw [Registry.resolve?, show registry.get? .callable name = _ from bound]
  exact congrArg some (dispatched _ rfl)

/-- A name is bound to what its history means. -/
theorem bound_iff (wellFormed : registry.WellFormed)
    (meant : ∀ kind (draft : Draft kind), registry.Shows draft ↔ Means history draft)
    (name : Name) (owner : Owner) (content : Content kind) :
    (∃ entry, registry.get? kind name = some entry ∧ entry.owner = owner ∧
        entry.content = content) ↔
      ∃ first since, Stands history first since ∧ first.name = name ∧ first.owner = owner ∧
        first.content = content := by
  constructor
  · rintro ⟨entry, bound, rfl, rfl⟩
    obtain rfl : entry.name = name := wellFormed.name_eq bound
    have shown : registry.Shows (entry.draft (registry.targets entry.id)) :=
      ⟨entry.id, by rw [entry.name_draft, bound, entry.entry_draft],
        entry.handler?_draft (registry.targets entry.id)⟩
    obtain ⟨first, since, stands, same⟩ := (meant _ _).mp shown
    refine ⟨first, since, stands, ?_⟩
    have made := congrArg (Draft.entry · entry.id) same
    rw [entry.entry_draft, Draft.entry_after] at made
    rw [made]
    exact ⟨rfl, rfl, rfl⟩
  · rintro ⟨first, since, stands, rfl, rfl, rfl⟩
    obtain ⟨id, bound, -⟩ := (meant _ _).mpr ⟨_, since, stands, rfl⟩
    rw [Draft.name_after, Draft.entry_after] at bound
    exact ⟨_, bound, rfl, rfl⟩

/-- A host tells what its history means, if it shows what its history means. -/
theorem told_of_meant {host : Host} (wellFormed : host.registry.WellFormed)
    (meant : ∀ kind (draft : Draft kind), host.registry.Shows draft ↔ Means history draft) :
    Told history host where
  callable name owner origin := by
    rw [bound_iff wellFormed meant]
    constructor
    · rintro ⟨⟨_, _, _, handler⟩, since, stands, rfl, rfl, rfl⟩
      exact ⟨handler, since, stands⟩
    · rintro ⟨first, since, stands⟩
      exact ⟨_, since, stands, rfl, rfl, rfl⟩
  called name owner origin first since stands := by
    have resolved := resolve?_of_stands stands meant
    refine ⟨resolved, ?_⟩
    rintro depth arguments image rfl
    rw [Image.callNamed, resolved]
  uncalled name unmade := by
    rintro depth arguments image rfl
    have absent : image.host.registry.get? .callable name = none := by
      refine Option.eq_none_iff_forall_not_mem.mpr fun entry bound => ?_
      obtain ⟨⟨_, _, _, handler⟩, since, stands, rfl, -, -⟩ :=
        (bound_iff wellFormed meant name entry.owner entry.content).mp ⟨entry, bound, rfl, rfl⟩
      exact unmade _ _ handler since stands
    rw [Image.callNamed, Registry.resolve?, absent]
    rfl
  constant name value flags owner := by
    rw [bound_iff wellFormed meant]
    constructor
    · rintro ⟨⟨_, _, _⟩, since, stands, rfl, rfl, ⟨⟩⟩
      exact ⟨since, stands⟩
    · rintro ⟨since, stands⟩
      exact ⟨_, since, stands, rfl, rfl, rfl⟩
  value name value := by
    rw [Registry.constant?, Option.map_eq_some_iff]
    constructor
    · rintro ⟨entry, bound, rfl⟩
      obtain ⟨⟨_, _, _⟩, since, stands, rfl, -, same⟩ :=
        (bound_iff wellFormed meant name entry.owner entry.content).mp ⟨entry, bound, rfl, rfl⟩
      rw [← same]
      exact ⟨_, _, since, stands⟩
    · rintro ⟨flags, owner, since, stands⟩
      obtain ⟨entry, bound, -, same⟩ :=
        (bound_iff wellFormed meant name owner (Binding.mk value flags)).mpr
          ⟨_, since, stands, rfl, rfl, rfl⟩
      exact ⟨entry, bound, congrArg Binding.value same⟩
  type name owner origin := by
    rw [bound_iff wellFormed meant]
    constructor
    · rintro ⟨⟨_, _, _⟩, since, stands, rfl, rfl, rfl⟩
      exact ⟨since, stands⟩
    · rintro ⟨since, stands⟩
      exact ⟨_, since, stands, rfl, rfl, rfl⟩

end Deed

/-- After every run of operations, refused ones among them, what a host tells about a
name is decided by what was done to the name. -/
theorem Operation.told_runAll (operations : List Operation) :
    Deed.Told ((runAll operations .empty).1.flatMap Deed.ofOperation)
      (runAll operations .empty).2 := by
  have doAll := doAll_runAll .empty operations
  have meant := doAll.shows_iff_means Registry.wellFormed_empty
    fun kind draft => Deed.shows_empty_iff_means_nil draft
  rw [List.nil_append] at meant
  exact Deed.told_of_meant (doAll.wellFormed Registry.wellFormed_empty) meant

/-- A callable belongs to the owner who made it, whoever hooked it since. -/
example :
    let name : Name := ⟨[0x66]⟩
    let creator : Owner := ⟨0, "creator"⟩
    let hooker : Owner := ⟨1, "hooker"⟩
    let operations : List Operation :=
      [.define (.callable name creator .image ⟨1⟩), .hook .empty name ⟨2⟩ hooker,
        .evict .callable hooker]
    (Operation.runAll operations .empty).2.registry.resolve? name = some ⟨2⟩ ∧
      (Operation.runAll (operations ++ [.evict .callable creator]) .empty).2.registry.resolve?
        name = none := by
  decide +kernel

end Interposition
