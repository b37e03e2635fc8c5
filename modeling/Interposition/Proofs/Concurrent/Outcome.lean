import Interposition.Proofs.Concurrent.Writes
/-!
Calls that nobody disturbs.

`Outcome` lists what a call can come to when it runs by itself on a registry:
an answer and the next registry.  `Outcome.alone_eq` ties the list to
`Request.alone`.  The rest of the module says, once for all calls, what a call
changes and what it depends on: which entries may come into a table, which
bindings may go, which dispatch targets are read and written.
-/

namespace Interposition.Concurrent

/-- What a write returns.  What a predicate was asked is known to the predicate
alone. -/
def WriteAnswer.returned {kind : Kind} : WriteAnswer kind → WriteAnswer kind
  | .retained entries _ => .retained entries []
  | answer => answer

/-- What a call returns. -/
def Answer.returned : Answer → Answer
  | .written answer => .written answer.returned
  | answer => answer

/-- An answer that tells that the call put an entry of its own into the table of
a kind. -/
inductive Answer.Adds : Answer → Kind → Prop where
  | written {kind : Kind} {answer : WriteAnswer kind} (adds : answer.Adds) :
      Adds (.written answer) kind
  | installed : Adds (.hooked (.ok .installed)) .callable

/-- An answer that hands out an entry as removed. -/
inductive Answer.Removes {kind : Kind} (entry : Entry kind) : Answer → Prop where
  | written {answer : WriteAnswer kind} (member : entry ∈ answer.removals) :
      Removes entry (.written answer)

namespace Request

/-- A call whose predicate, if it has one, looks at the entry alone. -/
def IsSteady : Request → Prop
  | .retain _ predicate => ∃ keep, predicate = fun _ => keep
  | _ => True

/-- A call that only writes a table or only reads one.  The other calls look
up a callable and may go on to its dispatch target. -/
def IsTableCall : Request → Prop
  | .hook .. | .patch .. | .resolve .. => False
  | _ => True

/-- The registry in which the entry that a call offers has its dispatch
target. -/
def prepare (id : EntryId) (request : Request) (registry : Registry) : Registry :=
  (request.start id registry).2

/-- The handler that `prepare` binds. -/
def bound? : Request → Option Handler
  | .define draft => draft.handler?
  | .replace draft => draft.handler?
  | _ => none

/-- The write that a call carries out.  A sweep may have been asked about
entries in attempts that were lost. -/
inductive Writes (id : EntryId) : {kind : Kind} → Request → Write kind → Prop where
  | define {kind : Kind} (draft : Draft kind) :
      Writes id (.define draft) (.insert (draft.entry id))
  | replace {kind : Kind} (draft : Draft kind) :
      Writes id (.replace draft) (.replace (draft.entry id))
  | remove (kind : Kind) (name : Name) :
      Writes id (.remove kind name) (.remove name : Write kind)
  | retain {kind : Kind} (predicate : List (Entry kind) → Entry kind → Bool)
      (seen : List (Entry kind)) :
      Writes id (.retain kind predicate) (.retain predicate seen)

/-- What a call does to the dispatch target of the callable that it found: the
handler that is there, its answer, and the handler that it leaves. -/
inductive Accesses : Request → Name → Handler → Answer → Handler → Prop where
  | hook (name : Name) (handler : Handler) (owner : Owner) (current : Handler) :
      Accesses (.hook name handler owner) name current (.hooked (.ok (.patched current)))
        handler
  | patch (name : Name) (handler current : Handler) :
      Accesses (.patch name handler) name current (.patched (some current)) handler
  | resolve (name : Name) (current : Handler) :
      Accesses (.resolve name) name current (.resolved (some current)) current

/-- The answer of a call that does not find its callable and makes none. -/
inductive Misses (deny : DenyList) : Request → Name → Answer → Prop where
  | hook {name : Name} {handler : Handler} {owner : Owner}
      (denied : deny.contains name = true) :
      Misses deny (.hook name handler owner) name (.hooked (.error (.unhookable name)))
  | patch (name : Name) (handler : Handler) :
      Misses deny (.patch name handler) name (.patched none)
  | resolve (name : Name) : Misses deny (.resolve name) name (.resolved none)

section Prepare

variable (id : EntryId) (request : Request) (registry : Registry)

theorem prepare_eq :
    request.prepare id registry =
      match request.bound? with
      | none => registry
      | some handler => registry.retarget id handler := by
  cases request with
  | define draft => exact Registry.bindTarget_eq draft id registry
  | replace draft => exact Registry.bindTarget_eq draft id registry
  | _ => rfl

@[simp] theorem current_prepare (kind : Kind) :
    (request.prepare id registry).current kind = registry.current kind := by
  cases request <;> simp [prepare, start]

@[simp] theorem fresh_prepare : (request.prepare id registry).fresh = registry.fresh := by
  cases request <;> simp [prepare, start]

theorem targets_prepare_of_ne {other : EntryId} (different : other ≠ id) :
    (request.prepare id registry).targets other = registry.targets other := by
  rw [prepare_eq]
  split
  · rfl
  · exact Registry.targets_retarget_of_ne registry id _ different

theorem prepare_retarget {other : EntryId} (different : other ≠ id) (handler : Handler) :
    request.prepare id (registry.retarget other handler) =
      (request.prepare id registry).retarget other handler := by
  rw [prepare_eq, prepare_eq]
  split
  · rfl
  · exact Registry.retarget_comm registry id _ different handler

end Prepare

variable {id : EntryId} {request : Request} {kind : Kind} {write : Write kind}

theorem Writes.isTableCall (writes : request.Writes id write) : request.IsTableCall := by
  cases writes <;> trivial

theorem Writes.offers (writes : request.Writes id write) : write.Offers id := by
  cases writes <;> trivial

theorem Writes.isSteady (writes : request.Writes id write) (steady : request.IsSteady) :
    write.IsSteady := by
  cases writes with
  | retain predicate seen => exact steady
  | _ => trivial

theorem Writes.alone_eq (writes : request.Writes id write) (steady : request.IsSteady)
    (deny : DenyList) (registry : Registry) :
    ((request.alone deny id registry).1.returned =
        (Answer.written ((request.prepare id registry).update write.edit).1).returned) ∧
      (request.alone deny id registry).2 =
        ((request.prepare id registry).update write.edit).2 := by
  cases writes with
  | retain predicate seen =>
      -- The sweeps differ in what they remember, which they do not return.
      obtain ⟨keep, rfl⟩ := steady
      simp only [alone, prepare, start, Registry.update, Write.edit_retain_steady]
      split <;> rename_i edited <;> split at edited <;> cases edited <;>
        rename_i unmatched <;> simp [unmatched, Answer.returned, WriteAnswer.returned]
  | _ => exact ⟨rfl, rfl⟩

end Request

/-- What a call that nobody disturbs comes to: its answer and the next
registry. -/
inductive Outcome (deny : DenyList) (id : EntryId) (registry : Registry) :
    Request → Answer → Registry → Prop where
  | kept {kind : Kind} {request : Request} {write : Write kind} {answer : WriteAnswer kind}
      (writes : request.Writes id write)
      (kept : Write.Kept (registry.current kind).entries write answer) :
      Outcome deny id registry request (.written answer) (request.prepare id registry)
  | published {kind : Kind} {request : Request} {write : Write kind} {next : EntryMap kind}
      {answer : WriteAnswer kind} (writes : request.Writes id write)
      (published : Write.Published (registry.current kind).entries write next answer) :
      Outcome deny id registry request (.written answer)
        ((request.prepare id registry).publish next)
  | read (kind : Kind) :
      Outcome deny id registry (.read kind) (.read kind (registry.current kind)) registry
  | accessed {request : Request} {name : Name} {entry : Callable} {answer : Answer}
      {next : Handler} (found : registry.get? .callable name = some entry)
      (accesses : request.Accesses name (registry.target entry) answer next) :
      Outcome deny id registry request answer (registry.retarget entry.id next)
  | missed {request : Request} {name : Name} {answer : Answer}
      (absent : registry.get? .callable name = none)
      (misses : request.Misses deny name answer) :
      Outcome deny id registry request answer registry
  | installed {name : Name} {handler : Handler} {owner : Owner} {next : EntryMap .callable}
      {answer : WriteAnswer .callable} (allowed : deny.contains name = false)
      (published : Write.Published (registry.current .callable).entries
        (.insert ((installDraft name handler owner).entry id)) next answer) :
      Outcome deny id registry (.hook name handler owner) (.hooked (.ok .installed))
        ((registry.retarget id handler).publish next)

namespace Outcome

variable {deny : DenyList} {id : EntryId} {registry next : Registry} {request : Request}
  {answer : Answer}

/-- An outcome is what the call does alone. -/
theorem alone_eq (outcome : Outcome deny id registry request answer next)
    (steady : request.IsSteady) :
    (request.alone deny id registry).1.returned = answer.returned ∧
      (request.alone deny id registry).2 = next := by
  cases outcome with
  | kept writes kept =>
      have alone := writes.alone_eq steady deny registry
      rw [Registry.update, Request.current_prepare, Write.edit_eq_of_kept kept] at alone
      exact alone
  | published writes published =>
      have alone := writes.alone_eq steady deny registry
      rw [Registry.update, Request.current_prepare, Write.edit_eq_of_published published]
        at alone
      exact alone
  | read kind => exact ⟨rfl, rfl⟩
  | @accessed _ _ entry _ _ found accesses =>
      cases accesses with
      | hook => simp [Request.alone, found, Registry.swapTarget, Registry.retarget,
          Registry.target]
      | patch => simp [Request.alone, found, Registry.swapTarget, Registry.retarget,
          Registry.target]
      | resolve =>
          rw [Registry.retarget_eq_self registry entry.id (registry.target entry) rfl]
          simp [Request.alone, Registry.resolve?, found]
  | missed absent misses =>
      cases misses with
      | hook denied => simp [Request.alone, absent, denied]
      | patch => simp [Request.alone, absent]
      | resolve => simp [Request.alone, Registry.resolve?, absent]
  | @installed name handler owner next _ allowed published =>
      cases published with
      | inserted free =>
          have absent : registry.get? .callable name = none := by
            rw [OrderedMap.contains, Option.isSome_eq_false_iff, Option.isNone_iff_eq_none]
              at free
            exact free
          have inserted : (registry.retarget id handler).update
              (Edit.insert ((installDraft name handler owner).entry id)) =
                (.ok ((installDraft name handler owner).entry id),
                  (registry.retarget id handler).publish
                    ((registry.current .callable).entries.append name
                      ((installDraft name handler owner).entry id))) := by
            rw [Registry.update, Registry.current_retarget, Edit.insert, if_neg (by simp [free])]
            rfl
          simp only [Request.alone, absent, allowed]
          exact ⟨rfl, congrArg Prod.snd inserted⟩

/-- A call leaves all tables as they are, or publishes in one of them. -/
theorem tables (outcome : Outcome deny id registry request answer next) :
    (∀ kind, next.current kind = registry.current kind) ∨
      ∃ (kind : Kind) (write : Write kind) (entries : EntryMap kind)
        (written : WriteAnswer kind),
        write.Offers id ∧
        Write.Published (registry.current kind).entries write entries written ∧
        (written.Adds → answer.Adds kind) ∧
        (∀ other, next.current other = (registry.publish entries).current other) ∧
        (request.IsTableCall ∨ ∃ entry, write = .insert entry) := by
  cases outcome with
  | kept writes kept => exact Or.inl (Request.current_prepare id request registry)
  | published writes published =>
      right
      refine ⟨_, _, _, _, writes.offers, published, Answer.Adds.written, ?_,
        Or.inl writes.isTableCall⟩
      exact Registry.current_publish_congr _ (Request.current_prepare id request registry)
  | read kind => exact Or.inl fun _ => rfl
  | accessed found accesses => exact Or.inl (Registry.current_retarget registry _ _)
  | missed absent misses => exact Or.inl fun _ => rfl
  | installed allowed published =>
      right
      refine ⟨_, _, _, _, ?_, published, fun _ => .installed, ?_, Or.inr ⟨_, rfl⟩⟩
      · rfl
      · exact Registry.current_publish_congr _ (Registry.current_retarget registry _ _)

/-- A table stays as it is, or its version goes up by one. -/
theorem version (outcome : Outcome deny id registry request answer next) (kind : Kind) :
    next.current kind = registry.current kind ∨
      (next.current kind).version = (registry.current kind).version + 1 := by
  rcases outcome.tables with same | ⟨written, write, entries, _, -, -, -, current, -⟩
  · exact Or.inl (same kind)
  · rw [current]
    by_cases equal : kind = written
    · subst equal
      rw [Registry.current_publish]
      exact Or.inr rfl
    · exact Or.inl (Registry.current_publish_of_ne registry entries equal)

/-- No entry comes into a table but the one that the call offers. -/
theorem ids_next (outcome : Outcome deny id registry request answer next) {kind : Kind}
    {other : EntryId} (member : other ∈ EntryMap.ids (next.current kind).entries) :
    other ∈ EntryMap.ids (registry.current kind).entries ∨
      (other = id ∧ answer.Adds kind) := by
  rcases outcome.tables with same | ⟨written, write, entries, _, offers, published, adds,
    current, -⟩
  · rw [same] at member
    exact Or.inl member
  · rw [current] at member
    by_cases equal : kind = written
    · subst equal
      rw [Registry.current_publish] at member
      exact (published.ids_next offers member).imp_right fun new => ⟨new.1, adds new.2⟩
    · rw [Registry.current_publish_of_ne registry entries equal] at member
      exact Or.inl member

theorem fresh_next (outcome : Outcome deny id registry request answer next) :
    next.fresh = registry.fresh := by
  cases outcome with
  | kept => exact Request.fresh_prepare id request registry
  | published => rw [Registry.fresh_publish, Request.fresh_prepare]
  | installed => rw [Registry.fresh_publish, Registry.fresh_retarget]
  | _ => rfl

/-- Calls keep tables sound, if the identities they offer are unused. -/
theorem sound_next (outcome : Outcome deny id registry request answer next)
    (sound : ∀ kind, EntryMap.Sound (registry.current kind).entries)
    (unused : ∀ kind, id ∉ EntryMap.ids (registry.current kind).entries) (kind : Kind) :
    EntryMap.Sound (next.current kind).entries := by
  rcases outcome.tables with same | ⟨written, write, entries, _, offers, published, -,
    current, -⟩
  · rw [same]
    exact sound kind
  · rw [current]
    by_cases equal : kind = written
    · subst equal
      rw [Registry.current_publish]
      exact published.sound (sound kind) offers (unused kind)
    · rw [Registry.current_publish_of_ne registry entries equal]
      exact sound kind

theorem wellFormed_next (outcome : Outcome deny id registry request answer next)
    (wellFormed : registry.WellFormed) (below : id < registry.fresh)
    (unused : ∀ kind, id ∉ EntryMap.ids (registry.current kind).entries) :
    next.WellFormed where
  sound := outcome.sound_next wellFormed.sound unused
  belowFresh kind other member := by
    rw [outcome.fresh_next]
    rcases outcome.ids_next member with old | ⟨rfl, -⟩
    · exact wellFormed.belowFresh kind other old
    · exact below

/-- A name that is bound to a callable stays bound to it, unless the call writes
tables and the callable is gone. -/
theorem get?_next (outcome : Outcome deny id registry request answer next)
    (sound : EntryMap.Sound (registry.current .callable).entries)
    (unused : id ∉ EntryMap.ids (registry.current .callable).entries) {name : Name}
    {entry : Callable} (found : registry.get? .callable name = some entry) :
    next.get? .callable name = some entry ∨
      (request.IsTableCall ∧ entry.id ∉ EntryMap.ids (next.current .callable).entries) := by
  rcases outcome.tables with same | ⟨written, write, entries, _, offers, published, -,
    current, tableCall⟩
  · rw [Registry.get?, same]
    exact Or.inl found
  · rw [Registry.get?, current]
    by_cases equal : Kind.callable = written
    · subst equal
      rw [Registry.current_publish]
      rcases tableCall with tableCall | ⟨added, rfl⟩
      · exact (published.get?_next sound offers unused found).imp_right fun gone =>
          ⟨tableCall, gone⟩
      · left
        cases published with
        | inserted free =>
            have different : name ≠ added.name := by
              rintro rfl
              rw [OrderedMap.contains, Option.isSome_eq_false_iff,
                Option.isNone_iff_eq_none] at free
              rw [Registry.get?, Snapshot.get?, free] at found
              cases found
            exact (OrderedMap.get?_append_of_ne _ different added).trans found
    · rw [Registry.current_publish_of_ne registry entries equal]
      exact Or.inl found

/-- What a call hands out as removed was in the table, and is not any more. -/
theorem of_removes (outcome : Outcome deny id registry request answer next)
    {kind : Kind} {entry : Entry kind}
    (sound : EntryMap.Sound (registry.current kind).entries)
    (unused : id ∉ EntryMap.ids (registry.current kind).entries)
    (removes : answer.Removes entry) :
    entry ∈ (registry.current kind).toList ∧
      entry.id ∉ EntryMap.ids (next.current kind).entries := by
  cases outcome with
  | kept writes kept =>
      cases removes with
      | written member => cases kept <;> cases member
  | @published _ _ _ entries _ writes published =>
      cases removes with
      | written member =>
          rw [Registry.current_publish]
          exact ⟨published.mem_values_of_mem_removals member,
            published.id_notMem_of_mem_removals sound writes.offers unused member⟩
  | accessed found accesses => cases accesses <;> cases removes
  | missed absent misses => cases misses <;> cases removes
  | _ => cases removes

end Outcome
end Interposition.Concurrent
