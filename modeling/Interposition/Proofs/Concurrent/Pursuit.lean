import Interposition.Proofs.Concurrent.Stages
/-!
What a call does to the tables.

A call takes entries into a table and hands entries out.  It does both at most
once, with its last atomic step, whatever its predicate remembers and however
many attempts it lost before: `Stage.pursued` says so.  What it takes in and
hands out is then balanced by what the table holds before and after
(`Stage.Pursued.exchange`).
-/

namespace Interposition.Concurrent

variable {kind : Kind}

/-- Entries of one kind among those of another: all of them or none. -/
def ofKind (kind : Kind) {other : Kind} (entries : List (Entry other)) : List (Entry kind) :=
  if same : other = kind then same ▸ entries else []

@[simp] theorem ofKind_self (entries : List (Entry kind)) : ofKind kind entries = entries := by
  simp [ofKind]

theorem ofKind_of_ne {other : Kind} (different : other ≠ kind) (entries : List (Entry other)) :
    ofKind kind entries = [] := by
  simp [ofKind, different]

@[simp] theorem ofKind_nil (kind other : Kind) :
    ofKind kind ([] : List (Entry other)) = [] := by
  by_cases same : other = kind
  · subst same
    simp
  · exact ofKind_of_ne same []

/-- The entries of a kind that a call hands out as displaced or removed. -/
def Answer.handedOut (kind : Kind) : Answer → List (Entry kind)
  | .written answer => ofKind kind answer.removals
  | _ => []

/-- The entries of a kind that a call put into the table, according to its
answer. -/
def Request.added (kind : Kind) (id : EntryId) (request : Request) (answer : Answer) :
    List (Entry kind) :=
  match request, answer with
  | .define draft, .written (.inserted (.ok _)) => ofKind kind [draft.entry id]
  | .replace draft, .written (.replaced _) => ofKind kind [draft.entry id]
  | .hook name handler owner, .hooked (.ok .installed) =>
    ofKind kind [(installDraft name handler owner).entry id]
  | _, _ => []

/-- What a call adds is what it offered. -/
theorem Request.ids_added_sublist (kind : Kind) (id : EntryId) (request : Request)
    (answer : Answer) : ((request.added kind id answer).map (·.id)).Sublist [id] := by
  have single {other : Kind} (offered : Entry other) (same : offered.id = id) :
      ((ofKind kind [offered]).map (·.id)).Sublist [id] := by
    by_cases equal : other = kind
    · subst equal
      simp [same]
    · simp [ofKind_of_ne equal]
  unfold Request.added
  split
  · exact single _ rfl
  · exact single _ rfl
  · exact single _ rfl
  · exact List.nil_sublist _

/-- Where a call can stand, whatever its predicate remembers. -/
inductive Stage.Pursues (deny : DenyList) (id : EntryId) (registry : Registry) :
    Request → Stage → Prop where
  | writing {kind : Kind} {request : Request} {write : Write kind} {stage : WriteStage kind}
      (writes : request.Writes id write) (stands : stage.StandsAt registry write) :
      Pursues deny id registry request (.writing stage)
  | reading (kind : Kind) : Pursues deny id registry (.read kind) (.reading kind)
  | looking (name : Name) (handler : Handler) (owner : Owner) :
      Pursues deny id registry (.hook name handler owner) (.hooking name handler owner .looking)
  | exchanging (name : Name) (handler : Handler) (owner : Owner) (entry : Callable) :
      Pursues deny id registry (.hook name handler owner)
        (.hooking name handler owner (.exchanging entry))
  | installing {name : Name} {handler : Handler} {owner : Owner}
      {stage : WriteStage .callable} (allowed : deny.contains name = false)
      (stands : stage.StandsAt registry
        (.insert ((installDraft name handler owner).entry id))) :
      Pursues deny id registry (.hook name handler owner)
        (.hooking name handler owner (.installing stage))
  | patching (name : Name) (handler : Handler) (found? : Option Callable) :
      Pursues deny id registry (.patch name handler) (.patching name handler found?)
  | resolving (name : Name) (found? : Option Callable) :
      Pursues deny id registry (.resolve name) (.resolving name found?)

/-- What an atomic step of a call can do to the tables. -/
inductive Stage.Pursued (deny : DenyList) (id : EntryId) (registry : Registry)
    (request : Request) : Progress → Registry → Prop where
  /-- The call goes on and leaves the tables as they are. -/
  | onward {progress : Progress} {after : Stage} {next : Registry}
      (goes : progress.stage? = some after) (pursues : after.Pursues deny id next request)
      (tables : ∀ kind, next.current kind = registry.current kind)
      (fresh : next.fresh = registry.fresh) :
      Pursued deny id registry request progress next
  /-- The call ends and leaves the tables as they are. -/
  | silent {answer : Answer} {next : Registry}
      (nothing : ∀ kind, answer.handedOut kind = [] ∧ request.added kind id answer = [])
      (tables : ∀ kind, next.current kind = registry.current kind)
      (fresh : next.fresh = registry.fresh) :
      Pursued deny id registry request (.finished answer) next
  /-- The call ends with the publication of a table. -/
  | published {kind : Kind} {write : Write kind} {entries : EntryMap kind}
      {given : WriteAnswer kind} {answer : Answer}
      (edited : write.edit (registry.current kind).entries = .publish entries given)
      (offers : write.Offers id)
      (handedOut : ∀ other, answer.handedOut other = ofKind other given.removals)
      (added : ∀ other, request.added other id answer = ofKind other write.offer)
      (allowed : ∀ name handler owner, request = .hook name handler owner →
        deny.contains name = false) :
      Pursued deny id registry request (.finished answer) (registry.publish entries)

section Step

variable {deny : DenyList} {id : EntryId} {registry : Registry} {request : Request}

/-- A call begins at a stage where it can stand. -/
theorem Request.pursues_start (deny : DenyList) (id : EntryId) (request : Request)
    (first second : Registry) : (request.start id first).1.Pursues deny id second request := by
  cases request with
  | define draft => exact .writing (.define draft) .loading
  | replace draft => exact .writing (.replace draft) .loading
  | remove kind name => exact .writing (.remove kind name) .loading
  | retain kind predicate => exact .writing (.retain predicate []) .loading
  | read kind => exact .reading kind
  | hook name handler owner => exact .looking name handler owner
  | patch name handler => exact .patching name handler none
  | resolve name => exact .resolving name none

/-- Calls of others do not disturb where a call stands. -/
theorem Stage.Pursues.mono {first second : Registry} {stage : Stage}
    (pursues : stage.Pursues deny id first request)
    (newer : ∀ kind, second.current kind = first.current kind ∨
      (first.current kind).version < (second.current kind).version) :
    stage.Pursues deny id second request := by
  cases pursues with
  | writing writes stands => exact .writing writes (stands.mono newer)
  | reading kind => exact .reading kind
  | looking name handler owner => exact .looking name handler owner
  | exchanging name handler owner entry => exact .exchanging name handler owner entry
  | installing allowed stands => exact .installing allowed (stands.mono newer)
  | patching name handler found? => exact .patching name handler found?
  | resolving name found? => exact .resolving name found?

/-- An attempt that leaves the table as it is adds nothing to it. -/
theorem Request.Writes.added_of_kept {write : Write kind} {answer : WriteAnswer kind}
    (writes : request.Writes id write) {entries : EntryMap kind}
    (edited : write.edit entries = .keep answer) (other : Kind) :
    request.added other id (.written answer) = [] := by
  cases writes with
  | define draft =>
      rw [Write.edit, Edit.insert] at edited
      split at edited <;> cases edited
      rfl
  | replace draft => cases edited
  | remove name => rfl
  | retain predicate seen => rfl

/-- An attempt that is published adds what the write offers. -/
theorem Request.Writes.added_of_published {write : Write kind} {answer : WriteAnswer kind}
    (writes : request.Writes id write) {entries next : EntryMap kind}
    (edited : write.edit entries = .publish next answer) (other : Kind) :
    request.added other id (.written answer) = ofKind other write.offer := by
  cases writes with
  | define draft =>
      rw [Write.edit, Edit.insert] at edited
      split at edited <;> cases edited
      rfl
  | replace draft =>
      cases edited
      rfl
  | remove name => exact (ofKind_nil other kind).symm
  | retain predicate seen => exact (ofKind_nil other kind).symm

theorem Stage.pursued_writing {write : Write kind} {stage : WriteStage kind}
    (writes : request.Writes id write) (stands : stage.StandsAt registry write) :
    Stage.Pursued deny id registry request ((Stage.writing stage).step deny id registry).1
      ((Stage.writing stage).step deny id registry).2 := by
  have moved := WriteStage.step_moved stands
  rw [Stage.step]
  generalize stage.step registry = result at moved
  obtain ⟨progress, next⟩ := result
  dsimp only at moved
  cases moved with
  | loaded edited =>
      exact .onward rfl (.writing writes (.publishing edited (Or.inl rfl))) (fun _ => rfl) rfl
  | kept edited =>
      refine .silent (fun other => ⟨?_, writes.added_of_kept edited other⟩) (fun _ => rfl) rfl
      rw [Answer.handedOut, Write.removals_eq_nil_of_edit edited, ofKind_nil]
  | lost answer =>
      exact .onward rfl (.writing (writes.afterLoss answer) .loading) (fun _ => rfl) rfl
  | published edited =>
      refine .published edited writes.offers (fun _ => rfl) (writes.added_of_published edited) ?_
      rintro name handler owner rfl
      cases writes

theorem Stage.pursued_installing {name : Name} {handler : Handler} {owner : Owner}
    {stage : WriteStage .callable} (allowed : deny.contains name = false)
    (stands : stage.StandsAt registry (.insert ((installDraft name handler owner).entry id))) :
    Stage.Pursued deny id registry (.hook name handler owner)
      ((Stage.hooking name handler owner (.installing stage)).step deny id registry).1
      ((Stage.hooking name handler owner (.installing stage)).step deny id registry).2 := by
  have moved := WriteStage.step_moved stands
  rw [Stage.step, HookStage.step]
  generalize stage.step registry = result at moved
  obtain ⟨progress, next⟩ := result
  dsimp only at moved
  cases moved with
  | loaded edited =>
      exact .onward rfl (.installing allowed (.publishing edited (Or.inl rfl))) (fun _ => rfl) rfl
  | kept edited =>
      rw [Write.edit, Edit.insert] at edited
      split at edited <;> cases edited
      exact .onward rfl (.looking name handler owner) (fun _ => rfl) rfl
  | lost answer => exact .onward rfl (.installing allowed .loading) (fun _ => rfl) rfl
  | published edited =>
      have published := edited
      rw [Write.edit, Edit.insert] at edited
      split at edited <;> cases edited
      refine .published published rfl (fun other => (ofKind_nil other _).symm) (fun _ => rfl) ?_
      rintro other handler owner same
      cases same
      exact allowed

/-- An atomic step of a call changes the tables only where it ends the call. -/
theorem Stage.pursued {stage : Stage} (pursues : stage.Pursues deny id registry request) :
    Stage.Pursued deny id registry request (stage.step deny id registry).1
      (stage.step deny id registry).2 := by
  cases pursues with
  | writing writes stands => exact Stage.pursued_writing writes stands
  | reading kind => exact .silent (fun _ => ⟨rfl, rfl⟩) (fun _ => rfl) rfl
  | looking name handler owner =>
      rw [Stage.step, HookStage.step]
      split
      · rename_i entry found
        exact .onward rfl (.exchanging name handler owner entry) (fun _ => rfl) rfl
      · split
        · exact .silent (fun _ => ⟨rfl, rfl⟩) (fun _ => rfl) rfl
        · rename_i allowed
          exact .onward rfl (.installing (Bool.not_eq_true _ ▸ allowed) .loading)
            (fun kind => Registry.current_bindTarget _ _ registry) rfl
  | exchanging name handler owner entry =>
      exact .silent (fun _ => ⟨rfl, rfl⟩) (fun kind => Registry.current_swapTarget registry _ _)
        rfl
  | installing allowed stands => exact Stage.pursued_installing allowed stands
  | patching name handler found? =>
      cases found? with
      | none =>
          rw [Stage.step]
          split
          · exact .silent (fun _ => ⟨rfl, rfl⟩) (fun _ => rfl) rfl
          · exact .onward rfl (.patching name handler _) (fun _ => rfl) rfl
      | some entry =>
          exact .silent (fun _ => ⟨rfl, rfl⟩)
            (fun kind => Registry.current_swapTarget registry _ _) rfl
  | resolving name found? =>
      cases found? with
      | none =>
          rw [Stage.step]
          split
          · exact .silent (fun _ => ⟨rfl, rfl⟩) (fun _ => rfl) rfl
          · exact .onward rfl (.resolving name _) (fun _ => rfl) rfl
      | some entry => exact .silent (fun _ => ⟨rfl, rfl⟩) (fun _ => rfl) rfl

/-- How a call can answer, by the stage at which it ends. -/
inductive Stage.Ends (registry : Registry) : Stage → Answer → Prop where
  | written {kind : Kind} (stage : WriteStage kind) (answer : WriteAnswer kind) :
      Ends registry (.writing stage) (.written answer)
  | read (kind : Kind) : Ends registry (.reading kind) (.read kind (registry.current kind))
  | hooked (name : Name) (handler : Handler) (owner : Owner) (stage : HookStage)
      (result : Except HookError HookOutcome) :
      Ends registry (.hooking name handler owner stage) (.hooked result)
  | patched (name : Name) (handler : Handler) (found? : Option Callable)
      (previous? : Option Handler) :
      Ends registry (.patching name handler found?) (.patched previous?)
  | resolved (name : Name) (found? : Option Callable) (handler? : Option Handler) :
      Ends registry (.resolving name found?) (.resolved handler?)

theorem Stage.ends_of_step {stage : Stage} {next : Registry} {answer : Answer}
    (stepped : stage.step deny id registry = (.finished answer, next)) :
    stage.Ends registry answer := by
  cases stage with
  | writing stage =>
      rw [Stage.step] at stepped
      split at stepped <;> cases stepped
      exact .written stage _
  | reading kind =>
      cases stepped
      exact .read kind
  | hooking name handler owner stage =>
      cases stage with
      | looking =>
          rw [Stage.step, HookStage.step] at stepped
          split at stepped
          · cases stepped
          · split at stepped <;> cases stepped
            exact .hooked name handler owner _ _
      | exchanging entry =>
          cases stepped
          exact .hooked name handler owner _ _
      | installing stage =>
          rw [Stage.step, HookStage.step] at stepped
          split at stepped <;> cases stepped
          exact .hooked name handler owner _ _
  | patching name handler found? =>
      cases found? with
      | none =>
          rw [Stage.step] at stepped
          split at stepped <;> cases stepped
          exact .patched name handler none none
      | some entry =>
          cases stepped
          exact .patched name handler (some entry) _
  | resolving name found? =>
      cases found? with
      | none =>
          rw [Stage.step] at stepped
          split at stepped <;> cases stepped
          exact .resolved name none none
      | some entry =>
          cases stepped
          exact .resolved name (some entry) _

/-- What a call hands out was removed by the attempt that it published. -/
theorem Stage.exists_removals {stage : Stage} {next : Registry}
    (pursues : stage.Pursues deny id registry request) {answer : Answer}
    (stepped : stage.step deny id registry = (.finished answer, next))
    {entry : Entry kind} (handedOut : entry ∈ answer.handedOut kind) :
    ∃ write : Write kind, request.Writes id write ∧ ∃ entries given,
      write.edit (registry.current kind).entries = .publish entries given ∧
        entry ∈ given.removals := by
  cases pursues with
  | @writing other request write stage writes stands =>
      obtain ⟨given, rfl, result⟩ := Stage.exists_written_of_finished stepped
      cases WriteStage.moved_of_step stands result with
      | kept edited =>
          rw [Answer.handedOut, Write.removals_eq_nil_of_edit edited, ofKind_nil] at handedOut
          cases handedOut
      | published edited =>
          by_cases same : other = kind
          · subst same
            rw [Answer.handedOut, ofKind_self] at handedOut
            exact ⟨write, writes, _, _, edited, handedOut⟩
          · rw [Answer.handedOut, ofKind_of_ne same] at handedOut
            cases handedOut
  | reading | looking | exchanging | installing | patching | resolving =>
      cases Stage.ends_of_step stepped
      cases handedOut

namespace Stage.Pursued

variable {answer : Answer} {next : Registry}

/-- A call that goes on leaves the tables as they are. -/
theorem of_goes {progress : Progress} {after : Stage}
    (pursued : Stage.Pursued deny id registry request progress next)
    (goes : progress.stage? = some after) :
    after.Pursues deny id next request ∧
      (∀ kind, next.current kind = registry.current kind) ∧ next.fresh = registry.fresh := by
  cases pursued with
  | onward goesOn pursues tables fresh =>
      rw [goes] at goesOn
      cases goesOn
      exact ⟨pursues, tables, fresh⟩
  | silent => cases goes
  | published => cases goes

variable (pursued : Stage.Pursued deny id registry request (.finished answer) next)

include pursued

/-- What a call takes into a table and what it hands out is what makes the
difference between the table before and after. -/
theorem exchange (wellFormed : registry.WellFormed) (kind : Kind) :
    ((next.current kind).toList ++ answer.handedOut kind).Perm
      ((registry.current kind).toList ++ request.added kind id answer) := by
  cases pursued with
  | onward goes => cases goes
  | silent nothing tables fresh =>
      obtain ⟨handedOut, added⟩ := nothing kind
      rw [tables, handedOut, added]
  | @published other write entries given answer edited offers handedOut added allowed =>
      rw [handedOut, added]
      by_cases same : other = kind
      · subst same
        rw [ofKind_self, ofKind_self, Registry.current_publish]
        exact Write.values_perm_of_edit edited (wellFormed.sound other).distinctKeys
      · rw [ofKind_of_ne same, ofKind_of_ne same,
          Registry.current_publish_of_ne registry entries (Ne.symm same)]

theorem wellFormed (before : registry.WellFormed) (below : id < registry.fresh)
    (unused : ∀ kind, id ∉ EntryMap.ids (registry.current kind).entries) : next.WellFormed := by
  cases pursued with
  | onward goes => cases goes
  | silent nothing tables fresh => exact before.of_current tables (Nat.le_of_eq fresh.symm)
  | @published kind write entries given answer edited offers handedOut added allowed =>
      have sound := before.sound kind
      apply before.publish (Write.sound_of_edit edited sound offers (unused kind))
      intro other member
      have split := (Write.values_perm_of_edit edited sound.distinctKeys).map (·.id)
      rw [List.map_append, List.map_append] at split
      rcases List.mem_append.mp (split.subset (List.mem_append_left _ member)) with old | new
      · exact before.belowFresh kind other old
      · obtain ⟨entry, offered, rfl⟩ := List.mem_map.mp new
        cases write with
        | insert entry =>
            rw [List.mem_singleton.mp offered, offers]
            exact below
        | replace entry =>
            rw [List.mem_singleton.mp offered, offers]
            exact below
        | _ => cases offered

theorem fresh : next.fresh = registry.fresh := by
  cases pursued with
  | onward goes => cases goes
  | silent nothing tables fresh => exact fresh
  | published => exact Registry.fresh_publish registry _

/-- A table is as it was, or has a new version. -/
theorem newer (kind : Kind) :
    next.current kind = registry.current kind ∨
      (registry.current kind).version < (next.current kind).version := by
  cases pursued with
  | onward goes => cases goes
  | silent nothing tables fresh => exact Or.inl (tables kind)
  | @published other write entries given answer edited offers handedOut added allowed =>
      by_cases same : kind = other
      · subst same
        right
        rw [Registry.current_publish]
        exact Nat.lt_succ_self _
      · exact Or.inl (Registry.current_publish_of_ne registry entries same)

end Stage.Pursued

end Step
end Interposition.Concurrent
