import Interposition.Proofs.Concurrent.Frame
/-!
What an atomic step of a call can do.

A call under way stands at a stage that serves its request: entries to be
published were derived from a snapshot that was current at some time, an offered
entry has its dispatch target already, and a hook that is about to install was
not denied.  `Stage.step_moved` lists, for every such stage, what the next
atomic step can come to.  A step either goes on without touching anything but
the target of the offered entry, or it ends the call with the outcome that the
call would have alone at this moment, or it accesses the target of a callable
that was found before.
-/

namespace Interposition.Concurrent

variable {kind : Kind}

/-- Whether a snapshot was current at some time: it still is, or its table was
published again. -/
def WasCurrent (registry : Registry) (loaded : Snapshot kind) : Prop :=
  loaded = registry.current kind ∨ loaded.version < (registry.current kind).version

/-- Where a write can stand. -/
inductive WriteStage.StandsAt (registry : Registry) (write : Write kind) :
    WriteStage kind → Prop where
  | loading : StandsAt registry write (.loading write)
  | publishing {loaded : Snapshot kind} {next : EntryMap kind} {answer : WriteAnswer kind}
      (edited : write.edit loaded.entries = .publish next answer)
      (past : WasCurrent registry loaded) :
      StandsAt registry write (.publishing write loaded next answer)

section Newer

variable {first second : Registry} (newer : ∀ kind, second.current kind = first.current kind ∨
  (first.current kind).version < (second.current kind).version)

include newer

theorem WasCurrent.mono {loaded : Snapshot kind} (past : WasCurrent first loaded) :
    WasCurrent second loaded := by
  rcases newer kind with unchanged | published
  · rwa [WasCurrent, unchanged]
  · rcases past with rfl | older
    · exact Or.inr published
    · exact Or.inr (Nat.lt_trans older published)

theorem WriteStage.StandsAt.mono {write : Write kind} {stage : WriteStage kind}
    (stands : stage.StandsAt first write) : stage.StandsAt second write := by
  cases stands with
  | loading => exact .loading
  | publishing edited past => exact .publishing edited (past.mono newer)

end Newer

/-- What an atomic step of a write can come to. -/
inductive WriteStage.Moved (registry : Registry) (write : Write kind) :
    WriteProgress kind → Registry → Prop where
  | loaded {next : EntryMap kind} {answer : WriteAnswer kind}
      (edited : write.edit (registry.current kind).entries = .publish next answer) :
      Moved registry write
        (.ongoing (.publishing write (registry.current kind) next answer)) registry
  | kept {answer : WriteAnswer kind}
      (edited : write.edit (registry.current kind).entries = .keep answer) :
      Moved registry write (.finished answer) registry
  | lost (answer : WriteAnswer kind) :
      Moved registry write (.lost (.loading (write.afterLoss answer))) registry
  | published {next : EntryMap kind} {answer : WriteAnswer kind}
      (edited : write.edit (registry.current kind).entries = .publish next answer) :
      Moved registry write (.finished answer) (registry.publish next)

/-- Publishing succeeds only from the snapshot that is current. -/
theorem compareAndSwap_eq_some {registry published : Registry} {loaded : Snapshot kind}
    {next : EntryMap kind} (past : WasCurrent registry loaded)
    (swapped : registry.compareAndSwap loaded next = some published) :
    loaded = registry.current kind ∧ published = registry.publish next := by
  rw [Registry.compareAndSwap] at swapped
  split at swapped
  · rename_i same
    rw [Snapshot.isSame, beq_iff_eq] at same
    refine ⟨?_, (Option.some.inj swapped).symm⟩
    rcases past with current | older
    · exact current
    · omega
  · cases swapped

theorem WriteStage.step_moved {registry : Registry} {write : Write kind}
    {stage : WriteStage kind} (stands : stage.StandsAt registry write) :
    WriteStage.Moved registry write (stage.step registry).1 (stage.step registry).2 := by
  cases stands with
  | loading =>
      rw [WriteStage.step]
      split
      · rename_i edited
        exact .kept edited
      · rename_i edited
        exact .loaded edited
  | publishing edited past =>
      rw [WriteStage.step]
      split
      · rename_i swapped
        obtain ⟨rfl, rfl⟩ := compareAndSwap_eq_some past swapped
        exact .published edited
      · exact .lost _

theorem WriteStage.moved_of_step {registry next : Registry} {write : Write kind}
    {stage : WriteStage kind} {progress : WriteProgress kind}
    (stands : stage.StandsAt registry write) (stepped : stage.step registry = (progress, next)) :
    WriteStage.Moved registry write progress next := by
  have moved := WriteStage.step_moved stands
  rwa [stepped] at moved

/-- A call that writes ends with its write. -/
theorem Stage.exists_written_of_finished {deny : DenyList} {id : EntryId} {registry next : Registry}
    {stage : WriteStage kind} {answer : Answer}
    (stepped : (Stage.writing stage).step deny id registry = (.finished answer, next)) :
    ∃ given, answer = .written given ∧ stage.step registry = (.finished given, next) := by
  rw [Stage.step] at stepped
  split at stepped <;> rename_i result <;> cases stepped
  exact ⟨_, rfl, result⟩

theorem Request.Writes.afterLoss {id : EntryId} {request : Request} {write : Write kind}
    (writes : request.Writes id write) (answer : WriteAnswer kind) :
    request.Writes id (write.afterLoss answer) := by
  cases writes with
  | define draft => exact .define draft
  | replace draft => exact .replace draft
  | remove name => exact .remove _ name
  | retain predicate seen =>
      cases answer with
      | retained entries seen => exact .retain predicate seen
      | _ => exact .retain predicate _

/-- Preparing a call sets the target of the entry it offers, at most. -/
theorem Request.prepare_eq_retarget (id : EntryId) (request : Request)
    (registry : Registry) :
    request.prepare id registry =
      registry.retarget id ((request.prepare id registry).targets id) := by
  rw [Request.prepare_eq]
  split
  · exact (Registry.retarget_eq_self registry id _ rfl).symm
  · rw [Registry.targets_retarget_self]

/-- A prepared call stays so as long as the target of its entry is left alone. -/
theorem Request.prepare_eq_self_of_targets {id : EntryId} {request : Request}
    {first second : Registry} (prepared : request.prepare id first = first)
    (same : second.targets id = first.targets id) :
    request.prepare id second = second := by
  have target : (request.prepare id second).targets id = second.targets id := by
    rw [Request.targets_prepare_congr id request same, prepared, same]
  rw [Request.prepare_eq_retarget, target]
  exact Registry.retarget_eq_self second id _ rfl

theorem Request.prepare_prepare (id : EntryId) (request : Request) (registry : Registry) :
    request.prepare id (request.prepare id registry) = request.prepare id registry := by
  simp only [Request.prepare_eq]
  split
  · rfl
  · exact Registry.retarget_eq_self _ id _ (Registry.targets_retarget_self registry id _)

/-- Where a call can stand. -/
inductive Stage.Serves (deny : DenyList) (id : EntryId) (registry : Registry) :
    Request → Stage → Prop where
  | writing {kind : Kind} {request : Request} {write : Write kind} {stage : WriteStage kind}
      (writes : request.Writes id write) (steady : request.IsSteady)
      (prepared : request.prepare id registry = registry)
      (stands : stage.StandsAt registry write) :
      Serves deny id registry request (.writing stage)
  | reading (kind : Kind) : Serves deny id registry (.read kind) (.reading kind)
  | looking (name : Name) (handler : Handler) (owner : Owner) :
      Serves deny id registry (.hook name handler owner) (.hooking name handler owner .looking)
  | exchanging (name : Name) (handler : Handler) (owner : Owner) (entry : Callable) :
      Serves deny id registry (.hook name handler owner)
        (.hooking name handler owner (.exchanging entry))
  | installing {name : Name} {handler : Handler} {owner : Owner}
      {stage : WriteStage .callable} (allowed : deny.contains name = false)
      (prepared : registry.targets id = handler)
      (stands : stage.StandsAt registry
        (.insert ((installDraft name handler owner).entry id))) :
      Serves deny id registry (.hook name handler owner)
        (.hooking name handler owner (.installing stage))
  | patching (name : Name) (handler : Handler) (found? : Option Callable) :
      Serves deny id registry (.patch name handler) (.patching name handler found?)
  | resolving (name : Name) (found? : Option Callable) :
      Serves deny id registry (.resolve name) (.resolving name found?)

/-- The callable that a call found under a name and has not accessed yet. -/
def Stage.held? : Stage → Option (Name × Callable)
  | .hooking name _ _ (.exchanging entry) => some (name, entry)
  | .patching name _ (some entry) => some (name, entry)
  | .resolving name (some entry) => some (name, entry)
  | _ => none

/-- The stage that a call goes on to, if it goes on. -/
def Progress.stage? : Progress → Option Stage
  | .ongoing stage | .lost stage | .again stage => some stage
  | .finished _ => none

/-- A call begins at a stage that serves it, and holds nothing. -/
theorem Request.serves_start {request : Request} (steady : request.IsSteady) (deny : DenyList)
    (id : EntryId) (registry : Registry) :
    (request.start id registry).1.Serves deny id (request.prepare id registry) request := by
  have prepared := request.prepare_prepare id registry
  cases request with
  | define draft => exact .writing (.define draft) steady prepared .loading
  | replace draft => exact .writing (.replace draft) steady prepared .loading
  | remove kind name => exact .writing (.remove kind name) steady prepared .loading
  | retain kind predicate => exact .writing (.retain predicate []) steady prepared .loading
  | read kind => exact .reading kind
  | hook name handler owner => exact .looking name handler owner
  | patch name handler => exact .patching name handler none
  | resolve name => exact .resolving name none

theorem Request.held?_start (id : EntryId) (request : Request) (registry : Registry) :
    (request.start id registry).1.held? = none := by
  cases request <;> rfl

/-- Calls of others do not disturb where a call stands. -/
theorem Stage.Serves.mono {deny : DenyList} {id : EntryId} {first second : Registry}
    {request : Request} {stage : Stage} (serves : stage.Serves deny id first request)
    (newer : ∀ kind, second.current kind = first.current kind ∨
      (first.current kind).version < (second.current kind).version)
    (same : second.targets id = first.targets id) :
    stage.Serves deny id second request := by
  cases serves with
  | writing writes steady prepared standing =>
      exact .writing writes steady (Request.prepare_eq_self_of_targets prepared same)
        (standing.mono newer)
  | reading kind => exact .reading kind
  | looking name handler owner => exact .looking name handler owner
  | exchanging name handler owner entry => exact .exchanging name handler owner entry
  | installing allowed prepared standing =>
      exact .installing allowed (same.trans prepared) (standing.mono newer)
  | patching name handler found? => exact .patching name handler found?
  | resolving name found? => exact .resolving name found?

/-- What an atomic step of a call can come to. -/
inductive Stage.Moved (deny : DenyList) (id : EntryId) (registry : Registry)
    (request : Request) (stage : Stage) : Progress → Registry → Prop where
  /-- The call goes on.  What it holds now it has just found. -/
  | onward {progress : Progress} {after : Stage} {next : Registry}
      (goes : progress.stage? = some after) (free : stage.held? = none)
      (serves : after.Serves deny id next request)
      (unchanged : ∃ handler, next = registry.retarget id handler)
      (held : ∀ name entry, after.held? = some (name, entry) →
        registry.get? .callable name = some entry) :
      Moved deny id registry request stage progress next
  /-- The call ends as it would alone. -/
  | decided {answer : Answer} {next : Registry}
      (outcome : Outcome deny id registry request answer next) (free : stage.held? = none) :
      Moved deny id registry request stage (.finished answer) next
  /-- The call ends with the callable that it found before. -/
  | accessed {name : Name} {entry : Callable} {answer : Answer} {left : Handler}
      (held : stage.held? = some (name, entry))
      (accesses : request.Accesses name (registry.target entry) answer left) :
      Moved deny id registry request stage (.finished answer)
        (registry.retarget entry.id left)

section Step

variable {deny : DenyList} {id : EntryId} {registry : Registry}

/-- The registry is as it was. -/
theorem exists_retarget_eq (registry : Registry) (id : EntryId) :
    ∃ handler, registry = registry.retarget id handler :=
  ⟨registry.targets id, (Registry.retarget_eq_self registry id _ rfl).symm⟩

theorem Stage.step_moved_writing {request : Request} {write : Write kind}
    {stage : WriteStage kind} (writes : request.Writes id write) (steady : request.IsSteady)
    (prepared : request.prepare id registry = registry)
    (stands : stage.StandsAt registry write) :
    (Stage.writing stage).Moved deny id registry request
      ((Stage.writing stage).step deny id registry).1
      ((Stage.writing stage).step deny id registry).2 := by
  have moved := WriteStage.step_moved stands
  rw [Stage.step]
  generalize stage.step registry = result at moved
  obtain ⟨progress, next⟩ := result
  dsimp only at moved
  cases moved with
  | loaded edited =>
      exact .onward rfl rfl (.writing writes steady prepared (.publishing edited (Or.inl rfl)))
        (exists_retarget_eq registry id) (by simp [Stage.held?])
  | kept edited =>
      have outcome : Outcome deny id registry request _ _ :=
        .kept writes (Write.kept_of_edit (writes.isSteady steady) edited)
      rw [prepared] at outcome
      exact .decided outcome rfl
  | lost answer =>
      exact .onward rfl rfl (.writing (writes.afterLoss answer) steady prepared .loading)
        (exists_retarget_eq registry id) (by simp [Stage.held?])
  | published edited =>
      have outcome : Outcome deny id registry request _ _ :=
        .published writes (Write.published_of_edit (writes.isSteady steady) edited)
      rw [prepared] at outcome
      exact .decided outcome rfl

theorem Stage.step_moved_installing {name : Name} {handler : Handler} {owner : Owner}
    {stage : WriteStage .callable} (allowed : deny.contains name = false)
    (prepared : registry.targets id = handler)
    (stands : stage.StandsAt registry (.insert ((installDraft name handler owner).entry id))) :
    (Stage.hooking name handler owner (.installing stage)).Moved deny id registry
      (.hook name handler owner)
      ((Stage.hooking name handler owner (.installing stage)).step deny id registry).1
      ((Stage.hooking name handler owner (.installing stage)).step deny id registry).2 := by
  have steady : (Write.insert ((installDraft name handler owner).entry id)).IsSteady := trivial
  have moved := WriteStage.step_moved stands
  rw [Stage.step, HookStage.step]
  generalize stage.step registry = result at moved
  obtain ⟨progress, next⟩ := result
  dsimp only at moved
  cases moved with
  | loaded edited =>
      exact .onward rfl rfl (.installing allowed prepared (.publishing edited (Or.inl rfl)))
        (exists_retarget_eq registry id) (by simp [Stage.held?])
  | kept edited =>
      cases Write.kept_of_edit steady edited with
      | duplicate taken =>
          exact .onward rfl rfl (.looking name handler owner) (exists_retarget_eq registry id)
            (by simp [Stage.held?])
  | lost answer =>
      exact .onward rfl rfl (.installing allowed prepared .loading)
        (exists_retarget_eq registry id) (by simp [Stage.held?])
  | published edited =>
      have published := Write.published_of_edit steady edited
      have outcome := Outcome.installed allowed published
      rw [Registry.retarget_eq_self registry id handler prepared] at outcome
      cases published with
      | inserted free => exact .decided outcome rfl

/-- An atomic step of a call goes on, or decides the call, or accesses what the
call found. -/
theorem Stage.step_moved {request : Request} {stage : Stage}
    (serves : stage.Serves deny id registry request) :
    stage.Moved deny id registry request (stage.step deny id registry).1
      (stage.step deny id registry).2 := by
  cases serves with
  | writing writes steady prepared stands =>
      exact Stage.step_moved_writing writes steady prepared stands
  | reading kind => exact .decided (.read kind) rfl
  | looking name handler owner =>
      rw [Stage.step, HookStage.step]
      split
      · rename_i entry found
        refine .onward rfl rfl (.exchanging name handler owner entry)
          (exists_retarget_eq registry id) ?_
        rintro other found' held
        cases held
        exact found
      · rename_i absent
        split
        · rename_i denied
          exact .decided (.missed absent (.hook denied)) rfl
        · rename_i allowed
          refine .onward rfl rfl (.installing (Bool.not_eq_true _ ▸ allowed) ?_ .loading)
            ⟨handler, rfl⟩ (by simp [Stage.held?])
          exact Registry.targets_retarget_self registry id handler
  | exchanging name handler owner entry =>
      exact @Stage.Moved.accessed _ _ _ _ _ _ entry _ _ rfl (.hook name handler owner _)
  | installing allowed prepared stands =>
      exact Stage.step_moved_installing allowed prepared stands
  | patching name handler found? =>
      cases found? with
      | none =>
          rw [Stage.step]
          split
          · rename_i absent
            exact .decided (.missed absent (.patch name handler)) rfl
          · rename_i entry found
            refine .onward rfl rfl (.patching name handler (some entry))
              (exists_retarget_eq registry id) ?_
            rintro other found' held
            cases held
            exact found
      | some entry =>
          exact @Stage.Moved.accessed _ _ _ _ _ _ entry _ _ rfl (.patch name handler _)
  | resolving name found? =>
      cases found? with
      | none =>
          rw [Stage.step]
          split
          · rename_i absent
            exact .decided (.missed absent (.resolve name)) rfl
          · rename_i entry found
            refine .onward rfl rfl (.resolving name (some entry))
              (exists_retarget_eq registry id) ?_
            rintro other found' held
            cases held
            exact found
      | some entry =>
          have moved := @Stage.Moved.accessed deny id registry _ (.resolving name (some entry)) _
            entry _ _ rfl (Request.Accesses.resolve name (registry.target entry))
          rw [Registry.retarget_eq_self registry entry.id (registry.target entry) rfl] at moved
          exact moved

end Step
end Interposition.Concurrent
