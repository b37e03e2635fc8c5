import Interposition.Concurrent.Write
import Interposition.Eviction
import Interposition.Hook
/-!
Calls that several threads make on one registry.

A call is a sequence of atomic steps: loading a snapshot, publishing one, and
loading or exchanging the dispatch target of an entry.  Between its steps other
threads may take theirs.  In particular a hook looks an entry up and exchanges
its target in two different steps, and the entry may be evicted in between.
-/

namespace Interposition.Concurrent

/-- A call of the registry.  A call that offers an entry gives it an identity
that was reserved when the call began. -/
inductive Request where
  | define {kind : Kind} (draft : Draft kind)
  | replace {kind : Kind} (draft : Draft kind)
  | remove (kind : Kind) (name : Name)
  | retain (kind : Kind) (predicate : List (Entry kind) → Entry kind → Bool)
  /-- Load the current snapshot.  All questions about the content of a table
  are answered from one snapshot. -/
  | read (kind : Kind)
  /-- Patch the callable with a name, or install one. -/
  | hook (name : Name) (handler : Handler) (owner : Owner)
  | patch (name : Name) (handler : Handler)
  /-- Find out which handler a call of a name is dispatched to. -/
  | resolve (name : Name)

/-- The eviction of an owner's entries from one table. -/
def Request.evict (kind : Kind) (owner : Owner) : Request :=
  .retain kind fun _ entry => !entry.isEvictedWith owner

/-- What a call answers. -/
inductive Answer where
  | written {kind : Kind} (answer : WriteAnswer kind)
  | read (kind : Kind) (snapshot : Snapshot kind)
  | hooked (result : Except HookError HookOutcome)
  | patched (previous? : Option Handler)
  | resolved (handler? : Option Handler)

/-- The entry that a hook installs. -/
def installDraft (name : Name) (handler : Handler) (owner : Owner) : Draft .callable :=
  .callable name owner .image handler

/-- What a call does when nobody disturbs it.  An entry that it offers gets the
given identity. -/
def Request.alone (deny : DenyList) (id : EntryId) (request : Request)
    (registry : Registry) : Answer × Registry :=
  let write {kind : Kind} (write : Write kind) (registry : Registry) :=
    let (answer, registry) := registry.update write.edit
    (Answer.written answer, registry)
  match request with
  | .define draft => write (.insert (draft.entry id)) (registry.bindTarget draft id)
  | .replace draft => write (.replace (draft.entry id)) (registry.bindTarget draft id)
  | .remove kind name => write (.remove name : Write kind) registry
  | .retain _ predicate => write (.retain predicate []) registry
  | .read kind => (.read kind (registry.current kind), registry)
  | .hook name handler owner =>
    match registry.get? .callable name with
    | some entry =>
      let (previous, registry) := registry.swapTarget entry.id handler
      (.hooked (.ok (.patched previous)), registry)
    | none =>
      if deny.contains name then (.hooked (.error (.unhookable name)), registry)
      else
        let draft := installDraft name handler owner
        let (_, registry) :=
          (registry.bindTarget draft id).update (Edit.insert (draft.entry id))
        (.hooked (.ok .installed), registry)
  | .patch name handler =>
    match registry.get? .callable name with
    | none => (.patched none, registry)
    | some entry =>
      let (previous, registry) := registry.swapTarget entry.id handler
      (.patched (some previous), registry)
  | .resolve name => (.resolved (registry.resolve? name), registry)

/-- Where a hook stands between two atomic steps. -/
inductive HookStage where
  /-- About to look the name up. -/
  | looking
  /-- About to exchange the target of the entry that was found. -/
  | exchanging (entry : Callable)
  /-- Installing an entry, since none was found and the name is not denied. -/
  | installing (stage : WriteStage .callable)

/-- Where a call stands between two atomic steps. -/
inductive Stage where
  | writing {kind : Kind} (stage : WriteStage kind)
  | reading (kind : Kind)
  | hooking (name : Name) (handler : Handler) (owner : Owner) (stage : HookStage)
  /-- Patching a name, after its entry was found or before. -/
  | patching (name : Name) (handler : Handler) (found? : Option Callable)
  /-- Resolving a name, after its entry was found or before. -/
  | resolving (name : Name) (found? : Option Callable)

/-- What an atomic step of a call leads to. -/
inductive Progress where
  | ongoing (stage : Stage)
  /-- An attempt to publish was lost to another write. -/
  | lost (stage : Stage)
  /-- A hook found its name taken when it was about to install an entry, and
  starts over. -/
  | again (stage : Stage)
  | finished (answer : Answer)

/-- The first stage of a call.  An entry that it offers gets the given
identity. -/
def Request.start (id : EntryId) (request : Request) (registry : Registry) :
    Stage × Registry :=
  match request with
  | .define draft =>
    (.writing (.loading (.insert (draft.entry id))), registry.bindTarget draft id)
  | .replace draft =>
    (.writing (.loading (.replace (draft.entry id))), registry.bindTarget draft id)
  | .remove kind name => (.writing (.loading (.remove name : Write kind)), registry)
  | .retain _ predicate => (.writing (.loading (.retain predicate [])), registry)
  | .read kind => (.reading kind, registry)
  | .hook name handler owner => (.hooking name handler owner .looking, registry)
  | .patch name handler => (.patching name handler none, registry)
  | .resolve name => (.resolving name none, registry)

/-- Carry out the next atomic step of a hook. -/
def HookStage.step (deny : DenyList) (id : EntryId) (name : Name) (handler : Handler)
    (owner : Owner) (stage : HookStage) (registry : Registry) : Progress × Registry :=
  match stage with
  | .looking =>
    match registry.get? .callable name with
    | some entry => (.ongoing (.hooking name handler owner (.exchanging entry)), registry)
    | none =>
      if deny.contains name then
        (.finished (.hooked (.error (.unhookable name))), registry)
      else
        let draft := installDraft name handler owner
        let insertion := WriteStage.loading (.insert (draft.entry id))
        (.ongoing (.hooking name handler owner (.installing insertion)),
          registry.bindTarget draft id)
  | .exchanging entry =>
    let (previous, registry) := registry.swapTarget entry.id handler
    (.finished (.hooked (.ok (.patched previous))), registry)
  | .installing stage =>
    match stage.step registry with
    | (.ongoing stage, registry) =>
      (.ongoing (.hooking name handler owner (.installing stage)), registry)
    | (.lost stage, registry) =>
      (.lost (.hooking name handler owner (.installing stage)), registry)
    | (.finished (.inserted (.error _)), registry) =>
      (.again (.hooking name handler owner .looking), registry)
    | (.finished _, registry) => (.finished (.hooked (.ok .installed)), registry)

/-- Carry out the next atomic step of a call that offers entries with the given
identity. -/
def Stage.step (deny : DenyList) (id : EntryId) (stage : Stage) (registry : Registry) :
    Progress × Registry :=
  match stage with
  | .writing stage =>
    match stage.step registry with
    | (.ongoing stage, registry) => (.ongoing (.writing stage), registry)
    | (.lost stage, registry) => (.lost (.writing stage), registry)
    | (.finished answer, registry) => (.finished (.written answer), registry)
  | .reading kind => (.finished (.read kind (registry.current kind)), registry)
  | .hooking name handler owner stage => stage.step deny id name handler owner registry
  | .patching name handler none =>
    match registry.get? .callable name with
    | none => (.finished (.patched none), registry)
    | some entry => (.ongoing (.patching name handler (some entry)), registry)
  | .patching _ handler (some entry) =>
    let (previous, registry) := registry.swapTarget entry.id handler
    (.finished (.patched (some previous)), registry)
  | .resolving name none =>
    match registry.get? .callable name with
    | none => (.finished (.resolved none), registry)
    | some entry => (.ongoing (.resolving name (some entry)), registry)
  | .resolving _ (some entry) =>
    (.finished (.resolved (some (registry.target entry))), registry)

end Interposition.Concurrent
