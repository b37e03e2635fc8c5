import Interposition.Session.State
/-!
Commands that carry no other commands.

`Action.run` carries out a command of the session, and `RegistrarAction.run`
one to the registrar of a takeover.  A command that refers to a handler which
does not exist is malformed and changes nothing.
-/

namespace Interposition

namespace HandlerSpec

/-- An integer times ten. -/
def tenfold : Value → Value
  | .int number => .int (number * 10)
  | other => other

/-- The code of a handler, or the handler itself where there is one already. -/
def program? (session : Session) : HandlerSpec → Option (Handler ⊕ Program)
  | .value result => some (.inr fun _ => .done result)
  | .argumentCount =>
    some (.inr fun arguments => .done (.int (Int64.ofNat arguments.length)))
  | .argument index => some (.inr fun arguments => .done (arguments.getD index .null))
  | .same label => (session.handlers.get? label).map .inl
  | .chain slot =>
    some (.inr fun arguments =>
      .callSaved slot arguments fun result => .done ((result.map tenfold).getD .null))
  | .forward name =>
    some (.inr fun arguments =>
      .callNamed name arguments fun result => .done (result.getD .null))
  | .patch name label result =>
    (session.handlers.get? label).map fun handler =>
      .inr fun _ => .patch name handler fun _ => .done result

end HandlerSpec

/-- The draft of an entry, if its handler exists. -/
def EntrySpec.draft? (session : Session) : EntrySpec → Option ((kind : Kind) × Draft kind)
  | .callable name owner origin label =>
    (session.handlers.get? label).map fun handler =>
      ⟨.callable, .callable name owner origin handler⟩
  | .constant name value flags owner => some ⟨.constant, .constant name value flags owner⟩
  | .type name owner origin => some ⟨.type, .type name owner origin⟩

/-- Whether a filter keeps an entry, after the given number of others. -/
def Filter.keeps {kind : Kind} (filter : Filter) (before : Nat) (entry : Entry kind) : Bool :=
  match filter with
  | .all => true
  | .owner kept => entry.owner == kept
  | .start bytes => entry.name.startsWith bytes
  | .every period => (before + 1) % period != 0

/-- Bind a constant through the function for the kind of its value. -/
def Host.forceTyped (name : Name) (value : Value) (flags : ConstFlags) (owner : Owner) :
    Host → Option Constant × Host :=
  match value with
  | .null => Host.forceNull name flags owner
  | .bool value => Host.forceBool name value flags owner
  | .int value => Host.forceInt name value flags owner
  | .float value => Host.forceFloat name value flags owner
  | .bytes content =>
    match Text.Utf8.text? content with
    | some text => Host.forceText name text flags owner
    | none => Host.forceBytes name content flags owner

namespace Session

/-- The handlers of a batch, if all of them exist. -/
def resolveHooks? (session : Session) (hooks : List (Name × Label)) :
    Option (List (Name × Handler)) :=
  hooks.mapM fun (name, label) => (session.handlers.get? label).map fun handler =>
    (name, handler)

/-- Do something with the handler of a label, if it exists. -/
def withHandler (label : Label) (action : Handler → Session → Reply × Session)
    (session : Session) : Reply × Session :=
  match session.handlers.get? label with
  | none => (.malformed, session)
  | some handler => action handler session

/-- Take the result of a call into the session. -/
def finishCall (result : Option (Value × Image)) (session : Session) : Reply × Session :=
  match result with
  | none => (.endless, session)
  | some (value, image) => (.value value, session.setImage image)

/-- Hook a name, save the displaced handler, and give the outcome. -/
def hookSaving (deny : DenyList) (name : Name) (handler : Handler) (owner : Owner)
    (slot? : Option Label) (session : Session) :
    Except HookError OutcomeView × Session :=
  let (result, session) := session.onHost (Host.hook deny name handler owner)
  match result with
  | .error error => (.error error, session)
  | .ok outcome =>
    (.ok (session.viewOutcome outcome), session.save slot? outcome.previous?)

/-- Hook a batch under the current deny list. -/
def hookBatch (hooks : List (Name × Label)) (owner : Owner) (session : Session) :
    Reply × Session :=
  match session.resolveHooks? hooks with
  | none => (.malformed, session)
  | some resolved =>
    let (report, session) := session.onHost (Host.hookBatch session.deny resolved owner)
    (.batch (session.viewBatch report), session)

/-- Compare two entries that are held. -/
def compareHeld :
    (kind : Kind) × Entry kind → (kind : Kind) × Entry kind → Reply
  | ⟨.constant, first⟩, ⟨.constant, second⟩ =>
    .compared (Entry.sameConstant first second) (first.isSame second)
  | ⟨.type, first⟩, ⟨.type, second⟩ =>
    .compared (Entry.sameType first second) (first.isSame second)
  | _, _ => .missing

/-- Show a snapshot, and what it says about a name. -/
def viewSnapshot {kind : Kind} (session : Session) (snapshot : Snapshot kind)
    (name? : Option Name) : SnapshotView :=
  { names := snapshot.names
    entries := snapshot.toList.map session.view
    found? := name?.map fun name =>
      ((snapshot.get? name).map session.view, snapshot.contains name) }

/-- The snapshot of a table that is kept under a label. -/
def snapshotUnder? (session : Session) (kind : Kind) (label : Label) :
    Option (Snapshot kind) :=
  match session.snapshots.get? label with
  | none => none
  | some ⟨keptKind, snapshot⟩ =>
    if same : keptKind = kind then some (same ▸ snapshot) else none

/-- The entry of a table that is held under a label. -/
def entryUnder? (session : Session) (kind : Kind) (label : Label) : Option (Entry kind) :=
  match session.held.get? label with
  | none => none
  | some ⟨heldKind, entry⟩ =>
    if same : heldKind = kind then some (same ▸ entry) else none

end Session

open Session in
/-- Carry out a command that carries no other commands. -/
def Action.run (action : Action) (session : Session) : Reply × Session :=
  match action with
  | .makeHandler label spec =>
    match spec.program? session with
    | none => (.malformed, session)
    | some (.inl handler) =>
      let session := { session with handlers := session.handlers.append label handler }
      (.handlers (session.labelsOf handler), session)
    | some (.inr program) =>
      let (handler, image) := session.image.makeHandler program
      let session :=
        { session with image := image, handlers := session.handlers.append label handler }
      (.handlers (session.labelsOf handler), session)
  | .callHandler label arguments =>
    session.withHandler label fun handler session =>
      session.finishCall (Image.invoke session.depth handler arguments session.image)
  | .define spec =>
    match spec.draft? session with
    | none => (.malformed, session)
    | some ⟨_, draft⟩ =>
      let (outcome, session) := session.onRegistry (Registry.define draft)
      (session.replyDefined outcome, session)
  | .replace spec =>
    match spec.draft? session with
    | none => (.malformed, session)
    | some ⟨_, draft⟩ =>
      let (previous?, session) := session.onRegistry (Registry.replace draft)
      (session.replyEntry previous?, session)
  | .force name value flags owner typed =>
    let force := if typed then Host.forceTyped else Host.forceConstant
    let (previous?, session) := session.onHost (force name value flags owner)
    (session.replyEntry previous?, session)
  | .call name arguments =>
    match Image.callNamed session.depth name arguments session.image with
    | none => (.endless, session)
    | some (none, image) => (.missing, session.setImage image)
    | some (some value, image) => (.value value, session.setImage image)
  | .read name =>
    match session.registry.constant? name with
    | none => (.missing, session)
    | some value => (.value value, session)
  | .patch name label slot? =>
    session.withHandler label fun handler session =>
      let (previous?, session) := session.onHost (Host.patch name handler)
      (session.replyHandler previous?, session.save slot? previous?)
  | .hook name label owner =>
    session.withHandler label fun handler session =>
      let (outcome, session) := session.onHost (Host.hook session.deny name handler owner)
      match outcome with
      | .error error => (.unhookable error, session)
      | .ok outcome => (.truth outcome.isInstalled, session)
  | .hookSaving name label owner slot? =>
    session.withHandler label fun handler session =>
      let (outcome, session) :=
        Session.hookSaving session.deny name handler owner slot? session
      match outcome with
      | .error error => (.unhookable error, session)
      | .ok outcome => (.outcome outcome, session)
  | .hookBatch hooks owner => session.hookBatch hooks owner
  | .evict kind owner =>
    let (removed, session) := session.onHost (Host.evict kind owner)
    (.entries (removed.map session.view), session)
  | .evictAll owner =>
    let (report, session) := session.onHost (Host.evictAll owner)
    (.evicted report, session)
  | .setDeny source =>
    match source.read with
    | .error error => (.settingsError error, session)
    | .ok deny => (.count deny.size, { session with deny := deny })
  | .showEntry label =>
    match session.held.get? label with
    | none => (.missing, session)
    | some ⟨.callable, entry⟩ =>
      (.inspectedEntry (session.view entry) (entry.inspect (session.registry.target entry)),
        session)
    | some ⟨_, entry⟩ =>
      (.inspectedEntry (session.view entry) (entry.inspect default), session)
  | .callEntry label arguments =>
    match session.entryUnder? .callable label with
    | none => (.missing, session)
    | some entry =>
      session.finishCall
        (Image.invoke session.depth (session.registry.target entry) arguments session.image)
  | .swapEntry label handlerLabel =>
    match session.entryUnder? .callable label with
    | none => (.missing, session)
    | some entry =>
      session.withHandler handlerLabel fun handler session =>
        let (previous, session) := session.onRegistry (Registry.swapTarget entry.id handler)
        (.handlers (session.labelsOf previous), session)
  | .compareEntries first second =>
    match session.held.get? first, session.held.get? second with
    | some firstEntry, some secondEntry => (compareHeld firstEntry secondEntry, session)
    | _, _ => (.missing, session)
  | .inspectRegistry => (.text session.registry.inspect, session)
  | .remove kind name =>
    let (removed?, session) := session.onRegistry (Registry.remove kind name)
    (session.replyEntry removed?, session)
  | .get kind name => (session.replyEntry (session.registry.get? kind name), session)
  | .contains kind name => (.truth (session.registry.contains kind name), session)
  | .names kind => (.names (session.registry.current kind).names, session)
  | .entries kind => (.entries (session.views kind), session)
  | .size kind => (.tableSize kind (session.registry.current kind).size, session)
  | .inspectTable kind => (.text (session.registry.inspectTable kind), session)
  | .keepEntry kind name label =>
    match session.registry.get? kind name with
    | none => (.truth false, session)
    | some entry =>
      (.truth true, { session with held := session.held.append label ⟨kind, entry⟩ })
  | .isKeptEntry kind name label =>
    match session.registry.get? kind name, session.entryUnder? kind label with
    | some entry, some held => (.truth (entry.isSame held), session)
    | _, _ => (.nothing, session)
  | .keepSnapshot kind label =>
    let snapshot := session.registry.current kind
    (.count snapshot.size,
      { session with snapshots := session.snapshots.append label ⟨kind, snapshot⟩ })
  | .isKeptSnapshot kind label =>
    match session.snapshotUnder? kind label with
    | none => (.nothing, session)
    | some snapshot => (.truth ((session.registry.current kind).isSame snapshot), session)
  | .readSnapshot kind label name? =>
    match session.snapshotUnder? kind label with
    | none => (.nothing, session)
    | some snapshot => (.snapshot (session.viewSnapshot snapshot name?), session)

/-- Turn the result of a registration into a reply and a verdict. -/
def RegistrarAction.settle {α : Type} (view : α → Reply) (result : Except TakeoverError α) :
    Reply × Except TakeoverError Unit :=
  match result with
  | .ok answer => (view answer, .ok ())
  | .error error => (.takeoverError error, .error error)

/-- Carry out a command to a registrar: the reply, the verdict, and the next
session. -/
def RegistrarAction.run (registrar : Registrar) (action : RegistrarAction)
    (session : Session) : (Reply × Except TakeoverError Unit) × Session :=
  match action with
  | .function name label =>
    match session.handlers.get? label with
    | none => ((.malformed, .ok ()), session)
    | some handler =>
      let (outcome, session) := session.onHost (registrar.function name handler)
      (settle (fun entry => .entry (session.view entry)) (outcome.mapError .registry),
        session)
  | .hook name label slot? =>
    match session.handlers.get? label with
    | none => ((.malformed, .ok ()), session)
    | some handler =>
      let (outcome, session) :=
        session.hookSaving registrar.deny name handler registrar.owner slot?
      (settle .outcome (outcome.mapError .hook), session)
  | .constant name value flags =>
    let (previous?, session) := session.onHost (registrar.forceConstant name value flags)
    ((session.replyEntry previous?, .ok ()), session)
  | .type name =>
    let (outcome, session) := session.onHost (registrar.defineType name)
    (settle (fun entry => .entry (session.view entry)) (outcome.mapError .registry), session)
  | .owner =>
    ((.ownership registrar.owner (session.registry.current .type).size, .ok ()), session)
  | .hookBatch hooks =>
    let (reply, session) := session.hookBatch hooks registrar.owner
    ((reply, .ok ()), session)
  | .loadOrder marker =>
    (settle (fun _ : Unit => .nothing) (.error (.loadOrder registrar.owner marker)), session)

end Interposition
