import Interposition.Image
import Interposition.Session.Reply
/-!
The state of a session, and how it shows what it holds.

A session holds an image, the deny list in force, and what its labels stand
for.  Views of entries and outcomes name handlers by the labels that stand for
them at the moment.
-/

namespace Interposition

/-- The state of a session. -/
structure Session where
  image : Image
  deny : DenyList
  handlers : OrderedMap Label Handler
  held : OrderedMap Label ((kind : Kind) × Entry kind)
  snapshots : OrderedMap Label ((kind : Kind) × Snapshot kind)

namespace Session

/-- A session with an empty image. -/
def start (deny : DenyList) : Session :=
  { image := .empty
    deny := deny
    handlers := .empty
    held := .empty
    snapshots := .empty }

instance : Inhabited Session := ⟨start .empty⟩

def host (session : Session) : Host :=
  session.image.host

def registry (session : Session) : Registry :=
  session.image.host.registry

def setImage (session : Session) (image : Image) : Session :=
  { session with image := image }

def setRegistry (session : Session) (registry : Registry) : Session :=
  session.setImage
    { session.image with host := { session.host with registry := registry } }

/-- Run an operation of the host. -/
def onHost {α : Type} (operation : Host → α × Host) (session : Session) : α × Session :=
  let (answer, image) := session.image.onHost operation
  (answer, session.setImage image)

/-- Run an operation of the registry. -/
def onRegistry {α : Type} (operation : Registry → α × Registry) (session : Session) :
    α × Session :=
  session.onHost (Host.onRegistry operation)

/-- Save a handler in a slot. -/
def save (slot? : Option Label) (handler? : Option Handler) (session : Session) : Session :=
  match slot?, handler? with
  | some slot, some handler => session.setImage (session.image.save slot handler)
  | _, _ => session

/-- The labels that stand for a handler, sorted. -/
def labelsOf (session : Session) (handler : Handler) : List Label :=
  let labels := session.handlers.pairs.filterMap fun (label, other) =>
    if other = handler then some label else none
  labels.mergeSort fun first second => decide (first ≤ second)

/-- An entry as it looks now. -/
def view (session : Session) : {kind : Kind} → Entry kind → EntryView
  | .callable, entry =>
    .callable entry.name entry.owner entry.content
      (session.labelsOf (session.registry.target entry))
  | .constant, entry =>
    .constant entry.name entry.owner entry.content.value entry.content.flags
  | .type, entry => .type entry.name entry.owner entry.content

/-- An outcome as it looks now. -/
def viewOutcome (session : Session) (outcome : HookOutcome) : OutcomeView :=
  { installed := outcome.isInstalled
    inspected := outcome.inspect
    previous? := outcome.previous?.map session.labelsOf }

/-- The report of a batch as it looks now. -/
def viewBatch (session : Session) (report : BatchReport) : BatchView :=
  { success := report.isSuccess
    installed := report.installed
    patched := report.patched
    failures := report.failures
    inspected := report.inspect
    outcomes := report.outcomes.map fun (name, outcome) =>
      (name, outcome.map session.viewOutcome) }

/-- Reply with an entry that may be missing. -/
def replyEntry {kind : Kind} (session : Session) : Option (Entry kind) → Reply
  | none => .nothing
  | some entry => .entry (session.view entry)

/-- Reply to a definition. -/
def replyDefined {kind : Kind} (session : Session) :
    Except RegistryError (Entry kind) → Reply
  | .ok entry => .defined (session.view entry)
  | .error error => .refused error

/-- Reply with the labels of a handler that may be missing. -/
def replyHandler (session : Session) : Option Handler → Reply
  | none => .nothing
  | some handler => .handlers (session.labelsOf handler)

/-- The entries of a table as they look now. -/
def views (session : Session) (kind : Kind) : List EntryView :=
  (session.registry.current kind).toList.map session.view

/-- The bound on the depth of calls.  The handlers of a session pass control on
without changing what the next one will do, so that a call which goes deeper
than there are handlers comes back to one of them and never ends. -/
def depth (session : Session) : Nat :=
  session.image.made + 1

end Session

end Interposition
