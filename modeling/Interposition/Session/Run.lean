import Interposition.Session.Action
/-!
Playing a session.

Editing a table while other commands run is the only place where a write can
be lost.  The other commands run during the first attempt; if they published
the same table, the attempt is lost and a second one, which nothing disturbs,
starts from the new snapshot.
-/

namespace Interposition

namespace Session

/-- One attempt of an edit against a snapshot that was loaded before other
commands ran: whether it stood, and the answer. -/
def attempt {kind : Kind} {α : Type} (loaded : Snapshot kind) (edit : Edit kind α)
    (session : Session) : Option (α × Session) :=
  match edit with
  | .keep answer => some (answer, session)
  | .publish next answer =>
    (session.registry.compareAndSwap loaded next).map fun registry =>
      (answer, session.setRegistry registry)

/-- Finish an edit that was first tried against a snapshot loaded before other
commands ran.  An attempt that is lost leaves its answer to the next one. -/
def contend {kind : Kind} {α : Type} (loaded : Snapshot kind)
    (edit : Option α → EntryMap kind → Edit kind α) (session : Session) : α × Session :=
  let first := edit none loaded.entries
  match session.attempt loaded first with
  | some finished => finished
  | none => session.onRegistry (Registry.update (edit (some first.answer)))

end Session

/-- Apply an edit to the entries of a table.  The snapshot to restore is the one
that the session keeps when the edit is asked for. -/
def EditSpec.edit {kind : Kind} (spec : EditSpec) (session : Session)
    (seen : List Nat) (entries : EntryMap kind) : Edit kind (Bool × List Nat) :=
  let seen := seen ++ [entries.size]
  match spec with
  | .keep => .keep (false, seen)
  | .copy => .publish entries (true, seen)
  | .clear => .publish .empty (true, seen)
  | .restore label =>
    match session.snapshotUnder? kind label with
    | none => .keep (false, seen)
    | some snapshot => .publish snapshot.entries (true, seen)

mutual

/-- Carry out a command. -/
def Command.run : Command → Session → Reply × Session
  | .act action, session => action.run session
  | .retain kind filter negated during, session =>
    let loaded := session.registry.current kind
    let (replies, session) :=
      if loaded.entries.isEmpty then ([], session) else Command.runAll during session
    let keeps := fun (seen : List (Entry kind)) entry =>
      filter.keeps seen.length entry != negated
    let ((removed, seen), session) :=
      session.contend loaded fun earlier =>
        Edit.retain keeps ((earlier.map (·.2)).getD [])
    (.retained (removed.map session.view) seen.length replies, session)
  | .update kind spec during, session =>
    let loaded := session.registry.current kind
    let edit := spec.edit session
    let (replies, session) := Command.runAll during session
    let ((published, seen), session) :=
      session.contend loaded fun earlier => edit ((earlier.map (·.2)).getD [])
    (.updated published seen replies, session)
  | .supersede target? successor marker register, session =>
    let takeover : Takeover := ⟨session.deny, successor, target?, marker⟩
    let (cleared, session) := session.onHost takeover.clear
    match cleared with
    | .error error => (.takeover [] (.error error), session)
    | .ok evicted =>
      let ((replies, verdict), session) :=
        RegisterStep.runAll takeover.registrar register session
      match verdict with
      | .error error => (.takeover replies (.error error), session)
      | .ok () =>
        let (report, session) := session.onHost (takeover.complete evicted)
        (.takeover replies (.ok report), session)

/-- Carry out commands one after the other. -/
def Command.runAll : List Command → Session → List Reply × Session
  | [], session => ([], session)
  | command :: rest, session =>
    let (reply, session) := Command.run command session
    let (replies, session) := Command.runAll rest session
    (reply :: replies, session)

/-- Carry out the steps of a registration, up to the first error that counts. -/
def RegisterStep.runAll (registrar : Registrar) :
    List RegisterStep → Session → (List Reply × Except TakeoverError Unit) × Session
  | [], session => (([], .ok ()), session)
  | .command command :: rest, session =>
    let (reply, session) := Command.run command session
    let ((replies, verdict), session) := RegisterStep.runAll registrar rest session
    ((reply :: replies, verdict), session)
  | .registrar action lenient :: rest, session =>
    let ((reply, outcome), session) := action.run registrar session
    match outcome, lenient with
    | .error error, false => (([reply], .error error), session)
    | _, _ =>
      let ((replies, verdict), session) := RegisterStep.runAll registrar rest session
      ((reply :: replies, verdict), session)

end

/-- What one command of a session led to. -/
structure Turn where
  reply : Reply
  events : List Event
  session : Session

namespace Session

/-- The session with an empty log. -/
def clearLog (session : Session) : Session :=
  session.setImage { session.image with host := { session.host with log := [] } }

/-- Play commands one after the other. -/
def play : List Command → Session → List Turn
  | [], _ => []
  | command :: rest, session =>
    let (reply, next) := command.run session.clearLog
    ⟨reply, next.host.log, next⟩ :: play rest next

end Session
end Interposition
