import Interposition.Session.Command
/-!
The replies of a session.

A reply shows entries as they were when the command was carried out: with the
labels that stood for their handlers at that moment.
-/

namespace Interposition

/-- An entry as a reply shows it. -/
inductive EntryView where
  | callable (name : Name) (owner : Owner) (origin : Origin) (handlers : List Label)
  | constant (name : Name) (owner : Owner) (value : Value) (flags : ConstFlags)
  | type (name : Name) (owner : Owner) (origin : Origin)

/-- The outcome of a hook as a reply shows it. -/
structure OutcomeView where
  installed : Bool
  inspected : String
  previous? : Option (List Label)

/-- The report of a batch as a reply shows it. -/
structure BatchView where
  success : Bool
  installed : Nat
  patched : Nat
  failures : List Name
  inspected : String
  outcomes : List (Name × Except HookError OutcomeView)

/-- A snapshot as a reply shows it, with the answers to a question about one
name. -/
structure SnapshotView where
  names : List Name
  entries : List EntryView
  found? : Option (Option EntryView × Bool)

/-- The reply to a command. -/
inductive Reply where
  /-- The command cannot be carried out as it is written. -/
  | malformed
  /-- A call went deeper than there are handlers, so that it never ends. -/
  | endless
  /-- What the command asks for is not there. -/
  | nothing
  | missing
  | truth (value : Bool)
  | count (value : Nat)
  | text (text : String)
  | names (names : List Name)
  | value (value : Value)
  | handlers (labels : List Label)
  | entry (entry : EntryView)
  | entries (entries : List EntryView)
  | defined (entry : EntryView)
  | refused (error : RegistryError)
  | unhookable (error : HookError)
  | outcome (outcome : OutcomeView)
  | batch (report : BatchView)
  | evicted (report : EvictionReport)
  | settingsError (error : SettingsError)
  | inspectedEntry (entry : EntryView) (inspected : String)
  | compared (equal identical : Bool)
  | tableSize (kind : Kind) (size : Nat)
  | snapshot (view : SnapshotView)
  | retained (removed : List EntryView) (calls : Nat) (during : List Reply)
  | updated (published : Bool) (seen : List Nat) (during : List Reply)
  | ownership (owner : Owner) (types : Nat)
  | takeoverError (error : TakeoverError)
  | takeover (register : List Reply) (result : Except TakeoverError TakeoverReport)

end Interposition
