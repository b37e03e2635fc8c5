import Interposition.Settings
import Interposition.Takeover
/-!
The commands of a session.

A session is played command by command.  Handlers, entries and snapshots that a
command refers to are known by labels that earlier commands gave them.  Some
commands carry further commands: those that run while an edit of a table is
under way, and those that register the replacements of a takeover.
-/

namespace Interposition

/-- A label of a session. -/
abbrev Label := String

/-- Where a deny list comes from. -/
inductive DenySource where
  /-- Nothing is denied. -/
  | nothing
  /-- A text with names between commas. -/
  | text (text : List Char)
  /-- Names as they are. -/
  | names (names : List Name)
  /-- The settings in a document. -/
  | settings (document : List Char)

/-- The deny list from a source. -/
def DenySource.read : DenySource → Except SettingsError DenyList
  | .nothing => .ok .empty
  | .text content => .ok (DenyList.parse content)
  | .names listed => .ok (DenyList.ofNames listed)
  | .settings document => (Settings.ofToml document).map (·.disableFunctions)

/-- What a handler of a session does. -/
inductive HandlerSpec where
  /-- Return a value. -/
  | value (value : Value)
  /-- Return the number of arguments. -/
  | argumentCount
  /-- Return an argument, or null. -/
  | argument (index : Nat)
  /-- The handler of another label. -/
  | same (label : Label)
  /-- Call the handler in a slot, and multiply an integer result by ten. -/
  | chain (slot : Label)
  /-- Call a callable by name. -/
  | forward (name : Name)
  /-- Patch a callable, and return a value. -/
  | patch (name : Name) (handler : Label) (result : Value)

/-- The description of an entry. -/
inductive EntrySpec where
  | callable (name : Name) (owner : Owner) (origin : Origin) (handler : Label)
  | constant (name : Name) (value : Value) (flags : ConstFlags) (owner : Owner)
  | type (name : Name) (owner : Owner) (origin : Origin)

/-- Which entries stay in a table. -/
inductive Filter where
  | all
  /-- The entries of an owner. -/
  | owner (owner : Owner)
  /-- The entries whose name starts with the given bytes. -/
  | start (bytes : List UInt8)
  /-- Every entry but each `period`-th that is looked at. -/
  | every (period : Nat)

/-- What an edit proposes. -/
inductive EditSpec where
  /-- Nothing. -/
  | keep
  /-- The entries as they are. -/
  | copy
  /-- No entries. -/
  | clear
  /-- The entries of a snapshot that was kept under a label. -/
  | restore (label : Label)

/-- A command that carries no other commands. -/
inductive Action where
  | makeHandler (label : Label) (spec : HandlerSpec)
  | callHandler (label : Label) (arguments : List Value)
  | define (spec : EntrySpec)
  | replace (spec : EntrySpec)
  | force (name : Name) (value : Value) (flags : ConstFlags) (owner : Owner) (typed : Bool)
  | call (name : Name) (arguments : List Value)
  | read (name : Name)
  | patch (name : Name) (handler : Label) (slot? : Option Label)
  | hook (name : Name) (handler : Label) (owner : Owner)
  | hookSaving (name : Name) (handler : Label) (owner : Owner) (slot? : Option Label)
  | hookBatch (hooks : List (Name × Label)) (owner : Owner)
  | evict (kind : Kind) (owner : Owner)
  | evictAll (owner : Owner)
  | setDeny (source : DenySource)
  | showEntry (label : Label)
  | callEntry (label : Label) (arguments : List Value)
  | swapEntry (label : Label) (handler : Label)
  | compareEntries (first second : Label)
  | inspectRegistry
  | remove (kind : Kind) (name : Name)
  | get (kind : Kind) (name : Name)
  | contains (kind : Kind) (name : Name)
  | names (kind : Kind)
  | entries (kind : Kind)
  | size (kind : Kind)
  | inspectTable (kind : Kind)
  | keepEntry (kind : Kind) (name : Name) (label : Label)
  | isKeptEntry (kind : Kind) (name : Name) (label : Label)
  | keepSnapshot (kind : Kind) (label : Label)
  | isKeptSnapshot (kind : Kind) (label : Label)
  | readSnapshot (kind : Kind) (label : Label) (name? : Option Name)

/-- A command to the registrar of a takeover. -/
inductive RegistrarAction where
  | function (name : Name) (handler : Label)
  | hook (name : Name) (handler : Label) (slot? : Option Label)
  | constant (name : Name) (value : Value) (flags : ConstFlags)
  | type (name : Name)
  | owner
  /-- A batch of hooks under the current deny list. -/
  | hookBatch (hooks : List (Name × Label))
  /-- Report that the registrar's owner lacks a type. -/
  | loadOrder (marker : Name)

mutual

/-- A command of a session. -/
inductive Command where
  | act (action : Action)
  /-- Remove the entries that a filter turns down, while other commands run. -/
  | retain (kind : Kind) (filter : Filter) (negated : Bool) (during : List Command)
  /-- Edit a table, while other commands run. -/
  | update (kind : Kind) (edit : EditSpec) (during : List Command)
  /-- Take over the surface of a target. -/
  | supersede (target? : Option Owner) (successor : Owner) (marker : Name)
      (register : List RegisterStep)

/-- A step of the registration of replacements. -/
inductive RegisterStep where
  /-- A command to the registrar.  An error ends the registration, unless the
  command is lenient. -/
  | registrar (action : RegistrarAction) (lenient : Bool)
  /-- A command of the session. -/
  | command (command : Command)

end

end Interposition
