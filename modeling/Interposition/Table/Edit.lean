import Interposition.Entry
import Interposition.OrderedMap
/-!
Edits of a table.

An edit looks at the entries of a table and either keeps them or proposes new
ones, and it gives an answer in both cases.  The four edits below are the ways
to write to a table.  What is done with a proposal, and how often an edit is
tried, is decided elsewhere.
-/

namespace Interposition

/-- The entries of a table by name. -/
abbrev EntryMap (kind : Kind) := OrderedMap Name (Entry kind)

/-- A refusal of the registry. -/
inductive RegistryError where
  /-- The name is already registered in the table. -/
  | duplicate (table : Kind) (name : Name)
deriving DecidableEq, Repr

/-- The outcome of one attempt to edit a table. -/
inductive Edit (kind : Kind) (α : Type) where
  /-- Leave the table as it is. -/
  | keep (answer : α)
  /-- Put the given entries in the place of those that were looked at. -/
  | publish (next : EntryMap kind) (answer : α)

namespace Edit

variable {kind : Kind}

/-- The answer of an edit, whichever way it went. -/
def answer {α : Type} : Edit kind α → α
  | .keep answer => answer
  | .publish _ answer => answer

/-- The same edit with another answer. -/
def map {α β : Type} (f : α → β) : Edit kind α → Edit kind β
  | .keep answer => .keep (f answer)
  | .publish next answer => .publish next (f answer)

/-- Add an entry under a free name. -/
def insert (entry : Entry kind) (entries : EntryMap kind) :
    Edit kind (Except RegistryError (Entry kind)) :=
  if entries.contains entry.name then
    .keep (.error (.duplicate kind entry.name))
  else
    .publish (entries.append entry.name entry) (.ok entry)

/-- Bind the name of an entry to it, whatever the name was bound to.  The
answer is the entry that was displaced. -/
def replace (entry : Entry kind) (entries : EntryMap kind) :
    Edit kind (Option (Entry kind)) :=
  .publish (entries.append entry.name entry) (entries.get? entry.name)

/-- Remove the entry with a name. -/
def remove (name : Name) (entries : EntryMap kind) : Edit kind (Option (Entry kind)) :=
  match entries.get? name with
  | none => .keep none
  | some entry => .publish (entries.erase name) (some entry)

/-- Remove every entry that a predicate turns down.  The predicate may remember
the entries it was asked about before, `seen` among them.  The answer holds the
removed entries in order and all entries the predicate has been asked about. -/
def retain (predicate : List (Entry kind) → Entry kind → Bool) (seen : List (Entry kind))
    (entries : EntryMap kind) : Edit kind (List (Entry kind) × List (Entry kind)) :=
  let sweep := entries.sweep predicate seen
  if sweep.removed.isEmpty then .keep ([], sweep.seen)
  else .publish sweep.kept (sweep.removed, sweep.seen)

/-- An edit that keeps the table as it is removes nothing. -/
theorem removed_eq_nil_of_retain_eq_keep
    {predicate : List (Entry kind) → Entry kind → Bool} {seen : List (Entry kind)}
    {entries : EntryMap kind} {answer : List (Entry kind) × List (Entry kind)}
    (kept : retain predicate seen entries = .keep answer) : answer.1 = [] := by
  unfold retain at kept
  dsimp only at kept
  split at kept
  · cases kept
    rfl
  · cases kept

end Edit
end Interposition
