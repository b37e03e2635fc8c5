import Interposition.Toml.Scalar
/-!
Values of TOML, and the rules by which tables are put together.

A table can come about in four ways, which decide whether it can be extended
later.  A header makes an explicit table, and the tables on the way to it are
implicit.  A dotted key makes dotted tables on the way to its value, also out of
implicit ones.  A table in braces is closed from the start.
-/

namespace Interposition.Toml

/-- How a table came about. -/
inductive Form where
  | explicit
  | implicit
  | dotted
  | closed
deriving DecidableEq, Repr

/-- A value. -/
inductive Item where
  | text (content : List Char)
  | scalar (value : Scalar)
  | array (items : List Item)
  | table (form : Form) (entries : List (List Char × Mark × Item))
  /-- The tables made by double-bracket headers of one name. -/
  | tables (elements : List (List (List Char × Mark × Item)))

/-- The entries of a table: keys with the places and the values that belong to
them. -/
abbrev Entries := List (List Char × Mark × Item)

/-- One part of a key. -/
structure KeyPart where
  text : List Char
  mark : Mark
deriving Repr

namespace Entries

/-- Look up a key. -/
def find? (entries : Entries) (key : List Char) : Option (Mark × Item) :=
  entries.lookup key

/-- Bind a key again where it stands, or at the end. -/
def set (entries : Entries) (key : List Char) (mark : Mark) (item : Item) : Entries :=
  if (entries.find? key).isSome then
    entries.map fun entry => if entry.1 == key then (key, mark, item) else entry
  else entries ++ [(key, mark, item)]

/-- Bind a key that is not bound yet. -/
def add? (entries : Entries) (key : List Char) (mark : Mark) (item : Item) :
    Option Entries :=
  if (entries.find? key).isSome then none else some (entries ++ [(key, mark, item)])

end Entries

/-- Whether the path to a value is written in a header or in a dotted key. -/
inductive PathKind where
  | header
  | key
deriving DecidableEq, Repr

/-- Whether a path may go through a table.  Nothing goes into a closed table.
A dotted key does not reach into a table that has a header of its own. -/
def PathKind.mayEnter (path : PathKind) : Form → Bool
  | .closed => false
  | .explicit => path == .header
  | .implicit | .dotted => true

/-- The form of the tables that a path makes on its way. -/
def PathKind.form : PathKind → Form
  | .header => .implicit
  | .key => .dotted

/-- The form of a table after a path went through it.  A dotted key defines each
table on its way, so that no header of its own can follow. -/
def PathKind.passed (path : PathKind) (form : Form) : Form :=
  match path, form with
  | .key, .implicit => .dotted
  | _, form => form

/-- Change the table at the end of a path.  Tables that are missing on the way
are made; of tables with double-bracket headers the last one is meant. -/
def changeAt (kind : PathKind) (change : Form → Entries → Option Entries) :
    List KeyPart → Form → Entries → Option Entries
  | [], form, entries => change form entries
  | part :: path, _, entries =>
    match entries.find? part.text with
    | none => do
      let inner ← changeAt kind change path kind.form []
      some (entries.set part.text part.mark (.table kind.form inner))
    | some (mark, .table form inner) =>
      if kind.mayEnter form then do
        let form := kind.passed form
        let changed ← changeAt kind change path form inner
        some (entries.set part.text mark (.table form changed))
      else none
    | some (mark, .tables elements) =>
      match elements.getLast? with
      | none => none
      | some last => do
        let changed ← changeAt kind change path .explicit last
        some (entries.set part.text mark (.tables (elements.dropLast ++ [changed])))
    | some _ => none

/-- Bind the last part of a key in the table that its other parts lead to.  A
dotted key can only add to tables that dotted keys define. -/
def assign? (path : List KeyPart) (part : KeyPart) (mark : Mark) (item : Item)
    (entries : Entries) : Option Entries :=
  changeAt .key
    (fun form inner =>
      if !path.isEmpty && form != .dotted then none else inner.add? part.text mark item)
    path .explicit entries

/-- Open the table of a header.  The table may be there already if only headers
of its subtables made it. -/
def openTable? (path : List KeyPart) (part : KeyPart) (mark : Mark) (entries : Entries) :
    Option Entries :=
  changeAt .header
    (fun _ inner =>
      match inner.find? part.text with
      | none => some (inner.set part.text mark (.table .explicit []))
      | some (_, .table .implicit content) =>
        some (inner.set part.text mark (.table .explicit content))
      | some _ => none)
    path .explicit entries

/-- Open one more table of a double-bracket header. -/
def openElement? (path : List KeyPart) (part : KeyPart) (mark : Mark) (entries : Entries) :
    Option Entries :=
  changeAt .header
    (fun _ inner =>
      match inner.find? part.text with
      | none => some (inner.set part.text mark (.tables [[]]))
      | some (first, .tables elements) =>
        some (inner.set part.text first (.tables (elements ++ [[]])))
      | some _ => none)
    path .explicit entries

/-- A statement of a document. -/
inductive Statement where
  | assignment (path : List KeyPart) (part : KeyPart) (mark : Mark) (item : Item)
  | header (path : List KeyPart) (part : KeyPart) (mark : Mark)
  | element (path : List KeyPart) (part : KeyPart) (mark : Mark)

/-- A document while it is read: its entries, and the path of the header that
was read last. -/
structure Draft where
  entries : Entries
  current : List KeyPart

/-- Carry out a statement. -/
def Draft.add? (draft : Draft) : Statement → Option Draft
  | .assignment path part mark item => do
    let entries ←
      changeAt .header (fun _ inner => assign? path part mark item inner) draft.current
        .explicit draft.entries
    some { draft with entries := entries }
  | .header path part mark => do
    let entries ← openTable? path part mark draft.entries
    some ⟨entries, path ++ [part]⟩
  | .element path part mark => do
    let entries ← openElement? path part mark draft.entries
    some ⟨entries, path ++ [part]⟩

end Interposition.Toml
