import Interposition.DenyList
import Interposition.Toml.Document
/-!
The settings of the interceptor.

Settings are a TOML document with one key, `disable_functions`, which holds the
deny list: a text with names between commas, or an array of names.  Other keys
are ignored, but every number in them has to be readable.
-/

namespace Interposition

/-- What an operator can set. -/
structure Settings where
  /-- Names that are never installed when they are absent. -/
  disableFunctions : DenyList

/-- Why settings are refused. -/
inductive SettingsError where
  /-- The document cannot be read. -/
  | unreadable
  /-- The list of names is neither a text nor an array of texts.  Its value
  starts at the given line and column. -/
  | notAList (line column : Nat)
deriving DecidableEq, Repr

namespace SettingsError

/-- What is wrong with the value, where the document itself is good. -/
def message? : SettingsError → Option String
  | .unreadable => none
  | .notAList .. => some "data did not match any variant of untagged enum Raw"

/-- Where the value that is wrong starts. -/
def place? : SettingsError → Option String
  | .unreadable => none
  | .notAList line column =>
    some ("invalid hook config: TOML parse error at line " ++ toString line ++
      ", column " ++ toString column)

end SettingsError

namespace Settings

/-- The settings that deny nothing. -/
def default : Settings := ⟨.empty⟩

instance : BEq Settings where
  beq first second := first.disableFunctions == second.disableFunctions

/-- The key of the deny list. -/
def denyKey : List Char :=
  "disable_functions".toList

/-- Whether a scalar can be read with the given number of bits.  An integer has
to fit, with a sign or without one; a floating-point number must not be too
large; and a number needs a value. -/
def isReadableScalar (bits : Nat) : Toml.Scalar → Bool
  | .integer value =>
    -Int.ofNat (Nat.pow 2 (bits - 1)) ≤ value && value < Int.ofNat (Nat.pow 2 bits)
  | .float huge => !huge
  | .garbled => false
  | .boolean _ | .dateTime => true

mutual

/-- Whether every number in a value can be read. -/
def isReadable (bits : Nat) : Toml.Item → Bool
  | .text _ => true
  | .scalar value => isReadableScalar bits value
  | .array items => areReadable bits items
  | .table _ entries => areReadableEntries bits entries
  | .tables elements => areReadableTables bits elements

/-- Whether every number in a list of values can be read. -/
def areReadable (bits : Nat) : List Toml.Item → Bool
  | [] => true
  | item :: items => isReadable bits item && areReadable bits items

/-- Whether every number in the entries of a table can be read. -/
def areReadableEntries (bits : Nat) : List (List Char × Toml.Mark × Toml.Item) → Bool
  | [] => true
  | (_, _, item) :: entries => isReadable bits item && areReadableEntries bits entries

/-- Whether every number in a list of tables can be read. -/
def areReadableTables (bits : Nat) :
    List (List (List Char × Toml.Mark × Toml.Item)) → Bool
  | [] => true
  | entries :: others => areReadableEntries bits entries && areReadableTables bits others

end

/-- The width of numbers that are ignored. -/
def ignoredBits : Nat := 128

/-- The width of numbers that are looked at. -/
def inspectedBits : Nat := 64

/-- The texts of an array that holds nothing else. -/
def texts? (items : List Toml.Item) : Option (List (List Char)) :=
  items.mapM fun item =>
    match item with
    | .text content => some content
    | _ => none

/-- The deny list that a value holds. -/
def denyList? : Toml.Item → Option DenyList
  | .text content => some (DenyList.parse content)
  | .array items => (texts? items).map DenyList.ofItems
  | _ => none

/-- Read the value of one key. -/
def readEntry (text : List Char) (settings : Settings) :
    List Char × Toml.Mark × Toml.Item → Except SettingsError Settings
  | (key, mark, item) =>
    if key = denyKey then
      if isReadable inspectedBits item then
        match denyList? item with
        | some list => .ok { settings with disableFunctions := list }
        | none =>
          let (line, column) := Toml.position text mark
          .error (.notAList line column)
      else .error .unreadable
    else if isReadable ignoredBits item then .ok settings
    else .error .unreadable

/-- Take settings from the entries that a reader finds in a document.  Their
keys are looked at in byte order, and the first one that is wrong decides about
the error. -/
def ofDocument (read? : List Char → Option Toml.Entries) (text : List Char) :
    Except SettingsError Settings :=
  match read? text with
  | none => .error .unreadable
  | some entries =>
    let sorted := entries.mergeSort fun first second =>
      (Name.compareBytes (Text.Utf8.encode first.1) (Text.Utf8.encode second.1)).isLE
    sorted.foldlM (readEntry text) default

/-- Read settings from a TOML document. -/
def ofToml (text : List Char) : Except SettingsError Settings :=
  ofDocument Toml.document? text

end Settings
end Interposition
