import Interposition.Toml.Table
/-!
Reading TOML documents.

Values may be nested only so deep; `maxDepth` bounds the nesting of arrays and
of tables in braces, and the number of parts of a key.
-/

namespace Interposition.Toml

/-- The bound on nesting. -/
def maxDepth : Nat := 80

/-- Read one part of a key. -/
def keyPart? : Reader KeyPart := fun text =>
  let bare := text.takeWhile isBareKey
  if bare.isEmpty then
    (lineString? text).map fun (content, rest) => (⟨content, text⟩, rest)
  else some (⟨bare, text⟩, text.dropWhile isBareKey)

/-- Read the parts of a key between dots, with blanks around them. -/
def key? : Nat → Reader (List KeyPart × KeyPart)
  | 0, _ => none
  | fuel + 1, text => do
    let (part, rest) ← keyPart? (skipBlanks text)
    match skipBlanks rest with
    | '.' :: rest => do
      let ((path, last), rest) ← key? fuel rest
      some ((part :: path, last), rest)
    | rest => some (([], part), rest)

/-- Read the items of an array up to its closing bracket.  A comma may stand
after the last one. -/
def items? (item : Reader Item) : List Char → Reader (List Item)
  | [], _ => none
  | _ :: bound, text =>
    match skipLines text with
    | ']' :: rest => some ([], rest)
    | text => do
      let (first, rest) ← item text
      match skipLines rest with
      | ']' :: rest => some ([first], rest)
      | ',' :: rest => do
        let (others, rest) ← items? item bound rest
        some (first :: others, rest)
      | _ => none

/-- Read a key, an equals sign and a value, with what the given function skips
around the equals sign.  The parts of the key stand on one line. -/
def assignment? (skip : List Char → List Char) (item : Reader Item) :
    Reader (List KeyPart × KeyPart × Mark × Item) :=
  fun text => do
    let ((path, part), rest) ← key? maxDepth text
    match skip rest with
    | '=' :: rest => do
      let start := skip rest
      let (value, rest) ← item start
      some ((path, part, start, value), rest)
    | _ => none

/-- Read the entries of a table in braces onto the given ones, up to its
closing brace.  Line ends and comments may stand between all signs, and a comma
after the last entry. -/
def braced? (item : Reader Item) : List Char → Entries → Reader Entries
  | [], _, _ => none
  | _ :: bound, entries, text =>
    match skipLines text with
    | '\x7d' :: rest => some (entries, rest)
    | text => do
      let ((path, part, mark, value), rest) ← assignment? skipLines item text
      let entries ← assign? path part mark value entries
      match skipLines rest with
      | '\x7d' :: rest => some (entries, rest)
      | ',' :: rest => braced? item bound entries rest
      | _ => none

/-- Read a text, or a scalar without quotes. -/
def plain? (text : List Char) : Option (Item × List Char) :=
  if opensWith doubleQuote 1 text || opensWith singleQuote 1 text then
    (string? text).map fun (content, rest) => (.text content, rest)
  else
    let (written, rest) := splitScalar text
    (scalar? written).map fun value => (.scalar value, rest)

/-- Read a value that starts right here, with at most the given number of arrays
and tables in braces inside each other. -/
def value? : Nat → Reader Item
  | 0, text => plain? text
  | depth + 1, text =>
    match text with
    | '[' :: rest =>
      (items? (value? depth) rest rest).map fun (items, rest) =>
        (.array items, rest)
    | '\x7b' :: rest =>
      (braced? (value? depth) rest [] rest).map fun (entries, rest) =>
        (.table .closed entries, rest)
    | _ => plain? text

/-- Read a statement without the end of its line.  An assignment stands on one
line up to the start of its value. -/
def statement? : Reader Statement := fun text =>
  match text with
  | '[' :: '[' :: rest => do
    let ((path, part), rest) ← key? maxDepth rest
    match rest with
    | ']' :: ']' :: rest => some (.element path part text, rest)
    | _ => none
  | '[' :: rest => do
    let ((path, part), rest) ← key? maxDepth rest
    match rest with
    | ']' :: rest => some (.header path part text, rest)
    | _ => none
  | _ => do
    let ((path, part, mark, value), rest) ← assignment? skipBlanks (value? maxDepth) text
    some (.assignment path part mark value, rest)

/-- Read statements line by line onto a draft. -/
def statements? : Nat → Draft → List Char → Option Draft
  | 0, draft, _ => some draft
  | fuel + 1, draft, text =>
    match skipLines text with
    | [] => some draft
    | text => do
      let (statement, rest) ← statement? text
      let rest ← statementEnd? rest
      let draft ← draft.add? statement
      statements? fuel draft rest

/-- The byte order mark, which may stand in front of a document. -/
def byteOrderMark : Char := Char.ofNat 0xFEFF

/-- Read a document, or refuse it. -/
def document? (text : List Char) : Option Entries :=
  let content := if text.head? = some byteOrderMark then text.drop 1 else text
  (statements? (text.length + 1) ⟨[], []⟩ content).map (·.entries)

/-- Line and column, counted from one, of a place in a document. -/
def position (text : List Char) (mark : Mark) : Nat × Nat :=
  let before := text.take (text.length - mark.length)
  let lastLine := before.reverse.takeWhile (· != lineFeed)
  (before.count lineFeed + 1, lastLine.length + 1)

end Interposition.Toml
