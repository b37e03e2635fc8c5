/-!
The lexical ground of TOML: classes of characters, blanks, comments and line
ends.

A reader takes the characters of a document and gives what it read together
with the characters that remain, or nothing if the document is to be refused.
Where a reader takes two texts, the first one only bounds the number of its
steps: the text to be read is bound enough.
-/

namespace Interposition.Toml

/-- A function that reads something from the front of a text. -/
abbrev Reader (α : Type) := List Char → Option (α × List Char)

/-- A place in a document, given by the characters from there to the end. -/
abbrev Mark := List Char

/-- A line feed. -/
def lineFeed : Char := Char.ofNat 0x0A

/-- A carriage return. -/
def carriageReturn : Char := Char.ofNat 0x0D

/-- A space or a tab. -/
def isBlank (c : Char) : Bool :=
  c.toNat == 0x20 || c.toNat == 0x09

/-- Whether a character may stand in comments and in literal strings: no
control character but the tab. -/
def isVisible (c : Char) : Bool :=
  c.toNat == 0x09 || (0x20 ≤ c.toNat && c.toNat != 0x7F)

/-- Whether a character may stand in a key without quotes. -/
def isBareKey (c : Char) : Bool :=
  c.isAlphanum || c == '_' || c == '-'

/-- Whether a character goes on with a scalar that stands without quotes: any
but blanks, line ends and the signs that can follow a value or a key. -/
def isWord (c : Char) : Bool :=
  !(isBlank c || c == lineFeed || c == carriageReturn || c == '=' || c == ',' ||
    c == '[' || c == ']' || c == '\x7b' || c == '\x7d' || c == '#')

def skipBlanks (text : List Char) : List Char :=
  text.dropWhile isBlank

/-- Skip a comment, if there is one, up to the end of its line. -/
def skipComment : List Char → List Char
  | '#' :: rest => rest.dropWhile isVisible
  | text => text

/-- Read a line end: a line feed, with or without a carriage return before
it. -/
def lineEnd? : List Char → Option (List Char)
  | [] => none
  | c :: rest =>
    if c = lineFeed then some rest
    else if c = carriageReturn then
      match rest with
      | [] => none
      | d :: rest => if d = lineFeed then some rest else none
    else none

/-- Read the end of a statement: blanks, a comment, and a line end or the end
of the document. -/
def statementEnd? (text : List Char) : Option (List Char) :=
  match skipComment (skipBlanks text) with
  | [] => some []
  | rest => lineEnd? rest

/-- Skip what the given function skips within a line, over as many line ends as
come. -/
def skipAcross (skip : List Char → List Char) : List Char → List Char → List Char
  | [], text => text
  | _ :: bound, text =>
    let rest := skip text
    match lineEnd? rest with
    | none => rest
    | some following => skipAcross skip bound following

/-- Skip all blanks and line ends at the front. -/
def skipBlankLines (text : List Char) : List Char :=
  skipAcross skipBlanks text text

/-- Skip all blanks, comments and line ends at the front.  Nothing that is left
by a malformed comment or line end can start a value, a key or a separator. -/
def skipLines (text : List Char) : List Char :=
  skipAcross (fun line => skipComment (skipBlanks line)) text text

end Interposition.Toml
