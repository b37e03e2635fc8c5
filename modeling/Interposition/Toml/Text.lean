import Interposition.Toml.Lexical
/-!
The strings of TOML.

Basic strings stand between double quotes and know escapes; literal strings
stand between single quotes and take every character as it is.  Three quotes
instead of one open a string that may run over several lines.
-/

namespace Interposition.Toml

def doubleQuote : Char := Char.ofNat 0x22

def singleQuote : Char := Char.ofNat 0x27

def backslash : Char := Char.ofNat 0x5C

/-- The value of a hexadecimal digit. -/
def hexValue? (c : Char) : Option Nat :=
  if c.isDigit then some (c.toNat - 0x30)
  else if 'a' ≤ c ∧ c ≤ 'f' then some (c.toNat - 0x57)
  else if 'A' ≤ c ∧ c ≤ 'F' then some (c.toNat - 0x37)
  else none

/-- Read a number of hexadecimal digits onto a value. -/
def hexDigits? : Nat → Nat → Reader Nat
  | 0, value, text => some (value, text)
  | _ + 1, _, [] => none
  | count + 1, value, c :: rest => do
    let digit ← hexValue? c
    hexDigits? count (value * 16 + digit) rest

/-- Read the code point of a character.  Surrogates are no characters. -/
def codePoint? (digits : Nat) : Reader Char := fun text => do
  let (value, rest) ← hexDigits? digits 0 text
  if value < 0xD800 ∨ (0xDFFF < value ∧ value < 0x110000) then
    some (Char.ofNat value, rest)
  else none

/-- Read what follows the backslash of an escape. -/
def escape? : Reader Char
  | [] => none
  | c :: rest =>
    if c = 'b' then some (Char.ofNat 0x08, rest)
    else if c = 't' then some (Char.ofNat 0x09, rest)
    else if c = 'n' then some (lineFeed, rest)
    else if c = 'f' then some (Char.ofNat 0x0C, rest)
    else if c = 'r' then some (carriageReturn, rest)
    else if c = 'e' then some (Char.ofNat 0x1B, rest)
    else if c = doubleQuote then some (doubleQuote, rest)
    else if c = backslash then some (backslash, rest)
    else if c = 'x' then codePoint? 2 rest
    else if c = 'u' then codePoint? 4 rest
    else if c = 'U' then codePoint? 8 rest
    else none

/-- Put a character in front of what a reader reads. -/
def consTo (c : Char) (read : Option (List Char × List Char)) :
    Option (List Char × List Char) :=
  read.map fun (content, rest) => (c :: content, rest)

/-- Read the rest of a one-line basic string. -/
def basicRest? : List Char → Reader (List Char)
  | [], _ => none
  | _ :: _, [] => none
  | _ :: bound, c :: rest =>
    if c = doubleQuote then some ([], rest)
    else if c = backslash then do
      let (escaped, rest) ← escape? rest
      consTo escaped (basicRest? bound rest)
    else if isVisible c then consTo c (basicRest? bound rest)
    else none

/-- Read the rest of a one-line literal string. -/
def literalRest? : Reader (List Char)
  | [] => none
  | c :: rest =>
    if c = singleQuote then some ([], rest)
    else if isVisible c then consTo c (literalRest? rest)
    else none

/-- The quotes at the end of a string over several lines: up to two of them
belong to the string, and three close it. -/
def closing? (quote : Char) (text : List Char) : Option (List Char × List Char) :=
  let quotes := (text.takeWhile (· == quote)).length
  if quotes < 3 then none
  else
    let own := min (quotes - 3) 2
    some (List.replicate own quote, text.drop (own + 3))

/-- Skip a line end and all blanks and line ends after it, if a backslash at
the end of a line asks for this. -/
def continuation? (text : List Char) : Option (List Char) :=
  (lineEnd? (skipBlanks text)).map skipBlankLines

/-- Read the rest of a basic string over several lines. -/
def basicLinesRest? : List Char → Reader (List Char)
  | [], _ => none
  | _ :: _, [] => none
  | _ :: bound, c :: rest =>
    if c = doubleQuote then
      match closing? doubleQuote (c :: rest) with
      | some ended => some ended
      | none => consTo c (basicLinesRest? bound rest)
    else if c = backslash then
      match continuation? rest with
      | some following => basicLinesRest? bound following
      | none => do
        let (escaped, rest) ← escape? rest
        consTo escaped (basicLinesRest? bound rest)
    else if isVisible c || c = lineFeed then consTo c (basicLinesRest? bound rest)
    else if (lineEnd? (c :: rest)).isSome then consTo c (basicLinesRest? bound rest)
    else none

/-- Read the rest of a literal string over several lines. -/
def literalLinesRest? : Reader (List Char)
  | [] => none
  | c :: rest =>
    if c = singleQuote then
      match closing? singleQuote (c :: rest) with
      | some ended => some ended
      | none => consTo c (literalLinesRest? rest)
    else if isVisible c || c = lineFeed then consTo c (literalLinesRest? rest)
    else if (lineEnd? (c :: rest)).isSome then consTo c (literalLinesRest? rest)
    else none

/-- Drop the line end right after the opening quotes. -/
def dropFirstLineEnd (text : List Char) : List Char :=
  (lineEnd? text).getD text

/-- Whether a text begins with the given number of quotes. -/
def opensWith (quote : Char) (count : Nat) (text : List Char) : Bool :=
  decide (count ≤ (text.takeWhile (· == quote)).length)

/-- Read a string that may stand in a key: on one line. -/
def lineString? (text : List Char) : Option (List Char × List Char) :=
  if opensWith doubleQuote 1 text then basicRest? text (text.drop 1)
  else if opensWith singleQuote 1 text then literalRest? (text.drop 1)
  else none

/-- Read a string. -/
def string? (text : List Char) : Option (List Char × List Char) :=
  if opensWith doubleQuote 3 text then
    basicLinesRest? text (dropFirstLineEnd (text.drop 3))
  else if opensWith singleQuote 3 text then
    literalLinesRest? (dropFirstLineEnd (text.drop 3))
  else lineString? text

end Interposition.Toml
