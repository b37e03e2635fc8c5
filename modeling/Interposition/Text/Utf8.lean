/-!
UTF-8 read one byte at a time.

A byte string need not be valid text.  `scan` cuts it into pieces: a piece is
either a character or a *broken* piece, which is a longest run of bytes that
begins an encoded character and cannot be continued by the byte after it.  The
two readings of a byte string are then one step away: `text?` accepts it only
when no piece is broken, and `lossy` puts the replacement character in the
place of every broken piece.
-/

namespace Interposition.Text.Utf8

/-- What a byte that starts a character leaves open: the bounds of the next
byte, the number of further bytes after that one, and the bits read so far. -/
structure Pending where
  low : UInt8
  high : UInt8
  further : Nat
  value : Nat
deriving DecidableEq, Repr

/-- How one byte continues a scan: the pieces it completes and what it leaves
open.  A broken piece is `none`. -/
abbrev Progress := List (Option Char) × Option Pending

/-- Read a byte where a character may start.  The bounds of the second byte
exclude overlong encodings, surrogates and values above the last code
point. -/
def start (byte : UInt8) : Progress :=
  if byte < 0x80 then ([some (Char.ofNat byte.toNat)], none)
  else if byte < 0xC2 then ([none], none)
  else if byte < 0xE0 then ([], some ⟨0x80, 0xBF, 0, byte.toNat - 0xC0⟩)
  else if byte = 0xE0 then ([], some ⟨0xA0, 0xBF, 1, 0⟩)
  else if byte = 0xED then ([], some ⟨0x80, 0x9F, 1, 0xD⟩)
  else if byte < 0xF0 then ([], some ⟨0x80, 0xBF, 1, byte.toNat - 0xE0⟩)
  else if byte = 0xF0 then ([], some ⟨0x90, 0xBF, 2, 0⟩)
  else if byte < 0xF4 then ([], some ⟨0x80, 0xBF, 2, byte.toNat - 0xF0⟩)
  else if byte = 0xF4 then ([], some ⟨0x80, 0x8F, 2, 4⟩)
  else ([none], none)

/-- Read one byte.  A byte outside the bounds breaks the open character and is
then read as a possible start of the next one. -/
def step (pending : Option Pending) (byte : UInt8) : Progress :=
  match pending with
  | none => start byte
  | some p =>
    if p.low ≤ byte ∧ byte ≤ p.high then
      let value := p.value * 64 + (byte.toNat - 0x80)
      match p.further with
      | 0 => ([some (Char.ofNat value)], none)
      | further + 1 => ([], some ⟨0x80, 0xBF, further, value⟩)
    else
      let (pieces, next) := start byte
      (none :: pieces, next)

/-- The pieces of a byte string after an open character.  A character that is
still open at the end is broken. -/
def scanFrom : Option Pending → List UInt8 → List (Option Char)
  | none, [] => []
  | some _, [] => [none]
  | pending, byte :: rest =>
    let (pieces, next) := step pending byte
    pieces ++ scanFrom next rest

/-- The pieces of a byte string, in order. -/
def scan (bytes : List UInt8) : List (Option Char) :=
  scanFrom none bytes

/-- The text that a byte string encodes, if it encodes one. -/
def text? (bytes : List UInt8) : Option (List Char) :=
  (scan bytes).mapM id

/-- The text of a byte string with U+FFFD in the place of each broken
piece. -/
def lossy (bytes : List UInt8) : List Char :=
  (scan bytes).map (·.getD '\uFFFD')

/-- The bytes of a text. -/
def encode (text : List Char) : List UInt8 :=
  text.flatMap String.utf8EncodeChar

end Interposition.Text.Utf8
