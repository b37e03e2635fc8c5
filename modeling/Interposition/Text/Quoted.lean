import Interposition.Text.Unprintable
import Interposition.Text.GraphemeExtend
/-!
Text between double quotes.

`quote` writes a text so that it can be told apart from its surroundings: the
double quote and the backslash are escaped, the control characters with a short
name are written by that name, and every character that is not visible on its
own is written by its code point.
-/

namespace Interposition.Text

/-- The lowercase hexadecimal digits of a number. -/
def hexDigits (n : Nat) : List Char :=
  Nat.toDigits 16 n

/-- A double quote. -/
def doubleQuote : Char := Char.ofNat 0x22

/-- A backslash. -/
def backslash : Char := Char.ofNat 0x5C

/-- The letter after the backslash, for the characters that have a short
escape. -/
def shortEscape? (c : Char) : Option Char :=
  match c.toNat with
  | 0x00 => some '0'
  | 0x09 => some 't'
  | 0x0A => some 'n'
  | 0x0D => some 'r'
  | 0x22 => some doubleQuote
  | 0x5C => some backslash
  | _ => none

/-- Whether a character stands for itself between quotes. -/
def isPlain (c : Char) : Bool :=
  isPrintable c && !isAttached c

/-- One character between quotes. -/
def escape (c : Char) : List Char :=
  match shortEscape? c with
  | some letter => [backslash, letter]
  | none =>
    if isPlain c then [c]
    else backslash :: 'u' :: '\x7b' :: (hexDigits c.toNat ++ ['\x7d'])

/-- A text between double quotes. -/
def quote (text : List Char) : List Char :=
  doubleQuote :: (text.flatMap escape ++ [doubleQuote])

end Interposition.Text
