import Interposition.Text.Fields
import Interposition.Toml.Text
/-!
The scalars of TOML that stand without quotes: truth values, numbers, and
dates and times.

A scalar is recognised as a whole.  Of a floating-point number only its size is
of interest here: whether it can be represented at all.  A document may hold
numbers that have no value; whoever looks at them finds that out.
-/

namespace Interposition.Toml

/-- A scalar without quotes. -/
inductive Scalar where
  | boolean (value : Bool)
  | integer (value : Int)
  /-- A floating-point number; `huge` if it is too large to be represented. -/
  | float (huge : Bool)
  | dateTime
  /-- What has the outline of an integer, but no value. -/
  | garbled
deriving DecidableEq, Repr

/-- The value of a digit in a base. -/
def digitIn? (base : Nat) (c : Char) : Option Nat :=
  (hexValue? c).bind fun value => if value < base then some value else none

/-- Read the digits that follow a digit, up to the end of a number.  An
underscore may stand between two digits. -/
def moreDigits? (base : Nat) : List Char → Option (List Nat)
  | [] => some []
  | '_' :: c :: rest => do
    let digit ← digitIn? base c
    return digit :: (← moreDigits? base rest)
  | c :: rest => do
    let digit ← digitIn? base c
    return digit :: (← moreDigits? base rest)

/-- Read the digits of a number, at least one. -/
def digits? (base : Nat) : List Char → Option (List Nat)
  | [] => none
  | c :: rest => do
    let digit ← digitIn? base c
    return digit :: (← moreDigits? base rest)

/-- The number with the given digits. -/
def ofDigits (base : Nat) (digits : List Nat) : Nat :=
  digits.foldl (fun value digit => value * base + digit) 0

/-- Read a number that consists of digits. -/
def number? (base : Nat) (text : List Char) : Option Nat :=
  (digits? base text).map (ofDigits base)

/-- Split off a sign; the truth value is whether it is a minus. -/
def splitSign : List Char → Bool × List Char
  | '-' :: rest => (true, rest)
  | '+' :: rest => (false, rest)
  | text => (false, text)

/-- Read the digits of a decimal number that does not start with a needless
zero. -/
def whole? (text : List Char) : Option (List Nat) :=
  match text with
  | '0' :: _ :: _ => none
  | _ => digits? 10 text

/-- Read an integer. -/
def integer? (text : List Char) : Option Int :=
  match text with
  | '0' :: 'x' :: rest => (number? 16 rest).map Int.ofNat
  | '0' :: 'o' :: rest => (number? 8 rest).map Int.ofNat
  | '0' :: 'b' :: rest => (number? 2 rest).map Int.ofNat
  | _ =>
    let (negative, magnitude) := splitSign text
    (whole? magnitude).map fun digits =>
      let value : Int := ofDigits 10 digits
      if negative then -value else value

/-- The least number that is rounded to infinity. -/
def floatBound : Nat := Nat.pow 2 1024 - Nat.pow 2 970

/-- Whether a number with the given digits, the last of them at the given power
of ten, is too large to be represented.  The bound is a whole number, so the
digits before the point decide. -/
def isHuge (digits : List Nat) (exponent : Int) : Bool :=
  let significant := digits.dropWhile (· == 0)
  let places : Int := significant.length + exponent
  if significant.isEmpty then false
  else if 320 < places then true
  else
    floatBound ≤
      ofDigits 10 ((significant ++ List.replicate places.toNat 0).take places.toNat)

/-- Read an exponent to the end of a number. -/
def exponent? (text : List Char) : Option Int :=
  let (negative, magnitude) := splitSign text
  (number? 10 magnitude).map fun value => if negative then -(value : Int) else value

/-- Read a floating-point number. -/
def float? (text : List Char) : Option Bool := do
  let (_, magnitude) := splitSign text
  if magnitude = ['i', 'n', 'f'] ∨ magnitude = ['n', 'a', 'n'] then some false
  else
    let isMark := fun c => c == 'e' || c == 'E'
    let number := magnitude.takeWhile (!isMark ·)
    let afterMark := magnitude.dropWhile (!isMark ·)
    let wholePart := number.takeWhile (· != '.')
    let afterPoint := number.dropWhile (· != '.')
    let before ← whole? wholePart
    let exponent ← if afterMark.isEmpty then some 0 else exponent? (afterMark.drop 1)
    if afterPoint.isEmpty then
      if afterMark.isEmpty then none else some (isHuge before exponent)
    else
      let after ← digits? 10 (afterPoint.drop 1)
      some (isHuge (before ++ after) (exponent - after.length))

/-- Read a fixed number of decimal digits. -/
def fixed? : Nat → Nat → Reader Nat
  | 0, value, text => some (value, text)
  | _ + 1, _, [] => none
  | count + 1, value, c :: rest => do
    let digit ← digitIn? 10 c
    fixed? count (value * 10 + digit) rest

/-- Read a given character. -/
def char? (expected : Char) : List Char → Option (List Char)
  | [] => none
  | c :: rest => if c = expected then some rest else none

/-- The number of days of a month. -/
def daysIn (year month : Nat) : Nat :=
  if month = 2 then
    if year % 4 = 0 ∧ (year % 100 ≠ 0 ∨ year % 400 = 0) then 29 else 28
  else if month = 4 ∨ month = 6 ∨ month = 9 ∨ month = 11 then 30
  else 31

/-- Read a date that exists. -/
def date? (text : List Char) : Option (List Char) := do
  let (year, rest) ← fixed? 4 0 text
  let rest ← char? '-' rest
  let (month, rest) ← fixed? 2 0 rest
  let rest ← char? '-' rest
  let (day, rest) ← fixed? 2 0 rest
  if 1 ≤ month ∧ month ≤ 12 ∧ 1 ≤ day ∧ day ≤ daysIn year month then some rest
  else none

/-- Skip the fraction of a second, if there is one. -/
def fraction? (text : List Char) : Option (List Char) :=
  match text with
  | '.' :: c :: rest => if c.isDigit then some (rest.dropWhile Char.isDigit) else none
  | '.' :: [] => none
  | _ => some text

/-- Read a time of day.  Seconds may be left out. -/
def time? (text : List Char) : Option (List Char) := do
  let (hour, rest) ← fixed? 2 0 text
  let rest ← char? ':' rest
  let (minute, rest) ← fixed? 2 0 rest
  if 23 < hour ∨ 59 < minute then none
  else
    match rest with
    | ':' :: rest => do
      let (second, rest) ← fixed? 2 0 rest
      if 60 < second then none else fraction? rest
    | _ => some rest

/-- Read the offset of a time zone, if there is one. -/
def offset? (text : List Char) : Option (List Char) :=
  match text with
  | 'Z' :: rest | 'z' :: rest => some rest
  | '+' :: rest | '-' :: rest => do
    let (hour, rest) ← fixed? 2 0 rest
    let rest ← char? ':' rest
    let (minute, rest) ← fixed? 2 0 rest
    if 23 < hour ∨ 59 < minute then none else some rest
  | _ => some text

/-- Whether a character may stand between a date and a time. -/
def isDateSeparator (c : Char) : Bool :=
  c == 'T' || c == 't' || c == ' '

/-- Whether a text is a date, a time, or a date with a time and maybe an
offset. -/
def isDateTime (text : List Char) : Bool :=
  match date? text with
  | some [] => true
  | some (separator :: rest) =>
    isDateSeparator separator && ((time? rest).bind offset?) == some []
  | none => time? text == some []

/-- Whether groups of characters between underscores look like groups of digits
at the underscores: a hexadecimal digit stands on both sides of each.  Inside a
group anything may stand. -/
def areGroups : List (List Char) → Bool
  | [] | [_] => true
  | first :: second :: rest =>
    (first.getLast?.bind hexValue?).isSome && (second.head?.bind hexValue?).isSome &&
      areGroups (second :: rest)

/-- Whether a text has the outline of an integer but need not have a value.
Such is the mark of a base without any digit after it, and a text that starts
with digits and an underscore and looks like a number at all its underscores,
unless it holds a space or could be meant for a floating-point number. -/
def isGarbled (text : List Char) : Bool :=
  let (_, magnitude) := splitSign text
  let afterDigits := magnitude.dropWhile Char.isDigit
  text == ['0', 'x'] || text == ['0', 'o'] || text == ['0', 'b'] ||
    (magnitude.head?.any (fun c => c.isDigit && c != '0') &&
      afterDigits.head? == some '_' &&
      afterDigits.all (fun c => c != ' ' && c != '.' && c != 'e' && c != 'E') &&
      areGroups (Text.fields '_' magnitude))

/-- Recognise a scalar. -/
def scalar? (text : List Char) : Option Scalar :=
  if text = ['t', 'r', 'u', 'e'] then some (.boolean true)
  else if text = ['f', 'a', 'l', 's', 'e'] then some (.boolean false)
  else
    match integer? text with
    | some value => some (.integer value)
    | none =>
      match float? text with
      | some huge => some (.float huge)
      | none =>
        if isDateTime text then some .dateTime
        else if isGarbled text then some .garbled
        else none

/-- Whether a text goes on with a word after blanks.  Strings are no words. -/
def wordFollows (text : List Char) : Bool :=
  (skipBlanks text).head?.any fun c =>
    isWord c && c != doubleQuote && c != singleQuote

/-- The characters of the scalar at the front of a text: words and the blanks
between them, as they stand between a date and its time. -/
def splitScalar : List Char → List Char × List Char
  | [] => ([], [])
  | c :: rest =>
    if isWord c || (isBlank c && wordFollows rest) then
      let (written, rest) := splitScalar rest
      (c :: written, rest)
    else ([], c :: rest)

end Interposition.Toml
