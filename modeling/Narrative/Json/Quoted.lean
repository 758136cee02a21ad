import Narrative.Json.Basic
import Narrative.Text.Digit

/-!
# Quoted strings

The body of a JSON string is a list of characters and escapes.  An escape `\uXXXX` stands for a
UTF-16 code unit, so two of them may spell one character; a unit that is left without its partner
spells none, and the string is no text.
-/

namespace Narrative.Json

/-! ## Reading -/

/-- The value of four hexadecimal digits. -/
def hexUnit (a b c d : Char) : Option Nat := do
  let a ← Text.hexValue? a
  let b ← Text.hexValue? b
  let c ← Text.hexValue? c
  let d ← Text.hexValue? d
  return ((a * 16 + b) * 16 + c) * 16 + d

/-- What a one-letter escape stands for. -/
def shortEscape : Char → Option Char
  | '"' => some '"'
  | '\\' => some '\\'
  | '/' => some '/'
  | 'b' => some '\x08'
  | 'f' => some '\x0c'
  | 'n' => some '\n'
  | 'r' => some '\r'
  | 't' => some '\t'
  | _ => none

/-- Read the code units of a string body up to the closing quote, and what follows it. -/
def readUnits : List Char → Option (List Nat × List Char)
  | [] => none
  | '"' :: rest => some ([], rest)
  | '\\' :: 'u' :: a :: b :: c :: d :: rest =>
    match hexUnit a b c d, readUnits rest with
    | some unit, some (units, rest) => some (unit :: units, rest)
    | _, _ => none
  | '\\' :: e :: rest =>
    match shortEscape e, readUnits rest with
    | some c, some (units, rest) => some (c.toNat :: units, rest)
    | _, _ => none
  | c :: rest =>
    if c < ' ' then none
    else (readUnits rest).map fun (units, rest) => (c.toNat :: units, rest)

/-- A code unit in four hexadecimal digits. -/
def hexEscape (unit : Nat) : List Char :=
  let digits := Nat.toDigits 16 unit
  '\\' :: 'u' :: (List.replicate (4 - digits.length) '0' ++ digits)

/-- A text that spells given code points: half of a pair is spelled by its escape.  Nothing spells
the number of no character. -/
def spelling? (points : List Nat) : Option (List Char) :=
  (points.mapM fun point =>
    if Text.isHalf point then some (hexEscape point)
    else if point.isValidChar then some [Char.ofNat point]
    else none).map List.flatten

/-- Read a string body up to the closing quote, and what follows it. -/
def readQuoted (text : List Char) : Option (Label × List Char) :=
  (readUnits text).map fun (units, rest) => (.ofPoints (Text.joinUnits units), rest)

/-! ## Writing -/

/-- The escape of a character that has a short one. -/
def shortName : Char → Option Char
  | '"' => some '"'
  | '\\' => some '\\'
  | '\x08' => some 'b'
  | '\x0c' => some 'f'
  | '\n' => some 'n'
  | '\r' => some 'r'
  | '\t' => some 't'
  | _ => none

/-- Which characters are written as they are, besides those with a short escape. -/
inductive Charset where
  /-- All but the control characters. -/
  | unicode
  /-- The printable ASCII characters only. -/
  | ascii
deriving DecidableEq, Repr

/-- Whether a character stands for itself. -/
def Charset.plain : Charset → Char → Bool
  | unicode, c => ' ' ≤ c
  | ascii, c => ' ' ≤ c && c ≤ '~'

/-- Write one character of a string. -/
def escapeChar (charset : Charset) (c : Char) : List Char :=
  match shortName c with
  | some letter => ['\\', letter]
  | none => if charset.plain c then [c] else (Text.unitsOf c).flatMap hexEscape

/-- Write a text with its quotes. -/
def quote (charset : Charset) (s : String) : List Char :=
  '"' :: (s.toList.flatMap (escapeChar charset) ++ ['"'])

/-- Write one code point of a string; half of a pair is always written as an escape. -/
def escapePoint (charset : Charset) (point : Nat) : List Char :=
  if Text.isHalf point then hexEscape point else escapeChar charset (Char.ofNat point)

/-- Write a string with its quotes. -/
def quoteLabel (charset : Charset) : Label → List Char
  | .text value => quote charset value
  | .torn points _ => '"' :: (points.flatMap (escapePoint charset) ++ ['"'])

end Narrative.Json
