import Narrative.Text.Printable
import Narrative.Text.Units

/-!
# Quoted names in messages

Messages quote the names that they talk about.  Single quotes are used, unless the name contains a
single quote and no double quote; characters that cannot be shown are written as escapes.
-/

namespace Narrative.Text

/-- A number in lower-case hexadecimal, filled with zeros up to a width. -/
def hexText (width n : Nat) : List Char :=
  let digits := Nat.toDigits 16 n
  List.replicate (width - digits.length) '0' ++ digits

/-- The escape of a character by its number, as short as its size allows. -/
def escapeNumber (c : Char) : List Char :=
  if c.toNat < 0x100 then '\\' :: 'x' :: hexText 2 c.toNat
  else if c.toNat < 0x10000 then '\\' :: 'u' :: hexText 4 c.toNat
  else '\\' :: 'U' :: hexText 8 c.toNat

/-- Write one character between quotes of the given kind. -/
def literalChar (mark c : Char) : List Char :=
  if c = mark ∨ c = '\\' then ['\\', c]
  else if c = '\n' then ['\\', 'n']
  else if c = '\r' then ['\\', 'r']
  else if c = '\t' then ['\\', 't']
  else if isPrintable c then [c]
  else escapeNumber c

/-- The quotes around a text. -/
def quoteMark (text : List Char) : Char :=
  if text.contains '\'' && !text.contains '"' then '"' else '\''

/-- A text in quotes. -/
def literal (text : String) : List Char :=
  let mark := quoteMark text.toList
  mark :: (text.toList.flatMap (literalChar mark) ++ [mark])

/-- Write one code point between quotes; half of a pair is written as an escape. -/
def literalPoint (mark : Char) (point : Nat) : List Char :=
  if isHalf point then '\\' :: 'u' :: hexText 4 point else literalChar mark (Char.ofNat point)

/-- Code points in quotes. -/
def literalPoints (points : List Nat) : List Char :=
  let mark := quoteMark (points.map Char.ofNat)
  mark :: (points.flatMap (literalPoint mark) ++ [mark])

end Narrative.Text
