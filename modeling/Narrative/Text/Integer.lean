import Narrative.Text.Digit

/-!
# Written integers

Integers as people type them: white space around them, a sign, digits of any script, and single
`_` between digits.  In base sixteen a mark `0x` may come first, whose zero is of any script too.
-/

namespace Narrative.Text

/-- The value of a digit in a base up to sixteen. -/
def digitIn? (base : Nat) (c : Char) : Option Nat :=
  (digitValue? c <|> hexValue? c).filter (· < base)

/-- Read digits with single `_` between them.  `value` is what has been read so far, and `awaiting`
tells whether a digit has to follow. -/
def digitsFrom (base : Nat) (value : Nat) (awaiting : Bool) : List Char → Option Nat
  | [] => if awaiting then none else some value
  | c :: rest =>
    if c = '_' then if awaiting then none else digitsFrom base value true rest
    else match digitIn? base c with
      | some digit => digitsFrom base (value * base + digit) false rest
      | none => none

/-- Skip the mark of base sixteen, and one `_` behind it. -/
def skipBaseMark : List Char → List Char
  | zero :: x :: rest =>
    if digitValue? zero = some 0 ∧ (x = 'x' ∨ x = 'X') then
      match rest with
      | '_' :: rest => rest
      | rest => rest
    else zero :: x :: rest
  | text => text

/-- The integer that a text spells in a base. -/
def integer? (base : Nat) (text : List Char) : Option Int :=
  let magnitude? (digits : List Char) : Option Nat :=
    digitsFrom base 0 true (if base = 16 then skipBaseMark digits else digits)
  match trim text with
  | '+' :: rest => (magnitude? rest).map Int.ofNat
  | '-' :: rest => (magnitude? rest).map fun n => -(n : Int)
  | rest => (magnitude? rest).map Int.ofNat

end Narrative.Text
