import Narrative.Json.Basic
import Narrative.Schema.Spelled

/-!
# Simple values

Readers for strings, numbers, integers, truth values and names from a fixed list.  Numbers may also
be given as truth values or as strings, as older files do; every reader says which values it takes.
-/

namespace Narrative.Schema

universe u

/-- A reader turns a document value into a checked value. -/
abbrev Reader (α : Type u) := Json → Checked α

/-! ## Strings and names -/

/-- Strings as they are; one that is no text is mended. -/
def string : Reader String
  | .str value => .valid value
  | .torn points h => .unwritable (Label.mended (.torn points h)) points
  | _ => .fail .notString

/-- Strings with a least and a greatest number of characters. -/
def sizedString (least greatest : Nat) : Reader String
  | .str value =>
    if value.length < least then .fail .tooShort
    else if greatest < value.length then .fail .tooLong
    else .valid value
  | .torn .. => .fail .notText
  | _ => .fail .notString

/-- Names from a fixed list, spelled exactly. -/
def oneOf {α : Type u} (ofName? : String → Option α) : Reader α
  | .str name => .ofOption .notListed (ofName? name)
  | _ => .fail .notListed

/-! ## Numbers -/

/-- Numbers: integers that fit, truth values as one and zero, and strings that spell a number. -/
def number : Reader Float
  | .int value => .ofOption .notNumber (Decimal.ofInt? value)
  | .num value => .valid value
  | .bool value => .valid (if value then 1.0 else 0.0)
  | .str value => .ofOption .unreadableNumber (numberOfText value.toList)
  | .torn .. => .fail .unreadableNumber
  | _ => .fail .notNumber

/-- Numbers, where an integer past every finite number is taken as infinite. -/
def roundedNumber : Reader Float
  | .int value => .valid ((Decimal.ofInt? value).getD (Decimal.infinite (value < 0)))
  | value => number value

/-- Whether an integer has at most 64 bits. -/
def isMachineInteger (n : Int) : Bool := -2 ^ 63 ≤ n && n < 2 ^ 63

/-- The integer that a number stands for; the least of the 64-bit integers is none of them. -/
def integerOfNumber (x : Float) : Checked Int :=
  if !Decimal.isFinite x then .fail .notFinite
  else if !Decimal.isWhole x then .fail .fractional
  else if (Decimal.truncate x).natAbs < 2 ^ 63 then .valid (Decimal.truncate x)
  else .fail .integerTooLarge

/-- Integers of any size: whole numbers within 64 bits, truth values as one and zero, and strings
that spell an integer. -/
def integer : Reader Int
  | .int value => .valid value
  | .bool value => .valid (if value then 1 else 0)
  | .num value => integerOfNumber value
  | .str value => integerOfText value.toList
  | .torn .. => .fail .unreadableInteger
  | _ => .fail .notInteger

/-- The words for a truth value. -/
def boolOfWord (word : String) : Option Bool :=
  if word ∈ ["1", "t", "y", "yes", "on", "true"] then some true
  else if word ∈ ["0", "f", "n", "no", "off", "false"] then some false
  else none

/-- The truth value of zero and one. -/
def boolOfInt (n : Int) : Checked Bool :=
  if n = 0 then .valid false
  else if n = 1 then .valid true
  else .fail .unreadableBool

/-- Truth values, zero and one, and the words for them in any case. -/
def truth : Reader Bool
  | .bool value => .valid value
  | .int value => if isMachineInteger value then boolOfInt value else .fail .notBool
  | .num value =>
    match integerOfNumber value with
    | .valid n => boolOfInt n
    | _ => .fail .notBool
  | .str value =>
    .ofOption .unreadableBool (boolOfWord (String.ofList (lowercase value.toList)))
  | .torn .. => .fail .unreadableBool
  | _ => .fail .notBool

end Narrative.Schema
