import Narrative.Json.Writer
import Narrative.Text.Literal

/-!
# Values as names

A value may stand where a name is expected.  A string is the name itself; every other value gives
the text by which it is shown to people.
-/

namespace Narrative.Json

/-- A number as it is shown to people. -/
def displayNumber (x : Float) : List Char :=
  if Decimal.isNotANumber x then "nan".toList
  else if Decimal.isFinite x then Decimal.Style.displayed.write x
  else if Decimal.signBit x then "-inf".toList
  else "inf".toList

/-- A string in quotes. -/
def showLabel : Label → List Char
  | .text value => Text.literal value
  | .torn points _ => Text.literalPoints points

mutual

/-- A value as it is shown inside another one. -/
def showChars : Json → List Char
  | .null => "None".toList
  | .bool true => "True".toList
  | .bool false => "False".toList
  | .int value => (toString value).toList
  | .num value => displayNumber value
  | .str value => Text.literal value
  | .torn points _ => Text.literalPoints points
  | .arr items => '[' :: (separated [',', ' '] (showItems items) ++ [']'])
  | .obj fields => '\x7b' :: (separated [',', ' '] (showFields fields) ++ ['\x7d'])

/-- The items of an array as they are shown. -/
def showItems : List Json → List (List Char)
  | [] => []
  | item :: rest => showChars item :: showItems rest

/-- The fields of an object as they are shown. -/
def showFields : List (Label × Json) → List (List Char)
  | [] => []
  | (name, value) :: rest =>
    (showLabel name ++ ':' :: ' ' :: showChars value) :: showFields rest

end

/-- The name that a value stands for. -/
def asName : Json → Label
  | .str value => .text value
  | .torn points h => .torn points h
  | value => .text (String.ofList (showChars value))

end Narrative.Json
