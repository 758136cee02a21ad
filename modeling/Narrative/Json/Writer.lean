import Narrative.Json.Basic
import Narrative.Json.Quoted
import Narrative.Decimal.Written

/-!
# Writing documents

Stored documents are written without blanks, with every character but the control characters as it
is; a number that is not finite has no JSON form and is written as `null`.  Lists of names are
written with a blank behind each comma and in ASCII.
-/

namespace Narrative.Json

/-- Written items with a separator between them. -/
def separated (separator : List Char) : List (List Char) → List Char
  | [] => []
  | [item] => item
  | item :: rest => item ++ separator ++ separated separator rest

mutual

/-- Write a value; `number` writes the numbers that are not integers. -/
def writeWith (number : Float → List Char) : Json → List Char
  | .null => "null".toList
  | .bool true => "true".toList
  | .bool false => "false".toList
  | .int value => (toString value).toList
  | .num value => number value
  | .str value => quote .unicode value
  | .torn points h => quoteLabel .unicode (.torn points h)
  | .arr items => '[' :: (separated [','] (writeItems number items) ++ [']'])
  | .obj fields => '{' :: (separated [','] (writeFields number fields) ++ ['}'])

/-- Write the items of an array. -/
def writeItems (number : Float → List Char) : List Json → List (List Char)
  | [] => []
  | item :: rest => writeWith number item :: writeItems number rest

/-- Write the fields of an object. -/
def writeFields (number : Float → List Char) : List (Label × Json) → List (List Char)
  | [] => []
  | (name, value) :: rest =>
    (quoteLabel .unicode name ++ ':' :: writeWith number value) :: writeFields number rest

end

/-- The stored form of a number. -/
def storedNumber (x : Float) : List Char :=
  if Decimal.isFinite x then Decimal.Style.stored.write x else "null".toList

/-- The stored text of a value. -/
def text (value : Json) : String := String.ofList (writeWith storedNumber value)

/-- The text of a list of names. -/
def listText (names : List Label) : String :=
  String.ofList ('[' :: (separated [',', ' '] (names.map (quoteLabel .ascii)) ++ [']']))

end Narrative.Json
