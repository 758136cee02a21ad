import Narrative.Json.Basic

/-!
# Issues

What can be wrong with a document, and where.  The cause of an issue is its `Fault`; the path leads
from the root of the document to the faulty place.
-/

namespace Narrative.Schema

/-- One step from a value to a part of it. -/
inductive Step where
  /-- The field of an object. -/
  | field (name : Label)
  /-- The item of an array. -/
  | item (index : Nat)
deriving DecidableEq, Repr

/-- What is wrong at a place of a document. -/
inductive Fault where
  /-- The text is no JSON text. -/
  | malformed
  /-- A document is no object. -/
  | notObject
  /-- A part of a request is no object. -/
  | notAttributes
  /-- A required field is missing. -/
  | missing
  /-- The value is no string. -/
  | notString
  /-- The string is no text. -/
  | notText
  /-- The string has too few characters. -/
  | tooShort
  /-- The string has too many characters. -/
  | tooLong
  /-- The value is no number. -/
  | notNumber
  /-- The string spells no number. -/
  | unreadableNumber
  /-- The value is no integer. -/
  | notInteger
  /-- The string spells no integer. -/
  | unreadableInteger
  /-- The number is past the 64-bit integers. -/
  | integerTooLarge
  /-- The number has a fractional part. -/
  | fractional
  /-- The number is infinite or undefined. -/
  | notFinite
  /-- The value is no truth value. -/
  | notBool
  /-- The value spells no truth value. -/
  | unreadableBool
  /-- The value is none of the allowed names. -/
  | notListed
  /-- The value is no array. -/
  | notList
  /-- The value is no object that maps names to values. -/
  | notTable
  /-- The value is no string that could spell an identifier. -/
  | notIdentifier
  /-- The string spells no identifier. -/
  | unreadableIdentifier
deriving DecidableEq, Repr

/-- The short code by which a fault is reported. -/
def Fault.code : Fault → String
  | malformed => "json_invalid"
  | notObject => "model_type"
  | notAttributes => "model_attributes_type"
  | missing => "missing"
  | notString => "string_type"
  | notText => "string_unicode"
  | tooShort => "string_too_short"
  | tooLong => "string_too_long"
  | notNumber => "float_type"
  | unreadableNumber => "float_parsing"
  | notInteger => "int_type"
  | unreadableInteger => "int_parsing"
  | integerTooLarge => "int_parsing_size"
  | fractional => "int_from_float"
  | notFinite => "finite_number"
  | notBool => "bool_type"
  | unreadableBool => "bool_parsing"
  | notListed => "enum"
  | notList => "list_type"
  | notTable => "dict_type"
  | notIdentifier => "uuid_type"
  | unreadableIdentifier => "uuid_parsing"

/-- A fault with the path to its place. -/
structure Issue where
  /-- What is wrong. -/
  fault : Fault
  /-- Where it is wrong. -/
  path : List Step := []
deriving DecidableEq, Repr

/-- The issue seen from one level further out. -/
def Issue.under (step : Step) (issue : Issue) : Issue :=
  { issue with path := step :: issue.path }

end Narrative.Schema
