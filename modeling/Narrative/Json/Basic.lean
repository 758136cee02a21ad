import Narrative.Decimal.Binary
import Narrative.Table
import Narrative.Text.Units

/-!
# Document values

`Json` is the value of a JSON text.  Integers are kept apart from numbers with a point or an
exponent, and the fields of an object keep their order.  A string is a text, unless escapes leave
half of a surrogate pair alone in it.
-/

namespace Narrative

/-- A string as a JSON text spells it. -/
inductive Label where
  /-- A text. -/
  | text (value : String)
  /-- The code points of a string in which half of a pair stands alone; it is no text. -/
  | torn (points : List Nat) (h : Text.ofPoints? points = none)
deriving DecidableEq, Repr

instance : Coe String Label := ⟨Label.text⟩

namespace Label

/-- The string with given code points. -/
def ofPoints (points : List Nat) : Label :=
  match h : Text.ofPoints? points with
  | some chars => text (String.ofList chars)
  | none => torn points h

theorem ofPoints_of_some {points : List Nat} {chars : List Char}
    (h : Text.ofPoints? points = some chars) : ofPoints points = text (String.ofList chars) := by
  unfold ofPoints
  split
  case h_1 found hfound => rw [Option.some.inj (hfound.symm.trans h)]
  case h_2 hnone => exact absurd (hnone.symm.trans h) (by simp)

/-- The text that is written in the place of a string.  Half of a pair is spelled by three bytes,
and a replacement character is written for each of them. -/
def mended : Label → String
  | text value => value
  | torn points _ => String.ofList (points.flatMap fun point =>
      if point.isValidChar then [Char.ofNat point] else List.replicate 3 '\ufffd')

@[simp]
theorem mended_text (value : String) : mended value = value := rfl

/-- The string as a text, if it is one. -/
def text? : Label → Option String
  | text value => some value
  | torn .. => none

end Label

/-- A JSON value. -/
inductive Json where
  /-- The value `null`. -/
  | null
  /-- A truth value. -/
  | bool (value : Bool)
  /-- A number written without point and exponent. -/
  | int (value : Int)
  /-- A number written with a point or an exponent, or one of the values that are no finite
  number. -/
  | num (value : Float)
  /-- A string that is a text. -/
  | str (value : String)
  /-- A string that is no text, by its code points. -/
  | torn (points : List Nat) (h : Text.ofPoints? points = none)
  /-- An array. -/
  | arr (items : List Json)
  /-- An object; the fields are in the order of their first occurrence. -/
  | obj (fields : List (Label × Json))

namespace Json

instance : Inhabited Json := ⟨null⟩

/-- The fields of an object. -/
abbrev Fields := List (Label × Json)

/-- The value of a field. -/
def Fields.get? (fields : Fields) (name : Label) : Option Json := Table.findEntry name fields

/-- Write a field: in place when the name is present, at the end otherwise. -/
def Fields.set (fields : Fields) (name : Label) (value : Json) : Fields :=
  Table.setEntry name value fields

/-- The value of a string. -/
def ofLabel : Label → Json
  | .text value => str value
  | .torn points h => torn points h

/-- Write an optional value. -/
def ofOption {α : Type} (toJson : α → Json) : Option α → Json
  | some value => toJson value
  | none => null

/-- The field of a value; only objects have fields. -/
def field? (name : Label) : Json → Option Json
  | obj fields => Fields.get? fields name
  | _ => none

/-- Whether a value counts as left blank: `null`, `false`, zero and everything empty. -/
def isVacant : Json → Bool
  | null => true
  | bool value => !value
  | int value => value = 0
  | num value => value == 0
  | str value => value.isEmpty
  | torn .. => false
  | arr items => items.isEmpty
  | obj fields => fields.isEmpty

mutual

/-- Whether a value can be written so that every reader takes it: its numbers are finite and its
strings are texts. -/
def isPortable : Json → Bool
  | num value => Decimal.isFinite value
  | torn .. => false
  | arr items => arePortable items
  | obj fields => fieldsArePortable fields
  | _ => true

/-- Whether all items of an array are portable. -/
def arePortable : List Json → Bool
  | [] => true
  | item :: rest => isPortable item && arePortable rest

/-- Whether all fields of an object are portable. -/
def fieldsArePortable : List (Label × Json) → Bool
  | [] => true
  | (name, value) :: rest => name.text?.isSome && isPortable value && fieldsArePortable rest

end

end Json

end Narrative
