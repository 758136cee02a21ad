import Narrative.Failure
import Narrative.Schema.Scalar

/-!
# Drafts

A document may hold strings that are no texts.  It can be read and looked at all the same; only
storing what it says is out of reach.  Until it is stored, what such a document says is a draft.
-/

namespace Narrative.Schema

/-- What a document says. -/
structure Draft (α : Type) where
  /-- The value, with a text in the place of every string that is none. -/
  value : α
  /-- The code points of the first string of the value that is no text. -/
  torn : Option (List Nat) := none

namespace Draft

variable {α : Type}

/-- Read a document. -/
def read (reader : Reader α) (document : Json) : Except (List Issue) (Draft α) :=
  match reader document with
  | .valid value => .ok { value }
  | .unwritable value points => .ok { value, torn := some points }
  | .invalid issues => .error issues

/-- The value, if it can be stored. -/
def storable (draft : Draft α) : Except Failure α :=
  match draft.torn with
  | none => .ok draft.value
  | some points => .error (.unwritableText points)

/-- A document in order says what its reader finds, and that can be stored. -/
theorem read_of_valid {reader : Reader α} {document : Json} {value : α}
    (h : reader document = .valid value) : read reader document = .ok { value } := by
  simp [read, h]

end Draft

end Narrative.Schema
