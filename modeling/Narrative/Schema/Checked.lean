import Narrative.Schema.Issue

/-!
# Checked values

The outcome of checking a document is a value or the list of all issues.  Checking the parts of a
document goes on behind a faulty part, so that all issues are reported in order.

A string that is no text is no issue.  A document that holds one can be read and looked at all the
same; only writing what it says is out of reach, and breaks off at the first such string.
-/

namespace Narrative.Schema

universe u v

/-- A value, or everything that is wrong with the document it was to be read from. -/
inductive Checked (α : Type u) where
  /-- The document is in order. -/
  | valid (value : α)
  /-- The document is in order, but it cannot be written again; `points` spell the first string of
  the value that is no text, and in the value a text takes the place of every such string. -/
  | unwritable (value : α) (points : List Nat)
  /-- The document has issues. -/
  | invalid (issues : List Issue)

namespace Checked

variable {α : Type u} {β : Type v}

/-- Apply a function to a value. -/
def map (f : α → β) : Checked α → Checked β
  | valid value => valid (f value)
  | unwritable value points => unwritable (f value) points
  | invalid issues => invalid issues

/-- Combine two checks; the issues of both are kept, and else the first string that is no text. -/
def combine (f : Checked (α → β)) (x : Checked α) : Checked β :=
  match f, x with
  | valid f, valid value => valid (f value)
  | valid f, unwritable value points => unwritable (f value) points
  | unwritable f points, valid value => unwritable (f value) points
  | unwritable f points, unwritable value _ => unwritable (f value) points
  | invalid issues, invalid more => invalid (issues ++ more)
  | invalid issues, _ => invalid issues
  | _, invalid issues => invalid issues

instance : Applicative Checked where
  pure := valid
  map := map
  seq f x := combine f (x ())

/-- Report a single fault at the place itself. -/
def fail (fault : Fault) : Checked α := invalid [{ fault }]

/-- See the outcome from one level further out. -/
def under (step : Step) : Checked α → Checked α
  | valid value => valid value
  | unwritable value points => unwritable value points
  | invalid issues => invalid (issues.map (Issue.under step))

/-- A value that may be missing, with the fault to report when it is. -/
def ofOption (fault : Fault) : Option α → Checked α
  | some value => valid value
  | none => fail fault

/-- The value, if the document is in order and can be written again. -/
def toOption : Checked α → Option α
  | valid value => some value
  | _ => none

@[simp]
theorem map_valid (f : α → β) (value : α) : map f (valid value) = valid (f value) := rfl

@[simp]
theorem combine_valid (f : α → β) (value : α) :
    combine (valid f) (valid value) = valid (f value) := rfl

@[simp]
theorem under_valid (step : Step) (value : α) : under step (valid value) = valid value := rfl

theorem combine_eq_valid {f : Checked (α → β)} {x : Checked α} {result : β} :
    combine f x = valid result ↔
      ∃ g value, f = valid g ∧ x = valid value ∧ g value = result := by
  cases f <;> cases x <;> simp [combine]

end Checked

end Narrative.Schema
