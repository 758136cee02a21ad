import Narrative.Playback.Player
import Narrative.Failure

/-!
# Choices by index

A requested choice passes a list of checks before it is taken; the first check that refuses it
decides the failure.  A list of checks that lets a wrong index
through leaves it to the list of choices: a negative index counts from its end.
-/

namespace Narrative

/-- A check of a requested choice. -/
inductive ChoiceCheck where
  /-- The reader stands on a node. -/
  | nodeExists
  /-- The index is one of the node's choices. -/
  | indexInRange
  /-- The condition of the choice holds. -/
  | available
deriving DecidableEq, Repr

/-- The item at an index; a negative index counts from the end. -/
def itemAt? {α : Type} (items : List α) : Int → Option α
  | .ofNat n => items[n]?
  | .negSucc n => if n < items.length then items[items.length - 1 - n]? else none

namespace ChoiceCheck

/-- The usual checks, in order. -/
def all : List ChoiceCheck := [nodeExists, indexInRange, available]

/-- Carry out a check. -/
def run (check : ChoiceCheck) (player : Player) (index : Int) : Except Failure Unit :=
  match check with
  | nodeExists =>
    if player.node?.isSome then .ok () else .error (.nodeNotFound player.place.nodeId)
  | indexInRange =>
    if 0 ≤ index ∧ index < player.choices.length then .ok ()
    else .error (.choiceOutOfRange index player.place.nodeId player.choices.length)
  | available =>
    match itemAt? player.choices index with
    | some choice => if choice.available then .ok () else .error (.choiceUnavailable choice.text)
    | none => .error .noChoice

end ChoiceCheck

/-- The choice at an index as it is offered, once it has passed some checks. -/
def Player.checked (player : Player) (checks : List ChoiceCheck) (index : Int) :
    Except Failure AvailableChoice := do
  checks.forM fun check => check.run player index
  match itemAt? player.choices index with
  | some choice => return choice
  | none => throw .noChoice

end Narrative
