import Narrative.Session.Basic
import Narrative.Json.Display
import Narrative.Text.Integer

/-!
# Play actions

A play action is one request of a reader.  It holds the lock of the story, opens the story at the
current position, carries out one step, and saves the position reached.
-/

namespace Narrative

/-- What a reader can do. -/
inductive PlayAction where
  | choose
  | restart
  | jump
  | save
  | load
deriving DecidableEq, Repr

namespace PlayAction

/-- All actions. -/
def all : List PlayAction := [choose, restart, jump, save, load]

/-- The name of an action in requests. -/
def name : PlayAction → String
  | choose => "choose"
  | restart => "restart"
  | jump => "jump"
  | save => "save"
  | load => "load"

/-- The action with a given name. -/
def ofName? (name : String) : Option PlayAction := all.find? fun action => action.name = name

@[simp]
theorem ofName?_name (action : PlayAction) : ofName? action.name = some action := by
  cases action <;> decide

/-! ## Parameters -/

/-- The greatest number of digits of an index. -/
def indexDigits : Nat := 4300

/-- The index that a value stands for: integers, truth values as one and zero, finite numbers
without their fraction, and strings that spell an integer. -/
def indexOf : Json → Except Failure Int
  | .int n => .ok n
  | .bool value => .ok (if value then 1 else 0)
  | .num x =>
    if Decimal.isFinite x then .ok (Decimal.truncate x)
    else if Decimal.isNotANumber x then .error .indexUnreadable
    else .error .infinite
  | .str text =>
    if indexDigits < text.toList.countP (fun c => (Text.digitValue? c).isSome) then
      .error .indexUnreadable
    else match Text.integer? 10 text.toList with
      | some n => .ok n
      | none => .error .indexUnreadable
  | _ => .error .indexUnreadable

/-- The index of a request. -/
def index (payload : Json.Fields) : Except Failure Int :=
  match payload.get? "index" with
  | none | some .null => .error .indexMissing
  | some value => indexOf value

/-- The save slot of a request; left blank, it is the one that keeps the current position. -/
def slot (payload : Json.Fields) : Label :=
  match payload.get? "slot" with
  | none => .text Repository.autosaveSlot
  | some value => if value.isVacant then .text Repository.autosaveSlot else value.asName

/-- The name of a save slot of a story; it must be a text to be part of a key. -/
def slotName (story : String) : Label → Except Failure String
  | .text name => .ok name
  | .torn points _ =>
    .error (.unwritableKey ((Repository.slotKey story "").toList.map Char.toNat ++ points))

/-! ## Carrying out -/

/-- The answer to a play action. -/
structure Outcome where
  /-- What the reader sees afterwards. -/
  view : PlaybackView
  /-- The position that was saved, if saving was the action. -/
  saved : Option SaveSlot

/-- Carry out the step of an action in an open session. -/
def perform (action : PlayAction) (payload : Json.Fields) (now : Instant) (session : Session) :
    Attempt (Session × Option SaveSlot) := do
  match action with
  | choose =>
    let index ← Attempt.ofExcept (index payload)
    let (outcome, session) := session.take ChoiceCheck.all now index
    let _ ← Attempt.ofExcept outcome
    return (session, none)
  | restart => return (session.restart, none)
  | jump =>
    let index ← Attempt.ofExcept (index payload)
    match session.jump? index with
    | some session => return (session, none)
    | none => throw (.historyOutOfRange index)
  | save =>
    let name ← Attempt.ofExcept (slotName session.story (slot payload))
    let position ← session.save now name
    return (session, some position)
  | load =>
    let name ← Attempt.ofExcept (slotName session.story (slot payload))
    match ← session.loadSave name with
    | some session => return (session, none)
    | none => throw (.slotNotFound name)

/-- Carry out an action on a story. -/
def dispatch (now : Instant) (story : String) (name : String) (payload : Json.Fields) :
    Attempt Outcome := do
  match ofName? name with
  | none => throw (.unknownAction name)
  | some action =>
    Attempt.locked (Repository.lockKey story) do
      let session ← Session.openStory story true
      let (session, saved) ← action.perform payload now session
      let _ ← session.autosave now
      return { view := session.view, saved }

end PlayAction

end Narrative
