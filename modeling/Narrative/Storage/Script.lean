import Narrative.Table
import Narrative.Failure

/-!
# Storage scripts

Stories are kept in a store of texts under text keys.  A `Script` is a program of single commands
to such a store; `run` carries it out without interruption.  Since the commands of a script are
data, the commands of several scripts can also be interleaved, or a script can be cut off between
two of them.
-/

namespace Narrative

/-- The contents of a store. -/
abbrev Records := Table String String

/-- A program of commands to a store. -/
inductive Script (α : Type) where
  /-- No more commands. -/
  | done (result : α)
  /-- Read the text under a key. -/
  | read (key : String) (next : Option String → Script α)
  /-- Write a text under a key. -/
  | write (key value : String) (next : Script α)
  /-- Write a text under a key if there is none, and tell whether it was written. -/
  | claim (key value : String) (next : Bool → Script α)
  /-- Remove a key. -/
  | remove (key : String) (next : Script α)

namespace Script

variable {α β : Type}

/-- Continue with another script. -/
def bind : Script α → (α → Script β) → Script β
  | done result, f => f result
  | read key next, f => read key fun found => (next found).bind f
  | write key value next, f => write key value (next.bind f)
  | claim key value next, f => claim key value fun claimed => (next claimed).bind f
  | remove key next, f => remove key (next.bind f)

instance : Monad Script where
  pure := done
  bind := bind

/-- Carry out a script. -/
def run : Script α → Records → α × Records
  | done result, records => (result, records)
  | read key next, records => (next (records.get? key)).run records
  | write key value next, records => next.run (records.insert key value)
  | claim key value next, records =>
    if records.contains key then (next false).run records
    else (next true).run (records.insert key value)
  | remove key next, records => next.run (records.erase key)

@[simp]
theorem run_pure (result : α) (records : Records) :
    (pure result : Script α).run records = (result, records) := rfl

@[simp]
theorem run_bind (script : Script α) (f : α → Script β) (records : Records) :
    (script >>= f).run records = (f (script.run records).1).run (script.run records).2 := by
  change (script.bind f).run records = _
  induction script generalizing records with
  | done result => rfl
  | read key next ih => exact ih _ _
  | write key value next ih => exact ih _
  | claim key value next ih =>
    simp only [bind, run]
    split <;> exact ih _ _
  | remove key next ih => exact ih _

theorem bind_done (script : Script α) : script.bind done = script := by
  induction script with
  | done result => rfl
  | read key next ih => simp only [bind, ih]
  | write key value next ih => simp only [bind, ih]
  | claim key value next ih => simp only [bind, ih]
  | remove key next ih => simp only [bind, ih]

theorem bind_assoc {γ : Type} (script : Script α) (f : α → Script β) (g : β → Script γ) :
    (script.bind f).bind g = script.bind fun result => (f result).bind g := by
  induction script with
  | done result => rfl
  | read key next ih => simp only [bind, ih]
  | write key value next ih => simp only [bind, ih]
  | claim key value next ih => simp only [bind, ih]
  | remove key next ih => simp only [bind, ih]

instance : LawfulMonad Script :=
  LawfulMonad.mk' Script bind_done (fun _ _ => rfl) bind_assoc

/-- The script that reads one key. -/
def get (key : String) : Script (Option String) := read key done

/-- The script that writes one key. -/
def put (key value : String) : Script Unit := write key value (done ())

end Script

/-- A script that may fail; what it has written before stays written. -/
abbrev Attempt := ExceptT Failure Script

namespace Attempt

variable {α β : Type}

/-- Carry out an attempt. -/
def run (attempt : Attempt α) (records : Records) : Except Failure α × Records :=
  Script.run (ExceptT.run attempt) records

/-- The outcome of a part that has been carried out already. -/
def ofExcept : Except Failure α → Attempt α
  | .ok value => pure value
  | .error failure => throw failure

/-- Do not tell why an attempt failed. -/
def unexplained (attempt : Attempt α) : Attempt α :=
  ExceptT.mk do
    match ← ExceptT.run attempt with
    | .ok value => return .ok value
    | .error _ => return .error .unexplained

/-- Hold a lock while an attempt runs.  The lock is given back whether it succeeds or not; a lock
that somebody else holds is left alone. -/
def locked (key : String) (attempt : Attempt α) : Attempt α :=
  ExceptT.mk (Script.claim key "1" fun claimed =>
    if claimed then
      (ExceptT.run attempt).bind fun outcome => .remove key (.done outcome)
    else .done (.error .storyBusy))

/-! ### What the operations do -/

@[simp]
theorem run_pure (value : α) (records : Records) :
    run (pure value) records = (.ok value, records) := rfl

@[simp]
theorem run_throw (failure : Failure) (records : Records) :
    run (throw failure : Attempt α) records = (.error failure, records) := rfl

/-- An attempt that goes on behind another one stops where that fails. -/
theorem run_bind (attempt : Attempt α) (f : α → Attempt β) (records : Records) :
    run (attempt >>= f) records =
      match run attempt records with
      | (.ok value, records) => run (f value) records
      | (.error failure, records) => (.error failure, records) := by
  change Script.run (ExceptT.run attempt >>= ExceptT.bindCont f) records = _
  rw [Script.run_bind]
  change _ = match Script.run (ExceptT.run attempt) records with
    | (.ok value, records) => run (f value) records
    | (.error failure, records) => (.error failure, records)
  rcases Script.run (ExceptT.run attempt) records with ⟨outcome | outcome, records⟩ <;> rfl

/-- A lock that somebody holds keeps everybody else from changing anything. -/
theorem run_locked_of_contains {key : String} (attempt : Attempt α) {records : Records}
    (h : records.contains key) :
    run (locked key attempt) records = (.error .storyBusy, records) := by
  change Script.run (Script.claim _ _ _) _ = _
  simp [Script.run, h]

/-- An attempt under a lock runs with the lock in the store, which is taken out afterwards. -/
theorem run_locked_of_not_contains {key : String} (attempt : Attempt α) {records : Records}
    (h : records.contains key = false) :
    run (locked key attempt) records =
      ((run attempt (records.insert key "1")).1,
        (run attempt (records.insert key "1")).2.erase key) := by
  change Script.run (Script.claim _ _ _) _ = _
  simp only [Script.run, h, Bool.false_eq_true, if_false, if_true]
  exact Script.run_bind _ _ _

end Attempt

end Narrative
