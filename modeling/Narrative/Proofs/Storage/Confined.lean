import Narrative.Proofs.Storage.Stored

/-!
# Confined scripts

A script is confined if it reads and writes certain keys only and leaves all locks alone.  What a
confined script does depends only on the keys that it may read, and all keys that it may not write
keep their texts.
-/

namespace Narrative

/-! ## Scripts -/

namespace Script

variable {α β : Type} {reads writes : String → Prop} {ends : α → Prop}

/-- The script reads and writes certain keys only, neither takes nor gives back a lock, and ends
with certain results only. -/
def Confined (reads writes : String → Prop) (ends : α → Prop) : Script α → Prop
  | done result => ends result
  | read key next => reads key ∧ ∀ found, (next found).Confined reads writes ends
  | write key _ next => writes key ∧ next.Confined reads writes ends
  | claim _ _ _ => False
  | remove _ _ => False

theorem Confined.mono {script : Script α} (h : script.Confined reads writes ends)
    {sees : String → Prop} {results : α → Prop} (hreads : ∀ key, reads key → sees key)
    (hends : ∀ result, ends result → results result) : script.Confined sees writes results := by
  induction script with
  | done result => exact hends result h
  | read key next ih => exact ⟨hreads key h.1, fun found => ih found (h.2 found)⟩
  | write key value next ih => exact ⟨h.1, ih h.2⟩
  | claim | remove => exact h.elim

theorem Confined.widen {script : Script α} (h : script.Confined reads writes ends)
    {more : String → Prop} (hwrites : ∀ key, writes key → more key) :
    script.Confined reads more ends := by
  induction script with
  | done result => exact h
  | read key next ih => exact ⟨h.1, fun found => ih found (h.2 found)⟩
  | write key value next ih => exact ⟨hwrites key h.1, ih h.2⟩
  | claim | remove => exact h.elim

theorem Confined.bind {script : Script α} (h : script.Confined reads writes ends)
    {f : α → Script β} {results : β → Prop}
    (hf : ∀ result, ends result → (f result).Confined reads writes results) :
    (script.bind f).Confined reads writes results := by
  induction script with
  | done result => exact hf result h
  | read key next ih => exact ⟨h.1, fun found => ih found (h.2 found)⟩
  | write key value next ih => exact ⟨h.1, ih h.2⟩
  | claim | remove => exact h.elim

theorem Confined.ends_run {script : Script α} (h : script.Confined reads writes ends)
    (records : Records) : ends (script.run records).1 := by
  induction script generalizing records with
  | done result => exact h
  | read key next ih => exact ih _ (h.2 _) _
  | write key value next ih => exact ih h.2 _
  | claim | remove => exact h.elim

/-- A confined script leaves the keys that it may not write as they are. -/
theorem Confined.get?_run {script : Script α} (h : script.Confined reads writes ends)
    {key : String} (hkey : ¬writes key) (records : Records) :
    (script.run records).2.get? key = records.get? key := by
  induction script generalizing records with
  | done result => rfl
  | read other next ih => exact ih _ (h.2 _) _
  | write other value next ih =>
    have hne : other ≠ key := fun heq => hkey (heq ▸ h.1)
    rw [run, ih h.2, Table.get?_insert, if_neg hne]
  | claim | remove => exact h.elim

/-- On two stores that agree on the keys that it may read a confined script gives the same result,
and leaves every key the same on which the stores agree. -/
theorem Confined.run_congr {script : Script α} (h : script.Confined reads writes ends)
    {records other : Records} (hreads : ∀ key, reads key → records.get? key = other.get? key) :
    (script.run records).1 = (script.run other).1 ∧
      ∀ key, records.get? key = other.get? key →
        (script.run records).2.get? key = (script.run other).2.get? key := by
  induction script generalizing records other with
  | done result => exact ⟨rfl, fun _ hkey => hkey⟩
  | read key next ih =>
    rw [run, run, hreads key h.1]
    exact ih _ (h.2 _) hreads
  | write key value next ih =>
    have hinsert (found : String) (hfound : records.get? found = other.get? found) :
        (records.insert key value).get? found = (other.insert key value).get? found := by
      rw [Table.get?_insert, Table.get?_insert, hfound]
    obtain ⟨hresult, hkeys⟩ := ih h.2 fun found hfound => hinsert found (hreads found hfound)
    exact ⟨hresult, fun found hfound => hkeys found (hinsert found hfound)⟩
  | claim | remove => exact h.elim

end Script

/-! ## Attempts -/

namespace Attempt

variable {α β : Type} {reads writes : String → Prop} {yields : α → Prop} {attempt : Attempt α}

/-- The attempt reads and writes certain keys only, leaves all locks alone, and if it goes through
yields certain values only. -/
def Confined (reads writes : String → Prop) (yields : α → Prop) (attempt : Attempt α) : Prop :=
  Script.Confined reads writes (fun outcome => ∀ value, outcome = .ok value → yields value)
    (ExceptT.run attempt)

theorem confined_pure {value : α} (h : yields value) :
    Confined reads writes yields (pure value) := by
  rintro _ ⟨⟩
  exact h

theorem confined_throw (failure : Failure) :
    Confined reads writes yields (throw failure : Attempt α) := by
  rintro _ ⟨⟩

theorem confined_ofExcept {outcome : Except Failure α}
    (h : ∀ value, outcome = .ok value → yields value) :
    Confined reads writes yields (ofExcept outcome) := by
  cases outcome with
  | ok value => exact confined_pure (h value rfl)
  | error failure => exact confined_throw failure

theorem confined_lift {script : Script α} (h : script.Confined reads writes yields) :
    Confined reads writes yields (liftM script) := by
  refine Script.Confined.bind h fun value hvalue => ?_
  rintro _ ⟨⟩
  exact hvalue

theorem confined_get {key : String} (h : reads key) :
    Confined reads writes (fun _ => True) (liftM (Script.get key)) :=
  ⟨h, fun _ _ _ => trivial⟩

theorem confined_put {key : String} (h : writes key) (value : String) :
    Confined reads writes (fun _ => True) (liftM (Script.put key value)) :=
  ⟨h, fun _ _ => trivial⟩

theorem Confined.mono (h : attempt.Confined reads writes yields) {sees : String → Prop}
    {values : α → Prop} (hreads : ∀ key, reads key → sees key)
    (hyields : ∀ value, yields value → values value) : attempt.Confined sees writes values :=
  Script.Confined.mono h hreads fun _ hends value hvalue => hyields value (hends value hvalue)

theorem Confined.bind (h : attempt.Confined reads writes yields) {f : α → Attempt β}
    {results : β → Prop} (hf : ∀ value, yields value → (f value).Confined reads writes results) :
    (attempt >>= f).Confined reads writes results := by
  refine Script.Confined.bind h fun outcome hends => ?_
  cases outcome with
  | ok value => exact hf value (hends value rfl)
  | error failure =>
    rintro _ ⟨⟩

theorem Confined.map (h : attempt.Confined reads writes yields) {f : α → β} {results : β → Prop}
    (hf : ∀ value, yields value → results (f value)) :
    (f <$> attempt).Confined reads writes results := by
  rw [← bind_pure_comp]
  exact h.bind fun value hvalue => confined_pure (hf value hvalue)

theorem Confined.unexplained (h : attempt.Confined reads writes yields) :
    attempt.unexplained.Confined reads writes yields := by
  refine Script.Confined.bind h fun outcome hends => ?_
  cases outcome with
  | ok value => exact hends
  | error failure =>
    rintro _ ⟨⟩

/-- A confined attempt leaves the keys that it may not write as they are. -/
theorem Confined.get?_run (h : attempt.Confined reads writes yields) {key : String}
    (hkey : ¬writes key) (records : Records) :
    (attempt.run records).2.get? key = records.get? key :=
  Script.Confined.get?_run h hkey records

/-- What a confined attempt does depends only on the keys that it may read. -/
theorem Confined.run_congr (h : attempt.Confined reads writes yields) {records other : Records}
    (hreads : ∀ key, reads key → records.get? key = other.get? key) :
    (attempt.run records).1 = (attempt.run other).1 ∧
      ∀ key, records.get? key = other.get? key →
        (attempt.run records).2.get? key = (attempt.run other).2.get? key :=
  Script.Confined.run_congr h hreads

end Attempt

end Narrative
