import Narrative.Proofs.Service.Guarded

/-!
# Scripts that are cut off

A script that is cut off leaves the store as it is after some of its commands.  A property of stores
that holds before a script and after each of its commands holds wherever the script is cut off, and
it is enough to know this of the parts of a script.  Nothing is known here of a command that is
itself carried out in part.
-/

namespace Narrative

namespace Script

variable {α β : Type} {p : Records → Prop} {script : Script α} {records : Records}

/-! ## Beginnings of scripts -/

/-- The store after the first commands of a script; what is done stays done. -/
def after : ℕ → Script α → Records → Records
  | 0, _, records => records
  | n + 1, script, records => after n (script.step records).1 (script.step records).2

/-- The store has a property wherever the script is cut off. -/
def Passes (p : Records → Prop) (script : Script α) (records : Records) : Prop :=
  ∀ n, p (after n script records)

theorem after_done (n : ℕ) (result : α) (records : Records) :
    after n (done result) records = records := by
  induction n with
  | zero => rfl
  | succ n ih => exact ih

/-- A script comes to its end. -/
theorem exists_after_eq_run (script : Script α) (records : Records) :
    ∃ n, after n script records = (script.run records).2 := by
  induction script generalizing records with
  | done result => exact ⟨0, rfl⟩
  | read key next ih =>
    obtain ⟨n, hn⟩ := ih (records.get? key) records
    exact ⟨n + 1, hn⟩
  | write key value next ih =>
    obtain ⟨n, hn⟩ := ih (records.insert key value)
    exact ⟨n + 1, hn⟩
  | claim key value next ih =>
    cases hheld : records.contains key with
    | true =>
      obtain ⟨n, hn⟩ := ih false records
      exact ⟨n + 1, by simpa [after, step, run, hheld] using hn⟩
    | false =>
      obtain ⟨n, hn⟩ := ih true (records.insert key value)
      exact ⟨n + 1, by simpa [after, step, run, hheld] using hn⟩
  | remove key next ih =>
    obtain ⟨n, hn⟩ := ih (records.erase key)
    exact ⟨n + 1, hn⟩

/-! ## Passing through stores -/

theorem passes_done {result : α} (h : p records) : Passes p (done result) records := by
  intro n
  rw [after_done]
  exact h

theorem passes_iff_step :
    Passes p script records ↔
      p records ∧ Passes p (script.step records).1 (script.step records).2 := by
  constructor
  · intro h
    exact ⟨h 0, fun n => h (n + 1)⟩
  · rintro ⟨hfirst, hrest⟩ n
    cases n with
    | zero => exact hfirst
    | succ n => exact hrest n

theorem Passes.run (h : Passes p script records) : p (script.run records).2 := by
  obtain ⟨n, hn⟩ := exists_after_eq_run script records
  rw [← hn]
  exact h n

theorem Passes.bind {f : α → Script β} (h : Passes p script records)
    (hf : Passes p (f (script.run records).1) (script.run records).2) :
    Passes p (script.bind f) records := by
  induction script generalizing records with
  | done result => exact hf
  | read key next ih =>
    obtain ⟨hfirst, hrest⟩ := passes_iff_step.1 h
    exact passes_iff_step.2 ⟨hfirst, ih _ hrest hf⟩
  | write key value next ih =>
    obtain ⟨hfirst, hrest⟩ := passes_iff_step.1 h
    exact passes_iff_step.2 ⟨hfirst, ih hrest hf⟩
  | claim key value next ih =>
    obtain ⟨hfirst, hrest⟩ := passes_iff_step.1 h
    refine passes_iff_step.2 ⟨hfirst, ?_⟩
    rw [Script.run] at hf
    simp only [step] at hrest
    simp only [Script.bind, step]
    split at hf
    case isTrue hheld =>
      rw [if_pos hheld] at hrest ⊢
      exact ih false hrest hf
    case isFalse hfree =>
      rw [if_neg hfree] at hrest ⊢
      exact ih true hrest hf
  | remove key next ih =>
    obtain ⟨hfirst, hrest⟩ := passes_iff_step.1 h
    exact passes_iff_step.2 ⟨hfirst, ih hrest hf⟩

/-- A confined script passes through stores with a property that none of its writes can end. -/
theorem Confined.passes {reads writes : String → Prop} {ends : α → Prop}
    (h : script.Confined reads writes ends)
    (hwrites : ∀ key value records, writes key → p records → p (records.insert key value))
    (hp : p records) : Passes p script records := by
  induction script generalizing records with
  | done result => exact passes_done hp
  | read key next ih => exact passes_iff_step.2 ⟨hp, ih _ (h.2 _) hp⟩
  | write key value next ih =>
    exact passes_iff_step.2 ⟨hp, ih h.2 (hwrites key value records h.1 hp)⟩
  | claim | remove => exact h.elim

end Script

namespace Attempt

variable {α β : Type} {p : Records → Prop} {attempt : Attempt α} {records : Records}

/-- The store has a property wherever the attempt is cut off. -/
def Passes (p : Records → Prop) (attempt : Attempt α) (records : Records) : Prop :=
  Script.Passes p (ExceptT.run attempt) records

theorem Passes.run (h : attempt.Passes p records) : p (attempt.run records).2 :=
  Script.Passes.run h

/-- What comes behind an attempt has to be looked at only where the attempt goes through. -/
theorem Passes.bind {f : α → Attempt β} (h : attempt.Passes p records)
    (hf : ∀ value after, attempt.run records = (.ok value, after) → (f value).Passes p after) :
    (attempt >>= f).Passes p records := by
  apply Script.Passes.bind h
  have hrun := h.run
  change Script.Passes p (ExceptT.bindCont f (attempt.run records).1) (attempt.run records).2
  generalize hresult : attempt.run records = result at hf hrun
  obtain ⟨outcome, after⟩ := result
  cases outcome with
  | ok value => exact hf value after rfl
  | error failure => exact Script.passes_done hrun

theorem Passes.map (h : attempt.Passes p records) (f : α → β) :
    (f <$> attempt).Passes p records := by
  rw [← bind_pure_comp]
  refine h.bind fun value after hrun => Script.passes_done ?_
  have hafter := h.run
  rwa [hrun] at hafter

/-- A lock is taken before an attempt is made, and given back afterwards. -/
theorem passes_locked {key : String} (hp : p records)
    (hclaim : ∀ records value, p records → p (records.insert key value))
    (hremove : ∀ records, p records → p (records.erase key))
    (h : ∀ records, p records → attempt.Passes p records) :
    (locked key attempt).Passes p records := by
  have hstep : Script.step (ExceptT.run (locked key attempt)) records =
      if records.contains key then (.done (.error .storyBusy), records)
      else ((ExceptT.run attempt).bind fun outcome => .remove key (.done outcome),
        records.insert key "1") := rfl
  refine Script.passes_iff_step.2 ⟨hp, ?_⟩
  rw [hstep]
  split
  case isTrue => exact Script.passes_done hp
  case isFalse =>
    have hclaimed := hclaim records "1" hp
    have hattempt := h _ hclaimed
    apply Script.Passes.bind hattempt
    refine Script.passes_iff_step.2 ⟨hattempt.run, ?_⟩
    exact Script.passes_done (hremove _ hattempt.run)

end Attempt

end Narrative
