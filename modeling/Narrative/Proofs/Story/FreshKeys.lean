import Mathlib.Data.List.Perm.Subperm
import Mathlib.Tactic.Ring
import Narrative.Proofs.Table
import Narrative.Story.Edit

/-!
# Fresh keys

The key of a created node carries the first number from the clock on that no key of the graph
carries.  Different numbers have different keys, so no more numbers are taken than there are nodes,
and a search of that many steps ends at a free one whatever keys the graph has.
-/

namespace Narrative

/-! ## Numbers as texts -/

theorem repr_injective : Function.Injective Nat.repr := by
  intro m n h
  rw [Nat.repr_eq_ofList_toDigits, Nat.repr_eq_ofList_toDigits, String.ofList_inj] at h
  calc
    m = Nat.ofDigitChars 10 (Nat.toDigits 10 m) 0 := Nat.ofDigitChars_ten_toDigits.symm
    _ = Nat.ofDigitChars 10 (Nat.toDigits 10 n) 0 := by rw [h]
    _ = n := Nat.ofDigitChars_ten_toDigits

/-- A text with a sign is not that of a natural number. -/
theorem minus_append_ne_repr (text : String) (n : ℕ) : "-" ++ text ≠ n.repr := by
  intro h
  have hmem : '-' ∈ Nat.toDigits 10 n := by
    rw [Nat.repr_eq_ofList_toDigits] at h
    rw [← String.toList_ofList (l := Nat.toDigits 10 n), ← h]
    simp
  exact absurd (Nat.isDigit_of_mem_toDigits (by decide) (by decide) hmem) (by decide)

theorem toString_injective : Function.Injective (toString : ℤ → String) := by
  intro m n h
  rw [Int.toString_eq_repr, Int.toString_eq_repr, Int.repr_eq_if, Int.repr_eq_if] at h
  by_cases hm : 0 ≤ m <;> by_cases hn : 0 ≤ n
  · rw [if_pos hm, if_pos hn] at h
    have hnat := repr_injective h
    omega
  · rw [if_pos hm, if_neg hn] at h
    exact absurd h.symm (minus_append_ne_repr _ _)
  · rw [if_neg hm, if_pos hn] at h
    exact absurd h (minus_append_ne_repr _ _)
  · rw [if_neg hm, if_neg hn, String.append_right_inj] at h
    have hnat := repr_injective h
    omega

namespace Graph

theorem numberedKey_injective : Function.Injective numberedKey := fun _ _ h =>
  toString_injective ((String.append_right_inj "node_").1 h)

/-! ## The search -/

/-- The search as it goes when nothing bounds it: past numbers that are taken to one that is not. -/
inductive Finds (taken : ℤ → Bool) : ℤ → ℤ → Prop where
  | here {first : ℤ} (h : taken first = false) : Finds taken first first
  | further {first number : ℤ} (h : taken first) (rest : Finds taken (first + 1) number) :
      Finds taken first number

/-- The search ends at the least number from the first one on that is not taken. -/
theorem Finds.isLeast {taken : ℤ → Bool} {first number : ℤ} (h : Finds taken first number) :
    IsLeast {n | first ≤ n ∧ taken n = false} number := by
  induction h with
  | here h => exact ⟨⟨le_rfl, h⟩, fun _ hother => hother.1⟩
  | further h rest ih =>
    obtain ⟨⟨hle, hfree⟩, hleast⟩ := ih
    refine ⟨⟨by omega, hfree⟩, fun other ⟨hother, hnot⟩ => hleast ⟨?_, hnot⟩⟩
    rcases eq_or_lt_of_le hother with rfl | hnext
    · exact absurd h (by simpa using hnot)
    · exact hnext

/-- With steps enough to reach a number that is not taken, the bound does not cut the search off. -/
theorem finds_freeNumber {taken : ℤ → Bool} {step steps : ℕ} {first : ℤ} (hle : step ≤ steps)
    (hfree : taken (first + step) = false) : Finds taken first (freeNumber taken steps first) := by
  induction steps generalizing step first with
  | zero =>
    obtain rfl := Nat.le_zero.1 hle
    exact .here (by simpa using hfree)
  | succ steps ih =>
    rw [freeNumber]
    split
    case isFalse hfirst => exact .here (by simpa using hfirst)
    case isTrue hfirst =>
      -- The first number is taken, so the free one lies behind it.
      obtain _ | step := step
      · exact absurd hfirst (by simpa using hfree)
      · refine .further hfirst (ih (Nat.le_of_succ_le_succ hle) ?_)
        rwa [Nat.cast_succ, add_comm (step : ℤ), ← add_assoc] at hfree

/-- Of more numbers in a row than there are nodes, one is free. -/
theorem exists_free_number (graph : Graph) (first : ℤ) :
    ∃ step ≤ graph.nodes.entries.length, ¬ graph.hasNode (numberedKey (first + step)) := by
  by_contra hall
  push Not at hall
  let keys := (List.range (graph.nodes.entries.length + 1)).map fun step : ℕ =>
    numberedKey (first + step)
  have hnodup : keys.Nodup := by
    apply List.nodup_range.map
    intro m n h
    have hsum := numberedKey_injective h
    omega
  have hsubset : keys ⊆ graph.nodes.keys := by
    intro key hkey
    obtain ⟨step, hstep, rfl⟩ := List.mem_map.1 hkey
    have hle : step ≤ graph.nodes.entries.length := Nat.lt_succ_iff.1 (List.mem_range.1 hstep)
    exact Table.contains_iff_mem_keys.1 (hall step hle)
  have hlength := (List.subperm_of_subset hnodup hsubset).length_le
  simp [keys, Table.keys] at hlength

/-- The key of a created node carries the number that the search for a free one ends at. -/
theorem exists_freshKey (graph : Graph) (millis : ℤ) :
    ∃ number, graph.freshKey millis = numberedKey number ∧
      Finds (fun number => graph.hasNode (numberedKey number)) millis number := by
  obtain ⟨step, hstep, hfree⟩ := graph.exists_free_number millis
  exact ⟨_, rfl, finds_freeNumber hstep (Bool.eq_false_iff.2 hfree)⟩

theorem hasNode_freshKey (graph : Graph) (millis : ℤ) :
    ¬ graph.hasNode (graph.freshKey millis) := by
  obtain ⟨number, hkey, hfinds⟩ := graph.exists_freshKey millis
  rw [hkey, hfinds.isLeast.1.2]
  exact Bool.false_ne_true

end Graph

end Narrative
