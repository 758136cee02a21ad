import Mathlib.Data.List.Induction
import Mathlib.Data.List.Nodup
import Mathlib.Order.Basic

/-!
# Lists that are read and written back

Clients add themselves to a list by reading it and writing it back with one more entry.  Nothing
keeps another client from writing the list in between, and then the entries that it has made are
lost.  Everybody who has written is in the list exactly if no client has overtaken another one.
-/

namespace Narrative

variable {ι : Type} [DecidableEq ι]

/-! ## Schedules -/

/-- One client writes the list, with the last of its four commands, after another one has read it,
with the third of its commands, and before that one writes it. -/
def Overtakes (schedule : List ι) (first second : ι) : Prop :=
  first ≠ second ∧ ∃ n < schedule.length, schedule[n]? = some first ∧
    (schedule.take n).count first = 3 ∧ (schedule.take n).count second = 3

instance (schedule : List ι) (first second : ι) : Decidable (Overtakes schedule first second) :=
  inferInstanceAs (Decidable (_ ∧ _))

section Schedules

variable {schedule : List ι} {first second next : ι}

theorem overtakes_append_singleton : Overtakes (schedule ++ [next]) first second ↔
    Overtakes schedule first second ∨ first ≠ second ∧ first = next ∧
      schedule.count first = 3 ∧ schedule.count second = 3 := by
  constructor
  · rintro ⟨hne, n, hn, hnext, hfirst, hsecond⟩
    rw [List.length_append, List.length_singleton, Nat.lt_succ_iff_lt_or_eq] at hn
    rcases hn with hn | rfl
    · rw [List.getElem?_append_left hn] at hnext
      rw [List.take_append_of_le_length (Nat.le_of_lt hn)] at hfirst hsecond
      exact Or.inl ⟨hne, n, hn, hnext, hfirst, hsecond⟩
    · rw [List.take_left] at hfirst hsecond
      simp only [List.getElem?_concat_length, Option.some.injEq] at hnext
      exact Or.inr ⟨hne, hnext.symm, hfirst, hsecond⟩
  · rintro (⟨hne, n, hn, hnext, hfirst, hsecond⟩ | ⟨hne, rfl, hfirst, hsecond⟩)
    · refine ⟨hne, n, by simp only [List.length_append]; omega, ?_⟩
      rw [List.getElem?_append_left hn, List.take_append_of_le_length (Nat.le_of_lt hn)]
      exact ⟨hnext, hfirst, hsecond⟩
    · refine ⟨hne, schedule.length, by simp, List.getElem?_concat_length, ?_⟩
      rw [List.take_left]
      exact ⟨hfirst, hsecond⟩

/-- Who overtakes has written, and who is overtaken has read. -/
theorem Overtakes.count (h : Overtakes schedule first second) :
    4 ≤ schedule.count first ∧ 3 ≤ schedule.count second := by
  obtain ⟨-, n, -, hnext, hfirst, hsecond⟩ := h
  have hcount (i : ι) : (schedule.take (n + 1)).count i ≤ schedule.count i :=
    (List.take_sublist _ _).count_le i
  have htake : schedule.take (n + 1) = schedule.take n ++ [first] := by
    rw [List.take_add_one, hnext, Option.toList_some]
  constructor
  · have hfour := hcount first
    rw [htake, List.count_append, hfirst, List.count_singleton_self] at hfour
    exact hfour
  · have hthree := hcount second
    rw [htake, List.count_append, hsecond] at hthree
    omega

end Schedules

/-! ## Ledgers -/

/-- How far the clients are. -/
structure Ledger (ι : Type) where
  /-- How many commands a client has carried out. -/
  steps : ι → ℕ
  /-- The clients in the list. -/
  entered : List ι
  /-- The clients that a client has found in the list. -/
  found : ι → List ι

namespace Ledger

/-- Nobody has begun. -/
def start : Ledger ι := ⟨fun _ => 0, [], fun _ => []⟩

/-- A client carries out its next command: the third one reads the list, the fourth one writes it
back. -/
def next (ledger : Ledger ι) (i : ι) : Ledger ι where
  steps := Function.update ledger.steps i (ledger.steps i + 1)
  entered := if ledger.steps i = 3 then ledger.found i ++ [i] else ledger.entered
  found :=
    if ledger.steps i = 2 then Function.update ledger.found i ledger.entered else ledger.found

/-- The clients carry out their commands in the order of a schedule. -/
def play (schedule : List ι) : Ledger ι := schedule.foldl next start

/-- The client has read the list and not written it back yet. -/
def Pending (ledger : Ledger ι) (i : ι) : Prop := ledger.steps i = 3

/-- The client has written the list. -/
def Written (ledger : Ledger ι) (i : ι) : Prop := 4 ≤ ledger.steps i

/-- No client is twice in a list of clients that have all written. -/
structure Genuine (ledger : Ledger ι) (clients : List ι) : Prop where
  nodup : clients.Nodup
  written : ∀ i ∈ clients, ledger.Written i

/-- What a client has found is what is in the list until the client is overtaken, and does not
include those that have overtaken it.  All who have written are in the list exactly if none of them
was overtaken. -/
structure Sound (schedule : List ι) (ledger : Ledger ι) : Prop where
  steps : ∀ i, ledger.steps i = schedule.count i
  entered : ledger.Genuine ledger.entered
  found : ∀ i, ledger.Pending i → ledger.Genuine (ledger.found i)
  lost : ∀ i, ledger.Pending i → ∀ j, Overtakes schedule j i → j ∉ ledger.found i
  current : ∀ i, ledger.Pending i → (∀ j, ¬Overtakes schedule j i) →
    ledger.found i = ledger.entered
  complete : (∀ i, ledger.Written i → i ∈ ledger.entered) ↔
    ∀ i, ledger.Written i → ∀ j, ¬Overtakes schedule j i

variable {schedule : List ι} {ledger : Ledger ι} {i j : ι}

theorem steps_next_self (ledger : Ledger ι) (i : ι) :
    (ledger.next i).steps i = ledger.steps i + 1 := Function.update_self ..

theorem steps_next_of_ne (h : j ≠ i) : (ledger.next i).steps j = ledger.steps j :=
  Function.update_of_ne h ..

theorem written_next : (ledger.next i).Written j ↔ ledger.Written j ∨ j = i ∧ ledger.Pending i := by
  by_cases hj : j = i
  · subst hj
    simp only [Written, steps_next_self, Pending, true_and]
    omega
  · rw [Written, steps_next_of_ne hj]
    simp [Written, hj]

theorem pending_next :
    (ledger.next i).Pending j ↔ j ≠ i ∧ ledger.Pending j ∨ j = i ∧ ledger.steps i = 2 := by
  by_cases hj : j = i
  · subst hj
    rw [Pending, steps_next_self]
    simp
  · rw [Pending, steps_next_of_ne hj]
    simp [Pending, hj]

theorem entered_next_of_pending (h : ledger.Pending i) :
    (ledger.next i).entered = ledger.found i ++ [i] := if_pos h

theorem entered_next_of_not_pending (h : ¬ledger.Pending i) :
    (ledger.next i).entered = ledger.entered := if_neg h

theorem found_next_self (h : ledger.steps i = 2) : (ledger.next i).found i = ledger.entered := by
  simp only [next, if_pos h, Function.update_self]

theorem found_next_of_ne (h : j ≠ i) : (ledger.next i).found j = ledger.found j := by
  simp only [next]
  split
  · exact Function.update_of_ne h ..
  · rfl

theorem le_steps_of_le_next {n : ℕ} (h : n ≤ (ledger.next i).steps j) (hi : n ≤ ledger.steps i) :
    n ≤ ledger.steps j := by
  by_cases hj : j = i
  · rwa [hj]
  · rwa [steps_next_of_ne hj] at h

theorem Genuine.next {clients : List ι} (h : ledger.Genuine clients) (i : ι) :
    (ledger.next i).Genuine clients :=
  ⟨h.nodup, fun j hj => written_next.2 (Or.inl (h.written j hj))⟩

omit [DecidableEq ι] in
theorem Genuine.notMem {clients : List ι} (h : ledger.Genuine clients) (hi : ledger.Pending i) :
    i ∉ clients := by
  intro hmem
  have hwritten := h.written i hmem
  rw [Written, hi] at hwritten
  omega

theorem sound_start : Sound [] (start : Ledger ι) where
  steps _ := rfl
  entered := ⟨List.nodup_nil, fun _ h => nomatch h⟩
  found _ h := nomatch h
  lost _ h := nomatch h
  current _ h := nomatch h
  complete := by simp [start, Written]

namespace Sound

theorem steps_next (h : Sound schedule ledger) (i j : ι) :
    (ledger.next i).steps j = (schedule ++ [i]).count j := by
  rw [List.count_append, ← h.steps]
  by_cases hj : j = i
  · rw [hj, steps_next_self, List.count_singleton_self]
  · rw [steps_next_of_ne hj, List.count_singleton, beq_false_of_ne (Ne.symm hj)]
    rfl

/-- The next command overtakes a client that has read if it writes, and nobody else. -/
theorem overtakes_next (h : Sound schedule ledger) {k : ι} : Overtakes (schedule ++ [i]) k j ↔
    Overtakes schedule k j ∨ k ≠ j ∧ k = i ∧ ledger.Pending k ∧ ledger.Pending j := by
  rw [overtakes_append_singleton, Pending, Pending, h.steps, h.steps]

/-- A client that does not write leaves the list as it is.  If it reads, it finds what is there. -/
theorem next_of_not_pending (h : Sound schedule ledger) (hi : ¬ledger.Pending i) :
    Sound (schedule ++ [i]) (ledger.next i) := by
  have hentered := entered_next_of_not_pending hi
  have hovertakes {j k : ι} : Overtakes (schedule ++ [i]) k j ↔ Overtakes schedule k j := by
    rw [h.overtakes_next, or_iff_left]
    rintro ⟨-, rfl, hk, -⟩
    exact hi hk
  have hwritten (j : ι) : (ledger.next i).Written j ↔ ledger.Written j := by
    rw [written_next, or_iff_left]
    exact fun hj => hi hj.2
  have hfound {j : ι} (hj : (ledger.next i).Pending j) :
      ledger.Pending j ∧ (ledger.next i).found j = ledger.found j ∨
        (∀ k, ¬Overtakes schedule k j) ∧ (ledger.next i).found j = ledger.entered := by
    rcases pending_next.1 hj with ⟨hne, hpending⟩ | ⟨rfl, hread⟩
    · exact Or.inl ⟨hpending, found_next_of_ne hne⟩
    · -- A client that has only just read has not been overtaken.
      refine Or.inr ⟨fun k hk => ?_, found_next_self hread⟩
      have hcount := hk.count.2
      rw [← h.steps, hread] at hcount
      omega
  refine ⟨h.steps_next i, ?_, fun j hj => ?_, fun j hj k hk => ?_, fun j hj hnone => ?_, ?_⟩
  · rw [hentered]
    exact h.entered.next i
  · rcases hfound hj with ⟨hpending, heq⟩ | ⟨-, heq⟩
    · exact heq ▸ (h.found j hpending).next i
    · exact heq ▸ h.entered.next i
  · rw [hovertakes] at hk
    rcases hfound hj with ⟨hpending, heq⟩ | ⟨hnone, -⟩
    · exact heq ▸ h.lost j hpending k hk
    · exact absurd hk (hnone k)
  · rw [hentered]
    rcases hfound hj with ⟨hpending, heq⟩ | ⟨-, heq⟩
    · exact heq.trans (h.current j hpending fun k hk => hnone k (hovertakes.2 hk))
    · exact heq
  · simp only [hentered, hwritten, hovertakes]
    exact h.complete

/-- After a client has written, all who have are in the list exactly if none of them was overtaken,
the client included. -/
theorem complete_write (h : Sound schedule ledger) (hi : ledger.Pending i) :
    (∀ j, (ledger.next i).Written j → j ∈ ledger.found i ++ [i]) ↔
      (∀ j, ledger.Written j → ∀ k, ¬Overtakes schedule k j) ∧ ∀ k, ¬Overtakes schedule k i := by
  rw [← h.complete]
  by_cases hcurrent : ∀ k, ¬Overtakes schedule k i
  · rw [h.current i hi hcurrent]
    simp only [List.mem_append, List.mem_singleton, written_next]
    refine ⟨fun hmem => ⟨fun j hj => (hmem j (Or.inl hj)).resolve_right ?_, hcurrent⟩,
      fun hmem j hj => hj.imp (hmem.1 j) And.left⟩
    rintro rfl
    rw [Written, hi] at hj
    omega
  · refine iff_of_false (fun hmem => ?_) fun hmem => hcurrent hmem.2
    simp only [not_forall, not_not] at hcurrent
    obtain ⟨k, hk⟩ := hcurrent
    -- Who has overtaken this client was not found by it and is not this client.
    have hwritten : ledger.Written k := hk.count.1.trans_eq (h.steps k).symm
    rcases List.mem_append.1 (hmem k (written_next.2 (Or.inl hwritten))) with hin | hlast
    · exact h.lost i hi k hk hin
    · exact hk.1 (List.mem_singleton.1 hlast)

/-- A client that writes the list back adds itself to what it has found.  Whoever has written since
is overwritten. -/
theorem next_of_pending (h : Sound schedule ledger) (hi : ledger.Pending i) :
    Sound (schedule ++ [i]) (ledger.next i) := by
  have hentered := entered_next_of_pending hi
  have hpending {j : ι} (hj : (ledger.next i).Pending j) : j ≠ i ∧ ledger.Pending j := by
    refine (pending_next.1 hj).resolve_right ?_
    rintro ⟨-, hread⟩
    exact absurd (hi.symm.trans hread) (by decide)
  have hcomplete : (∀ j, (ledger.next i).Written j → ∀ k, ¬Overtakes (schedule ++ [i]) k j) ↔
      (∀ j, ledger.Written j → ∀ k, ¬Overtakes schedule k j) ∧ ∀ k, ¬Overtakes schedule k i := by
    -- Nobody who has written by now, this client included, is overtaken by it.
    have hovertakes {j : ι} (hj : (ledger.next i).Written j) (k : ι) :
        Overtakes (schedule ++ [i]) k j ↔ Overtakes schedule k j := by
      rw [h.overtakes_next, or_iff_left]
      rintro ⟨hne, rfl, -, hpending⟩
      rcases written_next.1 hj with hwritten | ⟨heq, -⟩
      · rw [Written, hpending] at hwritten
        omega
      · exact hne heq.symm
    constructor
    · intro hnone
      have hnone {j : ι} (hj : (ledger.next i).Written j) (k : ι) : ¬Overtakes schedule k j :=
        fun hk => hnone j hj k ((hovertakes hj k).2 hk)
      exact ⟨fun j hj => hnone (written_next.2 (Or.inl hj)),
        hnone (written_next.2 (Or.inr ⟨rfl, hi⟩))⟩
    · rintro ⟨hothers, hself⟩ j hj k hk
      rw [hovertakes hj] at hk
      rcases written_next.1 hj with hwritten | ⟨rfl, -⟩
      · exact hothers j hwritten k hk
      · exact hself k hk
  refine ⟨h.steps_next i, ?_, fun j hj => ?_, fun j hj k hk => ?_, fun j hj hnone => ?_, ?_⟩
  · rw [hentered]
    refine ⟨List.nodup_append.2 ⟨(h.found i hi).nodup, List.nodup_singleton i, ?_⟩, ?_⟩
    · intro j hj k hk heq
      rw [heq, List.mem_singleton.1 hk] at hj
      exact (h.found i hi).notMem hi hj
    · intro j hj
      rw [written_next]
      exact (List.mem_append.1 hj).imp ((h.found i hi).written j) fun h =>
        ⟨List.mem_singleton.1 h, hi⟩
  · rw [found_next_of_ne (hpending hj).1]
    exact (h.found j (hpending hj).2).next i
  · rw [found_next_of_ne (hpending hj).1]
    rcases h.overtakes_next.1 hk with hk | ⟨-, rfl, -⟩
    · exact h.lost j (hpending hj).2 k hk
    · exact (h.found j (hpending hj).2).notMem hi
  · obtain ⟨hne, hj⟩ := hpending hj
    exact absurd (h.overtakes_next.2 (Or.inr ⟨hne.symm, rfl, hi, hj⟩)) (hnone i)
  · rw [hentered, hcomplete]
    exact h.complete_write hi

theorem next (h : Sound schedule ledger) (i : ι) : Sound (schedule ++ [i]) (ledger.next i) := by
  by_cases hi : ledger.Pending i
  · exact h.next_of_pending hi
  · exact h.next_of_not_pending hi

end Sound

theorem play_append_singleton (schedule : List ι) (i : ι) :
    play (schedule ++ [i]) = (play schedule).next i := by
  rw [play, List.foldl_append]
  rfl

/-- The ledger is sound after every schedule. -/
theorem sound_play (schedule : List ι) : Sound schedule (play schedule) := by
  induction schedule using List.reverseRecOn with
  | nil => exact sound_start
  | append_singleton schedule i ih =>
    rw [play_append_singleton]
    exact ih.next i

end Ledger

end Narrative
