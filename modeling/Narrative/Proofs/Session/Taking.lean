import Narrative.Proofs.Playback.Choosing
import Narrative.Proofs.Session.Sound

/-!
# Taking a choice after any checks

Whatever checks a requested choice has to pass, in whatever order and however often, a refused
request leaves the session as it was, and the failure is that of the first check that refuses.  A
list of checks that does not look at the index leaves a wrong one to the list of choices, where a
negative index counts from the end.  A request that goes through takes the current node's own choice
at that position.
-/

namespace Narrative

/-- An index stands for a position counted from the beginning, or from the end if it is negative. -/
theorem itemAt?_eq_some {α : Type} {items : List α} {index : ℤ} {item : α} :
    itemAt? items index = some item ↔
      ∃ n : ℕ, (index = n ∨ index = n - items.length) ∧ items[n]? = some item := by
  cases index with
  | ofNat m =>
    constructor
    · intro h
      exact ⟨m, Or.inl rfl, h⟩
    · rintro ⟨n, hn, hitem⟩
      have hlt : n < items.length := (List.getElem?_eq_some_iff.1 hitem).1
      simp only [Int.ofNat_eq_natCast] at hn
      have hmn : m = n := by omega
      rwa [hmn]
  | negSucc m =>
    simp only [itemAt?]
    constructor
    · intro h
      split at h
      case isTrue hm => exact ⟨items.length - 1 - m, Or.inr (by omega), h⟩
      case isFalse => exact absurd h (by simp)
    · rintro ⟨n, hn, hitem⟩
      have hlt : n < items.length := (List.getElem?_eq_some_iff.1 hitem).1
      have hmn : items.length - 1 - m = n := by omega
      rw [if_pos (by omega), hmn]
      exact hitem

theorem itemAt?_map {α β : Type} (f : α → β) (items : List α) (index : ℤ) :
    itemAt? (items.map f) index = (itemAt? items index).map f := by
  cases index with
  | ofNat m => exact List.getElem?_map
  | negSucc m =>
    simp only [itemAt?, List.length_map, List.getElem?_map]
    split <;> rfl

/-- Why a check refuses an index. -/
inductive ChoiceCheck.Refuses (player : Player) (index : ℤ) : ChoiceCheck → Failure → Prop where
  | nodeExists (h : player.node? = none) :
      Refuses player index .nodeExists (.nodeNotFound player.place.nodeId)
  | indexInRange (h : ¬(0 ≤ index ∧ index < player.choices.length)) :
      Refuses player index .indexInRange
        (.choiceOutOfRange index player.place.nodeId player.choices.length)
  | available {choice : AvailableChoice} (h : itemAt? player.choices index = some choice)
      (hblocked : choice.available = false) :
      Refuses player index .available (.choiceUnavailable choice.text)
  | noChoice (h : itemAt? player.choices index = none) :
      Refuses player index .available .noChoice

namespace Player

variable {player : Player} {checks : List ChoiceCheck} {index : ℤ} {failure : Failure}

theorem run_eq_error {check : ChoiceCheck} :
    check.run player index = .error failure ↔ check.Refuses player index failure := by
  constructor
  · intro h
    cases check with
    | nodeExists =>
      rw [ChoiceCheck.run] at h
      split at h
      case isTrue => exact absurd h (by simp)
      case isFalse hnode =>
        rw [← Except.error.inj h]
        exact .nodeExists (by simpa using hnode)
    | indexInRange =>
      rw [ChoiceCheck.run] at h
      split at h
      case isTrue => exact absurd h (by simp)
      case isFalse hindex =>
        rw [← Except.error.inj h]
        exact .indexInRange hindex
    | available =>
      rw [ChoiceCheck.run] at h
      cases hitem : itemAt? player.choices index with
      | none =>
        simp only [hitem] at h
        rw [← Except.error.inj h]
        exact .noChoice hitem
      | some choice =>
        simp only [hitem] at h
        split at h
        case isTrue => exact absurd h (by simp)
        case isFalse hblocked =>
          rw [← Except.error.inj h]
          exact .available hitem (by simpa using hblocked)
  · intro h
    cases h with
    | nodeExists h => rw [ChoiceCheck.run, h]; rfl
    | indexInRange h => rw [ChoiceCheck.run, if_neg h]
    | available h hblocked => simp only [ChoiceCheck.run, h, hblocked, Bool.false_eq_true, if_false]
    | noChoice h => simp only [ChoiceCheck.run, h]

/-- Why checks refuse an index: the first check that does not pass decides, and where all pass there
may still be no choice at the index. -/
inductive Refused (player : Player) (checks : List ChoiceCheck) (index : ℤ) :
    Failure → Prop where
  | check {failure : Failure} (before : List ChoiceCheck) (check : ChoiceCheck)
      (after : List ChoiceCheck) (hchecks : checks = before ++ check :: after)
      (hbefore : ∀ earlier ∈ before, earlier.run player index = .ok ())
      (hcheck : check.Refuses player index failure) : Refused player checks index failure
  | noChoice (hchecks : ∀ check ∈ checks, check.run player index = .ok ())
      (hitem : itemAt? player.choices index = none) : Refused player checks index .noChoice

theorem forM_run_eq_error :
    (checks.forM fun check => check.run player index) = .error failure ↔
      ∃ before check after, checks = before ++ check :: after ∧
        (∀ earlier ∈ before, earlier.run player index = .ok ()) ∧
        check.run player index = .error failure := by
  induction checks with
  | nil => simp [pure, Except.pure]
  | cons check rest ih =>
    change (check.run player index).bind (fun _ => rest.forM fun check => check.run player index) =
      .error failure ↔ _
    rw [Except.bind_eq_error, ih]
    constructor
    · rintro (hcheck | ⟨⟨⟩, hcheck, before, found, after, rfl, hbefore, hfound⟩)
      · exact ⟨[], check, rest, rfl, by simp, hcheck⟩
      · exact ⟨check :: before, found, after, rfl, List.forall_mem_cons.2 ⟨hcheck, hbefore⟩,
          hfound⟩
    · rintro ⟨before, found, after, hchecks, hbefore, hfound⟩
      cases before with
      | nil =>
        rw [List.nil_append, List.cons.injEq] at hchecks
        rw [hchecks.1]
        exact Or.inl hfound
      | cons first before =>
        rw [List.cons_append, List.cons.injEq] at hchecks
        rw [hchecks.1]
        rw [List.forall_mem_cons] at hbefore
        exact Or.inr ⟨(), hbefore.1, before, found, after, hchecks.2, hbefore.2, hfound⟩

theorem checked_eq_error :
    player.checked checks index = .error failure ↔ player.Refused checks index failure := by
  rw [checked]
  constructor
  · intro h
    cases hpass : checks.forM fun check => check.run player index with
    | error other =>
      have hfailure : other = failure := by simpa [hpass, Bind.bind, Except.bind] using h
      rw [hfailure, forM_run_eq_error] at hpass
      obtain ⟨before, check, after, hchecks, hbefore, hcheck⟩ := hpass
      exact .check before check after hchecks hbefore (run_eq_error.1 hcheck)
    | ok =>
      cases hitem : itemAt? player.choices index with
      | some choice =>
        exact absurd h (by simp [hpass, hitem, Bind.bind, Except.bind, pure, Except.pure])
      | none =>
        rw [hpass, hitem] at h
        rw [← Except.error.inj h]
        exact .noChoice (forM_run_eq_ok.1 hpass) hitem
  · intro h
    cases h with
    | check before check after hchecks hbefore hcheck =>
      rw [forM_run_eq_error.2 ⟨before, check, after, hchecks, hbefore, run_eq_error.2 hcheck⟩]
      rfl
    | noChoice hpass hnone =>
      rw [forM_run_eq_ok.2 hpass, hnone]
      rfl

/-- What is offered at an index is the current node's own choice there. -/
theorem itemAt?_choices {offered : AvailableChoice} :
    itemAt? player.choices index = some offered ↔
      ∃ node choice, player.node? = some node ∧ itemAt? node.choices index = some choice ∧
        offered = player.annotate choice := by
  unfold choices
  cases player.node? with
  | none =>
    have hnone : itemAt? ([] : List AvailableChoice) index = none := by
      cases index <;> rfl
    simp [hnone]
  | some node =>
    rw [itemAt?_map, Option.map_eq_some_iff]
    simp only [Option.some.injEq, exists_and_left, exists_eq_left', eq_comm (a := offered)]

/-- The usual checks let an index through exactly if the current node has a choice at it, counted
from the beginning, whose condition holds. -/
theorem exists_checked_all :
    (∃ offered, player.checked ChoiceCheck.all index = .ok offered) ↔
      ∃ node, player.node? = some node ∧ 0 ≤ index ∧ index < node.choices.length ∧
        ∃ choice, node.choices[index.toNat]? = some choice ∧
          player.store.satisfies choice.condition := by
  simp only [checked_all_eq_ok]
  constructor
  · rintro ⟨offered, hindex, hoffered, havailable⟩
    rw [← itemAt?_of_nonneg _ hindex, itemAt?_choices] at hoffered
    obtain ⟨node, choice, hnode, hchoice, rfl⟩ := hoffered
    rw [itemAt?_of_nonneg _ hindex] at hchoice
    have hlt : index.toNat < node.choices.length := (List.getElem?_eq_some_iff.1 hchoice).1
    exact ⟨node, hnode, hindex, by omega, choice, hchoice, havailable⟩
  · rintro ⟨node, hnode, hindex, -, choice, hchoice, hsatisfied⟩
    refine ⟨player.annotate choice, hindex, ?_, hsatisfied⟩
    rw [← itemAt?_of_nonneg _ hindex, itemAt?_choices]
    exact ⟨node, choice, hnode, (itemAt?_of_nonneg _ hindex).trans hchoice, rfl⟩

end Player

/-! ## Taking -/

namespace Session

variable {session after : Session} {checks : List ChoiceCheck} {now : Instant} {time index : ℤ}

theorem execute_of_millis (hnow : now.millis = .ok time) (session : Session) (choice : Choice) :
    session.execute now choice =
      (.ok (), session.withPlayer (session.player.execute time choice)) := by
  simp only [execute, hnow]

theorem take_of_refused {failure : Failure} (h : session.player.Refused checks index failure)
    (now : Instant) : session.take checks now index = (.error failure, session) := by
  rw [take, Player.checked_eq_error.2 h]

theorem take_of_checked (hnow : now.millis = .ok time) {offered : AvailableChoice}
    (h : session.player.checked checks index = .ok offered) :
    session.take checks now index = (.ok offered, (session.execute now offered.toChoice).2) := by
  rw [take, h]
  simp only [execute_of_millis hnow]
  rfl

theorem take_eq_error (hnow : now.millis = .ok time) {failure : Failure} :
    session.take checks now index = (.error failure, after) ↔
      session.player.Refused checks index failure ∧ after = session := by
  constructor
  · intro h
    cases hchecked : session.player.checked checks index with
    | error other =>
      rw [take_of_refused (Player.checked_eq_error.1 hchecked)] at h
      obtain ⟨hfailure, hafter⟩ := Prod.mk.inj h
      exact ⟨Player.checked_eq_error.1 (Except.error.inj hfailure ▸ hchecked), hafter.symm⟩
    | ok offered =>
      rw [take_of_checked hnow hchecked] at h
      exact absurd (Prod.mk.inj h).1 (by simp)
  · rintro ⟨hrefused, rfl⟩
    exact take_of_refused hrefused now

theorem take_eq_ok (hnow : now.millis = .ok time) {offered : AvailableChoice} :
    session.take checks now index = (.ok offered, after) ↔
      session.player.checked checks index = .ok offered ∧
        session.execute now offered.toChoice = (.ok (), after) := by
  cases hchecked : session.player.checked checks index with
  | error failure =>
    rw [take_of_refused (Player.checked_eq_error.1 hchecked)]
    simp
  | ok found =>
    rw [take_of_checked hnow hchecked]
    simp only [Prod.mk.injEq, Except.ok.injEq]
    refine and_congr_right ?_
    rintro rfl
    simp [execute_of_millis hnow]

/-- A request for a choice is refused as its checks say, and then the session is as it was; or it
goes through, and then the current node's own choice at the position has been carried out and is
answered as it was offered.  The usual checks let through the choices that can be taken and no
others. -/
theorem taken_or_untouched (session : Session) (checks : List ChoiceCheck)
    (hnow : now.millis = .ok time) (index : ℤ) :
    (∀ failure after, session.take checks now index = (.error failure, after) ↔
      session.player.Refused checks index failure ∧ after = session) ∧
    (∀ offered after, session.take checks now index = (.ok offered, after) ↔
      (∀ check ∈ checks, check.run session.player index = .ok ()) ∧
      ∃ node choice, session.player.node? = some node ∧
        (∃ n : ℕ, (index = n ∨ index = n - node.choices.length) ∧
          node.choices[n]? = some choice) ∧
        offered = session.player.annotate choice ∧
        session.execute now choice = (.ok (), after)) ∧
    ((∃ offered after, session.take ChoiceCheck.all now index = (.ok offered, after)) ↔
      ∃ node, session.player.node? = some node ∧ 0 ≤ index ∧ index < node.choices.length ∧
        ∃ choice, node.choices[index.toNat]? = some choice ∧
          session.store.satisfies choice.condition) := by
  refine ⟨fun failure after => take_eq_error hnow, fun offered after => ?_, ?_⟩
  · rw [take_eq_ok hnow, Player.checked_eq_ok, Player.itemAt?_choices, and_assoc]
    refine and_congr_right fun _ => ?_
    constructor
    · rintro ⟨⟨node, choice, hnode, hchoice, rfl⟩, hexecute⟩
      exact ⟨node, choice, hnode, itemAt?_eq_some.1 hchoice, rfl, hexecute⟩
    · rintro ⟨node, choice, hnode, hchoice, rfl, hexecute⟩
      exact ⟨⟨node, choice, hnode, itemAt?_eq_some.2 hchoice, rfl⟩, hexecute⟩
  · refine Iff.trans ?_ Player.exists_checked_all
    simp only [take_eq_ok hnow, exists_and_left]
    constructor
    · rintro ⟨offered, hchecked, -⟩
      exact ⟨offered, hchecked⟩
    · rintro ⟨offered, hchecked⟩
      exact ⟨offered, hchecked, _, execute_of_millis hnow session offered.toChoice⟩

/-- Without any check, the last choice of a new story is taken at index minus one. -/
theorem taken_from_end : ∃ offered after,
    (fresh "story" .default .default).take [] ⟨0.0⟩ (-1) = (.ok offered, after) ∧
      (fresh "story" .default .default).execute ⟨0.0⟩ { text := "Continue" } = (.ok (), after) := by
  have hexecute := execute_of_millis Instant.millis_zero (fresh "story" .default .default)
    { text := "Continue" }
  obtain ⟨-, hdone, -⟩ :=
    (fresh "story" .default .default).taken_or_untouched [] Instant.millis_zero (-1)
  refine ⟨_, _, (hdone _ _).2 ⟨by simp, Node.welcome, { text := "Continue" }, rfl, ?_, rfl,
    hexecute⟩, hexecute⟩
  exact ⟨0, Or.inr rfl, rfl⟩

end Session

end Narrative
