import Narrative.Proofs.Service.Messages
import Narrative.Proofs.Session.Taking

/-!
# How play actions fail

The reasons for which a play action can fail, each with the failure that reports it.  An action that
fails leaves the store as it was.  Its failure is answered as something missing or as a request that
cannot be met, with one exception: an index that is an infinite number is reported as a defect of
the service, although all other values that are no integers are reported as such.
-/

namespace Narrative

variable {records after : Records} {id : Identifier} {now : Instant} {time : ℤ}

theorem Player.Refused.severity_ne_defect {player : Player} {checks : List ChoiceCheck} {index : ℤ}
    {failure : Failure} (h : player.Refused checks index failure) :
    failure.severity ≠ .defect := by
  cases h with
  | check _ check _ _ _ hcheck => cases hcheck <;> simp [Failure.severity]
  | noChoice => simp [Failure.severity]

namespace PlayAction

variable {payload : Json.Fields} {name : String} {failure : Failure}

/-- The index of the request is an infinite number. -/
def IndexInfinite (payload : Json.Fields) : Prop :=
  ∃ x, payload.get? "index" = some (.num x) ∧ ¬Decimal.isFinite x ∧ ¬Decimal.isNotANumber x

theorem index_of_infinite (h : IndexInfinite payload) : index payload = .error .infinite := by
  obtain ⟨x, hx, hfinite, hundefined⟩ := h
  simp only [index, hx, indexOf]
  rw [if_neg hfinite, if_neg hundefined]

theorem of_index_eq_error (h : index payload = .error failure) :
    failure = .indexMissing ∨ failure = .indexUnreadable ∨
      failure = .infinite ∧ IndexInfinite payload := by
  unfold index at h
  split at h
  case h_1 | h_2 => exact Or.inl (Except.error.inj h).symm
  case h_3 value _ hvalue =>
    cases value with
    | num x =>
      by_cases hfinite : Decimal.isFinite x
      · exact absurd h (by simp [indexOf, hfinite])
      · by_cases hundefined : Decimal.isNotANumber x
        · rw [indexOf, if_neg hfinite, if_pos hundefined] at h
          exact Or.inr (Or.inl (Except.error.inj h).symm)
        · rw [indexOf, if_neg hfinite, if_neg hundefined] at h
          exact Or.inr (Or.inr ⟨(Except.error.inj h).symm, x, hvalue, hfinite, hundefined⟩)
    | str text =>
      refine Or.inr (Or.inl ?_)
      rw [indexOf] at h
      split at h
      case isTrue => exact (Except.error.inj h).symm
      case isFalse =>
        split at h
        case h_1 => exact absurd h (by simp)
        case h_2 => exact (Except.error.inj h).symm
    | int n => exact absurd h (by simp [indexOf])
    | bool value => exact absurd h (by simp [indexOf])
    | _ => exact Or.inr (Or.inl (Except.error.inj h).symm)

theorem of_slotName_eq_error {story : String} {label : Label}
    (h : slotName story label = .error failure) : ∃ points, failure = .unwritableKey points := by
  cases label with
  | text name => exact absurd h (by simp [slotName])
  | torn points => exact ⟨_, (Except.error.inj h).symm⟩

/-! ## Steps -/

/-- Why a step of play is refused in an open session. -/
inductive Refuses (payload : Json.Fields) (slots : String → Option SaveSlot) (session : Session) :
    PlayAction → Failure → Prop where
  | index {action : PlayAction} {failure : Failure} (haction : action = choose ∨ action = jump)
      (h : PlayAction.index payload = .error failure) : Refuses payload slots session action failure
  | choose {index : ℤ} {failure : Failure} (hindex : PlayAction.index payload = .ok index)
      (h : session.player.Refused ChoiceCheck.all index failure) :
      Refuses payload slots session .choose failure
  | jump {index : ℤ} (hindex : PlayAction.index payload = .ok index)
      (h : session.jump? index = none) :
      Refuses payload slots session .jump (.historyOutOfRange index)
  | slot {action : PlayAction} {failure : Failure} (haction : action = save ∨ action = load)
      (h : slotName session.story (PlayAction.slot payload) = .error failure) :
      Refuses payload slots session action failure
  | load {slot : String} (hslot : slotName session.story (PlayAction.slot payload) = .ok slot)
      (h : slots slot = none) : Refuses payload slots session .load (.slotNotFound slot)

variable {action : PlayAction} {slots : String → Option SaveSlot} {session : Session}

theorem plan_eq_error : (action.plan payload time slots session).outcome = .error failure ↔
    action.Refuses payload slots session failure := by
  constructor
  · intro h
    cases action with
    | choose =>
      rcases Except.bind_eq_error.1 h with hindex | ⟨index, hindex, hchoice⟩
      · exact .index (Or.inl rfl) hindex
      · exact .choose hindex (Player.checked_eq_error.1 (Except.map_eq_error.1 hchoice))
    | restart => exact absurd h (by simp [plan])
    | jump =>
      rcases Except.bind_eq_error.1 h with hindex | ⟨index, hindex, hjump⟩
      · exact .index (Or.inr rfl) hindex
      · split at hjump
        case h_1 => exact absurd hjump (by simp)
        case h_2 hnone =>
          rw [← Except.error.inj hjump]
          exact .jump hindex hnone
    | save =>
      simp only [plan] at h
      split at h
      case h_1 => exact absurd h (by simp)
      case h_2 other hslot =>
        rw [← Except.error.inj h]
        exact .slot (Or.inl rfl) hslot
    | load =>
      rcases Except.bind_eq_error.1 h with hslot | ⟨slot, hslot, hfound⟩
      · exact .slot (Or.inr rfl) hslot
      · split at hfound
        case h_1 => exact absurd hfound (by simp)
        case h_2 hnone =>
          rw [← Except.error.inj hfound]
          exact .load hslot hnone
  · intro h
    cases h with
    | index haction hindex =>
      rcases haction with rfl | rfl
      · exact Except.bind_eq_error.2 (Or.inl hindex)
      · exact Except.bind_eq_error.2 (Or.inl hindex)
    | choose hindex hrefused =>
      refine Except.bind_eq_error.2 (Or.inr ⟨_, hindex, ?_⟩)
      exact Except.map_eq_error.2 (Player.checked_eq_error.2 hrefused)
    | jump hindex hnone => exact Except.bind_eq_error.2 (Or.inr ⟨_, hindex, by rw [hnone]⟩)
    | slot haction hslot =>
      rcases haction with rfl | rfl
      · simp only [plan, hslot, Plan.refused]
      · exact Except.bind_eq_error.2 (Or.inl hslot)
    | load hslot hnone => exact Except.bind_eq_error.2 (Or.inr ⟨_, hslot, by rw [hnone]⟩)

theorem actionPlan_eq_error :
    (Command.actionPlan time payload slots session action).outcome = .error failure ↔
      action.Refuses payload slots session failure := by
  have hplan : (action.plan payload time slots session).outcome = .error failure ↔ _ :=
    plan_eq_error
  rw [← hplan, Command.actionPlan, autosaved]
  cases (action.plan payload time slots session).outcome <;> simp [Plan.refused]

/-- Only an infinite index is reported as a defect. -/
theorem Refuses.severity_eq_defect (h : action.Refuses payload slots session failure) :
    failure.severity = .defect ↔ (action = .choose ∨ action = .jump) ∧ IndexInfinite payload := by
  constructor
  · intro hdefect
    cases h with
    | index haction hindex =>
      rcases of_index_eq_error hindex with rfl | rfl | ⟨-, hinfinite⟩
      · exact absurd hdefect (by decide)
      · exact absurd hdefect (by decide)
      · exact ⟨haction, hinfinite⟩
    | choose _ hrefused => exact absurd hdefect hrefused.severity_ne_defect
    | jump => exact absurd hdefect (by simp [Failure.severity])
    | slot _ hslot =>
      obtain ⟨points, rfl⟩ := of_slotName_eq_error hslot
      exact absurd hdefect (by simp [Failure.severity])
    | load => exact absurd hdefect (by simp [Failure.severity])
  · rintro ⟨haction, hinfinite⟩
    have hindex := index_of_infinite hinfinite
    cases h with
    | index _ hother =>
      rw [← Except.error.inj (hindex.symm.trans hother)]
      rfl
    | choose hother => exact absurd (hindex.symm.trans hother) (by simp)
    | jump hother => exact absurd (hindex.symm.trans hother) (by simp)
    | slot hother => rcases haction with rfl | rfl <;> simp at hother
    | load => simp at haction

/-! ## Actions -/

/-- Why an action on a story fails. -/
inductive Fails (records : Records) (id : Identifier) (name : String) (payload : Json.Fields) :
    Failure → Prop where
  | unknown (hname : ofName? name = none) : Fails records id name payload (.unknownAction name)
  | busy {action : PlayAction} (hname : ofName? name = some action) (hheld : Held records id) :
      Fails records id name payload .storyBusy
  | missing {action : PlayAction} (hname : ofName? name = some action) (hfree : ¬Held records id)
      (hmissing : ¬Stored.Registered records id) : Fails records id name payload .storyNotFound
  | refused {action : PlayAction} {failure : Failure} (hname : ofName? name = some action)
      (hfree : ¬Held records id) (hlisted : Stored.Registered records id)
      (h : action.Refuses payload (Stored.slot records id) (Stored.session records id) failure) :
      Fails records id name payload failure

/-- An action fails for one of these reasons and for no other, and leaves the store as it is. -/
theorem dispatch_eq_error (h : Kept records) (hnow : now.millis = .ok time) :
    (dispatch now id.spelling name payload).run records = (.error failure, after) ↔
      after = records ∧ Fails records id name payload failure := by
  have hunknown (hname : ofName? name = none) :
      (dispatch now id.spelling name payload).run records =
        (.error (.unknownAction name), records) := by
    rw [dispatch, hname]
    rfl
  have hbusy {action : PlayAction} (hname : ofName? name = some action) (hheld : Held records id) :
      (dispatch now id.spelling name payload).run records = (.error .storyBusy, records) := by
    rw [dispatch, hname]
    exact Command.run_editing_of_held hheld
  have hmissing {action : PlayAction} (hname : ofName? name = some action)
      (hfree : ¬Held records id) (hmissing : ¬Stored.Registered records id) :
      (dispatch now id.spelling name payload).run records = (.error .storyNotFound, records) := by
    rw [dispatch, hname]
    exact Command.run_editing_of_not_registered h hfree hmissing
  constructor
  · intro hrun
    cases hname : ofName? name with
    | none =>
      obtain ⟨hfailure, hafter⟩ := Prod.mk.inj ((hunknown hname).symm.trans hrun)
      rw [← Except.error.inj hfailure]
      exact ⟨hafter.symm, .unknown hname⟩
    | some action =>
      by_cases hheld : Held records id
      · obtain ⟨hfailure, hafter⟩ := Prod.mk.inj ((hbusy hname hheld).symm.trans hrun)
        rw [← Except.error.inj hfailure]
        exact ⟨hafter.symm, .busy hname hheld⟩
      · by_cases hlisted : Stored.Registered records id
        · rw [Command.run_dispatch h hheld hlisted hnow hname] at hrun
          obtain ⟨houtcome, hafter⟩ := Prod.mk.inj hrun
          rw [Command.actionPlan_of_error houtcome, Plan.store_refused] at hafter
          exact ⟨hafter.symm, .refused hname hheld hlisted (actionPlan_eq_error.1 houtcome)⟩
        · obtain ⟨hfailure, hafter⟩ :=
            Prod.mk.inj ((hmissing hname hheld hlisted).symm.trans hrun)
          rw [← Except.error.inj hfailure]
          exact ⟨hafter.symm, .missing hname hheld hlisted⟩
  · rintro ⟨rfl, hfails⟩
    cases hfails with
    | unknown hname => exact hunknown hname
    | busy hname hheld => exact hbusy hname hheld
    | missing hname hfree hnone => exact hmissing hname hfree hnone
    | refused hname hfree hlisted hrefuses =>
      have houtcome : (Command.actionPlan time payload _ _ _).outcome = .error failure :=
        actionPlan_eq_error.2 hrefuses
      rw [Command.run_dispatch h hfree hlisted hnow hname, Command.actionPlan_of_error houtcome]
      rfl

theorem name_of_ofName? {action : PlayAction} (h : ofName? name = some action) :
    name = action.name := by
  have haction : action.name = name := by simpa using List.find?_some h
  exact haction.symm

/-- The action gets as far as reading its index, and the index is infinite. -/
structure Overflows (records : Records) (id : Identifier) (name : String) (payload : Json.Fields) :
    Prop where
  needsIndex : name = choose.name ∨ name = jump.name
  free : ¬Held records id
  listed : Stored.Registered records id
  infinite : IndexInfinite payload

theorem Overflows.fails (h : Overflows records id name payload) :
    Fails records id name payload .infinite := by
  have hindex := index_of_infinite h.infinite
  rcases h.needsIndex with rfl | rfl
  · exact .refused (ofName?_name choose) h.free h.listed (.index (Or.inl rfl) hindex)
  · exact .refused (ofName?_name jump) h.free h.listed (.index (Or.inr rfl) hindex)

/-- An infinite index is the only reason that is reported as a defect. -/
theorem Fails.severity_eq_defect (h : Fails records id name payload failure) :
    failure.severity = .defect ↔ Overflows records id name payload := by
  cases h with
  | unknown hname =>
    refine iff_of_false (by simp [Failure.severity]) fun hover => ?_
    rcases hover.needsIndex with rfl | rfl <;> simp at hname
  | busy hname hheld => exact iff_of_false (by decide) fun hover => hover.free hheld
  | missing hname hfree hmissing =>
    exact iff_of_false (by decide) fun hover => hmissing hover.listed
  | refused hname hfree hlisted hrefuses =>
    rw [hrefuses.severity_eq_defect]
    constructor
    · rintro ⟨haction, hinfinite⟩
      refine ⟨?_, hfree, hlisted, hinfinite⟩
      rw [name_of_ofName? hname]
      exact haction.imp (congrArg PlayAction.name) (congrArg PlayAction.name)
    · intro hover
      refine ⟨?_, hover.infinite⟩
      rcases hover.needsIndex with rfl | rfl
      · rw [ofName?_name] at hname
        exact Or.inl (Option.some.inj hname).symm
      · rw [ofName?_name] at hname
        exact Or.inr (Option.some.inj hname).symm

end PlayAction

open PlayAction

/-- An action on a story fails for the listed reasons only, and then the store is as it was.  The
failure is answered as something missing or as a request that cannot be met, except that an infinite
index, once it is read, is answered as a defect of the service. -/
theorem failure_of_dispatch (h : Contended records) (hnow : now.Readable) (id : Identifier)
    (name : String) (payload : Json.Fields) :
    (∀ failure after,
      (dispatch now id.spelling name payload).run records = (.error failure, after) ↔
        after = records ∧ Fails records id name payload failure) ∧
    (¬Overflows records id name payload → ∀ failure, Fails records id name payload failure →
      (Reply.ofFailure failure).status = .notFound ∨
        (Reply.ofFailure failure).status = .unprocessable) ∧
    (Overflows records id name payload →
      (dispatch now id.spelling name payload).run records = (.error .infinite, records) ∧
        (Reply.ofFailure .infinite).status = .internalError) := by
  obtain ⟨time, htime⟩ := hnow
  refine ⟨fun failure after => dispatch_eq_error h.kept htime, fun hindex failure hfails => ?_,
    fun hover => ⟨(dispatch_eq_error h.kept htime).2 ⟨rfl, hover.fails⟩, rfl⟩⟩
  have hseverity : failure.severity ≠ .defect := fun hdefect =>
    hindex (hfails.severity_eq_defect.1 hdefect)
  unfold Reply.ofFailure
  cases hkind : failure.severity with
  | notFound => exact Or.inl rfl
  | rejected => exact Or.inr rfl
  | defect => exact absurd hkind hseverity

/-- A payload with an infinite index. -/
def endlessIndex : Json.Fields := [("index", .num (Decimal.infinite false))]

theorem overflows_newStory : Overflows newStory ⟨1⟩ choose.name endlessIndex where
  needsIndex := Or.inl rfl
  free := reachable_newStory.not_held ⟨1⟩
  listed := registered_newStory
  infinite := ⟨_, rfl, by decide +kernel, by decide +kernel⟩

/-- In a new story, a request for a choice has to say which, and an infinite index is a defect. -/
theorem failure_of_dispatch_newStory :
    (dispatch ⟨0.0⟩ (Identifier.mk 1).spelling choose.name []).run newStory =
      (.error .indexMissing, newStory) ∧
    (dispatch ⟨0.0⟩ (Identifier.mk 1).spelling choose.name endlessIndex).run newStory =
      (.error .infinite, newStory) := by
  have hnow : (Instant.mk 0.0).Readable := ⟨0, Instant.millis_zero⟩
  have hstore : Contended newStory := .reachable reachable_newStory
  obtain ⟨hmissing, -, -⟩ := failure_of_dispatch hstore hnow ⟨1⟩ choose.name []
  obtain ⟨-, -, hinfinite⟩ := failure_of_dispatch hstore hnow ⟨1⟩ choose.name endlessIndex
  have hfree := reachable_newStory.not_held ⟨1⟩
  refine ⟨(hmissing _ _).2 ⟨rfl, ?_⟩, (hinfinite overflows_newStory).1⟩
  exact .refused (ofName?_name choose) hfree registered_newStory (.index (Or.inl rfl) rfl)

/-- Not every failure of an action is answered as something missing or as a request that cannot be
met. -/
theorem not_all_refusals :
    ¬∀ (records after : Records) (id : Identifier) (now : Instant) (name : String)
      (payload : Json.Fields) (failure : Failure), Reachable records → now.Readable →
      (dispatch now id.spelling name payload).run records = (.error failure, after) →
      (Reply.ofFailure failure).status = .notFound ∨
        (Reply.ofFailure failure).status = .unprocessable := by
  intro hclaim
  have hrun := (dispatch_eq_error reachable_newStory.kept Instant.millis_zero).2
    ⟨rfl, overflows_newStory.fails⟩
  have hstatus := hclaim newStory newStory ⟨1⟩ ⟨0.0⟩ choose.name endlessIndex .infinite
    reachable_newStory ⟨0, Instant.millis_zero⟩ hrun
  exact absurd hstatus (by decide)

end Narrative
