import Narrative.Proofs.Playback.Choosing
import Narrative.Proofs.Service.Messages
import Narrative.Proofs.Service.Transfer

/-!
# Shown choices

What a reader is shown can be relied on: the choices that are shown as available, and no others, can
be taken, and taking one leads where it says and changes the shown values as it says.
-/

namespace Narrative

variable {records : Records} {id : Identifier} {now : Instant} {time : ℤ}

/-- The payload of a request for the choice at an index. -/
def choosing (index : ℤ) : Json.Fields := [("index", .int index)]

theorem Query.run_view (h : Kept records) (hlisted : Stored.Registered records id) (now : Instant) :
    (view.perform now id.spelling).run records =
      (.ok (.document (Stored.session records id).view.toJson), records) :=
  view.run_perform h hlisted now

/-- A step of choosing goes through exactly for an available choice, and carries it out. -/
theorem PlayAction.outcome_choose {session : Session} {index : ℤ}
    {slots : String → Option SaveSlot} {result : Session} {saved : Option SaveSlot} :
    (choose.plan (choosing index) time slots session).outcome = .ok (result, saved) ↔
      ∃ choice, (0 ≤ index ∧ session.view.choices[index.toNat]? = some choice ∧
          choice.available) ∧
        result = session.withPlayer (session.player.execute time choice.toChoice) ∧
        saved = none := by
  change (session.player.checked ChoiceCheck.all index).map _ = _ ↔ _
  rw [Except.map_eq_ok]
  refine exists_congr fun choice => and_congr Player.checked_all_eq_ok ?_
  rw [Prod.mk.injEq, eq_comm, eq_comm (a := none)]

/-- What is seen of a choice that has been taken: it led to the node that it names, or nowhere where
it names none; its operations were carried out on the shown values, one after the other; and the
history has one more entry. -/
structure Chosen (opened : Session) (choice : AvailableChoice) (time : ℤ) (view : PlaybackView)
    (later : Session) : Prop where
  currentNodeId : view.currentNodeId =
    if choice.nextNode = "" then opened.view.currentNodeId else choice.nextNode
  values : opened.store.definitions.Leads choice.operations opened.view.values view.values
  history : ∃ node, opened.view.node = some node ∧ later.place.history =
    opened.place.history ++ [⟨opened.view.currentNodeId, node.text, choice.text, time⟩]

theorem chosen_execute {session : Session} {choice : AvailableChoice} {index : ℕ}
    (h : session.view.choices[index]? = some choice) (time : ℤ) :
    Chosen session choice time
      (session.withPlayer (session.player.execute time choice.toChoice)).view
      (session.withPlayer (session.player.execute time choice.toChoice)) := by
  obtain ⟨node, hnode⟩ := Player.node?_of_choice h
  obtain ⟨hplace, hvalues, hhistory⟩ := session.player.view_execute time choice.toChoice
  refine ⟨hplace, hvalues, node, hnode, hhistory.trans ?_⟩
  rw [Player.entry, hnode]
  rfl

/-- The choices that are shown as available, and no others, can be taken, and what is seen
afterwards is what they say. -/
theorem choose_spec (h : Contended records) (hfree : ¬Held records id)
    (hlisted : Stored.Registered records id) (hnow : now.millis = .ok time) (index : ℤ) :
    ∃ opened, (Session.openStory id.spelling true).run records = (.ok opened, records) ∧
      (Query.view.perform now id.spelling).run records =
        (.ok (.document opened.view.toJson), records) ∧
      ((∃ outcome after, (PlayAction.dispatch now id.spelling PlayAction.choose.name
          (choosing index)).run records = (.ok outcome, after)) ↔
        0 ≤ index ∧ ∃ choice, opened.view.choices[index.toNat]? = some choice ∧
          choice.available) ∧
      ∀ outcome after, (PlayAction.dispatch now id.spelling PlayAction.choose.name
          (choosing index)).run records = (.ok outcome, after) →
        ∃ choice later, opened.view.choices[index.toNat]? = some choice ∧
          (Session.openStory id.spelling true).run after = (.ok later, after) ∧
          later.view = outcome.view ∧ Chosen opened choice time outcome.view later := by
  have hkept := h.kept
  refine ⟨Stored.session records id, Session.openStory_of_registered hkept hlisted,
    Query.run_view hkept hlisted now, ?_, fun outcome after hdone => ?_⟩
  · rw [dispatch_eq_ok hkept hfree hlisted hnow .choose]
    constructor
    · rintro ⟨⟨result, saved⟩, hresult⟩
      obtain ⟨choice, ⟨hindex, hchoice⟩, -⟩ := PlayAction.outcome_choose.1 hresult
      exact ⟨hindex, choice, hchoice⟩
    · rintro ⟨hindex, choice, hchoice⟩
      exact ⟨_, PlayAction.outcome_choose.2 ⟨choice, ⟨hindex, hchoice⟩, rfl, rfl⟩⟩
  · obtain ⟨action, result, hname, hplan, hview, -, hopen⟩ := opened_of_dispatch hkept hnow hdone
    rw [PlayAction.ofName?_name] at hname
    cases hname
    obtain ⟨choice, ⟨-, hchoice, -⟩, rfl, -⟩ := PlayAction.outcome_choose.1 hplan
    refine ⟨choice, _, hchoice, hopen, hview.symm, ?_⟩
    rw [hview]
    exact chosen_execute hchoice time

/-- A new story opens at its beginning. -/
theorem Stored.session_newStory : session newStory ⟨1⟩ =
    Session.fresh (Identifier.mk 1).spelling .default .default := by
  have hslot : slot newStory ⟨1⟩ Repository.autosaveSlot = none := by
    rw [slot, newStory, get?_created_of_ne _ _ (by simp),
      creation.get?_store_slot _ _ (by simp [creation])]
    rfl
  rw [session, hslot, newStory, definitions_created, graph_created, Graph.kept_default]
  rfl

/-- A story with a choice that drives a variable past its bound, divides it by zero, goes on from
there, and sets a variable that is not defined. -/
def trainingStory : Json.Fields :=
  let operation (target kind : String) (value : Float) : Json :=
    .obj [("variable", .str target), ("operation", .str kind), ("value", .num value)]
  [("nodes", .obj [("start", .obj [("choices", .arr [.obj [("text", .str "Train"),
      ("nextNode", .str "rest"), ("variableOperations", .arr [operation "energy" "add" 70.0,
        operation "energy" "divide" 0.0, operation "thirst" "set" 5.0,
        operation "energy" "subtract" 30.0])]])]), ("rest", .obj [])]),
    ("variableDefinitions", .obj [("physiological", .arr [.obj [("id", .str "energy"),
      ("name", .str "Energy"), ("initial", .num 40.0)]])])]

/-- The definitions of the story. -/
def trainingDefinitions : Definitions := ⟨[.percentage "energy" "Energy" 40.0], [], []⟩

/-- The operations of its choice. -/
def trainingOperations : List VariableOperation :=
  [{ target := "energy", value := 70.0 }, { target := "energy", kind := .divide },
    { target := "thirst", kind := .set, value := 5.0 },
    { target := "energy", kind := .subtract, value := 30.0 }]

/-- Its graph. -/
def trainingGraph : Graph where
  nodes := Table.ofList [("start", { id := "start", choices :=
    [{ text := "Train", nextNode := "rest", operations := trainingOperations }] }),
    ("rest", { id := "rest" })]

/-- The story, imported into a new one. -/
theorem exists_training : ∃ records, Reachable records ∧ Stored.Registered records ⟨1⟩ ∧
    Stored.session records ⟨1⟩ =
      Session.fresh (Identifier.mk 1).spelling trainingDefinitions trainingGraph := by
  have himported : Session.imported (.obj trainingStory) =
      some (⟨trainingGraph, none⟩, some ⟨trainingDefinitions, none⟩) := rfl
  have hfinite : trainingDefinitions.Finite := by
    intro category definition hdefinition
    cases category with
    | physiological =>
      rw [List.mem_singleton.1 hdefinition]
      exact ⟨by decide, by decide, by decide⟩
    | emotional | difficulty => exact absurd hdefinition List.not_mem_nil
  obtain ⟨after, -, hafter⟩ := Command.run_importStory reachable_newStory registered_newStory
    Instant.millis_zero none rfl hfinite himported
  exact ⟨after, hafter⟩

/-- The choice is taken.  The first operation stops at the upper bound, and the last one goes on
from there. -/
theorem choose_spec_training :
    ∃ records opened outcome after choice later, Reachable records ∧
      (Session.openStory (Identifier.mk 1).spelling true).run records = (.ok opened, records) ∧
      (PlayAction.dispatch ⟨0.0⟩ (Identifier.mk 1).spelling PlayAction.choose.name
        (choosing 0)).run records = (.ok outcome, after) ∧
      opened.view.choices[0]? = some choice ∧ choice.operations = trainingOperations ∧
      (Session.openStory (Identifier.mk 1).spelling true).run after = (.ok later, after) ∧
      later.view = outcome.view ∧ Chosen opened choice 0 outcome.view later ∧
      opened.view.values.shown .physiological "energy" = 40.0 ∧
      outcome.view.values.shown .physiological "energy" = 70.0 := by
  obtain ⟨records, hreach, hlisted, hsession⟩ := exists_training
  obtain ⟨opened, hopen, -, hiff, hdone⟩ := choose_spec (.reachable hreach)
    (hreach.not_held ⟨1⟩) hlisted Instant.millis_zero 0
  obtain rfl : opened =
      Session.fresh (Identifier.mk 1).spelling trainingDefinitions trainingGraph := by
    rw [Session.openStory_of_registered hreach.kept hlisted, hsession] at hopen
    exact (Except.ok.inj (Prod.mk.inj hopen).1).symm
  obtain ⟨outcome, after, hdispatch⟩ := hiff.2 ⟨le_rfl, _, rfl, rfl⟩
  obtain ⟨choice, later, hchoice, hlater, hview, hchosen⟩ := hdone outcome after hdispatch
  have hoperations : choice.operations = trainingOperations := by
    rw [← Option.some.inj hchoice]
    rfl
  have hvalues : outcome.view.values = (trainingOperations.foldl VariableStore.perform
      (.ofDefinitions trainingDefinitions)).snapshot := by
    have hleads := hchosen.values
    rw [hoperations] at hleads
    exact hleads.unique (VariableStore.leads_foldl_perform (.ofDefinitions trainingDefinitions) _)
  refine ⟨records, _, outcome, after, choice, later, hreach, hopen, hdispatch, hchoice, hoperations,
    hlater, hview, hchosen, ?_, ?_⟩
  · change (VariableStore.snapshot (.ofDefinitions trainingDefinitions)).shown _ _ = _
    decide +kernel
  · rw [hvalues]
    decide +kernel

end Narrative
