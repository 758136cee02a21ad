import Narrative.Proofs.Playback.Travel
import Narrative.Proofs.Service.Choices
import Narrative.Proofs.Service.Restart

/-!
# Served views

Whatever a reader is shown fits together and fits what is stored.  The status is never saved.  It is
found again from the node whenever a reader gets anywhere, so it cannot be left over from a graph
that has been edited or replaced since.
-/

namespace Narrative

variable {records after : Records} {id : Identifier} {now : Instant} {time : ℤ}

/-- What a comparison says of two numbers. -/
def Comparison.Relates : Comparison → Float → Float → Prop
  | greater, x, y => x > y
  | greaterEqual, x, y => x ≥ y
  | equal, x, y => x == y
  | lessEqual, x, y => x ≤ y
  | less, x, y => x < y
  | notEqual, x, y => x != y

theorem Comparison.holds_iff {comparison : Comparison} {x y : Float} :
    comparison.holds x y ↔ comparison.Relates x y := by
  cases comparison with
  | greater => exact decide_eq_true_iff
  | greaterEqual => exact decide_eq_true_iff
  | equal => exact Iff.rfl
  | lessEqual => exact decide_eq_true_iff
  | less => exact decide_eq_true_iff
  | notEqual => exact Iff.rfl

/-- The value of a variable as it is shown, zero where it has none. -/
def PlaybackView.shown (view : PlaybackView) (category : Category) (target : String) : Float :=
  view.values.shown category target

/-- What a condition says of the values that are shown. -/
def PlaybackView.Meets (view : PlaybackView) (condition : Condition) : Prop :=
  condition.comparison.Relates (view.shown condition.category condition.target) condition.value

/-! ## Consistent views -/

/-- A view fits a graph and a history. -/
structure PlaybackView.Consistent (view : PlaybackView) (graph : Graph)
    (history : List HistoryEntry) : Prop where
  node : view.node = graph.node? view.currentNodeId
  stranded : view.status = .stranded ↔ view.node = none
  ended : view.status = .ended ↔ ∃ node, view.node = some node ∧ node.choices = []
  playing : view.status = .playing ↔ ∃ node, view.node = some node ∧ node.choices ≠ []
  /-- All choices of the node are shown, in their order and as they are. -/
  choices : view.choices.map AvailableChoice.toChoice = (view.node.map Node.choices).getD []
  available : ∀ choice ∈ view.choices,
    choice.available ↔ ¬choice.condition.enabled ∨ view.Meets choice.condition
  historyLength : view.historyLength = history.length

namespace Status

variable {node : Option Node}

theorem at?_eq_stranded : at? node = .stranded ↔ node = none := by
  cases node with
  | none => simp [at?]
  | some node => cases hempty : node.choices.isEmpty <;> simp [at?, hempty]

theorem at?_eq_ended : at? node = .ended ↔ ∃ found, node = some found ∧ found.choices = [] := by
  cases node with
  | none => simp [at?]
  | some node => cases hempty : node.choices.isEmpty <;> simp_all [at?]

theorem at?_eq_playing : at? node = .playing ↔ ∃ found, node = some found ∧ found.choices ≠ [] := by
  cases node with
  | none => simp [at?]
  | some node => cases hempty : node.choices.isEmpty <;> simp_all [at?]

end Status

namespace Player

variable {player : Player}

/-- The shown value of a variable is the one that conditions are about. -/
theorem shown_view (player : Player) (category : Category) (target : String) :
    player.view.shown category target = player.store.get category target :=
  player.store.shown_snapshot category target

theorem toChoice_choices (player : Player) :
    player.choices.map AvailableChoice.toChoice = (player.node?.map Node.choices).getD [] := by
  rw [choices]
  cases player.node? with
  | none => rfl
  | some node =>
    calc
      (node.choices.map player.annotate).map AvailableChoice.toChoice
      _ = node.choices.map (AvailableChoice.toChoice ∘ player.annotate) := List.map_map
      _ = node.choices := List.map_id _

theorem available_of_mem_choices {choice : AvailableChoice} (h : choice ∈ player.choices) :
    choice.available = player.store.satisfies choice.condition := by
  rw [choices] at h
  cases hnode : player.node? with
  | none => simp [hnode] at h
  | some node =>
    simp only [hnode] at h
    obtain ⟨plain, -, rfl⟩ := List.mem_map.1 h
    rfl

/-- The view of a reader whose status fits the node is consistent. -/
theorem Settled.consistent (h : player.Settled) :
    player.view.Consistent player.graph player.place.history where
  node := rfl
  stranded := by
    change player.place.status = _ ↔ _
    rw [h]
    exact Status.at?_eq_stranded
  ended := by
    change player.place.status = _ ↔ _
    rw [h]
    exact Status.at?_eq_ended
  playing := by
    change player.place.status = _ ↔ _
    rw [h]
    exact Status.at?_eq_playing
  choices := player.toChoice_choices
  available := by
    intro choice hchoice
    rw [available_of_mem_choices hchoice, VariableStore.satisfies, PlaybackView.Meets, shown_view,
      ← Comparison.holds_iff, Bool.or_eq_true, Bool.not_eq_true', Bool.not_eq_true]
  historyLength := rfl

end Player

theorem Session.Sound.settled {session : Session} (h : session.Sound) : session.player.Settled := by
  rw [Player.Settled, Player.node?]
  change session.place.status = .at? (session.playedGraph.node? session.place.nodeId)
  rw [h.playedGraph]
  exact h.status

/-- A view of a story is consistent with the stored graph and with the history that is served. -/
def PlaybackView.Fits (view : PlaybackView) (records : Records) (id : Identifier) : Prop :=
  ∃ stored history,
    (Repository.loadGraph id.spelling).run records = (.ok stored, records) ∧
    (∀ now, (Query.history.perform now id.spelling).run records =
      (.ok (.document (HistoryAnswer.toJson ⟨history⟩)), records)) ∧
    view.Consistent (stored.getD .default) history

theorem Query.run_history (h : Kept records) (hlisted : Stored.Registered records id)
    (now : Instant) :
    (history.perform now id.spelling).run records =
      (.ok (.document (HistoryAnswer.toJson ⟨(Stored.session records id).place.history⟩)),
        records) :=
  history.run_perform h hlisted now

theorem Stored.fits_view (h : Kept records) (hlisted : Stored.Registered records id) :
    (Stored.session records id).view.Fits records id := by
  obtain ⟨stored, hstored, hgraph⟩ := Repository.run_loadGraph h id
  have hsound := Stored.sound_session h id
  have hconsistent := hsound.settled.consistent
  have hplayed : (Stored.session records id).player.graph = stored.getD .default := by
    rw [hgraph, ← Stored.graph_session]
    exact hsound.playedGraph
  rw [hplayed] at hconsistent
  exact ⟨stored, _, hstored, Query.run_history h hlisted, hconsistent⟩

/-! ## Dispatched actions -/

theorem Session.run_autosave_of_error {session : Session} {failure : Failure}
    (hnow : now.millis = .error failure) (records : Records) :
    (session.autosave now).run records = (.error failure, records) := by
  rw [autosave, save, hnow]
  rfl

namespace PlayAction

variable {story name : String} {payload : Json.Fields} {outcome : Outcome}

/-- An action goes through only if the clock can tell the time, because the position is saved. -/
theorem readable_of_dispatch
    (hdone : (dispatch now story name payload).run records = (.ok outcome, after)) :
    now.Readable := by
  cases hnow : now.millis with
  | ok time => exact ⟨time, hnow⟩
  | error failure =>
    rw [dispatch] at hdone
    cases hname : ofName? name with
    | none => simp [hname] at hdone
    | some action =>
      simp only [hname] at hdone
      cases hlock : records.contains (Repository.lockKey story) with
      | true => simp [Attempt.run_locked_of_contains _ hlock] at hdone
      | false =>
        rw [Attempt.run_locked_of_not_contains _ hlock] at hdone
        obtain ⟨session, _, -, hperformed⟩ := Attempt.ok_of_bind (Prod.mk.inj hdone).1
        obtain ⟨found, _, -, hsaved⟩ := Attempt.ok_of_bind hperformed
        obtain ⟨position, _, hautosaved, -⟩ := Attempt.ok_of_bind hsaved
        rw [Session.run_autosave_of_error hnow] at hautosaved
        exact absurd (Prod.mk.inj hautosaved).1 (by simp)

/-- After an action that goes through the story is as kept and as listed as before. -/
theorem kept_dispatch (h : Kept records) (hnow : now.millis = .ok time) (id : Identifier)
    (name : String) (payload : Json.Fields) :
    Kept ((dispatch now id.spelling name payload).run records).2 := by
  have hstep := ((Request.command id (.play name payload)).step h hnow none id).kept h
    (shortTime_of_millis hnow)
  rwa [Request.perform, Command.perform, bind_pure_comp, Attempt.run_map] at hstep

theorem stored_of_dispatch (h : Kept records)
    (hdone : (dispatch now id.spelling name payload).run records = (.ok outcome, after)) :
    Kept after ∧ Stored.Registered after id := by
  obtain ⟨time, hnow⟩ := readable_of_dispatch hdone
  obtain ⟨action, result, -, -, -, -, hopen⟩ := opened_of_dispatch h hnow hdone
  have hafter : Kept after := by
    have hkept := kept_dispatch h hnow id name payload
    rwa [hdone] at hkept
  refine ⟨hafter, ?_⟩
  by_contra hunlisted
  rw [Session.run_openStory hafter, if_neg hunlisted] at hopen
  exact absurd (Prod.mk.inj hopen).1 (by simp)

theorem fits_view_of_dispatch (h : Kept records)
    (hdone : (dispatch now id.spelling name payload).run records = (.ok outcome, after)) :
    outcome.view.Fits after id := by
  obtain ⟨time, hnow⟩ := readable_of_dispatch hdone
  obtain ⟨action, result, -, -, hview, hsession, -⟩ := opened_of_dispatch h hnow hdone
  obtain ⟨hafter, hlisted⟩ := stored_of_dispatch h hdone
  rw [hview, ← hsession]
  exact Stored.fits_view hafter hlisted

end PlayAction

/-- Every served view fits what is stored: the one that is asked for, and the one that answers an
action that goes through.  How the store came about, by play, edits, removals and imports in any
order, makes no difference. -/
theorem views_fit (h : Contended records) (hlisted : Stored.Registered records id) :
    (∃ view : PlaybackView, view.Fits records id ∧ ∀ now,
      (Query.view.perform now id.spelling).run records = (.ok (.document view.toJson), records)) ∧
    ∀ now name payload outcome after,
      (PlayAction.dispatch now id.spelling name payload).run records = (.ok outcome, after) →
      outcome.view.Fits after id :=
  ⟨⟨_, Stored.fits_view h.kept hlisted, Query.run_view h.kept hlisted⟩,
    fun _ _ _ _ _ hdone => PlayAction.fits_view_of_dispatch h.kept hdone⟩

/-- What a new story shows, at once and after it is started again. -/
theorem views_fit_newStory :
    (∃ view : PlaybackView, view.Fits newStory ⟨1⟩ ∧ ∀ now,
      (Query.view.perform now (Identifier.mk 1).spelling).run newStory =
        (.ok (.document view.toJson), newStory)) ∧
    ∃ outcome after, (PlayAction.dispatch ⟨0.0⟩ (Identifier.mk 1).spelling
        PlayAction.restart.name []).run newStory = (.ok outcome, after) ∧
      outcome.view.Fits after ⟨1⟩ := by
  obtain ⟨hview, hdispatch⟩ := views_fit (.reachable reachable_newStory) registered_newStory
  obtain ⟨after, hafter⟩ := run_dispatch_restart reachable_newStory.kept
    (reachable_newStory.not_held ⟨1⟩) registered_newStory Instant.millis_zero []
  exact ⟨hview, _, after, hafter, hdispatch _ _ _ _ _ hafter⟩

end Narrative
