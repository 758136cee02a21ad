import Mathlib.Data.Int.Order.Basic
import Narrative.Playback.Player

/-!
# Going back in time

Every entry of the history stands for the place at which its choice was taken.  Going back to an
entry therefore finds that place exactly as it was: the node, the status, and the whole history up
to it.  Only the place goes back.  The variables stay, and because the way of a reader through the
graph does not depend on them, whatever is chosen next leads where it led the first time.

This needs a playthrough that began at the start of a graph.  A place that was read from a saved
position may carry a history that never happened.
-/

namespace Narrative

namespace Player

variable {player other : Player}

/-- The player after some choices, each taken at its time.  Whether they are offered, or lead
anywhere, is not asked. -/
def follow (player : Player) (steps : List (ℤ × Choice)) : Player :=
  steps.foldl (fun player step => player.execute step.1 step.2) player

@[simp]
theorem follow_nil (player : Player) : player.follow [] = player := rfl

@[simp]
theorem follow_cons (player : Player) (step : ℤ × Choice) (steps : List (ℤ × Choice)) :
    player.follow (step :: steps) = (player.execute step.1 step.2).follow steps := rfl

theorem follow_append (player : Player) (before after : List (ℤ × Choice)) :
    player.follow (before ++ after) = (player.follow before).follow after :=
  List.foldl_append

@[simp]
theorem graph_follow (player : Player) (steps : List (ℤ × Choice)) :
    (player.follow steps).graph = player.graph := by
  induction steps generalizing player with
  | nil => rfl
  | cons step steps ih => rw [follow_cons, ih]; rfl

theorem place_execute_congr (hgraph : player.graph = other.graph)
    (hplace : player.place = other.place) (time : ℤ) (choice : Choice) :
    (player.execute time choice).place = (other.execute time choice).place := by
  have hnode : player.node? = other.node? := by rw [node?, node?, hgraph, hplace]
  have hentry : player.entry time choice = other.entry time choice := by
    rw [entry, entry, hplace, hnode]
  change Place.mk _ _ (Status.at? (player.graph.node? _)) =
    Place.mk _ _ (Status.at? (other.graph.node? _))
  rw [hgraph, hplace, hentry]

/-- Two readers at the same place of the same graph who take the same choices stay together,
whatever their variables are. -/
theorem place_follow_congr (hgraph : player.graph = other.graph)
    (hplace : player.place = other.place) (steps : List (ℤ × Choice)) :
    (player.follow steps).place = (other.follow steps).place := by
  induction steps generalizing player other with
  | nil => exact hplace
  | cons step steps ih => exact ih hgraph (place_execute_congr hgraph hplace step.1 step.2)

/-- The status is the one of the node that the reader is at. -/
def Settled (player : Player) : Prop :=
  player.place.status = .at? player.node?

theorem settled_moveTo (player : Player) (nodeId : String) (history : List HistoryEntry) :
    (player.moveTo nodeId history).Settled := rfl

theorem settled_start (graph : Graph) (store : VariableStore) : (start graph store).Settled := rfl

theorem Settled.follow (h : player.Settled) (steps : List (ℤ × Choice)) :
    (player.follow steps).Settled := by
  induction steps generalizing player with
  | nil => exact h
  | cons step steps ih => exact ih (settled_moveTo _ _ _)

/-- A reader who is moved to a settled place of the same graph is at that very place. -/
theorem Settled.place_moveTo (h : other.Settled) (hgraph : player.graph = other.graph) :
    (player.moveTo other.place.nodeId other.place.history).place = other.place := by
  change Place.mk other.place.nodeId other.place.history
    (.at? (player.graph.node? other.place.nodeId)) = other.place
  have hstatus : Status.at? (player.graph.node? other.place.nodeId) = other.place.status := by
    rw [hgraph]
    exact h.symm
  rw [hstatus]

/-! ## What the history records -/

theorem prefix_history_follow (player : Player) (steps : List (ℤ × Choice)) :
    player.place.history <+: (player.follow steps).place.history := by
  induction steps generalizing player with
  | nil => exact List.prefix_refl _
  | cons step steps ih =>
    have hstep : player.place.history <+: (player.execute step.1 step.2).place.history :=
      List.prefix_append _ _
    exact hstep.trans (ih _)

theorem length_history_follow (player : Player) (steps : List (ℤ × Choice)) :
    (player.follow steps).place.history.length = player.place.history.length + steps.length := by
  induction steps generalizing player with
  | nil => rfl
  | cons step steps ih =>
    calc
      ((player.execute step.1 step.2).follow steps).place.history.length
      _ = (player.place.history ++ [player.entry step.1 step.2]).length + steps.length := ih _
      _ = player.place.history.length + (step :: steps).length := by
        rw [List.length_append, List.length_singleton, List.length_cons]
        omega

/-- A choice is recorded right after what was recorded before it, and stays recorded. -/
theorem history_follow_split (player : Player) (before : List (ℤ × Choice)) (step : ℤ × Choice)
    (after : List (ℤ × Choice)) : ∃ later,
      (player.follow (before ++ step :: after)).place.history =
        (player.follow before).place.history ++
          (player.follow before).entry step.1 step.2 :: later := by
  obtain ⟨later, hlater⟩ :=
    prefix_history_follow ((player.follow before).execute step.1 step.2) after
  refine ⟨later, ?_⟩
  rw [follow_append, follow_cons, ← hlater]
  exact List.append_assoc _ _ _

/-! ## Going back -/

theorem jump?_of_history {before later : List HistoryEntry} {entry : HistoryEntry}
    (h : player.place.history = before ++ entry :: later) :
    player.jump? before.length = some (player.moveTo entry.nodeId before) := by
  change (player.place.history[before.length]?).map (fun found =>
    player.moveTo found.nodeId (player.place.history.take before.length)) = _
  simp [h]

/-- Only the entries of the history can be gone back to. -/
theorem jump?_eq_none {index : ℤ} (h : ¬(0 ≤ index ∧ index < player.place.history.length)) :
    player.jump? index = none := by
  cases index with
  | negSucc n => rfl
  | ofNat n =>
    have hlength : player.place.history.length ≤ n := by
      simp only [Int.ofNat_eq_natCast] at h
      omega
    change (player.place.history[n]?).map _ = none
    rw [List.getElem?_eq_none hlength, Option.map_none]

/-- Where an index leads is decided by the graph, the variables and the history before it. -/
theorem jump?_take {index n : ℕ} (h : index < n) (hgraph : player.graph = other.graph)
    (hstore : player.store = other.store)
    (hhistory : player.place.history = other.place.history.take n) :
    player.jump? index = other.jump? index := by
  change (player.place.history[index]?).map (fun found =>
      player.moveTo found.nodeId (player.place.history.take index)) =
    (other.place.history[index]?).map fun found =>
      other.moveTo found.nodeId (other.place.history.take index)
  rw [hhistory, List.getElem?_take_of_lt h, List.take_take, Nat.min_eq_left (Nat.le_of_lt h)]
  simp only [moveTo, hgraph, hstore]

/-- A reader who has gone back: the place is that of the reader `earlier`, all the rest is as it
was. -/
structure Rewound (player earlier back : Player) : Prop where
  /-- The node, the status and the history are the earlier ones. -/
  place : back.place = earlier.place
  /-- The variables are as they were. -/
  store : back.store = player.store
  /-- So is the graph. -/
  graph : back.graph = player.graph
  /-- Further choices lead where they lead the earlier reader. -/
  further : ∀ steps, (back.follow steps).place = (earlier.follow steps).place
  /-- Going back from here is going back at once. -/
  again : ∀ index : ℤ, index < earlier.place.history.length →
    back.jump? index = player.jump? index

/-- Going back to the choice that follows the steps `before` finds the place after `before`. -/
theorem Settled.rewound (h : player.Settled) (before : List (ℤ × Choice)) (step : ℤ × Choice)
    (after : List (ℤ × Choice)) : ∃ back,
      (player.follow (before ++ step :: after)).jump?
        ↑(player.follow before).place.history.length = some back ∧
      Rewound (player.follow (before ++ step :: after)) (player.follow before) back := by
  obtain ⟨later, hhistory⟩ := history_follow_split player before step after
  have hgraph : (player.follow (before ++ step :: after)).graph = (player.follow before).graph := by
    rw [graph_follow, graph_follow]
  have hplace := (h.follow before).place_moveTo hgraph
  refine ⟨_, jump?_of_history hhistory, hplace, rfl, rfl,
    place_follow_congr hgraph hplace, fun index hindex => ?_⟩
  cases index with
  | negSucc n => rfl
  | ofNat n =>
    refine jump?_take (n := (player.follow before).place.history.length) (by simpa using hindex)
      rfl rfl ?_
    rw [hhistory, List.take_left]
    rfl

theorem length_history_follow_start (graph : Graph) (store : VariableStore)
    (steps : List (ℤ × Choice)) :
    ((start graph store).follow steps).place.history.length = steps.length := by
  rw [length_history_follow]
  exact Nat.zero_add _

/-- Going back to the `k`-th of some choices that were taken from the start of a graph. -/
theorem exists_rewound_start (graph : Graph) (store : VariableStore) (steps : List (ℤ × Choice))
    {k : ℕ} (h : k < steps.length) : ∃ back,
      ((start graph store).follow steps).jump? k = some back ∧
      Rewound ((start graph store).follow steps) ((start graph store).follow (steps.take k))
        back := by
  have hsteps : steps.take k ++ steps[k] :: steps.drop (k + 1) = steps := by
    rw [← List.drop_eq_getElem_cons h, List.take_append_drop]
  have hrewound := (settled_start graph store).rewound (steps.take k) steps[k] (steps.drop (k + 1))
  rwa [hsteps, length_history_follow_start, List.length_take,
    Nat.min_eq_left (Nat.le_of_lt h)] at hrewound

/-- Time travel is exact.  After any choices from the start of any graph, going back to the `k`-th
of them succeeds and finds the place after the first `k`, with the variables as they are now.  Going
back in two steps is going back at once.  Every other index is refused. -/
theorem travel (graph : Graph) (store : VariableStore) (steps : List (ℤ × Choice)) :
    (∀ k < steps.length, ∃ back,
      ((start graph store).follow steps).jump? k = some back ∧
      Rewound ((start graph store).follow steps) ((start graph store).follow (steps.take k)) back) ∧
    (∀ i j : ℤ, j < i → 0 ≤ i ∧ i < steps.length →
      (((start graph store).follow steps).jump? i).bind (fun back => back.jump? j) =
        ((start graph store).follow steps).jump? j) ∧
    ∀ index : ℤ, ¬(0 ≤ index ∧ index < steps.length) →
      ((start graph store).follow steps).jump? index = none := by
  refine ⟨fun k hk => exists_rewound_start graph store steps hk, ?_, ?_⟩
  · rintro i j hji ⟨hi, hlt⟩
    obtain ⟨i, rfl⟩ := Int.eq_ofNat_of_zero_le hi
    have hlt : i < steps.length := by omega
    obtain ⟨back, hback, hrewound⟩ := exists_rewound_start graph store steps hlt
    have hlength : ((start graph store).follow (steps.take i)).place.history.length = i := by
      rw [length_history_follow_start, List.length_take, Nat.min_eq_left (Nat.le_of_lt hlt)]
    rw [hback, Option.bind_some]
    apply hrewound.again
    rwa [hlength]
  · intro index hindex
    apply jump?_eq_none
    rwa [length_history_follow_start]

end Player

end Narrative
