import Narrative.Proofs.Session.Plans
import Narrative.Proofs.Variable.Bounds

/-!
# Sound sessions

A session is sound if all its values are finite and its status fits the node where the reader is.
A kept store opens sound sessions only, and playing keeps them sound.  So the position that a step
saves reads back, and opening the story again gives the session that was saved.
-/

namespace Narrative

open Decimal (isFinite)

variable {records : Records} {id : Identifier} {session : Session} {now : Instant} {time : ℤ}

/-- The clock tells the time. -/
def Instant.Readable (now : Instant) : Prop := ∃ time, now.millis = .ok time

theorem Instant.readable_of_isFinite (h : isFinite (now.seconds * 1000.0)) : now.Readable :=
  ⟨_, by rw [millis, cutDown, if_pos h]⟩

/-- The start of the epoch is zero. -/
theorem Instant.millis_zero : (Instant.mk 0.0).millis = .ok 0 := by
  have htruncate : Decimal.truncate (0.0 * 1000.0) = 0 := by decide +kernel
  rw [millis, cutDown, if_pos (by decide), htruncate]

theorem shortTime_of_millis (h : now.millis = .ok time) : ShortTime time := by
  unfold Instant.millis Instant.cutDown at h
  generalize now.seconds * 1000.0 = x at h
  split at h
  case isTrue hfinite =>
    have hbits : Decimal.magnitudeBits x < Decimal.infinity := by
      simpa [isFinite] using hfinite
    have hshift := Decimal.shift_le hbits
    have hlimit : 53 + Decimal.shift (Decimal.magnitudeBits x) ≤ Numeral.digitLimit := by
      change _ ≤ 4300
      omega
    have hsize : (Decimal.truncate x).natAbs =
        Decimal.units (Decimal.magnitudeBits x) / Decimal.unitsPerOne := by
      unfold Decimal.truncate
      split
      · rw [Int.natAbs_neg]
        rfl
      · rfl
    rw [← Except.ok.inj h, ShortTime, hsize]
    calc Decimal.units (Decimal.magnitudeBits x) / Decimal.unitsPerOne
        ≤ Decimal.units (Decimal.magnitudeBits x) := Nat.div_le_self _ _
      _ < 10 ^ (53 + Decimal.shift (Decimal.magnitudeBits x)) := Decimal.units_lt _
      _ ≤ 10 ^ Numeral.digitLimit := Nat.pow_le_pow_right (by decide) hlimit
  case isFalse =>
    split at h <;> exact absurd h (by simp)

theorem isFinite_keptNumber {default : Float} (h : isFinite default) (x : Float) :
    isFinite (Json.keptNumber default x) := by
  unfold Json.keptNumber
  split
  · assumption
  · exact h

theorem Definitions.finite_kept (definitions : Definitions) : definitions.kept.Finite := by
  intro category definition hdefinition
  rw [Definitions.kept, Categorized.get_ofFn] at hdefinition
  obtain ⟨definition, -, rfl⟩ := List.mem_map.1 hdefinition
  exact ⟨isFinite_keptNumber (by decide) _, isFinite_keptNumber (by decide) _,
    isFinite_keptNumber (by decide) _⟩

/-- What can be stored of finite definitions is all of them. -/
theorem Definitions.kept_of_finite {definitions : Definitions} (h : definitions.Finite) :
    definitions.kept = definitions := by
  have hkept {definition : VariableDefinition} (h : definition.Finite) :
      definition.kept = definition := by
    unfold VariableDefinition.kept Json.keptNumber
    rw [if_pos h.initial, if_pos h.min, if_pos h.max]
  apply Categorized.ext_get
  intro category
  rw [Definitions.kept, Categorized.get_ofFn]
  calc (definitions.get category).map VariableDefinition.kept
      = (definitions.get category).map id :=
        List.map_congr_left fun definition hdefinition => hkept (h category definition hdefinition)
    _ = definitions.get category := List.map_id _

theorem VariableDefinition.proper_percentage {initial : Float} (hinitial : isFinite initial)
    (hmin : 0.0 ≤ initial) (hmax : initial ≤ 100.0) (id name : String) :
    (percentage id name initial).Proper where
  initial := hinitial
  min := show isFinite 0.0 by decide
  max := show isFinite 100.0 by decide
  min_le_initial := hmin
  initial_le_max := hmax

/-- The variables of a new story are proper. -/
theorem Definitions.proper_default :
    ∀ category, ∀ definition ∈ Definitions.default.get category, definition.Proper := by
  intro category
  cases category <;>
    simp only [Definitions.default, Categorized.get, List.forall_mem_cons, List.not_mem_nil,
      false_imp_iff, implies_true, and_true] <;>
    refine ⟨?_, ?_, ?_⟩ <;>
    exact VariableDefinition.proper_percentage (by decide) (by decide) (by decide) _ _

theorem Definitions.finite_default : Definitions.default.Finite :=
  fun category definition h => (proper_default category definition h).toFinite

namespace VariableStore

theorem Finite.reset {store : VariableStore} (h : store.Finite) : store.reset.Finite :=
  finite_ofDefinitions h.definitions

theorem Finite.restore {store : VariableStore} (h : store.Finite) {values : ValueTable}
    (hvalues : values.Finite) : (store.restore values).Finite where
  definitions := h.definitions
  values := by
    intro category
    rw [values_restore]
    cases hgroup : values.get? category with
    | none => exact Table.all_empty _
    | some group => exact hvalues _ (Table.mem_of_findEntry hgroup)

theorem Finite.snapshot {store : VariableStore} (h : store.Finite) : store.snapshot.Finite := by
  intro group hgroup
  rw [entries_snapshot] at hgroup
  obtain ⟨category, -, rfl⟩ := List.mem_map.1 hgroup
  exact h.values category

end VariableStore

/-! ## Sound sessions -/

namespace Session

/-- The session is as one that has just been opened could be. -/
structure Sound (session : Session) : Prop where
  ownGraph : session.ownGraph = none
  status : session.place.status = .at? (session.graph.node? session.place.nodeId)
  store : session.store.Finite
  history : ShortTimes session.place.history

theorem Sound.playedGraph (h : session.Sound) : session.playedGraph = session.graph := by
  rw [Session.playedGraph, h.ownGraph, Option.getD_none]

/-- Moving to a node makes the status fit the node. -/
theorem Sound.moveTo (h : session.Sound) {player : Player}
    (hgraph : player.graph = session.playedGraph) (hstore : player.store.Finite)
    (nodeId : String) {history : List HistoryEntry} (hhistory : ShortTimes history) :
    (session.withPlayer (player.moveTo nodeId history)).Sound where
  ownGraph := h.ownGraph
  status := by
    change Status.at? (player.graph.node? nodeId) = _
    rw [hgraph, h.playedGraph]
    rfl
  store := hstore
  history := hhistory

theorem Sound.restart (h : session.Sound) : session.restart.Sound :=
  h.moveTo rfl h.store.reset _ (by simp [ShortTimes])

theorem Sound.resume (h : session.Sound) {position : SaveSlot} (hposition : position.Readable) :
    (session.withPlayer (session.player.resume position)).Sound :=
  h.moveTo rfl (h.store.restore hposition.values) _ hposition.history

theorem Sound.execute (h : session.Sound) (htime : ShortTime time) (choice : Choice) :
    (session.withPlayer (session.player.execute time choice)).Sound := by
  have hhistory : ShortTimes (session.place.history ++ [session.player.entry time choice]) := by
    intro entry hentry
    rcases List.mem_append.1 hentry with hold | hnew
    · exact h.history entry hold
    · rw [List.mem_singleton.1 hnew]
      exact htime
  exact h.moveTo rfl (h.store.foldl_perform choice.operations) _ hhistory

theorem Sound.jump (h : session.Sound) {index : ℤ} {player : Player}
    (hjump : session.player.jump? index = some player) : (session.withPlayer player).Sound := by
  cases index with
  | negSucc n => simp [Player.jump?] at hjump
  | ofNat n =>
    obtain ⟨entry, -, rfl⟩ := Option.map_eq_some_iff.1 hjump
    exact h.moveTo rfl h.store _ fun entry hentry => h.history entry (List.mem_of_mem_take hentry)

/-- A step of play keeps a session sound. -/
theorem Sound.leads (h : session.Sound) (htime : ShortTime time)
    {slots : String → Option SaveSlot}
    (hslots : ∀ name position, slots name = some position → position.Readable)
    {payload : Json.Fields} {action : PlayAction} {result : Session}
    (hresult : PlayAction.Leads payload time slots session action result) : result.Sound := by
  cases hresult with
  | stay => exact h
  | restart => exact h.restart
  | execute choice => exact h.execute htime choice
  | jump hjump => exact h.jump hjump
  | resume _ _ hslot => exact h.resume (hslots _ _ hslot)

theorem timely_position (session : Session) (h : ShortTimes session.place.history)
    (htime : ShortTime time) : (session.player.position time).Timely := ⟨h, htime⟩

theorem Sound.readable_position (h : session.Sound) (htime : ShortTime time) :
    (session.player.position time).Readable where
  toTimely := timely_position session h.history htime
  values := h.store.snapshot

end Session

/-! ## Opening -/

namespace Stored

theorem finite_definitions (h : Kept records) (id : Identifier) :
    (definitions records id).Finite := by
  unfold definitions
  cases htext : records.get? (StoreKey.story id .definitions).text with
  | none => exact Definitions.finite_default
  | some text =>
    obtain ⟨stored, rfl⟩ := h.definitions id text htext
    simpa [Repository.parsed_definitions, Except.toOption] using stored.finite_kept

/-- Whatever is read from a save slot has been saved there. -/
theorem readable_slot (h : Kept records) {name : String} {position : SaveSlot}
    (hslot : slot records id name = some position) : position.Readable := by
  unfold slot at hslot
  cases htext : records.get? (StoreKey.story id (.slot name)).text with
  | none => simp [htext] at hslot
  | some text =>
    obtain ⟨written, htimely, rfl⟩ := h.slot id name text htext
    rw [htext, Option.bind_some] at hslot
    obtain ⟨rfl, hreadable⟩ := Repository.eq_of_parsedSlot htimely hslot
    exact hreadable

theorem sound_fresh (story : String) {definitions : Definitions} (h : definitions.Finite)
    (graph : Graph) : (Session.fresh story definitions graph).Sound where
  ownGraph := rfl
  status := rfl
  store := VariableStore.finite_ofDefinitions h
  history := by simp [Session.fresh, Player.start, Player.moveTo, ShortTimes]

/-- A kept store opens sound sessions. -/
theorem sound_session (h : Kept records) (id : Identifier) : (Stored.session records id).Sound := by
  have hfresh := sound_fresh id.spelling (finite_definitions h id) (graph records id)
  unfold Stored.session
  cases hslot : slot records id Repository.autosaveSlot with
  | none => exact hfresh
  | some position => exact hfresh.resume (readable_slot h hslot)

theorem definitions_session (records : Records) (id : Identifier) :
    (Stored.session records id).store.definitions = definitions records id := by
  unfold Stored.session
  cases slot records id Repository.autosaveSlot <;> rfl

theorem graph_session (records : Records) (id : Identifier) :
    (Stored.session records id).graph = graph records id := by
  unfold Stored.session
  cases slot records id Repository.autosaveSlot <;> rfl

theorem slot_of_text {name : String} {position : SaveSlot} (h : position.Readable)
    (htext : records.get? (StoreKey.story id (.slot name)).text = some position.toJson.text) :
    slot records id name = some position := by
  rw [slot, htext, Option.bind_some, Repository.parsedSlot_text h]

/-- A story opens with the session whose position was saved last, as long as its definitions and
its graph are the stored ones. -/
theorem session_eq_of_saved (h : session.Sound) (hstory : session.story = id.spelling)
    (htime : ShortTime time) (hdefinitions : definitions records id = session.store.definitions)
    (hgraph : graph records id = session.graph)
    (hslot : records.get? (StoreKey.story id (.slot Repository.autosaveSlot)).text =
      some (session.player.position time).toJson.text) : Stored.session records id = session := by
  have hrestored := VariableStore.restore_snapshot
    (VariableStore.ofDefinitions session.store.definitions).reset session.store
  have hplace := h.status
  have hown := h.ownGraph
  rw [Stored.session, slot_of_text (h.readable_position htime) hslot, hdefinitions, hgraph,
    ← hstory]
  obtain ⟨story, graph, ownGraph, store, place⟩ := session
  simp only at hown hplace
  subst hown
  change Session.mk story graph none (VariableStore.restore _ store.snapshot)
    ⟨place.nodeId, place.history, .at? (graph.node? place.nodeId)⟩ = _
  rw [← hplace]
  congr 1

end Stored

end Narrative
