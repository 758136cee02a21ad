import Narrative.Playback.Take
import Narrative.Proofs.Variable.Bounds

/-!
# Choosing

The checks of a choice let an index through exactly if the reader is shown an available choice at
it.  Taking the choice carries its operations out on the shown values, one after the other, and adds
one entry to the history.
-/

namespace Narrative

/-! ## What operations make of the shown values -/

/-- What an operation makes of a number and its operand.  Dividing by zero leaves the number as it
is. -/
inductive OperationKind.Makes : OperationKind → Float → Float → Float → Prop where
  | add (current operand : Float) : Makes .add current operand (current + operand)
  | subtract (current operand : Float) : Makes .subtract current operand (current - operand)
  | multiply (current operand : Float) : Makes .multiply current operand (current * operand)
  | divide (current : Float) {operand : Float} (h : ¬operand == 0) :
      Makes .divide current operand (current / operand)
  | divideByZero (current : Float) {operand : Float} (h : operand == 0) :
      Makes .divide current operand current
  | set (current operand : Float) : Makes .set current operand operand

theorem OperationKind.makes_iff {kind : OperationKind} {current operand result : Float} :
    kind.Makes current operand result ↔ result = kind.apply current operand := by
  constructor
  · intro h
    cases h with
    | add | subtract | multiply | set => rfl
    | divide _ h => exact (if_neg h).symm
    | divideByZero _ h => exact (if_pos h).symm
  · rintro rfl
    cases kind with
    | add => exact .add ..
    | subtract => exact .subtract ..
    | multiply => exact .multiply ..
    | divide =>
      change Makes .divide current operand (if operand == 0 then current else current / operand)
      split
      case isTrue h => exact .divideByZero current h
      case isFalse h => exact .divide current h
    | set => exact .set ..

/-- What is left of a number within the bounds of a definition.  A number between them stays; one
that is not below the upper bound, like an undefined one, gives way to that bound; every other one
gives way to the lower bound, which also wins where the bounds cross. -/
inductive VariableDefinition.Confines (definition : VariableDefinition) : Float → Float → Prop where
  | between {value : Float} (hmin : definition.min < value) (hmax : value < definition.max) :
      Confines definition value value
  | above {value : Float} (hmax : ¬value < definition.max)
      (hbounds : definition.min < definition.max) : Confines definition value definition.max
  | below {value : Float} (hmin : ¬definition.min < value) (hmax : value < definition.max) :
      Confines definition value definition.min
  | crossed {value : Float} (hmax : ¬value < definition.max)
      (hbounds : ¬definition.min < definition.max) : Confines definition value definition.min

theorem VariableDefinition.confines_iff {definition : VariableDefinition} {value result : Float} :
    definition.Confines value result ↔ result = definition.clamp value := by
  unfold clamp greater lesser
  constructor
  · intro h
    cases h with
    | between hmin hmax => rw [if_pos hmax, if_pos hmin]
    | above hmax hbounds => rw [if_neg hmax, if_pos hbounds]
    | below hmin hmax => rw [if_pos hmax, if_neg hmin]
    | crossed hmax hbounds => rw [if_neg hmax, if_neg hbounds]
  · rintro rfl
    by_cases hmax : value < definition.max
    · rw [if_pos hmax]
      by_cases hmin : definition.min < value
      · rw [if_pos hmin]
        exact .between hmin hmax
      · rw [if_neg hmin]
        exact .below hmin hmax
    · rw [if_neg hmax]
      by_cases hbounds : definition.min < definition.max
      · rw [if_pos hbounds]
        exact .above hmax hbounds
      · rw [if_neg hbounds]
        exact .crossed hmax hbounds

/-- The definition is the first one of a variable. -/
def Definitions.FirstOf (definitions : Definitions) (category : Category) (id : String)
    (definition : VariableDefinition) : Prop :=
  ∃ ahead behind, definitions.get category = ahead ++ definition :: behind ∧
    definition.id = id ∧ ∀ other ∈ ahead, other.id ≠ id

theorem Definitions.firstOf_iff {definitions : Definitions} {category : Category} {id : String}
    {definition : VariableDefinition} :
    definitions.FirstOf category id definition ↔
      definitions.find category id = some definition := by
  rw [find, List.find?_eq_some_iff_append]
  simp only [decide_eq_true_iff, Bool.not_eq_true', decide_eq_false_iff_not, FirstOf]
  constructor
  · rintro ⟨ahead, behind, hgroup, hid, hahead⟩
    exact ⟨hid, ahead, behind, hgroup, hahead⟩
  · rintro ⟨hid, ahead, behind, hgroup, hahead⟩
    exact ⟨ahead, behind, hgroup, hid, hahead⟩

/-- The shown value of a variable; zero where it has none. -/
def ValueTable.shown (values : ValueTable) (category : Category) (id : String) : Float :=
  ((values.get? category).bind fun group => group.get? id).getD 0.0

/-- The shown values with the value of one variable written. -/
def ValueTable.write (values : ValueTable) (category : Category) (id : String) (value : Float) :
    ValueTable :=
  values.insert category (((values.get? category).getD .empty).insert id value)

/-- An operation leads from some shown values to others: what it makes of the shown value of a
defined variable is written within the bounds of the variable, and on an undefined variable it is
dropped. -/
inductive VariableOperation.Leads (definitions : Definitions) (operation : VariableOperation) :
    ValueTable → ValueTable → Prop where
  | written {values : ValueTable} {definition : VariableDefinition} {made result : Float}
      (hdefined : definitions.FirstOf operation.category operation.target definition)
      (hmade : operation.kind.Makes (values.shown operation.category operation.target)
        operation.value made)
      (hresult : definition.Confines made result) :
      Leads definitions operation values
        (values.write operation.category operation.target result)
  | dropped {values : ValueTable}
      (hundefined : ∀ definition, ¬definitions.FirstOf operation.category operation.target
        definition) : Leads definitions operation values values

/-- Operations lead from some shown values to others if each of them goes on from what the one
before it has left. -/
inductive Definitions.Leads (definitions : Definitions) :
    List VariableOperation → ValueTable → ValueTable → Prop where
  | nil (values : ValueTable) : Leads definitions [] values values
  | cons {operation : VariableOperation} {rest : List VariableOperation}
      {values next result : ValueTable} (hfirst : operation.Leads definitions values next)
      (hrest : Leads definitions rest next result) :
      Leads definitions (operation :: rest) values result

/-- What an operation leads to is settled by what it starts from. -/
theorem VariableOperation.Leads.unique {definitions : Definitions} {operation : VariableOperation}
    {values result other : ValueTable} (h : operation.Leads definitions values result)
    (hother : operation.Leads definitions values other) : result = other := by
  cases h with
  | written hdefined hmade hresult =>
    cases hother with
    | dropped hundefined => exact absurd hdefined (hundefined _)
    | written hother hagain hlast =>
      rw [Definitions.firstOf_iff] at hdefined hother
      cases hdefined.symm.trans hother
      rw [VariableDefinition.confines_iff, OperationKind.makes_iff.1 hmade] at hresult
      rw [VariableDefinition.confines_iff, OperationKind.makes_iff.1 hagain] at hlast
      rw [hresult, hlast]
  | dropped hundefined =>
    cases hother with
    | written hdefined => exact absurd hdefined (hundefined _)
    | dropped => rfl

theorem Definitions.Leads.unique {definitions : Definitions} {operations : List VariableOperation}
    {values result other : ValueTable} (h : definitions.Leads operations values result)
    (hother : definitions.Leads operations values other) : result = other := by
  induction h with
  | nil => cases hother; rfl
  | cons hfirst _ ih =>
    cases hother with
    | cons hagain hrest => exact ih (hfirst.unique hagain ▸ hrest)

namespace VariableStore

theorem snapshot_write (store : VariableStore) (category : Category) (id : String)
    (value : Float) :
    (store.write category id value).snapshot = store.snapshot.write category id value := by
  rw [ValueTable.write, get?_snapshot, Option.getD_some]
  apply Table.ext_entries
  change _ = Table.setEntry category _ store.snapshot.entries
  rw [entries_snapshot, entries_snapshot]
  cases category <;> rfl

theorem shown_snapshot (store : VariableStore) (category : Category) (id : String) :
    store.snapshot.shown category id = store.get category id := by
  rw [ValueTable.shown, get?_snapshot]
  rfl

/-- What an operation does to the variables is shown as what it says. -/
theorem leads_perform (store : VariableStore) (operation : VariableOperation) :
    operation.Leads store.definitions store.snapshot (store.perform operation).snapshot := by
  unfold perform modify set definition?
  cases hdefinition : store.definitions.find operation.category operation.target with
  | none =>
    refine .dropped fun definition hdefined => ?_
    exact absurd (hdefinition.symm.trans (Definitions.firstOf_iff.1 hdefined)) (by simp)
  | some definition =>
    simp only [snapshot_write]
    refine .written (Definitions.firstOf_iff.2 hdefinition) (OperationKind.makes_iff.2 ?_)
      (VariableDefinition.confines_iff.2 rfl)
    rw [shown_snapshot]

theorem leads_foldl_perform (store : VariableStore) (operations : List VariableOperation) :
    store.definitions.Leads operations store.snapshot
      (operations.foldl perform store).snapshot := by
  induction operations generalizing store with
  | nil => exact .nil _
  | cons operation rest ih =>
    have hrest := ih (store.perform operation)
    rw [definitions_perform] at hrest
    exact .cons (store.leads_perform operation) hrest

end VariableStore

/-! ## Checked choices -/

theorem itemAt?_of_nonneg {α : Type} (items : List α) {index : ℤ} (h : 0 ≤ index) :
    itemAt? items index = items[index.toNat]? := by
  cases index with
  | ofNat n => rfl
  | negSucc n => exact absurd h (by omega)

namespace Player

variable {player : Player}

/-- A place that offers choices is a node. -/
theorem node?_of_choice {index : ℕ} {choice : AvailableChoice}
    (h : player.choices[index]? = some choice) : ∃ node, player.node? = some node := by
  unfold choices at h
  cases hnode : player.node? with
  | none => simp [hnode] at h
  | some node => exact ⟨node, rfl⟩

/-- Checks let an index through if each of them does. -/
theorem forM_run_eq_ok {checks : List ChoiceCheck} {index : ℤ} :
    (checks.forM fun check => check.run player index) = .ok () ↔
      ∀ check ∈ checks, check.run player index = .ok () := by
  induction checks with
  | nil => simp [pure, Except.pure]
  | cons check rest ih =>
    rw [List.forall_mem_cons, ← ih]
    cases hcheck : check.run player index with
    | error failure => simp [List.forM, hcheck, Bind.bind, Except.bind]
    | ok value => simp [List.forM, hcheck, Bind.bind, Except.bind]

theorem checked_eq_ok {checks : List ChoiceCheck} {index : ℤ} {choice : AvailableChoice} :
    player.checked checks index = .ok choice ↔
      (∀ check ∈ checks, check.run player index = .ok ()) ∧
        itemAt? player.choices index = some choice := by
  rw [← forM_run_eq_ok, checked]
  cases (checks.forM fun check => check.run player index) with
  | error failure => simp [Bind.bind, Except.bind]
  | ok value =>
    cases itemAt? player.choices index <;> simp [Bind.bind, Except.bind, pure, Except.pure]

theorem run_indexInRange {index : ℤ} :
    ChoiceCheck.indexInRange.run player index = .ok () ↔
      0 ≤ index ∧ index < player.choices.length := by
  rw [ChoiceCheck.run]
  split <;> simp [*]

theorem run_available {index : ℤ} :
    ChoiceCheck.available.run player index = .ok () ↔
      ∃ choice, itemAt? player.choices index = some choice ∧ choice.available := by
  rw [ChoiceCheck.run]
  cases itemAt? player.choices index with
  | none => simp
  | some choice => cases h : choice.available <;> simp [h]

/-- The usual checks let an index through exactly if an available choice is shown at it. -/
theorem checked_all_eq_ok {index : ℤ} {choice : AvailableChoice} :
    player.checked ChoiceCheck.all index = .ok choice ↔
      0 ≤ index ∧ player.choices[index.toNat]? = some choice ∧ choice.available := by
  simp only [checked_eq_ok, ChoiceCheck.all, List.forall_mem_cons, run_indexInRange, run_available]
  constructor
  · rintro ⟨⟨-, ⟨hindex, -⟩, ⟨found, hfound, havailable⟩, -⟩, hitem⟩
    cases hfound.symm.trans hitem
    exact ⟨hindex, (itemAt?_of_nonneg _ hindex).symm.trans hitem, havailable⟩
  · rintro ⟨hindex, hitem, havailable⟩
    have hlength : index.toNat < player.choices.length := (List.getElem?_eq_some_iff.1 hitem).1
    have hfound := (itemAt?_of_nonneg _ hindex).trans hitem
    -- The first check needs no hypothesis: a place that offers a choice is a node.
    obtain ⟨node, hnode⟩ := node?_of_choice hitem
    refine ⟨⟨?_, ⟨hindex, by omega⟩, ⟨choice, hfound, havailable⟩, by simp⟩, hfound⟩
    rw [ChoiceCheck.run, hnode]
    rfl

/-- What is shown after a choice is taken: the place to which it leads, the shown values with its
operations carried out, and the history with one more entry. -/
theorem view_execute (player : Player) (time : ℤ) (choice : Choice) :
    (player.execute time choice).view.currentNodeId =
        (if choice.nextNode = "" then player.view.currentNodeId else choice.nextNode) ∧
      player.store.definitions.Leads choice.operations player.view.values
        (player.execute time choice).view.values ∧
      (player.execute time choice).place.history =
        player.place.history ++ [player.entry time choice] := by
  refine ⟨?_, player.store.leads_foldl_perform choice.operations, rfl⟩
  change (if choice.nextNode.isEmpty then _ else _) = _
  simp only [String.isEmpty_iff]
  rfl

end Player

end Narrative
