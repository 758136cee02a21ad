import Mathlib.Data.Int.Notation
import Mathlib.Data.Option.NAry
import Narrative.Proofs.Table
import Narrative.Story.Edit

/-!
# Parts

A node is a part of a graph, a choice of a node, an operation of a choice.  A change of a part is a
change of the whole, refused where there is no such part.  Two changes of one part, made one after
the other, are one change of the whole; changes of two parts that lie apart can be made in either
order, and whether one of them is refused does not depend on the other.  Parts may be nested: what
holds of the changes of a part holds of them as changes of the whole.
-/

namespace Narrative

variable {α β γ : Type}

/-- Two changes lead to the same in either order, and neither decides whether the other is
refused. -/
structure Interchange (first next : α → Option α) : Prop where
  order : ∀ a, (first a).bind next = (next a).bind first
  left : ∀ a b, next a = some b → (first b).isSome = (first a).isSome
  right : ∀ a b, first a = some b → (next b).isSome = (next a).isSome

theorem Interchange.symm {first next : α → Option α} (h : Interchange first next) :
    Interchange next first := ⟨fun a => (h.order a).symm, h.right, h.left⟩

theorem interchange_some {first next : α → α} (h : ∀ a, next (first a) = first (next a)) :
    Interchange (fun a => some (first a)) (fun a => some (next a)) where
  order a := congrArg some (h a)
  left _ _ _ := rfl
  right _ _ _ := rfl

/-- A part that some things have, and that can be replaced in them. -/
structure Component (α β : Type) where
  /-- The part, if there is one. -/
  find : α → Option β
  /-- The thing with another part. -/
  put : α → β → α
  find_put : ∀ {a old} new, find a = some old → find (put a new) = some new
  put_put : ∀ a old new, put (put a old) new = put a new

namespace Component

/-- Change a part, if there is one and the change goes through. -/
def edit (part : Component α β) (change : β → Option β) (a : α) : Option α :=
  (part.find a).bind fun old => (change old).map (part.put a)

variable {part : Component α β} {first next merged : β → Option β}

theorem edit_eq_some {change : β → Option β} {a b : α} :
    part.edit change a = some b ↔
      ∃ old new, part.find a = some old ∧ change old = some new ∧ part.put a new = b := by
  simp only [edit, Option.bind_eq_some_iff, Option.map_eq_some_iff, exists_and_left]

theorem isSome_edit {change : β → Option β} {a : α} {old : β} (h : part.find a = some old) :
    (part.edit change a).isSome = (change old).isSome := by
  rw [edit, h, Option.bind_some, Option.isSome_map]

/-- Two changes of a part are one change of the whole. -/
theorem edit_edit (part : Component α β) (first next : β → Option β) (a : α) :
    (part.edit first a).bind (part.edit next) =
      part.edit (fun old => (first old).bind next) a := by
  cases hfind : part.find a with
  | none => simp [edit, hfind]
  | some old =>
    cases hfirst : first old with
    | none => simp [edit, hfind, hfirst]
    | some new =>
      have hput : part.put (part.put a new) = part.put a := funext (part.put_put a new)
      simp [edit, hfind, hfirst, part.find_put new hfind, hput]

theorem interchange_edit (h : Interchange first next) :
    Interchange (part.edit first) (part.edit next) := by
  have hkeeps {change other : β → Option β}
      (hpart : ∀ old new, other old = some new → (change new).isSome = (change old).isSome)
      (a b : α) (hedit : part.edit other a = some b) :
      (part.edit change b).isSome = (part.edit change a).isSome := by
    obtain ⟨old, new, hfind, hother, rfl⟩ := edit_eq_some.1 hedit
    rw [isSome_edit (part.find_put new hfind), isSome_edit hfind]
    exact hpart old new hother
  refine ⟨fun a => ?_, hkeeps h.left, hkeeps h.right⟩
  rw [edit_edit, edit_edit]
  exact congrArg (part.edit · a) (funext h.order)

/-! ## Parts that lie apart -/

/-- Neither part is touched when the other is replaced, and both can be replaced in either order. -/
structure Apart (part : Component α β) (other : Component α γ) : Prop where
  left : ∀ a new, (other.find a).isSome → part.find (other.put a new) = part.find a
  right : ∀ a new, (part.find a).isSome → other.find (part.put a new) = other.find a
  put : ∀ a new newer, (part.find a).isSome → (other.find a).isSome →
    other.put (part.put a new) newer = part.put (other.put a newer) new

variable {other : Component α γ}

theorem Apart.symm (h : part.Apart other) : other.Apart part where
  left := h.right
  right := h.left
  put a new newer hother hpart := (h.put a newer new hpart hother).symm

/-- Whether a change of a part is refused is not decided by a change of the other part. -/
theorem Apart.isSome_edit (h : part.Apart other) (first : β → Option β) {next : γ → Option γ}
    {a b : α} (hedit : other.edit next a = some b) :
    (part.edit first b).isSome = (part.edit first a).isSome := by
  obtain ⟨old, new, hother, -, rfl⟩ := edit_eq_some.1 hedit
  have hfind := h.left a new (Option.isSome_of_eq_some hother)
  cases hpart : part.find a with
  | none => simp [edit, hfind, hpart]
  | some found => rw [Component.isSome_edit (hfind.trans hpart), Component.isSome_edit hpart]

/-- Both changes find what there was at first. -/
theorem Apart.edit_edit (h : part.Apart other) (first : β → Option β) (next : γ → Option γ)
    (a : α) :
    (part.edit first a).bind (other.edit next) =
      Option.map₂ (fun new newer => other.put (part.put a new) newer)
        ((part.find a).bind first) ((other.find a).bind next) := by
  cases hpart : part.find a with
  | none => simp [edit, hpart]
  | some old =>
    have hfind (new : β) := h.right a new (Option.isSome_of_eq_some hpart)
    cases hfirst : first old with
    | none => simp [edit, hpart, hfirst]
    | some new => cases hother : other.find a <;> simp [edit, hpart, hfirst, hfind, hother]

theorem Apart.interchange (h : part.Apart other) (first : β → Option β) (next : γ → Option γ) :
    Interchange (part.edit first) (other.edit next) where
  order a := by
    rw [h.edit_edit, h.symm.edit_edit, Option.map₂_swap]
    cases hnewer : (other.find a).bind next with
    | none => rfl
    | some newer =>
      cases hnew : (part.find a).bind first with
      | none => rfl
      | some new =>
        obtain ⟨old, hpart, -⟩ := Option.bind_eq_some_iff.1 hnew
        obtain ⟨older, hother, -⟩ := Option.bind_eq_some_iff.1 hnewer
        exact congrArg some (h.put a new newer (Option.isSome_of_eq_some hpart)
          (Option.isSome_of_eq_some hother))
  left _ _ := h.isSome_edit first
  right _ _ := h.symm.isSome_edit next

/-- A change of the whole that leaves a part alone. -/
structure Spared (part : Component α β) (change : α → α) : Prop where
  find : ∀ a, part.find (change a) = part.find a
  put : ∀ a new, part.put (change a) new = change (part.put a new)

theorem Spared.interchange {change : α → α} (h : part.Spared change) (next : β → Option β) :
    Interchange (fun a => some (change a)) (part.edit next) where
  order a := by
    simp only [Option.bind_some, edit, h.find, funext (h.put a)]
    cases part.find a with
    | none => rfl
    | some old => cases hnext : next old <;> simp [hnext]
  left _ _ _ := rfl
  right a b hchange := by
    obtain rfl := Option.some.inj hchange
    cases hfind : part.find a with
    | none => simp [edit, h.find, hfind]
    | some old => rw [Component.isSome_edit ((h.find a).trans hfind), Component.isSome_edit hfind]

end Component

/-- The item at an index of a list. -/
def itemAt (index : ℤ) : Component (List α) α where
  find items :=
    match index with
    | .ofNat n => items[n]?
    | .negSucc _ => none
  put items item :=
    match index with
    | .ofNat n => items.set n item
    | .negSucc _ => items
  find_put new hfind := by
    cases index with
    | ofNat n => simp [(List.getElem?_eq_some_iff.1 hfind).1]
    | negSucc n => exact absurd hfind (by simp)
  put_put items old new := by
    cases index with
    | ofNat n => simp
    | negSucc n => rfl

theorem find_itemAt_put {first next : ℤ} (h : first ≠ next) (items : List α) (new : α) :
    (itemAt first).find ((itemAt next).put items new) = (itemAt first).find items := by
  cases first with
  | negSucc m => rfl
  | ofNat m =>
    cases next with
    | negSucc n => rfl
    | ofNat n => exact List.getElem?_set_ne fun heq => h (congrArg Int.ofNat heq.symm)

theorem apart_itemAt {first next : ℤ} (h : first ≠ next) :
    (itemAt first : Component (List α) α).Apart (itemAt next) where
  left items new _ := find_itemAt_put h items new
  right items new _ := find_itemAt_put h.symm items new
  put items new newer _ _ := by
    cases first with
    | negSucc m => rfl
    | ofNat m =>
      cases next with
      | negSucc n => rfl
      | ofNat n => exact List.set_comm _ _ fun heq => h (congrArg Int.ofNat heq)

/-! ## Nodes, choices and operations -/

/-- The node under a key of a graph. -/
def Graph.nodeAt (key : String) : Component Graph Node where
  find graph := graph.node? key
  put graph node := { graph with nodes := graph.nodes.insert key node }
  find_put new _ := by rw [node?, Table.get?_insert, if_pos rfl]
  put_put graph old new := by simp only [Table.insert_insert]

/-- The choices of a node. -/
def Node.choicesPart : Component Node (List Choice) where
  find node := some node.choices
  put node choices := { node with choices }
  find_put _ _ := rfl
  put_put _ _ _ := rfl

/-- The operations of a choice. -/
def Choice.operationsPart : Component Choice (List VariableOperation) where
  find choice := some choice.operations
  put choice operations := { choice with operations }
  find_put _ _ := rfl
  put_put _ _ _ := rfl

theorem Graph.find_nodeAt_put {key other : String} (h : key ≠ other) (graph : Graph) (new : Node) :
    (nodeAt key).find ((nodeAt other).put graph new) = (nodeAt key).find graph := by
  change (graph.nodes.insert other new).get? key = _
  rw [Table.get?_insert, if_neg h.symm]
  rfl

theorem Graph.apart_nodeAt {key other : String} (h : key ≠ other) :
    (nodeAt key).Apart (nodeAt other) where
  left graph new _ := find_nodeAt_put h graph new
  right graph new _ := find_nodeAt_put h.symm graph new
  put graph new newer hkey _ :=
    congrArg (fun nodes => { graph with nodes }) (Table.insert_comm h hkey new newer)

end Narrative
