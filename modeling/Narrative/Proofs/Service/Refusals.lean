import Narrative.Proofs.Service.Reachable
import Narrative.Proofs.Story.Frames

/-!
# Refused requests

A command that fails stores nothing, with one exception: an imported document whose definitions can
be stored and whose graph cannot leaves its definitions behind.
-/

namespace Narrative

variable {records : Records} {id : Identifier} {now : Instant} {time : ℤ}

/-- A node that has been edited is there. -/
theorem Graph.node?_of_editNode {graph result : Graph} {key : String} {edit : Node → Option Node}
    (h : graph.editNode key edit = some result) : (result.node? key).isSome := by
  obtain ⟨node, edited, -, -, rfl⟩ := Graph.editNode_eq_some.1 h
  rw [Graph.node?, Table.get?_insert, if_pos rfl]
  rfl

/-- The definitions that a refused document leaves behind: they can be stored, and the graph that
comes with them cannot. -/
def halfImported (document : Json.Fields) : Option Definitions :=
  match Session.imported (.obj document) with
  | some (graph, some definitions) =>
    if definitions.torn.isNone ∧ graph.torn.isSome then some definitions.value else none
  | _ => none

/-- The definitions that a command leaves behind although it is refused. -/
def Command.leftover? (assets : Option Assets) : Command → Option Definitions
  | importStory document => halfImported document
  | loadDemo => assets.bind fun assets => halfImported assets.demo
  | _ => none

/-- The store after a request that is refused. -/
def Request.afterRefusal (assets : Option Assets) (records : Records) : Request → Records
  | command id wanted =>
    match wanted.leftover? assets with
    | some definitions =>
      if ¬Held records id ∧ Stored.Registered records id then
        records.insert (Repository.definitionsKey id.spelling) definitions.toJson.text
      else records
    | none => records
  | _ => records

/-! ## Plans that fail -/

namespace Session

variable {session : Session} {failure : Failure}

theorem nodePlan_of_error {key : String} {refusal : Failure} {edit : Graph → Option Graph}
    (hedit : ∀ graph result, edit graph = some result → (result.node? key).isSome)
    (h : (session.nodePlan key refusal edit).outcome = .error failure) :
    session.nodePlan key refusal edit = .refused failure := by
  unfold nodePlan at h ⊢
  cases hresult : edit session.graph with
  | none =>
    simp only [hresult] at h
    rw [Except.error.inj h]
  | some graph =>
    obtain ⟨node, hnode⟩ := Option.isSome_iff_exists.1 (hedit _ _ hresult)
    simp [hresult, hnode] at h

theorem definitionsPlan_of_error {refusal : Failure}
    {edit : Definitions → Option DefinitionsEdit}
    (h : (session.definitionsPlan time refusal edit).outcome = .error failure) :
    session.definitionsPlan time refusal edit = .refused failure := by
  unfold definitionsPlan at h ⊢
  cases hresult : edit session.store.definitions with
  | none =>
    simp only [hresult] at h
    rw [Except.error.inj h]
  | some edit => simp [hresult] at h

theorem removalPlan_of_error {key : String}
    (h : (session.removalPlan key).outcome = .error failure) :
    session.removalPlan key = .refused failure := by
  unfold removalPlan at h ⊢
  cases hresult : session.graph.removeNode key with
  | none =>
    simp only [hresult] at h
    rw [Except.error.inj h]
  | some graph => simp [hresult] at h

theorem importPlan_of_error {refusal : Failure} {document : Json.Fields}
    (h : (session.importPlan time refusal document).outcome = .error failure) :
    session.importPlan time refusal document =
      { definitions := halfImported document, outcome := .error failure } := by
  unfold importPlan halfImported at *
  cases hfound : imported (.obj document) with
  | none =>
    simp only [hfound] at h
    rw [Except.error.inj h]
    rfl
  | some found =>
    obtain ⟨graph, definitions⟩ := found
    simp only [hfound] at h ⊢
    unfold Schema.Draft.storable at *
    rcases definitions with - | ⟨value, torn⟩
    · cases htorn : graph.torn with
      | none => simp [htorn] at h
      | some points =>
        simp only [htorn, Option.bind_none, Option.map_none] at h ⊢
        rw [Except.error.inj h]
    · cases torn with
      | some points =>
        simp only [Option.bind_some] at h ⊢
        rw [Except.error.inj h]
        simp [Plan.refused]
      | none =>
        cases htorn : graph.torn with
        | none => simp [htorn] at h
        | some points =>
          simp only [htorn, Option.bind_some, Option.map_some] at h ⊢
          rw [Except.error.inj h]
          simp

/-- A document that leaves definitions behind is refused. -/
theorem importPlan_of_halfImported {refusal : Failure} {document : Json.Fields}
    {definitions : Definitions} (h : halfImported document = some definitions) :
    ∃ points, (session.importPlan time refusal document).outcome =
      .error (.unwritableText points) := by
  unfold halfImported at h
  unfold importPlan
  split at h
  case h_2 => exact absurd h (by simp)
  case h_1 graph draft hfound =>
    split at h
    case isFalse => exact absurd h (by simp)
    case isTrue htorn =>
      obtain ⟨points, hpoints⟩ := Option.isSome_iff_exists.1 htorn.2
      have hnone : draft.torn = none := by simpa using htorn.1
      refine ⟨points, ?_⟩
      simp [hfound, hnone, Schema.Draft.storable, hpoints]

end Session

namespace Command

theorem actionPlan_of_error {payload : Json.Fields} {slots : String → Option SaveSlot}
    {session : Session} {action : PlayAction} {failure : Failure}
    (h : (actionPlan time payload slots session action).outcome = .error failure) :
    actionPlan time payload slots session action = .refused failure := by
  unfold actionPlan PlayAction.autosaved at h ⊢
  split at h
  case h_1 houtcome => simp at h
  case h_2 other houtcome => rw [Except.error.inj h]

/-- A command that fails stores nothing but the definitions that it leaves behind. -/
theorem plan_of_error {assets : Option Assets} {slots : String → Option SaveSlot}
    {session : Session} {command : Command} {failure : Failure}
    (h : (command.plan assets time session slots).outcome = .error failure) :
    command.plan assets time session slots =
      { definitions := command.leftover? assets, outcome := .error failure } := by
  have hmap {α : Type} {plan : Plan α} {f : α → Reply} {definitions : Option Definitions}
      (hplan : ∀ {failure : Failure}, plan.outcome = .error failure →
        plan = { definitions := definitions, outcome := .error failure })
      (h : (plan.map f).outcome = .error failure) :
      plan.map f = { definitions := definitions, outcome := .error failure } := by
    have houtcome : plan.outcome = .error failure := by
      change plan.outcome.map f = .error failure at h
      cases hvalue : plan.outcome with
      | error other =>
        rw [hvalue] at h
        exact congrArg Except.error (Except.error.inj h)
      | ok value => simp [hvalue, Except.map] at h
    rw [hplan houtcome]
    rfl
  cases command with
  | importStory document => exact hmap Session.importPlan_of_error h
  | loadDemo =>
    cases assets with
    | none =>
      simp only [plan, Assets.require] at h ⊢
      rw [Except.error.inj h]
      rfl
    | some assets => exact hmap Session.importPlan_of_error h
  | createNode => simp [plan, Session.creationPlan, Plan.map, Except.map] at h
  | removeNode node => exact hmap Session.removalPlan_of_error h
  | patchNode | addChoice | patchChoice | removeChoice | patchCondition | addOperation
  | patchOperation | removeOperation =>
    exact hmap (Session.nodePlan_of_error fun _ _ => Graph.node?_of_editNode) h
  | addVariable | removeVariable => exact hmap Session.definitionsPlan_of_error h
  | patchVariable category old patch =>
    refine hmap ?_ h
    intro failure hfailure
    split at hfailure
    case isTrue hmissing =>
      rw [if_pos hmissing, Except.error.inj hfailure]
      rfl
    case isFalse hfound =>
      rw [if_neg hfound]
      exact Session.definitionsPlan_of_error hfailure
  | play action payload =>
    simp only [plan] at h ⊢
    split at h
    case h_1 found hfound => exact hmap actionPlan_of_error h
    case h_2 hunknown =>
      rw [Except.error.inj h]
      rfl
  | savePosition slot => exact hmap actionPlan_of_error h

/-- A command that leaves definitions behind is refused. -/
theorem outcome_of_leftover {assets : Option Assets} {slots : String → Option SaveSlot}
    {session : Session} {command : Command} {definitions : Definitions}
    (h : command.leftover? assets = some definitions) :
    ∃ points, (command.plan assets time session slots).outcome =
      .error (.unwritableText points) := by
  have hmap {plan : Plan Json} (h : ∃ points, plan.outcome = .error (.unwritableText points)) :
      ∃ points, (plan.map Reply.document).outcome = .error (.unwritableText points) := by
    obtain ⟨points, hpoints⟩ := h
    refine ⟨points, ?_⟩
    change plan.outcome.map Reply.document = _
    rw [hpoints]
    rfl
  cases command with
  | importStory document => exact hmap (Session.importPlan_of_halfImported h)
  | loadDemo =>
    cases assets with
    | none => exact absurd h (by simp [leftover?])
    | some assets => exact hmap (Session.importPlan_of_halfImported h)
  | _ => exact absurd h (by simp [leftover?])

end Command

namespace Reply

/-- The request was met. -/
def IsSuccess (reply : Reply) : Prop := 200 ≤ reply.status.number ∧ reply.status.number < 300

/-- The request was not met, and the client is told why. -/
def IsRefusal (reply : Reply) : Prop := 400 ≤ reply.status.number ∧ reply.status.number < 500

theorem IsSuccess.not_isRefusal {reply : Reply} (h : reply.IsSuccess) : ¬reply.IsRefusal :=
  fun hrefusal => absurd (Nat.lt_of_lt_of_le h.2 (by decide : 300 ≤ 400)) (Nat.not_lt.2 hrefusal.1)

theorem status_ofFailure (failure : Failure) : (ofFailure failure).status = .notFound ∨
    (ofFailure failure).status = .unprocessable ∨ (ofFailure failure).status = .internalError := by
  unfold ofFailure
  cases failure.severity <;> simp [refusal, internalError]

theorem not_isSuccess_ofFailure (failure : Failure) : ¬(ofFailure failure).IsSuccess := by
  intro h
  unfold IsSuccess at h
  rcases status_ofFailure failure with hstatus | hstatus | hstatus <;>
    simp [hstatus, StatusCode.number] at h

end Reply

/-- The reply to a command that goes through says so. -/
theorem Command.isSuccess_of_plan {assets : Option Assets} {slots : String → Option SaveSlot}
    {session : Session} {command : Command} {reply : Reply}
    (h : (command.plan assets time session slots).outcome = .ok reply) : reply.IsSuccess := by
  have hmap {α : Type} {plan : Plan α} {f : α → Reply} (hf : ∀ value, (f value).IsSuccess)
      (h : (plan.map f).outcome = .ok reply) : reply.IsSuccess := by
    obtain ⟨value, -, rfl⟩ := Except.map_eq_ok.1 h
    exact hf value
  have hdocument (content : Json) : (Reply.document content).IsSuccess := by
    simp [Reply.IsSuccess, Reply.document, StatusCode.number]
  have hcreated (content : Json) : (Reply.created content).IsSuccess := by
    simp [Reply.IsSuccess, Reply.created, StatusCode.number]
  cases command with
  | importStory | patchNode | patchChoice | removeChoice | patchCondition | patchOperation
  | removeOperation | patchVariable | removeVariable => exact hmap hdocument h
  | addChoice | addOperation | addVariable => exact hmap hcreated h
  | createNode | savePosition => exact hmap (fun _ => hcreated _) h
  | removeNode node =>
    exact hmap (fun _ => by simp [Reply.IsSuccess, StatusCode.number]) h
  | loadDemo =>
    simp only [plan] at h
    split at h
    · exact hmap hdocument h
    · exact absurd h (by simp [Plan.refused])
  | play action payload =>
    simp only [plan] at h
    split at h
    · exact hmap (fun _ => hdocument _) h
    · exact absurd h (by simp [Plan.refused])

/-! ## Requests that fail -/

/-- A request that fails leaves the store as it is, but for the definitions that it leaves
behind. -/
theorem Request.run_of_error (h : Kept records) (hnow : now.Readable) (assets : Option Assets)
    (fresh : Identifier) {request : Request} {failure : Failure}
    (hfailure : ((request.perform assets fresh now).run records).1 = .error failure) :
    ((request.perform assets fresh now).run records).2 = request.afterRefusal assets records := by
  obtain ⟨time, htime⟩ := hnow
  have hstep := request.step h htime assets fresh
  generalize (request.perform assets fresh now).run records = result at hstep hfailure
  cases hstep with
  | look _ hchanged =>
    cases request with
    | command => exact absurd hchanged (by simp [changed?])
    | _ => rfl
  | create => exact absurd hfailure (by simp)
  | refuse id command failure hrefused =>
    simp only [afterRefusal]
    split
    · rw [if_neg fun hfree => hrefused.elim hfree.1 fun hmissing => hmissing hfree.2]
    · rfl
  | change id command hfree hlisted =>
    simp only [afterRefusal, Command.plan_of_error hfailure]
    cases command.leftover? assets with
    | none => rfl
    | some definitions =>
      simp only
      rw [if_pos ⟨hfree, hlisted⟩]
      rfl

end Narrative
