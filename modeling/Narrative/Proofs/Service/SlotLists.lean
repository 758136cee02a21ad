import Narrative.Proofs.Service.Indexed

/-!
# What the list of slots shows

Whatever is requested of the stories and saved in them, the list of the slots of a story shows the
names under which positions have been saved, each once and in the order of the first saves, and
exactly these slots hold a text.  If something is cut off between two writes, a slot may be missing
from the list, and the next save to it puts it there; a name never stands in the list without its
slot.  The writes of a request on a story are made under a lock, so others find an unlisted slot
only if the request has been cut off.
-/

namespace Narrative

variable {records : Records} {id : Identifier} {now : Instant} {time : ℤ}

/-- The slots to which a step of play saves if it goes through. -/
def PlayAction.slotNames (payload : Json.Fields) : PlayAction → List String
  | save => (slot payload).text?.toList ++ [Repository.autosaveSlot]
  | _ => [Repository.autosaveSlot]

/-- The slots to which a command saves if it goes through: the one that it names, and then that of
the current position.  Edits of the graph do not save the position. -/
def Command.slotNames : Command → List String
  | importStory _ | loadDemo | addVariable .. | patchVariable .. | removeVariable .. =>
    [Repository.autosaveSlot]
  | play action payload =>
    match PlayAction.ofName? action with
    | some action => action.slotNames payload
    | none => []
  | savePosition slot => PlayAction.save.slotNames [("slot", .str slot)]
  | _ => []

/-- The slots of the story to which a request saves if it goes through. -/
def Request.slotNames (id : Identifier) : Request → List String
  | command story wanted => if story = id then wanted.slotNames else []
  | _ => []

namespace PlayAction

theorem names_plan {payload : Json.Fields} {slots : String → Option SaveSlot} {session : Session}
    {action : PlayAction} {result : Session × Option SaveSlot}
    (h : (action.plan payload time slots session).outcome = .ok result) :
    (action.plan payload time slots session).slots.map Prod.fst ++ [Repository.autosaveSlot] =
      action.slotNames payload := by
  cases action with
  | choose | restart | jump | load => rfl
  | save =>
    simp only [plan, slotNames] at h ⊢
    cases hslot : slot payload with
    | text name => rfl
    | torn points =>
      simp only [hslot, slotName] at h
      exact absurd h (by simp [Plan.refused])

end PlayAction

namespace Session

variable {session : Session}

theorem names_definitionsPlan {refusal : Failure} {edit : Definitions → Option DefinitionsEdit}
    {answer : Json} (h : (session.definitionsPlan time refusal edit).outcome = .ok answer) :
    (session.definitionsPlan time refusal edit).slots.map Prod.fst =
      [Repository.autosaveSlot] := by
  unfold definitionsPlan at h ⊢
  cases hedit : edit session.store.definitions with
  | none =>
    rw [hedit] at h
    exact absurd h (by simp [Plan.refused])
  | some installed => rfl

theorem names_importPlan {refusal : Failure} {document : Json.Fields} {answer : Json}
    (h : (session.importPlan time refusal document).outcome = .ok answer) :
    (session.importPlan time refusal document).slots.map Prod.fst = [Repository.autosaveSlot] := by
  unfold importPlan at h ⊢
  split at h
  case h_1 => exact absurd h (by simp [Plan.refused])
  case h_2 graph definitions himported =>
    split at h
    case h_1 => exact absurd h (by simp [Plan.refused])
    case h_2 => exact absurd h (by simp)
    case h_3 => rfl

end Session

namespace Command

theorem names_actionPlan {payload : Json.Fields} {slots : String → Option SaveSlot}
    {session : Session} {action : PlayAction} {outcome : PlayAction.Outcome}
    (h : (actionPlan time payload slots session action).outcome = .ok outcome) :
    (actionPlan time payload slots session action).slots.map Prod.fst =
      action.slotNames payload := by
  unfold actionPlan PlayAction.autosaved at h ⊢
  split at h
  case h_1 result saved houtcome =>
    rw [← PlayAction.names_plan houtcome]
    rw [List.map_append, List.map_cons, List.map_nil]
  case h_2 => exact absurd h (by simp [Plan.refused])

/-- A command that goes through saves to the slots that it names. -/
theorem names_plan {assets : Option Assets} {slots : String → Option SaveSlot} {session : Session}
    {command : Command} {reply : Reply}
    (h : (command.plan assets time session slots).outcome = .ok reply) :
    (command.plan assets time session slots).slots.map Prod.fst = command.slotNames := by
  have hok {α : Type} {plan : Plan α} {f : α → Reply} (h : (plan.map f).outcome = .ok reply) :
      ∃ value, plan.outcome = .ok value := by
    obtain ⟨value, hvalue, -⟩ := Except.map_eq_ok.1 h
    exact ⟨value, hvalue⟩
  have hnode {key : String} {refusal : Failure} {edit : Graph → Option Graph} :
      (session.nodePlan key refusal edit).slots.map Prod.fst = [] := by
    rw [Session.slots_nodePlan, List.map_nil]
  cases command with
  | importStory document =>
    obtain ⟨answer, hanswer⟩ := hok h
    exact Session.names_importPlan hanswer
  | loadDemo =>
    cases assets with
    | none => exact absurd h (by simp [plan, Assets.require, Plan.refused])
    | some assets =>
      obtain ⟨answer, hanswer⟩ := hok h
      exact Session.names_importPlan hanswer
  | createNode => rfl
  | removeNode node =>
    simp only [plan, Session.removalPlan]
    split <;> rfl
  | patchNode | addChoice | patchChoice | removeChoice | patchCondition | addOperation
  | patchOperation | removeOperation => exact hnode
  | addVariable | removeVariable =>
    obtain ⟨answer, hanswer⟩ := hok h
    exact Session.names_definitionsPlan hanswer
  | patchVariable category old patch =>
    obtain ⟨answer, hanswer⟩ := hok h
    split at hanswer
    case isTrue => exact absurd hanswer (by simp [Plan.refused])
    case isFalse hfound =>
      simp only [plan, if_neg hfound]
      exact Session.names_definitionsPlan hanswer
  | play action payload =>
    simp only [plan, slotNames] at h ⊢
    cases hfound : PlayAction.ofName? action with
    | none =>
      rw [hfound] at h
      exact absurd h (by simp [Plan.refused])
    | some found =>
      rw [hfound] at h
      obtain ⟨outcome, houtcome⟩ := hok h
      exact names_actionPlan houtcome
  | savePosition slot =>
    obtain ⟨outcome, houtcome⟩ := hok h
    exact names_actionPlan houtcome

end Command

/-! ## Requests and saves -/

/-- A request adds the names to which it saves, if it goes through. -/
theorem Step.holdsSlots {assets : Option Assets} {fresh : Identifier} {request : Request}
    {result : Except Failure Reply × Records} {names : List String}
    (h : Step assets fresh time records request result) (hnames : HoldsSlots id names records) :
    HoldsSlots id (names ++ if result.1.isOk then request.slotNames id else []) result.2 := by
  cases h with
  | look hcreates hchanged outcome =>
    have hslots : request.slotNames id = [] := by
      cases request with
      | command => exact absurd hchanged (by simp [Request.changed?])
      | _ => rfl
    rw [hslots, ite_self, List.append_nil]
    exact hnames
  | create =>
    have hstore := hnames.store_story creation fresh
    change HoldsSlots id (names ++ if fresh = id then [] else []) _ at hstore
    rw [ite_self] at hstore
    have hget (part : StoryKey) : (created fresh records).get? (StoreKey.story id part).text =
        (creation.store fresh records).get? (StoreKey.story id part).text :=
      get?_created_of_ne _ _ (by simp)
    exact hstore.congr (hget _) fun _ => hget _
  | refuse other command failure =>
    rw [← names.append_nil] at hnames
    exact hnames
  | change other command =>
    have hstore := hnames.store_story
      (command.plan assets time (Stored.session records other) (Stored.slot records other)) other
    cases houtcome : (command.plan assets time (Stored.session records other)
        (Stored.slot records other)).outcome with
    | ok reply =>
      rw [Command.names_plan houtcome] at hstore
      exact hstore
    | error failure =>
      rw [Command.plan_of_error houtcome] at hstore ⊢
      rwa [List.map_nil, ite_self] at hstore

/-- Something that is done to a store: a request, or a save to a slot by itself. -/
inductive Deed where
  | request (occasion : Occasion)
  | save (id : Identifier) (name : String) (position : SaveSlot)

namespace Deed

/-- The store when the deed is done. -/
def run (records : Records) : Deed → Records
  | request occasion => (occasion.run records).2
  | save id name position => ((Repository.saveSlot id.spelling name position).run records).2

/-- The store when the deed is cut off after some of its commands. -/
def cutOff (n : ℕ) (records : Records) : Deed → Records
  | request occasion => Script.after n
      (ExceptT.run (occasion.request.perform occasion.assets occasion.fresh occasion.now)) records
  | save id name position =>
    Script.after n (ExceptT.run (Repository.saveSlot id.spelling name position)) records

/-- The clock of the deed tells a time, and so does what it saves. -/
def Timely : Deed → Prop
  | request occasion => occasion.now.Readable
  | save _ _ position => position.Timely

/-- The slots of the story to which the deed saves. -/
def names (id : Identifier) (records : Records) : Deed → List String
  | request occasion =>
    if (occasion.run records).1.isOk then occasion.request.slotNames id else []
  | save other name _ => if other = id then [name] else []

variable {deed : Deed}

theorem kept_run (h : Kept records) (htimely : deed.Timely) : Kept (deed.run records) := by
  cases deed with
  | request occasion =>
    obtain ⟨time, htime⟩ := htimely
    exact (Request.step h htime _ _ _).kept h (shortTime_of_millis htime)
  | save other name position =>
    rw [run, Repository.run_saveSlot (h.slotList other)]
    exact kept_saved h other name htimely

theorem holdsSlots_run {names : List String} (h : Kept records) (htimely : deed.Timely)
    (hnames : HoldsSlots id names records) :
    HoldsSlots id (names ++ deed.names id records) (deed.run records) := by
  cases deed with
  | request occasion =>
    obtain ⟨time, htime⟩ := htimely
    exact (Request.step h htime _ _ _).holdsSlots hnames
  | save other name position =>
    rw [run, Repository.run_saveSlot (h.slotList other), Deed.names]
    by_cases hid : other = id
    · subst hid
      rw [if_pos rfl]
      exact hnames.saved name position
    · rw [if_neg hid, List.append_nil]
      have hget (part : StoryKey) : (saved other name position records).get?
          (StoreKey.story id part).text = records.get? (StoreKey.story id part).text :=
        get?_saved_of_ne _ _ _ (by simp [hid]) (by simp [hid])
      exact hnames.congr (hget _) fun _ => hget _

/-- What is done is cut off at its end. -/
theorem exists_cutOff_eq_run (deed : Deed) (records : Records) :
    ∃ n, deed.cutOff n records = deed.run records := by
  cases deed with
  | request | save => exact Script.exists_after_eq_run _ records

theorem indexed_cutOff (h : Indexed records) (deed : Deed) (n : ℕ) :
    Indexed (deed.cutOff n records) := by
  cases deed with
  | request occasion =>
    exact occasion.request.passes_perform occasion.assets occasion.fresh occasion.now h n
  | save other name position => exact passes_saveSlot h name position n

end Deed

/-! ## Runs -/

/-- The stores that requests and saves lead to, with the names under which positions of the story
have been saved on the way. -/
inductive Done (id : Identifier) : List String → Records → Prop where
  | start : Done id [] .empty
  | next {names : List String} {records : Records} (h : Done id names records) (deed : Deed)
      (htimely : deed.Timely) : Done id (names ++ deed.names id records) (deed.run records)

/-- The stores that requests and saves lead to if any of them may be cut off between two of its
commands, and if the locks that are left behind may run out. -/
inductive Interrupted : Records → Prop where
  | start : Interrupted .empty
  | cutOff {records : Records} (h : Interrupted records) (deed : Deed) (n : ℕ) :
      Interrupted (deed.cutOff n records)
  | expire {records : Records} (h : Interrupted records) (id : Identifier) :
      Interrupted (records.erase (StoreKey.lock id).text)

namespace Done

variable {names : List String}

theorem kept (h : Done id names records) : Kept records := by
  induction h with
  | start => exact kept_empty
  | next _ deed htimely ih => exact deed.kept_run ih htimely

theorem holdsSlots (h : Done id names records) : HoldsSlots id names records := by
  induction h with
  | start => exact ⟨Or.inl ⟨rfl, rfl⟩, fun name => by simp [Table.get?_empty]⟩
  | next h deed htimely ih => exact deed.holdsSlots_run h.kept htimely ih

theorem interrupted (h : Done id names records) : Interrupted records := by
  induction h with
  | start => exact .start
  | next _ deed _ ih =>
    obtain ⟨n, hn⟩ := deed.exists_cutOff_eq_run _
    rw [← hn]
    exact ih.cutOff deed n

end Done

theorem Interrupted.indexed (h : Interrupted records) : Indexed records := by
  induction h with
  | start => exact indexed_empty
  | cutOff _ deed n ih => exact deed.indexed_cutOff ih n
  | expire _ id ih => exact ih.erase_lock id

theorem run_listSlots {names : List String} (h : NamesAt records (.story id .slotList) names) :
    (Repository.listSlots id.spelling).run records = (.ok (names.map .text), records) := by
  have hloaded := Repository.run_loadNames h
  rw [h.labels] at hloaded
  exact hloaded

/-- The list of the slots of a story shows the names under which positions have been saved, each
once and in the order of the first saves, and these are the slots that hold a text.  Wherever the
writes have been cut off, no name is listed twice or without its slot, and the next save to a slot
lists it. -/
theorem slot_list_of_saves (id : Identifier) :
    (∀ names records, Done id names records →
      Interrupted records ∧ names.eraseDups.Nodup ∧
        (Repository.listSlots id.spelling).run records =
          (.ok (names.eraseDups.map .text), records) ∧
        ∀ name, (records.get? (Repository.slotKey id.spelling name)).isSome ↔ name ∈ names) ∧
    ∀ records, Interrupted records →
      (∃ listed : List String, listed.Nodup ∧
        (Repository.listSlots id.spelling).run records = (.ok (listed.map .text), records) ∧
        ∀ name ∈ listed, (records.get? (Repository.slotKey id.spelling name)).isSome) ∧
      ∀ name position, ∃ listed : List String, ∃ later, name ∈ listed ∧ Interrupted later ∧
        (Repository.saveSlot id.spelling name position).run records = (.ok (), later) ∧
        (Repository.listSlots id.spelling).run later = (.ok (listed.map .text), later) := by
  refine ⟨fun names records h => ?_, fun records h => ⟨?_, fun name position => ?_⟩⟩
  · have hnames := h.holdsSlots
    exact ⟨h.interrupted, nodup_eraseDups names, run_listSlots hnames.listed, hnames.stored⟩
  · obtain ⟨listed, hlisted, hnodup, hstored⟩ := h.indexed id
    exact ⟨listed, hnodup, run_listSlots hlisted, hstored⟩
  · obtain ⟨listed, hlisted, -⟩ := h.indexed id
    have hrun := Repository.run_saveSlot ⟨listed, hlisted⟩ name position
    have hlater := namesAt_saved hlisted name position
    obtain ⟨n, hn⟩ := (Deed.save id name position).exists_cutOff_eq_run records
    have hsaved : (Deed.save id name position).run records = saved id name position records :=
      congrArg Prod.snd hrun
    refine ⟨_, _, ?_, ?_, hrun, run_listSlots hlater⟩
    · split
      case isTrue hmem => exact hmem
      case isFalse => exact List.mem_append_right _ List.mem_cons_self
    · rw [← hsaved, ← hn]
      exact h.cutOff _ n

/-- A request saves under "b" in a new story, and then "a" and "b" are saved by themselves.  The
list shows "b", the current position and "a".  A save under "c" is cut off behind its slot, and the
next one lists it. -/
theorem slot_list_of_saves_newStory :
    ∃ records, Done ⟨1⟩ ["b", "autosave", "a", "b"] records ∧
      (Repository.listSlots (Identifier.mk 1).spelling).run records =
        (.ok [.text "b", .text "autosave", .text "a"], records) ∧
      Interrupted ((Deed.save ⟨1⟩ "c" ⟨"start", .empty, [], 0⟩).cutOff 1 records) ∧
      ∃ listed : List String, ∃ later, "c" ∈ listed ∧ Interrupted later ∧
        (Repository.saveSlot (Identifier.mk 1).spelling "c" ⟨"end", .empty, [], 1⟩).run
          ((Deed.save ⟨1⟩ "c" ⟨"start", .empty, [], 0⟩).cutOff 1 records) = (.ok (), later) ∧
        (Repository.listSlots (Identifier.mk 1).spelling).run later =
          (.ok (listed.map .text), later) := by
  have hnow : (Instant.mk 1.5).Readable := Instant.readable_of_isFinite (by decide)
  have hposition : SaveSlot.Timely ⟨"start", .empty, [], 0⟩ :=
    ⟨fun _ hentry => absurd hentry List.not_mem_nil, by simp [ShortTime]⟩
  have hcreated : Done ⟨1⟩ [] newStory := by
    have hstart : Done ⟨1⟩ [] .empty := .start
    have hnext := hstart.next (.request ⟨.createStory, none, ⟨1⟩, ⟨0.0⟩⟩)
      (Instant.readable_of_isFinite (by decide))
    simp only [Deed.names, Request.slotNames, ite_self, List.append_nil] at hnext
    rwa [Deed.run, Occasion.run, Request.run_createStory kept_empty] at hnext
  obtain ⟨records, hfirst⟩ : ∃ records, Done ⟨1⟩ ["b", "autosave"] records := by
    obtain ⟨time, htime⟩ := hnow
    have hslot : PlayAction.slot [("slot", .str "b")] = .text "b" :=
      PlayAction.slot_str (by decide)
    have hnext := hcreated.next
      (.request ⟨.command ⟨1⟩ (.savePosition "b"), none, ⟨2⟩, ⟨1.5⟩⟩) ⟨time, htime⟩
    have hok : ((Command.savePosition "b").plan none time (Stored.session newStory ⟨1⟩)
        (Stored.slot newStory ⟨1⟩)).outcome.isOk := by
      simp only [Command.plan, Command.actionPlan, PlayAction.autosaved, PlayAction.plan, hslot,
        PlayAction.slotName]
      rfl
    rw [Deed.names, Occasion.run, Request.perform, Command.run_perform reachable_newStory.kept
      (reachable_newStory.not_held ⟨1⟩) registered_newStory htime, if_pos hok, Request.slotNames,
      if_pos rfl, Command.slotNames, PlayAction.slotNames, hslot] at hnext
    exact ⟨_, hnext⟩
  have hdone := (hfirst.next (.save ⟨1⟩ "a" ⟨"start", .empty, [], 0⟩) hposition).next
    (.save ⟨1⟩ "b" ⟨"start", .empty, [], 0⟩) hposition
  obtain ⟨hinterrupted, -, hlisted, -⟩ := (slot_list_of_saves ⟨1⟩).1 _ _ hdone
  have hcut := hinterrupted.cutOff (.save ⟨1⟩ "c" ⟨"start", .empty, [], 0⟩) 1
  exact ⟨_, hdone, hlisted, hcut,
    ((slot_list_of_saves ⟨1⟩).2 _ hcut).2 "c" ⟨"end", .empty, [], 1⟩⟩

end Narrative
