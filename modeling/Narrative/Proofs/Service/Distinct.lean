import Narrative.Proofs.Service.Graphs
import Narrative.Proofs.Service.Opening
import Narrative.Proofs.Service.Undefined
import Narrative.Proofs.Session.Imports
import Narrative.Proofs.Variable.Distinct

/-!
# Distinct variables of a story

No two variables of a category have the same identifier, as long as no imported document defines one
twice.  Adding a variable and renaming one both check that, and removing one cannot break it.  What
a document defines is taken as it is.
-/

namespace Narrative

variable {records after : Records} {id : Identifier} {time : ℤ} {session result : Session}

/-- An operation that can change which variables there are. -/
inductive Revision where
  | add (category : Category) (definition : VariableDefinition)
  | patch (category : Category) (name : String) (change : DefinitionPatch)
  | remove (category : Category) (name : String)
  | importStory (data : Json)

/-- The definitions that a document puts in force, whether the import goes through or breaks off. -/
def definitionsIn (data : Json) : Option Definitions := do
  let (_, definitions) ← Session.imported data
  (← definitions).storable.toOption

namespace Revision

/-- Carry out an operation in a session, and tell whether it went through. -/
def perform (session : Session) : Revision → Attempt (Bool × Session)
  | add category definition =>
    liftM (session.editDefinitions fun definitions => definitions.add category definition)
  | patch category name change =>
    liftM (session.editDefinitions fun definitions => definitions.patch category name change)
  | remove category name =>
    liftM (session.editDefinitions fun definitions => definitions.remove category name)
  | importStory data => session.importStory data

/-- The session that an operation leaves when it breaks off, as only an import can. -/
def brokenOff (session : Session) : Revision → Session
  | importStory data => session.brokenOff data
  | _ => session

/-- The session and the store after an operation. -/
def run (revision : Revision) (session : Session) (records : Records) : Session × Records :=
  match (revision.perform session).run records with
  | (.ok (_, result), after) => (result, after)
  | (.error _, after) => (revision.brokenOff session, after)

/-- The definitions that an operation puts in force in the place of others. -/
def installed? (definitions : Definitions) : Revision → Option Definitions
  | add category definition =>
    (definitions.add category definition).map DefinitionsEdit.definitions
  | patch category name change =>
    (definitions.patch category name change).map DefinitionsEdit.definitions
  | remove category name => (definitions.remove category name).map DefinitionsEdit.definitions
  | importStory data => definitionsIn data

/-- A document that is imported defines no variable twice. -/
def BringsDistinct : Revision → Prop
  | importStory data => ∀ definitions, definitionsIn data = some definitions → definitions.Distinct
  | _ => True

end Revision

/-- The session and the store have received definitions, or kept those that they had. -/
structure Installs (session : Session) (records : Records) (id : Identifier)
    (given : Option Definitions) (result : Session) (after : Records) : Prop where
  story : result.story = session.story
  definitions : result.store.definitions = given.getD session.store.definitions
  stored : Stored.definitions after id =
    (given.map Definitions.kept).getD (Stored.definitions records id)

namespace Stored

theorem definitions_insert (records : Records) (id : Identifier) (given : Definitions) :
    definitions (records.insert (Repository.definitionsKey id.spelling) given.toJson.text) id =
      given.kept := by
  have hkey : Repository.definitionsKey id.spelling = (StoreKey.story id .definitions).text := rfl
  rw [definitions, hkey, Table.get?_insert, if_pos rfl, Option.bind_some,
    Repository.parsed_definitions]
  rfl

theorem definitions_insert_graph (records : Records) (id : Identifier) (text : String) :
    definitions (records.insert (Repository.graphKey id.spelling) text) id =
      definitions records id := by
  have hkey : (StoreKey.story id .definitions).text = Repository.definitionsKey id.spelling := rfl
  rw [definitions, definitions, hkey, Table.get?_insert,
    if_neg (Repository.graphKey_ne_definitionsKey _)]

theorem definitions_broughtIn (given : Option Definitions) (records : Records) (id : Identifier) :
    definitions (Session.broughtIn id.spelling given records) id =
      (given.map Definitions.kept).getD (definitions records id) := by
  cases given with
  | none => rfl
  | some given => exact definitions_insert records id given

end Stored

namespace Revision

theorem installs_edit (hstory : session.story = id.spelling)
    (edit : Definitions → Option DefinitionsEdit) (records : Records) :
    Installs session records id
      ((edit session.store.definitions).map DefinitionsEdit.definitions)
      ((session.editDefinitions edit).run records).1.2
      ((session.editDefinitions edit).run records).2 := by
  rw [Session.editDefinitions]
  cases edit session.store.definitions with
  | none => exact ⟨rfl, rfl, rfl⟩
  | some edit =>
    refine ⟨rfl, Session.definitions_installed edit, ?_⟩
    change Stored.definitions (records.insert (Repository.definitionsKey session.story) _) id = _
    rw [hstory]
    exact Stored.definitions_insert records id edit.definitions

/-- An import puts the definitions of the document in force, also if it breaks off at the graph. -/
theorem installs_importStory (hstory : session.story = id.spelling) (data : Json)
    (records : Records) :
    Installs session records id (definitionsIn data)
      ((importStory data).run session records).1 ((importStory data).run session records).2 := by
  have hbrought (given : Option Definitions) :
      Stored.definitions (Session.broughtIn session.story given records) id =
        (given.map Definitions.kept).getD (Stored.definitions records id) :=
    hstory ▸ Stored.definitions_broughtIn given records id
  have hwhole (given : Option Definitions) (text : String) :
      Stored.definitions ((Session.broughtIn session.story given records).insert
          (Repository.graphKey session.story) text) id =
        (given.map Definitions.kept).getD (Stored.definitions records id) := by
    rw [hstory, Stored.definitions_insert_graph, Stored.definitions_broughtIn]
  rw [run, perform, brokenOff, Session.brokenOff]
  cases himported : Session.imported data with
  | none =>
    have hnone : definitionsIn data = none := by
      rw [definitionsIn, himported]
      rfl
    rw [Session.run_importStory_of_none session himported, hnone]
    exact ⟨rfl, rfl, rfl⟩
  | some found =>
    obtain ⟨⟨graph, torn⟩, definitions⟩ := found
    have hgiven : definitionsIn data = definitions.bind fun draft => draft.storable.toOption := by
      rw [definitionsIn, himported]
      rfl
    rw [Session.run_importStory_of_some session himported, hgiven]
    -- Definitions that cannot be stored are not put in force; a graph that cannot be is too late.
    rcases definitions with _ | ⟨definitions, _ | points⟩ <;> cases torn
    · exact ⟨rfl, rfl, hwhole none _⟩
    · exact ⟨rfl, rfl, hbrought none⟩
    · exact ⟨rfl, rfl, hwhole (some definitions) _⟩
    · exact ⟨rfl, rfl, hbrought (some definitions)⟩
    · exact ⟨rfl, rfl, rfl⟩
    · exact ⟨rfl, rfl, rfl⟩

/-- An operation puts in force what it says. -/
theorem installs_run (hstory : session.story = id.spelling) (revision : Revision)
    (records : Records) :
    Installs session records id (revision.installed? session.store.definitions)
      (revision.run session records).1 (revision.run session records).2 := by
  cases revision with
  | importStory data => exact installs_importStory hstory data records
  | add category definition =>
    rw [run, perform, Attempt.run_lift]
    exact installs_edit hstory (fun definitions => definitions.add category definition) records
  | patch category name change =>
    rw [run, perform, Attempt.run_lift]
    exact installs_edit hstory (fun definitions => definitions.patch category name change) records
  | remove category name =>
    rw [run, perform, Attempt.run_lift]
    exact installs_edit hstory (fun definitions => definitions.remove category name) records

/-- What an operation puts in force has distinct identifiers, if what it brings does. -/
theorem distinct_installed {revision : Revision} {definitions given : Definitions}
    (h : definitions.Distinct) (hbrings : revision.BringsDistinct)
    (hgiven : revision.installed? definitions = some given) : given.Distinct := by
  cases revision with
  | importStory data => exact hbrings given hgiven
  | add =>
    obtain ⟨edit, hedit, rfl⟩ := Option.map_eq_some_iff.1 hgiven
    exact h.add hedit
  | patch =>
    obtain ⟨edit, hedit, rfl⟩ := Option.map_eq_some_iff.1 hgiven
    exact h.patch hedit
  | remove =>
    obtain ⟨edit, hedit, rfl⟩ := Option.map_eq_some_iff.1 hgiven
    exact h.remove hedit

end Revision

/-- What operations on the variables of a story lead to, when the story is opened anew any number of
times between them. -/
inductive Edited (allowed : Revision → Prop) (id : Identifier) (session : Session)
    (records : Records) : Session → Records → Prop where
  | start : Edited allowed id session records session records
  | revise {result : Session} {after : Records} (h : Edited allowed id session records result after)
      (revision : Revision) (hallowed : allowed revision) :
      Edited allowed id session records (revision.run result after).1 (revision.run result after).2
  | reopen {result opened : Session} {after : Records}
      (h : Edited allowed id session records result after) (restores : Bool)
      (hopen : (Session.openStory id.spelling restores).run after = (.ok opened, after)) :
      Edited allowed id session records opened after

/-- Operations go on with one that is allowed: its definitions are in force afterwards, if it has
any. -/
theorem Edited.revised {allowed : Revision → Prop}
    (h : Edited allowed id session records result after) (hstory : result.story = id.spelling)
    (revision : Revision) (hallowed : allowed revision) :
    ∃ next later, Edited allowed id session records next later ∧ next.story = id.spelling ∧
      next.store.definitions =
        (revision.installed? result.store.definitions).getD result.store.definitions := by
  have hinstalls := revision.installs_run hstory after
  exact ⟨_, _, h.revise revision hallowed, hinstalls.story.trans hstory, hinstalls.definitions⟩

/-- The variables of an open session and those that are stored have distinct identifiers. -/
structure Session.Distinct (session : Session) (records : Records) (id : Identifier) : Prop where
  story : session.story = id.spelling
  opened : session.store.definitions.Distinct
  stored : (Stored.definitions records id).Distinct

theorem Installs.distinct {given : Option Definitions}
    (h : Installs session records id given result after) (hsession : session.Distinct records id)
    (hgiven : ∀ definitions, given = some definitions → definitions.Distinct) :
    result.Distinct after id := by
  obtain ⟨hstory, hdefinitions, hstored⟩ := h
  refine ⟨hstory.trans hsession.story, ?_, ?_⟩
  · rw [hdefinitions]
    cases given with
    | none => exact hsession.opened
    | some definitions => exact hgiven definitions rfl
  · rw [hstored]
    cases given with
    | none => exact hsession.stored
    | some definitions => exact Definitions.distinct_kept.2 (hgiven definitions rfl)

theorem Edited.distinct {after : Records}
    (h : Edited Revision.BringsDistinct id session records result after)
    (hsession : session.Distinct records id) : result.Distinct after id := by
  induction h with
  | start => exact hsession
  | revise _ revision hallowed ih =>
    exact (revision.installs_run ih.story _).distinct ih fun _ =>
      Revision.distinct_installed ih.opened hallowed
  | reopen _ restores hopen ih =>
    obtain ⟨hstory, hdefinitions⟩ :=
      Session.definitions_of_openStory (congrArg Prod.fst hopen)
    exact ⟨hstory, hdefinitions ▸ ih.stored, ih.stored⟩

/-- No document that is imported defines a variable twice. -/
def Occasion.BringsDistinct (records : Records) (occasion : Occasion) : Prop :=
  ∀ id command document definitions, occasion.request = .command id command →
    Stored.Registered records id → command.document? occasion.assets = some document →
    definitionsIn (.obj document) = some definitions → definitions.Distinct

section Plans

variable {assets : Option Assets} {slots : String → Option SaveSlot}

/-- Whatever definitions a command stores are those of an operation on the variables. -/
theorem Command.revision_of_plan {command : Command} {given : Definitions}
    (h : (command.plan assets time session slots).definitions = some given) :
    ∃ revision : Revision, revision.installed? session.store.definitions = some given ∧
      ∀ data, revision = .importStory data →
        ∃ document, command.document? assets = some document ∧ data = .obj document := by
  rw [Command.definitions_plan] at h
  cases command with
  | importStory document =>
    refine ⟨.importStory (.obj document), h, ?_⟩
    rintro data ⟨⟩
    exact ⟨document, rfl, rfl⟩
  | loadDemo =>
    obtain ⟨assets, rfl, hassets⟩ := Option.bind_eq_some_iff.1 h
    refine ⟨.importStory (.obj assets.demo), hassets, ?_⟩
    rintro data ⟨⟩
    exact ⟨assets.demo, rfl, rfl⟩
  | addVariable category request =>
    exact ⟨.add category (requestedDefinition request), h, by simp⟩
  | patchVariable category name change => exact ⟨.patch category name change, h, by simp⟩
  | removeVariable category name => exact ⟨.remove category name, h, by simp⟩
  | createNode | patchNode | removeNode | addChoice | patchChoice | removeChoice | patchCondition
  | addOperation | patchOperation | removeOperation | play | savePosition =>
    exact absurd h (by simp [installed?])

end Plans

/-- A request keeps the identifiers of a story apart, if what it brings does. -/
theorem Step.distinct {occasion : Occasion} {result : Except Failure Reply × Records}
    (h : Step occasion.assets occasion.fresh time records occasion.request result)
    (hbrings : occasion.BringsDistinct records)
    (hdistinct : (Stored.definitions records id).Distinct) :
    (Stored.definitions result.2 id).Distinct := by
  obtain ⟨request, assets, fresh, now⟩ := occasion
  cases h with
  | look | refuse => exact hdistinct
  | create =>
    by_cases hid : fresh = id
    · rw [hid, Stored.definitions_created]
      exact Definitions.distinct_default
    · rw [Stored.definitions, get?_created_of_ne _ _ (by simp), Plan.get?_store_story _ _ hid]
      exact hdistinct
  | change changed command hfree hlisted =>
    by_cases hid : changed = id
    · subst hid
      rw [Stored.definitions_store]
      cases hplan : (command.plan assets time (Stored.session records changed)
          (Stored.slot records changed)).definitions with
      | none => exact hdistinct
      | some given =>
        obtain ⟨revision, hinstalled, hdocument⟩ := Command.revision_of_plan hplan
        rw [Stored.definitions_session] at hinstalled
        refine Definitions.distinct_kept.2
          (Revision.distinct_installed hdistinct ?_ hinstalled)
        cases revision with
        | add | patch | remove => trivial
        | importStory data =>
          obtain ⟨document, hcommand, rfl⟩ := hdocument data rfl
          exact fun definitions => hbrings changed command document definitions rfl hlisted hcommand
    · rw [Stored.definitions, Plan.get?_store_story _ _ hid]
      exact hdistinct

theorem Run.distinct (h : Run Occasion.BringsDistinct .empty records) (id : Identifier) :
    (Stored.definitions records id).Distinct := by
  induction h with
  | start => exact Definitions.distinct_default
  | next h occasion hnow hallowed ih =>
    obtain ⟨time, htime⟩ := hnow
    exact (Request.step (h.kept kept_empty) htime occasion.assets occasion.fresh
      occasion.request).distinct hallowed ih

/-- An import keeps the identifiers of an open session apart exactly if the document does. -/
theorem Session.Distinct.importStory_iff (h : session.Distinct records id) (data : Json) :
    ((Revision.importStory data).run session records).1.store.definitions.Distinct ↔
      (Revision.importStory data).BringsDistinct := by
  rw [(Revision.installs_importStory h.story data records).definitions, Revision.BringsDistinct]
  cases definitionsIn data with
  | none => simpa using h.opened
  | some definitions => simp

/-- As long as no document that is imported defines a variable twice, no category of an open session
has two definitions with one identifier, whatever is added, renamed, patched, removed and imported,
and the definition that bounds a variable gives it its initial value.  The next import keeps it that
way exactly if the document defines no variable twice. -/
theorem distinct_of_edited (h : Run Occasion.BringsDistinct .empty records)
    (hlisted : Stored.Registered records id) :
    ∃ opened, (Session.openStory id.spelling true).run records = (.ok opened, records) ∧
      ∀ result after, Edited Revision.BringsDistinct id opened records result after →
        result.store.definitions.Distinct ∧
        (∀ category name definition, result.store.definition? category name = some definition →
          result.store.reset.get category name = definition.initial) ∧
        ∀ data, ((Revision.importStory data).run result after).1.store.definitions.Distinct ↔
          (Revision.importStory data).BringsDistinct := by
  have hopen := Session.openStory_of_registered (h.kept kept_empty) hlisted
  obtain ⟨hstory, hdefinitions⟩ := Session.definitions_of_openStory (congrArg Prod.fst hopen)
  have hopened : (Stored.session records id).Distinct records id :=
    ⟨hstory, hdefinitions ▸ h.distinct id, h.distinct id⟩
  refine ⟨_, hopen, fun result after hedited => ?_⟩
  have hresult := hedited.distinct hopened
  exact ⟨hresult.opened, fun _ _ _ hfind => hresult.opened.initial hfind, hresult.importStory_iff⟩

theorem distinct_pulseDefinitions : pulseDefinitions.Distinct := by
  intro category
  cases category <;> decide

theorem bringsDistinct_pulseStory :
    (Revision.importStory (.obj pulseStory)).BringsDistinct := by
  rintro definitions ⟨⟩
  exact distinct_pulseDefinitions

/-- The story with the pulse is imported into a new one, by a request and once more in a session; in
between the pulse gets another name there, and afterwards the thirst is removed. -/
theorem distinct_of_edited_pulse :
    ∃ records opened result after, Run Occasion.BringsDistinct .empty records ∧
      Stored.Registered records ⟨1⟩ ∧
      (Session.openStory (Identifier.mk 1).spelling true).run records = (.ok opened, records) ∧
      Edited Revision.BringsDistinct ⟨1⟩ opened records result after ∧
      result.store.definitions.Distinct ∧
      result.store.reset.get .physiological "pulse" = 60.0 := by
  have hnow : (Instant.mk 0.0).Readable := Instant.readable_of_isFinite (by decide)
  have hcreate : Occasion.BringsDistinct .empty ⟨.createStory, none, ⟨1⟩, ⟨0.0⟩⟩ :=
    fun _ _ _ _ h => nomatch h
  have himport : Occasion.BringsDistinct newStory
      ⟨.command ⟨1⟩ (.importStory pulseStory), none, ⟨1⟩, ⟨0.0⟩⟩ := by
    intro id command document definitions hrequest _ hdocument
    cases hrequest
    cases hdocument
    exact bringsDistinct_pulseStory definitions
  obtain ⟨records, hrun, hlisted, -, -⟩ :=
    (Run.newStory hcreate).next_command registered_newStory hnow himport
  obtain ⟨opened, hopen, hedited⟩ := distinct_of_edited hrun hlisted
  obtain ⟨hstory, -⟩ := Session.definitions_of_openStory (congrArg Prod.fst hopen)
  have hstart : Edited Revision.BringsDistinct ⟨1⟩ opened records opened records := .start
  obtain ⟨renamed, _, hrenamed, hstory, -⟩ :=
    hstart.revised hstory (.patch .physiological "pulse" { id := some "beat" }) trivial
  obtain ⟨imported, _, himported, hstory, hpulse⟩ :=
    hrenamed.revised hstory (.importStory (.obj pulseStory)) bringsDistinct_pulseStory
  obtain ⟨removed, after, hremoved, -, hremove⟩ :=
    himported.revised hstory (.remove .physiological "thirst") trivial
  obtain ⟨hdistinct, hinitial, -⟩ := hedited _ _ hremoved
  refine ⟨records, opened, removed, after, hrun, hlisted, hopen, hremoved, hdistinct, ?_⟩
  refine hinitial .physiological "pulse" (.percentage "pulse" "Pulse" 60.0) ?_
  rw [VariableStore.definition?, hremove, hpulse]
  rfl

/-! ## A variable that is defined twice -/

/-- A document that defines a variable twice. -/
def twiceDefined : Json.Fields :=
  [("nodes", .obj [("start", .obj [])]),
    ("variableDefinitions", .obj [("physiological", .arr [
      .obj [("id", .str "x"), ("name", .str "X"), ("initial", .num 1.0)],
      .obj [("id", .str "x"), ("name", .str "X"), ("initial", .num 2.0)]])])]

/-- The definitions of the document. -/
def twice : Definitions :=
  ⟨[{ id := "x", name := "X", initial := 1.0 }, { id := "x", name := "X", initial := 2.0 }], [], []⟩

theorem definitionsIn_twiceDefined : definitionsIn (.obj twiceDefined) = some twice := rfl

/-- A new story into which the document has been imported. -/
theorem exists_twice : ∃ opened result after,
    (Session.openStory (Identifier.mk 1).spelling true).run newStory = (.ok opened, newStory) ∧
    Edited (fun _ => True) ⟨1⟩ opened newStory result after ∧
    result.store.definitions = twice := by
  have hopen :=
    Session.openStory_of_registered reachable_newStory.kept registered_newStory
  obtain ⟨hstory, -⟩ := Session.definitions_of_openStory (congrArg Prod.fst hopen)
  refine ⟨_, _, _, hopen, .revise .start (.importStory (.obj twiceDefined)) trivial, ?_⟩
  rw [(Revision.installs_importStory hstory _ _).definitions, definitionsIn_twiceDefined]
  rfl

/-- An import can define a variable twice; then one definition bounds it and the other one gives it
its initial value. -/
theorem not_distinct_of_edited :
    ¬∀ opened result after,
      (Session.openStory (Identifier.mk 1).spelling true).run newStory = (.ok opened, newStory) →
      Edited (fun _ => True) ⟨1⟩ opened newStory result after →
      result.store.definitions.Distinct ∨
        ∀ category name definition, result.store.definition? category name = some definition →
          result.store.reset.get category name = definition.initial := by
  intro hclaim
  obtain ⟨opened, result, after, hopen, hedited, htwice⟩ := exists_twice
  have hfind : result.store.definition? .physiological "x" =
      some { id := "x", name := "X", initial := 1.0 } := by
    rw [VariableStore.definition?, htwice]
    rfl
  have hinitial : result.store.reset.get .physiological "x" = 2.0 := by
    rw [VariableStore.reset, htwice]
    rfl
  rcases hclaim opened result after hopen hedited with hdistinct | hagree
  · have hnodup := hdistinct .physiological
    rw [htwice] at hnodup
    exact absurd hnodup (by decide)
  · have hone := (hagree _ _ _ hfind).symm.trans hinitial
    exact absurd hone (by decide)

end Narrative
