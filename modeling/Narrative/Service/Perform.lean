import Narrative.Session.Edit
import Narrative.Assets.Load
import Narrative.Service.Request
import Narrative.Service.Reply

/-!
# Carrying out requests

A query opens the story and looks at it.  A command holds the lock of the story from before it is
opened until the last text is stored; the lock is given back whether the command goes through or
not.
-/

namespace Narrative

/-! ## Queries -/

namespace Query

/-- What a query answers in an open session. -/
def answer (now : Instant) (session : Session) : Query → Attempt Reply
  | graph => return .document session.graph.toJson
  | bundle => Attempt.unexplained do
    let bundle ← Attempt.ofExcept (session.bundle now)
    let time ← Attempt.ofExcept now.millis
    return {
      body := .document bundle.toJson
      disposition := some ("attachment; filename=\"story_" ++ toString time ++ ".json\"") }
  | nodes => return .document (NodeListAnswer.toJson ⟨session.graph.nodesStartFirst⟩)
  | node key =>
    match session.graph.node? key with
    | some found => return .document found.toJson
    | none => throw .noSuchNode
  | definitions => return .document session.store.definitions.toJson
  | view => return .document session.view.toJson
  | history => return .document (HistoryAnswer.toJson ⟨session.place.history⟩)
  | slots => Attempt.unexplained do
    let labels ← Repository.listSlots session.story
    match labels.mapM Label.text? with
    | some names => return .document (SlotListAnswer.toJson ⟨names⟩)
    | none => throw .unexplained

/-- Carry out a query. -/
def perform (query : Query) (now : Instant) (story : String) : Attempt Reply := do
  query.answer now (← Session.openStory story true)

end Query

/-! ## Commands -/

namespace Command

/-- Hold the lock of a story, open it, and change it. -/
def editing {α : Type} (story : String) (change : Session → Attempt α) : Attempt α :=
  Attempt.locked (Repository.lockKey story) do
    change (← Session.openStory story true)

/-- Edit the graph, and answer a node of it. -/
def editNode (key : String) (refusal : Failure) (edit : Graph → Option Graph)
    (session : Session) : Attempt Json := do
  let (done, session) ← session.editGraph edit
  unless done do
    throw refusal
  match session.graph.node? key with
  | some node => return node.toJson
  | none => throw .noSuchNode

/-- Edit the definitions, save the position, and answer the definitions. -/
def editDefinitions (now : Instant) (refusal : Failure)
    (edit : Definitions → Option DefinitionsEdit) (session : Session) : Attempt Json := do
  let (done, session) ← session.editDefinitions edit
  unless done do
    throw refusal
  let _ ← session.autosave now
  return session.store.definitions.toJson

/-- Replace the story, start it again, and answer its graph. -/
def replaceStory (now : Instant) (refusal : Failure) (document : Json.Fields)
    (session : Session) : Attempt Json := do
  let (done, session) ← session.importStory (.obj document)
  unless done do
    throw refusal
  let session := session.reload
  let _ ← session.autosave now
  return session.graph.toJson

/-- The definition that a request asks for: what it leaves open is as in every new definition. -/
def requestedDefinition (request : VariableRequest) : VariableDefinition :=
  let definition := VariableDefinition.placeholder request.id request.name
  { definition with
    initial := request.initial.getD definition.initial
    min := request.min.getD definition.min
    max := request.max.getD definition.max }

/-- Patch the definition of a variable, which must exist. -/
def patchDefinition (now : Instant) (category : Category) (id : String) (patch : DefinitionPatch)
    (session : Session) : Attempt Json := do
  if (session.store.definition? category id).isNone then
    throw .noSuchVariable
  editDefinitions now (.variableTaken (patch.id.getD id) category)
    (fun definitions => definitions.patch category id patch) session

/-- Carry out a command. -/
def perform (command : Command) (assets : Option Assets) (now : Instant) (story : String) :
    Attempt Reply := do
  match command with
  | importStory document => .document <$> editing story (replaceStory now .notStory document)
  | loadDemo =>
    .document <$> editing story fun session => do
      let assets ← Attempt.ofExcept (Assets.require assets)
      replaceStory now .notDemo assets.demo session
  | createNode =>
    let key ← editing story fun session => do
      let (key, _) ← session.createNode now
      return key
    return .created (NodeIdAnswer.toJson ⟨key⟩)
  | patchNode node patch =>
    .document <$> editing story (editNode node .noSuchNode fun graph => graph.patchNode node patch)
  | removeNode node =>
    editing story fun session => do
      let (done, _) ← session.editGraph fun graph => graph.removeNode node
      unless done do
        throw (.nodeKept startNodeId)
    return { status := .noContent }
  | addChoice node =>
    .created <$>
      editing story (editNode node .noSuchNode fun graph => graph.addChoice node)
  | patchChoice node choice patch =>
    .document <$> editing story
      (editNode node .noSuchChoice fun graph => graph.patchChoice node choice patch)
  | removeChoice node choice =>
    .document <$> editing story
      (editNode node .noSuchChoice fun graph => graph.removeChoice node choice)
  | patchCondition node choice patch =>
    .document <$> editing story
      (editNode node .noSuchChoice fun graph => graph.patchCondition node choice patch)
  | addOperation node choice =>
    .created <$> editing story
      (editNode node .noSuchChoice fun graph => graph.addOperation node choice)
  | patchOperation node choice operation patch =>
    .document <$> editing story
      (editNode node .noSuchOperation fun graph => graph.patchOperation node choice operation patch)
  | removeOperation node choice operation =>
    .document <$> editing story
      (editNode node .noSuchOperation fun graph => graph.removeOperation node choice operation)
  | addVariable category request =>
    .created <$> editing story
      (editDefinitions now (.variableTaken request.id category) fun definitions =>
        definitions.add category (requestedDefinition request))
  | patchVariable category id patch =>
    .document <$> editing story (patchDefinition now category id patch)
  | removeVariable category id =>
    .document <$> editing story
      (editDefinitions now .noSuchVariable fun definitions => definitions.remove category id)
  | play action payload =>
    let outcome ← PlayAction.dispatch now story action payload
    return .document outcome.view.toJson
  | savePosition slot =>
    let outcome ← PlayAction.dispatch now story PlayAction.save.name [("slot", .str slot)]
    return .created (.ofOption SaveSlot.toJson outcome.saved)

end Command

/-! ## Requests -/

namespace Request

/-- The name of the service. -/
def serviceName : String := "branchtale"

/-- The version of the service. -/
def serviceVersion : String := "0.1.0"

/-- Carry out a request; `fresh` is the identifier of the story that it may create. -/
def perform (request : Request) (assets : Option Assets) (fresh : Identifier) (now : Instant) :
    Attempt Reply := do
  match request with
  | health => return .document (.obj [("status", .str "ok")])
  | about =>
    return .document (.obj [("name", .str serviceName), ("version", .str serviceVersion)])
  | documentation => return {}
  | createStory =>
    let id ← Attempt.unexplained (Catalog.create fresh)
    return .created (StoryIdAnswer.toJson ⟨id⟩)
  | listStories =>
    let stories ← Attempt.unexplained Catalog.stories
    return .document (StoryListAnswer.toJson ⟨stories⟩)
  | query story asked => asked.perform now story.spelling
  | command story wanted => wanted.perform assets now story.spelling

/-- Whether a request uses up an identifier. -/
def creates : Request → Bool
  | createStory => true
  | _ => false

/-- The story that a request changes. -/
def changed? : Request → Option Identifier
  | command story _ => some story
  | _ => none

end Request

end Narrative
