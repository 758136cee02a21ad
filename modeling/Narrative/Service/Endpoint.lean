import Narrative.Service.Request
import Narrative.Service.Resource

/-!
# Endpoints

An endpoint is a method on a resource.  It tells how a request is read from the parameters in the
address and from the body; the issues of the parameters come before those of the body.
-/

namespace Narrative

open Schema

/-- The methods of messages. -/
inductive Method where
  | get
  | post
  | patch
  | delete
  | head
  /-- A method that nothing answers to. -/
  | other
deriving DecidableEq, Repr

/-- The method with a given name, in capital or small letters. -/
def Method.ofName (name : String) : Method :=
  match String.ofList (name.toList.map Char.toUpper) with
  | "GET" => .get
  | "POST" => .post
  | "PATCH" => .patch
  | "DELETE" => .delete
  | "HEAD" => .head
  | _ => .other

/-- How a request is read at an endpoint. -/
inductive Endpoint where
  /-- From the parameters alone. -/
  | plain (request : Checked Request)
  /-- From the parameters and the body, which may be missing. -/
  | withBody (request : Option Json → Checked Request)

namespace Endpoint

/-! ## Parameters and bodies -/

/-- Read a parameter of the address. -/
def parameter {α : Type} (name : String) (reader : Reader α) (text : String) : Checked α :=
  .under (.field "path") (.under (.field name) (reader (.str text)))

/-- The identifier of the story. -/
def storyParameter : String → Checked Identifier := parameter "story_id" Identifier.reader

/-- The index of a choice. -/
def choiceParameter : String → Checked Int := parameter "choice_index" integer

/-- The index of an operation. -/
def operationParameter : String → Checked Int := parameter "op_index" integer

/-- A category. -/
def categoryParameter : String → Checked Category := parameter "category" Category.reader

/-- Read the body, which must be there. -/
def required {α : Type} (reader : Reader α) (body : Option Json) : Checked α :=
  .under (.field "body") (match body with
    | some value => reader value
    | none => .fail .missing)

/-- Objects as they are. -/
def anyObject : Reader Json.Fields
  | .obj fields => .valid fields
  | _ => .fail .notTable

/-! ## Stories -/

/-- An endpoint that looks at a story. -/
def asking (story : String) (query : Query) : Option Endpoint :=
  some (.plain ((Request.query · query) <$> storyParameter story))

/-- An endpoint that changes a story without reading a body. -/
def changing (story : String) (command : Checked Command) : Option Endpoint :=
  some (.plain (Request.command <$> storyParameter story <*> command))

/-- An endpoint that changes a story as the body says. -/
def changingBy {α : Type} (story : String) (reader : Reader α) (command : Checked (α → Command)) :
    Option Endpoint :=
  some (.withBody fun body =>
    Request.command <$> storyParameter story <*> (command <*> required reader body))

/-- The endpoint of a method on a part of a story. -/
def ofPart? (story : String) : Method → StoryPart → Option Endpoint
  | .get, .graph => asking story .graph
  | .get, .bundle => asking story .bundle
  | .post, .upload => changingBy story anyObject (pure .importStory)
  | .post, .demo => changing story (pure .loadDemo)
  | .get, .nodes => asking story .nodes
  | .post, .nodes => changing story (pure .createNode)
  | .get, .node key => asking story (.node key)
  | .patch, .node key =>
    changingBy story (NodePatch.reader .request) (pure (.patchNode key))
  | .delete, .node key => changing story (pure (.removeNode key))
  | .post, .choices key => changing story (pure (.addChoice key))
  | .patch, .choice key choice =>
    changingBy story (ChoicePatch.reader .request)
      (Command.patchChoice key <$> choiceParameter choice)
  | .delete, .choice key choice =>
    changing story (Command.removeChoice key <$> choiceParameter choice)
  | .patch, .condition key choice =>
    changingBy story (ConditionPatch.reader .request)
      (Command.patchCondition key <$> choiceParameter choice)
  | .post, .operations key choice =>
    changing story (Command.addOperation key <$> choiceParameter choice)
  | .patch, .operation key choice operation =>
    changingBy story (OperationPatch.reader .request)
      (Command.patchOperation key <$> choiceParameter choice <*> operationParameter operation)
  | .delete, .operation key choice operation =>
    changing story
      (Command.removeOperation key <$> choiceParameter choice <*> operationParameter operation)
  | .get, .definitions => asking story .definitions
  | .post, .category category =>
    changingBy story (VariableRequest.reader .request)
      (Command.addVariable <$> categoryParameter category)
  | .patch, .definition category id =>
    changingBy story (DefinitionPatch.reader .request)
      ((Command.patchVariable · id) <$> categoryParameter category)
  | .delete, .definition category id =>
    changing story ((Command.removeVariable · id) <$> categoryParameter category)
  | .get, .playback => asking story .view
  | .get, .history => asking story .history
  | .post, .place index => changing story (Command.jump <$> parameter "index" integer index)
  | .get, .slots => asking story .slots
  | .post, .slot name => changing story (pure (.savePosition name))
  | .post, .slotLoad name => changing story (pure (.loadPosition name))
  | .post, .action name => changingBy story anyObject (pure (.play name))
  | .post, .playedChoice choice => changing story (Command.choose <$> choiceParameter choice)
  | .post, .restart => changing story (pure .restart)
  | _, _ => none

/-! ## All endpoints -/

/-- The endpoint of a method on a resource, if there is one. -/
def of? (method : Method) : Resource → Option Endpoint
  | .health => if method = .get then some (.plain (pure .health)) else none
  | .about => if method = .get then some (.plain (pure .about)) else none
  | .documentation =>
    if method = .get ∨ method = .head then some (.plain (pure .documentation)) else none
  | .stories =>
    match method with
    | .get => some (.plain (pure .listStories))
    | .post => some (.plain (pure .createStory))
    | _ => none
  | .story id part => ofPart? id method part

end Endpoint

end Narrative
