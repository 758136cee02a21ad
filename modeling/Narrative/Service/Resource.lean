import Narrative.Service.Address

/-!
# Resources

What the addresses of the service stand for.  The parameters are kept as they are written; whether
they are in order is checked when the request is read.
-/

namespace Narrative

/-- A part of a story. -/
inductive StoryPart where
  | graph
  | bundle
  | upload
  | demo
  | nodes
  | node (node : String)
  | choices (node : String)
  | choice (node choice : String)
  | condition (node choice : String)
  | operations (node choice : String)
  | operation (node choice operation : String)
  | definitions
  | category (category : String)
  | definition (category id : String)
  | playback
  | history
  | place (index : String)
  | slots
  | slot (slot : String)
  | slotLoad (slot : String)
  | action (action : String)
  | playedChoice (choice : String)
  | restart
deriving DecidableEq, Repr

/-- What an address stands for. -/
inductive Resource where
  | health
  | about
  /-- A page that describes the service. -/
  | documentation
  | stories
  | story (story : String) (part : StoryPart)
deriving DecidableEq, Repr

namespace StoryPart

/-- The part of the nodes with given segments. -/
def ofNodeSegments? : List String → Option StoryPart
  | [] => some .nodes
  | [key] => some (.node key)
  | [key, "choices"] => some (.choices key)
  | [key, "choices", index] => some (.choice key index)
  | [key, "choices", index, "condition"] => some (.condition key index)
  | [key, "choices", index, "operations"] => some (.operations key index)
  | [key, "choices", index, "operations", inner] => some (.operation key index inner)
  | _ => none

/-- The part of the playthrough with given segments. -/
def ofPlaySegments? : List String → Option StoryPart
  | [] => some .playback
  | ["history"] => some .history
  | ["history", index, "jump"] => some (.place index)
  | ["saves"] => some .slots
  | ["saves", name] => some (.slot name)
  | ["saves", name, "load"] => some (.slotLoad name)
  | ["actions", name] => some (.action name)
  | ["choices", index] => some (.playedChoice index)
  | ["restart"] => some .restart
  | _ => none

/-- The part with given segments. -/
def ofSegments? : List String → Option StoryPart
  | ["graph"] => some .graph
  | ["export"] => some .bundle
  | ["import"] => some .upload
  | ["demo"] => some .demo
  | "nodes" :: rest => ofNodeSegments? rest
  | ["variables"] => some .definitions
  | ["variables", name] => some (.category name)
  | ["variables", name, id] => some (.definition name id)
  | "play" :: rest => ofPlaySegments? rest
  | _ => none

end StoryPart

namespace Resource

/-- The resource with given segments, none of which may be empty. -/
def ofSegments? (segments : List String) : Option Resource :=
  if segments.any String.isEmpty then none
  else match segments with
    | ["healthcheck"] => some .health
    | ["info"] => some .about
    | ["docs"] | ["docs", "oauth2-redirect"] | ["redoc"] | ["openapi.json"] => some .documentation
    | ["stories"] => some .stories
    | "stories" :: id :: rest => (StoryPart.ofSegments? rest).map (.story id)
    | _ => none

/-- Drop a line break at the end of a text. -/
def dropBreak (text : String) : String :=
  if text.toList.getLast? = some '\n' then String.ofList text.toList.dropLast else text

/-- Drop a line break at the end of the last segment. -/
def dropFinalBreak : List String → List String
  | [] => []
  | [segment] => [dropBreak segment]
  | segment :: rest => segment :: dropFinalBreak rest

/-- The resource that segments name.  A line break behind a word of the service does not count;
in a parameter it does. -/
def named? (segments : List String) : Option Resource :=
  ofSegments? segments <|> ofSegments? (dropFinalBreak segments)

/-- Drop the empty segments at the end, which come from slashes there. -/
def dropFinalSlashes (segments : List String) : List String :=
  (segments.reverse.dropWhile String.isEmpty).reverse

/-- The resource at a path.  Where a path with slashes at its end names nothing, the client is sent
to the one without them, and asks again if that names something.  The path to which the client is
sent is all path, whatever characters are in it. -/
def locate? : Nat → List Char → Option Resource
  | 0, _ => none
  | attempts + 1, path =>
    let segments := Address.segments path
    match named? segments with
    | some resource => some resource
    | none =>
      let shorter := dropFinalSlashes segments
      if shorter ≠ segments && (named? shorter).isSome then
        locate? attempts (Address.join (shorter.map String.toList))
      else none

/-- The resource at an address, if there is one.  Every time the client is sent on, the path gets
shorter. -/
def at? (address : String) : Option Resource :=
  locate? (address.length + 1) (Address.path address)

end Resource

end Narrative
