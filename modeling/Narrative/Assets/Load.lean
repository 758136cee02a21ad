import Narrative.Assets.Demo
import Narrative.Failure
import Narrative.Json.Reader

/-!
# Assets

The content that is shipped with the service: the demo story, kept as the document it is imported
from.  Assets are loaded once; loading them again gives what is loaded already.
-/

namespace Narrative

/-- The loaded assets. -/
structure Assets where
  /-- The fields of the demo story. -/
  demo : Json.Fields

/-- Where assets come from. -/
inductive AssetSource where
  /-- The assets that come with the library. -/
  | bundled
  /-- A directory; it is given by the text of its demo story, if it holds one. -/
  | directory (demo : Option String)
deriving DecidableEq, Repr

namespace Assets

/-- The name of the file that holds the demo story. -/
def demoFile : String := "demo_story.json"

/-- The demo story in a document. -/
def ofJson : Json → Except Failure Assets
  | .obj fields =>
    match Json.Fields.get? fields "nodes" with
    | some (.obj _) => .ok ⟨fields⟩
    | _ => .error (.asset (.noNodes demoFile))
  | _ => .error (.asset (.notObject demoFile))

/-- Load assets. -/
def load : AssetSource → Except Failure Assets
  | .bundled => .ok ⟨Demo.story⟩
  | .directory none => .error (.asset (.missing demoFile))
  | .directory (some text) =>
    match Json.read .exchanged text with
    | .ok value => ofJson value
    | .error .malformed => .error (.asset (.malformed demoFile))
    | .error flaw => .error (.ofFlaw flaw)

/-- Load assets unless they are loaded already. -/
def loadOnce (loaded : Option Assets) (source : AssetSource) : Except Failure Assets :=
  match loaded with
  | some assets => .ok assets
  | none => load source

/-- The assets, which must be loaded. -/
def require : Option Assets → Except Failure Assets
  | some assets => .ok assets
  | none => .error .assetsNotLoaded

end Assets

end Narrative
