import Narrative.Table
import Narrative.Story.Graph

/-!
# Records of playback

What playback remembers of a reader: the choices taken so far, and saved positions.  Times are in
milliseconds since the epoch.
-/

namespace Narrative

/-- A choice that was taken. -/
structure HistoryEntry where
  /-- The node at which it was taken. -/
  nodeId : String
  /-- The text of that node at the time. -/
  text : String := ""
  /-- The text of the choice. -/
  choice : String := ""
  /-- When it was taken. -/
  timestamp : Int := 0
deriving DecidableEq, Repr

/-- Variable values as documents hold them: any of the categories, in any order. -/
abbrev ValueTable := Table Category (Table String Float)

/-- A saved position. -/
structure SaveSlot where
  /-- The node the reader is at. -/
  currentNodeId : String
  /-- The values of the variables. -/
  values : ValueTable := .empty
  /-- The choices taken so far. -/
  history : List HistoryEntry := []
  /-- When the position was saved. -/
  timestamp : Int := 0

/-- What kind of place a reader is at. -/
inductive Status where
  /-- The node offers choices. -/
  | playing
  /-- The node offers no choices. -/
  | ended
  /-- There is no such node. -/
  | stranded
deriving DecidableEq, Repr

namespace Status

/-- All statuses. -/
def all : List Status := [playing, ended, stranded]

/-- The name of a status in documents. -/
def name : Status → String
  | playing => "playing"
  | ended => "ended"
  | stranded => "stranded"

/-- The status with a given name. -/
def ofName? (name : String) : Option Status := all.find? fun status => status.name = name

/-- The status at a node, or at a place without a node. -/
def at? : Option Node → Status
  | none => stranded
  | some node => if node.choices.isEmpty then ended else playing

end Status

/-- A choice with the answer whether it can be taken now. -/
structure AvailableChoice extends Choice where
  /-- Whether it can be taken. -/
  available : Bool

/-- What a reader sees. -/
structure PlaybackView where
  /-- The identifier of the current node. -/
  currentNodeId : String
  /-- The kind of place. -/
  status : Status
  /-- The current node. -/
  node : Option Node := none
  /-- Its choices. -/
  choices : List AvailableChoice := []
  /-- The values of the variables. -/
  values : ValueTable := .empty
  /-- How many choices have been taken. -/
  historyLength : Int := 0

end Narrative
