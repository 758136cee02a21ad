import Narrative.Json.Token
import Narrative.Schema.Issue
import Narrative.Text.Literal
import Narrative.Variable.Category

/-!
# Failures

Why an operation did not go through, and the words in which that is reported.
-/

namespace Narrative

/-- What can be wrong with the assets. -/
inductive AssetFault where
  /-- There is no file of this name. -/
  | missing (file : String)
  /-- The file is no JSON text. -/
  | malformed (file : String)
  /-- The file holds no object. -/
  | notObject (file : String)
  /-- The story in the file has no table of nodes. -/
  | noNodes (file : String)
deriving DecidableEq, Repr

/-- Why an operation did not go through. -/
inductive Failure where
  /-- Definitions were asked for by a name that is no category. -/
  | unknownCategory (name : String)
  /-- A name that is no category. -/
  | notCategory (name : String)
  /-- Values were asked for by a name that is no category. -/
  | noValues (name : String)
  /-- A name that is no kind of operation. -/
  | notOperationKind (name : String)
  /-- A name that is no status. -/
  | notStatus (name : String)
  /-- A condition with a name that is no comparison. -/
  | unknownComparison (name : String)
  /-- The story is not in the catalog. -/
  | storyNotFound
  /-- Another request holds the story. -/
  | storyBusy
  /-- There is no readable save in the slot. -/
  | slotNotFound (slot : String)
  /-- A play action of an unknown name. -/
  | unknownAction (name : String)
  /-- A play action without the index it needs. -/
  | indexMissing
  /-- An index that is no integer. -/
  | indexUnreadable
  /-- An infinite number where an integer is needed. -/
  | infinite
  /-- An undefined number where an integer is needed. -/
  | undefined
  /-- An undefined number where a time is needed. -/
  | undefinedTime
  /-- The calendar does not have the year. -/
  | yearOutOfRange (year : Int)
  /-- The year of a time is past every count of years. -/
  | timeOutOfReach
  /-- A time is past every count of seconds. -/
  | timeTooLarge
  /-- There is no history entry at the index. -/
  | historyOutOfRange (index : Int)
  /-- The reader stands at a place without a node. -/
  | nodeNotFound (id : String)
  /-- The node has no choice at the index. -/
  | choiceOutOfRange (index : Int) (node : String) (count : Nat)
  /-- The condition of the choice does not hold. -/
  | choiceUnavailable (text : String)
  /-- A choice was taken at a position that the list of choices does not have. -/
  | noChoice
  /-- A document does not fit its schema. -/
  | invalidDocument (title : String) (issues : List Schema.Issue)
  /-- A text is no JSON text. -/
  | malformedText
  /-- Containers are nested too deep in a text. -/
  | textTooDeep
  /-- An integer in a text has more digits than it may have. -/
  | integerTooLong (digits : Nat)
  /-- A string that is no text, where a key is needed; `points` spell the key. -/
  | unwritableKey (points : List Nat)
  /-- A string that is no text, where a document is to be written. -/
  | unwritableText (points : List Nat)
  /-- A stored list holds a value that has no items. -/
  | notList
  /-- The assets are faulty. -/
  | asset (fault : AssetFault)
  /-- The assets have not been loaded. -/
  | assetsNotLoaded
  /-- A request names a node that the story does not have. -/
  | noSuchNode
  /-- A request names a choice that the story does not have. -/
  | noSuchChoice
  /-- A request names an operation that the story does not have. -/
  | noSuchOperation
  /-- A request names a variable that the story does not have. -/
  | noSuchVariable
  /-- A variable cannot take an identifier that another one has. -/
  | variableTaken (id : String) (category : Category)
  /-- The node has to stay. -/
  | nodeKept (key : String)
  /-- An imported document is no story. -/
  | notStory
  /-- The demo story is no story. -/
  | notDemo
  /-- A failure whose cause is not told. -/
  | unexplained
deriving DecidableEq, Repr

/-- The wording of a faulty asset. -/
def AssetFault.message : AssetFault → String
  | missing file => "Missing asset file: " ++ file
  | malformed file => "Invalid JSON in " ++ file
  | notObject file => file ++ " must contain a JSON object"
  | noNodes file => file ++ " has no 'nodes' mapping"

namespace Failure

/-- How a name that is not in a list is reported. -/
def notListed (name list : String) : String :=
  String.ofList (Text.literal name) ++ " is not a valid " ++ list

/-- The failure that comes of a text which cannot be read. -/
def ofFlaw : Json.Flaw → Failure
  | .malformed => malformedText
  | .tooDeep => textTooDeep
  | .tooLong digits => integerTooLong digits

/-- How the first lone halves of pairs among code points are reported. -/
def loneHalves (points : List Nat) : String :=
  let start := (points.takeWhile fun point => !Text.isHalf point).length
  let place := match (points.drop start).takeWhile Text.isHalf with
    | [half] =>
      "character " ++ String.ofList (Text.literalPoints [half]) ++ " in position " ++ toString start
    | halves =>
      "characters in position " ++ toString start ++ "-" ++ toString (start + halves.length - 1)
  "'utf-8' codec can't encode " ++ place ++ ": surrogates not allowed"

/-- The wording of a failure. -/
def message : Failure → String
  | unknownCategory name => "Unknown variable category: " ++ name
  | notCategory name => notListed name "VariableCategory"
  | noValues name => String.ofList (Text.literal name)
  | notOperationKind name => notListed name "OperationKind"
  | notStatus name => notListed name "PlaybackStatus"
  | unknownComparison name => "Unknown condition operator: " ++ name
  | storyNotFound => "Story not found"
  | storyBusy => "Story is busy"
  | slotNotFound slot => "Save slot not found: " ++ slot
  | unknownAction name => "Unknown action: " ++ name
  | indexMissing => "index is required"
  | indexUnreadable => "index must be an integer"
  | infinite => "cannot convert float infinity to integer"
  | undefined => "cannot convert float NaN to integer"
  | undefinedTime => "Invalid value NaN (not a number)"
  | yearOutOfRange year => "year " ++ toString year ++ " is out of range"
  | timeOutOfReach => "Value too large for defined data type"
  | timeTooLarge => "timestamp out of range for platform time_t"
  | historyOutOfRange index => "History index out of range: " ++ toString index
  | nodeNotFound id => "Current node not found: " ++ id
  | choiceOutOfRange index node count =>
    "Choice index " ++ toString index ++ " out of range for node '" ++ node ++ "' (" ++
      toString count ++ " choices)"
  | choiceUnavailable text => "Choice '" ++ text ++ "' is not available"
  | noChoice => "list index out of range"
  | invalidDocument title issues =>
    toString issues.length ++ " validation error" ++ (if issues.length = 1 then "" else "s") ++
      " for " ++ title
  | malformedText => "JSON decode error"
  | textTooDeep => "maximum recursion depth exceeded"
  | integerTooLong digits =>
    "Exceeds the limit (" ++ toString Numeral.digitLimit ++
      " digits) for integer string conversion: value has " ++ toString digits ++
      " digits; use sys.set_int_max_str_digits() to increase the limit"
  | unwritableKey points => loneHalves points
  | unwritableText points =>
    "Error serializing to JSON: UnicodeEncodeError: " ++ loneHalves points
  | notList => "object is not iterable"
  | asset fault => fault.message
  | assetsNotLoaded => "Assets not initialized. Call init_assets() at startup."
  | noSuchNode => "Node not found"
  | noSuchChoice => "Choice not found"
  | noSuchOperation => "Variable operation not found"
  | noSuchVariable => "Variable not found"
  | variableTaken id category =>
    "Variable '" ++ id ++ "' already exists in " ++ category.name
  | nodeKept key => "The '" ++ key ++ "' node cannot be deleted"
  | notStory => "Invalid story data"
  | notDemo => "Demo story is invalid"
  | unexplained => "Internal Server Error"

/-- How a failure is answered: as something missing, as a request that cannot be met, or as a
defect of the service. -/
inductive Severity where
  | notFound
  | rejected
  | defect
deriving DecidableEq, Repr

/-- The severity of a failure. -/
def severity : Failure → Severity
  | storyNotFound | slotNotFound _ | noValues _ | noChoice | noSuchNode | noSuchChoice
  | noSuchOperation | noSuchVariable => .notFound
  | notList | infinite | timeOutOfReach | timeTooLarge | textTooDeep | asset _ | assetsNotLoaded
  | unexplained => .defect
  | _ => .rejected

end Failure

end Narrative
