import Narrative.Schema.Scalar

/-!
# Lists, tables and records

Readers for composed values.  A record field has a wire name such as `nextNode`; the spelling
`next_node` is taken too, but the wire name wins where both are present.
-/

namespace Narrative.Schema

universe u v

/-! ## Lists and tables -/

/-- Read the items of an array from a position on. -/
def itemsFrom {α : Type u} (reader : Reader α) (index : Nat) : List Json → Checked (List α)
  | [] => .valid []
  | item :: rest =>
    .combine (.map List.cons (.under (.item index) (reader item)))
      (itemsFrom reader (index + 1) rest)

/-- Arrays whose items are read one by one. -/
def list {α : Type u} (reader : Reader α) : Reader (List α)
  | .arr items => itemsFrom reader 0 items
  | _ => .fail .notList

/-- Read the entries of a table: the key, then the value of each.  A name that is no text is mended
where it is written, so it can be a key. -/
def entries {κ : Type u} {α : Type v} (key : Reader κ) (value : Reader α) :
    Json.Fields → Checked (List (κ × α))
  | [] => .valid []
  | (name, item) :: rest =>
    let checkedKey := .under (.field name) (.under (.field "[key]") (key (.str name.mended)))
    let checkedItem := .under (.field name) (value item)
    .combine (.map List.cons (.combine (.map Prod.mk checkedKey) checkedItem))
      (entries key value rest)

/-- Objects that map names to values. -/
def table {κ : Type u} {α : Type v} [DecidableEq κ] (key : Reader κ) (value : Reader α) :
    Reader (Table κ α)
  | .obj fields => .map Table.ofList (entries key value fields)
  | _ => .fail .notTable

/-! ## Null -/

/-- Values that may be absent: `null` stands for none. -/
def nullable {α : Type u} (reader : Reader α) : Reader (Option α)
  | .null => .valid none
  | value => .map some (reader value)

/-- Values for which older files write `null` instead of the default. -/
def nullAs {α : Type u} (default : α) (reader : Reader α) : Reader α
  | .null => .valid default
  | value => reader value

/-! ## Records -/

/-- Where a document comes from.  It decides how a part that is no object is reported, and how
large integers are taken where a number is expected. -/
inductive Origin where
  /-- The text of a stored document, checked while it is read. -/
  | text
  /-- The value of a document, as imported documents have been read before. -/
  | document
  /-- The body of a request. -/
  | request
deriving DecidableEq, Repr

/-- The fault of a part that is no object. -/
def Origin.notObject : Origin → Fault
  | request => .notAttributes
  | _ => .notObject

/-- Numbers; in a text an integer is rounded like every other numeral. -/
def Origin.number : Origin → Reader Float
  | text => roundedNumber
  | _ => Schema.number

/-- The spelling of a wire name in lower-case words: `nextNode` gives `next_node`. -/
def spelledOut (name : String) : String :=
  String.ofList (name.toList.flatMap fun c => if c.isUpper then ['_', c.toLower] else [c])

/-- The field of a record with the spelling under which it was given. -/
def lookup (fields : Json.Fields) (name : String) : Option (String × Json) :=
  match fields.get? name with
  | some value => some (name, value)
  | none => (fields.get? (spelledOut name)).map (spelledOut name, ·)

/-- A field that must be present. -/
def required {α : Type u} (fields : Json.Fields) (name : String) (reader : Reader α) : Checked α :=
  match lookup fields name with
  | some (spelling, value) => .under (.field spelling) (reader value)
  | none => .under (.field name) (.fail .missing)

/-- A field with a default. -/
def optional {α : Type u} (fields : Json.Fields) (name : String) (default : α)
    (reader : Reader α) : Checked α :=
  match lookup fields name with
  | some (spelling, value) => .under (.field spelling) (reader value)
  | none => .valid default

/-- Objects that are read field by field. -/
def record {α : Type u} (origin : Origin) (reader : Json.Fields → Checked α) : Reader α
  | .obj fields => reader fields
  | _ => .fail origin.notObject

end Narrative.Schema
