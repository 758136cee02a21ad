import Narrative.Json.Token

/-!
# Reading documents

The reader walks over the tokens with a stack of containers that are still open.  A name that
occurs twice in an object keeps its first place and takes its last value.  The first flaw that the
reader meets is the one that is reported.
-/

namespace Narrative.Json

/-- A container that is still open. -/
inductive Frame where
  /-- An array with the items read so far, the last one first. -/
  | items (read : List Json)
  /-- An object with the fields read so far, and the name whose value is awaited. -/
  | fields (read : Fields) (name : Label)

/-- What the next token has to be. -/
inductive Expected where
  /-- A value. -/
  | value
  /-- A value, or the end of the array that has just been opened. -/
  | itemOrClose
  /-- A name. -/
  | name (read : Fields)
  /-- A name, or the end of the object that has just been opened. -/
  | nameOrClose
  /-- The colon behind a name. -/
  | colon (read : Fields) (name : Label)
  /-- A comma or the end of the innermost container; outside all containers, the end of the text. -/
  | separator (value : Json)

/-- Go on if containers may be nested to a level. -/
@[macro_inline]
def Dialect.atLevel (dialect : Dialect) (level : Nat) (next : Except Flaw Json) :
    Except Flaw Json :=
  if level ≤ dialect.nesting then next else .error .tooDeep

/-- Go on behind the opening of a container at a level. -/
@[macro_inline]
def Dialect.opening (dialect : Dialect) (level : Nat) (next : Except Flaw Json) :
    Except Flaw Json :=
  if dialect.countsEmpty then dialect.atLevel level next else next

/-- Read a document from its tokens. -/
def build (dialect : Dialect) : List Frame → Expected → List Token → Except Flaw Json
  | stack, .separator value, [] => if stack.isEmpty then .ok value else .error .malformed
  | _, _, [] => .error .malformed
  | stack, expected, token :: rest =>
    let level := stack.length + 1
    match expected, token, stack with
    | .value, .text s, _ => build dialect stack (.separator (.ofLabel s)) rest
    | .value, .word v, _ => build dialect stack (.separator v) rest
    | .value, .flawed flaw, _ => .error flaw
    | .value, .openArray, _ =>
      dialect.opening level (build dialect stack .itemOrClose rest)
    | .value, .openObject, _ =>
      dialect.opening level (build dialect stack .nameOrClose rest)
    | .itemOrClose, .closeArray, _ => build dialect stack (.separator (.arr [])) rest
    | .itemOrClose, .text s, _ =>
      dialect.atLevel level (build dialect (.items [] :: stack) (.separator (.ofLabel s)) rest)
    | .itemOrClose, .word v, _ =>
      dialect.atLevel level (build dialect (.items [] :: stack) (.separator v) rest)
    | .itemOrClose, .flawed flaw, _ => .error flaw
    | .itemOrClose, .openArray, _ =>
      dialect.atLevel level
        (dialect.opening (level + 1) (build dialect (.items [] :: stack) .itemOrClose rest))
    | .itemOrClose, .openObject, _ =>
      dialect.atLevel level
        (dialect.opening (level + 1) (build dialect (.items [] :: stack) .nameOrClose rest))
    | .nameOrClose, .closeObject, _ => build dialect stack (.separator (.obj [])) rest
    | .nameOrClose, .text s, _ =>
      dialect.atLevel level (build dialect stack (.colon [] s) rest)
    | .name read, .text s, _ => build dialect stack (.colon read s) rest
    | .colon read name, .colon, _ => build dialect (.fields read name :: stack) .value rest
    | .separator v, .comma, .items read :: stack =>
      build dialect (.items (v :: read) :: stack) .value rest
    | .separator v, .closeArray, .items read :: stack =>
      build dialect stack (.separator (.arr (v :: read).reverse)) rest
    | .separator v, .comma, .fields read name :: stack =>
      build dialect stack (.name (read.set name v)) rest
    | .separator v, .closeObject, .fields read name :: stack =>
      build dialect stack (.separator (.obj (read.set name v))) rest
    | _, _, _ => .error .malformed

/-- Read the characters of a JSON text. -/
def readChars (dialect : Dialect) (text : List Char) : Except Flaw Json :=
  build dialect [] .value (scan dialect text)

/-- Read a JSON text. -/
def read (dialect : Dialect) (text : String) : Except Flaw Json := readChars dialect text.toList

end Narrative.Json
