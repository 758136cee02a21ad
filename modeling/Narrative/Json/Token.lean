import Narrative.Json.Quoted
import Narrative.Decimal.Numeral

/-!
# Tokens

A JSON text is cut into punctuation, strings and bare words.  A bare word is a longest run of
characters that are neither blank nor punctuation; it must be a number or the name of a value.  Two
bare words never stand side by side in a JSON text, so cutting at the longest run decides the same
texts as reading number by number.

A flaw is a token of its own, so that a reader who stops in front of it never meets it.
-/

namespace Narrative.Json

/-! ## Flaws and dialects -/

/-- Why a text cannot be read. -/
inductive Flaw where
  /-- It is no JSON text. -/
  | malformed
  /-- Containers are nested too deep. -/
  | tooDeep
  /-- An integer has more digits than it may have. -/
  | tooLong (digits : Nat)
deriving DecidableEq, Repr

/-- What a reader makes of the corners of the format. -/
structure Dialect where
  /-- How many containers may be nested. -/
  nesting : Nat
  /-- Whether an empty container counts as a level of nesting. -/
  countsEmpty : Bool
  /-- Whether the digits in front of a point or an exponent are limited as those of an integer. -/
  limitsWhole : Bool
  /-- Whether a string may be no text. -/
  allowsTorn : Bool
deriving DecidableEq, Repr

/-- Stored documents nest at most 200 containers that hold anything, and every string in them is a
text. -/
def Dialect.stored : Dialect where
  nesting := 200
  countsEmpty := false
  limitsWhole := true
  allowsTorn := false

/-- What arrives from outside may nest deeper and hold strings that are no texts. -/
def Dialect.exchanged : Dialect where
  nesting := 960
  countsEmpty := true
  limitsWhole := false
  allowsTorn := true

/-! ## Words -/

/-- A token of a JSON text. -/
inductive Token where
  /-- The character that opens an object. -/
  | openObject
  /-- The character that closes an object. -/
  | closeObject
  /-- The character that opens an array. -/
  | openArray
  /-- The character that closes an array. -/
  | closeArray
  /-- The separator of items and fields. -/
  | comma
  /-- The separator of a name and its value. -/
  | colon
  /-- A string. -/
  | text (value : Label)
  /-- A number or the name of a value. -/
  | word (value : Json)
  /-- Something that cannot be read. -/
  | flawed (flaw : Flaw)

/-- Blank characters between tokens. -/
def isBlank (c : Char) : Bool := c = ' ' || c = '\t' || c = '\n' || c = '\r'

/-- The token of a punctuation character. -/
def punctuation : Char → Option Token
  | '{' => some .openObject
  | '}' => some .closeObject
  | '[' => some .openArray
  | ']' => some .closeArray
  | ',' => some .comma
  | ':' => some .colon
  | _ => none

/-- The characters of bare words. -/
def isWordChar (c : Char) : Bool := !isBlank c && (punctuation c).isNone && c != '"'

/-- Whether a dialect refuses a bare word for the number of its digits. -/
def Dialect.refusesLength (dialect : Dialect) (word : List Char) : Bool :=
  if dialect.limitsWhole then Numeral.beginsOverlong word else Numeral.beginsOverlongInteger word

/-- The value of a numeral. -/
def ofNumeral (numeral : Numeral) : Json :=
  if numeral.isInteger then .int numeral.toInt else .num numeral.toFloat

/-- The token of a bare word. -/
def wordToken (dialect : Dialect) (word : List Char) : Token :=
  if word = "null".toList then .word .null
  else if word = "true".toList then .word (.bool true)
  else if word = "false".toList then .word (.bool false)
  else if word = "NaN".toList then .word (.num Decimal.notANumber)
  else if word = "Infinity".toList then .word (.num (Decimal.infinite false))
  else if word = "-Infinity".toList then .word (.num (Decimal.infinite true))
  else if dialect.refusesLength word then
    .flawed (.tooLong (Numeral.leadingDigits word).1.length)
  else match Numeral.ofChars? word with
    | some numeral => if numeral.isPlain then .word (ofNumeral numeral) else .flawed .malformed
    | none => .flawed .malformed

/-- The token of a string. -/
def labelToken (dialect : Dialect) : Label → Token
  | .text value => .text (.text value)
  | .torn points h => if dialect.allowsTorn then .text (.torn points h) else .flawed .malformed

/-! ## Cutting -/

/-- Cut a text into tokens.  Every step takes at least one character, so as many steps as there are
characters are enough. -/
def scanSteps (dialect : Dialect) : Nat → List Char → List Token
  | _, [] => []
  | 0, _ :: _ => [.flawed .malformed]
  | steps + 1, c :: rest =>
    if isBlank c then scanSteps dialect steps rest
    else match punctuation c with
      | some token => token :: scanSteps dialect steps rest
      | none =>
        if c = '"' then
          match readQuoted rest with
          | some (label, rest) => labelToken dialect label :: scanSteps dialect steps rest
          | none => [.flawed .malformed]
        else
          wordToken dialect ((c :: rest).takeWhile isWordChar) ::
            scanSteps dialect steps ((c :: rest).dropWhile isWordChar)

/-- Cut a text into tokens. -/
def scan (dialect : Dialect) (text : List Char) : List Token :=
  scanSteps dialect text.length text

end Narrative.Json
