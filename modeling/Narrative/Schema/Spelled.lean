import Narrative.Decimal.Numeral
import Narrative.Schema.Checked
import Narrative.Text.Blank

/-!
# Spelled numbers

Numbers and integers that a document gives as strings.  The plainest spelling is read as it stands;
otherwise a spelling is tidied first.  Single `_` anywhere inside a spelling do not count, and
neither do the zeros in front of an integer and behind its point.
-/

namespace Narrative.Schema

/-! ## Separators -/

/-- Whether two `_` stand side by side. -/
def hasAdjacentBars : List Char → Bool
  | '_' :: '_' :: _ => true
  | _ :: rest => hasAdjacentBars rest
  | [] => false

/-- Remove the separators `_`.  None may stand at an end or beside another one. -/
def ungrouped (text : List Char) : Option (List Char) :=
  if text.head? = some '_' || text.getLast? = some '_' || hasAdjacentBars text then none
  else some (text.filter (· ≠ '_'))

/-! ## Numbers -/

/-- The letters of a text in lower case; letters beyond ASCII stay. -/
def lowercase (text : List Char) : List Char := text.map Char.toLower

/-- A value named by a word instead of digits, with its sign. -/
def namedNumber (text : List Char) : Option Float :=
  let (sign, word) := Numeral.takeSign text
  let word := lowercase word
  if word = "inf".toList ∨ word = "infinity".toList then
    some (Decimal.infinite (sign = some '-'))
  else if word = "nan".toList then some Decimal.notANumber
  else none

/-- Whether a numeral has digits before or behind the point, and behind every exponent mark. -/
def hasDigits (numeral : Numeral) : Bool :=
  (!numeral.whole.isEmpty || !(numeral.fraction.getD []).isEmpty) && numeral.exponentComplete

/-- The number that a text without separators spells. -/
def plainNumber? (text : List Char) : Option Float :=
  match namedNumber text with
  | some value => some value
  | none =>
    (Numeral.ofChars? text).bind fun numeral =>
      if hasDigits numeral then some numeral.toFloat else none

/-- The number that a text spells.  Blanks around it are dropped, unless it has separators. -/
def numberOfText (text : List Char) : Option Float :=
  plainNumber? (Text.trim text) <|> (ungrouped text).bind plainNumber?

/-! ## Integers -/

/-- The integer that a text spells in the plainest way, with no more digits than it may have. -/
def plainInteger? (text : List Char) : Option Int :=
  (Numeral.ofChars? text).bind fun numeral =>
    if numeral.isPlain && numeral.isInteger && !Numeral.beginsOverlong text then
      some numeral.toInt
    else none

/-- Drop zeros and separators; `last` is the one dropped last.  A digit or a sign ends them, and so
does a point, which keeps one of them in front. -/
def dropZerosBehind (last : Char) : List Char → Option (List Char)
  | [] => some [last]
  | c :: rest =>
    if c = '0' ∨ c = '_' then dropZerosBehind c rest
    else if c.isDigit ∨ c = '-' then some (c :: rest)
    else if c = '.' then some (last :: c :: rest)
    else none

/-- Drop the zeros in front of a spelling. -/
def dropZeros : List Char → Option (List Char)
  | [] => none
  | c :: rest =>
    if c = '0' then dropZerosBehind c rest
    else if c.isDigit ∨ c = '-' then some (c :: rest)
    else none

/-- Drop a point with nothing but zeros behind it. -/
def dropZeroFraction (text : List Char) : List Char :=
  match text.dropWhile (· ≠ '.') with
  | '.' :: zeros =>
    if !zeros.isEmpty && zeros.all (· = '0') then text.takeWhile (· ≠ '.') else text
  | _ => text

/-- Tidy the spelling of an integer without a sign in front. -/
def tidySize (text : List Char) : Option (List Char) :=
  (dropZeros text).bind fun text => ungrouped (dropZeroFraction text)

/-- Tidy the spelling of an integer. -/
def tidy (text : List Char) : Option (List Char) :=
  match Text.trim text with
  | '+' :: '-' :: _ => none
  | '+' :: rest => tidySize rest
  | '-' :: rest => (tidySize rest).map ('-' :: ·)
  | rest => tidySize rest

/-- The integer that a text spells. -/
def integerOfText (text : List Char) : Checked Int :=
  if Numeral.beginsOverlong text then .fail .integerTooLarge
  else .ofOption .unreadableInteger (plainInteger? text <|> (tidy text).bind plainInteger?)

end Narrative.Schema
