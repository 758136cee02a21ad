import Narrative.Text.Integer

/-!
# Identifiers

Stories are identified by 128-bit numbers.  The canonical spelling has 32 lower-case hexadecimal
digits in groups of 8, 4, 4, 4 and 12.  Documents and requests may use the forms that `ofText?`
takes; the catalog of stories is read more liberally, by `ofLooseText?`.
-/

namespace Narrative

/-- The identifier of a story. -/
structure Identifier where
  /-- The number. -/
  value : BitVec 128
deriving DecidableEq, Repr

namespace Identifier

/-! ## Spelling -/

/-- A digit in lower-case hexadecimal. -/
def hexDigit (n : Nat) : Char := Nat.digitChar (n % 16)

/-- The last `count` hexadecimal digits of a number. -/
def hexDigits (count n : Nat) : List Char :=
  (List.range count).reverse.map fun position => hexDigit (n / 16 ^ position)

/-- Put hyphens between the groups of 32 digits. -/
def hyphenate (digits : List Char) : List Char :=
  digits.take 8 ++ '-' :: (digits.drop 8).take 4 ++ '-' :: (digits.drop 12).take 4 ++
    '-' :: (digits.drop 16).take 4 ++ '-' :: digits.drop 20

/-- The canonical spelling. -/
def spelling (id : Identifier) : String :=
  String.ofList (hyphenate (hexDigits 32 id.value.toNat))

instance : ToString Identifier := ⟨spelling⟩

/-! ## Reading -/

/-- Read exactly 32 hexadecimal digits. -/
def ofDigits? (digits : List Char) : Option Identifier :=
  if digits.length = 32 then
    (digits.mapM Text.hexValue?).map fun values =>
      ⟨BitVec.ofNat 128 (values.foldl (fun n digit => n * 16 + digit) 0)⟩
  else none

/-- Read 36 characters with hyphens between the groups of digits. -/
def ofHyphenated? (text : List Char) : Option Identifier :=
  let digits := text.take 8 ++ (text.drop 9).take 4 ++ (text.drop 14).take 4 ++
    (text.drop 19).take 4 ++ text.drop 24
  if text.length = 36 ∧ hyphenate digits = text then ofDigits? digits else none

/-- Read an identifier: 32 digits, digits with hyphens, and the latter in braces or behind
`urn:uuid:`. -/
def ofText? (text : String) : Option Identifier :=
  let chars := text.toList
  if chars.length = 32 then ofDigits? chars
  else if chars.length = 36 then ofHyphenated? chars
  else if chars.length = 38 ∧ chars.head? = some '\x7b' ∧ chars.getLast? = some '\x7d' then
    ofHyphenated? (chars.drop 1).dropLast
  else if chars.length = 45 ∧ chars.take 9 = "urn:uuid:".toList then
    ofHyphenated? (chars.drop 9)
  else none

/-- Remove every occurrence of a non-empty word, from the left. -/
def removeWord (word : List Char) : List Char → List Char
  | [] => []
  | c :: rest =>
    if word.isPrefixOf (c :: rest) then removeWord word (rest.drop (word.length - 1))
    else c :: removeWord word rest
termination_by text => text.length
decreasing_by
  all_goals simp only [List.length_cons, List.length_drop]
  all_goals omega

/-- Read an identifier as catalogs may spell it: the words `urn:` and `uuid:`, hyphens, and braces
at the ends do not count; what remains are 32 characters that spell a number in base sixteen. -/
def ofLooseText? (text : String) : Option Identifier :=
  let chars := removeWord "uuid:".toList (removeWord "urn:".toList text.toList)
  let isBrace (c : Char) : Bool := c = '\x7b' || c = '\x7d'
  let chars := (Text.trimBy isBrace chars).filter (· ≠ '-')
  if chars.length = 32 then
    match Text.integer? 16 chars with
    | some (.ofNat n) => some ⟨BitVec.ofNat 128 n⟩
    | _ => none
  else none

end Identifier

end Narrative
