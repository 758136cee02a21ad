import Narrative.Text.Units

/-!
# Encodings

The bytes of a text may be in UTF-8, UTF-16 or UTF-32.  A text of JSON begins with two characters of
ASCII, so zeros among its first bytes show which encoding it is in.
-/

namespace Narrative.Text

/-- The order of the bytes of a number. -/
inductive ByteOrder where
  /-- The most significant byte comes first. -/
  | big
  /-- The least significant byte comes first. -/
  | little
deriving DecidableEq, Repr

/-- The number that bytes spell. -/
def ByteOrder.number (order : ByteOrder) (bytes : List UInt8) : Nat :=
  let ordered := match order with
    | big => bytes
    | little => bytes.reverse
  ordered.foldl (fun value byte => value * 256 + byte.toNat) 0

/-- How bytes spell characters. -/
inductive Encoding where
  /-- One to four bytes for a character. -/
  | utf8
  /-- Two bytes for a code unit. -/
  | utf16 (order : ByteOrder)
  /-- Four bytes for a character. -/
  | utf32 (order : ByteOrder)
deriving DecidableEq, Repr

namespace Encoding

/-- The encoding that the first bytes show. -/
def detect : List UInt8 → Encoding
  | [first, second] =>
    if first = 0 then utf16 .big else if second = 0 then utf16 .little else utf8
  | first :: second :: third :: fourth :: _ =>
    if first = 0 then if second = 0 then utf32 .big else utf16 .big
    else if second = 0 then if third = 0 ∧ fourth = 0 then utf32 .little else utf16 .little
    else utf8
  | _ => utf8

/-- The code units of two bytes each; nothing when a byte is left over. -/
def units16 (order : ByteOrder) : List UInt8 → Option (List Nat)
  | [] => some []
  | a :: b :: rest => (units16 order rest).map (order.number [a, b] :: ·)
  | _ => none

/-- The code points of four bytes each; nothing when bytes are left over. -/
def points32 (order : ByteOrder) : List UInt8 → Option (List Nat)
  | [] => some []
  | a :: b :: c :: d :: rest => (points32 order rest).map (order.number [a, b, c, d] :: ·)
  | _ => none

end Encoding

/-- The code points of a text that arrived as the bytes of UTF-8, read again in the encoding that
these bytes show; nothing when bytes are left over.  In UTF-8 a mark of the byte order in front is
dropped. -/
def redecode (text : String) : Option (List Nat) :=
  let bytes := text.toUTF8.toList
  match Encoding.detect bytes with
  | .utf8 =>
    match text.toList with
    | '\ufeff' :: rest => some (rest.map Char.toNat)
    | chars => some (chars.map Char.toNat)
  | .utf16 order => (Encoding.units16 order bytes).map joinUnits
  | .utf32 order => Encoding.points32 order bytes

end Narrative.Text
