import Narrative.Text.Digit
import Narrative.Text.Utf8

/-!
# Percent escapes

In an address, `%` with two hexadecimal digits stands for one byte of UTF-8.  A `%` without them
stands for itself.
-/

namespace Narrative.Text

/-- The bytes of a text in which the escapes are resolved. -/
def escapedBytes : List Char → List UInt8
  | '%' :: high :: low :: rest =>
    match hexValue? high, hexValue? low with
    | some h, some l => UInt8.ofNat (h * 16 + l) :: escapedBytes rest
    | _, _ => '%'.toUInt8 :: escapedBytes (high :: low :: rest)
  | c :: rest => String.utf8EncodeChar c ++ escapedBytes rest
  | [] => []

/-- Resolve the escapes of a text. -/
def resolveEscapes (text : List Char) : List Char := Utf8.decode (escapedBytes text)

end Narrative.Text
