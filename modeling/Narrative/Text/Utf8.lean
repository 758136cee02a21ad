/-!
# Characters from bytes

UTF-8 spells a character by one to four bytes.  Reading is lenient: the longest beginning of a
character that does not go on as it should is read as one replacement character, and so is a byte
with which no character begins.
-/

namespace Narrative.Text.Utf8

/-- The character that stands for unreadable bytes. -/
def replacement : Char := '\ufffd'

/-- A character of which some bytes have been read. -/
structure Started where
  /-- The bits read so far. -/
  bits : Nat
  /-- How many bytes are still to come. -/
  missing : Nat
  /-- The least byte that may come next. -/
  least : Nat
  /-- The greatest byte that may come next. -/
  greatest : Nat

/-- What a byte begins: a whole character, or one that needs more bytes.  The bounds on the second
byte leave out longer spellings than necessary, the halves of surrogate pairs, and numbers past the
last character. -/
def start (byte : Nat) : Char ⊕ Started :=
  if byte < 0x80 then .inl (Char.ofNat byte)
  else if byte < 0xC2 then .inl replacement
  else if byte < 0xE0 then .inr ⟨byte - 0xC0, 1, 0x80, 0xBF⟩
  else if byte < 0xF0 then
    .inr ⟨byte - 0xE0, 2, if byte = 0xE0 then 0xA0 else 0x80, if byte = 0xED then 0x9F else 0xBF⟩
  else if byte < 0xF5 then
    .inr ⟨byte - 0xF0, 3, if byte = 0xF0 then 0x90 else 0x80, if byte = 0xF4 then 0x8F else 0xBF⟩
  else .inl replacement

/-- Whether a byte may come next. -/
def Started.accepts (started : Started) (byte : Nat) : Bool :=
  started.least ≤ byte && byte ≤ started.greatest

/-- Take the next byte: the character is complete, or needs more bytes. -/
def Started.next (started : Started) (byte : Nat) : Char ⊕ Started :=
  let bits := started.bits * 0x40 + (byte - 0x80)
  match started.missing with
  | 0 | 1 => .inl (Char.ofNat bits)
  | missing + 2 => .inr ⟨bits, missing + 1, 0x80, 0xBF⟩

/-- Read bytes behind the beginning of a character, if there is one. -/
def decodeFrom : Option Started → List UInt8 → List Char
  | none, [] => []
  | some _, [] => [replacement]
  | none, byte :: rest =>
    match start byte.toNat with
    | .inl c => c :: decodeFrom none rest
    | .inr started => decodeFrom (some started) rest
  | some started, byte :: rest =>
    if started.accepts byte.toNat then
      match started.next byte.toNat with
      | .inl c => c :: decodeFrom none rest
      | .inr started => decodeFrom (some started) rest
    else
      match start byte.toNat with
      | .inl c => replacement :: c :: decodeFrom none rest
      | .inr started => replacement :: decodeFrom (some started) rest

/-- Read bytes. -/
def decode (bytes : List UInt8) : List Char := decodeFrom none bytes

end Narrative.Text.Utf8
