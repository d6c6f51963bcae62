/-!
# UTF-8

`encode` writes text as bytes.  `decode` reads any bytes as text: what is not UTF-8 is replaced
by U+FFFD, once for each longest stretch of bytes that begins like a character and then breaks
off, or once for a byte that begins none.

The decoder keeps the character that is being read: the bits so far, how many bytes are owed, and
the range in which the next one must lie.  The range is narrow behind a few first bytes, which
excludes overlong forms, surrogates and code points beyond U+10FFFF.
-/

namespace AtMarkup.Text

/-- The bytes of a text. -/
def encode (text : List Char) : List UInt8 :=
  text.flatMap String.utf8EncodeChar

/-- A character of which some bytes are still owed. -/
structure OpenCharacter where
  /-- The bits so far. -/
  bits : Nat
  /-- How many bytes are owed, at least one. -/
  owed : Nat
  /-- The least byte that may come next. -/
  low : Nat
  /-- The greatest byte that may come next. -/
  high : Nat
  deriving DecidableEq, Repr

/-- The character that stands for bytes that are none. -/
def replacement : Char := '\ufffd'

/-- What a byte between two characters amounts to: a whole character, the first byte of a longer
one, or nothing that can be read. -/
inductive FirstByte where
  /-- A character of one byte. -/
  | whole (c : Char)
  /-- The first byte of a longer character. -/
  | opens (character : OpenCharacter)
  /-- No first byte. -/
  | invalid
  deriving DecidableEq, Repr

/-- What a byte between two characters amounts to. -/
def FirstByte.of (byte : Nat) : FirstByte :=
  if byte < 0x80 then .whole (Char.ofNat byte)
  else if byte < 0xC2 then .invalid
  else if byte < 0xE0 then .opens ⟨byte - 0xC0, 1, 0x80, 0xBF⟩
  else if byte = 0xE0 then .opens ⟨0, 2, 0xA0, 0xBF⟩
  else if byte = 0xED then .opens ⟨0xD, 2, 0x80, 0x9F⟩
  else if byte < 0xF0 then .opens ⟨byte - 0xE0, 2, 0x80, 0xBF⟩
  else if byte = 0xF0 then .opens ⟨0, 3, 0x90, 0xBF⟩
  else if byte < 0xF4 then .opens ⟨byte - 0xF0, 3, 0x80, 0xBF⟩
  else if byte = 0xF4 then .opens ⟨4, 3, 0x80, 0x8F⟩
  else .invalid

/-- The decoder between two bytes: the text so far, latest first, and the open character. -/
structure Decoder where
  /-- The text so far, latest first. -/
  text : List Char := []
  /-- The character of which bytes are owed, if there is one. -/
  pending : Option OpenCharacter := none
  deriving DecidableEq, Repr

namespace Decoder

/-- Takes a byte while no character is open. -/
def first (text : List Char) (byte : Nat) : Decoder :=
  match FirstByte.of byte with
  | .whole c => ⟨c :: text, none⟩
  | .opens character => ⟨text, some character⟩
  | .invalid => ⟨replacement :: text, none⟩

/-- Takes a byte that the open character can use. -/
def continued (text : List Char) (character : OpenCharacter) (byte : Nat) : Decoder :=
  let bits := character.bits * 64 + (byte - 0x80)
  if character.owed = 1 then ⟨Char.ofNat bits :: text, none⟩
  else ⟨text, some ⟨bits, character.owed - 1, 0x80, 0xBF⟩⟩

/-- Takes a byte.  One that the open character cannot use breaks it off and starts afresh. -/
def step (d : Decoder) (byte : UInt8) : Decoder :=
  match d.pending with
  | none => first d.text byte.toNat
  | some character =>
    if character.low ≤ byte.toNat ∧ byte.toNat ≤ character.high then
      continued d.text character byte.toNat
    else first (replacement :: d.text) byte.toNat

/-- The text when the bytes end; a character that is still open is broken off. -/
def finish (d : Decoder) : List Char :=
  match d.pending with
  | none => d.text.reverse
  | some _ => (replacement :: d.text).reverse

end Decoder

/-- Reads bytes as text. -/
def decode (bytes : List UInt8) : List Char :=
  (bytes.foldl Decoder.step {}).finish

end AtMarkup.Text
