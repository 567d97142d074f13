/-
# Texts as bytes

Files and other programs hold bytes, and texts are written to them in UTF-8.  Reading splits
the bytes into characters and invalid parts; an invalid part is a byte that starts nothing,
or the longest start of a character that is not finished.  Reading is strict, when any
invalid part makes it fail, or lossy, when each invalid part counts as one replacement
character.
-/
import DotNotation.Text

namespace DotNotation

/-- A sequence of bytes. -/
abbrev Bytes := List UInt8

namespace Text

/-! ## Writing -/

/-- The bytes of a character. -/
def charBytes (c : Char) : Bytes :=
  let n := c.toNat
  let tail (share : Nat) : UInt8 := UInt8.ofNat (0x80 + share % 0x40)
  if n < 0x80 then [UInt8.ofNat n]
  else if n < 0x800 then [UInt8.ofNat (0xC0 + n / 0x40), tail n]
  else if n < 0x10000 then [UInt8.ofNat (0xE0 + n / 0x1000), tail (n / 0x40), tail n]
  else [UInt8.ofNat (0xF0 + n / 0x40000), tail (n / 0x1000), tail (n / 0x40), tail n]

/-- The bytes of a text. -/
def toBytes (t : Text) : Bytes := t.flatMap charBytes

/-! ## Reading -/

/-- What the first byte of a character says: its share of the code point, and the range of
each further byte. -/
structure Lead where
  /-- The share of the code point. -/
  start : Nat
  /-- The least and the greatest value of each further byte. -/
  ranges : List (Nat × Nat)

/-- The range of a further byte that is not restricted. -/
def anyTail : Nat × Nat := (0x80, 0xBF)

/-- What a first byte says, if it can start a character. -/
def lead? (b : UInt8) : Option Lead :=
  let n := b.toNat
  if n < 0x80 then some ⟨n, []⟩
  else if n < 0xC2 then none
  else if n < 0xE0 then some ⟨n - 0xC0, [anyTail]⟩
  else if n == 0xE0 then some ⟨0, [(0xA0, 0xBF), anyTail]⟩
  else if n == 0xED then some ⟨0xD, [(0x80, 0x9F), anyTail]⟩
  else if n < 0xF0 then some ⟨n - 0xE0, [anyTail, anyTail]⟩
  else if n == 0xF0 then some ⟨0, [(0x90, 0xBF), anyTail, anyTail]⟩
  else if n < 0xF4 then some ⟨n - 0xF0, [anyTail, anyTail, anyTail]⟩
  else if n == 0xF4 then some ⟨4, [(0x80, 0x8F), anyTail, anyTail]⟩
  else none

/-- Read the further bytes of a character: its code point if all are there, and what follows
the bytes that fit. -/
def readTail (code : Nat) : List (Nat × Nat) → Bytes → Option Nat × Bytes
  | [], bytes => (some code, bytes)
  | _ :: _, [] => (none, [])
  | (low, high) :: ranges, b :: bytes =>
    if low ≤ b.toNat && b.toNat ≤ high then readTail (code * 64 + (b.toNat - 0x80)) ranges bytes
    else (none, b :: bytes)

/-- Split bytes into characters and invalid parts.  Each takes at least one byte, so a sequence
no shorter than the bytes bounds their number. -/
def splitWithin (bound : Bytes) (bytes : Bytes) : List (Option Char) :=
  match bound, bytes with
  | _, [] => []
  | [], _ => []
  | _ :: bound, b :: rest =>
    match lead? b with
    | none => none :: splitWithin bound rest
    | some lead =>
      let (code, rest) := readTail lead.start lead.ranges rest
      code.map Char.ofNat :: splitWithin bound rest

/-- The characters and invalid parts of a sequence of bytes. -/
def splitBytes (bytes : Bytes) : List (Option Char) := splitWithin bytes bytes

/-- The replacement for an invalid part. -/
def replacement : Char := Char.ofNat 0xFFFD

/-- Read bytes strictly. -/
def ofBytes? (bytes : Bytes) : Option Text := (splitBytes bytes).mapM fun c => c

/-- Read bytes lossily. -/
def ofBytesLossy (bytes : Bytes) : Text := (splitBytes bytes).map (·.getD replacement)

/-! ## Line ends -/

/-- The text with every line end, also a lone carriage return, as a line feed. -/
def unifyLineEnds : Text → Text
  | [] => []
  | c :: cs =>
    if c = '\r' then
      match cs with
      | '\n' :: ds => '\n' :: unifyLineEnds ds
      | ds => '\n' :: unifyLineEnds ds
    else c :: unifyLineEnds cs

end Text

end DotNotation
