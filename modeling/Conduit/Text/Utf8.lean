/-
# UTF-8

`encode` and `decode?` are the standard form of a text as bytes and its inverse.
`decodeLossy` reads any bytes: wherever they are ill-formed, each longest run
that begins a character without completing one is read as the replacement
character.
-/

namespace Conduit.Utf8

/-- The bytes of a text. -/
def encode (s : String) : List UInt8 := s.toUTF8.data.toList

/-- The text with these bytes, if they are well-formed. -/
def decode? (bytes : List UInt8) : Option String := String.fromUTF8? ⟨bytes.toArray⟩

/-- What stands for bytes that are no character. -/
def replacement : Char := '\uFFFD'

/-- A character that is begun and not completed. -/
structure Partial where
  /-- The bits read so far. -/
  code : Nat
  /-- How many bytes are still to come. -/
  missing : Nat
  /-- The least byte that can come next. -/
  low : UInt8 := 0x80
  /-- The greatest byte that can come next. -/
  high : UInt8 := 0xBF

/-- The characters read from a byte that begins one, and the character that is now
incomplete. The bounds on the second byte rule out longer forms of shorter
characters, surrogates, and what lies beyond the last character. -/
def start (b : UInt8) : List Char × Option Partial :=
  if b < 0x80 then ([Char.ofNat b.toNat], none)
  else if b < 0xC2 then ([replacement], none)
  else if b < 0xE0 then ([], some { code := b.toNat - 0xC0, missing := 1 })
  else if b = 0xE0 then ([], some { code := 0, missing := 2, low := 0xA0 })
  else if b = 0xED then ([], some { code := 0xD, missing := 2, high := 0x9F })
  else if b < 0xF0 then ([], some { code := b.toNat - 0xE0, missing := 2 })
  else if b = 0xF0 then ([], some { code := 0, missing := 3, low := 0x90 })
  else if b < 0xF4 then ([], some { code := b.toNat - 0xF0, missing := 3 })
  else if b = 0xF4 then ([], some { code := 4, missing := 3, high := 0x8F })
  else ([replacement], none)

/-- The characters read from the next byte, and the character that is then
incomplete. -/
def next (p : Partial) (b : UInt8) : List Char × Option Partial :=
  if p.low ≤ b ∧ b ≤ p.high then
    let code := p.code * 64 + (b.toNat - 0x80)
    if p.missing ≤ 1 then ([Char.ofNat code], none)
    else ([], some { code, missing := p.missing - 1 })
  else
    let (chars, p) := start b
    (replacement :: chars, p)

/-- The characters read from bytes, after the incomplete character. -/
def decodeFrom : Option Partial → List UInt8 → List Char
  | none, [] => []
  | some _, [] => [replacement]
  | none, b :: rest =>
      let (chars, p) := start b
      chars ++ decodeFrom p rest
  | some p, b :: rest =>
      let (chars, p) := next p b
      chars ++ decodeFrom p rest

/-- The text that bytes stand for, whatever they are. -/
def decodeLossy (bytes : List UInt8) : String := String.ofList (decodeFrom none bytes)

theorem decode?_encode (s : String) : decode? (encode s) = some s := by
  have hvalid : s.toUTF8.IsValidUTF8 := s.isValidUTF8
  have hbytes : (⟨(encode s).toArray⟩ : ByteArray) = s.toUTF8 := by simp [encode]
  rw [decode?, hbytes, String.fromUTF8?, dif_pos hvalid]
  rfl

end Conduit.Utf8
