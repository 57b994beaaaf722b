import Propositional.Text.Quoted

/-! Reading UTF-8. A character takes one byte below 0x80, or a lead byte and one to three further
bytes; the range of the second byte excludes overlong forms, surrogates and numbers above U+10FFFF.
The first byte that fits nowhere is at fault together with the bytes that it left unfinished. -/
namespace Propositional.Utf8

inductive Fault where
  | invalidStart
  | invalidContinuation
  | unexpectedEnd
deriving DecidableEq

/-- The bytes that could not be read, by the first and the last position, and the first of them. -/
structure Error where
  fault : Fault
  first : Nat
  last : Nat
  byte : UInt8
deriving DecidableEq

def Fault.reason : Fault → Text
  | invalidStart => "invalid start byte".toList
  | invalidContinuation => "invalid continuation byte".toList
  | unexpectedEnd => "unexpected end of data".toList

def Error.message (e : Error) : Text :=
  let place :=
    if e.first = e.last then
      " byte 0x".toList ++ Text.hexPadded 2 e.byte.toNat ++ " in position ".toList ++
        Text.ofNat e.first
    else " bytes in position ".toList ++ Text.ofNat e.first ++ '-' :: Text.ofNat e.last
  "\x27utf-8\x27 codec can\x27t decode".toList ++ place ++ ':' :: ' ' :: e.fault.reason

/-- A character begun: its lead byte and where that stands, the number read so far, how many bytes
are missing, and the range of the next one. -/
structure Pending where
  lead : UInt8
  start : Nat
  code : Nat
  missing : Nat
  low : UInt8
  high : UInt8

/-- What a lead byte at a position begins. -/
def begin? (b : UInt8) (start : Nat) : Option Pending :=
  let n := b.toNat
  if 0xC2 ≤ n ∧ n ≤ 0xDF then some ⟨b, start, n - 0xC0, 1, 0x80, 0xBF⟩
  else if n = 0xE0 then some ⟨b, start, 0, 2, 0xA0, 0xBF⟩
  else if n = 0xED then some ⟨b, start, 0xD, 2, 0x80, 0x9F⟩
  else if 0xE1 ≤ n ∧ n ≤ 0xEF then some ⟨b, start, n - 0xE0, 2, 0x80, 0xBF⟩
  else if n = 0xF0 then some ⟨b, start, 0, 3, 0x90, 0xBF⟩
  else if 0xF1 ≤ n ∧ n ≤ 0xF3 then some ⟨b, start, n - 0xF0, 3, 0x80, 0xBF⟩
  else if n = 0xF4 then some ⟨b, start, 4, 3, 0x80, 0x8F⟩
  else none

/-- Reads bytes from a position on, with the character that is begun, if any. -/
def decodeFrom (position : Nat) (pending : Option Pending) : List UInt8 → Except Error Text
  | [] =>
    match pending with
    | none => .ok []
    | some p => .error ⟨.unexpectedEnd, p.start, position - 1, p.lead⟩
  | b :: rest =>
    match pending with
    | none =>
      if b < 0x80 then (Char.ofNat b.toNat :: ·) <$> decodeFrom (position + 1) none rest
      else match begin? b position with
        | some p => decodeFrom (position + 1) (some p) rest
        | none => .error ⟨.invalidStart, position, position, b⟩
    | some p =>
      if p.low ≤ b ∧ b ≤ p.high then
        let code := p.code * 64 + (b.toNat - 0x80)
        if p.missing ≤ 1 then (Char.ofNat code :: ·) <$> decodeFrom (position + 1) none rest
        else
          let p := { p with code := code, missing := p.missing - 1, low := 0x80, high := 0xBF }
          decodeFrom (position + 1) (some p) rest
      else .error ⟨.invalidContinuation, p.start, position - 1, p.lead⟩

/-- The text that bytes encode. -/
def decode (bytes : List UInt8) : Except Error Text := decodeFrom 0 none bytes

/-- The bytes of a text. -/
def encode (t : Text) : List UInt8 := t.flatMap String.utf8EncodeChar

end Propositional.Utf8
