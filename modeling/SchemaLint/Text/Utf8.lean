/-! Strict UTF-8. Bytes are read once; a fault names the first byte of the
sequence that cannot be completed. -/
namespace SchemaLint.Text.Utf8

inductive Reason where
  | badStart
  | badContinuation
  | truncated
  deriving DecidableEq, Repr

def Reason.message : Reason → String
  | .badStart => "invalid start byte"
  | .badContinuation => "invalid continuation byte"
  | .truncated => "unexpected end of data"

structure Fault where
  reason : Reason
  offset : Nat
  deriving DecidableEq, Repr

/-- A sequence begun but not completed: where it began, how many bytes it owes,
the bounds of the next one, and the bits read so far. -/
structure Pending where
  start : Nat
  owed : Nat
  low : UInt8
  high : UInt8
  bits : Nat
  deriving DecidableEq, Repr

/-- The sequence that a first byte at `start` begins. The bounds of its second
byte rule out overlong forms, surrogates and values past the last code point. -/
def begin? (start : Nat) (byte : UInt8) : Option Pending :=
  if byte < 0xC2 then none
  else if byte < 0xE0 then some ⟨start, 1, 0x80, 0xBF, byte.toNat - 0xC0⟩
  else if byte = 0xE0 then some ⟨start, 2, 0xA0, 0xBF, 0⟩
  else if byte = 0xED then some ⟨start, 2, 0x80, 0x9F, 0xD⟩
  else if byte < 0xF0 then some ⟨start, 2, 0x80, 0xBF, byte.toNat - 0xE0⟩
  else if byte = 0xF0 then some ⟨start, 3, 0x90, 0xBF, 0⟩
  else if byte < 0xF4 then some ⟨start, 3, 0x80, 0xBF, byte.toNat - 0xF0⟩
  else if byte = 0xF4 then some ⟨start, 3, 0x80, 0x8F, 4⟩
  else none

/-- Reads the bytes from `offset` on, inside the pending sequence if there is
one. -/
def decodeFrom (offset : Nat) : Option Pending → List UInt8 → Except Fault (List Char)
  | none, [] => .ok []
  | some pending, [] => .error ⟨.truncated, pending.start⟩
  | none, byte :: rest =>
    if byte < 0x80 then (decodeFrom (offset + 1) none rest).map (Char.ofNat byte.toNat :: ·)
    else
      match begin? offset byte with
      | some pending => decodeFrom (offset + 1) (some pending) rest
      | none => .error ⟨.badStart, offset⟩
  | some pending, byte :: rest =>
    if byte < pending.low || pending.high < byte then .error ⟨.badContinuation, pending.start⟩
    else
      let bits := pending.bits * 0x40 + (byte.toNat - 0x80)
      if pending.owed ≤ 1 then (decodeFrom (offset + 1) none rest).map (Char.ofNat bits :: ·)
      else decodeFrom (offset + 1) (some ⟨pending.start, pending.owed - 1, 0x80, 0xBF, bits⟩) rest

def decode (bytes : List UInt8) : Except Fault (List Char) := decodeFrom 0 none bytes

end SchemaLint.Text.Utf8
