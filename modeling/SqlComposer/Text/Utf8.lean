import SqlComposer.Text.Basic

/-!
# UTF-8

Writing and strict reading of UTF-8. Reading goes octet by octet and refuses at the first octet
that no character can continue with; the fault says which octets are bad and why.
-/

namespace SqlComposer.Utf8

/-- Why octets are no UTF-8. -/
inductive Reason
  /-- No character begins with this octet. -/
  | badStart
  /-- The octets end inside a character. -/
  | cutShort
  /-- The next octet cannot continue the character. -/
  | badContinuation
  deriving DecidableEq, Repr

/-- The octets that cannot be read: where they begin and end, the first of them, and why. -/
structure Fault where
  first : Nat
  last : Nat
  lead : UInt8
  reason : Reason
  deriving DecidableEq, Repr

/-- A character that is not finished: where it began, its first octet, the bits read so far, how
many octets are missing, and the bounds of the next one. -/
structure Pending where
  first : Nat
  lead : UInt8
  bits : Nat
  missing : Nat
  low : Nat
  high : Nat

/-- What the first octet of a longer character begins, if it can begin one. -/
def begin? (pos : Nat) (b : UInt8) : Option Pending :=
  let n := b.toNat
  if 0xC2 ≤ n ∧ n ≤ 0xDF then some ⟨pos, b, n - 0xC0, 1, 0x80, 0xBF⟩
  else if n = 0xE0 then some ⟨pos, b, 0, 2, 0xA0, 0xBF⟩
  else if n = 0xED then some ⟨pos, b, 0xD, 2, 0x80, 0x9F⟩
  else if 0xE1 ≤ n ∧ n ≤ 0xEF then some ⟨pos, b, n - 0xE0, 2, 0x80, 0xBF⟩
  else if n = 0xF0 then some ⟨pos, b, 0, 3, 0x90, 0xBF⟩
  else if 0xF1 ≤ n ∧ n ≤ 0xF3 then some ⟨pos, b, n - 0xF0, 3, 0x80, 0xBF⟩
  else if n = 0xF4 then some ⟨pos, b, 4, 3, 0x80, 0x8F⟩
  else none

/-- Reads octets from a position on, with or without an unfinished character. -/
def read : Nat → Option Pending → List UInt8 → Except Fault Text
  | _, none, [] => .ok []
  | pos, some p, [] => .error ⟨p.first, pos - 1, p.lead, .cutShort⟩
  | pos, none, b :: rest =>
    if b.toNat < 0x80 then (Char.ofNat b.toNat :: ·) <$> read (pos + 1) none rest
    else
      match begin? pos b with
      | none => .error ⟨pos, pos, b, .badStart⟩
      | some p => read (pos + 1) (some p) rest
  | pos, some p, b :: rest =>
    if b.toNat < p.low ∨ p.high < b.toNat then
      .error ⟨p.first, pos - 1, p.lead, .badContinuation⟩
    else
      let bits := 64 * p.bits + (b.toNat - 0x80)
      if p.missing ≤ 1 then (Char.ofNat bits :: ·) <$> read (pos + 1) none rest
      else read (pos + 1) (some ⟨p.first, p.lead, bits, p.missing - 1, 0x80, 0xBF⟩) rest

/-- The text that octets encode. -/
def decode (octets : List UInt8) : Except Fault Text :=
  read 0 none octets

/-- The octets of a character. -/
def encodeChar (c : Char) : List UInt8 :=
  let n := c.toNat
  if n < 0x80 then [.ofNat n]
  else if n < 0x800 then [.ofNat (0xC0 + n / 64), .ofNat (0x80 + n % 64)]
  else if n < 0x10000 then
    [.ofNat (0xE0 + n / 4096), .ofNat (0x80 + n / 64 % 64), .ofNat (0x80 + n % 64)]
  else
    [.ofNat (0xF0 + n / 262144), .ofNat (0x80 + n / 4096 % 64), .ofNat (0x80 + n / 64 % 64),
      .ofNat (0x80 + n % 64)]

/-- The octets of a text. -/
def encode (t : Text) : List UInt8 :=
  t.flatMap encodeChar

/-- A reason in words. -/
def Reason.message : Reason → Text
  | .badStart => "invalid start byte".toList
  | .cutShort => "unexpected end of data".toList
  | .badContinuation => "invalid continuation byte".toList

/-- A fault in words: a single bad octet is shown, of several only the positions. -/
def Fault.message (f : Fault) : Text :=
  "'utf-8' codec can't decode ".toList ++
    (if f.first = f.last then
      "byte 0x".toList ++ Text.ofHex 2 f.lead.toNat ++ " in position ".toList ++
        Text.ofNat f.first
    else
      "bytes in position ".toList ++ Text.ofNat f.first ++ ['-'] ++ Text.ofNat f.last) ++
    ": ".toList ++ f.reason.message

end SqlComposer.Utf8
