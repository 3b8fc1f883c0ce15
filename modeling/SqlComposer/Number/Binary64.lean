import SqlComposer.Text.Basic

/-!
# Numbers behind numerals

A decimal numeral denotes a rational number. A numeral of a binary floating point number denotes
the nearest number with 53 significant bits, ties going to the even one.
-/

namespace SqlComposer

/-- What a numeral denotes. -/
inductive Magnitude
  | undefined
  | infinite (negative : Bool)
  | finite (value : Rat)
  deriving DecidableEq

namespace Magnitude

/-- Whether one magnitude is below another. An undefined one is below none, and none is below it. -/
def below : Magnitude → Magnitude → Bool
  | .finite a, .finite b => a < b
  | .infinite true, .finite _ | .infinite true, .infinite false => true
  | .finite _, .infinite false => true
  | _, _ => false

/-- Whether two magnitudes are the same number. An undefined one equals none. -/
def same : Magnitude → Magnitude → Bool
  | .undefined, _ => false
  | a, b => a == b

end Magnitude

/-- The decimal numeral of a rational number: sign, digits, and the power of ten they count. -/
structure Numeral where
  negative : Bool
  digits : Nat
  exponent : Int

namespace Numeral

/-- Reads an optional sign. -/
def splitSign : Text → Bool × Text
  | '-' :: rest => (true, rest)
  | '+' :: rest => (false, rest)
  | t => (false, t)

/-- Reads a natural number of ASCII digits. -/
def digits? (t : Text) : Option Nat :=
  if t.all Char.isDigit then
    some (t.foldl (fun value c => 10 * value + (c.toNat - '0'.toNat)) 0)
  else none

/-- Reads a power of ten with its mark, which may be missing. -/
def power? : Text → Option Int
  | [] => some 0
  | _ :: t =>
    let (negative, digits) := splitSign t
    (digits? digits).map fun n => if negative then -n else n

/-- Reads a numeral in positional or exponential form. -/
def ofText? (t : Text) : Option Numeral :=
  let (negative, body) := splitSign t
  let isMark := fun c : Char => c == 'e' || c == 'E'
  let mantissa := body.takeWhile (!isMark ·)
  let whole := mantissa.takeWhile (· != '.')
  let fraction := (mantissa.dropWhile (· != '.')).drop 1
  if whole.isEmpty && fraction.isEmpty then none
  else do
    let digits ← digits? (whole ++ fraction)
    let power ← power? (body.dropWhile (!isMark ·))
    return ⟨negative, digits, power - fraction.length⟩

/-- The numerator of the absolute value. -/
def numerator (n : Numeral) : Nat :=
  n.digits * Nat.pow 10 n.exponent.toNat

/-- The denominator of the absolute value. -/
def denominator (n : Numeral) : Nat :=
  Nat.pow 10 (-n.exponent).toNat

/-- A rational number with the sign of the numeral. -/
def withSign (n : Numeral) (value : Rat) : Rat :=
  if n.negative then -value else value

/-- The number that a numeral denotes exactly. -/
def value (n : Numeral) : Rat :=
  n.withSign (mkRat n.numerator n.denominator)

end Numeral

/-- The nearest integer to a quotient, ties going to the even one. -/
def roundQuotient (n d : Nat) : Nat :=
  let low := n / d
  let twice := 2 * (n % d)
  if twice < d ∨ (twice = d ∧ low % 2 = 0) then low else low + 1

/-- Two to an integer power. -/
def twoPower (e : Int) : Rat :=
  if 0 ≤ e then Nat.pow 2 e.toNat else mkRat 1 (Nat.pow 2 (-e).toNat)

/-- The floating point number nearest to a quotient: at most 53 bits, and no unit below
two to the power -1074. -/
def nearestBinary64 (n d : Nat) : Rat :=
  if n = 0 then 0
  else
    let scale := fun e : Int => (n * Nat.pow 2 (-e).toNat, d * Nat.pow 2 e.toNat)
    let guess : Int := (Nat.log2 n : Int) - Nat.log2 d - 52
    let (top, bottom) := scale guess
    let unit := max (if top < bottom * Nat.pow 2 52 then guess - 1 else guess) (-1074)
    let (top, bottom) := scale unit
    (roundQuotient top bottom : Nat) * twoPower unit

/-- What the numeral of a floating point number denotes. -/
def Magnitude.ofBinary64 (t : Text) : Magnitude :=
  if t == "inf".toList then .infinite false
  else if t == "-inf".toList then .infinite true
  else
    match Numeral.ofText? t with
    | some n => .finite (n.withSign (nearestBinary64 n.numerator n.denominator))
    | none => .undefined

/-- What a decimal numeral denotes. -/
def Magnitude.ofDecimal (t : Text) : Magnitude :=
  match t.map Char.toLower with
  | 'i' :: 'n' :: 'f' :: _ => .infinite false
  | '-' :: 'i' :: 'n' :: 'f' :: _ => .infinite true
  | _ =>
    match Numeral.ofText? t with
    | some n => .finite n.value
    | none => .undefined

end SqlComposer
