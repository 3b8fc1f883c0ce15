import SqlComposer.Text.Basic

/-!
# Numerals

The decimal digits of Unicode 14 stand in blocks of ten, so a block is known by its zero. A numeral
may mix the digits of several scripts. The digit-like characters add superscripts, circled digits
and their kin, which have no place value. Numerals of more than 4300 digits are neither read nor
written, leading zeros included.
-/

namespace SqlComposer

namespace Text

/-- The code points of the decimal zeros; the nine digits follow each of them. -/
def decimalZeros : List Nat :=
  [0x30, 0x660, 0x6F0, 0x7C0, 0x966, 0x9E6, 0xA66, 0xAE6, 0xB66, 0xBE6, 0xC66, 0xCE6, 0xD66,
   0xDE6, 0xE50, 0xED0, 0xF20, 0x1040, 0x1090, 0x17E0, 0x1810, 0x1946, 0x19D0, 0x1A80, 0x1A90,
   0x1B50, 0x1BB0, 0x1C40, 0x1C50, 0xA620, 0xA8D0, 0xA900, 0xA9D0, 0xA9F0, 0xAA50, 0xABF0, 0xFF10,
   0x104A0, 0x10D30, 0x11066, 0x110F0, 0x11136, 0x111D0, 0x112F0, 0x11450, 0x114D0, 0x11650,
   0x116C0, 0x11730, 0x118E0, 0x11950, 0x11C50, 0x11D50, 0x11DA0, 0x16A60, 0x16AC0, 0x16B50,
   0x1D7CE, 0x1D7D8, 0x1D7E2, 0x1D7EC, 0x1D7F6, 0x1E140, 0x1E2F0, 0x1E950, 0x1FBF0]

/-- The value of a decimal digit of any script. -/
def digitValue? (c : Char) : Option Nat :=
  (decimalZeros.find? fun start => start ≤ c.toNat && c.toNat ≤ start + 9).map (c.toNat - ·)

/-- A decimal digit of any script. -/
def isDecimal (c : Char) : Bool :=
  (digitValue? c).isSome

/-- The ranges of digits that are no decimal digits. -/
def otherDigitRanges : List (Nat × Nat) :=
  [(0xB2, 0xB3), (0xB9, 0xB9), (0x1369, 0x1371), (0x19DA, 0x19DA), (0x2070, 0x2070),
   (0x2074, 0x2079), (0x2080, 0x2089), (0x2460, 0x2468), (0x2474, 0x247C), (0x2488, 0x2490),
   (0x24EA, 0x24EA), (0x24F5, 0x24FD), (0x24FF, 0x24FF), (0x2776, 0x277E), (0x2780, 0x2788),
   (0x278A, 0x2792), (0x10A40, 0x10A43), (0x10E60, 0x10E68), (0x11052, 0x1105A),
   (0x1F100, 0x1F10A)]

/-- A decimal digit, or another character that stands for a digit. -/
def isDigitLike (c : Char) : Bool :=
  isDecimal c || inRanges otherDigitRanges c.toNat

/-- The number that decimal digits denote, read from the left. -/
def digitsValue (digits : List Nat) : Nat :=
  digits.foldl (fun value digit => 10 * value + digit) 0

/-- The number that a text of decimal digits denotes. Other characters count as nothing. -/
def numeralValue (t : Text) : Nat :=
  digitsValue (t.filterMap digitValue?)

end Text

/-! ## The longest numerals -/

/-- The most digits that a numeral may have. -/
def digitLimit : Nat := 4300

/-- A numeral that is too long. -/
inductive NumeralError
  /-- A numeral of so many digits is not read. -/
  | unreadable (digits : Nat)
  /-- The numeral of a number would be too long. -/
  | unwritable
  deriving DecidableEq, Repr

/-- The number that decimal digits of any script denote. -/
def readNumeral (digits : Text) : Except NumeralError Nat :=
  if digits.length ≤ digitLimit then .ok (Text.numeralValue digits)
  else .error (.unreadable digits.length)

/-- The numeral of a number. -/
def writeNumeral (n : Int) : Except NumeralError Text :=
  if n.natAbs < Nat.pow 10 digitLimit then .ok (Text.ofInt n) else .error .unwritable

/-- A numeral that is too long, in words. -/
def NumeralError.message (e : NumeralError) : Text :=
  let limit := "Exceeds the limit (4300 digits) for integer string conversion".toList
  let advice := "; use sys.set_int_max_str_digits() to increase the limit".toList
  match e with
  | .unreadable digits =>
    limit ++ ": value has ".toList ++ Text.ofNat digits ++ " digits".toList ++ advice
  | .unwritable => limit ++ advice

end SqlComposer
