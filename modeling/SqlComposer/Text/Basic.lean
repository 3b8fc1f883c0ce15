/-!
# Text

A text is the list of its characters, so that every operation on it is a list operation and
positions count characters. A character is a Unicode scalar value: the lone surrogates, which some
systems allow among their code points, are left out. This file holds the operations that have no
counterpart on lists, the search in tables of code points, and the blanks, which trimming takes off
both ends.
-/

namespace SqlComposer

/-- A text is the list of its characters, which are Unicode scalar values. -/
abbrev Text := List Char

namespace Text

/-- The pieces of a text between the occurrences of a separator; without one there is one piece. -/
def splitOn (sep : Char) : Text → List Text
  | [] => [[]]
  | c :: rest =>
    if c = sep then [] :: splitOn sep rest
    else
      match splitOn sep rest with
      | [] => [[c]]
      | piece :: pieces => (c :: piece) :: pieces

/-- The lines of a text. Only the line feed ends a line. -/
def lines (t : Text) : List Text :=
  t.splitOn '\n'

/-- Whether a text occurs in another one. -/
def occursIn (needle : Text) : Text → Bool
  | [] => needle.isEmpty
  | c :: rest => needle.isPrefixOf (c :: rest) || occursIn needle rest

/-- Whether a text stands no later than another one in the order of code points. -/
def notAfter : Text → Text → Bool
  | [], _ => true
  | _ :: _, [] => false
  | a :: s, b :: t => a.toNat < b.toNat || (a == b && notAfter s t)

/-- Both line ends with a carriage return become a line feed. -/
def withLineFeeds : Text → Text
  | [] => []
  | '\r' :: '\n' :: rest => '\n' :: withLineFeeds rest
  | '\r' :: rest => '\n' :: withLineFeeds rest
  | c :: rest => c :: withLineFeeds rest

/-- The decimal numeral of a natural number, without leading zeros. -/
def ofNat (n : Nat) : Text :=
  Nat.toDigits 10 n

/-- The decimal numeral of an integer, with a minus sign for a negative one. -/
def ofInt : Int → Text
  | .ofNat n => ofNat n
  | .negSucc n => '-' :: ofNat (n + 1)

/-- A number in lower-case hexadecimal digits, filled with zeros up to a width. -/
def ofHex (width n : Nat) : Text :=
  let digits := Nat.toDigits 16 n
  List.replicate (width - digits.length) '0' ++ digits

/-- Texts joined by a comma and a blank. -/
def commaList (parts : List Text) : Text :=
  [',', ' '].intercalate parts

/-- In words, that a call of a function has two values for an argument. -/
def repeatedArgument (function argument : Text) : Text :=
  function ++ "() got multiple values for argument '".toList ++ argument ++ ['\'']

/-! ## Tables of code points -/

/-- Whether a code point lies in one of the ranges, which are inclusive and in rising order. -/
def inRanges : List (Nat × Nat) → Nat → Bool
  | [], _ => false
  | (low, high) :: ranges, n => if n < low then false else n ≤ high || inRanges ranges n

/-! ## Blanks -/

/-- White space: the Unicode property and the information separators U+001C to U+001F. -/
def isBlank (c : Char) : Bool :=
  let n := c.toNat
  (0x09 ≤ n && n ≤ 0x0D) || (0x1C ≤ n && n ≤ 0x20) || n == 0x85 || n == 0xA0 || n == 0x1680 ||
    (0x2000 ≤ n && n ≤ 0x200A) || n == 0x2028 || n == 0x2029 || n == 0x202F || n == 0x205F ||
    n == 0x3000

/-- A text without its leading blanks. -/
def trimStart (t : Text) : Text :=
  t.dropWhile isBlank

/-- A text without its trailing blanks. -/
def trimEnd : Text → Text
  | [] => []
  | c :: rest =>
    match trimEnd rest with
    | [] => if isBlank c then [] else [c]
    | d :: kept => c :: d :: kept

/-- A text without the blanks at both ends. -/
def trim (t : Text) : Text :=
  trimEnd (trimStart t)

end Text

end SqlComposer
