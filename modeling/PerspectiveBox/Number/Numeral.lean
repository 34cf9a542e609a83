namespace PerspectiveBox

-- A numeral is a signed whole number of units of a power of ten, or one of the two spellings of
-- what is not a finite number.
inductive Numeral where
  | decimal (negative : Bool) (units : Nat) (exponent : Int)
  | infinite (negative : Bool)
  | notANumber
  deriving DecidableEq, Repr

-- A number system whose values are written and read as numerals.
class Numeric (K : Type) where
  toNumeral : K → Numeral
  ofNumeral : Numeral → K

namespace Numeral

-- The value of a run of decimal digits.
def digitsValue (digits : List Char) : Nat :=
  digits.foldl (fun value digit => 10 * value + (digit.toNat - '0'.toNat)) 0

def digitsOf (n : Nat) : List Char := Nat.toDigits 10 n

-- Digits with the point `places` from the right; a number below one gets a leading zero.
def withPoint (digits : List Char) (places : Nat) : List Char :=
  if places < digits.length then
    digits.take (digits.length - places) ++ '.' :: digits.drop (digits.length - places)
  else
    '0' :: '.' :: List.replicate (places - digits.length) '0' ++ digits

def signed (negative : Bool) (text : List Char) : List Char :=
  if negative then '-' :: text else text

-- No exponent is ever written: the places of a large or small number are filled with zeros.
def chars : Numeral → List Char
  | decimal negative units (.ofNat zeros) =>
    signed negative (digitsOf units ++ List.replicate (if units = 0 then 0 else zeros) '0')
  | decimal negative units (.negSucc n) => signed negative (withPoint (digitsOf units) (n + 1))
  | infinite negative => signed negative ['i', 'n', 'f']
  | notANumber => ['N', 'a', 'N']

def text (n : Numeral) : String := String.ofList n.chars

-- Splits off the digits in front.
def spanDigits (s : List Char) : List Char × List Char :=
  (s.takeWhile Char.isDigit, s.dropWhile Char.isDigit)

-- A sign in front, if there is one; true for a minus.
def takeSign : List Char → Bool × List Char
  | '-' :: rest => (true, rest)
  | '+' :: rest => (false, rest)
  | s => (false, s)

-- The part from the exponent mark on: nothing at all, or a mark, an optional sign and digits.
def exponent? : List Char → Option Int
  | [] => some 0
  | mark :: rest =>
    if mark = 'e' ∨ mark = 'E' then
      let (negative, digits) := takeSign rest
      if digits.isEmpty ∨ ¬ digits.all Char.isDigit then none
      else if negative then some (-(digitsValue digits : Int)) else some (digitsValue digits)
    else none

-- An unsigned numeral: digits on at least one side of an optional point, then an exponent.
def decimal? (negative : Bool) (s : List Char) : Option Numeral :=
  let (whole, rest) := spanDigits s
  let (fraction, rest) := match rest with
    | '.' :: rest => spanDigits rest
    | rest => ([], rest)
  if whole.isEmpty ∧ fraction.isEmpty then none
  else (exponent? rest).map fun e =>
    decimal negative (digitsValue (whole ++ fraction)) (e - fraction.length)

-- Reads a whole text. The words for what is not finite are read in any case of letters.
def ofChars? (s : List Char) : Option Numeral :=
  let (negative, body) := takeSign s
  let word := String.ofList (body.map Char.toLower)
  if word = "inf" ∨ word = "infinity" then some (infinite negative)
  else if word = "nan" then some notANumber
  else decimal? negative body

def ofText? (s : String) : Option Numeral := ofChars? s.toList

end Numeral

end PerspectiveBox
