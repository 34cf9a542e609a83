import PerspectiveBox.Number.Double
import PerspectiveBox.Text.Blank
import PerspectiveBox.Toml.Node

namespace PerspectiveBox.Toml

-- The characters of such words.
def isWordChar (c : Char) : Bool :=
  c.isAlphanum || c = '_' || c = '+' || c = '-' || c = '.' || c = ':'

namespace Literal

-- Digits, with single underscores between them left out.
def digits? (isDigit : Char → Bool) (s : List Char) : Option (List Char) :=
  let groups := Text.splitOn '_' s
  if groups.all fun g => !g.isEmpty && g.all isDigit then some groups.flatten else none

def hasLeadingZero : List Char → Bool
  | '0' :: _ :: _ => true
  | _ => false

-- The whole part of a decimal number.
def whole? (s : List Char) : Option (List Char) :=
  if hasLeadingZero s then none else digits? Char.isDigit s

def isBinary (c : Char) : Bool := c = '0' || c = '1'

def isOctal (c : Char) : Bool := '0' ≤ c && c ≤ '7'

def isHex (c : Char) : Bool :=
  c.isDigit || ('a' ≤ c && c ≤ 'f') || ('A' ≤ c && c ≤ 'F')

def digitValue (c : Char) : Nat :=
  if c.isDigit then c.toNat - '0'.toNat else c.toLower.toNat - 'a'.toNat + 10

def based (base : Nat) (digits : List Char) : Int :=
  digits.foldl (fun n c => base * n + digitValue c) 0

-- An integer has a sign only in decimal, and sixty-four bits at most.
def integer? (s : List Char) : Option Int := do
  let n ← match s with
    | '0' :: 'x' :: rest => (digits? isHex rest).map (based 16)
    | '0' :: 'o' :: rest => (digits? isOctal rest).map (based 8)
    | '0' :: 'b' :: rest => (digits? isBinary rest).map (based 2)
    | s =>
      let (negative, body) := Numeral.takeSign s
      (whole? body).map fun digits =>
        let n : Int := Numeral.digitsValue digits
        if negative then -n else n
  if (Int64.ofInt n).toInt = n then some n else none

def exponent? (s : List Char) : Option Int :=
  let (negative, body) := Numeral.takeSign s
  (digits? Char.isDigit body).map fun digits =>
    let n : Int := Numeral.digitsValue digits
    if negative then -n else n

-- The mark of an exponent.
def isMark (c : Char) : Bool := c = 'e' || c = 'E'

-- A number with a fraction, an exponent, or both. One that is too large for a double is refused.
def fractional? (s : List Char) : Option Numeral := do
  let (negative, body) := Numeral.takeSign s
  let mantissa := body.takeWhile fun c => !isMark c
  let afterMantissa := body.dropWhile fun c => !isMark c
  let exponent ← if afterMantissa.isEmpty then some 0 else exponent? afterMantissa.tail
  let whole ← whole? (mantissa.takeWhile (· ≠ '.'))
  let afterWhole := mantissa.dropWhile (· ≠ '.')
  let fraction ← if afterWhole.isEmpty then some [] else digits? Char.isDigit afterWhole.tail
  guard !(afterWhole.isEmpty && afterMantissa.isEmpty)
  let n := Numeral.decimal negative (Numeral.digitsValue (whole ++ fraction))
    (exponent - fraction.length)
  guard (negative || (Double.ofNumeral n).isFinite)
  return n

def float? (s : List Char) : Option Numeral :=
  let (negative, body) := Numeral.takeSign s
  if body = ['i', 'n', 'f'] then some (.infinite negative)
  else if body = ['n', 'a', 'n'] then some .notANumber
  else fractional? s

-- A number of exactly this many digits.
def fixed? (size : Nat) (s : List Char) : Option Nat :=
  if s.length = size ∧ s.all Char.isDigit then some (Numeral.digitsValue s) else none

def daysIn (year month : Nat) : Nat :=
  let isLeap := year % 4 = 0 ∧ (year % 100 ≠ 0 ∨ year % 400 = 0)
  if month = 2 then if isLeap then 29 else 28
  else if month = 4 ∨ month = 6 ∨ month = 9 ∨ month = 11 then 30
  else 31

-- A year of four digits, a month and a day of two.
def isDate (s : List Char) : Bool :=
  match Text.splitOn '-' s with
  | [year, month, day] =>
    match fixed? 4 year, fixed? 2 month, fixed? 2 day with
    | some year, some month, some day =>
      1 ≤ month && month ≤ 12 && 1 ≤ day && day ≤ daysIn year month
    | _, _, _ => false
  | _ => false

def isClock (s : List Char) : Bool :=
  match (Text.splitOn ':' s).mapM (fixed? 2) with
  | some [hour, minute] => hour < 24 && minute < 60
  | some [hour, minute, second] => hour < 24 && minute < 60 && second ≤ 60
  | _ => false

-- A time of day to the second or below.
def isTime (s : List Char) : Bool :=
  let clock := s.takeWhile (· ≠ '.')
  let fraction := s.dropWhile (· ≠ '.')
  clock.length = 8 && isClock clock &&
    (fraction.isEmpty || (!fraction.tail.isEmpty && fraction.tail.all Char.isDigit))

-- A time with its offset from universal time, if it has one.
def isOffsetTime (s : List Char) : Bool :=
  let time := s.takeWhile fun c => c.isDigit || c = ':' || c = '.'
  isTime time && match s.drop time.length with
    | [] => true
    | [c] => c = 'Z' || c = 'z'
    | sign :: offset => (sign = '+' || sign = '-') && offset.length = 5 && isClock offset

-- A date, a time of day, or both. Between a date and its time stands a letter or a space.
def isMoment (s : List Char) : Bool :=
  isTime s || isDate s || (isDate (s.take 10) && match s.drop 10 with
    | mark :: time => (mark = 'T' || mark = 't' || mark = ' ') && isOffsetTime time
    | [] => false)

end Literal

open Literal in
def Node.ofWord? (s : List Char) : Option Node :=
  if s = ['t', 'r', 'u', 'e'] then some (.boolean true)
  else if s = ['f', 'a', 'l', 's', 'e'] then some (.boolean false)
  else if isMoment s then some .moment
  else (float? s).map .float <|> (integer? s).map .integer

end PerspectiveBox.Toml
