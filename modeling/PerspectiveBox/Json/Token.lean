import PerspectiveBox.Number.Numeral

namespace PerspectiveBox.Json

inductive Token where
  | openArray
  | closeArray
  | openObject
  | closeObject
  | comma
  | colon
  | null
  | bool (b : Bool)
  | integer (n : Int)
  | number (n : Numeral)
  | string (s : Option String)
  deriving DecidableEq

namespace Token

-- The digits after a point, of which there is at least one. No point, no digits.
def fraction? : List Char → Option (List Char × List Char)
  | '.' :: rest =>
    let digits := rest.takeWhile Char.isDigit
    if digits.isEmpty then none else some (digits, rest.dropWhile Char.isDigit)
  | rest => some ([], rest)

-- The characters of an exponent, with its mark. No mark, no exponent.
def exponent? : List Char → Option (List Char × List Char)
  | [] => some ([], [])
  | mark :: rest =>
    if mark = 'e' ∨ mark = 'E' then
      let (sign, rest) := match rest with
        | '-' :: rest => (['-'], rest)
        | '+' :: rest => (['+'], rest)
        | rest => ([], rest)
      let digits := rest.takeWhile Char.isDigit
      if digits.isEmpty then none
      else some (mark :: sign ++ digits, rest.dropWhile Char.isDigit)
    else some ([], mark :: rest)

-- The digits before a point, of which there is at least one. Only a zero may begin with a zero.
def whole? : List Char → Option (List Char × List Char)
  | '0' :: rest => some (['0'], rest)
  | s =>
    let digits := s.takeWhile Char.isDigit
    if digits.isEmpty then none else some (digits, s.dropWhile Char.isDigit)

-- What stands after the sign of a number literal. A zero with a sign is no integer, since integers
-- have no such zero.
def unsigned? (negative : Bool) (s : List Char) : Option (Token × List Char) := do
  let (whole, rest) ← whole? s
  let (fraction, afterFraction) ← fraction? rest
  let (exponent, afterExponent) ← exponent? afterFraction
  let units := Numeral.digitsValue (whole ++ fraction)
  if fraction.isEmpty ∧ exponent.isEmpty ∧ ¬(negative ∧ units = 0) then
    return (integer (if negative then -units else units), afterExponent)
  else
    let e ← Numeral.exponent? exponent
    return (number (.decimal negative units (e - fraction.length)), afterExponent)

def number? : List Char → Option (Token × List Char)
  | '-' :: rest => unsigned? true rest
  | s => unsigned? false s

-- A piece of a string literal: a character, or a sixteen-bit unit written by its number.
inductive Piece where
  | char (c : Char)
  | unit (n : Nat)

def hexDigit? (c : Char) : Option Nat :=
  if '0' ≤ c ∧ c ≤ '9' then some (c.toNat - '0'.toNat)
  else if 'a' ≤ c ∧ c ≤ 'f' then some (c.toNat - 'a'.toNat + 10)
  else if 'A' ≤ c ∧ c ≤ 'F' then some (c.toNat - 'A'.toNat + 10)
  else none

def hex? (digits : List Char) : Option Nat :=
  (digits.mapM hexDigit?).map fun values => values.foldl (fun n d => 16 * n + d) 0

def escaped? : Char → Option Char
  | '"' => some '"'
  | '\\' => some '\\'
  | '/' => some '/'
  | 'b' => some '\x08'
  | 'f' => some '\x0c'
  | 'n' => some '\n'
  | 'r' => some '\r'
  | 't' => some '\t'
  | _ => none

-- The pieces up to the closing quote, and what follows it.
def pieces? : List Char → Option (List Piece × List Char)
  | [] => none
  | '"' :: rest => some ([], rest)
  | '\\' :: 'u' :: a :: b :: c :: d :: rest => do
    let n ← hex? [a, b, c, d]
    let (pieces, rest) ← pieces? rest
    return (.unit n :: pieces, rest)
  | '\\' :: c :: rest => do
    let c ← escaped? c
    let (pieces, rest) ← pieces? rest
    return (.char c :: pieces, rest)
  | c :: rest =>
    if c.toNat < 0x20 ∨ c = '\\' then none
    else (pieces? rest).map fun (pieces, rest) => (.char c :: pieces, rest)

def isHighSurrogate (n : Nat) : Bool := 0xD800 ≤ n && n < 0xDC00

def isLowSurrogate (n : Nat) : Bool := 0xDC00 ≤ n && n < 0xE000

-- The text that the pieces spell. A high surrogate has to be followed by a low one, and the two
-- make one character.
def spelled? : List Piece → Option (List Char)
  | [] => some []
  | .char c :: rest => (spelled? rest).map (c :: ·)
  | .unit high :: .unit low :: rest =>
    if isHighSurrogate high then
      if isLowSurrogate low then
        (spelled? rest).map (Char.ofNat (0x10000 + (high - 0xD800) * 0x400 + (low - 0xDC00)) :: ·)
      else none
    else if isLowSurrogate high then none
    else (spelled? (.unit low :: rest)).map (Char.ofNat high :: ·)
  | .unit n :: rest =>
    if isHighSurrogate n ∨ isLowSurrogate n then none
    else (spelled? rest).map (Char.ofNat n :: ·)

-- The part of a string literal after its opening quote.
def string? (s : List Char) : Option (Token × List Char) :=
  (pieces? s).map fun (pieces, rest) => (string ((spelled? pieces).map String.ofList), rest)

def isSpace (c : Char) : Bool := c = ' ' || c = '\t' || c = '\n' || c = '\r'

-- The token at the front of a text that does not begin with white space.
def next? : List Char → Option (Token × List Char)
  | '[' :: rest => some (openArray, rest)
  | ']' :: rest => some (closeArray, rest)
  | '\x7b' :: rest => some (openObject, rest)
  | '\x7d' :: rest => some (closeObject, rest)
  | ',' :: rest => some (comma, rest)
  | ':' :: rest => some (colon, rest)
  | 'n' :: 'u' :: 'l' :: 'l' :: rest => some (null, rest)
  | 't' :: 'r' :: 'u' :: 'e' :: rest => some (bool true, rest)
  | 'f' :: 'a' :: 'l' :: 's' :: 'e' :: rest => some (bool false, rest)
  | '"' :: rest => string? rest
  | s => number? s

-- Every step takes at least one character, so as many steps as characters are enough.
def scan? : Nat → List Char → Option (List Token)
  | 0, s => if (s.dropWhile isSpace).isEmpty then some [] else none
  | steps + 1, s =>
    let s := s.dropWhile isSpace
    if s.isEmpty then some []
    else do
      let (token, rest) ← next? s
      let tokens ← scan? steps rest
      return token :: tokens

def ofChars? (s : List Char) : Option (List Token) := scan? s.length s

end Token

end PerspectiveBox.Json
