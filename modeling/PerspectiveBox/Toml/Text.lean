namespace PerspectiveBox.Toml

def isBlank (c : Char) : Bool := c = ' ' || c = '\t'

def skipBlanks (s : List Char) : List Char := s.dropWhile isBlank

-- A line feed, alone or after a carriage return.
def newline? : List Char → Option (List Char)
  | '\n' :: rest => some rest
  | '\r' :: '\n' :: rest => some rest
  | _ => none

-- Everything but the controls; a tab is allowed.
def isTextChar (c : Char) : Bool := c = '\t' || (0x20 ≤ c.toNat && c.toNat ≠ 0x7F)

def skipComment : List Char → List Char
  | '#' :: rest => rest.dropWhile isTextChar
  | s => s

-- What may follow on a line: blanks, a comment, and the end of the line or of the text.
def lineEnd? (s : List Char) : Option (List Char) :=
  let rest := skipComment (skipBlanks s)
  if rest.isEmpty then some [] else newline? rest

-- Blanks, line ends and comments between the items of an array; the flag is set within a comment.
def skipSpace : Bool → List Char → List Char
  | _, '\r' :: '\n' :: rest => skipSpace false rest
  | _, '\n' :: rest => skipSpace false rest
  | true, c :: rest => if isTextChar c then skipSpace true rest else c :: rest
  | false, c :: rest =>
    if isBlank c then skipSpace false rest
    else if c = '#' then skipSpace true rest
    else c :: rest
  | _, [] => []

def skipLines (s : List Char) : List Char := skipSpace false s

def hexValue? (c : Char) : Option Nat :=
  if '0' ≤ c ∧ c ≤ '9' then some (c.toNat - '0'.toNat)
  else if 'a' ≤ c ∧ c ≤ 'f' then some (c.toNat - 'a'.toNat + 10)
  else if 'A' ≤ c ∧ c ≤ 'F' then some (c.toNat - 'A'.toNat + 10)
  else none

-- The character with a code point in hexadecimal digits.
def codePoint? (digits : List Char) : Option Char := do
  let values ← digits.mapM hexValue?
  let n := values.foldl (fun n d => 16 * n + d) 0
  if n.isValidChar then some (Char.ofNat n) else none

def simpleEscape? : Char → Option Char
  | 'b' => some '\x08'
  | 't' => some '\t'
  | 'n' => some '\n'
  | 'f' => some '\x0c'
  | 'r' => some '\r'
  | '"' => some '"'
  | '\\' => some '\\'
  | _ => none

def prepend? (c : Option Char) (scanned : Option (List Char × List Char)) :
    Option (List Char × List Char) := do
  let (text, rest) ← scanned
  return ((← c) :: text, rest)

-- A string on one line, after its opening quote.
def basic? : List Char → Option (List Char × List Char)
  | '"' :: rest => some ([], rest)
  | '\\' :: 'u' :: a :: b :: c :: d :: rest => prepend? (codePoint? [a, b, c, d]) (basic? rest)
  | '\\' :: 'U' :: a :: b :: c :: d :: e :: f :: g :: h :: rest =>
    prepend? (codePoint? [a, b, c, d, e, f, g, h]) (basic? rest)
  | '\\' :: c :: rest => prepend? (simpleEscape? c) (basic? rest)
  | c :: rest => if isTextChar c then prepend? (some c) (basic? rest) else none
  | [] => none

def literal? : List Char → Option (List Char × List Char)
  | '\'' :: rest => some ([], rest)
  | c :: rest => if isTextChar c then prepend? (some c) (literal? rest) else none
  | [] => none

-- The end of a string of several lines, after the three quotes that close it: up to two quotes
-- before these belong to the text.
def closing (quote : Char) : List Char → List Char × List Char
  | a :: b :: rest =>
    if a = quote ∧ b = quote then ([quote, quote], rest)
    else if a = quote then ([quote], b :: rest)
    else ([], a :: b :: rest)
  | [a] => if a = quote then ([quote], []) else ([], [a])
  | [] => ([], [])

-- Whether nothing but blanks stand before the end of the line.
def endsLine (s : List Char) : Bool := (newline? (skipBlanks s)).isSome

-- A string of several lines. After a backslash at the end of a line the flag is set, and blanks
-- and line ends are passed over.
def multilineBasic? : Bool → List Char → Option (List Char × List Char)
  | _, '"' :: '"' :: '"' :: rest => some (closing '"' rest)
  | trimming, '\r' :: '\n' :: rest =>
    let scanned := multilineBasic? trimming rest
    if trimming then scanned else prepend? (some '\n') scanned
  | trimming, '\n' :: rest =>
    let scanned := multilineBasic? trimming rest
    if trimming then scanned else prepend? (some '\n') scanned
  | _, '\\' :: 'u' :: a :: b :: c :: d :: rest =>
    prepend? (codePoint? [a, b, c, d]) (multilineBasic? false rest)
  | _, '\\' :: 'U' :: a :: b :: c :: d :: e :: f :: g :: h :: rest =>
    prepend? (codePoint? [a, b, c, d, e, f, g, h]) (multilineBasic? false rest)
  | _, '\\' :: c :: rest =>
    match simpleEscape? c with
    | some c => prepend? (some c) (multilineBasic? false rest)
    | none => if endsLine (c :: rest) then multilineBasic? true (c :: rest) else none
  | trimming, c :: rest =>
    if trimming ∧ isBlank c then multilineBasic? true rest
    else if isTextChar c then prepend? (some c) (multilineBasic? false rest)
    else none
  | _, [] => none

def multilineLiteral? : List Char → Option (List Char × List Char)
  | '\'' :: '\'' :: '\'' :: rest => some (closing '\'' rest)
  | '\r' :: '\n' :: rest => prepend? (some '\n') (multilineLiteral? rest)
  | '\n' :: rest => prepend? (some '\n') (multilineLiteral? rest)
  | c :: rest => if isTextChar c then prepend? (some c) (multilineLiteral? rest) else none
  | [] => none

-- A line end right after the opening quotes is not part of the text.
def dropFirstNewline (s : List Char) : List Char := (newline? s).getD s

-- A string of one line.
def lineString? : List Char → Option (String × List Char)
  | '"' :: rest => (basic? rest).map fun (text, rest) => (String.ofList text, rest)
  | '\'' :: rest => (literal? rest).map fun (text, rest) => (String.ofList text, rest)
  | _ => none

def string? : List Char → Option (String × List Char)
  | '"' :: '"' :: '"' :: rest =>
    (multilineBasic? false (dropFirstNewline rest)).map fun (text, rest) =>
      (String.ofList text, rest)
  | '\'' :: '\'' :: '\'' :: rest =>
    (multilineLiteral? (dropFirstNewline rest)).map fun (text, rest) => (String.ofList text, rest)
  | s => lineString? s

end PerspectiveBox.Toml
