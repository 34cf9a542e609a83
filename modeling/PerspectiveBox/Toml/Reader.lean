import PerspectiveBox.Toml.Literal
import PerspectiveBox.Toml.Text

namespace PerspectiveBox.Toml

-- Arrays and inline tables are nested no deeper than this, and dotted keys have no more parts.
def depthLimit : Nat := 79

def isBareChar (c : Char) : Bool := c.isAlphanum || c = '_' || c = '-'

-- One part of a key: bare, or a string.
def simpleKey? (s : List Char) : Option (String × List Char) :=
  let bare := s.takeWhile isBareChar
  if bare.isEmpty then lineString? s
  else some (String.ofList bare, s.dropWhile isBareChar)

-- The parts of a key with dots between them, with blanks around each.
def dottedKey? : Nat → List Char → Option (List String × List Char)
  | 0, _ => none
  | parts + 1, s => do
    let (part, rest) ← simpleKey? (skipBlanks s)
    match skipBlanks rest with
    | '.' :: rest =>
      let (more, rest) ← dottedKey? parts rest
      return (part :: more, rest)
    | rest => return ([part], rest)

-- A key as the tables it leads through and its last part.
def key? (s : List Char) : Option (List String × String × List Char) := do
  let (parts, rest) ← dottedKey? depthLimit s
  return (parts.dropLast, ← parts.getLast?, rest)

-- The word at the front of a text. A date may go on, after a space, with a time.
def word (s : List Char) : List Char × List Char :=
  let first := s.takeWhile isWordChar
  let rest := s.dropWhile isWordChar
  match rest with
  | ' ' :: c :: more =>
    if Literal.isDate first ∧ c.isDigit then
      (first ++ ' ' :: (c :: more).takeWhile isWordChar, (c :: more).dropWhile isWordChar)
    else (first, rest)
  | _ => (first, rest)

-- A value, the items of an array from the opening bracket on, and the entries of an inline table
-- from its first key on. Every step takes at least one character or leads to a value, so twice as
-- many steps as characters are enough; the levels bound the nesting.
mutual

def value? : Nat → Nat → List Char → Option (Node × List Char)
  | 0, _, _ => none
  | steps + 1, levels, s =>
    match s with
    | '[' :: rest =>
      match levels with
      | 0 => none
      | levels + 1 => (items? steps levels (skipLines rest)).map fun (items, rest) =>
        (.array items, rest)
    | '\x7b' :: rest =>
      match levels with
      | 0 => none
      | levels + 1 =>
        match skipBlanks rest with
        | '\x7d' :: rest => some (.inline [], rest)
        | rest => (entries? steps levels [] rest).map fun (entries, rest) =>
          (.inline entries, rest)
    | '"' :: _ => (string? s).map fun (text, rest) => (.string text, rest)
    | '\'' :: _ => (string? s).map fun (text, rest) => (.string text, rest)
    | s =>
      let (word, rest) := word s
      (Node.ofWord? word).map (·, rest)

def items? : Nat → Nat → List Char → Option (List Node × List Char)
  | 0, _, _ => none
  | _ + 1, _, ']' :: rest => some ([], rest)
  | steps + 1, levels, s => do
    let (item, rest) ← value? steps levels s
    match skipLines rest with
    | ',' :: rest =>
      let (items, rest) ← items? steps levels (skipLines rest)
      return (item :: items, rest)
    | ']' :: rest => return ([item], rest)
    | _ => none

def entries? : Nat → Nat → Entries → List Char → Option (Entries × List Char)
  | 0, _, _, _ => none
  | steps + 1, levels, entries, s => do
    let (path, key, rest) ← key? s
    match rest with
    | '=' :: rest =>
      let (value, rest) ← value? steps levels (skipBlanks rest)
      let entries ← entries.assign path key value
      match skipBlanks rest with
      | ',' :: rest => entries? steps levels entries rest
      | '\x7d' :: rest => return (entries, rest)
      | _ => none
    | _ => none

end

-- The document read so far and the header that it is under.
structure Progress where
  root : Entries
  header : List String

def openingBracket? : List Char → Option (List Char)
  | '[' :: rest => some rest
  | _ => none

-- The header of a table or, between double brackets, of an element of an array of tables.
def header? (p : Progress) (s : List Char) : Option (Progress × List Char) :=
  match openingBracket? s with
  | some s => do
    let (path, key, rest) ← key? s
    match rest with
    | ']' :: ']' :: rest =>
      return (⟨← p.root.openElement (path ++ [key]), path ++ [key]⟩, ← lineEnd? rest)
    | _ => none
  | none => do
    let (path, key, rest) ← key? s
    match rest with
    | ']' :: rest =>
      return (⟨← p.root.openTable (path ++ [key]), path ++ [key]⟩, ← lineEnd? rest)
    | _ => none

def assignment? (p : Progress) (s : List Char) : Option (Progress × List Char) := do
  let (path, key, rest) ← key? s
  match rest with
  | '=' :: rest =>
    let (value, rest) ← value? (2 * rest.length + 2) depthLimit (skipBlanks rest)
    return (⟨← p.root.assignUnder p.header path key value, p.header⟩, ← lineEnd? rest)
  | _ => none

-- Every line takes at least one character.
def lines? : Nat → Progress → List Char → Option Entries
  | steps, p, s =>
    match skipBlanks s with
    | [] => some p.root
    | c :: rest =>
      match steps with
      | 0 => none
      | steps + 1 =>
        if c = '#' ∨ c = '\n' ∨ c = '\r' then
          (lineEnd? (c :: rest)).bind fun rest => lines? steps p rest
        else
          (if c = '[' then header? p rest else assignment? p (c :: rest)).bind fun (p, rest) =>
            lines? steps p rest

-- The root table of a document. A byte order mark may stand in front.
def ofChars? (s : List Char) : Option Entries :=
  let s := match s with
    | '\ufeff' :: rest => rest
    | s => s
  lines? s.length ⟨[], []⟩ s

def ofText? (s : String) : Option Entries := ofChars? s.toList

end PerspectiveBox.Toml
