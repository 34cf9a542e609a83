import PerspectiveBox.Number.Numeral

namespace PerspectiveBox.Toml

-- A table has a header of its own, is implied by the header of a table within it, or is made by
-- dotted keys.
inductive TableKind where
  | explicit
  | implied
  | dotted
  deriving DecidableEq, Repr

-- An inline table is a value, to which nothing can be added. The value of a date or a time is not
-- kept.
inductive Node where
  | string (s : String)
  | integer (n : Int)
  | float (n : Numeral)
  | boolean (b : Bool)
  | moment
  | array (items : List Node)
  | inline (entries : List (String × Node))
  | table (kind : TableKind) (entries : List (String × Node))
  | tables (elements : List (List (String × Node)))

abbrev Entries := List (String × Node)

namespace Entries

def get? (entries : Entries) (key : String) : Option Node := entries.lookup key

-- Replaces the value of a key that is there.
def replace (entries : Entries) (key : String) (node : Node) : Entries :=
  entries.map fun e => if e.1 = key then (key, node) else e

-- Changes the last of the elements of an array of tables.
def inLast (change : Entries → Option Entries) (elements : List Entries) :
    Option (List Entries) :=
  match elements.getLast? with
  | some last => (change last).map fun last => elements.dropLast ++ [last]
  | none => none

-- Gives a value to a dotted key. On the way, tables made by dotted keys can be entered; others
-- only to make or enter a dotted one within them.
def assign (entries : Entries) : List String → String → Node → Option Entries
  | [], key, value =>
    match entries.get? key with
    | none => some (entries ++ [(key, value)])
    | some _ => none
  | k :: path, key, value =>
    match entries.get? k with
    | none => (assign [] path key value).map fun inner => entries ++ [(k, .table .dotted inner)]
    | some (.table .dotted inner) =>
      (assign inner path key value).map fun inner => entries.replace k (.table .dotted inner)
    | some (.table .implied inner) =>
      if path.isEmpty then none
      else (assign inner path key value).map fun inner =>
        entries.replace k (.table .implied inner)
    | some (.tables elements) =>
      if path.isEmpty then none
      else (inLast (fun inner => assign inner path key value) elements).map fun elements =>
        entries.replace k (.tables elements)
    | some _ => none

-- Follows a path of table names to the last one and changes that entry. Tables that are not there
-- are implied; of an array of tables the last one is entered.
def atHeader (entries : Entries) (change : Entries → String → Option Entries) :
    List String → Option Entries
  | [] => none
  | [k] => change entries k
  | k :: path =>
    match entries.get? k with
    | none => (atHeader [] change path).map fun inner => entries ++ [(k, .table .implied inner)]
    | some (.table kind inner) =>
      (atHeader inner change path).map fun inner => entries.replace k (.table kind inner)
    | some (.tables elements) =>
      (inLast (fun inner => atHeader inner change path) elements).map fun elements =>
        entries.replace k (.tables elements)
    | some _ => none

-- The header of a table. A table that was only implied so far may still be given one.
def openTable (entries : Entries) (path : List String) : Option Entries :=
  entries.atHeader (fun entries key =>
    match entries.get? key with
    | none => some (entries ++ [(key, .table .explicit [])])
    | some (.table .implied inner) => some (entries.replace key (.table .explicit inner))
    | some _ => none) path

-- The header of a further element of an array of tables.
def openElement (entries : Entries) (path : List String) : Option Entries :=
  entries.atHeader (fun entries key =>
    match entries.get? key with
    | none => some (entries ++ [(key, .tables [[]])])
    | some (.tables elements) => some (entries.replace key (.tables (elements ++ [[]])))
    | some _ => none) path

-- Gives a value to a dotted key in the table under a header.
def assignUnder (entries : Entries) (header path : List String) (key : String) (value : Node) :
    Option Entries :=
  if header.isEmpty then entries.assign path key value
  else entries.atHeader (fun entries k =>
    match entries.get? k with
    | some (.table kind inner) =>
      (assign inner path key value).map fun inner => entries.replace k (.table kind inner)
    | some (.tables elements) =>
      (inLast (fun inner => assign inner path key value) elements).map fun elements =>
        entries.replace k (.tables elements)
    | _ => none) header

end Entries

end PerspectiveBox.Toml
