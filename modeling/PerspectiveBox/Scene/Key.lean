namespace PerspectiveBox

inductive Kind where
  | perspective
  | box
  deriving DecidableEq, Repr

-- A key names a slot and the version of its content, so it never comes to mean anything else. Slots
-- are numbered from one. Slot zero is never in use, and its key is the key of nothing.
structure Key (kind : Kind) where
  slot : Nat
  version : Nat
  deriving DecidableEq, Repr

abbrev PerspectiveKey := Key .perspective

abbrev BoxKey := Key .box

def Kind.keyName : Kind → String
  | perspective => "PerspKey"
  | box => "BoxKey"

namespace Key

def null {kind : Kind} : Key kind := ⟨0, 0⟩

def text {kind : Kind} (k : Key kind) : String :=
  let body := if k.slot = 0 then "null" else toString k.slot ++ "v" ++ toString k.version
  kind.keyName ++ "(" ++ body ++ ")"

end Key

end PerspectiveBox
