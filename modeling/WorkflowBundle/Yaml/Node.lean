/-
This file holds the nodes of a document: scalars, collections and aliases, before they have values.
-/

import WorkflowBundle.Yaml.Token

namespace WorkflowBundle.Yaml

/-- A node is a scalar as written, a collection, or an alias for the node of an anchor. Anchors are
numbered, and tags are written out. -/
inductive Node where
  | scalar (anchor : Option Nat) (tag : Option String) (style : Style) (text : String)
  | sequence (anchor : Option Nat) (tag : Option String) (items : List Node)
  | mapping (anchor : Option Nat) (tag : Option String) (entries : List (Node × Node))
  | alias (anchor : Nat)

namespace Node

/-- A missing node is an empty plain scalar. -/
def missing : Node := .scalar none none .plain ""

def anchor? : Node → Option Nat
  | .scalar anchor _ _ _ | .sequence anchor _ _ | .mapping anchor _ _ => anchor
  | .alias _ => none

mutual

/-- A node and the nodes in it come in the order in which they are written. -/
def flatten : Node → List Node
  | .sequence anchor tag items => .sequence anchor tag items :: flattenItems items
  | .mapping anchor tag entries => .mapping anchor tag entries :: flattenEntries entries
  | node => [node]

def flattenItems : List Node → List Node
  | [] => []
  | item :: rest => flatten item ++ flattenItems rest

def flattenEntries : List (Node × Node) → List Node
  | [] => []
  | (key, value) :: rest => flatten key ++ flatten value ++ flattenEntries rest

end

/-- A collection has a start and an end. -/
def marks : Node → Nat
  | .sequence .. | .mapping .. => 2
  | _ => 1

/-- The size of a node counts its scalars and aliases once and its collections twice. -/
def size (node : Node) : Nat :=
  node.flatten.foldl (fun size inner => size + inner.marks) 0

/-- An anchor stands for the last node that carries its number. -/
def anchored? (node : Node) (anchor : Nat) : Option Node :=
  node.flatten.findRev? fun inner => inner.anchor? == some anchor

end Node

end WorkflowBundle.Yaml
