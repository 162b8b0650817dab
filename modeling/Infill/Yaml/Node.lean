import Infill.Yaml.Token

/-!
# Nodes of YAML

The tree that a document stands for.  An alias is kept as the number of the anchor that it names; the
nodes that carry anchors are kept beside the tree.
-/

set_option autoImplicit false

namespace Infill.Yaml

/-- A node of a document.  A scalar keeps how it is written, since that decides whether it may stand for
no value, and its tag. -/
inductive Node where
  | scalar (text : Text) (style : Style) (tag : Option Bytes)
  | sequence (items : List Node)
  | mapping (members : List (Node × Node))
  | alias (anchor : Nat)
  deriving Repr

namespace Node

/-- The node that nothing stands for. -/
def empty : Node := .scalar [] .plain none

/-- Whether a node is a plain scalar without text. -/
def isEmpty : Node → Bool
  | scalar text style _ => text.isEmpty && style == .plain
  | _ => false

end Node

/-- A document: its tree, and the nodes that its anchors name. -/
structure Document where
  root : Node
  anchors : List (Nat × Node)
  deriving Repr

namespace Document

/-- The node that is meant by a node; an alias means the node of its anchor. -/
def meaning (d : Document) (node : Node) : Option Node :=
  match node with
  | .alias anchor => (d.anchors.find? fun (a, _) => a == anchor).map (·.2)
  | node => some node

end Document
end Infill.Yaml
