import MdxPress.Yaml.Node.Document

/-!
# YAML trees

A document whose aliases are replaced by the nodes they stand for.  Collections nest at most 128
deep, and there are at most a hundred aliases for every part of the document; what goes beyond is
marked as failed, and fails whatever needs it.
-/

namespace MdxPress.Yaml

/-- A node without aliases. -/
inductive Tree where
  | scalar (tag : Option Text) (isPlain : Bool) (content : Text)
  | sequence (tag : Option Text) (items : List Tree)
  | mapping (tag : Option Text) (entries : List (Tree × Tree))
  | failed (e : Error)
  deriving Repr, Inhabited

/-- The anchor of a node, with the node. -/
def Props.anchored (p : Props) (n : Node) : List (Nat × Node) :=
  (p.anchor.map fun a => (a, n)).toList

mutual

/-- The nodes with anchors, in the order of the document. -/
def Node.anchors : Node → List (Nat × Node)
  | .alias _ => []
  | .scalar p isPlain c => p.anchored (.scalar p isPlain c)
  | .sequence p items => p.anchored (.sequence p items) ++ itemAnchors items
  | .mapping p es => p.anchored (.mapping p es) ++ entryAnchors es

/-- The anchors among items. -/
def itemAnchors : List Node → List (Nat × Node)
  | [] => []
  | n :: ns => n.anchors ++ itemAnchors ns

/-- The anchors among entries. -/
def entryAnchors : List (Node × Node) → List (Nat × Node)
  | [] => []
  | (k, v) :: es => k.anchors ++ v.anchors ++ entryAnchors es

end

mutual

/-- The number of parts of a node: scalars and aliases, and both ends of collections. -/
def Node.parts : Node → Nat
  | .alias _ => 1
  | .scalar .. => 1
  | .sequence _ items => 2 + itemParts items
  | .mapping _ es => 2 + entryParts es

/-- The number of parts of items. -/
def itemParts : List Node → Nat
  | [] => 0
  | n :: ns => n.parts + itemParts ns

/-- The number of parts of entries. -/
def entryParts : List (Node × Node) → Nat
  | [] => 0
  | (k, v) :: es => k.parts + v.parts + entryParts es

end

namespace Tree

/-- The node that an alias stands for, any other node itself.  The state is the number of aliases
that may still be followed. -/
def follow (anchors : List (Nat × Node)) : Node → StateM Nat (Except Error Node)
  | .alias a => fun budget =>
    match budget, anchors.reverse.lookup a with
    | 0, _ => (.error .tooManyAliases, 0)
    | n + 1, some t => (.ok t, n)
    | n + 1, none => (.error .unknownAlias, n)
  | n => pure (.ok n)

/-- Replaces the aliases of a node inside which collections may still nest so deep. -/
def expand (anchors : List (Nat × Node)) : Nat → Node → StateM Nat Tree
  | 0, n => do
    match ← follow anchors n with
    | .ok (.scalar p isPlain c) => pure (.scalar p.tag isPlain c)
    | .ok _ => pure (.failed .tooDeep)
    | .error e => pure (.failed e)
  | depth + 1, n => do
    match ← follow anchors n with
    | .ok (.scalar p isPlain c) => pure (.scalar p.tag isPlain c)
    | .ok (.sequence p items) => return .sequence p.tag (← items.mapM (expand anchors depth))
    | .ok (.mapping p es) =>
      return .mapping p.tag (← es.mapM fun e =>
        return (← expand anchors depth e.1, ← expand anchors depth e.2))
    | .ok (.alias _) => pure (.failed .unknownAlias)
    | .error e => pure (.failed e)

/-- The depth to which collections may nest. -/
def maxDepth : Nat := 128

/-- The tree of a document. -/
def ofNode (n : Node) : Tree :=
  (expand n.anchors maxDepth n (100 * n.parts)).1

/-- The tree of a text; a text without content counts as an empty scalar. -/
def ofText (t : Text) : Except Error Tree :=
  (Node.ofText t).map fun n => ofNode (n.getD (.empty .none))

end Tree
end MdxPress.Yaml
