import MdxPress.Yaml.Error
import MdxPress.Yaml.Token

/-!
# YAML nodes

A document as it is written: scalars with or without quotes, collections, and aliases.  What the
scalars mean is not decided yet.

Anchors are numbered: an anchor gets the number of different names that stand before it.  Where a
name is used again two anchors can have one number, and then the later node is meant.

While tokens are put together there are open nodes, which are begun and not ended, innermost first.

Nodes need not be written: before a token that cannot begin a node, a node that is due is empty.
A sequence that stands in a mapping at the column of its keys has no end of its own either.
-/

namespace MdxPress.Yaml

/-- The anchor and the tag of a node. -/
structure Props where
  anchor : Option Nat
  tag : Option Text
  deriving DecidableEq, Repr

/-- Neither anchor nor tag. -/
def Props.none : Props := ⟨Option.none, Option.none⟩

/-- A node of a document. -/
inductive Node where
  | alias (anchor : Nat)
  | scalar (props : Props) (isPlain : Bool) (content : Text)
  | sequence (props : Props) (items : List Node)
  | mapping (props : Props) (entries : List (Node × Node))
  deriving Repr, Inhabited

/-- The node that is not written. -/
def Node.empty (p : Props) : Node :=
  .scalar p true []

/-! ## Open nodes -/

/-- How a sequence is written. -/
inductive SequenceStyle where
  | block
  /-- Entries at the column of the keys of the mapping around them. -/
  | indentless
  | flow
  deriving DecidableEq, Repr

/-- What is due in a mapping. -/
inductive Slot where
  /-- A key with its mark, or the end. -/
  | key
  /-- The node of a key. -/
  | keyNode
  /-- The colon behind a key. -/
  | value (k : Node)
  /-- The node of the value for a key. -/
  | valueNode (k : Node)
  /-- A comma, or the end. -/
  | comma
  deriving Repr

/-- A node that is begun. -/
inductive OpenNode where
  /-- The document, with its node if that is ended. -/
  | root (n : Option Node)
  | sequence (props : Props) (style : SequenceStyle) (items : List Node) (isDue : Bool)
  | mapping (props : Props) (isFlow : Bool) (entries : List (Node × Node)) (slot : Slot)
  /-- A mapping of one entry, which is an entry of a flow sequence. -/
  | pair (slot : Slot)
  deriving Repr

/-- What is begun, the properties of a node that is not, and the names of anchors with their
numbers. -/
structure Draft where
  opens : List OpenNode
  props : Option Props
  names : List (Text × Nat)
  deriving Repr

/-! ## Complete nodes -/

/-- Adds a complete node where a node is due. -/
def place (n : Node) : List OpenNode → Except Error (List OpenNode)
  | .root none :: os => .ok (.root (some n) :: os)
  | .sequence p s items true :: os => .ok (.sequence p s (items ++ [n]) false :: os)
  | .mapping p f es .keyNode :: os => .ok (.mapping p f es (.value n) :: os)
  | .mapping p f es (.valueNode k) :: os =>
    .ok (.mapping p f (es ++ [(k, n)]) (if f then .comma else .key) :: os)
  | .mapping p true es .key :: os =>
    .ok (.mapping p true (es ++ [(n, .empty .none)]) .comma :: os)
  | .pair .keyNode :: os => .ok (.pair (.value n) :: os)
  | .pair (.valueNode k) :: .sequence p s items true :: os =>
    .ok (.sequence p s (items ++ [.mapping .none [(k, n)]]) false :: os)
  | _ => .error .misplacedPart

namespace Draft

/-- Before the first token of a document. -/
def start : Draft := ⟨[.root none], none, []⟩

/-- Adds a complete node, and forgets the properties. -/
def add (d : Draft) (n : Node) : Except Error Draft :=
  (place n d.opens).map fun os => { d with opens := os, props := none }

/-- Ends the innermost node, which is complete as `n`. -/
def close (d : Draft) (n : Node) : Except Error Draft :=
  (place n d.opens.tail).map fun os => { d with opens := os, props := none }

/-- Begins a node inside. -/
def push (d : Draft) (o : OpenNode) : Draft :=
  { d with opens := o :: d.opens, props := none }

/-- The properties for the next node. -/
def nextProps (d : Draft) : Props :=
  d.props.getD .none

/-- Replaces the innermost node. -/
def setTop (d : Draft) (o : OpenNode) : Draft :=
  { d with opens := o :: d.opens.tail, props := none }

/-! ## What is due -/

/-- Whether a node is due, or may begin. -/
def awaitsNode (d : Draft) : Bool :=
  match d.opens with
  | .root none :: _ => true
  | .sequence _ _ _ isDue :: _ => isDue
  | .mapping _ _ _ .keyNode :: _ => true
  | .mapping _ _ _ (.valueNode _) :: _ => true
  | .mapping _ true _ .key :: _ => true
  | .pair .keyNode :: _ => true
  | .pair (.valueNode _) :: _ => true
  | _ => false

/-- Whether a sequence may begin without an indentation of its own. -/
def awaitsIndentless (d : Draft) : Bool :=
  match d.opens with
  | .mapping _ false _ .keyNode :: _ => true
  | .mapping _ false _ (.valueNode _) :: _ => true
  | _ => false

/-- Whether a token goes on with a node whose properties are read. -/
def continues (d : Draft) (p : Props) : Token → Bool
  | .anchor _ => p.anchor.isNone
  | .tag .. => p.tag.isNone
  | .scalar .. | .blockSequenceStart | .blockMappingStart | .flowSequenceStart
  | .flowMappingStart => true
  | .blockEntry => d.awaitsIndentless
  | _ => false

/-- Whether the node that is due is empty before a token. -/
def isOmitted (d : Draft) (t : Token) : Bool :=
  match d.opens with
  | .sequence _ .block _ true :: _ => [.blockEntry, .blockEnd].contains t
  | .sequence _ .indentless _ true :: _ => [.blockEntry, .key, .value, .blockEnd].contains t
  | .mapping _ false _ .keyNode :: _ => [.key, .value, .blockEnd].contains t
  | .mapping _ false _ (.valueNode _) :: _ => [.key, .value, .blockEnd].contains t
  | .mapping _ true _ .keyNode :: _ => [.value, .flowEntry, .flowMappingEnd].contains t
  | .mapping _ true _ (.valueNode _) :: _ => [.flowEntry, .flowMappingEnd].contains t
  | .pair (.valueNode _) :: _ => [.flowEntry, .flowSequenceEnd].contains t
  | _ => false

/-- One change that a token brings about before it is used itself, if there is one. -/
def prepare? (d : Draft) (t : Token) : Option (Except Error Draft) :=
  match d.props with
  | some p => if d.continues p t then none else some (d.add (.empty p))
  | none =>
    if d.isOmitted t then some (d.add (.empty .none))
    else
      match d.opens with
      | .sequence p .indentless items false :: _ =>
        if t = .blockEntry then none else some (d.close (.sequence p items))
      | .mapping p f es (.value k) :: _ =>
        if t = .value then none
        else
          let slot : Slot := if f then .comma else .key
          some (.ok (d.setTop (.mapping p f (es ++ [(k, .empty .none)]) slot)))
      | .pair (.value k) :: _ =>
        if t = .value then none else some ((d.setTop (.pair (.valueNode k))).add (.empty .none))
      | _ => none

/-- The changes that a token brings about before it is used; there are three at most. -/
def settle (t : Token) : Nat → Draft → Except Error Draft
  | 0, d => .ok d
  | n + 1, d =>
    match d.prepare? t with
    | some r => r.bind (settle t n)
    | none => .ok d

/-! ## Tokens -/

/-- The node that the innermost open one is when a token ends it. -/
def ended? (d : Draft) (t : Token) : Option Node :=
  match d.opens, t with
  | .sequence p .block items false :: _, .blockEnd => some (.sequence p items)
  | .sequence p .flow items _ :: _, .flowSequenceEnd => some (.sequence p items)
  | .mapping p false es .key :: _, .blockEnd => some (.mapping p es)
  | .mapping p true es .key :: _, .flowMappingEnd => some (.mapping p es)
  | .mapping p true es .comma :: _, .flowMappingEnd => some (.mapping p es)
  | _, _ => none

/-- Uses an indicator inside the innermost open node. -/
def indicator (d : Draft) (t : Token) : Except Error Draft :=
  match d.opens, t with
  | .sequence p .block items false :: _, .blockEntry => .ok (d.setTop (.sequence p .block items true))
  | .sequence p .indentless items false :: _, .blockEntry =>
    .ok (d.setTop (.sequence p .indentless items true))
  | .sequence p .flow items false :: _, .flowEntry => .ok (d.setTop (.sequence p .flow items true))
  | .sequence _ .flow _ true :: _, .key => .ok (d.push (.pair .keyNode))
  | .mapping p f es .key :: _, .key => .ok (d.setTop (.mapping p f es .keyNode))
  | .mapping p f es (.value k) :: _, .value => .ok (d.setTop (.mapping p f es (.valueNode k)))
  | .mapping p true es .comma :: _, .flowEntry => .ok (d.setTop (.mapping p true es .key))
  | .pair (.value k) :: _, .value => .ok (d.setTop (.pair (.valueNode k)))
  -- A pair whose key is not written takes the token before which it is missing.
  | .pair .keyNode :: _, .value => .ok (d.setTop (.pair (.value (.empty .none))))
  | .pair .keyNode :: _, .flowEntry => .ok (d.setTop (.pair (.value (.empty .none))))
  | .pair .keyNode :: _, .flowSequenceEnd => .ok (d.setTop (.pair (.value (.empty .none))))
  | _, _ =>
    if t = .blockEntry && d.awaitsIndentless then
      .ok (d.push (.sequence d.nextProps .indentless [] true))
    else
      match d.ended? t with
      | some n => d.close n
      | none => .error .misplacedPart

/-- Numbers an anchor. -/
def name (d : Draft) (n : Text) : Draft :=
  let number := d.names.length
  { d with
    props := some { d.nextProps with anchor := some number }
    names := (n, number) :: d.names.filter (·.1 != n) }

/-- Uses a token that begins a node. -/
def content (d : Draft) : Token → Except Error Draft
  | .alias n =>
    match d.names.lookup n with
    | some number => d.add (.alias number)
    | none => .error .unknownAlias
  | .scalar isPlain c => d.add (.scalar d.nextProps isPlain c)
  | .blockSequenceStart => .ok (d.push (.sequence d.nextProps .block [] false))
  | .flowSequenceStart => .ok (d.push (.sequence d.nextProps .flow [] true))
  | .blockMappingStart => .ok (d.push (.mapping d.nextProps false [] .key))
  | .flowMappingStart => .ok (d.push (.mapping d.nextProps true [] .key))
  | .anchor n => .ok (d.name n)
  | _ => .error .misplacedPart

/-- Whether a token begins a node; tags are looked up first and have a case of their own. -/
def isContent : Token → Bool
  | .alias _ | .scalar .. | .blockSequenceStart | .flowSequenceStart | .blockMappingStart
  | .flowMappingStart | .anchor _ => true
  | _ => false

end Draft
end MdxPress.Yaml
