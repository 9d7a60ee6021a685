import Publication.Text.Blank

/-!
The document tree. A node has a kind, perhaps a text, attributes in order and children in document
order, so that a walk from the root meets the content as it was written.
-/

namespace Publication.Document

/-- What a node is. -/
inductive Kind where
  | document
  | paragraph
  | heading (level : Nat)
  | blockQuote
  | codeBlock
  | htmlBlock
  | list (start : Option Nat)
  | listItem
  | table
  | tableHead
  | tableRow
  | tableCell
  | footnoteDefinition
  | definitionList
  | definitionTitle
  | definitionDetails
  | rule
  | text
  | code
  | rawHtml
  | formula (display : Bool)
  | emphasis
  | strong
  | strikethrough
  /-- The flag marks an address for mail. -/
  | link (email : Bool)
  | image
  | softBreak
  | hardBreak
  | footnoteReference
  | taskMarker (checked : Bool)
  | span
deriving Repr, DecidableEq, Inhabited

/-- A node with everything below it. -/
structure Node where
  kind : Kind
  text : Option String := none
  attrs : List (String × String) := []
  children : List Node := []
deriving Repr, Inhabited

namespace Node

/-- A node that holds a text and nothing else. -/
def leaf (kind : Kind) (text : String) : Node := { kind := kind, text := some text }

/-- The value of an attribute. -/
def attr? (node : Node) (key : String) : Option String :=
  (node.attrs.find? (·.1 = key)).map (·.2)

/-- Gives an attribute a value, at its old place if it is there and else at the end. -/
def setAttrIn (key value : String) : List (String × String) → List (String × String)
  | [] => [(key, value)]
  | (k, v) :: rest => if k = key then (k, value) :: rest else (k, v) :: setAttrIn key value rest

def setAttr (node : Node) (key value : String) : Node :=
  { node with attrs := setAttrIn key value node.attrs }

def addChild (node child : Node) : Node := { node with children := node.children ++ [child] }

/-- The marks around the text of a formula. -/
def formulaMark (display : Bool) : String := if display then "$$" else "$"

mutual

/-- The text of a node and of all below it. Raw markup is no text, a formula keeps its marks, and a
break is a line feed. -/
def flatten : Node → String
  | ⟨.rawHtml, _, _, _⟩ => ""
  | ⟨.htmlBlock, _, _, _⟩ => ""
  | ⟨.formula display, text, _, _⟩ =>
      formulaMark display ++ text.getD "" ++ formulaMark display
  | ⟨.softBreak, text, _, children⟩ => "\n" ++ text.getD "" ++ flattenAll children
  | ⟨.hardBreak, text, _, children⟩ => "\n" ++ text.getD "" ++ flattenAll children
  | ⟨_, text, _, children⟩ => text.getD "" ++ flattenAll children

/-- The texts of nodes one after another. -/
def flattenAll : List Node → String
  | [] => ""
  | node :: rest => flatten node ++ flattenAll rest

end

/-- Content that a paragraph of raw markup may have beside it: breaks and blank text. -/
def isFiller (node : Node) : Bool :=
  match node.kind with
  | .softBreak | .hardBreak => true
  | .text => (node.text.map fun text => Text.allBlank text.toList).getD true
  | _ => false

/-- Whether the children are raw markup, with nothing beside it but filler. -/
def isRawPlaceholder (node : Node) : Bool :=
  node.children.all (fun child => child.kind = .rawHtml || child.isFiller)
    && node.children.any (·.kind = .rawHtml)

mutual

/-- The node and all below it, each before its children. -/
def preorder : Node → List Node
  | ⟨kind, text, attrs, children⟩ => ⟨kind, text, attrs, children⟩ :: preorderAll children

/-- The nodes of a forest, each before its children. -/
def preorderAll : List Node → List Node
  | [] => []
  | node :: rest => preorder node ++ preorderAll rest

end

mutual

/-- Shows the node and all below it to a visitor, each before its children, until the visitor says
no. The result is the visitor's state and whether it never said no. -/
def walk {σ : Type} (visit : σ → Node → σ × Bool) (state : σ) : Node → σ × Bool
  | ⟨kind, text, attrs, children⟩ =>
      match visit state ⟨kind, text, attrs, children⟩ with
      | (state, false) => (state, false)
      | (state, true) => walkAll visit state children

/-- Walks the nodes of a forest in order. -/
def walkAll {σ : Type} (visit : σ → Node → σ × Bool) (state : σ) : List Node → σ × Bool
  | [] => (state, true)
  | node :: rest =>
      match walk visit state node with
      | (state, false) => (state, false)
      | (state, true) => walkAll visit state rest

end

mutual

/-- Lets a visitor revise the node and all below it, each before its children. The children that a
node has are kept, whatever the visitor returns. -/
def revise {σ : Type} (visit : σ → Node → Node × σ) (state : σ) : Node → Node × σ
  | ⟨kind, text, attrs, children⟩ =>
      let (node, state) := visit state ⟨kind, text, attrs, children⟩
      let (children, state) := reviseAll visit state children
      ({ node with children := children }, state)

/-- Revises the nodes of a forest in order. -/
def reviseAll {σ : Type} (visit : σ → Node → Node × σ) (state : σ) : List Node → List Node × σ
  | [] => ([], state)
  | node :: rest =>
      let (node, state) := revise visit state node
      let (rest, state) := reviseAll visit state rest
      (node :: rest, state)

end

/-- The first node that satisfies a test, found by a walk that stops there. -/
def find? (node : Node) (test : Node → Bool) : Option Node :=
  (node.walk (fun found node => if test node then (some node, false) else (found, true)) none).1

/-- All nodes that satisfy a test, collected by a walk. -/
def findAll (node : Node) (test : Node → Bool) : List Node :=
  (node.walk (fun found node => (if test node then found ++ [node] else found, true)) []).1

end Node
end Publication.Document
