import Publication.Markdown.Event

/-!
Inline structure: what the text of a paragraph, a heading or a cell is made of.
-/

namespace Publication.Markdown

/-- Text that is emphasized in some way. -/
inductive Style where
  | emphasis
  | strong
  | strikethrough
deriving Repr, DecidableEq

/-- An inline element. -/
inductive Inline where
  | text (content : List Char)
  | code (content : List Char)
  | math (display : Bool) (content : List Char)
  | html (content : List Char)
  | footnote (label : List Char)
  | softBreak
  /-- A break by a backslash, or by spaces. -/
  | hardBreak (backslash : Bool)
  | styled (style : Style) (children : List Inline)
  | link (image : Bool) (kind : LinkKind) (dest title id : String) (children : List Inline)
deriving Repr

/-- The container of a style. -/
def Style.tag : Style → Tag
  | .emphasis => .emphasis
  | .strong => .strong
  | .strikethrough => .strikethrough

namespace Inline

mutual

def events : Inline → List Event
  | .text content => [.text (String.ofList content)]
  | .code content => [.code (String.ofList content)]
  | .math display content => [.math display (String.ofList content)]
  | .html content => [.inlineHtml (String.ofList content)]
  | .footnote label => [.footnoteReference (String.ofList label)]
  | .softBreak => [.softBreak]
  | .hardBreak _ => [.hardBreak]
  | .styled style children => style.tag.around (eventsAll children)
  | .link true kind dest title id children =>
      (Tag.image kind dest title id).around (eventsAll children)
  | .link false kind dest title id children =>
      (Tag.link kind dest title id).around (eventsAll children)

/-- The events of inline elements in order. -/
def eventsAll : List Inline → List Event
  | [] => []
  | element :: rest => events element ++ eventsAll rest

end

end Inline
end Publication.Markdown
