import Publication.Markdown.Line
import Publication.Text.Blank

/-!
Raw HTML in markdown: tags, comments, instructions and declarations. Each scan tells how many
characters the construct at the start of a text takes up.
-/

namespace Publication.Markdown.HtmlTag

open Publication.Text

/-- Passes spaces, and line breaks too if they are allowed. -/
def blanks (breaks : Bool) (s : List Char) : List Char :=
  s.dropWhile fun c => isInlineBlank c || (breaks && isBreak c)

/-- A character that a name of an attribute begins with. -/
def isNameStart (c : Char) : Bool := c.isAlpha || c == '_' || c == ':'

/-- A further character of the name of an attribute. -/
def isNameChar (c : Char) : Bool := c.isAlphanum || "_.:-".toList.contains c

/-- A character of a value that is not quoted. -/
def isBareChar (c : Char) : Bool := !("\t\n\r \"'=<>\x60".toList.contains c)

/-- What is left behind the value of an attribute. -/
def value? (breaks : Bool) (s : List Char) : Option (List Char) :=
  match s with
  | [] => none
  | c :: rest =>
      if c == '\x22' || c == '\x27' then
        match rest.dropWhile (· ≠ c) with
        | _ :: after =>
            if breaks || !(rest.takeWhile (· ≠ c)).any isBreak then some after else none
        | [] => none
      else if isBareChar c then some (rest.dropWhile isBareChar)
      else none

/-- What is left behind an attribute: a name, and perhaps a value. -/
def attribute? (breaks : Bool) (s : List Char) : Option (List Char) :=
  match s with
  | [] => none
  | c :: rest =>
      if isNameStart c then
        let after := rest.dropWhile isNameChar
        match blanks breaks after with
        | '=' :: right => value? breaks (blanks breaks right)
        | _ => some after
      else none

/-- What is left behind the attributes of a tag, each after a blank. -/
def attributes? (breaks : Bool) : (fuel : Nat) → List Char → Option (List Char)
  | 0, _ => none
  | fuel + 1, s =>
      let next := blanks breaks s
      match next with
      | '/' :: _ => some next
      | '>' :: _ => some next
      | _ =>
          if next.length = s.length then none
          else (attribute? breaks next).bind (attributes? breaks fuel)

/-- An opening or closing tag behind its angle bracket. -/
def tagRest? (breaks : Bool) (s : List Char) : Option (List Char) :=
  let closing := s.head? == some '/'
  let named := if closing then s.tail else s
  match named with
  | c :: _ =>
      if !c.isAlpha then none
      else
        let after := named.dropWhile fun c => c.isAlphanum || c == '-'
        if closing then
          match blanks false after with
          | '>' :: rest => some rest
          | _ => none
        else
          (attributes? breaks (s.length + 1) after).bind fun
            | '/' :: '>' :: rest => some rest
            | '>' :: rest => some rest
            | _ => none
  | [] => none

/-- What is left of a text behind the first place where `pattern` stands. -/
def behind? (pattern : List Char) : List Char → Option (List Char)
  | [] => strip? pattern []
  | c :: rest => (strip? pattern (c :: rest)).or (behind? pattern rest)

/-- A comment, a character data section or a declaration behind its exclamation mark. -/
def declarationRest? (s : List Char) : Option (List Char) :=
  match s with
  | '-' :: '-' :: '>' :: rest => some rest
  | '-' :: '-' :: '-' :: '>' :: rest => some rest
  | '-' :: '-' :: rest => behind? "-->".toList rest
  | _ =>
      match strip? "[CDATA[".toList s with
      | some rest => behind? "]]>".toList rest
      | none =>
          match s with
          | c :: _ => if c.isAlpha then behind? ['>'] s else none
          | [] => none

/-- What is left of a text behind the inline HTML that follows an angle bracket. -/
def inlineRest? (s : List Char) : Option (List Char) :=
  match s with
  | '!' :: rest => declarationRest? rest
  | '?' :: rest => behind? "?>".toList rest
  | _ => tagRest? true s

def blockNames : List String := [
  "address", "article", "aside", "base", "basefont", "blockquote", "body", "caption", "center",
  "col", "colgroup", "dd", "details", "dialog", "dir", "div", "dl", "dt", "fieldset",
  "figcaption", "figure", "footer", "form", "frame", "frameset", "h1", "h2", "h3", "h4", "h5",
  "h6", "head", "header", "hr", "html", "iframe", "legend", "li", "link", "main", "menu",
  "menuitem", "nav", "noframes", "ol", "optgroup", "option", "p", "param", "search", "section",
  "summary", "table", "tbody", "td", "tfoot", "th", "thead", "title", "tr", "track", "ul" ]

/-- Elements whose content is raw, each with the tag that ends it. -/
def rawElements : List (String × String) :=
  [("pre", "</pre>"), ("style", "</style>"), ("script", "</script>"),
    ("textarea", "</textarea>")]

/-- The rest of a text behind a name in any letter case. -/
def stripName? (name : String) (s : List Char) : Option (List Char) :=
  let length := name.length
  if (s.take length).map Char.toLower = name.toList then some (s.drop length) else none

/-- What ends the HTML block that begins behind an angle bracket, if it ends with a mark of its
own. -/
def endMark? (s : List Char) : Option (List Char) :=
  let raw := rawElements.find? fun (name, _) =>
    match stripName? name s with
    | some [] => true
    | some (c :: _) => isAsciiBlank c || c == '>'
    | none => false
  match raw with
  | some (_, mark) => some mark.toList
  | none =>
      match s with
      | '?' :: _ => some "?>".toList
      | '!' :: '-' :: '-' :: _ => some "-->".toList
      | '!' :: c :: _ =>
          if (strip? "![CDATA[".toList s).isSome then some "]]>".toList
          else if c.isAlpha then some ['>']
          else none
      | _ => none

/-- Whether a block element begins or ends behind an angle bracket. -/
def startsBlock (s : List Char) : Bool :=
  let named := if s.head? == some '/' then s.tail else s
  let name := named.takeWhile Char.isAlphanum
  blockNames.contains (String.ofList (name.map Char.toLower))
    && match named.drop name.length with
      | [] => true
      | '/' :: '>' :: _ => true
      | c :: _ => c == ' ' || c == '\t' || c == '>'

/-- Whether a line is one tag, given behind its angle bracket, and nothing else. -/
def isWholeLine (s : List Char) : Bool := ((tagRest? false s).map isBlankRest).getD false

end Publication.Markdown.HtmlTag
