import Publication.Markdown.Block
import Publication.Markdown.HtmlTag
import Publication.Markdown.Inline.Emphasis
import Publication.Markdown.Inline.Token

/-!
Reading inline text from its tokens, left to right: code, formulas, raw HTML and links take what
belongs to them; emphasis is paired last.
-/

namespace Publication.Markdown

open Publication.Text

/-- What inline text may refer to, by the normal form of the label: the targets of links, and
footnotes. -/
structure References where
  targets : List (List Char × Link.Target)
  footnotes : List (List Char)

/-- The references that the outline of a document allows. The first definition of a label counts. -/
def Outline.references (outline : Outline) : References :=
  ⟨outline.definitions.map fun d => (Link.labelKey d.label, d.target),
    outline.footnotes.map Link.labelKey⟩

namespace References

/-- The target of a label. -/
def target? (refs : References) (label : List Char) : Option Link.Target :=
  (refs.targets.find? (·.1 = Link.labelKey label)).map (·.2)

def isFootnote (refs : References) (label : List Char) : Bool :=
  refs.footnotes.contains (Link.labelKey label)

end References

namespace InlineReader

/-- What has been read: a piece, or an opening bracket, after which the text of a link may stand. A
bracket that can no longer open a link is not active. -/
inductive Item where
  | piece (content : Piece)
  | bracket (image active : Bool) (source : List Char)

/-- A bracket that opened nothing is text. -/
def bracketText (image : Bool) : Inline := .text (if image then "![".toList else ['['])

def Item.toPiece : Item → Piece
  | .piece p => p
  | .bracket image _ _ => .element (bracketText image)

/-- An item of an element. -/
def Item.ofInline (element : Inline) : Item := .piece (.element element)

/-- The tokens that are left behind a position. A token that reaches over it is cut. -/
def tokensFrom (pos : Nat) : List Token → List Token
  | [] => []
  | token :: rest =>
      if token.stop ≤ pos then tokensFrom pos rest
      else if token.start < pos then
        ⟨token.mark, pos, token.stop, token.source.drop (pos - token.start)⟩ :: rest
      else token :: rest

/-- The text of a code span. A line break is a space for each of its characters, and one space at
either end is left out unless there is nothing but spaces. -/
def codeText (s : List Char) : List Char :=
  let text := s.map fun c => if isBreak c then ' ' else c
  if text.all (· == ' ') then text
  else
    match text with
    | ' ' :: rest => if rest.getLast? == some ' ' then rest.dropLast else text
    | _ => text

/-- The tokens from the run of `width` backticks that closes a code span. -/
def closingTicks (width : Nat) : List Token → Option (Token × List Token)
  | [] => none
  | token :: rest =>
      match token.mark with
      | .ticks n _ => if n = width then some (token, rest) else closingTicks width rest
      | _ => closingTicks width rest

/-- Whether a dollar sign comes next. -/
def dollarNext (tokens : List Token) : Bool :=
  match tokens with
  | ⟨.dollar _ _ _, _, _, _⟩ :: _ => true
  | _ => false

/-- The tokens from the next dollar sign of a group, if it closes a formula: one that displays by a
second sign behind it, another one by itself. -/
def closingDollar (display : Bool) (group : Nat) : List Token → Option (Token × List Token)
  | [] => none
  | token :: rest =>
      match token.mark with
      | .dollar _ canClose g =>
          if g = group then
            if (if display then dollarNext rest else canClose) then some (token, rest) else none
          else closingDollar display group rest
      | _ => closingDollar display group rest

/-- The stretch of text from the end of one token to the start of another. -/
def between (first last : Token) : List Char :=
  (first.source.drop (first.stop - first.start)).take (last.start - first.stop)

/-- The formula that a dollar sign opens, and the tokens behind it. -/
def formula? (token : Token) (canOpen : Bool) (group : Nat) (rest : List Token)
    : Option (Inline × List Token) :=
  if !canOpen then none
  else
    match rest with
    | second :: inner =>
        if dollarNext rest then
          (closingDollar true group inner).map fun (last, behind) =>
            (.math true (between second last), behind.tail)
        else
          (closingDollar false group rest).map fun (last, behind) =>
            (.math false (between token last), behind)
    | [] => none

/-- The length of a URI between angle brackets: a scheme of two to thirty-two characters, a colon,
and no blank nor angle bracket. -/
def uriLength? (s : List Char) : Option Nat :=
  let scheme := s.takeWhile fun c => c.isAlphanum || ".-+".toList.contains c
  let rest := s.drop scheme.length
  match rest with
  | ':' :: path =>
      let body := path.takeWhile fun c => 0x20 < c.toNat && c != '<' && c != '>'
      if (scheme.head?.map Char.isAlpha).getD false && 2 ≤ scheme.length && scheme.length ≤ 32
          && (path.drop body.length).head? == some '>' then
        some (scheme.length + 1 + body.length)
      else none
  | _ => none

/-- A character of the part of a mail address before the sign. -/
def isMailChar (c : Char) : Bool :=
  c.isAlphanum || ".!#$%&\x27*+/=?^_\x60\x7b|\x7d~-".toList.contains c

/-- The length of the labels of a mail address, with dots between, before an angle bracket. -/
def domainLength? : (fuel : Nat) → List Char → Option Nat
  | 0, _ => none
  | fuel + 1, s =>
      let label := s.takeWhile fun c => c.isAlphanum || c == '-'
      let valid := !label.isEmpty && label.length ≤ 63 && label.head? != some '-'
        && label.getLast? != some '-'
      if !valid then none
      else
        match s.drop label.length with
        | '.' :: more => (domainLength? fuel more).map (· + label.length + 1)
        | '>' :: _ => some label.length
        | _ => none

/-- The length of a mail address between angle brackets. -/
def mailLength? (s : List Char) : Option Nat :=
  let user := s.takeWhile isMailChar
  match s.drop user.length with
  | '@' :: domain =>
      if user.isEmpty then none
      else (domainLength? (domain.length + 1) domain).map (· + user.length + 1)
  | _ => none

/-- An address between angle brackets, given behind the first one, and its length. -/
def autolink? (s : List Char) : Option (Inline × Nat) :=
  let link (kind : LinkKind) (n : Nat) : Inline × Nat :=
    let address := s.take n
    (.link false kind (String.ofList address) "" "" [.text address], n)
  ((uriLength? s).map (link .autolink)).or ((mailLength? s).map (link .email))

/-- Splits what has been read, latest first, at the latest bracket: the pieces behind it in order,
whether it is an image, whether it is active, the text from it on, and what is before it. -/
def splitAtBracket :
    List Piece → List Item → Option (List Piece × (Bool × Bool × List Char) × List Item)
  | _, [] => none
  | behind, .piece p :: before => splitAtBracket (p :: behind) before
  | behind, .bracket image active source :: before => some (behind, (image, active, source), before)

/-- No bracket can open a link any more; one of an image still opens its image. -/
def deactivateLinks : List Item → List Item :=
  List.map fun
    | .bracket false _ source => .bracket false false source
    | item => item

/-- All brackets read so far are text. -/
def settleBrackets (items : List Item) : List Item := items.map fun item => .piece item.toPiece

/-- A label between brackets: of a footnote, or of a link. -/
inductive Label where
  | footnote (label : List Char)
  | link (label : List Char)

/-- The label that a text begins with, and what is behind it. -/
def label? (s : List Char) : Option (Label × List Char) :=
  match s with
  | '[' :: rest =>
      let footnote := match rest with
        | '^' :: inner => if inner.head? == some ']' then none else Link.label? false inner
        | _ => none
      match footnote with
      | some (label, behind) => some (.footnote label, behind)
      | none => (Link.label? true rest).map fun (label, behind) => (.link label, behind)
  | _ => none

/-- How a link by reference is written behind its text: the kind, the label if it is given there,
and the number of characters. -/
def referenceTail (s : List Char) : LinkKind × Option (List Char) × Nat :=
  match s with
  | '[' :: ']' :: _ => (.collapsed, none, 2)
  | _ =>
      match label? s with
      | some (.link label, behind) => (.reference, some label, s.length - behind.length)
      | _ => (.shortcut, none, 0)

/-- What a closing bracket does with what was read: the items after it, and the position behind
what it takes. -/
def closeBracket (refs : References) (token : Token) (items : List Item) : List Item × Nat :=
  let plain := Item.ofInline (.text [']'])
  match splitAtBracket [] items with
  | none => (plain :: items, token.stop)
  | some (inner, (image, active, source), before) =>
      let opened := Item.ofInline (bracketText image)
      let failed :=
        (plain :: ((inner.map Item.piece).reverse ++ opened :: before), token.stop)
      if !active then failed
      else
        let behind := token.source.tail
        let before' := if image then before else deactivateLinks before
        let link (kind : LinkKind) (target : Link.Target) (id : String) (stop : Nat) :=
          (Item.ofInline (.link image kind target.dest target.title id (Emphasis.resolve inner))
            :: before', stop)
        match Link.inline? behind with
        | some (target, left) =>
            link .inline target "" (token.stop + (behind.length - left.length))
        | none =>
            let (kind, given, taken) := referenceTail behind
            let own := (label? source).bind fun (label, left) =>
              if left.length = behind.length then some label else none
            match given.map Label.link |>.or own with
            | some (.footnote label) =>
                if refs.isFootnote label then
                  let marked := if image then Item.ofInline (.text ['!']) :: before else before
                  (Item.ofInline (.footnote label) :: settleBrackets marked, token.stop)
                else failed
            | some (.link label) =>
                match refs.target? label with
                | some target => link kind target (String.ofList label) (token.stop + taken)
                | none => failed
            | none => failed

/-- Reads tokens, given enough fuel for their number. The items are those read before, latest
first. -/
def readFrom (refs : References) : (fuel : Nat) → List Token → List Item → List Item
  | 0, _, items => items
  | _ + 1, [], items => items
  | fuel + 1, token :: rest, items =>
      let next := readFrom refs fuel
      let keep (element : Inline) := next rest (Item.ofInline element :: items)
      match token.mark with
      | .text => keep (.text token.text)
      | .reference content => keep (.text content)
      | .softBreak => keep .softBreak
      | .hardBreak backslash => keep (.hardBreak backslash)
      | .run mark width canOpen canClose =>
          next rest (.piece (.run ⟨mark, width, canOpen, canClose⟩) :: items)
      | .ticks width escaped =>
          let needed := if escaped then width - 1 else width
          match if needed = 0 then none else closingTicks needed rest with
          | some (last, behind) =>
              let code := Item.ofInline (.code (codeText (between token last)))
              let tick := Item.ofInline (.text ['\x60'])
              next behind (if escaped then code :: tick :: items else code :: items)
          | none => keep (.text token.text)
      | .dollar canOpen _ group =>
          match formula? token canOpen group rest with
          | some (element, behind) => next behind (Item.ofInline element :: items)
          | none => keep (.text token.text)
      | .angle =>
          let inner := token.source.tail
          match if rest.isEmpty then none else autolink? inner with
          | some (element, n) =>
              next (tokensFrom (token.stop + n + 1) rest) (Item.ofInline element :: items)
          | none =>
              match if rest.isEmpty then none else HtmlTag.inlineRest? inner with
              | some left =>
                  let n := inner.length - left.length
                  let element := Inline.html (token.source.take (n + 1))
                  next (tokensFrom (token.stop + n) rest) (Item.ofInline element :: items)
              | none => keep (.text token.text)
      | .bracket image =>
          let source := if image then token.source.tail else token.source
          next rest (.bracket image true source :: items)
      | .close =>
          let (items, stop) := closeBracket refs token items
          next (tokensFrom stop rest) items

end InlineReader

namespace Inline

def ofTokens (refs : References) (tokens : List Token) : List Inline :=
  let items := InlineReader.readFrom refs (tokens.length + 1) tokens []
  Emphasis.resolve (items.reverse.map InlineReader.Item.toPiece)

def ofText (refs : References) (s : List Char) : List Inline := ofTokens refs (Token.ofText s)

/-- The inline elements of a heading. -/
def ofHeading (refs : References) (s closing : List Char) : List Inline :=
  ofTokens refs (Token.ofHeading s closing)

end Inline
end Publication.Markdown
