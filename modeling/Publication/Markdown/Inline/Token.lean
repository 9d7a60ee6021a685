import Publication.Markdown.Entity
import Publication.Markdown.Line
import Publication.Text.Punctuation

/-!
Tokens of inline text: the marks that may mean something, and the text between them. Which marks do
is decided later; a token knows what its surroundings allow.
-/

namespace Publication.Markdown

open Publication.Text

/-- A mark in inline text. -/
inductive Mark where
  /-- Text that stands for itself. -/
  | text
  /-- Text that a character reference stands for. -/
  | reference (content : List Char)
  /-- A run of backticks. The flag tells that a backslash stands before it. -/
  | ticks (width : Nat) (escaped : Bool)
  /-- A dollar sign, with the group of braces that it stands in. -/
  | dollar (canOpen canClose : Bool) (group : Nat)
  /-- A run of marks that emphasize. -/
  | run (mark : Char) (width : Nat) (canOpen canClose : Bool)
  | angle
  | bracket (image : Bool)
  | close
  | softBreak
  | hardBreak (backslash : Bool)
deriving Repr, DecidableEq

/-- A mark and the stretch of text that it takes up. -/
structure Token where
  mark : Mark
  start : Nat
  stop : Nat
  /-- The text from `start` on. -/
  source : List Char
deriving Repr

def Token.text (token : Token) : List Char := token.source.take (token.stop - token.start)

/-- The groups of braces that a place stands in, innermost first, and the number of the next one.
No group is kept before the first dollar sign. -/
structure Braces where
  stack : List Nat := []
  next : Nat := 0

namespace Braces

/-- Groups nested deeper than this are no longer told apart. -/
def maxDepth : Nat := 25

/-- The number of the outermost group. -/
def outermost : Nat := 255

/-- After an opening brace. -/
def opened (b : Braces) : Braces :=
  if b.stack.length = maxDepth then ⟨b.next % 256 :: b.stack, maxDepth⟩
  else if maxDepth < b.stack.length then { b with next := b.next + 1 }
  else if b.stack.isEmpty then b
  else ⟨b.next % 256 :: b.stack, b.next + 1⟩

/-- After a closing brace. One that closes nothing begins a new outermost group. -/
def closed (b : Braces) : Braces :=
  match b.stack with
  | [] => b
  | [_] => ⟨[b.next % 256], b.next + 1⟩
  | _ :: rest =>
      if maxDepth < b.stack.length then
        let next := b.next - 1
        if next = maxDepth then ⟨rest, next⟩ else { b with next := next }
      else { b with stack := rest }

/-- The group of a dollar sign, and the groups behind it. -/
def atDollar (b : Braces) : Nat × Braces :=
  if maxDepth < b.stack.length then (b.next % 256, b)
  else
    match b.stack with
    | group :: _ => (group, b)
    | [] => (outermost, { b with stack := [outermost] })

end Braces

namespace Token

/-- Whether a run of marks between two characters can open emphasis. -/
def canOpen (mark : Char) (width : Nat) (before after : Option Char) : Bool :=
  match after with
  | none => false
  | some next =>
      if isBlank next then false
      else
        match before with
        | none => true
        | some prev =>
            (mark == '*' && !isPunctuation next) || (mark == '~' && 1 < width)
              || (mark == '~' && prev == '~' && !isPunctuation next)
              || isBlank prev || isPunctuation prev

/-- Whether a run of marks between two characters can close emphasis. -/
def canClose (mark : Char) (width : Nat) (before after : Option Char) : Bool :=
  match before with
  | none => false
  | some prev =>
      if isBlank prev then false
      else
        match after with
        | none => true
        | some next =>
            ((mark == '*' || (mark == '~' && 1 < width)) && !isPunctuation prev)
              || (mark == '~' && prev == '~') || isBlank next || isPunctuation next

/-- Where the reading of tokens stands. -/
structure Place where
  pos : Nat := 0
  /-- The character before. -/
  prev : Option Char := none
  /-- Start of the text read since the last token, and the source from there. -/
  textStart : Nat := 0
  textSource : List Char
  /-- Whether that text begins with a character that a backslash stands before. -/
  escaped : Bool := false
  braces : Braces := {}
  /-- Whether nothing but spaces stands before the place in its line. -/
  lineStart : Bool := true

namespace Place

/-- The text since the last token, as a token. -/
def pending (p : Place) : List Token :=
  if p.textStart < p.pos then [⟨.text, p.textStart, p.pos, p.textSource⟩] else []

/-- The text since the last token without the blanks that it ends with, and how many they are. -/
def trimmed (p : Place) : List Token × Nat :=
  let text := p.textSource.take (p.pos - p.textStart)
  let blanks := countWhile isInlineBlank text.reverse
  ({ p with pos := p.pos - blanks }.pending, blanks)

/-- Whether the text since the last token ends with a backslash that is not escaped. -/
def isAfterBackslash (p : Place) : Bool :=
  let text := p.textSource.take (p.pos - p.textStart)
  countWhile (· == '\\') (if p.escaped then text.tail else text).reverse % 2 == 1

/-- The place behind `n` characters of text. -/
def skip (p : Place) (n : Nat) (s : List Char) : Place :=
  { p with pos := p.pos + n, prev := s[n - 1]?, lineStart := false }

/-- The place behind a token of `n` characters. -/
def behind (p : Place) (n : Nat) (s : List Char) : Place :=
  { p.skip n s with textStart := p.pos + n, textSource := s.drop n, escaped := false }

end Place

/-- The tokens of a text, given enough fuel for its length. -/
def readFrom : (fuel : Nat) → Place → List Char → List Token
  | 0, p, _ => p.trimmed.1
  | _ + 1, p, [] => p.trimmed.1
  | fuel + 1, p, c :: rest =>
      let s := c :: rest
      let emit (mark : Mark) (n : Nat) : List Token :=
        p.pending ++ ⟨mark, p.pos, p.pos + n, s⟩ :: readFrom fuel (p.behind n s) (s.drop n)
      let pass (n : Nat) : List Token := readFrom fuel (p.skip n s) (s.drop n)
      if isBreak c then
        let width := if c == '\r' && rest.head? == some '\n' then 2 else 1
        let (text, blanks) := p.trimmed
        let spaces := countWhile isSpace (s.drop width)
        let n := width + spaces
        let next := { p.behind n s with lineStart := true, prev := some '\n' }
        if p.isAfterBackslash then
          { p with pos := p.pos - 1 }.pending
            ++ ⟨.hardBreak true, p.pos - 1, p.pos + width, s⟩ :: readFrom fuel next (s.drop n)
        else
          let mark := if 2 ≤ blanks then Mark.hardBreak false else .softBreak
          text ++ ⟨mark, p.pos - blanks, p.pos + width, s⟩ :: readFrom fuel next (s.drop n)
      else if c == '\\' then
        match rest with
        | d :: more =>
            if isAsciiPunctuation d then
              if d == '\x60' then
                let n := 1 + countWhile (· == d) more
                p.pending ++ ⟨.ticks n true, p.pos + 1, p.pos + 1 + n, rest⟩
                  :: readFrom fuel (p.behind (n + 1) s) (s.drop (n + 1))
              else
                let after :=
                  { p.skip 2 s with textStart := p.pos + 1, textSource := rest, escaped := true }
                p.pending ++ readFrom fuel after more
            else pass 1
        | [] => pass 1
      else if c == '*' || c == '_' || c == '~' then
        let n := countWhile (· == c) s
        let after := s[n]?
        let opens := canOpen c n p.prev after
        let closes := canClose c n p.prev after
        if (opens || closes) && (c != '~' || n ≤ 2) then emit (.run c n opens closes) n else pass n
      else if c == '$' then
        let (group, braces) := p.braces.atDollar
        let opens := (rest.head?.map fun d => !isAsciiBlank d).getD false
        let closes := !p.lineStart && (p.prev.map fun d => !isAsciiBlank d).getD false
        p.pending ++ ⟨.dollar opens closes group, p.pos, p.pos + 1, s⟩
          :: readFrom fuel { p.behind 1 s with braces := braces } rest
      else if c == '\x7b' then readFrom fuel { p.skip 1 s with braces := p.braces.opened } rest
      else if c == '\x7d' then readFrom fuel { p.skip 1 s with braces := p.braces.closed } rest
      else if c == '\x60' then
        let n := countWhile (· == c) s
        emit (.ticks n false) n
      else if c == '<' && rest.head? != some '\\' then emit .angle 1
      else if c == '!' && rest.head? == some '[' then emit (.bracket true) 2
      else if c == '[' then emit (.bracket false) 1
      else if c == ']' then emit .close 1
      else if c == '&' then
        match Entity.scan? s with
        | some (content, n) => emit (.reference content) n
        | none => pass 1
      else pass 1

/-- The tokens of a text, without the spaces it begins with. -/
def ofText (s : List Char) : List Token :=
  let text := s.dropWhile isSpace
  readFrom (text.length + 1) { textSource := text } text

/-- The tokens without the last `n` characters of the last one, which may be all it has. -/
def cutEnd (n : Nat) : List Token → List Token
  | [] => []
  | [token] => [{ token with stop := token.stop - n }]
  | token :: rest => token :: cutEnd n rest

/-- The tokens of a heading. What closes it is cut off the last one. -/
def ofHeading (s closing : List Char) : List Token :=
  if closing.isEmpty then ofText s else cutEnd closing.length (ofText (s ++ closing))

end Token
end Publication.Markdown
