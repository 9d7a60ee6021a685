import Publication.Markdown.Inline

/-!
Emphasis: runs of marks are paired, each closing run with the nearest opening run that fits.
-/

namespace Publication.Markdown

/-- A run of marks among inline elements. -/
structure Run where
  mark : Char
  width : Nat
  canOpen : Bool
  canClose : Bool
deriving Repr, DecidableEq

/-- An inline element, or a run of marks of which it is not known yet what it does. -/
inductive Piece where
  | element (element : Inline)
  | run (run : Run)
deriving Repr

namespace Emphasis

/-- A run that has been opened, with the elements before it in the same container, latest first. -/
structure Opener where
  mark : Char
  /-- Marks that are left to be paired. -/
  count : Nat
  /-- Marks of the whole run. -/
  width : Nat
  both : Bool
  before : List Inline

/-- Heights of the stack of openers below which no opener fits, by kind of the closing run. -/
structure Floors where
  underscoreOneWay : Nat := 0
  asteriskOneWay : Nat := 0
  asterisk : Nat → Nat := fun _ => 0
  tilde : Nat := 0
  underscore : Nat → Nat := fun _ => 0

namespace Floors

/-- The height below which no opener fits a closing run. -/
def get (f : Floors) (mark : Char) (width : Nat) (both : Bool) : Nat :=
  if mark = '_' then
    if both then f.underscore (width % 3) else min (f.underscore (width % 3)) f.underscoreOneWay
  else if mark = '*' then
    if both then f.asterisk (width % 3) else min (f.asterisk (width % 3)) f.asteriskOneWay
  else f.tilde

/-- Notes that no opener below a height fits a closing run. -/
def set (f : Floors) (mark : Char) (width : Nat) (both : Bool) (height : Nat) : Floors :=
  let raise (g : Nat → Nat) : Nat → Nat := fun k => if k = width % 3 then height else g k
  if mark = '_' then
    if both then { f with underscore := raise f.underscore }
    else { f with underscoreOneWay := height }
  else if mark = '*' then
    let f := { f with asterisk := raise f.asterisk }
    if both then f else { f with asteriskOneWay := height }
  else { f with tilde := height }

/-- The heights after the stack has been cut down to one. -/
def lower (f : Floors) (height : Nat) : Floors :=
  ⟨min f.underscoreOneWay height, min f.asteriskOneWay height,
    fun k => min (f.asterisk k) height, min f.tilde height, fun k => min (f.underscore k) height⟩

end Floors

/-- Where the pairing stands: the openers, innermost first, and the elements behind the innermost
one, latest first. -/
structure State where
  openers : List Opener := []
  current : List Inline := []
  floors : Floors := {}

/-- Marks that emphasize nothing, one text each. -/
def marks (mark : Char) (count : Nat) : List Inline := List.replicate count (.text [mark])

/-- Gives up the innermost `n` openers: their marks are text. -/
def giveUp : Nat → State → State
  | 0, s => s
  | n + 1, s =>
      match s.openers with
      | [] => s
      | o :: rest =>
          giveUp n
            { s with openers := rest, current := s.current ++ marks o.mark o.count ++ o.before }

/-- Whether a closing run fits an opener. If one of them can do both, their widths must not add up
to a multiple of three, unless both widths are such multiples. -/
def fits (close : Run) (both : Bool) (o : Opener) : Bool :=
  o.mark == close.mark && !(close.mark == '~' && close.width != o.width)
    && ((!both && !o.both) || (close.width + o.width) % 3 != 0 || close.width % 3 == 0)

/-- The position of the innermost opener that fits, among those from a height on. -/
def findOpener (s : State) (close : Run) (both : Bool) : Option Nat :=
  let floor := min s.openers.length (s.floors.get close.mark close.width both)
  ((s.openers.take (s.openers.length - floor)).findIdx? (fits close both))

def style (mark : Char) (double : Bool) : Style :=
  if mark = '~' then .strikethrough else if double then .strong else .emphasis

/-- Wraps elements in `count` marks on either side, two at a time from the inside. -/
def wrap (mark : Char) : Nat → List Inline → List Inline
  | 0, inner => inner
  | 1, inner => [.styled (style mark false) inner]
  | count + 2, inner => wrap mark count [.styled (style mark true) inner]

/-- Pairs a closing run with openers until none fits or all its marks are paired, and tells how
many marks are left. -/
def closeRun (close : Run) (both : Bool) : (fuel : Nat) → State → Nat → State × Nat
  | 0, s, count => (s, count)
  | _ + 1, s, 0 => (s, 0)
  | fuel + 1, s, count =>
      match findOpener s close both with
      | none =>
          let height := s.openers.length
          ({ s with floors := s.floors.set close.mark close.width both height }, count)
      | some depth =>
          let s := giveUp depth s
          match s.openers with
          | [] => (s, count)
          | o :: rest =>
              let used := min count o.count
              let element := wrap o.mark used s.current.reverse
              let s : State :=
                if used < o.count then
                  { s with openers := { o with count := o.count - used } :: rest,
                           current := element, floors := s.floors.lower rest.length }
                else
                  { s with openers := rest, current := element ++ o.before,
                           floors := s.floors.lower rest.length }
              closeRun close both fuel s (count - used)

/-- Takes the next piece. -/
def step (s : State) : Piece → State
  | .element e => { s with current := e :: s.current }
  | .run run =>
      let both := run.canOpen && run.canClose
      let (s, left) :=
        if run.canClose then closeRun run both (run.width + 1) s run.width else (s, run.width)
      if left = 0 then s
      else if run.canOpen then
        { s with
          openers := ⟨run.mark, left, run.width, both, s.current⟩ :: s.openers, current := [] }
      else { s with current := marks run.mark left ++ s.current }

/-- A break by a backslash at the very end is no break. -/
def finishBreak : List Inline → List Inline
  | .hardBreak true :: before => .text ['\\'] :: before
  | elements => elements

/-- The elements of pieces in order, with their emphasis. -/
def resolve (pieces : List Piece) : List Inline :=
  let s := pieces.foldl step {}
  (finishBreak (giveUp s.openers.length s).current).reverse

end Emphasis
end Publication.Markdown
