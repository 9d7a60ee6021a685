import Publication.Shell.Token

/-!
Integer expressions. Operators bind in levels, and those of one level to the left; a name stands for
the value of a variable, and a comparison for one or zero.
-/

namespace Publication.Shell

/-- An operator on two integers. -/
structure Operator where
  sign : String
  apply : Int → Int → Option Int

/-- One for what holds, and zero for what does not. -/
def truth (holds : Bool) : Int := if holds then 1 else 0

/-- Division that fails by zero and otherwise goes toward it. -/
def divide (operation : Int → Int → Int) (a b : Int) : Option Int :=
  if b = 0 then none else some (operation a b)

/-- The operators from the loosest level to the tightest. A sign that begins another one comes
behind it. -/
def operatorLevels : List (List Operator) := [
  [⟨"||", fun a b => some (truth (a != 0 || b != 0))⟩],
  [⟨"&&", fun a b => some (truth (a != 0 && b != 0))⟩],
  [⟨"==", fun a b => some (truth (a == b))⟩, ⟨"!=", fun a b => some (truth (a != b))⟩],
  [⟨"<=", fun a b => some (truth (a ≤ b))⟩, ⟨">=", fun a b => some (truth (b ≤ a))⟩,
   ⟨"<", fun a b => some (truth (a < b))⟩, ⟨">", fun a b => some (truth (b < a))⟩],
  [⟨"+", fun a b => some (a + b)⟩, ⟨"-", fun a b => some (a - b)⟩],
  [⟨"*", fun a b => some (a * b)⟩, ⟨"/", divide Int.tdiv⟩, ⟨"%", divide Int.tmod⟩]]

/-- A text without the blanks that it begins with. -/
def skipBlanks (text : List Char) : List Char :=
  text.dropWhile fun c => c = ' ' || c = '\t' || c = '\n'

/-- The operator of a level that a text begins with, and what is behind it. -/
def operatorOf? (level : List Operator) (text : List Char) : Option (Operator × List Char) :=
  (level.find? fun op => op.sign.toList.isPrefixOf text).map fun op =>
    (op, text.drop op.sign.length)

/-- The integer that a text stands for. An empty text stands for zero. -/
def integer? (text : String) : Option Int :=
  if text.isEmpty then some 0
  else
    match text.toList with
    | '-' :: digits => (String.ofList digits).toNat?.map fun n => -(n : Int)
    | _ => text.toNat?.map fun n => (n : Int)

mutual

/-- An expression of the operators of some levels. -/
def levelled (value : String → String) :
    Nat → List (List Operator) → List Char → Option (Int × List Char)
  | 0, _, _ => none
  | fuel + 1, [], text =>
      match skipBlanks text with
      | '(' :: rest => do
          let (n, rest) ← levelled value fuel operatorLevels rest
          match skipBlanks rest with
          | ')' :: rest => return (n, rest)
          | _ => none
      | '-' :: rest => (levelled value fuel [] rest).map fun (n, rest) => (-n, rest)
      | '+' :: rest => levelled value fuel [] rest
      | '!' :: rest => (levelled value fuel [] rest).map fun (n, rest) => (truth (n == 0), rest)
      | c :: rest =>
          if c.isDigit then do
            let digits := (c :: rest).takeWhile Char.isDigit
            let n ← (String.ofList digits).toNat?
            return (n, (c :: rest).dropWhile Char.isDigit)
          else if isNameStart c then do
            let n ← integer? (value (String.ofList ((c :: rest).takeWhile isNameChar)))
            return (n, rest.dropWhile isNameChar)
          else none
      | [] => none
  | fuel + 1, level :: tighter, text => do
      let (first, rest) ← levelled value fuel tighter text
      levelledRest value fuel level tighter first rest

/-- The rest of an expression behind its first operand. -/
def levelledRest (value : String → String) :
    Nat → List Operator → List (List Operator) → Int → List Char → Option (Int × List Char)
  | 0, _, _, _, _ => none
  | fuel + 1, level, tighter, first, text =>
      match operatorOf? level (skipBlanks text) with
      | some (op, rest) => do
          let (second, rest) ← levelled value fuel tighter rest
          levelledRest value fuel level tighter (← op.apply first second) rest
      | none => some (first, text)

end

/-- The value of an expression, given those of the variables. -/
def evaluate? (value : String → String) (expression : List Char) : Option Int :=
  match levelled value (16 * expression.length + 16) operatorLevels expression with
  | some (n, rest) => if (skipBlanks rest).isEmpty then some n else none
  | none => if (skipBlanks expression).isEmpty then some 0 else none

end Publication.Shell
