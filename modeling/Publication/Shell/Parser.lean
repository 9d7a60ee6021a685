import Publication.Shell.Token

/-!
Reading a script from its tokens, by descent through the levels of the grammar: lists, conditional
lists, pipelines and single commands. Fuel bounds the depth of the descent.
-/

namespace Publication.Shell

/-- A command that has been read, and the tokens behind it. -/
abbrev Reading := Option (Command × List Token)

/-- The words that have a meaning of their own where a command may begin. -/
def reserved : List String :=
  ["if", "then", "elif", "else", "fi", "while", "until", "do", "done", "for", "case", "esac",
   "\x7b", "\x7d", "!"]

/-- The reserved words that end a list. -/
def closing : List String := ["then", "elif", "else", "fi", "do", "done", "esac", "\x7d"]

/-- The reserved word at the beginning of the tokens. -/
def keyword? : List Token → Option String
  | .word _ [.literal text false] :: _ => if text ∈ reserved then some text else none
  | _ => none

/-- The tokens behind a word that has to be there. -/
def expect (text : String) : List Token → Option (List Token)
  | .word _ [.literal t false] :: rest => if t = text then some rest else none
  | _ => none

def expectOperator (text : String) : List Token → Option (List Token)
  | .operator t :: rest => if t = text then some rest else none
  | _ => none

/-- The tokens behind line breaks and semicolons. -/
def skipBreaks : List Token → List Token
  | .operator "\n" :: rest => skipBreaks rest
  | .operator ";" :: rest => skipBreaks rest
  | tokens => tokens

def assignment? : Word → Option (String × Word)
  | .literal text false :: rest =>
      let name := text.toList.takeWhile (· ≠ '=')
      match text.toList.dropWhile (· ≠ '=') with
      | _ :: value =>
          if isName name then
            some (String.ofList name,
              (if value.isEmpty then [] else [.literal (String.ofList value) false]) ++ rest)
          else none
      | [] => none
  | _ => none

/-- The redirection of an operator and the word behind it. -/
def redirectionOf (stream : Option Nat) (operator : String) (word : Word) : Redirection :=
  if operator = "<" then ⟨stream.getD 0, .input word⟩
  else if operator = ">>" then ⟨stream.getD 1, .output word true⟩
  else if operator = ">&" then ⟨stream.getD 1, .stream word⟩
  else ⟨stream.getD 1, .output word false⟩

def redirections : List Token → List Redirection × List Token
  | .redirection stream operator :: .word _ word :: rest =>
      let (more, rest) := redirections rest
      (redirectionOf stream operator word :: more, rest)
  | tokens => ([], tokens)

/-- The words and redirections of a simple command, and what is behind them. -/
def simpleParts : List Token → List Word × List Redirection × List Token
  | .word _ pieces :: rest =>
      let (words, more, rest) := simpleParts rest
      (pieces :: words, more, rest)
  | .redirection stream operator :: .word _ word :: rest =>
      let (words, more, rest) := simpleParts rest
      (words, redirectionOf stream operator word :: more, rest)
  | tokens => ([], [], tokens)

/-- The assignments that a list of words begins with, and the words behind them. -/
def leadingAssignments : List Word → List (String × Word) × List Word
  | [] => ([], [])
  | word :: rest =>
      match assignment? word with
      | some assignment =>
          let (more, rest) := leadingAssignments rest
          (assignment :: more, rest)
      | none => ([], word :: rest)

/-- The words up to the end of a line. -/
def wordsUpToBreak : List Token → List Word × List Token
  | .word _ pieces :: rest =>
      let (words, rest) := wordsUpToBreak rest
      (pieces :: words, rest)
  | tokens => ([], tokens)

/-- The patterns of an arm of a choice, up to the bracket behind them. -/
def patterns : List Token → Option (List Word × List Token)
  | .word _ pattern :: .operator "|" :: rest =>
      (patterns rest).map fun (more, rest) => (pattern :: more, rest)
  | .word _ pattern :: .operator ")" :: rest => some ([pattern], rest)
  | _ => none

/-- A simple command. -/
def simple (tokens : List Token) : Reading :=
  let line := match tokens with
    | .word line _ :: _ => line
    | _ => 1
  let (words, redirections, rest) := simpleParts tokens
  if words.isEmpty && redirections.isEmpty then none
  else
    let (assignments, words) := leadingAssignments words
    some (.simple line assignments words redirections, rest)

/-- Lays redirections over a command. -/
def withRedirections : Reading → Reading
  | none => none
  | some (command, tokens) =>
      match redirections tokens with
      | ([], rest) => some (command, rest)
      | (found, rest) => some (.redirected command found, rest)

mutual

/-- A list of commands, up to a reserved word or an operator that ends it. -/
def list : Nat → List Token → Reading
  | 0, _ => none
  | fuel + 1, tokens =>
      match skipBreaks tokens with
      | [] => some (.nothing, [])
      | tokens =>
          if ((keyword? tokens).map (closing.contains ·)).getD false then some (.nothing, tokens)
          else if (expectOperator ")" tokens).isSome || (expectOperator ";;" tokens).isSome then
            some (.nothing, tokens)
          else do
            let (first, rest) ← conditional fuel tokens
            match rest with
            | .operator text :: behind =>
                if text ∈ ["\n", ";", "&"] then
                  let (more, rest) ← list fuel behind
                  return (.sequence first more, rest)
                else return (first, rest)
            | _ => return (first, rest)

/-- Pipelines that depend on how those before them end. -/
def conditional : Nat → List Token → Reading
  | 0, _ => none
  | fuel + 1, tokens => do
      let (first, rest) ← pipeline fuel tokens
      conditionalRest fuel first rest

/-- The rest of pipelines that depend on how those before them end. -/
def conditionalRest : Nat → Command → List Token → Reading
  | 0, _, _ => none
  | fuel + 1, first, .operator "&&" :: rest => do
      let (second, rest) ← pipeline fuel (skipBreaks rest)
      conditionalRest fuel (.both first second) rest
  | fuel + 1, first, .operator "||" :: rest => do
      let (second, rest) ← pipeline fuel (skipBreaks rest)
      conditionalRest fuel (.either first second) rest
  | _ + 1, first, rest => some (first, rest)

/-- Commands that read what those before them print. -/
def pipeline : Nat → List Token → Reading
  | 0, _ => none
  | fuel + 1, tokens =>
      match expect "!" tokens with
      | some rest => (pipeline fuel rest).map fun (command, rest) => (.inverse command, rest)
      | none => do
          let (first, rest) ← single fuel tokens
          match rest with
          | .operator "|" :: rest =>
              let (second, rest) ← pipeline fuel (skipBreaks rest)
              return (.pipe first second, rest)
          | rest => return (first, rest)

/-- A single command. -/
def single : Nat → List Token → Reading
  | 0, _ => none
  | fuel + 1, tokens =>
      match tokens with
      | .operator "(" :: rest => withRedirections do
          let (body, rest) ← list fuel rest
          return (.inside body, ← expectOperator ")" rest)
      | .word _ [.literal name false] :: .operator "(" :: .operator ")" :: rest => do
          let (body, rest) ← single fuel (skipBreaks rest)
          return (.define name body, rest)
      | _ =>
          match keyword? tokens with
          | some "if" => withRedirections (choice fuel (tokens.drop 1))
          | some "while" => withRedirections (repetition fuel false (tokens.drop 1))
          | some "until" => withRedirections (repetition fuel true (tokens.drop 1))
          | some "for" => withRedirections (iteration fuel (tokens.drop 1))
          | some "case" => withRedirections do
              match tokens.drop 1 with
              | .word _ subject :: rest =>
                  arms fuel subject (skipBreaks (← expect "in" (skipBreaks rest)))
              | _ => none
          | some "\x7b" => withRedirections do
              let (body, rest) ← list fuel (tokens.drop 1)
              return (body, ← expect "\x7d" rest)
          | some _ => none
          | none => simple tokens

/-- The condition and the branches of a choice. -/
def choice : Nat → List Token → Reading
  | 0, _ => none
  | fuel + 1, tokens => do
      let (condition, rest) ← list fuel tokens
      let (yes, rest) ← list fuel (← expect "then" rest)
      match keyword? rest with
      | some "elif" =>
          let (no, rest) ← choice fuel (rest.drop 1)
          return (.choice condition yes no, rest)
      | some "else" =>
          let (no, rest) ← list fuel (rest.drop 1)
          return (.choice condition yes no, ← expect "fi" rest)
      | _ => return (.choice condition yes .nothing, ← expect "fi" rest)

/-- The condition and the body of a loop. -/
def repetition : Nat → Bool → List Token → Reading
  | 0, _, _ => none
  | fuel + 1, negated, tokens => do
      let (condition, rest) ← list fuel tokens
      let (body, rest) ← list fuel (← expect "do" rest)
      return (.loop negated condition body, ← expect "done" rest)

/-- The name, the words and the body of a loop over words. -/
def iteration : Nat → List Token → Reading
  | 0, _ => none
  | fuel + 1, .word _ [.literal name false] :: rest => do
      let (words, rest) := match expect "in" (skipBreaks rest) with
        | some rest => wordsUpToBreak rest
        | none => ([[.parameter "@" .whole true]], rest)
      let (body, rest) ← list fuel (← expect "do" (skipBreaks rest))
      return (.each name words body, ← expect "done" rest)
  | _ + 1, _ => none

/-- The arms of a choice by patterns. -/
def arms : Nat → Word → List Token → Reading
  | 0, _, _ => none
  | fuel + 1, subject, tokens =>
      match expect "esac" tokens with
      | some rest => some (.nothing, rest)
      | none => do
          let (found, rest) ← patterns ((expectOperator "(" tokens).getD tokens)
          let (body, rest) ← list fuel rest
          let rest := (expectOperator ";;" rest).getD rest
          let (more, rest) ← arms fuel subject (skipBreaks rest)
          return (.arm subject found body more, rest)

end

/-- The command that a script is. -/
def parse? (script : List Char) : Option Command :=
  (tokens? script).bind fun tokens =>
    match list (8 * tokens.length + 8) tokens with
    | some (command, []) => some command
    | _ => none

end Publication.Shell
