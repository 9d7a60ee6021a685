/-!
Patterns: `*` stands for any text, `?` for one character, and brackets for one of the characters
between them. A backslash takes the meaning from the character behind it.
-/

namespace Publication.Shell

/-- A pattern for a text that stands for itself. -/
def guarded (text : List Char) : List Char := text.flatMap fun c => ['\\', c]

/-- Whether a character is one of those listed, singly or by range. -/
def isListed (c : Char) : List Char → Bool
  | a :: '-' :: b :: rest => (a ≤ c && c ≤ b) || isListed c rest
  | a :: rest => a == c || isListed c rest
  | [] => false

/-- Whether a whole text matches a pattern. The fuel bounds the length of the pattern. -/
def matchesWithin : Nat → List Char → List Char → Bool
  | 0, pattern, text => pattern.isEmpty && text.isEmpty
  | _ + 1, [], text => text.isEmpty
  | fuel + 1, '*' :: rest, text =>
      (List.range (text.length + 1)).any fun n => matchesWithin fuel rest (text.drop n)
  | fuel + 1, '?' :: rest, _ :: text => matchesWithin fuel rest text
  | fuel + 1, '\\' :: c :: rest, d :: text => c == d && matchesWithin fuel rest text
  | fuel + 1, '[' :: rest, d :: text =>
      let inner := rest.takeWhile (· ≠ ']')
      let listed := match inner with
        | '!' :: inner => !isListed d inner
        | inner => isListed d inner
      listed && matchesWithin fuel ((rest.dropWhile (· ≠ ']')).drop 1) text
  | fuel + 1, c :: rest, d :: text => c == d && matchesWithin fuel rest text
  | _ + 1, _ :: _, [] => false

def isMatch (pattern text : List Char) : Bool := matchesWithin (pattern.length + 1) pattern text

/-- A text without its shortest or longest beginning that matches. -/
def withoutStart (longest : Bool) (pattern text : List Char) : List Char :=
  let lengths := List.range (text.length + 1)
  let found := (if longest then lengths.reverse else lengths).find? fun n =>
    isMatch pattern (text.take n)
  text.drop (found.getD 0)

/-- A text without its shortest or longest end that matches. -/
def withoutEnd (longest : Bool) (pattern text : List Char) : List Char :=
  let lengths := List.range (text.length + 1)
  let found := (if longest then lengths else lengths.reverse).find? fun n =>
    isMatch pattern (text.drop n)
  text.take (found.getD text.length)

end Publication.Shell
