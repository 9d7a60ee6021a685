/-!
Transliteration to ASCII. It is taken from outside: nothing here depends on how a character outside
ASCII is spelled.
-/

namespace Publication

/-- How text is spelled in ASCII. Letters, digits, signs and blanks of ASCII stand for
themselves. -/
class Transliteration where
  toAscii : List Char → List Char
  toAscii_eq_self : ∀ s : List Char, (∀ c ∈ s, c.toNat < 0x7F) → toAscii s = s

end Publication
