/-!
Numbers of the format binary64: a sign, and a magnitude of 53 significant bits. Exact quotients are
rounded to the nearest such number, and to the one with the even significand where two are as near.
-/

namespace Publication.Number

/-- A magnitude `significand * 2 ^ exponent`. -/
structure Magnitude where
  significand : Nat
  exponent : Int
deriving Repr, DecidableEq, Inhabited

/-- A number of the format. -/
inductive Binary64 where
  | finite (negative : Bool) (magnitude : Magnitude)
  | infinite (negative : Bool)
  | nan
deriving Repr, DecidableEq, Inhabited

/-- The quotient `n / d` rounded to the nearest integer, and to the even one of two. -/
def roundQuotient (n d : Nat) : Nat :=
  let q := n / d
  let twice := 2 * (n % d)
  if d < twice || (twice == d && q % 2 == 1) then q + 1 else q

/-- A quotient of natural numbers times a power of two, as a quotient. -/
def scaleQuotient (n d : Nat) (power : Int) : Nat × Nat :=
  match power with
  | .ofNat p => (n * Nat.pow 2 p, d)
  | .negSucc p => (n, d * Nat.pow 2 (p + 1))

/-- The exponent at which the quotient `n / d` has 53 bits before its point. -/
def exponentOf (n d : Nat) : Int :=
  let guess : Int := (n.log2 : Int) - (d.log2 : Int) - 52
  let (top, bottom) := scaleQuotient n d (-guess)
  let exact := if top / bottom < Nat.pow 2 52 then guess - 1 else guess
  max exact (-1074)

/-- The magnitude nearest to the quotient `n / d`, or nothing where that is too large. -/
def nearest? (n d : Nat) : Option Magnitude :=
  if n = 0 || d = 0 then some ⟨0, -1074⟩
  else
    let exponent := exponentOf n d
    let (top, bottom) := scaleQuotient n d (-exponent)
    let significand := roundQuotient top bottom
    let found : Magnitude :=
      if significand = Nat.pow 2 53 then ⟨Nat.pow 2 52, exponent + 1⟩ else ⟨significand, exponent⟩
    if 971 < found.exponent then none else some found

def Magnitude.quotient (m : Magnitude) : Nat × Nat := scaleQuotient m.significand 1 m.exponent

/-- The decimal number `digits * 10 ^ exponent` as a magnitude, or nothing where it is too large.
Exponents far outside the range are settled without a power of ten. -/
def ofDecimal? (digits : Nat) (exponent : Int) : Option Magnitude :=
  let size : Int := (Nat.toDigits 10 digits).length + exponent
  if digits = 0 || size < -400 then some ⟨0, -1074⟩
  else if 400 < size then none
  else
    match exponent with
    | .ofNat e => nearest? (digits * Nat.pow 10 e) 1
    | .negSucc e => nearest? digits (Nat.pow 10 (e + 1))

end Publication.Number
