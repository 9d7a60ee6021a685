import Publication.Number.Binary64

/-!
Decimal text of numbers: the fewest digits that read back as the number, and of those the nearest.
-/

namespace Publication.Number

/-- A decimal number `digits * 10 ^ exponent`. -/
structure Decimal where
  digits : Nat
  exponent : Int
deriving Repr, DecidableEq, Inhabited

/-- Quotients as pairs of a top and a bottom: the first is less than the second. -/
def quotientLt (a b : Nat × Nat) : Bool := a.1 * b.2 < b.1 * a.2

/-- The power `10 ^ p` as a quotient. -/
def powerOfTen (p : Int) : Nat × Nat :=
  match p with
  | .ofNat p => (Nat.pow 10 p, 1)
  | .negSucc p => (1, Nat.pow 10 (p + 1))

def timesPowerOfTen (a : Nat × Nat) (p : Int) : Nat × Nat :=
  let (top, bottom) := powerOfTen p
  (a.1 * top, a.2 * bottom)

/-- The bounds of the numbers that round to a magnitude. -/
def Magnitude.bounds (m : Magnitude) : (Nat × Nat) × (Nat × Nat) :=
  let below := if m.significand = Nat.pow 2 52 && -1074 < m.exponent then 1 else 2
  (scaleQuotient (4 * m.significand - below) 4 m.exponent,
    scaleQuotient (4 * m.significand + 2) 4 m.exponent)

/-- Whether a quotient rounds to a magnitude. The bounds do so for an even significand. -/
def Magnitude.roundsFrom (m : Magnitude) (a : Nat × Nat) : Bool :=
  let (low, high) := m.bounds
  if m.significand % 2 = 0 then !quotientLt a low && !quotientLt high a
  else quotientLt low a && quotientLt a high

/-- The number of digits before the point of a quotient, counted by trying. -/
def magnitudeOfTen (a : Nat × Nat) : Nat → Int → Int
  | 0, p => p
  | fuel + 1, p => if quotientLt a (powerOfTen p) then magnitudeOfTen a fuel (p - 1) else p + 1

/-- The decimal with `n` digits nearest to a magnitude, if one of the two around it rounds to it. -/
def Magnitude.decimal? (m : Magnitude) (size : Int) (n : Nat) : Option Decimal :=
  let exponent := size - n
  let (top, bottom) := timesPowerOfTen m.quotient (-exponent)
  let low := top / bottom
  let first := roundQuotient top bottom
  let second := if first = low then low + 1 else low
  let hit (digits : Nat) : Bool :=
    0 < digits && m.roundsFrom (timesPowerOfTen (digits, 1) exponent)
  if hit first then some ⟨first, exponent⟩
  else if hit second then some ⟨second, exponent⟩
  else none

/-- A decimal without zeros at its end. -/
def Decimal.reduce : Nat → Decimal → Decimal
  | fuel + 1, d =>
      if d.digits ≠ 0 && d.digits % 10 = 0 then reduce fuel ⟨d.digits / 10, d.exponent + 1⟩ else d
  | 0, d => d

/-- The shortest decimal that rounds to a magnitude, and the nearest of those. -/
def Magnitude.shortest (m : Magnitude) : Decimal :=
  if m.significand = 0 then ⟨0, 0⟩
  else
    let size := magnitudeOfTen m.quotient 700 310
    (((List.range 17).findSome? fun n => m.decimal? size (n + 1)).getD ⟨m.significand, 0⟩).reduce 20

/-- How decimals are written. -/
structure Style where
  /-- Sizes (digits before the point) from which on an exponent is written. -/
  above : Option Nat
  /-- The greatest number of zeros behind the point before an exponent is written. -/
  zeros : Option Nat

/-- Every digit is written in its place. -/
def Style.positional : Style := ⟨none, none⟩

/-- Large and small numbers have an exponent. -/
def Style.compact : Style := ⟨some 16, some 4⟩

def digitsOf (n : Nat) : List Char := Nat.toDigits 10 n

/-- A decimal, with at least one digit behind its point unless it has an exponent. -/
def Decimal.text (style : Style) (d : Decimal) : String :=
  let digits := digitsOf d.digits
  let size : Int := digits.length + d.exponent
  let large := match style.above with
    | some limit => (limit : Int) < size
    | none => false
  let small := match style.zeros with
    | some limit => size < -(limit : Int)
    | none => false
  String.ofList (
    if d.digits = 0 then ['0', '.', '0']
    else if large || small then
      let fraction := digits.drop 1
      digits.take 1 ++ (if fraction.isEmpty then [] else '.' :: fraction) ++ ['e']
        ++ (toString (size - 1)).toList
    else if 0 ≤ d.exponent then digits ++ List.replicate d.exponent.toNat '0' ++ ['.', '0']
    else if 0 < size then digits.take size.toNat ++ '.' :: digits.drop size.toNat
    else ['0', '.'] ++ List.replicate (-size).toNat '0' ++ digits)

/-- A number of the format in decimal. -/
def Binary64.text (style : Style) : Binary64 → String
  | .finite negative m => (if negative then "-" else "") ++ m.shortest.text style
  | .infinite negative => if negative then "-inf" else "inf"
  | .nan => "NaN"

end Publication.Number
