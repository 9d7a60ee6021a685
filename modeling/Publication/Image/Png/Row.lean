import Publication.Image.Png.Header

/-!
Rows of pixels. Each row is stored behind the number of a filter, by which its octets are given as
differences from their neighbours; a picture may be stored in seven passes over it.
-/

namespace Publication.Image.Png

/-- Of three neighbours the one nearest to `left + above - corner`. -/
def nearestNeighbour (left above corner : Nat) : Nat :=
  let guess : Int := (left : Int) + above - corner
  let a := (guess - left).natAbs
  let b := (guess - above).natAbs
  let c := (guess - corner).natAbs
  if a ≤ b && a ≤ c then left else if b ≤ c then above else corner

/-- What a filter predicts from the octets to the left, above, and above the one to the left. -/
def predicted? (filter left above corner : Nat) : Option Nat :=
  match filter with
  | 0 => some 0
  | 1 => some left
  | 2 => some above
  | 3 => some ((left + above) / 2)
  | 4 => some (nearestNeighbour left above corner)
  | _ => none

/-- Restores the octets of a row. `done` holds those already restored, latest first, and `shifted`
the row above behind as many zeros as a pixel has octets. -/
def restore (filter step : Nat) : (shifted above done row : List UInt8) → Option (List UInt8)
  | _, _, done, [] => some done.reverse
  | shifted, above, done, b :: row =>
      let left := ((done.drop (step - 1)).head?.map UInt8.toNat).getD 0
      match predicted? filter left ((above.head?.map UInt8.toNat).getD 0)
          ((shifted.head?.map UInt8.toNat).getD 0) with
      | none => none
      | some guess =>
          restore filter step (shifted.drop 1) (above.drop 1)
            (UInt8.ofNat (b.toNat + guess) :: done) row

/-- Reads so many rows of a length, given the one above them. -/
def readRows (step length : Nat) : Nat → List UInt8 → List UInt8 →
    Option (List (List UInt8) × List UInt8)
  | 0, _, data => some ([], data)
  | n + 1, above, data =>
      match data with
      | [] => none
      | filter :: rest => do
          let (row, rest) ← Text.takeExactly? length rest
          let row ← restore filter.toNat step (List.replicate step 0 ++ above) above [] row
          let (rows, rest) ← readRows step length n row rest
          some (row :: rows, rest)

/-- A pass over a picture: the first column and row, and the distances to the next ones. -/
structure Pass where
  x : Nat
  y : Nat
  dx : Nat
  dy : Nat
deriving Repr, DecidableEq

/-- The seven passes. -/
def passes : List Pass := [
  ⟨0, 0, 8, 8⟩, ⟨4, 0, 8, 8⟩, ⟨0, 4, 4, 8⟩, ⟨2, 0, 4, 4⟩, ⟨0, 2, 2, 4⟩, ⟨1, 0, 2, 2⟩, ⟨0, 1, 1, 2⟩]

/-- The number of places of a pass below a limit. -/
def placesBelow (limit first distance : Nat) : Nat := (limit + distance - 1 - first) / distance

/-- The bits of octets, the most significant ones first. -/
def bitsOf (bytes : List UInt8) : List Bool :=
  bytes.flatMap fun b => [128, 64, 32, 16, 8, 4, 2, 1].map fun p => b.toNat / p % 2 == 1

/-- The octets of bits, the last one filled up with zeros. -/
def octetsOf : Nat → List Bool → List UInt8
  | 0, _ => []
  | n + 1, bits =>
      let found := bits.take 8 ++ List.replicate (8 - bits.length) false
      UInt8.ofNat (found.foldl (fun v b => 2 * v + if b then 1 else 0) 0)
        :: octetsOf n (bits.drop 8)

/-- Reads the rows of the passes in order. A pass without pixels has no rows. -/
def readPasses (header : Header) : List Pass → List UInt8 → Option (List (Pass × List (List Bool)))
  | [], _ => some []
  | pass :: more, data => do
      let columns := placesBelow header.width pass.x pass.dx
      let count := if columns = 0 then 0 else placesBelow header.height pass.y pass.dy
      let length := header.rowLength columns
      let (rows, data) ← readRows header.pixelStep length count (List.replicate length 0) data
      let rest ← readPasses header more data
      some ((pass, rows.map bitsOf) :: rest)

/-- The bits of a pixel, taken from the pass that it belongs to. -/
def pixelFrom (found : List (Pass × List (List Bool))) (bits x y : Nat) : List Bool :=
  (found.findSome? fun (pass, rows) =>
    if pass.x ≤ x && (x - pass.x) % pass.dx = 0 && pass.y ≤ y && (y - pass.y) % pass.dy = 0 then
      let row := rows.getD ((y - pass.y) / pass.dy) []
      some ((row.drop ((x - pass.x) / pass.dx * bits)).take bits)
    else none).getD []

/-- The rows of a picture put together from its passes. -/
def weave (header : Header) (found : List (Pass × List (List Bool))) : List (List UInt8) :=
  (List.range header.height).map fun y =>
    octetsOf (header.rowLength header.width)
      ((List.range header.width).flatMap fun x => pixelFrom found header.pixelBits x y)

/-- The rows of a picture from the data that they are stored in, which may be longer. -/
def picture? (header : Header) (data : List UInt8) : Option (List (List UInt8)) :=
  if header.interlaced then (readPasses header passes data).map (weave header)
  else
    let length := header.rowLength header.width
    (readRows header.pixelStep length header.height (List.replicate length 0) data).map (·.1)

/-- Cuts octets into rows of a length, each behind the number of the filter that changes nothing. -/
def plainRows (length : Nat) : Nat → List UInt8 → List UInt8
  | 0, _ => []
  | n + 1, bytes => 0 :: bytes.take length ++ plainRows length n (bytes.drop length)

end Publication.Image.Png
