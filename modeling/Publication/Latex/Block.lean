import Publication.Latex.Region

/-!
LaTeX blocks: what a well-formed region says. A block is `opener`, the alternative text up to a
bracket, the body, and `closer` on a line of its own.
-/

namespace Publication.Latex

open Publication.Text

def preambleAlt : String := "<preamble>"

/-- The word of the alternative text that asks for the typeset document next to the image. -/
def pdfFlag : List Char := "--pdf".toList

/-- A well-formed region. -/
structure Block where
  /-- The alternative text without the flag. -/
  alt : String
  body : String
  wantPdf : Bool
deriving Repr, DecidableEq

/-- Whether the block extends the preamble of later ones. -/
def Block.isPreamble (block : Block) : Bool := block.alt == preambleAlt

/-- Cuts a region into its alternative text and its body. -/
def shape? (raw : List Char) : Option (List Char × List Char) :=
  (strip? opener raw).bind fun text =>
    match text.dropWhile (· ≠ ']') with
    | _ :: rest =>
        (stripEnd? closer (trimEnd rest)).bind fun body =>
          if body.getLast? = some '\n' then some (text.takeWhile (· ≠ ']'), body) else none
    | [] => none

/-- The words of a text joined by single spaces, without the flag. -/
def withoutFlag (alt : List Char) : List Char :=
  List.intercalate [' '] ((words alt).filter (· ≠ pdfFlag))

/-- The block that a region holds, if the region is well formed. -/
def Block.parse? (raw : String) : Option Block :=
  (shape? raw.toList).map fun (alt, body) =>
    if alt = preambleAlt.toList then ⟨preambleAlt, String.ofList body, false⟩
    else
      let wantPdf := (words alt).contains pdfFlag
      let shown := if wantPdf then withoutFlag alt else trim alt
      ⟨String.ofList shown, String.ofList body, wantPdf⟩

end Publication.Latex
