import Publication.Document.Contents
import Publication.Document.Resources
import Publication.Latex.Usage
import Publication.Record

/-!
Articles: what a manuscript is compiled to, before anything is published.
-/

namespace Publication

open Publication.Document

/-- A document to compile. -/
structure Manuscript where
  /-- The name that it is to be published under. -/
  name : String
  /-- The directory from which its references lead. -/
  dir : Path
  text : String
deriving Repr, DecidableEq

/-- A compiled document. -/
structure Article where
  name : String
  html : String
  contents : List Document.Entry
  record : Record
  resources : List Resource
  /-- Files and directories that are published as they are. -/
  includes : List Path
  usage : Latex.Usage
deriving Repr, DecidableEq

end Publication
