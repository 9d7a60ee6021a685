import Publication.Article.Build
import Publication.Catalog.Store
import Publication.CommandLine.Perform
import Publication.Config.Stock
import Publication.Document.Parser
import Publication.Document.Resources
import Publication.Html
import Publication.Image.Thumbnail
import Publication.Latex.Compiler
import Publication.Latex.Rehearsal
import Publication.Latex.Toolchain
import Publication.Main
import Publication.Naming.Registry
import Publication.Naming.Slug
import Publication.Proofs.Article.Containment
import Publication.Proofs.Article.Copies
import Publication.Proofs.Article.IncludedPaths
import Publication.Proofs.Article.Includes
import Publication.Proofs.Article.Recompilation
import Publication.Proofs.Article.Reports
import Publication.Proofs.CommandLine.CatalogChanges
import Publication.Proofs.CommandLine.FailedChanges
import Publication.Proofs.Config.Defaults
import Publication.Proofs.Document.Abstracts
import Publication.Proofs.Document.Anchors
import Publication.Proofs.Document.Building
import Publication.Proofs.Document.Identifiers
import Publication.Proofs.Document.Passes
import Publication.Proofs.Document.RoundTrip
import Publication.Proofs.Document.Shapes
import Publication.Proofs.Document.Walks
import Publication.Proofs.Header.Lists
import Publication.Proofs.Header.RoundTrip
import Publication.Proofs.Latex.AtomicStoring
import Publication.Proofs.Latex.BlockGrammar
import Publication.Proofs.Latex.CacheRuns
import Publication.Proofs.Latex.DocumentRuns
import Publication.Proofs.Latex.Escapes
import Publication.Proofs.Latex.FencedRegions
import Publication.Proofs.Latex.Parts
import Publication.Proofs.Latex.References
import Publication.Proofs.Latex.RegionRuns
import Publication.Proofs.Naming.Slugs
import Publication.Proofs.Toml.Paths
