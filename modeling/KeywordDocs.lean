import KeywordDocs.Main
import KeywordDocs.Measure.Benchmark
import KeywordDocs.Measure.Round
import KeywordDocs.Proofs.Command.Alone
import KeywordDocs.Proofs.Command.Links
import KeywordDocs.Proofs.Command.Parallel
import KeywordDocs.Proofs.Discovery.Alignment
import KeywordDocs.Proofs.Discovery.ClassKeywords
import KeywordDocs.Proofs.Discovery.KnownNames
import KeywordDocs.Proofs.Highlight.Flatness
import KeywordDocs.Proofs.Highlight.History
import KeywordDocs.Proofs.Markup.Identifiers
import KeywordDocs.Proofs.Markup.Order
import KeywordDocs.Proofs.Markup.Targets
import KeywordDocs.Proofs.Page.Signatures
import KeywordDocs.Proofs.Page.Tables
import KeywordDocs.Proofs.Samples.Comparing
import KeywordDocs.Proofs.Samples.Embedded
import KeywordDocs.Proofs.Samples.Merging
import KeywordDocs.Proofs.Samples.Splitting
import KeywordDocs.Proofs.Signature.Types
import KeywordDocs.Proofs.Site.Groups
import KeywordDocs.Proofs.Site.Navigation
import KeywordDocs.Proofs.Site.Summaries
import KeywordDocs.Samples.Database
import KeywordDocs.Samples.Dates
import KeywordDocs.Samples.Enumerations
import KeywordDocs.Samples.Files
import KeywordDocs.Samples.Http
import KeywordDocs.Workload.Commands
import KeywordDocs.Workload.Discovery
import KeywordDocs.Workload.Pages
