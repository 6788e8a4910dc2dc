import Linkage.CommandLine
import Linkage.Config
import Linkage.Console.Assistant
import Linkage.Engine.Graph
import Linkage.Engine.Prefetch
import Linkage.Error
import Linkage.FileTree
import Linkage.Format
import Linkage.Host.Files
import Linkage.Host.Shelf
import Linkage.Identifier
import Linkage.Json.Reader
import Linkage.Json.Writer
import Linkage.Main
import Linkage.Proofs.Alike.Accesses
import Linkage.Proofs.Alike.Attempts
import Linkage.Proofs.Alike.Linking
import Linkage.Proofs.Alike.Machines
import Linkage.Proofs.Alike.Widening
import Linkage.Proofs.Anchoring.Accesses
import Linkage.Proofs.Configuration.Entries
import Linkage.Proofs.Configuration.Merging
import Linkage.Proofs.Console.Completing
import Linkage.Proofs.Console.Requesting
import Linkage.Proofs.Declarations.Entries
import Linkage.Proofs.Declarations.Reading
import Linkage.Proofs.Declarations.Recalling
import Linkage.Proofs.Documents.Descriptors
import Linkage.Proofs.Engine.Accounting
import Linkage.Proofs.Engine.DepthFirst
import Linkage.Proofs.Engine.Enriching
import Linkage.Proofs.Engine.Fencing
import Linkage.Proofs.Engine.Housing
import Linkage.Proofs.Engine.Prefetching
import Linkage.Proofs.Engine.Provisioning
import Linkage.Proofs.Engine.Repeating
import Linkage.Proofs.Engine.Retracing
import Linkage.Proofs.Engine.Stepping
import Linkage.Proofs.Engine.Stocking
import Linkage.Proofs.Engine.Studying
import Linkage.Proofs.Engine.Triples
import Linkage.Proofs.Engine.Unbounded
import Linkage.Proofs.Exports.Search
import Linkage.Proofs.Histories.Agreeing
import Linkage.Proofs.Histories.Leaving
import Linkage.Proofs.Histories.Poising
import Linkage.Proofs.Host.Steady
import Linkage.Proofs.Linking.Furnishing
import Linkage.Proofs.Naming.Answers
import Linkage.Proofs.Naming.Paths
import Linkage.Proofs.Naming.Spellings
import Linkage.Proofs.Packages.Finding
import Linkage.Proofs.Packages.Subpaths
import Linkage.Proofs.Runs.Accounting
import Linkage.Proofs.Runs.Assigning
import Linkage.Proofs.Runs.Awaiting
import Linkage.Proofs.Runs.Bodies
import Linkage.Proofs.Runs.Confining
import Linkage.Proofs.Runs.Ending
import Linkage.Proofs.Runs.Exporting
import Linkage.Proofs.Runs.Failures
import Linkage.Proofs.Runs.Linking
import Linkage.Proofs.Runs.Listing
import Linkage.Proofs.Runs.LiveBindings
import Linkage.Proofs.Runs.Prefetching
import Linkage.Proofs.Runs.Previewing
import Linkage.Proofs.Runs.Reentering
import Linkage.Proofs.Runs.Repeating
import Linkage.Proofs.Runs.Requiring
import Linkage.Proofs.Runs.Resetting
import Linkage.Proofs.Runs.Settling
import Linkage.Proofs.Scheduling.Basic
import Linkage.Proofs.Scheduling.Dropping
import Linkage.Proofs.Scheduling.Guarantees
import Linkage.Proofs.Store.History
import Linkage.Proofs.Values.Growing
import Linkage.Resolving
import Linkage.Source.Document
import Linkage.Store.Linking
import Linkage.Table
import Linkage.Text.Blank
import Linkage.Value.Shown
