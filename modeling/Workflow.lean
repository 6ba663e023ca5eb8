import Workflow.Main
import Workflow.Proofs.Catalog.Agreement
import Workflow.Proofs.Codec.Issues
import Workflow.Proofs.Codec.RoundTrip
import Workflow.Proofs.Codec.Storing
import Workflow.Proofs.Reference.Report
import Workflow.Reference
import Workflow.Proofs.Codec.Context
import Workflow.Proofs.Codec.Tags
import Workflow.Proofs.Flow.Ancestry
import Workflow.Proofs.Flow.Unlabeled
import Workflow.Proofs.Codec.Insertion
import Workflow.Proofs.Text.Pieces
import Workflow.Proofs.Branch.Concurrency
import Workflow.Proofs.Branch.Matching
import Workflow.Proofs.Reference.Producer
import Workflow.Proofs.Flow.Pruning
import Workflow.Proofs.Flow.BreadthFirst
import Workflow.Proofs.Flow.Faults
import Workflow.Proofs.CommandLine.Verdicts
import Workflow.Proofs.Catalog.Expressible
import Workflow.Proofs.Json.Grammar
import Workflow.Proofs.Json.Scalars
import Workflow.Proofs.Json.Containers
import Workflow.Proofs.Json.Values
import Workflow.Proofs.Json.Records
import Workflow.Proofs.Flow.Rendered
import Workflow.Proofs.Reference.Verdict
import Workflow.Proofs.Branch.Classification
import Workflow.Proofs.Flow.NewNames
import Workflow.Proofs.Text.ByteOrder
import Workflow.Proofs.Flow.LabelHistory
import Workflow.Proofs.Flow.FirstFault
import Workflow.Proofs.Codec.LineEndings
import Workflow.Proofs.Flow.DisplayNames
import Workflow.Proofs.Markup.Entities
import Workflow.Proofs.Branch.Tree
