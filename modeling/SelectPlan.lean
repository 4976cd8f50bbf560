import SelectPlan.Json.Printer
import SelectPlan.Proofs.Documents.Texts
import SelectPlan.Proofs.Logging.Calls
import SelectPlan.Proofs.Logging.Records
import SelectPlan.Proofs.Planning.JoinColumns
import SelectPlan.Proofs.Planning.LogContents
import SelectPlan.Proofs.Planning.LogIndependence
import SelectPlan.Proofs.Planning.Naming
import SelectPlan.Proofs.Planning.Operators
import SelectPlan.Proofs.Planning.RequestData
import SelectPlan.Proofs.Predicates.Conjunction
import SelectPlan.Proofs.Preparation.Failures
import SelectPlan.Proofs.Preparation.SessionNames
import SelectPlan.Proofs.Reading.Names
import SelectPlan.Proofs.RemoteJoins.LeafListing
import SelectPlan.Proofs.RemoteJoins.NameSearch
import SelectPlan.Proofs.RemoteJoins.ResponseShape
import SelectPlan.Proofs.RemoteJoins.Sharing
import SelectPlan.Proofs.Sameness.Kinds
import SelectPlan.Proofs.Traversal.Bifunctor
import SelectPlan.Proofs.Traversal.Summaries
import SelectPlan.Proofs.Validation.Occurrences
import SelectPlan.Proofs.Validation.Rearrangement
import SelectPlan.Proofs.Validation.Replacement
import SelectPlan.Request.Planning
import SelectPlan.Request.RemoteTarget
import SelectPlan.Selection.Summary
