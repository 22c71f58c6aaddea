import Conform.Main
import Conform.Proofs.Correct
import Conform.Proofs.Failure
import Conform.Proofs.Order
import Conform.Proofs.References
import Conform.Proofs.Widening
import Conform.Proofs.Bodies
import Conform.Proofs.Declarations
import Conform.Proofs.Redefinition
import Conform.Proofs.RoundTrip
import Conform.Proofs.Reassignment
import Conform.Proofs.Renaming
import Conform.Proofs.Inheritance
import Conform.Proofs.LiteralTypes
import Conform.Proofs.Transitivity
import Conform.Proofs.Subsumption
import Conform.Proofs.Equivalence
import Conform.Proofs.Verdicts
import Conform.Proofs.Evidence
import Conform.Proofs.Violations
import Conform.Proofs.Calls
import Conform.Proofs.Construction
import Conform.Proofs.Forgetting
import Conform.Proofs.Poisoned
import Conform.Proofs.Extension
import Conform.Proofs.Provenance
import Conform.Proofs.DistinctNames
import Conform.Proofs.History
import Conform.Proofs.Paths
import Conform.Proofs.ReportText
import Conform.Proofs.RuleSets
import Conform.Proofs.Runs
import Conform.Proofs.RuleArguments
