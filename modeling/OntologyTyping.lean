import OntologyTyping.Json.Printer
import OntologyTyping.Json.Reader
import OntologyTyping.Ordered
import OntologyTyping.Pattern.Build
import OntologyTyping.Pattern.Branch
import OntologyTyping.Pattern.Json
import OntologyTyping.Ontology.Json
import OntologyTyping.Ontology.Solve
import OntologyTyping.Supply
import OntologyTyping.Inference.Log
import OntologyTyping.Graph.Match
import OntologyTyping.Ontology.Yaml
import OntologyTyping.Settings.Yaml
import OntologyTyping.Main
import OntologyTyping.Proofs.Candidates
import OntologyTyping.Proofs.Conformance
import OntologyTyping.Proofs.Runs
import OntologyTyping.Proofs.Preservation
import OntologyTyping.Proofs.Renaming
import OntologyTyping.Proofs.Reclued
import OntologyTyping.Proofs.Idempotence
import OntologyTyping.Proofs.Reordering
import OntologyTyping.Proofs.SharedRoles
import OntologyTyping.Proofs.Meaning
import OntologyTyping.Proofs.Additivity
import OntologyTyping.Proofs.Unambiguous
import OntologyTyping.Proofs.Isolation
import OntologyTyping.Proofs.Monotonicity
import OntologyTyping.Proofs.Failures
import OntologyTyping.Proofs.Hygiene
import OntologyTyping.Proofs.RoundTrip
import OntologyTyping.Proofs.Kinds
import OntologyTyping.Proofs.Resubmission
import OntologyTyping.Proofs.Hierarchy
import OntologyTyping.Proofs.Loading
import OntologyTyping.Proofs.Accounting
import OntologyTyping.Proofs.Castings
import OntologyTyping.Proofs.Numbering
