import ApneaScoring.Main
import ApneaScoring.Competition
import ApneaScoring.Calculation.Document
import ApneaScoring.Journal.Template
import ApneaScoring.Proofs.Number.Order
import ApneaScoring.Proofs.Number.Ceiling
import ApneaScoring.Proofs.Calculation.Totality
import ApneaScoring.Proofs.Comparator
import ApneaScoring.Proofs.Ranking
import ApneaScoring.Proofs.Submission
import ApneaScoring.Proofs.Federations
import ApneaScoring.Proofs.Fairness
import ApneaScoring.Proofs.Resubmission
import ApneaScoring.Proofs.Deterrence
import ApneaScoring.Proofs.Descriptor
import ApneaScoring.Proofs.DefaultRepository
import ApneaScoring.Proofs.Column
import ApneaScoring.Proofs.Combination
import ApneaScoring.Proofs.Recomputation
import ApneaScoring.Proofs.HostRecords
import ApneaScoring.Proofs.Coercion
import ApneaScoring.Proofs.StartedSeconds
import ApneaScoring.Proofs.Catalog
import ApneaScoring.Proofs.Charges
import ApneaScoring.Proofs.Readiness
import ApneaScoring.Proofs.Calculation.Ceiling
import ApneaScoring.Proofs.Wiring
import ApneaScoring.Proofs.ColumnOrder
import ApneaScoring.Proofs.Calculation.Document
