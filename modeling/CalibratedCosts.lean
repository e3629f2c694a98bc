import CalibratedCosts.Main
import CalibratedCosts.Proofs.Arithmetic.Power
import CalibratedCosts.Proofs.Arithmetic.Shift
import CalibratedCosts.Proofs.Artifact.Faults
import CalibratedCosts.Proofs.CommandLine.Agreement
import CalibratedCosts.Proofs.CostModel.FitQuality
import CalibratedCosts.Proofs.CostModel.Optimality
import CalibratedCosts.Proofs.CostModel.Prediction
import CalibratedCosts.Proofs.CostModel.QuantizeOutcome
import CalibratedCosts.Proofs.CostModel.SampleOrder
import CalibratedCosts.Proofs.CostModel.Stability
import CalibratedCosts.Proofs.Meter.Atomicity
import CalibratedCosts.Proofs.Meter.Budget
import CalibratedCosts.Proofs.Meter.Concurrency
import CalibratedCosts.Proofs.Samples.Acceptance
import CalibratedCosts.Proofs.Samples.Benchmark
import CalibratedCosts.Proofs.Samples.Formats
import CalibratedCosts.Proofs.Samples.Requests
import CalibratedCosts.Proofs.Store.Attempt
import CalibratedCosts.Proofs.Store.Records
import CalibratedCosts.Proofs.Table.Representation
import CalibratedCosts.Proofs.Tampering
