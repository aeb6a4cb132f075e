import WitnessLift.Main
import WitnessLift.Model.Printer
import WitnessLift.Storage.Disk
import WitnessLift.Proofs.Layout.Reading
import WitnessLift.Proofs.Layout.Tiling
import WitnessLift.Proofs.Layout.Survey
import WitnessLift.Proofs.Layout.Placement
import WitnessLift.Proofs.Layout.Spaces
import WitnessLift.Proofs.Text.Blank
import WitnessLift.Proofs.Trace.Bits
import WitnessLift.Proofs.Layout.Views
import WitnessLift.Proofs.Lift.Checks
import WitnessLift.Proofs.Lift.Step
import WitnessLift.Proofs.Lift.Run
import WitnessLift.Proofs.Witness.Report
import WitnessLift.Proofs.Lift.Outcome
import WitnessLift.Proofs.Layout.Filling
import WitnessLift.Proofs.Witness.Reader
import WitnessLift.Proofs.Witness.RoundTrip
import WitnessLift.Proofs.Layout.Classes
import WitnessLift.Proofs.Layout.Renaming
import WitnessLift.Proofs.Layout.WellFormed
import WitnessLift.Proofs.Layout.Order
import WitnessLift.Proofs.Lift.Renaming
import WitnessLift.Proofs.Lift.Delivery
import WitnessLift.Proofs.Lift.Online
import WitnessLift.Proofs.Lift.Noninterference
import WitnessLift.Proofs.Lift.Unchecked
import WitnessLift.Proofs.Model.Words
import WitnessLift.Proofs.Model.Grammar
import WitnessLift.Proofs.Model.Reading
import WitnessLift.Proofs.Model.Positions
import WitnessLift.Proofs.Witness.Sections
import WitnessLift.Proofs.Witness.Names
import WitnessLift.Proofs.Model.Printing
import WitnessLift.Proofs.Storage.Lookup
import WitnessLift.Proofs.Storage.Scratch
import WitnessLift.Proofs.Storage.Work
import WitnessLift.Proofs.Lift.Files
import WitnessLift.Proofs.Lift.Leftovers
import WitnessLift.Proofs.Layout.Coherence
import WitnessLift.Proofs.Storage.Beside
import WitnessLift.Proofs.Storage.Route
import WitnessLift.Proofs.Lift.Ending
import WitnessLift.Proofs.Lift.Harmless
import WitnessLift.Proofs.Lift.Repetition
import WitnessLift.Proofs.CheckResult
import WitnessLift.Proofs.Layout.Capacity
import WitnessLift.Proofs.Model.Tokens
import WitnessLift.Proofs.Model.Ranking
import WitnessLift.Proofs.Lift.Lengths
import WitnessLift.Proofs.Lift.Room
