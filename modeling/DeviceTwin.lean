import DeviceTwin.Analysis.Statistics
import DeviceTwin.Analysis.Usage
import DeviceTwin.Command.Configuration
import DeviceTwin.Command.Inspection
import DeviceTwin.Defect.Form
import DeviceTwin.Graph.Dot
import DeviceTwin.Json.Stored
import DeviceTwin.Main
import DeviceTwin.Model.Form.Basic
import DeviceTwin.Model.Loading
import DeviceTwin.Proofs.Dtmi.Grammar
import DeviceTwin.Proofs.Graph.Walk
import DeviceTwin.Proofs.Model.Form.Incidental
import DeviceTwin.Proofs.Model.Form.Rereading
import DeviceTwin.Proofs.Text.Names
import DeviceTwin.Proofs.Text.Split
import DeviceTwin.Proofs.Validation.Check
import DeviceTwin.Proofs.Validation.Events
import DeviceTwin.Proofs.Validation.References
import DeviceTwin.Proofs.Validation.Suggestion
import DeviceTwin.Settings.Form
import DeviceTwin.Settings.Saving
import DeviceTwin.Settings.Sources
import DeviceTwin.Validation.Check
import DeviceTwin.Proofs.Suggestion.Best
import DeviceTwin.Proofs.Validation.Proposal
import DeviceTwin.Proofs.Validation.Order
import DeviceTwin.Proofs.Graph.Growth
import DeviceTwin.Proofs.Validation.Closure
import DeviceTwin.Proofs.Graph.Dot
import DeviceTwin.Proofs.Json.Tagged
import DeviceTwin.Proofs.Defect.Form
import DeviceTwin.Proofs.Settings.Layers
import DeviceTwin.Proofs.Settings.Finding
import DeviceTwin.Proofs.Toml.Sections
import DeviceTwin.Proofs.Settings.Saving
import DeviceTwin.Proofs.Validation.Footprint
import DeviceTwin.Proofs.Model.Loading
import DeviceTwin.Proofs.Command.Verdict
import DeviceTwin.Proofs.Validation.Repetition
import DeviceTwin.Proofs.Analysis.Usage
import DeviceTwin.Proofs.Model.Form.Positional
import DeviceTwin.Proofs.Validation.Declaration
import DeviceTwin.Proofs.Dtmi.Parts
import DeviceTwin.Proofs.Dtmi.Mending
import DeviceTwin.Proofs.Model.Form.Trigger
import DeviceTwin.Proofs.Defect.Report
import DeviceTwin.Proofs.Settings.Variable
import DeviceTwin.Proofs.Command.Effect
import DeviceTwin.Proofs.Model.Building
import DeviceTwin.Proofs.Model.Leaves
