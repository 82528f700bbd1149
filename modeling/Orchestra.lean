import Orchestra.Function
import Orchestra.Plan.TextForm
import Orchestra.Planner.Basic
import Orchestra.Proofs.Json.Reading
import Orchestra.Proofs.Plan.Reload
import Orchestra.Proofs.Plan.Retry
import Orchestra.Proofs.Template.RoundTrip
import Orchestra.Template.Engine
import Orchestra.Proofs.Plan.Accumulation
import Orchestra.Proofs.Plan.Invocation
import Orchestra.Proofs.Plan.Resolution
import Orchestra.Proofs.Plan.Outputs
import Orchestra.Proofs.Plan.Restoration
import Orchestra.Proofs.Plan.Answer
import Orchestra.Proofs.Plan.Appending
import Orchestra.Proofs.Plan.Containment
import Orchestra.Proofs.Template.Turns
import Orchestra.Proofs.Xml.Lexing
import Orchestra.Proofs.Xml.Tokens
import Orchestra.Proofs.Xml.Nesting
import Orchestra.Proofs.Plan.Recovery
import Orchestra.Proofs.Variables.History
import Orchestra.Proofs.Registration
import Orchestra.Proofs.Template.Lossless
import Orchestra.Proofs.Calls
import Orchestra.Proofs.Coroutine
import Orchestra.Proofs.Settings
import Orchestra.Proofs.Text.Lowercase
import Orchestra.Proofs.Template.Failures
import Orchestra.Proofs.Prompt.Dependence
import Orchestra.Proofs.Xml.Names
import Orchestra.Proofs.Plan.LoneStep
import Orchestra.Proofs.Planner.Advertised
import Orchestra.Proofs.Planner.Offered
import Orchestra.Proofs.Plan.References
import Orchestra.Proofs.Plan.Precedence
import Orchestra.Proofs.Template.Shape
import Orchestra.Proofs.Template.Binding
import Orchestra.Proofs.Plan.Exposure
import Orchestra.Proofs.Plan.Reserved
import Orchestra.Proofs.Plan.Order
import Orchestra.Proofs.Variables.Merging
import Orchestra.Proofs.Listing
import Orchestra.Proofs.Prompt.Declared
import Orchestra.Proofs.Prompt.Defaults
import Orchestra.Proofs.Settings.Canonical
