import Recenter.Config.Draft
import Recenter.Main
import Recenter.Proofs.Section.Frame
import Recenter.Proofs.Text.Line
import Recenter.Proofs.Section.Inner
import Recenter.Proofs.Section.Balance
import Recenter.Proofs.Section.Pass
import Recenter.Proofs.Section.Divider
import Recenter.Proofs.Region.Pass
import Recenter.Proofs.Region.Overlap
import Recenter.Proofs.Region.Border
import Recenter.Proofs.Passes.Round
import Recenter.Proofs.Passes.Settling
import Recenter.Proofs.Passes.Spacing
import Recenter.Proofs.Passes.Order
import Recenter.Proofs.Section.Pattern
import Recenter.Proofs.Section.Grammar
import Recenter.Proofs.Section.Reread
import Recenter.Proofs.Codec.RoundTrip
import Recenter.Proofs.Codec.Canonical
import Recenter.Proofs.Codec.Reach
import Recenter.Proofs.Codec.Fixed
import Recenter.Proofs.Codec.Form
import Recenter.Proofs.Files.Outline
import Recenter.Proofs.Files.Place
import Recenter.Proofs.Files.Access
import Recenter.Proofs.Files.Sources
import Recenter.Proofs.Files.Selected
import Recenter.Proofs.Files.Creation
import Recenter.Proofs.Files.Filtered
import Recenter.Proofs.Config.Loaded
import Recenter.Proofs.Json.Digits
import Recenter.Proofs.Json.Spelling
import Recenter.Proofs.Json.Arranged
import Recenter.Proofs.Json.Written
import Recenter.Proofs.Datum.Shown
import Recenter.Proofs.Config.Told
import Recenter.Proofs.Config.Violations
import Recenter.Proofs.Config.Escaping
import Recenter.Proofs.Config.Effective
import Recenter.Proofs.Run.Steps
import Recenter.Proofs.Run.OneFile
import Recenter.Proofs.Run.Alone
import Recenter.Proofs.Run.Again
import Recenter.Proofs.Run.Spacing
import Recenter.Proofs.Run.Ahead
import Recenter.Proofs.Run.Walk
import Recenter.Proofs.Run.Report
import Recenter.Proofs.Run.Pointwise
import Recenter.Proofs.Run.Failing
import Recenter.Proofs.Run.Abort
import Recenter.Proofs.Run.Confined
import Recenter.Proofs.Run.Traced
import Recenter.Proofs.Run.Alike
import Recenter.Proofs.Run.Lossless
import Recenter.Proofs.Run.Events
import Recenter.Proofs.CommandLine.Ends
import Recenter.Proofs.CommandLine.Named
import Recenter.Proofs.CommandLine.Printed
import Recenter.Proofs.CommandLine.Overridden
import Recenter.Proofs.CommandLine.OneLine
