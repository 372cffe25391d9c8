import Compositor.Entries
import Compositor.Text.Blank
import Compositor.Text.DecimalDigit
import Compositor.Text.HexDigit
import Compositor.Text.Lines
import Compositor.Text.Name
import Compositor.Decimal.Shortest
import Compositor.Decimal.Style
import Compositor.Decimal.Rounding
import Compositor.Template
import Compositor.Value
import Compositor.Value.Text
import Compositor.Value.Equality
import Compositor.Document
import Compositor.Numeral
import Compositor.Filter
import Compositor.Directive
import Compositor.Source
import Compositor.Store
import Compositor.Render.Error
import Compositor.Render
import Compositor.Json.Number
import Compositor.Json.Token
import Compositor.Json.Reader
import Compositor.Json.Writer
import Compositor.Toml.Value
import Compositor.Toml.Scalar
import Compositor.Toml.Reader
import Compositor.Path
import Compositor.FileTree
import Compositor.Log
import Compositor.FileType
import Compositor.Config
import Compositor.Load
import Compositor.Engine
import Compositor.CommandLine
import Compositor.Main
import Compositor.Proofs.ValueParts
import Compositor.Proofs.DecidableValues
import Compositor.Proofs.Overlay
import Compositor.Proofs.Runs
import Compositor.Proofs.ChainRestored
import Compositor.Proofs.Depth
import Compositor.Proofs.Deferral
import Compositor.Proofs.Composition
import Compositor.Proofs.Call
import Compositor.Proofs.Precedence
import Compositor.Proofs.Termination
import Compositor.Proofs.ReferenceCycle
import Compositor.Proofs.WellFormedSite
import Compositor.Proofs.StoreHistory
import Compositor.Proofs.StandAlone
import Compositor.Proofs.FinalValues
import Compositor.Proofs.FixedPoint
import Compositor.Proofs.Concrete
import Compositor.Proofs.SourceValues
import Compositor.Proofs.ConcreteOutput
import Compositor.Proofs.StoreLookup
import Compositor.Proofs.StoreGrowth
import Compositor.Proofs.Passages
import Compositor.Proofs.SourceLines
import Compositor.Proofs.Listing
import Compositor.Proofs.SplitText
import Compositor.Proofs.TreePaths
import Compositor.Proofs.TreeLoad
import Compositor.Proofs.TemplateSource
import Compositor.Proofs.LayoutOrder
import Compositor.Proofs.MissingLayout
import Compositor.Proofs.ConfigOrder
import Compositor.Proofs.CommandsAgree
import Compositor.Proofs.Trimming
import Compositor.Proofs.DirectiveGrammar
import Compositor.Proofs.FilterCalls
import Compositor.Proofs.Respacing
import Compositor.Proofs.DirectiveForms
import Compositor.Proofs.ExtraEntries
import Compositor.Proofs.EvaluationEffects
import Compositor.Proofs.JsonText
import Compositor.Proofs.JsonRoundTrip
import Compositor.Proofs.NumeralValue
import Compositor.Proofs.NumeralGrammar
import Compositor.Proofs.LeadingNumeral
import Compositor.Proofs.OverlayAlgebra
import Compositor.Proofs.DeferralOrder
import Compositor.Proofs.ValueEquality
import Compositor.Proofs.LoadedFiles
