import UriRouting.Text.Blank
import UriRouting.Text.Letters
import UriRouting.Text.CaseFold
import UriRouting.Text.Quoted
import UriRouting.Pattern
import UriRouting.Dispatch
import UriRouting.Snapshot.Basic
import UriRouting.Provision
import UriRouting.Proofs.Pattern.Exploration
import UriRouting.Proofs.Template.Derivation
import UriRouting.Proofs.Template.PatternNode
import UriRouting.Proofs.Template.Simulation
import UriRouting.Proofs.Template.ItemsLead
import UriRouting.Proofs.Template.Compiled
import UriRouting.Proofs.Template.Matching
import UriRouting.Proofs.Template.Resolved
import UriRouting.Proofs.Template.Leaves
import UriRouting.Proofs.Template.Structure
import UriRouting.Proofs.Template.FirstOffence
import UriRouting.Proofs.Snapshot.RoundTrip
import UriRouting.Proofs.Snapshot.Altered
import UriRouting.Proofs.Dispatch.Decision
import UriRouting.Proofs.Dispatch.BuildMatch
import UriRouting.Proofs.Number.Decimal
import UriRouting.Proofs.Template.Grammatical
import UriRouting.Proofs.Template.Written
import UriRouting.Proofs.Template.TokenGrammar
import UriRouting.Proofs.Template.Covers
import UriRouting.Proofs.Dispatch.Generated
import UriRouting.Proofs.Dispatch.Regenerated
import UriRouting.Proofs.Dispatch.Extracted
import UriRouting.Proofs.Dispatch.Allowed
import UriRouting.Proofs.Dispatch.Reordered
import UriRouting.Proofs.Dispatch.Retyped
import UriRouting.Proofs.Dispatch.OtherBook
import UriRouting.Proofs.Snapshot.Rebuilt
import UriRouting.Proofs.Snapshot.Genuine
import UriRouting.Proofs.Dispatch.AnyHost
import UriRouting.Proofs.Dispatch.Indexed
import UriRouting.Proofs.Provision.SharedCache
import UriRouting.Proofs.Template.OpenArguments
import UriRouting.Proofs.Template.ArgumentSource
import UriRouting.Proofs.Template.OpenVariables
import UriRouting.Proofs.Template.FaultPlace
import UriRouting.Proofs.Template.TextGrammar
import UriRouting.Proofs.Template.DefaultRun
import UriRouting.Proofs.Template.Rendered
import UriRouting.Proofs.Template.TwoTexts
import UriRouting.Proofs.Template.HostCase
import UriRouting.Proofs.Number.Order
import UriRouting.Proofs.Number.RoundedInteger
import UriRouting.Proofs.Template.OneVariable
import UriRouting.Proofs.Rule.QuotedMembers
import UriRouting.Proofs.Rule.IntegerRange
import UriRouting.Proofs.Rule.UnquotedPattern
import UriRouting.Proofs.Template.Depth
import UriRouting.Proofs.Template.TokenSpans
import UriRouting.Proofs.Rule.NumericLiteral
import UriRouting.Proofs.Template.EqualTests
