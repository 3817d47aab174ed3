import ThreatGraph.Client.Basic
import ThreatGraph.Client.Error
import ThreatGraph.Client.Fetch
import ThreatGraph.Client.Listing
import ThreatGraph.Client.Lookup
import ThreatGraph.Client.Traffic
import ThreatGraph.Client.Write
import ThreatGraph.Command.Arguments
import ThreatGraph.Command.Report
import ThreatGraph.Command.Run
import ThreatGraph.Descriptor.Basic
import ThreatGraph.Descriptor.Normalize
import ThreatGraph.Descriptor.Tagged
import ThreatGraph.Descriptor.Window
import ThreatGraph.Environment
import ThreatGraph.InputError
import ThreatGraph.Json.Decode
import ThreatGraph.Json.Members
import ThreatGraph.Json.Print
import ThreatGraph.Json.Read
import ThreatGraph.Json.Value
import ThreatGraph.Main
import ThreatGraph.Number.Double
import ThreatGraph.Number.Shortest
import ThreatGraph.Number.Text
import ThreatGraph.Post.Copy
import ThreatGraph.Post.Field
import ThreatGraph.Post.Fields
import ThreatGraph.Post.Render
import ThreatGraph.Post.Validation
import ThreatGraph.Proofs.Addresses
import ThreatGraph.Proofs.Assignments
import ThreatGraph.Proofs.Authorities
import ThreatGraph.Proofs.Batches
import ThreatGraph.Proofs.ByteOrder
import ThreatGraph.Proofs.Chunks
import ThreatGraph.Proofs.CommandRuns
import ThreatGraph.Proofs.CopiedFields
import ThreatGraph.Proofs.CopyChecks
import ThreatGraph.Proofs.Coupling
import ThreatGraph.Proofs.Courses
import ThreatGraph.Proofs.Days
import ThreatGraph.Proofs.Diagnostics
import ThreatGraph.Proofs.Distances
import ThreatGraph.Proofs.EncodedText
import ThreatGraph.Proofs.Encoding
import ThreatGraph.Proofs.Endpoints
import ThreatGraph.Proofs.ExactRedaction
import ThreatGraph.Proofs.Fetch
import ThreatGraph.Proofs.FieldEdits
import ThreatGraph.Proofs.FieldReading
import ThreatGraph.Proofs.Framing
import ThreatGraph.Proofs.Grammar
import ThreatGraph.Proofs.HiddenMembers
import ThreatGraph.Proofs.Hosts
import ThreatGraph.Proofs.IndicatorSecrecy
import ThreatGraph.Proofs.JsonText
import ThreatGraph.Proofs.Lengths
import ThreatGraph.Proofs.LineNumbers
import ThreatGraph.Proofs.Lines
import ThreatGraph.Proofs.Lockstep
import ThreatGraph.Proofs.Lookup
import ThreatGraph.Proofs.Members
import ThreatGraph.Proofs.NormalForm
import ThreatGraph.Proofs.Pages
import ThreatGraph.Proofs.PathSegments
import ThreatGraph.Proofs.PathText
import ThreatGraph.Proofs.QueryPairs
import ThreatGraph.Proofs.Redaction
import ThreatGraph.Proofs.RenderedLists
import ThreatGraph.Proofs.Replies
import ThreatGraph.Proofs.RequestedIds
import ThreatGraph.Proofs.Retries
import ThreatGraph.Proofs.RetryLoop
import ThreatGraph.Proofs.Server
import ThreatGraph.Proofs.SettingLayers
import ThreatGraph.Proofs.SubmitChecks
import ThreatGraph.Proofs.TagRoutes
import ThreatGraph.Proofs.TaggedPages
import ThreatGraph.Proofs.TimeForms
import ThreatGraph.Proofs.Timestamps
import ThreatGraph.Proofs.TokenSecrecy
import ThreatGraph.Proofs.Traffic
import ThreatGraph.Proofs.UrlText
import ThreatGraph.Proofs.Windows
import ThreatGraph.Proofs.WriteDiscipline
import ThreatGraph.Proofs.WriteOutcomes
import ThreatGraph.Proofs.WrittenMembers
import ThreatGraph.Settings.Basic
import ThreatGraph.Settings.Layer
import ThreatGraph.Text.Blank
import ThreatGraph.Text.Digit
import ThreatGraph.Text.Integer
import ThreatGraph.Text.Quoted
import ThreatGraph.Text.Split
import ThreatGraph.Text.Unprintable
import ThreatGraph.Text.Utf8
import ThreatGraph.Time.Calendar
import ThreatGraph.Time.Expression
import ThreatGraph.Time.Pattern
import ThreatGraph.Toml.Read
import ThreatGraph.Toml.Scalar
import ThreatGraph.Toml.Value
import ThreatGraph.Web.Domain
import ThreatGraph.Web.Form
import ThreatGraph.Web.Host
import ThreatGraph.Web.Http
import ThreatGraph.Web.Percent
import ThreatGraph.Web.Redaction
import ThreatGraph.Web.Url
import ThreatGraph.Web.UrlReader
