import Lineage.Api.Address
import Lineage.Api.Catalogue
import Lineage.Api.Client
import Lineage.Api.ClientFault
import Lineage.Api.Object
import Lineage.Api.Reply
import Lineage.Api.Server
import Lineage.Api.Status
import Lineage.Api.Wire
import Lineage.Ascent
import Lineage.Chain
import Lineage.Cluster
import Lineage.Discovery.Group
import Lineage.Discovery.Survey
import Lineage.Discovery.Timer
import Lineage.Discovery.VersionOrder
import Lineage.Environment
import Lineage.Fault
import Lineage.Files.Path
import Lineage.Files.Tree
import Lineage.Fixed
import Lineage.GroupVersion
import Lineage.Index
import Lineage.Invocation.Command
import Lineage.Invocation.Words
import Lineage.Json.Basic
import Lineage.Json.Decode
import Lineage.Json.Printer
import Lineage.Json.Reader
import Lineage.Key
import Lineage.Kind
import Lineage.Kubeconfig.Basic
import Lineage.Kubeconfig.Document
import Lineage.Kubeconfig.Load
import Lineage.Kubeconfig.ServerAddress
import Lineage.Live
import Lineage.Main
import Lineage.Mapping
import Lineage.Mirror
import Lineage.Number.Double
import Lineage.Number.Natural
import Lineage.Owner
import Lineage.Program
import Lineage.Resolution
import Lineage.Session
import Lineage.Settings.Basic
import Lineage.Settings.Command
import Lineage.Settings.Document
import Lineage.Settings.Json
import Lineage.Settings.Key
import Lineage.Settings.Load
import Lineage.Settings.Place
import Lineage.Store
import Lineage.Sync
import Lineage.Text.Blank
import Lineage.Text.Quoted
import Lineage.Text.Table
import Lineage.Text.Utf8
import Lineage.Version
import Lineage.Watch
import Lineage.World
import Lineage.Yaml.Content
import Lineage.Yaml.Cursor
import Lineage.Yaml.Node
import Lineage.Yaml.Printer
import Lineage.Yaml.Scalar
import Lineage.Yaml.Token
import Lineage.Yaml.Token.Layout
import Lineage.Yaml.Token.Property
import Lineage.Yaml.Token.Scalar
import Lineage.Yaml.Value
import Lineage.Proofs.Climb
import Lineage.Proofs.Report
import Lineage.Proofs.HopBound
import Lineage.Proofs.Trail
import Lineage.Proofs.World
import Lineage.Proofs.Index
import Lineage.Proofs.Refresh
import Lineage.Proofs.Parent
import Lineage.Proofs.Calls
import Lineage.Proofs.Agreement
import Lineage.Proofs.SameObject
import Lineage.Proofs.History
import Lineage.Proofs.Following
import Lineage.Proofs.Faults
import Lineage.Proofs.Decimal
import Lineage.Proofs.Layers
import Lineage.Proofs.Precedence
import Lineage.Proofs.Files
import Lineage.Proofs.Readers
import Lineage.Proofs.Rewrite
import Lineage.Proofs.Scales
import Lineage.Proofs.Timetable
import Lineage.Proofs.BlockLines
import Lineage.Proofs.Overlap
import Lineage.Proofs.PlainText
import Lineage.Proofs.Rendering
import Lineage.Proofs.RoundTrip
import Lineage.Proofs.Reindexing
import Lineage.Proofs.Waiting
import Lineage.Proofs.Sameness
import Lineage.Proofs.Overlay
import Lineage.Proofs.VersionOrder
import Lineage.Proofs.GroupQuery
import Lineage.Proofs.ApiVersion
import Lineage.Proofs.Lens
import Lineage.Proofs.Confinement
import Lineage.Proofs.PodSearch
import Lineage.Proofs.Startup
import Lineage.Proofs.JsonObjects
import Lineage.Proofs.JsonWriting
import Lineage.Proofs.Forms
