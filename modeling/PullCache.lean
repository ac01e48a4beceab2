import PullCache.AutoBlock
import PullCache.Clock.Agenda
import PullCache.Command.Args
import PullCache.Command.Report
import PullCache.Command.Run
import PullCache.Config.Basic
import PullCache.Config.Check
import PullCache.Config.EnvValue
import PullCache.Config.Fields
import PullCache.Config.Layers
import PullCache.Config.Load
import PullCache.Content.Basic
import PullCache.Content.Body
import PullCache.Content.Record
import PullCache.Cooperation.Basic
import PullCache.Cooperation.Script
import PullCache.Data.Json
import PullCache.Fault
import PullCache.Files
import PullCache.Freshness
import PullCache.Logging
import PullCache.Main
import PullCache.Origin.Etag
import PullCache.Origin.Exchange
import PullCache.Origin.Http
import PullCache.Proofs.AutoBlock
import PullCache.Proofs.Content.Body
import PullCache.Proofs.Cooperation.Step
import PullCache.Proofs.Cooperation.Table
import PullCache.Proofs.Freshness
import PullCache.Proofs.Proxy.Effect
import PullCache.Proofs.Proxy.Invalidation
import PullCache.Proofs.Proxy.Attribution
import PullCache.Proofs.Proxy.Provenance
import PullCache.Proofs.Proxy.Sharing
import PullCache.Proofs.Proxy.SingleFetch
import PullCache.Proofs.Proxy.Step
import PullCache.Proofs.Remote.Containment
import PullCache.Proofs.Resource
import PullCache.Proofs.Store.Memory
import PullCache.Proofs.Text.Quoted
import PullCache.Proofs.Text.Split
import PullCache.Proofs.Url.Authority
import PullCache.Proofs.Url.Domain
import PullCache.Proofs.Url.Path
import PullCache.Proxy.Basic
import PullCache.Proxy.Exchange
import PullCache.Proxy.Single
import PullCache.Proxy.Trial
import PullCache.Remote
import PullCache.Resource
import PullCache.Server.Routes
import PullCache.Server.Target
import PullCache.Store.Basic
import PullCache.Store.Echo
import PullCache.Store.Memory
import PullCache.Text.Blank
import PullCache.Text.CodePoints
import PullCache.Text.Compose
import PullCache.Text.Escaped
import PullCache.Text.FormQuery
import PullCache.Text.HeaderValue
import PullCache.Text.Percent
import PullCache.Text.Quoted
import PullCache.Text.Scan
import PullCache.Text.Size
import PullCache.Text.Utf8
import PullCache.Time.Civil
import PullCache.Time.Duration
import PullCache.Time.HttpDate
import PullCache.Time.Instant
import PullCache.Time.Timestamp
import PullCache.Url.Address
import PullCache.Url.Basic
import PullCache.Url.Domain
import PullCache.Url.Domain.Direction
import PullCache.Url.Domain.Joining
import PullCache.Url.Domain.Label
import PullCache.Url.Domain.Letters
import PullCache.Url.Domain.Punycode
import PullCache.Url.Extend
import PullCache.Url.Parse
import PullCache.Yaml.Cursor
import PullCache.Yaml.Node
import PullCache.Yaml.Scalar
import PullCache.Yaml.ScalarText
import PullCache.Yaml.Token
import PullCache.Yaml.Writer
import PullCache.Proofs.Cooperation.Calls
import PullCache.Proofs.Cooperation.Outcome
import PullCache.Proofs.Cooperation.Spacing
import PullCache.Proofs.Store.Copies
import PullCache.Proofs.Proxy.Solo
import PullCache.Proofs.Proxy.Session
import PullCache.Proofs.Proxy.Account
import PullCache.Proofs.Proxy.Blocking
import PullCache.Proofs.Proxy.Coherence
import PullCache.Proofs.Proxy.ContactLaw
import PullCache.Proofs.Store.Shelf
import PullCache.Proofs.Cooperation.Discipline
import PullCache.Proofs.Cooperation.Deadlines
import PullCache.Proofs.Cooperation.Dropping
import PullCache.Proofs.Freshness.History
import PullCache.Proofs.Proxy.Transparency
import PullCache.Proofs.Origin.EntityTag
import PullCache.Proofs.Proxy.Flow
import PullCache.Proofs.Proxy.Validators
import PullCache.Proofs.Config.Startup
import PullCache.Proofs.Ranks
import PullCache.Proofs.Cooperation.Independence
import PullCache.Proofs.Store.Interleaving
import PullCache.Proofs.Store.Racing
import PullCache.Proofs.Proxy.Exclusivity
import PullCache.Proofs.Content.Streams
import PullCache.Proofs.Content.Bounded
import PullCache.Proofs.Proxy.Course
import PullCache.Proofs.Proxy.Exchange
import PullCache.Proofs.Proxy.Degradation
import PullCache.Proofs.Proxy.Streaming
import PullCache.Proofs.Proxy.Bodies
import PullCache.Proofs.Proxy.Lending
import PullCache.Proofs.Proxy.Readers
import PullCache.Proofs.Cooperation.Waiters
import PullCache.Proofs.Content.Handles
import PullCache.Proofs.Text.Encoded
import PullCache.Proofs.Text.Digits
import PullCache.Proofs.Url.Address
import PullCache.Proofs.Url.Host
import PullCache.Proofs.Url.Normal
import PullCache.Proofs.Remote.Normalize
import PullCache.Proofs.Remote.Faithful
import PullCache.Proofs.Resource.SideFiles
import PullCache.Proofs.Config.Record
import PullCache.Proofs.Proxy.Reconfiguration
import PullCache.Proofs.Text.Scan
import PullCache.Proofs.Time.Civil
import PullCache.Proofs.Time.HttpDate
import PullCache.Proofs.Origin.LastModified
import PullCache.Proofs.Proxy.Dates
