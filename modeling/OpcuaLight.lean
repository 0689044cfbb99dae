import OpcuaLight.Lib.Machine
import OpcuaLight.Lib.JsMap
import OpcuaLight.Lib.Js
import OpcuaLight.Lib.Forest
import OpcuaLight.Lib.Intern
import OpcuaLight.Lib.Lineage
import OpcuaLight.Lib.Rows
import OpcuaLight.Lib.Lines
import OpcuaLight.Lib.Binary
import OpcuaLight.Lib.Sql
import OpcuaLight.Connector.Types
import OpcuaLight.Connector.Address
import OpcuaLight.Connector.Base
import OpcuaLight.Connector.EthernetIp
import OpcuaLight.Connector.Modbus
import OpcuaLight.Connector.Pccc
import OpcuaLight.Connector.S7
import OpcuaLight.Connector.Step
import OpcuaLight.Connector.Frame
import OpcuaLight.Connector.Wellformed
import OpcuaLight.Connector.Handlers
import OpcuaLight.Connector.Reach
import OpcuaLight.Connector.Control
import OpcuaLight.Connector.Interrupted
import OpcuaLight.Connector.Held
import OpcuaLight.Connector.Connected
import OpcuaLight.Connector.Progress
import OpcuaLight.Connector.Removal
import OpcuaLight.Connector.PollList
import OpcuaLight.Connector.Provenance
import OpcuaLight.Connector.Quality
import OpcuaLight.Db.Schema
import OpcuaLight.Db.Repositories
import OpcuaLight.Db.ConnectorRepository
import OpcuaLight.Db.Reachable
import OpcuaLight.Db.Hierarchy
import OpcuaLight.Db.Links
import OpcuaLight.Db.Cascade
import OpcuaLight.Db.Mappings
import OpcuaLight.Db.Deletion
import OpcuaLight.Db.Uniqueness
import OpcuaLight.Db.Migrations
import OpcuaLight.Db.SchemaVersions
import OpcuaLight.Config.Generator
import OpcuaLight.Config.Security
import OpcuaLight.Config.Tree
import OpcuaLight.Process.Manager
import OpcuaLight.Process.Tracking
import OpcuaLight.Runtime.NodeId
import OpcuaLight.Cache.Store
import OpcuaLight.Cache.Fallback
import OpcuaLight.Runtime.Server
import OpcuaLight.Runtime.Literals
import OpcuaLight.Runtime.AddressSpace
import OpcuaLight.Runtime.Numbering
import OpcuaLight.Runtime.Identifiers
import OpcuaLight.Api.AddressSpace
import OpcuaLight.Api.Lifecycle
import OpcuaLight.Api.Polling
import OpcuaLight.Api.Stopping
import OpcuaLight.Api.Freshness
import OpcuaLight.Api.Params
import OpcuaLight.Api.Connectors
import OpcuaLight.Api.Outcomes
import OpcuaLight.Api.Mirror
import OpcuaLight.Api.Loading
import OpcuaLight.Api.Acceptance
import OpcuaLight.Api.Mirroring
import OpcuaLight.Runtime.Items
import OpcuaLight.Runtime.Reload
import OpcuaLight.Connector.IpcBridge
import OpcuaLight.Api.Bridging
import OpcuaLight.Runtime.Ipc
import OpcuaLight.Runtime.Status
import OpcuaLight.Runtime.DataTypes
import OpcuaLight.Runtime.Stdin
import OpcuaLight.Runtime.Framing
import OpcuaLight.Pki.Verifier
import OpcuaLight.Pki.Revocation
import OpcuaLight.Pki.Exclusion
import OpcuaLight.Db.Preservation
import OpcuaLight.Connector.Throwing
import OpcuaLight.Connector.Updating
import OpcuaLight.Connector.PollGuard
import OpcuaLight.Connector.LiveValues
import OpcuaLight.Connector.Timestamps
import OpcuaLight.Connector.Registry
import OpcuaLight.Connector.Callbacks
import OpcuaLight.Connector.StatusFeed
import OpcuaLight.Connector.ValueFeed
import OpcuaLight.Lib.Loop
import OpcuaLight.Plugins.Loader
import OpcuaLight.Plugins.Partition
import OpcuaLight.Lib.Numerals
import OpcuaLight.Lib.JsonText
import OpcuaLight.Api.CsvText
import OpcuaLight.Db.Proper
import OpcuaLight.Api.MappingsCsv
import OpcuaLight.Api.MappingsRestored
import OpcuaLight.Connector.NodeIds
import OpcuaLight.Config.Builders
import OpcuaLight.Cert.IpAddress
import OpcuaLight.Cert.AutoFill
import OpcuaLight.Cert.Generator
import OpcuaLight.Lib.Doubles
import OpcuaLight.Connector.ModbusAddress
import OpcuaLight.Lib.Base64
import OpcuaLight.Runtime.PemToDer
import OpcuaLight.Lib.RingBuffer
import OpcuaLight.Runtime.StdinQueue
import OpcuaLight.Api.NodesCsv
import OpcuaLight.Api.NodesRestored
import OpcuaLight.Lib.Compaction
import OpcuaLight.Runtime.Endpoints
import OpcuaLight.Cert.Pem
import OpcuaLight.Lib.Strtoul
import OpcuaLight.Runtime.NodeIdGrammar
import OpcuaLight.Lib.Paths
import OpcuaLight.Runtime.StatusPath
import OpcuaLight.Config.Output
import OpcuaLight.Runtime.ConfigFile
import OpcuaLight.Runtime.SecurityConfig
import OpcuaLight.Lib.Dates
import OpcuaLight.Runtime.Messages
import OpcuaLight.Runtime.Process
import OpcuaLight.Lib.Signal
import OpcuaLight.Runtime.ReloadSignal
import OpcuaLight.Api.SseHub
import OpcuaLight.Web.Dashboard
import OpcuaLight.Lib.Timers
import OpcuaLight.Web.UseSse
import OpcuaLight.Log.LogService
import OpcuaLight.Web.LogPanel
import OpcuaLight.Lib.Utf8Lossy
import OpcuaLight.Runtime.StatusWriter
import OpcuaLight.Process.Sessions
import OpcuaLight.Process.Reports
import OpcuaLight.Web.ClientsTable
