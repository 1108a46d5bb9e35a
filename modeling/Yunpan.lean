import Yunpan.Agent.Api
import Yunpan.Agent.Download
import Yunpan.Agent.Resolve
import Yunpan.Agent.Target
import Yunpan.Agent.Tools
import Yunpan.Client.Handshake
import Yunpan.Client.Lifecycle
import Yunpan.Client.Retries
import Yunpan.Client.Run
import Yunpan.Client.Session
import Yunpan.Core.Address
import Yunpan.Core.Appended
import Yunpan.Core.Base64
import Yunpan.Core.BigEndian
import Yunpan.Core.Confined
import Yunpan.Core.Crash
import Yunpan.Core.DesktopEntry
import Yunpan.Core.Disk
import Yunpan.Core.FileTree
import Yunpan.Core.Framing
import Yunpan.Core.IndexMap
import Yunpan.Core.Mirror
import Yunpan.Core.PairingTable
import Yunpan.Core.Percent
import Yunpan.Core.Polling
import Yunpan.Core.Program
import Yunpan.Core.PropertyList
import Yunpan.Core.Reads
import Yunpan.Core.Separator
import Yunpan.Core.Slot
import Yunpan.Core.Stored
import Yunpan.Core.Takeover
import Yunpan.Core.Template
import Yunpan.Core.Text
import Yunpan.Core.Traced
import Yunpan.Core.Transition
import Yunpan.Core.Update
import Yunpan.Core.Value
import Yunpan.Core.Xml
import Yunpan.Desktop.Agreement
import Yunpan.Desktop.Autostart
import Yunpan.Desktop.Calm
import Yunpan.Desktop.Clipboard
import Yunpan.Desktop.Config
import Yunpan.Desktop.Engine
import Yunpan.Desktop.Instance
import Yunpan.Desktop.Logs
import Yunpan.Desktop.Password
import Yunpan.Desktop.Window
import Yunpan.Dufs.Access
import Yunpan.Dufs.Bearer
import Yunpan.Dufs.Contained
import Yunpan.Dufs.Credentials
import Yunpan.Dufs.Fetch
import Yunpan.Dufs.Handle
import Yunpan.Dufs.Hidden
import Yunpan.Dufs.Listing
import Yunpan.Dufs.Nearest
import Yunpan.Dufs.Paths
import Yunpan.Dufs.Permitted
import Yunpan.Dufs.Ranges
import Yunpan.Dufs.Readable
import Yunpan.Dufs.Reading
import Yunpan.Dufs.Resolve
import Yunpan.Dufs.Rules
import Yunpan.Dufs.Serve
import Yunpan.Dufs.Server
import Yunpan.Dufs.Upload
import Yunpan.Dufs.Uploader
import Yunpan.Protocol.Ascii
import Yunpan.Protocol.Frames
import Yunpan.Protocol.Json
import Yunpan.Protocol.Message
import Yunpan.Protocol.Sha256
import Yunpan.Protocol.Signature
import Yunpan.Protocol.Transcript
import Yunpan.Protocol.Urlencode
import Yunpan.Relay.Cases
import Yunpan.Relay.Channel
import Yunpan.Relay.Config
import Yunpan.Relay.Custody
import Yunpan.Relay.Effects
import Yunpan.Relay.FirstBlock
import Yunpan.Relay.Handshake
import Yunpan.Relay.Heartbeat
import Yunpan.Relay.Identity
import Yunpan.Relay.Isolation
import Yunpan.Relay.Listeners
import Yunpan.Relay.PathRouting
import Yunpan.Relay.Probe
import Yunpan.Relay.Progress
import Yunpan.Relay.Registry
import Yunpan.Relay.Replay
import Yunpan.Relay.Session
import Yunpan.Relay.Startup
import Yunpan.Relay.State
import Yunpan.Relay.Step
import Yunpan.Relay.Succession
import Yunpan.Relay.Teardown
import Yunpan.Relay.Wire
import Yunpan.Tunnel.Agreement
import Yunpan.Tunnel.Lines
import Yunpan.Tunnel.NeverFatal
import Yunpan.Tunnel.Reconnect
import Yunpan.Tunnel.Shown
