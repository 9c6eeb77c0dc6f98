import Nexterm.Lib.Join
import Nexterm.Lib.Maps
import Nexterm.Lib.Runs
import Nexterm.Server.Bsp
import Nexterm.Server.Tiling
import Nexterm.Server.WindowInv
import Nexterm.Server.Moves
import Nexterm.Server.Conserve
import Nexterm.Server.Sizes
import Nexterm.Server.LaidOut
import Nexterm.Vt.Grid
import Nexterm.Vt.Performer
import Nexterm.Vt.Dirty
import Nexterm.Server.Reader
import Nexterm.Lib.Overwrite
import Nexterm.Lib.Replica
import Nexterm.Ipc.Stream
import Nexterm.Ipc.Lag
import Nexterm.Ipc.Attach
import Nexterm.Ipc.Split
import Nexterm.Vt.Apc
import Nexterm.Vt.Trace
import Nexterm.Vt.Bounds
import Nexterm.Vt.Region
import Nexterm.Vt.Scrollback
import Nexterm.Ipc.Cursor
import Nexterm.Ipc.History
import Nexterm.Server.Snapshot
import Nexterm.Server.Restore
import Nexterm.Lib.Words
import Nexterm.Server.Paste
import Nexterm.Lib.Codec
import Nexterm.Lib.Delimited
import Nexterm.Lib.Frames
import Nexterm.Vt.Image
import Nexterm.Vt.Text
import Nexterm.Vt.Caps
import Nexterm.Ipc.Wire
import Nexterm.Ipc.Outbox
import Nexterm.Ipc.Frame
import Nexterm.Client.Blocks
import Nexterm.Client.Pane
import Nexterm.Client.Identity
import Nexterm.Client.Collapse
import Nexterm.Lib.Greedy
import Nexterm.Client.QuickSelect
import Nexterm.Client.Labels
import Nexterm.Client.Scroll
import Nexterm.Lib.Cyclic
import Nexterm.Client.Search
import Nexterm.Client.CopyMode
import Nexterm.Client.AtlasCaches
import Nexterm.Lib.Urls
import Nexterm.Web.Auth
import Nexterm.Web.Oauth
import Nexterm.Web.Otp
import Nexterm.Client.GlyphAtlas
import Nexterm.Lib.Fallible
import Nexterm.Client.Indices
import Nexterm.Client.RenderCache
import Nexterm.Client.Borders
import Nexterm.Vt.AltScreen
import Nexterm.Server.Workspaces
import Nexterm.Vt.Hyperlink
import Nexterm.Ipc.Replies
import Nexterm.Lib.Scan
import Nexterm.Plugin.Host
import Nexterm.Plugin.Sanitize
import Nexterm.Plugin.Feed
import Nexterm.Web.Login
import Nexterm.Web.Setup
import Nexterm.Server.Persist
import Nexterm.Settings.Lua
import Nexterm.Settings.Reload
import Nexterm.Settings.Load
import Nexterm.Settings.Save
import Nexterm.Settings.Ssh
import Nexterm.Lib.Toml
import Nexterm.Settings.Reloaded
import Nexterm.Settings.Keybindings
import Nexterm.Settings.RoundTrip
import Nexterm.Server.Layouts
import Nexterm.Server.Subtrees
import Nexterm.Server.Tabs
import Nexterm.Server.Focus
import Nexterm.Server.Floating
import Nexterm.Lib.Forest
import Nexterm.A11y.NodeIds
import Nexterm.A11y.Widgets
import Nexterm.A11y.Tree
import Nexterm.A11y.Shape
import Nexterm.A11y.Session
import Nexterm.A11y.Feed
import Nexterm.A11y.Unhashed
import Nexterm.A11y.Stale
import Nexterm.Lib.Skips
import Nexterm.Client.BlockRows
import Nexterm.Client.Prompts
import Nexterm.Lib.Utf8
import Nexterm.Client.Replay
import Nexterm.Vt.Uri
import Nexterm.Vt.Marked
import Nexterm.Vt.MouseMode
import Nexterm.Vt.Percent
import Nexterm.Vt.FreeText
import Nexterm.Vt.Chunks
import Nexterm.Vt.Accept
import Nexterm.Lib.Positions
import Nexterm.Vt.SixelIndex
import Nexterm.Vt.SixelPaint
import Nexterm.Server.DragDrop
import Nexterm.Server.FileUri
import Nexterm.Server.Asciicast
import Nexterm.Server.Keys
import Nexterm.Vt.SgrLists
import Nexterm.Vt.Colors
import Nexterm.Vt.WideChars
import Nexterm.Lib.Csv
import Nexterm.Web.Rotation
import Nexterm.Web.AccessLog
import Nexterm.Web.Dates
import Nexterm.Lib.SlidingWindow
import Nexterm.Web.RateLimit
import Nexterm.Lib.Calendar
import Nexterm.Server.PluginRead
import Nexterm.Ssh.Socks5
import Nexterm.Server.ClientPaths
import Nexterm.Settings.KeyConflicts
import Nexterm.Client.SshConfig
import Nexterm.Lib.TextRange
import Nexterm.Client.Mouse
import Nexterm.Client.MouseSelect
import Nexterm.Client.MouseReports
import Nexterm.Lib.StrLines
import Nexterm.Lib.TomlLines
import Nexterm.Settings.Theme
import Nexterm.Lib.Digits
import Nexterm.Lib.Zipper
import Nexterm.Lib.While
import Nexterm.Vt.CursorReport
import Nexterm.Settings.TextInput
import Nexterm.Server.LogWriter
import Nexterm.A11y.History
import Nexterm.Lib.Markup
import Nexterm.Lib.LastWrite
import Nexterm.Settings.ItermColors
import Nexterm.Settings.AlacrittyColors
import Nexterm.Vt.Roll
import Nexterm.Vt.Lines
import Nexterm.Lib.Inlet
import Nexterm.Ipc.Handshake
import Nexterm.Lib.Trails
import Nexterm.Web.OauthFlow
import Nexterm.Web.Access
import Nexterm.Ipc.Text
import Nexterm.Client.Links
import Nexterm.Client.Consent
import Nexterm.Lib.Spans
import Nexterm.Client.CopyKeys
import Nexterm.Lib.Mailbox
import Nexterm.Settings.LuaWorker
import Nexterm.Settings.StatusBar
import Nexterm.Server.Macros
import Nexterm.Ssh.HostKeys
import Nexterm.Ssh.Passwords
import Nexterm.Ssh.Keychain
