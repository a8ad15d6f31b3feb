import Conhost.Basic
import Conhost.Lib.Loop
import Conhost.Lib.TokenStream
import Conhost.Lib.BinarySearch
import Conhost.Screen.Buffer
import Conhost.Screen.VtOutput
import Conhost.Screen.Invariant
import Conhost.Screen.OutputInvariant
import Conhost.Screen.Requests
import Conhost.Screen.Streaming
import Conhost.Screen.Replies
import Conhost.Input.VtDecoder
import Conhost.Input.Decode
import Conhost.Input.Handle
import Conhost.Input.ByteRead
import Conhost.Input.Transparency
import Conhost.Input.Delivery
import Conhost.Input.Records
import Conhost.Input.RecordStream
import Conhost.Input.UnicodeRead
import Conhost.Input.LineEdit
import Conhost.Input.Cooked
import Conhost.Input.Progress
import Conhost.Input.Lines
import Conhost.Server.History
import Conhost.Server.State
import Conhost.Server.Message
import Conhost.Lib.Run
import Conhost.Input.Waiting
import Conhost.Server.ScreenApi
import Conhost.Server.GlobalApi
import Conhost.Server.InputApi
import Conhost.Server.Dispatch
import Conhost.Server.Isolation
import Conhost.Server.Loop
import Conhost.Server.Completion
import Conhost.Server.Frame
import Conhost.Server.IdleExit
import Conhost.Server.Binding
import Conhost.Server.Stranded
import Conhost.Screen.Drawing
import Conhost.Screen.Parser
import Conhost.Screen.Calls
import Conhost.Screen.ControlString
import Conhost.Screen.AlternateScreen
import Conhost.Lib.SymbolCode
import Conhost.Lib.Unicode
import Conhost.Screen.Pieces
import Conhost.Server.EncodedOutput
import Conhost.Input.Conversion
import Conhost.Server.HostOutput
import Conhost.Lib.SymbolStream
import Conhost.Input.TextTokens
import Conhost.Core.Utf8Stream
import Conhost.Core.Utf8Exact
import Conhost.Core.HostSignals
import Conhost.Input.Peek
import Conhost.Server.EventCount
import Conhost.Input.Capacity
import Conhost.Input.KeyEncoder
import Conhost.Input.WindowKeys
import Conhost.Server.ReplySize
import Conhost.Server.Footprint
import Conhost.Server.HistoryOwners
import Conhost.Server.Tables
import Conhost.Screen.Revision
import Conhost.Screen.Snapshot
import Conhost.Server.Painting
import Conhost.Server.Publication
import Conhost.Input.Interrupt
import Conhost.Server.Flush
import Conhost.Input.Discard
import Conhost.Input.ByteTokens
import Conhost.Input.EndOfFile
import Conhost.Input.UnicodeTokens
import Conhost.Input.ControlZ
import Conhost.Input.BufferSizes
import Conhost.Input.Disconnect
import Conhost.Input.TextRecords
import Conhost.Server.Injection
import Conhost.Core.FastNumber
import Conhost.Cli.CommandLine
import Conhost.Cli.Arguments
import Conhost.Cli.RoundTrip
import Conhost.Lib.Replies
import Conhost.Input.Repeats
import Conhost.Input.RepeatedUnits
import Conhost.Input.RepeatedBytes
import Conhost.Input.RepeatedLines
import Conhost.Input.LineRequests
import Conhost.Input.RepeatedLineReads
import Conhost.Input.RepeatCounts
import Conhost.Input.VtGrammar
import Conhost.Input.Undecided
import Conhost.Input.CodePages
import Conhost.Screen.RedundantSwitch
import Conhost.Screen.HardReset
import Conhost.Screen.CursorRoundTrip
import Conhost.Lib.GapLine
import Conhost.Input.CodePoints
import Conhost.Input.CodePointEditor
import Conhost.Lib.Since
import Conhost.Screen.Glyphs
import Conhost.Screen.DelayedWrap
import Conhost.Lib.Tape
import Conhost.Lib.Grid
import Conhost.Screen.Cells
import Conhost.Screen.Scrolling
import Conhost.Screen.LineOperations
import Conhost.Screen.ScrollRequest
import Conhost.Screen.RowEdits
import Conhost.Screen.PlainOutput
import Conhost.Lib.Numeral
import Conhost.Lib.Scan
import Conhost.Screen.CsiText
import Conhost.Screen.Rendition
import Conhost.Screen.CsiNumbers
import Conhost.Screen.Titles
import Conhost.Screen.PositionReport
import Conhost.Lib.Nearest
import Conhost.Screen.Viewport
import Conhost.Screen.Resize
import Conhost.Server.BufferInfo
import Conhost.Input.EchoMirror
import Conhost.Lib.Recency
import Conhost.Server.CellStore
import Conhost.Server.HistoryContents
import Conhost.Server.HistoryPolicy
import Conhost.Server.ListSizes
import Conhost.Core.NumberParsers
import Conhost.Core.Utf8Pending
import Conhost.Lib.FixedArray
import Conhost.Screen.ParserArrays
import Conhost.Input.LineCursor
import Conhost.Input.ReadLoops
import Conhost.Lib.Layer
import Conhost.Config.AppConfig
import Conhost.Config.Precedence
import Conhost.Lib.IdleTimer
import Conhost.Lib.DrainClock
import Conhost.Lib.Pipe
import Conhost.Runtime.TerminalOutput
import Conhost.Runtime.TerminalDrain
import Conhost.Runtime.TerminalScreen
import Conhost.Runtime.PtyRelay
import Conhost.Runtime.RelayRuns
import Conhost.Runtime.RelayEnd
import Conhost.Lib.Threads
import Conhost.Runtime.Embedding
import Conhost.Runtime.EmbeddingRuns
