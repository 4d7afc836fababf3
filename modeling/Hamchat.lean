import Hamchat.Foundation.FullPeriod
import Hamchat.Foundation.OpenAddressing
import Hamchat.Foundation.PartialRun
import Hamchat.Foundation.HighWater
import Hamchat.Foundation.TwoRuns
import Hamchat.Foundation.Framing
import Hamchat.Foundation.Interning
import Hamchat.Foundation.Cursor
import Hamchat.Foundation.Fields
import Hamchat.Foundation.SerialDivision
import Hamchat.Foundation.WhileLoop
import Hamchat.Foundation.RegisterSynthesis
import Hamchat.Foundation.ErrorLocator
import Hamchat.Foundation.PowerTable
import Hamchat.CString
import Hamchat.CharArray
import Hamchat.Numbers
import Hamchat.Crc
import Hamchat.Rig
import Hamchat.Dict.Defs
import Hamchat.Dict.Probing
import Hamchat.Dict.Lookup
import Hamchat.Dict.Update
import Hamchat.Dict.Map
import Hamchat.Dict.Deletion
import Hamchat.Dict.InsertOnly
import Hamchat.Dict.Blob
import Hamchat.Dict.Growth
import Hamchat.Dict.Count
import Hamchat.Dict.Getters
import Hamchat.Dict.Integers
import Hamchat.Dict.Enumeration
import Hamchat.Dict.Allocation
import Hamchat.Config.Defs
import Hamchat.Config.Format
import Hamchat.Config.Reading
import Hamchat.Config.Trimming
import Hamchat.Config.General
import Hamchat.Config.Entries
import Hamchat.Config.Radio
import Hamchat.Socket.Defs
import Hamchat.Client.Defs
import Hamchat.Parser.Defs
import Hamchat.Socket.Address
import Hamchat.Parser.Steps
import Hamchat.Parser.Command
import Hamchat.Parser.Line
import Hamchat.Parser.Lock
import Hamchat.Parser.Bounds
import Hamchat.Parser.Chunking
import Hamchat.Parser.Pending
import Hamchat.Parser.Parameters
import Hamchat.Parser.Similar
import Hamchat.Parser.Tokens
import Hamchat.Parser.Storage
import Hamchat.Parser.CommandLine
import Hamchat.Parser.Consumed
import Hamchat.Parser.Prefix
import Hamchat.Parser.Dispatch
import Hamchat.Client.Handlers
import Hamchat.Heartbeat
import Hamchat.Client.Registration
import Hamchat.Client.Session
import Hamchat.Client.Order
import Hamchat.Client.Flags
import Hamchat.Client.Password
import Hamchat.Client.Lifetime
import Hamchat.Client.Send
import Hamchat.Server.Defs
import Hamchat.Server.Steps
import Hamchat.Server.Lookup
import Hamchat.Server.Membership
import Hamchat.Server.Uniqueness
import Hamchat.Server.Channels
import Hamchat.Server.ChannelNames
import Hamchat.Server.ChannelLimit
import Hamchat.Server.Statistics
import Hamchat.Client.Storage
import Hamchat.Client.StoredStrings
import Hamchat.Network.Defs
import Hamchat.Network.Handlers
import Hamchat.Network.Errors
import Hamchat.Network.Runs
import Hamchat.Network.Registration
import Hamchat.Network.Changes
import Hamchat.Network.Statistics
import Hamchat.Network.Lines
import Hamchat.Network.Forget
import Hamchat.Network.Garbage
import Hamchat.Network.Speaking
import Hamchat.Network.Names
import Hamchat.Network.Part
import Hamchat.Network.Splitter
import Hamchat.Network.Kill
import Hamchat.Network.Bystanders
import Hamchat.Network.Routing
import Hamchat.Network.Permanence
import Hamchat.Ardop.Galois
import Hamchat.Ardop.Coder
import Hamchat.Ardop.Arrays
import Hamchat.Ardop.Encoding
import Hamchat.Ardop.Locator
import Hamchat.Ardop.Correction
import Hamchat.Ardop.Decoding
import Hamchat.Ardop.Independence
import Hamchat.Ardop.FrameCheck
import Hamchat.Ardop.Frames
import Hamchat.Ardop.Delivery
import Hamchat.Ardop.MemoryArq
import Hamchat.Ardop.Repetition
import Hamchat.Ardop.Gears
import Hamchat.Ardop.Turnover
import Hamchat.Ardop.Hangup
