import OpenAirplay2.Lib.Transition
import OpenAirplay2.Lib.Str
import OpenAirplay2.Lib.Ledger
import OpenAirplay2.Player.Queue
import OpenAirplay2.Player.Steps
import OpenAirplay2.Player.Accounts
import OpenAirplay2.Player.Rest
import OpenAirplay2.Player.Due
import OpenAirplay2.Player.Attention
import OpenAirplay2.Player.Conservation
import OpenAirplay2.Player.Records
import OpenAirplay2.Player.Overwrites
import OpenAirplay2.Player.Lateness
import OpenAirplay2.Buffered.Seek
import OpenAirplay2.Pairing.Tlv
import OpenAirplay2.Pairing.Srp
import OpenAirplay2.Pairing.PairSetup
import OpenAirplay2.Player.Position
import OpenAirplay2.Control.Dmap
import OpenAirplay2.Control.Host
import OpenAirplay2.Control.Session
import OpenAirplay2.Control.Http
import OpenAirplay2.Control.Fairplay
import OpenAirplay2.Control.Cipher
import OpenAirplay2.Control.Server
import OpenAirplay2.Control.Gate
import OpenAirplay2.Control.Nonces
import OpenAirplay2.Control.Effects
import OpenAirplay2.Takeover.Receiver
import OpenAirplay2.Takeover.Handover
import OpenAirplay2.Takeover.Sinks
import OpenAirplay2.Takeover.Exclusion
import OpenAirplay2.Lib.WaitGraph
import OpenAirplay2.Takeover.Waits
import OpenAirplay2.Takeover.Vacancy
import OpenAirplay2.Display.Protocol
import OpenAirplay2.Display.Publisher
import OpenAirplay2.Display.NowPlaying
import OpenAirplay2.Lib.Trace
import OpenAirplay2.Reporting.Connection
import OpenAirplay2.Reporting.Brackets
import OpenAirplay2.Reporting.Idle
import OpenAirplay2.Reporting.Following
import OpenAirplay2.Control.Reading
import OpenAirplay2.Control.Blocks
import OpenAirplay2.Control.Serving
import OpenAirplay2.Control.Framing
import OpenAirplay2.Control.Truncation
import OpenAirplay2.Lib.History
import OpenAirplay2.Player.Counting
import OpenAirplay2.Player.Order
import OpenAirplay2.Lib.SharedSecret
import OpenAirplay2.Pairing.Client
import OpenAirplay2.Pairing.Completion
import OpenAirplay2.Buffered.Boundary
import OpenAirplay2.Buffered.Counter
import OpenAirplay2.Buffered.Isolation
import OpenAirplay2.Display.Screen
import OpenAirplay2.Display.Staleness
import OpenAirplay2.Lib.Fragments
import OpenAirplay2.Pairing.TlvRoundTrip
import OpenAirplay2.Buffered.Reassembly
import OpenAirplay2.Buffered.Packets
import OpenAirplay2.Control.DmapGrammar
import OpenAirplay2.Control.Responses
import OpenAirplay2.Reporting.Positions
import OpenAirplay2.Lib.Spans
import OpenAirplay2.Reporting.Latching
import OpenAirplay2.Display.Images
import OpenAirplay2.Display.Envelopes
import OpenAirplay2.Display.Terminal
import OpenAirplay2.Display.OnScreen
import OpenAirplay2.Lib.Lossy
import OpenAirplay2.Display.Probe
import OpenAirplay2.Receiver.Mixer
import OpenAirplay2.Display.Roster
import OpenAirplay2.Display.Picker
import OpenAirplay2.Lib.Playback
import OpenAirplay2.Receiver.Output
import OpenAirplay2.Lib.Json
import OpenAirplay2.Receiver.Heard
import OpenAirplay2.Display.Wire
import OpenAirplay2.Display.Frames
import OpenAirplay2.Display.Client
import OpenAirplay2.Display.Viewer
import OpenAirplay2.Receiver.Played
import OpenAirplay2.Lib.Simulation
import OpenAirplay2.Display.Door
import OpenAirplay2.Lib.CommandLine
import OpenAirplay2.Receiver.Options
import OpenAirplay2.Control.Identity
import OpenAirplay2.Lib.Hex
import OpenAirplay2.Lib.CreateOnce
import OpenAirplay2.Lib.Counted
import OpenAirplay2.Control.Starts
import OpenAirplay2.Control.Announced
import OpenAirplay2.Control.Builder
import OpenAirplay2.Control.Accepting
