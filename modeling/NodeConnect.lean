import NodeConnect.Lib.Run
import NodeConnect.Lib.Window
import NodeConnect.Lib.ByteStream
import NodeConnect.Gbn.Messages
import NodeConnect.Gbn.Queue
import NodeConnect.Gbn.QueueSafety
import NodeConnect.Gbn.Connection
import NodeConnect.Gbn.Moves
import NodeConnect.Gbn.Positions
import NodeConnect.Gbn.Answers
import NodeConnect.Gbn.Delivery
import NodeConnect.Gbn.ArbitraryPeer
import NodeConnect.Gbn.ServerHandshake
import NodeConnect.Lib.Fallible
import NodeConnect.Noise.Cipher
import NodeConnect.Noise.Handshake
import NodeConnect.Noise.Machine
import NodeConnect.Noise.Conveys
import NodeConnect.Noise.Acts
import NodeConnect.Noise.Agreement
import NodeConnect.Noise.Session
import NodeConnect.Lib.HashChain
import NodeConnect.Noise.Transcript
import NodeConnect.Noise.Views
import NodeConnect.Noise.Relay
import NodeConnect.Noise.Transport
import NodeConnect.Lib.KeyedCounter
import NodeConnect.Noise.Sealed
import NodeConnect.Noise.Nonces
import NodeConnect.Noise.Interrupted
import NodeConnect.Noise.Pairing
import NodeConnect.Noise.Mismatch
import NodeConnect.Gbn.Recovery
import NodeConnect.Gbn.WakeUp
import NodeConnect.Gbn.Opening
import NodeConnect.Gbn.OpeningAgreement
import NodeConnect.Gbn.Leftovers
import NodeConnect.Lib.Framing
import NodeConnect.Gbn.Framing
import NodeConnect.Gbn.Boundaries
import NodeConnect.Noise.FailedHandshake
import NodeConnect.Noise.AuthData
import NodeConnect.Noise.Fragments
import NodeConnect.Lib.StreamReader
import NodeConnect.Noise.ConnRead
import NodeConnect.Noise.Flushing
import NodeConnect.Noise.ConnWrite
import NodeConnect.Lib.Simulation
import NodeConnect.Lib.Pipe
import NodeConnect.Mailbox.MsgData
import NodeConnect.Mailbox.ConnKit
import NodeConnect.Gbn.QueueRefinement
import NodeConnect.Gbn.ResendLabels
import NodeConnect.Gbn.Syncing
import NodeConnect.Gbn.MissedSync
import NodeConnect.Gbn.SyncRounds
import NodeConnect.Gbn.TimeoutManager
import NodeConnect.Gbn.ResendEstimate
import NodeConnect.Gbn.Keepalive
import NodeConnect.Gbn.PausedPong
import NodeConnect.Gbn.TimedNet
import NodeConnect.Gbn.RoundTrips
import NodeConnect.Gbn.WireFormat
import NodeConnect.Mailbox.MsgFormat
import NodeConnect.Gbn.PongTimeout
import NodeConnect.Lib.BitStream
import NodeConnect.Mailbox.Passphrase
import NodeConnect.Client.Permissions
import NodeConnect.Noise.Integrity
import NodeConnect.EndToEnd.Delivery
import NodeConnect.EndToEnd.Completion
import NodeConnect.Mailbox.Streams
import NodeConnect.Mailbox.StreamDelivery
import NodeConnect.Mailbox.Shutdown
import NodeConnect.Lib.Pool
import NodeConnect.Mailbox.Listener
import NodeConnect.Lib.Succession
import NodeConnect.Mailbox.Sessions
import NodeConnect.Mailbox.SessionStreams
import NodeConnect.Mailbox.Boxes
import NodeConnect.Client.Namespaces
import NodeConnect.Client.Connections
