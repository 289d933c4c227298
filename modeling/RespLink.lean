import RespLink.Client.Call
import RespLink.PubSub.Bus
import RespLink.Testbed.Session
import RespLink.Proofs.Moves
import RespLink.Proofs.Turns
import RespLink.Proofs.Conservation
import RespLink.Proofs.Scene
import RespLink.Proofs.Gate
import RespLink.Proofs.Ledger
import RespLink.Proofs.Hearing
import RespLink.Proofs.Accounts
import RespLink.Proofs.Streams
import RespLink.Proofs.Characters
import RespLink.Proofs.Numerals
import RespLink.Proofs.RoundTrip
import RespLink.Proofs.WireOrder
import RespLink.Proofs.Pipelines
import RespLink.Proofs.Failures
import RespLink.Proofs.Partings
import RespLink.Proofs.Retries
import RespLink.Proofs.Latecomers
import RespLink.Proofs.Cuts
import RespLink.Proofs.Asides
import RespLink.Proofs.Acknowledgements
import RespLink.Proofs.Timers
import RespLink.Proofs.Affinity
import RespLink.Proofs.Subscribers
import RespLink.Proofs.Routes
import RespLink.Proofs.Calls
import RespLink.Proofs.Broadcasts
import RespLink.Proofs.Spacing
import RespLink.Proofs.Dials
import RespLink.Proofs.Walks
import RespLink.Proofs.Completions
import RespLink.Proofs.Registrations
import RespLink.Proofs.Verdicts
import RespLink.Proofs.EightBit
import RespLink.Proofs.Sheets
import RespLink.Proofs.ConnectionStrings
import RespLink.Proofs.MasterAddresses
import RespLink.Proofs.Queries
import RespLink.Proofs.Records
import RespLink.Proofs.Addresses
import RespLink.Proofs.Frames
import RespLink.Proofs.Positions
