import Libp2pCat.Noise.Agreement
import Libp2pCat.Noise.Delivery
import Libp2pCat.Identity
import Libp2pCat.Host.State
import Libp2pCat.Host.Cookie
import Libp2pCat.Host.Operations
import Libp2pCat.Host.Inbound
import Libp2pCat.Host.Steps
import Libp2pCat.Host.VerifiedPeers
import Libp2pCat.Host.CookieGate
import Libp2pCat.Host.Dialing
import Libp2pCat.Kad.Codec
import Libp2pCat.Kad.Node
import Libp2pCat.Host.Outcomes
import Libp2pCat.Kad.Lookup
import Libp2pCat.Kad.Survival
import Libp2pCat.Pubsub.Codec
import Libp2pCat.Pubsub.Mux
import Libp2pCat.Pubsub.Reactions
import Libp2pCat.Pubsub.RelayBound
import Libp2pCat.Rendezvous.Codec
import Libp2pCat.Rendezvous.Node
import Libp2pCat.Rendezvous.Survival
import Libp2pCat.Host.Tables
import Libp2pCat.Host.Traffic
import Libp2pCat.Host.EvictionClock
import Libp2pCat.Host.Nonces
import Libp2pCat.Lib.Reader
import Libp2pCat.Kad.RoundTrip
import Libp2pCat.Lib.Assoc
import Libp2pCat.Rendezvous.RoundTrip
import Libp2pCat.Kad.TableInvariant
import Libp2pCat.Lib.OrderedMap
import Libp2pCat.Kad.Machine
import Libp2pCat.Kad.Bounds
import Libp2pCat.Mux.Node
import Libp2pCat.Mux.Driver
import Libp2pCat.Lib.Lockstep
import Libp2pCat.Mux.Agreement
import Libp2pCat.Mux.Provenance
import Libp2pCat.Kad.Closest
import Libp2pCat.Noise.Replay
import Libp2pCat.Pubsub.Auth
import Libp2pCat.Pubsub.RoundTrip
import Libp2pCat.Pubsub.Roles
import Libp2pCat.Pubsub.Lifecycle
import Libp2pCat.Host.CookieIdentity
import Libp2pCat.Host.IdleClock
import Libp2pCat.Host.LruEviction
import Libp2pCat.Kad.Hearsay
import Libp2pCat.Mux.Hearsay
import Libp2pCat.Kad.Metric
import Libp2pCat.Kad.Recency
import Libp2pCat.Kad.Shortlist
import Libp2pCat.Kad.Outstanding
import Libp2pCat.Pubsub.FastPath
import Libp2pCat.Pubsub.IdleSweep
import Libp2pCat.Mux.ReplySize
import Libp2pCat.Lib.Drain
import Libp2pCat.Pubsub.Fanout
import Libp2pCat.Pubsub.Pollution
import Libp2pCat.Host.Channel
import Libp2pCat.Mux.Traffic
import Libp2pCat.Host.Session
import Libp2pCat.Rpc.Transport
import Libp2pCat.Rpc.Calls
import Libp2pCat.Rpc.Sessions
import Libp2pCat.Lib.Follows
import Libp2pCat.Host.SimultaneousDials
import Libp2pCat.Kad.Convergence
import Libp2pCat.Kad.Sessions
import Libp2pCat.Rendezvous.Sessions
import Libp2pCat.Rendezvous.Relay
