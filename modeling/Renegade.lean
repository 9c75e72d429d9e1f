import Renegade.Crypto.Scalar
import Renegade.Crypto.Ed25519
import Renegade.CircuitTypes.Keychain
import Renegade.CircuitMacros.CircuitType
import Renegade.Circuits.Match
import Renegade.Circuits.Merkle
import Renegade.Common.Types
import Renegade.Common.IndexMap
import Renegade.Common.Wallet
import Renegade.StateV2.Applicator
import Renegade.StateV2.OrderBook
import Renegade.StateV2.NullifierIndex
import Renegade.StateV2.Nullify
import Renegade.GossipServer.OrderBook
import Renegade.Gossip.LruCache
import Renegade.Gossip.Heartbeat
import Renegade.Gossip.HeartbeatTimer
import Renegade.Gossip.WalletMerge
import Renegade.State.TaskQueue
import Renegade.Gossip.PeerIndex
import Renegade.StateV2.Priority
import Renegade.Gossip.MergeState
import Renegade.GossipServer.Cluster
import Renegade.Common.OrderBalance
import Renegade.NetworkManager.Multiaddr
import Renegade.Circuits.HashInput
