import MStream.BitField
import MStream.Circ
import MStream.Reach
import MStream.Machine
import MStream.Address
import MStream.RingBuffer
import MStream.Dftl
import MStream.L2p.State
import MStream.L2p.Get
import MStream.L2p.Set
import MStream.L2p.Stream
import MStream.L2p.Account
import MStream.L2p.Sector
import MStream.L2p.Block
import MStream.L2p.Page
import MStream.Cache
import MStream.Cache.Slots
import MStream.RateLimit
import MStream.Lines
import MStream.Lines.Inv
import MStream.Recovery
import MStream.Pipeline
import MStream.Device
import MStream.Device.Map
import MStream.Nearest
import MStream.F2fs.Kmeans
import MStream.F2fs.State
import MStream.F2fs.Cluster
import MStream.F2fs.Pass
import MStream.Gc
import MStream.Gc.Batch
import MStream.Gc.Remap
import MStream.Fuel
import MStream.Rrpc
import MStream.Rrpc.Gc
