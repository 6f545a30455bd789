import Nethuns.Lib.Run
import Nethuns.ArrayVec
import Nethuns.Lib.Bags
import Nethuns.Mpsc.Channel
import Nethuns.Mpsc.Contents
import Nethuns.Mpsc.Ledger
import Nethuns.Mpsc.Delivery
import Nethuns.Dpdk.Progress
import Nethuns.Dpdk.Backpressure
import Nethuns.Api.Pool
import Nethuns.Netmap.Port
import Nethuns.Netmap.Sock
import Nethuns.Netmap.Interval
import Nethuns.Netmap.Buffers
import Nethuns.Netmap.Ownership
import Nethuns.Netmap.Conservation
import Nethuns.AfXdp.RxRing
import Nethuns.AfXdp.TxRing
import Nethuns.Lib.Bytes
import Nethuns.AfXdp.Sock
import Nethuns.AfXdp.Frames
import Nethuns.AfXdp.Reception
import Nethuns.AfXdp.Transmission
import Nethuns.AfXdp.Creation
import Nethuns.AfXdp.Accounting
import Nethuns.AfXdp.RoundTrip
import Nethuns.AfXdp.Ownership
import Nethuns.AfXdp.Conservation
import Nethuns.AfXdp.TxStream
import Nethuns.Netmap.Rings
import Nethuns.Netmap.Reception
import Nethuns.Netmap.Bindings
import Nethuns.Netmap.Transmission
import Nethuns.Netmap.TxStream
import Nethuns.Netmap.Exhaustion
import Nethuns.AfXdp.Refill
import Nethuns.Dpdk.Stock
import Nethuns.Dpdk.TxStream
import Nethuns.Dpdk.Receiver
import Nethuns.Dpdk.Socket
import Nethuns.Dpdk.Ownership
import Nethuns.Api.PoolIds
import Nethuns.Pcap.Payloads
import Nethuns.AfXdp.Layout
import Nethuns.AfXdp.SendBounds
import Nethuns.AfXdp.TxSlots
import Nethuns.Mpsc.Overflow
import Nethuns.Mpsc.Drain
import Nethuns.Dpdk.Bursts
import Nethuns.Netmap.Registry
import Nethuns.Mpsc.Calls
import Nethuns.Mpsc.Registry
import Nethuns.Netmap.RingIter
import Nethuns.ArrayVec.Storage
import Nethuns.ArrayVec.Drain
import Nethuns.ArrayVec.Client
import Nethuns.ArrayVec.Runs
import Nethuns.Mpsc.Vectors
import Nethuns.Mpsc.Interleaving
import Nethuns.AfXdp.Payloads
import Nethuns.AfXdp.Backend
import Nethuns.AfXdp.Libxdp
import Nethuns.AfXdp.SharedUmem
import Nethuns.AfXdp.Lifetime
import Nethuns.Netmap.Backend
import Nethuns.Examples.Meter2
import Nethuns.Netmap.Meter
import Nethuns.Pcap.Backend
