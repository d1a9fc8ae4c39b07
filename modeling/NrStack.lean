import NrStack.Lib.Bits
import NrStack.Lib.Booking
import NrStack.Lib.Circular
import NrStack.Lib.Machine
import NrStack.Lib.Probe
import NrStack.Lib.Ring
import NrStack.Lib.Row
import NrStack.Lib.Threaded
import NrStack.Pdcp.Entity
import NrStack.Pdcp.Window
import NrStack.Pdcp.ReceiveBounds
import NrStack.Pdcp.Transfer
import NrStack.Pdcp.Keystream
import NrStack.Rlc.Pdu
import NrStack.Rlc.Sdu
import NrStack.Rlc.Reassembly
import NrStack.Rlc.UmEntity
import NrStack.Rlc.UmCodec
import NrStack.Rlc.UmReceive
import NrStack.Rlc.UmTransmit
import NrStack.Rlc.UmLossless
import NrStack.Rlc.AmEntity
import NrStack.Rlc.AmStatus
import NrStack.Rlc.AmControl
import NrStack.Rlc.AmTransmit
import NrStack.Rlc.AmRxList
import NrStack.Rlc.AmDecode
import NrStack.Rlc.AmReceive
import NrStack.Rlc.Stretches
import NrStack.Rlc.AmRxSize
import NrStack.Rlc.ReassemblyBounds
import NrStack.Rlc.UmAccounting
import NrStack.Rlc.AmContent
import NrStack.Rlc.AmReport
import NrStack.Rlc.AmCodec
import NrStack.Rlc.AmNacks
import NrStack.Rlc.AmStatusSize
import NrStack.Rlc.AmStatusReport
import NrStack.Rlc.AmDelivery
import NrStack.Rlc.AmMerge
import NrStack.Rlc.AmConserve
import NrStack.Rlc.AmValidate
import NrStack.Rlc.AmPoll
import NrStack.Stack.DataQueues
import NrStack.Stack.UmBearer
import NrStack.Mac.NrList
import NrStack.Mac.HarqLists
import NrStack.Mac.DlHarq
import NrStack.Mac.DlHarqPartition
import NrStack.Mac.UlHarq
import NrStack.Mac.UlHarqPartition
import NrStack.Mac.Tbs
import NrStack.Mac.VrbMap
import NrStack.Mac.DlAlloc
import NrStack.Mac.UlAlloc
import NrStack.Mac.Retransmission
import NrStack.Mac.UlRetransmission
import NrStack.Mac.UlPdu
import NrStack.Mac.DlPdu
import NrStack.Mac.SubPdu
import NrStack.Mac.DlMux
import NrStack.Mac.DlRoundTrip
import NrStack.Mac.UlMux
import NrStack.Mac.UlRoundTrip
import NrStack.Mac.UlGrant
import NrStack.Mac.HarqAck
import NrStack.Lib.PackedWord
import NrStack.Mac.Dci
import NrStack.Mac.DciFallback
import NrStack.Mac.DciRoundTrip
import NrStack.Mac.DciWidths
import NrStack.Mac.DciNonFallback
import NrStack.Mac.DciRuns
import NrStack.Mac.MsgB
import NrStack.Mac.PdcchCandidates
import NrStack.Mac.BeamTable
import NrStack.Mac.CsiReport
import NrStack.Mac.ResourceIndication
import NrStack.Mac.TokenBucket
import NrStack.Mac.Msg4Alloc
import NrStack.Lib.Paired
import NrStack.Gtpu.Tunnels
import NrStack.Gtpu.Consistency
import NrStack.Gtpu.Receive
import NrStack.Rrc.Handover
import NrStack.Rrc.Transactions
import NrStack.Sdap.Store
import NrStack.Lib.Gather
import NrStack.Lib.Store
import NrStack.Nfapi.P7Segments
import NrStack.Nfapi.P7Datagrams
import NrStack.Nfapi.P7Reassembly
import NrStack.Phy.Segmentation
import NrStack.Phy.RateMatching
import NrStack.Phy.Interleaving
import NrStack.Nas.Security
import NrStack.Nas.DownlinkCount
import NrStack.Util.Barrier
