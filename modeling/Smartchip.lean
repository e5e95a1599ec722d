import Smartchip.Foundation.Run
import Smartchip.Foundation.Serial
import Smartchip.Foundation.Window
import Smartchip.Rx.Reorder
import Smartchip.Rx.ReorderRefinement
import Smartchip.Rx.ReorderSteps
import Smartchip.Rx.ReorderDelivery
import Smartchip.Foundation.Keystream
import Smartchip.Foundation.Memory
import Smartchip.Sec.Cipher
import Smartchip.Frame.Header
import Smartchip.Tx.Mpdu
import Smartchip.Tx.Header
import Smartchip.Tx.Fragment
import Smartchip.Tx.Layout
import Smartchip.Rx.Data
import Smartchip.Rx.Process
import Smartchip.Rx.DeliveryPaths
import Smartchip.Link.Air
import Smartchip.Link.Receive
import Smartchip.Link.RoundTrip
import Smartchip.Tx.Prepare
import Smartchip.Foundation.Ring
import Smartchip.Utility.Queue
import Smartchip.Scan.Queue
import Smartchip.Scan.Flush
import Smartchip.Rx.Defrag
import Smartchip.Rx.Dispatch
import Smartchip.Tx.Pool
import Smartchip.Tx.Wake
import Smartchip.Tx.Worker
import Smartchip.Tx.Sequence
import Smartchip.Tx.IvUse
import Smartchip.Tx.Buffers
import Smartchip.Tx.BufferOwnership
import Smartchip.Scan.Lock
import Smartchip.Scan.Handler
import Smartchip.Scan.Association
import Smartchip.Scan.Ageing
import Smartchip.Frame.Elements
import Smartchip.Scan.Filter
import Smartchip.Scan.Thread
import Smartchip.Scan.Cleanup
import Smartchip.Scan.Reason
import Smartchip.Scan.Request
import Smartchip.Action.BlockAck
import Smartchip.Action.Request
import Smartchip.Action.ApResponse
import Smartchip.Mlme.Exchange
import Smartchip.Mlme.Pool
import Smartchip.Mlme.Connect
import Smartchip.Mlme.CurNetwork
import Smartchip.Mlme.Payload
import Smartchip.Mlme.HwLock
import Smartchip.Ap.Auth
import Smartchip.Ap.SharedKey
import Smartchip.Ap.AuthReply
import Smartchip.Ap.Maintain
import Smartchip.Ap.Association
import Smartchip.Ap.Policy
import Smartchip.Ap.Conservation
import Smartchip.Ap.Lifecycle
import Smartchip.Ap.Status
import Smartchip.Ap.HiddenProbe
import Smartchip.Utility.MessageRing
import Smartchip.Wdn.Table
import Smartchip.Foundation.Blocks
import Smartchip.Hif.Aggregate
import Smartchip.Hif.TxNodes
import Smartchip.Hif.AggregateLayout
import Smartchip.Hif.AggregateBreak
import Smartchip.Hif.FlowControl
import Smartchip.Hif.UsbRx
import Smartchip.Hif.UsbRxOwners
import Smartchip.Hif.UsbRxAlive
import Smartchip.Hif.RxWake
import Smartchip.Mcu.Mailbox
import Smartchip.Foundation.Overlay
import Smartchip.Hif.CmdReply
import Smartchip.Adhoc.Peers
import Smartchip.P2p.Negotiation
import Smartchip.P2p.RemainOnChannel
import Smartchip.Utility.Timer
import Smartchip.Mlme.PowerSave
import Smartchip.Mlme.KeepAlive
import Smartchip.Ap.Beacon
import Smartchip.Ap.Encryption
import Smartchip.Ars.Dig
import Smartchip.Foundation.ShiftRegister
import Smartchip.Ars.Rssi
import Smartchip.Ars.Smoothing
import Smartchip.Foundation.Crc
import Smartchip.Sec.KeyMixing
import Smartchip.Link.Encapsulation
import Smartchip.Rx.Slicing
import Smartchip.Rx.Amsdu
import Smartchip.Foundation.Records
import Smartchip.Frame.Search
import Smartchip.Frame.SecIe
import Smartchip.Ap.Survey
import Smartchip.Frame.Wps
import Smartchip.Foundation.Touch
import Smartchip.Rx.Reads
import Smartchip.Rx.Safety
import Smartchip.Foundation.StableSort
import Smartchip.Utility.MessageOrder
import Smartchip.Mcu.MailboxTransfer
import Smartchip.Hif.CfgParse
import Smartchip.Hif.Firmware
import Smartchip.Foundation.Checked
import Smartchip.Wdn.DataUpdate
import Smartchip.Scan.NodeInfo
import Smartchip.Ap.AssocAccess
import Smartchip.Ap.AssocBounds
import Smartchip.Link.Checksum
import Smartchip.Ars.Registers
import Smartchip.Sec.Michael
import Smartchip.Ars.RateMask
import Smartchip.Ap.BeaconUpdate
import Smartchip.Frame.VendorIe
import Smartchip.P2p.ChannelList
import Smartchip.P2p.ChannelRewrite
import Smartchip.P2p.FrameBounds
import Smartchip.Ap.BeaconAccess
import Smartchip.Ap.BeaconBounds
import Smartchip.Pwr.Power
import Smartchip.Wpa.GroupKey
import Smartchip.Pwr.LpsRun
import Smartchip.Pwr.ReservedPages
