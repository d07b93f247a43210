import MeshPbx.Lib.Machine
import MeshPbx.Lib.Protobuf
import MeshPbx.System
import MeshPbx.PublishedCache
import MeshPbx.Liveness
import MeshPbx.Masking
import MeshPbx.DrainContract
import MeshPbx.FetchProtocol
import MeshPbx.WantConfig
import MeshPbx.WireFormat
import MeshPbx.SlotRecycling
import MeshPbx.KeepaliveIsolation
import MeshPbx.ToradioBoundary
import MeshPbx.GattCalls
import MeshPbx.DeliveryOrder
import MeshPbx.SlotAgreement
import MeshPbx.PhoneIsolation
import MeshPbx.Readiness
import MeshPbx.CompletionEcho
import MeshPbx.WaitingPhones
import MeshPbx.ReplaySegment
import MeshPbx.Lib.Transducer
import MeshPbx.UartReceive
import MeshPbx.Framing
import MeshPbx.Reception
import MeshPbx.ReceptionRestart
import MeshPbx.UartTransmit
import MeshPbx.StallRecovery
import MeshPbx.FramingAgreement
import MeshPbx.Lib.Packing
import MeshPbx.CacheSegments
import MeshPbx.CacheOverflow
import MeshPbx.DownlinkDisposition
import MeshPbx.FetchRetry
import MeshPbx.SpecialNonces
import MeshPbx.SlotTable
import MeshPbx.SlotResidue
import MeshPbx.TeardownExpiry
import MeshPbx.CacheLayout
import MeshPbx.Lib.CText
import MeshPbx.ProxyCodec
import MeshPbx.HeaderText
import MeshPbx.EncoderContract
import MeshPbx.PbxStats
import MeshPbx.StatsDump
import MeshPbx.Lib.ChunkedRead
import MeshPbx.LongRead
import MeshPbx.Lib.Footprint
import MeshPbx.Pipeline
import MeshPbx.DataAccesses
import MeshPbx.DataBounds
import MeshPbx.Lib.Timed
import MeshPbx.TimedSystem
import MeshPbx.CallLog
import MeshPbx.TimedDeparture
import MeshPbx.TimedFetch
import MeshPbx.ReceiveAccounting
import MeshPbx.DmaReceive
import MeshPbx.Lib.Trace
import MeshPbx.UplinkWire
import MeshPbx.Lib.Refinement
import MeshPbx.Switchboard
import MeshPbx.ConnRefs
import MeshPbx.Phase0
import MeshPbx.BootOrder
import MeshPbx.Doorbell
import MeshPbx.Registration
import MeshPbx.Inbox
import MeshPbx.WireToPhone
import MeshPbx.PreemptedDoorbell
