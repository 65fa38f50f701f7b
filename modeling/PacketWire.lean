import PacketWire.Description
import PacketWire.Main
import PacketWire.Proofs.Answering
import PacketWire.Proofs.Attendance
import PacketWire.Proofs.Bundling
import PacketWire.Proofs.Ceasing
import PacketWire.Proofs.Confined
import PacketWire.Proofs.Conveyance
import PacketWire.Proofs.Counting
import PacketWire.Proofs.Deferral
import PacketWire.Proofs.Delivery
import PacketWire.Proofs.Equivalence
import PacketWire.Proofs.Exchange
import PacketWire.Proofs.Farewell
import PacketWire.Proofs.Guarantees
import PacketWire.Proofs.Idling
import PacketWire.Proofs.Joining
import PacketWire.Proofs.Pacing
import PacketWire.Proofs.Pending
import PacketWire.Proofs.Precedence
import PacketWire.Proofs.ReceiptOrder
import PacketWire.Proofs.Reception
import PacketWire.Proofs.Registering
import PacketWire.Proofs.Returning
import PacketWire.Proofs.RoundTrip
import PacketWire.Proofs.Terminating
import PacketWire.Proofs.Transmission
import PacketWire.Session
