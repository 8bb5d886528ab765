import Mathlib.Algebra.GroupWithZero.Nat
import Mathlib.Data.List.Basic

/-!
# Wire data of the reliable mesh profile

The constants, result codes and payload records that `keemash_mesh_core.c`
shares with `keemash_mesh_proto.h`.  A packet is kept as its decoded header
and typed payload; the byte layout, the magic and version bytes and the CRC
belong to the codec and are not part of this file.
-/

namespace KeemashCore

/-- The ESP-IDF result codes returned by the component. -/
inductive EspErr where
  | ok
  | fail
  | noMem
  | invalidArg
  | invalidState
  | invalidSize
  | notFound
  | notSupported
  | timeout
  | invalidResponse
  | invalidCrc
  | invalidVersion
  deriving DecidableEq, Repr

/-- The C type `uint32_t`. -/
abbrev U32 := BitVec 32

/-- A six-byte hardware address. -/
abbrev Mac := BitVec 48

namespace Rel

/-! ## Constants -/

/-- `KM_CHANNEL_COUNT`: channels `1` to `9`, plus the unused channel `0`. -/
def channelCount : ℕ := 10

def channelTime : ℕ := 8

/-- `MESH_V2_RELIABLE_WINDOW`. -/
def reliableWindow : ℕ := 32

/-- `MESH_V2_RELIABLE_MAX_FRAGMENTS`. -/
def reliableMaxFragments : ℕ := 16

/-- `MESH_V2_RELIABLE_INNER_MAX`: payload bytes of one frame. -/
def reliableInnerMax : ℕ := 152

/-- `KM_MESSAGE_MAX`. -/
def messageMax : ℕ := reliableInnerMax * reliableMaxFragments

/-- `KM_PENDING_LOST_RANGES`. -/
def pendingLostRanges : ℕ := 8

def reliableProfileVersion : ℕ := 1

def packetMax : ℕ := 224

/-- `sizeof(mesh_v2_hdr_t) + sizeof(mesh_v2_reliable_hdr_t) + 1U`. -/
def minimumMtu : ℕ := 26 + 40 + 1

def priorityLog : ℕ := 0

def priorityControl : ℕ := 4

def flagReplay : BitVec 8 := 0x01#8

def flagFragment : BitVec 8 := 0x02#8

def flagUrgent : BitVec 8 := 0x04#8

def flagLatest : BitVec 8 := 0x08#8

/-- `MESH_V2_LOST_FLAG_RECEIVER_DROP`. -/
def lostFlagReceiverDrop : BitVec 16 := 0x0001#16

def capReliableE2e : U32 := 0x00000008#32

def capSack : U32 := 0x00000010#32

def capFragment : U32 := 0x00000020#32

def capTypedControl : U32 := 0x00000040#32

def capTypedMemory : U32 := 0x00000080#32

def capOta : U32 := 0x00000100#32

def capTypedTime : U32 := 0x00000200#32

/-- The capabilities both ends demand of each other. -/
def requiredCapabilities : U32 := capReliableE2e ||| capSack ||| capFragment

/-- `MESH_V2_LOST_REASON_*`, and the other values a LOST packet may carry. -/
inductive LostReason where
  | overflow
  | sessionReset
  | retryExhausted
  | fragmentTimeout
  | routeTimeout
  | other (code : BitVec 8)
  deriving DecidableEq, Repr

/-! ## Payload records -/

/-- `mesh_v2_reliable_hello_payload_t`, without the tag and uptime that only
the diagnostics read. -/
structure HelloPayload where
  profileVersion : ℕ
  mtu : ℕ
  txSlots : ℕ
  reorderWindow : ℕ
  capabilities : U32
  nodeSessionId : U32
  rootSessionSeen : U32
  deriving DecidableEq, Repr

/-- `mesh_v2_reliable_hello_ack_payload_t`. -/
structure HelloAckPayload where
  profileVersion : ℕ
  mtu : ℕ
  capabilities : U32
  rootSessionId : U32
  nodeSessionId : U32
  resetLink : Bool
  deriving DecidableEq, Repr

/-- `mesh_v2_reliable_hdr_t`, the header of a DATA frame. -/
structure ReliableHdr where
  channelId : ℕ
  flags : BitVec 8
  priority : ℕ
  fragmentCount : ℕ
  payloadLen : ℕ
  fragmentIndex : ℕ
  streamId : U32
  seq : U32
  txMs : U32
  rootSessionId : U32
  nodeSessionId : U32
  originMac : Mac
  targetMac : Mac
  deriving DecidableEq, Repr

/-- `mesh_v2_reliable_ack_payload_t`. -/
structure AckPayload where
  channelId : ℕ
  rootSessionId : U32
  nodeSessionId : U32
  ackSeq : U32
  sackBitmap : U32
  nackSeq : U32
  echoTxMs : U32
  originMac : Mac
  targetMac : Mac
  deriving DecidableEq, Repr

/-- `mesh_v2_reliable_lost_payload_t`; `rsv` carries the receiver-drop flag. -/
structure LostPayload where
  channelId : ℕ
  reason : LostReason
  rsv : BitVec 16
  rootSessionId : U32
  nodeSessionId : U32
  seqFirst : U32
  seqLast : U32
  originMac : Mac
  targetMac : Mac
  deriving DecidableEq, Repr

/-- The six packet types of the reliable profile with their payloads.  For
`data` the list holds the bytes that follow the reliable header. -/
inductive Body where
  | hello (hello : HelloPayload)
  | helloAck (ack : HelloAckPayload)
  | data (rh : ReliableHdr) (payload : List UInt8)
  | ack (ack : AckPayload)
  | nack (ack : AckPayload)
  | lost (lost : LostPayload)
  deriving DecidableEq, Repr

/-- A packet that passed `packet_valid`. -/
structure Packet where
  sessionId : U32
  srcMac : Mac
  body : Body
  deriving DecidableEq, Repr

/-! ## Serial arithmetic -/

/-- `seq_before`: the signed 32-bit difference is negative. -/
def seqBefore (a b : U32) : Bool :=
  decide ((a - b).toInt < 0)

/-- `seq_after`. -/
def seqAfter (a b : U32) : Bool :=
  seqBefore b a

/-- `seq_in_range`: unsigned distances from `first`. -/
def seqInRange (seq first last : U32) : Bool :=
  decide (seq - first ≤ last - first)

/-- On numbers less than `2 ^ 31` apart the serial order is their order. -/
theorem seqBefore_iff {a b : U32}
    (ha : a.toNat ≤ 2 ^ 31) (hb : b.toNat ≤ 2 ^ 31)
    (h : a.toNat < b.toNat + 2 ^ 31) :
    seqBefore a b = true ↔ a.toNat < b.toNat := by
  rw [seqBefore, decide_eq_true_iff, BitVec.toInt_neg_iff, BitVec.toNat_sub]
  omega

theorem seqAfter_iff {a b : U32}
    (ha : a.toNat ≤ 2 ^ 31) (hb : b.toNat ≤ 2 ^ 31)
    (h : b.toNat < a.toNat + 2 ^ 31) :
    seqAfter a b = true ↔ b.toNat < a.toNat :=
  seqBefore_iff hb ha h

/-- On a range that does not wrap, `seqInRange` is interval membership. -/
theorem seqInRange_iff {seq first last : U32}
    (h : first.toNat ≤ last.toNat) :
    seqInRange seq first last = true ↔
      first.toNat ≤ seq.toNat ∧ seq.toNat ≤ last.toNat := by
  rw [seqInRange, decide_eq_true_iff, BitVec.le_def,
    BitVec.toNat_sub, BitVec.toNat_sub]
  have := seq.isLt
  have := first.isLt
  have := last.isLt
  omega

end Rel
end KeemashCore
