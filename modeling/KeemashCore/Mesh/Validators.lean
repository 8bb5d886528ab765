import KeemashCore.Mesh.Agreement
import KeemashCore.Mesh.Reassembly
import Mathlib.Data.List.Induction

/-!
# Three validators and what they accept

The core, the root and the node each have their own `crc16_update`, `packet_crc` and packet
check.  They differ in what they leave out: an empty payload, a null payload, a maximum
size.  None of it can be told from the outside, and all three accept every packet that the
core builds, also after `retransmit_slot` has patched it where it lies.
-/

namespace KeemashCore

open LittleEndian Rel

/-- `MESH_V2_PACKET_MAX`. -/
def packetMax : ℕ := 224

/-! ## The checks of the root and the node -/

/-- `packet_crc` of `keemash_mesh_root.c` and `keemash_mesh_node.c`: a payload that is empty
or a null pointer is passed over. -/
def guardedPacketCrc (h : WireHdr) (payload : Option (List UInt8)) : BitVec 16 :=
  let crc := crc16Update 0xFFFF#16 { h with crc16 := 0 }.bytes
  if h.payloadLen.toNat > 0 then
    match payload with
    | some payload => crc16Update crc (payload.take h.payloadLen.toNat)
    | none => crc
  else crc

namespace MeshRoot

def packetCrc : WireHdr → Option (List UInt8) → BitVec 16 :=
  guardedPacketCrc

/-- `validate_packet` of the root. -/
def validatePacket (pktBuf : List UInt8) : Option (WireHdr × List UInt8) :=
  if pktBuf.length < hdrSize then none
  else
    let h := WireHdr.read pktBuf
    if h.magic ≠ meshPktMagic ∨ h.version ≠ meshPktVersionV2 then none
    else if h.payloadLen.toNat > payloadMax then none
    else if pktBuf.length ≠ hdrSize + h.payloadLen.toNat ∨ pktBuf.length > packetMax then none
    else
      let payload := pktBuf.drop hdrSize
      if packetCrc h (some payload) ≠ h.crc16 then none else some (h, payload)

end MeshRoot

namespace MeshNode

def packetCrc : WireHdr → Option (List UInt8) → BitVec 16 :=
  guardedPacketCrc

/-- `validate_packet` of the node. -/
def validatePacket (pktBuf : List UInt8) : Option (WireHdr × List UInt8) :=
  if pktBuf.length < hdrSize then none
  else
    let h := WireHdr.read pktBuf
    if h.magic ≠ meshPktMagic ∨ h.version ≠ meshPktVersionV2 then none
    else if h.payloadLen.toNat > payloadMax ∨
        pktBuf.length ≠ hdrSize + h.payloadLen.toNat ∨ pktBuf.length > packetMax then none
    else
      let payload := pktBuf.drop hdrSize
      if packetCrc h (some payload) ≠ h.crc16 then none else some (h, payload)

end MeshNode

section Agree

/-- The guards of `packet_crc` pass over nothing that counts. -/
theorem guardedPacketCrc_some (h : WireHdr) (payload : List UInt8) :
    guardedPacketCrc h (some payload) = Rel.packetCrc h payload := by
  rw [guardedPacketCrc, Rel.packetCrc]
  by_cases hlen : h.payloadLen.toNat > 0
  · rw [if_pos hlen]
  · rw [if_neg hlen, Nat.eq_zero_of_not_pos hlen, List.take_zero]
    exact List.foldl_nil.symm

/-- The test of the maximum finds nothing that the tests before it leave. -/
theorem tooLong_iff {len payloadLen : ℕ} {rest : Prop} :
    (payloadLen > payloadMax ∨ len ≠ hdrSize + payloadLen ∨ len > packetMax ∨ rest) ↔
      (payloadLen > payloadMax ∨ len ≠ hdrSize + payloadLen ∨ rest) := by
  have hmax : packetMax = 224 := rfl
  have hhdr : hdrSize = 26 := rfl
  have hpayload : payloadMax = 192 := rfl
  constructor
  · rintro (h | h | h | h)
    · exact .inl h
    · exact .inr (.inl h)
    · by_cases hlen : len = hdrSize + payloadLen
      · left
        omega
      · exact .inr (.inl hlen)
    · exact .inr (.inr h)
  · rintro (h | h | h)
    · exact .inl h
    · exact .inr (.inl h)
    · exact .inr (.inr (.inr h))

theorem MeshRoot.validatePacket_eq (packet : List UInt8) :
    MeshRoot.validatePacket packet = packetValid packet := by
  rw [MeshRoot.validatePacket, packetValid]
  simp only [MeshRoot.packetCrc, guardedPacketCrc_some, ← ite_or, or_assoc, tooLong_iff]

theorem MeshNode.validatePacket_eq (packet : List UInt8) :
    MeshNode.validatePacket packet = packetValid packet := by
  rw [MeshNode.validatePacket, packetValid]
  simp only [MeshNode.packetCrc, guardedPacketCrc_some, ← ite_or, or_assoc, tooLong_iff]

end Agree

/-! ## Packets that the core builds -/

namespace Rel

/-- The packet that `send_packet` hands to the transport. -/
def sendPacketBytes (localMac : Mac) (type : BitVec 8) (sessionId : U32)
    (payload : List UInt8) : Except EspErr (List UInt8) :=
  if payload.length > payloadMax then .error .invalidSize
  else .ok (buildPacket localMac type sessionId payload)

/-- `retransmit_slot` on the bytes of a slot: the REPLAY flag, the time and the CRC are
written where they lie. -/
def retransmitBytes (packet : List UInt8) (now : U32) : List UInt8 :=
  let flags := (wordAt 1 packet (hdrSize + 1) : BitVec 8) ||| flagReplay
  let packet := splice packet (hdrSize + 1) (toLeBytes 1 flags)
  let packet := splice packet (hdrSize + 16) (toLeBytes 4 now)
  let crc := packetCrc (WireHdr.read packet) (packet.drop hdrSize)
  splice packet 24 (toLeBytes 2 crc)

section Patch

/-- Writing over a block in the middle. -/
theorem splice_middle {a b c : List UInt8} {part : List UInt8} {offset : ℕ}
    (hoffset : a.length = offset) (hlen : part.length = b.length) :
    splice (a ++ (b ++ c)) offset part = a ++ (part ++ c) := by
  subst hoffset
  rw [splice, List.take_left, hlen, ← List.append_assoc a b c, ← List.length_append,
    List.drop_left, List.append_assoc]

/-- The flags of a frame are at the second byte of its header. -/
theorem splice_flags {hdr : List UInt8} (hhdr : hdr.length = hdrSize) (rh : ReliableHdr)
    (payload : List UInt8) (flags : BitVec 8) :
    splice (hdr ++ (rh.bytes ++ payload)) (hdrSize + 1) (toLeBytes 1 flags) =
      hdr ++ ({ rh with flags := flags }.bytes ++ payload) := by
  have hat : (hdr ++ toLeBytes 1 (BitVec.ofNat 8 rh.channelId)).length = hdrSize + 1 := by
    rw [List.length_append, hhdr, length_toLeBytes]
  have hlen : (toLeBytes 1 flags).length = (toLeBytes 1 rh.flags).length := by
    rw [length_toLeBytes, length_toLeBytes]
  simp only [ReliableHdr.bytes, List.append_assoc]
  rw [← List.append_assoc hdr, splice_middle hat hlen, List.append_assoc]

/-- The time of a frame is at the seventeenth byte of its header. -/
theorem splice_txMs {hdr : List UInt8} (hhdr : hdr.length = hdrSize) (rh : ReliableHdr)
    (payload : List UInt8) (txMs : U32) :
    splice (hdr ++ (rh.bytes ++ payload)) (hdrSize + 16) (toLeBytes 4 txMs) =
      hdr ++ ({ rh with txMs := txMs }.bytes ++ payload) := by
  have hat : (hdr ++ (toLeBytes 1 (BitVec.ofNat 8 rh.channelId) ++ (toLeBytes 1 rh.flags ++
      (toLeBytes 1 (BitVec.ofNat 8 rh.priority) ++
        (toLeBytes 1 (BitVec.ofNat 8 rh.fragmentCount) ++
          (toLeBytes 2 (BitVec.ofNat 16 rh.payloadLen) ++
            (toLeBytes 2 (BitVec.ofNat 16 rh.fragmentIndex) ++
              (toLeBytes 4 rh.streamId ++ toLeBytes 4 rh.seq)))))))).length =
      hdrSize + 16 := by
    simp only [List.length_append, hhdr, length_toLeBytes]
  have hlen : (toLeBytes 4 txMs).length = (toLeBytes 4 rh.txMs).length := by
    rw [length_toLeBytes, length_toLeBytes]
  have hsplice := splice_middle (c := toLeBytes 4 rh.rootSessionId ++
    (toLeBytes 4 rh.nodeSessionId ++ (toLeBytes 6 rh.originMac ++
      (toLeBytes 6 rh.targetMac ++ payload)))) hat hlen
  simpa only [ReliableHdr.bytes, List.append_assoc] using hsplice

/-- The CRC is the last field of the packet header. -/
theorem splice_crc16 (h : WireHdr) (payload : List UInt8) (crc : BitVec 16) :
    splice (h.bytes ++ payload) 24 (toLeBytes 2 crc) =
      { h with crc16 := crc }.bytes ++ payload := by
  have hat : (toLeBytes 1 h.magic ++ (toLeBytes 1 h.version ++ (toLeBytes 1 h.type ++
      (toLeBytes 1 h.flags ++ (toLeBytes 4 h.sessionId ++ (toLeBytes 4 h.seq ++
        (toLeBytes 4 h.ackSeq ++ (toLeBytes 2 h.payloadLen ++
          toLeBytes 6 h.srcMac)))))))).length = 24 := by
    simp only [List.length_append, length_toLeBytes]
  have hlen : (toLeBytes 2 crc).length = (toLeBytes 2 h.crc16).length := by
    rw [length_toLeBytes, length_toLeBytes]
  have hsplice := splice_middle (c := payload) hat hlen
  simpa only [WireHdr.bytes, List.append_assoc] using hsplice

theorem wordAt_flags (h : WireHdr) (rh : ReliableHdr) (payload : List UInt8) :
    (wordAt 1 (h.bytes ++ (rh.bytes ++ payload)) (hdrSize + 1) : BitVec 8) = rh.flags := by
  have hhdr : h.bytes.length = hdrSize := h.length_bytes
  have hle : h.bytes.length ≤ hdrSize + 1 := by
    omega
  have hsub : hdrSize + 1 - h.bytes.length = 1 := by
    omega
  rw [wordAt_append _ hle, hsub, ReliableHdr.bytes, List.append_assoc,
    wordAt_append _ (by rw [length_toLeBytes]), length_toLeBytes, Nat.sub_self,
    List.append_assoc, wordAt_toLeBytes_append]

/-- A built packet with another payload of the same length. -/
theorem buildPacket_eq {localMac : Mac} {type : BitVec 8} {sessionId : U32}
    {payload old : List UInt8} (hlen : payload.length = old.length) :
    buildPacket localMac type sessionId payload =
      { plainHdr localMac type sessionId old.length with
        crc16 := packetCrc (plainHdr localMac type sessionId old.length) payload }.bytes ++
        payload := by
  rw [buildPacket, hlen]

/-- Patched where it lies, the packet of a slot is the packet of the slot sent again. -/
theorem retransmitBytes_eq (cfg : RelConfig) (slot : TxSlot) (now : U32) :
    retransmitBytes (slot.bytes cfg) now = (slot.replayed now).bytes cfg := by
  have hlen : ((slot.replayed now).rh.bytes ++ slot.payload).length =
      (slot.rh.bytes ++ slot.payload).length := by
    rw [List.length_append, List.length_append, ReliableHdr.length_bytes,
      ReliableHdr.length_bytes]
  have hafter : (slot.replayed now).bytes cfg =
      buildPacket cfg.localMac typeReliableData slot.sessionId
        ((slot.replayed now).rh.bytes ++ slot.payload) := rfl
  rw [hafter, buildPacket_eq hlen, TxSlot.bytes, buildPacket]
  generalize plainHdr cfg.localMac typeReliableData slot.sessionId
    (slot.rh.bytes ++ slot.payload).length = h
  rw [retransmitBytes]
  dsimp only
  rw [wordAt_flags, splice_flags (WireHdr.length_bytes _), splice_txMs (WireHdr.length_bytes _),
    WireHdr.read_bytes, List.drop_left' (WireHdr.length_bytes _), splice_crc16]
  rfl

/-- The same after any number of retransmissions. -/
theorem retransmitBytes_run (cfg : RelConfig) (slot : TxSlot) (times : List U32) :
    times.foldl retransmitBytes (slot.bytes cfg) =
      (times.foldl TxSlot.replayed slot).bytes cfg := by
  induction times generalizing slot with
  | nil => rfl
  | cons now times ih => rw [List.foldl_cons, List.foldl_cons, retransmitBytes_eq, ih]

end Patch

/-! ## What is accepted -/

/-- All three validators read this header and this payload from the packet. -/
structure Accepted (packet : List UInt8) (h : WireHdr) (payload : List UInt8) : Prop where
  core : packetValid packet = some (h, payload)
  root : MeshRoot.validatePacket packet = some (h, payload)
  node : MeshNode.validatePacket packet = some (h, payload)

section Accepted

theorem Accepted.of_core {packet payload : List UInt8} {h : WireHdr}
    (hcore : packetValid packet = some (h, payload)) : Accepted packet h payload where
  core := hcore
  root := (MeshRoot.validatePacket_eq packet).trans hcore
  node := (MeshNode.validatePacket_eq packet).trans hcore

/-- A built packet is accepted with the header fields and the payload put in. -/
theorem accepted_buildPacket (localMac : Mac) (type : BitVec 8) (sessionId : U32)
    {payload : List UInt8} (hlen : payload.length ≤ payloadMax) :
    ∃ h, Accepted (buildPacket localMac type sessionId payload) h payload ∧
      { h with crc16 := 0 } = plainHdr localMac type sessionId payload.length :=
  ⟨_, .of_core (packetValid_buildPacket localMac type sessionId hlen), rfl⟩

variable {c : Ctx} {key : Mac} {channel priority i : ℕ} {payload : List UInt8}
  {streamId seq now : U32}

/-- The header after retransmissions: the REPLAY flag is set by the first, the time is that
of the last. -/
theorem rh_replays (slot : TxSlot) (times : List U32) :
    (times.foldl TxSlot.replayed slot).rh =
      { slot.rh with
        flags := if times = [] then slot.rh.flags else slot.rh.flags ||| flagReplay
        txMs := times.getLast?.getD slot.rh.txMs } := by
  induction times using List.reverseRecOn with
  | nil => rfl
  | append_singleton times now ih =>
      have hflags : (if times = [] then slot.rh.flags else slot.rh.flags ||| flagReplay) |||
          flagReplay = slot.rh.flags ||| flagReplay := by
        split
        · rfl
        · rw [BitVec.or_assoc, BitVec.or_self]
      rw [List.foldl_append, List.foldl_cons, List.foldl_nil, TxSlot.replayed, ih, hflags]
      simp

/-- The numbers of a frame that `keemash_rel_submit` builds fit in their fields. -/
theorem submitSlot_encodable (hchannel : channel < channelCount) (hpriority : priority < 2 ^ 8)
    (hi : i < fragmentsOf payload.length) (times : List U32) :
    (times.foldl TxSlot.replayed (submitSlot c key channel payload priority
      (fragmentsOf payload.length) i streamId seq now)).rh.Encodable := by
  have hchannels : channelCount = 10 := rfl
  have hinner : reliableInnerMax = 152 := rfl
  have hcount : fragmentsOf payload.length < 2 ^ 8 := Nat.mod_lt _ (by decide)
  have hchunk := length_chunk_le payload i
  rw [rh_replays]
  constructor
  · exact hchannel.trans (by decide)
  · exact hpriority
  · exact hcount
  · exact hchunk.trans_lt (by decide)
  · exact (hi.trans hcount).trans (by decide)

/-- A frame that `keemash_rel_submit` builds is accepted after any retransmissions. -/
theorem accepted_submitSlot (hchannel : channel < channelCount) (hpriority : priority < 2 ^ 8)
    (hi : i < fragmentsOf payload.length) (times : List U32) :
    let slot := submitSlot c key channel payload priority (fragmentsOf payload.length) i
      streamId seq now
    ∃ h body, Accepted (times.foldl retransmitBytes (slot.bytes c.cfg)) h body ∧
      { h with crc16 := 0 } = plainHdr c.cfg.localMac typeReliableData c.localSession
        (reliableHdrSize + slot.payload.length) ∧
      ReliableHdr.read body =
        { slot.rh with
          flags := if times = [] then slot.rh.flags else slot.rh.flags ||| flagReplay
          txMs := times.getLast?.getD slot.rh.txMs } ∧
      body.drop reliableHdrSize = slot.payload := by
  intro slot
  have hencodable := @submitSlot_encodable c key channel priority i payload streamId seq now
    hchannel hpriority hi times
  obtain ⟨hsession, hpayload, -⟩ := sameFrame_replays slot times
  rw [retransmitBytes_run, ← rh_replays slot times]
  generalize hsent : times.foldl TxSlot.replayed slot = sent at hsession hpayload
  have hrh : sent.rh.Encodable := by
    rw [← hsent]
    exact hencodable
  have hchunk : slot.payload.length ≤ reliableInnerMax := length_chunk_le payload i
  have hlength : (sent.rh.bytes ++ slot.payload).length =
      reliableHdrSize + slot.payload.length := by
    rw [List.length_append, ReliableHdr.length_bytes]
  have hfits : (sent.rh.bytes ++ slot.payload).length ≤ payloadMax := by
    have hhdr : reliableHdrSize = 40 := rfl
    have hinner : reliableInnerMax = 152 := rfl
    have hmax : payloadMax = 192 := rfl
    omega
  obtain ⟨h, haccepted, hfields⟩ := accepted_buildPacket c.cfg.localMac typeReliableData
    c.localSession hfits
  have hbytes : sent.bytes c.cfg = buildPacket c.cfg.localMac typeReliableData c.localSession
      (sent.rh.bytes ++ slot.payload) := by
    rw [TxSlot.bytes, hsession, hpayload]
    rfl
  rw [hlength] at hfields
  refine ⟨h, sent.rh.bytes ++ slot.payload, ?_, hfields, ?_, ?_⟩
  · rw [hbytes]
    exact haccepted
  · exact ReliableHdr.read_bytes hrh slot.payload
  · exact List.drop_left' (ReliableHdr.length_bytes sent.rh)

end Accepted

end Rel

/-- The core, the root and the node accept the same byte strings and read the same from them.
What `send_packet` builds is accepted as it was put in, and so is what `keemash_rel_submit`
builds, after any number of retransmissions. -/
theorem validators_agree :
    (∀ packet, MeshRoot.validatePacket packet = packetValid packet ∧
      MeshNode.validatePacket packet = packetValid packet) ∧
    (∀ localMac type sessionId payload, payload.length ≤ payloadMax →
      ∃ packet h, sendPacketBytes localMac type sessionId payload = .ok packet ∧
        Accepted packet h payload ∧
        { h with crc16 := 0 } = plainHdr localMac type sessionId payload.length) ∧
    ∀ (c : Ctx) key channel payload priority i streamId seq now times,
      channel < channelCount → priority < 2 ^ 8 → i < fragmentsOf payload.length →
      let slot := submitSlot c key channel payload priority (fragmentsOf payload.length) i
        streamId seq now
      ∃ h body, Accepted (times.foldl retransmitBytes (slot.bytes c.cfg)) h body ∧
        { h with crc16 := 0 } = plainHdr c.cfg.localMac typeReliableData c.localSession
          (reliableHdrSize + slot.payload.length) ∧
        ReliableHdr.read body =
          { slot.rh with
            flags := if times = [] then slot.rh.flags else slot.rh.flags ||| flagReplay
            txMs := times.getLast?.getD slot.rh.txMs } ∧
        body.drop reliableHdrSize = slot.payload := by
  refine ⟨?_, ?_, ?_⟩
  · intro packet
    exact ⟨MeshRoot.validatePacket_eq packet, MeshNode.validatePacket_eq packet⟩
  · intro localMac type sessionId payload hlen
    obtain ⟨h, haccepted, hfields⟩ := accepted_buildPacket localMac type sessionId hlen
    exact ⟨_, h, if_neg (Nat.not_lt.2 hlen), haccepted, hfields⟩
  · intro c key channel payload priority i streamId seq now times hchannel hpriority hi
    exact accepted_submitSlot hchannel hpriority hi times

end KeemashCore
