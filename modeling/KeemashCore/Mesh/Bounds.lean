import Mathlib.Algebra.Order.BigOperators.Group.List
import Mathlib.Algebra.Group.Action.Defs
import KeemashCore.Mesh.Checked
import KeemashCore.Mesh.Reassembly
import KeemashCore.Mesh.Runs

/-!
# No access is out of range

In every state that a context reaches, the checks of `Mesh.Checked` succeed on every byte
string: the frame that a slot holds was checked before it was stored, and the buffers of
the slots keep their size.  `Safe` says this of a state, and every update of the frame
tables keeps it.
-/

namespace KeemashCore.Rel

open SlotTable LittleEndian

/-! ## Reading a packet -/

theorem WireHdr.read?_eq {packet : List UInt8} (h : hdrSize ≤ packet.length) :
    WireHdr.read? packet = some (WireHdr.read packet) := by
  have h26 : 26 ≤ packet.length := h
  simp (disch := omega) only [WireHdr.read?, wordAt?_eq]
  rfl

theorem HelloPayload.read?_eq {payload : List UInt8} (h : helloSize ≤ payload.length) :
    HelloPayload.read? payload = some (HelloPayload.read payload) := by
  have h40 : 40 ≤ payload.length := h
  simp (disch := omega) only [HelloPayload.read?, wordAt?_eq]
  rfl

theorem HelloAckPayload.read?_eq {payload : List UInt8} (h : helloAckSize ≤ payload.length) :
    HelloAckPayload.read? payload = some (HelloAckPayload.read payload) := by
  have h20 : 20 ≤ payload.length := h
  simp (disch := omega) only [HelloAckPayload.read?, wordAt?_eq]
  rfl

theorem ReliableHdr.read?_eq {payload : List UInt8} (h : reliableHdrSize ≤ payload.length) :
    ReliableHdr.read? payload = some (ReliableHdr.read payload) := by
  have h40 : 40 ≤ payload.length := h
  simp (disch := omega) only [ReliableHdr.read?, wordAt?_eq]
  rfl

theorem AckPayload.read?_eq {payload : List UInt8} (h : ackSize ≤ payload.length) :
    AckPayload.read? payload = some (AckPayload.read payload) := by
  have h40 : 40 ≤ payload.length := h
  simp (disch := omega) only [AckPayload.read?, wordAt?_eq]
  rfl

theorem LostPayload.read?_eq {payload : List UInt8} (h : lostSize ≤ payload.length) :
    LostPayload.read? payload = some (LostPayload.read payload) := by
  have h32 : 32 ≤ payload.length := h
  simp (disch := omega) only [LostPayload.read?, wordAt?_eq]
  rfl

/-- The field behind the header is the rest of a packet of the announced length. -/
theorem field?_drop {bytes : List UInt8} {offset len : ℕ} (h : bytes.length = offset + len) :
    field? bytes offset len = some (bytes.drop offset) := by
  rw [field?_eq (by omega), field, List.take_of_length_le]
  rw [List.length_drop]
  omega

theorem packetValid?_eq (packet : List UInt8) :
    packetValid? packet = some (packetValid packet) := by
  rw [packetValid?, packetValid]
  by_cases hshort : packet.length < hdrSize
  · rw [if_pos hshort, if_pos hshort]
  · rw [if_neg hshort, if_neg hshort, WireHdr.read?_eq (not_lt.mp hshort)]
    simp only [Option.bind_eq_bind, Option.bind_some]
    split
    · rfl
    · next hvalid =>
        push Not at hvalid
        rw [field?_drop hvalid.2.2.2, Option.bind_some]

theorem sizedBody?_eq {size : ℕ} {payload : List UInt8} {body : Body} {body? : Option Body}
    (h : size ≤ payload.length → body? = some body) :
    sizedBody? size payload body? = some (sizedBody size payload body) := by
  rw [sizedBody?, sizedBody]
  split
  · rfl
  · next hsize => rw [h (not_lt.mp hsize), Option.map_some]

theorem readBody?_eq (type : BitVec 8) (payload : List UInt8) :
    readBody? type payload = some (readBody type payload) := by
  rw [readBody?, readBody]
  split
  · exact sizedBody?_eq fun h => by rw [HelloPayload.read?_eq h, Option.map_some]
  split
  · exact sizedBody?_eq fun h => by rw [HelloAckPayload.read?_eq h, Option.map_some]
  split
  · refine sizedBody?_eq fun h => ?_
    have hrest : payload.length = reliableHdrSize + (payload.length - reliableHdrSize) := by
      omega
    simp only [ReliableHdr.read?_eq h, field?_drop hrest, Option.bind_eq_bind,
      Option.bind_some]
  split
  · exact sizedBody?_eq fun h => by rw [AckPayload.read?_eq h, Option.map_some]
  split
  · exact sizedBody?_eq fun h => by rw [AckPayload.read?_eq h, Option.map_some]
  split
  · exact sizedBody?_eq fun h => by rw [LostPayload.read?_eq h, Option.map_some]
  · rfl

/-! ## The invariant -/

/-- A reassembly slot as `reassembly_find` opens it and `deliver_fragment` fills it. -/
structure ReassemblySlot.Sound (slot : ReassemblySlot) : Prop where
  lens : slot.fragmentLen.length = reliableMaxFragments
  len_le : ∀ len ∈ slot.fragmentLen, len ≤ reliableInnerMax
  data : slot.data.length = messageMax
  count_le : slot.fragmentCount ≤ reliableMaxFragments

/-- What the tables hold was checked before it was stored. -/
structure Safe (c : Ctx) : Prop where
  tx : ∀ slot ∈ held c.tx, slot.payload.length ≤ reliableInnerMax
  rx : c.Framed
  reassembly : ∀ slot ∈ held c.reassembly, slot.Sound

theorem newReassemblySlot_sound {key : Mac} {rh : ReliableHdr} {payload : List UInt8}
    {now : U32} (h : Framed rh payload) : (newReassemblySlot key rh now).Sound where
  lens := List.length_replicate
  len_le := fun len hlen => by
    rw [List.eq_of_mem_replicate hlen]
    exact Nat.zero_le _
  data := List.length_replicate
  count_le := h.count_le

/-- A checked frame of the slot's message fits into the slot. -/
theorem Framed.fits {rh : ReliableHdr} {payload : List UInt8} {slot : ReassemblySlot}
    (h : Framed rh payload) (hslot : slot.Sound) :
    rh.fragmentIndex * reliableInnerMax + payload.length ≤ slot.data.length := by
  rw [hslot.data]
  refine offset_le (h.index_lt.trans_le h.count_le) ?_
  rw [h.length]
  exact h.length_le

theorem ReassemblySlot.Sound.store {slot : ReassemblySlot} {rh : ReliableHdr}
    {payload : List UInt8} {now : U32} (h : slot.Sound) (hframed : Framed rh payload) :
    (slot.store rh payload now).Sound := by
  constructor
  · exact List.length_set.trans h.lens
  · intro len hlen
    rcases List.mem_or_eq_of_mem_set hlen with hlen | rfl
    · exact h.len_le len hlen
    · exact hframed.length_le
  · exact (length_splice (hframed.fits h)).trans h.data
  · exact h.count_le

variable {allowed : ℕ → Prop}

/-- An update keeps the invariant. -/
theorem Safe.update {c c' : Ctx} (h : Safe c) (hstep : Update allowed c c') : Safe c' := by
  refine ⟨?_, hstep.framed h.rx, ?_⟩
  · intro slot hslot
    cases hstep with
    | release hrel =>
        obtain ⟨old, hold, halike⟩ := hrel.tx.exists_held hslot
        rw [halike.payload]
        exact h.tx old hold
    | fillTx _ hchunk _ =>
        rcases mem_held_set hslot with rfl | hold
        · exact hchunk
        · exact h.tx slot hold
    | fillRx _ _ => exact h.tx slot hslot
    | openReassembly _ _ => exact h.tx slot hslot
    | store _ _ _ => exact h.tx slot hslot
  · intro slot hslot
    cases hstep with
    | release hrel =>
        obtain ⟨_, hold, rfl⟩ := hrel.reassembly.exists_held hslot
        exact h.reassembly _ hold
    | fillTx _ _ _ => exact h.reassembly slot hslot
    | fillRx _ _ => exact h.reassembly slot hslot
    | openReassembly hframed _ =>
        rcases mem_held_set hslot with rfl | hold
        · exact newReassemblySlot_sound hframed
        · exact h.reassembly slot hold
    | store hframed hentry _ =>
        rcases mem_held_set hslot with rfl | hold
        · exact (h.reassembly _ (mem_held_of_entryAt hentry)).store hframed
        · exact h.reassembly slot hold

theorem Safe.after {c c' : Ctx} (h : Safe c) (hsteps : Updates allowed c c') : Safe c' :=
  hsteps.keep (fun _ _ h hstep => h.update hstep) h

/-- Every reachable state satisfies the invariant. -/
theorem Reachable.safe {c : Ctx} (h : Reachable allowed c) : Safe c := by
  refine h.keep ?_ fun _ _ hc hstep => hc.update hstep
  intro config session stream start hstart
  refine ⟨?_, init_framed hstart, ?_⟩
  all_goals
    simp only [init] at hstart
    split at hstart
    · simp at hstart
    · obtain rfl := Option.some.inj hstart
      intro slot hslot
      simp [held_replicate_none] at hslot

/-! ## Arrays, buffers and shifts -/

section Checks

variable {c : Ctx} {key : Mac} {channel : ℕ}

theorem expected?_eq (h : channel < channelCount) :
    c.expected? key channel = some ((c.peer key).expectedSeq channel) :=
  if_pos h

theorem setExpected?_eq (h : channel < channelCount) (seq : U32) :
    c.setExpected? key channel seq = some (c.setExpected key channel seq) :=
  if_pos h

theorem copy?_eq {buffer source : List UInt8} {offset len : ℕ} (hlen : len ≤ source.length)
    (hfit : offset + len ≤ buffer.length) :
    copy? buffer offset source len =
      some (buffer.take offset ++ source.take len ++ buffer.drop (offset + len)) :=
  if_pos ⟨hlen, hfit⟩

theorem shift?_eq {w n : ℕ} (h : n < w) : shift? w n = some (1#w <<< n) :=
  if_pos h

theorem deliver?_eq {buffer : List UInt8} {len : ℕ} {streamId : U32}
    (hlen : len ≤ buffer.length) (hmax : len ≤ messageMax) :
    deliver? c key channel buffer len streamId =
      some (c.emit (.deliver key (c.peerSendMac key) channel (buffer.take len) streamId)) :=
  if_pos ⟨hlen, hmax⟩

theorem sendLostPacket?_eq {reason : LostReason} {flags : BitVec 16} {first last : U32} :
    sendLostPacket? c key channel reason flags first last =
      some (sendLostPacket c key channel reason flags first last) := by
  have hsize : hdrSize + lostSize ≤ packetMax := by decide
  rw [sendLostPacket?, sendLostPacket]
  exact if_pos hsize

/-- A loop whose steps succeed. -/
theorem foldlM_eq_some {α β : Type} {f : β → α → Option β} {g : β → α → β} {as : List α}
    (h : ∀ b, ∀ a ∈ as, f b a = some (g b a)) (b : β) :
    as.foldlM f b = some (as.foldl g b) := by
  induction as generalizing b with
  | nil => rfl
  | cons a as ih =>
      rw [List.foldlM_cons, h b a List.mem_cons_self, List.foldl_cons]
      exact ih (fun b a ha => h b a (List.mem_cons_of_mem _ ha)) (g b a)

theorem sackBitmap?_eq (h : channel < channelCount) :
    sackBitmap? c key channel = some (sackBitmap c key channel) := by
  simp only [sackBitmap?, sackBitmap, expected?_eq h, Option.bind_eq_bind, Option.bind_some]
  refine foldlM_eq_some (fun bitmap bit hbit => ?_) _
  have hlt : bit < 32 := List.mem_range.mp hbit
  split
  · rw [shift?_eq hlt, Option.map_some]
  · rfl

theorem sendAck?_eq {rh : ReliableHdr} (h : rh.channelId < channelCount) (nack : Bool) :
    sendAck? c key rh nack = some (sendAck c key rh nack) := by
  rw [sendAck?, expected?_eq h, sackBitmap?_eq h]
  refine if_pos ?_
  cases nack
  · exact (by decide : hdrSize + ackSize ≤ packetMax)
  · exact (by decide : hdrSize + ackSize ≤ packetMax)

/-! ## Reassembly -/

theorem foldl_lengths {lens : List ℕ} {n : ℕ} (h : n ≤ lens.length) :
    (List.range n).foldl (fun total i => total + (lens[i]?).getD 0) 0 = (lens.take n).sum := by
  induction n with
  | zero => rfl
  | succ n ih =>
      rw [List.range_succ, List.foldl_append, ih (by omega), List.take_add_one,
        List.sum_append]
      have hget : lens[n]? = some lens[n] := List.getElem?_eq_getElem (by omega)
      simp [hget]

/-- The loop over `fragment_len` stays inside the array. -/
theorem ReassemblySlot.Sound.total?_eq {slot : ReassemblySlot} (h : slot.Sound) :
    slot.total? = some slot.total := by
  have hlen : slot.fragmentCount ≤ slot.fragmentLen.length := h.lens ▸ h.count_le
  rw [ReassemblySlot.total?, ReassemblySlot.total, ← foldl_lengths hlen]
  refine foldlM_eq_some (fun total i hi => ?_) 0
  have hlt : i < slot.fragmentLen.length := (List.mem_range.mp hi).trans_le hlen
  rw [List.getElem?_eq_getElem hlt, Option.map_some, Option.getD_some]

/-- The stored lengths add up to a message. -/
theorem ReassemblySlot.Sound.total_le {slot : ReassemblySlot} (h : slot.Sound) :
    slot.total ≤ messageMax := by
  have hsum : slot.total ≤ (slot.fragmentLen.take slot.fragmentCount).length •
      reliableInnerMax :=
    List.sum_le_card_nsmul _ _ fun len hlen => h.len_le len (List.mem_of_mem_take hlen)
  have hcount : (slot.fragmentLen.take slot.fragmentCount).length ≤ reliableMaxFragments :=
    (List.length_take_le _ _).trans h.count_le
  refine hsum.trans ?_
  rw [smul_eq_mul, Nat.mul_comm, messageMax]
  exact Nat.mul_le_mul_left _ hcount

theorem ReassemblySlot.Sound.store?_eq {slot : ReassemblySlot} {rh : ReliableHdr}
    {payload : List UInt8} (h : slot.Sound) (hframed : Framed rh payload) (now : U32) :
    slot.store? rh payload now = some (slot.store rh payload now) := by
  have hindex : rh.fragmentIndex < 16 := hframed.index_lt.trans_le hframed.count_le
  have hfit : rh.fragmentIndex * reliableInnerMax + rh.payloadLen ≤ slot.data.length :=
    hframed.length ▸ hframed.fits h
  have hwrite : write? slot.fragmentLen rh.fragmentIndex rh.payloadLen =
      some (slot.fragmentLen.set rh.fragmentIndex rh.payloadLen) :=
    if_pos (h.lens ▸ hindex)
  rw [ReassemblySlot.store?, copy?_eq hframed.length.ge hfit, hwrite, shift?_eq hindex,
    ReassemblySlot.store, List.take_of_length_le hframed.length.le, hframed.length]
  rfl

theorem isComplete?_eq {slot : ReassemblySlot} {count : ℕ} (h : count ≤ reliableMaxFragments) :
    slot.isComplete? count = some (slot.isComplete count) := by
  have hword : ∀ n ≤ 16, (1#32 <<< n - 1#32).setWidth 16 = BitVec.ofNat 16 (2 ^ n - 1) := by
    decide
  rw [ReassemblySlot.isComplete?, shift?_eq (lt_of_le_of_lt h (by decide)), Option.map_some,
    ReassemblySlot.isComplete, hword count h]

theorem storeFragment?_eq {slot : ReassemblySlot} {rh : ReliableHdr} {payload : List UInt8}
    (h : slot.Sound) (hframed : Framed rh payload) (i : ℕ) (now : U32) :
    storeFragment? c key i slot rh payload now =
      some (storeFragment c key i slot rh payload now) := by
  have hstored : (slot.store rh payload now).Sound := h.store hframed
  rw [storeFragment?, h.store?_eq hframed, storeFragment]
  simp only [Option.bind_eq_bind, Option.bind_some, isComplete?_eq hframed.count_le]
  split
  · rw [hstored.total?_eq, Option.bind_some,
      deliver?_eq (hstored.data.symm ▸ hstored.total_le) hstored.total_le]
    rfl
  · rfl

/-! ## The receive path -/

/-- The function called for `consume_contiguous` makes no access out of range. -/
def Checks (consume? : Ctx → Option Ctx) (consume : Ctx → Ctx) : Prop :=
  ∀ c, Safe c → consume? c = some (consume c)

theorem Safe.start (h : Safe c) : Updates (fun _ => True) c c :=
  .refl h.rx

theorem receiverDropRange?_eq {consume? : Ctx → Option Ctx} {consume : Ctx → Ctx}
    (hc : Safe c) (hchecks : Checks consume? consume) (hchannel : channel < channelCount)
    {reason : LostReason} {first last : U32} :
    receiverDropRange? consume? c key channel reason first last =
      some (receiverDropRange consume c key channel reason first last) := by
  have hforget : Updates (fun _ => True) c (forgetRange c key channel reason first last) :=
    ((hc.start.freeRx _).freeReassembly _).recordLost
  have hnext : Safe ((forgetRange c key channel reason first last).setExpected key channel
      (last + 1)) :=
    hc.after (hforget.setExpected _)
  rw [receiverDropRange?, receiverDropRange]
  simp only [expected?_eq hchannel, setExpected?_eq hchannel, hchecks _ hnext,
    sendLostPacket?_eq, Option.bind_eq_bind, Option.bind_some]
  split
  · rfl
  · split
    · split
      · rfl
      · rfl
    · rfl

theorem deliverFragment?_eq {consume? : Ctx → Option Ctx} {consume : Ctx → Ctx}
    (hc : Safe c) (hchecks : Checks consume? consume) {rh : ReliableHdr}
    {payload : List UInt8} (hframed : Framed rh payload) (now : U32) :
    deliverFragment? consume? c key rh payload now =
      some (deliverFragment consume c key rh payload now) := by
  have hhand : Updates (fun _ => True) c (c.emit (.handOff key rh payload)) :=
    hc.start.emit _
  have hfind : Safe (reassemblyFind (c.emit (.handOff key rh payload)) key rh true now).1 :=
    hc.after (hhand.reassemblyFind hframed)
  rw [deliverFragment?, deliverFragment]
  split
  · have hmax : rh.payloadLen ≤ messageMax := hframed.length_le.trans (by decide)
    rw [deliver?_eq hframed.length.ge hmax, List.take_of_length_le hframed.length.le]
  · split
    · rfl
    · generalize reassemblyFind (c.emit (.handOff key rh payload)) key rh true now = found
        at hfind
      obtain ⟨c', i⟩ := found
      cases i with
      | none =>
          exact receiverDropRange?_eq (hfind.after hfind.start.reassemblyFailed) hchecks
            hframed.channel_lt
      | some i =>
          simp only
          cases hentry : entryAt c'.reassembly i with
          | none => rfl
          | some slot =>
              exact storeFragment?_eq (hfind.reassembly slot (mem_held_of_entryAt hentry))
                hframed _ _

theorem skipLost?_eq (hchannel : channel < channelCount) :
    skipLost? c key channel = some (skipLost c key channel) := by
  rw [skipLost?, skipLost]
  simp only [expected?_eq hchannel, setExpected?_eq hchannel, Option.bind_eq_bind,
    Option.bind_some]
  generalize findIdx _ (c.peer key).pendingLost = found
  cases found with
  | none => rfl
  | some i =>
      simp only
      cases entryAt (c.peer key).pendingLost i with
      | none => rfl
      | some range => rfl

/-- A stored payload fits into the local buffer. -/
theorem Framed.copy? {rh : ReliableHdr} {payload : List UInt8} (h : Framed rh payload) :
    ∃ copied, copy? (List.replicate reliableInnerMax 0) 0 payload rh.payloadLen =
      some copied := by
  refine ⟨_, copy?_eq h.length.ge ?_⟩
  rw [List.length_replicate, Nat.zero_add]
  exact h.length_le

theorem takeBuffered?_eq (hc : Safe c) (hchannel : channel < channelCount) :
    takeBuffered? c key channel = some (takeBuffered c key channel) := by
  rw [takeBuffered?, takeBuffered]
  simp only [expected?_eq hchannel, setExpected?_eq hchannel, Option.bind_eq_bind,
    Option.bind_some]
  generalize rxFind c key channel _ = found
  cases found with
  | none => rfl
  | some i =>
      simp only
      cases hentry : entryAt c.rx i with
      | none => rfl
      | some slot =>
          obtain ⟨copied, hcopied⟩ := (hc.rx slot (mem_held_of_entryAt hentry)).frame.copy?
          simp only [hcopied, Option.bind_some]

theorem consumeContiguous?_eq (n : ℕ) {now : U32} (hc : Safe c)
    (hchannel : channel < channelCount) :
    consumeContiguous? n c key channel now =
      some (consumeContiguous n c key channel now) := by
  induction n generalizing c channel with
  | zero => rfl
  | succ n ih =>
      rw [consumeContiguous?, consumeContiguous, skipLost?_eq hchannel, Option.bind_some]
      cases hskip : skipLost c key channel with
      | some c' => exact ih (hc.after (hc.start.skipLost hskip)) hchannel
      | none =>
          simp only
          rw [takeBuffered?_eq hc hchannel, Option.bind_some]
          cases htake : takeBuffered c key channel with
          | none => rfl
          | some taken =>
              obtain ⟨c', slot⟩ := taken
              obtain ⟨htaken, hframed⟩ := hc.start.takeBuffered htake
              have hchecks : Checks
                  (fun c => consumeContiguous? n c key slot.hdr.channelId now)
                  (fun c => consumeContiguous n c key slot.hdr.channelId now) :=
                fun _ hc => ih hc hframed.frame.channel_lt
              simp only
              rw [deliverFragment?_eq (hc.after htaken) hchecks hframed.frame, Option.bind_some]
              refine ih (@Safe.after (fun _ => True) _ _ hc ?_) hchannel
              exact htaken.deliverFragment (consumer_consumeContiguous n key _ now)
                hframed.frame

theorem drain?_eq (hc : Safe c) (hchannel : channel < channelCount) (now : U32) :
    drain? c key channel now = some (drain c key channel now) :=
  consumeContiguous?_eq _ hc hchannel

theorem checks_drain (key : Mac) (now : U32) (hchannel : channel < channelCount) :
    Checks (fun c => drain? c key channel now) (fun c => drain c key channel now) :=
  fun _ hc => drain?_eq hc hchannel now

/-! ## Packet handlers -/

theorem newRxSlot?_eq {rh : ReliableHdr} {payload : List UInt8}
    (hlen : rh.payloadLen ≤ payload.length) (hmax : rh.payloadLen ≤ reliableInnerMax) :
    newRxSlot? key rh payload = some (newRxSlot key rh payload) := by
  have hfit : 0 + rh.payloadLen ≤ (List.replicate reliableInnerMax (0 : UInt8)).length := by
    rw [List.length_replicate, Nat.zero_add]
    exact hmax
  have htake : (payload.take rh.payloadLen).length = rh.payloadLen :=
    List.length_take_of_le hlen
  simp only [newRxSlot?, newRxSlot, copy?_eq hlen hfit, Option.bind_eq_bind,
    Option.bind_some, List.take_zero, List.nil_append, List.take_left' htake]

theorem acceptData?_eq (hc : Safe c) {rh : ReliableHdr} {payload : List UInt8}
    (hframed : Framed rh (payload.take rh.payloadLen)) (now : U32) :
    acceptData? c key rh payload now = some (acceptData c key rh payload now) := by
  have hchannel := hframed.channel_lt
  have hdrain := checks_drain key now hchannel
  have hnext (seq : U32) : Safe (c.setExpected key rh.channelId seq) :=
    hc.after (hc.start.setExpected seq)
  have hdelivered (seq : U32) : Safe (deliverFragment (fun c => drain c key rh.channelId now)
      (c.setExpected key rh.channelId seq) key rh (payload.take rh.payloadLen) now) :=
    hc.after ((hc.start.setExpected seq).deliverFragment (consumer_drain _ _ now) hframed)
  have hoverflow : Safe ((c.emit (.exhausted key)).modPeer key Peer.countOverflow) :=
    hc.after ((hc.start.emit _).modPeer _)
  have hlen : rh.payloadLen ≤ payload.length := by
    have := hframed.length
    rw [List.length_take] at this
    omega
  rw [acceptData?, acceptData]
  simp only [expected?_eq hchannel, setExpected?_eq hchannel, sendAck?_eq hchannel,
    deliverFragment?_eq (hnext _) hdrain hframed, drain?_eq (hdelivered _) hchannel,
    Option.bind_eq_bind, Option.bind_some]
  split
  · rfl
  split
  · rfl
  split
  · rfl
  split
  · rfl
  generalize rxAlloc c key = found
  cases found with
  | none =>
      simp only
      rw [receiverDropRange?_eq hoverflow hdrain hchannel, Option.bind_some]
  | some i =>
      simp only
      rw [newRxSlot?_eq hlen hframed.length_le, Option.bind_some]

theorem handleData?_eq (hc : Safe c) (src : Mac) (rh : ReliableHdr) (payload : List UInt8)
    (now : U32) :
    handleData? c src rh payload now = some (handleData c src rh payload now) := by
  have hfind : Updates (fun _ => True) c (peerFind c src false now).1 :=
    hc.start.peerFind src false now
  rw [handleData?, handleData]
  split
  · rfl
  · next hformed =>
      have hframed := framed_of_not_malformed hformed
      have hchannel := hframed.channel_lt
      simp only
      generalize boundPeer _ _ rh.rootSessionId rh.nodeSessionId = bound
      cases bound with
      | none => rfl
      | some key =>
          have hheard : Safe ((peerFind c src false now).1.modPeer key
              (Peer.heardData rh now)) :=
            hc.after (hfind.modPeer _)
          have hjump := hheard.after (@Updates.latestJump _ _ _ key hheard.start rh)
          simp only [expected?_eq hchannel, Option.bind_eq_bind, Option.bind_some]
          split
          · split
            · rfl
            · split
              · rw [latestJump?, setExpected?_eq hchannel, Option.bind_some]
                exact acceptData?_eq hjump hframed now
              · exact acceptData?_eq hheard hframed now
          · exact acceptData?_eq hheard hframed now

theorem handleLostPacket?_eq (hc : Safe c) (src : Mac) (lost : LostPayload) (now : U32) :
    handleLostPacket? c src lost now = some (handleLostPacket c src lost now) := by
  have hfind : Updates (fun _ => True) c (peerFind c src false now).1 :=
    hc.start.peerFind src false now
  simp only [handleLostPacket?, handleLostPacket]
  generalize boundPeer _ _ lost.rootSessionId lost.nodeSessionId = bound
  cases bound with
  | none => rfl
  | some key =>
      simp only
      split
      · rfl
      · next hbad =>
          have hchannel : lost.channelId < channelCount := by
            push Not at hbad
            exact hbad.2.1
          have hnext : Safe ((peerFind c src false now).1.setExpected key lost.channelId
              (lost.seqLast + 1)) :=
            hc.after (hfind.setExpected _)
          simp only [expected?_eq hchannel, setExpected?_eq hchannel,
            drain?_eq hnext hchannel, Option.bind_eq_bind, Option.bind_some]
          split
          · rfl
          split
          · rfl
          split
          · split
            · rfl
            · rfl
          · rfl

/-- The shift of `ack_slots` is made below the width of the bitmap only. -/
theorem accepts?_eq (ack : AckPayload) (seq : U32) :
    (ack.accepts? seq).isSome := by
  rw [AckPayload.accepts?]
  split
  · rfl
  · simp only
    split
    · next hdelta => rw [shift?_eq hdelta, Option.map_some, Option.isSome_some]
    · rfl

theorem ackSlots?_eq (ack : AckPayload) (now : U32) :
    ackSlots? c key ack now = some (ackSlots c key ack now) := by
  rw [ackSlots?, if_pos]
  exact fun slot _ => accepts?_eq ack slot.seq

theorem retransmitSlot?_eq (hc : Safe c) (i : ℕ) (now : U32) :
    retransmitSlot? c key i now = some (retransmitSlot c key i now) := by
  rw [retransmitSlot?]
  split
  · next hentry => rw [retransmitSlot, hentry]
  · next slot hentry =>
      refine if_pos ?_
      have hlen : slot.payload.length ≤ 152 := hc.tx slot (mem_held_of_entryAt hentry)
      have hsize : (Body.data slot.rh slot.payload).size = 40 + slot.payload.length := rfl
      have hhdr : hdrSize = 26 := rfl
      have hmax : packetMax = 224 := rfl
      omega

theorem handleAckPacket?_eq (hc : Safe c) (src : Mac) (ack : AckPayload) (nack : Bool)
    (now : U32) :
    handleAckPacket? c src ack nack now = some (handleAckPacket c src ack nack now) := by
  have hfind : Updates (fun _ => True) c (peerFind c src false now).1 :=
    hc.start.peerFind src false now
  simp only [handleAckPacket?, handleAckPacket]
  generalize boundPeer _ _ ack.rootSessionId ack.nodeSessionId = bound
  cases bound with
  | none => rfl
  | some key =>
      have hacked : Safe (ackSlots ((peerFind c src false now).1.modPeer key Peer.routeSeen)
          key ack now) :=
        hc.after (hfind.modPeer _).ackSlots
      simp only
      split
      · rfl
      · simp only [ackSlots?_eq, Option.bind_eq_bind, Option.bind_some]
        split
        · generalize txFind _ key ack.channelId ack.nackSeq = found
          cases found with
          | some i => exact retransmitSlot?_eq hacked i now
          | none => exact sendLostPacket?_eq
        · rfl

theorem handleRx?_eq (hc : Safe c) (src : Mac) (packet : Packet) (now : U32) :
    handleRx? c src packet now = some (handleRx c src packet now) := by
  have hhello : hdrSize + helloAckSize ≤ packetMax := by decide
  rw [handleRx?, handleRx]
  split
  · rfl
  · cases packet.body with
    | hello hello => exact if_pos hhello
    | helloAck ack => rfl
    | data rh payload => exact handleData?_eq hc src rh payload now
    | ack ack => exact handleAckPacket?_eq hc src ack false now
    | nack ack => exact handleAckPacket?_eq hc src ack true now
    | lost lost => exact handleLostPacket?_eq hc src lost now

/-- Every check succeeds. -/
theorem handleRxBytes?_eq (hc : Safe c) (src : Mac) (packet : List UInt8) (now : U32) :
    handleRxBytes? c src packet now = some (handleRxBytes c src packet now) := by
  rw [handleRxBytes?, handleRxBytes, packetValid?_eq]
  simp only [Option.bind_eq_bind, Option.bind_some]
  cases packetValid packet with
  | none => rfl
  | some found =>
      obtain ⟨h, payload⟩ := found
      simp only
      split
      · rfl
      · rw [readBody?_eq, Option.bind_some]
        cases readBody h.type payload with
        | error err => rfl
        | ok body => exact handleRx?_eq hc src _ now

/-! ## What is delivered -/

/-- The deliver callback gets a frame that is a message of its own, or of the buffer of the
slot that a frame completed as many bytes as the lengths stored there add up to. -/
inductive Measured (now : U32) (bytes : List UInt8) : Prop where
  | frame {rh : ReliableHdr} (hframed : Framed rh bytes) (hone : rh.fragmentCount = 1)
  | fragments {slot : ReassemblySlot} {rh : ReliableHdr} {payload : List UInt8}
      (hframed : Framed rh payload) (hsound : (slot.store rh payload now).Sound)
      (hcount : slot.fragmentCount = rh.fragmentCount)
      (hcomplete : (slot.store rh payload now).isComplete rh.fragmentCount = true)
      (hbytes : bytes = (slot.store rh payload now).data.take bytes.length)
      (hlen : bytes.length = (slot.store rh payload now).total)

theorem Measured.length_le {now : U32} {bytes : List UInt8} (h : Measured now bytes) :
    bytes.length ≤ messageMax := by
  cases h with
  | frame hframed _ =>
      rw [hframed.length]
      exact hframed.length_le.trans (by decide)
  | fragments _ hsound _ _ _ hlen => exact hlen.trans_le hsound.total_le

def Effect.Measured (now : U32) : Effect → Prop
  | .deliver _ _ _ bytes _ => Rel.Measured now bytes
  | _ => True

/-- What was not delivered before is measured. -/
def Hears (now : U32) (old : List Effect) (c : Ctx) : Prop :=
  ∀ e ∈ c.trace, e ∈ old ∨ e.Measured now

variable {now : U32} {old : List Effect}

theorem Hears.emit (h : Hears now old c) {e : Effect} (he : e.Measured now) :
    Hears now old (c.emit e) := by
  intro e' hmem
  rcases List.mem_append.mp hmem with hmem | hmem
  · exact h e' hmem
  · rw [List.mem_singleton.mp hmem]
    exact .inr he

theorem Hears.setTx (h : Hears now old c) (table : List (Option TxSlot)) :
    Hears now old (c.setTx table) :=
  h

theorem Hears.setRx (h : Hears now old c) (table : List (Option RxSlot)) :
    Hears now old (c.setRx table) :=
  h

theorem Hears.setReassembly (h : Hears now old c) (table : List (Option ReassemblySlot)) :
    Hears now old (c.setReassembly table) :=
  h

theorem Hears.setPeers (h : Hears now old c) (table : List (Option Peer)) :
    Hears now old (c.setPeers table) :=
  h

theorem Hears.modPeer (h : Hears now old c) (f : Peer → Peer) :
    Hears now old (c.modPeer key f) :=
  h

theorem Hears.setExpected (h : Hears now old c) (seq : U32) :
    Hears now old (c.setExpected key channel seq) :=
  h

theorem Hears.setPending (h : Hears now old c) (table : List (Option PendingLostRange)) :
    Hears now old (c.setPending key table) :=
  h

theorem Hears.foldl {α : Type} {f : Ctx → α → Ctx} (h : Hears now old c)
    (hf : ∀ c a, Hears now old c → Hears now old (f c a)) (as : List α) :
    Hears now old (as.foldl f c) := by
  induction as generalizing c with
  | nil => exact h
  | cons a as ih => exact ih (hf c a h)

theorem Hears.peerFind (h : Hears now old c) (mac : Mac) (create : Bool) (time : U32) :
    Hears now old (peerFind c mac create time).1 := by
  rw [Rel.peerFind]
  split
  · split
    · exact h.modPeer _
    · exact h
  · split
    · split
      · exact h.setPeers _
      · exact h
    · exact h

theorem Hears.sendPacket (h : Hears now old c) {sessionId : U32} {body : Body} :
    Hears now old (sendPacket c key sessionId body).1 :=
  h.emit trivial

theorem Hears.recordLost (h : Hears now old c) {role : Role} {reason : LostReason}
    {first last count : U32} :
    Hears now old (recordLost c role key channel reason first last count) :=
  (h.modPeer _).emit trivial

theorem Hears.sendLostPacket (h : Hears now old c) {reason : LostReason}
    {flags : BitVec 16} {first last : U32} :
    Hears now old (sendLostPacket c key channel reason flags first last).1 :=
  h.sendPacket

theorem Hears.clearPeerBuffers (h : Hears now old c) {reason : LostReason} :
    Hears now old (clearPeerBuffers c key reason) := by
  have hrx (c : Ctx) (h : Hears now old c) : Hears now old (clearRx c key reason) :=
    (h.foldl (fun _ _ h => h.recordLost) _).setRx _
  have hreassembly (c : Ctx) (h : Hears now old c) :
      Hears now old (clearReassembly c key reason) :=
    (h.foldl (fun _ _ h => h.recordLost) _).setReassembly _
  have hcleared : Hears now old ((c.emit (.cleared key)).setTx
      (freeWhere (fun slot => slot.peer == key) c.tx)) :=
    Hears.setTx (h.emit (e := .cleared key) trivial) _
  rw [Rel.clearPeerBuffers]
  refine Hears.foldl ((hreassembly _ (hrx _ hcleared)).modPeer _) ?_ _
  intro c _ h
  split
  · exact h.recordLost
  · exact h

/-- The function called for `consume_contiguous` delivers what is measured. -/
def Hearing (now : U32) (consume : Ctx → Ctx) : Prop :=
  ∀ old c, Safe c → Hears now old c → Hears now old (consume c)

theorem Hears.receiverDropRange {consume : Ctx → Ctx} (h : Hears now old c) (hc : Safe c)
    (hconsume : Hearing now consume) {reason : LostReason} {first last : U32} :
    Hears now old (receiverDropRange consume c key channel reason first last) := by
  have hforget : Hears now old (forgetRange c key channel reason first last) :=
    ((h.setRx _).setReassembly _).recordLost
  have hupdates : Updates (fun _ => True) c (forgetRange c key channel reason first last) :=
    ((hc.start.freeRx _).freeReassembly _).recordLost
  simp only [Rel.receiverDropRange]
  split
  · refine (hconsume _ _ (hc.after (hupdates.setExpected _)) ?_).sendLostPacket
    exact hforget.setExpected _
  split
  · split
    · exact (hforget.setPending _).sendLostPacket
    · exact (hforget.setPending _).clearPeerBuffers
  · exact hforget.sendLostPacket

theorem Hears.reassemblyFind (h : Hears now old c) {rh : ReliableHdr} {create : Bool}
    {time : U32} : Hears now old (reassemblyFind c key rh create time).1 := by
  rw [Rel.reassemblyFind]
  repeat' split
  all_goals exact h

theorem Hears.reassemblyFailed (h : Hears now old c) {rh : ReliableHdr} :
    Hears now old (reassemblyFailed c key rh) := by
  rw [Rel.reassemblyFailed]
  split
  · exact h.modPeer _
  · exact Hears.modPeer (h.emit (e := .exhausted key) trivial) _

theorem Hears.storeFragment (h : Hears now old c) {i : ℕ} {slot : ReassemblySlot}
    {rh : ReliableHdr} {payload : List UInt8} (hframed : Framed rh payload)
    (hsound : slot.Sound) (hcount : slot.fragmentCount = rh.fragmentCount) :
    Hears now old (storeFragment c key i slot rh payload now) := by
  have hstored : (slot.store rh payload now).Sound := hsound.store hframed
  have hlen : ((slot.store rh payload now).data.take (slot.store rh payload now).total).length =
      (slot.store rh payload now).total :=
    List.length_take_of_le (hstored.data.symm ▸ hstored.total_le)
  rw [Rel.storeFragment]
  split
  · next hcomplete =>
      refine Hears.setReassembly (h.emit ?_) _
      refine Measured.fragments hframed hstored hcount hcomplete ?_ hlen
      rw [hlen]
  · exact h.setReassembly _

theorem Hears.deliverFragment {consume : Ctx → Ctx} (h : Hears now old c) (hc : Safe c)
    (hconsume : Hearing now consume) {rh : ReliableHdr} {payload : List UInt8}
    (hframed : Framed rh payload) :
    Hears now old (deliverFragment consume c key rh payload now) := by
  have hhand : Hears now old (c.emit (.handOff key rh payload)) := h.emit trivial
  have hfind : Hears now old
      (Rel.reassemblyFind (c.emit (.handOff key rh payload)) key rh true now).1 :=
    hhand.reassemblyFind
  have hsafe : Safe
      (Rel.reassemblyFind (c.emit (.handOff key rh payload)) key rh true now).1 :=
    hc.after ((hc.start.emit _).reassemblyFind hframed)
  rw [Rel.deliverFragment]
  split
  · next hone => exact hhand.emit (.frame hframed (le_antisymm hone hframed.count_pos))
  · split
    · exact hhand
    · split
      · next heq =>
          rw [heq] at hfind hsafe
          exact hfind.reassemblyFailed.receiverDropRange
            (hsafe.after hsafe.start.reassemblyFailed) hconsume
      · next heq =>
          rw [heq] at hfind hsafe
          split
          · exact hfind
          · next hentry =>
              exact hfind.storeFragment hframed
                (hsafe.reassembly _ (mem_held_of_entryAt hentry))
                (reassemblyFind_count heq hentry)

theorem Hears.skipLost {c' : Ctx} (h : Hears now old c)
    (hskip : skipLost c key channel = some c') : Hears now old c' := by
  rw [Rel.skipLost] at hskip
  split at hskip
  · simp at hskip
  · split at hskip
    · simp at hskip
    · obtain rfl := Option.some.inj hskip
      exact (h.setExpected _).setPending _

theorem Hears.takeBuffered {c' : Ctx} {slot : RxSlot} (h : Hears now old c)
    (htake : takeBuffered c key channel = some (c', slot)) : Hears now old c' := by
  simp only [Rel.takeBuffered] at htake
  split at htake
  · simp at htake
  · split at htake
    · simp at htake
    · simp only [Option.some.injEq, Prod.mk.injEq] at htake
      obtain ⟨rfl, -⟩ := htake
      exact (h.setRx _).setExpected _

theorem hearing_consumeContiguous (n : ℕ) (hchannel : channel < channelCount) :
    Hearing now fun c => consumeContiguous n c key channel now := by
  induction n generalizing channel with
  | zero => exact fun _ _ _ h => h
  | succ n ih =>
      intro old c hc h
      simp only [consumeContiguous]
      split
      · next hskip =>
          exact ih hchannel old _ (hc.after (hc.start.skipLost hskip)) (h.skipLost hskip)
      · split
        · exact h
        · next slot htake =>
            obtain ⟨htaken, hframed⟩ := hc.start.takeBuffered htake
            have hsafe := hc.after htaken
            have hquiet := h.takeBuffered htake
            refine ih hchannel old _ (@Safe.after (fun _ => True) _ _ hsafe ?_) ?_
            · exact hsafe.start.deliverFragment (consumer_consumeContiguous n key _ now)
                hframed.frame
            · exact hquiet.deliverFragment hsafe (ih hframed.frame.channel_lt) hframed.frame

theorem hearing_drain (hchannel : channel < channelCount) :
    Hearing now fun c => drain c key channel now :=
  fun old c => hearing_consumeContiguous (drainFuel c key) hchannel old c

theorem Hears.acceptData (h : Hears now old c) (hc : Safe c) {rh : ReliableHdr}
    {payload : List UInt8} (hframed : Framed rh (payload.take rh.payloadLen)) :
    Hears now old (acceptData c key rh payload now).1 := by
  have hdrain : Hearing now fun c => drain c key rh.channelId now :=
    hearing_drain hframed.channel_lt
  have hnext (seq : U32) : Safe (c.setExpected key rh.channelId seq) :=
    hc.after (hc.start.setExpected seq)
  have hdelivered (seq : U32) : Safe (Rel.deliverFragment
      (fun c => drain c key rh.channelId now) (c.setExpected key rh.channelId seq) key rh
      (payload.take rh.payloadLen) now) :=
    hc.after ((hc.start.setExpected seq).deliverFragment (consumer_drain _ _ now) hframed)
  simp only [Rel.acceptData]
  split
  · exact h.sendPacket
  split
  · refine (hdrain _ _ (hdelivered _) ?_).sendPacket
    exact (h.setExpected _).deliverFragment (hnext _) hdrain hframed
  split
  · exact h.sendPacket
  split
  · exact h.sendPacket
  split
  · have hoverflow : Hears now old
        ((c.emit (.exhausted key)).modPeer key Peer.countOverflow) :=
      Hears.modPeer (h.emit (e := .exhausted key) trivial) _
    exact hoverflow.receiverDropRange (hc.after ((hc.start.emit _).modPeer _)) hdrain
  · exact (h.setRx _).sendPacket

theorem Hears.handleData (h : Hears now old c) (hc : Safe c) {src : Mac} {rh : ReliableHdr}
    {payload : List UInt8} : Hears now old (handleData c src rh payload now).1 := by
  have hfind := h.peerFind src false now
  simp only [Rel.handleData]
  split
  · exact h
  · next hformed =>
      have hframed := framed_of_not_malformed hformed
      split
      · exact hfind
      · next key _ =>
          have hheard : Hears now old
              ((Rel.peerFind c src false now).1.modPeer key (Peer.heardData rh now)) :=
            hfind.modPeer _
          have hsafe : Safe
              ((Rel.peerFind c src false now).1.modPeer key (Peer.heardData rh now)) :=
            hc.after ((hc.start.peerFind src false now).modPeer _)
          split
          · split
            · exact hheard
            · split
              · refine Hears.acceptData (((hheard.setRx _).setPending _).setExpected _) ?_ hframed
                exact hsafe.after hsafe.start.latestJump
              · exact hheard.acceptData hsafe hframed
          · exact hheard.acceptData hsafe hframed

theorem Hears.handleLostPacket (h : Hears now old c) (hc : Safe c) {src : Mac}
    {lost : LostPayload} : Hears now old (handleLostPacket c src lost now).1 := by
  have hfind := h.peerFind src false now
  have hupdates : Updates (fun _ => True) c (Rel.peerFind c src false now).1 :=
    hc.start.peerFind src false now
  simp only [Rel.handleLostPacket]
  split
  · exact hfind
  split
  · exact hfind
  · next key _ hbad =>
      have hchannel : lost.channelId < channelCount := by
        push Not at hbad
        exact hbad.2.1
      split
      · exact (hfind.setTx _).recordLost
      split
      · refine Hears.recordLost (hearing_drain hchannel _ _ ?_ (hfind.setExpected _))
        exact hc.after (hupdates.setExpected _)
      split
      · split
        · exact (hfind.setPending _).recordLost
        · exact (hfind.setPending _).clearPeerBuffers
      · exact hfind.recordLost

theorem Hears.ackSlots (h : Hears now old c) {ack : AckPayload} {time : U32} :
    Hears now old (ackSlots c key ack time) := by
  refine Hears.modPeer (Hears.setTx (h.foldl ?_ _) _) _
  intro c slot h
  split
  · exact h.modPeer _
  · exact h

theorem Hears.retransmitSlot (h : Hears now old c) {i : ℕ} {time : U32} :
    Hears now old (retransmitSlot c key i time).1 := by
  rw [Rel.retransmitSlot]
  split
  · exact h
  · exact ((h.setTx _).modPeer Peer.countRetry).emit trivial

theorem Hears.handleAckPacket (h : Hears now old c) {src : Mac} {ack : AckPayload}
    {nack : Bool} {time : U32} : Hears now old (handleAckPacket c src ack nack time).1 := by
  have hfind := h.peerFind src false time
  simp only [Rel.handleAckPacket]
  split
  · exact hfind
  split
  · exact hfind
  · next key _ _ =>
      have hacked : Hears now old (Rel.ackSlots
          ((Rel.peerFind c src false time).1.modPeer key Peer.routeSeen) key ack time) :=
        (hfind.modPeer _).ackSlots
      split
      · split
        · exact hacked.retransmitSlot
        · exact hacked.recordLost.sendLostPacket
      · exact hacked

theorem Hears.handleHello (h : Hears now old c) {src : Mac} {hello : HelloPayload}
    {time : U32} : Hears now old (handleHello c src hello time).1 := by
  have hfind := h.peerFind src true time
  rw [Rel.handleHello]
  split
  · exact h
  split
  · next heq =>
      rw [heq] at hfind
      exact hfind
  · next heq =>
      rw [heq] at hfind
      refine Hears.sendPacket (Hears.modPeer ?_ _)
      split
      · exact hfind.clearPeerBuffers
      · exact hfind

theorem Hears.handleHelloAck (h : Hears now old c) {src : Mac} {ack : HelloAckPayload}
    {time : U32} : Hears now old (handleHelloAck c src ack time).1 := by
  have hfind := h.peerFind src true time
  rw [Rel.handleHelloAck]
  split
  · exact h
  split
  · next heq =>
      rw [heq] at hfind
      exact hfind
  · next heq =>
      rw [heq] at hfind
      refine Hears.modPeer ?_ _
      split
      · exact hfind.clearPeerBuffers
      · exact hfind

theorem Hears.handleRx (h : Hears now old c) (hc : Safe c) {src : Mac} {packet : Packet} :
    Hears now old (handleRx c src packet now).1 := by
  rw [Rel.handleRx]
  split
  · exact h
  · split
    · exact h.handleHello
    · exact h.handleHelloAck
    · exact h.handleData hc
    · exact h.handleAckPacket
    · exact h.handleAckPacket
    · exact h.handleLostPacket hc

end Checks

/-- In no reachable state does `keemash_rel_handle_rx` leave an object it reads or writes,
whatever bytes it gets, and what it delivers is as long as the stored lengths say. -/
theorem handleRxBytes_inBounds {c : Ctx} (h : Reachable (fun _ => True) c) (src : Mac)
    (packet : List UInt8) (now : U32) :
    handleRxBytes? c src packet now = some (handleRxBytes c src packet now) ∧
      ∀ key peer channel bytes streamId,
        Effect.deliver key peer channel bytes streamId ∈
            (handleRxBytes c src packet now).1.trace →
          Effect.deliver key peer channel bytes streamId ∈ c.trace ∨
            bytes.length ≤ messageMax ∧ Measured now bytes := by
  have hc : Safe c := h.safe
  refine ⟨handleRxBytes?_eq hc src packet now, ?_⟩
  intro key peer channel bytes streamId hmem
  have hstart : Hears now c.trace c := fun e he => .inl he
  have hhears : Hears now c.trace (handleRxBytes c src packet now).1 := by
    rcases handleRxBytes_cases c src packet now with ⟨err, herr⟩ | ⟨p, -, hp⟩
    · rw [herr]
      exact hstart
    · rw [hp]
      exact hstart.handleRx hc
  rcases hhears _ hmem with hold | hnew
  · exact .inl hold
  · exact .inr ⟨Measured.length_le hnew, hnew⟩

/-- A packet that breaks off in its header, at a root that knows one node. -/
theorem handleRxBytes_inBounds_short :
    handleRxBytes? ((smallCtx true 0x10 7).operates [(.route 0x11 true, 1)]) 0x11
        [0xA5, 2, 58, 0] 2 =
      some ((smallCtx true 0x10 7).operates [(.route 0x11 true, 1)], .invalidCrc) := by
  have hreach : Reachable (fun _ => True)
      ((smallCtx true 0x10 7).operates [(.route 0x11 true, 1)]) :=
    ⟨smallConfig true 0x10, 7, 1, _, _, init_smallConfig true 0x10 (by decide),
      fun _ _ => by simp_all [Operation.Allowed], rfl⟩
  exact (handleRxBytes_inBounds hreach 0x11 [0xA5, 2, 58, 0] 2).1

end KeemashCore.Rel
