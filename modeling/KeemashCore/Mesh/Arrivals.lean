import KeemashCore.Mesh.Drain

/-!
# Receiving DATA and LOST packets

What `handle_data` and `handle_lost_packet` do to the channel of the packet, for
a packet that the other end has really sent in the current binding.
-/

namespace KeemashCore.Rel

open SlotTable SelectiveRepeat

/-- On one channel, going from `c` to `c'` takes receiver steps only and ends with
nothing left to take; no other slice changes. -/
structure Accepts (Q : Allow) (ch : ℕ) (S : Sender Frame) (key : Mac) (c c' : Ctx) :
    Prop where
  near : Touches {(key, ch)} c c'
  ok : RecvOk Q ch S (c'.slice key ch)
  steps : Receiver.Steps (linkPolicy Q ch) S (c.slice key ch).receiver
    (c'.slice key ch).receiver
  send : (c'.slice key ch).sendPart = (c.slice key ch).sendPart
  binding : (c'.slice key ch).binding = (c.slice key ch).binding
  drained : Drained (c'.slice key ch)

/-! ## Irregular arrivals -/

/-- Handing the frame off leaves no pending range behind `expected_seq`. -/
def acceptClean (c : Ctx) (key : Mac) (rh : ReliableHdr) (payload : List UInt8)
    (now : U32) : Bool :=
  let expected := (c.peer key).expectedSeq rh.channelId
  let c := c.setExpected key rh.channelId (expected + 1)
  rh.seq != expected ||
    deliverClean (fun c => drainClean c key rh.channelId now) c key rh
        (payload.take rh.payloadLen) now &&
      drainClean
        (deliverFragment (fun c => drain c key rh.channelId now) c key rh
          (payload.take rh.payloadLen) now)
        key rh.channelId now

/-- The frame goes into an rx slot although a pending range covers its number. -/
def buffersPending (c : Ctx) (key : Mac) (rh : ReliableHdr) : Bool :=
  let p := c.peer key
  let expected := p.expectedSeq rh.channelId
  !seqBefore rh.seq expected && rh.seq != expected &&
    decide ((rh.seq - expected).toNat < reliableWindow) &&
    (rxFind c key rh.channelId rh.seq).isNone && (rxAlloc c key).isSome &&
    (used p.pendingLost).any fun range =>
      range.channel == rh.channelId && seqInRange rh.seq range.first range.last

/-- The context in which `handle_data` compares the frame with `expected_seq`. -/
def arrivalCtx (c : Ctx) (src : Mac) (rh : ReliableHdr) (now : U32) : Ctx :=
  let key := c.keyOf src
  let c := (peerFind c src false now).1.modPeer key (Peer.heardData rh now)
  if rh.flags &&& flagLatest ≠ 0 ∧
      seqBefore ((c.peer key).expectedSeq rh.channelId) rh.seq then latestJump c key rh
  else c

/-- The drain after an announced loss leaves no pending range behind. -/
def lostClean (c : Ctx) (src : Mac) (lost : LostPayload) (now : U32) : Bool :=
  let key := c.keyOf src
  let c := (peerFind c src false now).1
  !seqInRange ((c.peer key).expectedSeq lost.channelId) lost.seqFirst lost.seqLast ||
    drainClean (c.setExpected key lost.channelId (lost.seqLast + 1)) key lost.channelId now

section

variable {Q : Allow} {ch : ℕ} {S : Sender Frame} {key : Mac} {c c' c'' : Ctx} {d : ℤ}

theorem Receives.accepts (h : Receives Q ch S key d c c')
    (hd : Drained (c'.slice key ch)) : Accepts Q ch S key c c' :=
  ⟨h.near, h.gains.ok, h.gains.steps, h.gains.send, h.gains.binding, hd⟩

theorem Receives.trans_accepts (h : Receives Q ch S key d c c')
    (h' : Accepts Q ch S key c' c'') : Accepts Q ch S key c c'' :=
  ⟨h.near.trans h'.near, h'.ok, h.gains.steps.trans h'.steps, h'.send.trans h.gains.send,
    h'.binding.trans h.gains.binding, h'.drained⟩

/-- Nothing that the slices see has changed. -/
theorem Touches.slice_eq (h : Touches ∅ c c') (k : Mac) (ch : ℕ) :
    c'.slice k ch = c.slice k ch :=
  h.slice k ch (Set.notMem_empty _)

theorem Touches.receives (h : Touches ∅ c c') (hok : RecvOk Q ch S (c.slice key ch)) :
    Receives Q ch S key 0 c c' := by
  refine ⟨h.mono (Set.empty_subset _), ?_⟩
  rw [h.slice_eq]
  exact .refl hok

theorem Touches.accepts (h : Touches ∅ c c') (hok : RecvOk Q ch S (c.slice key ch))
    (hd : Drained (c.slice key ch)) : Accepts Q ch S key c c' :=
  (h.receives hok).accepts (by rw [h.slice_eq]; exact hd)

/-! ## Acknowledgements -/

theorem getLsbD_setBits (p : ℕ → Bool) (n b : ℕ) (hn : n ≤ 32) :
    ((List.range n).foldl
      (fun bitmap bit => if p bit then bitmap ||| (1#32 <<< bit) else bitmap)
      (0 : U32)).getLsbD b = (decide (b < n) && p b) := by
  induction n with
  | zero => simp
  | succ n ih =>
      rw [List.range_succ, List.foldl_append, List.foldl_cons, List.foldl_nil]
      by_cases hb : b = n
      · subst hb
        split
        · next hp =>
            rw [BitVec.getLsbD_or, BitVec.getLsbD_shiftLeft]
            simp [hp, show b < 32 by omega]
        · next hp =>
            rw [ih (by omega)]
            simp [hp]
      · have hlt : decide (b < n + 1) = decide (b < n) := by
          simp only [decide_eq_decide]
          omega
        rw [hlt, ← ih (by omega)]
        split
        · rw [BitVec.getLsbD_or, BitVec.getLsbD_shiftLeft]
          have hbit : (!decide (b < n) && (1#32).getLsbD (b - n)) = false := by
            rw [Bool.and_eq_false_iff]
            by_cases hlt : b < n
            · simp [hlt]
            · right
              rw [BitVec.getLsbD_one]
              simp
              omega
          rw [Bool.and_assoc, hbit, Bool.and_false, Bool.or_false]
        · rfl

theorem rxFind_isSome {seq : U32} :
    (rxFind c key ch seq).isSome = true ↔ ∃ slot ∈ (c.slice key ch).rx, slot.seq = seq := by
  rw [rxFind, findIdx_isSome]
  constructor
  · rintro ⟨slot, hmem, hp⟩
    rw [Bool.and_eq_true, beq_iff_eq] at hp
    exact ⟨slot, Multiset.mem_filter.mpr ⟨hmem, hp.1⟩, hp.2⟩
  · rintro ⟨slot, hslot, rfl⟩
    rw [Ctx.slice, Multiset.mem_filter] at hslot
    exact ⟨slot, hslot.1, by simp [hslot.2]⟩

theorem mem_buffered {s : Slice} {n : ℕ} :
    n ∈ s.receiver.buffered ↔ ∃ slot ∈ s.rx, slot.seq.toNat = n := by
  constructor
  · rintro ⟨f, slot, hslot, heq⟩
    exact ⟨slot, hslot, congrArg Prod.fst heq⟩
  · rintro ⟨slot, hslot, rfl⟩
    exact ⟨_, slot, hslot, rfl⟩

/-- A bit of the bitmap says that the number is buffered. -/
theorem getLsbD_sackBitmap (hexp : (c.slice key ch).expected.toNat ≤ 2 ^ 31) {b : ℕ}
    (hb : b < reliableWindow) :
    (sackBitmap c key ch).getLsbD b = true ↔
      (c.slice key ch).expected.toNat + b ∈ (c.slice key ch).receiver.buffered := by
  have hseq : ((c.peer key).expectedSeq ch - 1 + 1 + BitVec.ofNat 32 b).toNat =
      (c.slice key ch).expected.toNat + b := by
    change (c.slice key ch).expected.toNat ≤ 2 ^ 31 at hexp
    change _ = ((c.peer key).expectedSeq ch).toNat + b
    rw [BitVec.sub_add_cancel, BitVec.toNat_add, BitVec.toNat_ofNat]
    change ((c.peer key).expectedSeq ch).toNat ≤ 2 ^ 31 at hexp
    simp only [reliableWindow] at hb
    omega
  have hbits := getLsbD_setBits (fun bit => (rxFind c key ch
    ((c.peer key).expectedSeq ch - 1 + 1 + BitVec.ofNat 32 bit)).isSome)
    reliableWindow b (by decide)
  rw [sackBitmap, hbits, Bool.and_eq_true, decide_eq_true_iff, rxFind_isSome, mem_buffered,
    ← hseq]
  constructor
  · rintro ⟨-, slot, hslot, heq⟩
    exact ⟨slot, hslot, by rw [heq]⟩
  · rintro ⟨slot, hslot, heq⟩
    exact ⟨hb, slot, hslot, BitVec.eq_of_toNat_eq heq⟩

/-- `send_ack` for a frame of the channel. -/
theorem sendAck_receives (hS : Honest Q ch S) (h : RecvOk Q ch S (c.slice key ch))
    {rh : ReliableHdr} (hch : rh.channelId = ch) {nack : Bool}
    (hgap : nack = true → ∃ x ∈ S.data, (c.slice key ch).receiver.exp < x.1) :
    Receives Q ch S key 0 c (sendAck c key rh nack).1 := by
  subst hch
  refine ⟨(Touches.refl _ c).sendAck (Set.mem_singleton _), ?_⟩
  have hexp := expected_lt hS h.toRecvCore
  rw [sendAck, sendPacket, rawSend]
  simp only
  rw [slice_emit (by cases nack <;> simp [Effect.concerns, Body.channel?])]
  refine h.ack nack (
    { channelId := rh.channelId
      rootSessionId := (c.peer key).rootSessionId
      nodeSessionId := (c.peer key).nodeSessionId
      ackSeq := (c.peer key).expectedSeq rh.channelId - 1
      sackBitmap := sackBitmap c key rh.channelId
      nackSeq := if nack then (c.peer key).expectedSeq rh.channelId else 0
      echoTxMs := rh.txMs
      originMac := rh.originMac
      targetMac := rh.targetMac }) rfl rfl ?_ ?_
  · exact fun b hb => getLsbD_sackBitmap hexp.2 hb
  · intro hn
    exact ⟨by rw [hn]; rfl, hgap hn⟩

theorem sendAck_accepts (hS : Honest Q ch S) (h : RecvOk Q ch S (c.slice key ch))
    (hdrained : Drained (c.slice key ch)) {rh : ReliableHdr} (hch : rh.channelId = ch)
    {nack : Bool}
    (hgap : nack = true → ∃ x ∈ S.data, (c.slice key ch).receiver.exp < x.1) :
    Accepts Q ch S key c (sendAck c key rh nack).1 := by
  refine (sendAck_receives hS h hch hgap).accepts ?_
  rw [sendAck, sendPacket, rawSend]
  simp only
  rw [slice_emit (by cases nack <;> simp [Effect.concerns, Body.channel?, hch])]
  exact hdrained

/-! ## DATA -/

/-- A frame that the sender has transmitted. -/
structure Genuine (ch : ℕ) (S : Sender Frame) (rh : ReliableHdr) (payload : List UInt8) :
    Prop where
  data : (rh.seq.toNat, rh.frame payload) ∈ S.data
  time : ch = channelTime → rh.fragmentCount = 1

theorem Genuine.facts {rh : ReliableHdr} {payload : List UInt8}
    (hg : Genuine ch S rh payload) (hS : Honest Q ch S) {s : Slice}
    (h : RecvOk Q ch S s) :
    rh.channelId = ch ∧ payload.take rh.payloadLen = payload ∧ 1 ≤ rh.seq.toNat ∧
      rh.seq.toNat < 2 ^ 31 := by
  have hsent := h.bounded.data_sent hg.data
  have hvalid := hS.valid _ hsent
  have hlt := h.bounded.sent_lt hsent
  refine ⟨hvalid.channel_eq, ?_, hlt.1, hlt.2.trans_le hS.next_le⟩
  rw [show rh.payloadLen = payload.length from hvalid.payload_len, List.take_length]

theorem drain_consumes (hS : Honest Q ch S) (now : U32) :
    Consumes Q ch S key (fun c => drain c key ch now)
      (fun c => drainClean c key ch now) :=
  fun _ hhas h hquiet hclean => (drain_receives hS now hhas h hquiet hclean).1

/-- The frame numbered `expected_seq` arrives. -/
theorem accept_expected (hS : Honest Q ch S) (hhas : c.has key)
    (h : RecvOk Q ch S (c.slice key ch)) (hdrained : Drained (c.slice key ch))
    {rh : ReliableHdr} {payload : List UInt8} {now : U32} (hg : Genuine ch S rh payload)
    (hseq : rh.seq = (c.slice key ch).expected)
    (hquiet : Quiet Q key (sendAck (drain (deliverFragment (fun c => drain c key ch now)
      (c.setExpected key ch (rh.seq + 1)) key rh payload now) key ch now) key rh false).1)
    (hclean : ¬Q.overrun → deliverClean (fun c => drainClean c key ch now)
        (c.setExpected key ch (rh.seq + 1)) key rh payload now = true ∧
      drainClean (deliverFragment (fun c => drain c key ch now)
        (c.setExpected key ch (rh.seq + 1)) key rh payload now) key ch now = true) :
    Accepts Q ch S key c (sendAck (drain (deliverFragment (fun c => drain c key ch now)
      (c.setExpected key ch (rh.seq + 1)) key rh payload now) key ch now) key rh
      false).1 := by
  obtain ⟨hch, -⟩ := hg.facts hS h
  have hwide (c : Ctx) : Touches (ofKey key) c (drain c key ch now) :=
    touches_drain subset_rfl c ch now
  have hset := (Touches.refl {(key, ch)} c).setExpected (Set.mem_singleton _) (rh.seq + 1)
  have hhas₁ := hset.has key hhas
  have hhands := Hands.accept h hS key hseq (hseq ▸ hg.data) hg.time hdrained.1 hdrained.2
  have hslice : ((c.setExpected key ch (rh.seq + 1)).emit
      (.handOff key rh payload)).slice key ch =
      { c.slice key ch with
        expected := (c.slice key ch).expected + 1
        log := (c.slice key ch).log ++ [.handOff key rh payload] } := by
    rw [slice_emit (by simp [Effect.concerns, hch]), slice_setExpected_self hhas, hseq]
  rw [← hslice] at hhands
  set c₁ := c.setExpected key ch (rh.seq + 1)
  set c₂ := deliverFragment (fun c => drain c key ch now) c₁ key rh payload now with hc₂
  have hquiet₃ : Quiet Q key (drain c₂ key ch now) :=
    hquiet.before (List.prefix_append _ _)
  have hquiet₂ : Quiet Q key c₂ := hquiet₃.before (hwide c₂).trace
  obtain ⟨hnear, hgains⟩ := deliverFragment_receives hwide (drain_consumes hS now) hS hhas₁
    h hhands hquiet₂ fun hno => (hclean hno).1
  rw [← hc₂] at hnear hgains
  obtain ⟨hdrain, hempty⟩ := drain_receives hS now (hnear.has key hhas₁) hgains.ok hquiet₃
    fun hno => (hclean hno).2
  exact ((Receives.mk (hset.trans hnear) hgains).trans hdrain).trans_accepts
    (sendAck_accepts hS hdrain.gains.ok hempty hch (by simp))

/-- Numbers ahead become pending; the expected one is not among them. -/
theorem Drained.postpone {s s' : Slice} {a b : ℕ} (hd : Drained s)
    (hchannel : ∀ range ∈ held s.pending, range.channel = ch)
    (hchannel' : ∀ range ∈ held s'.pending, range.channel = ch)
    (hexp : s'.expected = s.expected) (hrx : s'.rx ≤ s.rx)
    (hnumbers : pendingNumbers ch s'.pending =
      pendingNumbers ch s.pending ∪ Set.Icc a b)
    (hlt : s.expected.toNat < a) : Drained s' := by
  have hsame : s'.receiver.exp = s.receiver.exp := congrArg BitVec.toNat hexp
  rw [Drained, hsame, receiver_pend hchannel', hnumbers]
  refine ⟨fun hmem => ?_, ?_⟩
  · obtain ⟨slot, hslot, heq⟩ := mem_buffered.mp hmem
    exact hd.1 (mem_buffered.mpr ⟨slot, Multiset.mem_of_le hrx hslot, heq⟩)
  · rintro (hmem | hmem)
    · exact hd.2 (receiver_pend hchannel ▸ hmem)
    · exact absurd hmem.1 (Nat.not_le_of_lt hlt)

/-- A dropped range ahead of `expected_seq` becomes pending. -/
theorem drained_dropAhead {consume : Ctx → Ctx} (hS : Honest Q ch S) (hhas : c.has key)
    (h : RecvOk Q ch S (c.slice key ch)) (hdrained : Drained (c.slice key ch))
    {first last : U32} (hd : Droppable (linkPolicy Q ch) S first.toNat last.toNat)
    (hlt : (c.slice key ch).expected.toNat < first.toNat) {reason : LostReason}
    (hquiet : Quiet Q key (receiverDropRange consume c key ch reason first last)) :
    Drained ((receiverDropRange consume c key ch reason first last).slice key ch) := by
  obtain ⟨hpos, hle, hnext⟩ := hd.range h.bounded.toFramed
  have hexp := expected_lt hS h.toRecvCore
  have hbound := hS.next_le
  simp only at hpos hle hnext
  obtain ⟨peer, hslice⟩ := slice_forgetRange c key ch reason first last
  have hforget : Touches {(key, ch)} c (forgetRange c key ch reason first last) :=
    (Touches.refl _ c).forgetRange (Set.mem_singleton _)
  have hhas' := hforget.has key hhas
  have hok : RecvOk Q ch S ((c.slice key ch).forget key peer ch reason first last) :=
    h.forget hd.1 key peer reason hle
  rw [← hslice] at hok
  have hexpected : ((forgetRange c key ch reason first last).peer key).expectedSeq ch =
      (c.slice key ch).expected := congrArg Slice.expected hslice
  have hout : ¬seqInRange (c.slice key ch).expected first last = true := by
    rw [seqInRange_iff hle]
    omega
  have hbefore : seqBefore (c.slice key ch).expected first = true :=
    (seqBefore_iff hexp.2 (by omega) (by omega)).mpr hlt
  simp only [receiverDropRange, hexpected, if_neg hout, if_pos hbefore] at hquiet ⊢
  split
  · next hroom =>
      obtain ⟨hchannel, -, hnumbers, -⟩ := pendingLostAdd_slice hok ⟨hle, by omega⟩ hroom
      rw [slice_sendLostPacket, slice_setPending_self hhas', hslice]
      rw [hslice] at hnumbers
      exact hdrained.postpone h.pending_channel hchannel rfl (Multiset.filter_le _ _) hnumbers
        hlt
  · next hroom =>
      rw [if_neg hroom] at hquiet
      exact absurd ((touches_clearPeerBuffers _ key .overflow).trace.subset
        (by simp [Ctx.emit])) hquiet.cleared

/-- A frame ahead goes into a free slot. -/
theorem accept_ahead (hS : Honest Q ch S) (h : RecvOk Q ch S (c.slice key ch))
    (hdrained : Drained (c.slice key ch)) {rh : ReliableHdr} {payload : List UInt8}
    (hg : Genuine ch S rh payload) {i : ℕ} (hfree : freeIdx c.rx = some i)
    (hlt : (c.slice key ch).expected.toNat < rh.seq.toNat)
    (hwin : rh.seq.toNat < (c.slice key ch).expected.toNat + reliableWindow)
    (hnew : ¬(rxFind c key ch rh.seq).isSome = true)
    (hpend : rh.seq.toNat ∉ (c.slice key ch).receiver.pend ∨ Q.bufferPending) :
    Accepts Q ch S key c
      (sendAck (c.setRx (c.rx.set i (some (newRxSlot key rh payload)))) key rh true).1 := by
  obtain ⟨rfl, htake, -⟩ := hg.facts hS h
  have hin : (key, rh.channelId) ∈ ({(key, rh.channelId)} : Set (Mac × ℕ)) := rfl
  have hslot := getElem?_of_freeIdx hfree
  set c₁ := c.setRx (c.rx.set i (some (newRxSlot key rh payload))) with hc₁
  have hslice : c₁.slice key rh.channelId = { c.slice key rh.channelId with
      rx := newRxSlot key rh payload ::ₘ (c.slice key rh.channelId).rx } := by
    have hheld : ((held (c.rx.set i (some (newRxSlot key rh payload)))).filter
        fun slot => slot.isFor key rh.channelId) =
        newRxSlot key rh payload ::ₘ (c.slice key rh.channelId).rx := by
      rw [held_set_some _ hslot]
      exact Multiset.filter_cons_of_pos _ (RxSlot.isFor_iff.mpr ⟨rfl, rfl⟩)
    rw [← hheld]
    rfl
  have hnumbered : (newRxSlot key rh payload).numbered =
      (rh.seq.toNat, rh.frame payload) := by
    rw [RxSlot.numbered, newRxSlot, htake]
  have hgains : Gains Q rh.channelId S 2 (c.slice key rh.channelId)
      (c₁.slice key rh.channelId) := by
    rw [hslice]
    refine h.buffer rfl hg.time (hnumbered ▸ hg.data) hlt hwin ?_ hpend
    intro other hother heq
    exact hnew (rxFind_isSome.mpr ⟨other, hother, heq⟩)
  have hnear : Touches {(key, rh.channelId)} c c₁ := by
    refine (Touches.refl _ c).setRx fun k ch hk => ?_
    exact filter_set_some hslot (not_isFor_rx hk hin)
  have hexp : (c₁.slice key rh.channelId).receiver.exp =
      (c.slice key rh.channelId).expected.toNat := by
    rw [hslice]
    rfl
  have hempty : Drained (c₁.slice key rh.channelId) := by
    rw [hslice]
    refine ⟨fun hmem => ?_, hdrained.2⟩
    obtain ⟨slot, hmem, heq⟩ := mem_buffered.mp hmem
    change slot.seq.toNat = (c.slice key rh.channelId).expected.toNat at heq
    change slot ∈ newRxSlot key rh payload ::ₘ (c.slice key rh.channelId).rx at hmem
    rcases Multiset.mem_cons.mp hmem with rfl | hmem
    · change rh.seq.toNat = _ at heq
      omega
    · exact hdrained.1 (mem_buffered.mpr ⟨slot, hmem, heq⟩)
  exact (Receives.mk hnear hgains).trans_accepts (sendAck_accepts hS hgains.ok hempty rfl
    fun _ => ⟨_, hg.data, by rw [hexp]; exact hlt⟩)

/-- A frame ahead that finds no free slot is given up. -/
theorem accept_dropped (hS : Honest Q ch S) (hhas : c.has key)
    (h : RecvOk Q ch S (c.slice key ch)) (hdrained : Drained (c.slice key ch))
    {rh : ReliableHdr} {payload : List UInt8} {now : U32} (hg : Genuine ch S rh payload)
    (hlt : (c.slice key ch).expected.toNat < rh.seq.toNat)
    (hquiet : Quiet Q key (receiverDropRange (fun c => drain c key ch now)
      ((c.emit (.exhausted key)).modPeer key Peer.countOverflow) key ch .overflow
      rh.seq rh.seq)) :
    Accepts Q ch S key c (receiverDropRange (fun c => drain c key ch now)
      ((c.emit (.exhausted key)).modPeer key Peer.countOverflow) key ch .overflow
      rh.seq rh.seq) := by
  have hnear : Touches {(key, ch)} c
      ((c.emit (.exhausted key)).modPeer key Peer.countOverflow) :=
    ((Touches.refl _ c).emit_silent fun _ _ => rfl).modPeer (f := Peer.countOverflow)
      (fun _ => rfl) (fun _ => rfl)
  have hslice : ((c.emit (.exhausted key)).modPeer key Peer.countOverflow).slice key ch =
      c.slice key ch :=
    (slice_modPeer (f := Peer.countOverflow) (fun _ => rfl) key ch).trans
      (slice_emit_other rfl)
  have htouch : Touches (ofKey key) ((c.emit (.exhausted key)).modPeer key Peer.countOverflow)
      (receiverDropRange (fun c => drain c key ch now)
        ((c.emit (.exhausted key)).modPeer key Peer.countOverflow) key ch .overflow rh.seq
        rh.seq) :=
    (Touches.refl _ _).receiverDropRange subset_rfl fun c => touches_drain subset_rfl c ch now
  have hwide := htouch.trace
  have hlossy : Q.lossy := by
    by_contra hno
    exact hquiet.exhausted hno (hwide.subset
      (by simp [Ctx.modPeer, Ctx.setPeers, Ctx.emit]))
  have hd : Droppable (linkPolicy Q ch) S rh.seq.toNat rh.seq.toNat :=
    ⟨hlossy, _, h.bounded.data_sent hg.data, .inl ⟨rfl, rfl⟩⟩
  rw [← hslice] at h hdrained hlt
  have hhas' := hnear.has key hhas
  have hout : ¬seqInRange (((c.emit (.exhausted key)).modPeer key
      Peer.countOverflow).slice key ch).expected rh.seq rh.seq = true := by
    rw [seqInRange_iff le_rfl]
    omega
  set c₁ := (c.emit (.exhausted key)).modPeer key Peer.countOverflow with hc₁
  obtain ⟨peer, hforget⟩ := slice_forgetRange c₁ key ch .overflow rh.seq rh.seq
  have hexpected : ((forgetRange c₁ key ch .overflow rh.seq rh.seq).peer
      key).expectedSeq ch = (c₁.slice key ch).expected := congrArg Slice.expected hforget
  have hreceives := receiverDropRange_receives (d := 1) (drain_consumes hS now) hS hhas' h
    hd hquiet (fun _ => by simp [dropClean, hexpected, hout]) (by omega) (fun _ => le_rfl)
  have hsame : Gains Q ch S 0 (c.slice key ch) (c₁.slice key ch) := by
    rw [← hslice]
    exact .refl h
  exact (Receives.mk hnear hsame).trans_accepts
    (hreceives.accepts (drained_dropAhead hS hhas' h hdrained hd hlt hquiet))

/-- `handle_data` from the comparison with `expected_seq` on. -/
theorem acceptData_accepts (hS : Honest Q ch S) (hhas : c.has key)
    (h : RecvOk Q ch S (c.slice key ch)) (hdrained : Drained (c.slice key ch))
    {rh : ReliableHdr} {payload : List UInt8} {now : U32} (hg : Genuine ch S rh payload)
    (hquiet : Quiet Q key (acceptData c key rh payload now).1)
    (hclean : ¬Q.overrun → acceptClean c key rh payload now = true)
    (hbuffer : ¬Q.bufferPending → buffersPending c key rh = false) :
    Accepts Q ch S key c (acceptData c key rh payload now).1 := by
  obtain ⟨rfl, htake, hpos, hbound⟩ := hg.facts hS h
  have hexp := expected_lt hS h.toRecvCore
  have hexpected : (c.peer key).expectedSeq rh.channelId =
      (c.slice key rh.channelId).expected := rfl
  have hbefore := seqBefore_iff (a := rh.seq) (b := (c.slice key rh.channelId).expected)
    (by omega) hexp.2 (by omega)
  simp only [acceptData, acceptClean, buffersPending, htake, hexpected]
    at hquiet hclean hbuffer ⊢
  split
  · exact sendAck_accepts hS h hdrained rfl (by simp)
  · next hnot =>
      rw [if_neg hnot] at hquiet
      split
      · next hseq =>
          rw [if_pos hseq, ← hseq] at hquiet
          rw [← hseq]
          refine accept_expected hS hhas h hdrained hg hseq hquiet fun hno => ?_
          have := hclean hno
          rw [← hseq] at this
          simpa using this
      · next hseq =>
          rw [if_neg hseq] at hquiet
          have hne : rh.seq.toNat ≠ (c.slice key rh.channelId).expected.toNat :=
            fun heq => hseq (BitVec.eq_of_toNat_eq heq)
          have hlt : (c.slice key rh.channelId).expected.toNat < rh.seq.toNat := by
            have := mt hbefore.mpr hnot
            omega
          have hgap : (true = true) → ∃ x ∈ S.data,
              (c.slice key rh.channelId).receiver.exp < x.1 := fun _ => ⟨_, hg.data, hlt⟩
          have hdist : (rh.seq - (c.slice key rh.channelId).expected).toNat =
              rh.seq.toNat - (c.slice key rh.channelId).expected.toNat := by
            rw [BitVec.toNat_sub]
            omega
          split
          · exact sendAck_accepts hS h hdrained rfl hgap
          · next hwin =>
              rw [if_neg hwin] at hquiet
              split
              · exact sendAck_accepts hS h hdrained rfl hgap
              · next hnew =>
                  rw [if_neg hnew] at hquiet
                  split
                  · next halloc =>
                      simp only [halloc] at hquiet
                      exact accept_dropped hS hhas h hdrained hg hlt hquiet
                  · next i halloc =>
                      have hfree : freeIdx c.rx = some i := by
                        rw [rxAlloc] at halloc
                        split at halloc
                        · simp at halloc
                        · exact halloc
                      refine accept_ahead hS h hdrained hg hfree hlt (by omega) hnew ?_
                      refine (em Q.bufferPending).symm.imp_left fun hno hmem => ?_
                      rw [receiver_pend h.pending_channel] at hmem
                      obtain ⟨j, range, hj, hrange⟩ := hmem
                      have hon := onChannel_pendingOn.mp hj
                      have hseqrange := h.pending_ok.range j range hj (by simp)
                      have hcover : (used (c.peer key).pendingLost).any (fun range =>
                          range.channel == rh.channelId &&
                            seqInRange rh.seq range.first range.last) = true := by
                        refine used_any.mpr ⟨range, mem_held_of_entryAt hon.1, ?_⟩
                        rw [Bool.and_eq_true, beq_iff_eq, seqInRange_iff hseqrange.1]
                        exact ⟨hon.2, hrange⟩
                      have hall := hbuffer hno
                      simp [hnot, hseq, halloc, hcover, hnew] at hall
                      omega

/-- A newer frame on the TIME channel discards what was buffered. -/
theorem latestJump_receives (hS : Honest Q ch S) (hhas : c.has key)
    (h : RecvOk Q ch S (c.slice key ch)) {rh : ReliableHdr} {payload : List UInt8}
    (hg : Genuine ch S rh payload) (htime : ch = channelTime)
    (hlt : (c.slice key ch).expected.toNat < rh.seq.toNat) :
    Receives Q ch S key 0 c (latestJump c key rh) ∧
      Drained ((latestJump c key rh).slice key ch) := by
  obtain ⟨rfl, -⟩ := hg.facts hS h
  have hnear := (Touches.refl {(key, rh.channelId)} c).latestJump (Set.mem_singleton _)
  have hempty := pendingOn_free_self rh.channelId (c.peer key).pendingLost
  set c₁ := c.setRx (freeWhere (RxSlot.isFor key rh.channelId) c.rx) with hc₁
  have hhas₁ : c₁.has key := hhas
  have hhas₂ : (c₁.setPending key (freeWhere (fun range : PendingLostRange =>
      range.channel == rh.channelId) (c₁.peer key).pendingLost)).has key :=
    (has_modPeer (f := Peer.setPending _) (fun _ => rfl) key).mpr hhas₁
  have hrx : ((held (freeWhere (RxSlot.isFor key rh.channelId) c.rx)).filter
      fun slot => slot.isFor key rh.channelId) = 0 := by
    rw [held_freeWhere, Multiset.filter_filter]
    refine Multiset.filter_eq_nil.mpr fun slot _ hboth => ?_
    rw [hboth.1] at hboth
    exact absurd hboth.2 (by simp)
  have hslice : (latestJump c key rh).slice key rh.channelId =
      { c.slice key rh.channelId with
        rx := 0
        pending := pendingOn rh.channelId (freeWhere (fun range : PendingLostRange =>
          range.channel == rh.channelId) (c.peer key).pendingLost)
        expected := rh.seq } := by
    rw [latestJump]
    simp only
    rw [slice_setExpected_self hhas₂, slice_setPending_self hhas₁, ← hrx]
    rfl
  have hgains := h.jump htime hempty hg.data hlt
  rw [← hslice] at hgains
  refine ⟨⟨hnear, hgains⟩, ?_⟩
  rw [hslice, Drained]
  have hpend : (Slice.receiver { c.slice key rh.channelId with
      rx := 0
      pending := pendingOn rh.channelId (freeWhere (fun range : PendingLostRange =>
        range.channel == rh.channelId) (c.peer key).pendingLost)
      expected := rh.seq }).pend = ∅ := by
    simp only [Slice.receiver, hempty]
    simp [covered]
  rw [hpend]
  refine ⟨fun hmem => ?_, by simp⟩
  obtain ⟨slot, hslot, -⟩ := mem_buffered.mp hmem
  exact absurd hslot (Multiset.notMem_zero slot)

/-- `handle_data` for a packet that the other end has sent in this binding, or that
belongs to another one. -/
theorem handleData_accepts {src : Mac} {rh : ReliableHdr} {payload : List UInt8}
    {now : U32} (hS : Honest Q rh.channelId S) (hknown : c.Knows src)
    (h : RecvOk Q rh.channelId S (c.slice (c.keyOf src) rh.channelId))
    (hdrained : Drained (c.slice (c.keyOf src) rh.channelId))
    (hgenuine : (c.peer (c.keyOf src)).rootSessionId = rh.rootSessionId →
      (c.peer (c.keyOf src)).nodeSessionId = rh.nodeSessionId →
      (rh.seq.toNat, rh.frame payload) ∈ S.data)
    (hquiet : Quiet Q (c.keyOf src) (handleData c src rh payload now).1)
    (hclean : ¬Q.overrun →
      acceptClean (arrivalCtx c src rh now) (c.keyOf src) rh payload now = true)
    (hbuffer : ¬Q.bufferPending →
      buffersPending (arrivalCtx c src rh now) (c.keyOf src) rh = false) :
    Accepts Q rh.channelId S (c.keyOf src) c (handleData c src rh payload now).1 := by
  obtain ⟨hfind, hfound⟩ := peerFind_known hknown false now
  have hheard : Touches ∅ c ((peerFind c src false now).1.modPeer (c.keyOf src)
      (Peer.heardData rh now)) :=
    hfind.modPeer (fun _ => rfl) (fun _ => rfl)
  simp only [handleData, arrivalCtx] at hquiet hclean hbuffer ⊢
  set c₁ := (peerFind c src false now).1 with hc₁
  set c₂ := c₁.modPeer (c.keyOf src) (Peer.heardData rh now) with hc₂
  split
  · exact (Touches.refl ∅ c).accepts h hdrained
  · next hform =>
      rw [if_neg hform] at hquiet
      cases hbound : boundPeer c₁ (peerFind c src false now).2 rh.rootSessionId
          rh.nodeSessionId with
      | none => exact hfind.accepts h hdrained
      | some key =>
          simp only [hbound] at hquiet ⊢
          obtain ⟨hkey, -, hroot, hnode⟩ := boundPeer_some hbound
          obtain rfl : c.keyOf src = key := Option.some.inj (hfound.symm.trans hkey)
          have hbinding := congrArg Slice.binding
            (hfind.slice_eq (c.keyOf src) rh.channelId)
          have hdata := hgenuine ((congrArg Binding.rootSessionId hbinding).symm.trans hroot)
            ((congrArg Binding.nodeSessionId hbinding).symm.trans hnode)
          have hvalid := hS.valid _ (h.bounded.data_sent hdata)
          have hslice := hheard.slice_eq (c.keyOf src) rh.channelId
          rw [← hc₂] at hquiet ⊢
          have hhas₂ := hheard.has (c.keyOf src) hknown.1
          have hfirst : Receives Q rh.channelId S (c.keyOf src) 0 c c₂ := hheard.receives h
          rw [← hslice] at h hdrained
          by_cases hlatest : rh.flags &&& flagLatest ≠ 0
          · rw [if_pos hlatest] at hquiet ⊢
            have htime : rh.channelId = channelTime := by
              have := hvalid.latest_eq
              simp only [ReliableHdr.frame] at this
              rw [bne_iff_ne.mpr hlatest] at this
              exact beq_iff_eq.mp this.symm
            split
            · exact hheard.accepts (hslice ▸ h) (hslice ▸ hdrained)
            · next hone =>
                rw [if_neg hone] at hquiet
                have hg : Genuine rh.channelId S rh payload := ⟨hdata, fun _ => by omega⟩
                obtain ⟨-, -, hpos, hbnd⟩ := hg.facts hS h
                have hexp := expected_lt hS h.toRecvCore
                have hbefore := seqBefore_iff
                  (a := (c₂.slice (c.keyOf src) rh.channelId).expected) (b := rh.seq)
                  hexp.2 (by omega) (by omega)
                simp only [hlatest, not_false_eq_true, true_and, ne_eq] at hclean hbuffer
                split
                · next hbef =>
                    rw [if_pos hbef] at hquiet hclean hbuffer
                    obtain ⟨hjump, hempty⟩ := latestJump_receives hS hhas₂ h hg htime
                      (hbefore.mp hbef)
                    exact (hfirst.trans hjump).trans_accepts (acceptData_accepts hS
                      (hjump.near.has _ hhas₂) hjump.gains.ok hempty hg hquiet hclean
                      hbuffer)
                · next hbef =>
                    rw [if_neg hbef] at hquiet hclean hbuffer
                    exact hfirst.trans_accepts (acceptData_accepts hS hhas₂ h hdrained hg
                      hquiet hclean hbuffer)
          · rw [if_neg hlatest] at hquiet ⊢
            have hg : Genuine rh.channelId S rh payload := by
              refine ⟨hdata, fun htime => ?_⟩
              have := hvalid.latest_eq
              simp only [ReliableHdr.frame, htime] at this
              exact absurd (by simpa using this) hlatest
            rw [if_neg (fun hboth => hlatest hboth.1)] at hclean hbuffer
            exact hfirst.trans_accepts (acceptData_accepts hS hhas₂ h hdrained hg hquiet
              hclean hbuffer)

/-! ## LOST -/

/-- The report that ends `handle_lost_packet`. -/
theorem Defers.record {d' : ℤ} {first last : U32} (reason : LostReason) (count : U32)
    (h : Defers Q ch S (Set.Icc first.toNat last.toNat) ∅ d (c.slice key ch)
      (c'.slice key ch))
    (h' : Gains Q ch S d' (c'.slice key ch) (c''.slice key ch)) :
    Gains Q ch S (d + d') (c.slice key ch)
      ((recordLost c'' .received key ch reason first last count).slice key ch) := by
  obtain ⟨peer, hslice⟩ := slice_recordLost c'' .received key ch reason first last count
  rw [hslice]
  exact h.finish h' (receiver_event ..)
    (Slice.sendPart_emit_silent ⟨rfl, rfl, rfl, rfl, rfl⟩) rfl

theorem drained_recordLost {role : Role} {reason : LostReason} {first last count : U32}
    (h : Drained (c.slice key ch)) :
    Drained ((recordLost c role key ch reason first last count).slice key ch) := by
  obtain ⟨peer, hslice⟩ := slice_recordLost c role key ch reason first last count
  rw [hslice]
  exact h

/-- `handle_lost_packet` for numbers that the sender has announced. -/
theorem lost_accepts (hS : Honest Q ch S) (hhas : c.has key)
    (h : RecvOk Q ch S (c.slice key ch)) (hdrained : Drained (c.slice key ch))
    {first last count : U32} {reason : LostReason} {now : U32}
    (hmem : (first.toNat, last.toNat) ∈ S.losts)
    (hin : seqInRange (c.slice key ch).expected first last = true)
    (hquiet : Quiet Q key (recordLost (drain (c.setExpected key ch (last + 1)) key ch now)
      .received key ch reason first last count))
    (hclean : ¬Q.overrun →
      drainClean (c.setExpected key ch (last + 1)) key ch now = true) :
    Accepts Q ch S key c (recordLost (drain (c.setExpected key ch (last + 1)) key ch now)
      .received key ch reason first last count) := by
  have hset := (Touches.refl {(key, ch)} c).setExpected (Set.mem_singleton _) (last + 1)
  have hdefers := Defers.lostHere h hS hmem hin hdrained.1 hdrained.2
  rw [← slice_setExpected_self hhas] at hdefers
  obtain ⟨hdrain, hempty⟩ := drain_receives hS now (hset.has key hhas) hdefers.ok
    (hquiet.before (List.prefix_append _ _)) hclean
  have hreceives := Receives.mk ((hset.trans hdrain.near).recordLost (Set.mem_singleton _))
    (hdefers.record reason count hdrain.gains)
  exact hreceives.accepts (drained_recordLost hempty)

theorem handleLostPacket_accepts {src : Mac} {lost : LostPayload} {now : U32}
    (hS : Honest Q lost.channelId S) (hknown : c.Knows src)
    (h : RecvOk Q lost.channelId S (c.slice (c.keyOf src) lost.channelId))
    (hdrained : Drained (c.slice (c.keyOf src) lost.channelId))
    (hflag : lost.rsv &&& lostFlagReceiverDrop = 0)
    (hgenuine : (c.peer (c.keyOf src)).rootSessionId = lost.rootSessionId →
      (c.peer (c.keyOf src)).nodeSessionId = lost.nodeSessionId →
      (lost.seqFirst.toNat, lost.seqLast.toNat) ∈ S.losts)
    (hquiet : Quiet Q (c.keyOf src) (handleLostPacket c src lost now).1)
    (hclean : ¬Q.overrun → lostClean c src lost now = true) :
    Accepts Q lost.channelId S (c.keyOf src) c (handleLostPacket c src lost now).1 := by
  obtain ⟨hfind, hfound⟩ := peerFind_known hknown false now
  simp only [handleLostPacket, lostClean] at hquiet hclean ⊢
  set c₁ := (peerFind c src false now).1 with hc₁
  cases hbound : boundPeer c₁ (peerFind c src false now).2 lost.rootSessionId
      lost.nodeSessionId with
  | none => exact hfind.accepts h hdrained
  | some key =>
      simp only [hbound] at hquiet ⊢
      obtain ⟨hkey, -, hroot, hnode⟩ := boundPeer_some hbound
      obtain rfl : c.keyOf src = key := Option.some.inj (hfound.symm.trans hkey)
      have hslice := hfind.slice_eq (c.keyOf src) lost.channelId
      have hbinding := congrArg Slice.binding hslice
      have hmem := hgenuine ((congrArg Binding.rootSessionId hbinding).symm.trans hroot)
        ((congrArg Binding.nodeSessionId hbinding).symm.trans hnode)
      have hhas₁ := hfind.has (c.keyOf src) hknown.1
      have hfirst : Receives Q lost.channelId S (c.keyOf src) 0 c c₁ := hfind.receives h
      rw [← hslice] at h hdrained
      have hexpected : (c₁.peer (c.keyOf src)).expectedSeq lost.channelId =
          (c₁.slice (c.keyOf src) lost.channelId).expected := rfl
      obtain ⟨hpos, hle, hlt⟩ := h.bounded.losts_below _ hmem
      have hexp := expected_lt hS h.toRecvCore
      have hnext := hS.next_le
      simp only at hpos hle hlt
      split
      · exact hfind.accepts (hslice ▸ h) (hslice ▸ hdrained)
      · next hchecks =>
          rw [if_neg hchecks, if_neg (not_not.mpr hflag)] at hquiet
          rw [if_neg (not_not.mpr hflag)]
          rw [hexpected] at hquiet hclean ⊢
          split
          · next hin =>
              rw [if_pos hin] at hquiet
              refine hfirst.trans_accepts (lost_accepts hS hhas₁ h hdrained hmem hin hquiet
                fun hno => ?_)
              simpa [hin] using hclean hno
          · next hout =>
              rw [if_neg hout] at hquiet
              rw [seqInRange_iff hle] at hout
              have hbefore := seqBefore_iff
                (a := (c₁.slice (c.keyOf src) lost.channelId).expected) (b := lost.seqFirst)
                hexp.2 (by omega) (by omega)
              split
              · next hbef =>
                  rw [if_pos hbef] at hquiet
                  split
                  · next hroom =>
                      obtain ⟨hchannel, hok, hnumbers, hcard, hother⟩ :=
                        pendingLostAdd_slice h ⟨hle, by omega⟩ hroom
                      have hdefers := Defers.lostAhead h hS hmem (hbefore.mp hbef) hchannel
                        hok hnumbers hcard
                      have hset := slice_setPending_self hhas₁ (pendingLostAdd
                        lost.channelId (c₁.peer (c.keyOf src)).pendingLost lost.seqFirst
                        lost.seqLast).1 lost.channelId
                      rw [← hset] at hdefers
                      have hreceives := Receives.mk
                        (((Touches.refl {(c.keyOf src, lost.channelId)} c₁).setPending
                          hother).recordLost (Set.mem_singleton _))
                        (hdefers.record lost.reason (lost.seqLast - lost.seqFirst + 1)
                          (.refl hdefers.ok))
                      refine hfirst.trans_accepts (hreceives.accepts (drained_recordLost ?_))
                      rw [hset]
                      exact hdrained.postpone h.pending_channel hchannel rfl le_rfl hnumbers
                        (hbefore.mp hbef)
                  · next hroom =>
                      rw [if_neg hroom] at hquiet
                      exact absurd ((touches_clearPeerBuffers _ _ .overflow).trace.subset
                        (by simp [Ctx.emit])) hquiet.cleared
              · next hbef =>
                  have hpast : lost.seqLast.toNat <
                      (c₁.slice (c.keyOf src) lost.channelId).expected.toNat := by
                    have := mt hbefore.mpr hbef
                    omega
                  have hdefers := Defers.lostPast h hS hmem hpast
                  have hreceives := Receives.mk
                    ((Touches.refl {(c.keyOf src, lost.channelId)} c₁).recordLost
                      (Set.mem_singleton _))
                    (hdefers.record lost.reason (lost.seqLast - lost.seqFirst + 1) (.refl h))
                  exact hfirst.trans_accepts
                    (hreceives.accepts (drained_recordLost hdrained))

end

end KeemashCore.Rel
