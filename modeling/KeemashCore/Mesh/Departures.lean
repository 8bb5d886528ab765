import KeemashCore.Mesh.Endpoint
import KeemashCore.Mesh.Submit

/-!
# What an end sends

The operations of the send path as steps of an end: acknowledgements free slots,
a negative one has a frame sent again, a submit stores a message or uses its
numbers up, and a poll retransmits what is due.
-/

namespace KeemashCore.Rel

open SlotTable SelectiveRepeat

section

variable {Q : Allow} {b : Bond} {S : ℕ → Sender Frame} {R : ℕ → Receiver Frame}
  {c c' c'' : Ctx} {ch : ℕ} {mac : Mac} {now : U32}

/-! ## Retransmission -/

/-- A slot is exchanged for one that holds the same frame. -/
theorem SendOk.replace {near far : Mac} {r : Receiver Frame} {s : Slice}
    (h : SendOk Q ch near far s) {slot slot' : TxSlot} {rest : Multiset TxSlot}
    (hslot : s.tx = slot ::ₘ rest) (hsame : slot'.numbered = slot.numbered)
    (hok : slot'.rh.seq = slot'.seq ∧ slot'.rh.channelId = ch) :
    Sends Q ch near far r s { s with tx := slot' ::ₘ rest } := by
  have hslots : ∀ slot ∈ slot' ::ₘ rest, slot.rh.seq = slot.seq ∧ slot.rh.channelId = ch := by
    intro other hother
    rcases Multiset.mem_cons.mp hother with rfl | hrest
    · exact hok
    · exact h.slots other (hslot ▸ Multiset.mem_cons_of_mem hrest)
  have htx : {x | ∃ slot ∈ slot' ::ₘ rest, slot.numbered = x} = s.sender.tx := by
    ext x
    simp only [Slice.sender, hslot, Multiset.mem_cons, Set.mem_ofPred_eq,
      exists_eq_or_imp, hsame]
  have hsender : Slice.sender { s with tx := slot' ::ₘ rest } = s.sender := by
    calc
      Slice.sender { s with tx := slot' ::ₘ rest } =
          { s.sender with tx := {x | ∃ slot ∈ slot' ::ₘ rest, slot.numbered = x} } := rfl
      _ = s.sender := by rw [htx]
  refine ⟨h.setTx hslots, ?_, rfl, rfl⟩
  rw [hsender]

/-- A slot of the link belongs to one of its channels. -/
theorem EndOk.channel (h : EndOk Q b S R c) {slot : TxSlot} (hslot : slot ∈ held c.tx)
    (hpeer : slot.peer = b.key) : Channel slot.channel := by
  by_contra hch
  have hmem : slot ∈ (c.slice b.key slot.channel).tx :=
    Multiset.mem_filter.mpr ⟨hslot, TxSlot.isFor_iff.mpr ⟨rfl, hpeer⟩⟩
  rw [(h.outside _ hch).tx] at hmem
  exact Multiset.notMem_zero _ hmem

theorem slice_retransmitSlot {i : ℕ} {slot : TxSlot} {key : Mac}
    (hi : entryAt c.tx i = some slot) (hfor : slot.isFor key ch = true)
    (hrh : slot.rh.channelId = ch) :
    (retransmitSlot c key i now).1.slice key ch =
      Slice.emit
        { c.slice key ch with
          tx := slot.replayed now ::ₘ
            (held (c.tx.set i none)).filter fun slot => slot.isFor key ch }
        (.send key ((slot.replayed now).packet c.cfg)) := by
  have hheld : (held (c.tx.set i (some (slot.replayed now)))).filter
      (fun slot => slot.isFor key ch) =
        slot.replayed now ::ₘ (held (c.tx.set i none)).filter fun slot => slot.isFor key ch := by
    rw [held_set_entry _ hi, Multiset.filter_cons_of_pos]
    exact hfor
  have hsend : (Effect.send key ((slot.replayed now).packet c.cfg)).concerns key ch =
      true := by
    simp [Effect.concerns, TxSlot.packet, TxSlot.replayed, Body.channel?, hrh]
  rw [retransmitSlot, hi]
  refine (slice_emit hsend).trans ?_
  rw [slice_modPeer (f := Peer.countRetry) (fun _ => rfl), ← hheld]
  rfl

theorem numbered_replayed (slot : TxSlot) : (slot.replayed now).numbered = slot.numbered := by
  have hflags : ∀ flags : BitVec 8,
      (flags ||| flagReplay) &&& flagLatest = flags &&& flagLatest := by
    decide
  simp only [TxSlot.numbered, TxSlot.replayed, ReliableHdr.frame, hflags]

/-- The link's own slot is sent again. -/
theorem EndOk.retransmitSlot (h : EndOk Q b S R c) {i : ℕ} {slot : TxSlot}
    (hi : entryAt c.tx i = some slot) (hpeer : slot.peer = b.key) (now : U32) :
    EndStep Q b S R c (retransmitSlot c b.key i now).1 ∧
      ∀ ch, ((Rel.retransmitSlot c b.key i now).1.slice b.key ch).recvPart =
        (c.slice b.key ch).recvPart := by
  have hch := h.channel (mem_held_of_entryAt hi) hpeer
  have hfor : slot.isFor b.key slot.channel = true := TxSlot.isFor_iff.mpr ⟨rfl, hpeer⟩
  have hsend := h.send _ hch
  have hcons : (c.slice b.key slot.channel).tx = slot ::ₘ
      (held (c.tx.set i none)).filter fun s => s.isFor b.key slot.channel := by
    change (held c.tx).filter _ = _
    rw [held_set_none hi]
    exact Multiset.filter_cons_of_pos _ hfor
  obtain ⟨hseq, hrh⟩ := hsend.slots slot (hcons ▸ Multiset.mem_cons_self _ _)
  have hslice : (Rel.retransmitSlot c b.key i now).1.slice b.key slot.channel = _ :=
    slice_retransmitSlot hi hfor hrh
  have hpacket : (slot.replayed now).packet c.cfg =
      ⟨slot.sessionId, b.near, .data (slot.replayed now).rh (slot.replayed now).payload⟩ := by
    rw [TxSlot.packet, h.localMac]
    rfl
  have hall : Sends Q slot.channel b.near b.far (R slot.channel) (c.slice b.key slot.channel)
      ((Rel.retransmitSlot c b.key i now).1.slice b.key slot.channel) := by
    have hreplace := hsend.replace (r := R slot.channel) hcons
      (@numbered_replayed now slot) ⟨hseq, hrh⟩
    rw [hslice, hpacket]
    exact hreplace.trans (hreplace.ok.transmit (by simp) b.key _)
  have htouch : Touches {(b.key, slot.channel)} c (Rel.retransmitSlot c b.key i now).1 := by
    refine (Touches.refl _ c).retransmitSlot fun other hother => ?_
    obtain rfl := Option.some.inj (hi.symm.trans hother)
    rw [hpeer, hrh]
    exact ⟨rfl, rfl⟩
  refine ⟨.of_sends h hch htouch hall, fun ch => ?_⟩
  by_cases heq : ch = slot.channel
  · subst heq
    exact hall.recv
  · rw [htouch.slice]
    intro hmem
    exact heq (congrArg Prod.snd hmem)

/-! ## Acknowledgements -/

/-- Slots of one channel are freed. -/
theorem slice_freeTx (c : Ctx) (key : Mac) (ch : ℕ) (p : TxSlot → Bool) :
    (c.setTx (freeWhere (fun slot => slot.isFor key ch && p slot) c.tx)).slice key ch =
      { c.slice key ch with
        tx := (c.slice key ch).tx.filter fun slot => p slot = false } := by
  have htx : (held (freeWhere (fun slot => slot.isFor key ch && p slot) c.tx)).filter
      (fun slot => slot.isFor key ch) =
        ((held c.tx).filter fun slot => slot.isFor key ch).filter fun slot =>
          p slot = false := by
    rw [held_freeWhere, Multiset.filter_filter, Multiset.filter_filter]
    refine Multiset.filter_congr fun slot _ => ?_
    cases slot.isFor key ch
    · simp
    · simp
  calc
    (c.setTx (freeWhere (fun slot => slot.isFor key ch && p slot) c.tx)).slice key ch =
        { c.slice key ch with
          tx := (held (freeWhere (fun slot => slot.isFor key ch && p slot) c.tx)).filter
            fun slot => slot.isFor key ch } := rfl
    _ = _ := by rw [htx]; rfl

theorem slice_ackSlots (c : Ctx) (key : Mac) (ack : AckPayload) (now : U32) :
    (ackSlots c key ack now).slice key ack.channelId =
      { c.slice key ack.channelId with
        tx := (c.slice key ack.channelId).tx.filter fun slot =>
          ack.accepts slot.seq = false } := by
  have hsampled : ∀ slots : List TxSlot, ∀ c' : Ctx, Touches ∅ c' (slots.foldl (fun c slot =>
      if slot.retries = 0 ∧ slot.firstSentMs ≠ 0 then
        c.modPeer key fun p => updateRto c.cfg p (now - slot.firstSentMs)
      else c) c') := by
    intro slots c'
    refine (Touches.refl ∅ c').foldl (fun c slot => ?_) slots
    split
    · exact (Touches.refl ∅ c).modPeer (fun p => (updateRto_seen _ p _).1)
        fun p => (updateRto_seen _ p _).2
    · exact .refl ∅ c
  rw [ackSlots, slice_modPeer (f := Peer.acknowledged now) (fun _ => rfl), slice_freeTx,
    (hsampled _ c).slice_eq]

/-- The frame asked for is still held after the acknowledgement was taken in. -/
def holdsAsked (c : Ctx) (key : Mac) (ack : AckPayload) : Bool :=
  (used c.tx).any fun slot =>
    slot.isFor key ack.channelId && slot.seq == ack.nackSeq && !ack.accepts slot.seq

theorem slice_sendLost (c : Ctx) (key : Mac) (ch : ℕ) (reason : LostReason)
    (first last : U32) :
    ∃ peer, (sendLost c key ch reason first last).1.slice key ch =
      ((c.slice key ch).emit (.event .sent key peer ch reason first last)).emit
        (.send key
          { sessionId := c.localSession
            srcMac := c.cfg.localMac
            body := .lost (lostPayload (recordLost c .sent key ch reason first last
              (last - first + 1)) key ch reason 0 first last) }) := by
  obtain ⟨peer, hevent⟩ := slice_recordLost c .sent key ch reason first last
    (last - first + 1)
  refine ⟨peer, ?_⟩
  rw [sendLost, slice_sendLostPacket, hevent]
  rfl

/-- What the callback is told does not change how the record is bound. -/
theorem binding_recordLost (c : Ctx) (role : Role) (key k : Mac) (channel : ℕ)
    (reason : LostReason) (first last count : U32) :
    ((recordLost c role key channel reason first last count).peer k).binding =
      (c.peer k).binding :=
  peer_modPeer_field (f := Peer.countLost reason count) Peer.binding (fun _ => rfl)
    (fun _ => rfl) k

/-- A number that is asked for but not held any more is announced as lost. -/
theorem EndOk.disown (h : EndOk Q b S R c) (hch : Channel ch) (hlossy : Q.lossy)
    (hallow : Q.disown) {seq : U32} (hnack : seq.toNat ∈ (R ch).nacks) (reason : LostReason) :
    EndStep Q b S R c (sendLost c b.key ch reason seq seq).1 := by
  obtain ⟨peer, hslice⟩ := slice_sendLost c b.key ch reason seq seq
  have hbound : ((recordLost c .sent b.key ch reason seq seq (seq - seq + 1)).peer
      b.key).binding = b.binding :=
    (binding_recordLost _ _ _ _ _ _ _ _ _).trans h.binding
  have hbinding : (c.slice b.key ch).binding = b.binding := h.binding
  refine .of_sends h hch ((Touches.refl _ c).sendLost (Set.mem_singleton _)) ?_
  rw [hslice]
  refine (h.send ch hch).disown hlossy hallow hnack rfl rfl rfl rfl ?_
  rw [hbinding]
  exact Bond.proper (c := recordLost c .sent b.key ch reason seq seq (seq - seq + 1))
    h.localMac h.keyOf hbound c.localSession reason 0 seq seq

/-- `ack_slots` for an acknowledgement that the other end has sent. -/
theorem EndOk.ackSlots (h : EndOk Q b S R c) {ack : AckPayload} (hch : Channel ack.channelId)
    (hroom : (c.slice b.key ack.channelId).next.toNat ≤ 2 ^ 31)
    (hack : (ack.ackSeq.toNat, ack.sacked) ∈ (R ack.channelId).acks) (now : U32) :
    EndStep Q b S R c (ackSlots c b.key ack now) := by
  refine .of_sends h hch ((Touches.refl _ c).ackSlots (Set.mem_singleton _)) ?_
  rw [slice_ackSlots]
  exact (h.send _ hch).acked (h.other _ hch) hroom hack

/-- The frame asked for is found after the acknowledgement was taken in. -/
theorem txFind_ackSlots {key : Mac} {ack : AckPayload} (h : holdsAsked c key ack = true)
    (hslice : c'.slice key ack.channelId = c.slice key ack.channelId) (now : U32) :
    (txFind (ackSlots c' key ack now) key ack.channelId ack.nackSeq).isSome = true := by
  obtain ⟨slot, hslot, hp⟩ := used_any.mp h
  simp only [Bool.and_eq_true, beq_iff_eq, Bool.not_eq_true'] at hp
  obtain ⟨⟨hfor, hseq⟩, haccepts⟩ := hp
  have hmem : slot ∈ ((ackSlots c' key ack now).slice key ack.channelId).tx := by
    rw [slice_ackSlots, hslice]
    exact Multiset.mem_filter.mpr ⟨Multiset.mem_filter.mpr ⟨hslot, hfor⟩, haccepts⟩
  refine findIdx_isSome.mpr ⟨slot, (Multiset.mem_filter.mp hmem).1, ?_⟩
  simp [hfor, hseq]

/-- The acknowledgement names the binding of the link. -/
def Bond.NamedBy (b : Bond) (rootSessionId nodeSessionId : U32) : Prop :=
  b.rootSessionId = rootSessionId ∧ b.nodeSessionId = nodeSessionId

/-- `handle_ack_packet` for a packet that the other end has sent in this binding, or that
is of another binding. -/
theorem EndOk.handleAckPacket (h : EndOk Q b S R c) {ack : AckPayload} {nack : Bool}
    (hroom : ∀ ch, Channel ch → (c.slice b.key ch).next.toNat ≤ 2 ^ 31)
    (hgenuine : b.NamedBy ack.rootSessionId ack.nodeSessionId → Channel ack.channelId →
      (ack.ackSeq.toNat, ack.sacked) ∈ (R ack.channelId).acks ∧
        (nack = true → ack.nackSeq ≠ 0 → ack.nackSeq.toNat ∈ (R ack.channelId).nacks))
    (hasked : ¬(Q.lossy ∧ Q.disown) → nack = true → holdsAsked c b.key ack = true)
    (now : U32) : EndStep Q b S R c (handleAckPacket c b.far ack nack now).1 := by
  obtain ⟨hfind, hfound⟩ := peerFind_known h.knows false now
  have hstart : EndStep Q b S R c (peerFind c b.far false now).1 :=
    .of_elsewhere h hfind.elsewhere_nowhere
  rw [h.keyOf] at hfound
  simp only [Rel.handleAckPacket]
  split
  · exact hstart
  · next key hbound =>
      obtain ⟨hkey, -, hroot, hnode⟩ := boundPeer_some hbound
      obtain rfl : b.key = key := Option.some.inj (hfound.symm.trans hkey)
      split
      · exact hstart
      · next hform =>
          rw [not_or, not_or] at hform
          have hch : Channel ack.channelId := ⟨by omega, by omega⟩
          have hnamed : b.NamedBy ack.rootSessionId ack.nodeSessionId :=
            ⟨(congrArg Binding.rootSessionId hstart.ok.binding).symm.trans hroot,
              (congrArg Binding.nodeSessionId hstart.ok.binding).symm.trans hnode⟩
          obtain ⟨hack, hnack⟩ := hgenuine hnamed hch
          have hseen : Touches ∅ c ((peerFind c b.far false now).1.modPeer b.key
              Peer.routeSeen) :=
            hfind.modPeer (fun _ => rfl) (fun _ => rfl)
          have hseenStep : EndStep Q b S R c ((peerFind c b.far false now).1.modPeer b.key
              Peer.routeSeen) :=
            .of_elsewhere h hseen.elsewhere_nowhere
          have hacked := hseenStep.trans (hseenStep.ok.ackSlots hch
            (hseen.slice_eq b.key _ ▸ hroom _ hch) hack now)
          split
          · next hnegative =>
              split
              · next i hi =>
                  obtain ⟨slot, hslot, hp⟩ := entryAt_of_findIdx hi
                  obtain ⟨-, hpeer⟩ := TxSlot.isFor_iff.mp (Bool.and_elim_left hp)
                  exact hacked.trans (hacked.ok.retransmitSlot hslot hpeer now).1
              · next hmissing =>
                  by_cases hallow : Q.lossy ∧ Q.disown
                  · exact hacked.trans (hacked.ok.disown hch hallow.1 hallow.2
                      (hnack hnegative.1 hnegative.2) .overflow)
                  · have hfind := txFind_ackSlots (hasked hallow hnegative.1)
                      (hseen.slice_eq b.key ack.channelId) now
                    rw [hmissing] at hfind
                    exact absurd hfind (by simp)
          · exact hacked

/-! ## DATA and LOST -/

/-- `handle_data` for a packet that the other end has sent in this binding, or that is of
another binding. -/
theorem EndOk.handleData (h : EndOk Q b S R c) (hS : ∀ ch, Channel ch → Honest Q ch (S ch))
    {rh : ReliableHdr} {payload : List UInt8}
    (hgenuine : b.NamedBy rh.rootSessionId rh.nodeSessionId → Channel rh.channelId →
      (rh.seq.toNat, rh.frame payload) ∈ (S rh.channelId).data)
    (hquiet : Quiet Q b.key (handleData c b.far rh payload now).1)
    (hclean : ¬Q.overrun →
      acceptClean (arrivalCtx c b.far rh now) b.key rh payload now = true)
    (hbuffer : ¬Q.bufferPending →
      buffersPending (arrivalCtx c b.far rh now) b.key rh = false) :
    EndStep Q b S R c (handleData c b.far rh payload now).1 := by
  by_cases hch : Channel rh.channelId
  · have hkey := h.keyOf
    have hbinding := h.binding
    have haccepts := @handleData_accepts Q _ c b.far rh payload now (hS _ hch) h.knows
    rw [hkey] at haccepts
    refine .of_accepts h hch (haccepts (h.recv _ hch) (h.drained _ hch) ?_ hquiet hclean
      hbuffer)
    intro hroot hnode
    exact hgenuine ⟨(congrArg Binding.rootSessionId hbinding).symm.trans hroot,
      (congrArg Binding.nodeSessionId hbinding).symm.trans hnode⟩ hch
  · have hform : dataMalformed c b.far rh payload = true := by
      have hout : rh.channelId = 0 ∨ rh.channelId ≥ channelCount := by
        rw [Channel] at hch
        omega
      rcases hout with hzero | hlarge
      · simp [dataMalformed, hzero]
      · simp [dataMalformed, hlarge]
    rw [Rel.handleData, if_pos hform]
    exact .refl h

/-- The range that a LOST packet names. -/
def LostPayload.range (lost : LostPayload) : ℕ × ℕ :=
  (lost.seqFirst.toNat, lost.seqLast.toNat)

/-- The other end reported that it dropped a range. -/
theorem EndOk.dropped (h : EndOk Q b S R c) (hch : Channel ch) (hlossy : Q.lossy)
    {first last : U32} (hdrop : (first.toNat, last.toNat) ∈ (R ch).drops)
    (reason : LostReason) (count : U32) :
    EndStep Q b S R c (recordLost (c.setTx (freeWhere (fun slot =>
      slot.isFor b.key ch && seqInRange slot.seq first last) c.tx)) .sent b.key ch reason
      first last count) := by
  obtain ⟨peer, hevent⟩ := slice_recordLost (c.setTx (freeWhere (fun slot =>
    slot.isFor b.key ch && seqInRange slot.seq first last) c.tx)) .sent b.key ch reason
    first last count
  have hrange := ((h.other ch hch).drops_below _ hdrop).2.1
  refine .of_sends h hch (((Touches.refl _ c).freeTx fun slot hslot => ?_).recordLost
    (Set.mem_singleton _)) ?_
  · obtain ⟨hchannel, hpeer⟩ := TxSlot.isFor_iff.mp (Bool.and_elim_left hslot)
    rw [hchannel, hpeer]
    exact Set.mem_singleton _
  · rw [hevent, slice_freeTx]
    exact (h.send ch hch).dropped hlossy hrange hdrop b.key peer ch reason

/-- `handle_lost_packet` for a packet that the other end has sent in this binding, or that
is of another binding. -/
theorem EndOk.handleLostPacket (h : EndOk Q b S R c)
    (hS : ∀ ch, Channel ch → Honest Q ch (S ch))
    (hlossy : ∀ ch, Channel ch → ∀ x ∈ (R ch).drops, Q.lossy) {lost : LostPayload}
    (hgenuine : b.NamedBy lost.rootSessionId lost.nodeSessionId → Channel lost.channelId →
      if lost.rsv &&& lostFlagReceiverDrop ≠ 0 then lost.range ∈ (R lost.channelId).drops
      else lost.range ∈ (S lost.channelId).losts)
    (hquiet : Quiet Q b.key (handleLostPacket c b.far lost now).1)
    (hclean : ¬Q.overrun → lostClean c b.far lost now = true) :
    EndStep Q b S R c (handleLostPacket c b.far lost now).1 := by
  have hbinding := h.binding
  by_cases hsimple : lost.rsv &&& lostFlagReceiverDrop = 0 ∧ Channel lost.channelId
  · obtain ⟨hflag, hch⟩ := hsimple
    have haccepts := @handleLostPacket_accepts Q _ c b.far lost now (hS _ hch) h.knows
    rw [h.keyOf] at haccepts
    refine .of_accepts h hch (haccepts (h.recv _ hch) (h.drained _ hch) hflag ?_ hquiet
      hclean)
    intro hroot hnode
    have hmem := hgenuine ⟨(congrArg Binding.rootSessionId hbinding).symm.trans hroot,
      (congrArg Binding.nodeSessionId hbinding).symm.trans hnode⟩ hch
    rwa [if_neg (not_not.mpr hflag)] at hmem
  · obtain ⟨hfind, hfound⟩ := peerFind_known h.knows false now
    have hstart : EndStep Q b S R c (peerFind c b.far false now).1 :=
      .of_elsewhere h hfind.elsewhere_nowhere
    rw [h.keyOf] at hfound
    simp only [Rel.handleLostPacket]
    split
    · exact hstart
    · next key hbound =>
        obtain ⟨hkey, -, hroot, hnode⟩ := boundPeer_some hbound
        obtain rfl : b.key = key := Option.some.inj (hfound.symm.trans hkey)
        split
        · exact hstart
        · next hform =>
            rw [not_or, not_or] at hform
            have hch : Channel lost.channelId := ⟨by omega, by omega⟩
            have hflag : lost.rsv &&& lostFlagReceiverDrop ≠ 0 := fun hzero =>
              hsimple ⟨hzero, hch⟩
            have hdrop := hgenuine
              ⟨(congrArg Binding.rootSessionId hstart.ok.binding).symm.trans hroot,
                (congrArg Binding.nodeSessionId hstart.ok.binding).symm.trans hnode⟩ hch
            rw [if_pos hflag] at hdrop
            rw [if_pos hflag]
            exact hstart.trans (hstart.ok.dropped hch (hlossy _ hch _ hdrop) hdrop _ _)

/-! ## The handshake -/

/-- Clearing a peer leaves a mark. -/
theorem cleared_mem (c : Ctx) (key : Mac) (reason : LostReason) :
    Effect.cleared key ∈ (clearPeerBuffers c key reason).trace := by
  apply (touches_clearPeerBuffers c key reason).trace.subset
  simp [Ctx.emit]

/-- An assignment that changes nothing the slices see of this record. -/
theorem elsewhere_modPeer {key : Mac} {f : Peer → Peer} (hmac : ∀ p, (f p).mac = p.mac)
    (hf : (f (c.peer key)).seen = (c.peer key).seen)
    (hcount : ∀ p, (f p).lostCount = p.lostCount) : Elsewhere b c (c.modPeer key f) := by
  have hslice : ∀ k ch, (c.modPeer key f).slice k ch = c.slice k ch := by
    intro k ch
    by_cases hk : k = key
    · subst hk
      by_cases hhas : c.has k
      · have hself := peer_modPeer_self hmac hhas
        simp only [Peer.seen, Prod.mk.injEq] at hf
        obtain ⟨-, hbinding, hnext, hexpected, hpending⟩ := hf
        simp only [Ctx.slice, hself, hbinding, hnext, hexpected, hpending]
        rfl
      · have hnone : c.peerAt k = none := by
          simpa [Ctx.has] using hhas
        have hpeer : (c.modPeer k f).peer k = c.peer k := by
          simp [Ctx.peer, peerAt_modPeer hmac, hnone]
        simp only [Ctx.slice, hpeer]
        rfl
    · exact slice_modPeer_ne hmac hk ch
  refine ⟨rfl, rfl, List.prefix_rfl, (has_modPeer hmac _).mpr, fun _ _ =>
    peer_modPeer_field Peer.lostCount hmac hcount _, fun ch => hslice _ ch, ?_⟩
  intro k _ _ ch hnone
  rw [hslice]
  exact hnone

theorem elsewhere_sendHandshake {key : Mac} {sessionId : U32} {body : Body}
    (hbody : body.channel? = none) : Elsewhere b c (sendPacket c key sessionId body).1 :=
  ((Touches.refl ∅ c).sendHandshake hbody).elsewhere_nowhere

/-- A greeting that does not reset the link changes nothing. -/
theorem EndOk.handleHello (h : EndOk Q b S R c) {hello : HelloPayload}
    (hquiet : Effect.cleared b.key ∉ (handleHello c b.far hello now).1.trace) :
    EndStep Q b S R c (handleHello c b.far hello now).1 := by
  obtain ⟨hfind, hfound⟩ := peerFind_known h.knows true now
  rw [h.keyOf] at hfound
  rw [Rel.handleHello] at hquiet ⊢
  split
  · exact .refl h
  · next hsupported =>
      rw [if_neg hsupported] at hquiet
      split
      · next heq =>
          rw [heq] at hfound
          exact absurd hfound (by simp)
      · next c₁ key heq =>
          rw [heq] at hfind hfound hquiet
          obtain rfl : key = b.key := Option.some.inj hfound
          have hstart : EndStep Q b S R c c₁ := .of_elsewhere h hfind.elsewhere_nowhere
          by_cases hreset : helloResets c₁ b.key hello = true
          · simp only [hreset, if_true] at hquiet
            refine absurd ?_ hquiet
            exact List.mem_append_left _ (cleared_mem c₁ b.key .sessionReset)
          · simp only [hreset, Bool.false_eq_true, if_false] at hquiet ⊢
            simp only [helloResets, Bool.or_eq_true, bne_iff_ne, not_or, not_not] at hreset
            have hbinding := hstart.ok.binding
            have hrole : c₁.cfg.rootRole = true := by
              rw [hfind.cfg]
              simp only [helloUnsupported, Bool.or_eq_true, Bool.not_eq_true', not_or] at hsupported
              simpa using hsupported.1.1.1.1
            have hready : (c₁.peer b.key).ready = true := congrArg Binding.ready hbinding
            have hroot : (c₁.peer b.key).rootSessionId = c₁.localSession :=
              (congrArg Binding.rootSessionId hbinding).trans
                (hstart.ok.sessions.root hrole)
            have hbind : Elsewhere b c₁ (c₁.modPeer b.key (Peer.bind c₁.localSession
                hello.nodeSessionId hello.capabilities now)) := by
              refine elsewhere_modPeer (fun _ => rfl) ?_ fun _ => rfl
              simp only [Peer.bind, Peer.seen, Peer.binding, hready, hroot, hreset.1]
            exact hstart.trans (.of_elsewhere hstart.ok
              (hbind.trans (elsewhere_sendHandshake rfl)))

/-- An answer that does not clear the link changes nothing. -/
theorem EndOk.handleHelloAck (h : EndOk Q b S R c) {ack : HelloAckPayload}
    (hquiet : Effect.cleared b.key ∉ (handleHelloAck c b.far ack now).1.trace) :
    EndStep Q b S R c (handleHelloAck c b.far ack now).1 := by
  obtain ⟨hfind, hfound⟩ := peerFind_known h.knows true now
  rw [h.keyOf] at hfound
  rw [Rel.handleHelloAck] at hquiet ⊢
  split
  · exact .refl h
  · next hform =>
      rw [if_neg hform] at hquiet
      split
      · next heq =>
          rw [heq] at hfound
          exact absurd hfound (by simp)
      · next c₁ key heq =>
          rw [heq] at hfind hfound hquiet
          obtain rfl : key = b.key := Option.some.inj hfound
          have hstart : EndStep Q b S R c c₁ := .of_elsewhere h hfind.elsewhere_nowhere
          by_cases hclears : helloAckClears (c₁.peer b.key) ack = true
          · simp only [hclears, if_true] at hquiet
            refine absurd ?_ hquiet
            exact cleared_mem c₁ b.key .sessionReset
          · simp only [hclears, Bool.false_eq_true, if_false] at hquiet ⊢
            have hbinding := hstart.ok.binding
            have hrole : c.cfg.rootRole = false := by
              simpa using fun hrole => hform (.inl hrole)
            obtain ⟨hnodeSession, hrootSession⟩ := hstart.ok.sessions.node
              (hfind.cfg ▸ hrole)
            have hready : (c₁.peer b.key).ready = true := congrArg Binding.ready hbinding
            have hroot : (c₁.peer b.key).rootSessionId = b.rootSessionId :=
              congrArg Binding.rootSessionId hbinding
            have hnode : (c₁.peer b.key).nodeSessionId = c₁.localSession :=
              (congrArg Binding.nodeSessionId hbinding).trans hnodeSession
            simp only [helloAckClears, Bool.or_eq_true, Bool.and_eq_true, bne_iff_ne, not_or,
              not_and, not_not, hroot] at hclears
            refine hstart.trans (.of_elsewhere hstart.ok ?_)
            refine elsewhere_modPeer (fun _ => rfl) ?_ fun _ => rfl
            simp only [Peer.bind, Peer.acknowledged, Peer.seen, Peer.binding, hready, hroot,
              hnode, hclears.1.1 hrootSession]

/-! ## Calls about the peer -/

/-- The address names the other end of the link. -/
structure Bond.Names (b : Bond) (c : Ctx) (mac : Mac) : Prop where
  keyOf : c.keyOf mac = b.key
  knows : c.Knows mac

theorem EndOk.found (h : EndOk Q b S R c) (hmac : b.Names c mac) (create : Bool)
    (now : U32) :
    Touches ∅ c (peerFind c mac create now).1 ∧
      EndStep Q b S R c (peerFind c mac create now).1 ∧
      (peerFind c mac create now).2 = some b.key := by
  obtain ⟨hfind, hfound⟩ := peerFind_known hmac.knows create now
  rw [hmac.keyOf] at hfound
  exact ⟨hfind, .of_elsewhere h hfind.elsewhere_nowhere, hfound⟩

theorem EndOk.sendHello (h : EndOk Q b S R c) (hmac : b.Names c mac)
    (capabilities now : U32) : EndStep Q b S R c (sendHello c mac capabilities now).1 := by
  obtain ⟨-, hstart, hfound⟩ := h.found hmac true now
  rw [Rel.sendHello]
  split
  · exact .refl h
  · split
    · next heq =>
        rw [heq] at hstart
        exact hstart
    · next heq =>
        rw [heq] at hstart
        exact hstart.trans (.of_elsewhere hstart.ok (elsewhere_sendHandshake rfl))

theorem slice_mapTx (c : Ctx) {f : TxSlot → TxSlot} {key : Mac}
    (hf : ∀ slot, (f slot).isFor key ch = slot.isFor key ch) :
    (c.setTx (c.tx.map fun entry => entry.map f)).slice key ch =
      { c.slice key ch with tx := (c.slice key ch).tx.map f } := by
  have htx : (held (c.tx.map fun entry => entry.map f)).filter
      (fun slot => slot.isFor key ch) =
        ((held c.tx).filter fun slot => slot.isFor key ch).map f := by
    rw [held_map, Multiset.filter_map]
    congr 1
    refine Multiset.filter_congr fun slot _ => ?_
    rw [Function.comp_apply, hf]
  calc
    (c.setTx (c.tx.map fun entry => entry.map f)).slice key ch =
        { c.slice key ch with
          tx := (held (c.tx.map fun entry => entry.map f)).filter
            fun slot => slot.isFor key ch } := rfl
    _ = _ := by rw [htx]; rfl

/-- Every slot of the link becomes due. -/
theorem EndOk.dueTx (h : EndOk Q b S R c) :
    EndStep Q b S R c
      (c.setTx (c.tx.map fun entry => entry.map (TxSlot.due b.key))) := by
  have hslice (ch : ℕ) : (c.setTx (c.tx.map fun entry =>
      entry.map (TxSlot.due b.key))).slice b.key ch = _ :=
    slice_mapTx c fun slot => TxSlot.isFor_due b.key b.key ch slot
  refine .of_every h ((Touches.refl _ c).dueTx fun _ hmem => hmem) rfl ?_ ?_
  · intro ch hch
    obtain ⟨htx, hreassembly, hlog⟩ := h.outside ch hch
    rw [hslice]
    refine ⟨?_, hreassembly, hlog⟩
    simp only [htx, Multiset.map_zero]
  · intro ch hch
    rw [hslice]
    refine (h.send ch hch).rewrite fun slot _ => ?_
    rw [TxSlot.due]
    split
    · exact ⟨rfl, rfl, rfl, rfl⟩
    · exact ⟨rfl, rfl, rfl, rfl⟩

theorem EndOk.peerRoute (h : EndOk Q b S R c) (hmac : b.Names c mac) (routeUp : Bool)
    (now : U32) : EndStep Q b S R c (peerRoute c mac routeUp now).1 := by
  obtain ⟨-, hstart, hfound⟩ := h.found hmac routeUp now
  have htouch := touches_peerRoute c mac routeUp now
  rw [hmac.keyOf] at htouch
  rw [Rel.peerRoute] at htouch ⊢
  split
  · next heq =>
      rw [heq] at hstart
      exact hstart
  · next c₁ key heq =>
      rw [heq] at hstart hfound
      obtain rfl : key = b.key := Option.some.inj hfound
      split
      · exact hstart
      · have hroute : Elsewhere b c₁ (c₁.modPeer b.key (Peer.setRoute routeUp now)) :=
          elsewhere_modPeer (fun _ => rfl) rfl fun _ => rfl
        have hset := hstart.trans (.of_elsewhere hstart.ok hroute)
        split
        · exact hset.trans (hset.ok.dueTx)
        · exact hset

/-- Unacknowledged frames of the TIME channel are given up. -/
theorem EndOk.supersedeTime (h : EndOk Q b S R c) (hmac : b.Names c mac) (now : U32) :
    EndStep Q b S R c (supersedeChannel c mac channelTime now).1 := by
  obtain ⟨-, hstart, hfound⟩ := h.found hmac false now
  rw [supersedeChannel, if_neg (by decide)]
  split
  · next heq =>
      rw [heq] at hstart
      exact hstart
  · next c₁ key heq =>
      rw [heq] at hstart hfound
      obtain rfl : key = b.key := Option.some.inj hfound
      have hch : Channel channelTime := by decide
      refine hstart.trans (.of_sends hstart.ok hch ((Touches.refl _ c₁).freeTx
        fun slot hslot => ?_) ?_)
      · obtain ⟨hchannel, hpeer⟩ := TxSlot.isFor_iff.mp hslot
        rw [hchannel, hpeer]
        exact Set.mem_singleton _
      · have hslice : (c₁.setTx (freeWhere (TxSlot.isFor b.key channelTime) c₁.tx)).slice
            b.key channelTime = { c₁.slice b.key channelTime with tx := 0 } := by
          have hfree := slice_freeTx c₁ b.key channelTime fun _ => true
          simp only [Bool.and_true, Bool.true_eq_false, Multiset.filter_false] at hfree
          exact hfree
        rw [hslice]
        exact (hstart.ok.send _ hch).supersede rfl

/-- Resetting the link would clear it. -/
theorem EndOk.resetPeer (h : EndOk Q b S R c) (hmac : b.Names c mac)
    {reason : LostReason}
    (hquiet : Effect.cleared b.key ∉ (resetPeer c mac reason now).trace) :
    EndStep Q b S R c (resetPeer c mac reason now) := by
  obtain ⟨-, hstart, hfound⟩ := h.found hmac false now
  rw [Rel.resetPeer] at hquiet ⊢
  split
  · next heq =>
      rw [heq] at hstart
      exact hstart
  · next c₁ key heq =>
      rw [heq] at hfound hquiet
      obtain rfl : key = b.key := Option.some.inj hfound
      exact absurd (cleared_mem c₁ b.key reason) hquiet

end

end KeemashCore.Rel
