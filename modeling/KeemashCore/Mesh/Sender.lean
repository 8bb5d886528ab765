import KeemashCore.Mesh.Receiver

/-!
# A slice as the sender of a link

`SendOk` is the representation invariant of the send path on one channel of one
peer.  The lemmas of this file take the assignments that the code makes to a
slice and show that they keep the invariant and are steps of the
selective-repeat sender.
-/

namespace KeemashCore.Rel

open SlotTable SelectiveRepeat

/-! ## The invariant -/

/-- The frame that `keemash_rel_submit` builds for fragment `i`. -/
def submitFrame (channel : ℕ) (streamId : U32) (payload : List UInt8)
    (fragments i : ℕ) : Frame :=
  let chunk := (payload.drop (i * reliableInnerMax)).take reliableInnerMax
  { channelId := channel
    streamId := streamId
    fragmentIndex := i
    fragmentCount := fragments
    payloadLen := chunk.length
    payload := chunk
    latest := channel == channelTime }

/-- The frame under number `x.1` is part of the accepted message `m`. -/
structure PartOf (ch : ℕ) (x : ℕ × Frame) (m : ℕ × U32 × List UInt8) : Prop where
  first : m.1 = x.1 - x.2.fragmentIndex
  index : x.2.fragmentIndex < fragmentsOf m.2.2.length
  frame : x.2 = submitFrame ch m.2.1 m.2.2 (fragmentsOf m.2.2.length) x.2.fragmentIndex

/-- A LOST packet that the other end will take: it names the binding and the two
addresses of the link. -/
def Proper (near far : Mac) (b : Binding) (e : Effect) : Prop :=
  ∃ key sessionId lost, e = .send key ⟨sessionId, near, .lost lost⟩ ∧
    lost.rootSessionId = b.rootSessionId ∧ lost.nodeSessionId = b.nodeSessionId ∧
    lost.originMac = near ∧ lost.targetMac = far

/-- The representation invariant of the send path between the addresses `near`
and `far`. -/
structure SendOk (Q : Allow) (ch : ℕ) (near far : Mac) (s : Slice) : Prop where
  slots : ∀ slot ∈ s.tx, slot.rh.seq = slot.seq ∧ slot.rh.channelId = ch
  valid : ∀ x ∈ s.sender.sent, x.2.Valid ch
  part : ∀ x ∈ s.sender.sent, ∃ m ∈ s.log.filterMap Effect.accepted?, PartOf ch x m
  sorted : ((s.log.filterMap Effect.accepted?).map Prod.fst).Pairwise (· < ·)
  below : ∀ m ∈ s.log.filterMap Effect.accepted?, m.1 < s.next.toNat
  lengths : ∀ m ∈ s.log.filterMap Effect.accepted?,
    0 < m.2.2.length ∧ m.2.2.length ≤ messageMax
  announced : ∀ e ∈ s.log, e.announces = true → Proper near far s.binding e
  lossless : ¬Q.lossy → s.sender.losts = ∅ ∧
    logged (Effect.report? .sent) s.log = ∅

/-- Going from `s` to `s'` keeps the invariant and takes sender steps only. -/
structure Sends (Q : Allow) (ch : ℕ) (near far : Mac) (R : Receiver Frame)
    (s s' : Slice) : Prop where
  ok : SendOk Q ch near far s'
  steps : Sender.Steps (linkPolicy Q ch) R s.sender s'.sender
  recv : s'.recvPart = s.recvPart
  binding : s'.binding = s.binding

section

variable {Q : Allow} {ch : ℕ} {near far : Mac} {R : Receiver Frame} {S : Sender Frame}
  {s s' s'' : Slice}

theorem Sends.refl (h : SendOk Q ch near far s) : Sends Q ch near far R s s :=
  ⟨h, .refl, rfl, rfl⟩

theorem Sends.trans (h : Sends Q ch near far R s s') (h' : Sends Q ch near far R s' s'') :
    Sends Q ch near far R s s'' :=
  ⟨h'.ok, h.steps.trans h'.steps, h'.recv.trans h.recv, h'.binding.trans h.binding⟩

/-- The send path sees only its own part of a slice. -/
theorem SendOk.of_sendPart (h : SendOk Q ch near far s) (hsend : s'.sendPart = s.sendPart)
    (hbinding : s'.binding = s.binding) : SendOk Q ch near far s' := by
  simp only [Slice.sendPart, Prod.mk.injEq] at hsend
  obtain ⟨hnext, htx, hsender, haccepted, hannounced, hreport⟩ := hsend
  refine ⟨?_, ?_, ?_, ?_, ?_, ?_, ?_, ?_⟩
  · rw [htx]
    exact h.slots
  · rw [hsender]
    exact h.valid
  · rw [hsender, haccepted]
    exact h.part
  · rw [haccepted]
    exact h.sorted
  · rw [haccepted, hnext]
    exact h.below
  · rw [haccepted]
    exact h.lengths
  · intro e he hann
    have hmem : e ∈ s'.log.filter Effect.announces := List.mem_filter.mpr ⟨he, hann⟩
    rw [hannounced] at hmem
    rw [hbinding]
    exact h.announced e (List.mem_filter.mp hmem).1 hann
  · intro hlossy
    rw [hsender, hreport]
    exact h.lossless hlossy

/-- The receive path sees only its own part of a slice. -/
theorem RecvOk.of_recvPart (h : RecvOk Q ch S s) (hrecv : s'.recvPart = s.recvPart) :
    RecvOk Q ch S s' := by
  simp only [Slice.recvPart, Prod.mk.injEq] at hrecv
  obtain ⟨hexp, hrx, hre, hpending, hreceiver, hdelivered, hreport⟩ := hrecv
  refine ⟨⟨?_, ?_, ?_, ?_, ?_, ?_, ?_, ?_, ?_, ?_, ?_⟩, fun hlossy htime => ?_⟩
  · rw [hreceiver]
    exact h.bounded
  · rw [hreceiver]
    exact h.ordered
  · rw [hrx]
    exact h.rx_hdr
  · rw [hrx]
    exact h.rx_time
  · rw [hrx]
    exact h.rx_nodup
  · rw [hpending]
    exact h.pending_channel
  · rw [hpending]
    exact h.pending_ok
  · rw [hre, hreceiver]
    exact h.slots
  · rw [hre]
    exact h.time
  · rw [hreceiver, hdelivered]
    exact h.delivered
  · rw [hpending, hreport]
    exact h.lossless
  · have hp := h.progress hlossy htime
    refine ⟨?_, ?_, ?_⟩
    · rw [hre]
      exact hp.card
    · rw [hre, hreceiver]
      exact hp.slot
    · rw [hre, hreceiver]
      exact hp.fresh

/-- A frame stored after the receiver's invariant was established starts a
message if it is the expected one. -/
theorem Progress.sender_step {S' : Sender Frame} (hp : Progress S s)
    (hB : Bounded (linkPolicy Q ch) S s.receiver)
    (h : Sender.Step (linkPolicy Q ch) s.receiver S S') : Progress S' s := by
  refine ⟨hp.card, hp.slot, fun hnone f hf => ?_⟩
  have hold := hp.fresh hnone f
  have hpos := hB.exp_pos
  have hle := hB.exp_le
  cases h with
  | submit fs hspan =>
      rcases hf with hf | hf
      · exact hold hf
      · have hlt := numbered_lt hf
        have hlo := (hspan _ hf).1
        simp only [linkPolicy] at hlo hlt
        omega
  | burn _ _ => exact hold hf
  | transmit _ => exact hold hf
  | acked _ => exact hold hf
  | disown _ _ => exact hold hf
  | dropped _ => exact hold hf
  | supersede _ => exact hold hf

/-- The receiver's invariant survives the steps of the sender. -/
theorem RecvOk.sender_steps {S' : Sender Frame} (h : RecvOk Q ch S s)
    (hsteps : Sender.Steps (linkPolicy Q ch) s.receiver S S') : RecvOk Q ch S' s := by
  induction hsteps with
  | refl => exact h
  | tail _ hstep ih =>
      exact ⟨{ ih.toRecvCore with bounded := hstep.bounded ih.bounded },
        fun hlossy htime => (ih.progress hlossy htime).sender_step ih.bounded hstep⟩

/-- Two accepted messages with one first number are the same. -/
theorem SendOk.unique (h : SendOk Q ch near far s) {m m' : ℕ × U32 × List UInt8}
    (hm : m ∈ s.log.filterMap Effect.accepted?)
    (hm' : m' ∈ s.log.filterMap Effect.accepted?) (heq : m.1 = m'.1) : m = m' := by
  have hnodup : ((s.log.filterMap Effect.accepted?).map Prod.fst).Nodup :=
    h.sorted.imp fun hlt => hlt.ne
  exact List.inj_on_of_nodup_map hnodup hm hm' heq

theorem SendOk.honest (h : SendOk Q ch near far s) (hnext : s.next.toNat ≤ 2 ^ 31) :
    Honest Q ch s.sender where
  valid := h.valid
  next_le := hnext
  stream := by
    intro x hx y hy heq
    obtain ⟨m, hm, hpart⟩ := h.part x hx
    obtain ⟨m', hm', hpart'⟩ := h.part y hy
    obtain rfl := h.unique hm hm' (by rw [hpart.first, hpart'.first, heq])
    rw [hpart.frame, hpart'.frame]
    rfl
  lossless := fun hlossy => (h.lossless hlossy).1

/-! ## Effects -/

theorem Slice.recvPart_emit_silent {e : Effect} (h : e.silentR)
    (hd : e.delivered? = none) : (s.emit e).recvPart = s.recvPart := by
  have hrecv := Slice.receiver_emit_silent (s := s) h
  simp only [Slice.recvPart, hrecv]
  simp [Slice.emit, hd, logged_singleton_none h.2.2.2.2]

/-- Appending effects that neither end of the link looks at. -/
theorem SendOk.emit_other (h : SendOk Q ch near far s) {e : Effect} (he : e.silentS) :
    SendOk Q ch near far (s.emit e) :=
  h.of_sendPart (Slice.sendPart_emit_silent he) rfl

/-! ## Transmitting -/

theorem sender_data {key : Mac} {sessionId : U32} {slot : TxSlot}
    (hseq : slot.rh.seq = slot.seq) :
    (s.emit (.send key ⟨sessionId, near, .data slot.rh slot.payload⟩)).sender =
      { s.sender with data := insert slot.numbered s.sender.data } := by
  have hdata : logged Effect.data? [.send key ⟨sessionId, near, .data slot.rh
      slot.payload⟩] = {slot.numbered} := by
    refine logged_singleton ?_
    simp [Effect.data?, TxSlot.numbered, hseq]
  have hstored : logged Effect.stored? [.send key ⟨sessionId, near, .data slot.rh
      slot.payload⟩] = ∅ := logged_singleton_none rfl
  have hlost : logged (Effect.lost? false) [.send key ⟨sessionId, near, .data slot.rh
      slot.payload⟩] = ∅ := logged_singleton_none rfl
  have hreport : logged (Effect.report? .sent) [.send key ⟨sessionId, near, .data slot.rh
      slot.payload⟩] = ∅ := logged_singleton_none rfl
  simp [Slice.emit, Slice.sender, hdata, hstored, hlost, hreport, Set.union_comm _
    {slot.numbered}]

/-- The packet of a held slot is sent. -/
theorem SendOk.transmit (h : SendOk Q ch near far s) {slot : TxSlot} (hslot : slot ∈ s.tx)
    (key : Mac) (sessionId : U32) :
    Sends Q ch near far R s
      (s.emit (.send key ⟨sessionId, near, .data slot.rh slot.payload⟩)) := by
  have hsender : (s.emit (.send key ⟨sessionId, near, .data slot.rh slot.payload⟩)).sender =
      { s.sender with data := insert slot.numbered s.sender.data } :=
    sender_data (h.slots slot hslot).1
  have hlog : (s.emit (.send key ⟨sessionId, near, .data slot.rh
      slot.payload⟩)).log.filterMap Effect.accepted? =
      s.log.filterMap Effect.accepted? := by
    simp [Slice.emit, Effect.accepted?]
  refine ⟨⟨h.slots, ?_, ?_, ?_, ?_, ?_, ?_, ?_⟩, ?_, ?_, rfl⟩
  · rw [hsender]
    exact h.valid
  · rw [hsender, hlog]
    exact h.part
  · rw [hlog]
    exact h.sorted
  · rw [hlog]
    exact h.below
  · rw [hlog]
    exact h.lengths
  · intro e he hann
    rcases List.mem_append.mp he with he | he
    · exact h.announced e he hann
    · rw [List.mem_singleton.mp he] at hann
      simp [Effect.announces, Effect.lost?] at hann
  · intro hlossy
    rw [hsender, Slice.emit, logged_append_none rfl]
    exact h.lossless hlossy
  · rw [hsender]
    exact .single (.transmit ⟨slot, hslot, rfl⟩)
  · exact Slice.recvPart_emit_silent ⟨rfl, rfl, rfl, rfl, rfl⟩ rfl

/-! ## Changing the slots -/

theorem SendOk.setTx (h : SendOk Q ch near far s) {tx : Multiset TxSlot}
    (hslots : ∀ slot ∈ tx, slot.rh.seq = slot.seq ∧ slot.rh.channelId = ch) :
    SendOk Q ch near far { s with tx := tx } :=
  ⟨hslots, h.valid, h.part, h.sorted, h.below, h.lengths, h.announced, h.lossless⟩

/-- Slots change only in what a retransmission rewrites. -/
theorem SendOk.rewrite (h : SendOk Q ch near far s) {f : TxSlot → TxSlot}
    (hf : ∀ slot ∈ s.tx, (f slot).numbered = slot.numbered ∧
      (f slot).rh.seq = slot.rh.seq ∧ (f slot).seq = slot.seq ∧
      (f slot).rh.channelId = slot.rh.channelId) :
    Sends Q ch near far R s { s with tx := s.tx.map f } := by
  have htx : {x | ∃ slot ∈ s.tx.map f, slot.numbered = x} = s.sender.tx := by
    ext x
    simp only [Multiset.mem_map, Set.mem_ofPred_eq, Slice.sender]
    constructor
    · rintro ⟨_, ⟨slot, hslot, rfl⟩, rfl⟩
      exact ⟨slot, hslot, ((hf slot hslot).1).symm⟩
    · rintro ⟨slot, hslot, rfl⟩
      exact ⟨f slot, ⟨slot, hslot, rfl⟩, (hf slot hslot).1⟩
  have hsender : Slice.sender { s with tx := s.tx.map f } = s.sender := by
    calc
      Slice.sender { s with tx := s.tx.map f } =
          { s.sender with tx := {x | ∃ slot ∈ s.tx.map f, slot.numbered = x} } := rfl
      _ = s.sender := by rw [htx]
  refine ⟨h.setTx fun slot hslot => ?_, ?_, rfl, rfl⟩
  · obtain ⟨old, hold, rfl⟩ := Multiset.mem_map.mp hslot
    obtain ⟨-, hrh, hseq, hchannel⟩ := hf old hold
    rw [hrh, hseq, hchannel]
    exact h.slots old hold
  · rw [hsender]

/-- The frames left after slots were freed. -/
theorem sender_free {p : TxSlot → Bool} {A : Set ℕ}
    (hp : ∀ slot ∈ s.tx, p slot = true ↔ slot.seq.toNat ∈ A) :
    Slice.sender { s with tx := s.tx.filter fun slot => p slot = false } =
      { s.sender with tx := {x ∈ s.sender.tx | x.1 ∉ A} } := by
  have htx : {x | ∃ slot ∈ s.tx.filter fun slot => p slot = false, slot.numbered = x} =
      {x ∈ s.sender.tx | x.1 ∉ A} := by
    ext x
    simp only [Multiset.mem_filter, Set.mem_ofPred_eq, Slice.sender]
    constructor
    · rintro ⟨slot, ⟨hslot, hfalse⟩, rfl⟩
      refine ⟨⟨slot, hslot, rfl⟩, fun hmem => ?_⟩
      rw [(hp slot hslot).mpr hmem] at hfalse
      exact absurd hfalse (by simp)
    · rintro ⟨⟨slot, hslot, rfl⟩, hmem⟩
      refine ⟨slot, ⟨hslot, ?_⟩, rfl⟩
      by_contra htrue
      exact hmem ((hp slot hslot).mp (by simpa using htrue))
  calc
    Slice.sender { s with tx := s.tx.filter fun slot => p slot = false } =
        { s.sender with tx := {x | ∃ slot ∈ s.tx.filter fun slot => p slot = false,
          slot.numbered = x} } := rfl
    _ = _ := by rw [htx]

theorem SendOk.free (h : SendOk Q ch near far s) (p : TxSlot → Bool) :
    SendOk Q ch near far { s with tx := s.tx.filter fun slot => p slot = false } :=
  h.setTx fun slot hslot => h.slots slot (Multiset.mem_of_mem_filter hslot)

/-- The slots that an acknowledgement frees. -/
theorem accepts_iff {ack : AckPayload} {seq : U32} (hpos : 1 ≤ seq.toNat)
    (hseq : seq.toNat ≤ 2 ^ 31) (hack : ack.ackSeq.toNat < 2 ^ 31) :
    ack.accepts seq = true ↔ seq.toNat ≤ ack.ackSeq.toNat ∨ seq.toNat ∈ ack.sacked := by
  have hafter := seqAfter_iff (a := seq) (b := ack.ackSeq) hseq (by omega) (by omega)
  rw [AckPayload.accepts, Bool.or_eq_true, Bool.not_eq_true', Bool.and_eq_true,
    decide_eq_true_iff]
  by_cases hlt : ack.ackSeq.toNat < seq.toNat
  · have hdist : (seq - ack.ackSeq - 1).toNat = seq.toNat - ack.ackSeq.toNat - 1 := by
      rw [BitVec.toNat_sub, BitVec.toNat_sub, show (1 : U32).toNat = 1 from rfl]
      omega
    rw [hdist, hafter.mpr hlt]
    simp only [Bool.true_eq_false, false_or]
    constructor
    · rintro ⟨hwin, hbit⟩
      exact .inr ⟨hlt, hwin, hbit⟩
    · rintro (hle | ⟨-, hwin, hbit⟩)
      · omega
      · exact ⟨hwin, hbit⟩
  · have hfalse : seqAfter seq ack.ackSeq = false := by
      rw [Bool.eq_false_iff]
      exact mt hafter.mp hlt
    rw [hfalse]
    constructor
    · intro _
      exact .inl (by omega)
    · intro _
      exact .inl rfl

/-- `ack_slots` for an acknowledgement that the receiver has sent. -/
theorem SendOk.acked (h : SendOk Q ch near far s)
    (hB : Bounded (linkPolicy Q ch) s.sender R) (hnext : s.next.toNat ≤ 2 ^ 31)
    {ack : AckPayload} (hack : (ack.ackSeq.toNat, ack.sacked) ∈ R.acks) :
    Sends Q ch near far R s
      { s with tx := s.tx.filter fun slot => ack.accepts slot.seq = false } := by
  have hbelow := (hB.acks_below _ hack).1
  have hexp := hB.exp_le
  change R.exp ≤ s.next.toNat at hexp
  simp only at hbelow
  have hiff : ∀ slot ∈ s.tx, ack.accepts slot.seq = true ↔
      slot.seq.toNat ∈ {n | n ≤ ack.ackSeq.toNat ∨ n ∈ ack.sacked} := by
    intro slot hslot
    have hlt := hB.sent_lt (hB.tx_sent ⟨slot, hslot, rfl⟩)
    change 1 ≤ slot.seq.toNat ∧ slot.seq.toNat < s.next.toNat at hlt
    exact accepts_iff hlt.1 (by omega) (by omega)
  have hsender := sender_free (p := fun slot => ack.accepts slot.seq) hiff
  refine ⟨h.free fun slot => ack.accepts slot.seq, ?_, rfl, rfl⟩
  rw [hsender]
  have hstep := Sender.Step.acked (P := linkPolicy Q ch) (s := s.sender) hack
  have hset : {x ∈ s.sender.tx | x.1 ∉ {n | n ≤ ack.ackSeq.toNat ∨ n ∈ ack.sacked}} =
      {x ∈ s.sender.tx | ack.ackSeq.toNat < x.1 ∧ x.1 ∉ ack.sacked} := by
    ext x
    simp [not_or]
  rw [hset]
  exact .single hstep

/-- On the TIME channel unsent frames may be superseded. -/
theorem SendOk.supersede (h : SendOk Q ch near far s) (htime : ch = channelTime) :
    Sends Q ch near far R s { s with tx := 0 } := by
  have hsender : Slice.sender { s with tx := 0 } = { s.sender with tx := ∅ } := by
    simp [Slice.sender]
  refine ⟨h.setTx (by simp), ?_, rfl, rfl⟩
  rw [hsender]
  exact .single (.supersede htime)

/-! ## Losses -/

theorem sender_event (key peer : Mac) (channel : ℕ) (reason : LostReason)
    (first last : U32) :
    (s.emit (.event .sent key peer channel reason first last)).sender =
      { s.sender with lost := s.sender.lost ∪ Set.Icc first.toNat last.toNat } := by
  have hreport : logged (Effect.report? .sent)
      [.event .sent key peer channel reason first last] = {(first.toNat, last.toNat)} :=
    logged_singleton rfl
  have hstored : logged Effect.stored? [.event .sent key peer channel reason first last] =
      ∅ := logged_singleton_none rfl
  have hdata : logged Effect.data? [.event .sent key peer channel reason first last] =
      ∅ := logged_singleton_none rfl
  have hlost : logged (Effect.lost? false)
      [.event .sent key peer channel reason first last] = ∅ := logged_singleton_none rfl
  simp [Slice.emit, Slice.sender, hreport, hstored, hdata, hlost, covered_insert]

theorem sender_lost {key : Mac} {packet : Packet} {lost : LostPayload}
    (hbody : packet.body = .lost lost) (hflag : lost.rsv = 0) :
    (s.emit (.send key packet)).sender =
      { s.sender with
        losts := insert (lost.seqFirst.toNat, lost.seqLast.toNat) s.sender.losts } := by
  obtain ⟨sessionId, srcMac, body⟩ := packet
  obtain rfl : body = .lost lost := hbody
  have hlost : logged (Effect.lost? false) [.send key ⟨sessionId, srcMac, .lost lost⟩] =
      {(lost.seqFirst.toNat, lost.seqLast.toNat)} := by
    refine logged_singleton ?_
    simp only [Effect.lost?, hflag]
    rfl
  have hstored : logged Effect.stored? [.send key ⟨sessionId, srcMac, .lost lost⟩] = ∅ :=
    logged_singleton_none rfl
  have hdata : logged Effect.data? [.send key ⟨sessionId, srcMac, .lost lost⟩] = ∅ :=
    logged_singleton_none rfl
  have hreport : logged (Effect.report? .sent) [.send key ⟨sessionId, srcMac,
      .lost lost⟩] = ∅ := logged_singleton_none rfl
  simp [Slice.emit, Slice.sender, hlost, hstored, hdata, hreport]

/-- Logging a loss keeps the invariant on a channel that may lose numbers. -/
theorem SendOk.emit_loss (h : SendOk Q ch near far s) (hlossy : Q.lossy) {e : Effect}
    (hstored : e.stored? = none) (haccepted : e.accepted? = none)
    (hproper : e.announces = true → Proper near far s.binding e) :
    SendOk Q ch near far (s.emit e) := by
  have hsent : (s.emit e).sender.sent = s.sender.sent := logged_append_none hstored s.log
  have hlog : (s.emit e).log.filterMap Effect.accepted? =
      s.log.filterMap Effect.accepted? := by
    simp [Slice.emit, haccepted]
  refine ⟨h.slots, ?_, ?_, ?_, ?_, ?_, ?_, fun hno => absurd hlossy hno⟩
  · rw [hsent]
    exact h.valid
  · rw [hsent, hlog]
    exact h.part
  · rw [hlog]
    exact h.sorted
  · rw [hlog]
    exact h.below
  · rw [hlog]
    exact h.lengths
  · intro e' he' hann
    rcases List.mem_append.mp he' with he' | he'
    · exact h.announced e' he' hann
    · rw [List.mem_singleton.mp he'] at hann ⊢
      exact hproper hann

/-- The receiver reported that it dropped a range. -/
theorem SendOk.dropped (h : SendOk Q ch near far s) (hlossy : Q.lossy) {first last : U32}
    (hle : first.toNat ≤ last.toNat) (hdrop : (first.toNat, last.toNat) ∈ R.drops)
    (key peer : Mac) (channel : ℕ) (reason : LostReason) :
    Sends Q ch near far R s
      (Slice.emit
        { s with tx := s.tx.filter fun slot => seqInRange slot.seq first last = false }
        (.event .sent key peer channel reason first last)) := by
  have hfree := sender_free (s := s) (p := fun slot => seqInRange slot.seq first last)
    (A := Set.Icc first.toNat last.toNat) fun slot _ => seqInRange_iff hle
  refine ⟨(h.free fun slot => seqInRange slot.seq first last).emit_loss hlossy rfl rfl
    (by simp [Effect.announces, Effect.lost?]), ?_, ?_, rfl⟩
  · rw [sender_event, hfree]
    exact .single (.dropped hdrop)
  · exact (Slice.recvPart_emit_silent ⟨rfl, rfl, rfl, rfl, rfl⟩ rfl).trans rfl

/-- `send_lost` on a slice: a report and a LOST packet without the flag. -/
theorem SendOk.announce (h : SendOk Q ch near far s) (key peer : Mac) (channel : ℕ)
    (reason : LostReason) (hlossy : Q.lossy) {first last : U32} {key' : Mac}
    {packet : Packet} {lost : LostPayload} (hbody : packet.body = .lost lost)
    (hflag : lost.rsv = 0) (hfirst : lost.seqFirst = first) (hlast : lost.seqLast = last)
    (hproper : Proper near far s.binding (.send key' packet)) :
    let s' := (s.emit (.event .sent key peer channel reason first last)).emit
      (.send key' packet)
    SendOk Q ch near far s' ∧ s'.recvPart = s.recvPart ∧
      s'.sender = { s.sender with
        losts := insert (first.toNat, last.toNat) s.sender.losts
        lost := s.sender.lost ∪ Set.Icc first.toNat last.toNat } := by
  intro s'
  refine ⟨(h.emit_loss hlossy rfl rfl (by simp [Effect.announces, Effect.lost?])).emit_loss
    hlossy rfl rfl fun _ => hproper, ?_, ?_⟩
  · have hsilent : (Effect.send key' packet).silentR := by
      obtain ⟨sessionId, srcMac, body⟩ := packet
      obtain rfl : body = .lost lost := hbody
      refine ⟨rfl, rfl, rfl, ?_, rfl⟩
      simp only [Effect.lost?, hflag]
      rfl
    exact (Slice.recvPart_emit_silent hsilent rfl).trans
      (Slice.recvPart_emit_silent ⟨rfl, rfl, rfl, rfl, rfl⟩ rfl)
  · rw [sender_lost hbody hflag, sender_event, hfirst, hlast]

/-- A frame is asked for that is no longer held. -/
theorem SendOk.disown (h : SendOk Q ch near far s) (hlossy : Q.lossy) (hallow : Q.disown)
    {seq : U32} (hnack : seq.toNat ∈ R.nacks) {key key' peer : Mac} {channel : ℕ}
    {reason : LostReason} {packet : Packet} {lost : LostPayload}
    (hbody : packet.body = .lost lost) (hflag : lost.rsv = 0)
    (hfirst : lost.seqFirst = seq) (hlast : lost.seqLast = seq)
    (hproper : Proper near far s.binding (.send key' packet)) :
    Sends Q ch near far R s
      ((s.emit (.event .sent key peer channel reason seq seq)).emit
        (.send key' packet)) := by
  obtain ⟨hok, hrecv, hsender⟩ := h.announce key peer channel reason hlossy hbody hflag
    hfirst hlast hproper
  refine ⟨hok, ?_, hrecv, rfl⟩
  rw [hsender]
  exact .single (.disown hnack hallow)

/-- Numbers are used up without a frame. -/
theorem SendOk.burn (h : SendOk Q ch near far s) (hlossy : Q.lossy) {last : U32}
    (hle : s.next.toNat ≤ last.toNat) (hlt : last.toNat < 2 ^ 32 - 1)
    {key key' peer : Mac} {channel : ℕ} {reason : LostReason} {packet : Packet}
    {lost : LostPayload} (hbody : packet.body = .lost lost) (hflag : lost.rsv = 0)
    (hfirst : lost.seqFirst = s.next) (hlast : lost.seqLast = last)
    (hproper : Proper near far s.binding (.send key' packet)) :
    Sends Q ch near far R s
      ((Slice.emit { s with next := last + 1 }
        (.event .sent key peer channel reason s.next last)).emit (.send key' packet)) := by
  have hsucc := toNat_succ hlt
  have hnext : SendOk Q ch near far { s with next := last + 1 } := by
    refine ⟨h.slots, h.valid, h.part, h.sorted, fun m hm => ?_, h.lengths, h.announced,
      h.lossless⟩
    have := h.below m hm
    change m.1 < (last + 1).toNat
    omega
  obtain ⟨hok, hrecv, hsender⟩ := hnext.announce key peer channel reason hlossy hbody hflag
    hfirst hlast hproper
  refine ⟨hok, ?_, hrecv, rfl⟩
  have hstep := Sender.Step.burn (P := linkPolicy Q ch) (r := R) (s := s.sender) hle hlossy
  rw [hsender]
  change Sender.Steps _ _ _ { s.sender with
    next := (last + 1).toNat
    losts := insert (s.next.toNat, last.toNat) s.sender.losts
    lost := s.sender.lost ∪ Set.Icc s.next.toNat last.toNat }
  rw [hsucc]
  exact .single hstep

end

end KeemashCore.Rel
