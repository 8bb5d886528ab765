import KeemashCore.Mesh.Receiver

/-!
# Numbers given up at the receiver

What the code does to a slice when numbers are lost: the receiver drops a range
for lack of buffers, an unfinished message expires, or the sender announces
numbers that will not come.

The code reports a loss only after it has drained the reorder buffer.  The link
reports it at once; `Defers` bridges the difference.
-/

namespace KeemashCore.Rel

open SlotTable SelectiveRepeat

section

variable {Q : Allow} {ch : ℕ} {S : Sender Frame} {s s' s'' : Slice}

/-! ## Reports and announcements -/

/-- The callback is told of a range this end will not receive. -/
theorem receiver_event (key peer : Mac) (channel : ℕ) (reason : LostReason)
    (first last : U32) :
    (s.emit (.event .received key peer channel reason first last)).receiver =
      s.receiver.report (Set.Icc first.toNat last.toNat) ∅ := by
  have hreport : logged (Effect.report? .received)
      [.event .received key peer channel reason first last] =
      {(first.toNat, last.toNat)} := logged_singleton rfl
  have hack : logged Effect.ack? [.event .received key peer channel reason first last] =
      ∅ := logged_singleton_none rfl
  have hnack : logged Effect.nack?
      [.event .received key peer channel reason first last] = ∅ :=
    logged_singleton_none rfl
  have hdrop : logged (Effect.lost? true)
      [.event .received key peer channel reason first last] = ∅ :=
    logged_singleton_none rfl
  simp [Slice.emit, Slice.receiver, Receiver.report, hreport, hack, hnack, hdrop,
    covered_insert, Effect.handed?]

/-- The sender is told that a range was dropped. -/
theorem receiver_drop {key : Mac} {packet : Packet} {lost : LostPayload}
    (hbody : packet.body = .lost lost) (hflag : lost.rsv = lostFlagReceiverDrop) :
    (s.emit (.send key packet)).receiver =
      s.receiver.report ∅ {(lost.seqFirst.toNat, lost.seqLast.toNat)} := by
  obtain ⟨sessionId, srcMac, body⟩ := packet
  obtain rfl : body = .lost lost := hbody
  have hdrop : logged (Effect.lost? true) [.send key ⟨sessionId, srcMac, .lost lost⟩] =
      {(lost.seqFirst.toNat, lost.seqLast.toNat)} := by
    refine logged_singleton ?_
    simp only [Effect.lost?, hflag]
    rfl
  have hack : logged Effect.ack? [.send key ⟨sessionId, srcMac, .lost lost⟩] = ∅ :=
    logged_singleton_none rfl
  have hnack : logged Effect.nack? [.send key ⟨sessionId, srcMac, .lost lost⟩] = ∅ :=
    logged_singleton_none rfl
  have hreport : logged (Effect.report? .received)
      [.send key ⟨sessionId, srcMac, .lost lost⟩] = ∅ := logged_singleton_none rfl
  simp [Slice.emit, Slice.receiver, Receiver.report, hreport, hack, hnack, hdrop,
    Effect.handed?]

theorem sendPart_drop {key : Mac} {packet : Packet} {lost : LostPayload}
    (hbody : packet.body = .lost lost) (hflag : lost.rsv = lostFlagReceiverDrop) :
    (s.emit (.send key packet)).sendPart = s.sendPart := by
  obtain ⟨sessionId, srcMac, body⟩ := packet
  obtain rfl : body = .lost lost := hbody
  refine Slice.sendPart_emit_silent ⟨rfl, rfl, ?_, rfl, rfl⟩
  simp only [Effect.lost?, hflag]
  rfl

/-- Reports do not enter the bounds, apart from the dropped ranges. -/
theorem Bounded.of_report {P : Policy Frame} {r : Receiver Frame} {A : Set ℕ}
    {D : Set (ℕ × ℕ)} (h : Bounded P S (r.report A D)) : Bounded P S r :=
  { h with drops_below := fun x hx => h.drops_below x (.inl hx) }

/-- Logging a report keeps the invariant on a channel that may lose numbers. -/
theorem RecvOk.report {e : Effect} {A : Set ℕ} {D : Set (ℕ × ℕ)}
    (h : RecvOk Q ch S s) (hlossy : Q.lossy) (hD : ∀ x ∈ D, RangeBelow S.next x)
    (hrecv : (s.emit e).receiver = s.receiver.report A D)
    (hdelivered : e.delivered? = none) : RecvOk Q ch S (s.emit e) where
  bounded := by
    rw [hrecv]
    exact { h.bounded with
      drops_below := fun x hx => hx.elim (h.bounded.drops_below x) (hD x) }
  ordered := by
    rw [hrecv]
    exact ⟨h.ordered.sorted, h.ordered.below⟩
  rx_hdr := h.rx_hdr
  rx_time := h.rx_time
  rx_nodup := h.rx_nodup
  pending_channel := h.pending_channel
  pending_ok := h.pending_ok
  slots := by
    rw [hrecv]
    exact h.slots
  time := h.time
  delivered := by
    rw [hrecv]
    change Delivered s.receiver.handed _
    simpa [Slice.emit, hdelivered] using h.delivered
  lossless := fun hnot => absurd hlossy hnot
  progress := fun hnot => absurd hlossy hnot

/-! ## Dropping a range -/

/-- The slice after `forgetRange`. -/
def Slice.forget (s : Slice) (key peer : Mac) (ch : ℕ) (reason : LostReason)
    (first last : U32) : Slice :=
  { s with
    rx := s.rx.filter fun slot => seqInRange slot.seq first last = false
    reassembly := s.reassembly.filter fun slot =>
      (seqInRange slot.firstSeq first last || seqInRange slot.lastSeq first last ||
        seqInRange first slot.firstSeq slot.lastSeq) = false
    log := s.log ++ [.event .received key peer ch reason first last] }

theorem receiver_forget {key peer : Mac} {reason : LostReason} {first last : U32}
    (hrange : first.toNat ≤ last.toNat) :
    (s.forget key peer ch reason first last).receiver =
      { s.receiver with
        rx := {x ∈ s.receiver.rx | x.1 ∉ Set.Icc first.toNat last.toNat}
        lost := s.receiver.lost ∪ Set.Icc first.toNat last.toNat } := by
  have hrx : {x | ∃ slot ∈ s.rx.filter fun slot : RxSlot =>
        seqInRange slot.seq first last = false, slot.numbered = x} =
      {x ∈ s.receiver.rx | x.1 ∉ Set.Icc first.toNat last.toNat} := by
    ext x
    simp only [Multiset.mem_filter, Set.mem_ofPred_eq, Slice.receiver]
    constructor
    · rintro ⟨slot, ⟨hslot, hout⟩, rfl⟩
      refine ⟨⟨slot, hslot, rfl⟩, fun hin => ?_⟩
      have hseq : seqInRange slot.seq first last = true := (seqInRange_iff hrange).mpr hin
      rw [hout] at hseq
      exact absurd hseq (by simp)
    · rintro ⟨⟨slot, hslot, rfl⟩, hout⟩
      refine ⟨slot, ⟨hslot, ?_⟩, rfl⟩
      by_contra hin
      exact hout ((seqInRange_iff hrange).mp (by simpa using hin))
  have hevent := receiver_event (s := s) key peer ch reason first last
  calc
    (s.forget key peer ch reason first last).receiver =
        { (s.emit (.event .received key peer ch reason first last)).receiver with
          rx := {x | ∃ slot ∈ s.rx.filter fun slot : RxSlot =>
            seqInRange slot.seq first last = false, slot.numbered = x} } := rfl
    _ = _ := by
      rw [hevent, hrx]
      simp [Receiver.report]

theorem forget_load_le (key peer : Mac) (reason : LostReason) (first last : U32) :
    (s.forget key peer ch reason first last).load ≤ s.load := by
  have := Multiset.card_le_card (Multiset.filter_le
    (fun slot : RxSlot => seqInRange slot.seq first last = false) s.rx)
  simp only [Slice.load, Slice.forget]
  omega

theorem sendPart_forget (key peer : Mac) (reason : LostReason) (first last : U32) :
    (s.forget key peer ch reason first last).sendPart = s.sendPart :=
  Slice.sendPart_emit_silent (s := s)
    (e := .event .received key peer ch reason first last) ⟨rfl, rfl, rfl, rfl, rfl⟩

/-- Forgetting a range on a channel that may lose numbers keeps the invariant. -/
theorem RecvOk.forget (h : RecvOk Q ch S s) (hlossy : Q.lossy) (key peer : Mac)
    (reason : LostReason) {first last : U32} (hrange : first.toNat ≤ last.toNat) :
    RecvOk Q ch S (s.forget key peer ch reason first last) := by
  have hrecv : (s.forget key peer ch reason first last).receiver = _ := receiver_forget hrange
  have hle : ∀ slot ∈ (s.forget key peer ch reason first last).rx, slot ∈ s.rx :=
    fun slot hs => Multiset.mem_of_mem_filter hs
  refine ⟨⟨?_, ?_, fun slot hs => h.rx_hdr slot (hle slot hs),
    fun ht slot hs => h.rx_time ht slot (hle slot hs), ?_, h.pending_channel,
    h.pending_ok, ?_, ?_, ?_, fun h => absurd hlossy h⟩, fun h => absurd hlossy h⟩
  · rw [hrecv]
    exact { h.bounded with rx_sent := (Set.sep_subset _ _).trans h.bounded.rx_sent }
  · rw [hrecv]
    exact ⟨h.ordered.sorted, h.ordered.below⟩
  · exact Multiset.nodup_of_le
      (Multiset.map_le_map (Multiset.filter_le _ _)) h.rx_nodup
  · rw [hrecv]
    exact fun slot hs => h.slots slot (Multiset.mem_of_mem_filter hs)
  · intro ht
    simp [Slice.forget, h.time ht]
  · rw [hrecv]
    have hlog : List.filterMap Effect.delivered?
        (s.forget key peer ch reason first last).log =
        s.log.filterMap Effect.delivered? ++ [] := List.filterMap_append ..
    rw [hlog, List.append_nil]
    exact h.delivered

/-- Moving `expected` forward on a channel that may lose numbers keeps the
invariant. -/
theorem RecvOk.advance (h : RecvOk Q ch S s) (hlossy : Q.lossy) {seq : U32}
    (hge : s.expected.toNat ≤ seq.toNat) (hle : seq.toNat ≤ S.next) :
    RecvOk Q ch S { s with expected := seq } where
  bounded := h.bounded.advance hge hle subset_rfl (fun _ hn => .inl hn)
    (fun _ hx => .inl hx) (fun _ hx => .inl hx) rfl rfl
  ordered := ⟨h.ordered.sorted, fun x hx => (h.ordered.below x hx).trans_le hge⟩
  rx_hdr := h.rx_hdr
  rx_time := h.rx_time
  rx_nodup := h.rx_nodup
  pending_channel := h.pending_channel
  pending_ok := h.pending_ok
  slots := h.slots
  time := h.time
  delivered := h.delivered
  lossless := h.lossless
  progress := fun h => absurd hlossy h

/-- Adding a range ahead to the pending numbers. -/
theorem RecvOk.postpone (h : RecvOk Q ch S s) (hlossy : Q.lossy)
    {table : List (Option PendingLostRange)} {x : ℕ × ℕ}
    (hchannel : ∀ range ∈ held table, range.channel = ch)
    (hok : PendingOk ch none table) (hx : RangeBelow S.next x)
    (hnumbers : pendingNumbers ch table =
      pendingNumbers ch s.pending ∪ Set.Icc x.1 x.2) :
    RecvOk Q ch S { s with pending := table } ∧
      Slice.receiver { s with pending := table } =
        { s.receiver with pend := s.receiver.pend ∪ Set.Icc x.1 x.2 } := by
  have hpend : (Slice.receiver { s with pending := table }).pend =
      s.receiver.pend ∪ Set.Icc x.1 x.2 := by
    rw [receiver_pend hchannel, hnumbers, receiver_pend h.pending_channel]
  have hrecv : Slice.receiver { s with pending := table } =
      { s.receiver with pend := s.receiver.pend ∪ Set.Icc x.1 x.2 } := by
    rw [← hpend]
    rfl
  refine ⟨⟨⟨?_, ?_, h.rx_hdr, h.rx_time, h.rx_nodup, hchannel, hok, h.slots, h.time,
    h.delivered, fun h => absurd hlossy h⟩, fun h => absurd hlossy h⟩, hrecv⟩
  · rw [hrecv]
    refine h.bounded.advance le_rfl h.bounded.exp_le subset_rfl ?_
      (fun _ hx => .inl hx) (fun _ hx => .inl hx) rfl rfl
    rintro n (hn | hn)
    · exact .inl hn
    · exact .inr ⟨hx.1.trans hn.1, hn.2.trans_lt hx.2.2⟩
  · rw [hrecv]
    exact ⟨h.ordered.sorted, h.ordered.below⟩

/-! ## Deferred reports -/

/-- `s'` is `s` after numbers were given up, before the report `A` or the
announcement `D` is made. -/
structure Defers (Q : Allow) (ch : ℕ) (S : Sender Frame) (A : Set ℕ) (D : Set (ℕ × ℕ))
    (d : ℤ) (s s' : Slice) : Prop where
  ok : RecvOk Q ch S s'
  lossy : Q.lossy
  steps : Receiver.Steps (linkPolicy Q ch) S s.receiver (s'.receiver.report A D)
  below : ∀ x ∈ D, RangeBelow S.next x
  send : s'.sendPart = s.sendPart
  binding : s'.binding = s.binding
  load : (s'.load : ℤ) ≤ s.load + d

/-- The report is made after further steps. -/
theorem Defers.finish {A : Set ℕ} {D : Set (ℕ × ℕ)} {d d' : ℤ} {e : Effect}
    (h : Defers Q ch S A D d s s') (h' : Gains Q ch S d' s' s'')
    (hrecv : (s''.emit e).receiver = s''.receiver.report A D)
    (hsend : (s''.emit e).sendPart = s''.sendPart) (hdelivered : e.delivered? = none) :
    Gains Q ch S (d + d') s (s''.emit e) where
  ok := h'.ok.report h.lossy h.below hrecv hdelivered
  steps := by
    rw [hrecv]
    exact h.steps.trans (h'.steps.report A D)
  send := hsend.trans (h'.send.trans h.send)
  binding := h'.binding.trans h.binding
  load := by
    have h1 := h.load
    have h2 := h'.load
    change (s''.load : ℤ) ≤ _
    omega

/-! ## The receiver drops a range -/

/-- The range covers `expected`: the receiver moves past it. -/
theorem Defers.dropHere (h : RecvOk Q ch S s) (hS : Honest Q ch S) {first last : U32}
    (hd : Droppable (linkPolicy Q ch) S first.toNat last.toNat)
    (hin : seqInRange s.expected first last = true)
    (hover : (∀ n ∈ Set.Icc first.toNat last.toNat, n ∈ s.receiver.pend →
      n + 1 ∈ s.receiver.pend) ∨ Q.overrun) (key peer : Mac) (reason : LostReason) :
    Defers Q ch S ∅ {(first.toNat, last.toNat)} 0 s
      { s.forget key peer ch reason first last with expected := last + 1 } := by
  have hrange := hd.range h.bounded.toFramed
  obtain ⟨hpos, hle, hlt⟩ := hrange
  have hnext := hS.next_le
  simp only at hpos hle hlt
  rw [seqInRange_iff hle] at hin
  have hlast : (last + 1).toNat = last.toNat + 1 := toNat_succ (by omega)
  have hforget : RecvOk Q ch S (s.forget key peer ch reason first last) :=
    h.forget hd.1 key peer reason hle
  have hsend : (s.forget key peer ch reason first last).sendPart = s.sendPart :=
    sendPart_forget key peer reason first last
  refine ⟨hforget.advance hd.1 ?_ ?_, hd.1, .single ?_, ?_, hsend, rfl, ?_⟩
  · change s.expected.toNat ≤ _
    omega
  · omega
  · have hstep := Receiver.Step.dropHere (P := linkPolicy Q ch) (r := s.receiver) hd
      hin.1 hin.2 hover
    have hrecv : Slice.receiver
        { s.forget key peer ch reason first last with expected := last + 1 } =
        { (s.forget key peer ch reason first last).receiver with
          exp := last.toNat + 1 } := by
      rw [← hlast]
      rfl
    rw [hrecv, receiver_forget hle]
    simpa [Receiver.report, Receiver.drop] using hstep
  · rintro x rfl
    exact ⟨hpos, hle, hlt⟩
  · have hload : (s.forget key peer ch reason first last).load ≤ s.load :=
      forget_load_le key peer reason first last
    change ((s.forget key peer ch reason first last).load : ℤ) ≤ _
    omega

/-- The range lies behind `expected`: nothing moves. -/
theorem Defers.dropPast (h : RecvOk Q ch S s) {first last : U32}
    (hd : Droppable (linkPolicy Q ch) S first.toNat last.toNat)
    (hlt : last.toNat < s.expected.toNat) (key peer : Mac) (reason : LostReason) :
    Defers Q ch S ∅ {(first.toNat, last.toNat)} 0 s
      (s.forget key peer ch reason first last) := by
  have hrange := hd.range h.bounded.toFramed
  refine ⟨h.forget hd.1 key peer reason hrange.2.1, hd.1, .single ?_, ?_,
    sendPart_forget key peer reason first last, rfl, ?_⟩
  · have hstep := Receiver.Step.dropPast (P := linkPolicy Q ch) (r := s.receiver) hd hlt
    rw [receiver_forget hrange.2.1]
    simpa [Receiver.report, Receiver.drop] using hstep
  · rintro x rfl
    exact hrange
  · have hload : (s.forget key peer ch reason first last).load ≤ s.load :=
      forget_load_le key peer reason first last
    omega

/-- The range lies ahead: its numbers become pending. -/
theorem Defers.dropAhead (h : RecvOk Q ch S s) {first last : U32}
    {table : List (Option PendingLostRange)}
    (hd : Droppable (linkPolicy Q ch) S first.toNat last.toNat)
    (hlt : s.expected.toNat < first.toNat)
    (hchannel : ∀ range ∈ held table, range.channel = ch)
    (hpending : PendingOk ch none table)
    (hnumbers : pendingNumbers ch table =
      pendingNumbers ch s.pending ∪ Set.Icc first.toNat last.toNat)
    (hcard : (held table).card ≤ (held s.pending).card + 1)
    (key peer : Mac) (reason : LostReason) :
    Defers Q ch S ∅ {(first.toNat, last.toNat)} 1 s
      { s.forget key peer ch reason first last with pending := table } := by
  have hrange := hd.range h.bounded.toFramed
  have hforget : RecvOk Q ch S (s.forget key peer ch reason first last) :=
    h.forget hd.1 key peer reason hrange.2.1
  obtain ⟨hok, hrecv⟩ := hforget.postpone hd.1 hchannel hpending hrange hnumbers
  have hsend : (s.forget key peer ch reason first last).sendPart = s.sendPart :=
    sendPart_forget key peer reason first last
  refine ⟨hok, hd.1, .single ?_, ?_, hsend, rfl, ?_⟩
  · have hstep := Receiver.Step.dropAhead (P := linkPolicy Q ch) (r := s.receiver) hd hlt
    rw [hrecv, receiver_forget hrange.2.1]
    simpa [Receiver.report, Receiver.drop] using hstep
  · rintro x rfl
    exact hrange
  · have hload : (s.forget key peer ch reason first last).load ≤ s.load :=
      forget_load_le key peer reason first last
    simp only [Slice.load] at hload ⊢
    change 2 * (s.forget key peer ch reason first last).rx.card +
      (held s.pending).card ≤ _ at hload
    omega

/-! ## The sender announces a range -/

/-- An announcement can only come on a channel that may lose numbers. -/
theorem Honest.lossy_of_mem (hS : Honest Q ch S) {x : ℕ × ℕ} (h : x ∈ S.losts) :
    Q.lossy := by
  by_contra hnot
  rw [hS.lossless hnot] at h
  exact h

theorem Defers.lostHere (h : RecvOk Q ch S s) (hS : Honest Q ch S) {first last : U32}
    (hmem : (first.toNat, last.toNat) ∈ S.losts)
    (hin : seqInRange s.expected first last = true)
    (hrx : s.receiver.exp ∉ s.receiver.buffered)
    (hpend : s.receiver.exp ∉ s.receiver.pend) :
    Defers Q ch S (Set.Icc first.toNat last.toNat) ∅ 0 s
      { s with expected := last + 1 } := by
  have hlossy := hS.lossy_of_mem hmem
  obtain ⟨hpos, hle, hlt⟩ := h.bounded.losts_below _ hmem
  have hnext := hS.next_le
  simp only at hpos hle hlt
  rw [seqInRange_iff hle] at hin
  have hlast : (last + 1).toNat = last.toNat + 1 := toNat_succ (by omega)
  refine ⟨h.advance hlossy (by omega) (by omega), hlossy, .single ?_, by simp, rfl, rfl,
    by simp [Slice.load]⟩
  have hstep := Receiver.Step.lostHere (P := linkPolicy Q ch) (r := s.receiver) hmem
    hin.1 hin.2 hrx hpend
  have hrecv : Slice.receiver { s with expected := last + 1 } =
      { s.receiver with exp := last.toNat + 1 } := by
    rw [← hlast]
    rfl
  rw [hrecv]
  exact hstep

theorem Defers.lostPast (h : RecvOk Q ch S s) (hS : Honest Q ch S) {first last : U32}
    (hmem : (first.toNat, last.toNat) ∈ S.losts)
    (hlt : last.toNat < s.expected.toNat) :
    Defers Q ch S (Set.Icc first.toNat last.toNat) ∅ 0 s s :=
  ⟨h, hS.lossy_of_mem hmem, .single (.lostPast hmem hlt), by simp, rfl, rfl, by simp⟩

theorem Defers.lostAhead (h : RecvOk Q ch S s) (hS : Honest Q ch S) {first last : U32}
    {table : List (Option PendingLostRange)}
    (hmem : (first.toNat, last.toNat) ∈ S.losts)
    (hlt : s.expected.toNat < first.toNat)
    (hchannel : ∀ range ∈ held table, range.channel = ch)
    (hpending : PendingOk ch none table)
    (hnumbers : pendingNumbers ch table =
      pendingNumbers ch s.pending ∪ Set.Icc first.toNat last.toNat)
    (hcard : (held table).card ≤ (held s.pending).card + 1) :
    Defers Q ch S (Set.Icc first.toNat last.toNat) ∅ 1 s
      { s with pending := table } := by
  have hlossy := hS.lossy_of_mem hmem
  have hrange := h.bounded.losts_below _ hmem
  obtain ⟨hok, hrecv⟩ := h.postpone hlossy hchannel hpending hrange hnumbers
  refine ⟨hok, hlossy, .single ?_, by simp, rfl, rfl, ?_⟩
  · have hstep := Receiver.Step.lostAhead (P := linkPolicy Q ch) (r := s.receiver)
      hmem hlt
    rw [hrecv]
    exact hstep
  · simp only [Slice.load]
    omega

/-! ## A message expires -/

/-- A slot in use belongs to a message of which a frame was handed off. -/
theorem RecvOk.message (h : RecvOk Q ch S s) (hS : Honest Q ch S) {slot : ReassemblySlot}
    (hslot : slot ∈ s.reassembly) :
    ∃ i f, (slot.firstSeq.toNat + i, f) ∈ s.receiver.handed ∧ f.fragmentIndex = i ∧
      f.fragmentCount = slot.fragmentCount ∧ 1 ≤ slot.fragmentCount ∧
      slot.lastSeq.toNat = slot.firstSeq.toNat + slot.fragmentCount - 1 ∧
      RangeBelow S.next (slot.firstSeq.toNat, slot.lastSeq.toNat) := by
  obtain ⟨hfits, i, hi⟩ := h.slots slot hslot
  obtain ⟨hic, f, hf, hholds⟩ := hfits.part i hi
  have hsent := h.bounded.handed_sent _ hf
  have hmessage := message_range h.bounded hS hsent
  rw [hholds.index, hholds.count] at hmessage
  have hnext := hS.next_le
  have hlastSeq : slot.lastSeq.toNat =
      slot.firstSeq.toNat + slot.fragmentCount - 1 := by
    rw [ReassemblySlot.lastSeq, BitVec.toNat_sub, BitVec.toNat_add, BitVec.toNat_ofNat,
      show (1 : U32).toNat = 1 from rfl]
    omega
  exact ⟨i, f, hf, hholds.index, hholds.count, by omega, hlastSeq,
    by omega, by simp only; omega, by simp only; omega⟩

/-- The fragment timeout reports the whole message of a slot and frees it. -/
theorem RecvOk.expire (h : RecvOk Q ch S s) (hS : Honest Q ch S) (hlossy : Q.lossy)
    {slot : ReassemblySlot} {rest : Multiset ReassemblySlot}
    (hslot : s.reassembly = slot ::ₘ rest)
    (hpast : slot.lastSeq.toNat < s.expected.toNat ∨ Q.expireAhead)
    {key key' peer : Mac} {channel : ℕ} {reason : LostReason} {packet : Packet}
    {lost : LostPayload} (hbody : packet.body = .lost lost)
    (hflag : lost.rsv = lostFlagReceiverDrop) (hfirst : lost.seqFirst = slot.firstSeq)
    (hlast : lost.seqLast = slot.lastSeq) :
    Gains Q ch S 0 s
      { (s.emit (.event .received key peer channel reason slot.firstSeq
          slot.lastSeq)).emit (.send key' packet) with reassembly := rest } := by
  obtain ⟨i, f, hf, hindex, hcount, hpos, hlastSeq, hbelow⟩ :=
    h.message hS (hslot ▸ Multiset.mem_cons_self slot rest)
  have hlo : (linkPolicy Q ch).lo (slot.firstSeq.toNat + i) f = slot.firstSeq.toNat := by
    simp only [linkPolicy, hindex]
    omega
  have hhi : (linkPolicy Q ch).hi (slot.firstSeq.toNat + i) f = slot.lastSeq.toNat := by
    simp only [linkPolicy, hindex, hcount]
    omega
  set e : Effect := .event .received key peer channel reason slot.firstSeq slot.lastSeq
    with he
  have hevent := receiver_event (s := s) key peer channel reason slot.firstSeq
    slot.lastSeq
  have hdrop : ((s.emit e).emit (.send key' packet)).receiver = _ :=
    receiver_drop hbody hflag
  have hok := (h.report hlossy (by simp) hevent rfl).report hlossy (D :=
    {(slot.firstSeq.toNat, slot.lastSeq.toNat)}) (by rintro x rfl; exact hbelow)
    (by rw [hdrop, hfirst, hlast]) rfl
  refine ⟨⟨{ hok.toRecvCore with
      slots := fun other hother => hok.slots other ?_
      time := fun ht => ?_ }, fun hnot => absurd hlossy hnot⟩, ?_, ?_, rfl, ?_⟩
  · change other ∈ s.reassembly
    rw [hslot]
    exact Multiset.mem_cons_of_mem hother
  · have := h.time ht
    rw [hslot] at this
    exact absurd this (Multiset.cons_ne_zero)
  · have hstep := Receiver.Step.expire (P := linkPolicy Q ch) (s := S) hf hlossy
      (by rw [hhi]; exact hpast)
    rw [hlo, hhi] at hstep
    have hrecv : Slice.receiver
        { (s.emit e).emit (.send key' packet) with reassembly := rest } =
        s.receiver.report (Set.Icc slot.firstSeq.toNat slot.lastSeq.toNat)
          {(slot.firstSeq.toNat, slot.lastSeq.toNat)} := by
      change ((s.emit e).emit (.send key' packet)).receiver = _
      rw [hdrop, hevent, Receiver.report_report, hfirst, hlast, Set.union_empty,
        Set.empty_union]
    rw [hrecv]
    exact .single hstep
  · have hsend : ((s.emit e).emit (.send key' packet)).sendPart = _ :=
      sendPart_drop hbody hflag
    exact hsend.trans (Slice.sendPart_emit_silent ⟨rfl, rfl, rfl, rfl, rfl⟩)
  · change (s.load : ℤ) ≤ _
    omega

end

end KeemashCore.Rel
