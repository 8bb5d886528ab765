import KeemashCore.Mesh.Reassembly

/-!
# A slice as the receiver of a link

`RecvOk` is the representation invariant of the receive path on one channel of
one peer, relative to the sender at the other end.  The lemmas of this file take
the assignments that the code makes to a slice and show that they keep the
invariant and are steps of the selective-repeat receiver.
-/

namespace KeemashCore.Rel

open SlotTable SelectiveRepeat

/-! ## The link -/

/-- The irregular steps that a run may take. -/
structure Allow where
  bufferPending : Prop
  overrun : Prop
  expireAhead : Prop
  disown : Prop
  lossy : Prop

/-- The selective-repeat link of one channel. -/
def linkPolicy (Q : Allow) (ch : ℕ) : Policy Frame where
  window := reliableWindow
  lo n f := n - f.fragmentIndex
  hi n f := n - f.fragmentIndex + f.fragmentCount - 1
  latest := ch = channelTime
  bufferPending := Q.bufferPending
  overrun := Q.overrun
  expireAhead := Q.expireAhead
  disown := Q.disown
  lossy := Q.lossy

/-- A sender that runs `keemash_rel_submit` and has used fewer than `2 ^ 31`
numbers. -/
structure Honest (Q : Allow) (ch : ℕ) (S : Sender Frame) : Prop where
  valid : ∀ x ∈ S.sent, x.2.Valid ch
  next_le : S.next ≤ 2 ^ 31
  stream : ∀ x ∈ S.sent, ∀ y ∈ S.sent,
    x.1 - x.2.fragmentIndex = y.1 - y.2.fragmentIndex → x.2.streamId = y.2.streamId
  lossless : ¬Q.lossy → S.losts = ∅

/-! ## Effects on the two views -/

/-- The receiver's view of an effect that it does not see. -/
def Effect.silentR (e : Effect) : Prop :=
  e.handed? = none ∧ e.ack? = none ∧ e.nack? = none ∧ e.lost? true = none ∧
    e.report? .received = none

/-- The sender's view of an effect that it does not see. -/
def Effect.silentS (e : Effect) : Prop :=
  e.stored? = none ∧ e.data? = none ∧ e.lost? false = none ∧
    e.report? .sent = none ∧ e.accepted? = none

/-- A LOST packet without the receiver-drop flag was sent. -/
def Effect.announces (e : Effect) : Bool :=
  (e.lost? false).isSome

/-- What the send path keeps in a slice. -/
def Slice.sendPart (s : Slice) : U32 × Multiset TxSlot × Sender Frame ×
    List (ℕ × U32 × List UInt8) × List Effect × Set (ℕ × ℕ) :=
  (s.next, s.tx, s.sender, s.log.filterMap Effect.accepted?,
    s.log.filter Effect.announces, logged (Effect.report? .sent) s.log)

/-- What the receive path keeps in a slice. -/
def Slice.recvPart (s : Slice) :
    U32 × Multiset RxSlot × Multiset ReassemblySlot × List (Option PendingLostRange) ×
      Receiver Frame × List (U32 × List UInt8) × Set (ℕ × ℕ) :=
  (s.expected, s.rx, s.reassembly, s.pending, s.receiver,
    s.log.filterMap Effect.delivered?, logged (Effect.report? .received) s.log)

/-- Append to the log of a slice. -/
def Slice.emit (s : Slice) (e : Effect) : Slice :=
  { s with log := s.log ++ [e] }

theorem Slice.receiver_emit_silent {s : Slice} {e : Effect} (h : e.silentR) :
    (s.emit e).receiver = s.receiver := by
  obtain ⟨h1, h2, h3, h4, h5⟩ := h
  simp [Slice.emit, Slice.receiver, h1, logged_singleton_none h2,
    logged_singleton_none h3, logged_singleton_none h4, logged_singleton_none h5]

theorem Slice.sendPart_emit_silent {s : Slice} {e : Effect} (h : e.silentS) :
    (s.emit e).sendPart = s.sendPart := by
  obtain ⟨h1, h2, h3, h4, h5⟩ := h
  simp [Slice.emit, Slice.sendPart, Slice.sender, logged_singleton_none h1,
    logged_singleton_none h2, logged_singleton_none h3, logged_singleton_none h4, h5,
    Effect.announces, h3]

/-! ## The invariant -/

/-- The slot holds exactly the fragments handed off so far of the message in
progress. -/
structure ReassemblySlot.InProgress (slot : ReassemblySlot) (exp : ℕ) : Prop where
  begun : slot.firstSeq.toNat < exp
  unfinished : exp < slot.firstSeq.toNat + slot.fragmentCount
  mask : ∀ i, slot.receivedMask.getLsbD i = true ↔ i < exp - slot.firstSeq.toNat

/-- Reassembly on a channel that gives nothing up. -/
structure Progress (S : Sender Frame) (s : Slice) : Prop where
  card : s.reassembly.card ≤ 1
  slot : ∀ slot ∈ s.reassembly, slot.InProgress s.receiver.exp
  fresh : s.reassembly = 0 → ∀ f, (s.receiver.exp, f) ∈ S.sent → f.fragmentIndex = 0

/-- The representation invariant of the receive path, without `Progress`. -/
structure RecvCore (Q : Allow) (ch : ℕ) (S : Sender Frame) (s : Slice) : Prop where
  bounded : Bounded (linkPolicy Q ch) S s.receiver
  ordered : s.receiver.Ordered
  rx_hdr : ∀ slot ∈ s.rx, slot.hdr.seq = slot.seq
  rx_time : ch = channelTime → ∀ slot ∈ s.rx, slot.hdr.fragmentCount = 1
  rx_nodup : (s.rx.map RxSlot.seq).Nodup
  pending_channel : ∀ range ∈ held s.pending, range.channel = ch
  pending_ok : PendingOk ch none s.pending
  slots : ∀ slot ∈ s.reassembly, slot.Fits s.receiver.handed ∧ slot.Started
  time : ch = channelTime → s.reassembly = 0
  delivered : Delivered s.receiver.handed (s.log.filterMap Effect.delivered?)
  lossless : ¬Q.lossy → held s.pending = 0 ∧
    logged (Effect.report? .received) s.log = ∅

/-- The representation invariant of the receive path. -/
structure RecvOk (Q : Allow) (ch : ℕ) (S : Sender Frame) (s : Slice) : Prop
    extends RecvCore Q ch S s where
  progress : ¬Q.lossy → ch ≠ channelTime → Progress S s

/-- Measure of what is left to drain. -/
def Slice.load (s : Slice) : ℕ :=
  2 * s.rx.card + (held s.pending).card

/-- Going from `s` to `s'` keeps the invariant and takes receiver steps only. -/
structure Gains (Q : Allow) (ch : ℕ) (S : Sender Frame) (d : ℤ) (s s' : Slice) :
    Prop where
  ok : RecvOk Q ch S s'
  steps : Receiver.Steps (linkPolicy Q ch) S s.receiver s'.receiver
  send : s'.sendPart = s.sendPart
  binding : s'.binding = s.binding
  load : (s'.load : ℤ) ≤ s.load + d

theorem Gains.refl {Q : Allow} {ch : ℕ} {S : Sender Frame} {s : Slice}
    (h : RecvOk Q ch S s) : Gains Q ch S 0 s s :=
  ⟨h, .refl, rfl, rfl, by omega⟩

theorem Gains.trans {Q : Allow} {ch : ℕ} {S : Sender Frame} {d d' : ℤ}
    {s s' s'' : Slice} (h : Gains Q ch S d s s') (h' : Gains Q ch S d' s' s'') :
    Gains Q ch S (d + d') s s'' :=
  ⟨h'.ok, h.steps.trans h'.steps, h'.send.trans h.send, h'.binding.trans h.binding,
    by have := h.load; have := h'.load; omega⟩

theorem Gains.mono {Q : Allow} {ch : ℕ} {S : Sender Frame} {d d' : ℤ}
    {s s' : Slice} (h : Gains Q ch S d s s') (hd : d ≤ d') : Gains Q ch S d' s s' :=
  { h with load := by have := h.load; omega }

section

variable {Q : Allow} {ch : ℕ} {S : Sender Frame} {s s' : Slice}

/-! ## Numbers -/

theorem expected_lt (hS : Honest Q ch S) (h : RecvCore Q ch S s) :
    1 ≤ s.expected.toNat ∧ s.expected.toNat ≤ 2 ^ 31 :=
  ⟨h.bounded.exp_pos, h.bounded.exp_le.trans hS.next_le⟩

theorem toNat_succ {a : U32} (h : a.toNat < 2 ^ 32 - 1) :
    (a + 1).toNat = a.toNat + 1 := by
  rw [BitVec.toNat_add, show (1 : U32).toNat = 1 from rfl]
  omega

theorem toNat_pred {a : U32} (h : 1 ≤ a.toNat) : (a - 1).toNat = a.toNat - 1 := by
  rw [BitVec.toNat_sub, show (1 : U32).toNat = 1 from rfl]
  have := a.isLt
  omega

/-- The numbers pending in a slice. -/
theorem receiver_pend (h : ∀ range ∈ held s.pending, range.channel = ch) :
    s.receiver.pend = pendingNumbers ch s.pending := by
  ext n
  simp only [Slice.receiver, covered, pendingNumbers, Set.mem_ofPred_eq]
  constructor
  · rintro ⟨_, ⟨range, hmem, rfl⟩, hn⟩
    obtain ⟨i, hi⟩ := mem_held_iff_entryAt.mp hmem
    exact ⟨i, range, ⟨hi, h range hmem⟩, hn⟩
  · rintro ⟨i, range, hi, hn⟩
    exact ⟨_, ⟨range, mem_held_of_entryAt hi.1, rfl⟩, hn⟩

theorem pending_entry (h : RecvCore Q ch S s) {i : ℕ} {range : PendingLostRange}
    (hi : entryAt s.pending i = some range) : OnChannel ch s.pending i range :=
  ⟨hi, h.pending_channel range (mem_held_of_entryAt hi)⟩

/-- The pending block around an entry is the entry. -/
theorem pending_maximal (h : RecvCore Q ch S s) {i : ℕ} {range : PendingLostRange}
    (hi : entryAt s.pending i = some range) :
    (∀ n, n + 1 = range.first.toNat → n ∉ pendingNumbers ch s.pending) ∧
      range.last.toNat + 1 ∉ pendingNumbers ch s.pending := by
  have hon := pending_entry h hi
  have hseq := h.pending_ok.range i range hon (by simp)
  have happart : ∀ j r, OnChannel ch s.pending j r → r = range ∨
      Apart range.range r.range := by
    intro j r hj
    by_cases hji : i = j
    · subst hji
      have := hj.1
      rw [hi, Option.some.injEq] at this
      exact .inl this.symm
    · exact .inr (h.pending_ok.apart i j range r hon hj hji (by simp) (by simp))
  constructor
  · rintro n hn ⟨j, r, hj, hlow, hhigh⟩
    rcases happart j r hj with rfl | h
    · simp only [PendingLostRange.range] at hlow
      omega
    · simp only [PendingLostRange.range, Apart] at hlow hhigh h
      have := hseq.1
      omega
  · rintro ⟨j, r, hj, hlow, hhigh⟩
    rcases happart j r hj with rfl | h
    · simp only [PendingLostRange.range] at hhigh
      omega
    · simp only [PendingLostRange.range, Apart] at hlow hhigh h
      have := hseq.1
      omega

/-! ## Skipping pending numbers -/

theorem mem_held_set_none {α : Type} {table : List (Option α)} {i : ℕ} {a : α}
    (h : a ∈ held (table.set i none)) : a ∈ held table := by
  obtain ⟨j, hj⟩ := mem_held_iff_entryAt.mp h
  rw [entryAt_set_none] at hj
  split at hj
  · exact absurd hj (by simp)
  · exact mem_held_of_entryAt hj

/-- A pending range that covers `expected` is skipped and freed. -/
theorem RecvOk.skip (h : RecvOk Q ch S s) {i : ℕ}
    {range : PendingLostRange} (hi : entryAt s.pending i = some range)
    (hin : seqInRange s.expected range.first range.last = true) :
    Gains Q ch S (-1) s
      { s with expected := range.last + 1, pending := s.pending.set i none } := by
  have hcore := h.toRecvCore
  have hon := pending_entry hcore hi
  have hseq := h.pending_ok.range i range hon (by simp)
  rw [seqInRange_iff hseq.1] at hin
  have hlast : (range.last + 1).toNat = range.last.toNat + 1 :=
    toNat_succ (by have := hseq.2; omega)
  have hmax := pending_maximal hcore hi
  have hsome : held s.pending ≠ 0 :=
    fun h0 => absurd (mem_held_of_entryAt hi) (by simp [h0])
  have hpend := receiver_pend h.pending_channel
  set s' : Slice :=
    { s with expected := range.last + 1, pending := s.pending.set i none } with hs'
  have hentry : ∀ j r, OnChannel ch s'.pending j r ↔
      OnChannel ch s.pending j r ∧ j ≠ i := by
    intro j r
    simp only [OnChannel, hs', entryAt_set_none]
    by_cases hji : j = i
    · simp [hji]
    · simp [hji]
  have hchannel : ∀ r ∈ held s'.pending, r.channel = ch :=
    fun r hr => h.pending_channel r (mem_held_set_none hr)
  have hnumbers : pendingNumbers ch s'.pending =
      pendingNumbers ch s.pending \ Set.Icc range.first.toNat range.last.toNat := by
    ext n
    constructor
    · rintro ⟨j, r, hj, hn⟩
      obtain ⟨hj, hji⟩ := (hentry j r).mp hj
      refine ⟨⟨j, r, hj, hn⟩, fun hnot => ?_⟩
      have happart := h.pending_ok.apart i j range r hon hj (Ne.symm hji)
        (by simp) (by simp)
      simp only [Apart, PendingLostRange.range, Set.mem_Icc] at happart hn hnot
      omega
    · rintro ⟨⟨j, r, hj, hn⟩, hnot⟩
      refine ⟨j, r, (hentry j r).mpr ⟨hj, ?_⟩, hn⟩
      rintro rfl
      have := hj.1
      rw [hi, Option.some.injEq] at this
      subst this
      exact hnot hn
  have hok' : PendingOk ch none s'.pending :=
    ⟨fun j r hj => h.pending_ok.range j r ((hentry j r).mp hj).1,
      fun j j' r r' hj hj' => h.pending_ok.apart j j' r r' ((hentry j r).mp hj).1
        ((hentry j' r').mp hj').1⟩
  have hpend' := receiver_pend hchannel
  have hrecv : s'.receiver = { s.receiver with
      exp := range.last.toNat + 1
      pend := s.receiver.pend \ Set.Icc range.first.toNat range.last.toNat } := by
    have : s'.receiver = { s.receiver with
        exp := (range.last + 1).toNat, pend := s'.receiver.pend } := rfl
    rw [this, hlast, hpend', hnumbers, hpend]
  have hstep : Receiver.Step (linkPolicy Q ch) S s.receiver s'.receiver := by
    rw [hrecv]
    refine .skip hin.1 hin.2 ?_ ?_ ?_
    · rw [hpend]
      exact fun n hn => ⟨i, range, hon, hn⟩
    · rw [hpend]
      exact hmax.1
    · rw [hpend]
      exact hmax.2
  refine ⟨⟨⟨hstep.bounded h.bounded, hstep.ordered h.ordered, h.rx_hdr, h.rx_time,
    h.rx_nodup, hchannel, hok', h.slots, h.time, h.delivered, ?_⟩, ?_⟩,
    .single hstep, rfl, rfl, ?_⟩
  · exact fun hlossy => absurd (h.lossless hlossy).1 hsome
  · exact fun hlossy => absurd (h.lossless hlossy).1 hsome
  · simp only [Slice.load, hs', held_set_none hi, Multiset.card_cons]
    omega

/-! ## Handing frames off -/

/-- `s'` is `s` after the frame numbered `expected` was handed off, before it is
looked at. -/
structure Hands (Q : Allow) (ch : ℕ) (S : Sender Frame) (d : ℤ) (rh : ReliableHdr)
    (payload : List UInt8) (s s' : Slice) : Prop where
  seq : rh.seq = s.expected
  sent : (s.receiver.exp, rh.frame payload) ∈ S.sent
  time : ch = channelTime → rh.fragmentCount = 1
  step : Receiver.Step (linkPolicy Q ch) S s.receiver s'.receiver
  exp : s'.receiver.exp = s.receiver.exp + 1
  handed : s'.receiver.handed =
    s.receiver.handed ++ [(s.receiver.exp, rh.frame payload)]
  rx : s'.rx ≤ s.rx
  pending : s'.pending = s.pending
  reassembly : s'.reassembly = s.reassembly
  delivered : s'.log.filterMap Effect.delivered? = s.log.filterMap Effect.delivered?
  reports : logged (Effect.report? .received) s'.log =
    logged (Effect.report? .received) s.log
  send : s'.sendPart = s.sendPart
  binding : s'.binding = s.binding
  load : (s'.load : ℤ) ≤ s.load + d

theorem Hands.mem_handed {d : ℤ} {rh : ReliableHdr} {payload : List UInt8}
    (h : Hands Q ch S d rh payload s s') :
    ∀ x ∈ s.receiver.handed, x ∈ s'.receiver.handed := by
  intro x hx
  rw [h.handed]
  exact List.mem_append_left _ hx

theorem receiver_handOff (key : Mac) {rh : ReliableHdr} (payload : List UInt8)
    (rx : Multiset RxSlot) (hseq : rh.seq = s.expected)
    (hexp : s.expected.toNat < 2 ^ 32 - 1) :
    Slice.receiver { s with
        expected := s.expected + 1
        rx := rx
        log := s.log ++ [.handOff key rh payload] } =
      { s.receiver.hand (rh.frame payload) with
        rx := {x | ∃ slot ∈ rx, slot.numbered = x} } := by
  have hhanded : Effect.handed? (.handOff key rh payload) =
      some (s.expected.toNat, rh.frame payload) := by
    rw [← hseq]
    rfl
  have hack : logged Effect.ack? [.handOff key rh payload] = ∅ :=
    logged_singleton_none rfl
  have hnack : logged Effect.nack? [.handOff key rh payload] = ∅ :=
    logged_singleton_none rfl
  have hdrop : logged (Effect.lost? true) [.handOff key rh payload] = ∅ :=
    logged_singleton_none rfl
  have hreport : logged (Effect.report? .received) [.handOff key rh payload] = ∅ :=
    logged_singleton_none rfl
  simp [Slice.receiver, Receiver.hand, hhanded, hack, hnack, hdrop, hreport]
  omega

theorem sendPart_handOff {key : Mac} {rh : ReliableHdr} {payload : List UInt8}
    (expected : U32) (rx : Multiset RxSlot) :
    Slice.sendPart { s with
        expected := expected
        rx := rx
        log := s.log ++ [.handOff key rh payload] } = s.sendPart :=
  Slice.sendPart_emit_silent (e := .handOff key rh payload) ⟨rfl, rfl, rfl, rfl, rfl⟩

/-- The expected frame arrives. -/
theorem Hands.accept (h : RecvOk Q ch S s) (hS : Honest Q ch S) (key : Mac)
    {rh : ReliableHdr} {payload : List UInt8} (hseq : rh.seq = s.expected)
    (hdata : (s.expected.toNat, rh.frame payload) ∈ S.data)
    (htime : ch = channelTime → rh.fragmentCount = 1)
    (hrx : s.receiver.exp ∉ s.receiver.buffered)
    (hpend : s.receiver.exp ∉ s.receiver.pend) :
    Hands Q ch S 0 rh payload s
      { s with
        expected := s.expected + 1
        log := s.log ++ [.handOff key rh payload] } := by
  have hexp := expected_lt hS h.toRecvCore
  have hrecv := receiver_handOff key payload s.rx hseq (by omega)
  have hstep := Receiver.Step.accept (P := linkPolicy Q ch) hdata hrx hpend
  refine ⟨hseq, h.bounded.data_sent hdata, htime, ?_, ?_, ?_, le_rfl, rfl, rfl,
    by simp [Effect.delivered?], logged_append_none rfl _, sendPart_handOff _ _, rfl,
    by simp [Slice.load]⟩
  · rw [hrecv]
    exact hstep
  · rw [hrecv]
    rfl
  · rw [hrecv]
    rfl

/-- The expected frame is taken out of the buffer. -/
theorem Hands.take (h : RecvOk Q ch S s) (hS : Honest Q ch S) (key : Mac)
    {slot : RxSlot} {rest : Multiset RxSlot} (hslot : s.rx = slot ::ₘ rest)
    (hseq : slot.seq = s.expected) :
    Hands Q ch S (-2) slot.hdr slot.payload s
      { s with
        expected := s.expected + 1
        rx := rest
        log := s.log ++ [.handOff key slot.hdr slot.payload] } := by
  have hexp := expected_lt hS h.toRecvCore
  have hmem : slot ∈ s.rx := hslot ▸ Multiset.mem_cons_self slot rest
  have hhdr : slot.hdr.seq = s.expected := (h.rx_hdr slot hmem).trans hseq
  have hrecv := receiver_handOff key slot.payload rest hhdr (by omega)
  have hnumbered : slot.numbered =
      (s.receiver.exp, slot.hdr.frame slot.payload) := by
    rw [RxSlot.numbered, hseq]
    rfl
  have hbuf : (s.receiver.exp, slot.hdr.frame slot.payload) ∈ s.receiver.rx :=
    ⟨slot, hmem, hnumbered⟩
  have hrest : {x | ∃ slot ∈ rest, slot.numbered = x} =
      s.receiver.rx \ {(s.receiver.exp, slot.hdr.frame slot.payload)} := by
    have hnodup := h.rx_nodup
    rw [hslot, Multiset.map_cons, Multiset.nodup_cons] at hnodup
    ext x
    constructor
    · rintro ⟨other, hother, rfl⟩
      refine ⟨⟨other, hslot ▸ Multiset.mem_cons_of_mem hother, rfl⟩, fun heq => ?_⟩
      have hsame : other.seq = slot.seq := by
        rw [hseq]
        exact BitVec.eq_of_toNat_eq (congrArg Prod.fst heq)
      exact hnodup.1 (Multiset.mem_map.mpr ⟨other, hother, hsame⟩)
    · rintro ⟨⟨other, hother, rfl⟩, hne⟩
      rw [hslot] at hother
      rcases Multiset.mem_cons.mp hother with rfl | hother
      · exact absurd hnumbered hne
      · exact ⟨other, hother, rfl⟩
  have hstep := Receiver.Step.take (P := linkPolicy Q ch) (s := S) hbuf
  refine ⟨hhdr, h.bounded.rx_sent hbuf, fun ht => h.rx_time ht slot hmem, ?_, ?_, ?_,
    hslot ▸ Multiset.le_cons_self rest slot, rfl, rfl, by simp [Effect.delivered?],
    logged_append_none rfl _, sendPart_handOff _ _, rfl, ?_⟩
  · rw [hrecv, hrest]
    exact hstep
  · rw [hrecv]
    rfl
  · rw [hrecv]
    rfl
  · simp only [Slice.load, hslot, Multiset.card_cons]
    omega

/-- Handing a frame off keeps the invariant up to `Progress`. -/
theorem Hands.core {d : ℤ} {rh : ReliableHdr} {payload : List UInt8}
    (h : RecvCore Q ch S s) (hh : Hands Q ch S d rh payload s s') :
    RecvCore Q ch S s' where
  bounded := hh.step.bounded h.bounded
  ordered := hh.step.ordered h.ordered
  rx_hdr := fun slot hs => h.rx_hdr slot (Multiset.mem_of_le hh.rx hs)
  rx_time := fun ht slot hs => h.rx_time ht slot (Multiset.mem_of_le hh.rx hs)
  rx_nodup := Multiset.nodup_of_le (Multiset.map_le_map hh.rx) h.rx_nodup
  pending_channel := hh.pending ▸ h.pending_channel
  pending_ok := hh.pending ▸ h.pending_ok
  slots := by
    rw [hh.reassembly]
    exact fun slot hs => ⟨(h.slots slot hs).1.mono hh.mem_handed, (h.slots slot hs).2⟩
  time := hh.reassembly ▸ h.time
  delivered := by
    rw [hh.delivered]
    exact h.delivered.mono hh.mem_handed
  lossless := by
    rw [hh.pending, hh.reports]
    exact h.lossless

/-! ## Numbers of a message -/

theorem toNat_firstSeq {rh : ReliableHdr} (h : rh.fragmentIndex ≤ rh.seq.toNat) :
    rh.firstSeq.toNat = rh.seq.toNat - rh.fragmentIndex := by
  have := rh.seq.isLt
  rw [ReliableHdr.firstSeq, BitVec.toNat_sub, BitVec.toNat_ofNat,
    Nat.mod_eq_of_lt (by omega : rh.fragmentIndex < 2 ^ 32)]
  omega

theorem toNat_lastSeq {rh : ReliableHdr} (h : rh.fragmentIndex ≤ rh.seq.toNat)
    (hpos : 1 ≤ rh.fragmentCount)
    (hlt : rh.seq.toNat - rh.fragmentIndex + rh.fragmentCount < 2 ^ 32) :
    rh.lastSeq.toNat = rh.seq.toNat - rh.fragmentIndex + rh.fragmentCount - 1 := by
  have hcount : rh.fragmentCount < 2 ^ 32 := by omega
  rw [ReliableHdr.lastSeq, BitVec.toNat_sub, BitVec.toNat_add, toNat_firstSeq h,
    BitVec.toNat_ofNat, Nat.mod_eq_of_lt hcount, Nat.mod_eq_of_lt hlt,
    show (1 : U32).toNat = 1 from rfl]
  omega

/-- The numbers of the message a stored frame belongs to. -/
theorem message_range (hB : Bounded (linkPolicy Q ch) S s.receiver)
    (hS : Honest Q ch S) {n : ℕ} {f : Frame} (hsent : (n, f) ∈ S.sent) :
    f.fragmentIndex < n ∧ 1 ≤ f.fragmentCount ∧
      n ≤ n - f.fragmentIndex + f.fragmentCount - 1 ∧
      n - f.fragmentIndex + f.fragmentCount - 1 < S.next := by
  obtain ⟨⟨hlo, -, hhi⟩, -, hle⟩ := hB.span (n, f) hsent
  have hindex := (hS.valid (n, f) hsent).index_lt
  simp only [linkPolicy] at hlo hhi hle hindex
  omega

/-- Frames of overlapping messages belong to the same message. -/
theorem same_message (hB : Bounded (linkPolicy Q ch) S s.receiver)
    (hS : Honest Q ch S) {n m : ℕ} {f g : Frame} (hf : (n, f) ∈ S.sent)
    (hg : (m, g) ∈ S.sent) (hlow : m - g.fragmentIndex ≤ n)
    (hhigh : n < m - g.fragmentIndex + g.fragmentCount) :
    n - f.fragmentIndex = m - g.fragmentIndex ∧ f.fragmentCount = g.fragmentCount ∧
      f.streamId = g.streamId := by
  obtain ⟨f', hf', hlo, hhi⟩ := hB.whole (m, g) hg n (by
    simp only [linkPolicy, Set.mem_Icc]
    omega)
  rw [← hB.unique n f f' hf hf'] at hlo hhi
  simp only [linkPolicy] at hlo hhi
  have hfr := message_range hB hS hf
  have hgr := message_range hB hS hg
  exact ⟨hlo, by omega, hS.stream (n, f) hf (m, g) hg hlo⟩

/-- A reassembly slot in progress belongs to the message of the expected frame. -/
theorem Progress.same {f : Frame} (h : RecvCore Q ch S s) (hS : Honest Q ch S)
    (hp : Progress S s) (hf : (s.receiver.exp, f) ∈ S.sent) {slot : ReassemblySlot}
    (hslot : slot ∈ s.reassembly) :
    slot.firstSeq.toNat = s.receiver.exp - f.fragmentIndex ∧
      slot.fragmentCount = f.fragmentCount ∧ slot.streamId = f.streamId := by
  obtain ⟨hfits, i, hi⟩ := h.slots slot hslot
  obtain ⟨-, g, hg, hholds⟩ := hfits.part i hi
  have hprog := hp.slot slot hslot
  have hbegun := hprog.begun
  have hunfinished := hprog.unfinished
  obtain ⟨hlo, hcount, hstream⟩ := same_message h.bounded hS hf
    (h.bounded.handed_sent _ hg)
    (by rw [hholds.index]; omega) (by rw [hholds.index, hholds.count]; omega)
  rw [hholds.index] at hlo
  exact ⟨by omega, by rw [hcount, hholds.count], by rw [hstream, hholds.stream]⟩

/-- The frame after the last one of a message starts a new message. -/
theorem next_message {f g : Frame} (hB : Bounded (linkPolicy Q ch) S s.receiver)
    (hS : Honest Q ch S) {n : ℕ} (hf : (n, f) ∈ S.sent)
    (hlast : f.fragmentIndex + 1 = f.fragmentCount) (hg : (n + 1, g) ∈ S.sent) :
    g.fragmentIndex = 0 := by
  by_contra hne
  have hgr := message_range hB hS hg
  have hfr := message_range hB hS hf
  obtain ⟨hlo, hcount, -⟩ := same_message hB hS hf hg (by omega) (by omega)
  omega

/-! ## Looking at the frame handed off -/

/-- The facts about a frame handed off that the code relies on. -/
theorem Hands.frame {d : ℤ} {rh : ReliableHdr} {payload : List UInt8}
    (h : RecvCore Q ch S s) (hS : Honest Q ch S) (hh : Hands Q ch S d rh payload s s') :
    rh.channelId = ch ∧ rh.fragmentIndex < rh.fragmentCount ∧
      rh.fragmentCount ≤ reliableMaxFragments ∧ rh.payloadLen = payload.length ∧
      payload.length ≤ reliableInnerMax ∧ rh.fragmentIndex < s.receiver.exp ∧
      rh.firstSeq.toNat = s.receiver.exp - rh.fragmentIndex ∧
      rh.lastSeq.toNat = s.receiver.exp - rh.fragmentIndex + rh.fragmentCount - 1 := by
  have hvalid := hS.valid _ hh.sent
  obtain ⟨hlt, hpos, -, hhi⟩ := message_range h.bounded hS hh.sent
  have hnext := hS.next_le
  have hexp : s.receiver.exp = rh.seq.toNat := by
    rw [hh.seq]
    rfl
  simp only [ReliableHdr.frame] at hlt hpos hhi
  refine ⟨hvalid.channel_eq, hvalid.index_lt, hvalid.count_le, hvalid.payload_len,
    hvalid.payload_le, hlt, ?_, ?_⟩
  · rw [toNat_firstSeq (by omega), hexp]
  · rw [toNat_lastSeq (by omega) hpos (by omega), hexp]

/-- Messages delivered so far, after a hand-off that delivers one more. -/
theorem Hands.deliver {d : ℤ} {rh : ReliableHdr} {payload : List UInt8}
    (h : RecvCore Q ch S s) (hh : Hands Q ch S d rh payload s s')
    {message : U32 × List UInt8}
    (hm : Assembled s'.receiver.handed s.receiver.exp message) :
    Delivered s'.receiver.handed
      (s.log.filterMap Effect.delivered? ++ [message]) := by
  rw [hh.handed] at hm ⊢
  exact h.delivered.append (fun x hx => h.ordered.below x hx) hm

/-- A message of one frame goes to the deliver callback at once. -/
theorem RecvOk.single {d : ℤ} {rh : ReliableHdr} {payload : List UInt8}
    (h : RecvOk Q ch S s) (hS : Honest Q ch S) (hh : Hands Q ch S d rh payload s s')
    (hcount : rh.fragmentCount ≤ 1) (key peer : Mac) :
    Gains Q ch S d s
      (s'.emit (.deliver key peer rh.channelId payload rh.streamId)) := by
  have hcore := Hands.core h.toRecvCore hh
  obtain ⟨-, hindex, -, -, -, -, -, -⟩ := hh.frame h.toRecvCore hS
  have hsilent : (Effect.deliver key peer rh.channelId payload rh.streamId).silentR :=
    ⟨rfl, rfl, rfl, rfl, rfl⟩
  have hrecv := Slice.receiver_emit_silent (s := s') hsilent
  have hmessage : Assembled s'.receiver.handed s.receiver.exp
      (rh.streamId, payload) := by
    refine ⟨[rh.frame payload], by simp, by simp, ?_, by simp [ReliableHdr.frame]⟩
    intro i f hf
    obtain ⟨rfl, rfl⟩ : i = 0 ∧ rh.frame payload = f := by
      cases i with
      | zero => exact ⟨rfl, by simpa using hf⟩
      | succ i => simp at hf
    refine ⟨?_, by simp only [ReliableHdr.frame]; omega,
      by simp only [ReliableHdr.frame, List.length_singleton]; omega, rfl⟩
    rw [hh.handed]
    simp
  refine ⟨⟨{ hcore with
      bounded := hrecv ▸ hcore.bounded
      ordered := hrecv ▸ hcore.ordered
      slots := hrecv ▸ hcore.slots
      delivered := ?_
      lossless := ?_ }, ?_⟩, ?_, ?_, hh.binding, hh.load⟩
  · have := hh.deliver h.toRecvCore hmessage
    rw [← hh.delivered] at this
    rw [hrecv]
    simpa [Slice.emit, Effect.delivered?] using this
  · rw [Slice.emit, logged_append_none rfl]
    exact hcore.lossless
  · intro hlossy htime
    have hp := h.progress hlossy htime
    have hnone : s.reassembly = 0 := by
      refine Multiset.eq_zero_of_forall_notMem fun slot hslot => ?_
      obtain ⟨hfirst, hcnt, -⟩ := hp.same h.toRecvCore hS hh.sent hslot
      have hprog := hp.slot slot hslot
      have := hprog.begun
      have := hprog.unfinished
      simp only [ReliableHdr.frame] at hfirst hcnt
      omega
    have hnone' : s'.reassembly = 0 := hh.reassembly.trans hnone
    refine ⟨by simp [Slice.emit, hnone'], fun slot hslot => ?_, fun _ f hf => ?_⟩
    · simp [Slice.emit, hnone'] at hslot
    · rw [hrecv, hh.exp] at hf
      exact next_message h.bounded hS hh.sent
        (by simp only [ReliableHdr.frame]; omega) hf
  · rw [hrecv]
    exact .single hh.step
  · rw [Slice.sendPart_emit_silent ⟨rfl, rfl, rfl, rfl, rfl⟩]
    exact hh.send

/-- The slot into which a fragment goes: one of the message, or a new one. -/
structure Fills (rh : ReliableHdr) (s : Slice) (slot : ReassemblySlot)
    (rest : Multiset ReassemblySlot) : Prop where
  first : slot.firstSeq = rh.firstSeq
  count : slot.fragmentCount = rh.fragmentCount
  stream : slot.streamId = rh.streamId
  place : s.reassembly = slot ::ₘ rest ∨
    (s.reassembly = rest ∧ (∀ other ∈ rest, other.streamId ≠ rh.streamId) ∧
      slot.receivedMask = 0 ∧ slot.Fits s.receiver.handed)

theorem Fills.rest_le {rh : ReliableHdr} {slot : ReassemblySlot}
    {rest : Multiset ReassemblySlot} (h : Fills rh s slot rest) :
    rest ≤ s.reassembly := by
  rcases h.place with h | ⟨h, -⟩
  · rw [h]
    exact Multiset.le_cons_self rest slot
  · exact h.ge

theorem Fills.fits {rh : ReliableHdr} {slot : ReassemblySlot}
    {rest : Multiset ReassemblySlot} (h : RecvCore Q ch S s)
    (hfill : Fills rh s slot rest) : slot.Fits s.receiver.handed := by
  rcases hfill.place with hplace | ⟨-, -, -, hfits⟩
  · exact (h.slots slot (hplace ▸ Multiset.mem_cons_self slot rest)).1
  · exact hfits

/-- The slot after the fragment was stored, and what is known of the others. -/
structure Stores (S : Sender Frame) (rh : ReliableHdr) (payload : List UInt8)
    (now : U32) (s s' : Slice) (slot : ReassemblySlot)
    (rest : Multiset ReassemblySlot) : Prop where
  fits : (slot.store rh payload now).Fits s'.receiver.handed
  started : (slot.store rh payload now).Started
  first : slot.firstSeq.toNat = s.receiver.exp - rh.fragmentIndex
  index : rh.fragmentIndex < s.receiver.exp

theorem Fills.store {d : ℤ} {rh : ReliableHdr} {payload : List UInt8}
    {slot : ReassemblySlot} {rest : Multiset ReassemblySlot} (now : U32)
    (h : RecvCore Q ch S s) (hS : Honest Q ch S) (hh : Hands Q ch S d rh payload s s')
    (hfill : Fills rh s slot rest) : Stores S rh payload now s s' slot rest := by
  obtain ⟨-, hindex, hcount, hlen, hle, hlt, hfirst, -⟩ := hh.frame h hS
  have hmax : rh.fragmentIndex < 16 := hindex.trans_le hcount
  refine ⟨?_, ⟨rh.fragmentIndex, (getLsbD_store hmax _).mpr (.inl rfl)⟩,
    by rw [hfill.first, hfirst], hlt⟩
  refine ((hfill.fits h).mono hh.mem_handed).store now ?_ hfill.count.symm
    hfill.stream.symm hindex hlen hle
  rw [hh.handed, hfill.first, hfirst, Nat.sub_add_cancel hlt.le]
  simp

/-- Without losses the fragments of a message fill its slot one by one. -/
theorem Fills.mask {d : ℤ} {rh : ReliableHdr} {payload : List UInt8}
    {slot : ReassemblySlot} {rest : Multiset ReassemblySlot}
    (h : RecvCore Q ch S s) (hS : Honest Q ch S) (hh : Hands Q ch S d rh payload s s')
    (hp : Progress S s) (hfill : Fills rh s slot rest) :
    rest = 0 ∧ ∀ i, slot.receivedMask.getLsbD i = true ↔ i < rh.fragmentIndex := by
  obtain ⟨-, -, -, -, -, hlt, hfirst, -⟩ := hh.frame h hS
  rcases hfill.place with hplace | ⟨hplace, hother, hmask, -⟩
  · have hmem : slot ∈ s.reassembly := hplace ▸ Multiset.mem_cons_self slot rest
    have hcard := hp.card
    rw [hplace, Multiset.card_cons] at hcard
    refine ⟨Multiset.card_eq_zero.mp (by omega), fun i => ?_⟩
    rw [(hp.slot slot hmem).mask i, hfill.first, hfirst]
    omega
  · have hnone : s.reassembly = 0 := by
      refine Multiset.eq_zero_of_forall_notMem fun other hmem => ?_
      exact hother other (hplace ▸ hmem) (hp.same h hS hh.sent hmem).2.2
    have hzero : rh.fragmentIndex = 0 := hp.fresh hnone _ hh.sent
    refine ⟨by rw [← hplace, hnone], fun i => ?_⟩
    simp [hmask, hzero]

/-- A fragment that does not complete its message stays in the slot. -/
theorem RecvOk.store {d : ℤ} {rh : ReliableHdr} {payload : List UInt8}
    {slot : ReassemblySlot} {rest : Multiset ReassemblySlot} {now : U32}
    (h : RecvOk Q ch S s) (hS : Honest Q ch S) (hh : Hands Q ch S d rh payload s s')
    (hfill : Fills rh s slot rest) (hcount : ¬rh.fragmentCount ≤ 1)
    (hpart : (slot.store rh payload now).isComplete rh.fragmentCount = false) :
    Gains Q ch S d s
      { s' with reassembly := slot.store rh payload now ::ₘ rest } := by
  have hcore := Hands.core h.toRecvCore hh
  have hstore := hfill.store now h.toRecvCore hS hh
  obtain ⟨-, hindex, hmax, -⟩ := hh.frame h.toRecvCore hS
  refine ⟨⟨{ hcore with slots := ?_, time := ?_ }, ?_⟩, .single hh.step, hh.send,
    hh.binding, hh.load⟩
  · intro other hother
    rcases Multiset.mem_cons.mp hother with rfl | hother
    · exact ⟨hstore.fits, hstore.started⟩
    · refine hcore.slots other ?_
      rw [hh.reassembly]
      exact Multiset.mem_of_le hfill.rest_le hother
  · intro ht
    have := hh.time ht
    omega
  · intro hlossy htime
    obtain ⟨rfl, hmask⟩ := hfill.mask h.toRecvCore hS hh (h.progress hlossy htime)
    have hbits : ∀ i, (slot.store rh payload now).receivedMask.getLsbD i = true ↔
        i < rh.fragmentIndex + 1 := by
      intro i
      rw [getLsbD_store (hindex.trans_le hmax), hmask]
      omega
    have hunfinished : rh.fragmentIndex + 1 ≠ rh.fragmentCount := by
      intro heq
      have hdone : (slot.store rh payload now).isComplete rh.fragmentCount = true :=
        isComplete_iff.mpr fun i _ => by rw [hbits i, heq]
      rw [hpart] at hdone
      exact absurd hdone (by simp)
    refine ⟨by simp, fun other hother => ?_, fun hnone => by simp at hnone⟩
    obtain rfl : other = slot.store rh payload now := by simpa using hother
    have hfirst := hstore.first
    have hlt := hstore.index
    have hexp := hh.exp
    have hcnt := hfill.count
    refine ⟨?_, ?_, fun i => ?_⟩
    · change slot.firstSeq.toNat < s'.receiver.exp
      omega
    · change s'.receiver.exp < slot.firstSeq.toNat + slot.fragmentCount
      omega
    · rw [hbits i]
      change _ ↔ i < s'.receiver.exp - slot.firstSeq.toNat
      omega

/-- The fragment that completes a message delivers it and frees the slot. -/
theorem RecvOk.complete {d : ℤ} {rh : ReliableHdr} {payload : List UInt8}
    {slot : ReassemblySlot} {rest : Multiset ReassemblySlot} {now : U32}
    (h : RecvOk Q ch S s) (hS : Honest Q ch S) (hh : Hands Q ch S d rh payload s s')
    (hfill : Fills rh s slot rest)
    (hdone : (slot.store rh payload now).isComplete rh.fragmentCount = true)
    (key peer : Mac) (channel : ℕ) :
    Gains Q ch S d s
      { s'.emit (.deliver key peer channel
          ((slot.store rh payload now).data.take (slot.store rh payload now).total)
          (slot.store rh payload now).streamId) with reassembly := rest } := by
  have hcore := Hands.core h.toRecvCore hh
  have hstore := hfill.store now h.toRecvCore hS hh
  obtain ⟨-, hindex, hmax, -⟩ := hh.frame h.toRecvCore hS
  have hlt := hstore.index
  have hfirst := hstore.first
  set slot' := slot.store rh payload now with hslot'
  set e := Effect.deliver key peer channel (slot'.data.take slot'.total)
    slot'.streamId with he
  have hrecv : Slice.receiver { s'.emit e with reassembly := rest } = s'.receiver :=
    Slice.receiver_emit_silent (s := s') (e := e) ⟨rfl, rfl, rfl, rfl, rfl⟩
  have hcnt : slot'.fragmentCount = rh.fragmentCount := hfill.count
  have hrest : ∀ other ∈ rest, other ∈ s'.reassembly := by
    rw [hh.reassembly]
    exact fun other hother => Multiset.mem_of_le hfill.rest_le hother
  have hmask := isComplete_iff.mp hdone
  -- All fragments were handed off, the last of them only now.
  have hlast : rh.fragmentIndex + 1 = rh.fragmentCount := by
    have hbit : slot'.receivedMask.getLsbD (rh.fragmentCount - 1) = true :=
      (hmask _ (by simp only [reliableMaxFragments] at hmax; omega)).mpr (by omega)
    obtain ⟨-, f, hf, -⟩ := hstore.fits.part _ hbit
    have hbelow := hcore.ordered.below _ hf
    change slot.firstSeq.toNat + (rh.fragmentCount - 1) < _ at hbelow
    rw [hh.exp] at hbelow
    omega
  have hmessage : Assembled s'.receiver.handed s.receiver.exp
      (slot'.streamId, slot'.data.take slot'.total) := by
    have hpos : 0 < slot'.fragmentCount := by omega
    have hall := hstore.fits.assembled hpos (by rw [hcnt]; exact hdone) ?_
    · rw [hcnt] at hall
      change Assembled _ (slot.firstSeq.toNat + rh.fragmentCount - 1) _ at hall
      rwa [show slot.firstSeq.toNat + rh.fragmentCount - 1 = s.receiver.exp by omega]
        at hall
    · intro x hx
      exact (hS.valid x (hcore.bounded.handed_sent x hx)).payload_full
  refine ⟨⟨{ hcore with
      bounded := hrecv ▸ hcore.bounded
      ordered := hrecv ▸ hcore.ordered
      slots := ?_
      time := ?_
      delivered := ?_
      lossless := ?_ }, ?_⟩, ?_, ?_, hh.binding, hh.load⟩
  · rw [hrecv]
    exact fun other hother => hcore.slots other (hrest other hother)
  · intro ht
    refine Multiset.eq_zero_of_forall_notMem fun other hother => ?_
    have := hrest other hother
    simp [hcore.time ht] at this
  · have := hh.deliver h.toRecvCore hmessage
    rw [← hh.delivered] at this
    rw [hrecv]
    simpa [Slice.emit, Effect.delivered?, he] using this
  · rw [Slice.emit, logged_append_none rfl]
    exact hcore.lossless
  · intro hlossy htime
    obtain ⟨rfl, -⟩ := hfill.mask h.toRecvCore hS hh (h.progress hlossy htime)
    refine ⟨by simp, fun other hother => by simp at hother, fun _ f hf => ?_⟩
    rw [hrecv, hh.exp] at hf
    exact next_message h.bounded hS hh.sent hlast hf
  · rw [hrecv]
    exact .single hh.step
  · have : Slice.sendPart { s'.emit e with reassembly := rest } = s'.sendPart :=
      Slice.sendPart_emit_silent (s := s') (e := e) ⟨rfl, rfl, rfl, rfl, rfl⟩
    rw [this]
    exact hh.send

/-! ## Buffering, jumping, acknowledging -/

/-- A frame ahead of `expected` takes a slot. -/
theorem RecvOk.buffer (h : RecvOk Q ch S s) {slot : RxSlot}
    (hhdr : slot.hdr.seq = slot.seq) (htime : ch = channelTime → slot.hdr.fragmentCount = 1)
    (hdata : slot.numbered ∈ S.data) (hlt : s.expected.toNat < slot.seq.toNat)
    (hwin : slot.seq.toNat < s.expected.toNat + reliableWindow)
    (hfree : ∀ other ∈ s.rx, other.seq ≠ slot.seq)
    (hpend : slot.seq.toNat ∉ s.receiver.pend ∨ Q.bufferPending) :
    Gains Q ch S 2 s { s with rx := slot ::ₘ s.rx } := by
  have hrecv : Slice.receiver { s with rx := slot ::ₘ s.rx } =
      { s.receiver with rx := insert slot.numbered s.receiver.rx } := by
    have hset : {x | ∃ other ∈ slot ::ₘ s.rx, other.numbered = x} =
        insert slot.numbered s.receiver.rx := by
      ext x
      simp only [Multiset.mem_cons, Set.mem_ofPred_eq, Set.mem_insert_iff,
        Slice.receiver]
      constructor
      · rintro ⟨other, rfl | hother, rfl⟩
        · exact .inl rfl
        · exact .inr ⟨other, hother, rfl⟩
      · rintro (rfl | ⟨other, hother, rfl⟩)
        · exact ⟨slot, .inl rfl, rfl⟩
        · exact ⟨other, .inr hother, rfl⟩
    rw [← hset]
    rfl
  have hstep : Receiver.Step (linkPolicy Q ch) S s.receiver
      (Slice.receiver { s with rx := slot ::ₘ s.rx }) := by
    rw [hrecv]
    refine .buffer hdata hlt hwin ?_ hpend
    rintro ⟨f, other, hother, heq⟩
    exact hfree other hother (BitVec.eq_of_toNat_eq (congrArg Prod.fst heq))
  refine ⟨⟨⟨hstep.bounded h.bounded, hstep.ordered h.ordered, ?_, ?_, ?_,
    h.pending_channel, h.pending_ok, h.slots, h.time, h.delivered, h.lossless⟩,
    fun hlossy htime => ?_⟩, .single hstep, rfl, rfl, ?_⟩
  · intro other hother
    rcases Multiset.mem_cons.mp hother with rfl | hother
    · exact hhdr
    · exact h.rx_hdr other hother
  · intro ht other hother
    rcases Multiset.mem_cons.mp hother with rfl | hother
    · exact htime ht
    · exact h.rx_time ht other hother
  · rw [Multiset.map_cons, Multiset.nodup_cons]
    refine ⟨fun hmem => ?_, h.rx_nodup⟩
    obtain ⟨other, hother, heq⟩ := Multiset.mem_map.mp hmem
    exact hfree other hother heq
  · have hp := h.progress hlossy htime
    exact ⟨hp.card, hp.slot, hp.fresh⟩
  · simp only [Slice.load, Multiset.card_cons]
    omega

/-- On the TIME channel a newer frame displaces everything before it. -/
theorem RecvOk.jump (h : RecvOk Q ch S s) (htime : ch = channelTime)
    {seq : U32} {f : Frame} {table : List (Option PendingLostRange)}
    (hempty : held table = 0) (hdata : (seq.toNat, f) ∈ S.data)
    (hlt : s.expected.toNat < seq.toNat) :
    Gains Q ch S 0 s { s with rx := 0, pending := table, expected := seq } := by
  have hrecv : Slice.receiver { s with rx := 0, pending := table, expected := seq } =
      { s.receiver with exp := seq.toNat, rx := ∅, pend := ∅ } := by
    simp [Slice.receiver, hempty, covered]
  have hstep : Receiver.Step (linkPolicy Q ch) S s.receiver
      (Slice.receiver { s with rx := 0, pending := table, expected := seq }) := by
    rw [hrecv]
    exact .jump htime hdata hlt
  have hnone : ∀ i range, ¬OnChannel ch table i range := by
    intro i range hi
    have := mem_held_of_entryAt hi.1
    simp [hempty] at this
  refine ⟨⟨⟨hstep.bounded h.bounded, hstep.ordered h.ordered, by simp, by simp,
    by simp, by simp [hempty], ?_, h.slots, h.time, h.delivered,
    fun hlossy => ⟨hempty, (h.lossless hlossy).2⟩⟩,
    fun _ hne => absurd htime hne⟩, .single hstep, rfl, rfl, ?_⟩
  · exact ⟨fun i r hi => absurd hi (hnone i r), fun i j r r' hi => absurd hi (hnone i r)⟩
  · simp only [Slice.load, hempty, Multiset.card_zero]
    omega

/-- The selective set of an acknowledgement is what the buffer holds. -/
theorem sacked_eq {ack : AckPayload} (hpos : 1 ≤ s.expected.toNat)
    (hack : ack.ackSeq = s.expected - 1)
    (hbits : ∀ b, b < reliableWindow → (ack.sackBitmap.getLsbD b = true ↔
      s.expected.toNat + b ∈ s.receiver.buffered)) :
    ack.sacked = s.receiver.buffered ∩
      Set.Ico s.receiver.exp (s.receiver.exp + reliableWindow) := by
  have ha : ack.ackSeq.toNat = s.expected.toNat - 1 := by rw [hack, toNat_pred hpos]
  ext n
  change (ack.ackSeq.toNat < n ∧ n - ack.ackSeq.toNat - 1 < reliableWindow ∧ _) ↔
    (_ ∧ s.expected.toNat ≤ n ∧ n < s.expected.toNat + reliableWindow)
  constructor
  · rintro ⟨hlow, hwin, hbit⟩
    rw [hbits _ hwin, show s.expected.toNat + (n - ack.ackSeq.toNat - 1) = n by omega]
      at hbit
    exact ⟨hbit, by omega, by omega⟩
  · rintro ⟨hbuf, hlow, hwin⟩
    refine ⟨by omega, by omega, ?_⟩
    rw [hbits _ (by omega), show s.expected.toNat + (n - ack.ackSeq.toNat - 1) = n by omega]
    exact hbuf

/-- An acknowledgement says what the receiver has; a negative one also asks for
the expected frame. -/
theorem RecvOk.ack (h : RecvOk Q ch S s) {key : Mac} {packet : Packet}
    (nack : Bool) (ack : AckPayload)
    (hbody : packet.body = if nack then .nack ack else .ack ack)
    (hack : ack.ackSeq = s.expected - 1)
    (hbits : ∀ b, b < reliableWindow → (ack.sackBitmap.getLsbD b = true ↔
      s.expected.toNat + b ∈ s.receiver.buffered))
    (hnack : nack = true → ack.nackSeq = s.expected ∧
      ∃ x ∈ S.data, s.receiver.exp < x.1) :
    Gains Q ch S 0 s (s.emit (.send key packet)) := by
  have hpos := h.bounded.exp_pos
  have hsacked := sacked_eq hpos hack hbits
  have hseq : ack.ackSeq.toNat + 1 = s.receiver.exp := by
    rw [hack, toNat_pred hpos]
    change s.expected.toNat - 1 + 1 = s.expected.toNat
    change 1 ≤ s.expected.toNat at hpos
    omega
  obtain ⟨sessionId, srcMac, body⟩ := packet
  have hreport : ∀ b : Body, logged (Effect.report? .received)
      [.send key ⟨sessionId, srcMac, b⟩] = ∅ := fun b => logged_singleton_none rfl
  have hstep : Receiver.Step (linkPolicy Q ch) S s.receiver
      (s.emit (.send key ⟨sessionId, srcMac, body⟩)).receiver := by
    cases nack with
    | false =>
        obtain rfl : body = .ack ack := hbody
        have hrecv : (s.emit (.send key ⟨sessionId, srcMac, .ack ack⟩)).receiver =
            { s.receiver with
              acks := insert (ack.ackSeq.toNat, ack.sacked) s.receiver.acks } := by
          have h1 : logged Effect.ack? [.send key ⟨sessionId, srcMac, .ack ack⟩] =
              {(ack.ackSeq.toNat, ack.sacked)} := logged_singleton rfl
          have h2 : logged Effect.nack? [.send key ⟨sessionId, srcMac, .ack ack⟩] = ∅ :=
            logged_singleton_none rfl
          have h3 : logged (Effect.lost? true)
              [.send key ⟨sessionId, srcMac, .ack ack⟩] = ∅ := logged_singleton_none rfl
          simp [Slice.emit, Slice.receiver, h1, h2, h3, hreport, Effect.handed?,
            Set.union_comm _ {(ack.ackSeq.toNat, ack.sacked)}]
        rw [hrecv, hsacked]
        exact .ack hseq
    | true =>
        obtain rfl : body = .nack ack := hbody
        obtain ⟨hn, hgap⟩ := hnack rfl
        have hrecv : (s.emit (.send key ⟨sessionId, srcMac, .nack ack⟩)).receiver =
            { s.receiver with
              acks := insert (ack.ackSeq.toNat, ack.sacked) s.receiver.acks
              nacks := insert s.receiver.exp s.receiver.nacks } := by
          have h1 : logged Effect.ack? [.send key ⟨sessionId, srcMac, .nack ack⟩] =
              {(ack.ackSeq.toNat, ack.sacked)} := logged_singleton rfl
          have h2 : logged Effect.nack? [.send key ⟨sessionId, srcMac, .nack ack⟩] =
              {s.expected.toNat} := by
            refine logged_singleton ?_
            have hne : ¬s.expected = 0#32 := by
              intro h0
              change 1 ≤ s.expected.toNat at hpos
              rw [h0] at hpos
              simp at hpos
            simp [Effect.nack?, hn, hne]
          have h3 : logged (Effect.lost? true)
              [.send key ⟨sessionId, srcMac, .nack ack⟩] = ∅ := logged_singleton_none rfl
          simp [Slice.emit, Slice.receiver, h1, h2, h3, hreport, Effect.handed?,
            Set.union_comm _ {(ack.ackSeq.toNat, ack.sacked)},
            Set.union_comm _ {s.expected.toNat}]
        rw [hrecv, hsacked]
        exact .nack hseq hgap
  have hsilent : (Effect.send key ⟨sessionId, srcMac, body⟩).silentS := by
    cases nack with
    | false =>
        obtain rfl : body = .ack ack := hbody
        exact ⟨rfl, rfl, rfl, rfl, rfl⟩
    | true =>
        obtain rfl : body = .nack ack := hbody
        exact ⟨rfl, rfl, rfl, rfl, rfl⟩
  have hdelivered : (Effect.send key ⟨sessionId, srcMac, body⟩).delivered? = none := rfl
  have hhanded : (s.emit (.send key ⟨sessionId, srcMac, body⟩)).receiver.handed =
      s.receiver.handed := by
    simp [Slice.emit, Slice.receiver, Effect.handed?]
  refine ⟨⟨⟨hstep.bounded h.bounded, hstep.ordered h.ordered, h.rx_hdr, h.rx_time,
    h.rx_nodup, h.pending_channel, h.pending_ok, ?_, h.time, ?_, fun hlossy => ?_⟩,
    fun hlossy htime => ?_⟩, .single hstep, Slice.sendPart_emit_silent hsilent, rfl,
    by simp [Slice.load, Slice.emit]⟩
  · rw [hhanded]
    exact h.slots
  · rw [hhanded]
    simpa [Slice.emit, hdelivered] using h.delivered
  · refine ⟨(h.lossless hlossy).1, ?_⟩
    rw [Slice.emit, logged_append_none rfl]
    exact (h.lossless hlossy).2
  · have hp := h.progress hlossy htime
    exact ⟨hp.card, hp.slot, hp.fresh⟩

end

end KeemashCore.Rel
