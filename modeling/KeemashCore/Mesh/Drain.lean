import KeemashCore.Mesh.Isolation
import KeemashCore.Mesh.Losses

/-!
# Draining the reorder buffer

`deliver_fragment`, `receiver_drop_range` and `consume_contiguous` call each
other.  Here their effect on one channel is a sequence of receiver steps, and
`consume_contiguous` ends with nothing left to take at `expected_seq`.
-/

namespace KeemashCore.Rel

open SlotTable SelectiveRepeat

/-! ## Runs without irregular exits -/

/-- What the results about one peer assume of a run: the peer was not cleared,
and on a channel that may not lose numbers no table was full and no message
expired. -/
structure Quiet (Q : Allow) (key : Mac) (c : Ctx) : Prop where
  cleared : Effect.cleared key ∉ c.trace
  exhausted : ¬Q.lossy → Effect.exhausted key ∉ c.trace
  expired : ¬Q.lossy → Effect.fragmentsExpired key ∉ c.trace

theorem Quiet.before {Q : Allow} {key : Mac} {c c' : Ctx} (h : Quiet Q key c')
    (hpre : c.trace <+: c'.trace) : Quiet Q key c :=
  ⟨fun hmem => h.cleared (hpre.subset hmem),
    fun hl hmem => h.exhausted hl (hpre.subset hmem),
    fun hl hmem => h.expired hl (hpre.subset hmem)⟩

/-- Moving past a dropped range leaves no pending range behind, now and in the
drain that follows. -/
def dropClean (consume : Ctx → Bool) (c : Ctx) (key : Mac) (channel : ℕ)
    (reason : LostReason) (first last : U32) : Bool :=
  let c := forgetRange c key channel reason first last
  let p := c.peer key
  !seqInRange (p.expectedSeq channel) first last ||
    ((used p.pendingLost).all fun range =>
      range.channel != channel || !seqInRange range.last first last) &&
    consume (c.setExpected key channel (last + 1))

/-- `deliver_fragment` on this frame leaves no pending range behind. -/
def deliverClean (consume : Ctx → Bool) (c : Ctx) (key : Mac) (rh : ReliableHdr)
    (payload : List UInt8) (now : U32) : Bool :=
  let c := c.emit (.handOff key rh payload)
  if rh.fragmentCount ≤ 1 ∨ rh.fragmentCount > reliableMaxFragments ∨
      rh.fragmentIndex ≥ rh.fragmentCount then true
  else
    match reassemblyFind c key rh true now with
    | (c, none) =>
        dropClean consume (reassemblyFailed c key rh) key rh.channelId .overflow
          rh.firstSeq rh.lastSeq
    | (_, some _) => true

/-- `consume_contiguous` leaves no pending range behind. -/
def consumeClean : ℕ → Ctx → Mac → ℕ → U32 → Bool
  | 0, _, _, _, _ => true
  | n + 1, c, key, channel, now =>
      match skipLost c key channel with
      | some c => consumeClean n c key channel now
      | none =>
          match takeBuffered c key channel with
          | none => true
          | some (c, slot) =>
              deliverClean (fun c => consumeClean n c key slot.hdr.channelId now)
                  c key slot.hdr slot.payload now &&
                consumeClean n
                  (deliverFragment
                    (fun c => consumeContiguous n c key slot.hdr.channelId now)
                    c key slot.hdr slot.payload now)
                  key channel now

def drainClean (c : Ctx) (key : Mac) (channel : ℕ) (now : U32) : Bool :=
  consumeClean (drainFuel c key) c key channel now

/-- On one channel, going from `c` to `c'` takes receiver steps only, and no other
slice changes. -/
structure Receives (Q : Allow) (ch : ℕ) (S : Sender Frame) (key : Mac) (d : ℤ)
    (c c' : Ctx) : Prop where
  near : Touches {(key, ch)} c c'
  gains : Gains Q ch S d (c.slice key ch) (c'.slice key ch)

section

variable {Q : Allow} {ch : ℕ} {S : Sender Frame} {key : Mac} {c c' c'' : Ctx} {d d' : ℤ}

theorem Receives.trans (h : Receives Q ch S key d c c')
    (h' : Receives Q ch S key d' c' c'') : Receives Q ch S key (d + d') c c'' :=
  ⟨h.near.trans h'.near, h.gains.trans h'.gains⟩

theorem Receives.mono (h : Receives Q ch S key d c c') (hd : d ≤ d') :
    Receives Q ch S key d' c c' :=
  ⟨h.near, h.gains.mono hd⟩

theorem Receives.refl (h : RecvOk Q ch S (c.slice key ch)) :
    Receives Q ch S key 0 c c :=
  ⟨.refl _ c, .refl h⟩

/-! ## The slice after the operations of the receive path -/

theorem slice_sendLostPacket (c : Ctx) (key : Mac) (ch : ℕ) (reason : LostReason)
    (flags : BitVec 16) (first last : U32) :
    (sendLostPacket c key ch reason flags first last).1.slice key ch =
      (c.slice key ch).emit (.send key
        { sessionId := c.localSession
          srcMac := c.cfg.localMac
          body := .lost (lostPayload c key ch reason flags first last) }) :=
  slice_emit (by simp [Effect.concerns, Body.channel?, lostPayload])

theorem slice_recordLost (c : Ctx) (role : Role) (key : Mac) (ch : ℕ)
    (reason : LostReason) (first last count : U32) :
    ∃ peer, (recordLost c role key ch reason first last count).slice key ch =
      (c.slice key ch).emit (.event role key peer ch reason first last) := by
  refine ⟨(c.modPeer key (Peer.countLost reason count)).peerSendMac key, ?_⟩
  rw [recordLost, notifyEvent, slice_emit (by simp [Effect.concerns]),
    slice_modPeer (f := Peer.countLost reason count) (fun _ => rfl)]
  rfl

theorem slice_forgetRange (c : Ctx) (key : Mac) (ch : ℕ) (reason : LostReason)
    (first last : U32) :
    ∃ peer, (forgetRange c key ch reason first last).slice key ch =
      (c.slice key ch).forget key peer ch reason first last := by
  obtain ⟨peer, heq⟩ := slice_recordLost
    ((c.setRx (freeWhere (fun slot =>
      slot.isFor key ch && seqInRange slot.seq first last) c.rx)).setReassembly
      (freeWhere (fun slot => slot.isFor key ch &&
        (seqInRange slot.firstSeq first last || seqInRange slot.lastSeq first last ||
          seqInRange first slot.firstSeq slot.lastSeq)) c.reassembly))
    .received key ch reason first last (last - first + 1)
  refine ⟨peer, heq.trans ?_⟩
  have hrx : ((held (freeWhere (fun slot : RxSlot =>
        slot.isFor key ch && seqInRange slot.seq first last) c.rx)).filter
        fun slot => slot.isFor key ch) =
      ((held c.rx).filter fun slot => slot.isFor key ch).filter
        fun slot => seqInRange slot.seq first last = false := by
    rw [held_freeWhere, Multiset.filter_filter, Multiset.filter_filter]
    refine Multiset.filter_congr fun slot _ => ?_
    cases slot.isFor key ch with
    | false => simp
    | true => simp
  have hre : ((held (freeWhere (fun slot : ReassemblySlot => slot.isFor key ch &&
        (seqInRange slot.firstSeq first last || seqInRange slot.lastSeq first last ||
          seqInRange first slot.firstSeq slot.lastSeq)) c.reassembly)).filter
        fun slot => slot.isFor key ch) =
      ((held c.reassembly).filter fun slot => slot.isFor key ch).filter fun slot =>
        (seqInRange slot.firstSeq first last || seqInRange slot.lastSeq first last ||
          seqInRange first slot.firstSeq slot.lastSeq) = false := by
    rw [held_freeWhere, Multiset.filter_filter, Multiset.filter_filter]
    refine Multiset.filter_congr fun slot _ => ?_
    cases slot.isFor key ch with
    | false => simp
    | true => simp
  simp only [Slice.forget, Ctx.slice]
  rw [← hrx, ← hre]
  rfl

/-- A pending range that covers `expected_seq` is skipped. -/
theorem skipLost_some (hhas : c.has key) (h : skipLost c key ch = some c') :
    ∃ i range, entryAt (c.slice key ch).pending i = some range ∧
      seqInRange (c.slice key ch).expected range.first range.last = true ∧
      Touches {(key, ch)} c c' ∧
      c'.slice key ch = { c.slice key ch with
        expected := range.last + 1
        pending := (c.slice key ch).pending.set i none } := by
  simp only [skipLost] at h
  split at h
  · simp at h
  · next i hi =>
      obtain ⟨range, hrange, hp⟩ := entryAt_of_findIdx hi
      rw [hrange] at h
      simp only [Option.some.injEq] at h
      subst h
      rw [Bool.and_eq_true, beq_iff_eq] at hp
      have hon : OnChannel ch (c.peer key).pendingLost i range := ⟨hrange, hp.1⟩
      have hexp : Touches {(key, ch)} c (c.setExpected key ch (range.last + 1)) :=
        (Touches.refl _ c).setExpected (Set.mem_singleton _) _
      have hpending : ((c.setExpected key ch (range.last + 1)).peer key).pendingLost =
          (c.peer key).pendingLost :=
        peer_modPeer_field (f := Peer.setExpected ch (range.last + 1)) Peer.pendingLost
          (fun _ => rfl) (fun _ => rfl) key
      refine ⟨i, range, entryAt_pendingOn.mpr hon, hp.2, ?_, ?_⟩
      · refine hexp.setPending fun ch' hch' => ?_
        rw [hpending]
        refine pendingOn_set_other ?_ hon
        rintro rfl
        exact hch' rfl
      · rw [slice_setPending_self (hexp.has key hhas), slice_setExpected_self hhas,
          pendingOn_set_none]
        rfl

theorem skipLost_none (h : skipLost c key ch = none) :
    ∀ i range, entryAt (c.slice key ch).pending i = some range →
      seqInRange (c.slice key ch).expected range.first range.last = false := by
  intro i range hi
  obtain ⟨hi, hch⟩ := entryAt_pendingOn.mp hi
  simp only [skipLost] at h
  split at h
  · next hnone =>
      have := findIdx_eq_none.mp hnone range (mem_held_of_entryAt hi)
      rw [Bool.and_eq_false_iff] at this
      exact this.resolve_left (by simp [hch])
  · next j hj =>
      obtain ⟨found, hfound, -⟩ := entryAt_of_findIdx hj
      rw [hfound] at h
      simp at h

theorem rxFind_none {seq : U32} (h : rxFind c key ch seq = none) :
    ∀ slot ∈ (c.slice key ch).rx, slot.seq ≠ seq := by
  intro slot hslot heq
  rw [Ctx.slice, Multiset.mem_filter] at hslot
  obtain ⟨hmem, hfor⟩ := hslot
  have := findIdx_eq_none.mp h slot hmem
  simp [hfor, heq] at this

/-- The frame numbered `expected_seq` leaves the buffer. -/
theorem takeBuffered_some {slot : RxSlot} (hhas : c.has key)
    (h : takeBuffered c key ch = some (c', slot)) :
    ∃ rest, (c.slice key ch).rx = slot ::ₘ rest ∧
      slot.seq = (c.slice key ch).expected ∧ Touches {(key, ch)} c c' ∧
      c'.slice key ch = { c.slice key ch with
        expected := (c.slice key ch).expected + 1
        rx := rest } := by
  have htouch := (Touches.refl {(key, ch)} c).takeBuffered rfl h
  simp only [takeBuffered] at h
  split at h
  · simp at h
  · next i hi =>
      obtain ⟨found, hfound, hp⟩ := entryAt_of_findIdx hi
      rw [hfound] at h
      simp only [Option.some.injEq, Prod.mk.injEq] at h
      obtain ⟨rfl, rfl⟩ := h
      rw [Bool.and_eq_true, beq_iff_eq] at hp
      refine ⟨(held (c.rx.set i none)).filter fun slot => slot.isFor key ch, ?_, hp.2,
        htouch, ?_⟩
      · change (held c.rx).filter _ = _
        rw [held_set_none hfound]
        exact Multiset.filter_cons_of_pos _ hp.1
      · exact slice_setExpected_self (c := c.setRx (c.rx.set i none)) hhas ch _

theorem takeBuffered_none (h : takeBuffered c key ch = none) :
    ∀ slot ∈ (c.slice key ch).rx, slot.seq ≠ (c.slice key ch).expected := by
  simp only [takeBuffered] at h
  split at h
  · next hnone => exact rxFind_none hnone
  · next i hi =>
      obtain ⟨found, hfound, -⟩ := entryAt_of_findIdx hi
      rw [hfound] at h
      simp at h

/-- Nothing is left to take or to skip at `expected_seq`. -/
def Drained (s : Slice) : Prop :=
  s.receiver.exp ∉ s.receiver.buffered ∧ s.receiver.exp ∉ s.receiver.pend

theorem drained_of_none (hskip : skipLost c key ch = none)
    (htake : takeBuffered c key ch = none) (h : RecvOk Q ch S (c.slice key ch)) :
    Drained (c.slice key ch) := by
  constructor
  · rintro ⟨f, slot, hslot, heq⟩
    exact takeBuffered_none htake slot hslot
      (BitVec.eq_of_toNat_eq (congrArg Prod.fst heq))
  · rw [receiver_pend h.pending_channel]
    rintro ⟨i, range, hi, hn⟩
    have hseq := h.pending_ok.range i range hi (by simp)
    have hout := skipLost_none hskip i range hi.1
    rw [(seqInRange_iff hseq.1).mpr hn] at hout
    exact absurd hout (by simp)

/-! ## Dropping a range -/

/-- What `consume_contiguous` is expected to do when it is called. -/
def Consumes (Q : Allow) (ch : ℕ) (S : Sender Frame) (key : Mac)
    (consume : Ctx → Ctx) (clean : Ctx → Bool) : Prop :=
  ∀ c, c.has key → RecvOk Q ch S (c.slice key ch) → Quiet Q key (consume c) →
    (¬Q.overrun → clean c = true) → Receives Q ch S key 0 c (consume c)

/-- What a successful `pending_lost_add` does to the table of the slice. -/
theorem pendingLostAdd_slice {first last : U32} (h : RecvOk Q ch S (c.slice key ch))
    (hrange : SeqRange first last)
    (hroom : (pendingLostAdd ch (c.peer key).pendingLost first last).2 = true) :
    let table := (pendingLostAdd ch (c.peer key).pendingLost first last).1
    (∀ range ∈ held (pendingOn ch table), range.channel = ch) ∧
      PendingOk ch none (pendingOn ch table) ∧
      pendingNumbers ch (pendingOn ch table) =
        pendingNumbers ch (c.slice key ch).pending ∪ Set.Icc first.toNat last.toNat ∧
      (held (pendingOn ch table)).card ≤ (held (c.slice key ch).pending).card + 1 ∧
      ∀ ch', (key, ch') ∉ ({(key, ch)} : Set (Mac × ℕ)) →
        pendingOn ch' table = pendingOn ch' (c.peer key).pendingLost := by
  intro table
  have hadds := pendingLostAdd_spec (pendingOk_pendingOn.mp h.pending_ok) hrange hroom
  refine ⟨fun range hmem => ?_, pendingOk_pendingOn.mpr hadds.ok, ?_, hadds.card,
    fun ch' hne => hadds.other ch' ?_⟩
  · obtain ⟨i, hi⟩ := mem_held_iff_entryAt.mp hmem
    exact (entryAt_pendingOn.mp hi).2
  · rw [pendingNumbers_pendingOn, hadds.numbers]
    exact congrArg (· ∪ _) (pendingNumbers_pendingOn ch (c.peer key).pendingLost).symm
  · rintro rfl
    exact hne rfl

/-- The announcement that ends `receiver_drop_range`. -/
theorem Defers.announce {first last : U32} {reason : LostReason} {d : ℤ}
    (h : Defers Q ch S ∅ {(first.toNat, last.toNat)} d (c.slice key ch) (c'.slice key ch))
    (h' : Gains Q ch S d' (c'.slice key ch) (c''.slice key ch)) :
    Gains Q ch S (d + d') (c.slice key ch)
      ((sendLostPacket c'' key ch reason lostFlagReceiverDrop first last).1.slice
        key ch) := by
  rw [slice_sendLostPacket]
  have hrecv : ((c''.slice key ch).emit (.send key ⟨c''.localSession, c''.cfg.localMac,
      .lost (lostPayload c'' key ch reason lostFlagReceiverDrop first last)⟩)).receiver = _ :=
    receiver_drop rfl rfl
  exact h.finish h' hrecv (sendPart_drop rfl rfl) rfl

/-- No pending range ends inside the dropped range. -/
theorem overrun_of_clean (consume : Ctx → Bool) {first last : U32} (reason : LostReason)
    (h : RecvOk Q ch S (c.slice key ch)) (hle : first.toNat ≤ last.toNat)
    (hin : seqInRange (c.slice key ch).expected first last = true)
    (hclean : dropClean consume c key ch reason first last = true) :
    (∀ n ∈ Set.Icc first.toNat last.toNat, n ∈ (c.slice key ch).receiver.pend →
      n + 1 ∈ (c.slice key ch).receiver.pend) ∧
      consume ((forgetRange c key ch reason first last).setExpected key ch (last + 1)) =
        true := by
  obtain ⟨peer, hslice⟩ := slice_forgetRange c key ch reason first last
  have hexpected : ((forgetRange c key ch reason first last).peer key).expectedSeq ch =
      (c.slice key ch).expected := congrArg Slice.expected hslice
  have hpending : pendingOn ch ((forgetRange c key ch reason first last).peer
      key).pendingLost = (c.slice key ch).pending := congrArg Slice.pending hslice
  simp only [dropClean, hexpected, hin, Bool.not_true, Bool.false_or, Bool.and_eq_true]
    at hclean
  refine ⟨?_, hclean.2⟩
  intro n hn hmem
  rw [receiver_pend h.pending_channel] at hmem ⊢
  obtain ⟨i, range, hi, hlow, hhigh⟩ := hmem
  refine ⟨i, range, hi, hlow.trans (Nat.le_succ n), ?_⟩
  by_contra hlast
  -- Then `n` is the last number of its range, which ends inside the dropped one.
  have hentry := hi.1
  rw [← hpending, entryAt_pendingOn] at hentry
  have hout := List.all_eq_true.mp hclean.1 range
    (mem_used.mpr (mem_held_of_entryAt hentry.1))
  have hinside : seqInRange range.last first last = true := by
    rw [seqInRange_iff hle]
    simp only [PendingLostRange.range, Set.mem_Icc] at hn hhigh hlast
    omega
  simp [hentry.2, hinside] at hout

/-- `receiver_drop_range` on numbers that may be dropped. -/
theorem receiverDropRange_receives {consume : Ctx → Ctx} {clean : Ctx → Bool}
    (hconsume : Consumes Q ch S key consume clean) (hS : Honest Q ch S)
    (hhas : c.has key) (h : RecvOk Q ch S (c.slice key ch)) {first last : U32}
    (hd : Droppable (linkPolicy Q ch) S first.toNat last.toNat) {reason : LostReason}
    (hquiet : Quiet Q key (receiverDropRange consume c key ch reason first last))
    (hclean : ¬Q.overrun → dropClean clean c key ch reason first last = true)
    (hd0 : 0 ≤ d) (hd1 : (c.slice key ch).expected.toNat < first.toNat → 1 ≤ d) :
    Receives Q ch S key d c (receiverDropRange consume c key ch reason first last) := by
  obtain ⟨hpos, hle, hlt⟩ := hd.range h.bounded.toFramed
  have hexp := expected_lt hS h.toRecvCore
  have hnext := hS.next_le
  simp only at hpos hle hlt
  obtain ⟨peer, hslice⟩ := slice_forgetRange c key ch reason first last
  have hforget : Touches {(key, ch)} c (forgetRange c key ch reason first last) :=
    (Touches.refl _ c).forgetRange (Set.mem_singleton _)
  have hover := fun hin => overrun_of_clean clean reason h hle hin
  set c₁ := forgetRange c key ch reason first last with hc₁
  have hexpected : (c₁.peer key).expectedSeq ch = (c.slice key ch).expected :=
    congrArg Slice.expected hslice
  have hhas' := hforget.has key hhas
  simp only [receiverDropRange, ← hc₁, hexpected] at hquiet ⊢
  split
  · next hin =>
      rw [if_pos hin] at hquiet
      have hset := slice_setExpected_self hhas' ch (last + 1)
      have hdefers := Defers.dropHere h hS hd hin
        ((em Q.overrun).symm.imp_left fun hno => (hover hin (hclean hno)).1) key peer reason
      rw [← hslice, ← hset] at hdefers
      have hexp' : Touches {(key, ch)} c (c₁.setExpected key ch (last + 1)) :=
        hforget.setExpected (Set.mem_singleton _) _
      have hdrain := hconsume (c₁.setExpected key ch (last + 1)) (hexp'.has key hhas)
        hdefers.ok (hquiet.before (List.prefix_append _ _))
        fun hno => (hover hin (hclean hno)).2
      exact ⟨(hexp'.trans hdrain.near).sendLostPacket rfl,
        (hdefers.announce hdrain.gains).mono (by omega)⟩
  · next hout =>
      rw [if_neg hout] at hquiet
      rw [seqInRange_iff hle] at hout
      have hbefore := seqBefore_iff (a := (c.slice key ch).expected) (b := first)
        hexp.2 (by omega) (by omega)
      split
      · next hbef =>
          have hahead := hbefore.mp hbef
          rw [if_pos hbef] at hquiet
          split
          · next hroom =>
              have hok₁ : RecvOk Q ch S (c₁.slice key ch) :=
                hslice ▸ h.forget hd.1 key peer reason hle
              obtain ⟨hchannel, hok, hnumbers, hcard, hother⟩ :=
                pendingLostAdd_slice hok₁ ⟨hle, by omega⟩ hroom
              rw [hslice] at hnumbers hcard
              have hdefers := Defers.dropAhead h hd hahead hchannel hok hnumbers hcard key
                peer reason
              have hset := slice_setPending_self hhas'
                (pendingLostAdd ch (c₁.peer key).pendingLost first last).1 ch
              rw [← hslice, ← hset] at hdefers
              exact ⟨(hforget.setPending hother).sendLostPacket rfl,
                (hdefers.announce (.refl hdefers.ok)).mono (by have := hd1 hahead; omega)⟩
          · next hroom =>
              rw [if_neg hroom] at hquiet
              exact absurd ((touches_clearPeerBuffers _ key .overflow).trace.subset
                (by simp [Ctx.emit])) hquiet.cleared
      · next hbef =>
          have hpast : last.toNat < (c.slice key ch).expected.toNat := by
            have := mt hbefore.mpr hbef
            omega
          have hdefers := Defers.dropPast h hd hpast key peer reason
          rw [← hslice] at hdefers
          exact ⟨hforget.sendLostPacket rfl,
            (hdefers.announce (.refl hdefers.ok)).mono (by omega)⟩

/-! ## Looking at a frame -/

/-- The slot that `reassembly_find` returns is the one the fragment goes into. -/
theorem reassemblyFind_fills {rh : ReliableHdr} {now : U32} {i : ℕ} {s : Slice}
    (hch : rh.channelId = ch) (hcount : rh.fragmentCount ≤ reliableMaxFragments)
    (hre : s.reassembly = (c.slice key ch).reassembly)
    (h : reassemblyFind c key rh true now = (c', some i)) :
    ∃ slot, entryAt c'.reassembly i = some slot ∧ slot.peer = key ∧ slot.channel = ch ∧
      c' = c.setReassembly c'.reassembly ∧
      Fills rh s slot ((held (c'.reassembly.set i none)).filter
        fun slot => slot.isFor key ch) := by
  subst hch
  rw [reassemblyFind] at h
  split at h
  · next j hj =>
      obtain ⟨slot, hslot, hp⟩ := entryAt_of_findIdx hj
      simp only [hslot] at h
      split at h
      · simp at h
      · next hsame =>
          simp only [Prod.mk.injEq, Option.some.injEq] at h
          obtain ⟨rfl, rfl⟩ := h
          rw [ReassemblySlot.isStream, Bool.and_eq_true, beq_iff_eq] at hp
          obtain ⟨hfor, hstream⟩ := hp
          have hfor' := ReassemblySlot.isFor_iff.mp hfor
          rw [not_or, not_not, not_not] at hsame
          refine ⟨slot, hslot, hfor'.2, hfor'.1, rfl, hsame.2, hsame.1, hstream, .inl ?_⟩
          rw [hre]
          change (held c.reassembly).filter _ = _
          rw [held_set_none hslot]
          exact Multiset.filter_cons_of_pos _ hfor
  · next hnone =>
      split at h
      · simp at h
      · split at h
        · simp at h
        · split at h
          · next j hj =>
              simp only [Prod.mk.injEq, Option.some.injEq] at h
              obtain ⟨rfl, rfl⟩ := h
              have hfree := getElem?_of_freeIdx hj
              obtain ⟨hlt, -⟩ := List.getElem?_eq_some_iff.mp hfree
              set slot := newReassemblySlot key rh now with hnew
              have hentry : entryAt (c.reassembly.set j (some slot)) j = some slot := by
                rw [entryAt_set hlt, if_pos rfl]
              have hrest : held ((c.reassembly.set j (some slot)).set j none) =
                  held c.reassembly := by
                have h1 := held_set_none hentry
                rw [held_set_some slot hfree] at h1
                exact ((Multiset.cons_inj_right _).mp h1).symm
              refine ⟨slot, hentry, rfl, rfl, rfl, rfl, rfl, rfl, .inr ⟨?_, ?_, rfl, ?_⟩⟩
              · rw [hre]
                change (held c.reassembly).filter _ =
                  (held ((c.reassembly.set j (some slot)).set j none)).filter _
                rw [hrest]
              · intro other hother heq
                change other ∈ (held ((c.reassembly.set j (some slot)).set j none)).filter _
                  at hother
                rw [hrest, Multiset.mem_filter] at hother
                have := findIdx_eq_none.mp hnone other hother.1
                simp [ReassemblySlot.isStream, hother.2, heq] at this
              · exact newReassemblySlot_fits key rh now _ hcount
          · simp at h

/-- `reassembly_find` fails for lack of slots, or on a slot of another message. -/
theorem reassemblyFind_fails {rh : ReliableHdr} {now : U32} (hch : rh.channelId = ch)
    (h : reassemblyFind c key rh true now = (c', none)) :
    c' = c ∧ ((used c.reassembly).any (ReassemblySlot.isStream key rh) = true →
      ∃ slot ∈ (c.slice key ch).reassembly,
        slot.fragmentCount ≠ rh.fragmentCount ∨ slot.firstSeq ≠ rh.firstSeq) := by
  subst hch
  rw [reassemblyFind] at h
  split at h
  · next j hj =>
      obtain ⟨slot, hslot, hp⟩ := entryAt_of_findIdx hj
      simp only [hslot] at h
      split at h
      · next hne =>
          refine ⟨(congrArg Prod.fst h).symm, fun _ => ⟨slot, ?_, hne⟩⟩
          exact Multiset.mem_filter.mpr
            ⟨mem_held_of_entryAt hslot, Bool.and_elim_left hp⟩
      · simp at h
  · next hnone =>
      have hnot : ¬(used c.reassembly).any (ReassemblySlot.isStream key rh) = true := by
        rw [used_any]
        rintro ⟨slot, hslot, hp⟩
        rw [findIdx_eq_none.mp hnone slot hslot] at hp
        exact absurd hp (by simp)
      split at h
      · exact ⟨(congrArg Prod.fst h).symm, fun hany => absurd hany hnot⟩
      · split at h
        · exact ⟨(congrArg Prod.fst h).symm, fun hany => absurd hany hnot⟩
        · split at h
          · simp at h
          · exact ⟨(congrArg Prod.fst h).symm, fun hany => absurd hany hnot⟩

theorem slice_reassemblyFailed (c : Ctx) (key : Mac) (rh : ReliableHdr) (ch : ℕ) :
    (reassemblyFailed c key rh).slice key ch = c.slice key ch := by
  rw [reassemblyFailed]
  refine (slice_modPeer (f := Peer.countOverflow) (fun _ => rfl) key ch).trans ?_
  split
  · rfl
  · exact slice_emit_other rfl

/-- On a channel that gives nothing up, a failing search means a full table. -/
theorem lossy_of_fails {s : Slice} {rh : ReliableHdr} {payload : List UInt8} {now : U32}
    (hS : Honest Q ch S) (h : RecvOk Q ch S s)
    (hh : Hands Q ch S d rh payload s (c.slice key ch))
    (hmany : ¬rh.fragmentCount ≤ 1)
    (hfail : reassemblyFind c key rh true now = (c', none))
    (hquiet : Quiet Q key (reassemblyFailed c' key rh)) : Q.lossy := by
  by_contra hno
  obtain ⟨hch, -, -, -, -, -, hfirst, -⟩ := hh.frame h.toRecvCore hS
  have htime : ch ≠ channelTime := by
    intro ht
    have := hh.time ht
    omega
  obtain ⟨rfl, hmismatch⟩ := reassemblyFind_fails hch hfail
  by_cases hany : (used c'.reassembly).any (ReassemblySlot.isStream key rh) = true
  · obtain ⟨slot, hslot, hne⟩ := hmismatch hany
    obtain ⟨h1, h2, -⟩ := (h.progress hno htime).same h.toRecvCore hS hh.sent
      (hh.reassembly ▸ hslot)
    rcases hne with hne | hne
    · exact hne h2
    · exact hne (BitVec.eq_of_toNat_eq (h1.trans hfirst.symm))
  · refine hquiet.exhausted hno ?_
    rw [reassemblyFailed, if_neg hany]
    simp [Ctx.modPeer, Ctx.setPeers, Ctx.emit]

/-- The slice after the fragment was stored in its slot. -/
theorem slice_storeFragment {i : ℕ} {slot : ReassemblySlot} {rh : ReliableHdr}
    {payload : List UInt8} {now : U32} (hi : entryAt c.reassembly i = some slot)
    (hpeer : slot.peer = key) (hch : slot.channel = ch) :
    let rest := (held (c.reassembly.set i none)).filter fun slot => slot.isFor key ch
    let stored := slot.store rh payload now
    (storeFragment c key i slot rh payload now).slice key ch =
      if stored.isComplete rh.fragmentCount then
        { (c.slice key ch).emit (.deliver key (c.peerSendMac key) ch
            (stored.data.take stored.total) stored.streamId) with reassembly := rest }
      else { c.slice key ch with reassembly := stored ::ₘ rest } := by
  intro rest stored
  rw [storeFragment]
  split
  · have hemit : (c.emit (.deliver key (c.peerSendMac key) stored.channel
        (stored.data.take stored.total) stored.streamId)).slice key ch = _ :=
      slice_emit (by simp [Effect.concerns, stored, ReassemblySlot.store, hch])
    change { (c.emit (.deliver key (c.peerSendMac key) stored.channel
      (stored.data.take stored.total) stored.streamId)).slice key ch with
      reassembly := rest } = _
    rw [hemit, show stored.channel = ch from hch]
    rfl
  · have hheld : ((held (c.reassembly.set i (some stored))).filter
        fun slot => slot.isFor key ch) = stored ::ₘ rest := by
      rw [held_set_entry stored hi]
      exact Multiset.filter_cons_of_pos _ (ReassemblySlot.isFor_iff.mpr ⟨hch, hpeer⟩)
    rw [← hheld]
    rfl

/-- `deliver_fragment` on the frame that was just handed off. -/
theorem deliverFragment_receives {consume : Ctx → Ctx} {clean : Ctx → Bool}
    (hwide : ∀ c, Touches (ofKey key) c (consume c))
    (hconsume : Consumes Q ch S key consume clean) (hS : Honest Q ch S)
    (hhas : c.has key) {s : Slice} (h : RecvOk Q ch S s) {rh : ReliableHdr}
    {payload : List UInt8} {now : U32}
    (hh : Hands Q ch S d rh payload s ((c.emit (.handOff key rh payload)).slice key ch))
    (hquiet : Quiet Q key (deliverFragment consume c key rh payload now))
    (hclean : ¬Q.overrun → deliverClean clean c key rh payload now = true) :
    Touches {(key, ch)} c (deliverFragment consume c key rh payload now) ∧
      Gains Q ch S d s ((deliverFragment consume c key rh payload now).slice key ch) := by
  obtain ⟨rfl, hindex, hmax, -, -, hlt, hfirst, hlast⟩ := hh.frame h.toRecvCore hS
  have hin : (key, rh.channelId) ∈ ({(key, rh.channelId)} : Set (Mac × ℕ)) := rfl
  have hhand := (Touches.refl {(key, rh.channelId)} c).emit_on hin
    (e := .handOff key rh payload) fun _ _ => rfl
  have hhas₁ := hhand.has key hhas
  simp only [deliverClean] at hclean
  rw [deliverFragment] at hquiet ⊢
  set c₁ := c.emit (.handOff key rh payload) with hc₁
  by_cases hone : rh.fragmentCount ≤ 1
  · rw [if_pos hone]
    refine ⟨hhand.emit_on hin fun _ _ => rfl, ?_⟩
    rw [slice_emit (by simp [Effect.concerns])]
    exact h.single hS hh hone key (c₁.peerSendMac key)
  · rw [if_neg hone] at hquiet ⊢
    have hgood : ¬(rh.fragmentCount > reliableMaxFragments ∨
        rh.fragmentIndex ≥ rh.fragmentCount) := by omega
    rw [if_neg hgood] at hquiet ⊢
    rw [if_neg (by omega)] at hclean
    cases hfind : reassemblyFind c₁ key rh true now with
    | mk c₂ found =>
        cases found with
        | none =>
            obtain ⟨rfl, -⟩ := reassemblyFind_fails rfl hfind
            simp only [hfind] at hquiet hclean ⊢
            have hdropped : Touches (ofKey key) (reassemblyFailed c₁ key rh)
                (receiverDropRange consume (reassemblyFailed c₁ key rh) key rh.channelId
                  .overflow rh.firstSeq rh.lastSeq) :=
              (Touches.refl _ _).receiverDropRange subset_rfl hwide
            have hpre := hdropped.trace
            have hlossy := lossy_of_fails hS h hh hone hfind (hquiet.before hpre)
            have hslice := slice_reassemblyFailed c₁ key rh rh.channelId
            have hok : RecvOk Q rh.channelId S (c₁.slice key rh.channelId) :=
              ⟨hh.core h.toRecvCore, fun hno => absurd hlossy hno⟩
            have hgains : Gains Q rh.channelId S d s (c₁.slice key rh.channelId) :=
              ⟨hok, .single hh.step, hh.send, hh.binding, hh.load⟩
            have hfailed : Touches {(key, rh.channelId)} c₁ (reassemblyFailed c₁ key rh) :=
              (Touches.refl _ c₁).reassemblyFailed
            rw [← hslice] at hok hgains
            have hdrop : Droppable (linkPolicy Q rh.channelId) S rh.firstSeq.toNat
                rh.lastSeq.toNat :=
              ⟨hlossy, _, hh.sent, .inr ⟨hfirst, hlast⟩⟩
            have hexp : ((reassemblyFailed c₁ key rh).slice key
                rh.channelId).expected.toNat = s.receiver.exp + 1 := by
              rw [hslice]
              exact hh.exp
            have hreceives := receiverDropRange_receives hconsume hS
              (hfailed.has key hhas₁) hok hdrop hquiet hclean le_rfl (by omega)
            exact ⟨(hhand.trans hfailed).trans hreceives.near,
              (hgains.trans hreceives.gains).mono (by omega)⟩
        | some i =>
            obtain ⟨slot, hentry, hpeer, hslot, hc₂, hfills⟩ :=
              reassemblyFind_fills (s := s) rfl hmax hh.reassembly.symm hfind
            have htouch : Touches {(key, rh.channelId)} c
                (reassemblyFind c₁ key rh true now).1 := hhand.reassemblyFind hin
            rw [hfind] at htouch
            simp only [hentry]
            refine ⟨htouch.storeFragment hentry (by rw [hpeer, hslot]; exact hin)
              (by rw [hslot]; exact hin), ?_⟩
            rw [slice_storeFragment hentry hpeer hslot]
            -- A new slot is not in the slice `s`; storing the fragment puts it there.
            have hslice : ∀ rest, { c₂.slice key rh.channelId with reassembly := rest } =
                { c₁.slice key rh.channelId with reassembly := rest } := by
              intro rest
              rw [hc₂]
              rfl
            split
            · next hdone =>
                have hgains := h.complete hS hh hfills hdone key
                  (c₂.peerSendMac key) rh.channelId
                have hset : ∀ e rest,
                    { (c₂.slice key rh.channelId).emit e with reassembly := rest } =
                      { (c₁.slice key rh.channelId).emit e with reassembly := rest } :=
                  fun e rest => congrArg (fun s : Slice => s.emit e) (hslice rest)
                rw [hset]
                exact hgains
            · next hpart =>
                rw [hslice]
                exact h.store hS hh hfills hone (by simpa using hpart)

/-! ## The loop -/

/-- `consume_contiguous` takes receiver steps only.  Each iteration lowers the load,
so with enough fuel the loop stops because nothing is left to take. -/
theorem consumeContiguous_spec (hS : Honest Q ch S) (now : U32) (n : ℕ) (c : Ctx)
    (hhas : c.has key) (h : RecvOk Q ch S (c.slice key ch))
    (hquiet : Quiet Q key (consumeContiguous n c key ch now))
    (hclean : ¬Q.overrun → consumeClean n c key ch now = true) :
    Receives Q ch S key 0 c (consumeContiguous n c key ch now) ∧
      ((c.slice key ch).load < n →
        Drained ((consumeContiguous n c key ch now).slice key ch)) := by
  induction n generalizing c with
  | zero => exact ⟨.refl h, fun hlt => absurd hlt (Nat.not_lt_zero _)⟩
  | succ n ih =>
      have hnested : Consumes Q ch S key (fun c => consumeContiguous n c key ch now)
          (fun c => consumeClean n c key ch now) :=
        fun c hhas h hquiet hclean => (ih c hhas h hquiet hclean).1
      have hwide := fun (c : Ctx) =>
        touches_consumeContiguous (A := ofKey key) subset_rfl n c ch now
      simp only [consumeContiguous, consumeClean] at hquiet hclean ⊢
      cases hskip : skipLost c key ch with
      | some c₁ =>
          simp only [hskip] at hquiet hclean ⊢
          obtain ⟨i, range, hi, hin, hnear, hslice⟩ := skipLost_some hhas hskip
          have hgains := h.skip hi hin
          rw [← hslice] at hgains
          obtain ⟨hrest, hdrained⟩ :=
            ih c₁ (hnear.has key hhas) hgains.ok hquiet hclean
          refine ⟨((Receives.mk hnear hgains).trans hrest).mono (by omega), fun hlt => ?_⟩
          have := hgains.load
          exact hdrained (by omega)
      | none =>
          simp only [hskip] at hquiet hclean ⊢
          cases htake : takeBuffered c key ch with
          | none => exact ⟨.refl h, fun _ => drained_of_none hskip htake h⟩
          | some taken =>
              obtain ⟨c₁, slot⟩ := taken
              simp only [htake] at hquiet hclean ⊢
              obtain ⟨rest, hrx, hseq, hnear, hslice⟩ := takeBuffered_some hhas htake
              have hhas₁ := hnear.has key hhas
              have hmem : slot ∈ (c.slice key ch).rx :=
                hrx ▸ Multiset.mem_cons_self slot rest
              have hch : slot.hdr.channelId = ch :=
                (hS.valid _ (h.bounded.rx_sent ⟨slot, hmem, rfl⟩)).channel_eq
              have hhand := Hands.take h hS key hrx hseq
              have hemit : (c₁.emit (.handOff key slot.hdr slot.payload)).slice key ch =
                  { c.slice key ch with
                    expected := (c.slice key ch).expected + 1
                    rx := rest
                    log := (c.slice key ch).log ++
                      [.handOff key slot.hdr slot.payload] } := by
                rw [slice_emit (by simp [Effect.concerns, hch]), hslice]
              rw [← hemit] at hhand
              rw [hch] at hquiet hclean ⊢
              obtain ⟨hnear', hgains⟩ := deliverFragment_receives hwide hnested hS hhas₁ h hhand
                (hquiet.before (hwide _).trace) fun hno => (Bool.and_eq_true_iff.mp
                  (hclean hno)).1
              obtain ⟨hrest, hdrained⟩ := ih _ (hnear'.has key hhas₁) hgains.ok hquiet
                fun hno => (Bool.and_eq_true_iff.mp (hclean hno)).2
              refine ⟨((Receives.mk (hnear.trans hnear') hgains).trans hrest).mono
                (by omega), fun hlt => ?_⟩
              have := hgains.load
              exact hdrained (by omega)

theorem load_lt_drainFuel (c : Ctx) (key : Mac) (ch : ℕ) :
    (c.slice key ch).load < drainFuel c key := by
  have hrx : (c.slice key ch).rx.card ≤ c.rx.length :=
    (Multiset.card_le_card (Multiset.filter_le _ _)).trans (card_held_le_length _)
  have hpending : (held (c.slice key ch).pending).card ≤
      (c.peer key).pendingLost.length := by
    have := card_held_le_length (c.slice key ch).pending
    rwa [show (c.slice key ch).pending.length = (c.peer key).pendingLost.length from
      length_freeWhere _ _] at this
  rw [Slice.load, drainFuel]
  omega

/-- The drain started by a packet handler empties the buffer up to the next gap. -/
theorem drain_receives (hS : Honest Q ch S) (now : U32) (hhas : c.has key)
    (h : RecvOk Q ch S (c.slice key ch)) (hquiet : Quiet Q key (drain c key ch now))
    (hclean : ¬Q.overrun → drainClean c key ch now = true) :
    Receives Q ch S key 0 c (drain c key ch now) ∧
      Drained ((drain c key ch now).slice key ch) := by
  have hspec := consumeContiguous_spec hS now (drainFuel c key) c hhas h hquiet hclean
  exact ⟨hspec.1, hspec.2 (load_lt_drainFuel c key ch)⟩

end

end KeemashCore.Rel
