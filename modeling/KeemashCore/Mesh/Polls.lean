import KeemashCore.Mesh.Departures

/-!
# Polling an end

`keemash_rel_poll` goes over all peers of the context.  For the link it sends
frames again and gives messages up whose fragments stopped arriving; what it
does for another peer does not concern the link.
-/

namespace KeemashCore.Rel

open SlotTable SelectiveRepeat

section

variable {Q : Allow} {b : Bond} {S : ℕ → Sender Frame} {R : ℕ → Receiver Frame}
  {c c' : Ctx} {ch : ℕ} {now : U32}

/-! ## Other peers -/

/-- Another record was worked on, and no message came under assembly. -/
theorem Touches.elsewhere_shrink {k : Mac} (h : Touches (ofKey k) c c') (hk : k ≠ b.key)
    (hle : held c'.reassembly ≤ held c.reassembly) : Elsewhere b c c' := by
  refine h.elsewhere (fun _ hmem => hk hmem.symm) fun k' _ _ ch hnone => ?_
  refine Multiset.eq_zero_of_forall_notMem fun slot hslot => ?_
  obtain ⟨hheld, hfor⟩ := mem_slice_reassembly.mp hslot
  have hmem : slot ∈ (c.slice k' ch).reassembly :=
    mem_slice_reassembly.mpr ⟨Multiset.mem_of_le hle hheld, hfor⟩
  rw [hnone] at hmem
  exact Multiset.notMem_zero _ hmem

/-- What every turn of a fold keeps, the fold keeps. -/
theorem foldl_keeps {α β : Type} (g : Ctx → β) {f : Ctx → α → Ctx}
    (hf : ∀ c a, g (f c a) = g c) (as : List α) (c : Ctx) : g (as.foldl f c) = g c := by
  induction as generalizing c with
  | nil => rfl
  | cons a as ih => rw [List.foldl_cons, ih, hf]

theorem reassembly_clearPeerBuffers (c : Ctx) (key : Mac) (reason : LostReason) :
    (clearPeerBuffers c key reason).reassembly =
      freeWhere (fun slot => slot.peer == key) c.reassembly := by
  have hspans (c : Ctx) (spans : ℕ → Option (U32 × U32 × U32)) :
      (reportSpans c key reason spans).reassembly = c.reassembly := by
    refine foldl_keeps Ctx.reassembly (fun c channel => ?_) _ c
    split
    · rfl
    · rfl
  have hclear (c : Ctx) : (clearReassembly c key reason).reassembly =
      freeWhere (fun slot => slot.peer == key) c.reassembly := by
    exact congrArg (freeWhere fun slot => slot.peer == key)
      (foldl_keeps Ctx.reassembly (f := fun c (slot : ReassemblySlot) =>
        recordLost c .received key slot.channel reason slot.firstSeq
          (slot.firstSeq + BitVec.ofNat 32 slot.fragmentCount - 1)
          (BitVec.ofNat 32 slot.fragmentCount)) (fun _ _ => rfl) _ c)
  have hrx (c : Ctx) : (clearRx c key reason).reassembly = c.reassembly :=
    foldl_keeps Ctx.reassembly (f := fun c (slot : RxSlot) =>
      recordLost c .received key slot.channel reason slot.seq slot.seq 1)
      (fun _ _ => rfl) _ c
  rw [clearPeerBuffers, hspans]
  refine (hclear _).trans ?_
  rw [hrx]
  rfl

theorem elsewhere_clearPeerBuffers {k : Mac} (hk : k ≠ b.key) (reason : LostReason) :
    Elsewhere b c (clearPeerBuffers c k reason) := by
  refine ((Touches.refl _ c).clearPeerBuffers fun _ hmem => hmem).elsewhere_shrink hk ?_
  rw [reassembly_clearPeerBuffers, held_freeWhere]
  exact Multiset.filter_le _ _

/-! ## Routes -/

theorem touches_pollRoutes (now : U32) (keys : List Mac) (c : Ctx) :
    Touches Set.univ c (pollRoutes now keys c) := by
  induction keys generalizing c with
  | nil => exact .refl _ c
  | cons key keys ih =>
      rw [pollRoutes]
      refine Touches.trans ?_ (ih _)
      split
      · exact (Touches.refl _ c).clearPeerBuffers (Set.subset_univ _)
      · exact .refl _ c

/-- No route of the link times out, and the others do not matter. -/
theorem elsewhere_pollRoutes (keys : List Mac)
    (hquiet : Effect.cleared b.key ∉ (pollRoutes now keys c).trace) :
    Elsewhere b c (pollRoutes now keys c) := by
  induction keys generalizing c with
  | nil => exact .refl b c
  | cons key keys ih =>
      rw [pollRoutes] at hquiet ⊢
      refine Elsewhere.trans ?_ (ih hquiet)
      split
      · next hdown =>
          refine elsewhere_clearPeerBuffers ?_ _
          rintro rfl
          apply hquiet
          rw [if_pos hdown]
          exact (touches_pollRoutes now keys _).trace.subset (cleared_mem c b.key _)
      · exact .refl b c

/-! ## Retransmissions -/

theorem touches_retryExhausted (c : Ctx) (key : Mac) (slot : TxSlot) :
    Touches (ofKey key) c (retryExhausted c key slot) := by
  have hclear : Touches (ofKey key) c (clearPeerBuffers
      (sendLostPacket c key slot.channel .retryExhausted 0 slot.seq slot.seq).1 key
      .retryExhausted) :=
    Touches.clearPeerBuffers ((Touches.refl (ofKey key) c).sendLostPacket rfl)
      fun _ hmem => hmem
  refine hclear.modPeer_wide (fun p => ?_) (fun p => ?_) fun _ => rfl
  · rw [Peer.unbind]
    split
    · rfl
    · rfl
  · rw [Peer.unbind]
    split
    · rfl
    · rfl

theorem elsewhere_retryExhausted {k : Mac} (hk : k ≠ b.key) (slot : TxSlot) :
    Elsewhere b c (retryExhausted c k slot) := by
  refine (touches_retryExhausted c k slot).elsewhere_shrink hk ?_
  have htable : (retryExhausted c k slot).reassembly =
      freeWhere (fun slot => slot.peer == k) c.reassembly :=
    reassembly_clearPeerBuffers _ k _
  rw [htable, held_freeWhere]
  exact Multiset.filter_le _ _

theorem elsewhere_retransmitSlot {k : Mac} (hk : k ≠ b.key) {i : ℕ} {slot : TxSlot}
    (hi : entryAt c.tx i = some slot) (hpeer : slot.peer = k) :
    Elsewhere b c (retransmitSlot c k i now).1 := by
  refine Touches.elsewhere_shrink (k := k) ?_ hk ?_
  · refine (Touches.refl _ c).retransmitSlot fun other hother => ?_
    obtain rfl := Option.some.inj (hi.symm.trans hother)
    exact ⟨hpeer, rfl⟩
  · rw [retransmitSlot, hi]
    exact le_rfl

/-- The slot that is picked belongs to the peer. -/
theorem pollCandidate_peer {key : Mac} {priority i : ℕ} {slot : TxSlot}
    (h : pollCandidate c key priority now = some i) (hi : entryAt c.tx i = some slot) :
    slot.peer = key := by
  obtain ⟨found, hentry, hp⟩ := entryAt_of_findIdx h
  obtain rfl := Option.some.inj (hentry.symm.trans hi)
  simp only [Bool.and_eq_true, beq_iff_eq] at hp
  exact hp.1.2

theorem touches_pollSlots (now : U32) (visits : List (ℕ × Mac)) (c : Ctx) :
    Touches Set.univ c (pollSlots now visits c) := by
  induction visits generalizing c with
  | nil => exact .refl _ c
  | cons visit rest ih =>
      obtain ⟨priority, key⟩ := visit
      rw [pollSlots]
      split
      · exact ih c
      · split
        · exact ih c
        · split
          · exact ih c
          · split
            · exact (touches_retryExhausted c key _).mono (Set.subset_univ _)
            · refine Touches.trans ?_ (ih _)
              exact (Touches.refl _ c).retransmitSlot fun _ _ => ⟨trivial, trivial⟩

/-- The retransmission loops, which do not touch what the link receives. -/
theorem EndOk.pollSlots (h : EndOk Q b S R c) (visits : List (ℕ × Mac))
    (hquiet : Effect.cleared b.key ∉ (pollSlots now visits c).trace) :
    EndStep Q b S R c (pollSlots now visits c) ∧
      ∀ ch, ((Rel.pollSlots now visits c).slice b.key ch).recvPart =
        (c.slice b.key ch).recvPart := by
  induction visits generalizing c with
  | nil => exact ⟨.refl h, fun _ => rfl⟩
  | cons visit rest ih =>
      obtain ⟨priority, key⟩ := visit
      rw [Rel.pollSlots] at hquiet ⊢
      split
      · next hdown =>
          rw [if_pos hdown] at hquiet
          exact ih h hquiet
      · next hup =>
          rw [if_neg hup] at hquiet
          split
          · next hnone =>
              rw [hnone] at hquiet
              exact ih h hquiet
          · next i hi =>
              simp only [hi] at hquiet
              split
              · next hfree =>
                  rw [hfree] at hquiet
                  exact ih h hquiet
              · next slot hslot =>
                  have hpeer := pollCandidate_peer hi hslot
                  simp only [hslot] at hquiet
                  by_cases hkey : key = b.key
                  · subst hkey
                    split
                    · next hmany =>
                        rw [if_pos hmany] at hquiet
                        exact absurd (cleared_mem _ b.key _) hquiet
                    · next hfew =>
                        rw [if_neg hfew] at hquiet
                        obtain ⟨hstep, hkept⟩ := h.retransmitSlot hslot hpeer now
                        obtain ⟨hsteps, hrest⟩ := ih hstep.ok hquiet
                        exact ⟨hstep.trans hsteps, fun ch => (hrest ch).trans (hkept ch)⟩
                  · split
                    · have helse := elsewhere_retryExhausted (c := c) (b := b) hkey slot
                      refine ⟨.of_elsewhere h helse, fun ch => ?_⟩
                      rw [helse.slice]
                    · next hfew =>
                        rw [if_neg hfew] at hquiet
                        have helse : Elsewhere b c (Rel.retransmitSlot c key i now).1 :=
                          elsewhere_retransmitSlot hkey hslot hpeer
                        have hstep := EndStep.of_elsewhere h helse
                        obtain ⟨hsteps, hrest⟩ := ih hstep.ok hquiet
                        refine ⟨hstep.trans hsteps, fun ch => (hrest ch).trans ?_⟩
                        rw [helse.slice]

/-! ## Messages that stopped arriving -/

/-- What the fragment timeout does with a slot of a stored peer. -/
def expireSlot (c : Ctx) (key : Mac) (i : ℕ) (slot : ReassemblySlot) : Ctx :=
  let c := c.emit (.fragmentsExpired key)
  let c := recordLost c .received key slot.channel .fragmentTimeout slot.firstSeq
    slot.lastSeq (BitVec.ofNat 32 slot.fragmentCount)
  let c := (sendLostPacket c key slot.channel .fragmentTimeout lostFlagReceiverDrop
    slot.firstSeq slot.lastSeq).1
  c.setReassembly (c.reassembly.set i none)

theorem touches_expireSlot {i : ℕ} {slot : ReassemblySlot}
    (hi : entryAt c.reassembly i = some slot) {key : Mac} (hpeer : slot.peer = key) :
    Touches {(key, slot.channel)} c (expireSlot c key i slot) := by
  have hmem : (key, slot.channel) ∈ ({(key, slot.channel)} : Set (Mac × ℕ)) := rfl
  have hsent : Touches {(key, slot.channel)} c (sendLostPacket (recordLost
      (c.emit (.fragmentsExpired key)) .received key slot.channel .fragmentTimeout
      slot.firstSeq slot.lastSeq (BitVec.ofNat 32 slot.fragmentCount)) key slot.channel
      .fragmentTimeout lostFlagReceiverDrop slot.firstSeq slot.lastSeq).1 :=
    (((Touches.refl _ c).emit_silent fun _ _ => rfl).recordLost hmem).sendLostPacket hmem
  refine hsent.setReassembly fun k ch hk => filter_set_none hi ?_
  refine not_isFor_reassembly hk ?_
  rw [hpeer]
  exact hmem

theorem slice_expireSlot {i : ℕ} {slot : ReassemblySlot} (key : Mac) :
    ∃ peer, (expireSlot c key i slot).slice key slot.channel =
      { ((c.slice key slot.channel).emit (.event .received key peer slot.channel
            .fragmentTimeout slot.firstSeq slot.lastSeq)).emit
          (.send key
            { sessionId := c.localSession
              srcMac := c.cfg.localMac
              body := .lost (lostPayload (recordLost (c.emit (.fragmentsExpired key))
                .received key slot.channel .fragmentTimeout slot.firstSeq slot.lastSeq
                (BitVec.ofNat 32 slot.fragmentCount)) key slot.channel .fragmentTimeout
                lostFlagReceiverDrop slot.firstSeq slot.lastSeq) }) with
        reassembly := (held (c.reassembly.set i none)).filter
          fun slot' => slot'.isFor key slot.channel } := by
  obtain ⟨peer, hevent⟩ := slice_recordLost (c.emit (.fragmentsExpired key)) .received key
    slot.channel .fragmentTimeout slot.firstSeq slot.lastSeq
    (BitVec.ofNat 32 slot.fragmentCount)
  have hsend := slice_sendLostPacket (recordLost (c.emit (.fragmentsExpired key))
    .received key slot.channel .fragmentTimeout slot.firstSeq slot.lastSeq
    (BitVec.ofNat 32 slot.fragmentCount)) key slot.channel .fragmentTimeout
    lostFlagReceiverDrop slot.firstSeq slot.lastSeq
  rw [hevent, slice_emit_other (e := .fragmentsExpired key) rfl] at hsend
  exact ⟨peer, congrArg (fun s : Slice => { s with
    reassembly := (held (c.reassembly.set i none)).filter
      fun slot' => slot'.isFor key slot.channel }) hsend⟩

/-- A message of the link is given up. -/
theorem EndOk.expireSlot (h : EndOk Q b S R c) (hS : ∀ ch, Channel ch → Honest Q ch (S ch))
    (hlossy : Q.lossy) {i : ℕ} {slot : ReassemblySlot}
    (hi : entryAt c.reassembly i = some slot) (hpeer : slot.peer = b.key)
    (hpast : slot.lastSeq.toNat < (c.slice b.key slot.channel).expected.toNat ∨
      Q.expireAhead) : EndStep Q b S R c (expireSlot c b.key i slot) := by
  have hmem : slot ∈ (c.slice b.key slot.channel).reassembly :=
    mem_slice_reassembly.mpr ⟨mem_held_of_entryAt hi, rfl, hpeer⟩
  have hch : Channel slot.channel := by
    by_contra hch
    rw [(h.outside _ hch).reassembly] at hmem
    exact Multiset.notMem_zero _ hmem
  have hcons : (c.slice b.key slot.channel).reassembly = slot ::ₘ
      (held (c.reassembly.set i none)).filter fun s => s.isFor b.key slot.channel := by
    change (held c.reassembly).filter _ = _
    rw [held_set_none hi]
    exact Multiset.filter_cons_of_pos _ (ReassemblySlot.isFor_iff.mpr ⟨rfl, hpeer⟩)
  obtain ⟨peer, hslice⟩ := @slice_expireSlot c i slot b.key
  have hgains : Gains Q slot.channel (S slot.channel) 0 (c.slice b.key slot.channel)
      ((Rel.expireSlot c b.key i slot).slice b.key slot.channel) := by
    rw [hslice]
    exact (h.recv _ hch).expire (hS _ hch) hlossy hcons hpast rfl rfl rfl rfl
  refine .of_accepts h hch ⟨touches_expireSlot hi hpeer, hgains.ok, hgains.steps,
    hgains.send, hgains.binding, ?_⟩
  rw [hslice]
  exact h.drained _ hch

/-- What the fragment-timeout loop does with a slot that is timed out. -/
def pollFragment (now : U32) (i : ℕ) (slot : ReassemblySlot) (c : Ctx) : Ctx :=
  match peerFind c slot.peer false now with
  | (c, none) => c.setReassembly (c.reassembly.set i none)
  | (c, some key) => expireSlot c key i slot

theorem pollFragments_cons (i : ℕ) (is : List ℕ) (c : Ctx) :
    pollFragments now (i :: is) c =
      match entryAt c.reassembly i with
      | none => pollFragments now is c
      | some slot =>
          if !slot.timedOut c.cfg now then pollFragments now is c
          else pollFragments now is (pollFragment now i slot c) := by
  rw [pollFragments]
  cases entryAt c.reassembly i with
  | none => rfl
  | some slot =>
      simp only [pollFragment]
      rcases peerFind c slot.peer false now with ⟨c₁, _ | key⟩
      · rfl
      · rfl

theorem touches_pollFragments (now : U32) (is : List ℕ) (c : Ctx) :
    Touches Set.univ c (pollFragments now is c) := by
  induction is generalizing c with
  | nil => exact .refl _ c
  | cons i is ih =>
      rw [pollFragments_cons]
      split
      · exact ih c
      · next slot hi =>
          split
          · exact ih c
          · refine Touches.trans ?_ (ih _)
            have hfind := (touches_peerFind c slot.peer false now).mono (Set.subset_univ _)
            rw [pollFragment]
            split
            · next heq =>
                rw [heq] at hfind
                exact hfind.setReassembly fun _ _ hk => absurd trivial hk
            · next heq =>
                rw [heq] at hfind
                exact Touches.setReassembly
                  (((hfind.emit_silent fun _ _ => rfl).recordLost trivial).sendLostPacket
                    trivial) fun _ _ hk => absurd trivial hk

/-- The end finds the other one under its key. -/
theorem EndOk.peerFind_key (h : EndOk Q b S R c) (now : U32) :
    c.keyOf b.key = b.key ∧ peerFind c b.key false now = (c, some b.key) := by
  have hkeyOf := h.keyOf
  rw [Ctx.keyOf] at hkeyOf
  by_cases hroot : c.cfg.rootRole = true
  · have hkey : c.keyOf b.key = b.key := if_pos hroot
    have hnote : c.noteMac b.key = c := by simp [Ctx.noteMac, hroot]
    have hfind := peerFind_stored (hkey.symm ▸ h.has : c.has (c.keyOf b.key)) false now
    rw [hkey, hnote] at hfind
    exact ⟨hkey, hfind⟩
  · rw [if_neg hroot] at hkeyOf
    have hkey : c.keyOf b.key = b.key := by rw [Ctx.keyOf, if_neg hroot, hkeyOf]
    have hnote : c.noteMac b.key = c := by simp [Ctx.noteMac, ← hkeyOf]
    have hfind := peerFind_stored (hkey.symm ▸ h.has : c.has (c.keyOf b.key)) false now
    rw [hkey, hnote] at hfind
    exact ⟨hkey, hfind⟩

/-- A slot of another peer can only be at a root. -/
theorem EndOk.root_of_ne (h : EndOk Q b S R c) {slot : ReassemblySlot}
    (hslot : slot ∈ held c.reassembly) (hpeer : slot.peer ≠ b.key) :
    c.cfg.rootRole = true := by
  by_contra hroot
  have hkeyOf := h.keyOf
  have hkey : c.keyOf slot.peer = b.key := by
    rw [Ctx.keyOf, if_neg hroot] at hkeyOf ⊢
    exact hkeyOf
  have hmem : slot ∈ (c.slice slot.peer slot.channel).reassembly :=
    mem_slice_reassembly.mpr ⟨hslot, rfl, rfl⟩
  rw [h.foreign _ hkey hpeer] at hmem
  exact Multiset.notMem_zero _ hmem

/-- A timed-out slot of another peer. -/
theorem EndOk.pollFragment_other (h : EndOk Q b S R c) {i : ℕ} {slot : ReassemblySlot}
    (hi : entryAt c.reassembly i = some slot) (hpeer : slot.peer ≠ b.key) :
    Elsewhere b c (pollFragment now i slot c) ∧
      (pollFragment now i slot c).reassembly = c.reassembly.set i none := by
  have hroot := h.root_of_ne (mem_held_of_entryAt hi) hpeer
  have hkey : c.keyOf slot.peer = slot.peer := if_pos hroot
  rw [pollFragment]
  by_cases hhas : c.has (c.keyOf slot.peer)
  · have hnote : c.noteMac slot.peer = c := by simp [Ctx.noteMac, hroot]
    rw [peerFind_stored hhas, hnote, hkey]
    refine ⟨?_, rfl⟩
    exact ((touches_expireSlot hi rfl).mono (singleton_subset_ofKey _ _)).elsewhere_root
      hroot hpeer
  · rw [peerFind_missing hhas]
    refine ⟨?_, rfl⟩
    refine Touches.elsewhere_root ((Touches.refl (ofKey slot.peer) c).setReassembly
      fun k ch hk => filter_set_none hi ?_) hroot hpeer
    exact not_isFor_reassembly hk rfl

/-- The fragment-timeout loop.  A message of the link expires only when the link may give
numbers up. -/
theorem EndOk.pollFragments (h : EndOk Q b S R c)
    (hS : ∀ ch, Channel ch → Honest Q ch (S ch)) (is : List ℕ)
    (hahead : ¬Q.expireAhead → ∀ slot ∈ held c.reassembly, slot.peer = b.key →
      slot.timedOut c.cfg now = true →
        slot.lastSeq.toNat < (c.slice b.key slot.channel).expected.toNat)
    (hquiet : Quiet Q b.key (pollFragments now is c)) :
    EndStep Q b S R c (pollFragments now is c) := by
  induction is generalizing c with
  | nil => exact .refl h
  | cons i is ih =>
      rw [pollFragments_cons] at hquiet ⊢
      split
      · next hnone =>
          rw [hnone] at hquiet
          exact ih h hahead hquiet
      · next slot hi =>
          simp only [hi] at hquiet
          split
          · next hyoung =>
              rw [if_pos hyoung] at hquiet
              exact ih h hahead hquiet
          · next hold =>
              rw [if_neg hold] at hquiet
              have htime : slot.timedOut c.cfg now = true := by simpa using hold
              have hslot := mem_held_of_entryAt hi
              have hstep : EndStep Q b S R c (pollFragment now i slot c) ∧
                  (pollFragment now i slot c).reassembly = c.reassembly.set i none ∧
                  ∀ ch, ((pollFragment now i slot c).slice b.key ch).expected =
                    (c.slice b.key ch).expected := by
                by_cases hpeer : slot.peer = b.key
                · have hfind : pollFragment now i slot c = Rel.expireSlot c b.key i slot := by
                    rw [pollFragment, hpeer, (h.peerFind_key now).2]
                  rw [hfind] at hquiet ⊢
                  have hlossy : Q.lossy := by
                    by_contra hno
                    refine hquiet.expired hno ((touches_pollFragments now is _).trace.subset ?_)
                    simp [Rel.expireSlot, sendLostPacket, sendPacket, rawSend, recordLost,
                      notifyEvent, Ctx.emit, Ctx.setReassembly, Ctx.modPeer, Ctx.setPeers]
                  refine ⟨h.expireSlot hS hlossy hi hpeer ?_, rfl, fun ch => ?_⟩
                  · by_cases hallow : Q.expireAhead
                    · exact .inr hallow
                    · exact .inl (hahead hallow slot hslot hpeer htime)
                  · by_cases hch : ch = slot.channel
                    · obtain ⟨peer, hslice⟩ := @slice_expireSlot c i slot b.key
                      rw [hch, hslice]
                      rfl
                    · rw [(touches_expireSlot hi hpeer).slice]
                      intro hmem
                      exact hch (congrArg Prod.snd hmem)
                · obtain ⟨helse, htable⟩ := h.pollFragment_other hi hpeer
                  refine ⟨.of_elsewhere h helse, htable, fun ch => ?_⟩
                  rw [helse.slice]
              obtain ⟨hstep, htable, hexpected⟩ := hstep
              refine hstep.trans (ih hstep.ok ?_ hquiet)
              intro hallow other hother hpeer hlate
              rw [htable] at hother
              rw [hexpected]
              refine hahead hallow other (mem_held_set_none hother) hpeer ?_
              rwa [← hstep.cfg]

/-! ## The whole poll -/

/-- A message of the peer is about to expire although its numbers are not passed yet. -/
def expiresAhead (c : Ctx) (key : Mac) (now : U32) : Bool :=
  (used c.reassembly).any fun slot =>
    slot.peer == key && slot.timedOut c.cfg now &&
      !seqBefore slot.lastSeq ((c.peer key).expectedSeq slot.channel)

/-- A message that does not expire ahead lies behind `expected_seq`. -/
theorem EndOk.expires_behind (h : EndOk Q b S R c)
    (hS : ∀ ch, Channel ch → Honest Q ch (S ch)) (hclean : expiresAhead c b.key now = false)
    {slot : ReassemblySlot} (hslot : slot ∈ (c.slice b.key ch).reassembly)
    (hlate : slot.timedOut c.cfg now = true) :
    slot.lastSeq.toNat < (c.slice b.key ch).expected.toNat := by
  have hch : Channel ch := by
    by_contra hch
    rw [(h.outside _ hch).reassembly] at hslot
    exact Multiset.notMem_zero _ hslot
  obtain ⟨_, _, -, -, -, -, -, -, -, hbelow⟩ := (h.recv ch hch).message (hS ch hch) hslot
  have hexp := expected_lt (hS ch hch) (h.recv ch hch).toRecvCore
  have hnext := (hS ch hch).next_le
  obtain ⟨hheld, hchannel, hpeer⟩ := mem_slice_reassembly.mp hslot
  simp only [expiresAhead, List.any_eq_false, Bool.and_eq_true, beq_iff_eq,
    Bool.not_eq_true', not_and, Bool.not_eq_false] at hclean
  have hbefore := hclean slot (mem_used.mpr hheld) ⟨hpeer, hlate⟩
  rw [hchannel] at hbefore
  exact (seqBefore_iff (by omega) hexp.2 (by omega)).mp hbefore

theorem EndOk.poll (h : EndOk Q b S R c) (hS : ∀ ch, Channel ch → Honest Q ch (S ch))
    (hahead : ¬Q.expireAhead → expiresAhead c b.key now = false)
    (hquiet : Quiet Q b.key (poll c now)) : EndStep Q b S R c (poll c now) := by
  rw [Rel.poll] at hquiet ⊢
  generalize (used c.peers).map Peer.mac = keys at hquiet ⊢
  generalize hvisits : ([4, 3, 2, 1, 0].flatMap fun priority =>
    (pollOrder (pollRoutes now keys c)).map fun key => (priority, key)) = visits at hquiet ⊢
  have hslots : Effect.cleared b.key ∉
      (Rel.pollSlots now visits (pollRoutes now keys c)).trace :=
    fun hmem => hquiet.cleared ((touches_pollFragments now _ _).trace.subset hmem)
  have hroutes := elsewhere_pollRoutes keys fun hmem =>
    hslots ((touches_pollSlots now visits _).trace.subset hmem)
  have hstart := EndStep.of_elsewhere h hroutes
  obtain ⟨hsend, hkept⟩ := hstart.ok.pollSlots visits hslots
  have hsent := hstart.trans hsend
  have hmoved : EndStep Q b S R c
      (Rel.pollSlots now visits (pollRoutes now keys c)).moveCursor :=
    hsent.trans (.of_elsewhere hsent.ok ⟨rfl, rfl, List.prefix_rfl, id, fun _ _ => rfl,
      fun _ => rfl, fun _ _ _ _ => id⟩)
  refine hmoved.trans (hmoved.ok.pollFragments hS _ ?_ hquiet)
  intro hallow slot hslot hpeer hlate
  have hrecv : ((Rel.pollSlots now visits (pollRoutes now keys c)).slice b.key
      slot.channel).recvPart = (c.slice b.key slot.channel).recvPart := by
    rw [hkept, hroutes.slice]
  simp only [Slice.recvPart, Prod.mk.injEq] at hrecv
  obtain ⟨hexpected, -, hreassembly, -⟩ := hrecv
  have hmem : slot ∈ (c.slice b.key slot.channel).reassembly := by
    rw [← hreassembly]
    exact mem_slice_reassembly.mpr ⟨hslot, rfl, hpeer⟩
  have hbehind := h.expires_behind hS (hahead hallow) hmem (hmoved.cfg ▸ hlate)
  rw [← hexpected] at hbehind
  exact hbehind

end

end KeemashCore.Rel
