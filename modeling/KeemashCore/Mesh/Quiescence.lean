import KeemashCore.Mesh.Epoch

/-!
# A link at rest

When nothing is in flight and the sender holds nothing any more, the two ends of the link
agree on the next number, provided that no announcement of a loss was dropped and that
the receiver's side tables were kept tidy.  A message that times out before its numbers are
passed breaks this: both ends report it lost, but the receiver stays where it is.
-/

namespace KeemashCore.Rel

open SlotTable SelectiveRepeat

/-- Only the sender's irregular steps are allowed, and the giving up of numbers. -/
def Allow.settling : Allow where
  bufferPending := False
  overrun := False
  expireAhead := False
  disown := True
  lossy := True

/-- No packet of the binding arrives that is buffered under a pending range or moves
`expected_seq` past one, and no message expires ahead of `expected_seq`. -/
def Pairing.SettlingStep (l : Pairing) (s : Sys) (a : Action) : Prop :=
  l.Avoids Body.buffersPending s a ∧ l.Avoids Body.passesPending s a ∧ l.ExpiresBehind s a

def Body.isLost : Body → Bool
  | .lost _ => true
  | _ => false

/-- The network does not drop a LOST packet. -/
def Sys.KeepsLost (s : Sys) : Action → Prop
  | .drop index => ∀ flight ∈ s.net[index]?, flight.packet.body.isLost = false
  | _ => True

section

variable {Q : Allow} {l : Pairing} {s s₀ : Sys} {b : Bond} {S : ℕ → Sender Frame}
  {R : ℕ → Receiver Frame} {c c' : Ctx} {ch : ℕ} {now : U32}

theorem Pairing.SettlingStep.regular {a : Action} (h : l.SettlingStep s a) :
    l.Regular .settling s a where
  buffers := fun _ => h.1
  passes := fun _ => h.2.1
  expires := fun _ => h.2.2
  asks := fun h => absurd ⟨trivial, trivial⟩ h
  spares := fun h => absurd trivial h

/-! ## Announcements are heard -/

/-- A range passed to `record_lost` has been reported. -/
theorem recordLost_lost (c : Ctx) (key : Mac) (ch : ℕ) (reason : LostReason)
    (first last count : U32) :
    Set.Icc first.toNat last.toNat ⊆
      ((recordLost c .received key ch reason first last count).slice key ch).receiver.lost := by
  obtain ⟨peer, hslice⟩ := slice_recordLost c .received key ch reason first last count
  intro n hn
  rw [hslice]
  refine ⟨(first.toNat, last.toNat), ⟨.event .received key peer ch reason first last, ?_, ?_⟩,
    hn⟩
  · exact List.mem_append_right _ (List.mem_singleton_self _)
  · simp [Effect.report?]

/-- What was reported stays reported. -/
theorem lost_mono (h : c.trace <+: c'.trace) (k : Mac) (ch : ℕ) :
    (c.slice k ch).receiver.lost ⊆ (c'.slice k ch).receiver.lost := by
  rintro n ⟨x, ⟨e, he, hx⟩, hn⟩
  exact ⟨x, ⟨e, (h.filter _).subset he, hx⟩, hn⟩

/-- An announced range is reported when the announcement arrives. -/
theorem EndOk.hears (h : EndOk Q b S R c) {sessionId : U32} {lost : LostPayload}
    (hch : Channel lost.channelId) (hflag : lost.rsv &&& lostFlagReceiverDrop = 0)
    (hroot : lost.rootSessionId = b.rootSessionId)
    (hnode : lost.nodeSessionId = b.nodeSessionId) (horigin : lost.originMac = b.far)
    (htarget : lost.targetMac = b.near)
    (hquiet : Effect.cleared b.key ∉
      (Rel.handleRx c b.far ⟨sessionId, b.far, .lost lost⟩ now).1.trace) :
    Set.Icc lost.seqFirst.toNat lost.seqLast.toNat ⊆
      ((Rel.handleRx c b.far ⟨sessionId, b.far, .lost lost⟩ now).1.slice b.key
        lost.channelId).receiver.lost := by
  obtain ⟨-, hstart, hfound⟩ := h.found ⟨h.keyOf, h.knows⟩ false now
  have hbinding := hstart.ok.binding
  have hbound : boundPeer (peerFind c b.far false now).1 (peerFind c b.far false now).2
      lost.rootSessionId lost.nodeSessionId = some b.key := by
    have hready := congrArg Binding.ready hbinding
    have hroot' := congrArg Binding.rootSessionId hbinding
    have hnode' := congrArg Binding.nodeSessionId hbinding
    simp only [Peer.binding, Bond.binding] at hready hroot' hnode'
    simp [hfound, boundPeer, hready, hroot', hnode', hroot, hnode]
  have hlocal : (peerFind c b.far false now).1.cfg.localMac = b.near := hstart.ok.localMac
  have hform : ¬(lost.channelId = 0 ∨ lost.channelId ≥ channelCount ∨
      lost.originMac ≠ b.far ∨ lost.targetMac ≠ (peerFind c b.far false now).1.cfg.localMac) := by
    rw [hlocal, horigin, htarget]
    have hpos := hch.1
    have hlt := hch.2
    simp only [ne_eq, not_true_eq_false, or_false]
    omega
  simp only [Rel.handleRx, ne_eq, not_true_eq_false, if_false, Rel.handleLostPacket, hbound,
    if_neg hform, if_neg (not_not.mpr hflag)] at hquiet ⊢
  split
  · exact recordLost_lost _ _ _ _ _ _ _
  · split
    · split
      · exact recordLost_lost _ _ _ _ _ _ _
      · next hout hbefore hfull =>
          rw [if_neg hout, if_pos hbefore, if_neg hfull] at hquiet
          exact absurd (cleared_mem _ b.key .overflow) hquiet
    · exact recordLost_lost _ _ _ _ _ _ _

/-- Every announcement of a loss is in flight or was heard. -/
def Pairing.Announced (l : Pairing) (s : Sys) : Prop :=
  ∀ side packet, Effect.send (l.key side) packet ∈ (s.ctx side).trace →
    Effect.announces (.send (l.key side) packet) = true →
      ⟨side, packet⟩ ∈ s.net ∨ ∀ lost, packet.body = .lost lost →
        Set.Icc lost.seqFirst.toNat lost.seqLast.toNat ⊆
          (l.receiver s side.other lost.channelId).lost

/-- An announcement that an end of the link has sent. -/
theorem Linked.announcement (h : Linked Q l s) {side : Side} {packet : Packet}
    (hsent : Effect.send (l.key side) packet ∈ (s.ctx side).trace)
    (hann : Effect.announces (.send (l.key side) packet) = true) :
    ∃ sessionId lost, packet = ⟨sessionId, (l.bond side).near, .lost lost⟩ ∧
      Channel lost.channelId ∧ lost.rsv &&& lostFlagReceiverDrop = 0 ∧
      lost.rootSessionId = l.rootSessionId ∧ lost.nodeSessionId = l.nodeSessionId ∧
      lost.originMac = (l.bond side).near ∧ lost.targetMac = (l.bond side).far := by
  obtain ⟨sessionId, srcMac, body⟩ := packet
  cases body with
  | lost lost =>
      have hflag : lost.rsv &&& lostFlagReceiverDrop = 0 := by
        simpa [Effect.announces, Effect.lost?] using hann
      have hlog : Effect.send (l.key side) ⟨sessionId, srcMac, .lost lost⟩ ∈
          ((s.ctx side).slice (l.key side) lost.channelId).log :=
        List.mem_filter.mpr ⟨hsent, by simp [Effect.concerns, Body.channel?]⟩
      have hch : Channel lost.channelId := by
        by_contra hch
        rw [((h.ends side).outside _ hch).log] at hlog
        exact absurd hlog List.not_mem_nil
      obtain ⟨key, sessionId', lost', heq, hroot, hnode, horigin, htarget⟩ :=
        ((h.ends side).send _ hch).announced _ hlog hann
      simp only [Effect.send.injEq, Packet.mk.injEq, Body.lost.injEq] at heq
      obtain ⟨-, -, rfl, rfl⟩ := heq
      have hbinding : ((s.ctx side).slice (l.key side) lost.channelId).binding =
          (l.bond side).binding := (h.ends side).binding
      rw [hbinding] at hroot hnode
      refine ⟨sessionId, lost, rfl, hch, hflag, hroot.trans ?_, hnode.trans ?_, horigin,
        htarget⟩
      · cases side
        · rfl
        · rfl
      · cases side
        · rfl
        · rfl
  | _ => exact absurd hann (by simp [Effect.announces, Effect.lost?])

/-- What is in flight stays there unless it is delivered or dropped. -/
theorem Sys.mem_netAfter {flight : Flight} (h : flight ∈ s.net) (a : Action) :
    flight ∈ s.netAfter a ∨ ∃ index, s.net[index]? = some flight ∧
      ((∃ now, a = .deliver index now) ∨ a = .drop index) := by
  have herase (index : ℕ) : flight ∈ s.net.eraseIdx index ∨ s.net[index]? = some flight := by
    obtain ⟨i, hi⟩ := List.mem_iff_getElem?.mp h
    by_cases heq : i = index
    · exact .inr (heq ▸ hi)
    · exact .inl (List.mem_eraseIdx_iff_getElem?.mpr ⟨i, heq, hi⟩)
  cases a with
  | call side call now => exact .inl h
  | deliver index now =>
      exact (herase index).imp_right fun hget => ⟨index, hget, .inl ⟨now, rfl⟩⟩
  | drop index => exact (herase index).imp_right fun hget => ⟨index, hget, .inr rfl⟩
  | duplicate index => exact .inl (List.mem_append_left _ h)

/-- The end that a delivered announcement reaches has heard it. -/
theorem Linked.heard (h : Linked Q l s) {index : ℕ} {side : Side} {packet : Packet}
    (hget : s.net[index]? = some ⟨side.other, packet⟩)
    (hsent : Effect.send (l.key side.other) packet ∈ (s.ctx side.other).trace)
    (hann : Effect.announces (.send (l.key side.other) packet) = true) {c : Ctx}
    (hact : s.acted (.deliver index now) = some (side, c))
    (hquiet : Effect.cleared (l.key side) ∉ c.trace) {lost : LostPayload}
    (hbody : packet.body = .lost lost) :
    Set.Icc lost.seqFirst.toNat lost.seqLast.toNat ⊆
      (c.slice (l.key side) lost.channelId).receiver.lost := by
  obtain ⟨sessionId, lost', rfl, hch, hflag, hroot, hnode, horigin, htarget⟩ :=
    h.announcement hsent hann
  obtain rfl : lost' = lost := by simpa using hbody
  have hfar : (l.bond side.other).near = (l.bond side).far := (l.far_bond side).symm
  have hnear : (l.bond side.other).far = (l.bond side).near := by
    rw [l.far_bond, Side.other_other]
  have hmac : (s.ctx side.other).cfg.localMac = (l.bond side).far :=
    (h.ends side.other).localMac.trans hfar
  have hc : c = (handleRx (s.ctx side) (l.bond side).far
      ⟨sessionId, (l.bond side).far, .lost lost'⟩ now).1 := by
    simp only [Sys.acted, hget, Side.other_other, hmac, hfar, Option.some.injEq,
      Prod.mk.injEq, true_and] at hact
    exact hact.symm
  rw [hc] at hquiet ⊢
  refine (h.ends side).hears hch hflag (hroot.trans ?_) (hnode.trans ?_)
    (horigin.trans hfar) (htarget.trans hnear) hquiet
  · cases side
    · rfl
    · rfl
  · cases side
    · rfl
    · rfl

/-- An action that drops no LOST packet keeps every announcement in flight or heard. -/
theorem Pairing.Announced.step (h : l.Announced s) (hlink : Linked Q l s)
    (hQ : Q.disown → Q.lossy) (hkept : l.Kept s) {a : Action} (hregular : l.Regular Q s a)
    (hkept' : l.Kept (s.step a)) (hkeeps : s.KeepsLost a) : l.Announced (s.step a) := by
  -- What is neither delivered nor dropped is in flight still.
  have hfly (flight : Flight) (hflight : flight ∈ s.net)
      (hnot : ∀ index now, a = .deliver index now → s.net[index]? ≠ some flight)
      (hlost : flight.packet.body.isLost = true) : flight ∈ s.netAfter a := by
    rcases s.mem_netAfter hflight a with hmem | ⟨index, hget, ⟨now, heq⟩ | rfl⟩
    · exact hmem
    · exact absurd hget (hnot index now heq)
    · have hkept := hkeeps flight hget
      rw [hlost] at hkept
      exact absurd hkept (by simp)
  have hisLost (side : Side) (packet : Packet)
      (hann : Effect.announces (.send (l.key side) packet) = true) :
      packet.body.isLost = true := by
    obtain ⟨sessionId, srcMac, body⟩ := packet
    cases body with
    | lost _ => rfl
    | _ => exact absurd hann (by simp [Effect.announces, Effect.lost?])
  cases hact : s.acted a with
  | none =>
      rw [Sys.step_unacted hact]
      intro side packet hsent hann
      refine (h side packet hsent hann).imp_left fun hflight => ?_
      refine hfly _ hflight (fun index now heq hget => ?_) (hisLost side packet hann)
      subst heq
      simp [Sys.acted, hget] at hact
  | some x =>
      obtain ⟨side, c⟩ := x
      have hstep := hlink.acted hQ hkept hregular hkept' hact
      have hself := s.ctx_setCtx side c (s.netAfter a ++
        (newEffects (s.ctx side) c).filterMap (flightOf (s.key side) side))
      have hother := s.ctx_setCtx_other side c (s.netAfter a ++
        (newEffects (s.ctx side) c).filterMap (flightOf (s.key side) side))
      have hnet : (s.step a).net = s.netAfter a ++
          (newEffects (s.ctx side) c).filterMap (flightOf (s.key side) side) := by
        rw [Sys.step_acted hact]
      rw [← Sys.step_acted hact] at hself hother
      intro who packet hsent hann
      rw [hnet]
      rcases side.cases_other who with rfl | rfl
      · rw [hself] at hsent
        by_cases hold : Effect.send (l.key who) packet ∈ (s.ctx who).trace
        · rcases h who packet hold hann with hflight | hheard
          · refine .inl (List.mem_append_left _ (hfly _ hflight (fun index now heq hget => ?_)
              (hisLost who packet hann)))
            subst heq
            simp only [Sys.acted, hget, Option.some.injEq, Prod.mk.injEq] at hact
            exact who.other_ne hact.1
          · refine .inr fun lost hbody => ?_
            rw [Pairing.receiver, hother]
            exact hheard lost hbody
        · have hnew : Effect.send (l.key who) packet ∈ newEffects (s.ctx who) c := by
            obtain ⟨rest, hrest⟩ := hstep.trace
            rw [← hrest, List.mem_append] at hsent
            rw [newEffects, ← hrest, List.drop_left]
            exact hsent.resolve_left hold
          refine .inl (List.mem_append_right _ (List.mem_filterMap.mpr ⟨_, hnew, ?_⟩))
          rw [hlink.key]
          exact if_pos rfl
      · rw [hother] at hsent
        rcases h side.other packet hsent hann with hflight | hheard
        · by_cases hdelivered : ∃ index now, a = .deliver index now ∧
              s.net[index]? = some ⟨side.other, packet⟩
          · obtain ⟨index, now, rfl, hget⟩ := hdelivered
            refine .inr fun lost hbody => ?_
            have hquiet := (hkept' side).cleared
            rw [hself] at hquiet
            rw [Side.other_other, Pairing.receiver, hself]
            exact hlink.heard hget hsent hann hact hquiet hbody
          · refine .inl (List.mem_append_left _ (hfly _ hflight (fun index now heq hget => ?_)
              (hisLost side.other packet hann)))
            exact hdelivered ⟨index, now, heq, hget⟩
        · refine .inr fun lost hbody => ?_
          have hlost := hheard lost hbody
          rw [Side.other_other, Pairing.receiver] at hlost ⊢
          rw [hself]
          exact hlost.trans (lost_mono hstep.trace _ _)

/-! ## Agreement at rest -/

theorem Epoch.announced (hopen : l.Opens s₀)
    (h : Epoch l (fun s a => l.SettlingStep s a ∧ s.KeepsLost a) s₀ s) : l.Announced s := by
  induction h with
  | start =>
      intro side packet hsent
      rw [Sys.ctx_fresh] at hsent
      exact absurd hsent List.not_mem_nil
  | step hepoch hstep hkept' ih =>
      obtain ⟨hlink, hkept⟩ := hepoch.linked (Q := .settling) hopen (fun _ => trivial)
        fun s a hstep => hstep.1.regular
      exact ih.step hlink (fun _ => trivial) hkept hstep.1.regular hkept' hstep.2

/-- With nothing in flight, every announced range was heard. -/
theorem Pairing.Announced.arrived (h : l.Announced s) (hnet : s.net = []) (side : Side)
    {x : ℕ × ℕ} (hx : x ∈ (l.sender s side ch).losts) :
    Set.Icc x.1 x.2 ⊆ (l.receiver s side.other ch).lost := by
  obtain ⟨e, he, hlost⟩ := hx
  obtain ⟨hsent, hconcerns⟩ := List.mem_filter.mp he
  cases e with
  | send key packet =>
      obtain ⟨sessionId, srcMac, body⟩ := packet
      cases body with
      | lost lost =>
          simp only [Effect.concerns, Body.channel?, Bool.and_eq_true, beq_iff_eq,
            Option.some.injEq] at hconcerns
          obtain ⟨rfl, rfl⟩ := hconcerns
          have hann : Effect.announces (.send (l.key side) ⟨sessionId, srcMac, .lost lost⟩) =
              true := by
            rw [Effect.announces, hlost]
            rfl
          have hrange : (lost.seqFirst.toNat, lost.seqLast.toNat) = x := by
            simp only [Effect.lost?] at hlost
            split at hlost
            · exact Option.some.inj hlost
            · exact absurd hlost (by simp)
          rcases h side _ hsent hann with hflight | hheard
          · rw [hnet] at hflight
            exact absurd hflight List.not_mem_nil
          · rw [← hrange]
            exact hheard lost rfl
      | _ => exact absurd hlost (by simp [Effect.lost?])
  | _ => exact absurd hlost (by simp [Effect.lost?])

/-- A receiver with no gap has empty side tables. -/
theorem empty_tables {key : Mac} (hrecv : RecvOk Q ch (S ch) (c.slice key ch))
    (hrx : (c.slice key ch).receiver.rx = ∅) (hpend : (c.slice key ch).receiver.pend = ∅) :
    (∀ slot ∈ used c.rx, slot.isFor key ch = false) ∧
      ∀ range ∈ used (c.peer key).pendingLost, range.channel ≠ ch := by
  constructor
  · intro slot hslot
    by_contra hfor
    have hmem : slot.numbered ∈ (c.slice key ch).receiver.rx := by
      rw [Bool.not_eq_false] at hfor
      exact ⟨slot, Multiset.mem_filter.mpr ⟨mem_used.mp hslot, hfor⟩, rfl⟩
    rw [hrx] at hmem
    exact Set.notMem_empty _ hmem
  · rintro range hrange rfl
    obtain ⟨i, hi⟩ := mem_held_iff_entryAt.mp (mem_used.mp hrange)
    have hon : OnChannel range.channel (c.peer key).pendingLost i range := ⟨hi, rfl⟩
    have hon' : OnChannel range.channel (c.slice key range.channel).pending i range :=
      ⟨entryAt_pendingOn.mpr hon, rfl⟩
    have hle := (hrecv.pending_ok.range i range hon' (by simp)).1
    have hmem : range.first.toNat ∈ (c.slice key range.channel).receiver.pend := by
      rw [receiver_pend hrecv.pending_channel]
      exact ⟨i, range, hon', le_rfl, hle⟩
    rw [hpend] at hmem
    exact Set.notMem_empty _ hmem

/-- In every epoch that drops no LOST packet, keeps the side tables tidy and lets no message
expire ahead, a link at rest has no gap. -/
theorem Epoch.agrees_at_rest (hopen : l.Opens s₀)
    (h : Epoch l (fun s a => l.SettlingStep s a ∧ s.KeepsLost a) s₀ s) (side : Side)
    (hch : Channel ch) (htime : ch ≠ channelTime) (hnet : s.net = [])
    (htx : ∀ slot ∈ used (s.ctx side).tx, slot.isFor (l.key side) ch = false) :
    ((s.ctx side.other).peer (l.key side.other)).expectedSeq ch =
        ((s.ctx side).peer (l.key side)).nextSeq ch ∧
      (∀ slot ∈ used (s.ctx side.other).rx, slot.isFor (l.key side.other) ch = false) ∧
      ∀ range ∈ used ((s.ctx side.other).peer (l.key side.other)).pendingLost,
        range.channel ≠ ch := by
  obtain ⟨hlink, -⟩ := h.linked (Q := .settling) hopen (fun _ => trivial)
    fun s a hstep => hstep.1.regular
  have hsteps := hlink.link side ch hch
  have hbounded := Steps.bounded hsteps (bounded_fresh _)
  have htidy := Steps.tidy (P := linkPolicy .settling ch) id id hsteps (bounded_fresh _)
    (tidy_fresh _)
  have hagreed := Steps.agreed (P := linkPolicy .settling ch) htime id hsteps (bounded_fresh _)
    agreed_fresh
  have hempty : (l.sender s side ch).tx = ∅ := by
    refine Set.eq_empty_of_forall_notMem ?_
    rintro x ⟨slot, hslot, -⟩
    rw [Ctx.slice, Multiset.mem_filter] at hslot
    rw [htx slot (mem_used.mpr hslot.1)] at hslot
    exact absurd hslot.2 (by simp)
  have hdrained := (hlink.ends side.other).drained ch hch
  obtain ⟨hexp, hrx, hpend⟩ := hagreed.quiescent hbounded htidy hdrained.1 hdrained.2 hempty
    fun x hx => (h.announced hopen).arrived hnet side hx
  have hrecv := (hlink.ends side.other).recv ch hch
  exact ⟨BitVec.eq_of_toNat_eq hexp, empty_tables hrecv hrx hpend⟩

end

instance decidableKeepsLost (s : Sys) : ∀ a : Action, Decidable (s.KeepsLost a)
  | .drop index =>
      inferInstanceAs (Decidable (∀ flight ∈ s.net[index]?, flight.packet.body.isLost = false))
  | .call _ _ _ => inferInstanceAs (Decidable True)
  | .deliver _ _ => inferInstanceAs (Decidable True)
  | .duplicate _ => inferInstanceAs (Decidable True)

instance (l : Pairing) (s : Sys) (a : Action) : Decidable (l.SettlingStep s a) :=
  inferInstanceAs (Decidable (_ ∧ _ ∧ _))

/-- One message that arrives and is acknowledged. -/
theorem agrees_at_rest_one :
    let s := smallSys.fresh.run
      [.call .node (.submit 0 2 [1, 2, 3] 2) 10, .deliver 0 20, .deliver 0 30]
    (s.root.peer 0x11).expectedSeq 2 = (s.node.peer 0).nextSeq 2 ∧
      (∀ slot ∈ used s.root.rx, slot.isFor 0x11 2 = false) ∧
      ∀ range ∈ used (s.root.peer 0x11).pendingLost, range.channel ≠ 2 :=
  Epoch.agrees_at_rest opens_smallSys (Epoch.start.run (by decide +kernel)) .node (by decide)
    (by decide) (by decide +kernel) (by decide +kernel)

/-! ## A message that expires ahead -/

/-- The first of two fragments arrives, the second one and the acknowledgement are dropped,
and then the message times out at the root. -/
def expireActions : List Action :=
  [.call .node (.submit 0 2 (List.replicate 200 7) 2) 10, .deliver 0 20, .drop 0, .drop 0,
    .call .root .poll 20000, .deliver 0 20010]

/-- The root still waits for the second fragment. -/
theorem waits_after_expiry :
    ¬∀ (l : Pairing) (s₀ s : Sys), l.Opens s₀ → Epoch l (fun s a => s.KeepsLost a) s₀ s →
      ∀ side ch, Channel ch → ch ≠ channelTime → s.net = [] →
        (∀ slot ∈ used (s.ctx side).tx, slot.isFor (l.key side) ch = false) →
        ((s.ctx side.other).peer (l.key side.other)).expectedSeq ch =
            ((s.ctx side).peer (l.key side)).nextSeq ch ∧
          (∀ slot ∈ used (s.ctx side.other).rx,
            slot.isFor (l.key side.other) ch = false) ∧
          ∀ range ∈ used ((s.ctx side.other).peer (l.key side.other)).pendingLost,
            range.channel ≠ ch := by
  intro h
  have hrun : smallPairing.Runs (fun s a => s.KeepsLost a) smallSys.fresh expireActions := by
    decide +kernel
  obtain ⟨hagree, -⟩ := h smallPairing smallSys _ opens_smallSys (Epoch.start.run hrun) .node 2
    (by decide) (by decide) (by decide +kernel) (by decide +kernel)
  revert hagree
  decide +kernel

end KeemashCore.Rel
