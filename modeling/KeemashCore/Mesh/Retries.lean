import KeemashCore.Mesh.Ledger

/-!
# The retry counters

`retries` is a byte.  `keemash_rel_poll` gives a frame up before the byte is full, but a NACK
retransmits without looking at it, and so the byte wraps.  As long as no NACK asks for a frame
whose byte is full, the counters are right, and what the code concludes from them is right.
-/

namespace KeemashCore.Rel

open SlotTable LittleEndian

/-! ## The counts -/

namespace Ledger

/-- The counts are right, and a submit has sent a frame at most once. -/
structure Counted (l : Ledger) : Prop where
  faithful : l.Faithful
  sent : ∀ i slot, entryAt l.ctx.tx i = some slot → l.sent i ≤ 1

theorem Counted.withCtx {l : Ledger} (h : l.Counted) {c : Ctx} (hc : Retains l.ctx c) :
    (l.withCtx c).Counted := by
  constructor
  · intro i slot hslot
    obtain ⟨old, hold, hretries⟩ := hc.tx.entry i slot hslot
    rw [hretries]
    exact h.faithful i old hold
  · intro i slot hslot
    obtain ⟨old, hold, -⟩ := hc.tx.entry i slot hslot
    exact h.sent i old hold

theorem Counted.retransmit {l : Ledger} (h : l.Counted) {key : Mac} {i : ℕ} {now : U32}
    {slot : TxSlot} (hslot : entryAt l.ctx.tx i = some slot) (hroom : slot.retries ≠ 255) :
    (l.retransmit key i now).Counted := by
  have htx : (l.retransmit key i now).ctx.tx = l.ctx.tx.set i (some (slot.replayed now)) := by
    simp only [Ledger.retransmit, retransmitSlot, hslot]
    rfl
  have hlt := lt_length_of_entryAt hslot
  constructor
  · intro j slot' hslot'
    rw [htx, entryAt_set hlt] at hslot'
    simp only [Ledger.retransmit]
    split at hslot'
    · next heq =>
        cases hslot'
        have hcount := h.faithful i slot hslot
        rw [heq, Function.update_self, ← hcount, TxSlot.replayed]
        have hne : slot.retries.toNat ≠ 255 := fun hfull =>
          hroom (BitVec.eq_of_toNat_eq hfull)
        have hbound := slot.retries.isLt
        have hone : (1 : BitVec 8).toNat = 1 := rfl
        have hsum : (slot.retries + 1).toNat = slot.retries.toNat + 1 := by
          rw [BitVec.toNat_add, hone]
          omega
        exact hsum
    · next hne =>
        rw [Function.update_of_ne hne]
        exact h.faithful j slot' hslot'
  · intro j slot' hslot'
    rw [htx, entryAt_set hlt] at hslot'
    split at hslot'
    · next heq =>
        rw [heq]
        exact h.sent i slot hslot
    · exact h.sent j slot' hslot'

theorem Counted.submit {l : Ledger} (h : l.Counted) (mac : Mac) (channel : ℕ)
    (payload : List UInt8) (priority : ℕ) (now : U32) :
    (l.submit mac channel payload priority now).Counted := by
  have hsends := submit_sends l.ctx mac channel payload priority now
  have hcounts : ∀ i slot, entryAt (l.submit mac channel payload priority now).ctx.tx i =
      some slot → slot.retries.toNat = (l.submit mac channel payload priority now).calls i ∧
        (l.submit mac channel payload priority now).sent i ≤ 1 := by
    intro i slot hslot
    have hafter : entryAt (Rel.submit l.ctx mac channel payload priority now).1.tx i =
        some slot := hslot
    simp only [Ledger.submit, hafter]
    rcases hsends.slots i slot hafter with hold | ⟨hfree, hretries, hsent⟩
    · simp only [hold]
      exact ⟨h.faithful i slot hold, h.sent i slot hold⟩
    · simp only [hfree]
      exact ⟨by rw [hretries]; rfl, hsent⟩
  exact ⟨fun i slot hslot => (hcounts i slot hslot).1, fun i slot hslot =>
    (hcounts i slot hslot).2⟩

end Ledger

theorem tx_ackSlots (c : Ctx) (key : Mac) (ack : AckPayload) (now : U32) :
    (ackSlots c key ack now).tx = freeWhere (fun slot => slot.isFor key ack.channelId &&
      ack.accepts slot.seq) c.tx := by
  have hsampled : ∀ (slots : List TxSlot) (c : Ctx), (slots.foldl (fun c slot =>
      if slot.retries = 0 ∧ slot.firstSentMs ≠ 0 then
        c.modPeer key fun p => updateRto c.cfg p (now - slot.firstSentMs)
      else c) c).tx = c.tx := by
    intro slots
    induction slots with
    | nil => exact fun _ => rfl
    | cons slot slots ih =>
        intro c
        rw [List.foldl_cons, ih]
        split
        · rfl
        · rfl
  exact congrArg (freeWhere _) (hsampled _ c)

/-- The slot that a NACK finds after its acknowledgement has freed others. -/
theorem nackedSlot_of_txFind {c c' : Ctx} (htx : c'.tx = c.tx) {key : Mac} {ack : AckPayload}
    {now : U32} {i : ℕ} {slot : TxSlot}
    (hfind : txFind (ackSlots c' key ack now) key ack.channelId ack.nackSeq = some i)
    (hslot : entryAt (ackSlots c' key ack now).tx i = some slot) :
    c.nackedSlot key ack = some slot := by
  rw [txFind, tx_ackSlots, htx, findIdx_freeWhere] at hfind
  rw [tx_ackSlots, htx, entryAt_freeWhere] at hslot
  have hcheck : (fun slot : TxSlot => (slot.isFor key ack.channelId &&
      slot.seq == ack.nackSeq) && !(slot.isFor key ack.channelId && ack.accepts slot.seq)) =
      fun slot : TxSlot => slot.isFor key ack.channelId && slot.seq == ack.nackSeq &&
        !ack.accepts slot.seq := by
    funext slot
    cases slot.isFor key ack.channelId with
    | true => rfl
    | false => rfl
  rw [hcheck] at hfind
  rw [Ctx.nackedSlot, hfind]
  exact (Option.filter_eq_some_iff.1 hslot).1

namespace Ledger

theorem Counted.handleAckPacket {l : Ledger} (h : l.Counted) {src : Mac} {ack : AckPayload}
    {nack : Bool} {now : U32}
    (hroom : ∀ key, ackKey l.ctx src ack now = some key → nack = true → ack.nackSeq ≠ 0 →
      ∀ slot ∈ l.ctx.nackedSlot key ack, slot.retries ≠ 255) :
    (l.handleAckPacket src ack nack now).Counted := by
  have hfind := (Retains.refl l.ctx).peerFind src false now
  have htx : (peerFind l.ctx src false now).1.tx = l.ctx.tx := by
    rw [peerFind]
    split
    · split
      · rfl
      · rfl
    · rfl
  simp only [Ledger.handleAckPacket]
  cases hkey : ackKey l.ctx src ack now with
  | none => exact h.withCtx hfind
  | some key =>
      have hacked : Retains l.ctx (ackSlots ((peerFind l.ctx src false now).1.modPeer key
          Peer.routeSeen) key ack now) := (hfind.modPeer _).ackSlots
      simp only
      split
      · next hnack =>
          cases hi : txFind (ackSlots ((peerFind l.ctx src false now).1.modPeer key
              Peer.routeSeen) key ack now) key ack.channelId ack.nackSeq with
          | none => exact h.withCtx hacked.sendLost
          | some i =>
              obtain ⟨slot, hslot, -⟩ := entryAt_of_findIdx hi
              have hseen : ((peerFind l.ctx src false now).1.modPeer key
                  Peer.routeSeen).tx = l.ctx.tx := htx
              have hnacked : l.ctx.nackedSlot key ack = some slot :=
                nackedSlot_of_txFind hseen hi hslot
              exact (h.withCtx hacked).retransmit hslot
                (hroom key hkey hnack.1 hnack.2 slot hnacked)
      · exact h.withCtx hacked

theorem Counted.receive {l : Ledger} (h : l.Counted) {src : Mac} {packet : List UInt8}
    {now : U32} (hroom : l.Unwrapped (.receive src packet, now)) :
    (l.receive src packet now).Counted := by
  rw [Ledger.receive]
  cases harrives : arrives src packet with
  | none =>
      apply h.withCtx
      rw [handleRxBytes_arrives, harrives]
      exact .refl _
  | some p =>
      simp only [Option.bind_some]
      cases hack : p.body.ack? with
      | none =>
          apply h.withCtx
          rw [handleRxBytes_arrives, harrives]
          simp only [handleRx]
          split
          · exact .refl _
          · cases hbody : p.body with
            | hello hello => exact (Retains.refl _).handleHello
            | helloAck ack => exact (Retains.refl _).handleHelloAck
            | data rh payload => exact (Retains.refl _).handleData
            | lost lost => exact (Retains.refl _).handleLostPacket
            | ack payload =>
                rw [hbody] at hack
                cases hack
            | nack payload =>
                rw [hbody] at hack
                cases hack
      | some kind =>
          obtain ⟨ack, nack⟩ := kind
          apply h.handleAckPacket
          intro key hkey hnack
          have hcall : l.ctx.acknowledges (.receive src packet, now) = some ⟨key, ack, nack⟩ := by
            simp only [Ctx.acknowledges, harrives, Option.bind_some, hack, hkey,
              Option.map_some]
          exact hroom _ hcall hnack

/-- A frame that is not given up has room in its counter. -/
theorem Counted.pollSlots {l : Ledger} (h : l.Counted) (now : U32)
    (visits : List (ℕ × Mac)) :
    (pollSlots now visits l).1.Counted ∧ ∀ visit ∈ (pollSlots now visits l).2,
      (visit.exhausted = true ↔ visit.calls ≥ l.ctx.cfg.maxRetries.toNat) := by
  induction visits generalizing l with
  | nil => exact ⟨h, fun _ hvisit => absurd hvisit List.not_mem_nil⟩
  | cons visit visits ih =>
      obtain ⟨priority, key⟩ := visit
      simp only [Ledger.pollSlots]
      split
      · exact ih h
      · cases pollCandidate l.ctx key priority now with
        | none => exact ih h
        | some i =>
            simp only
            cases hslot : entryAt l.ctx.tx i with
            | none => exact ih h
            | some slot =>
                have hcount := h.faithful i slot hslot
                simp only
                split
                · next hfull =>
                    refine ⟨h.withCtx (Retains.refl _).retryExhausted, ?_⟩
                    intro visit hvisit
                    rw [List.mem_singleton.1 hvisit]
                    have hle : l.ctx.cfg.maxRetries.toNat ≤ l.calls i := by
                      rw [← hcount]
                      exact hfull
                    exact iff_of_true rfl hle
                · next hroom =>
                    have hlt : l.calls i < l.ctx.cfg.maxRetries.toNat := by
                      rw [← hcount]
                      exact not_le.1 hroom
                    have hbound := l.ctx.cfg.maxRetries.isLt
                    have hnext : (l.retransmit key i now).Counted := by
                      apply h.retransmit hslot
                      intro hfull
                      rw [hfull] at hcount
                      have hvalue : (255 : BitVec 8).toNat = 255 := rfl
                      omega
                    have hcfg : (l.retransmit key i now).ctx.cfg = l.ctx.cfg := by
                      simp only [Ledger.retransmit, retransmitSlot, hslot]
                      rfl
                    obtain ⟨hcounted, hvisits⟩ := ih hnext
                    refine ⟨hcounted, ?_⟩
                    intro visit hvisit
                    rcases List.mem_cons.1 hvisit with rfl | hvisit
                    · exact iff_of_false Bool.false_ne_true (not_le.2 hlt)
                    · rw [← hcfg]
                      exact hvisits visit hvisit

theorem Counted.poll {l : Ledger} (h : l.Counted) (now : U32) :
    (l.poll now).1.Counted ∧ l.ExhaustsAtLimit (.poll, now) := by
  have hroutes := (Retains.refl l.ctx).pollRoutes now ((used l.ctx.peers).map Peer.mac)
  obtain ⟨hcounted, hvisits⟩ := (h.withCtx hroutes).pollSlots now
    ([4, 3, 2, 1, 0].flatMap fun priority => (pollOrder (pollRoutes now
      ((used l.ctx.peers).map Peer.mac) l.ctx)).map fun key => (priority, key))
  constructor
  · apply hcounted.withCtx
    have hmoved : ∀ c : Ctx, Retains c c.moveCursor := fun c => (Retains.refl c).tables rfl rfl
    exact (hmoved _).pollFragments now _
  · intro visit hvisit
    rw [← hroutes.cfg]
    exact hvisits visit hvisit

theorem Counted.operate {l : Ledger} (h : l.Counted) {op : Operation × U32}
    (hroom : l.Unwrapped op) : (l.operate op).Counted := by
  obtain ⟨op, now⟩ := op
  cases op with
  | submit peer channel payload priority => exact h.submit peer channel payload priority now
  | receive src packet => exact h.receive hroom
  | poll => exact (h.poll now).1
  | sendHello peer capabilities => exact h.withCtx (Retains.refl _).sendHello
  | route peer routeUp => exact h.withCtx (Retains.refl _).peerRoute
  | supersede peer channel => exact h.withCtx (Retains.refl _).supersedeChannel
  | reset peer reason => exact h.withCtx (Retains.refl _).resetPeer
  | remove peer => exact h.withCtx (Retains.refl _).removePeer

/-- A frame that passes the check of `ack_slots` was not retransmitted, and so it was sent
when it was submitted. -/
theorem Counted.samplesOnce {l : Ledger} (h : l.Counted) {op : Operation × U32}
    (hsent : l.AcksTransmitted op) : l.SamplesOnce op := by
  intro a hop i hi slot hslot hsampled
  rw [TxSlot.sampledBy, Bool.and_eq_true, Bool.and_eq_true, Bool.and_eq_true,
    beq_iff_eq, bne_iff_ne] at hsampled
  have hcount := h.faithful i slot hslot
  rw [hsampled.1.2] at hcount
  have hpos := hsent a hop i hi slot hslot hsampled.1.1.1 hsampled.1.1.2 hsampled.2
  have hle := h.sent i slot hslot
  have hzero : (0 : BitVec 8).toNat = 0 := rfl
  omega

theorem start_counted {config : RelConfig} {session stream : U32} {c : Ctx}
    (hinit : init config session stream = some c) : (start c).Counted := by
  have hfree : ∀ i slot, entryAt c.tx i ≠ some slot := by
    intro i slot hslot
    simp only [init] at hinit
    split at hinit
    · cases hinit
    · cases hinit
      have hmem := mem_held_of_entryAt hslot
      rw [held_replicate_none] at hmem
      exact absurd hmem (Multiset.notMem_zero slot)
  exact ⟨fun i slot hslot => absurd hslot (hfree i slot), fun i slot hslot =>
    absurd hslot (hfree i slot)⟩

end Ledger

/-! ## The run -/

/-- In a run in which no NACK asks for a frame whose counter is full, and no acknowledgement
covers a frame that was never transmitted, the retry counters are right, samples come from
frames that were transmitted once, and frames are given up at the limit. -/
theorem retries_count_retransmissions {config : RelConfig} {session stream : U32} {c : Ctx}
    (hinit : init config session stream = some c) {ops : List (Operation × U32)}
    (hrun : Trace.Always Ledger.operate (fun l op => l.Unwrapped op ∧ l.AcksTransmitted op)
      (.start c) ops) :
    (Trace.run Ledger.operate (.start c) ops).ctx = c.operates ops ∧
      (Trace.run Ledger.operate (.start c) ops).Faithful ∧
      Trace.Always Ledger.operate (fun l op => l.SamplesOnce op ∧ l.ExhaustsAtLimit op)
        (.start c) ops := by
  have hstart := Ledger.start_counted hinit
  refine ⟨Ledger.run_ctx (.start c) ops, ?_, ?_⟩
  · have hcounted := hrun.invariant Ledger.Counted hstart fun l op hl hop =>
      hl.operate hop.1
    exact hcounted.faithful
  · apply hrun.of_invariant hstart
    · exact fun l op hl hop => hl.operate hop.1
    · intro l op hl hop
      refine ⟨hl.samplesOnce hop.2, ?_⟩
      obtain ⟨op, now⟩ := op
      cases op with
      | poll => exact (hl.poll now).2
      | submit peer channel payload priority => exact True.intro
      | receive src packet => exact True.intro
      | sendHello peer capabilities => exact True.intro
      | route peer routeUp => exact True.intro
      | supersede peer channel => exact True.intro
      | reset peer reason => exact True.intro
      | remove peer => exact True.intro

/-! ## A NACK after another -/

def nackNode : Mac := 0x11

/-- The HELLO of the node. -/
def helloBytes : List UInt8 :=
  buildPacket nackNode typeReliableHello 9
    (List.replicate 20 0 ++ (toLeBytes 2 (1#16) ++ (toLeBytes 2 (224#16) ++
      (toLeBytes 2 (8#16) ++ (toLeBytes 2 (32#16) ++ (toLeBytes 4 requiredCapabilities ++
        (toLeBytes 4 (9#32) ++ toLeBytes 4 (0#32))))))))

/-- The node asks for frame 1 of channel 3, or it acknowledges it. -/
def ackBytes (type : BitVec 8) (ackSeq nackSeq : U32) : List UInt8 :=
  buildPacket nackNode type 9
    (toLeBytes 4 (3#32) ++ (toLeBytes 4 (7#32) ++ (toLeBytes 4 (9#32) ++
      (toLeBytes 4 ackSeq ++ (toLeBytes 4 (0#32) ++ (toLeBytes 4 nackSeq ++
        (toLeBytes 4 (0#32) ++ (toLeBytes 6 (0x10#48) ++ toLeBytes 6 nackNode))))))))

def nackBytes : List UInt8 :=
  ackBytes typeReliableNack 0 1

def nackPayload : AckPayload where
  channelId := 3
  rootSessionId := 7
  nodeSessionId := 9
  ackSeq := 0
  sackBitmap := 0
  nackSeq := 1
  echoTxMs := 0
  originMac := 0x10
  targetMac := nackNode

theorem arrives_nackBytes :
    ((arrives nackNode nackBytes).bind fun p => p.body.ack?) = some (nackPayload, true) := by
  decide +kernel

/-- The root greets the node and submits one frame, which the node asks for again and
again. -/
def nackRun (n : ℕ) : List (Operation × U32) :=
  [(.receive nackNode helloBytes, 1), (.submit nackNode 3 [1] 2, 2)] ++
    List.replicate n (.receive nackNode nackBytes, 3)

def nackLedger (n : ℕ) : Ledger :=
  Trace.run Ledger.operate (.start (smallCtx true 0x10 7)) (nackRun n)

/-- The frame that the node asks for stands in the first slot, and no other one is in use. -/
structure Waits (c : Ctx) (retries : BitVec 8) : Prop where
  cfg : c.cfg.rootRole = true ∧ c.cfg.localMac = 0x10
  peers : (c.peers.map fun entry => entry.map fun p =>
    (p.mac, p.ready, p.rootSessionId, p.nodeSessionId)) = [some (nackNode, true, 7, 9), none]
  tx : (c.tx.map fun entry => entry.map fun slot =>
    (slot.peer, slot.channel, slot.seq, slot.retries)) =
      some (nackNode, 3, 1, retries) :: List.replicate 7 none

section Waits

variable {c : Ctx} {retries : BitVec 8}

theorem Waits.exists_peer (h : Waits c retries) :
    ∃ p : Peer, c.peers = [some p, none] ∧ p.mac = nackNode ∧ p.ready = true ∧
      p.rootSessionId = 7 ∧ p.nodeSessionId = 9 := by
  obtain ⟨first, rest, hpeers, hfirst, hrest⟩ := List.map_eq_cons_iff.1 h.peers
  obtain ⟨second, rest, rfl, hsecond, hnil⟩ := List.map_eq_cons_iff.1 hrest
  obtain ⟨p, rfl, hp⟩ := Option.map_eq_some_iff.1 hfirst
  simp only [Prod.mk.injEq] at hp
  rw [Option.map_eq_none_iff] at hsecond
  rw [List.map_eq_nil_iff] at hnil
  exact ⟨p, by rw [hpeers, hsecond, hnil], hp.1, hp.2.1, hp.2.2.1, hp.2.2.2⟩

theorem Waits.exists_slot (h : Waits c retries) :
    ∃ slot : TxSlot, c.tx = some slot :: List.replicate 7 none ∧ slot.peer = nackNode ∧
      slot.channel = 3 ∧ slot.seq = 1 ∧ slot.retries = retries := by
  obtain ⟨first, rest, htx, hfirst, hrest⟩ := List.map_eq_cons_iff.1 h.tx
  obtain ⟨slot, rfl, hslot⟩ := Option.map_eq_some_iff.1 hfirst
  simp only [Prod.mk.injEq] at hslot
  have hfree : rest = List.replicate 7 none := by
    rw [List.eq_replicate_iff] at hrest ⊢
    refine ⟨(List.length_map _).symm.trans hrest.1, fun entry hentry => ?_⟩
    exact Option.map_eq_none_iff.1 (hrest.2 _ (List.mem_map.2 ⟨entry, hentry, rfl⟩))
  exact ⟨slot, by rw [htx, hfree], hslot.1, hslot.2.1, hslot.2.2.1, hslot.2.2.2⟩

theorem Waits.ackKey_eq (h : Waits c retries) :
    (peerFind c nackNode false 3).1 = c ∧ ackKey c nackNode nackPayload 3 = some nackNode := by
  obtain ⟨p, hpeers, hmac, hready, hroot, hnode⟩ := h.exists_peer
  have hat : c.peerAt nackNode = some p := by
    rw [Ctx.peerAt, hpeers]
    simp [used, hmac]
  have hfind : peerFind c nackNode false 3 = (c, some nackNode) := by
    simp [peerFind, Ctx.keyOf, h.cfg.1, hat]
  have hbound : boundPeer c (some nackNode) nackPayload.rootSessionId
      nackPayload.nodeSessionId = some nackNode := by
    have hcheck : ((c.peer nackNode).ready &&
        (c.peer nackNode).rootSessionId == nackPayload.rootSessionId &&
        (c.peer nackNode).nodeSessionId == nackPayload.nodeSessionId) = true := by
      rw [Ctx.peer, hat, Option.getD_some, hready, hroot, hnode]
      decide
    rw [boundPeer]
    exact if_pos hcheck
  refine ⟨by rw [hfind], ?_⟩
  simp only [ackKey, hfind, hbound, h.cfg.2]
  decide

/-- An assignment to other fields of the record. -/
theorem Waits.modPeer (h : Waits c retries) {f : Peer → Peer}
    (hf : ∀ p, ((f p).mac, (f p).ready, (f p).rootSessionId, (f p).nodeSessionId) =
      (p.mac, p.ready, p.rootSessionId, p.nodeSessionId)) :
    Waits (c.modPeer nackNode f) retries := by
  refine ⟨h.cfg, ?_, h.tx⟩
  rw [← h.peers, Ctx.modPeer, Ctx.setPeers, List.map_map]
  apply List.map_congr_left
  intro entry _
  cases entry with
  | none => rfl
  | some p =>
      simp only [Function.comp, Option.map_some]
      split
      · rw [hf p]
      · rfl

/-- The acknowledgement in the NACK covers nothing. -/
theorem Waits.ackSlots (h : Waits c retries) :
    Waits (ackSlots c nackNode nackPayload 3) retries := by
  obtain ⟨slot, htx, hpeer, hchannel, hseq, hretries⟩ := h.exists_slot
  have hnot : (slot.isFor nackNode nackPayload.channelId && nackPayload.accepts slot.seq) = false := by
    rw [hseq, show nackPayload.accepts 1 = false by decide, Bool.and_false]
  have hnone : (used c.tx).filter (TxSlot.sampledBy nackNode nackPayload) = [] := by
    rw [htx]
    rw [used, List.filterMap_cons]
    simp only [id_eq, TxSlot.sampledBy, List.filter_cons, hnot, Bool.false_and,
      Bool.false_eq_true, if_false]
    rfl
  have hkept : freeWhere (fun slot : TxSlot => slot.isFor nackNode nackPayload.channelId &&
      nackPayload.accepts slot.seq) c.tx = c.tx := by
    rw [htx, freeWhere, List.map_cons, List.map_replicate]
    simp only [Option.filter, hnot, Bool.not_false, if_true]
  rw [ackSlots_eq_sampled, hnone]
  apply Waits.modPeer
  · simp only [List.foldl_nil]
    rw [hkept]
    exact h
  · exact fun _ => rfl

theorem Waits.receive {l : Ledger} (h : Waits l.ctx retries) :
    Waits (l.receive nackNode nackBytes 3).ctx (retries + 1) ∧
      (l.receive nackNode nackBytes 3).calls 0 = l.calls 0 + 1 := by
  obtain ⟨hfind, hkey⟩ := h.ackKey_eq
  have hacked : Waits (Rel.ackSlots (l.ctx.modPeer nackNode Peer.routeSeen) nackNode nackPayload 3) retries :=
    (h.modPeer (f := Peer.routeSeen) fun _ => rfl).ackSlots
  rw [Ledger.receive, arrives_nackBytes]
  simp only [Ledger.handleAckPacket, hfind, hkey]
  generalize Rel.ackSlots (l.ctx.modPeer nackNode Peer.routeSeen) nackNode nackPayload 3 = c at hacked ⊢
  obtain ⟨slot, htx, hpeer, hchannel, hseq, hretries⟩ := hacked.exists_slot
  have hfor : (slot.isFor nackNode nackPayload.channelId && slot.seq == nackPayload.nackSeq) = true := by
    rw [TxSlot.isFor, hchannel, hpeer, hseq]
    decide
  have hfound : txFind c nackNode nackPayload.channelId nackPayload.nackSeq = some 0 := by
    rw [txFind, findIdx, htx, List.findIdx?_cons]
    exact if_pos hfor
  have hentry : entryAt c.tx 0 = some slot := by
    rw [htx]
    rfl
  have hasks : True ∧ nackPayload.nackSeq ≠ 0 := ⟨True.intro, by decide⟩
  rw [if_pos hasks, hfound]
  constructor
  · simp only [Ledger.retransmit, Ledger.withCtx, retransmitSlot, hentry]
    have hset : Waits (c.setTx (c.tx.set 0 (some (slot.replayed 3)))) (retries + 1) := by
      refine ⟨hacked.cfg, hacked.peers, ?_⟩
      rw [Ctx.setTx, htx, ← hretries, ← hpeer, ← hchannel, ← hseq]
      rfl
    have hcounted := hset.modPeer (f := Peer.countRetry) fun _ => rfl
    exact ⟨hcounted.cfg, hcounted.peers, hcounted.tx⟩
  · exact Function.update_self 0 (l.calls 0 + 1) l.calls

end Waits

theorem nackLedger_waits (n : ℕ) :
    Waits (nackLedger n).ctx (BitVec.ofNat 8 n) ∧ (nackLedger n).calls 0 = n := by
  induction n with
  | zero =>
      constructor
      · constructor
        · decide +kernel
        · decide +kernel
        · decide +kernel
      · decide +kernel
  | succ n ih =>
      have hlast : nackLedger (n + 1) = (nackLedger n).receive nackNode nackBytes 3 := by
        rw [nackLedger, nackLedger, nackRun, nackRun, List.replicate_succ', ← List.append_assoc,
          Trace.run_append, Trace.run_cons, Trace.run_nil]
        rfl
      obtain ⟨hwaits, hcalls⟩ := ih.1.receive
      rw [hlast, BitVec.ofNat_add]
      exact ⟨hwaits, by rw [hcalls, ih.2]⟩
/-- After 256 NACKs, the retry counter of the frame is zero again. -/
theorem retries_wrap_nackRun :
    init (smallConfig true 0x10) 7 1 = some (smallCtx true 0x10 7) ∧
      (nackLedger 256).ctx = (smallCtx true 0x10 7).operates (nackRun 256) ∧
      (∃ slot, entryAt (nackLedger 256).ctx.tx 0 = some slot ∧ slot.retries = 0 ∧
        (nackLedger 256).calls 0 = 256) ∧
      ¬(nackLedger 256).Faithful := by
  obtain ⟨hwaits, hcalls⟩ := nackLedger_waits 256
  obtain ⟨slot, htx, -, -, -, hretries⟩ := hwaits.exists_slot
  have hslot : entryAt (nackLedger 256).ctx.tx 0 = some slot := by
    rw [htx]
    rfl
  have hzero : slot.retries = 0 := hretries
  refine ⟨init_smallConfig true 0x10 (by decide), Ledger.run_ctx _ _,
    ⟨slot, hslot, hzero, hcalls⟩, fun hfaithful => ?_⟩
  have hcount := hfaithful 0 slot hslot
  rw [hzero, hcalls] at hcount
  exact absurd hcount (by decide)

/-- A frame that is asked for twice and then acknowledged. -/
theorem retries_count_retransmissions_nackRun :
    (Trace.run Ledger.operate (.start (smallCtx true 0x10 7)) (nackRun 2 ++
      [(.poll, 1000), (.receive nackNode (ackBytes typeReliableAck 1 0), 1001)])).Faithful :=
  (retries_count_retransmissions (init_smallConfig true 0x10 (by decide))
    (by decide +kernel)).2.1

end KeemashCore.Rel
