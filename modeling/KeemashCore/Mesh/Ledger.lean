import KeemashCore.Mesh.Retained
import KeemashCore.Mesh.Submit
import KeemashCore.Mesh.System
import KeemashCore.Trace.Basic

/-!
# Counting transmissions

A ledger keeps, beside a context, how often the frame in each tx slot was handed to `send`
when it was submitted, and how often `retransmit_slot` was called for it since.  The ledger
goes through the operations as the code does and counts where the code calls
`retransmit_slot`; the context in it is the one of the model.
-/

namespace KeemashCore.Rel

open SlotTable

/-! ## What is sampled -/

/-- The check of `ack_slots` before it calls `update_rto`. -/
def TxSlot.sampledBy (key : Mac) (ack : AckPayload) (slot : TxSlot) : Bool :=
  slot.isFor key ack.channelId && ack.accepts slot.seq && slot.retries == 0 &&
    slot.firstSentMs != 0

/-- `ack_slots` calls `update_rto` for the slots that pass the check. -/
theorem ackSlots_eq_sampled (c : Ctx) (key : Mac) (ack : AckPayload) (now : U32) :
    ackSlots c key ack now =
      (let sampled := ((used c.tx).filter (TxSlot.sampledBy key ack)).foldl
        (fun c slot => c.modPeer key fun p => updateRto c.cfg p (now - slot.firstSentMs)) c
      (sampled.setTx (freeWhere (fun slot => slot.isFor key ack.channelId &&
        ack.accepts slot.seq) sampled.tx)).modPeer key (Peer.acknowledged now)) := by
  have hfilter : (used c.tx).filter (TxSlot.sampledBy key ack) =
      ((used c.tx).filter fun slot => slot.isFor key ack.channelId &&
        ack.accepts slot.seq).filter fun slot =>
          decide (slot.retries = 0 ∧ slot.firstSentMs ≠ 0) := by
    rw [List.filter_filter]
    congr 1
    funext slot
    have hcheck : decide (slot.retries = 0 ∧ slot.firstSentMs ≠ 0) =
        (slot.retries == 0 && slot.firstSentMs != 0) := by
      rw [Bool.eq_iff_iff, decide_eq_true_eq, Bool.and_eq_true, beq_iff_eq, bne_iff_ne]
    rw [TxSlot.sampledBy, hcheck, Bool.and_assoc, Bool.and_comm]
  rw [hfilter, List.foldl_filter]
  simp only [ackSlots, decide_eq_true_eq]

/-! ## Reaching the slots -/

/-- The packet that `keemash_rel_handle_rx` hands to its handlers. -/
def arrives (src : Mac) (packet : List UInt8) : Option Packet :=
  match packetValid packet with
  | none => none
  | some (h, payload) =>
      if h.srcMac ≠ src then none
      else
        match readBody h.type payload with
        | .error _ => none
        | .ok body => some { sessionId := h.sessionId, srcMac := h.srcMac, body := body }

theorem handleRxBytes_arrives (c : Ctx) (src : Mac) (packet : List UInt8) (now : U32) :
    (handleRxBytes c src packet now).1 =
      match arrives src packet with
      | none => c
      | some p => (handleRx c src p now).1 := by
  rw [handleRxBytes, arrives]
  cases packetValid packet with
  | none => rfl
  | some parts =>
      obtain ⟨h, payload⟩ := parts
      by_cases hmac : h.srcMac = src
      · simp only [hmac, ne_eq, not_true_eq_false, if_false]
        cases readBody h.type payload with
        | error err => rfl
        | ok body => rfl
      · simp only [ne_eq, hmac, not_false_eq_true, if_true]

/-- The record for which `handle_ack_packet` calls `ack_slots`. -/
def ackKey (c : Ctx) (src : Mac) (ack : AckPayload) (now : U32) : Option Mac :=
  let found := peerFind c src false now
  match boundPeer found.1 found.2 ack.rootSessionId ack.nodeSessionId with
  | none => none
  | some key =>
      if ack.channelId = 0 ∨ ack.channelId ≥ channelCount ∨
          ack.originMac ≠ found.1.cfg.localMac ∨ ack.targetMac ≠ src then none
      else some key

/-- An acknowledgement, and whether it is a NACK. -/
def Body.ack? : Body → Option (AckPayload × Bool)
  | .ack payload => some (payload, false)
  | .nack payload => some (payload, true)
  | _ => none

/-- A call of `ack_slots`: the record, the acknowledgement, and whether it is a NACK. -/
structure AckCall where
  key : Mac
  ack : AckPayload
  nack : Bool

/-- The call of `ack_slots` that an operation reaches. -/
def Ctx.acknowledges (c : Ctx) : Operation × U32 → Option AckCall
  | (.receive src packet, now) =>
      (arrives src packet).bind fun p => p.body.ack?.bind fun (ack, nack) =>
        (ackKey c src ack now).map fun key => ⟨key, ack, nack⟩
  | _ => none

/-- The slot of the frame that a NACK asks for and does not acknowledge itself. -/
def Ctx.nackedSlot (c : Ctx) (key : Mac) (ack : AckPayload) : Option TxSlot :=
  (findIdx (fun slot : TxSlot => slot.isFor key ack.channelId && slot.seq == ack.nackSeq &&
    !ack.accepts slot.seq) c.tx).bind (entryAt c.tx)

/-! ## The ledger -/

/-- A context and the counts for the frames in its tx slots. -/
structure Ledger where
  ctx : Ctx
  sent : ℕ → ℕ
  calls : ℕ → ℕ

/-- How often the effects hand the frame of a slot to `send`. -/
def sends (effects : List Effect) (cfg : RelConfig) (slot : TxSlot) : ℕ :=
  effects.count (.send slot.peer (slot.packet cfg))

namespace Ledger

def start (c : Ctx) : Ledger where
  ctx := c
  sent := fun _ => 0
  calls := fun _ => 0

/-- The context has changed, but no frame was sent or stored. -/
def withCtx (l : Ledger) (c : Ctx) : Ledger :=
  { l with ctx := c }

/-- `retransmit_slot`. -/
def retransmit (l : Ledger) (key : Mac) (i : ℕ) (now : U32) : Ledger :=
  { l with
    ctx := (retransmitSlot l.ctx key i now).1
    calls := Function.update l.calls i (l.calls i + 1) }

/-- `handle_ack_packet`. -/
def handleAckPacket (l : Ledger) (src : Mac) (ack : AckPayload) (nack : Bool) (now : U32) :
    Ledger :=
  let c := (peerFind l.ctx src false now).1
  match ackKey l.ctx src ack now with
  | none => l.withCtx c
  | some key =>
      let c := ackSlots (c.modPeer key Peer.routeSeen) key ack now
      if nack ∧ ack.nackSeq ≠ 0 then
        match txFind c key ack.channelId ack.nackSeq with
        | some i => (l.withCtx c).retransmit key i now
        | none =>
            l.withCtx (sendLost c key ack.channelId .overflow ack.nackSeq ack.nackSeq).1
      else l.withCtx c

/-- `keemash_rel_handle_rx`. -/
def receive (l : Ledger) (src : Mac) (packet : List UInt8) (now : U32) : Ledger :=
  match (arrives src packet).bind fun p => p.body.ack? with
  | some (ack, nack) => l.handleAckPacket src ack nack now
  | none => l.withCtx (handleRxBytes l.ctx src packet now).1

/-- A slot that `keemash_rel_poll` has picked: how often its frame was retransmitted, and
whether the frame is given up. -/
structure Visit where
  calls : ℕ
  exhausted : Bool
  deriving DecidableEq

/-- The retransmission loops of `keemash_rel_poll`, with the slots that they pick. -/
def pollSlots (now : U32) : List (ℕ × Mac) → Ledger → Ledger × List Visit
  | [], l => (l, [])
  | (priority, key) :: rest, l =>
      let p := l.ctx.peer key
      if !p.ready || !p.routeUp then pollSlots now rest l
      else
        match pollCandidate l.ctx key priority now with
        | none => pollSlots now rest l
        | some i =>
            match entryAt l.ctx.tx i with
            | none => pollSlots now rest l
            | some slot =>
                if slot.retries ≥ l.ctx.cfg.maxRetries then
                  (l.withCtx (retryExhausted l.ctx key slot), [⟨l.calls i, true⟩])
                else
                  let r := pollSlots now rest (l.retransmit key i now)
                  (r.1, ⟨l.calls i, false⟩ :: r.2)

/-- `keemash_rel_poll`, with the slots that it picks. -/
def poll (l : Ledger) (now : U32) : Ledger × List Visit :=
  let c := pollRoutes now ((used l.ctx.peers).map Peer.mac) l.ctx
  let visits := [4, 3, 2, 1, 0].flatMap fun priority =>
    (pollOrder c).map fun key => (priority, key)
  let r := (l.withCtx c).pollSlots now visits
  let c := r.1.ctx.moveCursor
  (r.1.withCtx (pollFragments now (List.range c.reassembly.length) c), r.2)

/-- `keemash_rel_submit`; it frees no slot, so the slots that it fills were free. -/
def submit (l : Ledger) (mac : Mac) (channel : ℕ) (payload : List UInt8) (priority : ℕ)
    (now : U32) : Ledger :=
  let c := (Rel.submit l.ctx mac channel payload priority now).1
  { ctx := c
    sent := fun i =>
      match entryAt l.ctx.tx i, entryAt c.tx i with
      | none, some slot => sends (newEffects l.ctx c) c.cfg slot
      | _, _ => l.sent i
    calls := fun i =>
      match entryAt l.ctx.tx i, entryAt c.tx i with
      | none, some _ => 0
      | _, _ => l.calls i }

/-- The ledger after an operation. -/
def operate (l : Ledger) (op : Operation × U32) : Ledger :=
  match op.1 with
  | .submit peer channel payload priority => l.submit peer channel payload priority op.2
  | .receive src packet => l.receive src packet op.2
  | .poll => (l.poll op.2).1
  | _ => l.withCtx (l.ctx.operate op)

/-! ## What the counters are for -/

/-- The retry counters count the retransmissions. -/
def Faithful (l : Ledger) : Prop :=
  ∀ i slot, entryAt l.ctx.tx i = some slot → slot.retries.toNat = l.calls i

/-- `ack_slots` takes samples from frames only that were transmitted once. -/
def SamplesOnce (l : Ledger) (op : Operation × U32) : Prop :=
  ∀ a ∈ l.ctx.acknowledges op, ∀ i < l.ctx.tx.length, ∀ slot ∈ entryAt l.ctx.tx i,
    slot.sampledBy a.key a.ack = true → l.sent i + l.calls i = 1

/-- `keemash_rel_poll` gives up just the frames that have been retransmitted `max_retries`
times. -/
def ExhaustsAtLimit (l : Ledger) : Operation × U32 → Prop
  | (.poll, now) => ∀ visit ∈ (l.poll now).2,
      (visit.exhausted = true ↔ visit.calls ≥ l.ctx.cfg.maxRetries.toNat)
  | _ => True

/-- No NACK asks for a frame whose retry counter is full. -/
def Unwrapped (l : Ledger) (op : Operation × U32) : Prop :=
  ∀ a ∈ l.ctx.acknowledges op, a.nack = true → a.ack.nackSeq ≠ 0 →
    ∀ slot ∈ l.ctx.nackedSlot a.key a.ack, slot.retries ≠ 255

/-- No acknowledgement covers a frame that was never transmitted but has a time of
submission. -/
def AcksTransmitted (l : Ledger) (op : Operation × U32) : Prop :=
  ∀ a ∈ l.ctx.acknowledges op, ∀ i < l.ctx.tx.length, ∀ slot ∈ entryAt l.ctx.tx i,
    slot.isFor a.key a.ack.channelId = true → a.ack.accepts slot.seq = true →
      slot.firstSentMs ≠ 0 → 0 < l.sent i + l.calls i

instance (l : Ledger) (op : Operation × U32) : Decidable (l.Unwrapped op) :=
  inferInstanceAs (Decidable (∀ a ∈ _, _ → _ → ∀ slot ∈ _, _ ≠ _))

instance (l : Ledger) (op : Operation × U32) : Decidable (l.AcksTransmitted op) :=
  inferInstanceAs (Decidable (∀ a ∈ _, ∀ i < _, ∀ slot ∈ _, _ → _ → _ → _))

/-! ## The context in the ledger -/

theorem handleAckPacket_ctx (l : Ledger) (src : Mac) (ack : AckPayload) (nack : Bool)
    (now : U32) :
    (l.handleAckPacket src ack nack now).ctx =
      (Rel.handleAckPacket l.ctx src ack nack now).1 := by
  simp only [handleAckPacket, ackKey, Rel.handleAckPacket]
  cases boundPeer (peerFind l.ctx src false now).1 (peerFind l.ctx src false now).2
      ack.rootSessionId ack.nodeSessionId with
  | none => rfl
  | some key =>
      by_cases hbad : ack.channelId = 0 ∨ ack.channelId ≥ channelCount ∨
          ack.originMac ≠ (peerFind l.ctx src false now).1.cfg.localMac ∨ ack.targetMac ≠ src
      · simp only [if_pos hbad]
        rfl
      · simp only [if_neg hbad]
        split
        · cases txFind (ackSlots ((peerFind l.ctx src false now).1.modPeer key
              Peer.routeSeen) key ack now) key ack.channelId ack.nackSeq with
          | none => rfl
          | some i => rfl
        · rfl

theorem receive_ctx (l : Ledger) (src : Mac) (packet : List UInt8) (now : U32) :
    (l.receive src packet now).ctx = (handleRxBytes l.ctx src packet now).1 := by
  rw [receive]
  cases harrives : arrives src packet with
  | none => rfl
  | some p =>
      have hmac : p.srcMac = src := by
        rw [arrives] at harrives
        split at harrives
        · cases harrives
        · split at harrives
          · cases harrives
          · next hmac =>
              split at harrives
              · cases harrives
              · cases harrives
                exact not_not.1 hmac
      simp only [Option.bind_some]
      cases hack : p.body.ack? with
      | none => rfl
      | some kind =>
          obtain ⟨ack, nack⟩ := kind
          simp only
          rw [handleAckPacket_ctx, handleRxBytes_arrives, harrives]
          simp only [handleRx, hmac, ne_eq, not_true_eq_false, if_false]
          cases hbody : p.body with
          | ack payload =>
              rw [hbody] at hack
              cases hack
              rfl
          | nack payload =>
              rw [hbody] at hack
              cases hack
              rfl
          | hello payload =>
              rw [hbody] at hack
              cases hack
          | helloAck payload =>
              rw [hbody] at hack
              cases hack
          | data rh payload =>
              rw [hbody] at hack
              cases hack
          | lost payload =>
              rw [hbody] at hack
              cases hack

theorem pollSlots_ctx (now : U32) (visits : List (ℕ × Mac)) (l : Ledger) :
    (pollSlots now visits l).1.ctx = Rel.pollSlots now visits l.ctx := by
  induction visits generalizing l with
  | nil => rfl
  | cons visit visits ih =>
      obtain ⟨priority, key⟩ := visit
      simp only [pollSlots, Rel.pollSlots]
      split
      · exact ih l
      · cases pollCandidate l.ctx key priority now with
        | none => exact ih l
        | some i =>
            simp only
            cases entryAt l.ctx.tx i with
            | none => exact ih l
            | some slot =>
                simp only
                split
                · rfl
                · exact ih _

theorem operate_ctx (l : Ledger) (op : Operation × U32) :
    (l.operate op).ctx = l.ctx.operate op := by
  obtain ⟨op, now⟩ := op
  cases op with
  | receive src packet => exact l.receive_ctx src packet now
  | poll =>
      simp only [operate, poll, Ctx.operate, Rel.poll, withCtx]
      rw [pollSlots_ctx]
  | submit peer channel payload priority => rfl
  | sendHello peer capabilities => rfl
  | route peer routeUp => rfl
  | supersede peer channel => rfl
  | reset peer reason => rfl
  | remove peer => rfl

/-- The ledger follows the run of its context. -/
theorem run_ctx (l : Ledger) (ops : List (Operation × U32)) :
    (Trace.run operate l ops).ctx = l.ctx.operates ops := by
  induction ops generalizing l with
  | nil => rfl
  | cons op ops ih =>
      rw [Trace.run_cons, ih, operate_ctx, Ctx.operates, Ctx.operates, List.foldl_cons]

end Ledger

/-! ## What a submit stores and sends -/

/-- The effect is not a call of `send`. -/
def Effect.isLocal : Effect → Bool
  | .send _ _ => false
  | _ => true

/-- The fragment that an effect sends. -/
def Effect.fragment? : Effect → Option ℕ
  | .send _ packet =>
      match packet.body with
      | .data rh _ => some rh.fragmentIndex
      | _ => none
  | _ => none

/-- The slot loop has put the fragments `done` into the slots, which were free. -/
structure StoresFrames (c c' : Ctx) (key : Mac) (done slots : List ℕ) : Prop where
  cfg : c'.cfg = c.cfg
  free : ∀ j ∈ slots, entryAt c.tx j = none
  others : ∀ j, j ∉ slots → entryAt c'.tx j = entryAt c.tx j
  frames : (slots.map fun j => (entryAt c'.tx j).map fun slot =>
    (slot.peer, slot.retries, slot.rh.fragmentIndex)) = done.map fun i => some (key, 0, i)
  trace : ∃ added, c'.trace = c.trace ++ added ∧ ∀ e ∈ added, e.isLocal = true

/-- The tx slots in use are as they were, and what was sent is no frame. -/
structure Stays (c c' : Ctx) : Prop where
  cfg : c'.cfg = c.cfg
  tx : ∀ i slot, entryAt c'.tx i = some slot → entryAt c.tx i = some slot

section Submit

variable {c c' : Ctx} {key : Mac} {channel priority fragments : ℕ} {payload : List UInt8}
  {streamId now : U32}

/-- A slot of the list is in use for a frame of the message. -/
theorem StoresFrames.entry {done slots : List ℕ} (h : StoresFrames c c' key done slots) {j : ℕ}
    (hj : j ∈ slots) :
    ∃ slot, entryAt c'.tx j = some slot ∧ slot.peer = key ∧ slot.retries = 0 := by
  have hframe : (entryAt c'.tx j).map (fun slot =>
      (slot.peer, slot.retries, slot.rh.fragmentIndex)) ∈
      done.map fun i => some (key, (0 : BitVec 8), i) := by
    rw [← h.frames]
    exact List.mem_map.2 ⟨j, hj, rfl⟩
  obtain ⟨i, -, hi⟩ := List.mem_map.1 hframe
  obtain ⟨slot, hslot, heq⟩ := Option.map_eq_some_iff.1 hi.symm
  simp only [Prod.mk.injEq] at heq
  exact ⟨slot, hslot, heq.1, heq.2.1⟩

/-- A slot that was free and is in use is one of the list. -/
theorem StoresFrames.mem {done slots : List ℕ} (h : StoresFrames c c' key done slots) {j : ℕ}
    (hfree : entryAt c.tx j = none) (hslot : entryAt c'.tx j ≠ none) : j ∈ slots := by
  by_contra hnot
  rw [h.others j hnot] at hslot
  exact hslot hfree

theorem StoresFrames.fill {done slots : List ℕ} (h : StoresFrames c c' key done slots) {i j : ℕ}
    (halloc : txAlloc c' key priority = some j) :
    StoresFrames c (fillOne c' key channel payload priority fragments streamId now i j) key
      (done ++ [i]) (slots ++ [j]) := by
  have hfree : c'.tx[j]? = some none := getElem?_of_freeIdx (freeIdx_of_txAlloc halloc)
  have hnone : entryAt c'.tx j = none := by
    rw [entryAt, hfree]
    rfl
  have hlt : j < c'.tx.length := (List.getElem?_eq_some_iff.1 hfree).1
  -- The slots that were filled before are in use.
  have hnew : j ∉ slots := by
    intro hj
    obtain ⟨slot, hslot, -⟩ := h.entry hj
    cases hnone.symm.trans hslot
  have htx : (fillOne c' key channel payload priority fragments streamId now i j).tx =
      c'.tx.set j (some (submitSlot c' key channel payload priority fragments i streamId
        ((c'.peer key).nextSeq channel) now)) := fillOne_tx i j
  obtain ⟨added, htrace, hlocal⟩ := h.trace
  constructor
  · exact h.cfg
  · intro k hk
    rcases List.mem_append.1 hk with hk | hk
    · exact h.free k hk
    · rw [List.mem_singleton.1 hk, ← h.others j hnew]
      exact hnone
  · intro k hk
    rw [List.mem_append, List.mem_singleton, not_or] at hk
    rw [htx, entryAt_set hlt, if_neg hk.2]
    exact h.others k hk.1
  · rw [List.map_append, List.map_append, ← h.frames]
    congr 1
    · apply List.map_congr_left
      intro k hk
      have hne : k ≠ j := fun heq => hnew (heq ▸ hk)
      rw [htx, entryAt_set hlt, if_neg hne]
    · simp only [List.map_cons, List.map_nil]
      rw [htx, entryAt_set hlt, if_pos rfl]
      rfl
  · have hqueued : ∃ e, (fillOne c' key channel payload priority fragments streamId now i
        j).trace = c'.trace ++ [e] ∧ e.isLocal = true := ⟨_, rfl, rfl⟩
    obtain ⟨queued, hlast, hqueued⟩ := hqueued
    refine ⟨added ++ [queued], ?_, ?_⟩
    · rw [hlast, htrace, List.append_assoc]
    · intro e he
      rcases List.mem_append.1 he with he | he
      · exact hlocal e he
      · rw [List.mem_singleton.1 he]
        exact hqueued

/-- The slot loop stores one frame for each fragment, or none. -/
theorem submitSlots_stores (is : List ℕ) {done slots : List ℕ}
    (h : StoresFrames c c' key done slots) :
    match submitSlots key channel payload priority fragments streamId now is c' slots with
    | (c'', some slots') => StoresFrames c c'' key (done ++ is) slots'
    | (c'', none) => Stays c c'' := by
  induction is generalizing c' done slots with
  | nil =>
      rw [submitSlots, List.append_nil]
      exact h
  | cons i is ih =>
      cases halloc : txAlloc c' key priority with
      | some j =>
          rw [submitSlots_cons halloc, List.append_cons done i is]
          exact ih (h.fill halloc)
      | none =>
          simp only [submitSlots, halloc]
          refine ⟨h.cfg, fun k slot hk => ?_⟩
          have hback : ∀ (js : List ℕ) (table : List (Option TxSlot)),
              entryAt (js.foldl (fun tx j => tx.set j none) table) k =
                if k ∈ js then none else entryAt table k := by
            intro js
            induction js with
            | nil => simp
            | cons j js ihjs =>
                intro table
                rw [List.foldl_cons, ihjs, entryAt_set_none]
                by_cases hj : k = j
                · simp [hj]
                · simp [hj]
          have hentry : entryAt (slots.foldl (fun tx j => tx.set j none) c'.tx) k = some slot :=
            hk
          rw [hback] at hentry
          split at hentry
          · cases hentry
          · next hnot => exact (h.others k hnot).symm.trans hentry

/-- The transmission loop adds the frames of the slots to the trace. -/
theorem submitSend_trace (key : Mac) (slots : List ℕ) (c : Ctx) (err : EspErr) :
    (submitSend key slots c err).1.trace =
      c.trace ++ slots.filterMap fun j =>
        (entryAt c.tx j).map fun slot => .send key (slot.packet c.cfg) := by
  induction slots generalizing c err with
  | nil => rw [submitSend, List.filterMap_nil, List.append_nil]
  | cons j slots ih =>
      rw [submitSend, List.filterMap_cons]
      cases hslot : entryAt c.tx j with
      | none => exact ih c err
      | some slot =>
          simp only [Option.map_some]
          rw [ih]
          exact List.append_assoc _ _ _

/-- No frame is sent twice. -/
theorem StoresFrames.sends_le {n : ℕ} {slots : List ℕ} (h : StoresFrames c c' key (List.range n) slots)
    {effects : List Effect}
    (heffects : ∃ added, (∀ e ∈ added, e.isLocal = true) ∧
      (effects = added ∨ effects = added ++ slots.filterMap fun j =>
        (entryAt c'.tx j).map fun slot => .send key (slot.packet c'.cfg)))
    (cfg : RelConfig) (slot : TxSlot) : sends effects cfg slot ≤ 1 := by
  obtain ⟨added, hlocal, hcases⟩ := heffects
  have hnone : added.count (.send slot.peer (slot.packet cfg)) = 0 := by
    rw [List.count_eq_zero]
    intro hmem
    exact Bool.noConfusion (hlocal _ hmem)
  rcases hcases with heq | heq
  · rw [sends, heq, hnone]
    exact Nat.zero_le 1
  · rw [sends, heq, List.count_append, hnone, Nat.zero_add]
    apply List.nodup_iff_count_le_one.1
    -- The frames are of different fragments.
    apply List.Nodup.of_map Effect.fragment?
    have hfragments : (slots.filterMap fun j =>
        (entryAt c'.tx j).map fun slot => Effect.send key (slot.packet c'.cfg)).map
          Effect.fragment? = (List.range n).map some := by
      have hframes := congrArg (List.map fun frame => frame.map fun
        (x : Mac × BitVec 8 × ℕ) => x.2.2) h.frames
      rw [List.map_map, List.map_map] at hframes
      rw [List.map_filterMap]
      refine Eq.trans ?_ hframes
      rw [← List.filterMap_eq_map]
      apply List.filterMap_congr
      intro j hj
      obtain ⟨stored, hstored, -⟩ := h.entry hj
      simp only [Function.comp, hstored]
      rfl
    rw [hfragments]
    exact List.Nodup.map (Option.some_injective ℕ) List.nodup_range

theorem StoresFrames.refl (c : Ctx) (key : Mac) : StoresFrames c c key [] [] where
  cfg := rfl
  free := fun _ hj => absurd hj List.not_mem_nil
  others := fun _ _ => rfl
  frames := rfl
  trace := ⟨[], (List.append_nil _).symm, fun _ he => absurd he List.not_mem_nil⟩

/-- A submit stores nothing, or it stores a message and sends each frame of it once or
not at all. -/
structure SendsOnce (c c' : Ctx) : Prop where
  cfg : c'.cfg = c.cfg
  slots : ∀ i slot, entryAt c'.tx i = some slot → entryAt c.tx i = some slot ∨
    entryAt c.tx i = none ∧ slot.retries = 0 ∧ sends (newEffects c c') c'.cfg slot ≤ 1

theorem submitMessage_sends :
    SendsOnce c (submitMessage c key channel payload priority fragments streamId now).1 := by
  have hloop := @submitSlots_stores c c key channel priority fragments payload streamId now
    (List.range fragments) [] [] (StoresFrames.refl c key)
  simp only [submitMessage]
  split
  · exact ⟨rfl, fun i slot hslot => Or.inl hslot⟩
  · split
    · next heq =>
        rw [heq] at hloop
        exact ⟨hloop.cfg, fun i slot hslot => Or.inl (hloop.tx i slot hslot)⟩
    · next c₁ slots heq =>
        rw [heq, List.nil_append] at hloop
        obtain ⟨added, htrace, hlocal⟩ := hloop.trace
        have hlocal' : ∀ e ∈ added ++ [.accepted key channel streamId
            ((c.peer key).nextSeq channel) payload], e.isLocal = true := by
          intro e he
          rcases List.mem_append.1 he with he | he
          · exact hlocal e he
          · rw [List.mem_singleton.1 he]
            rfl
        have hslots : ∀ {c'' : Ctx}, c''.cfg = c₁.cfg → c''.tx = c₁.tx →
            (newEffects c c'' = added ++ [.accepted key channel streamId
                ((c.peer key).nextSeq channel) payload] ∨
              newEffects c c'' = (added ++ [.accepted key channel streamId
                ((c.peer key).nextSeq channel) payload]) ++ slots.filterMap fun j =>
                  (entryAt c₁.tx j).map fun slot => .send key (slot.packet c₁.cfg)) →
            SendsOnce c c'' := by
          intro c'' hcfg htx heffects
          refine ⟨hcfg.trans hloop.cfg, fun i slot hslot => ?_⟩
          rw [htx] at hslot
          cases hold : entryAt c.tx i with
          | none =>
              have hmem := hloop.mem hold (by rw [hslot]; exact Option.some_ne_none _)
              obtain ⟨slot', hslot', -, hretries⟩ := hloop.entry hmem
              cases hslot.symm.trans hslot'
              refine Or.inr ⟨rfl, hretries, ?_⟩
              exact hloop.sends_le ⟨_, hlocal', heffects⟩ _ slot
          | some old =>
              left
              have hnot : i ∉ slots := fun hi => by cases (hloop.free i hi).symm.trans hold
              rw [← hold, ← hloop.others i hnot]
              exact hslot
        have hdrop : ∀ {c'' : Ctx} {more : List Effect},
            c''.trace = (c₁.emit (.accepted key channel streamId
              ((c.peer key).nextSeq channel) payload)).trace ++ more →
            newEffects c c'' = (added ++ [.accepted key channel streamId
              ((c.peer key).nextSeq channel) payload]) ++ more := by
          intro c'' more htotal
          rw [newEffects, htotal, Ctx.emit, htrace, List.append_assoc, List.append_assoc,
            List.drop_left, List.append_assoc]
        split
        · obtain ⟨htx, -, hcfg, -⟩ := submitSend_kept key slots (c₁.emit (.accepted key channel
            streamId ((c.peer key).nextSeq channel) payload)) .ok
          apply hslots hcfg htx
          exact Or.inr (hdrop (submitSend_trace key slots _ .ok))
        · have hall : newEffects c (c₁.emit (.accepted key channel streamId
              ((c.peer key).nextSeq channel) payload)) = (added ++ [.accepted key channel
                streamId ((c.peer key).nextSeq channel) payload]) ++ [] :=
            hdrop (List.append_nil _).symm
          rw [List.append_nil] at hall
          exact hslots rfl rfl (Or.inl hall)

theorem SendsOnce.of_eq {c₀ : Ctx} (h : SendsOnce c c') (hcfg : c.cfg = c₀.cfg) (htx : c.tx = c₀.tx)
    (htrace : c.trace = c₀.trace) : SendsOnce c₀ c' where
  cfg := h.cfg.trans hcfg
  slots := by
    rw [← htx, newEffects, ← htrace]
    exact h.slots

theorem submit_sends (c : Ctx) (mac : Mac) (channel : ℕ) (payload : List UInt8)
    (priority : ℕ) (now : U32) : SendsOnce c (submit c mac channel payload priority now).1 := by
  have hsame : SendsOnce c c := ⟨rfl, fun _ _ hslot => Or.inl hslot⟩
  have hfind : (peerFind c mac false now).1.cfg = c.cfg ∧
      (peerFind c mac false now).1.tx = c.tx ∧
      (peerFind c mac false now).1.trace = c.trace := by
    rw [peerFind]
    split
    · split
      · exact ⟨rfl, rfl, rfl⟩
      · exact ⟨rfl, rfl, rfl⟩
    · exact ⟨rfl, rfl, rfl⟩
  obtain ⟨hcfg, htx, htrace⟩ := hfind
  have hfound : SendsOnce c (peerFind c mac false now).1 :=
    ⟨hcfg, fun i slot hslot => Or.inl (htx ▸ hslot)⟩
  simp only [submit]
  split
  · exact hsame
  · split
    · exact hfound
    · split
      · exact hfound
      · split
        · exact hfound
        · exact SendsOnce.of_eq submitMessage_sends hcfg htx htrace

end Submit

end KeemashCore.Rel
