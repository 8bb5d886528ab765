import KeemashCore.Mesh.Termination
import KeemashCore.Mesh.Runs

/-!
# What only handling DATA and LOST does

`expected_seq`, the pending-lost table and the frames handed to `deliver_fragment` are
the business of `handle_data` and `handle_lost_packet`.  A calm change leaves the three
alone and at most frees rx slots; every other operation is made of calm changes, of new
peer records and of calls of `clear_peer_buffers`.
-/

namespace KeemashCore.Rel

open SlotTable Relation

/-! ## Calm changes -/

/-- The fields of a record that the receive path works on. -/
def Peer.received (p : Peer) : Mac × (ℕ → U32) × List (Option PendingLostRange) :=
  (p.mac, p.expectedSeq, p.pendingLost)

/-- The effect hands nothing off and clears nothing. -/
def Effect.isCalm : Effect → Bool
  | .handOff _ _ _ => false
  | .cleared _ => false
  | _ => true

/-- Nothing is handed off or cleared, what the receive path keeps in the records stays,
and rx slots are at most freed. -/
structure Calm (c c' : Ctx) : Prop where
  trace : ∃ new, c'.trace = c.trace ++ new ∧ ∀ e ∈ new, e.isCalm = true
  cfg : c'.cfg = c.cfg
  record : ∀ k, (c'.peerAt k).map Peer.received = (c.peerAt k).map Peer.received
  rx : held c'.rx ≤ held c.rx

section Calm

variable {c c' : Ctx} {key : Mac} {channel : ℕ}

theorem Calm.refl (c : Ctx) : Calm c c where
  trace := ⟨[], (List.append_nil _).symm, by simp⟩
  cfg := rfl
  record := fun _ => rfl
  rx := le_rfl

theorem Calm.trans {c'' : Ctx} (h : Calm c c') (h' : Calm c' c'') : Calm c c'' := by
  obtain ⟨new, hnew, hcalm⟩ := h.trace
  obtain ⟨new', hnew', hcalm'⟩ := h'.trace
  refine ⟨⟨new ++ new', ?_, ?_⟩, h'.cfg.trans h.cfg, ?_, h'.rx.trans h.rx⟩
  · rw [hnew', hnew, List.append_assoc]
  · intro e he
    exact (List.mem_append.mp he).elim (hcalm e) (hcalm' e)
  · exact fun k => (h'.record k).trans (h.record k)

/-- The records and the trace are left alone, and rx slots at most freed. -/
theorem Calm.tables (h : Calm c c') {c'' : Ctx} (hcfg : c''.cfg = c'.cfg)
    (hpeers : c''.peers = c'.peers) (htrace : c''.trace = c'.trace)
    (hrx : held c''.rx ≤ held c'.rx) : Calm c c'' := by
  refine h.trans ⟨⟨[], by rw [htrace, List.append_nil], by simp⟩, hcfg, fun k => ?_, hrx⟩
  rw [Ctx.peerAt, Ctx.peerAt, hpeers]

theorem Calm.emit (h : Calm c c') {e : Effect} (he : e.isCalm = true) :
    Calm c (c'.emit e) := by
  refine h.trans ⟨⟨[e], rfl, ?_⟩, rfl, fun _ => rfl, le_rfl⟩
  intro e' hmem
  rw [List.mem_singleton.mp hmem]
  exact he

theorem Calm.modPeer (h : Calm c c') {f : Peer → Peer}
    (hf : ∀ p, (f p).received = p.received) : Calm c (c'.modPeer key f) := by
  have hmac : ∀ p, (f p).mac = p.mac := fun p => congrArg Prod.fst (hf p)
  refine h.trans ⟨⟨[], (List.append_nil _).symm, by simp⟩, rfl, fun k => ?_, le_rfl⟩
  rw [peerAt_modPeer hmac]
  cases c'.peerAt k with
  | none => rfl
  | some p =>
      by_cases hk : k = key
      · simp [hk, hf]
      · simp [hk]

theorem Calm.setTx (h : Calm c c') (table : List (Option TxSlot)) : Calm c (c'.setTx table) :=
  h.tables rfl rfl rfl le_rfl

theorem Calm.setReassembly (h : Calm c c') (table : List (Option ReassemblySlot)) :
    Calm c (c'.setReassembly table) :=
  h.tables rfl rfl rfl le_rfl

theorem Calm.freeRx (h : Calm c c') (p : RxSlot → Bool) :
    Calm c (c'.setRx (freeWhere p c'.rx)) := by
  refine h.tables rfl rfl rfl ?_
  rw [Ctx.setRx, held_freeWhere]
  exact Multiset.filter_le _ _

theorem Calm.foldl {α : Type} (h : Calm c c') {f : Ctx → α → Ctx}
    (hf : ∀ c' a, Calm c c' → Calm c (f c' a)) (as : List α) : Calm c (as.foldl f c') := by
  induction as generalizing c' with
  | nil => exact h
  | cons a as ih => exact ih (hf c' a h)

/-- A search that creates no record. -/
theorem Calm.peerFind (h : Calm c c') (mac : Mac) (now : U32) :
    Calm c (peerFind c' mac false now).1 := by
  rw [Rel.peerFind]
  split
  · split
    · exact h.modPeer fun _ => rfl
    · exact h
  · exact h

theorem Calm.sendPacket (h : Calm c c') {sessionId : U32} {body : Body} :
    Calm c (sendPacket c' key sessionId body).1 :=
  h.emit rfl

theorem Calm.recordLost (h : Calm c c') {role : Role} {reason : LostReason}
    {first last count : U32} :
    Calm c (recordLost c' role key channel reason first last count) := by
  refine Calm.emit (h.modPeer ?_) rfl
  exact fun _ => rfl

theorem Calm.sendLostPacket (h : Calm c c') {reason : LostReason} {flags : BitVec 16}
    {first last : U32} : Calm c (sendLostPacket c' key channel reason flags first last).1 :=
  h.sendPacket

theorem Calm.sendLost (h : Calm c c') {reason : LostReason} {first last : U32} :
    Calm c (sendLost c' key channel reason first last).1 :=
  h.recordLost.sendLostPacket

theorem Calm.forgetRange (h : Calm c c') {reason : LostReason} {first last : U32} :
    Calm c (forgetRange c' key channel reason first last) :=
  ((h.freeRx _).setReassembly _).recordLost

theorem Calm.reassemblyFind (h : Calm c c') {rh : ReliableHdr} {create : Bool} {now : U32} :
    Calm c (reassemblyFind c' key rh create now).1 := by
  rw [Rel.reassemblyFind]
  split
  · split
    · split
      · exact h
      · exact h
    · exact h
  · split
    · exact h
    · split
      · exact h
      · split
        · exact h.setReassembly _
        · exact h

theorem Calm.reassemblyFailed (h : Calm c c') {rh : ReliableHdr} :
    Calm c (reassemblyFailed c' key rh) := by
  rw [Rel.reassemblyFailed]
  refine Calm.modPeer ?_ fun _ => rfl
  split
  · exact h
  · exact h.emit rfl

theorem Calm.storeFragment (h : Calm c c') {i : ℕ} {slot : ReassemblySlot}
    {rh : ReliableHdr} {payload : List UInt8} {now : U32} :
    Calm c (storeFragment c' key i slot rh payload now) := by
  rw [Rel.storeFragment]
  split
  · exact (h.emit (e := .deliver _ _ _ _ _) rfl).setReassembly _
  · exact h.setReassembly _

theorem Calm.sendAck (h : Calm c c') {rh : ReliableHdr} {nack : Bool} :
    Calm c (sendAck c' key rh nack).1 :=
  h.sendPacket

/-! ## The sending side -/

theorem received_updateRto (cfg : RelConfig) (p : Peer) (sample : U32) :
    (updateRto cfg p sample).received = p.received := by
  rw [updateRto]
  split
  · rfl
  · split
    · rfl
    · rfl

theorem Calm.ackSlots (h : Calm c c') {ack : AckPayload} {now : U32} :
    Calm c (ackSlots c' key ack now) := by
  refine Calm.modPeer (Calm.setTx (h.foldl ?_ _) _) fun _ => rfl
  intro c' slot h
  split
  · exact h.modPeer fun p => received_updateRto _ p _
  · exact h

theorem Calm.retransmitSlot (h : Calm c c') {i : ℕ} {now : U32} :
    Calm c (retransmitSlot c' key i now).1 := by
  rw [Rel.retransmitSlot]
  split
  · exact h
  · exact ((h.setTx _).modPeer (f := Peer.countRetry) fun _ => rfl).emit rfl

theorem Calm.handleAckPacket (h : Calm c c') {src : Mac} {ack : AckPayload} {nack : Bool}
    {now : U32} : Calm c (handleAckPacket c' src ack nack now).1 := by
  have hfind := h.peerFind src now
  simp only [Rel.handleAckPacket]
  split
  · exact hfind
  split
  · exact hfind
  · next key _ _ =>
      have hacked : Calm c (Rel.ackSlots
          ((Rel.peerFind c' src false now).1.modPeer key Peer.routeSeen) key ack now) :=
        (hfind.modPeer (f := Peer.routeSeen) fun _ => rfl).ackSlots
      split
      · split
        · exact hacked.retransmitSlot
        · exact hacked.sendLost
      · exact hacked

theorem Calm.submitSlots {payload : List UInt8} {priority fragments : ℕ}
    {streamId now : U32} (is : List ℕ) {slots : List ℕ} (h : Calm c c') :
    Calm c
      (submitSlots key channel payload priority fragments streamId now is c' slots).1 := by
  induction is generalizing c' slots with
  | nil => exact h
  | cons i is ih =>
      have hnext : Calm c (c'.modPeer key
          (Peer.setNext channel ((c'.peer key).nextSeq channel + 1))) :=
        h.modPeer fun _ => rfl
      simp only [Rel.submitSlots]
      split
      · exact hnext.setTx _
      · exact ih ((hnext.setTx _).emit (e := .queued _ _ _) rfl)

theorem Calm.submitSend (slots : List ℕ) {err : EspErr} (h : Calm c c') :
    Calm c (submitSend key slots c' err).1 := by
  induction slots generalizing c' err with
  | nil => exact h
  | cons j slots ih =>
      rw [Rel.submitSend]
      split
      · exact ih h
      · exact ih (h.emit (e := .send _ _) rfl)

theorem Calm.submitOverflow (h : Calm c c') {fragments : ℕ} {firstSeq : U32} :
    Calm c (submitOverflow c' key channel fragments firstSeq) := by
  have hexhausted : Calm c (c'.emit (.exhausted key)) := h.emit rfl
  refine Calm.sendLost (hexhausted.modPeer ?_)
  exact fun _ => rfl

theorem Calm.submitMessage (h : Calm c c') {payload : List UInt8}
    {priority fragments : ℕ} {streamId now : U32} :
    Calm c (submitMessage c' key channel payload priority fragments streamId now).1 := by
  have hslots : Calm c (Rel.submitSlots key channel payload priority fragments
      streamId now (List.range fragments) c' []).1 :=
    h.submitSlots _
  simp only [Rel.submitMessage]
  split
  · exact h.submitOverflow
  · split
    · next heq =>
        rw [heq] at hslots
        exact hslots.submitOverflow
    · next heq =>
        rw [heq] at hslots
        split
        · exact Calm.submitSend _ (hslots.emit (e := .accepted _ _ _ _ _) rfl)
        · exact hslots.emit rfl

theorem Calm.countSubmit (h : Calm c c') (nextStreamId : U32) :
    Calm c (c'.countSubmit nextStreamId) :=
  h.tables rfl rfl rfl le_rfl

theorem Calm.submit (h : Calm c c') {mac : Mac} {payload : List UInt8} {priority : ℕ}
    {now : U32} : Calm c (submit c' mac channel payload priority now).1 := by
  have hfind := h.peerFind mac now
  simp only [Rel.submit]
  split
  · exact h
  split
  · exact hfind
  split
  · exact hfind
  split
  · exact hfind
  · exact (hfind.countSubmit _).submitMessage

theorem Calm.pollFragments (h : Calm c c') (now : U32) (is : List ℕ) :
    Calm c (pollFragments now is c') := by
  induction is generalizing c' with
  | nil => exact h
  | cons i is ih =>
      simp only [Rel.pollFragments]
      split
      · exact ih h
      · next slot _ =>
          have hfind := h.peerFind slot.peer now
          split
          · exact ih h
          · refine ih (Calm.setReassembly ?_ _)
            split
            · next heq =>
                rw [heq] at hfind
                exact hfind
            · next key heq =>
                rw [heq] at hfind
                exact (hfind.emit (e := .fragmentsExpired key) rfl).recordLost.sendLostPacket

theorem Calm.moveCursor (h : Calm c c') : Calm c c'.moveCursor :=
  h.tables rfl rfl rfl le_rfl

theorem Calm.supersedeChannel (h : Calm c c') {mac : Mac} {now : U32} :
    Calm c (supersedeChannel c' mac channel now).1 := by
  have hfind := h.peerFind mac now
  rw [Rel.supersedeChannel]
  split
  · exact h
  split
  · next heq =>
      rw [heq] at hfind
      exact hfind
  · next heq =>
      rw [heq] at hfind
      exact hfind.setTx _

end Calm

/-! ## Idle operations -/

/-- A calm change, a new record, or a call of `clear_peer_buffers`. -/
inductive IdleStep (c : Ctx) : Ctx → Prop where
  | calm {c' : Ctx} (h : Calm c c') : IdleStep c c'
  | create {i : ℕ} {key mac : Mac} {now : U32} (hnone : c.peerAt key = none)
      (hfree : freeIdx c.peers = some i) :
      IdleStep c (c.setPeers (c.peers.set i (some (newPeer c.cfg key mac now))))
  | clear {key : Mac} {reason : LostReason} : IdleStep c (clearPeerBuffers c key reason)

/-- The receive path does nothing but forget. -/
def Idle (c c' : Ctx) : Prop :=
  ReflTransGen IdleStep c c'

section Idle

variable {c c' : Ctx} {key : Mac} {channel : ℕ}

theorem Calm.idle (h : Calm c c') : Idle c c' :=
  .single (.calm h)

theorem Idle.calm {c'' : Ctx} (h : Idle c c') (hcalm : Calm c' c'') : Idle c c'' :=
  h.tail (.calm hcalm)

theorem Idle.clear (h : Idle c c') {reason : LostReason} :
    Idle c (clearPeerBuffers c' key reason) :=
  h.tail .clear

theorem Idle.peerFind (h : Idle c c') (mac : Mac) (create : Bool) (now : U32) :
    Idle c (peerFind c' mac create now).1 := by
  rw [Rel.peerFind]
  split
  · split
    · exact h.calm ((Calm.refl c').modPeer fun _ => rfl)
    · exact h
  · next hnone =>
      split
      · split
        · next hfree => exact h.tail (.create hnone hfree)
        · exact h
      · exact h

theorem Idle.handleHello (h : Idle c c') {src : Mac} {hello : HelloPayload} {now : U32} :
    Idle c (handleHello c' src hello now).1 := by
  have hfind := h.peerFind src true now
  rw [Rel.handleHello]
  split
  · exact h
  split
  · next heq =>
      rw [heq] at hfind
      exact hfind
  · next heq =>
      rw [heq] at hfind
      refine Idle.calm (Idle.calm ?_ ((Calm.refl _).modPeer ?_)) (Calm.refl _).sendPacket
      swap
      · exact fun _ => rfl
      split
      · exact hfind.clear
      · exact hfind

theorem Idle.handleHelloAck (h : Idle c c') {src : Mac} {ack : HelloAckPayload}
    {now : U32} : Idle c (handleHelloAck c' src ack now).1 := by
  have hfind := h.peerFind src true now
  rw [Rel.handleHelloAck]
  split
  · exact h
  split
  · next heq =>
      rw [heq] at hfind
      exact hfind
  · next heq =>
      rw [heq] at hfind
      refine Idle.calm ?_ ((Calm.refl _).modPeer ?_)
      swap
      · exact fun _ => rfl
      split
      · exact hfind.clear
      · exact hfind

theorem Idle.sendHello (h : Idle c c') {mac : Mac} {capabilities now : U32} :
    Idle c (sendHello c' mac capabilities now).1 := by
  have hfind := h.peerFind mac true now
  rw [Rel.sendHello]
  split
  · exact h
  split
  · next heq =>
      rw [heq] at hfind
      exact hfind
  · next heq =>
      rw [heq] at hfind
      exact hfind.calm (Calm.refl _).sendPacket

theorem Idle.pollRoutes (h : Idle c c') (now : U32) (keys : List Mac) :
    Idle c (pollRoutes now keys c') := by
  induction keys generalizing c' with
  | nil => exact h
  | cons key keys ih =>
      rw [Rel.pollRoutes]
      apply ih
      split
      · exact h.clear
      · exact h

theorem received_unbind (rootRole : Bool) (p : Peer) :
    (p.unbind rootRole).received = p.received := by
  rw [Peer.unbind]
  split
  · rfl
  · rfl

theorem Idle.retryExhausted (h : Idle c c') {slot : TxSlot} :
    Idle c (retryExhausted c' key slot) := by
  have hsent : Idle c (sendLostPacket c' key slot.channel .retryExhausted 0 slot.seq
      slot.seq).1 :=
    h.calm (Calm.refl _).sendLostPacket
  exact hsent.clear.calm ((Calm.refl _).modPeer fun p => received_unbind _ p)

theorem Idle.pollSlots (h : Idle c c') (now : U32) (visits : List (ℕ × Mac)) :
    Idle c (pollSlots now visits c') := by
  induction visits generalizing c' with
  | nil => exact h
  | cons visit visits ih =>
      obtain ⟨priority, key⟩ := visit
      simp only [Rel.pollSlots]
      split
      · exact ih h
      split
      · exact ih h
      split
      · exact ih h
      split
      · exact h.retryExhausted
      · exact ih (h.calm (Calm.refl _).retransmitSlot)

theorem Idle.poll (h : Idle c c') (now : U32) : Idle c (poll c' now) := by
  have hslots := (h.pollRoutes now ((used c'.peers).map Peer.mac)).pollSlots now
    ([4, 3, 2, 1, 0].flatMap fun priority => (pollOrder
      (Rel.pollRoutes now ((used c'.peers).map Peer.mac) c')).map fun key => (priority, key))
  exact hslots.calm ((Calm.refl _).moveCursor.pollFragments now _)

theorem Idle.resetPeer (h : Idle c c') {mac : Mac} {reason : LostReason} {now : U32} :
    Idle c (resetPeer c' mac reason now) := by
  have hfind := h.peerFind mac false now
  rw [Rel.resetPeer]
  split
  · next heq =>
      rw [heq] at hfind
      exact hfind
  · next heq =>
      rw [heq] at hfind
      exact hfind.clear

theorem Idle.peerRoute (h : Idle c c') {mac : Mac} {routeUp : Bool} {now : U32} :
    Idle c (peerRoute c' mac routeUp now).1 := by
  have hfind := h.peerFind mac routeUp now
  rw [Rel.peerRoute]
  split
  · next heq =>
      rw [heq] at hfind
      exact hfind
  · next found key heq =>
      rw [heq] at hfind
      split
      · exact hfind
      · have hroute : Idle c (found.modPeer key (Peer.setRoute routeUp now)) :=
          hfind.calm ((Calm.refl _).modPeer fun _ => rfl)
        simp only
        split
        · exact hroute.calm ((Calm.refl _).setTx _)
        · exact hroute

end Idle

end KeemashCore.Rel
