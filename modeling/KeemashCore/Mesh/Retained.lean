import KeemashCore.Mesh.Runs

/-!
# Where a tx slot and its retry counter stay

A frame stays in the tx slot that `keemash_rel_submit` put it in until the slot is freed.
Except for `retransmit_slot`, nothing changes the retry counter of a slot in use, and except
for `keemash_rel_submit`, nothing fills a free one.
-/

namespace KeemashCore.Rel

open SlotTable

def TxSlot.SameRetries (slot slot' : TxSlot) : Prop :=
  slot'.retries = slot.retries

theorem TxSlot.SameRetries.refl (slot : TxSlot) : slot.SameRetries slot :=
  rfl

/-- The slots of the tx table are freed or keep their retry counters. -/
structure Retains (c c' : Ctx) : Prop where
  cfg : c'.cfg = c.cfg
  tx : Thinned TxSlot.SameRetries c.tx c'.tx

section Retains

variable {c c' : Ctx} {key : Mac} {channel : ℕ}

theorem Retains.refl (c : Ctx) : Retains c c where
  cfg := rfl
  tx := .refl TxSlot.SameRetries.refl c.tx

theorem Retains.trans {c'' : Ctx} (h : Retains c c') (h' : Retains c' c'') : Retains c c'' where
  cfg := h'.cfg.trans h.cfg
  tx := .trans (fun _ _ _ hab hbd => Eq.trans hbd hab) h.tx h'.tx

/-! ## Elementary changes -/

theorem Retains.tables (h : Retains c c') {c'' : Ctx} (hcfg : c''.cfg = c'.cfg)
    (htx : c''.tx = c'.tx) : Retains c c'' where
  cfg := hcfg.trans h.cfg
  tx := by
    rw [htx]
    exact h.tx

theorem Retains.emit (h : Retains c c') (e : Effect) : Retains c (c'.emit e) :=
  h.tables rfl rfl

theorem Retains.setPeers (h : Retains c c') (table : List (Option Peer)) :
    Retains c (c'.setPeers table) :=
  h.tables rfl rfl

theorem Retains.modPeer (h : Retains c c') (f : Peer → Peer) :
    Retains c (c'.modPeer key f) :=
  h.setPeers _

theorem Retains.setExpected (h : Retains c c') (seq : U32) :
    Retains c (c'.setExpected key channel seq) :=
  h.modPeer _

theorem Retains.setPending (h : Retains c c') (table : List (Option PendingLostRange)) :
    Retains c (c'.setPending key table) :=
  h.modPeer _

theorem Retains.setRx (h : Retains c c') (table : List (Option RxSlot)) :
    Retains c (c'.setRx table) :=
  h.tables rfl rfl

theorem Retains.setReassembly (h : Retains c c') (table : List (Option ReassemblySlot)) :
    Retains c (c'.setReassembly table) :=
  h.tables rfl rfl

theorem Retains.freeTx (h : Retains c c') (p : TxSlot → Bool) :
    Retains c (c'.setTx (freeWhere p c'.tx)) :=
  h.trans ⟨rfl, thinned_freeWhere TxSlot.SameRetries.refl p _⟩

/-- A loop whose body retains the tx slots. -/
theorem Retains.foldl {α : Type} (h : Retains c c') {f : Ctx → α → Ctx}
    (hf : ∀ c' a, Retains c c' → Retains c (f c' a)) (as : List α) :
    Retains c (as.foldl f c') := by
  induction as generalizing c' with
  | nil => exact h
  | cons a as ih => exact ih (hf c' a h)

theorem Retains.peerFind (h : Retains c c') (mac : Mac) (create : Bool) (now : U32) :
    Retains c (peerFind c' mac create now).1 := by
  rw [Rel.peerFind]
  split
  · split
    · exact h.modPeer _
    · exact h
  · split
    · split
      · exact h.setPeers _
      · exact h
    · exact h

theorem Retains.sendPacket (h : Retains c c') {sessionId : U32} {body : Body} :
    Retains c (sendPacket c' key sessionId body).1 :=
  h.emit _

theorem Retains.recordLost (h : Retains c c') {role : Role} {reason : LostReason}
    {first last count : U32} :
    Retains c (recordLost c' role key channel reason first last count) :=
  (h.modPeer _).emit _

theorem Retains.sendLostPacket (h : Retains c c') {reason : LostReason} {flags : BitVec 16}
    {first last : U32} :
    Retains c (sendLostPacket c' key channel reason flags first last).1 :=
  h.sendPacket

theorem Retains.sendLost (h : Retains c c') {reason : LostReason} {first last : U32} :
    Retains c (sendLost c' key channel reason first last).1 :=
  h.recordLost.sendLostPacket

theorem Retains.clearPeerBuffers (h : Retains c c') {reason : LostReason} :
    Retains c (clearPeerBuffers c' key reason) := by
  have hrx (c' : Ctx) (h : Retains c c') : Retains c (clearRx c' key reason) :=
    (h.foldl (fun _ _ h => h.recordLost) _).setRx _
  have hreassembly (c' : Ctx) (h : Retains c c') :
      Retains c (clearReassembly c' key reason) :=
    (h.foldl (fun _ _ h => h.recordLost) _).setReassembly _
  have htx : Retains c ((c'.emit (.cleared key)).setTx
      (freeWhere (fun slot => slot.peer == key) c'.tx)) :=
    (h.emit _).freeTx _
  rw [Rel.clearPeerBuffers]
  apply ((hreassembly _ (hrx _ htx)).modPeer Peer.cleared).foldl
  intro c' _ h
  split
  · exact h.recordLost
  · exact h

/-! ## The receive path -/

/-- The function called for `consume_contiguous` retains the tx slots. -/
def Retainer (consume : Ctx → Ctx) : Prop :=
  ∀ c c', Retains c c' → Retains c (consume c')

theorem Retains.receiverDropRange {consume : Ctx → Ctx} (h : Retains c c')
    (hconsume : Retainer consume) {reason : LostReason} {first last : U32} :
    Retains c (receiverDropRange consume c' key channel reason first last) := by
  have hforget : Retains c (forgetRange c' key channel reason first last) :=
    ((h.setRx _).setReassembly _).recordLost
  simp only [Rel.receiverDropRange]
  split
  · exact (hconsume _ _ (hforget.setExpected _)).sendLostPacket
  · split
    · split
      · exact (hforget.setPending _).sendLostPacket
      · exact (hforget.setPending _).clearPeerBuffers
    · exact hforget.sendLostPacket

theorem Retains.reassemblyFind (h : Retains c c') {rh : ReliableHdr} {create : Bool}
    {now : U32} : Retains c (reassemblyFind c' key rh create now).1 := by
  rw [Rel.reassemblyFind]
  split
  · split
    · split
      · exact h
      · exact h
    · exact h
  · split
    · exact h
    · split
      · exact h
      · split
        · exact h.setReassembly _
        · exact h

theorem Retains.reassemblyFailed (h : Retains c c') {rh : ReliableHdr} :
    Retains c (reassemblyFailed c' key rh) := by
  rw [Rel.reassemblyFailed]
  split
  · exact h.modPeer _
  · exact (h.emit _).modPeer _

theorem Retains.deliverFragment {consume : Ctx → Ctx} (h : Retains c c')
    (hconsume : Retainer consume) {rh : ReliableHdr} {payload : List UInt8} {now : U32} :
    Retains c (deliverFragment consume c' key rh payload now) := by
  have hhand : Retains c (c'.emit (.handOff key rh payload)) := h.emit _
  have hfind : Retains c
      (Rel.reassemblyFind (c'.emit (.handOff key rh payload)) key rh true now).1 :=
    hhand.reassemblyFind
  rw [Rel.deliverFragment]
  split
  · exact hhand.emit _
  · split
    · exact hhand
    · split
      · next heq =>
          rw [heq] at hfind
          exact hfind.reassemblyFailed.receiverDropRange hconsume
      · next heq =>
          rw [heq] at hfind
          split
          · exact hfind
          · rw [storeFragment]
            split
            · exact (hfind.emit _).setReassembly _
            · exact hfind.setReassembly _

theorem Retains.skipLost {c'' : Ctx} (h : Retains c c')
    (hskip : skipLost c' key channel = some c'') : Retains c c'' := by
  rw [Rel.skipLost] at hskip
  split at hskip
  · cases hskip
  · split at hskip
    · cases hskip
    · obtain rfl := Option.some.inj hskip
      exact (h.setExpected _).setPending _

theorem Retains.takeBuffered {c'' : Ctx} {slot : RxSlot} (h : Retains c c')
    (htake : takeBuffered c' key channel = some (c'', slot)) : Retains c c'' := by
  simp only [Rel.takeBuffered] at htake
  split at htake
  · cases htake
  · split at htake
    · cases htake
    · cases htake
      exact (h.setRx _).setExpected _

theorem retainer_consumeContiguous (n : ℕ) (key : Mac) (channel : ℕ) (now : U32) :
    Retainer fun c => consumeContiguous n c key channel now := by
  induction n generalizing channel with
  | zero => exact fun _ _ h => h
  | succ n ih =>
      intro c c' h
      simp only [consumeContiguous]
      split
      · next hskip => exact ih channel c _ (h.skipLost hskip)
      · split
        · exact h
        · next htake => exact ih channel c _ ((h.takeBuffered htake).deliverFragment (ih _))

theorem retainer_drain (key : Mac) (channel : ℕ) (now : U32) :
    Retainer fun c => drain c key channel now :=
  fun c c' => retainer_consumeContiguous (drainFuel c' key) key channel now c c'

theorem Retains.acceptData (h : Retains c c') {rh : ReliableHdr} {payload : List UInt8}
    {now : U32} : Retains c (acceptData c' key rh payload now).1 := by
  have hdrain : Retainer fun c => drain c key rh.channelId now :=
    retainer_drain key rh.channelId now
  simp only [Rel.acceptData]
  split
  · exact h.sendPacket
  · split
    · refine Retains.sendPacket (hdrain _ _ ?_)
      exact (h.setExpected _).deliverFragment hdrain
    · split
      · exact h.sendPacket
      · split
        · exact h.sendPacket
        · split
          · exact ((h.emit _).modPeer _).receiverDropRange hdrain
          · exact (h.setRx _).sendPacket

theorem Retains.handleData (h : Retains c c') {src : Mac} {rh : ReliableHdr}
    {payload : List UInt8} {now : U32} :
    Retains c (handleData c' src rh payload now).1 := by
  have hfind := h.peerFind src false now
  simp only [Rel.handleData]
  split
  · exact h
  · split
    · exact hfind
    · next key _ =>
        have hheard : Retains c
            ((Rel.peerFind c' src false now).1.modPeer key (Peer.heardData rh now)) :=
          hfind.modPeer _
        split
        · split
          · exact hheard
          · split
            · exact (((hheard.setRx _).setPending _).setExpected _).acceptData
            · exact hheard.acceptData
        · exact hheard.acceptData

theorem Retains.handleLostPacket (h : Retains c c') {src : Mac} {lost : LostPayload}
    {now : U32} : Retains c (handleLostPacket c' src lost now).1 := by
  have hfind := h.peerFind src false now
  simp only [Rel.handleLostPacket]
  split
  · exact hfind
  · split
    · exact hfind
    · split
      · exact (hfind.freeTx _).recordLost
      · split
        · exact Retains.recordLost (retainer_drain _ _ now _ _ (hfind.setExpected _))
        · split
          · split
            · exact (hfind.setPending _).recordLost
            · exact (hfind.setPending _).clearPeerBuffers
          · exact hfind.recordLost

/-! ## Acknowledgements and the handshake -/

theorem Retains.ackSlots (h : Retains c c') {ack : AckPayload} {now : U32} :
    Retains c (ackSlots c' key ack now) := by
  refine Retains.modPeer (Retains.freeTx (h.foldl ?_ _) _) _
  intro c' slot h
  split
  · exact h.modPeer _
  · exact h

theorem Retains.sendHello (h : Retains c c') {mac : Mac} {capabilities now : U32} :
    Retains c (sendHello c' mac capabilities now).1 := by
  have hfind := h.peerFind mac true now
  rw [Rel.sendHello]
  split
  · exact h
  · split
    · next heq =>
        rw [heq] at hfind
        exact hfind
    · next heq =>
        rw [heq] at hfind
        exact hfind.sendPacket

theorem Retains.handleHello (h : Retains c c') {src : Mac} {hello : HelloPayload}
    {now : U32} : Retains c (handleHello c' src hello now).1 := by
  have hfind := h.peerFind src true now
  rw [Rel.handleHello]
  split
  · exact h
  · split
    · next heq =>
        rw [heq] at hfind
        exact hfind
    · next heq =>
        rw [heq] at hfind
        refine Retains.sendPacket (Retains.modPeer ?_ _)
        split
        · exact hfind.clearPeerBuffers
        · exact hfind

theorem Retains.handleHelloAck (h : Retains c c') {src : Mac} {ack : HelloAckPayload}
    {now : U32} : Retains c (handleHelloAck c' src ack now).1 := by
  have hfind := h.peerFind src true now
  rw [Rel.handleHelloAck]
  split
  · exact h
  · split
    · next heq =>
        rw [heq] at hfind
        exact hfind
    · next heq =>
        rw [heq] at hfind
        refine Retains.modPeer ?_ _
        split
        · exact hfind.clearPeerBuffers
        · exact hfind

/-! ## Polling and peer management -/

theorem Retains.pollRoutes (h : Retains c c') (now : U32) (keys : List Mac) :
    Retains c (pollRoutes now keys c') := by
  induction keys generalizing c' with
  | nil => exact h
  | cons key keys ih =>
      rw [Rel.pollRoutes]
      apply ih
      split
      · exact h.clearPeerBuffers
      · exact h

theorem Retains.retryExhausted (h : Retains c c') {slot : TxSlot} :
    Retains c (retryExhausted c' key slot) :=
  h.sendLostPacket.clearPeerBuffers.modPeer _

theorem Retains.pollFragments (h : Retains c c') (now : U32) (is : List ℕ) :
    Retains c (pollFragments now is c') := by
  induction is generalizing c' with
  | nil => exact h
  | cons i is ih =>
      simp only [Rel.pollFragments]
      split
      · exact ih h
      · next slot _ =>
          have hfind := h.peerFind slot.peer false now
          split
          · exact ih h
          · refine ih (Retains.setReassembly ?_ _)
            split
            · next heq =>
                rw [heq] at hfind
                exact hfind
            · next heq =>
                rw [heq] at hfind
                exact (hfind.emit _).recordLost.sendLostPacket

theorem Retains.resetPeer (h : Retains c c') {mac : Mac} {reason : LostReason} {now : U32} :
    Retains c (resetPeer c' mac reason now) := by
  have hfind := h.peerFind mac false now
  rw [Rel.resetPeer]
  split
  · next heq =>
      rw [heq] at hfind
      exact hfind
  · next heq =>
      rw [heq] at hfind
      exact hfind.clearPeerBuffers

theorem Retains.peerRoute (h : Retains c c') {mac : Mac} {routeUp : Bool} {now : U32} :
    Retains c (peerRoute c' mac routeUp now).1 := by
  have hfind := h.peerFind mac routeUp now
  rw [Rel.peerRoute]
  split
  · next heq =>
      rw [heq] at hfind
      exact hfind
  · next found key heq =>
      rw [heq] at hfind
      split
      · exact hfind
      · simp only
        split
        · refine Retains.trans (hfind.modPeer _) ⟨rfl, thinned_map ?_ _⟩
          intro slot
          rw [TxSlot.due]
          split
          · rfl
          · rfl
        · exact hfind.modPeer _

theorem Retains.supersedeChannel (h : Retains c c') {mac : Mac} {now : U32} :
    Retains c (supersedeChannel c' mac channel now).1 := by
  have hfind := h.peerFind mac false now
  rw [Rel.supersedeChannel]
  split
  · exact h
  · split
    · next heq =>
        rw [heq] at hfind
        exact hfind
    · next heq =>
        rw [heq] at hfind
        exact hfind.freeTx _

theorem Retains.removePeer (h : Retains c c') {mac : Mac} {now : U32} :
    Retains c (removePeer c' mac now).1 := by
  have hfind := h.peerFind mac false now
  rw [Rel.removePeer]
  split
  · next heq =>
      rw [heq] at hfind
      exact hfind
  · next heq =>
      rw [heq] at hfind
      split
      · exact hfind
      · exact hfind.setPeers _

end Retains

end KeemashCore.Rel
