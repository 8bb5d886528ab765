import KeemashCore.Mesh.Send
import KeemashCore.SlotTable.Quota

/-!
# The updates of the frame tables

Every operation of `keemash_mesh_core.c` is a sequence of a few kinds of updates as far
as the tx, rx and reassembly tables are concerned: slots are freed or rewritten, a tx
slot that `tx_alloc` chose is filled, an rx slot that `rx_alloc` chose is filled with a
checked frame, a reassembly slot is opened for a checked frame and receives one.  What
each kind keeps is kept by every operation.

The priorities that `keemash_rel_submit` is called with are restricted by a parameter
`allowed`, since the function does not check them itself.
-/

namespace KeemashCore.Rel

open SlotTable Relation

/-! ## Checked frames -/

/-- The field checks of `handle_data` that a stored frame has passed. -/
structure Framed (rh : ReliableHdr) (payload : List UInt8) : Prop where
  channel_pos : 0 < rh.channelId
  channel_lt : rh.channelId < channelCount
  length : payload.length = rh.payloadLen
  length_le : rh.payloadLen ≤ reliableInnerMax
  count_pos : 0 < rh.fragmentCount
  count_le : rh.fragmentCount ≤ reliableMaxFragments
  index_lt : rh.fragmentIndex < rh.fragmentCount

/-- The rx slot holds a checked frame. -/
structure RxSlot.Framed (slot : RxSlot) : Prop where
  channel : slot.channel = slot.hdr.channelId
  frame : Rel.Framed slot.hdr slot.payload

/-- Every rx slot in use holds a checked frame. -/
def Ctx.Framed (c : Ctx) : Prop :=
  ∀ slot ∈ held c.rx, slot.Framed

theorem framed_of_not_malformed {c : Ctx} {src : Mac} {rh : ReliableHdr}
    {payload : List UInt8} (h : ¬dataMalformed c src rh payload = true) :
    Framed rh (payload.take rh.payloadLen) := by
  simp only [dataMalformed, Bool.or_eq_true, Bool.and_eq_true, beq_iff_eq, bne_iff_ne,
    decide_eq_true_eq, not_or] at h
  obtain ⟨⟨⟨⟨⟨⟨⟨⟨⟨hzero, hchannel⟩, hlength⟩, hmax⟩, hcount⟩, hcountMax⟩, hindex⟩, -⟩, -⟩, -⟩ := h
  constructor
  · omega
  · omega
  · rw [List.length_take]
    omega
  · omega
  · omega
  · omega
  · omega

/-! ## Updates -/

/-- The slot belongs to the same peer and priority and holds the same bytes. -/
structure TxSlot.Alike (slot slot' : TxSlot) : Prop where
  peer : slot'.peer = slot.peer
  priority : slot'.priority = slot.priority
  payload : slot'.payload = slot.payload

theorem TxSlot.Alike.refl (slot : TxSlot) : slot.Alike slot :=
  ⟨rfl, rfl, rfl⟩

/-- Records, counters and the trace change and slots are freed or rewritten. -/
structure Releases (c c' : Ctx) : Prop where
  cfg : c'.cfg = c.cfg
  tx : Thinned TxSlot.Alike c.tx c'.tx
  rx : Thinned Eq c.rx c'.rx
  reassembly : Thinned Eq c.reassembly c'.reassembly

/-- One update of the frame tables. -/
inductive Update (allowed : ℕ → Prop) (c : Ctx) : Ctx → Prop where
  | release {c' : Ctx} (h : Releases c c') : Update allowed c c'
  /-- `keemash_rel_submit` fills the slot that `tx_alloc` returned. -/
  | fillTx {i : ℕ} {slot : TxSlot} (hallowed : allowed slot.priority)
      (hchunk : slot.payload.length ≤ reliableInnerMax)
      (halloc : txAlloc c slot.peer slot.priority = some i) :
      Update allowed c (c.setTx (c.tx.set i (some slot)))
  /-- `handle_data` fills the slot that `rx_alloc` returned. -/
  | fillRx {i : ℕ} {slot : RxSlot} (hframed : slot.Framed)
      (halloc : rxAlloc c slot.peer = some i) :
      Update allowed c (c.setRx (c.rx.set i (some slot)))
  /-- `reassembly_find` opens a slot. -/
  | openReassembly {i : ℕ} {key : Mac} {rh : ReliableHdr} {payload : List UInt8} {now : U32}
      (hframed : Framed rh payload) (hfree : freeIdx c.reassembly = some i) :
      Update allowed c
        (c.setReassembly (c.reassembly.set i (some (newReassemblySlot key rh now))))
  /-- `deliver_fragment` stores a frame of the message. -/
  | store {i : ℕ} {slot : ReassemblySlot} {rh : ReliableHdr} {payload : List UInt8} {now : U32}
      (hframed : Framed rh payload) (hslot : entryAt c.reassembly i = some slot)
      (hcount : slot.fragmentCount = rh.fragmentCount) :
      Update allowed c
        (c.setReassembly (c.reassembly.set i (some (slot.store rh payload now))))

/-- A sequence of updates from a context whose rx slots hold checked frames. -/
structure Updates (allowed : ℕ → Prop) (c c' : Ctx) : Prop where
  framed : c.Framed
  steps : ReflTransGen (Update allowed) c c'

variable {allowed : ℕ → Prop}

theorem Update.framed {c c' : Ctx} (h : c.Framed) (hstep : Update allowed c c') :
    c'.Framed := by
  intro slot hslot
  cases hstep with
  | release hrel =>
      obtain ⟨_, hold, rfl⟩ := hrel.rx.exists_held hslot
      exact h _ hold
  | fillTx _ _ _ => exact h slot hslot
  | @fillRx i new hnew halloc =>
      rw [rxAlloc] at halloc
      split at halloc
      · simp at halloc
      · have hheld := held_set_some new (getElem?_of_freeIdx halloc)
        rw [Ctx.setRx, hheld, Multiset.mem_cons] at hslot
        rcases hslot with rfl | hold
        · exact hnew
        · exact h _ hold
  | openReassembly _ _ => exact h slot hslot
  | store _ _ _ => exact h slot hslot

theorem Updates.framed_after {c c' : Ctx} (h : Updates allowed c c') : c'.Framed := by
  obtain ⟨hframed, hsteps⟩ := h
  induction hsteps with
  | refl => exact hframed
  | tail _ hstep ih => exact hstep.framed ih

theorem Updates.refl {c : Ctx} (h : c.Framed) : Updates allowed c c :=
  ⟨h, .refl⟩

theorem Updates.trans {c c' c'' : Ctx} (h : Updates allowed c c')
    (h' : Updates allowed c' c'') : Updates allowed c c'' :=
  ⟨h.framed, h.steps.trans h'.steps⟩

theorem Updates.tail {c c' c'' : Ctx} (h : Updates allowed c c')
    (hstep : Update allowed c' c'') : Updates allowed c c'' :=
  ⟨h.framed, h.steps.tail hstep⟩

/-- What one update keeps, a sequence of updates keeps. -/
theorem Updates.keep {P : Ctx → Prop} {c c' : Ctx}
    (hP : ∀ c c', P c → Update allowed c c' → P c') (h : Updates allowed c c') (hc : P c) :
    P c' := by
  obtain ⟨-, hsteps⟩ := h
  induction hsteps with
  | refl => exact hc
  | tail _ hstep ih => exact hP _ _ ih hstep

section Updates

variable {c c' : Ctx} {key : Mac} {channel : ℕ}

/-! ## Elementary updates -/

/-- The frame tables are left alone. -/
theorem Updates.tables (h : Updates allowed c c') {c'' : Ctx} (hcfg : c''.cfg = c'.cfg)
    (htx : c''.tx = c'.tx) (hrx : c''.rx = c'.rx)
    (hreassembly : c''.reassembly = c'.reassembly) : Updates allowed c c'' := by
  refine h.tail (.release ⟨hcfg, ?_, ?_, ?_⟩)
  · rw [htx]
    exact .refl TxSlot.Alike.refl _
  · rw [hrx]
    exact .refl (fun _ => rfl) _
  · rw [hreassembly]
    exact .refl (fun _ => rfl) _

theorem Updates.emit (h : Updates allowed c c') (e : Effect) :
    Updates allowed c (c'.emit e) :=
  h.tables rfl rfl rfl rfl

theorem Updates.setPeers (h : Updates allowed c c') (table : List (Option Peer)) :
    Updates allowed c (c'.setPeers table) :=
  h.tables rfl rfl rfl rfl

theorem Updates.modPeer (h : Updates allowed c c') (f : Peer → Peer) :
    Updates allowed c (c'.modPeer key f) :=
  h.setPeers _

theorem Updates.setExpected (h : Updates allowed c c') (seq : U32) :
    Updates allowed c (c'.setExpected key channel seq) :=
  h.modPeer _

theorem Updates.setPending (h : Updates allowed c c')
    (table : List (Option PendingLostRange)) : Updates allowed c (c'.setPending key table) :=
  h.modPeer _

theorem Updates.thinTx (h : Updates allowed c c') {table : List (Option TxSlot)}
    (htable : Thinned TxSlot.Alike c'.tx table) : Updates allowed c (c'.setTx table) :=
  h.tail (.release ⟨rfl, htable, .refl (fun _ => rfl) _, .refl (fun _ => rfl) _⟩)

theorem Updates.thinRx (h : Updates allowed c c') {table : List (Option RxSlot)}
    (htable : Thinned Eq c'.rx table) : Updates allowed c (c'.setRx table) :=
  h.tail (.release ⟨rfl, .refl TxSlot.Alike.refl _, htable, .refl (fun _ => rfl) _⟩)

theorem Updates.thinReassembly (h : Updates allowed c c')
    {table : List (Option ReassemblySlot)} (htable : Thinned Eq c'.reassembly table) :
    Updates allowed c (c'.setReassembly table) :=
  h.tail (.release ⟨rfl, .refl TxSlot.Alike.refl _, .refl (fun _ => rfl) _, htable⟩)

theorem Updates.freeTx (h : Updates allowed c c') (p : TxSlot → Bool) :
    Updates allowed c (c'.setTx (freeWhere p c'.tx)) :=
  h.thinTx (thinned_freeWhere TxSlot.Alike.refl p _)

theorem Updates.freeRx (h : Updates allowed c c') (p : RxSlot → Bool) :
    Updates allowed c (c'.setRx (freeWhere p c'.rx)) :=
  h.thinRx (thinned_freeWhere (fun _ => rfl) p _)

theorem Updates.freeReassembly (h : Updates allowed c c') (p : ReassemblySlot → Bool) :
    Updates allowed c (c'.setReassembly (freeWhere p c'.reassembly)) :=
  h.thinReassembly (thinned_freeWhere (fun _ => rfl) p _)

theorem Updates.clearReassemblyAt (h : Updates allowed c c') (i : ℕ) :
    Updates allowed c (c'.setReassembly (c'.reassembly.set i none)) :=
  h.thinReassembly (thinned_set_none (fun _ => rfl) _ i)

/-- A loop whose body is a sequence of updates. -/
theorem Updates.foldl {α : Type} (h : Updates allowed c c') {f : Ctx → α → Ctx}
    (hf : ∀ c' a, Updates allowed c c' → Updates allowed c (f c' a)) (as : List α) :
    Updates allowed c (as.foldl f c') := by
  induction as generalizing c' with
  | nil => exact h
  | cons a as ih => exact ih (hf c' a h)

theorem Updates.peerFind (h : Updates allowed c c') (mac : Mac) (create : Bool) (now : U32) :
    Updates allowed c (peerFind c' mac create now).1 := by
  rw [Rel.peerFind]
  split
  · split
    · exact h.modPeer _
    · exact h
  · split
    · split
      · exact h.setPeers _
      · exact h
    · exact h

/-! ## Sending, reporting and clearing -/

theorem Updates.sendPacket (h : Updates allowed c c') {sessionId : U32} {body : Body} :
    Updates allowed c (sendPacket c' key sessionId body).1 :=
  h.emit _

theorem Updates.recordLost (h : Updates allowed c c') {role : Role} {reason : LostReason}
    {first last count : U32} :
    Updates allowed c (recordLost c' role key channel reason first last count) :=
  (h.modPeer _).emit _

theorem Updates.sendLostPacket (h : Updates allowed c c') {reason : LostReason}
    {flags : BitVec 16} {first last : U32} :
    Updates allowed c (sendLostPacket c' key channel reason flags first last).1 :=
  h.sendPacket

theorem Updates.sendLost (h : Updates allowed c c') {reason : LostReason} {first last : U32} :
    Updates allowed c (sendLost c' key channel reason first last).1 :=
  h.recordLost.sendLostPacket

theorem Updates.clearPeerBuffers (h : Updates allowed c c') {reason : LostReason} :
    Updates allowed c (clearPeerBuffers c' key reason) := by
  have htx : Updates allowed c ((c'.emit (.cleared key)).setTx
      (freeWhere (fun slot => slot.peer == key) c'.tx)) :=
    (h.emit _).freeTx _
  have hrx : Updates allowed c (clearRx ((c'.emit (.cleared key)).setTx
      (freeWhere (fun slot => slot.peer == key) c'.tx)) key reason) :=
    (htx.foldl (fun _ _ h => h.recordLost) _).freeRx _
  have hreassembly : Updates allowed c (clearReassembly (clearRx
      ((c'.emit (.cleared key)).setTx (freeWhere (fun slot => slot.peer == key) c'.tx))
      key reason) key reason) :=
    (hrx.foldl (fun _ _ h => h.recordLost) _).freeReassembly _
  rw [Rel.clearPeerBuffers]
  refine (hreassembly.modPeer _).foldl ?_ _
  intro c' _ h
  split
  · exact h.recordLost
  · exact h

/-! ## The receive path -/

/-- The function called for `consume_contiguous` is a sequence of updates. -/
def Consumer (allowed : ℕ → Prop) (consume : Ctx → Ctx) : Prop :=
  ∀ c c', Updates allowed c c' → Updates allowed c (consume c')

theorem Updates.receiverDropRange {consume : Ctx → Ctx} (h : Updates allowed c c')
    (hconsume : Consumer allowed consume) {reason : LostReason} {first last : U32} :
    Updates allowed c (receiverDropRange consume c' key channel reason first last) := by
  have hforget : Updates allowed c (forgetRange c' key channel reason first last) :=
    ((h.freeRx _).freeReassembly _).recordLost
  simp only [Rel.receiverDropRange]
  split
  · exact (hconsume _ _ (hforget.setExpected _)).sendLostPacket
  · split
    · split
      · exact (hforget.setPending _).sendLostPacket
      · exact (hforget.setPending _).clearPeerBuffers
    · exact hforget.sendLostPacket

theorem Updates.reassemblyFind (h : Updates allowed c c') {rh : ReliableHdr}
    {payload : List UInt8} (hframed : Framed rh payload) {create : Bool} {now : U32} :
    Updates allowed c (reassemblyFind c' key rh create now).1 := by
  rw [Rel.reassemblyFind]
  split
  · split
    · split
      · exact h
      · exact h
    · exact h
  · split
    · exact h
    · split
      · exact h
      · split
        · next hfree => exact h.tail (.openReassembly hframed hfree)
        · exact h

/-- The slot that `reassembly_find` returns is for a message of as many fragments. -/
theorem reassemblyFind_count {c c' : Ctx} {key : Mac} {rh : ReliableHdr} {create : Bool}
    {now : U32} {i : ℕ} {slot : ReassemblySlot}
    (h : reassemblyFind c key rh create now = (c', some i))
    (hslot : entryAt c'.reassembly i = some slot) :
    slot.fragmentCount = rh.fragmentCount := by
  rw [reassemblyFind] at h
  split at h
  · split at h
    · next old hold =>
        split at h
        · simp at h
        · next hmatch =>
            simp only [Prod.mk.injEq, Option.some.injEq] at h
            obtain ⟨rfl, rfl⟩ := h
            rw [hold] at hslot
            obtain rfl := Option.some.inj hslot
            push Not at hmatch
            exact hmatch.1
    · simp at h
  · split at h
    · simp at h
    · split at h
      · simp at h
      · split at h
        · next j hfree =>
            simp only [Prod.mk.injEq, Option.some.injEq] at h
            obtain ⟨rfl, rfl⟩ := h
            have hlt := lt_length_of_freeIdx hfree
            rw [Ctx.setReassembly, entryAt_set hlt, if_pos rfl] at hslot
            obtain rfl := Option.some.inj hslot
            rfl
        · simp at h

theorem Updates.reassemblyFailed (h : Updates allowed c c') {rh : ReliableHdr} :
    Updates allowed c (reassemblyFailed c' key rh) := by
  rw [Rel.reassemblyFailed]
  split
  · exact h.modPeer _
  · exact (h.emit _).modPeer _

theorem Updates.deliverFragment {consume : Ctx → Ctx} (h : Updates allowed c c')
    (hconsume : Consumer allowed consume) {rh : ReliableHdr} {payload : List UInt8}
    (hframed : Framed rh payload) {now : U32} :
    Updates allowed c (deliverFragment consume c' key rh payload now) := by
  have hhand : Updates allowed c (c'.emit (.handOff key rh payload)) := h.emit _
  have hfind : Updates allowed c
      (Rel.reassemblyFind (c'.emit (.handOff key rh payload)) key rh true now).1 :=
    hhand.reassemblyFind hframed
  rw [Rel.deliverFragment]
  split
  · exact hhand.emit _
  · split
    · exact hhand
    · split
      · next heq =>
          rw [heq] at hfind
          exact hfind.reassemblyFailed.receiverDropRange hconsume
      · next heq =>
          rw [heq] at hfind
          split
          · exact hfind
          · next slot hslot =>
              rw [storeFragment]
              split
              · exact (hfind.emit _).clearReassemblyAt _
              · exact hfind.tail (.store hframed hslot (reassemblyFind_count heq hslot))

theorem Updates.skipLost {c'' : Ctx} (h : Updates allowed c c')
    (hskip : skipLost c' key channel = some c'') : Updates allowed c c'' := by
  rw [Rel.skipLost] at hskip
  split at hskip
  · simp at hskip
  · split at hskip
    · simp at hskip
    · obtain rfl := Option.some.inj hskip
      exact (h.setExpected _).setPending _

theorem Updates.takeBuffered {c'' : Ctx} {slot : RxSlot} (h : Updates allowed c c')
    (htake : takeBuffered c' key channel = some (c'', slot)) :
    Updates allowed c c'' ∧ slot.Framed := by
  simp only [Rel.takeBuffered] at htake
  split at htake
  · simp at htake
  · next i _ =>
      split at htake
      · simp at htake
      · next found hfound =>
          simp only [Option.some.injEq, Prod.mk.injEq] at htake
          obtain ⟨rfl, rfl⟩ := htake
          constructor
          · exact (h.thinRx (thinned_set_none (fun _ => rfl) _ i)).setExpected _
          · exact h.framed_after _ (mem_held_of_entryAt hfound)

theorem consumer_consumeContiguous (n : ℕ) (key : Mac) (channel : ℕ) (now : U32) :
    Consumer allowed fun c => consumeContiguous n c key channel now := by
  induction n generalizing channel with
  | zero => exact fun _ _ h => h
  | succ n ih =>
      intro c c' h
      simp only [consumeContiguous]
      split
      · next hskip => exact ih channel c _ (h.skipLost hskip)
      · split
        · exact h
        · next htake =>
            obtain ⟨htaken, hframed⟩ := h.takeBuffered htake
            exact ih channel c _ (htaken.deliverFragment (ih _) hframed.frame)

theorem consumer_drain (key : Mac) (channel : ℕ) (now : U32) :
    Consumer allowed fun c => drain c key channel now :=
  fun c c' => consumer_consumeContiguous (drainFuel c' key) key channel now c c'

theorem Updates.acceptData (h : Updates allowed c c') {rh : ReliableHdr}
    {payload : List UInt8} (hframed : Framed rh (payload.take rh.payloadLen)) {now : U32} :
    Updates allowed c (acceptData c' key rh payload now).1 := by
  have hdrain : Consumer allowed fun c => drain c key rh.channelId now :=
    consumer_drain key rh.channelId now
  simp only [Rel.acceptData]
  split
  · exact h.sendPacket
  · split
    · refine Updates.sendPacket (hdrain _ _ ?_)
      exact (h.setExpected _).deliverFragment hdrain hframed
    · split
      · exact h.sendPacket
      · split
        · exact h.sendPacket
        · split
          · exact ((h.emit _).modPeer _).receiverDropRange hdrain
          · next halloc =>
              refine Updates.sendPacket (h.tail (.fillRx ?_ halloc))
              exact ⟨rfl, hframed⟩

theorem Updates.latestJump (h : Updates allowed c c') {rh : ReliableHdr} :
    Updates allowed c (latestJump c' key rh) :=
  ((h.freeRx _).setPending _).setExpected _

theorem Updates.handleData (h : Updates allowed c c') {src : Mac} {rh : ReliableHdr}
    {payload : List UInt8} {now : U32} :
    Updates allowed c (handleData c' src rh payload now).1 := by
  have hfind := h.peerFind src false now
  simp only [Rel.handleData]
  split
  · exact h
  · next hformed =>
      have hframed := framed_of_not_malformed hformed
      split
      · exact hfind
      · next key _ =>
          have hheard : Updates allowed c
              ((Rel.peerFind c' src false now).1.modPeer key (Peer.heardData rh now)) :=
            hfind.modPeer _
          split
          · split
            · exact hheard
            · split
              · exact hheard.latestJump.acceptData hframed
              · exact hheard.acceptData hframed
          · exact hheard.acceptData hframed

theorem Updates.handleLostPacket (h : Updates allowed c c') {src : Mac} {lost : LostPayload}
    {now : U32} : Updates allowed c (handleLostPacket c' src lost now).1 := by
  have hfind := h.peerFind src false now
  simp only [Rel.handleLostPacket]
  split
  · exact hfind
  · split
    · exact hfind
    · split
      · exact (hfind.freeTx _).recordLost
      · split
        · exact Updates.recordLost (consumer_drain _ _ now _ _ (hfind.setExpected _))
        · split
          · split
            · exact (hfind.setPending _).recordLost
            · exact (hfind.setPending _).clearPeerBuffers
          · exact hfind.recordLost

/-! ## The sending side -/

theorem Updates.ackSlots (h : Updates allowed c c') {ack : AckPayload} {now : U32} :
    Updates allowed c (ackSlots c' key ack now) := by
  refine Updates.modPeer (Updates.freeTx (h.foldl ?_ _) _) _
  intro c' slot h
  split
  · exact h.modPeer _
  · exact h

theorem Updates.retransmitSlot (h : Updates allowed c c') {i : ℕ} {now : U32} :
    Updates allowed c (retransmitSlot c' key i now).1 := by
  rw [Rel.retransmitSlot]
  split
  · exact h
  · next slot hslot =>
      have hreplay : Thinned TxSlot.Alike c'.tx (c'.tx.set i (some (slot.replayed now))) :=
        thinned_set_entry TxSlot.Alike.refl hslot ⟨rfl, rfl, rfl⟩
      exact ((h.thinTx hreplay).modPeer Peer.countRetry).emit _

theorem Updates.handleAckPacket (h : Updates allowed c c') {src : Mac} {ack : AckPayload}
    {nack : Bool} {now : U32} :
    Updates allowed c (handleAckPacket c' src ack nack now).1 := by
  have hfind := h.peerFind src false now
  simp only [Rel.handleAckPacket]
  split
  · exact hfind
  · split
    · exact hfind
    · next key _ _ =>
        have hseen : Updates allowed c
            ((Rel.peerFind c' src false now).1.modPeer key Peer.routeSeen) :=
          hfind.modPeer _
        split
        · split
          · exact hseen.ackSlots.retransmitSlot
          · exact hseen.ackSlots.sendLost
        · exact hseen.ackSlots

/-- Giving back the slots that a failed submit had filled. -/
theorem thinned_rollback (slots : List ℕ) (table : List (Option TxSlot)) :
    Thinned TxSlot.Alike table (slots.foldl (fun tx j => tx.set j none) table) := by
  induction slots generalizing table with
  | nil => exact .refl TxSlot.Alike.refl table
  | cons j slots ih =>
      refine Thinned.trans ?_ (thinned_set_none TxSlot.Alike.refl table j) (ih _)
      exact fun _ _ _ hab hbd => ⟨hbd.peer.trans hab.peer, hbd.priority.trans hab.priority,
    hbd.payload.trans hab.payload⟩

theorem Updates.submitSlots {payload : List UInt8} {priority fragments : ℕ}
    {streamId now : U32} (hallowed : allowed priority) (is : List ℕ) {slots : List ℕ}
    (h : Updates allowed c c') :
    Updates allowed c
      (submitSlots key channel payload priority fragments streamId now is c' slots).1 := by
  induction is generalizing c' slots with
  | nil => exact h
  | cons i is ih =>
      have hnext : Updates allowed c (c'.modPeer key
          (Peer.setNext channel ((c'.peer key).nextSeq channel + 1))) :=
        h.modPeer _
      simp only [Rel.submitSlots]
      split
      · exact hnext.thinTx (thinned_rollback _ _)
      · next halloc =>
          refine ih (Updates.emit (hnext.tail (.fillTx ?_ ?_ ?_)) _)
          · exact hallowed
          · exact List.length_take_le _ _
          · exact halloc

theorem Updates.submitSend (slots : List ℕ) {err : EspErr} (h : Updates allowed c c') :
    Updates allowed c (submitSend key slots c' err).1 := by
  induction slots generalizing c' err with
  | nil => exact h
  | cons j slots ih =>
      rw [Rel.submitSend]
      split
      · exact ih h
      · exact ih (h.emit _)

theorem Updates.submitOverflow (h : Updates allowed c c') {fragments : ℕ} {firstSeq : U32} :
    Updates allowed c (submitOverflow c' key channel fragments firstSeq) :=
  ((h.emit _).modPeer _).sendLost

theorem Updates.submitMessage (h : Updates allowed c c') {payload : List UInt8}
    {priority fragments : ℕ} {streamId now : U32} (hallowed : allowed priority) :
    Updates allowed c
      (submitMessage c' key channel payload priority fragments streamId now).1 := by
  have hslots : Updates allowed c (Rel.submitSlots key channel payload priority fragments
      streamId now (List.range fragments) c' []).1 :=
    h.submitSlots hallowed _
  simp only [Rel.submitMessage]
  split
  · exact h.submitOverflow
  · split
    · next heq =>
        rw [heq] at hslots
        exact hslots.submitOverflow
    · next heq =>
        rw [heq] at hslots
        split
        · exact (hslots.emit _).submitSend _
        · exact hslots.emit _

theorem Updates.submit (h : Updates allowed c c') {mac : Mac} {payload : List UInt8}
    {priority : ℕ} {now : U32} (hallowed : allowed priority) :
    Updates allowed c (submit c' mac channel payload priority now).1 := by
  have hfind := h.peerFind mac false now
  simp only [Rel.submit]
  split
  · exact h
  · split
    · exact hfind
    · split
      · exact hfind
      · split
        · exact hfind
        · have hcount : Updates allowed c ((Rel.peerFind c' mac false now).1.countSubmit
              ((Rel.peerFind c' mac false now).1.freshStream + 1)) :=
            hfind.tables rfl rfl rfl rfl
          exact hcount.submitMessage hallowed

theorem Updates.sendHello (h : Updates allowed c c') {mac : Mac} {capabilities now : U32} :
    Updates allowed c (sendHello c' mac capabilities now).1 := by
  have hfind := h.peerFind mac true now
  rw [Rel.sendHello]
  split
  · exact h
  · split
    · next heq =>
        rw [heq] at hfind
        exact hfind
    · next heq =>
        rw [heq] at hfind
        exact hfind.sendPacket

/-! ## The handshake -/

theorem Updates.handleHello (h : Updates allowed c c') {src : Mac} {hello : HelloPayload}
    {now : U32} : Updates allowed c (handleHello c' src hello now).1 := by
  have hfind := h.peerFind src true now
  rw [Rel.handleHello]
  split
  · exact h
  · split
    · next heq =>
        rw [heq] at hfind
        exact hfind
    · next heq =>
        rw [heq] at hfind
        refine Updates.sendPacket (Updates.modPeer ?_ _)
        split
        · exact hfind.clearPeerBuffers
        · exact hfind

theorem Updates.handleHelloAck (h : Updates allowed c c') {src : Mac}
    {ack : HelloAckPayload} {now : U32} :
    Updates allowed c (handleHelloAck c' src ack now).1 := by
  have hfind := h.peerFind src true now
  rw [Rel.handleHelloAck]
  split
  · exact h
  · split
    · next heq =>
        rw [heq] at hfind
        exact hfind
    · next heq =>
        rw [heq] at hfind
        refine Updates.modPeer ?_ _
        split
        · exact hfind.clearPeerBuffers
        · exact hfind

theorem Updates.handleRx (h : Updates allowed c c') {src : Mac} {packet : Packet}
    {now : U32} : Updates allowed c (handleRx c' src packet now).1 := by
  rw [Rel.handleRx]
  split
  · exact h
  · split
    · exact h.handleHello
    · exact h.handleHelloAck
    · exact h.handleData
    · exact h.handleAckPacket
    · exact h.handleAckPacket
    · exact h.handleLostPacket

/-! ## Polling and peer management -/

theorem Updates.pollRoutes (h : Updates allowed c c') (now : U32) (keys : List Mac) :
    Updates allowed c (pollRoutes now keys c') := by
  induction keys generalizing c' with
  | nil => exact h
  | cons key keys ih =>
      rw [Rel.pollRoutes]
      apply ih
      split
      · exact h.clearPeerBuffers
      · exact h

theorem Updates.retryExhausted (h : Updates allowed c c') {slot : TxSlot} :
    Updates allowed c (retryExhausted c' key slot) :=
  h.sendLostPacket.clearPeerBuffers.modPeer _

theorem Updates.pollSlots (h : Updates allowed c c') (now : U32) (visits : List (ℕ × Mac)) :
    Updates allowed c (pollSlots now visits c') := by
  induction visits generalizing c' with
  | nil => exact h
  | cons visit visits ih =>
      obtain ⟨priority, key⟩ := visit
      simp only [Rel.pollSlots]
      split
      · exact ih h
      · split
        · exact ih h
        · split
          · exact ih h
          · split
            · exact h.retryExhausted
            · exact ih h.retransmitSlot

theorem Updates.pollFragments (h : Updates allowed c c') (now : U32) (is : List ℕ) :
    Updates allowed c (pollFragments now is c') := by
  induction is generalizing c' with
  | nil => exact h
  | cons i is ih =>
      simp only [Rel.pollFragments]
      split
      · exact ih h
      · next slot _ =>
          have hfind := h.peerFind slot.peer false now
          split
          · exact ih h
          · refine ih (Updates.clearReassemblyAt ?_ i)
            split
            · next heq =>
                rw [heq] at hfind
                exact hfind
            · next heq =>
                rw [heq] at hfind
                exact (hfind.emit _).recordLost.sendLostPacket

theorem Updates.poll (h : Updates allowed c c') (now : U32) :
    Updates allowed c (poll c' now) := by
  have hroutes := h.pollRoutes now ((used c'.peers).map Peer.mac)
  refine Updates.pollFragments ?_ now _
  exact (hroutes.pollSlots now _).tables rfl rfl rfl rfl

theorem Updates.resetPeer (h : Updates allowed c c') {mac : Mac} {reason : LostReason}
    {now : U32} : Updates allowed c (resetPeer c' mac reason now) := by
  have hfind := h.peerFind mac false now
  rw [Rel.resetPeer]
  split
  · next heq =>
      rw [heq] at hfind
      exact hfind
  · next heq =>
      rw [heq] at hfind
      exact hfind.clearPeerBuffers

theorem Updates.peerRoute (h : Updates allowed c c') {mac : Mac} {routeUp : Bool}
    {now : U32} : Updates allowed c (peerRoute c' mac routeUp now).1 := by
  have hfind := h.peerFind mac routeUp now
  rw [Rel.peerRoute]
  split
  · next heq =>
      rw [heq] at hfind
      exact hfind
  · next found key heq =>
      rw [heq] at hfind
      split
      · exact hfind
      · have hroute : Updates allowed c (found.modPeer key (Peer.setRoute routeUp now)) :=
          hfind.modPeer _
        simp only
        split
        · refine hroute.thinTx (thinned_map ?_ _)
          intro slot
          rw [TxSlot.due]
          split
          · exact ⟨rfl, rfl, rfl⟩
          · exact .refl slot
        · exact hroute

theorem Updates.supersedeChannel (h : Updates allowed c c') {mac : Mac} {now : U32} :
    Updates allowed c (supersedeChannel c' mac channel now).1 := by
  have hfind := h.peerFind mac false now
  rw [Rel.supersedeChannel]
  split
  · exact h
  · split
    · next heq =>
        rw [heq] at hfind
        exact hfind
    · next heq =>
        rw [heq] at hfind
        exact hfind.freeTx _

theorem Updates.removePeer (h : Updates allowed c c') {mac : Mac} {now : U32} :
    Updates allowed c (removePeer c' mac now).1 := by
  have hfind := h.peerFind mac false now
  rw [Rel.removePeer]
  split
  · next heq =>
      rw [heq] at hfind
      exact hfind
  · next heq =>
      rw [heq] at hfind
      split
      · exact hfind
      · exact hfind.setPeers _

end Updates

end KeemashCore.Rel
