import KeemashCore.Mesh.Footprint

/-!
# Peers do not disturb each other

A packet from one peer, or a call about it, changes only the slices of that
peer.  `keyOf` gives the key under which the peer is stored.
-/

namespace KeemashCore.Rel

open SlotTable SelectiveRepeat

/-! ## Finding a peer -/

/-- `peer_find` returns the record stored under the key, if any. -/
theorem peerFind_key (c : Ctx) (mac : Mac) (create : Bool) (now : U32) :
    (peerFind c mac create now).2 = none ∨
      (peerFind c mac create now).2 = some (c.keyOf mac) := by
  rw [peerFind]
  split
  · split
    · exact .inr rfl
    · exact .inr rfl
  · split
    · split
      · exact .inr rfl
      · exact .inl rfl
    · exact .inl rfl

theorem peerFind_some {c c' : Ctx} {mac key : Mac} {create : Bool} {now : U32}
    (h : peerFind c mac create now = (c', some key)) : key = c.keyOf mac := by
  have := peerFind_key c mac create now
  rw [h] at this
  simpa using this

/-- The context after a record was found: a node notes the address of its root. -/
def Ctx.noteMac (c : Ctx) (mac : Mac) : Ctx :=
  if !c.cfg.rootRole && mac != 0 then
    c.modPeer (c.keyOf mac) fun p => { p with remoteMac := mac }
  else c

theorem peerFind_stored {c : Ctx} {mac : Mac} (h : c.has (c.keyOf mac)) (create : Bool)
    (now : U32) : peerFind c mac create now = (c.noteMac mac, some (c.keyOf mac)) := by
  obtain ⟨p, hp⟩ := Option.isSome_iff_exists.mp h
  rw [peerFind, hp, Ctx.noteMac]
  simp only
  split
  · rfl
  · rfl

theorem peerFind_missing {c : Ctx} {mac : Mac} (h : ¬c.has (c.keyOf mac)) (now : U32) :
    peerFind c mac false now = (c, none) := by
  have hnone : c.peerAt (c.keyOf mac) = none := by simpa [Ctx.has] using h
  rw [peerFind, hnone]
  rfl

theorem has_of_ready {c : Ctx} {key : Mac} (h : (c.peer key).ready = true) : c.has key := by
  by_contra hnone
  have hat : c.peerAt key = none := by simpa [Ctx.has] using hnone
  rw [Ctx.peer, hat] at h
  exact absurd h (by decide)

/-- Noting an address changes nothing but that. -/
theorem noteMac_eq (c : Ctx) (mac : Mac) :
    c.noteMac mac = { c with peers := (c.noteMac mac).peers } := by
  rw [Ctx.noteMac]
  split
  · rfl
  · rfl

theorem peer_noteMac {α : Type} (g : Peer → α)
    (hg : ∀ p mac, g { p with remoteMac := mac } = g p) (c : Ctx) (mac k : Mac) :
    g ((c.noteMac mac).peer k) = g (c.peer k) := by
  have hset : ∀ p : Peer, { p with remoteMac := mac }.mac = p.mac := fun _ => rfl
  rw [Ctx.noteMac]
  split
  · exact peer_modPeer_field g hset (fun p => hg p mac) k
  · rfl

theorem has_noteMac (c : Ctx) (mac k : Mac) : (c.noteMac mac).has k ↔ c.has k := by
  have hset : ∀ p : Peer, { p with remoteMac := mac }.mac = p.mac := fun _ => rfl
  rw [Ctx.noteMac]
  split
  · exact has_modPeer hset k
  · exact Iff.rfl

section

variable {A : Set (Mac × ℕ)} {c c' : Ctx} {key mac : Mac} {channel : ℕ}

/-- A new record takes a free slot of the peer table. -/
theorem touches_newPeer {i : ℕ} {p : Peer} (hnone : c.peerAt p.mac = none)
    (hfree : freeIdx c.peers = some i) :
    Touches (ofKey p.mac) c (c.setPeers (c.peers.set i (some p))) := by
  have hat : ∀ k, k ≠ p.mac →
      (c.setPeers (c.peers.set i (some p))).peerAt k = c.peerAt k := by
    intro k hk
    exact find?_used_set_some (getElem?_of_freeIdx hfree) (by simpa using Ne.symm hk)
  have hpeer : ∀ k, k ≠ p.mac →
      (c.setPeers (c.peers.set i (some p))).peer k = c.peer k := by
    intro k hk
    rw [Ctx.peer, hat k hk]
    rfl
  have hne : ∀ k, c.has k → k ≠ p.mac := by
    rintro k hk rfl
    simp [Ctx.has, hnone] at hk
  refine ⟨List.prefix_rfl, rfl, rfl, fun k hk => ?_, fun k ch hk => ?_, fun k hk _ => ?_⟩
  · rw [Ctx.has, hat k (hne k hk)]
    exact hk
  · simp only [Ctx.slice, hpeer k hk]
    rfl
  · rw [hpeer k (hne k hk)]

theorem touches_peerFind (c : Ctx) (mac : Mac) (create : Bool) (now : U32) :
    Touches (ofKey (c.keyOf mac)) c (peerFind c mac create now).1 := by
  rw [peerFind]
  split
  · split
    · exact (Touches.refl _ c).modPeer_wide (fun _ => rfl) (fun _ => rfl) fun _ => rfl
    · exact .refl _ c
  · next hnone =>
      split
      · split
        · next i hfree => exact touches_newPeer (p := newPeer c.cfg _ mac now) hnone hfree
        · exact .refl _ c
      · exact .refl _ c

/-- The address names a record that is stored already: the key is the address, or
the record is the root's and its address is current. -/
def Ctx.Knows (c : Ctx) (mac : Mac) : Prop :=
  c.has (c.keyOf mac) ∧
    (c.cfg.rootRole = true ∨ mac = 0 ∨ (c.peer (c.keyOf mac)).remoteMac = mac)

/-- Finding a known peer changes nothing. -/
theorem peerFind_known (h : c.Knows mac) (create : Bool) (now : U32) :
    Touches ∅ c (peerFind c mac create now).1 ∧
      (peerFind c mac create now).2 = some (c.keyOf mac) := by
  obtain ⟨hhas, hmac⟩ := h
  obtain ⟨p, hp⟩ := Option.isSome_iff_exists.mp hhas
  rw [peerFind, hp]
  simp only
  split
  · next hnode =>
      simp only [Bool.and_eq_true, Bool.not_eq_true', bne_iff_ne, ne_eq] at hnode
      have hremote : (c.peer (c.keyOf mac)).remoteMac = mac := by
        rcases hmac with hmac | hmac | hmac
        · simp [hnode.1] at hmac
        · exact absurd hmac hnode.2
        · exact hmac
      refine ⟨?_, rfl⟩
      have hset : ∀ p : Peer, { p with remoteMac := mac }.mac = p.mac := fun _ => rfl
      refine ⟨List.prefix_rfl, rfl, rfl, fun k hk => (has_modPeer hset k).mpr hk,
        fun k ch _ => ?_,
        fun k _ _ => peer_modPeer_field Peer.lostCount hset (fun _ => rfl) k⟩
      by_cases hk : k = c.keyOf mac
      · subst hk
        have hsame : (c.modPeer (c.keyOf mac) fun p => { p with remoteMac := mac }).peer
            (c.keyOf mac) = c.peer (c.keyOf mac) := by
          rw [peer_modPeer_self hset hhas]
          conv_rhs => rw [show c.peer (c.keyOf mac) =
            { c.peer (c.keyOf mac) with
              remoteMac := (c.peer (c.keyOf mac)).remoteMac } from rfl, hremote]
        simp only [Ctx.slice, hsame]
        rfl
      · exact slice_modPeer_ne hset hk ch
  · exact ⟨.refl _ c, rfl⟩

theorem Touches.keyOf (h : Touches A c c') (mac : Mac) : c'.keyOf mac = c.keyOf mac := by
  rw [Ctx.keyOf, Ctx.keyOf, h.cfg]

theorem boundPeer_some {found : Option Mac} {rootSessionId nodeSessionId : U32}
    (h : boundPeer c found rootSessionId nodeSessionId = some key) :
    found = some key ∧ (c.peer key).ready = true ∧
      (c.peer key).rootSessionId = rootSessionId ∧
      (c.peer key).nodeSessionId = nodeSessionId := by
  cases found with
  | none => simp [boundPeer] at h
  | some k =>
      simp only [boundPeer] at h
      split at h
      · next hp =>
          obtain rfl := Option.some.inj h
          simp only [Bool.and_eq_true, beq_iff_eq] at hp
          exact ⟨rfl, hp.1.1, hp.1.2, hp.2⟩
      · simp at h

/-! ## Packets -/

theorem Touches.sendAck (h : Touches A c c') {rh : ReliableHdr}
    (hA : (key, rh.channelId) ∈ A) {nack : Bool} :
    Touches A c (sendAck c' key rh nack).1 := by
  refine h.sendPacket fun ch hch => ?_
  have : ch = rh.channelId := by
    cases nack with
    | false => exact (Option.some.inj hch).symm
    | true => exact (Option.some.inj hch).symm
  rw [this]
  exact hA

theorem Touches.acceptData (h : Touches A c c') (hA : ofKey key ⊆ A) {rh : ReliableHdr}
    {payload : List UInt8} {now : U32} :
    Touches A c (acceptData c' key rh payload now).1 := by
  have hin : (key, rh.channelId) ∈ A := hA rfl
  have hdrain := fun c => touches_drain hA c rh.channelId now
  simp only [Rel.acceptData]
  split
  · exact h.sendAck hin
  · split
    · refine Touches.sendAck (Touches.trans ?_ (hdrain _)) hin
      exact (h.setExpected hin _).deliverFragment hA hdrain
    · split
      · exact h.sendAck hin
      · split
        · exact h.sendAck hin
        · split
          · refine Touches.receiverDropRange (Touches.modPeer ?_ ?_ ?_) hA hdrain
            · exact h.emit_silent fun _ _ => rfl
            · exact fun _ => rfl
            · exact fun _ => rfl
          · next halloc =>
              refine Touches.sendAck (h.setRx fun k ch hk => ?_) hin
              rw [rxAlloc] at halloc
              split at halloc
              · simp at halloc
              · exact filter_set_some (getElem?_of_freeIdx halloc) (not_isFor_rx hk hin)

theorem Touches.latestJump (h : Touches A c c') {rh : ReliableHdr}
    (hA : (key, rh.channelId) ∈ A) : Touches A c (latestJump c' key rh) := by
  refine Touches.setExpected (Touches.setPending (h.freeRx fun slot hs => ?_)
    fun ch hk => ?_) hA _
  · obtain ⟨hch, rfl⟩ := RxSlot.isFor_iff.mp hs
    rw [hch]
    exact hA
  · refine pendingOn_free_other ?_ _
    rintro rfl
    exact hk hA

theorem touches_handleData (c : Ctx) (src : Mac) (rh : ReliableHdr)
    (payload : List UInt8) (now : U32) :
    Touches (ofKey (c.keyOf src)) c (handleData c src rh payload now).1 := by
  have hfind := touches_peerFind c src false now
  simp only [handleData]
  split
  · exact .refl _ c
  · split
    · exact hfind
    · next key hbound =>
        obtain ⟨hfound, -⟩ := boundPeer_some hbound
        obtain rfl := peerFind_some (Prod.ext rfl hfound)
        have hpeer : Touches (ofKey (c.keyOf src)) c ((peerFind c src false now).1.modPeer
            (c.keyOf src) (Peer.heardData rh now)) :=
          hfind.modPeer (fun _ => rfl) (fun _ => rfl)
        split
        · split
          · exact hpeer
          · split
            · exact (hpeer.latestJump rfl).acceptData subset_rfl
            · exact hpeer.acceptData subset_rfl
        · exact hpeer.acceptData subset_rfl

theorem touches_handleLostPacket (c : Ctx) (src : Mac) (lost : LostPayload) (now : U32) :
    Touches (ofKey (c.keyOf src)) c (handleLostPacket c src lost now).1 := by
  have hfind := touches_peerFind c src false now
  simp only [handleLostPacket]
  split
  · exact hfind
  · next key hbound =>
      obtain ⟨hfound, -⟩ := boundPeer_some hbound
      obtain rfl := peerFind_some (Prod.ext rfl hfound)
      have hin : ∀ ch, (c.keyOf src, ch) ∈ ofKey (c.keyOf src) := fun _ => rfl
      split
      · exact hfind
      · split
        · refine Touches.recordLost (hfind.freeTx fun slot hs => ?_) (hin _)
          obtain ⟨-, hpeer⟩ := TxSlot.isFor_iff.mp (Bool.and_elim_left hs)
          exact hpeer
        · split
          · exact ((hfind.setExpected (hin _) _).trans
              (touches_drain subset_rfl _ _ now)).recordLost (hin _)
          · split
            · split
              · exact (hfind.setPending_wide subset_rfl _).recordLost (hin _)
              · exact (hfind.setPending_wide subset_rfl _).clearPeerBuffers subset_rfl
            · exact hfind.recordLost (hin _)

theorem updateRto_seen (cfg : RelConfig) (p : Peer) (sample : U32) :
    (updateRto cfg p sample).seen = p.seen ∧
      (updateRto cfg p sample).lostCount = p.lostCount := by
  rw [updateRto]
  split
  · exact ⟨rfl, rfl⟩
  · split
    · exact ⟨rfl, rfl⟩
    · exact ⟨rfl, rfl⟩

theorem Touches.ackSlots (h : Touches A c c') {ack : AckPayload}
    (hA : (key, ack.channelId) ∈ A) {now : U32} :
    Touches A c (ackSlots c' key ack now) := by
  refine Touches.modPeer (Touches.freeTx (h.foldl (fun c slot => ?_) _)
    fun slot hs => ?_) (fun _ => rfl) (fun _ => rfl)
  · split
    · exact (Touches.refl A c).modPeer (fun p => (updateRto_seen _ p _).1)
        fun p => (updateRto_seen _ p _).2
    · exact .refl A c
  · obtain ⟨hch, rfl⟩ := TxSlot.isFor_iff.mp (Bool.and_elim_left hs)
    rw [hch]
    exact hA

/-- A slot whose packet belongs to the slot's own channel is sent again. -/
theorem Touches.retransmitSlot (h : Touches A c c') {i : ℕ} {now : U32}
    (hA : ∀ slot, entryAt c'.tx i = some slot →
      (slot.peer, slot.channel) ∈ A ∧ (key, slot.rh.channelId) ∈ A) :
    Touches A c (retransmitSlot c' key i now).1 := by
  rw [Rel.retransmitSlot]
  split
  · exact h
  · next slot hslot =>
      obtain ⟨hpeer, hkey⟩ := hA slot hslot
      have htx : Touches A c (c'.setTx (c'.tx.set i (some (slot.replayed now)))) := by
        refine h.setTx fun k ch hk => ?_
        exact filter_set_entry hslot (not_isFor_tx hk hpeer) (not_isFor_tx hk hpeer)
      have hretry : Touches A c ((c'.setTx (c'.tx.set i (some (slot.replayed now)))).modPeer
          key Peer.countRetry) :=
        htx.modPeer (fun _ => rfl) (fun _ => rfl)
      exact hretry.emit_on hkey fun _ _ => rfl

theorem touches_handleAckPacket (c : Ctx) (src : Mac) (ack : AckPayload) (nack : Bool)
    (now : U32) :
    Touches (ofKey (c.keyOf src)) c (handleAckPacket c src ack nack now).1 := by
  have hfind := touches_peerFind c src false now
  simp only [handleAckPacket]
  split
  · exact hfind
  · next key hbound =>
      obtain ⟨hfound, -⟩ := boundPeer_some hbound
      obtain rfl := peerFind_some (Prod.ext rfl hfound)
      have hin : ∀ ch, (c.keyOf src, ch) ∈ ofKey (c.keyOf src) := fun _ => rfl
      split
      · exact hfind
      · have hseen : Touches (ofKey (c.keyOf src)) c
            ((peerFind c src false now).1.modPeer (c.keyOf src) Peer.routeSeen) :=
          hfind.modPeer (fun _ => rfl) (fun _ => rfl)
        have hack : Touches (ofKey (c.keyOf src)) c
            (ackSlots ((peerFind c src false now).1.modPeer (c.keyOf src) Peer.routeSeen)
              (c.keyOf src) ack now) :=
          hseen.ackSlots (hin ack.channelId)
        split
        · split
          · next i hi =>
              refine hack.retransmitSlot fun slot hslot => ⟨?_, hin _⟩
              obtain ⟨found, hentry, hp⟩ := entryAt_of_findIdx hi
              obtain rfl := Option.some.inj (hentry.symm.trans hslot)
              obtain ⟨-, hpeer⟩ := TxSlot.isFor_iff.mp (Bool.and_elim_left hp)
              rw [hpeer]
              exact hin _
          · exact hack.sendLost (hin _)
        · exact hack

/-- Handshake packets belong to no channel. -/
theorem Touches.sendHandshake (h : Touches A c c') {sessionId : U32} {body : Body}
    (hbody : body.channel? = none) :
    Touches A c (Rel.sendPacket c' key sessionId body).1 :=
  h.sendPacket fun ch hch => by simp [hbody] at hch

theorem touches_handleHello (c : Ctx) (src : Mac) (hello : HelloPayload) (now : U32) :
    Touches (ofKey (c.keyOf src)) c (handleHello c src hello now).1 := by
  have hfind := touches_peerFind c src true now
  simp only [handleHello]
  split
  · exact .refl _ c
  · split
    · next heq =>
        rw [heq] at hfind
        exact hfind
    · next heq =>
        rw [heq] at hfind
        obtain rfl := peerFind_some heq
        refine Touches.sendHandshake (Touches.modPeer_wide (f := Peer.bind _ _ _ _) ?_
          (fun _ => rfl) (fun _ => rfl) ?_) rfl
        swap
        · exact fun _ => rfl
        split
        · exact hfind.clearPeerBuffers subset_rfl
        · exact hfind

theorem touches_handleHelloAck (c : Ctx) (src : Mac) (ack : HelloAckPayload) (now : U32) :
    Touches (ofKey (c.keyOf src)) c (handleHelloAck c src ack now).1 := by
  have hfind := touches_peerFind c src true now
  simp only [handleHelloAck]
  split
  · exact .refl _ c
  · split
    · next heq =>
        rw [heq] at hfind
        exact hfind
    · next heq =>
        rw [heq] at hfind
        obtain rfl := peerFind_some heq
        refine Touches.modPeer_wide ?_ (fun _ => rfl) (fun _ => rfl) fun _ => rfl
        split
        · exact hfind.clearPeerBuffers subset_rfl
        · exact hfind

/-- A packet changes only the slices of the peer that sent it. -/
theorem touches_handleRx (c : Ctx) (src : Mac) (packet : Packet) (now : U32) :
    Touches (ofKey (c.keyOf src)) c (handleRx c src packet now).1 := by
  rw [handleRx]
  split
  · exact .refl _ c
  · split
    · exact touches_handleHello c src _ now
    · exact touches_handleHelloAck c src _ now
    · exact touches_handleData c src _ _ now
    · exact touches_handleAckPacket c src _ _ now
    · exact touches_handleAckPacket c src _ _ now
    · exact touches_handleLostPacket c src _ now

/-! ## Calls -/

theorem touches_sendHello (c : Ctx) (mac : Mac) (capabilities now : U32) :
    Touches (ofKey (c.keyOf mac)) c (sendHello c mac capabilities now).1 := by
  have hfind := touches_peerFind c mac true now
  rw [sendHello]
  split
  · exact .refl _ c
  · split
    · next heq =>
        rw [heq] at hfind
        exact hfind
    · next heq =>
        rw [heq] at hfind
        exact hfind.sendHandshake rfl

theorem freeIdx_of_txAlloc {priority i : ℕ} (h : txAlloc c key priority = some i) :
    freeIdx c.tx = some i := by
  rw [txAlloc] at h
  by_cases hlimit : (priority < priorityControl ∧ txUnacked c key ≥
      if c.cfg.perPeerTxSlots > c.cfg.perPeerControlReserve
      then c.cfg.perPeerTxSlots - c.cfg.perPeerControlReserve else 0) ∨
      (priority = priorityControl ∧ txUnacked c key ≥ c.cfg.perPeerTxSlots)
  · simp only [if_pos hlimit] at h
    simp at h
  · simp only [if_neg hlimit] at h
    split at h
    · simp at h
    · exact h

theorem Touches.freeTxAt (h : Touches A c c') (slots : List ℕ)
    (hA : ∀ j ∈ slots, ∀ slot, entryAt c'.tx j = some slot →
      (slot.peer, slot.channel) ∈ A) :
    Touches A c (c'.setTx (slots.foldl (fun tx j => tx.set j none) c'.tx)) := by
  refine h.setTx fun k ch hk => ?_
  have hgen : ∀ table : List (Option TxSlot),
      (∀ j ∈ slots, ∀ slot, entryAt table j = some slot →
        (slot.peer, slot.channel) ∈ A) →
      ((held (slots.foldl (fun tx j => tx.set j none) table)).filter
        fun slot => slot.isFor k ch) = (held table).filter fun slot => slot.isFor k ch := by
    clear hA
    induction slots with
    | nil => exact fun _ _ => rfl
    | cons j slots ih =>
        intro table hA
        rw [List.foldl_cons, ih]
        · cases hslot : entryAt table j with
          | none =>
              rw [show table.set j none = table from ?_]
              refine ext_entryAt (by simp) fun i => ?_
              rw [entryAt_set_none]
              split
              · next heq => rw [heq, hslot]
              · rfl
          | some slot =>
              exact filter_set_none hslot
                (not_isFor_tx hk (hA j List.mem_cons_self slot hslot))
        · intro i hi slot hslot
          rw [entryAt_set_none] at hslot
          split at hslot
          · simp at hslot
          · exact hA i (List.mem_cons_of_mem _ hi) slot hslot
  exact hgen c'.tx hA

/-- Assigning to `next_seq[channel]` changes the slice of that channel only. -/
theorem slice_modNext {f : Peer → Peer} {seq : U32}
    (hf : ∀ p, (f p).seen = (p.setNext channel seq).seen) (h : c.has key) :
    (c.modPeer key f).slice key channel = { c.slice key channel with next := seq } := by
  have hself := peer_modPeer_self (fun p => congrArg Prod.fst (hf p)) h
  have hseen := hf (c.peer key)
  simp only [Peer.seen, Prod.mk.injEq] at hseen
  obtain ⟨-, hbinding, hnext, hexpected, hpending⟩ := hseen
  have hnew : (f (c.peer key)).nextSeq channel = seq := by
    rw [hnext]
    exact Function.update_self _ _ _
  simp only [Ctx.slice, hself, hbinding, hnew, hexpected, hpending]
  rfl

theorem slice_modNext_other {f : Peer → Peer} {seq : U32}
    (hf : ∀ p, (f p).seen = (p.setNext channel seq).seen) {k : Mac} {ch : ℕ}
    (h : k ≠ key ∨ ch ≠ channel) : (c.modPeer key f).slice k ch = c.slice k ch := by
  have hmac : ∀ p, (f p).mac = p.mac := fun p => congrArg Prod.fst (hf p)
  by_cases hk : k = key
  · subst hk
    have hch : ch ≠ channel := h.resolve_left fun h => h rfl
    have hsame {α : Type} (g : Peer → α) (hg : ∀ p, g (f p) = g p) :
        g ((c.modPeer k f).peer k) = g (c.peer k) :=
      peer_modPeer_field g hmac hg k
    have hbinding := hsame Peer.binding fun p => congrArg (fun seen => seen.2.1) (hf p)
    have hexpected := hsame (fun p => p.expectedSeq ch) fun p =>
      congrArg (fun seen => seen.2.2.2.1 ch) (hf p)
    have hpending := hsame Peer.pendingLost fun p => congrArg (fun seen => seen.2.2.2.2) (hf p)
    have hnext := hsame (fun p => p.nextSeq ch) fun p =>
      (congrArg (fun seen => seen.2.2.1 ch) (hf p)).trans (Function.update_of_ne hch _ _)
    simp only [Ctx.slice, hbinding, hexpected, hpending, hnext]
    rfl
  · exact slice_modPeer_ne hmac hk ch

theorem Touches.modNext (h : Touches A c c') (hA : (key, channel) ∈ A) (seq : U32)
    {f : Peer → Peer} (hf : ∀ p, (f p).seen = (p.setNext channel seq).seen)
    (hcount : ∀ p, (f p).lostCount = p.lostCount) : Touches A c (c'.modPeer key f) := by
  have hmac : ∀ p, (f p).mac = p.mac := fun p => congrArg Prod.fst (hf p)
  refine h.trans ⟨List.prefix_rfl, rfl, rfl, fun k h => (has_modPeer hmac k).mpr h, ?_,
    fun k _ _ => peer_modPeer_field Peer.lostCount hmac hcount k⟩
  intro k ch hk
  refine slice_modNext_other hf ?_
  rw [← not_and_or]
  rintro ⟨rfl, rfl⟩
  exact hk hA

theorem Touches.submitSlots (hA : (key, channel) ∈ A)
    {payload : List UInt8} {priority fragments : ℕ} {streamId now : U32} (is : List ℕ)
    {slots : List ℕ} (h : Touches A c c')
    (hslots : ∀ j ∈ slots, ∀ slot, entryAt c'.tx j = some slot →
      (slot.peer, slot.channel) ∈ A) :
    Touches A c
      (submitSlots key channel payload priority fragments streamId now is c' slots).1 := by
  induction is generalizing c' slots with
  | nil => exact h
  | cons i is ih =>
      have hnext : Touches A c (c'.modPeer key
          (Peer.setNext channel ((c'.peer key).nextSeq channel + 1))) :=
        h.modNext hA _ (fun _ => rfl) fun _ => rfl
      simp only [Rel.submitSlots]
      split
      · exact hnext.freeTxAt slots hslots
      · next j hj =>
          have hfree := freeIdx_of_txAlloc hj
          have hlt := lt_length_of_freeIdx hfree
          refine ih (Touches.emit_on (hnext.setTx fun k ch hk => ?_) hA fun _ _ => rfl) ?_
          · exact filter_set_some (getElem?_of_freeIdx hfree) (not_isFor_tx hk hA)
          · intro m hm slot hslot
            change entryAt (c'.tx.set j _) m = _ at hslot
            rw [entryAt_set hlt] at hslot
            split at hslot
            · obtain rfl := Option.some.inj hslot
              exact hA
            · next hne =>
                rcases List.mem_append.mp hm with hm | hm
                · exact hslots m hm slot hslot
                · exact absurd (List.mem_singleton.mp hm) hne

theorem Touches.submitSend (hA : ofKey key ⊆ A) (slots : List ℕ) {err : EspErr}
    (h : Touches A c c') : Touches A c (submitSend key slots c' err).1 := by
  induction slots generalizing c' err with
  | nil => exact h
  | cons j slots ih =>
      rw [Rel.submitSend]
      split
      · exact ih h
      · next slot _ =>
          exact ih (h.emit_on (hA (show (key, slot.rh.channelId) ∈ ofKey key from rfl))
            fun _ _ => rfl)

theorem Touches.submitOverflow (hA : (key, channel) ∈ A) {fragments : ℕ} {firstSeq : U32}
    (h : Touches A c c') :
    Touches A c (submitOverflow c' key channel fragments firstSeq) := by
  refine Touches.sendLost (Touches.modNext (h.emit_silent fun _ _ => rfl) hA
    (firstSeq + BitVec.ofNat 32 fragments - 1 + 1) ?_ ?_) hA
  · exact fun _ => rfl
  · exact fun _ => rfl

theorem touches_countSubmit (A : Set (Mac × ℕ)) (c : Ctx) (nextStreamId : U32) :
    Touches A c (c.countSubmit nextStreamId) :=
  touches_tables rfl rfl rfl rfl (fun _ _ _ => rfl) (fun _ _ _ => rfl) fun _ _ _ => rfl

theorem Touches.submitMessage (hA : ofKey key ⊆ A) {payload : List UInt8}
    {priority fragments : ℕ} {streamId now : U32} (h : Touches A c c') :
    Touches A c
      (submitMessage c' key channel payload priority fragments streamId now).1 := by
  have hslots : Touches A c (Rel.submitSlots key channel payload priority fragments streamId now
      (List.range fragments) c' []).1 :=
    Touches.submitSlots (hA rfl) (List.range fragments) h (by simp)
  simp only [Rel.submitMessage]
  split
  · exact h.submitOverflow (hA rfl)
  · split
    · next heq =>
        rw [heq] at hslots
        exact hslots.submitOverflow (hA rfl)
    · next heq =>
        rw [heq] at hslots
        have hon : (key, channel) ∈ A := hA rfl
        have haccepted := hslots.emit_on hon
          (e := .accepted key channel streamId ((c'.peer key).nextSeq channel) payload)
          fun _ _ => rfl
        split
        · exact haccepted.submitSend hA _
        · exact haccepted

theorem touches_submit (c : Ctx) (mac : Mac) (channel : ℕ) (payload : List UInt8)
    (priority : ℕ) (now : U32) :
    Touches (ofKey (c.keyOf mac)) c (submit c mac channel payload priority now).1 := by
  have hfind := touches_peerFind c mac false now
  simp only [submit]
  split
  · exact .refl _ c
  · split
    · exact hfind
    · next key hfound =>
        obtain rfl := peerFind_some (Prod.ext rfl hfound)
        split
        · exact hfind
        · split
          · exact hfind
          · exact (hfind.trans (touches_countSubmit _ _ _)).submitMessage subset_rfl

theorem TxSlot.isFor_due (key k : Mac) (ch : ℕ) (slot : TxSlot) :
    (slot.due key).isFor k ch = slot.isFor k ch := by
  rw [TxSlot.due]
  split
  · rfl
  · rfl

theorem Touches.dueTx (h : Touches A c c') (hA : ofKey key ⊆ A) :
    Touches A c (c'.setTx (c'.tx.map fun entry => entry.map (TxSlot.due key))) := by
  refine h.setTx fun k ch hk => ?_
  rw [held_map, Multiset.filter_map]
  simp only [Function.comp_def, TxSlot.isFor_due]
  refine (Multiset.map_congr rfl fun slot hslot => ?_).trans (Multiset.map_id _)
  have hfor := TxSlot.isFor_iff.mp (Multiset.mem_filter.mp hslot).2
  rw [TxSlot.due, if_neg, id]
  rw [beq_iff_eq, hfor.2]
  rintro rfl
  exact hk (hA rfl)

theorem touches_peerRoute (c : Ctx) (mac : Mac) (routeUp : Bool) (now : U32) :
    Touches (ofKey (c.keyOf mac)) c (peerRoute c mac routeUp now).1 := by
  have hfind := touches_peerFind c mac routeUp now
  rw [peerRoute]
  split
  · next heq =>
      rw [heq] at hfind
      exact hfind
  · next c' key heq =>
      rw [heq] at hfind
      obtain rfl := peerFind_some heq
      split
      · exact hfind
      · have hroute : Touches (ofKey (c.keyOf mac)) c
            (c'.modPeer (c.keyOf mac) (Peer.setRoute routeUp now)) :=
          hfind.modPeer (fun _ => rfl) (fun _ => rfl)
        simp only
        split
        · exact hroute.dueTx fun _ hmem => hmem
        · exact hroute

theorem touches_supersedeChannel (c : Ctx) (mac : Mac) (channel : ℕ) (now : U32) :
    Touches (ofKey (c.keyOf mac)) c (supersedeChannel c mac channel now).1 := by
  have hfind := touches_peerFind c mac false now
  rw [supersedeChannel]
  split
  · exact .refl _ c
  · split
    · next heq =>
        rw [heq] at hfind
        exact hfind
    · next heq =>
        rw [heq] at hfind
        obtain rfl := peerFind_some heq
        refine hfind.freeTx fun slot hs => ?_
        exact (TxSlot.isFor_iff.mp hs).2

theorem touches_resetPeer (c : Ctx) (mac : Mac) (reason : LostReason) (now : U32) :
    Touches (ofKey (c.keyOf mac)) c (resetPeer c mac reason now) := by
  have hfind := touches_peerFind c mac false now
  rw [resetPeer]
  split
  · next heq =>
      rw [heq] at hfind
      exact hfind
  · next heq =>
      rw [heq] at hfind
      obtain rfl := peerFind_some heq
      exact hfind.clearPeerBuffers subset_rfl

end

end KeemashCore.Rel
