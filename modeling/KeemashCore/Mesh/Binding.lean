import KeemashCore.Mesh.Isolation

/-!
# The session that a record remembers

`keemash_mesh_core.c` rewrites the root session of a peer record in three places
only: a handshake packet installs one, running out of retries forgets it, and a
record that is removed or created has none.  Everything else keeps it.
-/

namespace KeemashCore.Rel

open SlotTable

/-- Every record of `c'` holds the root session that it held in `c`, or none. -/
structure RootKept (c c' : Ctx) : Prop where
  cfg : c'.cfg = c.cfg
  session : ∀ key, (c'.peer key).rootSessionId = (c.peer key).rootSessionId ∨
    (c'.peer key).rootSessionId = 0

section RootKept

variable {c c' : Ctx} {key : Mac} {channel : ℕ}

theorem RootKept.refl (c : Ctx) : RootKept c c :=
  ⟨rfl, fun _ => .inl rfl⟩

theorem RootKept.trans {c'' : Ctx} (h : RootKept c c') (h' : RootKept c' c'') :
    RootKept c c'' := by
  refine ⟨h'.cfg.trans h.cfg, fun key => ?_⟩
  rcases h'.session key with hsame | hzero
  · rw [hsame]
    exact h.session key
  · exact .inr hzero

/-! ## Elementary steps -/

/-- The records are left alone. -/
theorem RootKept.tables (h : RootKept c c') {c'' : Ctx} (hcfg : c''.cfg = c'.cfg)
    (hpeers : c''.peers = c'.peers) : RootKept c c'' := by
  refine h.trans ⟨hcfg, fun key => ?_⟩
  rw [Ctx.peer, Ctx.peerAt, hpeers]
  exact .inl rfl

theorem RootKept.emit (h : RootKept c c') (e : Effect) : RootKept c (c'.emit e) :=
  h.tables rfl rfl

theorem RootKept.setTx (h : RootKept c c') (table : List (Option TxSlot)) :
    RootKept c (c'.setTx table) :=
  h.tables rfl rfl

theorem RootKept.setRx (h : RootKept c c') (table : List (Option RxSlot)) :
    RootKept c (c'.setRx table) :=
  h.tables rfl rfl

theorem RootKept.setReassembly (h : RootKept c c')
    (table : List (Option ReassemblySlot)) : RootKept c (c'.setReassembly table) :=
  h.tables rfl rfl

/-- An assignment that keeps the session of the record. -/
theorem RootKept.modPeer (h : RootKept c c') {f : Peer → Peer}
    (hmac : ∀ p, (f p).mac = p.mac) (hf : ∀ p, (f p).rootSessionId = p.rootSessionId) :
    RootKept c (c'.modPeer key f) :=
  h.trans ⟨rfl, fun k => .inl (peer_modPeer_field Peer.rootSessionId hmac hf k)⟩

/-- An assignment that keeps the session of the record or forgets it. -/
theorem RootKept.modPeer_forget (h : RootKept c c') {f : Peer → Peer}
    (hmac : ∀ p, (f p).mac = p.mac)
    (hf : ∀ p, (f p).rootSessionId = p.rootSessionId ∨ (f p).rootSessionId = 0) :
    RootKept c (c'.modPeer key f) := by
  refine h.trans ⟨rfl, fun k => ?_⟩
  simp only [Ctx.peer, peerAt_modPeer hmac]
  cases c'.peerAt k with
  | none => exact .inl rfl
  | some p =>
      by_cases hk : k = key
      · simpa [hk] using hf p
      · simp [hk]

theorem RootKept.setExpected (h : RootKept c c') (seq : U32) :
    RootKept c (c'.setExpected key channel seq) :=
  h.modPeer (fun _ => rfl) (fun _ => rfl)

theorem RootKept.setPending (h : RootKept c c') (table : List (Option PendingLostRange)) :
    RootKept c (c'.setPending key table) :=
  h.modPeer (fun _ => rfl) (fun _ => rfl)

theorem RootKept.foldl {α : Type} (h : RootKept c c') {f : Ctx → α → Ctx}
    (hf : ∀ c a, RootKept c (f c a)) (as : List α) : RootKept c (as.foldl f c') := by
  induction as generalizing c' with
  | nil => exact h
  | cons a as ih => exact ih (h.trans (hf c' a))

/-- A record that is created has no session. -/
theorem RootKept.peerFind (h : RootKept c c') (mac : Mac) (create : Bool) (now : U32) :
    RootKept c (peerFind c' mac create now).1 := by
  rw [Rel.peerFind]
  split
  · split
    · exact h.modPeer (fun _ => rfl) (fun _ => rfl)
    · exact h
  · split
    · split
      · next i hfree =>
          refine h.trans ⟨rfl, fun k => ?_⟩
          by_cases hk : k = c'.keyOf mac
          · have hnone : c'.peerAt k = none := by
              rw [hk]
              assumption
            have hzero : (c'.peer k).rootSessionId = 0 := by
              rw [Ctx.peer, hnone]
              rfl
            right
            rw [Ctx.peer]
            cases hat : (c'.setPeers (c'.peers.set i
                (some (newPeer c'.cfg (c'.keyOf mac) mac now)))).peerAt k with
            | none => rfl
            | some p =>
                have hmem : some p ∈ c'.peers.set i
                    (some (newPeer c'.cfg (c'.keyOf mac) mac now)) := by
                  simpa [used, Ctx.setPeers] using List.mem_of_find?_eq_some hat
                rcases List.mem_or_eq_of_mem_set hmem with hold | hnew
                · have hused := List.find?_eq_none.mp hnone p (by simpa [used] using hold)
                  have hmac := peerAt_mac hat
                  simp [hmac] at hused
                · cases hnew
                  rfl
          · left
            rw [Ctx.peer, Ctx.peer, Ctx.peerAt, Ctx.peerAt]
            exact congrArg (fun found => (Option.getD found zeroPeer).rootSessionId)
              (find?_used_set_some (getElem?_of_freeIdx hfree)
                (by simpa [newPeer] using Ne.symm hk))
      · exact h
    · exact h

/-! ## Sending, reporting and clearing -/

theorem RootKept.sendPacket (h : RootKept c c') {sessionId : U32} {body : Body} :
    RootKept c (sendPacket c' key sessionId body).1 :=
  h.emit _

theorem RootKept.recordLost (h : RootKept c c') {role : Role} {reason : LostReason}
    {first last count : U32} :
    RootKept c (recordLost c' role key channel reason first last count) :=
  (h.modPeer (f := Peer.countLost reason count) (fun _ => rfl) (fun _ => rfl)).emit _

theorem RootKept.sendLostPacket (h : RootKept c c') {reason : LostReason}
    {flags : BitVec 16} {first last : U32} :
    RootKept c (sendLostPacket c' key channel reason flags first last).1 :=
  h.sendPacket

theorem RootKept.sendLost (h : RootKept c c') {reason : LostReason} {first last : U32} :
    RootKept c (sendLost c' key channel reason first last).1 :=
  h.recordLost.sendLostPacket

theorem RootKept.clearPeerBuffers (h : RootKept c c') {reason : LostReason} :
    RootKept c (clearPeerBuffers c' key reason) := by
  have hrx (c' : Ctx) (h : RootKept c c') : RootKept c (clearRx c' key reason) :=
    (h.foldl (fun c slot => (RootKept.refl c).recordLost) _).setRx _
  have hreassembly (c' : Ctx) (h : RootKept c c') :
      RootKept c (clearReassembly c' key reason) :=
    (h.foldl (fun c slot => (RootKept.refl c).recordLost) _).setReassembly _
  rw [Rel.clearPeerBuffers]
  refine RootKept.foldl ?_ (fun c ch => ?_) _
  · refine RootKept.modPeer ?_ (fun _ => rfl) (fun _ => rfl)
    exact hreassembly _ (hrx _ ((h.emit _).setTx _))
  · split
    · exact (RootKept.refl c).recordLost
    · exact RootKept.refl c

/-! ## The receive path -/

theorem RootKept.receiverDropRange {consume : Ctx → Ctx} (h : RootKept c c')
    (hconsume : ∀ c, RootKept c (consume c)) {reason : LostReason} {first last : U32} :
    RootKept c (receiverDropRange consume c' key channel reason first last) := by
  have hforget : RootKept c (forgetRange c' key channel reason first last) :=
    ((h.setRx _).setReassembly _).recordLost
  simp only [Rel.receiverDropRange]
  split
  · exact ((hforget.setExpected _).trans (hconsume _)).sendLostPacket
  · split
    · split
      · exact (hforget.setPending _).sendLostPacket
      · exact (hforget.setPending _).clearPeerBuffers
    · exact hforget.sendLostPacket

theorem RootKept.reassemblyFind (h : RootKept c c') {rh : ReliableHdr} {create : Bool}
    {now : U32} : RootKept c (reassemblyFind c' key rh create now).1 := by
  rw [Rel.reassemblyFind]
  repeat' split
  all_goals first | exact h | exact h.setReassembly _

theorem RootKept.reassemblyFailed (h : RootKept c c') {rh : ReliableHdr} :
    RootKept c (reassemblyFailed c' key rh) := by
  rw [Rel.reassemblyFailed]
  refine RootKept.modPeer ?_ (fun _ => rfl) (fun _ => rfl)
  split
  · exact h
  · exact h.emit _

theorem RootKept.deliverFragment {consume : Ctx → Ctx} (h : RootKept c c')
    (hconsume : ∀ c, RootKept c (consume c)) {rh : ReliableHdr} {payload : List UInt8}
    {now : U32} : RootKept c (deliverFragment consume c' key rh payload now) := by
  have hhand : RootKept c (c'.emit (.handOff key rh payload)) := h.emit _
  have hfind : RootKept c
      (Rel.reassemblyFind (c'.emit (.handOff key rh payload)) key rh true now).1 :=
    hhand.reassemblyFind
  rw [Rel.deliverFragment]
  split
  · exact hhand.emit _
  · split
    · exact hhand
    · split
      · next heq =>
          rw [heq] at hfind
          exact hfind.reassemblyFailed.receiverDropRange hconsume
      · next heq =>
          rw [heq] at hfind
          split
          · exact hfind
          · rw [storeFragment]
            split
            · exact (hfind.emit _).setReassembly _
            · exact hfind.setReassembly _

theorem RootKept.skipLost {c'' : Ctx} (h : RootKept c c')
    (hskip : skipLost c' key channel = some c'') : RootKept c c'' := by
  rw [Rel.skipLost] at hskip
  split at hskip
  · simp at hskip
  · split at hskip
    · simp at hskip
    · obtain rfl := Option.some.inj hskip
      exact (h.setExpected _).setPending _

theorem RootKept.takeBuffered {c'' : Ctx} {slot : RxSlot} (h : RootKept c c')
    (htake : takeBuffered c' key channel = some (c'', slot)) : RootKept c c'' := by
  simp only [Rel.takeBuffered] at htake
  split at htake
  · simp at htake
  · split at htake
    · simp at htake
    · simp only [Option.some.injEq, Prod.mk.injEq] at htake
      obtain ⟨rfl, -⟩ := htake
      exact (h.setRx _).setExpected _

theorem rootKept_consumeContiguous (n : ℕ) (c : Ctx) (key : Mac) (channel : ℕ) (now : U32) :
    RootKept c (consumeContiguous n c key channel now) := by
  induction n generalizing c channel with
  | zero => exact .refl c
  | succ n ih =>
      rw [consumeContiguous]
      split
      · next hskip =>
          exact ((RootKept.refl c).skipLost hskip).trans (ih _ _)
      · split
        · exact .refl c
        · next htake =>
            have hstart := (RootKept.refl c).takeBuffered htake
            exact (hstart.deliverFragment fun c => ih c _).trans (ih _ _)

theorem rootKept_drain (c : Ctx) (key : Mac) (channel : ℕ) (now : U32) :
    RootKept c (drain c key channel now) :=
  rootKept_consumeContiguous _ c key channel now

theorem RootKept.acceptData (h : RootKept c c') {rh : ReliableHdr} {payload : List UInt8}
    {now : U32} : RootKept c (acceptData c' key rh payload now).1 := by
  have hdrain := fun c => rootKept_drain c key rh.channelId now
  simp only [Rel.acceptData]
  split
  · exact h.sendPacket
  · split
    · refine RootKept.sendPacket (RootKept.trans ?_ (hdrain _))
      exact (h.setExpected _).deliverFragment hdrain
    · split
      · exact h.sendPacket
      · split
        · exact h.sendPacket
        · split
          · refine RootKept.receiverDropRange (RootKept.modPeer (h.emit _) ?_ ?_) hdrain
            · exact fun _ => rfl
            · exact fun _ => rfl
          · exact (h.setRx _).sendPacket

theorem RootKept.latestJump (h : RootKept c c') {rh : ReliableHdr} :
    RootKept c (latestJump c' key rh) :=
  ((h.setRx _).setPending _).setExpected _

theorem rootKept_handleData (c : Ctx) (src : Mac) (rh : ReliableHdr) (payload : List UInt8)
    (now : U32) : RootKept c (handleData c src rh payload now).1 := by
  have hfind := (RootKept.refl c).peerFind src false now
  simp only [handleData]
  split
  · exact .refl c
  · split
    · exact hfind
    · next key _ =>
        have hpeer : RootKept c
            ((peerFind c src false now).1.modPeer key (Peer.heardData rh now)) :=
          hfind.modPeer (fun _ => rfl) (fun _ => rfl)
        split
        · split
          · exact hpeer
          · split
            · exact hpeer.latestJump.acceptData
            · exact hpeer.acceptData
        · exact hpeer.acceptData

theorem rootKept_handleLostPacket (c : Ctx) (src : Mac) (lost : LostPayload) (now : U32) :
    RootKept c (handleLostPacket c src lost now).1 := by
  have hfind := (RootKept.refl c).peerFind src false now
  simp only [handleLostPacket]
  split
  · exact hfind
  · split
    · exact hfind
    · split
      · exact (hfind.setTx _).recordLost
      · split
        · exact ((hfind.setExpected _).trans (rootKept_drain _ _ _ now)).recordLost
        · split
          · split
            · exact (hfind.setPending _).recordLost
            · exact (hfind.setPending _).clearPeerBuffers
          · exact hfind.recordLost

/-! ## The sending side -/

theorem updateRto_session (cfg : RelConfig) (p : Peer) (sample : U32) :
    (updateRto cfg p sample).rootSessionId = p.rootSessionId :=
  congrArg (fun seen : Mac × Binding × _ => seen.2.1.rootSessionId)
    (updateRto_seen cfg p sample).1

theorem RootKept.ackSlots (h : RootKept c c') {ack : AckPayload} {now : U32} :
    RootKept c (ackSlots c' key ack now) := by
  refine RootKept.modPeer (RootKept.setTx (h.foldl (fun c slot => ?_) _) _)
    (fun _ => rfl) (fun _ => rfl)
  split
  · exact (RootKept.refl c).modPeer
      (fun p => congrArg Prod.fst (updateRto_seen _ p _).1) fun p => updateRto_session _ p _
  · exact .refl c

theorem RootKept.retransmitSlot (h : RootKept c c') {i : ℕ} {now : U32} :
    RootKept c (retransmitSlot c' key i now).1 := by
  rw [Rel.retransmitSlot]
  split
  · exact h
  · exact ((h.setTx _).modPeer (f := Peer.countRetry) (fun _ => rfl) (fun _ => rfl)).emit _

theorem rootKept_handleAckPacket (c : Ctx) (src : Mac) (ack : AckPayload) (nack : Bool)
    (now : U32) : RootKept c (handleAckPacket c src ack nack now).1 := by
  have hfind := (RootKept.refl c).peerFind src false now
  simp only [handleAckPacket]
  split
  · exact hfind
  · next key _ =>
      have hseen : RootKept c ((peerFind c src false now).1.modPeer key Peer.routeSeen) :=
        hfind.modPeer (fun _ => rfl) (fun _ => rfl)
      have hack : RootKept c (ackSlots
          ((peerFind c src false now).1.modPeer key Peer.routeSeen) key ack now) :=
        hseen.ackSlots
      split
      · exact hfind
      · split
        · split
          · exact hack.retransmitSlot
          · exact hack.sendLost
        · exact hack

theorem RootKept.submitSlots {payload : List UInt8} {priority fragments : ℕ}
    {streamId now : U32} (is : List ℕ) {slots : List ℕ} (h : RootKept c c') :
    RootKept c
      (submitSlots key channel payload priority fragments streamId now is c' slots).1 := by
  induction is generalizing c' slots with
  | nil => exact h
  | cons i is ih =>
      have hnext : RootKept c (c'.modPeer key
          (Peer.setNext channel ((c'.peer key).nextSeq channel + 1))) :=
        h.modPeer (fun _ => rfl) (fun _ => rfl)
      simp only [Rel.submitSlots]
      split
      · exact hnext.setTx _
      · exact ih ((hnext.setTx _).emit _)

theorem RootKept.submitSend (slots : List ℕ) {err : EspErr} (h : RootKept c c') :
    RootKept c (submitSend key slots c' err).1 := by
  induction slots generalizing c' err with
  | nil => exact h
  | cons j slots ih =>
      rw [Rel.submitSend]
      split
      · exact ih h
      · exact ih (h.emit _)

theorem RootKept.submitOverflow (h : RootKept c c') {fragments : ℕ} {firstSeq : U32} :
    RootKept c (submitOverflow c' key channel fragments firstSeq) := by
  refine RootKept.sendLost (RootKept.modPeer (h.emit _) ?_ ?_)
  · exact fun _ => rfl
  · exact fun _ => rfl

theorem rootKept_submit (c : Ctx) (mac : Mac) (channel : ℕ) (payload : List UInt8)
    (priority : ℕ) (now : U32) :
    RootKept c (submit c mac channel payload priority now).1 := by
  have hfind := (RootKept.refl c).peerFind mac false now
  have hmessage {c' : Ctx} {key : Mac} (h : RootKept c c') (streamId : U32) :
      RootKept c (submitMessage c' key channel payload priority (fragmentsOf payload.length)
        streamId now).1 := by
    have hslots : RootKept c (Rel.submitSlots key channel payload priority
        (fragmentsOf payload.length) streamId now
        (List.range (fragmentsOf payload.length)) c' []).1 :=
      h.submitSlots _
    simp only [submitMessage]
    split
    · exact h.submitOverflow
    · split
      · next heq =>
          rw [heq] at hslots
          exact hslots.submitOverflow
      · next heq =>
          rw [heq] at hslots
          split
          · exact (hslots.emit _).submitSend _
          · exact hslots.emit _
  simp only [submit]
  split
  · exact .refl c
  · split
    · exact hfind
    · split
      · exact hfind
      · split
        · exact hfind
        · have hcount : RootKept c ((peerFind c mac false now).1.countSubmit
              ((peerFind c mac false now).1.freshStream + 1)) :=
            hfind.tables rfl rfl
          exact hmessage hcount _

theorem rootKept_sendHello (c : Ctx) (mac : Mac) (capabilities now : U32) :
    RootKept c (sendHello c mac capabilities now).1 := by
  have hfind := (RootKept.refl c).peerFind mac true now
  rw [sendHello]
  split
  · exact .refl c
  · split
    · next heq =>
        rw [heq] at hfind
        exact hfind
    · next heq =>
        rw [heq] at hfind
        exact hfind.sendPacket

/-! ## Polling and peer management -/

theorem RootKept.pollRoutes (h : RootKept c c') (now : U32) (keys : List Mac) :
    RootKept c (pollRoutes now keys c') := by
  induction keys generalizing c' with
  | nil => exact h
  | cons key keys ih =>
      rw [Rel.pollRoutes]
      refine ih ?_
      split
      · exact h.clearPeerBuffers
      · exact h

/-- Running out of retries forgets a session. -/
theorem RootKept.retryExhausted (h : RootKept c c') {slot : TxSlot} :
    RootKept c (retryExhausted c' key slot) := by
  refine RootKept.modPeer_forget h.sendLostPacket.clearPeerBuffers ?_ ?_
  · intro p
    rw [Peer.unbind]
    split
    · rfl
    · rfl
  · intro p
    rw [Peer.unbind]
    split
    · exact .inl rfl
    · exact .inr rfl

theorem RootKept.pollSlots (h : RootKept c c') (now : U32) (visits : List (ℕ × Mac)) :
    RootKept c (pollSlots now visits c') := by
  induction visits generalizing c' with
  | nil => exact h
  | cons visit visits ih =>
      obtain ⟨priority, key⟩ := visit
      simp only [Rel.pollSlots]
      split
      · exact ih h
      · split
        · exact ih h
        · split
          · exact ih h
          · split
            · exact h.retryExhausted
            · exact ih h.retransmitSlot

theorem RootKept.pollFragments (h : RootKept c c') (now : U32) (is : List ℕ) :
    RootKept c (pollFragments now is c') := by
  induction is generalizing c' with
  | nil => exact h
  | cons i is ih =>
      simp only [Rel.pollFragments]
      split
      · exact ih h
      · next slot _ =>
          have hfind := h.peerFind slot.peer false now
          split
          · exact ih h
          · refine ih (RootKept.setReassembly ?_ _)
            split
            · next heq =>
                rw [heq] at hfind
                exact hfind
            · next heq =>
                rw [heq] at hfind
                exact (hfind.emit _).recordLost.sendLostPacket

theorem rootKept_poll (c : Ctx) (now : U32) : RootKept c (poll c now) := by
  have hroutes := (RootKept.refl c).pollRoutes now ((used c.peers).map Peer.mac)
  refine RootKept.pollFragments ?_ now _
  exact (hroutes.pollSlots now _).tables rfl rfl

theorem rootKept_resetPeer (c : Ctx) (mac : Mac) (reason : LostReason) (now : U32) :
    RootKept c (resetPeer c mac reason now) := by
  have hfind := (RootKept.refl c).peerFind mac false now
  rw [resetPeer]
  split
  · next heq =>
      rw [heq] at hfind
      exact hfind
  · next heq =>
      rw [heq] at hfind
      exact hfind.clearPeerBuffers

theorem rootKept_peerRoute (c : Ctx) (mac : Mac) (routeUp : Bool) (now : U32) :
    RootKept c (peerRoute c mac routeUp now).1 := by
  have hfind := (RootKept.refl c).peerFind mac routeUp now
  rw [peerRoute]
  split
  · next heq =>
      rw [heq] at hfind
      exact hfind
  · next c' key heq =>
      rw [heq] at hfind
      have hroute : RootKept c (c'.modPeer key (Peer.setRoute routeUp now)) :=
        hfind.modPeer (fun _ => rfl) (fun _ => rfl)
      split
      · exact hfind
      · simp only
        split
        · exact hroute.setTx _
        · exact hroute

theorem rootKept_supersedeChannel (c : Ctx) (mac : Mac) (channel : ℕ) (now : U32) :
    RootKept c (supersedeChannel c mac channel now).1 := by
  have hfind := (RootKept.refl c).peerFind mac false now
  rw [supersedeChannel]
  split
  · exact .refl c
  · split
    · next heq =>
        rw [heq] at hfind
        exact hfind
    · next heq =>
        rw [heq] at hfind
        exact hfind.setTx _

end RootKept

/-! ## Taking a HELLO_ACK -/

/-- The guards of `handle_hello_ack`, and a record for the root. -/
def takesHelloAck (c : Ctx) (src : Mac) (ack : HelloAckPayload) (now : U32) : Bool :=
  !c.cfg.rootRole && ack.profileVersion == reliableProfileVersion &&
    ack.nodeSessionId == c.localSession &&
    ack.capabilities &&& requiredCapabilities == requiredCapabilities &&
    (peerFind c src true now).2.isSome

/-- A record that was found is stored. -/
theorem peerFind_has {c c' : Ctx} {mac key : Mac} {create : Bool} {now : U32}
    (h : peerFind c mac create now = (c', some key)) : c'.has key := by
  rw [peerFind] at h
  split at h
  · next p hp =>
      split at h
      · simp only [Prod.mk.injEq, Option.some.injEq] at h
        obtain ⟨rfl, rfl⟩ := h
        rw [has_modPeer]
        · rw [Ctx.has, hp]
          rfl
        · exact fun _ => rfl
      · simp only [Prod.mk.injEq, Option.some.injEq] at h
        obtain ⟨rfl, rfl⟩ := h
        rw [Ctx.has, hp]
        rfl
  · split at h
    · split at h
      · next i hfree =>
          simp only [Prod.mk.injEq, Option.some.injEq] at h
          obtain ⟨rfl, rfl⟩ := h
          rw [Ctx.has, Ctx.peerAt, List.find?_isSome]
          refine ⟨newPeer c.cfg (c.keyOf mac) mac now, ?_, by simp [newPeer]⟩
          obtain ⟨hlt, -⟩ := List.getElem?_eq_some_iff.mp
            (getElem?_of_freeIdx hfree)
          simpa [used, Ctx.setPeers] using List.mem_set hlt _
      · simp at h
    · simp at h

/-- What a HELLO_ACK does to the remembered root session. -/
theorem handleHelloAck_session (c : Ctx) (src : Mac) (ack : HelloAckPayload) (now : U32) :
    ((handleHelloAck c src ack now).2 = .ok ↔ takesHelloAck c src ack now = true) ∧
      (handleHelloAck c src ack now).1.cfg = c.cfg ∧
      (takesHelloAck c src ack now = false → RootKept c (handleHelloAck c src ack now).1) ∧
      (takesHelloAck c src ack now = true →
        ((handleHelloAck c src ack now).1.peer (c.keyOf src)).rootSessionId =
          ack.rootSessionId) := by
  have hfind := (RootKept.refl c).peerFind src true now
  by_cases hguard : c.cfg.rootRole ∨ ack.profileVersion ≠ reliableProfileVersion ∨
      ack.nodeSessionId ≠ c.localSession ∨
      ack.capabilities &&& requiredCapabilities ≠ requiredCapabilities
  · have htakes : takesHelloAck c src ack now = false := by
      rw [Bool.eq_false_iff]
      intro htakes
      simp only [takesHelloAck, Bool.and_eq_true, Bool.not_eq_true', beq_iff_eq] at htakes
      obtain ⟨⟨⟨⟨hrole, hprofile⟩, hsession⟩, hcapabilities⟩, -⟩ := htakes
      rcases hguard with h | h | h | h
      · rw [hrole] at h
        cases h
      · exact h hprofile
      · exact h hsession
      · exact h hcapabilities
    rw [handleHelloAck, if_pos hguard, htakes]
    exact ⟨by simp, rfl, fun _ => RootKept.refl c, by simp⟩
  · have hopen := hguard
    push Not at hopen
    obtain ⟨hrole, hprofile, hsession, hcapabilities⟩ := hopen
    have htakes : takesHelloAck c src ack now = (peerFind c src true now).2.isSome := by
      simp [takesHelloAck, hrole, hprofile, hsession, hcapabilities]
    rw [htakes, handleHelloAck, if_neg hguard]
    split
    · next heq =>
        rw [heq] at hfind
        exact ⟨by simp [heq], hfind.cfg, fun _ => hfind, by simp [heq]⟩
    · next c' key heq =>
        obtain rfl := peerFind_some heq
        have hhas := peerFind_has heq
        rw [heq] at hfind
        have hclear : RootKept c' (if helloAckClears (c'.peer (c.keyOf src)) ack then
            clearPeerBuffers c' (c.keyOf src) .sessionReset else c') := by
          split
          · exact (RootKept.refl c').clearPeerBuffers
          · exact RootKept.refl c'
        have hstill : (if helloAckClears (c'.peer (c.keyOf src)) ack then
            clearPeerBuffers c' (c.keyOf src) .sessionReset else c').has (c.keyOf src) := by
          split
          · exact ((Touches.refl _ c').clearPeerBuffers subset_rfl).has _ hhas
          · exact hhas
        have hbound (cleared : Ctx) (h : cleared.has (c.keyOf src)) :
            ((cleared.modPeer (c.keyOf src) fun p => (p.bind ack.rootSessionId
              cleared.localSession ack.capabilities now).acknowledged now).peer
                (c.keyOf src)).rootSessionId = ack.rootSessionId := by
          have hmac : ∀ p : Peer, ((p.bind ack.rootSessionId cleared.localSession
              ack.capabilities now).acknowledged now).mac = p.mac := fun _ => rfl
          rw [peer_modPeer_self hmac h]
          rfl
        exact ⟨by simp [heq], hclear.cfg.trans hfind.cfg, by simp [heq],
          fun _ => hbound _ hstill⟩

/-- Every packet but a HELLO_ACK leaves the remembered session of a node alone, or
forgets it. -/
theorem rootKept_handleRx {c : Ctx} (hrole : c.cfg.rootRole = false) (src : Mac)
    (packet : Packet) (now : U32) (hbody : ∀ ack, packet.body ≠ .helloAck ack) :
    RootKept c (handleRx c src packet now).1 := by
  rw [handleRx]
  split
  · exact .refl c
  · split
    · rw [handleHello, if_pos]
      · exact .refl c
      · simp [helloUnsupported, hrole]
    · next ack hack => exact absurd hack (hbody ack)
    · exact rootKept_handleData c src _ _ now
    · exact rootKept_handleAckPacket c src _ _ now
    · exact rootKept_handleAckPacket c src _ _ now
    · exact rootKept_handleLostPacket c src _ now

/-- A record that is removed has no session. -/
theorem rootKept_removePeer (c : Ctx) (mac : Mac) (now : U32) :
    RootKept c (removePeer c mac now).1 := by
  have hfind := (RootKept.refl c).peerFind mac false now
  rw [removePeer]
  split
  · next heq =>
      rw [heq] at hfind
      exact hfind
  · next c' key heq =>
      rw [heq] at hfind
      split
      · exact hfind
      · refine hfind.trans ⟨rfl, fun k => ?_⟩
        rw [Ctx.peer, Ctx.peer, Ctx.peerAt, Ctx.peerAt, Ctx.setPeers, used_freeWhere,
          List.find?_filter]
        by_cases hk : k = key
        · right
          have hnone : (used c'.peers).find? (fun p => !(p.mac == key) && p.mac == k) =
              none := by
            rw [List.find?_eq_none]
            intro p _ hp
            simp [hk] at hp
          refine congrArg (fun found => (Option.getD found zeroPeer).rootSessionId)
            (?_ : _ = none)
          simpa using hnone
        · left
          refine congrArg (fun found => (Option.getD found zeroPeer).rootSessionId)
            (congrArg (fun test => List.find? test (used c'.peers)) ?_)
          funext p
          by_cases hp : p.mac = k
          · simp [hp, hk]
          · simp [hp]

end KeemashCore.Rel
