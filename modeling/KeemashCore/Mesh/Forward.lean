import KeemashCore.Mesh.Spare
import KeemashCore.Mesh.Rejection

/-!
# The steps of the receive path

What handling DATA and LOST does to one channel of one peer, in steps.  Every step moves
`expected_seq` past a range that contains it, hands off the frame numbered `expected_seq`,
stores a frame or a pending-lost range, clears the peer, or is calm.  The steps are
relative to a set of spared numbers, which none of them passes or stores.
-/

namespace KeemashCore.Rel

open SlotTable SerialNumber Relation

/-! ## Assignments -/

theorem has_setExpected {c : Ctx} {key k : Mac} {channel : ℕ} {seq : U32} :
    (c.setExpected key channel seq).has k ↔ c.has k :=
  has_modPeer (f := Peer.setExpected channel seq) (fun _ => rfl) k

theorem has_setPending {c : Ctx} {key k : Mac} {table : List (Option PendingLostRange)} :
    (c.setPending key table).has k ↔ c.has k :=
  has_modPeer (f := Peer.setPending table) (fun _ => rfl) k

theorem pending_setExpected (c : Ctx) (key : Mac) (channel : ℕ) (seq : U32) (k : Mac) :
    ((c.setExpected key channel seq).peer k).pendingLost = (c.peer k).pendingLost :=
  peer_modPeer_field (f := Peer.setExpected channel seq) Peer.pendingLost (fun _ => rfl)
    (fun _ => rfl) k

/-! ## Numbered slots -/

/-- The rx slots are filed under the channel and the number of their frame. -/
def Ctx.Numbered (c : Ctx) : Prop :=
  ∀ slot ∈ held c.rx, slot.channel = slot.hdr.channelId ∧ slot.seq = slot.hdr.seq

theorem Ctx.Numbered.mono {c c' : Ctx} (h : c.Numbered) (hrx : held c'.rx ≤ held c.rx) :
    c'.Numbered :=
  fun slot hslot => h slot (Multiset.mem_of_le hrx hslot)

theorem Calm.peer_received {c c' : Ctx} (h : Calm c c') (k : Mac) :
    (c'.peer k).received = (c.peer k).received := by
  have hrecord := h.record k
  rw [Ctx.peer, Ctx.peer]
  cases hk : c.peerAt k with
  | none =>
      rw [hk, Option.map_none, Option.map_eq_none_iff] at hrecord
      rw [hrecord]
  | some p =>
      rw [hk, Option.map_some, Option.map_eq_some_iff] at hrecord
      obtain ⟨p', hp', heq⟩ := hrecord
      rw [hp']
      exact heq

theorem Calm.expected {c c' : Ctx} (h : Calm c c') (k : Mac) :
    (c'.peer k).expectedSeq = (c.peer k).expectedSeq :=
  congrArg (fun fields => fields.2.1) (h.peer_received k)

theorem Calm.pending {c c' : Ctx} (h : Calm c c') (k : Mac) :
    (c'.peer k).pendingLost = (c.peer k).pendingLost :=
  congrArg (fun fields => fields.2.2) (h.peer_received k)

theorem Calm.has {c c' : Ctx} (h : Calm c c') {k : Mac} (hk : c.has k) : c'.has k := by
  have hrecord := congrArg Option.isSome (h.record k)
  rw [Option.isSome_map, Option.isSome_map] at hrecord
  rw [Ctx.has, hrecord]
  exact hk

/-- A calm change keeps every spare number. -/
theorem Calm.spare {c c' : Ctx} (h : Calm c c') {key : Mac} {channel : ℕ} {n : U32}
    (hn : c.spare key channel n = true) : c'.spare key channel n = true := by
  rw [spare_iff] at hn ⊢
  rw [h.pending]
  exact ⟨hn.1, fun slot hslot => hn.2 slot (Multiset.mem_of_le h.rx hslot)⟩

/-! ## Clearing a peer -/

/-- `clear_peer_buffers` after its mark in the trace: events only, and slots are freed. -/
theorem clearPeerBuffers_calm (c : Ctx) (key : Mac) (reason : LostReason) :
    ∃ c₁, Calm (c.emit (.cleared key)) c₁ ∧
      Calm (c₁.modPeer key Peer.cleared) (clearPeerBuffers c key reason) := by
  have hstart : Calm (c.emit (.cleared key)) ((c.emit (.cleared key)).setTx
      (freeWhere (fun slot => slot.peer == key) c.tx)) := (Calm.refl _).setTx _
  have hrx (c' c'' : Ctx) (h : Calm c' c'') : Calm c' (clearRx c'' key reason) := by
    rw [clearRx]
    exact (h.foldl (fun _ _ h => h.recordLost) _).freeRx _
  have hreassembly (c' c'' : Ctx) (h : Calm c' c'') :
      Calm c' (clearReassembly c'' key reason) := by
    rw [clearReassembly]
    exact (h.foldl (fun _ _ h => h.recordLost) _).setReassembly _
  refine ⟨_, hreassembly _ _ (hrx _ _ hstart), ?_⟩
  rw [clearPeerBuffers]
  refine (Calm.refl _).foldl (fun c' ch h => ?_) _
  split
  · exact h.recordLost
  · exact h

theorem trace_clearPeerBuffers (c : Ctx) (key : Mac) (reason : LostReason) :
    ∃ rest, (clearPeerBuffers c key reason).trace = c.trace ++ .cleared key :: rest ∧
      ∀ e ∈ rest, e.isCalm = true := by
  obtain ⟨c₁, hbefore, hafter⟩ := clearPeerBuffers_calm c key reason
  obtain ⟨new, hnew, hcalm⟩ := hbefore.trace
  obtain ⟨new', hnew', hcalm'⟩ := hafter.trace
  refine ⟨new ++ new', ?_, fun e he => ?_⟩
  · have htrace : (c₁.modPeer key Peer.cleared).trace = c.trace ++ [.cleared key] ++ new := hnew
    rw [hnew', htrace]
    simp
  · exact (List.mem_append.mp he).elim (hcalm e) (hcalm' e)

theorem rx_clearPeerBuffers (c : Ctx) (key : Mac) (reason : LostReason) :
    held (clearPeerBuffers c key reason).rx ≤ held c.rx := by
  obtain ⟨c₁, hbefore, hafter⟩ := clearPeerBuffers_calm c key reason
  exact hafter.rx.trans hbefore.rx

/-- The record of the cleared peer has no pending-lost range left. -/
theorem pending_clearPeerBuffers (c : Ctx) (key : Mac) (reason : LostReason) :
    held ((clearPeerBuffers c key reason).peer key).pendingLost ≤
      held (c.peer key).pendingLost := by
  obtain ⟨c₁, hbefore, hafter⟩ := clearPeerBuffers_calm c key reason
  have hkept : (c₁.peer key).pendingLost = (c.peer key).pendingLost := hbefore.pending key
  rw [hafter.pending key, ← hkept]
  by_cases hhas : c₁.has key
  · rw [peer_modPeer_self (f := Peer.cleared) (fun _ => rfl) hhas]
    have hnone : held (c₁.peer key).cleared.pendingLost = 0 := by
      refine Multiset.eq_zero_of_forall_notMem fun range hmem => ?_
      obtain ⟨entry, -, heq⟩ := List.mem_map.mp (mem_held.mp hmem)
      exact absurd heq (by simp)
    rw [hnone]
    exact Multiset.zero_le _
  · rw [modPeer_missing hhas]

theorem spare_clearPeerBuffers {c : Ctx} {key : Mac} {channel : ℕ} {n : U32}
    (reason : LostReason) (hn : c.spare key channel n = true) :
    (clearPeerBuffers c key reason).spare key channel n = true := by
  rw [spare_iff] at hn ⊢
  constructor
  · intro i range hi
    have hmem := Multiset.mem_of_le (pending_clearPeerBuffers c key reason)
      (mem_held_of_entryAt hi.1)
    obtain ⟨j, hj⟩ := mem_held_iff_entryAt.mp hmem
    exact hn.1 j range ⟨hj, hi.2⟩
  · intro slot hslot
    exact hn.2 slot (Multiset.mem_of_le (rx_clearPeerBuffers c key reason) hslot)

/-! ## Steps -/

/-- One step of the receive path on a channel of a peer. -/
inductive RxStep (key : Mac) (channel : ℕ) (spared : Set U32) (c : Ctx) : Ctx → Prop where
  | calm {c' : Ctx} (h : Calm c c') (hnear : Touches {(key, channel)} c c') :
      RxStep key channel spared c c'
  /-- `expected_seq` moves past a range that contains it. -/
  | skip {first last : U32}
      (hin : seqInRange ((c.peer key).expectedSeq channel) first last = true)
      (hout : ∀ n ∈ spared, seqInRange n first last = false) :
      RxStep key channel spared c (c.setExpected key channel (last + 1))
  /-- The pending-lost table changes. -/
  | pend {table : List (Option PendingLostRange)}
      (h : Rearranges channel spared (c.peer key).pendingLost table) :
      RxStep key channel spared c (c.setPending key table)
  /-- The frame numbered `expected_seq` is handed off. -/
  | hand {rh : ReliableHdr} {payload : List UInt8} (hchannel : rh.channelId = channel)
      (hseq : (c.peer key).expectedSeq channel = rh.seq) (hout : rh.seq ∉ spared) :
      RxStep key channel spared c
        ((c.setExpected key channel (rh.seq + 1)).emit (.handOff key rh payload))
  /-- A frame is buffered. -/
  | buffer {i : ℕ} {rh : ReliableHdr} {payload : List UInt8} (hfree : freeIdx c.rx = some i)
      (hchannel : rh.channelId = channel) (hout : ∀ n ∈ spared, rh.Misses n) :
      RxStep key channel spared c (c.setRx (c.rx.set i (some (newRxSlot key rh payload))))
  | clear {reason : LostReason} : RxStep key channel spared c (clearPeerBuffers c key reason)

section RxStep

variable {key : Mac} {channel : ℕ} {spared : Set U32} {c c' : Ctx}

theorem RxStep.numbered (h : RxStep key channel spared c c') (hc : c.Numbered) :
    c'.Numbered := by
  cases h with
  | calm h _ => exact hc.mono h.rx
  | skip _ _ => exact hc
  | pend _ => exact hc
  | hand _ _ _ => exact hc
  | @buffer i rh payload hfree _ _ =>
      intro slot hslot
      rw [Ctx.setRx, held_set_some _ (getElem?_of_freeIdx hfree), Multiset.mem_cons] at hslot
      rcases hslot with rfl | hslot
      · exact ⟨rfl, rfl⟩
      · exact hc slot hslot
  | clear => exact hc.mono (rx_clearPeerBuffers c key _)

theorem RxStep.has (h : RxStep key channel spared c c') {k : Mac} (hk : c.has k) :
    c'.has k := by
  cases h with
  | calm h _ => exact h.has hk
  | skip _ _ => exact has_setExpected.mpr hk
  | pend _ => exact has_setPending.mpr hk
  | hand _ _ _ => exact has_setExpected.mpr hk
  | buffer _ _ _ => exact hk
  | clear => exact (touches_clearPeerBuffers c key _).has k hk

/-- The spared numbers stay spare. -/
theorem RxStep.spare (h : RxStep key channel spared c c') {n : U32} (hmem : n ∈ spared)
    (hn : c.spare key channel n = true) : c'.spare key channel n = true := by
  cases h with
  | calm h _ => exact h.spare hn
  | skip _ _ =>
      rw [spare_iff] at hn ⊢
      rw [pending_setExpected]
      exact hn
  | @pend table h =>
      rw [spare_iff] at hn ⊢
      refine ⟨?_, hn.2⟩
      by_cases hhas : c.has key
      · rw [Ctx.setPending, peer_modPeer_self (f := Peer.setPending table) (fun _ => rfl) hhas]
        exact h.avoids n hmem
      · rw [Ctx.setPending, modPeer_missing hhas]
        exact hn.1
  | hand _ _ _ =>
      rw [spare_iff] at hn ⊢
      exact ⟨hn.1.congr (congrArg (pendingOn channel) (pending_setExpected c key channel _ key)),
        hn.2⟩
  | @buffer i rh payload hfree hchannel hout =>
      rw [spare_iff] at hn ⊢
      refine ⟨hn.1, fun slot hslot hfor => ?_⟩
      rw [Ctx.setRx, held_set_some _ (getElem?_of_freeIdx hfree), Multiset.mem_cons] at hslot
      rcases hslot with rfl | hslot
      · exact hout n hmem
      · exact hn.2 slot hslot hfor
  | clear => exact spare_clearPeerBuffers _ hn

end RxStep

/-! ## The receive path in steps -/

/-- The receive path went from `c` to `c'` in steps, and the spared numbers are spare. -/
structure RxRun (key : Mac) (channel : ℕ) (spared : Set U32) (c c' : Ctx) : Prop where
  numbered : c'.Numbered
  spare : ∀ n ∈ spared, c'.spare key channel n = true
  steps : ReflTransGen (RxStep key channel spared) c c'

section RxRun

variable {key : Mac} {channel : ℕ} {spared : Set U32} {c c' : Ctx}

theorem RxRun.step (h : RxRun key channel spared c c') {c'' : Ctx}
    (hstep : RxStep key channel spared c' c'') : RxRun key channel spared c c'' :=
  ⟨hstep.numbered h.numbered, fun n hn => hstep.spare hn (h.spare n hn), h.steps.tail hstep⟩

theorem RxRun.calm (h : RxRun key channel spared c c') {c'' : Ctx} (hcalm : Calm c' c'')
    (hnear : Touches {(key, channel)} c' c'') : RxRun key channel spared c c'' :=
  h.step (.calm hcalm hnear)

theorem RxRun.sendLostPacket (h : RxRun key channel spared c c') {reason : LostReason}
    {flags : BitVec 16} {first last : U32} :
    RxRun key channel spared c (sendLostPacket c' key channel reason flags first last).1 :=
  h.calm (Calm.refl c').sendLostPacket ((Touches.refl {(key, channel)} c').sendLostPacket rfl)

theorem RxRun.recordLost (h : RxRun key channel spared c c') {role : Role}
    {reason : LostReason} {first last count : U32} :
    RxRun key channel spared c (recordLost c' role key channel reason first last count) :=
  h.calm (Calm.refl c').recordLost ((Touches.refl {(key, channel)} c').recordLost rfl)

theorem RxRun.sendAck (h : RxRun key channel spared c c') {rh : ReliableHdr}
    (hchannel : rh.channelId = channel) {nack : Bool} :
    RxRun key channel spared c (sendAck c' key rh nack).1 := by
  subst hchannel
  exact h.calm (Calm.refl c').sendAck ((Touches.refl {(key, rh.channelId)} c').sendAck rfl)

theorem RxRun.emit_silent (h : RxRun key channel spared c c') {e : Effect}
    (he : e.isCalm = true) (hsilent : ∀ k ch, e.concerns k ch = false) :
    RxRun key channel spared c (c'.emit e) :=
  h.calm ((Calm.refl c').emit he) ((Touches.refl _ c').emit_silent hsilent)

/-- The function called for `consume_contiguous` goes on in steps. -/
def Proceeds (key : Mac) (channel : ℕ) (spared : Set U32) (c : Ctx) (consume : Ctx → Ctx) :
    Prop :=
  ∀ c', RxRun key channel spared c c' → RxRun key channel spared c (consume c')

theorem RxRun.receiverDropRange {consume : Ctx → Ctx}
    (hconsume : Proceeds key channel spared c consume) (h : RxRun key channel spared c c')
    {reason : LostReason} {first last : U32}
    (hout : ∀ n ∈ spared, seqInRange n first last = false) :
    RxRun key channel spared c
      (receiverDropRange consume c' key channel reason first last) := by
  have hforget : RxRun key channel spared c
      (forgetRange c' key channel reason first last) :=
    h.calm (Calm.refl c').forgetRange ((Touches.refl {(key, channel)} c').forgetRange rfl)
  simp only [Rel.receiverDropRange]
  split
  · next hin => exact (hconsume _ (hforget.step (.skip hin hout))).sendLostPacket
  · split
    · have hadd := hforget.step (.pend ((Rearranges.refl fun n hn =>
        (spare_iff.mp (hforget.spare n hn)).1).add hout))
      split
      · exact hadd.sendLostPacket
      · exact hadd.step .clear
    · exact hforget.sendLostPacket

/-- `deliver_fragment` once the frame is handed off. -/
theorem RxRun.deliverFragment {consume : Ctx → Ctx}
    (hconsume : Proceeds key channel spared c consume) {rh : ReliableHdr}
    {payload : List UInt8} {now : U32}
    (h : RxRun key channel spared c (c'.emit (.handOff key rh payload)))
    (hchannel : rh.channelId = channel) (hout : ∀ n ∈ spared, rh.Misses n) :
    RxRun key channel spared c (deliverFragment consume c' key rh payload now) := by
  subst hchannel
  rw [Rel.deliverFragment]
  split
  · refine h.calm ((Calm.refl _).emit rfl) (Touches.emit_on (.refl _ _) ?_ fun _ _ => rfl)
    exact Set.mem_singleton _
  · split
    · exact h
    · have hfind : RxRun key rh.channelId spared c
          (reassemblyFind (c'.emit (.handOff key rh payload)) key rh true now).1 :=
        h.calm (Calm.refl _).reassemblyFind
          ((Touches.refl {(key, rh.channelId)} _).reassemblyFind rfl)
      split
      · next found heq =>
          rw [heq] at hfind
          have hfailed : RxRun key rh.channelId spared c (reassemblyFailed found key rh) :=
            hfind.calm (Calm.refl _).reassemblyFailed (Touches.refl _ _).reassemblyFailed
          exact hfailed.receiverDropRange hconsume fun n hn => (hout n hn).2
      · next heq =>
          rw [heq] at hfind
          obtain ⟨slot, hslot, hfor⟩ := reassemblyFind_slot heq
          obtain ⟨hch, hpeer⟩ := ReassemblySlot.isFor_iff.mp hfor
          rw [hslot]
          refine hfind.calm (Calm.refl _).storeFragment
            ((Touches.refl _ _).storeFragment hslot ?_ ?_)
          · rw [hch, hpeer]
            rfl
          · rw [hch]
            rfl

theorem RxRun.skipLost (h : RxRun key channel spared c c') {c'' : Ctx}
    (hskip : skipLost c' key channel = some c'') : RxRun key channel spared c c'' := by
  rw [Rel.skipLost] at hskip
  split at hskip
  · simp at hskip
  · next i hi =>
      obtain ⟨range, hrange, hp⟩ := entryAt_of_findIdx hi
      rw [hrange] at hskip
      obtain rfl := Option.some.inj hskip
      rw [Bool.and_eq_true, beq_iff_eq] at hp
      have havoid : ∀ n ∈ spared, Avoids channel (c'.peer key).pendingLost n :=
        fun n hn => (spare_iff.mp (h.spare n hn)).1
      have hmoved := h.step (.skip hp.2 fun n hn => havoid n hn i range ⟨hrange, hp.1⟩)
      apply hmoved.step
      apply RxStep.pend
      rw [pending_setExpected]
      exact (Rearranges.refl havoid).drop ⟨hrange, hp.1⟩

/-- A frame leaves the buffer and is handed off. -/
theorem RxRun.takeBuffered (h : RxRun key channel spared c c') {c'' : Ctx} {slot : RxSlot}
    (htake : takeBuffered c' key channel = some (c'', slot)) :
    RxRun key channel spared c (c''.emit (.handOff key slot.hdr slot.payload)) ∧
      slot.hdr.channelId = channel ∧ ∀ n ∈ spared, slot.hdr.Misses n := by
  simp only [Rel.takeBuffered] at htake
  split at htake
  · simp at htake
  · next i hi =>
      obtain ⟨found, hfound, hp⟩ := entryAt_of_findIdx hi
      rw [hfound] at htake
      simp only [Option.some.injEq, Prod.mk.injEq] at htake
      obtain ⟨rfl, rfl⟩ := htake
      rw [Bool.and_eq_true, beq_iff_eq] at hp
      obtain ⟨hfor, hseq⟩ := hp
      obtain ⟨hch, hpeer⟩ := RxSlot.isFor_iff.mp hfor
      have hmem : found ∈ held c'.rx := mem_held_of_entryAt hfound
      obtain ⟨hheader, hnumber⟩ := h.numbered found hmem
      have hmiss : ∀ n ∈ spared, found.hdr.Misses n :=
        fun n hn => (spare_iff.mp (h.spare n hn)).2 found hmem hfor
      have hchannel : found.hdr.channelId = channel := hheader.symm.trans hch
      have hhand : RxRun key channel spared c
          ((c'.setExpected key channel (found.hdr.seq + 1)).emit
            (.handOff key found.hdr found.payload)) :=
        h.step (.hand hchannel (hseq.symm.trans hnumber) fun hn =>
          (hmiss _ hn).1 rfl)
      refine ⟨?_, hchannel, hmiss⟩
      rw [← hseq, hnumber]
      -- Handing the frame off first and freeing its slot afterwards gives the same context.
      have hswap : ((c'.setRx (c'.rx.set i none)).setExpected key channel
          (found.hdr.seq + 1)).emit (.handOff key found.hdr found.payload) =
            ((c'.setExpected key channel (found.hdr.seq + 1)).emit
              (.handOff key found.hdr found.payload)).setRx (c'.rx.set i none) := rfl
      rw [hswap]
      refine hhand.calm ?_ ?_
      · refine (Calm.refl _).tables rfl rfl rfl ?_
        change held (c'.rx.set i none) ≤ held c'.rx
        rw [held_set_none hfound]
        exact Multiset.le_cons_self _ _
      · refine (Touches.refl _ _).setRx fun k ch hk => ?_
        refine filter_set_none hfound (not_isFor_rx hk ?_)
        rw [hpeer, hch]
        rfl

theorem proceeds_consumeContiguous (k : ℕ) (now : U32) :
    Proceeds key channel spared c fun c => consumeContiguous k c key channel now := by
  induction k with
  | zero => exact fun c' h => h
  | succ k ih =>
      intro c' h
      simp only [consumeContiguous]
      split
      · next hskip => exact ih _ (h.skipLost hskip)
      · split
        · exact h
        · next htake =>
            obtain ⟨htaken, hchannel, hmiss⟩ := h.takeBuffered htake
            apply ih
            refine RxRun.deliverFragment ?_ htaken hchannel hmiss
            rw [hchannel]
            exact ih

theorem proceeds_drain (now : U32) :
    Proceeds key channel spared c fun c => drain c key channel now :=
  fun c' h => proceeds_consumeContiguous (drainFuel c' key) now c' h

theorem RxRun.acceptData (h : RxRun key channel spared c c') {rh : ReliableHdr}
    {payload : List UInt8} {now : U32} (hchannel : rh.channelId = channel)
    (hout : ∀ n ∈ spared, rh.Misses n) :
    RxRun key channel spared c (acceptData c' key rh payload now).1 := by
  subst hchannel
  simp only [Rel.acceptData]
  split
  · exact h.sendAck rfl
  · split
    · next hseq =>
        refine RxRun.sendAck (proceeds_drain now _ ?_) rfl
        apply RxRun.deliverFragment (proceeds_drain now) ?_ rfl hout
        rw [← hseq]
        exact h.step (.hand rfl hseq.symm fun hn => (hout _ hn).1 rfl)
    · split
      · exact h.sendAck rfl
      · split
        · exact h.sendAck rfl
        · split
          · have hcount : RxRun key rh.channelId spared c
                ((c'.emit (.exhausted key)).modPeer key Peer.countOverflow) := by
              apply (h.emit_silent (e := .exhausted key) rfl fun _ _ => rfl).calm
              · exact (Calm.refl _).modPeer fun _ => rfl
              · exact (Touches.refl _ _).modPeer (fun _ => rfl) fun _ => rfl
            refine hcount.receiverDropRange (proceeds_drain now) fun n hn => ?_
            rw [seqInRange_eq_false, not_between_iff]
            have hne : rh.seq ≠ n := (hout n hn).1
            have hgap : gap n rh.seq ≠ 0 := fun hzero => hne (gap_eq_zero.mp hzero)
            omega
          · next i halloc =>
              rw [rxAlloc] at halloc
              split at halloc
              · simp at halloc
              · exact (h.step (.buffer halloc rfl hout)).sendAck rfl

theorem RxRun.latestJump (h : RxRun key channel spared c c') {rh : ReliableHdr}
    (hchannel : rh.channelId = channel)
    (hbefore : seqBefore ((c'.peer key).expectedSeq channel) rh.seq = true)
    (hout : ∀ n ∈ spared, seqInRange n ((c'.peer key).expectedSeq channel) rh.seq = false) :
    RxRun key channel spared c (latestJump c' key rh) := by
  subst hchannel
  have hfreed : RxRun key rh.channelId spared c
      (c'.setRx (freeWhere (RxSlot.isFor key rh.channelId) c'.rx)) := by
    refine h.calm ((Calm.refl c').freeRx _) ((Touches.refl _ c').freeRx fun slot hslot => ?_)
    obtain ⟨hch, hpeer⟩ := RxSlot.isFor_iff.mp hslot
    rw [hpeer, hch]
    rfl
  have hforgot := hfreed.step (.pend (Rearranges.freeChannel _))
  have hne : rh.seq ≠ (c'.peer key).expectedSeq rh.channelId := by
    intro heq
    rw [heq, seqBefore, decide_eq_true_iff, BitVec.sub_self] at hbefore
    exact absurd hbefore (by decide)
  have hlast : rh.seq - 1 + 1 = rh.seq := BitVec.sub_add_cancel _ _
  rw [Rel.latestJump, ← hlast]
  apply hforgot.step
  -- The jump skips the numbers from `expected_seq` up to the one before the frame's.
  apply RxStep.skip
  · rw [seqInRange_iff_between]
    exact between_self_first _ _
  · intro n hn
    rw [seqInRange_eq_false]
    have hkept : ((((c'.setRx (freeWhere (RxSlot.isFor key rh.channelId) c'.rx)).setPending key
        (freeWhere (fun range => range.channel == rh.channelId)
          (c'.peer key).pendingLost)).peer key).expectedSeq rh.channelId) =
            (c'.peer key).expectedSeq rh.channelId :=
      peer_modPeer_field (f := Peer.setPending _) (fun p => p.expectedSeq rh.channelId)
        (fun _ => rfl) (fun _ => rfl) key
    apply not_between_pred
    · exact fun heq => hne (heq.trans hkept)
    · refine seqInRange_eq_false.mp ?_
      exact hkept ▸ hout n hn

end RxRun

end KeemashCore.Rel
