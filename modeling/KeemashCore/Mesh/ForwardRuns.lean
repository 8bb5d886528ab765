import KeemashCore.Mesh.Forward
import KeemashCore.Mesh.Runs

/-!
# `expected_seq` moves forward

While some number at most half a round ahead is spare and is not named by the packet,
handling the packet clears the peer or moves `expected_seq` of each channel forward.  While
one number stays spare, no number is handed to `deliver_fragment` twice between two clears.
Neither holds for a LOST packet that names the whole round: `handle_lost_packet` does not
bound the range, as `handle_data` bounds the number of a frame.
-/

namespace KeemashCore.Rel

open SlotTable SerialNumber LittleEndian Relation

/-! ## Handling a packet -/

/-- The packet may move `expected_seq` of the channel past the number, or store it. -/
def Body.names (channel : ℕ) (expected n : U32) : Body → Bool
  | .data rh _ =>
      rh.channelId == channel &&
        (rh.seq == n || seqInRange n rh.firstSeq rh.lastSeq ||
          (rh.flags &&& flagLatest != 0 && seqBefore expected rh.seq &&
            seqInRange n expected rh.seq))
  | .lost range =>
      range.channelId == channel && range.rsv &&& lostFlagReceiverDrop == 0 &&
        seqInRange n range.seqFirst range.seqLast
  | _ => false

/-- The packet changes nothing that the receive path keeps, or it works on one channel of its
sender. -/
def Works (key : Mac) (channel : ℕ) (spared : Set U32) (c c' : Ctx) : Prop :=
  Calm c c' ∨ c.has key ∧ ∃ c₁, Calm c c₁ ∧ RxRun key channel spared c₁ c'

section Works

variable {c : Ctx} {src : Mac} {spared : Set U32} {now : U32}

/-- A run of the receive path starts at a context with the same spare numbers. -/
theorem RxRun.start {c' : Ctx} {key : Mac} {channel : ℕ} (hc : c.Numbered) (h : Calm c c')
    (hspare : ∀ n ∈ spared, c.spare key channel n = true) :
    RxRun key channel spared c' c' :=
  ⟨hc.mono h.rx, fun n hn => h.spare (hspare n hn), .refl⟩

theorem works_handleData (hc : c.Numbered) (rh : ReliableHdr) (payload : List UInt8)
    (hspare : ∀ n ∈ spared, c.spare (c.keyOf src) rh.channelId n = true)
    (hnames : ∀ n ∈ spared, (Body.data rh payload).names rh.channelId
      ((c.peer (c.keyOf src)).expectedSeq rh.channelId) n = false) :
    Works (c.keyOf src) rh.channelId spared c (handleData c src rh payload now).1 := by
  have hfind := (Calm.refl c).peerFind src now
  have hbound := boundPeer_peerFind c src now rh.rootSessionId rh.nodeSessionId
  cases hformed : dataMalformed c src rh payload with
  | true =>
      rw [handleData, if_pos hformed]
      exact .inl (.refl c)
  | false =>
      cases hb : boundTo c src rh.rootSessionId rh.nodeSessionId with
      | false =>
          rw [hb, if_neg Bool.false_ne_true] at hbound
          rw [handleData, if_neg (by simp [hformed])]
          simp only [hbound]
          exact .inl hfind
      | true =>
          rw [hb, if_pos rfl] at hbound
          have hready : (c.peer (c.keyOf src)).ready = true := by
            rw [boundTo, Bool.and_eq_true, Bool.and_eq_true] at hb
            exact hb.1.1
          rw [handleData_bound hformed hbound]
          have hheard : Calm c ((peerFind c src false now).1.modPeer (c.keyOf src)
              (Peer.heardData rh now)) :=
            hfind.modPeer fun _ => rfl
          split
          · exact .inl hheard
          · refine .inr ⟨has_of_ready hready, _, hheard, ?_⟩
            have hstart := RxRun.start hc hheard hspare
            have hexpected : (((peerFind c src false now).1.modPeer (c.keyOf src)
                (Peer.heardData rh now)).peer (c.keyOf src)).expectedSeq rh.channelId =
                  (c.peer (c.keyOf src)).expectedSeq rh.channelId :=
              congrFun (hheard.expected _) _
            simp only [Body.names, BEq.rfl, Bool.true_and, Bool.or_eq_false_iff, beq_eq_false_iff_ne]
              at hnames
            refine RxRun.acceptData ?_ rfl fun n hn => (hnames n hn).1
            simp only [heardData]
            split
            · next hjump =>
                refine hstart.latestJump rfl hjump.2 fun n hn => ?_
                have hlatest := (hnames n hn).2
                rw [hexpected] at hjump ⊢
                rwa [bne_iff_ne.mpr hjump.1, hjump.2, Bool.true_and, Bool.true_and] at hlatest
            · exact hstart

theorem works_handleLostPacket (hc : c.Numbered) (lost : LostPayload)
    (hspare : ∀ n ∈ spared, c.spare (c.keyOf src) lost.channelId n = true)
    (hnames : ∀ n ∈ spared, (Body.lost lost).names lost.channelId
      ((c.peer (c.keyOf src)).expectedSeq lost.channelId) n = false) :
    Works (c.keyOf src) lost.channelId spared c (handleLostPacket c src lost now).1 := by
  have hfind := (Calm.refl c).peerFind src now
  have hbound := boundPeer_peerFind c src now lost.rootSessionId lost.nodeSessionId
  have hstart := RxRun.start hc hfind hspare
  simp only [handleLostPacket, hbound]
  cases hb : boundTo c src lost.rootSessionId lost.nodeSessionId with
  | false => exact .inl hfind
  | true =>
      have hready : (c.peer (c.keyOf src)).ready = true := by
        rw [boundTo, Bool.and_eq_true, Bool.and_eq_true] at hb
        exact hb.1.1
      simp only [if_true]
      split
      · exact .inl hfind
      · refine .inr ⟨has_of_ready hready, _, hfind, ?_⟩
        split
        · refine RxRun.recordLost (hstart.calm ((Calm.refl _).setTx _) ?_)
          refine (Touches.refl _ _).freeTx fun slot hslot => ?_
          obtain ⟨hch, hpeer⟩ := TxSlot.isFor_iff.mp (Bool.and_elim_left hslot)
          rw [hpeer, hch]
          rfl
        · next hdrop =>
            have hout : ∀ n ∈ spared, seqInRange n lost.seqFirst lost.seqLast = false := by
              intro n hn
              simpa [Body.names, not_not.mp hdrop] using hnames n hn
            split
            · next hin =>
                exact RxRun.recordLost (proceeds_drain now _ (hstart.step (.skip hin hout)))
            · split
              · have hadd := hstart.step (.pend ((Rearranges.refl fun n hn =>
                  (spare_iff.mp (hstart.spare n hn)).1).add hout))
                split
                · exact hadd.recordLost
                · exact hadd.step .clear
              · exact hstart.recordLost

end Works

/-! ## What the steps do to the channels -/

/-- The number of a frame handed to `deliver_fragment` for the channel of the peer. -/
def Effect.handedOn? (key : Mac) (channel : ℕ) : Effect → Option U32
  | .handOff k rh _ => if k = key ∧ rh.channelId = channel then some rh.seq else none
  | _ => none

/-- The numbers handed to `deliver_fragment` for the channel of the peer, in order. -/
def handedSeqs (key : Mac) (channel : ℕ) (effects : List Effect) : List U32 :=
  effects.filterMap (Effect.handedOn? key channel)

theorem handedSeqs_append (key : Mac) (channel : ℕ) (effects effects' : List Effect) :
    handedSeqs key channel (effects ++ effects') =
      handedSeqs key channel effects ++ handedSeqs key channel effects' :=
  List.filterMap_append

theorem handedSeqs_calm (key : Mac) (channel : ℕ) {effects : List Effect}
    (h : ∀ e ∈ effects, e.isCalm = true) : handedSeqs key channel effects = [] := by
  rw [handedSeqs, List.filterMap_eq_nil_iff]
  intro e he
  cases e with
  | handOff k rh payload => exact absurd (h _ he) (by simp [Effect.isCalm])
  | _ => rfl

theorem not_mem_of_calm {effects : List Effect} (h : ∀ e ∈ effects, e.isCalm = true)
    (k : Mac) : Effect.cleared k ∉ effects :=
  fun hmem => absurd (h _ hmem) (by simp [Effect.isCalm])

/-- Going from `c` to `c'` clears no peer, touches one channel only, and moves its
`expected_seq` without reaching a spared number. -/
structure Passes (key : Mac) (channel : ℕ) (spared : Set U32) (c c' : Ctx) : Prop where
  near : Touches {(key, channel)} c c'
  onward : ∃ new, c'.trace = c.trace ++ new ∧ (∀ k, Effect.cleared k ∉ new) ∧
    ∀ n ∈ spared, Descends n ((c.peer key).expectedSeq channel)
      ((c'.peer key).expectedSeq channel) (handedSeqs key channel new)

section Passes

variable {key : Mac} {channel : ℕ} {spared : Set U32} {c c' : Ctx}

theorem Passes.refl (key : Mac) (channel : ℕ) (spared : Set U32) (c : Ctx) :
    Passes key channel spared c c :=
  ⟨.refl _ c, [], (List.append_nil _).symm, fun _ => List.not_mem_nil, fun n _ => .refl n _⟩

theorem Passes.trans {c'' : Ctx} (h : Passes key channel spared c c')
    (h' : Passes key channel spared c' c'') : Passes key channel spared c c'' := by
  obtain ⟨new, hnew, hclear, hpast⟩ := h.onward
  obtain ⟨new', hnew', hclear', hpast'⟩ := h'.onward
  refine ⟨h.near.trans h'.near, new ++ new', ?_, fun k hmem => ?_, fun n hn => ?_⟩
  · rw [hnew', hnew, List.append_assoc]
  · exact (List.mem_append.mp hmem).elim (hclear k) (hclear' k)
  · rw [handedSeqs_append]
    exact (hpast n hn).trans (hpast' n hn)

theorem expected_setExpected {seq : U32} (hhas : c.has key) :
    ((c.setExpected key channel seq).peer key).expectedSeq channel = seq :=
  congrArg Slice.expected (slice_setExpected_self hhas channel seq)

theorem expected_setPending (c : Ctx) (key : Mac) (table : List (Option PendingLostRange))
    (k : Mac) : ((c.setPending key table).peer k).expectedSeq = (c.peer k).expectedSeq :=
  peer_modPeer_field (f := Peer.setPending table) Peer.expectedSeq (fun _ => rfl)
    (fun _ => rfl) k

/-- A step passes on, or it clears the peer. -/
theorem RxStep.passes_or_clears (h : RxStep key channel spared c c') (hhas : c.has key) :
    Passes key channel spared c c' ∨ ∃ reason, c' = clearPeerBuffers c key reason := by
  cases h with
  | calm h hnear =>
      obtain ⟨new, hnew, hcalm⟩ := h.trace
      refine .inl ⟨hnear, new, hnew, not_mem_of_calm hcalm, fun n _ => ?_⟩
      rw [handedSeqs_calm key channel hcalm, h.expected]
      exact .refl n _
  | @skip first last hin hout =>
      refine .inl ⟨(Touches.refl {(key, channel)} c).setExpected rfl _, [],
        (List.append_nil _).symm, fun _ => List.not_mem_nil, fun n hn => ?_⟩
      rw [expected_setExpected hhas]
      exact .skip (seqInRange_iff_between.mp hin) (seqInRange_eq_false.mp (hout n hn))
  | pend h =>
      refine .inl ⟨(Touches.refl _ c).setPending fun ch hch => ?_, [],
        (List.append_nil _).symm, fun _ => List.not_mem_nil, fun n _ => ?_⟩
      · apply h.other
        rintro rfl
        exact hch rfl
      · rw [expected_setPending]
        exact .refl n _
  | @hand rh payload hchannel hseq hout =>
      have hmoved : Touches {(key, channel)} c (c.setExpected key channel (rh.seq + 1)) :=
        (Touches.refl _ c).setExpected (Set.mem_singleton _) _
      have hin : (key, rh.channelId) ∈ ({(key, channel)} : Set (Mac × ℕ)) := by
        rw [hchannel]
        rfl
      refine .inl ⟨hmoved.emit_on hin fun _ _ => rfl, [.handOff key rh payload], rfl,
        fun k hmem => ?_, fun n hn => ?_⟩
      · exact absurd (List.mem_singleton.mp hmem) (by simp)
      · have hhanded : handedSeqs key channel [.handOff key rh payload] = [rh.seq] := by
          simp [handedSeqs, Effect.handedOn?, hchannel]
        have hexpected : ((((c.setExpected key channel (rh.seq + 1)).emit
            (.handOff key rh payload)).peer key).expectedSeq channel) = rh.seq + 1 :=
          expected_setExpected hhas
        rw [hhanded, hexpected, hseq]
        apply Descends.use
        rintro rfl
        exact hout hn
  | @buffer i rh payload hfree hchannel hout =>
      refine .inl ⟨(Touches.refl _ c).setRx fun k ch hk => ?_, [], (List.append_nil _).symm,
        fun _ => List.not_mem_nil, fun n _ => .refl n _⟩
      refine filter_set_some (getElem?_of_freeIdx hfree) (not_isFor_rx hk ?_)
      rw [← hchannel]
      rfl
  | clear => exact .inr ⟨_, rfl⟩

theorem ready_clearPeerBuffers (c : Ctx) (key : Mac) (reason : LostReason) :
    ((clearPeerBuffers c key reason).peer key).ready = false := by
  rw [clearPeerBuffers, reportSpans]
  refine List.foldlRecOn (motive := fun c : Ctx => (c.peer key).ready = false) _ _ ?_
    fun c hready channel _ => ?_
  swap
  · split
    · exact (peer_modPeer_field (f := Peer.countLost reason _) Peer.ready (fun _ => rfl)
        (fun _ => rfl) key).trans hready
    · exact hready
  generalize clearReassembly _ key reason = c₁
  by_cases hhas : c₁.has key
  · rw [peer_modPeer_self (f := Peer.cleared) (fun _ => rfl) hhas]
    rfl
  · have hnone : c₁.peerAt key = none := by simpa [Ctx.has] using hhas
    rw [modPeer_missing hhas, Ctx.peer, hnone]
    rfl

/-- The other channels of the peer show that its record is as ready as it was. -/
theorem Touches.ready (h : Touches {(key, channel)} c c') :
    (c'.peer key).ready = (c.peer key).ready := by
  have hslice := h.slice key (channel + 1) (by simp)
  exact congrArg (fun s => s.binding.ready) hslice

theorem has_of_rxSteps (h : ReflTransGen (RxStep key channel spared) c c') {k : Mac}
    (hk : c.has k) : c'.has k := by
  induction h with
  | refl => exact hk
  | tail _ hstep ih => exact hstep.has ih

/-- Steps pass on, or the peer is no longer ready. -/
theorem passes_or_unready (h : ReflTransGen (RxStep key channel spared) c c')
    (hhas : c.has key) :
    Passes key channel spared c c' ∨ (c'.peer key).ready = false := by
  induction h with
  | refl => exact .inl (.refl _ _ _ _)
  | tail hsteps hstep ih =>
      rcases hstep.passes_or_clears (has_of_rxSteps hsteps hhas) with hpass | ⟨reason, rfl⟩
      · rcases ih with hbefore | hunready
        · exact .inl (hbefore.trans hpass)
        · exact .inr (hpass.near.ready.trans hunready)
      · exact .inr (ready_clearPeerBuffers _ _ _)

end Passes

/-! ## One channel during a run -/

/-- Between `c` and `c'` the channel is followed: the number stays spare, and unless the peer
is cleared `expected_seq` moves without reaching it. -/
structure Tracks (key : Mac) (channel : ℕ) (n : U32) (c c' : Ctx) : Prop where
  has : c.has key → c'.has key
  numbered : c.Numbered → c'.Numbered
  spare : c.spare key channel n = true → c'.spare key channel n = true
  onward : c.has key → ∃ new, c'.trace = c.trace ++ new ∧ (Effect.cleared key ∉ new →
    Descends n ((c.peer key).expectedSeq channel) ((c'.peer key).expectedSeq channel)
      (handedSeqs key channel new))

section Tracks

variable {key : Mac} {channel : ℕ} {n : U32} {c c' : Ctx}

theorem Tracks.refl (key : Mac) (channel : ℕ) (n : U32) (c : Ctx) :
    Tracks key channel n c c :=
  ⟨id, id, id, fun _ => ⟨[], (List.append_nil _).symm, fun _ => .refl n _⟩⟩

theorem Tracks.trans {c'' : Ctx} (h : Tracks key channel n c c')
    (h' : Tracks key channel n c' c'') : Tracks key channel n c c'' := by
  refine ⟨h'.has ∘ h.has, h'.numbered ∘ h.numbered, h'.spare ∘ h.spare, fun hhas => ?_⟩
  obtain ⟨new, hnew, hpast⟩ := h.onward hhas
  obtain ⟨new', hnew', hpast'⟩ := h'.onward (h.has hhas)
  refine ⟨new ++ new', by rw [hnew', hnew, List.append_assoc], fun hclear => ?_⟩
  rw [List.mem_append, not_or] at hclear
  rw [handedSeqs_append]
  exact (hpast hclear.1).trans (hpast' hclear.2)

theorem Calm.tracks (h : Calm c c') : Tracks key channel n c c' := by
  refine ⟨h.has, fun hc => hc.mono h.rx, h.spare, fun _ => ?_⟩
  obtain ⟨new, hnew, hcalm⟩ := h.trace
  refine ⟨new, hnew, fun _ => ?_⟩
  rw [handedSeqs_calm key channel hcalm, h.expected]
  exact .refl n _

theorem spare_of_slice (h : c'.slice key channel = c.slice key channel)
    (hn : c.spare key channel n = true) : c'.spare key channel n = true := by
  rw [spare_iff] at hn ⊢
  refine ⟨hn.1.congr (congrArg Slice.pending h), fun slot hslot hfor => ?_⟩
  have hmem : slot ∈ (c'.slice key channel).rx := Multiset.mem_filter.mpr ⟨hslot, hfor⟩
  rw [h] at hmem
  exact hn.2 slot (Multiset.mem_filter.mp hmem).1 hfor

/-- Nothing is handed off where the slice stays the same. -/
theorem handedSeqs_of_slice {new : List Effect} (hnew : c'.trace = c.trace ++ new)
    (h : c'.slice key channel = c.slice key channel) : handedSeqs key channel new = [] := by
  have hlog := congrArg Slice.log h
  simp only [Ctx.slice, hnew, List.filter_append, List.append_right_eq_self] at hlog
  rw [handedSeqs, List.filterMap_eq_nil_iff]
  intro e he
  have hnot := List.filter_eq_nil_iff.mp hlog e he
  cases e with
  | handOff k rh payload =>
      rw [Effect.handedOn?, if_neg]
      simpa [Effect.concerns] using hnot
  | _ => rfl

/-- What changes other slices only. -/
theorem Touches.tracks {A : Set (Mac × ℕ)} (h : Touches A c c') (hA : (key, channel) ∉ A)
    (hnumbered : c.Numbered → c'.Numbered) : Tracks key channel n c c' := by
  have hslice := h.slice key channel hA
  refine ⟨h.has key, hnumbered, spare_of_slice hslice, fun _ => ?_⟩
  obtain ⟨new, hnew⟩ := h.trace
  refine ⟨new, hnew.symm, fun _ => ?_⟩
  have hexpected : (c'.peer key).expectedSeq channel = (c.peer key).expectedSeq channel :=
    congrArg Slice.expected hslice
  rw [handedSeqs_of_slice hnew.symm hslice, hexpected]
  exact .refl n _

/-- Clearing a peer keeps the spare numbers of every channel. -/
theorem tracks_clearPeerBuffers (c : Ctx) (k : Mac) (reason : LostReason) :
    Tracks key channel n c (clearPeerBuffers c k reason) := by
  have hnumbered (hc : c.Numbered) : (clearPeerBuffers c k reason).Numbered :=
    hc.mono (rx_clearPeerBuffers c k reason)
  have htouch := touches_clearPeerBuffers c k reason
  by_cases hk : k = key
  · subst hk
    obtain ⟨rest, htrace, -⟩ := trace_clearPeerBuffers c k reason
    refine ⟨htouch.has k, hnumbered, spare_clearPeerBuffers reason, fun _ => ?_⟩
    refine ⟨_, htrace, fun hclear => absurd ?_ hclear⟩
    exact List.mem_cons_self
  · have hmark : Touches (ofKey k) c (c.emit (.cleared k)) :=
      (Touches.refl _ c).emit_silent fun _ _ => rfl
    exact (hmark.trans htouch).tracks (fun hmem => hk hmem.symm) hnumbered

theorem IdleStep.tracks (h : IdleStep c c') (hhas : c.has key) :
    Tracks key channel n c c' := by
  cases h with
  | calm h => exact h.tracks
  | @create i k mac now hnone hfree =>
      have htouch := touches_newPeer (p := newPeer c.cfg k mac now) hnone hfree
      refine htouch.tracks (fun hmem => ?_) fun hc => hc
      have hkey : key = k := hmem
      rw [Ctx.has, hkey, hnone] at hhas
      exact absurd hhas (by simp)
  | clear => exact tracks_clearPeerBuffers c _ _

theorem Idle.tracks (h : Idle c c') (hhas : c.has key) : Tracks key channel n c c' := by
  induction h with
  | refl => exact .refl key channel n c
  | tail _ hstep ih => exact ih.trans (hstep.tracks (ih.has hhas))

theorem RxStep.tracks {k : Mac} {ch : ℕ} {spared : Set U32} (h : RxStep k ch spared c c')
    (hhas : c.has k) (hn : (k, ch) = (key, channel) → n ∈ spared) :
    Tracks key channel n c c' := by
  rcases h.passes_or_clears hhas with hpass | ⟨reason, rfl⟩
  · by_cases hsame : (k, ch) = (key, channel)
    · have hmem := hn hsame
      obtain ⟨rfl, rfl⟩ := Prod.mk.inj hsame
      obtain ⟨new, hnew, -, hpast⟩ := hpass.onward
      exact ⟨h.has, h.numbered, h.spare hmem, fun _ => ⟨new, hnew, fun _ => hpast n hmem⟩⟩
    · exact hpass.near.tracks (fun hmem => hsame hmem.symm) h.numbered
  · exact tracks_clearPeerBuffers c k reason

theorem Works.tracks {k : Mac} {ch : ℕ} {spared : Set U32} (h : Works k ch spared c c')
    (hn : (k, ch) = (key, channel) → n ∈ spared) : Tracks key channel n c c' := by
  rcases h with hcalm | ⟨hhas, c₁, hcalm, hrun⟩
  · exact hcalm.tracks
  · have hhas₁ : c₁.has k := hcalm.has hhas
    refine hcalm.tracks.trans ?_
    have hsteps := hrun.steps
    clear hrun
    induction hsteps with
    | refl => exact .refl key channel n c₁
    | tail hsteps hstep ih => exact ih.trans (hstep.tracks (has_of_rxSteps hsteps hhas₁) hn)

end Tracks

/-! ## Operations -/

/-- The session ids that a packet carries are those under which its sender is ready. -/
def Body.matchesPeer (c : Ctx) (src : Mac) : Body → Bool
  | .hello hi => boundTo c src c.localSession hi.nodeSessionId &&
      hi.rootSessionSeen == c.localSession
  | .helloAck reply => boundTo c src reply.rootSessionId reply.nodeSessionId
  | .data rh _ => boundTo c src rh.rootSessionId rh.nodeSessionId
  | .ack reply | .nack reply => boundTo c src reply.rootSessionId reply.nodeSessionId
  | .lost range => boundTo c src range.rootSessionId range.nodeSessionId

/-- Handling a packet is idle, or it works on one channel of the sender. -/
theorem handleRx_works {c : Ctx} (hc : c.Numbered) {spared : Set U32} {src : Mac}
    (packet : Packet) (now : U32)
    (hspare : ∀ channel, packet.body.channel? = some channel → ∀ n ∈ spared,
      c.spare (c.keyOf src) channel n = true ∧
        packet.body.names channel ((c.peer (c.keyOf src)).expectedSeq channel) n = false) :
    Idle c (handleRx c src packet now).1 ∨ ∃ channel, packet.body.channel? = some channel ∧
      Works (c.keyOf src) channel spared c (handleRx c src packet now).1 := by
  rw [handleRx]
  split
  · exact .inl .refl
  · cases hbody : packet.body with
    | hello hi => exact .inl (Idle.handleHello .refl)
    | helloAck reply => exact .inl (Idle.handleHelloAck .refl)
    | data rh payload =>
        rw [hbody] at hspare
        exact .inr ⟨_, rfl, works_handleData hc rh payload (fun n hn => (hspare _ rfl n hn).1)
          fun n hn => (hspare _ rfl n hn).2⟩
    | ack reply => exact .inl (Calm.refl c).handleAckPacket.idle
    | nack reply => exact .inl (Calm.refl c).handleAckPacket.idle
    | lost range =>
        rw [hbody] at hspare
        exact .inr ⟨_, rfl, works_handleLostPacket hc range (fun n hn => (hspare _ rfl n hn).1)
          fun n hn => (hspare _ rfl n hn).2⟩

/-- Every packet of a matching peer other than DATA and LOST leaves the receive path alone. -/
theorem calm_of_matches {c : Ctx} {src : Mac} {packet : Packet} {now : U32}
    (hmatch : packet.body.matchesPeer c src = true)
    (hdata : ∀ rh payload, packet.body ≠ .data rh payload)
    (hlost : ∀ range, packet.body ≠ .lost range) : Calm c (handleRx c src packet now).1 := by
  have hbound {root node : U32} (h : boundTo c src root node = true) :
      c.has (c.keyOf src) ∧ (c.peer (c.keyOf src)).ready = true ∧
        (c.peer (c.keyOf src)).rootSessionId = root ∧
          (c.peer (c.keyOf src)).nodeSessionId = node := by
    simp only [boundTo, Bool.and_eq_true, beq_iff_eq] at h
    exact ⟨has_of_ready h.1.1, h.1.1, h.1.2, h.2⟩
  have hnote : Calm c (c.noteMac src) := by
    rw [← peerFind_fst c src now]
    exact (Calm.refl c).peerFind src now
  rw [handleRx]
  split
  · exact .refl c
  · cases hbody : packet.body with
    | hello hi =>
        rw [hbody, Body.matchesPeer, Bool.and_eq_true, beq_iff_eq] at hmatch
        obtain ⟨hb, hseen⟩ := hmatch
        obtain ⟨hhas, -, -, hnode⟩ := hbound hb
        simp only [handleHello]
        split
        · exact .refl c
        · rw [peerFind_stored hhas]
          have hkeeps : helloResets (c.noteMac src) (c.keyOf src) hi = false := by
            have hsame : ((c.noteMac src).peer (c.keyOf src)).nodeSessionId =
                hi.nodeSessionId :=
              (peer_noteMac Peer.nodeSessionId (fun _ _ => rfl) _ _ _).trans hnode
            have hlocal : (c.noteMac src).localSession = c.localSession := by
              rw [noteMac_eq]
            simp [helloResets, hsame, hseen, hlocal]
          simp only [hkeeps, Bool.false_eq_true, if_false]
          refine Calm.sendPacket (hnote.modPeer ?_)
          exact fun _ => rfl
    | helloAck reply =>
        rw [hbody, Body.matchesPeer] at hmatch
        obtain ⟨hhas, hready, hroot, hnode⟩ := hbound hmatch
        simp only [handleHelloAck]
        split
        · exact .refl c
        · rw [peerFind_stored hhas]
          have hkeeps : helloAckClears ((c.noteMac src).peer (c.keyOf src)) reply = false := by
            have hready' := (peer_noteMac Peer.ready (fun _ _ => rfl) c src (c.keyOf src)).trans
              hready
            have hroot' := (peer_noteMac Peer.rootSessionId (fun _ _ => rfl) c src
              (c.keyOf src)).trans hroot
            have hnode' := (peer_noteMac Peer.nodeSessionId (fun _ _ => rfl) c src
              (c.keyOf src)).trans hnode
            simp [helloAckClears, hready', hroot', hnode']
          simp only [hkeeps, Bool.false_eq_true, if_false]
          exact hnote.modPeer fun _ => rfl
    | data rh payload => exact absurd hbody (hdata rh payload)
    | ack reply => exact (Calm.refl c).handleAckPacket
    | nack reply => exact (Calm.refl c).handleAckPacket
    | lost range => exact absurd hbody (hlost range)

/-- The operation keeps the record of the peer, and if it handles a packet of the peer, the
packet does not name the number. -/
def Operation.spares (c : Ctx) (key : Mac) (channel : ℕ) (n : U32) : Operation → Bool
  | .receive src packet =>
      c.keyOf src != key ||
        match handledBody src packet with
        | none => true
        | some body => !body.names channel ((c.peer key).expectedSeq channel) n
  | .remove _ => false
  | _ => true

/-- Every operation of the run spares the number. -/
def sparedBy (key : Mac) (channel : ℕ) (n : U32) : Ctx → List (Operation × U32) → Bool
  | _, [] => true
  | c, op :: ops => op.1.spares c key channel n && sparedBy key channel n (c.operate op) ops

theorem numbered_operate {c : Ctx} (hc : c.Numbered) (op : Operation × U32) :
    (c.operate op).Numbered := by
  have hidle {c' : Ctx} (h : Idle c c') : c'.Numbered := by
    induction h with
    | refl => exact hc
    | tail _ hstep ih =>
        cases hstep with
        | calm h => exact ih.mono h.rx
        | create _ _ => exact ih
        | clear => exact ih.mono (rx_clearPeerBuffers _ _ _)
  obtain ⟨op, now⟩ := op
  cases op with
  | submit peer channel payload priority => exact hidle (Calm.refl c).submit.idle
  | sendHello peer capabilities => exact hidle (Idle.sendHello .refl)
  | receive src packet =>
      have hrx : c.operate (.receive src packet, now) =
          (handleRxBytes c src packet now).1 := rfl
      rw [hrx]
      rcases handleRxBytes_cases c src packet now with ⟨err, herr⟩ | ⟨p, -, hp⟩
      · rw [herr]
        exact hc
      · rw [hp]
        rcases @handleRx_works c hc ∅ src p now (fun _ _ _ hn => absurd hn (Set.notMem_empty _))
          with h | ⟨channel, -, h | ⟨-, c₁, hcalm, hrun⟩⟩
        · exact hidle h
        · exact hc.mono h.rx
        · exact hrun.numbered
  | poll => exact hidle (Idle.poll .refl now)
  | route peer routeUp => exact hidle (Idle.peerRoute .refl)
  | supersede peer channel => exact hidle (Calm.refl c).supersedeChannel.idle
  | reset peer reason => exact hidle (Idle.resetPeer .refl)
  | remove peer =>
      have hfind := (Calm.refl c).peerFind peer now
      have hremove : c.operate (.remove peer, now) = (removePeer c peer now).1 := rfl
      rw [hremove, removePeer]
      split
      · next heq =>
          rw [heq] at hfind
          exact hc.mono hfind.rx
      · next heq =>
          rw [heq] at hfind
          split
          · exact hc.mono hfind.rx
          · exact hc.mono hfind.rx

theorem Reachable.numbered {allowed : ℕ → Prop} {c : Ctx} (h : Reachable allowed c) :
    c.Numbered := by
  obtain ⟨config, session, stream, start, ops, hstart, -, rfl⟩ := h
  have hempty : start.Numbered := by
    simp only [init] at hstart
    split at hstart
    · simp at hstart
    · obtain rfl := Option.some.inj hstart
      intro slot hslot
      simp [held_replicate_none] at hslot
  clear hstart
  induction ops generalizing start with
  | nil => exact hempty
  | cons op ops ih => exact ih _ (numbered_operate hempty op)

/-- An operation that spares the number. -/
theorem tracks_operate {c : Ctx} {key : Mac} {channel : ℕ} {n : U32} (hc : c.Numbered)
    (hhas : c.has key) (hn : c.spare key channel n = true) {op : Operation × U32}
    (hop : op.1.spares c key channel n = true) : Tracks key channel n c (c.operate op) := by
  obtain ⟨op, now⟩ := op
  cases op with
  | submit peer channel payload priority => exact (Calm.refl c).submit.tracks
  | sendHello peer capabilities => exact (Idle.sendHello .refl).tracks hhas
  | receive src packet =>
      have hrx : c.operate (.receive src packet, now) =
          (handleRxBytes c src packet now).1 := rfl
      rw [hrx]
      rcases handleRxBytes_handled src packet now with
        ⟨-, err, -, hrun⟩ | ⟨body, sessionId, hbody, hrun⟩
      · rw [hrun]
        exact .refl key channel n c
      · rw [hrun]
        simp only [Operation.spares, hbody, Bool.or_eq_true, bne_iff_ne, ne_eq,
          Bool.not_eq_true'] at hop
        -- The number matters only on the channel that is followed.
        have hspared : ∀ ch, body.channel? = some ch →
            ∀ m ∈ {m | m = n ∧ c.keyOf src = key ∧ body.channel? = some channel},
              c.spare (c.keyOf src) ch m = true ∧
                body.names ch ((c.peer (c.keyOf src)).expectedSeq ch) m = false := by
          rintro ch hch m ⟨rfl, hkey, hbody'⟩
          obtain rfl : channel = ch := Option.some.inj (hbody'.symm.trans hch)
          rw [hkey]
          exact ⟨hn, hop.resolve_left fun hne => hne hkey⟩
        rcases handleRx_works hc { sessionId := sessionId, srcMac := src, body := body } now
          hspared with h | ⟨ch, hch, h⟩
        · exact h.tracks hhas
        · refine h.tracks fun hsame => ?_
          obtain ⟨hkey, rfl⟩ := Prod.mk.inj hsame
          exact ⟨rfl, hkey, hch⟩
  | poll => exact (Idle.poll .refl now).tracks hhas
  | route peer routeUp => exact (Idle.peerRoute .refl).tracks hhas
  | supersede peer channel => exact (Calm.refl c).supersedeChannel.tracks
  | reset peer reason => exact (Idle.resetPeer .refl).tracks hhas
  | remove peer => exact absurd hop Bool.false_ne_true

theorem tracks_operates {key : Mac} {channel : ℕ} {n : U32} (ops : List (Operation × U32))
    {c : Ctx} (hc : c.Numbered) (hhas : c.has key) (hn : c.spare key channel n = true)
    (hops : sparedBy key channel n c ops = true) :
    Tracks key channel n c (c.operates ops) := by
  induction ops generalizing c with
  | nil => exact .refl key channel n c
  | cons op ops ih =>
      rw [sparedBy, Bool.and_eq_true] at hops
      have hfirst := tracks_operate hc hhas hn hops.1
      exact hfirst.trans (ih (hfirst.numbered hc) (hfirst.has hhas) (hfirst.spare hn) hops.2)

/-! ## Forward -/

/-- Some number at most half a round after `expected_seq` is spare and not named by the
packet. -/
def LeavesRoom (c : Ctx) (key : Mac) (body : Body) : Prop :=
  ∀ channel, body.channel? = some channel → ∃ n,
    2 * (n - (c.peer key).expectedSeq channel).toNat ≤ 2 ^ 32 ∧
      c.spare key channel n = true ∧
        body.names channel ((c.peer key).expectedSeq channel) n = false

/-- The peer is no longer ready, or `expected_seq` of each channel is where it was or serially
after it. -/
def MovesForward (key : Mac) (c c' : Ctx) : Prop :=
  (c'.peer key).ready = false ∨ ∀ channel,
    (c'.peer key).expectedSeq channel = (c.peer key).expectedSeq channel ∨
      seqBefore ((c.peer key).expectedSeq channel) ((c'.peer key).expectedSeq channel) = true

theorem Calm.movesForward {key : Mac} {c c' : Ctx} (h : Calm c c') : MovesForward key c c' :=
  .inr fun channel => .inl (congrFun (h.expected key) channel)

theorem Works.movesForward {key : Mac} {channel : ℕ} {n : U32} {c c' : Ctx}
    (h : Works key channel {n} c c')
    (hnear : 2 * (n - (c.peer key).expectedSeq channel).toNat ≤ 2 ^ 32) :
    MovesForward key c c' := by
  rcases h with hcalm | ⟨hhas, c₁, hcalm, hrun⟩
  · exact hcalm.movesForward
  · rcases passes_or_unready hrun.steps (hcalm.has hhas) with hpass | hunready
    · obtain ⟨new, -, -, hpast⟩ := hpass.onward
      have hstart := hcalm.expected key
      have hle := (hpast n rfl).le
      rw [hstart] at hle
      refine .inr fun ch => ?_
      by_cases hch : ch = channel
      · subst hch
        rw [seqBefore_iff_before]
        exact before_of_gap hnear hle
      · left
        have hslice := hpass.near.slice key ch (by simp [hch])
        have hsame : (c'.peer key).expectedSeq ch = (c₁.peer key).expectedSeq ch :=
          congrArg Slice.expected hslice
        rw [hsame, hstart]
    · exact .inl hunready

/-- A packet of a matching peer that leaves room moves `expected_seq` forward. -/
theorem handleRx_movesForward {c : Ctx} (hc : c.Numbered) {src : Mac} {packet : Packet}
    (now : U32) (hmatch : packet.body.matchesPeer c src = true)
    (hroom : LeavesRoom c (c.keyOf src) packet.body) :
    MovesForward (c.keyOf src) c (handleRx c src packet now).1 := by
  by_cases hmac : packet.srcMac = src
  · cases hbody : packet.body with
    | data rh payload =>
        obtain ⟨n, hnear, hspare, hnames⟩ := hroom rh.channelId (by rw [hbody]; rfl)
        rw [hbody] at hnames
        rw [handleRx, if_neg (not_not.mpr hmac), hbody]
        refine (@works_handleData c src {n} now hc rh payload ?_ ?_).movesForward hnear
        · rintro _ rfl
          exact hspare
        · rintro _ rfl
          exact hnames
    | lost range =>
        obtain ⟨n, hnear, hspare, hnames⟩ := hroom range.channelId (by rw [hbody]; rfl)
        rw [hbody] at hnames
        rw [handleRx, if_neg (not_not.mpr hmac), hbody]
        refine (@works_handleLostPacket c src {n} now hc range ?_ ?_).movesForward hnear
        · rintro _ rfl
          exact hspare
        · rintro _ rfl
          exact hnames
    | _ =>
        refine (calm_of_matches hmatch ?_ ?_).movesForward
        · intro rh payload heq
          exact absurd (hbody.symm.trans heq) (by simp)
        · intro range heq
          exact absurd (hbody.symm.trans heq) (by simp)
  · rw [handleRx, if_pos hmac]
    exact (Calm.refl c).movesForward

/-- From a reachable state: a packet that leaves room moves `expected_seq` forward, and while
one number stays spare no number is handed off twice between two clears. -/
theorem expected_forward {allowed : ℕ → Prop} {c : Ctx} (hc : Reachable allowed c) :
    (∀ src packet now body, handledBody src packet = some body →
      body.matchesPeer c src = true → LeavesRoom c (c.keyOf src) body →
        MovesForward (c.keyOf src) c (handleRxBytes c src packet now).1) ∧
    ∀ key channel n ops new, c.has key → c.spare key channel n = true →
      sparedBy key channel n c ops = true → (c.operates ops).trace = c.trace ++ new →
        Effect.cleared key ∉ new → (handedSeqs key channel new).Nodup := by
  have hnumbered := hc.numbered
  constructor
  · intro src packet now body hbody hmatch hroom
    rcases handleRxBytes_handled src packet now with
      ⟨hnone, -⟩ | ⟨body', sessionId, hbody', hrun⟩
    · rw [hnone] at hbody
      exact absurd hbody (by simp)
    · obtain rfl : body = body' := Option.some.inj (hbody.symm.trans hbody')
      rw [hrun]
      exact handleRx_movesForward hnumbered now hmatch hroom
  · intro key channel n ops new hhas hspare hops htrace hclear
    obtain ⟨new', hnew', hpast⟩ := (tracks_operates ops hnumbered hhas hspare hops).onward hhas
    obtain rfl : new = new' := List.append_cancel_left (htrace.symm.trans hnew')
    exact (hpast hclear).nodup

/-! ## A LOST packet that names the whole round -/

theorem handledBody_buildPacket {mac : Mac} {type : BitVec 8} {sessionId : U32}
    {payload : List UInt8} {body : Body} (hlen : payload.length ≤ payloadMax)
    (hbody : readBody type payload = .ok body) :
    handledBody mac (buildPacket mac type sessionId payload) = some body := by
  have htype : (plainHdr mac type sessionId payload.length).type = type := rfl
  rw [handledBody, packetValid_buildPacket _ _ _ hlen]
  simp only [htype, hbody]
  exact if_neg fun hne => hne rfl

theorem handleRxBytes_buildPacket {mac : Mac} {type : BitVec 8} {sessionId : U32}
    {payload : List UInt8} {body : Body} (hlen : payload.length ≤ payloadMax)
    (hbody : readBody type payload = .ok body) (c : Ctx) (now : U32) :
    handleRxBytes c mac (buildPacket mac type sessionId payload) now =
      handleRx c mac { sessionId := sessionId, srcMac := mac, body := body } now := by
  have htype : (plainHdr mac type sessionId payload.length).type = type := rfl
  rw [handleRxBytes, packetValid_buildPacket _ _ _ hlen]
  simp only [htype, hbody]
  exact if_neg fun hne => hne rfl

/-- The payload of the HELLO that greets the root. -/
def helloPayload : List UInt8 :=
  List.replicate 20 0 ++ toLeBytes 2 (1 : BitVec 16) ++ toLeBytes 2 (224 : BitVec 16) ++
    toLeBytes 2 (8 : BitVec 16) ++ toLeBytes 2 (32 : BitVec 16) ++
      toLeBytes 4 requiredCapabilities ++ toLeBytes 4 (9 : U32) ++ toLeBytes 4 (0 : U32)

theorem reachable_greetedRoot : Reachable (fun _ => True) greetedRoot := by
  refine ⟨smallConfig true 0x10, 7, 1, _,
    [(.receive 0x11 (buildPacket 0x11 typeReliableHello 9 helloPayload), 1)],
    init_smallConfig true 0x10 (by decide), ?_, ?_⟩
  · intro op hop
    rw [List.mem_singleton.mp hop]
    trivial
  · exact (congrArg Prod.fst (handleRxBytes_buildPacket (by decide) (by rfl) _ 1)).symm

/-- A LOST announcement of the node for channel 3. -/
def lostNotice (first last : U32) : LostPayload where
  channelId := 3
  reason := .overflow
  rsv := 0
  rootSessionId := 7
  nodeSessionId := 9
  seqFirst := first
  seqLast := last
  originMac := 0x11
  targetMac := 0x10

def lostNoticePayload (first last : U32) : List UInt8 :=
  toLeBytes 1 (3 : BitVec 8) ++ toLeBytes 1 (1 : BitVec 8) ++ toLeBytes 2 (0 : BitVec 16) ++
    toLeBytes 4 (7 : U32) ++ toLeBytes 4 (9 : U32) ++ toLeBytes 4 first ++ toLeBytes 4 last ++
      toLeBytes 6 (0x11 : Mac) ++ toLeBytes 6 (0x10 : Mac)

/-- The packet with the announcement. -/
def lostNoticeBytes (first last : U32) : List UInt8 :=
  buildPacket 0x11 typeReliableLost 9 (lostNoticePayload first last)

/-- Frame 1 of the node on channel 3. -/
def nodeFrame : TxSlot :=
  { oneByteFrame 0x11 0 7 with
    rh := { (oneByteFrame 0x11 0 7).rh with targetMac := 0x10 } }

def nodeFrameBytes : List UInt8 :=
  nodeFrame.bytes (smallConfig false 0x11)

theorem nodeFrame_encodable : nodeFrame.rh.Encodable := by
  constructor
  · exact (by decide : 3 < 2 ^ 8)
  · exact (by decide : 1 < 2 ^ 8)
  · exact (by decide : 1 < 2 ^ 8)
  · exact (by decide : 1 < 2 ^ 16)
  · exact (by decide : 0 < 2 ^ 16)

theorem handledBody_nodeFrameBytes :
    handledBody 0x11 nodeFrameBytes = some (.data nodeFrame.rh [1]) :=
  @handledBody_bytes (smallConfig false 0x11) nodeFrame nodeFrame_encodable (by decide)

theorem handleRxBytes_nodeFrameBytes (c : Ctx) (now : U32) :
    handleRxBytes c 0x11 nodeFrameBytes now =
      handleRx c 0x11 (nodeFrame.packet (smallConfig false 0x11)) now :=
  @handleRxBytes_bytes (smallConfig false 0x11) nodeFrame nodeFrame_encodable (by decide) c now

/-- The LOST packet of a peer in good standing moves `expected_seq` from 1 back to 0; and
after frame 1 was handed off, one moves it from 2 back to 1, so that the frame is handed off
again. -/
theorem lostNotice_moves_back :
    Reachable (fun _ => True) greetedRoot ∧
    handledBody 0x11 (lostNoticeBytes 1 0xFFFFFFFF) = some (.lost (lostNotice 1 0xFFFFFFFF)) ∧
    (Body.lost (lostNotice 1 0xFFFFFFFF)).matchesPeer greetedRoot 0x11 = true ∧
    ¬MovesForward 0x11 greetedRoot
      (handleRxBytes greetedRoot 0x11 (lostNoticeBytes 1 0xFFFFFFFF) 2).1 ∧
    ∃ new, (greetedRoot.operates [(.receive 0x11 nodeFrameBytes, 2),
        (.receive 0x11 (lostNoticeBytes 2 0), 3),
        (.receive 0x11 nodeFrameBytes, 4)]).trace = greetedRoot.trace ++ new ∧
      Effect.cleared 0x11 ∉ new ∧ handedSeqs 0x11 3 new = [1, 1] := by
  have hback : readBody typeReliableLost (lostNoticePayload 1 0xFFFFFFFF) =
      .ok (.lost (lostNotice 1 0xFFFFFFFF)) := by rfl
  have hagain : readBody typeReliableLost (lostNoticePayload 2 0) =
      .ok (.lost (lostNotice 2 0)) := by rfl
  refine ⟨reachable_greetedRoot, handledBody_buildPacket (by decide) hback, by decide +kernel,
    ?_, ?_⟩
  · rw [lostNoticeBytes, handleRxBytes_buildPacket (by decide) hback]
    rintro (hunready | hforward)
    · exact absurd hunready (by decide +kernel)
    · exact absurd (hforward 3) (by decide +kernel)
  · have hrun : greetedRoot.operates [(.receive 0x11 nodeFrameBytes, 2),
        (.receive 0x11 (lostNoticeBytes 2 0), 3), (.receive 0x11 nodeFrameBytes, 4)] =
          (handleRx (handleRx (handleRx greetedRoot 0x11
            (nodeFrame.packet (smallConfig false 0x11)) 2).1 0x11
              { sessionId := 9, srcMac := 0x11, body := .lost (lostNotice 2 0) } 3).1 0x11
                (nodeFrame.packet (smallConfig false 0x11)) 4).1 := by
      simp only [Ctx.operates, List.foldl_cons, List.foldl_nil, Ctx.operate,
        handleRxBytes_nodeFrameBytes, lostNoticeBytes]
      rw [handleRxBytes_buildPacket (by decide) hagain]
    rw [hrun]
    refine ⟨_, (List.prefix_iff_eq_append.mp ?_).symm, ?_, ?_⟩
    · decide +kernel
    · decide +kernel
    · decide +kernel

theorem expected_forward_nodeFrame :
    MovesForward 0x11 greetedRoot (handleRxBytes greetedRoot 0x11 nodeFrameBytes 2).1 ∧
      (handedSeqs 0x11 3
        ((greetedRoot.operates [(.receive 0x11 nodeFrameBytes, 2)]).trace.drop
          greetedRoot.trace.length)).Nodup := by
  obtain ⟨hforward, honce⟩ := expected_forward reachable_greetedRoot
  have hspare : greetedRoot.spare 0x11 3 100 = true := by decide +kernel
  have hrun : greetedRoot.operates [(.receive 0x11 nodeFrameBytes, 2)] =
      (handleRx greetedRoot 0x11 (nodeFrame.packet (smallConfig false 0x11)) 2).1 :=
    congrArg Prod.fst (handleRxBytes_nodeFrameBytes greetedRoot 2)
  constructor
  · refine hforward 0x11 nodeFrameBytes 2 _ handledBody_nodeFrameBytes (by decide +kernel) ?_
    intro channel hchannel
    obtain rfl := Option.some.inj hchannel
    exact ⟨100, by decide +kernel, hspare, by decide +kernel⟩
  · have hhas : greetedRoot.has 0x11 := by
      rw [Ctx.has]
      decide +kernel
    refine honce 0x11 3 100 [(.receive 0x11 nodeFrameBytes, 2)] _ hhas hspare
      ?_ (List.prefix_iff_eq_append.mp ?_).symm ?_
    · simp only [sparedBy, Operation.spares, handledBody_nodeFrameBytes]
      decide +kernel
    · rw [hrun]
      decide +kernel
    · rw [hrun]
      decide +kernel

end KeemashCore.Rel
