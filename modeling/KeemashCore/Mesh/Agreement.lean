import KeemashCore.Mesh.Submit

/-!
# Frames that the other side takes

The checks of `packet_valid` and `handle_data` against the frames that
`keemash_rel_submit` builds and `retransmit_slot` rewrites.  The two sides agree except
about fragmented messages on the TIME channel: the sender marks each fragment LATEST and
the receiver refuses a LATEST frame that is not a whole message.
-/

namespace KeemashCore.Rel

open SlotTable

/-! ## The receiver's checks -/

/-- `handle_data` refuses a LATEST frame of another channel or of a fragmented message. -/
def latestRefused (rh : ReliableHdr) : Bool :=
  rh.flags &&& flagLatest != 0 && (rh.channelId != channelTime || rh.fragmentCount != 1)

/-- The context in which `handle_data` compares the number with `expected_seq`. -/
def heardData (r : Ctx) (key : Mac) (rh : ReliableHdr) (now : U32) : Ctx :=
  let c := r.modPeer key (Peer.heardData rh now)
  if rh.flags &&& flagLatest ≠ 0 ∧
      seqBefore ((c.peer key).expectedSeq rh.channelId) rh.seq = true
  then latestJump c key rh else c

/-- The packet passes `packet_valid` and every check of `handle_data`, which then delivers,
buffers or acknowledges the frame. -/
def Taken (r : Ctx) (src : Mac) (packet : List UInt8) (now : U32) : Prop :=
  ∃ h bytes rh payload key, packetValid packet = some (h, bytes) ∧ h.srcMac = src ∧
    readBody h.type bytes = .ok (.data rh payload) ∧
    dataMalformed r src rh payload = false ∧
    boundPeer (peerFind r src false now).1 (peerFind r src false now).2 rh.rootSessionId
      rh.nodeSessionId = some key ∧
    latestRefused rh = false ∧
    handleRxBytes r src packet now =
      acceptData (heardData (peerFind r src false now).1 key rh now) key rh payload now

/-- A receiver that is ready under the binding of the sender's record. -/
structure InSync (c : Ctx) (key : Mac) (r : Ctx) : Prop where
  target : c.peerSendMac key = r.cfg.localMac
  ready : (r.peer (r.keyOf c.cfg.localMac)).ready = true
  root : (r.peer (r.keyOf c.cfg.localMac)).rootSessionId = (c.peer key).rootSessionId
  node : (r.peer (r.keyOf c.cfg.localMac)).nodeSessionId = (c.peer key).nodeSessionId

/-- What `handle_data` does with a frame of a bound peer that is not malformed. -/
theorem handleData_bound {r : Ctx} {src key : Mac} {rh : ReliableHdr} {payload : List UInt8}
    {now : U32} (hformed : dataMalformed r src rh payload = false)
    (hbound : boundPeer (peerFind r src false now).1 (peerFind r src false now).2
      rh.rootSessionId rh.nodeSessionId = some key) :
    handleData r src rh payload now =
      if latestRefused rh then
        ((peerFind r src false now).1.modPeer key (Peer.heardData rh now), .invalidArg)
      else
        acceptData (heardData (peerFind r src false now).1 key rh now) key rh payload now := by
  rw [handleData, if_neg (by simp [hformed])]
  simp only [hbound]
  by_cases hlatest : rh.flags &&& flagLatest = 0
  · have hnot : latestRefused rh = false := by simp [latestRefused, hlatest]
    simp only [hnot, heardData, hlatest, ne_eq, not_true_eq_false, false_and, if_false,
      Bool.false_eq_true]
  · by_cases hrefused : rh.channelId ≠ channelTime ∨ rh.fragmentCount ≠ 1
    · have hyes : latestRefused rh = true := by
        rw [latestRefused, Bool.and_eq_true, bne_iff_ne, Bool.or_eq_true, bne_iff_ne,
          bne_iff_ne]
        exact ⟨hlatest, hrefused⟩
      rw [if_pos hlatest, if_pos hrefused, hyes, if_pos rfl]
    · have hnot : latestRefused rh = false := by
        rw [← Bool.not_eq_true, latestRefused, Bool.and_eq_true, Bool.or_eq_true,
          bne_iff_ne, bne_iff_ne, bne_iff_ne]
        exact fun h => hrefused h.2
      rw [if_pos hlatest, if_neg hrefused]
      simp only [hnot, heardData, hlatest, ne_eq, not_false_eq_true, true_and,
        Bool.false_eq_true, if_false]
      split
      · rfl
      · rfl

/-! ## The sender's frames -/

theorem submitFlags_fragment (channel priority fragments : ℕ) :
    submitFlags channel priority fragments &&& flagFragment = 0 ↔ fragments ≤ 1 := by
  rw [submitFlags]
  by_cases hfragments : fragments > 1
  · rw [if_pos hfragments]
    refine ⟨fun h => absurd h ?_, fun h => absurd h (by omega)⟩
    split
    · split
      · decide
      · decide
    · split
      · decide
      · decide
  · rw [if_neg hfragments]
    refine ⟨fun _ => by omega, fun _ => ?_⟩
    split
    · split
      · decide
      · decide
    · split
      · decide
      · decide

/-- The two slots hold the same frame, apart from the time and the REPLAY flag. -/
structure SameFrame (slot slot' : TxSlot) : Prop where
  session : slot'.sessionId = slot.sessionId
  payload : slot'.payload = slot.payload
  header : ∃ flags txMs, slot'.rh = { slot.rh with flags := flags, txMs := txMs } ∧
    ∀ mask, flagReplay &&& mask = 0 → flags &&& mask = slot.rh.flags &&& mask

theorem SameFrame.refl (slot : TxSlot) : SameFrame slot slot :=
  ⟨rfl, rfl, slot.rh.flags, slot.rh.txMs, rfl, fun _ _ => rfl⟩

theorem SameFrame.replayed {slot slot' : TxSlot} (h : SameFrame slot slot') (now : U32) :
    SameFrame slot (slot'.replayed now) := by
  obtain ⟨hsession, hpayload, flags, txMs, hrh, hflags⟩ := h
  refine ⟨hsession, hpayload, flags ||| flagReplay, now, ?_, ?_⟩
  · rw [TxSlot.replayed, hrh]
  · intro mask hmask
    rw [← hflags mask hmask, BitVec.and_or_distrib_right, hmask]
    exact BitVec.or_zero

/-- `retransmit_slot`, called any number of times, leaves the frame what it was. -/
theorem sameFrame_replays (slot : TxSlot) (times : List U32) :
    SameFrame slot (times.foldl TxSlot.replayed slot) := by
  have hrun (slot' : TxSlot) (h : SameFrame slot slot') :
      SameFrame slot (times.foldl TxSlot.replayed slot') := by
    induction times generalizing slot' with
    | nil => exact h
    | cons now times ih => exact ih _ (h.replayed now)
  exact hrun slot (.refl slot)

section Frames

variable {c : Ctx} {key : Mac} {channel priority fragments k : ℕ} {payload : List UInt8}
variable {streamId seq now : U32} {slot : TxSlot}

theorem length_chunk_le (payload : List UInt8) (k : ℕ) :
    ((payload.drop (k * reliableInnerMax)).take reliableInnerMax).length ≤
      reliableInnerMax :=
  List.length_take_le _ _

/-- The header of a frame of the message, after any retransmissions. -/
theorem SameFrame.rh_eq (h : SameFrame (submitSlot c key channel payload priority fragments k
    streamId seq now) slot) :
    slot.rh.channelId = channel ∧ slot.rh.priority = priority ∧
      slot.rh.fragmentCount = fragments ∧ slot.rh.fragmentIndex = k ∧
      slot.rh.payloadLen = slot.payload.length ∧ slot.payload.length ≤ reliableInnerMax ∧
      slot.rh.rootSessionId = (c.peer key).rootSessionId ∧
      slot.rh.nodeSessionId = (c.peer key).nodeSessionId ∧
      slot.rh.originMac = c.cfg.localMac ∧ slot.rh.targetMac = c.peerSendMac key ∧
      (slot.rh.flags &&& flagFragment = 0 ↔ fragments ≤ 1) ∧
      (slot.rh.flags &&& flagLatest = 0 ↔ channel ≠ channelTime) := by
  obtain ⟨-, hpayload, flags, txMs, hrh, hflags⟩ := h
  have hfragment := hflags flagFragment (by decide)
  have hlatest := hflags flagLatest (by decide)
  rw [hrh, hpayload, hfragment, hlatest]
  refine ⟨rfl, rfl, rfl, rfl, rfl, length_chunk_le payload k, rfl, rfl, rfl, rfl, ?_, ?_⟩
  · exact submitFlags_fragment channel priority fragments
  · exact submitFlags_latest channel priority fragments

/-- An in-sync receiver takes the frame, or it is a fragment of a TIME message. -/
theorem SameFrame.taken_iff (h : SameFrame (submitSlot c key channel payload priority fragments
      k streamId seq now) slot) (hchannel : 0 < channel) (hlast : channel < channelCount)
    (hpriority : priority ≤ priorityControl) (hfragments : fragments ≤ reliableMaxFragments)
    (hk : k < fragments) {r : Ctx} (hr : InSync c key r) (later : U32) :
    (Taken r c.cfg.localMac (slot.bytes c.cfg) later ↔ channel ≠ channelTime ∨ fragments = 1) ∧
      (¬(channel ≠ channelTime ∨ fragments = 1) →
        (handleRxBytes r c.cfg.localMac (slot.bytes c.cfg) later).2 = .invalidArg) := by
  obtain ⟨hid, hprio, hcount, hindex, hlen, hmax, hroot, hnode, horigin, htarget, hfragment,
    hlatest⟩ := h.rh_eq
  have hchannels : channelCount = 10 := rfl
  have hcontrol : priorityControl = 4 := rfl
  have hinner : reliableInnerMax = 152 := rfl
  have hsixteen : reliableMaxFragments = 16 := rfl
  have hencodable : slot.rh.Encodable := by
    constructor
    · omega
    · omega
    · omega
    · omega
    · omega
  have hformed : dataMalformed r c.cfg.localMac slot.rh slot.payload = false := by
    simp only [dataMalformed, Bool.or_eq_false_iff, Bool.and_eq_false_iff, beq_eq_false_iff_ne,
      bne_eq_false_iff_eq, decide_eq_false_iff_not]
    refine ⟨⟨⟨⟨⟨⟨⟨⟨⟨?_, ?_⟩, ?_⟩, ?_⟩, ?_⟩, ?_⟩, ?_⟩, ?_⟩, ?_⟩, ?_⟩
    · omega
    · omega
    · omega
    · omega
    · omega
    · omega
    · omega
    · by_cases hone : fragments ≤ 1
      · left
        omega
      · right
        exact mt hfragment.mp hone
    · exact horigin
    · exact htarget.trans hr.target
  have hhas : r.has (r.keyOf c.cfg.localMac) := by
    by_contra hmissing
    have hnone : r.peerAt (r.keyOf c.cfg.localMac) = none := by simpa [Ctx.has] using hmissing
    have hready := hr.ready
    rw [Ctx.peer, hnone] at hready
    exact absurd hready (by decide)
  have hbound : boundPeer (peerFind r c.cfg.localMac false later).1
      (peerFind r c.cfg.localMac false later).2 slot.rh.rootSessionId slot.rh.nodeSessionId =
      some (r.keyOf c.cfg.localMac) := by
    rw [peerFind_stored hhas, hroot, hnode]
    simp only [boundPeer]
    rw [peer_noteMac Peer.ready fun _ _ => rfl, peer_noteMac Peer.rootSessionId fun _ _ => rfl,
      peer_noteMac Peer.nodeSessionId fun _ _ => rfl, hr.ready, hr.root, hr.node]
    simp
  have hrefused : latestRefused slot.rh = false ↔ channel ≠ channelTime ∨ fragments = 1 := by
    rw [← Bool.not_eq_true, latestRefused, Bool.and_eq_true, Bool.or_eq_true, bne_iff_ne,
      bne_iff_ne, bne_iff_ne, hid, hcount, ne_eq, hlatest]
    tauto
  obtain ⟨hdr, bytes, hvalid, hmac, -, hbody⟩ := readBody_bytes hencodable hmax c.cfg
  have hrun : handleRxBytes r c.cfg.localMac (slot.bytes c.cfg) later =
      if latestRefused slot.rh then
        ((peerFind r c.cfg.localMac false later).1.modPeer (r.keyOf c.cfg.localMac)
          (Peer.heardData slot.rh later), .invalidArg)
      else
        acceptData (heardData (peerFind r c.cfg.localMac false later).1
          (r.keyOf c.cfg.localMac) slot.rh later) (r.keyOf c.cfg.localMac) slot.rh
          slot.payload later := by
    rw [handleRxBytes_bytes hencodable hmax, handleRx, if_neg (fun h => h rfl)]
    exact handleData_bound hformed hbound
  refine ⟨⟨?_, ?_⟩, ?_⟩
  · rintro ⟨hdr', bytes', rh, data, key', hvalid', -, hbody', -, -, htaken, -⟩
    rw [hvalid] at hvalid'
    obtain ⟨rfl, rfl⟩ := Prod.mk.inj (Option.some.inj hvalid')
    rw [hbody] at hbody'
    obtain ⟨rfl, rfl⟩ := Body.data.inj (Except.ok.inj hbody')
    exact hrefused.mp htaken
  · intro hcond
    have htaken := hrefused.mpr hcond
    refine ⟨hdr, bytes, slot.rh, slot.payload, _, hvalid, hmac, hbody, hformed, hbound, htaken,
      ?_⟩
    rw [hrun, htaken]
    rfl
  · intro hcond
    have hyes : latestRefused slot.rh = true := by
      rw [← Bool.not_eq_false]
      exact fun h => hcond (hrefused.mp h)
    rw [hrun, hyes]
    rfl

end Frames

/-! ## What a submit builds -/

/-- A message is accepted for a ready peer only. -/
theorem ready_of_submit {c : Ctx} {mac : Mac} {channel priority : ℕ} {payload : List UInt8}
    {now : U32} (h : (submit c mac channel payload priority now).2.1 = .ok) :
    (c.peer (c.keyOf mac)).ready = true := by
  by_contra hready
  rw [submit] at h
  split at h
  · simp at h
  · by_cases hhas : c.has (c.keyOf mac)
    · have hnote : ((c.noteMac mac).peer (c.keyOf mac)).ready = false := by
        rw [peer_noteMac Peer.ready fun _ _ => rfl]
        simpa using hready
      rw [peerFind_stored hhas] at h
      simp [hnote] at h
    · rw [peerFind_missing hhas] at h
      simp at h

/-- Every frame of an accepted message, as built or retransmitted any number of times, is
taken by an in-sync receiver, unless the message is a fragmented one on the TIME channel. -/
theorem submit_taken_iff {c : Ctx} {mac : Mac} {channel priority : ℕ} {payload : List UInt8}
    {now : U32} (hchannel : 0 < channel) (hlast : channel < channelCount)
    (hpos : 0 < payload.length) (hmessage : payload.length ≤ messageMax)
    (hpriority : priority ≤ priorityControl)
    (hok : (submit c mac channel payload priority now).2.1 = .ok) :
    ∃ slots streamId, Stored c (submit c mac channel payload priority now).1 (c.keyOf mac)
        channel priority payload now slots streamId ∧
      ∀ j ∈ slots, ∀ slot,
        entryAt (submit c mac channel payload priority now).1.tx j = some slot →
        ∀ (times : List U32) (r : Ctx) (later : U32),
          InSync (submit c mac channel payload priority now).1 (c.keyOf mac) r →
          (Taken r (submit c mac channel payload priority now).1.cfg.localMac
              ((times.foldl TxSlot.replayed slot).bytes
                (submit c mac channel payload priority now).1.cfg) later ↔
            channel ≠ channelTime ∨ payload.length ≤ reliableInnerMax) ∧
          (¬(channel ≠ channelTime ∨ payload.length ≤ reliableInnerMax) →
            (handleRxBytes r (submit c mac channel payload priority now).1.cfg.localMac
              ((times.foldl TxSlot.replayed slot).bytes
                (submit c mac channel payload priority now).1.cfg) later).2 =
              .invalidArg) := by
  have houtcome := @submit_outcome c mac channel priority payload (ready_of_submit hok) hchannel
    hlast hpos hmessage now
  generalize submit c mac channel payload priority now = result at *
  rcases houtcome with ⟨-, slots, streamId, hstored⟩ | ⟨hfull, -⟩
  · refine ⟨slots, streamId, hstored, ?_⟩
    intro j hj slot hslot times r later hr
    obtain ⟨k, hk, hplace⟩ := List.getElem_of_mem hj
    have hbuilt := hstored.stored k j (by rw [List.getElem?_eq_getElem hk, hplace])
    rw [hslot] at hbuilt
    obtain rfl := Option.some.inj hbuilt
    have hmax : reliableInnerMax = 152 := rfl
    have hmessageMax : messageMax = 2432 := rfl
    have hsixteen : reliableMaxFragments = 16 := rfl
    have hcount := hstored.count
    rw [hmax] at hcount
    have hone : slots.length = 1 ↔ payload.length ≤ reliableInnerMax := by
      rw [hmax]
      omega
    have hframes : slots.length ≤ reliableMaxFragments := by omega
    rw [← hone]
    exact (sameFrame_replays _ times).taken_iff hchannel hlast hpriority hframes hk hr later
  · rw [hok] at hfull
    exact absurd hfull (by decide)

/-- The node that introduced itself, after the root's answer. -/
def greetedNode : Ctx :=
  (handleRx (smallCtx false 0x11 9) 0x10
    { sessionId := 7
      srcMac := 0x10
      body := .helloAck
        { profileVersion := 1
          mtu := 224
          capabilities := requiredCapabilities
          rootSessionId := 7
          nodeSessionId := 9
          resetLink := true } } 2).1

/-- A TIME message of 153 bytes. -/
def longTime : List UInt8 :=
  List.replicate 153 0

/-- The message is accepted, and a frame that it was stored as is refused by the node that
is in sync with the root. -/
theorem submit_longTime_refused :
    (submit greetedRoot 0x11 channelTime longTime priorityControl 5).2.1 = .ok ∧
      InSync (submit greetedRoot 0x11 channelTime longTime priorityControl 5).1 0x11
        greetedNode ∧
      ∃ j slot, entryAt greetedRoot.tx j = none ∧
        entryAt (submit greetedRoot 0x11 channelTime longTime priorityControl 5).1.tx j =
          some slot ∧
        (handleRxBytes greetedNode
          (submit greetedRoot 0x11 channelTime longTime priorityControl 5).1.cfg.localMac
          (slot.bytes (submit greetedRoot 0x11 channelTime longTime priorityControl 5).1.cfg)
          6).2 = .invalidArg := by
  have hok : (submit greetedRoot 0x11 channelTime longTime priorityControl 5).2.1 = .ok := by
    decide +kernel
  have hsync : InSync (submit greetedRoot 0x11 channelTime longTime priorityControl 5).1 0x11
      greetedNode :=
    ⟨by decide +kernel, by decide +kernel, by decide +kernel, by decide +kernel⟩
  have houtcome := @submit_outcome greetedRoot 0x11 channelTime priorityControl longTime
    (by decide +kernel) (by decide) (by decide) (by decide +kernel) (by decide +kernel) 5
  refine ⟨hok, hsync, ?_⟩
  rcases houtcome with ⟨-, slots, streamId, hstored⟩ | ⟨hfull, -⟩
  · have htwo : slots.length = 2 := hstored.count.trans (by decide +kernel)
    have hfirst : slots[0]? = some slots[0] := List.getElem?_eq_getElem (by omega)
    have hplace := hstored.stored 0 slots[0] hfirst
    have hfree := hstored.free slots[0] (List.getElem_mem _)
    refine ⟨slots[0], _, ?_, hplace, ?_⟩
    · rw [entryAt, hfree]
      rfl
    · rw [htwo]
      refine ((SameFrame.refl _).taken_iff ?_ ?_ ?_ ?_ ?_ hsync 6).2 ?_
      · decide
      · decide
      · decide
      · decide
      · decide
      · decide
  · rw [hok] at hfull
    exact absurd hfull (by decide)

theorem submit_taken_iff_text :
    ∃ slots streamId, Stored greetedRoot (submit greetedRoot 0x11 3 [1, 2, 3] 4 5).1
        (greetedRoot.keyOf 0x11) 3 4 [1, 2, 3] 5 slots streamId ∧
      ∀ j ∈ slots, ∀ slot, entryAt (submit greetedRoot 0x11 3 [1, 2, 3] 4 5).1.tx j = some slot →
        Taken greetedNode 0x10 (slot.bytes (smallConfig true 0x10)) 6 := by
  obtain ⟨slots, streamId, hstored, htaken⟩ := @submit_taken_iff greetedRoot 0x11 3 4 [1, 2, 3] 5
    (by decide) (by decide) (by decide) (by decide) (by decide) (by decide +kernel)
  refine ⟨slots, streamId, hstored, fun j hj slot hslot => ?_⟩
  exact (htaken j hj slot hslot [] greetedNode 6 ⟨by decide +kernel, by decide +kernel,
    by decide +kernel, by decide +kernel⟩).1.mpr (.inl (by decide))

end KeemashCore.Rel
