import KeemashCore.Mesh.Departures

/-!
# Submitting at an end

`keemash_rel_submit` stores the frames of a message under consecutive numbers, or uses
the numbers up and announces them as lost.  Either way it takes steps of the
selective-repeat sender on its channel.
-/

namespace KeemashCore.Rel

open SlotTable SelectiveRepeat

/-! ## The frames of a message -/

/-- The frames that `keemash_rel_submit` builds for a payload. -/
def messageFrames (channel : ℕ) (streamId : U32) (payload : List UInt8) : List Frame :=
  (List.range (fragmentsOf payload.length)).map
    (submitFrame channel streamId payload (fragmentsOf payload.length))

theorem length_messageFrames (channel : ℕ) (streamId : U32) (payload : List UInt8) :
    (messageFrames channel streamId payload).length = fragmentsOf payload.length := by
  rw [messageFrames, List.length_map, List.length_range]

theorem mem_numbered_messageFrames {channel first : ℕ} {streamId : U32}
    {payload : List UInt8} {x : ℕ × Frame} :
    x ∈ numbered first (messageFrames channel streamId payload) ↔
      ∃ k, k < fragmentsOf payload.length ∧
        x = (first + k, submitFrame channel streamId payload (fragmentsOf payload.length) k) := by
  obtain ⟨n, f⟩ := x
  simp only [numbered, Set.mem_ofPred_eq, messageFrames, List.getElem?_map,
    Option.map_eq_some_iff, Prod.mk.injEq]
  constructor
  · rintro ⟨hle, k, hk, rfl⟩
    obtain ⟨hlt, rfl⟩ := List.getElem?_eq_some_iff.mp hk
    rw [List.length_range] at hlt
    exact ⟨n - first, hlt, by omega, by rw [List.getElem_range]⟩
  · rintro ⟨k, hk, rfl, rfl⟩
    refine ⟨by omega, k, ?_, rfl⟩
    rw [List.getElem?_range (by omega)]
    congr 1
    omega

/-- A payload that may be submitted is cut into at most sixteen frames. -/
theorem fragmentsOf_bounds {len : ℕ} (hpos : 0 < len) (hle : len ≤ messageMax) :
    1 ≤ fragmentsOf len ∧ fragmentsOf len ≤ reliableMaxFragments ∧
      (fragmentsOf len - 1) * reliableInnerMax < len ∧
      len ≤ fragmentsOf len * reliableInnerMax := by
  have hinner : reliableInnerMax = 152 := rfl
  have hmessage : messageMax = 2432 := rfl
  have hmax : reliableMaxFragments = 16 := rfl
  rw [fragmentsOf_eq hle, hinner, hmax]
  omega

theorem submitFrame_valid {payload : List UInt8} (hpos : 0 < payload.length)
    (hle : payload.length ≤ messageMax) (channel : ℕ) (streamId : U32) {i : ℕ}
    (hi : i < fragmentsOf payload.length) :
    (submitFrame channel streamId payload (fragmentsOf payload.length) i).Valid channel := by
  obtain ⟨-, hmax, hlast, -⟩ := fragmentsOf_bounds hpos hle
  constructor
  · rfl
  · rfl
  · exact hi
  · exact hmax
  · rfl
  · exact List.length_take_le _ _
  · intro hmore
    have hinner : reliableInnerMax = 152 := rfl
    simp only [submitFrame, List.length_take, List.length_drop, hinner] at hmore hlast ⊢
    omega

/-! ## Storing a message -/

/-- The slots hold the frames of the payload under the numbers from `first` on. -/
structure MessageSlots (ch : ℕ) (streamId : U32) (payload : List UInt8) (first : ℕ)
    (slots : List TxSlot) : Prop where
  length : slots.length = fragmentsOf payload.length
  hdr : ∀ slot ∈ slots, slot.rh.seq = slot.seq ∧ slot.rh.channelId = ch
  frame : ∀ k slot, slots[k]? = some slot → slot.numbered =
    (first + k, submitFrame ch streamId payload (fragmentsOf payload.length) k)

section

variable {Q : Allow} {ch : ℕ} {near far : Mac} {r : Receiver Frame} {s : Slice} {key : Mac}
  {streamId : U32} {payload : List UInt8} {slots : List TxSlot} {first : ℕ}

theorem MessageSlots.numbered (h : MessageSlots ch streamId payload first slots) :
    {x | ∃ slot ∈ slots, slot.numbered = x} =
      SelectiveRepeat.numbered first (messageFrames ch streamId payload) := by
  ext x
  rw [mem_numbered_messageFrames, Set.mem_ofPred_eq]
  constructor
  · rintro ⟨slot, hslot, rfl⟩
    obtain ⟨k, hk⟩ := List.mem_iff_getElem?.mp hslot
    have hlt := (List.getElem?_eq_some_iff.mp hk).choose
    exact ⟨k, h.length ▸ hlt, h.frame k slot hk⟩
  · rintro ⟨k, hk, rfl⟩
    have hlt : k < slots.length := h.length ▸ hk
    have hget := List.getElem?_eq_getElem hlt
    exact ⟨slots[k], List.getElem_mem hlt, h.frame k _ hget⟩

/-- What the slot loop and the success exit append to the trace. -/
def storeEffects (key : Mac) (ch : ℕ) (streamId first : U32) (payload : List UInt8)
    (slots : List TxSlot) : List Effect :=
  slots.map (fun slot => .queued key slot.rh slot.payload) ++
    [.accepted key ch streamId first payload]

/-- The slice after a message was stored. -/
def Slice.store (s : Slice) (key : Mac) (ch : ℕ) (streamId : U32) (payload : List UInt8)
    (slots : List TxSlot) : Slice :=
  { s with
    next := s.next + BitVec.ofNat 32 slots.length
    tx := (slots : Multiset TxSlot) + s.tx
    log := s.log ++ storeEffects key ch streamId s.next payload slots }

/-- Storing effects are seen by the sender's two logs only. -/
theorem logged_storeEffects {α : Type} (g : Effect → Option α) (first : U32)
    (hqueued : ∀ rh payload, g (.queued key rh payload) = none)
    (haccepted : ∀ payload, g (.accepted key ch streamId first payload) = none) :
    logged g (storeEffects key ch streamId first payload slots) = ∅ := by
  ext a
  simp [logged, storeEffects, hqueued, haccepted]

theorem sender_store (h : MessageSlots ch streamId payload s.next.toNat slots)
    (hroom : s.next.toNat + slots.length < 2 ^ 32) :
    (s.store key ch streamId payload slots).sender =
      { s.sender with
        next := s.sender.next + (messageFrames ch streamId payload).length
        sent := s.sender.sent ∪
          SelectiveRepeat.numbered s.sender.next (messageFrames ch streamId payload)
        tx := s.sender.tx ∪
          SelectiveRepeat.numbered s.sender.next (messageFrames ch streamId payload) } := by
  have hnext : (s.store key ch streamId payload slots).next.toNat =
      s.next.toNat + (messageFrames ch streamId payload).length := by
    rw [length_messageFrames, ← h.length]
    simp only [Slice.store, BitVec.toNat_add, BitVec.toNat_ofNat]
    omega
  have hstored : logged Effect.stored? (storeEffects key ch streamId s.next payload slots) =
      SelectiveRepeat.numbered s.next.toNat (messageFrames ch streamId payload) := by
    rw [← h.numbered]
    ext x
    simp only [logged, storeEffects, List.mem_append, List.mem_map, List.mem_singleton,
      Set.mem_ofPred_eq]
    constructor
    · rintro ⟨e, ⟨slot, hslot, rfl⟩ | rfl, heq⟩
      · refine ⟨slot, hslot, ?_⟩
        rw [TxSlot.numbered, ← (h.hdr slot hslot).1]
        exact Option.some.inj heq
      · exact absurd heq (by simp [Effect.stored?])
    · rintro ⟨slot, hslot, rfl⟩
      refine ⟨_, .inl ⟨slot, hslot, rfl⟩, ?_⟩
      rw [Effect.stored?, (h.hdr slot hslot).1]
      rfl
  have htx : {x | ∃ slot ∈ (s.store key ch streamId payload slots).tx, slot.numbered = x} =
      {x | ∃ slot ∈ s.tx, slot.numbered = x} ∪
        SelectiveRepeat.numbered s.next.toNat (messageFrames ch streamId payload) := by
    rw [← h.numbered]
    ext x
    simp only [Slice.store, Multiset.mem_add, Multiset.mem_coe, or_and_right, exists_or,
      Set.mem_union, Set.mem_ofPred_eq, or_comm]
  have hother {α : Type} (g : Effect → Option α)
      (hqueued : ∀ rh payload, g (.queued key rh payload) = none)
      (haccepted : ∀ payload, g (.accepted key ch streamId s.next payload) = none) :
      logged g (s.store key ch streamId payload slots).log = logged g s.log := by
    rw [Slice.store, logged_append, logged_storeEffects g s.next hqueued haccepted,
      Set.union_empty]
  have hsent : logged Effect.stored? (s.store key ch streamId payload slots).log =
      logged Effect.stored? s.log ∪
        SelectiveRepeat.numbered s.next.toNat (messageFrames ch streamId payload) := by
    rw [Slice.store, logged_append, hstored]
  have hdata := hother Effect.data? (fun _ _ => rfl) fun _ => rfl
  have hlosts := hother (Effect.lost? false) (fun _ _ => rfl) fun _ => rfl
  have hlost := hother (Effect.report? .sent) (fun _ _ => rfl) fun _ => rfl
  simp only [Slice.sender, hnext, htx, hsent, hdata, hlosts, hlost]

theorem accepted_store :
    (s.store key ch streamId payload slots).log.filterMap Effect.accepted? =
      s.log.filterMap Effect.accepted? ++ [(s.next.toNat, streamId, payload)] := by
  have hqueued : (slots.map fun slot => Effect.queued key slot.rh slot.payload).filterMap
      Effect.accepted? = [] := by
    rw [List.filterMap_map]
    exact List.filterMap_eq_nil_iff.mpr fun _ _ => rfl
  simp only [Slice.store, storeEffects, List.filterMap_append, hqueued, List.nil_append]
  rfl

/-- The receive path does not see what is stored. -/
theorem recvPart_store :
    (s.store key ch streamId payload slots).recvPart = s.recvPart := by
  have hnone {α : Type} (g : Effect → Option α)
      (hqueued : ∀ rh payload, g (.queued key rh payload) = none)
      (haccepted : ∀ payload, g (.accepted key ch streamId s.next payload) = none) :
      (storeEffects key ch streamId s.next payload slots).filterMap g = [] := by
    rw [List.filterMap_eq_nil_iff]
    intro e he
    rcases List.mem_append.mp he with he | he
    · obtain ⟨slot, -, rfl⟩ := List.mem_map.mp he
      exact hqueued _ _
    · rw [List.mem_singleton.mp he]
      exact haccepted _
  have hset {α : Type} (g : Effect → Option α)
      (hqueued : ∀ rh payload, g (.queued key rh payload) = none)
      (haccepted : ∀ payload, g (.accepted key ch streamId s.next payload) = none) :
      logged g (s.store key ch streamId payload slots).log = logged g s.log := by
    rw [Slice.store, logged_append, logged_storeEffects g s.next hqueued haccepted,
      Set.union_empty]
  have hhanded := hnone Effect.handed? (fun _ _ => rfl) fun _ => rfl
  have hdelivered := hnone Effect.delivered? (fun _ _ => rfl) fun _ => rfl
  have hacks := hset Effect.ack? (fun _ _ => rfl) fun _ => rfl
  have hnacks := hset Effect.nack? (fun _ _ => rfl) fun _ => rfl
  have hdrops := hset (Effect.lost? true) (fun _ _ => rfl) fun _ => rfl
  have hlost := hset (Effect.report? .received) (fun _ _ => rfl) fun _ => rfl
  simp only [Slice.recvPart, Slice.receiver, hacks, hnacks, hdrops, hlost]
  simp only [Slice.store, List.filterMap_append, hhanded, hdelivered, List.append_nil]

/-- Storing announces nothing. -/
theorem not_announces_storeEffects {first : U32} {e : Effect}
    (he : e ∈ storeEffects key ch streamId first payload slots) : e.announces = false := by
  rcases List.mem_append.mp he with he | he
  · obtain ⟨slot, -, rfl⟩ := List.mem_map.mp he
    rfl
  · rw [List.mem_singleton.mp he]
    rfl

theorem reports_store : logged (Effect.report? .sent)
    (s.store key ch streamId payload slots).log = logged (Effect.report? .sent) s.log := by
  rw [Slice.store, logged_append, logged_storeEffects _ _ (fun _ _ => rfl) fun _ => rfl,
    Set.union_empty]

/-- Every frame of a message is part of it. -/
theorem partOf_messageFrames {first : ℕ} {x : ℕ × Frame}
    (hx : x ∈ SelectiveRepeat.numbered first (messageFrames ch streamId payload)) :
    PartOf ch x (first, streamId, payload) := by
  obtain ⟨k, hk, rfl⟩ := mem_numbered_messageFrames.mp hx
  constructor
  · simp [submitFrame]
  · exact hk
  · rfl

/-- Storing a message is a step of the sender. -/
theorem SendOk.store (h : SendOk Q ch near far s) (hpos : 0 < payload.length)
    (hle : payload.length ≤ messageMax)
    (hslots : MessageSlots ch streamId payload s.next.toNat slots)
    (hroom : s.next.toNat + slots.length < 2 ^ 32) :
    Sends Q ch near far r s (s.store key ch streamId payload slots) := by
  obtain ⟨hone, hmax, -, -⟩ := fragmentsOf_bounds hpos hle
  have hsender : (s.store key ch streamId payload slots).sender = _ :=
    sender_store hslots hroom
  have haccepted : (s.store key ch streamId payload slots).log.filterMap
      Effect.accepted? = _ := accepted_store
  have hlength := length_messageFrames ch streamId payload
  have hnext : (s.store key ch streamId payload slots).next.toNat =
      s.next.toNat + fragmentsOf payload.length := by
    have heq := congrArg Sender.next hsender
    rw [← hlength]
    exact heq
  have hspan : ∀ x ∈ SelectiveRepeat.numbered s.sender.next (messageFrames ch streamId payload),
      (linkPolicy Q ch).lo x.1 x.2 = s.sender.next ∧
        (linkPolicy Q ch).hi x.1 x.2 + 1 =
          s.sender.next + (messageFrames ch streamId payload).length := by
    intro x hx
    obtain ⟨k, hk, rfl⟩ := mem_numbered_messageFrames.mp hx
    rw [hlength]
    simp only [linkPolicy, submitFrame]
    omega
  refine ⟨⟨?_, ?_, ?_, ?_, ?_, ?_, ?_, ?_⟩, ?_, recvPart_store, rfl⟩
  · intro slot hslot
    rcases Multiset.mem_add.mp hslot with hnew | hold
    · exact hslots.hdr slot (Multiset.mem_coe.mp hnew)
    · exact h.slots slot hold
  · rw [hsender]
    rintro x (hold | hnew)
    · exact h.valid x hold
    · obtain ⟨k, hk, rfl⟩ := mem_numbered_messageFrames.mp hnew
      exact submitFrame_valid hpos hle ch streamId hk
  · rw [hsender, haccepted]
    rintro x (hold | hnew)
    · obtain ⟨m, hm, hpart⟩ := h.part x hold
      exact ⟨m, List.mem_append_left _ hm, hpart⟩
    · exact ⟨_, List.mem_append_right _ (List.mem_singleton_self _),
        partOf_messageFrames hnew⟩
  · rw [haccepted, List.map_append, List.pairwise_append]
    refine ⟨h.sorted, List.pairwise_singleton _ _, ?_⟩
    intro a ha b hb
    obtain ⟨m, hm, rfl⟩ := List.mem_map.mp ha
    rw [List.map_singleton, List.mem_singleton] at hb
    rw [hb]
    exact h.below m hm
  · rw [haccepted, hnext]
    intro m hm
    rcases List.mem_append.mp hm with hold | hnew
    · exact (h.below m hold).trans_le (Nat.le_add_right _ _)
    · rw [List.mem_singleton.mp hnew]
      exact Nat.lt_add_of_pos_right hone
  · rw [haccepted]
    intro m hm
    rcases List.mem_append.mp hm with hold | hnew
    · exact h.lengths m hold
    · rw [List.mem_singleton.mp hnew]
      exact ⟨hpos, hle⟩
  · intro e he hann
    rcases List.mem_append.mp he with hold | hnew
    · exact h.announced e hold hann
    · rw [not_announces_storeEffects hnew] at hann
      exact absurd hann Bool.false_ne_true
  · intro hlossy
    rw [hsender, reports_store]
    exact h.lossless hlossy
  · rw [hsender]
    exact .single (.submit _ hspan)

end

/-! ## The slot loop on a slice -/

section

variable {c : Ctx} {key : Mac} {channel priority fragments : ℕ} {payload : List UInt8}
  {streamId now : U32}

/-- The slots that the slot loop fills for the fragments `is`, numbered from `first`. -/
def builtSlots (c : Ctx) (key : Mac) (channel : ℕ) (payload : List UInt8)
    (priority fragments : ℕ) (streamId now first : U32) (is : List ℕ) : List TxSlot :=
  is.mapIdx fun k i => submitSlot c key channel payload priority fragments i streamId
    (first + BitVec.ofNat 32 k) now

theorem builtSlots_cons (first : U32) (i : ℕ) (is : List ℕ) :
    builtSlots c key channel payload priority fragments streamId now first (i :: is) =
      submitSlot c key channel payload priority fragments i streamId first now ::
        builtSlots c key channel payload priority fragments streamId now (first + 1) is := by
  rw [builtSlots, List.mapIdx_cons, BitVec.add_zero]
  simp only [builtSlots, add_one_ofNat]

theorem builtSlots_fillOne (first : U32) (i j : ℕ) (is : List ℕ) :
    builtSlots (fillOne c key channel payload priority fragments streamId now i j) key channel
        payload priority fragments streamId now first is =
      builtSlots c key channel payload priority fragments streamId now first is := by
  simp only [builtSlots, submitSlot_fillOne]

theorem submitSlot_isFor (i : ℕ) (seq : U32) :
    (submitSlot c key channel payload priority fragments i streamId seq now).isFor key
      channel = true := by
  simp [submitSlot, TxSlot.isFor]

theorem slice_fillOne (hhas : c.has key) {i j : ℕ} (hj : c.tx[j]? = some none) :
    (fillOne c key channel payload priority fragments streamId now i j).slice key channel =
      { c.slice key channel with
        next := (c.slice key channel).next + 1
        tx := submitSlot c key channel payload priority fragments i streamId
          (c.slice key channel).next now ::ₘ (c.slice key channel).tx
        log := (c.slice key channel).log ++
          [.queued key (submitSlot c key channel payload priority fragments i streamId
            (c.slice key channel).next now).rh (submitSlot c key channel payload priority
              fragments i streamId (c.slice key channel).next now).payload] } := by
  generalize hslot : submitSlot c key channel payload priority fragments i streamId
    (c.slice key channel).next now = slot
  have hbuilt : submitSlot (c.modPeer key (Peer.setNext channel
      ((c.peer key).nextSeq channel + 1))) key channel payload priority fragments i streamId
        ((c.peer key).nextSeq channel) now = slot := by
    rw [submitSlot_modPeer]
    exact hslot
  have hfor : slot.isFor key channel = true := hslot ▸ submitSlot_isFor i _
  have hrh : slot.rh.channelId = channel := by
    rw [← hslot]
    rfl
  have hqueued : (Effect.queued key slot.rh slot.payload).concerns key channel = true := by
    simp [Effect.concerns, hrh]
  have hnext : (c.modPeer key (Peer.setNext channel ((c.peer key).nextSeq channel + 1))).slice
      key channel = { c.slice key channel with next := (c.slice key channel).next + 1 } :=
    slice_modNext (fun _ => rfl) hhas
  have htx : (held (c.tx.set j (some slot))).filter (fun slot => slot.isFor key channel) =
      slot ::ₘ (held c.tx).filter fun slot => slot.isFor key channel := by
    rw [held_set_some slot hj]
    exact Multiset.filter_cons_of_pos _ hfor
  simp only [fillOne, hbuilt]
  rw [slice_emit hqueued]
  change Slice.emit { (c.modPeer key (Peer.setNext channel
      ((c.peer key).nextSeq channel + 1))).slice key channel with
    tx := (held (c.tx.set j (some slot))).filter fun slot => slot.isFor key channel } _ = _
  rw [hnext, htx]
  rfl

/-- What the slot loop does to the slice when as many slots are available as there are
fragments. -/
theorem slice_submitSlots (is : List ℕ) (hhas : c.has key)
    (havail : is.length ≤ txAvailable c key priority) (slots : List ℕ) :
    (submitSlots key channel payload priority fragments streamId now is c slots).1.slice key
        channel =
      { c.slice key channel with
        next := (c.slice key channel).next + BitVec.ofNat 32 is.length
        tx := (builtSlots c key channel payload priority fragments streamId now
          (c.slice key channel).next is : Multiset TxSlot) + (c.slice key channel).tx
        log := (c.slice key channel).log ++
          (builtSlots c key channel payload priority fragments streamId now
            (c.slice key channel).next is).map fun slot =>
              .queued key slot.rh slot.payload } := by
  induction is generalizing c slots with
  | nil =>
      rw [submitSlots]
      simp [builtSlots]
  | cons i is ih =>
      rw [List.length_cons] at havail
      obtain ⟨j, hj⟩ := txAlloc_of_available (by omega : 0 < txAvailable c key priority)
      have hfree : c.tx[j]? = some none := getElem?_of_freeIdx (freeIdx_of_txAlloc hj)
      have hfill : txAvailable c key priority ≤ txAvailable
          (fillOne c key channel payload priority fragments streamId now i j) key priority +
            1 := by
        rw [txAvailable, txAvailable, txUnacked, txUnacked, fillOne_tx]
        exact txAvailable_fill (c := c) rfl hfree
      rw [submitSlots_cons hj, ih (fillOne_has hhas i j) (by omega), slice_fillOne hhas hfree,
        builtSlots_fillOne, builtSlots_cons, List.length_cons]
      simp only [add_one_ofNat, List.map_cons, List.append_assoc, List.singleton_append,
        ← Multiset.cons_coe, Multiset.cons_add, Multiset.add_cons]

theorem latest_submitFlags (channel priority fragments : ℕ) :
    (submitFlags channel priority fragments &&& flagLatest != 0) = (channel == channelTime) := by
  rw [Bool.eq_iff_iff, bne_iff_ne, beq_iff_eq, ne_eq, submitFlags_latest, not_not]

/-- The slots built for all fragments of a message hold its frames. -/
theorem messageSlots_builtSlots {first : U32} (hfragments : fragments = fragmentsOf payload.length)
    (hroom : first.toNat + fragments < 2 ^ 32) :
    MessageSlots channel streamId payload first.toNat
      (builtSlots c key channel payload priority fragments streamId now first
        (List.range fragments)) := by
  constructor
  · rw [builtSlots, List.length_mapIdx, List.length_range, hfragments]
  · intro slot hslot
    obtain ⟨k, hk, rfl⟩ := List.mem_mapIdx.mp hslot
    exact ⟨rfl, rfl⟩
  · intro k slot hk
    rw [builtSlots, List.getElem?_mapIdx, Option.map_eq_some_iff] at hk
    obtain ⟨i, hi, rfl⟩ := hk
    obtain ⟨hlt, rfl⟩ := List.getElem?_eq_some_iff.mp hi
    rw [List.length_range] at hlt
    have hseq : (first + BitVec.ofNat 32 k).toNat = first.toNat + k := by
      rw [BitVec.toNat_add, BitVec.toNat_ofNat]
      omega
    rw [List.getElem_range, TxSlot.numbered]
    simp only [submitSlot, hseq, ReliableHdr.frame, latest_submitFlags, submitFrame, hfragments]

end

/-! ## The two exits at an end -/

section

variable {Q : Allow} {b : Bond} {S : ℕ → Sender Frame} {R : ℕ → Receiver Frame}
  {c c' : Ctx} {ch : ℕ} {mac : Mac} {now : U32}

/-- The packet of a slot of the link is sent. -/
theorem EndOk.transmit (h : EndOk Q b S R c) {j : ℕ} {slot : TxSlot}
    (hj : entryAt c.tx j = some slot) (hpeer : slot.peer = b.key) :
    EndStep Q b S R c (rawSend c b.key (slot.packet c.cfg)).1 := by
  have hheld := mem_held_of_entryAt hj
  have hch := h.channel hheld hpeer
  have hmem : slot ∈ (c.slice b.key slot.channel).tx := mem_slice_tx.mpr ⟨hheld, rfl, hpeer⟩
  have hrh := ((h.send _ hch).slots slot hmem).2
  have hconcerns : (Effect.send b.key (slot.packet c.cfg)).concerns b.key slot.channel =
      true := by
    simp [Effect.concerns, TxSlot.packet, Body.channel?, hrh]
  refine .of_sends h hch ((Touches.refl _ c).emit fun k ch hc => ?_) ?_
  · have hpair : b.key = k ∧ slot.rh.channelId = ch := by
      simpa [Effect.concerns, TxSlot.packet, Body.channel?] using hc
    rw [← hpair.1, ← hpair.2, hrh]
    exact Set.mem_singleton _
  · rw [rawSend, slice_emit hconcerns, TxSlot.packet, h.localMac]
    exact (h.send _ hch).transmit hmem b.key slot.sessionId

/-- The transmission loop. -/
theorem EndOk.submitSend (js : List ℕ) (h : EndOk Q b S R c)
    (hslots : ∀ j ∈ js, ∀ slot, entryAt c.tx j = some slot → slot.peer = b.key)
    (err : EspErr) : EndStep Q b S R c (submitSend b.key js c err).1 := by
  induction js generalizing c err with
  | nil => exact .refl h
  | cons j js ih =>
      have hrest : ∀ k ∈ js, ∀ slot, entryAt c.tx k = some slot → slot.peer = b.key :=
        fun k hk => hslots k (List.mem_cons_of_mem _ hk)
      rw [Rel.submitSend]
      split
      · exact ih h hrest err
      · next slot hslot =>
          have hstep := h.transmit hslot (hslots j List.mem_cons_self slot hslot)
          exact hstep.trans (ih hstep.ok hrest _)

/-- A message that finds no slots uses its numbers up. -/
theorem EndOk.submitOverflow (h : EndOk Q b S R c) (hch : Channel ch) {fragments : ℕ}
    (hpos : 1 ≤ fragments) (hmax : fragments ≤ reliableMaxFragments)
    (hroom : (c.slice b.key ch).next.toNat ≤ 2 ^ 31)
    (hquiet : Quiet Q b.key (submitOverflow c b.key ch fragments ((c.peer b.key).nextSeq ch))) :
    EndStep Q b S R c (submitOverflow c b.key ch fragments ((c.peer b.key).nextSeq ch)) := by
  have hmaxFragments : reliableMaxFragments = 16 := rfl
  have hlossy : Q.lossy := by
    by_contra hno
    refine hquiet.exhausted hno ?_
    simp [Rel.submitOverflow, sendLost, sendLostPacket, sendPacket, rawSend, recordLost,
      notifyEvent, Ctx.emit, Ctx.modPeer, Ctx.setPeers]
  refine .of_sends h hch ((Touches.refl _ c).submitOverflow (Set.mem_singleton _)) ?_
  generalize hlast : (c.slice b.key ch).next + BitVec.ofNat 32 fragments - 1 = last
  have htoNat : last.toNat = (c.slice b.key ch).next.toNat + fragments - 1 := by
    rw [← hlast, BitVec.toNat_sub, BitVec.toNat_add, BitVec.toNat_ofNat,
      show (1 : U32).toNat = 1 from rfl]
    omega
  generalize hf : (fun p : Peer => (p.setNext ch (last + 1)).countOverflow) = f
  have hseen : ∀ p, (f p).seen = (p.setNext ch (last + 1)).seen := by
    intro p
    rw [← hf]
    rfl
  generalize hc₁ : (c.emit (.exhausted b.key)).modPeer b.key f = c₁
  have hslice : c₁.slice b.key ch = { c.slice b.key ch with next := last + 1 } := by
    have hhas : (c.emit (.exhausted b.key)).has b.key := h.has
    rw [← hc₁, slice_modNext hseen hhas, slice_emit_other (e := .exhausted b.key) rfl]
  have hbinding : (c₁.peer b.key).binding = b.binding :=
    (congrArg Slice.binding hslice).trans h.binding
  have hcfg : c₁.cfg = c.cfg := by
    rw [← hc₁]
    rfl
  have hbound : ((recordLost c₁ .sent b.key ch .overflow (c.slice b.key ch).next last
      (last - (c.slice b.key ch).next + 1)).peer b.key).binding = b.binding :=
    (binding_recordLost _ _ _ _ _ _ _ _ _).trans hbinding
  have hproper : Proper b.near b.far b.binding (.send b.key ⟨c₁.localSession, c₁.cfg.localMac,
      .lost (lostPayload (recordLost c₁ .sent b.key ch .overflow (c.slice b.key ch).next last
        (last - (c.slice b.key ch).next + 1)) b.key ch .overflow 0 (c.slice b.key ch).next
        last)⟩) := by
    refine Bond.proper (c := recordLost c₁ .sent b.key ch .overflow (c.slice b.key ch).next
      last (last - (c.slice b.key ch).next + 1)) ?_ ?_ hbound c₁.localSession .overflow 0 _ _
    · exact (congrArg RelConfig.localMac hcfg).trans h.localMac
    · exact (keyOf_congr hcfg _).trans h.keyOf
  obtain ⟨peer, hsent⟩ := slice_sendLost c₁ b.key ch .overflow (c.slice b.key ch).next last
  have hrun : Rel.submitOverflow c b.key ch fragments ((c.peer b.key).nextSeq ch) =
      (sendLost c₁ b.key ch .overflow (c.slice b.key ch).next last).1 := by
    rw [← hc₁, ← hf, ← hlast]
    rfl
  rw [hrun, hsent, hslice]
  have hown : (c.slice b.key ch).binding = b.binding := h.binding
  exact (h.send ch hch).burn hlossy (by omega) (by omega) rfl rfl rfl rfl (hown ▸ hproper)

/-- A message that is let in is stored. -/
theorem EndOk.submitStored (h : EndOk Q b S R c) (hch : Channel ch) {payload : List UInt8}
    {priority : ℕ} (streamId now : U32) (hpos : 0 < payload.length)
    (hle : payload.length ≤ messageMax) (hroom : (c.slice b.key ch).next.toNat ≤ 2 ^ 31)
    (havail : fragmentsOf payload.length ≤ txAvailable c b.key priority) :
    ∃ c' slots, submitSlots b.key ch payload priority (fragmentsOf payload.length) streamId now
        (List.range (fragmentsOf payload.length)) c [] = (c', some slots) ∧
      EndStep Q b S R c
        (c'.emit (.accepted b.key ch streamId ((c.peer b.key).nextSeq ch) payload)) ∧
      ∀ j ∈ slots, ∀ slot, entryAt c'.tx j = some slot → slot.peer = b.key := by
  obtain ⟨hone, hmax, -, -⟩ := fragmentsOf_bounds hpos hle
  have hmaxFragments : reliableMaxFragments = 16 := rfl
  have hslice : (submitSlots b.key ch payload priority (fragmentsOf payload.length) streamId
      now (List.range (fragmentsOf payload.length)) c []).1.slice b.key ch = _ :=
    slice_submitSlots (List.range (fragmentsOf payload.length)) h.has
      (by rw [List.length_range]; exact havail) []
  have htouch : Touches {(b.key, ch)} c (submitSlots b.key ch payload priority
      (fragmentsOf payload.length) streamId now (List.range (fragmentsOf payload.length))
        c []).1 :=
    Touches.submitSlots (Set.mem_singleton _) _ (.refl _ c) (by simp)
  obtain ⟨c', slots, hrun, hfilled⟩ := submitSlots_range ch payload streamId now h.has havail
  rw [hrun] at hslice htouch
  refine ⟨c', slots, hrun, .of_sends h hch (htouch.emit_on (Set.mem_singleton _)
    fun _ _ => rfl) ?_, ?_⟩
  · have hbuilt : MessageSlots ch streamId payload (c.slice b.key ch).next.toNat
        (builtSlots c b.key ch payload priority (fragmentsOf payload.length) streamId now
          (c.slice b.key ch).next (List.range (fragmentsOf payload.length))) :=
      messageSlots_builtSlots rfl (by omega)
    have hlength : (builtSlots c b.key ch payload priority (fragmentsOf payload.length)
        streamId now (c.slice b.key ch).next (List.range (fragmentsOf payload.length))).length =
          (List.range (fragmentsOf payload.length)).length := by
      rw [builtSlots, List.length_mapIdx]
    have hstored : (c'.emit (.accepted b.key ch streamId ((c.peer b.key).nextSeq ch)
        payload)).slice b.key ch = (c.slice b.key ch).store b.key ch streamId payload
          (builtSlots c b.key ch payload priority (fragmentsOf payload.length) streamId now
            (c.slice b.key ch).next (List.range (fragmentsOf payload.length))) := by
      rw [slice_emit (by simp [Effect.concerns]), hslice, Slice.store, storeEffects, hlength]
      simp only [List.append_assoc]
      rfl
    rw [hstored]
    refine (h.send ch hch).store hpos hle hbuilt ?_
    rw [hbuilt.length]
    omega
  · intro j hj slot hslot
    obtain ⟨k, hk⟩ := List.mem_iff_getElem?.mp hj
    have hlt : k < (List.range (fragmentsOf payload.length)).length :=
      hfilled.length ▸ (List.getElem?_eq_some_iff.mp hk).choose
    have hentry := hfilled.stored k _ j (List.getElem?_eq_getElem hlt) hk
    obtain rfl := Option.some.inj (hslot.symm.trans hentry)
    rfl

/-- `keemash_rel_submit` at an end. -/
theorem EndOk.submit (h : EndOk Q b S R c) (hmac : b.Names c mac)
    (hroom : ∀ ch, Channel ch → (c.slice b.key ch).next.toNat ≤ 2 ^ 31) {channel : ℕ}
    {payload : List UInt8} {priority : ℕ}
    (hquiet : Quiet Q b.key (submit c mac channel payload priority now).1) :
    EndStep Q b S R c (submit c mac channel payload priority now).1 := by
  by_cases hargs : payload.length = 0 ∨ channel = 0 ∨ channel ≥ channelCount ∨
      payload.length > messageMax
  · rw [Rel.submit, if_pos hargs]
    exact .refl h
  · have hch : Channel channel := ⟨by omega, by omega⟩
    have hready : (c.peer (c.keyOf mac)).ready = true := by
      rw [hmac.keyOf]
      exact congrArg Binding.ready h.binding
    have hfind : peerFind c mac false now = (c.noteMac mac, some b.key) := by
      rw [← hmac.keyOf]
      exact peerFind_stored (hmac.keyOf ▸ h.has) false now
    have hfound := (h.found hmac false now).1
    rw [hfind] at hfound
    have hcounted := hfound.trans (touches_countSubmit ∅ (c.noteMac mac)
      ((c.noteMac mac).freshStream + 1))
    have hpos : 0 < payload.length := by omega
    have hle : payload.length ≤ messageMax := by omega
    obtain ⟨hone, hmax, -, -⟩ := fragmentsOf_bounds hpos hle
    rw [submit_eq_submitMessage hready hch.1 hch.2 hpos hle, hmac.keyOf] at hquiet ⊢
    generalize (c.noteMac mac).freshStream = streamId at *
    generalize (c.noteMac mac).countSubmit (streamId + 1) = c₁ at *
    have hstart : EndStep Q b S R c c₁ := .of_elsewhere h hcounted.elsewhere_nowhere
    have hroom' : (c₁.slice b.key channel).next.toNat ≤ 2 ^ 31 := by
      rw [hcounted.slice_eq]
      exact hroom channel hch
    rw [submitMessage] at hquiet ⊢
    split
    · next hfull =>
        rw [if_pos hfull] at hquiet
        exact hstart.trans (hstart.ok.submitOverflow hch hone hmax hroom' hquiet)
    · next hfull =>
        rw [if_neg hfull] at hquiet
        obtain ⟨c', slots, hrun, hstored, hpeers⟩ := hstart.ok.submitStored hch streamId now
          hpos hle hroom' (by omega : fragmentsOf payload.length ≤
            txAvailable c₁ b.key priority)
        simp only [hrun]
        split
        · exact (hstart.trans hstored).trans (hstored.ok.submitSend slots hpeers .ok)
        · exact hstart.trans hstored

end

end KeemashCore.Rel
