import KeemashCore.Mesh.Quotas
import KeemashCore.Mesh.Binding
import KeemashCore.Mesh.System

/-!
# What a submit does

A call of `keemash_rel_submit` for a ready peer either stores the whole message, one
fragment in each of as many slots that were free, or stores nothing, uses the numbers up
and announces them as lost.
-/

namespace KeemashCore.Rel

open SlotTable

/-! ## Cutting a message -/

theorem length_pos_of_fragments {payload : List UInt8} (h : 0 < payload.length) :
    0 < (payload.length + reliableInnerMax - 1) / reliableInnerMax := by
  have hmax : reliableInnerMax = 152 := rfl
  rw [hmax]
  omega

theorem fragmentsOf_eq {len : ℕ} (h : len ≤ messageMax) :
    fragmentsOf len = (len + reliableInnerMax - 1) / reliableInnerMax := by
  have hmessage : messageMax = 2432 := rfl
  have hmax : reliableInnerMax = 152 := rfl
  rw [fragmentsOf, hmax]
  omega

theorem submitFlags_latest (channel priority fragments : ℕ) :
    submitFlags channel priority fragments &&& flagLatest = 0 ↔ channel ≠ channelTime := by
  rw [submitFlags]
  by_cases htime : channel = channelTime
  · rw [if_pos htime]
    refine ⟨fun h => absurd h ?_, fun h => absurd htime h⟩
    split
    · split
      · decide
      · decide
    · split
      · decide
      · decide
  · rw [if_neg htime]
    refine ⟨fun _ => htime, fun _ => ?_⟩
    split
    · split
      · decide
      · decide
    · split
      · decide
      · decide

/-- The pieces of a byte string, taken one after the other. -/
theorem flatMap_pieces (payload : List UInt8) (size n : ℕ) :
    ((List.range n).flatMap fun i => (payload.drop (i * size)).take size) =
      payload.take (n * size) := by
  induction n with
  | zero => simp
  | succ n ih =>
      rw [List.range_succ, List.flatMap_append, ih, List.flatMap_singleton, Nat.succ_mul,
        List.take_add]

/-! ## The slot loop -/

/-- What the slot loop has done for the fragments `is`: each stands in the slot of its
place in `slots`, and everything else in the tx table is as it was. -/
structure Filled (c c' : Ctx) (key : Mac) (channel : ℕ) (payload : List UInt8)
    (priority fragments : ℕ) (streamId now : U32) (is slots : List ℕ) : Prop where
  length : slots.length = is.length
  nodup : slots.Nodup
  free : ∀ j ∈ slots, c.tx[j]? = some none
  size : c'.tx.length = c.tx.length
  others : ∀ j, j ∉ slots → entryAt c'.tx j = entryAt c.tx j
  stored : ∀ k i j, is[k]? = some i → slots[k]? = some j →
    entryAt c'.tx j = some (submitSlot c key channel payload priority fragments i streamId
      ((c.peer key).nextSeq channel + BitVec.ofNat 32 k) now)
  next : (c'.peer key).nextSeq channel =
    (c.peer key).nextSeq channel + BitVec.ofNat 32 is.length
  built : ∀ i seq, submitSlot c' key channel payload priority fragments i streamId seq now =
    submitSlot c key channel payload priority fragments i streamId seq now

section Filled

variable {c : Ctx} {key : Mac} {channel priority fragments : ℕ} {payload : List UInt8}
variable {streamId now : U32}

theorem add_one_ofNat (seq : U32) (k : ℕ) :
    seq + 1 + BitVec.ofNat 32 k = seq + BitVec.ofNat 32 (k + 1) := by
  rw [BitVec.add_assoc]
  congr 1
  apply BitVec.eq_of_toNat_eq
  simp [BitVec.toNat_add, Nat.add_comm]

/-- The context after one turn of the loop. -/
def fillOne (c : Ctx) (key : Mac) (channel : ℕ) (payload : List UInt8)
    (priority fragments : ℕ) (streamId now : U32) (i j : ℕ) : Ctx :=
  let seq := (c.peer key).nextSeq channel
  let c := c.modPeer key (Peer.setNext channel (seq + 1))
  let slot := submitSlot c key channel payload priority fragments i streamId seq now
  (c.setTx (c.tx.set j (some slot))).emit (.queued key slot.rh slot.payload)

theorem submitSlots_cons {i j : ℕ} {is slots : List ℕ}
    (h : txAlloc c key priority = some j) :
    submitSlots key channel payload priority fragments streamId now (i :: is) c slots =
      submitSlots key channel payload priority fragments streamId now is
        (fillOne c key channel payload priority fragments streamId now i j)
        (slots ++ [j]) := by
  simp only [submitSlots, h, fillOne]

/-- The frame that is built depends on the binding of the record only. -/
theorem submitSlot_congr {c' : Ctx} (hcfg : c'.cfg = c.cfg)
    (hsession : c'.localSession = c.localSession)
    (hroot : (c'.peer key).rootSessionId = (c.peer key).rootSessionId)
    (hnode : (c'.peer key).nodeSessionId = (c.peer key).nodeSessionId)
    (hremote : (c'.peer key).remoteMac = (c.peer key).remoteMac) (i : ℕ) (seq : U32) :
    submitSlot c' key channel payload priority fragments i streamId seq now =
      submitSlot c key channel payload priority fragments i streamId seq now := by
  rw [submitSlot, submitSlot, Ctx.peerSendMac, Ctx.peerSendMac, hcfg, hsession, hroot, hnode,
    hremote]

theorem submitSlot_modPeer (seq seq' : U32) (i : ℕ) :
    submitSlot (c.modPeer key (Peer.setNext channel seq')) key channel payload priority
        fragments i streamId seq now =
      submitSlot c key channel payload priority fragments i streamId seq now := by
  have hmac : ∀ p, (Peer.setNext channel seq' p).mac = p.mac := fun _ => rfl
  apply submitSlot_congr
  · rfl
  · rfl
  · exact peer_modPeer_field Peer.rootSessionId hmac (fun _ => rfl) key
  · exact peer_modPeer_field Peer.nodeSessionId hmac (fun _ => rfl) key
  · exact peer_modPeer_field Peer.remoteMac hmac (fun _ => rfl) key

theorem submitSlot_fillOne (seq : U32) (i i' j : ℕ) :
    submitSlot (fillOne c key channel payload priority fragments streamId now i' j) key
        channel payload priority fragments i streamId seq now =
      submitSlot c key channel payload priority fragments i streamId seq now := by
  refine Eq.trans ?_ (submitSlot_modPeer seq ((c.peer key).nextSeq channel + 1) i)
  exact submitSlot_congr rfl rfl rfl rfl rfl i seq

theorem fillOne_has (h : c.has key) (i j : ℕ) :
    (fillOne c key channel payload priority fragments streamId now i j).has key :=
  (has_modPeer (c := c) (f := Peer.setNext channel ((c.peer key).nextSeq channel + 1))
    (fun _ => rfl) key).mpr h

theorem fillOne_next (h : c.has key) (i j : ℕ) :
    ((fillOne c key channel payload priority fragments streamId now i j).peer key).nextSeq
        channel = (c.peer key).nextSeq channel + 1 := by
  have hpeer : (fillOne c key channel payload priority fragments streamId now i j).peer key =
      (c.modPeer key (Peer.setNext channel ((c.peer key).nextSeq channel + 1))).peer key :=
    rfl
  have hmac : ∀ p, (Peer.setNext channel ((c.peer key).nextSeq channel + 1) p).mac = p.mac :=
    fun _ => rfl
  rw [hpeer, peer_modPeer_self hmac h]
  exact Function.update_self _ _ _

theorem fillOne_tx (i j : ℕ) :
    (fillOne c key channel payload priority fragments streamId now i j).tx =
      c.tx.set j (some (submitSlot c key channel payload priority fragments i streamId
        ((c.peer key).nextSeq channel) now)) := by
  rw [← submitSlot_modPeer ((c.peer key).nextSeq channel)
    ((c.peer key).nextSeq channel + 1) i]
  rfl

/-- With as many slots available as there are fragments, the loop fills one for each. -/
theorem submitSlots_filled (is : List ℕ) (hhas : c.has key)
    (havail : is.length ≤ txAvailable c key priority) (slots : List ℕ) :
    ∃ c' added, submitSlots key channel payload priority fragments streamId now is c slots =
        (c', some (slots ++ added)) ∧
      Filled c c' key channel payload priority fragments streamId now is added := by
  induction is generalizing c slots with
  | nil =>
      refine ⟨c, [], by rw [submitSlots, List.append_nil], rfl, List.nodup_nil, ?_, rfl,
        fun _ _ => rfl, ?_, ?_, fun _ _ => rfl⟩
      · simp
      · simp
      · simp
  | cons i is ih =>
      rw [List.length_cons] at havail
      have hpos : 0 < txAvailable c key priority := by omega
      obtain ⟨j, hj⟩ := txAlloc_of_available hpos
      have hfree : c.tx[j]? = some none := getElem?_of_freeIdx (freeIdx_of_txAlloc hj)
      have hlt := lt_length_of_freeIdx (freeIdx_of_txAlloc hj)
      have hfill : txAvailable c key priority ≤ txAvailable
          (fillOne c key channel payload priority fragments streamId now i j) key priority +
            1 := by
        rw [txAvailable, txAvailable, txUnacked, txUnacked, fillOne_tx]
        exact txAvailable_fill (c := c) rfl hfree
      have hstill : (fillOne c key channel payload priority fragments streamId now i j).has
          key :=
        fillOne_has hhas i j
      obtain ⟨c', added, hrun, hfilled⟩ := ih hstill (by omega) (slots ++ [j])
      have htx : (fillOne c key channel payload priority fragments streamId now i j).tx =
          c.tx.set j (some (submitSlot c key channel payload priority fragments i streamId
            ((c.peer key).nextSeq channel) now)) :=
        fillOne_tx i j
      have hnotin : j ∉ added := by
        intro hmem
        have hnone := hfilled.free j hmem
        rw [htx, List.getElem?_set_self hlt] at hnone
        simp at hnone
      refine ⟨c', j :: added, ?_, ?_, ?_, ?_, ?_, ?_, ?_, ?_, ?_⟩
      · rw [submitSlots_cons hj, hrun, List.append_assoc]
        rfl
      · rw [List.length_cons, List.length_cons, hfilled.length]
      · exact List.nodup_cons.mpr ⟨hnotin, hfilled.nodup⟩
      · intro k hk
        rcases List.mem_cons.mp hk with rfl | hk
        · exact hfree
        · have hnone := hfilled.free k hk
          have hne : j ≠ k := fun h => hnotin (h ▸ hk)
          rwa [htx, List.getElem?_set_ne hne] at hnone
      · rw [hfilled.size, htx, List.length_set]
      · intro k hk
        rw [List.mem_cons, not_or] at hk
        rw [hfilled.others k hk.2, htx, entryAt_set hlt, if_neg hk.1]
      · intro k i' j' hi' hj'
        cases k with
        | zero =>
            obtain rfl : i = i' := by simpa using hi'
            obtain rfl : j = j' := by simpa using hj'
            rw [hfilled.others j hnotin, htx, entryAt_set hlt, if_pos rfl, BitVec.add_zero]
        | succ k =>
            rw [hfilled.stored k i' j' (by simpa using hi') (by simpa using hj'),
              submitSlot_fillOne, fillOne_next hhas, add_one_ofNat]
      · rw [hfilled.next, fillOne_next hhas, List.length_cons, add_one_ofNat]
      · intro i' seq
        rw [hfilled.built, submitSlot_fillOne]

/-- A message of as many fragments as there are slots available fills one for each. -/
theorem submitSlots_range (channel : ℕ) (payload : List UInt8) (streamId now : U32)
    (hhas : c.has key) (havail : fragments ≤ txAvailable c key priority) :
    ∃ c' slots,
      submitSlots key channel payload priority fragments streamId now (List.range fragments)
          c [] = (c', some slots) ∧
        Filled c c' key channel payload priority fragments streamId now
          (List.range fragments) slots := by
  have hlength : (List.range fragments).length ≤ txAvailable c key priority := by
    rw [List.length_range]
    exact havail
  exact submitSlots_filled (List.range fragments) hhas hlength []

end Filled

/-! ## The two outcomes -/

/-- The message stands in slots that were free, one fragment in each, numbered from the
old `next_seq`; the other slots are as they were. -/
structure Stored (c c' : Ctx) (key : Mac) (channel priority : ℕ) (payload : List UInt8)
    (now : U32) (slots : List ℕ) (streamId : U32) : Prop where
  count : slots.length = (payload.length + reliableInnerMax - 1) / reliableInnerMax
  nodup : slots.Nodup
  free : ∀ j ∈ slots, c.tx[j]? = some none
  size : c'.tx.length = c.tx.length
  others : ∀ j, j ∉ slots → entryAt c'.tx j = entryAt c.tx j
  stream : streamId ≠ 0
  stored : ∀ k j, slots[k]? = some j → entryAt c'.tx j = some (submitSlot c' key channel
    payload priority slots.length k streamId
    ((c.peer key).nextSeq channel + BitVec.ofNat 32 k) now)
  pieces : (slots.map fun j => ((entryAt c'.tx j).map TxSlot.payload).getD []).flatten =
    payload
  next : (c'.peer key).nextSeq channel =
    (c.peer key).nextSeq channel + BitVec.ofNat 32 slots.length

/-- Nothing is stored: as many numbers as the message has fragments are used up, and
exactly these were reported and announced as lost. -/
structure Refused (c c' : Ctx) (key : Mac) (channel fragments : ℕ) : Prop where
  tx : c'.tx = c.tx
  next : (c'.peer key).nextSeq channel =
    (c.peer key).nextSeq channel + BitVec.ofNat 32 fragments
  trace : c'.trace = c.trace ++
    [.exhausted key,
      .event .sent key (c'.peerSendMac key) channel .overflow ((c.peer key).nextSeq channel)
        ((c.peer key).nextSeq channel + BitVec.ofNat 32 fragments - 1),
      .send key { sessionId := c'.localSession, srcMac := c'.cfg.localMac,
                  body := .lost (lostPayload c' key channel .overflow 0
                    ((c.peer key).nextSeq channel)
                    ((c.peer key).nextSeq channel + BitVec.ofNat 32 fragments - 1)) }]

section Outcomes

variable {c : Ctx} {key : Mac} {channel priority fragments : ℕ} {payload : List UInt8}
variable {streamId now : U32}

theorem submitOverflow_refused (h : c.has key) :
    Refused c (submitOverflow c key channel fragments ((c.peer key).nextSeq channel)) key
      channel fragments := by
  generalize hfirst : (c.peer key).nextSeq channel = first
  generalize hlast : first + BitVec.ofNat 32 fragments - 1 = last
  have hnext : last + 1 = first + BitVec.ofNat 32 fragments := by
    rw [← hlast, BitVec.sub_add_cancel]
  have hone : ∀ p : Peer, ((p.setNext channel (last + 1)).countOverflow).mac = p.mac :=
    fun _ => rfl
  have htwo : ∀ p : Peer, (Peer.countLost .overflow (last - first + 1) p).mac = p.mac :=
    fun _ => rfl
  have hhas : (c.modPeer key fun p => (p.setNext channel (last + 1)).countOverflow).has key :=
    (has_modPeer hone key).mpr h
  constructor
  · rfl
  · have hpeer : (submitOverflow c key channel fragments first).peer key =
        Peer.countLost .overflow (last - first + 1)
          ((c.peer key).setNext channel (last + 1)).countOverflow := by
      rw [← peer_modPeer_self hone h, ← peer_modPeer_self htwo hhas, ← hlast]
      rfl
    rw [hpeer, hfirst]
    exact (Function.update_self _ _ _).trans hnext
  · have hassoc (a b d : Effect) : c.trace ++ [a] ++ [b] ++ [d] = c.trace ++ [a, b, d] := by
      simp only [List.append_assoc, List.cons_append, List.nil_append]
    rw [hfirst, ← hassoc, hlast, submitOverflow, hlast]
    rfl

/-- The transmission loop leaves the tables and the records alone. -/
theorem submitSend_kept (key : Mac) (slots : List ℕ) (c : Ctx) (err : EspErr) :
    (submitSend key slots c err).1.tx = c.tx ∧
      (submitSend key slots c err).1.peers = c.peers ∧
      (submitSend key slots c err).1.cfg = c.cfg ∧
      (submitSend key slots c err).1.localSession = c.localSession := by
  induction slots generalizing c err with
  | nil => exact ⟨rfl, rfl, rfl, rfl⟩
  | cons j slots ih =>
      rw [submitSend]
      split
      · exact ih c err
      · exact ih _ _

theorem Filled.stored_message {c' c'' : Ctx} (hmessage : payload.length ≤ messageMax)
    (hfragments : fragments = fragmentsOf payload.length) (hstream : streamId ≠ 0)
    {slots : List ℕ}
    (h : Filled c c' key channel payload priority fragments streamId now
      (List.range fragments) slots) (htx : c''.tx = c'.tx) (hpeers : c''.peers = c'.peers)
    (hcfg : c''.cfg = c'.cfg) (hsession : c''.localSession = c'.localSession) :
    Stored c c'' key channel priority payload now slots streamId := by
  have hpeer : c''.peer key = c'.peer key := by
    rw [Ctx.peer, Ctx.peer, Ctx.peerAt, Ctx.peerAt, hpeers]
  have hbuilt (i : ℕ) (seq : U32) :
      submitSlot c'' key channel payload priority fragments i streamId seq now =
        submitSlot c key channel payload priority fragments i streamId seq now := by
    refine (submitSlot_congr hcfg hsession ?_ ?_ ?_ i seq).trans (h.built i seq)
    · rw [hpeer]
    · rw [hpeer]
    · rw [hpeer]
  have hlength : slots.length = fragments := h.length.trans (List.length_range)
  have hcount : fragments = (payload.length + reliableInnerMax - 1) / reliableInnerMax :=
    hfragments.trans (fragmentsOf_eq hmessage)
  have hplace (k j : ℕ) (hj : slots[k]? = some j) : entryAt c''.tx j =
      some (submitSlot c key channel payload priority fragments k streamId
        ((c.peer key).nextSeq channel + BitVec.ofNat 32 k) now) := by
    have hk : k < fragments := by
      rw [← hlength]
      exact (List.getElem?_eq_some_iff.mp hj).1
    rw [htx]
    exact h.stored k k j (List.getElem?_range hk) hj
  constructor
  · exact hlength.trans hcount
  · exact h.nodup
  · exact h.free
  · rw [htx]
    exact h.size
  · rw [htx]
    exact h.others
  · exact hstream
  · intro k j hj
    rw [hlength, hbuilt]
    exact hplace k j hj
  · have hmap : (slots.map fun j => ((entryAt c''.tx j).map TxSlot.payload).getD []) =
        (List.range fragments).map fun i =>
          (payload.drop (i * reliableInnerMax)).take reliableInnerMax := by
      refine List.ext_getElem? fun k => ?_
      rw [List.getElem?_map, List.getElem?_map]
      cases hk : slots[k]? with
      | none =>
          have hout : fragments ≤ k := by
            rw [← hlength]
            exact List.getElem?_eq_none_iff.mp hk
          rw [List.getElem?_eq_none (by simpa using hout)]
          rfl
      | some j =>
          have hin : k < fragments := by
            rw [← hlength]
            exact (List.getElem?_eq_some_iff.mp hk).1
          rw [List.getElem?_range hin, Option.map_some, Option.map_some, hplace k j hk]
          rfl
    have hmax : reliableInnerMax = 152 := rfl
    rw [hmap, ← List.flatMap_def, flatMap_pieces, List.take_of_length_le]
    rw [hcount, hmax]
    omega
  · rw [hpeer, h.next, h.length]

/-- The search for free slots has one of two outcomes. -/
theorem submitMessage_outcome (hhas : c.has key)
    (hmessage : payload.length ≤ messageMax) (hfragments : fragments = fragmentsOf payload.length)
    (hstream : streamId ≠ 0) :
    ((submitMessage c key channel payload priority fragments streamId now).2.1 = .ok ∧
        ∃ slots, Stored c
          (submitMessage c key channel payload priority fragments streamId now).1 key channel
          priority payload now slots streamId) ∨
      ((submitMessage c key channel payload priority fragments streamId now).2.1 = .noMem ∧
        Refused c (submitMessage c key channel payload priority fragments streamId now).1 key
          channel fragments) := by
  by_cases hfull : (c.cfg.faultOverflowEvery ≠ 0 ∧
      c.overflowCounter.toNat % c.cfg.faultOverflowEvery = 0) ∨
        txAvailable c key priority < fragments
  · right
    rw [submitMessage, if_pos hfull]
    exact ⟨rfl, submitOverflow_refused hhas⟩
  · left
    have havail := Nat.not_lt.mp fun hlt => hfull (.inr hlt)
    obtain ⟨c', slots, hrun, hfilled⟩ := submitSlots_range channel payload streamId now
      hhas havail
    rw [submitMessage, if_neg hfull, hrun]
    refine ⟨rfl, slots, ?_⟩
    simp only
    split
    · obtain ⟨htx, hpeers, hcfg, hsession⟩ := submitSend_kept key slots
        (c'.emit (.accepted key channel streamId ((c.peer key).nextSeq channel) payload)) .ok
      exact hfilled.stored_message hmessage hfragments hstream htx hpeers hcfg hsession
    · exact hfilled.stored_message hmessage hfragments hstream rfl rfl rfl rfl

/-- A message is let in exactly when as many slots are available as it has fragments. -/
theorem submitMessage_result (hhas : c.has key) :
    (submitMessage c key channel payload priority fragments streamId now).2.1 = .ok ↔
      ¬(c.cfg.faultOverflowEvery ≠ 0 ∧
          c.overflowCounter.toNat % c.cfg.faultOverflowEvery = 0) ∧
        fragments ≤ txAvailable c key priority := by
  by_cases hfull : (c.cfg.faultOverflowEvery ≠ 0 ∧
      c.overflowCounter.toNat % c.cfg.faultOverflowEvery = 0) ∨
        txAvailable c key priority < fragments
  · rw [submitMessage, if_pos hfull]
    constructor
    · intro hok
      exact EspErr.noConfusion hok
    · rintro ⟨hforced, havail⟩
      exact absurd hfull (not_or.mpr ⟨hforced, Nat.not_lt.mpr havail⟩)
  · obtain ⟨hforced, havail⟩ := not_or.mp hfull
    obtain ⟨c', slots, hrun, -⟩ := submitSlots_range channel payload streamId now
      hhas (Nat.not_lt.mp havail)
    rw [submitMessage, if_neg hfull, hrun]
    exact ⟨fun _ => ⟨hforced, Nat.not_lt.mp havail⟩, fun _ => rfl⟩

theorem Stored.start {c₀ c' : Ctx} {slots : List ℕ} (htx : c₀.tx = c.tx)
    (hnext : (c₀.peer key).nextSeq = (c.peer key).nextSeq)
    (h : Stored c c' key channel priority payload now slots streamId) :
    Stored c₀ c' key channel priority payload now slots streamId := by
  obtain ⟨hcount, hnodup, hfree, hsize, hothers, hstream, hstored, hpieces, hlast⟩ := h
  rw [← htx] at hfree hsize hothers
  rw [← hnext] at hstored hlast
  exact ⟨hcount, hnodup, hfree, hsize, hothers, hstream, hstored, hpieces, hlast⟩

theorem Refused.start {c₀ c' : Ctx} (htx : c₀.tx = c.tx)
    (hnext : (c₀.peer key).nextSeq = (c.peer key).nextSeq) (htrace : c₀.trace = c.trace)
    (h : Refused c c' key channel fragments) : Refused c₀ c' key channel fragments := by
  obtain ⟨hkept, hlast, hadded⟩ := h
  rw [← htx] at hkept
  rw [← hnext] at hlast hadded
  rw [← htrace] at hadded
  exact ⟨hkept, hlast, hadded⟩

end Outcomes

theorem freshStream_ne_zero (c : Ctx) : c.freshStream ≠ 0 := by
  rw [Ctx.freshStream]
  split
  · decide
  · assumption

/-- A submit for a ready peer is the search for slots for the fragments of the message. -/
theorem submit_eq_submitMessage {c : Ctx} {mac : Mac} {channel priority : ℕ}
    {payload : List UInt8} (hready : (c.peer (c.keyOf mac)).ready = true)
    (hchannel : 0 < channel) (hlast : channel < channelCount) (hpos : 0 < payload.length)
    (hmessage : payload.length ≤ messageMax) (now : U32) :
    submit c mac channel payload priority now =
      submitMessage ((c.noteMac mac).countSubmit ((c.noteMac mac).freshStream + 1))
        (c.keyOf mac) channel payload priority (fragmentsOf payload.length)
        (c.noteMac mac).freshStream now := by
  have hhas := has_of_ready hready
  have hmax : reliableInnerMax = 152 := rfl
  have hmessageMax : messageMax = 2432 := rfl
  have hsome := length_pos_of_fragments hpos
  have hbound : ¬(fragmentsOf payload.length = 0 ∨
      fragmentsOf payload.length > reliableMaxFragments) := by
    have hmaxFragments : reliableMaxFragments = 16 := rfl
    rw [fragmentsOf_eq hmessage, hmax] at *
    omega
  have hready' : ((c.noteMac mac).peer (c.keyOf mac)).ready = true := by
    rw [peer_noteMac Peer.ready fun _ _ => rfl]
    exact hready
  rw [submit, if_neg (by omega), peerFind_stored hhas]
  simp only [hready', Bool.not_true, Bool.false_eq_true, if_false, if_neg hbound]

/-- A message for a ready peer is stored whole or refused whole. -/
theorem submit_outcome {c : Ctx} {mac : Mac} {channel priority : ℕ} {payload : List UInt8}
    (hready : (c.peer (c.keyOf mac)).ready = true) (hchannel : 0 < channel)
    (hlast : channel < channelCount) (hpos : 0 < payload.length)
    (hmessage : payload.length ≤ messageMax) (now : U32) :
    ((submit c mac channel payload priority now).2.1 = .ok ∧
        ∃ slots streamId, Stored c (submit c mac channel payload priority now).1
          (c.keyOf mac) channel priority payload now slots streamId) ∨
      ((submit c mac channel payload priority now).2.1 = .noMem ∧
        Refused c (submit c mac channel payload priority now).1 (c.keyOf mac) channel
          ((payload.length + reliableInnerMax - 1) / reliableInnerMax)) := by
  have hhas := has_of_ready hready
  have hfragments := fragmentsOf_eq hmessage
  have htx : (c.noteMac mac).tx = c.tx := by rw [noteMac_eq]
  have htrace : (c.noteMac mac).trace = c.trace := by rw [noteMac_eq]
  have hnext : ((c.noteMac mac).peer (c.keyOf mac)).nextSeq =
      (c.peer (c.keyOf mac)).nextSeq :=
    peer_noteMac Peer.nextSeq (fun _ _ => rfl) c mac _
  have hrun := @submit_eq_submitMessage c mac channel priority payload hready hchannel hlast
    hpos hmessage now
  have hcount : ((c.noteMac mac).countSubmit ((c.noteMac mac).freshStream + 1)).has
      (c.keyOf mac) :=
    (has_noteMac c mac _).mpr hhas
  rw [hrun, ← hfragments]
  rcases submitMessage_outcome hcount hmessage rfl
    (freshStream_ne_zero (c.noteMac mac)) with ⟨hok, slots, hstored⟩ | ⟨hfull, hrefused⟩
  · refine .inl ⟨hok, slots, _, Stored.start ?_ ?_ hstored⟩
    · exact htx.symm
    · exact hnext.symm
  · refine .inr ⟨hfull, Refused.start ?_ ?_ ?_ hrefused⟩
    · exact htx.symm
    · exact hnext.symm
    · exact htrace.symm

/-! ## All or nothing, within the quotas -/

/-- A submit for a ready peer stores the whole message or only announces its numbers as
lost; once `tx_available` has let a message in, `tx_alloc` serves every fragment of it; and
no run exceeds the limit of a peer or eats into the control reserve. -/
theorem submit_all_or_nothing (c : Ctx) :
    (∀ mac channel payload priority now, (c.peer (c.keyOf mac)).ready = true →
      0 < channel → channel < channelCount → 0 < payload.length →
      payload.length ≤ messageMax → priority ≤ priorityControl →
      ((submit c mac channel payload priority now).2.1 = .ok ∧
          ∃ slots streamId, Stored c (submit c mac channel payload priority now).1
            (c.keyOf mac) channel priority payload now slots streamId) ∨
        ((submit c mac channel payload priority now).2.1 = .noMem ∧
          Refused c (submit c mac channel payload priority now).1 (c.keyOf mac) channel
            ((payload.length + reliableInnerMax - 1) / reliableInnerMax))) ∧
    (∀ key channel payload priority fragments streamId now, c.has key →
      priority ≤ priorityControl → fragments ≤ txAvailable c key priority →
      (submitSlots key channel payload priority fragments streamId now
        (List.range fragments) c []).2 ≠ none) ∧
    (Reachable (· ≤ priorityControl) c →
      (∀ key, txUnacked c key ≤ c.cfg.perPeerTxSlots) ∧
        usedCount TxSlot.low c.tx ≤ c.cfg.txSlots - c.cfg.reservedControlSlots) := by
  refine ⟨?_, ?_, ?_⟩
  · intro mac channel payload priority now hready hchannel hlast hpos hmessage _
    exact submit_outcome hready hchannel hlast hpos hmessage now
  · intro key channel payload priority fragments streamId now hhas _ havail
    obtain ⟨c', slots, hrun, -⟩ := submitSlots_range channel payload streamId now
      hhas havail
    rw [hrun]
    exact Option.some_ne_none _
  · intro hreach
    exact ⟨hreach.withinQuotas.peer, hreach.withinQuotas.reserve⟩

/-- A root that a node has introduced itself to. -/
def greetedRoot : Ctx :=
  (handleRx (smallCtx true 0x10 7) 0x11
    { sessionId := 9
      srcMac := 0x11
      body := .hello
        { profileVersion := 1
          mtu := 224
          txSlots := 8
          reorderWindow := 32
          capabilities := requiredCapabilities
          nodeSessionId := 9
          rootSessionSeen := 0 } } 1).1

theorem submit_all_or_nothing_greetedRoot :
    ((submit greetedRoot 0x11 3 (List.replicate 200 1) 4 5).2.1 = .ok ∧
      ∃ slots streamId, Stored greetedRoot (submit greetedRoot 0x11 3 (List.replicate 200 1) 4
        5).1 (greetedRoot.keyOf 0x11) 3 4 (List.replicate 200 1) 5 slots streamId) ∧
    txUnacked (smallCtx true 0x10 7) 0x11 ≤ 8 := by
  constructor
  · refine ((submit_all_or_nothing greetedRoot).1 0x11 3 (List.replicate 200 1) 4 5
      (by decide +kernel) (by decide) (by decide) (by decide +kernel) (by decide +kernel)
      (by decide)).resolve_right fun h => ?_
    exact absurd h.1 (by decide +kernel)
  · refine ((submit_all_or_nothing (smallCtx true 0x10 7)).2.2 ?_).1 0x11
    exact ⟨smallConfig true 0x10, 7, 1, _, [], init_smallConfig true 0x10 (by decide),
      by simp, rfl⟩

end KeemashCore.Rel
