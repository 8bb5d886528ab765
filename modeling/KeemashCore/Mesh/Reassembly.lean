import KeemashCore.Mesh.PendingLost

/-!
# Reassembly

A reassembly slot keeps the fragment bytes, their lengths and the received mask
apart.  `Fits` ties the three to the frames that were handed off: every bit of
the mask stands for a frame whose bytes lie at its offset.  A slot whose mask is
complete therefore holds the concatenation of the fragments of one message.
-/

namespace KeemashCore.Rel

open SlotTable SelectiveRepeat

/-! ## Copying into a buffer -/

/-- `memcpy` of `part` into `data` at `offset`. -/
def splice (data : List UInt8) (offset : ℕ) (part : List UInt8) : List UInt8 :=
  data.take offset ++ part ++ data.drop (offset + part.length)

theorem getElem?_splice {data part : List UInt8} {offset : ℕ}
    (h : offset + part.length ≤ data.length) (k : ℕ) :
    (splice data offset part)[k]? =
      if offset ≤ k ∧ k < offset + part.length then part[k - offset]? else data[k]? := by
  have htake : (data.take offset).length = offset := by
    rw [List.length_take]
    omega
  rw [splice, List.append_assoc]
  by_cases hlow : k < offset
  · rw [List.getElem?_append_left (by omega), if_neg (by omega),
      List.getElem?_take_of_lt hlow]
  · rw [List.getElem?_append_right (by omega), htake]
    by_cases hmid : k < offset + part.length
    · rw [if_pos ⟨by omega, hmid⟩, List.getElem?_append_left (by omega)]
    · rw [if_neg (by omega), List.getElem?_append_right (by omega),
        List.getElem?_drop]
      congr 1
      omega

theorem length_splice {data part : List UInt8} {offset : ℕ}
    (h : offset + part.length ≤ data.length) :
    (splice data offset part).length = data.length := by
  simp only [splice, List.length_append, List.length_take, List.length_drop]
  omega

/-- The copied bytes can be read back. -/
theorem chunk_splice_self {data part : List UInt8} {offset : ℕ}
    (h : offset + part.length ≤ data.length) :
    ((splice data offset part).drop offset).take part.length = part := by
  refine List.ext_getElem? fun k => ?_
  by_cases hk : k < part.length
  · rw [List.getElem?_take_of_lt hk, List.getElem?_drop, getElem?_splice h,
      if_pos ⟨by omega, by omega⟩]
    congr 1
    omega
  · rw [List.getElem?_take, if_neg hk, List.getElem?_eq_none (Nat.le_of_not_lt hk)]

/-- Bytes outside the copied range stay. -/
theorem chunk_splice_other {data part : List UInt8} {offset start len : ℕ}
    (h : offset + part.length ≤ data.length)
    (hout : start + len ≤ offset ∨ offset + part.length ≤ start) :
    ((splice data offset part).drop start).take len = (data.drop start).take len := by
  refine List.ext_getElem? fun k => ?_
  by_cases hk : k < len
  · rw [List.getElem?_take_of_lt hk, List.getElem?_take_of_lt hk, List.getElem?_drop,
      List.getElem?_drop, getElem?_splice h, if_neg (by omega)]
  · rw [List.getElem?_take, List.getElem?_take, if_neg hk, if_neg hk]

/-- Chunks that stand at multiples of `size`, all but the last of them full,
form one piece. -/
theorem take_flatten {data : List UInt8} {size : ℕ} {parts : List (List UInt8)}
    {start : ℕ}
    (hchunk : ∀ j part, parts[j]? = some part →
      (data.drop ((start + j) * size)).take part.length = part)
    (hfull : ∀ j part, parts[j]? = some part → j + 1 < parts.length →
      part.length = size) :
    (data.drop (start * size)).take parts.flatten.length = parts.flatten := by
  induction parts generalizing start with
  | nil => simp
  | cons part parts ih =>
      have hpart := hchunk 0 part rfl
      rw [Nat.add_zero] at hpart
      cases parts with
      | nil => simpa using hpart
      | cons next rest =>
          have hsize := hfull 0 part rfl (by simp)
          have hrest : (data.drop ((start + 1) * size)).take (next :: rest).flatten.length =
              (next :: rest).flatten := ih
            (fun j p hp => by
              have := hchunk (j + 1) p hp
              rwa [show start + (j + 1) = start + 1 + j by omega] at this)
            (fun j p hp hlt => hfull (j + 1) p hp (by simpa using hlt))
          rw [List.flatten_cons, List.length_append, List.take_add, hpart,
            List.drop_drop]
          rw [show start * size + part.length = (start + 1) * size by
            rw [hsize, Nat.add_mul, Nat.one_mul], hrest]

/-! ## Slots -/

/-- The frame `f` stands in the slot as fragment `i`. -/
structure ReassemblySlot.Holds (slot : ReassemblySlot) (i : ℕ) (f : Frame) : Prop where
  index : f.fragmentIndex = i
  count : f.fragmentCount = slot.fragmentCount
  stream : f.streamId = slot.streamId
  payload_le : f.payload.length ≤ reliableInnerMax
  len : slot.fragmentLen[i]? = some f.payload.length
  bytes : (slot.data.drop (i * reliableInnerMax)).take f.payload.length = f.payload

/-- The slot holds frames that were handed off. -/
structure ReassemblySlot.Fits (slot : ReassemblySlot) (handed : List (ℕ × Frame)) :
    Prop where
  count_le : slot.fragmentCount ≤ reliableMaxFragments
  len_length : slot.fragmentLen.length = reliableMaxFragments
  data_length : slot.data.length = messageMax
  part : ∀ i, slot.receivedMask.getLsbD i = true → i < slot.fragmentCount ∧
    ∃ f, (slot.firstSeq.toNat + i, f) ∈ handed ∧ slot.Holds i f

/-- A slot in use has received something. -/
def ReassemblySlot.Started (slot : ReassemblySlot) : Prop :=
  ∃ i, slot.receivedMask.getLsbD i = true

theorem ReassemblySlot.Fits.mono {slot : ReassemblySlot}
    {handed handed' : List (ℕ × Frame)} (h : slot.Fits handed)
    (hsub : ∀ x ∈ handed, x ∈ handed') : slot.Fits handed' :=
  { h with
    part := fun i hi => by
      obtain ⟨hlt, f, hf, hholds⟩ := h.part i hi
      exact ⟨hlt, f, hsub _ hf, hholds⟩ }

/-- A slot that was just created. -/
theorem newReassemblySlot_fits (key : Mac) (rh : ReliableHdr) (now : U32)
    (handed : List (ℕ × Frame)) (h : rh.fragmentCount ≤ reliableMaxFragments) :
    (newReassemblySlot key rh now).Fits handed where
  count_le := h
  len_length := List.length_replicate
  data_length := List.length_replicate
  part := fun i hi => by simp [newReassemblySlot] at hi

theorem getLsbD_store {slot : ReassemblySlot} {rh : ReliableHdr}
    {payload : List UInt8} {now : U32} (h : rh.fragmentIndex < 16) (i : ℕ) :
    (slot.store rh payload now).receivedMask.getLsbD i = true ↔
      i = rh.fragmentIndex ∨ slot.receivedMask.getLsbD i = true := by
  simp only [ReassemblySlot.store, BitVec.getLsbD_or, Bool.or_eq_true,
    BitVec.getLsbD_shiftLeft, Bool.and_eq_true, decide_eq_true_eq, Bool.not_eq_true',
    decide_eq_false_iff_not, BitVec.getLsbD_one]
  have harith : (i < 16 ∧ ¬i < rh.fragmentIndex) ∧ 0 < 16 ∧ i - rh.fragmentIndex = 0 ↔
      i = rh.fragmentIndex := by omega
  rw [harith, or_comm]

theorem offset_le {i len : ℕ} (hi : i < reliableMaxFragments)
    (hlen : len ≤ reliableInnerMax) : i * reliableInnerMax + len ≤ messageMax := by
  simp only [reliableMaxFragments, reliableInnerMax, messageMax] at *
  omega

/-- Storing a frame keeps the slot in line with the frames handed off. -/
theorem ReassemblySlot.Fits.store {slot : ReassemblySlot}
    {handed : List (ℕ × Frame)} {rh : ReliableHdr} {payload : List UInt8} (now : U32)
    (h : slot.Fits handed)
    (hmem : (slot.firstSeq.toNat + rh.fragmentIndex, rh.frame payload) ∈ handed)
    (hcount : rh.fragmentCount = slot.fragmentCount)
    (hstream : rh.streamId = slot.streamId)
    (hindex : rh.fragmentIndex < rh.fragmentCount)
    (hlen : rh.payloadLen = payload.length)
    (hle : payload.length ≤ reliableInnerMax) :
    (slot.store rh payload now).Fits handed := by
  have hlt : rh.fragmentIndex < reliableMaxFragments :=
    hindex.trans_le (hcount ▸ h.count_le)
  have hfit : rh.fragmentIndex * reliableInnerMax + payload.length ≤
      slot.data.length := by
    rw [h.data_length]
    exact offset_le hlt hle
  have hdata : (slot.store rh payload now).data =
      splice slot.data (rh.fragmentIndex * reliableInnerMax) payload := rfl
  have hlens : (slot.store rh payload now).fragmentLen =
      slot.fragmentLen.set rh.fragmentIndex rh.payloadLen := rfl
  refine ⟨h.count_le, ?_, ?_, ?_⟩
  · rw [hlens, List.length_set, h.len_length]
  · rw [hdata, length_splice hfit, h.data_length]
  · intro i hi
    rcases (getLsbD_store hlt i).mp hi with rfl | hi
    · refine ⟨hcount ▸ hindex, _, hmem, rfl, hcount, hstream, hle, ?_, ?_⟩
      · rw [hlens, List.getElem?_set_self (by rw [h.len_length]; exact hlt), hlen]
        rfl
      · rw [hdata]
        exact chunk_splice_self hfit
    · by_cases hne : i = rh.fragmentIndex
      · subst hne
        refine ⟨hcount ▸ hindex, _, hmem, rfl, hcount, hstream, hle, ?_, ?_⟩
        · rw [hlens, List.getElem?_set_self (by rw [h.len_length]; exact hlt), hlen]
          rfl
        · rw [hdata]
          exact chunk_splice_self hfit
      · obtain ⟨hic, f, hf, hholds⟩ := h.part i hi
        refine ⟨hic, f, hf, hholds.index, hholds.count, hholds.stream,
          hholds.payload_le, ?_, ?_⟩
        · rw [hlens, List.getElem?_set_ne (Ne.symm hne)]
          exact hholds.len
        · rw [hdata, chunk_splice_other hfit]
          · exact hholds.bytes
          · have hple := hholds.payload_le
            simp only [reliableInnerMax] at hple hle ⊢
            omega

/-! ## Complete messages -/

/-- The message `d` is the concatenation of the frames numbered up to `n`. -/
def Assembled (handed : List (ℕ × Frame)) (n : ℕ) (d : U32 × List UInt8) : Prop :=
  ∃ fs : List Frame, fs ≠ [] ∧ fs.length ≤ n + 1 ∧
    (∀ i f, fs[i]? = some f → (n + 1 - fs.length + i, f) ∈ handed ∧
      f.fragmentIndex = i ∧ f.fragmentCount = fs.length ∧ f.streamId = d.1) ∧
    d.2 = (fs.map Frame.payload).flatten

theorem Assembled.mono {handed handed' : List (ℕ × Frame)} {n : ℕ}
    {d : U32 × List UInt8} (h : Assembled handed n d)
    (hsub : ∀ x ∈ handed, x ∈ handed') : Assembled handed' n d := by
  obtain ⟨fs, hne, hle, hparts, hbytes⟩ := h
  refine ⟨fs, hne, hle, fun i f hf => ?_, hbytes⟩
  obtain ⟨hmem, hrest⟩ := hparts i f hf
  exact ⟨hsub _ hmem, hrest⟩

theorem isComplete_iff {slot : ReassemblySlot} {count : ℕ} :
    slot.isComplete count = true ↔
      ∀ i, i < 16 → (slot.receivedMask.getLsbD i = true ↔ i < count) := by
  rw [ReassemblySlot.isComplete, beq_iff_eq]
  constructor
  · intro h i hi
    rw [h, BitVec.getLsbD_ofNat, Nat.testBit_two_pow_sub_one]
    simp [hi]
  · intro h
    refine BitVec.eq_of_getLsbD_eq fun i hi => ?_
    rw [BitVec.getLsbD_ofNat, Nat.testBit_two_pow_sub_one, Bool.eq_iff_iff, h i hi]
    simp [hi]

/-- A complete slot holds one whole message. -/
theorem ReassemblySlot.Fits.assembled {slot : ReassemblySlot}
    {handed : List (ℕ × Frame)} (h : slot.Fits handed)
    (hpos : 0 < slot.fragmentCount)
    (hcomplete : slot.isComplete slot.fragmentCount = true)
    (hfull : ∀ x ∈ handed, x.2.fragmentIndex + 1 < x.2.fragmentCount →
      x.2.payload.length = reliableInnerMax) :
    Assembled handed (slot.firstSeq.toNat + slot.fragmentCount - 1)
      (slot.streamId, slot.data.take slot.total) := by
  have hcount : slot.fragmentCount ≤ 16 := h.count_le
  have hmask := isComplete_iff.mp hcomplete
  have hpart : ∀ i, i < slot.fragmentCount →
      ∃ f, (slot.firstSeq.toNat + i, f) ∈ handed ∧ slot.Holds i f := by
    intro i hi
    exact (h.part i ((hmask i (by omega)).mpr hi)).2
  choose! f hmem hholds using hpart
  let fs : List Frame := (List.range slot.fragmentCount).map f
  have hlength : fs.length = slot.fragmentCount := by simp [fs]
  have hget : ∀ i g, fs[i]? = some g → i < slot.fragmentCount ∧ g = f i := by
    intro i g hg
    obtain ⟨hi, rfl⟩ := List.getElem?_eq_some_iff.mp hg
    exact ⟨by omega, by simp [fs]⟩
  have hparts : ∀ j part, (fs.map Frame.payload)[j]? = some part →
      j < slot.fragmentCount ∧ part = (f j).payload := by
    intro j part hp
    rw [List.getElem?_map, Option.map_eq_some_iff] at hp
    obtain ⟨g, hg, rfl⟩ := hp
    obtain ⟨hj, rfl⟩ := hget j g hg
    exact ⟨hj, rfl⟩
  have htotal : slot.total = (fs.map Frame.payload).flatten.length := by
    have htake : slot.fragmentLen.take slot.fragmentCount =
        fs.map fun g => g.payload.length := by
      refine List.ext_getElem? fun i => ?_
      by_cases hi : i < slot.fragmentCount
      · rw [List.getElem?_take_of_lt hi, (hholds i hi).len]
        simp [fs, hi]
      · rw [List.getElem?_take, if_neg hi,
          List.getElem?_eq_none (by simp [hlength]; omega)]
    rw [ReassemblySlot.total, htake, List.length_flatten,
      List.map_map (l := fs)]
    rfl
  refine ⟨fs, ?_, by rw [hlength]; omega, ?_, ?_⟩
  · intro hnil
    rw [hnil, List.length_nil] at hlength
    omega
  · intro i g hg
    obtain ⟨hi, rfl⟩ := hget i g hg
    have hh := hholds i hi
    refine ⟨?_, hh.index, by rw [hh.count, hlength], hh.stream⟩
    rw [hlength, show slot.firstSeq.toNat + slot.fragmentCount - 1 + 1 -
      slot.fragmentCount + i = slot.firstSeq.toNat + i by omega]
    exact hmem i hi
  · have hflat : (slot.data.drop (0 * reliableInnerMax)).take
        (fs.map Frame.payload).flatten.length = (fs.map Frame.payload).flatten :=
      take_flatten (fun j part hp => by
        obtain ⟨hj, rfl⟩ := hparts j part hp
        rw [Nat.zero_add]
        exact (hholds j hj).bytes) (fun j part hp hlt => by
        obtain ⟨hj, rfl⟩ := hparts j part hp
        rw [List.length_map, hlength] at hlt
        refine hfull _ (hmem j hj) ?_
        rw [(hholds j hj).index, (hholds j hj).count]
        exact hlt)
    rw [Nat.zero_mul, List.drop_zero] at hflat
    rw [htotal]
    exact hflat

/-! ## The delivered messages -/

/-- The messages `ds` were assembled from the frames handed off, in the order
of their last frames. -/
def Delivered (handed : List (ℕ × Frame)) (ds : List (U32 × List UInt8)) : Prop :=
  ∃ ns : List ℕ, ns.Pairwise (· < ·) ∧ (∀ n ∈ ns, ∃ f, (n, f) ∈ handed) ∧
    List.Forall₂ (Assembled handed) ns ds

theorem Delivered.mono {handed handed' : List (ℕ × Frame)}
    {ds : List (U32 × List UInt8)} (h : Delivered handed ds)
    (hsub : ∀ x ∈ handed, x ∈ handed') : Delivered handed' ds := by
  obtain ⟨ns, hsorted, hmem, hall⟩ := h
  refine ⟨ns, hsorted, fun n hn => ?_, hall.imp fun n d => fun h => h.mono hsub⟩
  obtain ⟨f, hf⟩ := hmem n hn
  exact ⟨f, hsub _ hf⟩

/-- A message that ends with the frame just handed off. -/
theorem Delivered.append {handed : List (ℕ × Frame)} {x : ℕ × Frame}
    {ds : List (U32 × List UInt8)} {d : U32 × List UInt8}
    (h : Delivered handed ds) (hlast : ∀ y ∈ handed, y.1 < x.1)
    (hd : Assembled (handed ++ [x]) x.1 d) : Delivered (handed ++ [x]) (ds ++ [d]) := by
  obtain ⟨ns, hsorted, hmem, hall⟩ := h.mono
    fun y hy => List.mem_append_left [x] hy
  obtain ⟨ns', hsorted', hmem', hall'⟩ := h
  refine ⟨ns' ++ [x.1], ?_, ?_, ?_⟩
  · rw [List.pairwise_append]
    refine ⟨hsorted', List.pairwise_singleton _ _, ?_⟩
    intro n hn m hm
    rw [List.mem_singleton.mp hm]
    obtain ⟨f, hf⟩ := hmem' n hn
    exact hlast _ hf
  · intro n hn
    rcases List.mem_append.mp hn with hn | hn
    · obtain ⟨f, hf⟩ := hmem' n hn
      exact ⟨f, List.mem_append_left _ hf⟩
    · rw [List.mem_singleton.mp hn]
      exact ⟨x.2, by simp⟩
  · refine List.rel_append (R := Assembled (handed ++ [x])) ?_ (.cons hd .nil)
    exact hall'.imp fun n d h => h.mono fun y hy => List.mem_append_left _ hy

end KeemashCore.Rel
