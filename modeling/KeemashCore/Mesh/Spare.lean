import KeemashCore.Mesh.Idle
import KeemashCore.SerialNumber.Basic

/-!
# Spare numbers

`seq_before` and `seq_in_range` compare numbers that wrap around, so a range that a packet
names may start anywhere and run past any number.  A number that no pending-lost range and
no message of a buffered frame contains is spare.  Whatever `pending_lost_add` merges, a
spare number that the new range does not contain stays spare.
-/

namespace KeemashCore.Rel

open SlotTable SerialNumber

/-! ## Serial arithmetic -/

theorem seqBefore_iff_before {a b : U32} : seqBefore a b = true ↔ Before a b := by
  rw [seqBefore, decide_eq_true_iff, BitVec.toInt_neg_iff]
  exact Iff.rfl

theorem seqInRange_iff_between {seq first last : U32} :
    seqInRange seq first last = true ↔ Between first last seq := by
  rw [seqInRange, decide_eq_true_iff]
  exact Iff.rfl

theorem seqInRange_eq_false {seq first last : U32} :
    seqInRange seq first last = false ↔ ¬Between first last seq := by
  rw [← seqInRange_iff_between, Bool.not_eq_true]

theorem touch_of_rangesTouch {first last first' last' : U32}
    (h : rangesTouch first last first' last' = true) : Touch first last first' last' := by
  simp only [rangesTouch, Bool.or_eq_true, seqInRange_iff_between, beq_iff_eq, or_assoc] at h
  exact h

/-- Two ranges that `pending_lost_add` merges. -/
theorem seqInRange_hull {n first last first' last' : U32}
    (htouch : rangesTouch first last first' last' = true)
    (h : seqInRange n first last = false) (h' : seqInRange n first' last' = false) :
    seqInRange n (if seqBefore first first' then first else first')
      (if seqAfter last last' then last else last') = false := by
  rw [seqInRange_eq_false] at h h' ⊢
  apply not_between_merge (touch_of_rangesTouch htouch) h h'
  · rw [← seqBefore_iff_before]
    by_cases hbefore : seqBefore first first' = true
    · exact .inl ⟨hbefore, if_pos hbefore⟩
    · exact .inr ⟨hbefore, if_neg hbefore⟩
  · rw [← seqBefore_iff_before]
    by_cases hafter : seqBefore last' last = true
    · exact .inl ⟨hafter, if_pos hafter⟩
    · exact .inr ⟨hafter, if_neg hafter⟩

/-! ## The pending-lost table -/

/-- No range of the channel contains the number. -/
def Avoids (channel : ℕ) (table : List (Option PendingLostRange)) (n : U32) : Prop :=
  ∀ i range, OnChannel channel table i range → seqInRange n range.first range.last = false

theorem Avoids.congr {channel : ℕ} {table table' : List (Option PendingLostRange)} {n : U32}
    (heq : pendingOn channel table' = pendingOn channel table) (h : Avoids channel table n) :
    Avoids channel table' n := by
  intro i range hi
  apply h i range
  rw [← entryAt_pendingOn] at hi ⊢
  rwa [heq] at hi

/-- The ranges of other channels stay, and the spared numbers stay out of the ranges of the
channel. -/
structure Rearranges (channel : ℕ) (spared : Set U32)
    (table table' : List (Option PendingLostRange)) : Prop where
  length : table'.length = table.length
  other : ∀ ch, ch ≠ channel → pendingOn ch table' = pendingOn ch table
  avoids : ∀ n ∈ spared, Avoids channel table' n

section Rearranges

variable {channel : ℕ} {spared : Set U32} {start table : List (Option PendingLostRange)}

theorem Rearranges.refl (h : ∀ n ∈ spared, Avoids channel table n) :
    Rearranges channel spared table table :=
  ⟨rfl, fun _ _ => rfl, h⟩

/-- A range of the channel is freed. -/
theorem Rearranges.drop (h : Rearranges channel spared start table) {j : ℕ}
    {range : PendingLostRange} (hj : OnChannel channel table j range) :
    Rearranges channel spared start (table.set j none) := by
  refine ⟨List.length_set.trans h.length, fun ch hne => ?_, fun n hn i r hi => ?_⟩
  · rw [pendingOn_set_other hne hj]
    exact h.other ch hne
  · obtain ⟨hi, hch⟩ := hi
    rw [entryAt_set_none] at hi
    split at hi
    · exact absurd hi (by simp)
    · exact h.avoids n hn i r ⟨hi, hch⟩

/-- A range of the channel is stored in a free entry or in one of the channel. -/
theorem Rearranges.put (h : Rearranges channel spared start table) {i : ℕ}
    {range : PendingLostRange} (hlt : i < table.length)
    (hi : ∀ r, entryAt table i = some r → r.channel = channel)
    (hch : range.channel = channel)
    (hout : ∀ n ∈ spared, seqInRange n range.first range.last = false) :
    Rearranges channel spared start (table.set i (some range)) := by
  refine ⟨List.length_set.trans h.length, fun ch hne => ?_, fun n hn j r hj => ?_⟩
  · rw [← h.other ch hne]
    refine pendingOn_eq_of_entries List.length_set fun j r => ?_
    rw [OnChannel, OnChannel, entryAt_set hlt]
    by_cases hji : j = i
    · subst hji
      rw [if_pos rfl]
      constructor
      · rintro ⟨hr, hrch⟩
        obtain rfl := Option.some.inj hr
        exact absurd (hrch.symm.trans hch) hne
      · rintro ⟨hr, hrch⟩
        exact absurd (hrch.symm.trans (hi r hr)) hne
    · rw [if_neg hji]
  · obtain ⟨hj, hjch⟩ := hj
    rw [entryAt_set hlt] at hj
    split at hj
    · obtain rfl := Option.some.inj hj
      exact hout n hn
    · exact h.avoids n hn j r ⟨hj, hjch⟩

/-- The join loop leaves the entry alone that the range is going to. -/
theorem entryAt_pendingLostJoin (i : ℕ) (js : List ℕ)
    (table : List (Option PendingLostRange)) (first last : U32) :
    entryAt (pendingLostJoin channel i js table first last).1 i = entryAt table i := by
  induction js generalizing table first last with
  | nil => rfl
  | cons j js ih =>
      rw [pendingLostJoin]
      split
      · split
        · next hjoin =>
            rw [ih, entryAt_set_none, if_neg (Ne.symm hjoin.1)]
        · exact ih table first last
      · exact ih table first last

theorem Rearranges.join (i : ℕ) (js : List ℕ) {first last : U32}
    (h : Rearranges channel spared start table)
    (hout : ∀ n ∈ spared, seqInRange n first last = false) :
    let joined := pendingLostJoin channel i js table first last
    Rearranges channel spared start joined.1 ∧
      ∀ n ∈ spared, seqInRange n joined.2.1 joined.2.2 = false := by
  induction js generalizing table first last with
  | nil => exact ⟨h, hout⟩
  | cons j js ih =>
      rw [pendingLostJoin]
      split
      · next other hentry =>
          split
          · next hjoin =>
              obtain ⟨-, hch, htouch⟩ := hjoin
              apply ih (h.drop ⟨hentry, hch⟩)
              intro n hn
              exact seqInRange_hull htouch (h.avoids n hn j other ⟨hentry, hch⟩) (hout n hn)
          · exact ih h hout
      · exact ih h hout

theorem Rearranges.pass {table' : List (Option PendingLostRange)}
    {first last first' last' : U32} (h : Rearranges channel spared start table)
    (hout : ∀ n ∈ spared, seqInRange n first last = false)
    (hpass : pendingLostPass channel table first last = some (table', first', last')) :
    Rearranges channel spared start table' ∧
      ∀ n ∈ spared, seqInRange n first' last' = false := by
  rw [pendingLostPass] at hpass
  split at hpass
  · simp at hpass
  · next i hi =>
      obtain ⟨range, hrange, hp⟩ := entryAt_of_findIdx hi
      rw [Bool.and_eq_true, beq_iff_eq] at hp
      rw [hrange] at hpass
      obtain ⟨hjoined, hfree⟩ := h.join i (List.range table.length) fun n hn =>
        seqInRange_hull hp.2 (hout n hn) (h.avoids n hn i range ⟨hrange, hp.1⟩)
      have hentry := fun first last => @entryAt_pendingLostJoin channel i
        (List.range table.length) table first last
      simp only [Option.some.injEq, Prod.mk.injEq] at hpass
      obtain ⟨rfl, rfl, rfl⟩ := hpass
      refine ⟨hjoined.put ?_ ?_ rfl hfree, hfree⟩
      · rw [hjoined.length, ← h.length]
        exact lt_length_of_entryAt hrange
      · intro r hr
        rw [hentry, hrange] at hr
        obtain rfl := Option.some.inj hr
        exact hp.1

theorem Rearranges.merge (k : ℕ) {first last : U32}
    (h : Rearranges channel spared start table)
    (hout : ∀ n ∈ spared, seqInRange n first last = false) :
    let merged := pendingLostMerge channel k table first last
    Rearranges channel spared start merged.1 ∧
      ∀ n ∈ spared, seqInRange n merged.2.1 merged.2.2 = false := by
  induction k generalizing table first last with
  | zero => exact ⟨h, hout⟩
  | succ k ih =>
      rw [pendingLostMerge]
      split
      · next hpass =>
          obtain ⟨hmoved, hfree⟩ := h.pass hout hpass
          exact ih hmoved hfree
      · exact ⟨h, hout⟩

/-- `pending_lost_add` covers no number outside the ranges that it merges. -/
theorem Rearranges.add {first last : U32} (h : Rearranges channel spared start table)
    (hout : ∀ n ∈ spared, seqInRange n first last = false) :
    Rearranges channel spared start (pendingLostAdd channel table first last).1 := by
  obtain ⟨hmerged, hfree⟩ := h.merge pendingLostRanges hout
  simp only [pendingLostAdd]
  split
  · exact hmerged
  · split
    · next i hi =>
        have hslot := getElem?_of_freeIdx hi
        refine hmerged.put (List.getElem?_eq_some_iff.mp hslot).1 ?_ rfl hfree
        intro r hr
        rw [entryAt_eq_some, hslot] at hr
        simp at hr
    · exact hmerged

/-- All ranges of the channel are freed. -/
theorem Rearranges.freeChannel (table : List (Option PendingLostRange)) :
    Rearranges channel spared table (freeWhere (fun range => range.channel == channel) table) := by
  refine ⟨length_freeWhere _ _, fun ch hne => pendingOn_free_other hne table, ?_⟩
  intro n hn i range hi
  rw [← entryAt_pendingOn] at hi
  have hmem := mem_held_of_entryAt hi
  rw [pendingOn_free_self] at hmem
  exact absurd hmem (Multiset.notMem_zero range)

end Rearranges

/-! ## Spare numbers -/

/-- No pending-lost range of the channel contains the number, and no message of a frame
buffered on the channel does. -/
def Ctx.spare (c : Ctx) (key : Mac) (channel : ℕ) (n : U32) : Bool :=
  ((used (c.peer key).pendingLost).all fun range =>
    range.channel != channel || !seqInRange n range.first range.last) &&
  (used c.rx).all fun slot =>
    !slot.isFor key channel ||
      (slot.hdr.seq != n && !seqInRange n slot.hdr.firstSeq slot.hdr.lastSeq)

/-- The message of the frame does not contain the number. -/
def ReliableHdr.Misses (rh : ReliableHdr) (n : U32) : Prop :=
  rh.seq ≠ n ∧ seqInRange n rh.firstSeq rh.lastSeq = false

theorem spare_iff {c : Ctx} {key : Mac} {channel : ℕ} {n : U32} :
    c.spare key channel n = true ↔ Avoids channel (c.peer key).pendingLost n ∧
      ∀ slot ∈ held c.rx, slot.isFor key channel = true → slot.hdr.Misses n := by
  rw [Ctx.spare, Bool.and_eq_true, List.all_eq_true, List.all_eq_true]
  apply and_congr
  · constructor
    · intro h i range hi
      simpa [hi.2] using h range (mem_used.mpr (mem_held_of_entryAt hi.1))
    · intro h range hmem
      obtain ⟨i, hi⟩ := mem_held_iff_entryAt.mp (mem_used.mp hmem)
      by_cases hch : range.channel = channel
      · simp [hch, h i range ⟨hi, hch⟩]
      · simp [hch]
  · constructor
    · intro h slot hmem hfor
      simpa [hfor, ReliableHdr.Misses] using h slot (mem_used.mpr hmem)
    · intro h slot hmem
      cases hfor : slot.isFor key channel with
      | false => rfl
      | true => simpa [hfor, ReliableHdr.Misses] using h slot (mem_used.mp hmem) hfor

end KeemashCore.Rel
