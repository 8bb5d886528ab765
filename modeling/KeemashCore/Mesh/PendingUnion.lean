import KeemashCore.Mesh.PendingLost
import KeemashCore.SerialNumber.Basic
import KeemashCore.SlotTable.Ticket

/-!
# The pending-lost table wherever its window lies

`pending_lost_add` compares sequence numbers by their differences alone, so it does the same
on a table whose numbers are all moved by one distance.  Moving the window to zero carries
what is known of numbers that do not wrap around to every window of less than half a round.
-/

namespace KeemashCore.Rel

open SlotTable SerialNumber

/-! ## Moving all numbers -/

/-- A range with its numbers moved down. -/
def PendingLostRange.shift (base : U32) (range : PendingLostRange) : PendingLostRange :=
  { range with first := range.first - base, last := range.last - base }

def shiftTable (base : U32) (table : List (Option PendingLostRange)) :
    List (Option PendingLostRange) :=
  table.map (Option.map (PendingLostRange.shift base))

/-- A table and a range that is being merged into it. -/
def shiftMerge (base : U32) (merge : List (Option PendingLostRange) × U32 × U32) :
    List (Option PendingLostRange) × U32 × U32 :=
  (shiftTable base merge.1, merge.2.1 - base, merge.2.2 - base)

section Shift

variable {base : U32} {channel : ℕ}

theorem sub_shift (a b : U32) : a - base - (b - base) = a - b :=
  sub_sub_sub_cancel_right a b base

theorem seqBefore_shift (a b : U32) : seqBefore (a - base) (b - base) = seqBefore a b := by
  rw [seqBefore, seqBefore, sub_shift]

theorem seqAfter_shift (a b : U32) : seqAfter (a - base) (b - base) = seqAfter a b :=
  seqBefore_shift b a

theorem seqInRange_shift (seq first last : U32) :
    seqInRange (seq - base) (first - base) (last - base) = seqInRange seq first last := by
  rw [seqInRange, seqInRange, sub_shift, sub_shift]

theorem next_shift (a b : U32) : (a - base + 1 == b - base) = (a + 1 == b) := by
  have hiff : a - base + 1 = b - base ↔ a + 1 = b := by
    constructor
    · intro h
      bv_omega
    · rintro rfl
      bv_omega
  exact Bool.eq_iff_iff.2 (by rw [beq_iff_eq, beq_iff_eq, hiff])

theorem rangesTouch_shift (first last first' last' : U32) :
    rangesTouch (first - base) (last - base) (first' - base) (last' - base) =
      rangesTouch first last first' last' := by
  simp only [rangesTouch, seqInRange_shift, next_shift]

theorem ite_shift (p : Prop) [Decidable p] (a b : U32) :
    (if p then a - base else b - base) = (if p then a else b) - base :=
  (apply_ite (· - base) p a b).symm

theorem pendingLostJoin_shift (i : ℕ) (js : List ℕ) (table : List (Option PendingLostRange))
    (first last : U32) :
    pendingLostJoin channel i js (shiftTable base table) (first - base) (last - base) =
      shiftMerge base (pendingLostJoin channel i js table first last) := by
  induction js generalizing table first last with
  | nil => rfl
  | cons j js ih =>
      rw [pendingLostJoin, pendingLostJoin, shiftTable, entryAt_map]
      cases hentry : entryAt table j with
      | none => exact ih table first last
      | some other =>
          simp only [Option.map_some, PendingLostRange.shift, rangesTouch_shift,
            seqBefore_shift, seqAfter_shift, ite_shift]
          by_cases hjoin : j ≠ i ∧ other.channel = channel ∧
              rangesTouch other.first other.last first last = true
          · rw [if_pos hjoin, if_pos hjoin, ← ih]
            congr 1
            exact set_map (PendingLostRange.shift base) table j none
          · rw [if_neg hjoin, if_neg hjoin]
            exact ih table first last

theorem pendingLostPass_shift (table : List (Option PendingLostRange)) (first last : U32) :
    pendingLostPass channel (shiftTable base table) (first - base) (last - base) =
      (pendingLostPass channel table first last).map (shiftMerge base) := by
  have hfind : findIdx (fun range : PendingLostRange => range.channel == channel &&
        rangesTouch (first - base) (last - base) range.first range.last)
        (shiftTable base table) =
      findIdx (fun range : PendingLostRange => range.channel == channel &&
        rangesTouch first last range.first range.last) table := by
    apply findIdx_map
    intro range
    simp only [PendingLostRange.shift, rangesTouch_shift]
  rw [pendingLostPass, pendingLostPass, hfind]
  cases findIdx (fun range : PendingLostRange => range.channel == channel &&
      rangesTouch first last range.first range.last) table with
  | none => rfl
  | some i =>
      dsimp only
      rw [shiftTable, entryAt_map]
      cases entryAt table i with
      | none => rfl
      | some range =>
          simp only [Option.map_some, PendingLostRange.shift, seqBefore_shift, seqAfter_shift,
            ite_shift, List.length_map]
          have hjoin := @pendingLostJoin_shift base channel i
            (List.range table.length) table
            (if seqBefore first range.first then first else range.first)
            (if seqAfter last range.last then last else range.last)
          rw [shiftTable] at hjoin
          rw [hjoin, shiftMerge, shiftMerge]
          dsimp only
          rw [shiftTable, shiftTable, ← set_map]
          rfl

theorem pendingLostMerge_shift (n : ℕ) (table : List (Option PendingLostRange))
    (first last : U32) :
    pendingLostMerge channel n (shiftTable base table) (first - base) (last - base) =
      shiftMerge base (pendingLostMerge channel n table first last) := by
  induction n generalizing table first last with
  | zero => rfl
  | succ n ih =>
      rw [pendingLostMerge, pendingLostMerge, pendingLostPass_shift]
      cases pendingLostPass channel table first last with
      | none => rfl
      | some merged => exact ih merged.1 merged.2.1 merged.2.2

theorem used_shift (table : List (Option PendingLostRange)) :
    used (shiftTable base table) = (used table).map (PendingLostRange.shift base) := by
  rw [used, used, shiftTable, List.filterMap_map, List.map_filterMap]
  rfl

/-- Moving all numbers moves the result. -/
theorem pendingLostAdd_shift (table : List (Option PendingLostRange)) (first last : U32) :
    pendingLostAdd channel (shiftTable base table) (first - base) (last - base) =
      (pendingLostAdd channel table first last).map (shiftTable base) id := by
  rw [pendingLostAdd, pendingLostAdd, pendingLostMerge_shift]
  generalize pendingLostMerge channel pendingLostRanges table first last = merged
  have hcovers : ((used (shiftMerge base merged).1).any fun range =>
        range.channel == channel &&
          seqInRange (shiftMerge base merged).2.1 range.first range.last &&
          seqInRange (shiftMerge base merged).2.2 range.first range.last) =
      (used merged.1).any fun range =>
        range.channel == channel && seqInRange merged.2.1 range.first range.last &&
          seqInRange merged.2.2 range.first range.last := by
    rw [shiftMerge]
    dsimp only
    rw [used_shift, List.any_map]
    congr 1
    funext range
    simp only [Function.comp_apply, PendingLostRange.shift, seqInRange_shift]
  simp only [hcovers]
  by_cases hcover : ((used merged.1).any fun range =>
      range.channel == channel && seqInRange merged.2.1 range.first range.last &&
        seqInRange merged.2.2 range.first range.last) = true
  · rw [if_pos hcover, if_pos hcover]
    rfl
  · rw [if_neg hcover, if_neg hcover]
    have hfree : freeIdx (shiftMerge base merged).1 = freeIdx merged.1 := freeIdx_map _ _
    rw [hfree]
    cases freeIdx merged.1 with
    | none => rfl
    | some i =>
        have hset := set_map (PendingLostRange.shift base) merged.1 i
          (some ⟨channel, merged.2.1, merged.2.2⟩)
        exact Prod.ext hset rfl

end Shift

/-! ## Ranges in a window -/

/-- The range runs upwards within the `size` numbers from `base` on. -/
def InWindow (base : U32) (size : ℕ) (first last : U32) : Prop :=
  (first - base).toNat ≤ (last - base).toNat ∧ (last - base).toNat < size

/-- Two ranges have no number in common, and neither follows the other. -/
def Separate (range range' : PendingLostRange) : Prop :=
  (∀ x, ¬(Between range.first range.last x ∧ Between range'.first range'.last x)) ∧
    range.last + 1 ≠ range'.first ∧ range'.last + 1 ≠ range.first

/-- The sequence numbers pending on a channel. -/
def pendingSet (channel : ℕ) (table : List (Option PendingLostRange)) : Set U32 :=
  {x | ∃ i range, OnChannel channel table i range ∧ Between range.first range.last x}

section Window

variable {base : U32} {size : ℕ} {channel : ℕ}

theorem between_shift (first last x : U32) :
    Between (first - base) (last - base) (x - base) ↔ Between first last x := by
  rw [Between, Between, sub_shift, sub_shift]

/-- Within a window of less than half a round a range is an interval of the distances from
its base. -/
theorem InWindow.between_iff {first last : U32} (h : InWindow base size first last)
    (x : U32) : Between first last x ↔
      (first - base).toNat ≤ (x - base).toNat ∧ (x - base).toNat ≤ (last - base).toNat := by
  rw [← @between_shift base]
  have hiff := @seqInRange_iff (x - base) _ _ h.1
  rw [seqInRange, decide_eq_true_iff] at hiff
  exact hiff

theorem InWindow.seqRange {first last : U32} (hsize : size ≤ 2 ^ 31)
    (h : InWindow base size first last) : SeqRange (first - base) (last - base) :=
  ⟨h.1, h.2.trans_le hsize⟩

theorem shift_inj {range range' : PendingLostRange} :
    range.shift base = range'.shift base ↔ range = range' := by
  obtain ⟨ch, first, last⟩ := range
  obtain ⟨ch', first', last'⟩ := range'
  simp [PendingLostRange.shift]

theorem onChannel_shift {table : List (Option PendingLostRange)} {i : ℕ}
    {range' : PendingLostRange} :
    OnChannel channel (shiftTable base table) i range' ↔
      ∃ range, OnChannel channel table i range ∧ range.shift base = range' := by
  rw [OnChannel, shiftTable, entryAt_map, Option.map_eq_some_iff]
  constructor
  · rintro ⟨⟨range, hentry, rfl⟩, hch⟩
    exact ⟨range, ⟨hentry, hch⟩, rfl⟩
  · rintro ⟨range, ⟨hentry, hch⟩, rfl⟩
    exact ⟨⟨range, hentry, rfl⟩, hch⟩

theorem OnChannel.shift {table : List (Option PendingLostRange)} {i : ℕ}
    {range : PendingLostRange} (h : OnChannel channel table i range) (base : U32) :
    OnChannel channel (shiftTable base table) i (range.shift base) :=
  onChannel_shift.2 ⟨range, h, rfl⟩

/-- The number after a range of a window is the next one by distance. -/
theorem next_iff {a b : U32} (ha : (a - base).toNat < 2 ^ 31) :
    a + 1 = b ↔ (a - base).toNat + 1 = (b - base).toNat := by
  constructor
  · rintro rfl
    bv_omega
  · intro h
    bv_omega

/-- Separate ranges of a window are apart as intervals. -/
theorem separate_iff_apart {range range' : PendingLostRange} (hsize : size ≤ 2 ^ 31)
    (h : InWindow base size range.first range.last)
    (h' : InWindow base size range'.first range'.last) :
    Separate range range' ↔ Apart (range.shift base).range (range'.shift base).range := by
  have hlast := h.2.trans_le hsize
  have hlast' := h'.2.trans_le hsize
  rw [Separate, ne_eq, ne_eq, next_iff hlast, next_iff hlast', Apart]
  simp only [h.between_iff, h'.between_iff, PendingLostRange.range, PendingLostRange.shift]
  have hle := h.1
  have hle' := h'.1
  constructor
  · rintro ⟨hdisjoint, hnext, hnext'⟩
    -- Were they not apart, the later of the two first numbers would be in both.
    have hfirst := hdisjoint range.first
    have hfirst' := hdisjoint range'.first
    omega
  · intro hapart
    refine ⟨?_, ?_, ?_⟩
    · intro x hx
      omega
    · omega
    · omega

/-- A table whose ranges on the channel lie separate in a window is one of ascending ranges
apart from each other, seen from the base of the window. -/
theorem pendingOk_shift {table : List (Option PendingLostRange)} (hsize : size ≤ 2 ^ 31)
    (hwindow : ∀ i range, OnChannel channel table i range →
      InWindow base size range.first range.last)
    (hseparate : ∀ i j range range', OnChannel channel table i range →
      OnChannel channel table j range' → i ≠ j → Separate range range') :
    PendingOk channel none (shiftTable base table) := by
  constructor
  · intro i range₁ h₁ _
    obtain ⟨range, hon, rfl⟩ := onChannel_shift.1 h₁
    exact (hwindow i range hon).seqRange hsize
  · intro i j range₁ range₂ h₁ h₂ hne _ _
    obtain ⟨range, hon, rfl⟩ := onChannel_shift.1 h₁
    obtain ⟨range', hon', rfl⟩ := onChannel_shift.1 h₂
    apply (separate_iff_apart hsize (hwindow i range hon) (hwindow j range' hon')).1
    exact hseparate i j range range' hon hon' hne

end Window

/-! ## The result of the merge -/

section Merge

variable {channel : ℕ} {table : List (Option PendingLostRange)} {first last : U32}

/-- Further passes leave the merged range as an entry. -/
theorem pendingLostMerge_entry {n : ℕ} (hok : PendingOk channel none table)
    (hrange : SeqRange first last)
    (hentry : ∃ i, entryAt table i = some ⟨channel, first, last⟩) :
    ∃ i, entryAt (pendingLostMerge channel n table first last).1 i =
      some ⟨channel, (pendingLostMerge channel n table first last).2.1,
        (pendingLostMerge channel n table first last).2.2⟩ := by
  induction n generalizing table first last with
  | zero => exact hentry
  | succ n ih =>
      rw [pendingLostMerge]
      cases hpass : pendingLostPass channel table first last with
      | none => exact hentry
      | some merged =>
          obtain ⟨hmerge, hrange', hentry'⟩ := pendingLostPass_spec hok hrange hpass
          exact ih hmerge.ok hrange' hentry'

/-- Without success nothing has been merged, and no slot is free. -/
theorem pendingLostAdd_full (hok : PendingOk channel none table) (hrange : SeqRange first last)
    (hfull : (pendingLostAdd channel table first last).2 = false) :
    (pendingLostAdd channel table first last).1 = table ∧ freeIdx table = none ∧
      ∀ i range, OnChannel channel table i range →
        Apart range.range (first.toNat, last.toNat) := by
  have hmerge : pendingLostMerge channel pendingLostRanges table first last =
      match pendingLostPass channel table first last with
      | some merged => pendingLostMerge channel 7 merged.1 merged.2.1 merged.2.2
      | none => (table, first, last) := by
    rw [pendingLostRanges, pendingLostMerge]
    cases pendingLostPass channel table first last with
    | none => rfl
    | some merged => rfl
  rw [pendingLostAdd] at hfull ⊢
  rw [hmerge] at hfull ⊢
  cases hpass : pendingLostPass channel table first last with
  | none =>
      rw [hpass] at hfull
      dsimp only at hfull ⊢
      split_ifs at hfull ⊢ with hcover
      cases hfree : freeIdx table with
      | some i =>
          rw [hfree] at hfull
          exact absurd hfull (by simp)
      | none => exact ⟨rfl, rfl, pendingLostPass_none hok hrange hpass⟩
  | some merged =>
      -- The merged range is an entry, and an entry covers itself.
      obtain ⟨hmerges, hrange', hentry⟩ := pendingLostPass_spec hok hrange hpass
      obtain ⟨i, hi⟩ := pendingLostMerge_entry (n := 7) hmerges.ok hrange' hentry
      rw [hpass] at hfull
      dsimp only at hfull
      rw [if_pos] at hfull
      · exact absurd hfull (by simp)
      · refine used_any.2 ⟨_, mem_held_of_entryAt hi, ?_⟩
        simp [seqInRange, BitVec.le_def]

end Merge

/-! ## Any window -/

section Add

variable {base : U32} {size channel : ℕ} {table : List (Option PendingLostRange)}
  {first last : U32}

theorem shiftTable_inj {table' : List (Option PendingLostRange)} :
    shiftTable base table = shiftTable base table' ↔ table = table' := by
  constructor
  · intro h
    apply List.map_injective_iff.2 _ h
    apply Option.map_injective
    intro range range' heq
    exact shift_inj.1 heq
  · rintro rfl
    rfl

theorem pendingOn_shift (ch : ℕ) (table : List (Option PendingLostRange)) :
    pendingOn ch (shiftTable base table) = shiftTable base (pendingOn ch table) := by
  rw [pendingOn, pendingOn, freeWhere, freeWhere, shiftTable, shiftTable, List.map_map,
    List.map_map]
  apply List.map_congr_left
  rintro (_ | range) -
  · rfl
  · simp only [Function.comp_apply, Option.map_some, Option.filter_some, PendingLostRange.shift]
    split_ifs <;> rfl

/-- The numbers of a channel, seen from the base of a window that holds its ranges. -/
theorem mem_pendingSet_iff
    (hwindow : ∀ i range, OnChannel channel table i range →
      InWindow base size range.first range.last) (x : U32) :
    x ∈ pendingSet channel table ↔
      (x - base).toNat ∈ pendingNumbers channel (shiftTable base table) := by
  constructor
  · rintro ⟨i, range, hon, hx⟩
    exact ⟨i, range.shift base, hon.shift base, ((hwindow i range hon).between_iff x).1 hx⟩
  · rintro ⟨i, range', hon', hx⟩
    obtain ⟨range, hon, rfl⟩ := onChannel_shift.1 hon'
    exact ⟨i, range, hon, ((hwindow i range hon).between_iff x).2 hx⟩

theorem inWindow_of_pendingOk (hok : PendingOk channel none (shiftTable base table)) {i : ℕ}
    {range : PendingLostRange} (hon : OnChannel channel table i range) :
    InWindow base (2 ^ 31) range.first range.last :=
  hok.range i _ (hon.shift base) (by simp)

/-- Entries that are apart from each other as intervals lie separate in half a round. -/
theorem separate_of_pendingOk (hok : PendingOk channel none (shiftTable base table))
    {i j : ℕ} {range range' : PendingLostRange} (hon : OnChannel channel table i range)
    (hon' : OnChannel channel table j range') (hne : i ≠ j) : Separate range range' := by
  apply (separate_iff_apart (le_refl _) (inWindow_of_pendingOk hok hon)
    (inWindow_of_pendingOk hok hon')).2
  exact hok.apart i j _ _ (hon.shift base) (hon'.shift base) hne (by simp) (by simp)

/-- Adding a range to a table is taking the union.  The ranges of the channel are separate,
and with the new one they lie in a window of less than half a round, which may pass zero. -/
theorem pendingLostAdd_union (hsize : size < 2 ^ 31)
    (hwindow : ∀ i range, OnChannel channel table i range →
      InWindow base size range.first range.last)
    (hseparate : ∀ i j range range', OnChannel channel table i range →
      OnChannel channel table j range' → i ≠ j → Separate range range')
    (hnew : InWindow base size first last) :
    ((pendingLostAdd channel table first last).2 = true →
      pendingSet channel (pendingLostAdd channel table first last).1 =
          pendingSet channel table ∪ {x | Between first last x} ∧
        (∀ i j range range',
          OnChannel channel (pendingLostAdd channel table first last).1 i range →
          OnChannel channel (pendingLostAdd channel table first last).1 j range' →
          i ≠ j → Separate range range') ∧
        ∀ ch, ch ≠ channel → ∀ i range,
          OnChannel ch (pendingLostAdd channel table first last).1 i range ↔
            OnChannel ch table i range) ∧
    ((pendingLostAdd channel table first last).2 = false →
      (pendingLostAdd channel table first last).1 = table ∧
        (∀ i range, OnChannel channel table i range →
          Separate range ⟨channel, first, last⟩) ∧
        ∀ entry ∈ table, entry ≠ none) := by
  have hok := pendingOk_shift hsize.le hwindow hseparate
  have hrange := hnew.seqRange hsize.le
  have hadd := @pendingLostAdd_shift base channel table first last
  constructor
  · intro htrue
    have hspec := pendingLostAdd_spec hok hrange (by rw [hadd]; exact htrue)
    rw [hadd] at hspec
    dsimp only [Prod.map_fst] at hspec
    refine ⟨?_, ?_, ?_⟩
    · ext x
      have hafter := mem_pendingSet_iff (fun i range => inWindow_of_pendingOk hspec.ok) x
      rw [hafter, hspec.numbers, Set.mem_union, Set.mem_union, mem_pendingSet_iff hwindow,
        Set.mem_ofPred_eq, hnew.between_iff, Set.mem_Icc]
    · intro i j range range' hon hon' hne
      exact separate_of_pendingOk hspec.ok hon hon' hne
    · intro ch hne i range
      have hother := hspec.other ch hne
      rw [pendingOn_shift, pendingOn_shift, shiftTable_inj] at hother
      rw [← entryAt_pendingOn, ← entryAt_pendingOn, hother]
  · intro hfalse
    obtain ⟨hsame, hfree, hapart⟩ :=
      pendingLostAdd_full hok hrange (by rw [hadd]; exact hfalse)
    rw [hadd] at hsame
    refine ⟨shiftTable_inj.1 hsame, ?_, ?_⟩
    · intro i range hon
      apply (separate_iff_apart hsize.le (hwindow i range hon) hnew).2
      exact hapart i _ (hon.shift base)
    · rw [shiftTable, freeIdx_map, freeIdx, List.findIdx?_eq_none_iff] at hfree
      intro entry hentry hnone
      exact absurd (hfree entry hentry) (by simp [hnone])

end Add

/-- Two ranges on channel `3`, on either side of zero. -/
def aroundZero : List (Option PendingLostRange) :=
  some ⟨3, 0xfffffff0, 0xfffffff5⟩ :: some ⟨3, 2, 3⟩ :: List.replicate 6 none

theorem onChannel_aroundZero {channel i : ℕ} {range : PendingLostRange}
    (h : OnChannel channel aroundZero i range) :
    i = 0 ∧ range = ⟨3, 0xfffffff0, 0xfffffff5⟩ ∨ i = 1 ∧ range = ⟨3, 2, 3⟩ := by
  obtain ⟨hentry, -⟩ := h
  rw [entryAt_eq_some, aroundZero] at hentry
  match i with
  | 0 => exact .inl ⟨rfl, (Option.some.inj (Option.some.inj hentry)).symm⟩
  | 1 => exact .inr ⟨rfl, (Option.some.inj (Option.some.inj hentry)).symm⟩
  | i + 2 =>
      rw [List.getElem?_cons_succ, List.getElem?_cons_succ, List.getElem?_replicate] at hentry
      split_ifs at hentry
      exact absurd hentry (by simp)

/-- A range across zero joins the two. -/
theorem pendingLostAdd_union_aroundZero :
    pendingSet 3 (pendingLostAdd 3 aroundZero 0xfffffff6 1).1 =
      pendingSet 3 aroundZero ∪ {x | Between 0xfffffff6 1 x} := by
  have hwindow : ∀ i range, OnChannel 3 aroundZero i range →
      InWindow 0xfffffff0 100 range.first range.last := by
    intro i range h
    obtain ⟨-, rfl⟩ | ⟨-, rfl⟩ := onChannel_aroundZero h
    · exact ⟨by decide, by decide⟩
    · exact ⟨by decide, by decide⟩
  have hseparate : ∀ i j range range', OnChannel 3 aroundZero i range →
      OnChannel 3 aroundZero j range' → i ≠ j → Separate range range' := by
    intro i j range range' h h' hne
    apply (separate_iff_apart (by decide) (hwindow i range h) (hwindow j range' h')).2
    obtain ⟨rfl, rfl⟩ | ⟨rfl, rfl⟩ := onChannel_aroundZero h <;>
      obtain ⟨rfl, rfl⟩ | ⟨rfl, rfl⟩ := onChannel_aroundZero h'
    · exact absurd rfl hne
    · exact .inl (by decide)
    · exact .inr (by decide)
    · exact absurd rfl hne
  exact ((pendingLostAdd_union (by decide) hwindow hseparate ⟨by decide, by decide⟩).1
    (by decide +kernel)).1

end KeemashCore.Rel
