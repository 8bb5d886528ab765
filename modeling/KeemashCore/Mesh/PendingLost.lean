import KeemashCore.Mesh.Slice

/-!
# The pending-lost table

`pending_lost_add` merges a range with every entry of its channel that it
overlaps or meets, and repeats the scan up to eight times.  On a table whose
entries are pairwise apart one scan is enough: the numbers on the channel grow by
exactly the new range, and the entries stay apart.
-/

namespace KeemashCore.Rel

open SlotTable SelectiveRepeat

/-! ## Ranges of numbers -/

/-- At least one number lies between the two ranges. -/
def Apart (x y : ℕ × ℕ) : Prop :=
  x.2 + 1 < y.1 ∨ y.2 + 1 < x.1

theorem Apart.symm {x y : ℕ × ℕ} (h : Apart x y) : Apart y x :=
  h.elim .inr .inl

/-- A range apart from two ranges that meet is apart from their hull. -/
theorem Apart.hull {x y z : ℕ × ℕ} (hx : z.1 ≤ z.2) (hzx : Apart z x)
    (hzy : Apart z y) (hxy : ¬Apart x y) :
    Apart z (min x.1 y.1, max x.2 y.2) := by
  simp only [Apart] at *
  omega

/-- The hull of two ranges that meet holds the numbers of the two. -/
theorem mem_hull_iff {x y : ℕ × ℕ} (hxy : ¬Apart x y) (n : ℕ) :
    n ∈ Set.Icc (min x.1 y.1) (max x.2 y.2) ↔
      n ∈ Set.Icc x.1 x.2 ∨ n ∈ Set.Icc y.1 y.2 := by
  simp only [Apart, Set.mem_Icc] at *
  omega

/-- Numbers below `2 ^ 31` in ascending order. -/
def SeqRange (first last : U32) : Prop :=
  first.toNat ≤ last.toNat ∧ last.toNat < 2 ^ 31

theorem rangesTouch_iff {first last first' last' : U32}
    (h : SeqRange first last) (h' : SeqRange first' last') :
    rangesTouch first last first' last' = true ↔
      ¬Apart (first.toNat, last.toNat) (first'.toNat, last'.toNat) := by
  obtain ⟨h1, h2⟩ := h
  obtain ⟨h3, h4⟩ := h'
  have hone : (1 : U32).toNat = 1 := rfl
  simp only [rangesTouch, Bool.or_eq_true, seqInRange_iff h1, seqInRange_iff h3,
    beq_iff_eq, ← BitVec.toNat_inj, BitVec.toNat_add, hone, Apart]
  omega

theorem toNat_seqMin {a b : U32} (ha : a.toNat < 2 ^ 31) (hb : b.toNat < 2 ^ 31) :
    (if seqBefore a b then a else b).toNat = min a.toNat b.toNat := by
  have h := seqBefore_iff (a := a) (b := b) (by omega) (by omega) (by omega)
  split
  · next hlt => rw [min_eq_left (h.mp hlt).le]
  · next hge => rw [min_eq_right (Nat.le_of_not_lt fun hlt => hge (h.mpr hlt))]

theorem toNat_seqMax {a b : U32} (ha : a.toNat < 2 ^ 31) (hb : b.toNat < 2 ^ 31) :
    (if seqAfter a b then a else b).toNat = max a.toNat b.toNat := by
  have h := seqAfter_iff (a := a) (b := b) (by omega) (by omega) (by omega)
  split
  · next hlt => rw [max_eq_left (h.mp hlt).le]
  · next hge => rw [max_eq_right (Nat.le_of_not_lt fun hlt => hge (h.mpr hlt))]

/-! ## The table -/

/-- The entry in slot `i` is a range of the channel. -/
def OnChannel (channel : ℕ) (table : List (Option PendingLostRange)) (i : ℕ)
    (range : PendingLostRange) : Prop :=
  entryAt table i = some range ∧ range.channel = channel

/-- The numbers pending on a channel. -/
def pendingNumbers (channel : ℕ) (table : List (Option PendingLostRange)) : Set ℕ :=
  {n | ∃ i range, OnChannel channel table i range ∧
    n ∈ Set.Icc range.range.1 range.range.2}

/-- The entries of a channel are ascending ranges, pairwise apart; the slot
`skip` does not count. -/
structure PendingOk (channel : ℕ) (skip : Option ℕ)
    (table : List (Option PendingLostRange)) : Prop where
  range : ∀ i range, OnChannel channel table i range → some i ≠ skip →
    SeqRange range.first range.last
  apart : ∀ i j range range', OnChannel channel table i range →
    OnChannel channel table j range' → i ≠ j → some i ≠ skip → some j ≠ skip →
    Apart range.range range'.range

theorem entryAt_pendingOn {channel i : ℕ} {table : List (Option PendingLostRange)}
    {range : PendingLostRange} :
    entryAt (pendingOn channel table) i = some range ↔
      OnChannel channel table i range := by
  rw [pendingOn, entryAt_freeWhere, Option.filter_eq_some_iff, OnChannel]
  simp

/-- Freeing the ranges of a channel leaves those of the others. -/
theorem pendingOn_free_other {ch channel : ℕ} (h : ch ≠ channel)
    (table : List (Option PendingLostRange)) :
    pendingOn ch (freeWhere (fun range => range.channel == channel) table) =
      pendingOn ch table := by
  refine ext_entryAt (by simp [pendingOn, length_freeWhere]) fun i => ?_
  simp only [pendingOn, entryAt_freeWhere]
  cases entryAt table i with
  | none => rfl
  | some range =>
      by_cases hc : range.channel = channel
      · have hne : range.channel ≠ ch := fun heq => h (heq.symm.trans hc)
        simp [Option.filter, hc, Ne.symm h]
      · simp [Option.filter, hc]

theorem pendingOn_free_self (channel : ℕ) (table : List (Option PendingLostRange)) :
    held (pendingOn channel (freeWhere (fun range => range.channel == channel) table)) =
      0 := by
  refine Multiset.eq_zero_of_forall_notMem fun range hmem => ?_
  obtain ⟨i, hi⟩ := mem_held_iff_entryAt.mp hmem
  rw [entryAt_pendingOn] at hi
  obtain ⟨hi, hc⟩ := hi
  rw [entryAt_freeWhere, Option.filter_eq_some_iff] at hi
  simp [hc] at hi

theorem pendingOn_set_none (ch i : ℕ) (table : List (Option PendingLostRange)) :
    pendingOn ch (table.set i none) = (pendingOn ch table).set i none :=
  List.map_set

/-- Freeing a range of one channel leaves those of the others. -/
theorem pendingOn_set_other {ch channel i : ℕ} (hne : ch ≠ channel)
    {table : List (Option PendingLostRange)} {range : PendingLostRange}
    (h : OnChannel channel table i range) :
    pendingOn ch (table.set i none) = pendingOn ch table := by
  rw [pendingOn_set_none]
  refine ext_entryAt (by simp) fun j => ?_
  rw [entryAt_set_none]
  split
  · next heq =>
      rw [heq, pendingOn, entryAt_freeWhere, h.1]
      simp [Option.filter, h.2, Ne.symm hne]
  · rfl

/-! ## The join loop -/

/-- What the join loop does to the table and to the range `x`: entries of the
channel other than `i` may go, and then the range covers them. -/
structure Joins (channel i : ℕ) (table table' : List (Option PendingLostRange))
    (x x' : ℕ × ℕ) : Prop where
  length : table'.length = table.length
  entry : ∀ j, entryAt table' j = entryAt table j ∨
    (entryAt table' j = none ∧ j ≠ i ∧ ∃ range, OnChannel channel table j range ∧
      Set.Icc range.range.1 range.range.2 ⊆ Set.Icc x'.1 x'.2)
  grows : Set.Icc x.1 x.2 ⊆ Set.Icc x'.1 x'.2
  numbers : ∀ n ∈ Set.Icc x'.1 x'.2, n ∈ Set.Icc x.1 x.2 ∨
    ∃ j range, j ≠ i ∧ OnChannel channel table j range ∧
      n ∈ Set.Icc range.range.1 range.range.2

theorem Joins.refl (channel i : ℕ) (table : List (Option PendingLostRange))
    (x : ℕ × ℕ) : Joins channel i table table x x :=
  ⟨rfl, fun _ => .inl rfl, subset_rfl, fun _ hn => .inl hn⟩

theorem Joins.onChannel {channel i : ℕ} {table table' : List (Option PendingLostRange)}
    {x x' : ℕ × ℕ} (h : Joins channel i table table' x x') {j : ℕ}
    {range : PendingLostRange} (hj : OnChannel channel table' j range) :
    OnChannel channel table j range := by
  rcases h.entry j with heq | ⟨hnone, -⟩
  · exact ⟨heq ▸ hj.1, hj.2⟩
  · rw [hj.1] at hnone
    exact absurd hnone (by simp)

/-- One joined entry in front of a joined rest. -/
theorem Joins.cons {channel i j : ℕ} {table table' : List (Option PendingLostRange)}
    {x y x' : ℕ × ℕ} {range : PendingLostRange} (hne : j ≠ i)
    (hj : OnChannel channel table j range)
    (hy : ∀ n, n ∈ Set.Icc y.1 y.2 ↔
      n ∈ Set.Icc range.range.1 range.range.2 ∨ n ∈ Set.Icc x.1 x.2)
    (h : Joins channel i (table.set j none) table' y x') :
    Joins channel i table table' x x' := by
  have hon : ∀ {m r}, OnChannel channel (table.set j none) m r →
      OnChannel channel table m r := by
    rintro m r ⟨hm, hch⟩
    rw [entryAt_set_none] at hm
    split at hm
    · exact absurd hm (by simp)
    · exact ⟨hm, hch⟩
  refine ⟨by rw [h.length, List.length_set], ?_, fun n hn => h.grows ((hy n).mpr (.inr hn)),
    ?_⟩
  · intro m
    by_cases hm : m = j
    · subst hm
      refine .inr ⟨?_, hne, range, hj, fun n hn => h.grows ((hy n).mpr (.inl hn))⟩
      rcases h.entry m with heq | ⟨hnone, -⟩
      · rw [heq, entryAt_set_none, if_pos rfl]
      · exact hnone
    · rcases h.entry m with heq | ⟨hnone, hmi, r, hr, hsub⟩
      · rw [entryAt_set_none, if_neg hm] at heq
        exact .inl heq
      · exact .inr ⟨hnone, hmi, r, hon hr, hsub⟩
  · intro n hn
    rcases h.numbers n hn with hn | ⟨m, r, hmi, hr, hn⟩
    · rcases (hy n).mp hn with hn | hn
      · exact .inr ⟨j, range, hne, hj, hn⟩
      · exact .inl hn
    · exact .inr ⟨m, r, hmi, hon hr, hn⟩

/-- The join loop folds every entry that meets the range into it. -/
theorem pendingLostJoin_spec {channel i : ℕ} {js : List ℕ} (hjs : js.Nodup)
    {table : List (Option PendingLostRange)} {first last : U32}
    (hok : PendingOk channel (some i) table) (hrange : SeqRange first last)
    (hdone : ∀ j range, j ∉ js → j ≠ i → OnChannel channel table j range →
      Apart range.range (first.toNat, last.toNat)) :
    let joined := pendingLostJoin channel i js table first last
    Joins channel i table joined.1 (first.toNat, last.toNat)
        (joined.2.1.toNat, joined.2.2.toNat) ∧
      SeqRange joined.2.1 joined.2.2 ∧
      ∀ j range, j ≠ i → OnChannel channel joined.1 j range →
        Apart range.range (joined.2.1.toNat, joined.2.2.toNat) := by
  induction js generalizing table first last with
  | nil =>
      refine ⟨Joins.refl _ _ _ _, hrange, ?_⟩
      intro j range hne hj
      exact hdone j range (by simp) hne hj
  | cons j js ih =>
      obtain ⟨hj, hjs⟩ := List.nodup_cons.mp hjs
      -- An entry that stays must be apart from the range before the next one.
      have hstay : (∀ range, OnChannel channel table j range → j ≠ i →
          Apart range.range (first.toNat, last.toNat)) →
          ∀ m range, m ∉ js → m ≠ i → OnChannel channel table m range →
            Apart range.range (first.toNat, last.toNat) := by
        intro happart m range hm hne hon
        by_cases hmj : m = j
        · subst hmj
          exact happart range hon hne
        · exact hdone m range (by simp [hm, hmj]) hne hon
      simp only [pendingLostJoin]
      cases hentry : entryAt table j with
      | none =>
          refine ih hjs hok hrange (hstay ?_)
          rintro range ⟨hr, -⟩
          rw [hentry] at hr
          exact absurd hr (by simp)
      | some other =>
          dsimp only
          split
          · next hjoin =>
              obtain ⟨hne, hch, htouch⟩ := hjoin
              have hon : OnChannel channel table j other := ⟨hentry, hch⟩
              have hother := hok.range j other hon (by simpa using hne)
              have hmeet := (rangesTouch_iff hother hrange).mp htouch
              have hmin := toNat_seqMin (hother.1.trans_lt hother.2)
                (hrange.1.trans_lt hrange.2)
              have hmax := toNat_seqMax hother.2 hrange.2
              have hok' : PendingOk channel (some i) (table.set j none) := by
                have hsub : ∀ m r, OnChannel channel (table.set j none) m r →
                    OnChannel channel table m r ∧ m ≠ j := by
                  rintro m r ⟨hm, hc⟩
                  rw [entryAt_set_none] at hm
                  split at hm
                  · exact absurd hm (by simp)
                  · next hmj => exact ⟨⟨hm, hc⟩, hmj⟩
                exact ⟨fun m r hm => hok.range m r (hsub m r hm).1,
                  fun m m' r r' hm hm' => hok.apart m m' r r' (hsub m r hm).1
                    (hsub m' r' hm').1⟩
              have hrange' : SeqRange
                  (if seqBefore other.first first then other.first else first)
                  (if seqAfter other.last last then other.last else last) := by
                rw [SeqRange, hmin, hmax]
                exact ⟨(min_le_right _ _).trans (hrange.1.trans (le_max_right _ _)),
                  max_lt hother.2 hrange.2⟩
              obtain ⟨hjoins, hseq, hfree⟩ := ih hjs hok' hrange' (by
                intro m r hm hmi hr
                obtain ⟨hrt, hc⟩ := hr
                rw [entryAt_set_none] at hrt
                split at hrt
                · exact absurd hrt (by simp)
                · next hmj =>
                    have hr : OnChannel channel table m r := ⟨hrt, hc⟩
                    rw [hmin, hmax]
                    exact Apart.hull (hok.range m r hr (by simpa using hmi)).1
                      (hok.apart m j r other hr hon hmj (by simpa using hmi)
                        (by simpa using hne))
                      (hdone m r (by simp [hm, hmj]) hmi hr) hmeet)
              refine ⟨hjoins.cons hne hon ?_, hseq, hfree⟩
              intro n
              rw [hmin, hmax]
              exact mem_hull_iff hmeet n
          · next hjoin =>
              refine ih hjs hok hrange (hstay ?_)
              rintro range ⟨hr, hc⟩ hne
              rw [hentry, Option.some.injEq] at hr
              subst hr
              have hother := hok.range j other ⟨hentry, hc⟩ (by simpa using hne)
              by_contra hmeet
              exact hjoin ⟨hne, hc, (rangesTouch_iff hother hrange).mpr hmeet⟩

/-! ## The passes -/

/-- What merging the range `x` does to the table. -/
structure Merges (channel : ℕ) (table table' : List (Option PendingLostRange))
    (x x' : ℕ × ℕ) : Prop where
  length : table'.length = table.length
  ok : PendingOk channel none table'
  other : ∀ ch, ch ≠ channel → pendingOn ch table' = pendingOn ch table
  fewer : ∀ j, (entryAt (pendingOn channel table') j).isSome →
    (entryAt (pendingOn channel table) j).isSome
  numbers : ∀ n, n ∈ pendingNumbers channel table' ∨ n ∈ Set.Icc x'.1 x'.2 ↔
    n ∈ pendingNumbers channel table ∨ n ∈ Set.Icc x.1 x.2

theorem pendingOn_eq_of_entries {ch : ℕ} {table table' : List (Option PendingLostRange)}
    (hlen : table'.length = table.length)
    (h : ∀ j range, OnChannel ch table' j range ↔ OnChannel ch table j range) :
    pendingOn ch table' = pendingOn ch table := by
  refine ext_entryAt (by simp [pendingOn, length_freeWhere, hlen]) fun j => ?_
  ext range
  rw [entryAt_pendingOn, entryAt_pendingOn]
  exact h j range

/-- One pass merges the range into the first entry it meets. -/
theorem pendingLostPass_spec {channel : ℕ} {table table' : List (Option PendingLostRange)}
    {first last first' last' : U32} (hok : PendingOk channel none table)
    (hrange : SeqRange first last)
    (h : pendingLostPass channel table first last = some (table', first', last')) :
    Merges channel table table' (first.toNat, last.toNat)
        (first'.toNat, last'.toNat) ∧
      SeqRange first' last' ∧
      ∃ i, entryAt table' i = some ⟨channel, first', last'⟩ := by
  simp only [pendingLostPass] at h
  cases hfind : findIdx (fun range : PendingLostRange => range.channel == channel &&
      rangesTouch first last range.first range.last) table with
  | none => simp [hfind] at h
  | some i =>
      obtain ⟨range, hentry, hmatch⟩ := entryAt_of_findIdx hfind
      rw [Bool.and_eq_true, beq_iff_eq] at hmatch
      obtain ⟨hch, htouch⟩ := hmatch
      have hon : OnChannel channel table i range := ⟨hentry, hch⟩
      have hr := hok.range i range hon (by simp)
      have hmeet := (rangesTouch_iff hrange hr).mp htouch
      have hmin := toNat_seqMin (hrange.1.trans_lt hrange.2) (hr.1.trans_lt hr.2)
      have hmax := toNat_seqMax hrange.2 hr.2
      have hok' : PendingOk channel (some i) table :=
        ⟨fun j r hj _ => hok.range j r hj (by simp),
          fun j j' r r' hj hj' hne _ _ => hok.apart j j' r r' hj hj' hne (by simp) (by simp)⟩
      have hrange' : SeqRange (if seqBefore first range.first then first else range.first)
          (if seqAfter last range.last then last else range.last) := by
        rw [SeqRange, hmin, hmax]
        exact ⟨(min_le_left _ _).trans (hrange.1.trans (le_max_left _ _)),
          max_lt hrange.2 hr.2⟩
      obtain ⟨hjoins, hseq, hfree⟩ := pendingLostJoin_spec
        (List.nodup_range (n := table.length)) hok' hrange' (by
          intro j r hj _ hjr
          have := lt_length_of_entryAt hjr.1
          exact absurd (List.mem_range.mpr this) hj)
      simp only [hfind, hentry, Option.some.injEq, Prod.mk.injEq] at h
      obtain ⟨rfl, rfl, rfl⟩ := h
      set joined := pendingLostJoin channel i (List.range table.length) table _ _
        with hjoined
      have hi : i < joined.1.length := by
        rw [hjoins.length]
        exact lt_length_of_entryAt hentry
      -- The entries of the new table: the merged range in slot `i`, the rest as joined.
      have hset : ∀ j, entryAt (joined.1.set i (some ⟨channel, joined.2.1, joined.2.2⟩)) j =
          if j = i then some ⟨channel, joined.2.1, joined.2.2⟩ else entryAt joined.1 j :=
        entryAt_set hi _
      have hself : entryAt (joined.1.set i (some ⟨channel, joined.2.1, joined.2.2⟩)) i =
          some ⟨channel, joined.2.1, joined.2.2⟩ := by
        rw [hset, if_pos rfl]
      have hnew : ∀ {j r}, j ≠ i →
          OnChannel channel (joined.1.set i (some ⟨channel, joined.2.1, joined.2.2⟩)) j r →
          OnChannel channel joined.1 j r := by
        rintro j r hne ⟨hj, hc⟩
        rw [hset, if_neg hne] at hj
        exact ⟨hj, hc⟩
      have hcase : ∀ {j r},
          OnChannel channel (joined.1.set i (some ⟨channel, joined.2.1, joined.2.2⟩)) j r →
          j = i ∧ r = ⟨channel, joined.2.1, joined.2.2⟩ ∨
            j ≠ i ∧ OnChannel channel joined.1 j r := by
        intro j r hj
        by_cases hji : j = i
        · subst hji
          refine .inl ⟨rfl, ?_⟩
          have := hj.1
          rw [hself, Option.some.injEq] at this
          exact this.symm
        · exact .inr ⟨hji, hnew hji hj⟩
      refine ⟨⟨by rw [List.length_set, hjoins.length], ⟨?_, ?_⟩, ?_, ?_, ?_⟩, hseq,
        i, hself⟩
      · intro j r hj _
        rcases hcase hj with ⟨-, rfl⟩ | ⟨-, hj⟩
        · exact hseq
        · exact hok.range j r (hjoins.onChannel hj) (by simp)
      · intro j j' r r' hj hj' hne _ _
        rcases hcase hj with ⟨rfl, rfl⟩ | ⟨hji, hj⟩
        · rcases hcase hj' with ⟨rfl, rfl⟩ | ⟨hji', hj'⟩
          · exact absurd rfl hne
          · exact (hfree j' r' hji' hj').symm
        · rcases hcase hj' with ⟨rfl, rfl⟩ | ⟨hji', hj'⟩
          · exact hfree j r hji hj
          · exact hok.apart j j' r r' (hjoins.onChannel hj) (hjoins.onChannel hj') hne
              (by simp) (by simp)
      · intro ch hne
        refine pendingOn_eq_of_entries (by rw [List.length_set, hjoins.length]) ?_
        intro j r
        constructor
        · rintro ⟨hj, hc⟩
          rw [hset] at hj
          split at hj
          · rw [Option.some.injEq] at hj
            exact absurd (by rw [← hc, ← hj]) hne
          · rcases hjoins.entry j with heq | ⟨hnone, -⟩
            · exact ⟨heq ▸ hj, hc⟩
            · rw [hj] at hnone
              exact absurd hnone (by simp)
        · rintro ⟨hj, hc⟩
          have hji : j ≠ i := by
            rintro rfl
            rw [hentry, Option.some.injEq] at hj
            exact hne (by rw [← hc, ← hj, hch])
          refine ⟨?_, hc⟩
          rw [hset, if_neg hji]
          rcases hjoins.entry j with heq | ⟨-, -, r', hr', -⟩
          · rw [heq, hj]
          · have := hr'.1
            rw [hj, Option.some.injEq] at this
            exact absurd (by rw [← hc, this, hr'.2]) hne
      · intro j hj
        obtain ⟨r, hr⟩ := Option.isSome_iff_exists.mp hj
        rw [entryAt_pendingOn] at hr
        rcases hcase hr with ⟨rfl, -⟩ | ⟨-, hj⟩
        · exact Option.isSome_iff_exists.mpr ⟨range, entryAt_pendingOn.mpr hon⟩
        · exact Option.isSome_iff_exists.mpr
            ⟨r, entryAt_pendingOn.mpr (hjoins.onChannel hj)⟩
      · intro n
        have hhull := mem_hull_iff hmeet n
        rw [← hmin, ← hmax] at hhull
        constructor
        · rintro (⟨j, r, hj, hn⟩ | hn)
          · rcases hcase hj with ⟨-, rfl⟩ | ⟨-, hj⟩
            · rcases hjoins.numbers n hn with hn | ⟨m, r, -, hr, hn⟩
              · rcases hhull.mp hn with hn | hn
                · exact .inr hn
                · exact .inl ⟨i, range, hon, hn⟩
              · exact .inl ⟨m, r, hr, hn⟩
            · exact .inl ⟨j, r, hjoins.onChannel hj, hn⟩
          · rcases hjoins.numbers n hn with hn | ⟨m, r, -, hr, hn⟩
            · rcases hhull.mp hn with hn | hn
              · exact .inr hn
              · exact .inl ⟨i, range, hon, hn⟩
            · exact .inl ⟨m, r, hr, hn⟩
        · rintro (⟨j, r, hj, hn⟩ | hn)
          · by_cases hji : j = i
            · subst hji
              have hrr : r = range := by
                have := hj.1
                rw [hentry, Option.some.injEq] at this
                exact this.symm
              subst hrr
              exact .inr (hjoins.grows (hhull.mpr (.inr hn)))
            · rcases hjoins.entry j with heq | ⟨-, -, r', hr', hsub⟩
              · refine .inl ⟨j, r, ⟨?_, hj.2⟩, hn⟩
                rw [hset, if_neg hji, heq, hj.1]
              · have hrr : r' = r := by
                  have := hr'.1
                  rw [hj.1, Option.some.injEq] at this
                  exact this.symm
                subst hrr
                exact .inr (hsub hn)
          · exact .inr (hjoins.grows (hhull.mpr (.inl hn)))

theorem pendingLostPass_none {channel : ℕ} {table : List (Option PendingLostRange)}
    {first last : U32} (hok : PendingOk channel none table)
    (hrange : SeqRange first last)
    (h : pendingLostPass channel table first last = none) :
    ∀ i range, OnChannel channel table i range →
      Apart range.range (first.toNat, last.toNat) := by
  have hfind : findIdx (fun range : PendingLostRange => range.channel == channel &&
      rangesTouch first last range.first range.last) table = none := by
    simp only [pendingLostPass] at h
    split at h
    · assumption
    · next i hi =>
        obtain ⟨range, hentry, -⟩ := entryAt_of_findIdx hi
        simp [hentry] at h
  intro i range hon
  have hr := hok.range i range hon (by simp)
  have hno := findIdx_eq_none.mp hfind range (mem_held_of_entryAt hon.1)
  rw [hon.2, beq_self_eq_true, Bool.true_and] at hno
  by_contra hmeet
  have := (rangesTouch_iff hrange hr).mpr fun h => hmeet h.symm
  rw [hno] at this
  exact absurd this (by simp)

theorem Merges.refl {channel : ℕ} {table : List (Option PendingLostRange)}
    (hok : PendingOk channel none table) (x : ℕ × ℕ) :
    Merges channel table table x x :=
  ⟨rfl, hok, fun _ _ => rfl, fun _ h => h, fun _ => Iff.rfl⟩

theorem Merges.trans {channel : ℕ} {table table' table'' : List (Option PendingLostRange)}
    {x x' x'' : ℕ × ℕ} (h : Merges channel table table' x x')
    (h' : Merges channel table' table'' x' x'') : Merges channel table table'' x x'' :=
  ⟨h'.length.trans h.length, h'.ok,
    fun ch hne => (h'.other ch hne).trans (h.other ch hne),
    fun j hj => h.fewer j (h'.fewer j hj),
    fun n => (h'.numbers n).trans (h.numbers n)⟩

/-- After at least one pass the range is an entry, or it is apart from all. -/
theorem pendingLostMerge_spec {channel n : ℕ} {table : List (Option PendingLostRange)}
    {first last : U32} (hok : PendingOk channel none table)
    (hrange : SeqRange first last)
    (hn : n ≠ 0 ∨ ∃ i, entryAt table i = some ⟨channel, first, last⟩) :
    let merged := pendingLostMerge channel n table first last
    Merges channel table merged.1 (first.toNat, last.toNat)
        (merged.2.1.toNat, merged.2.2.toNat) ∧
      SeqRange merged.2.1 merged.2.2 ∧
      ((∃ i, entryAt merged.1 i = some ⟨channel, merged.2.1, merged.2.2⟩) ∨
        ∀ i range, OnChannel channel merged.1 i range →
          Apart range.range (merged.2.1.toNat, merged.2.2.toNat)) := by
  induction n generalizing table first last with
  | zero =>
      exact ⟨Merges.refl hok _, hrange, .inl (hn.resolve_left fun h => h rfl)⟩
  | succ n ih =>
      simp only [pendingLostMerge]
      cases hpass : pendingLostPass channel table first last with
      | none =>
          exact ⟨Merges.refl hok _, hrange, .inr (pendingLostPass_none hok hrange hpass)⟩
      | some merged =>
          obtain ⟨table', first', last'⟩ := merged
          obtain ⟨hmerge, hrange', hentry⟩ := pendingLostPass_spec hok hrange hpass
          obtain ⟨hrest, hseq, hend⟩ := ih hmerge.ok hrange' (.inr hentry)
          exact ⟨hmerge.trans hrest, hseq, hend⟩

/-! ## Adding a range -/

/-- What a successful `pending_lost_add` of the range `x` does to the table. -/
structure Adds (channel : ℕ) (table table' : List (Option PendingLostRange))
    (x : ℕ × ℕ) : Prop where
  length : table'.length = table.length
  ok : PendingOk channel none table'
  other : ∀ ch, ch ≠ channel → pendingOn ch table' = pendingOn ch table
  card : (held (pendingOn channel table')).card ≤
    (held (pendingOn channel table)).card + 1
  numbers : pendingNumbers channel table' =
    pendingNumbers channel table ∪ Set.Icc x.1 x.2

/-- A merged range that is apart from all entries takes a free slot. -/
theorem Merges.place {channel i : ℕ} {table table' : List (Option PendingLostRange)}
    {first last : U32} {x : ℕ × ℕ}
    (hmerge : Merges channel table table' x (first.toNat, last.toNat))
    (hseq : SeqRange first last)
    (hapart : ∀ i range, OnChannel channel table' i range →
      Apart range.range (first.toNat, last.toNat))
    (hfree : table'[i]? = some none) :
    Adds channel table (table'.set i (some ⟨channel, first, last⟩)) x := by
  obtain ⟨hi, -⟩ := List.getElem?_eq_some_iff.mp hfree
  have hset := entryAt_set hi (some (⟨channel, first, last⟩ : PendingLostRange))
  have hempty : entryAt table' i = none := by simp [entryAt, hfree]
  have hcase : ∀ {j r},
      OnChannel channel (table'.set i (some ⟨channel, first, last⟩)) j r →
      j = i ∧ r = ⟨channel, first, last⟩ ∨ j ≠ i ∧ OnChannel channel table' j r := by
    rintro j r ⟨hj, hc⟩
    rw [hset] at hj
    split at hj
    · next hji =>
        rw [Option.some.injEq] at hj
        exact .inl ⟨hji, hj.symm⟩
    · next hji => exact .inr ⟨hji, hj, hc⟩
  have hold : ∀ {ch j r}, OnChannel ch table' j r →
      OnChannel ch (table'.set i (some ⟨channel, first, last⟩)) j r := by
    rintro ch j r ⟨hj, hc⟩
    refine ⟨?_, hc⟩
    rw [hset, if_neg, hj]
    rintro rfl
    rw [hempty] at hj
    exact absurd hj (by simp)
  have hself : OnChannel channel (table'.set i (some ⟨channel, first, last⟩)) i
      ⟨channel, first, last⟩ := ⟨by rw [hset, if_pos rfl], rfl⟩
  refine ⟨by rw [List.length_set, hmerge.length], ⟨?_, ?_⟩, ?_, ?_, ?_⟩
  · intro j r hj _
    rcases hcase hj with ⟨-, rfl⟩ | ⟨-, hj⟩
    · exact hseq
    · exact hmerge.ok.range j r hj (by simp)
  · intro j j' r r' hj hj' hne _ _
    rcases hcase hj with ⟨hji, rfl⟩ | ⟨-, hj⟩
    · rcases hcase hj' with ⟨hji', -⟩ | ⟨-, hj'⟩
      · exact absurd (hji.trans hji'.symm) hne
      · exact (hapart j' r' hj').symm
    · rcases hcase hj' with ⟨-, rfl⟩ | ⟨-, hj'⟩
      · exact hapart j r hj
      · exact hmerge.ok.apart j j' r r' hj hj' hne (by simp) (by simp)
  · intro ch hne
    rw [← hmerge.other ch hne]
    refine pendingOn_eq_of_entries (List.length_set ..) fun j r => ⟨?_, hold⟩
    rintro ⟨hj, hc⟩
    rw [hset] at hj
    split at hj
    · rw [Option.some.injEq] at hj
      exact absurd (by rw [← hc, ← hj]) hne
    · exact ⟨hj, hc⟩
  · have hplaced : pendingOn channel (table'.set i (some ⟨channel, first, last⟩)) =
        (pendingOn channel table').set i (some ⟨channel, first, last⟩) := by
      rw [pendingOn, pendingOn, freeWhere, freeWhere, List.map_set]
      simp [Option.filter]
    have hfree' : (pendingOn channel table')[i]? = some none := by
      simp [pendingOn, freeWhere, hfree]
    rw [hplaced, held_set_some _ hfree', Multiset.card_cons]
    exact Nat.succ_le_succ
      (card_held_mono (by simp [pendingOn, length_freeWhere, hmerge.length]) hmerge.fewer)
  · ext n
    rw [Set.mem_union, ← hmerge.numbers n]
    constructor
    · rintro ⟨j, r, hj, hn⟩
      rcases hcase hj with ⟨-, rfl⟩ | ⟨-, hj⟩
      · exact .inr hn
      · exact .inl ⟨j, r, hj, hn⟩
    · rintro (⟨j, r, hj, hn⟩ | hn)
      · exact ⟨j, r, hold hj, hn⟩
      · exact ⟨i, _, hself, hn⟩

/-- The numbers of the channel grow by the range, or the table has no room. -/
theorem pendingLostAdd_spec {channel : ℕ} {table : List (Option PendingLostRange)}
    {first last : U32} (hok : PendingOk channel none table)
    (hrange : SeqRange first last)
    (hroom : (pendingLostAdd channel table first last).2 = true) :
    Adds channel table (pendingLostAdd channel table first last).1
      (first.toNat, last.toNat) := by
  obtain ⟨hmerge, hseq, hend⟩ := pendingLostMerge_spec (n := pendingLostRanges) hok
    hrange (.inl (by decide))
  rw [pendingLostAdd] at hroom ⊢
  set merged := pendingLostMerge channel pendingLostRanges table first last with hmerged
  split
  · next hin =>
      -- Some entry covers the merged range already.
      obtain ⟨range, hmem, hmatch⟩ := used_any.mp hin
      simp only [Bool.and_eq_true, beq_iff_eq] at hmatch
      obtain ⟨⟨hch, hfirst⟩, hlast⟩ := hmatch
      obtain ⟨i, hi⟩ := mem_held_iff_entryAt.mp hmem
      have hon : OnChannel channel merged.1 i range := ⟨hi, hch⟩
      have hr := hmerge.ok.range i range hon (by simp)
      have hcard := card_held_mono
        (by simp [pendingOn, length_freeWhere, hmerge.length]) hmerge.fewer
      rw [seqInRange_iff hr.1] at hfirst hlast
      refine ⟨hmerge.length, hmerge.ok, hmerge.other, hcard.trans (Nat.le_succ _), ?_⟩
      ext n
      rw [Set.mem_union, ← hmerge.numbers n]
      refine ⟨.inl, fun h => h.elim id fun hn => ?_⟩
      exact ⟨i, range, hon, hfirst.1.trans hn.1, hn.2.trans hlast.2⟩
  · next hout =>
      rw [if_neg hout] at hroom
      have hapart := hend.resolve_left (by
        rintro ⟨i, hi⟩
        refine hout (used_any.mpr ⟨_, mem_held_of_entryAt hi, ?_⟩)
        simp [seqInRange_iff hseq.1, hseq.1])
      cases hfree : freeIdx merged.1 with
      | none => simp [hfree] at hroom
      | some i => exact hmerge.place hseq hapart (getElem?_of_freeIdx hfree)

/-! ## Tables with one channel -/

theorem onChannel_pendingOn {channel i : ℕ} {table : List (Option PendingLostRange)}
    {range : PendingLostRange} :
    OnChannel channel (pendingOn channel table) i range ↔
      OnChannel channel table i range := by
  rw [OnChannel, entryAt_pendingOn]
  exact ⟨And.left, fun h => ⟨h, h.2⟩⟩

theorem pendingNumbers_pendingOn (channel : ℕ) (table : List (Option PendingLostRange)) :
    pendingNumbers channel (pendingOn channel table) = pendingNumbers channel table := by
  simp only [pendingNumbers, onChannel_pendingOn]

theorem pendingOk_pendingOn {channel : ℕ} {skip : Option ℕ}
    {table : List (Option PendingLostRange)} :
    PendingOk channel skip (pendingOn channel table) ↔ PendingOk channel skip table := by
  constructor
  · intro h
    exact ⟨fun i range hi => h.range i range (onChannel_pendingOn.mpr hi),
      fun i j range range' hi hj => h.apart i j range range'
        (onChannel_pendingOn.mpr hi) (onChannel_pendingOn.mpr hj)⟩
  · intro h
    exact ⟨fun i range hi => h.range i range (onChannel_pendingOn.mp hi),
      fun i j range range' hi hj => h.apart i j range range'
        (onChannel_pendingOn.mp hi) (onChannel_pendingOn.mp hj)⟩

end KeemashCore.Rel
