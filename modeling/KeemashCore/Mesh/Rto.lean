import KeemashCore.Mesh.Isolation
import KeemashCore.Smoothing.Basic
import KeemashCore.Trace.Basic

/-!
# The retransmission timeout

`update_rto` takes the round-trip times of acknowledged packets one after another.  On
numbers of 32 bits it computes what the smoothing of natural numbers with weights 7 and 3
gives, since no step of it leaves the 32 bits.
-/

namespace KeemashCore.Rel

open Smoothing SlotTable

/-- The samples that `update_rto` takes in. -/
def rttAccepted (sample : U32) : Bool :=
  sample != 0 && decide (sample ≤ 60000)

/-- The smoothed round-trip time of a peer as numbers. -/
def Peer.rttEstimate (p : Peer) : Estimate where
  mean := p.srttMs.toNat
  deviation := p.rttvarMs.toNat

/-- The numbers that `update_rto` computes on its way, before they are cut to 32 bits. -/
def rtoValues (p : Peer) (sample : U32) : List ℤ :=
  if sample = 0 ∨ sample > 60000 then []
  else
    let x : ℤ := sample.toNat
    let srtt : ℤ := p.srttMs.toNat
    let rttvar : ℤ := p.rttvarMs.toNat
    if srtt = 0 then [4 * (x / 2), x + 4 * (x / 2)]
    else
      let diff := if srtt > x then srtt - x else x - srtt
      let rttvar' := (3 * rttvar + diff) / 4
      let srtt' := (7 * srtt + x) / 8
      [diff, 3 * rttvar, 3 * rttvar + diff, 7 * srtt, 7 * srtt + x, 4 * rttvar',
        srtt' + 4 * rttvar']

/-- The timeout lies within the configured limits. -/
def Peer.RtoWithin (cfg : RelConfig) (p : Peer) : Prop :=
  cfg.minRtoMs ≤ p.rtoMs ∧ p.rtoMs ≤ cfg.maxRtoMs

section Step

variable {cfg : RelConfig} {p : Peer} {sample : U32}

theorem rttAccepted_iff :
    rttAccepted sample = true ↔ 0 < sample.toNat ∧ sample.toNat ≤ 60000 := by
  rw [rttAccepted, Bool.and_eq_true, bne_iff_ne, decide_eq_true_iff, BitVec.le_def, ne_eq,
    ← BitVec.toNat_inj, Nat.pos_iff_ne_zero]
  rfl

/-- The guard of `update_rto` turns the other samples away. -/
theorem rttAccepted_eq_false_iff :
    rttAccepted sample = false ↔ sample = 0 ∨ sample > 60000 := by
  rw [rttAccepted, Bool.and_eq_false_iff, bne_eq_false_iff_eq, decide_eq_false_iff_not,
    BitVec.not_le]

theorem updateRto_rejected (h : rttAccepted sample = false) : updateRto cfg p sample = p := by
  rw [updateRto, if_pos (rttAccepted_eq_false_iff.1 h)]

theorem not_rejected (h : rttAccepted sample = true) : ¬(sample = 0 ∨ sample > 60000) := by
  rw [← rttAccepted_eq_false_iff, h]
  exact Bool.noConfusion

/-- The difference that `update_rto` takes is the distance of the numbers. -/
theorem toNat_diff (a b : U32) :
    (if a > b then a - b else b - a).toNat = Nat.dist a.toNat b.toNat := by
  rw [Nat.dist]
  by_cases h : a > b
  · rw [if_pos h]
    bv_omega
  · rw [if_neg h]
    bv_omega

/-- A weighted sum that stays within 32 bits is smoothed as a number. -/
theorem toNat_average {w old new : U32} (hw : w.toNat ≤ 7) (hold : old.toNat ≤ 60000)
    (hnew : new.toNat ≤ 60000) :
    ((w * old + new) / (w + 1)).toNat = average w.toNat old.toNat new.toNat := by
  have hproduct : w.toNat * old.toNat ≤ 7 * 60000 := Nat.mul_le_mul hw hold
  have hmul : (w * old).toNat = w.toNat * old.toNat := by
    rw [BitVec.toNat_mul, Nat.mod_eq_of_lt]
    omega
  have hsum : (w * old + new).toNat = w.toNat * old.toNat + new.toNat := by
    rw [BitVec.toNat_add, hmul, Nat.mod_eq_of_lt]
    omega
  have hdiv : (w + 1).toNat = w.toNat + 1 := by
    bv_omega
  rw [BitVec.toNat_udiv, hsum, hdiv, average]

theorem rttEstimate_first (h : rttAccepted sample = true) (hzero : p.srttMs = 0) :
    (updateRto cfg p sample).rttEstimate = ⟨sample.toNat, sample.toNat / 2⟩ := by
  rw [updateRto, if_neg (not_rejected h)]
  simp only [Peer.rttEstimate, if_pos hzero, BitVec.toNat_udiv]
  rfl

theorem rttEstimate_next (hp : p.rttEstimate.Within 60000) (h : rttAccepted sample = true)
    (hzero : p.srttMs ≠ 0) :
    (updateRto cfg p sample).rttEstimate =
      ⟨average 7 p.srttMs.toNat sample.toNat,
        average 3 p.rttvarMs.toNat (Nat.dist p.srttMs.toNat sample.toNat)⟩ := by
  have hsample := (rttAccepted_iff.1 h).2
  have hdist : (if p.srttMs > sample then p.srttMs - sample else sample - p.srttMs).toNat ≤
      60000 := by
    rw [toNat_diff]
    exact Estimate.dist_le hp.mean_le hsample
  have hmean := toNat_average (w := 7) (le_refl 7) hp.mean_le hsample
  have hdev := toNat_average (w := 3) (by decide) hp.deviation_le hdist
  rw [toNat_diff] at hdev
  rw [updateRto, if_neg (not_rejected h)]
  simp only [Peer.rttEstimate, if_neg hzero]
  exact congrArg₂ Estimate.mk hmean hdev

/-- What `update_rto` computes for a sample it takes in is what the numbers give. -/
theorem rttEstimate_updateRto (hp : p.rttEstimate.Within 60000)
    (h : rttAccepted sample = true) :
    (updateRto cfg p sample).rttEstimate = p.rttEstimate.update 7 3 sample.toNat := by
  rw [Estimate.update]
  by_cases hzero : p.srttMs = 0
  · have hmean : p.rttEstimate.mean = 0 := congrArg BitVec.toNat hzero
    rw [if_pos hmean]
    exact rttEstimate_first h hzero
  · have hmean : p.rttEstimate.mean ≠ 0 := fun hm => hzero (BitVec.eq_of_toNat_eq hm)
    rw [if_neg hmean]
    exact rttEstimate_next hp h hzero

theorem within_updateRto (hp : p.rttEstimate.Within 60000) :
    (updateRto cfg p sample).rttEstimate.Within 60000 := by
  by_cases h : rttAccepted sample = true
  · rw [rttEstimate_updateRto hp h]
    exact hp.update (rttAccepted_iff.1 h).2
  · rw [updateRto_rejected (Bool.eq_false_iff.2 h)]
    exact hp

theorem rtoWithin_updateRto (hcfg : cfg.minRtoMs ≤ cfg.maxRtoMs) (hp : p.RtoWithin cfg) :
    (updateRto cfg p sample).RtoWithin cfg := by
  by_cases h : rttAccepted sample = true
  · rw [updateRto, if_neg (not_rejected h)]
    rw [Peer.RtoWithin]
    dsimp only
    split_ifs <;> bv_omega
  · rw [updateRto_rejected (Bool.eq_false_iff.2 h)]
    exact hp

/-- No sum, product or difference of `update_rto` leaves the 32 bits. -/
theorem rtoValues_lt (hp : p.rttEstimate.Within 60000) :
    ∀ v ∈ rtoValues p sample, 0 ≤ v ∧ v < 2 ^ 32 := by
  have hmean : p.srttMs.toNat ≤ 60000 := hp.mean_le
  have hdev : p.rttvarMs.toNat ≤ 60000 := hp.deviation_le
  intro v hv
  rw [rtoValues] at hv
  by_cases h : rttAccepted sample = true
  · have hsample := (rttAccepted_iff.1 h).2
    rw [if_neg (not_rejected h)] at hv
    by_cases hzero : (p.srttMs.toNat : ℤ) = 0
    · simp only [if_pos hzero, List.mem_cons, List.not_mem_nil, or_false] at hv
      omega
    · simp only [if_neg hzero, List.mem_cons, List.not_mem_nil, or_false] at hv
      split_ifs at hv <;> omega
  · rw [if_pos (rttAccepted_eq_false_iff.1 (Bool.eq_false_iff.2 h))] at hv
    exact absurd hv List.not_mem_nil

end Step

section Run

variable {cfg : RelConfig} {p : Peer} {samples : List U32}

theorem run_within (hp : p.rttEstimate.Within 60000) :
    (Trace.run (updateRto cfg) p samples).rttEstimate.Within 60000 := by
  induction samples generalizing p with
  | nil => exact hp
  | cons sample samples ih =>
      rw [Trace.run_cons]
      exact ih (within_updateRto hp)

theorem run_rtoWithin (hcfg : cfg.minRtoMs ≤ cfg.maxRtoMs) (hp : p.RtoWithin cfg) :
    (Trace.run (updateRto cfg) p samples).RtoWithin cfg := by
  induction samples generalizing p with
  | nil => exact hp
  | cons sample samples ih =>
      rw [Trace.run_cons]
      exact ih (rtoWithin_updateRto hcfg hp)

/-- Over a run the 32-bit computation is the smoothing of the accepted samples. -/
theorem rttEstimate_run (hp : p.rttEstimate.Within 60000) :
    (Trace.run (updateRto cfg) p samples).rttEstimate =
      Trace.run (Estimate.update 7 3) p.rttEstimate
        ((samples.filter rttAccepted).map BitVec.toNat) := by
  induction samples generalizing p with
  | nil => rfl
  | cons sample samples ih =>
      rw [Trace.run_cons, ih (within_updateRto hp)]
      by_cases h : rttAccepted sample = true
      · rw [List.filter_cons_of_pos h, List.map_cons, Trace.run_cons,
          rttEstimate_updateRto hp h]
      · rw [List.filter_cons_of_neg h, updateRto_rejected (Bool.eq_false_iff.2 h)]

/-- A mean that is positive stays positive. -/
theorem run_mean_pos (hp : p.rttEstimate.Within 60000) (hpos : 0 < p.rttEstimate.mean) :
    0 < (Trace.run (updateRto cfg) p samples).rttEstimate.mean := by
  induction samples generalizing p with
  | nil => exact hpos
  | cons sample samples ih =>
      rw [Trace.run_cons]
      apply ih (within_updateRto hp)
      by_cases h : rttAccepted sample = true
      · rw [rttEstimate_updateRto hp h]
        exact Estimate.update_mean_pos (rttAccepted_iff.1 h).1
      · rw [updateRto_rejected (Bool.eq_false_iff.2 h)]
        exact hpos

/-- The smoothed time is zero exactly as long as no sample was taken in. -/
theorem run_srtt_eq_zero_iff (hp : p.rttEstimate.Within 60000) (hzero : p.srttMs = 0) :
    (Trace.run (updateRto cfg) p samples).srttMs = 0 ↔
      ∀ sample ∈ samples, rttAccepted sample = false := by
  induction samples generalizing p with
  | nil => simp [hzero]
  | cons sample samples ih =>
      rw [Trace.run_cons, List.forall_mem_cons]
      by_cases h : rttAccepted sample = true
      · have hpos : 0 < (Trace.run (updateRto cfg) (updateRto cfg p sample)
            samples).rttEstimate.mean := by
          apply run_mean_pos (within_updateRto hp)
          rw [rttEstimate_updateRto hp h]
          exact Estimate.update_mean_pos (rttAccepted_iff.1 h).1
        constructor
        · intro hnone
          exact absurd (congrArg BitVec.toNat hnone) hpos.ne'
        · intro hall
          exact absurd h (Bool.eq_false_iff.1 hall.1)
      · have hrejected := Bool.eq_false_iff.2 h
        rw [updateRto_rejected hrejected, ih hp hzero]
        exact (and_iff_right hrejected).symm

end Run

section AckSlots

variable {c : Ctx} {key : Mac} {now : U32}

/-- What the loop of `ack_slots` does with the round trip of a slot it frees. -/
def takeSample (key : Mac) (now : U32) (c : Ctx) (slot : TxSlot) : Ctx :=
  if slot.retries = 0 ∧ slot.firstSentMs ≠ 0 then
    c.modPeer key fun p => updateRto c.cfg p (now - slot.firstSentMs)
  else c

/-- The samples that slots give: a packet that was sent again gives none. -/
def rttSamples (now : U32) (slots : List TxSlot) : List U32 :=
  (slots.filter fun slot => decide (slot.retries = 0 ∧ slot.firstSentMs ≠ 0)).map
    fun slot => now - slot.firstSentMs

/-- The slots that an acknowledgement frees. -/
def AckPayload.freed (ack : AckPayload) (c : Ctx) (key : Mac) : List TxSlot :=
  (used c.tx).filter fun slot => slot.isFor key ack.channelId && ack.accepts slot.seq

theorem mac_updateRto (cfg : RelConfig) (p : Peer) (sample : U32) :
    (updateRto cfg p sample).mac = p.mac :=
  congrArg Prod.fst (updateRto_seen cfg p sample).1

theorem has_takeSample (hkey : c.has key) (slot : TxSlot) :
    (takeSample key now c slot).has key := by
  rw [takeSample]
  split
  · exact (has_modPeer (fun p => mac_updateRto c.cfg p _) key).2 hkey
  · exact hkey

/-- The slots leave the record as `update_rto` over their samples does. -/
theorem peer_takeSamples (hkey : c.has key) (slots : List TxSlot) :
    (slots.foldl (takeSample key now) c).has key ∧
      (slots.foldl (takeSample key now) c).peer key =
        Trace.run (updateRto c.cfg) (c.peer key) (rttSamples now slots) := by
  induction slots generalizing c with
  | nil => exact ⟨hkey, rfl⟩
  | cons slot slots ih =>
      rw [List.foldl_cons]
      obtain ⟨hhas, hpeer⟩ := ih (has_takeSample hkey slot)
      refine ⟨hhas, ?_⟩
      rw [hpeer]
      by_cases h : slot.retries = 0 ∧ slot.firstSentMs ≠ 0
      · rw [takeSample, if_pos h, peer_modPeer_self (fun p => mac_updateRto c.cfg p _) hkey,
          rttSamples, rttSamples, List.filter_cons_of_pos (by simpa using h), List.map_cons,
          Trace.run_cons]
        rfl
      · rw [takeSample, if_neg h, rttSamples, rttSamples,
          List.filter_cons_of_neg (by simpa using h)]

/-- An acknowledgement runs `update_rto` of its peer over the samples of the slots it
frees. -/
theorem peer_ackSlots (hkey : c.has key) (ack : AckPayload) :
    (ackSlots c key ack now).peer key =
      (Trace.run (updateRto c.cfg) (c.peer key)
        (rttSamples now (ack.freed c key))).acknowledged now := by
  obtain ⟨hhas, hpeer⟩ := @peer_takeSamples c key now hkey (ack.freed c key)
  rw [← hpeer]
  exact peer_modPeer_self (c := ((ack.freed c key).foldl (takeSample key now) c).setTx _)
    (fun _ => rfl) hhas

end AckSlots

section Fresh

variable {cfg : RelConfig} (key mac : Mac) (now : U32)

theorem newPeer_within : (newPeer cfg key mac now).rttEstimate.Within 60000 :=
  ⟨Nat.zero_le _, Nat.zero_le _⟩

/-- From a fresh peer on, whatever samples `update_rto` is given: nothing it computes
overflows, the smoothed times stay within a minute, the first accepted sample alone finds
the smoothed time zero, and the timeout keeps to its limits. -/
theorem rto_stays_in_range (hmin : cfg.minRtoMs ≤ cfg.initialRtoMs)
    (hmax : cfg.initialRtoMs ≤ cfg.maxRtoMs) (samples : List U32) :
    let p := Trace.run (updateRto cfg) (newPeer cfg key mac now) samples
    (∀ sample, ∀ v ∈ rtoValues p sample, 0 ≤ v ∧ v < 2 ^ 32) ∧
      p.rttEstimate =
        Trace.run (Estimate.update 7 3) ⟨0, 0⟩
          ((samples.filter rttAccepted).map BitVec.toNat) ∧
      p.srttMs ≤ 60000 ∧ p.rttvarMs ≤ 60000 ∧
      (p.srttMs = 0 ↔ ∀ sample ∈ samples, rttAccepted sample = false) ∧
      cfg.minRtoMs ≤ p.rtoMs ∧ p.rtoMs ≤ cfg.maxRtoMs := by
  intro p
  have hfresh := @newPeer_within cfg key mac now
  have hp : p.rttEstimate.Within 60000 := run_within hfresh
  have hrto : p.RtoWithin cfg :=
    run_rtoWithin (BitVec.le_trans hmin hmax) ⟨hmin, hmax⟩
  refine ⟨?_, ?_, ?_, ?_, ?_, hrto⟩
  · intro sample
    exact rtoValues_lt hp
  · exact rttEstimate_run hfresh
  · exact hp.mean_le
  · exact hp.deviation_le
  · exact run_srtt_eq_zero_iff hfresh rfl

/-- A round trip of 300 ms, and then a difference that has wrapped. -/
theorem rto_stays_in_range_wrapped :
    (Trace.run (updateRto (smallConfig true 0x10)) (newPeer (smallConfig true 0x10) 0x10 0x20 1)
        [300, 0xfffffff0]).srttMs = 300 ∧
      (Trace.run (updateRto (smallConfig true 0x10)) (newPeer (smallConfig true 0x10) 0x10 0x20 1)
        [300, 0xfffffff0]).rtoMs ≤ (smallConfig true 0x10).maxRtoMs := by
  constructor
  · decide +kernel
  · exact (@rto_stays_in_range (smallConfig true 0x10) 0x10 0x20 1 (by decide) (by decide)
      [300, 0xfffffff0]).2.2.2.2.2.2

end Fresh

end KeemashCore.Rel
