import KeemashCore.Mesh.TunnelStill

/-!
# The stream of a tunnel channel

In a session the root hands on the frames of a channel in the order in which the node
numbered them, each at most once and with the payload it was sent with, whatever the network
does.  It may pass over frames, but only after the node gave one up, which it does for a
frame that its ring no longer has.  While the node is never more frames ahead than its ring
is long, nothing is passed over.
-/

namespace KeemashCore.Tunnel

open LittleEndian Rel ReplayRing Relation MeshRoot

/-! ## Runs of the node's end -/

section NodeRun

variable {mac : Mac} {session : U32} {bound : ℕ → ℕ} {gone : ℕ → ℕ → Prop}
  {n n' : TunnelNode} {request : Request}

theorem NodeStep.inners_prefix (h : NodeStep request n n') (channel : ℕ) :
    n.inners channel <+: n'.inners channel := by
  cases h with
  | quiet hquiet => exact inners_quiet hquiet ▸ List.prefix_rfl
  | queue _ _ _ _ =>
      rw [TunnelNode.inners_emit_send, TunnelNode.inners_emit_queued]
      split
      · exact List.prefix_append _ _
      · exact List.prefix_rfl
  | release _ => exact List.prefix_rfl
  | replay _ _ _ => exact TunnelNode.inners_emit_send n _ channel ▸ List.prefix_rfl
  | lose _ _ => exact TunnelNode.inners_emit_send n _ channel ▸ List.prefix_rfl

theorem NodeRun.inners_prefix (h : NodeRun request n n') (channel : ℕ) :
    n.inners channel <+: n'.inners channel := by
  induction h with
  | refl => exact List.prefix_rfl
  | tail _ hstep ih => exact ih.trans (hstep.inners_prefix channel)

/-- A run keeps the node's end in order. -/
theorem NodeRun.ok (hrun : NodeRun request n n') (h : NodeOk mac session bound gone n)
    (hfair : request.Fair bound gone n.inners)
    (hroom : ∀ ch, noChannel ch = false → (n'.inners ch).length < 2 ^ 32 - 1) :
    NodeOk mac session bound gone n' ∧ (request ≠ .nothing → n'.inners = n.inners) := by
  induction hrun with
  | refl => exact ⟨h, fun _ => rfl⟩
  | @tail mid last hmid hstep ih =>
      have hgrown (ch : ℕ) := (hstep.inners_prefix ch).length_le
      obtain ⟨hok, hkept⟩ := ih fun ch hch => (hgrown ch).trans_lt (hroom ch hch)
      have hfairMid : request.Fair bound gone mid.inners := by
        cases request with
        | nothing => exact Request.fair_nothing
        | ack channel ackSeq => exact hkept (by simp) ▸ hfair
        | nack channel missingSeq => exact hkept (by simp) ▸ hfair
      obtain ⟨hlast, hsame⟩ := hstep.ok hok hfairMid hroom
      exact ⟨hlast, fun hne => (hsame hne).trans (hkept hne)⟩

end NodeRun

/-! ## The numbers of a channel -/

/-- A channel that the root follows: what was handed on comes from what was sent, in order
and without repetition, and nothing that was handed on is still expected.  With `whole`
nothing was passed over either. -/
structure Stream (whole : Bool) (inners : List (List UInt8)) (track : Option (U32 × U32))
    (got : List (ℕ × List UInt8)) : Prop where
  genuine : ∀ x ∈ got, numbered inners x.1 = some x.2
  sorted : got.Pairwise fun x y => x.1 < y.1
  unseen : track = none → got = []
  seen : ∀ expected highest, track = some (expected, highest) →
    1 ≤ expected.toNat ∧ expected.toNat ≤ inners.length + 1 ∧
      highest.toNat ≤ inners.length ∧ ∀ x ∈ got, x.1 < expected.toNat
  whole : whole = true → ∃ expected highest, track = some (expected, highest) ∧
    got.map Prod.snd = inners.take (expected.toNat - 1)

/-- The number expected on a channel. -/
def expectedOn (track : Option (U32 × U32)) : ℕ :=
  match track with
  | some (expected, _) => expected.toNat
  | none => 1

/-- The state that a frame finds: a session that is picked up starts at it. -/
def openedBy (seq : U32) (track : Option (U32 × U32)) : U32 × U32 :=
  track.getD (if seq > 1 then (seq, seq) else (1, 0))

section Stream

variable {whole : Bool} {inners : List (List UInt8)} {track : Option (U32 × U32)}
  {got : List (ℕ × List UInt8)}

theorem Stream.grow (h : Stream whole inners track got) {inners' : List (List UInt8)}
    (hgrows : inners <+: inners') : Stream whole inners' track got := by
  obtain ⟨more, rfl⟩ := hgrows
  refine ⟨fun x hx => ?_, h.sorted, h.unseen, fun expected highest htrack => ?_,
    fun hwhole => ?_⟩
  · have hnumbered := h.genuine x hx
    rw [numbered] at hnumbered ⊢
    split at hnumbered
    · simp at hnumbered
    · next hzero =>
        have hlt := (List.getElem?_eq_some_iff.mp hnumbered).1
        rw [if_neg hzero, List.getElem?_append_left hlt, hnumbered]
  · obtain ⟨hone, hle, hhigh, hlt⟩ := h.seen expected highest htrack
    rw [List.length_append]
    exact ⟨hone, by omega, by omega, hlt⟩
  · obtain ⟨expected, highest, htrack, htake⟩ := h.whole hwhole
    obtain ⟨-, hle, -, -⟩ := h.seen expected highest htrack
    refine ⟨expected, highest, htrack, ?_⟩
    rw [htake, List.take_append_of_le_length (by omega)]

/-- A session that is opened by a frame of another channel. -/
theorem Stream.open (h : Stream whole inners track got) :
    Stream whole inners (some (track.getD (1, 0))) got := by
  cases htrack : track with
  | some pair =>
      rw [Option.getD_some, ← htrack]
      exact h
  | none =>
      have hnil := h.unseen htrack
      subst hnil
      refine ⟨h.genuine, h.sorted, by simp, fun expected highest heq => ?_, fun hwhole => ?_⟩
      · obtain ⟨rfl, rfl⟩ := Prod.mk.inj (Option.some.inj heq)
        exact ⟨le_rfl, Nat.le_add_left _ _, Nat.zero_le _, by simp⟩
      · obtain ⟨expected, highest, heq, -⟩ := h.whole hwhole
        rw [htrack] at heq
        simp at heq

/-- The highest number seen, after a frame. -/
theorem highest_judge (expected highest seq : U32) :
    (judge expected highest seq).highestSeenSeq = if seq > highest then seq else highest := by
  rw [judge]
  split
  · rfl
  · split
    · rfl
    · rfl

/-- What the root decides about a frame that was sent, before the last number. -/
theorem Stream.frame (h : Stream whole inners track got) {seq : U32} {inner : List UInt8}
    (hinner : numbered inners seq.toNat = some inner) (hroom : inners.length < 2 ^ 32 - 1)
    {verdict : Verdict}
    (hverdict : verdict = judge (openedBy seq track).1 (openedBy seq track).2 seq) :
    Stream whole inners (some (verdict.expectedSeq, verdict.highestSeenSeq))
        (if verdict.deliver then got ++ [(seq.toNat, inner)] else got) ∧
      expectedOn track ≤ verdict.expectedSeq.toNat ∧
      (verdict.sendNack = false → verdict.ackSeq.toNat < verdict.expectedSeq.toNat) ∧
      (verdict.sendNack = true → verdict.missingSeq.toNat ≤ inners.length) := by
  have hsent : 1 ≤ seq.toNat ∧ seq.toNat ≤ inners.length := by
    have hsome : numbered inners seq.toNat ≠ none := by rw [hinner]; simp
    rw [Ne, numbered_eq_none] at hsome
    omega
  have hone : (1 : U32).toNat = 1 := rfl
  -- What the frame finds satisfies the bounds of a followed channel.
  have hopen : 1 ≤ (openedBy seq track).1.toNat ∧
      (openedBy seq track).1.toNat ≤ inners.length + 1 ∧
      (openedBy seq track).2.toNat ≤ inners.length ∧
      (∀ x ∈ got, x.1 < (openedBy seq track).1.toNat) ∧
      expectedOn track ≤ (openedBy seq track).1.toNat ∧
      (whole = true → got.map Prod.snd = inners.take ((openedBy seq track).1.toNat - 1)) := by
    cases htrack : track with
    | some pair =>
        obtain ⟨hlow, hle, hhigh, hlt⟩ := h.seen pair.1 pair.2 htrack
        refine ⟨hlow, hle, hhigh, hlt, le_rfl, fun hwhole => ?_⟩
        obtain ⟨expected, highest, heq, htake⟩ := h.whole hwhole
        rw [htrack, Option.some.injEq] at heq
        subst heq
        exact htake
    | none =>
        have hnil := h.unseen htrack
        have hnot : ¬whole = true := by
          intro hwhole
          obtain ⟨expected, highest, heq, -⟩ := h.whole hwhole
          rw [htrack] at heq
          simp at heq
        rw [openedBy, Option.getD_none, hnil]
        split
        · exact ⟨hsent.1, hsent.2.trans (Nat.le_succ _), hsent.2, by simp, hsent.1,
            fun hw => absurd hw hnot⟩
        · exact ⟨le_rfl, Nat.le_add_left _ _, Nat.zero_le _, by simp, le_rfl,
            fun hw => absurd hw hnot⟩
  generalize openedBy seq track = pair at hverdict hopen
  obtain ⟨expected, highest⟩ := pair
  dsimp only at hverdict hopen
  obtain ⟨hlow, hle, hhigh, hlt, hmono, htake⟩ := hopen
  have hhighest : verdict.highestSeenSeq.toNat ≤ inners.length := by
    rw [hverdict, highest_judge]
    split
    · exact hsent.2
    · exact hhigh
  by_cases heq : seq = expected
  · -- The expected frame is handed on.
    subst heq
    have hnext : (seq + 1).toNat = seq.toNat + 1 := by
      rw [BitVec.toNat_add, hone, Nat.mod_eq_of_lt (by omega)]
    have hexpected : verdict.expectedSeq = seq + 1 := by rw [hverdict, judge, if_pos rfl]
    have hdeliver : verdict.deliver = true := by rw [hverdict, judge, if_pos rfl]
    have hack : verdict.ackSeq = seq := by rw [hverdict, judge, if_pos rfl]
    rw [if_pos hdeliver, hexpected, hnext, hack]
    refine ⟨⟨fun x hx => ?_, ?_, by simp, fun e g hpair => ?_, fun hwhole => ?_⟩,
      hmono.trans (Nat.le_succ _), fun _ => Nat.lt_succ_self _, fun hnack => ?_⟩
    · rw [List.mem_append, List.mem_singleton] at hx
      rcases hx with hx | rfl
      · exact h.genuine x hx
      · exact hinner
    · rw [List.pairwise_append]
      refine ⟨h.sorted, List.pairwise_singleton _ _, fun x hx y hy => ?_⟩
      rw [List.mem_singleton.mp hy]
      exact hlt x hx
    · obtain ⟨rfl, rfl⟩ := Prod.mk.inj (Option.some.inj hpair)
      rw [hnext]
      refine ⟨Nat.le_add_left _ _, Nat.succ_le_succ hsent.2, hhighest, fun x hx => ?_⟩
      rw [List.mem_append, List.mem_singleton] at hx
      rcases hx with hx | rfl
      · exact (hlt x hx).trans (Nat.lt_succ_self _)
      · exact Nat.lt_succ_self _
    · refine ⟨_, _, rfl, ?_⟩
      have hget : inners[seq.toNat - 1]? = some inner := by
        rw [numbered, if_neg (by omega)] at hinner
        exact hinner
      rw [hnext, List.map_append, htake hwhole, Nat.add_sub_cancel]
      have hsucc : seq.toNat = seq.toNat - 1 + 1 := by omega
      conv_rhs => rw [hsucc, List.take_add_one, hget]
      rfl
    · have hbehind : seq + 1 ≤ verdict.highestSeenSeq := by
        have hdecide : verdict.sendNack = decide (seq + 1 ≤ verdict.highestSeenSeq) := by
          rw [hverdict, judge, if_pos rfl]
        rw [hdecide] at hnack
        exact of_decide_eq_true hnack
      have hmissing : verdict.missingSeq = seq + 1 := by
        rw [hverdict, judge, if_pos rfl] at hnack ⊢
        exact if_pos hnack
      rw [hmissing]
      exact (BitVec.le_def.mp hbehind).trans hhighest
  · by_cases hold : seq < expected
    · -- An old frame is acknowledged again.
      have hsame : verdict.expectedSeq = expected := by
        rw [hverdict, judge, if_neg heq, if_pos hold]
      have hdeliver : verdict.deliver = false := by
        rw [hverdict, judge, if_neg heq, if_pos hold]
      have hnack : verdict.sendNack = false := by
        rw [hverdict, judge, if_neg heq, if_pos hold]
      have hack : verdict.ackSeq = expected - 1 := by
        rw [hverdict, judge, if_neg heq, if_pos hold]
      have hprev : (expected - 1).toNat = expected.toNat - 1 := by
        rw [BitVec.toNat_sub, hone]
        have := expected.isLt
        omega
      rw [hdeliver, hsame, hnack, hack, hprev]
      refine ⟨⟨h.genuine, h.sorted, by simp, fun e g hpair => ?_, fun hwhole =>
        ⟨_, _, rfl, htake hwhole⟩⟩, hmono, fun _ => by omega, by simp⟩
      obtain ⟨rfl, rfl⟩ := Prod.mk.inj (Option.some.inj hpair)
      exact ⟨hlow, hle, hhighest, hlt⟩
    · -- A frame behind a gap is not kept; the root asks for the first of the gap.
      have hafter : expected.toNat < seq.toNat := by
        rw [BitVec.lt_def] at hold
        have hne : seq.toNat ≠ expected.toNat := fun hnat => heq (BitVec.eq_of_toNat_eq hnat)
        omega
      have hsame : verdict.expectedSeq = expected := by
        rw [hverdict, judge, if_neg heq, if_neg hold]
      have hdeliver : verdict.deliver = false := by
        rw [hverdict, judge, if_neg heq, if_neg hold]
      have hnack : verdict.sendNack = true := by
        rw [hverdict, judge, if_neg heq, if_neg hold]
      have hmissing : verdict.missingSeq = expected := by
        rw [hverdict, judge, if_neg heq, if_neg hold]
      rw [hdeliver, hsame, hnack, hmissing]
      refine ⟨⟨h.genuine, h.sorted, by simp, fun e g hpair => ?_, fun hwhole =>
        ⟨_, _, rfl, htake hwhole⟩⟩, hmono, by simp, fun _ => by omega⟩
      obtain ⟨rfl, rfl⟩ := Prod.mk.inj (Option.some.inj hpair)
      exact ⟨hlow, hle, hhighest, hlt⟩

/-- The node gave a number up. -/
theorem Stream.lost (h : Stream whole inners track got) {missingSeq : U32}
    (hsent : missingSeq.toNat ≤ inners.length) (hroom : inners.length < 2 ^ 32 - 1)
    (hold : whole = true → missingSeq.toNat < expectedOn track) :
    Stream whole inners (track.map fun pair => (skipLost pair.1 pair.2 missingSeq, pair.2))
        got ∧
      expectedOn track ≤
        expectedOn (track.map fun pair => (skipLost pair.1 pair.2 missingSeq, pair.2)) := by
  cases htrack : track with
  | none =>
      subst htrack
      exact ⟨h, le_rfl⟩
  | some pair =>
      obtain ⟨expected, highest⟩ := pair
      obtain ⟨hlow, hle, hhigh, hlt⟩ := h.seen expected highest htrack
      have hone : (1 : U32).toNat = 1 := rfl
      have hnext (word : U32) (hword : word.toNat ≤ inners.length) :
          (word + 1).toNat = word.toNat + 1 := by
        rw [BitVec.toNat_add, hone, Nat.mod_eq_of_lt (by omega)]
      have hskip : expected.toNat ≤ (skipLost expected highest missingSeq).toNat ∧
          (skipLost expected highest missingSeq).toNat ≤ inners.length + 1 := by
        rw [skipLost]
        split
        · next heq =>
            subst heq
            split
            · next hbehind =>
                have hnat : missingSeq.toNat ≤ highest.toNat := hbehind
                rw [hnext highest hhigh]
                omega
            · rw [hnext missingSeq hsent]
              omega
        · exact ⟨le_rfl, hle⟩
      refine ⟨⟨h.genuine, h.sorted, by simp, fun e g hpair => ?_, fun hwhole => ?_⟩, hskip.1⟩
      · obtain ⟨rfl, rfl⟩ := Prod.mk.inj (Option.some.inj hpair)
        exact ⟨hlow.trans hskip.1, hskip.2, hhigh, fun x hx => (hlt x hx).trans_le hskip.1⟩
      · obtain ⟨e, g, heq, htake⟩ := h.whole hwhole
        have hbefore := hold hwhole
        rw [htrack] at heq hbefore
        obtain ⟨rfl, rfl⟩ := Prod.mk.inj (Option.some.inj heq)
        have hne : ¬missingSeq = expected := by
          rintro rfl
          exact lt_irrefl _ hbefore
        refine ⟨_, _, rfl, ?_⟩
        rw [skipLost, if_neg hne]
        exact htake

end Stream

end KeemashCore.Tunnel
