import KeemashCore.Mesh.PingLog

/-!
# Turns of the active pings

The poll task pings one peer at a time.  Its cursor goes round the table, so a peer that can
be pinged at every turn is passed over fewer times than the table has entries.
-/

namespace KeemashCore.MeshRoot

open Rel Tunnel RoundRobin

/-- The entry whose peer a step pings. -/
def PingRoot.chosen (cfg : PingConfig) (p : PingRoot) : PingAction → Option ℕ
  | .select now _ => if p.sending.isSome then none else p.turn cfg now
  | _ => none

/-- The peer of an entry can be pinged by a step. -/
def PingRoot.canPing (cfg : PingConfig) (p : PingRoot) (i : ℕ) : PingAction → Bool
  | .select now _ => (p.expired cfg now).dueAt cfg now i
  | _ => false

/-- In a run, `k` pings went to other peers, and the peer of an entry could be pinged at each
of these turns. -/
inductive PassedOver (cfg : PingConfig) (i : ℕ) : ℕ → PingRoot → PingRoot → Prop where
  | start (p : PingRoot) : PassedOver cfg i 0 p p
  | quiet {k : ℕ} {p q : PingRoot} (h : PassedOver cfg i k p q) (a : PingAction)
      (hnone : q.chosen cfg a = none) : PassedOver cfg i k p (q.step cfg a)
  | turn {k j : ℕ} {p q : PingRoot} (h : PassedOver cfg i k p q) (a : PingAction)
      (hchosen : q.chosen cfg a = some j) (hother : j ≠ i)
      (hcan : q.canPing cfg i a = true) : PassedOver cfg i (k + 1) p (q.step cfg a)

section Turns

variable {cfg : PingConfig} {size i j k : ℕ} {p q : PingRoot} {a : PingAction}

/-- The cursor moves with a ping only. -/
theorem pingCursor_step (hnone : p.chosen cfg a = none) :
    (p.step cfg a).pingCursor = p.pingCursor := by
  cases a with
  | select now session =>
      rw [PingRoot.chosen] at hnone
      rw [PingRoot.step]
      split at hnone
      · next hsending => rw [if_pos hsending]
      · next hsending =>
          rw [if_neg hsending]
          simp only [PingRoot.select, hnone]
          rfl
  | finish relReady =>
      rw [PingRoot.step, PingRoot.finish]
      split
      · rfl
      · rfl
  | pruneClear removed =>
      rw [PingRoot.step, PingRoot.pruneClear]
      split
      · rfl
      · rfl
  | _ => rfl

/-- A ping leaves the cursor behind its entry. -/
theorem chosen_step (hchosen : p.chosen cfg a = some j) :
    (p.step cfg a).pingCursor = next p.root.nodes.length j ∧
      ∃ eligible, pick p.root.nodes.length p.pingCursor eligible = some j ∧
        p.canPing cfg i a = eligible i := by
  cases a with
  | select now session =>
      rw [PingRoot.chosen] at hchosen
      split at hchosen
      · simp at hchosen
      · next hsending =>
          have hsize : (p.expired cfg now).length = p.root.nodes.length := List.length_map _
          obtain ⟨-, -, hpick⟩ := turn_idle hchosen
          rw [hsize] at hpick
          refine ⟨?_, _, hpick, rfl⟩
          have hdue := pick_eligible hpick
          obtain ⟨n, hn⟩ : ∃ n, (p.expired cfg now)[j]?.join = some n := by
            rw [NodeStates.dueAt] at hdue
            cases hjoin : (p.expired cfg now)[j]?.join with
            | none =>
                rw [hjoin] at hdue
                simp at hdue
            | some n => exact ⟨n, rfl⟩
          rw [PingRoot.step, if_neg hsending]
          simp only [PingRoot.select, hchosen, hn]
          exact congrArg (fun size => next size j) hsize
  | _ => simp [PingRoot.chosen] at hchosen

/-- Each turn of another peer brings the cursor closer. -/
theorem PassedOver.closer (h : PassedOver cfg i k p q) (hp : PingOk cfg size p)
    (hi : i < size) :
    PingOk cfg size q ∧ ∃ left, k + left < size ∧ Ahead size q.pingCursor left i := by
  induction h with
  | start p =>
      obtain ⟨left, hahead⟩ := exists_ahead p.pingCursor hi
      refine ⟨hp, left, ?_, hahead⟩
      rw [Nat.zero_add]
      exact hahead.1
  | quiet _ a hnone ih =>
      obtain ⟨hq, left, hleft, hahead⟩ := ih hp
      refine ⟨hq.step a, left, hleft, ?_⟩
      rw [pingCursor_step hnone]
      exact hahead
  | turn _ a hchosen hother hcan ih =>
      obtain ⟨hq, left, hleft, hahead⟩ := ih hp
      obtain ⟨hcursor, eligible, hpick, hsame⟩ := chosen_step (i := i) hchosen
      rw [hq.size] at hcursor hpick
      obtain ⟨left', hless, hahead'⟩ := pick_closer hpick hahead (hsame ▸ hcan) hother
      refine ⟨hq.step a, left', by omega, ?_⟩
      rw [hcursor]
      exact hahead'

/-- From every state that the root reaches: a peer that can be pinged at every turn is passed
over fewer times than the table has entries. -/
theorem passed_over_lt (localMac : Mac) (transport : Mac → List UInt8 → EspErr)
    (actions : List PingAction)
    (h : PassedOver cfg i k
      (actions.foldl (PingRoot.step cfg) (.boot localMac transport size)) q)
    (hi : i < size) : k < size := by
  obtain ⟨-, left, hleft, -⟩ :=
    h.closer ((pingOk_boot cfg localMac transport size).run actions) hi
  exact Nat.lt_of_add_right_lt hleft

theorem passed_over_lt_two_peers : 1 < 2 := by
  have hturn : PassedOver ⟨5000, 4000, 60000⟩ 1 1
      ([.reliableHello 0x11 ⟨capActivePing, [], 0⟩ 1,
        .reliableHello 0x33 ⟨capActivePing, [], 0⟩ 2].foldl
          (PingRoot.step ⟨5000, 4000, 60000⟩) (.boot 0x22 (fun _ _ => .ok) 2)) _ :=
    .turn (.start _) (.select 5000 7) (by decide : _ = some 0) (by decide) (by decide)
  exact passed_over_lt 0x22 (fun _ _ => .ok) _ hturn (by decide)

end Turns

end KeemashCore.MeshRoot
