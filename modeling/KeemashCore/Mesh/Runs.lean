import KeemashCore.Mesh.Updates
import KeemashCore.Mesh.Packet

/-!
# Runs of one context

The operations of the public interface on one context, with the bytes that arrive from
the network as they are, and the states that a context can reach.
-/

namespace KeemashCore.Rel

open SlotTable

/-- An operation of the public interface. -/
inductive Operation where
  | submit (peer : Mac) (channel : ℕ) (payload : List UInt8) (priority : ℕ)
  | sendHello (peer : Mac) (capabilities : U32)
  | receive (src : Mac) (packet : List UInt8)
  | poll
  | route (peer : Mac) (routeUp : Bool)
  | supersede (peer : Mac) (channel : ℕ)
  | reset (peer : Mac) (reason : LostReason)
  | remove (peer : Mac)

/-- The context after an operation at a given time. -/
def Ctx.operate (c : Ctx) (op : Operation × U32) : Ctx :=
  match op.1 with
  | .submit peer channel payload priority =>
      (submit c peer channel payload priority op.2).1
  | .sendHello peer capabilities => (sendHello c peer capabilities op.2).1
  | .receive src packet => (handleRxBytes c src packet op.2).1
  | .poll => Rel.poll c op.2
  | .route peer routeUp => (peerRoute c peer routeUp op.2).1
  | .supersede peer channel => (supersedeChannel c peer channel op.2).1
  | .reset peer reason => resetPeer c peer reason op.2
  | .remove peer => (removePeer c peer op.2).1

/-- The context after a list of operations. -/
def Ctx.operates (c : Ctx) (ops : List (Operation × U32)) : Ctx :=
  ops.foldl Ctx.operate c

/-- A message is submitted at an allowed priority only. -/
def Operation.Allowed (allowed : ℕ → Prop) : Operation → Prop
  | .submit _ _ _ priority => allowed priority
  | _ => True

/-- The states that a context reaches after `keemash_rel_init`. -/
def Reachable (allowed : ℕ → Prop) (c : Ctx) : Prop :=
  ∃ config session stream start ops, init config session stream = some start ∧
    (∀ op ∈ ops, op.1.Allowed allowed) ∧ c = start.operates ops

variable {allowed : ℕ → Prop}

theorem Updates.operate {c c' : Ctx} (h : Updates allowed c c') {op : Operation × U32}
    (hop : op.1.Allowed allowed) : Updates allowed c (c'.operate op) := by
  obtain ⟨op, now⟩ := op
  cases op with
  | submit peer channel payload priority => exact h.submit hop
  | sendHello peer capabilities => exact h.sendHello
  | receive src packet =>
      have hrx : c'.operate (.receive src packet, now) =
          (handleRxBytes c' src packet now).1 := rfl
      rw [hrx]
      rcases handleRxBytes_cases c' src packet now with ⟨err, herr⟩ | ⟨p, -, hp⟩
      · rw [herr]
        exact h
      · rw [hp]
        exact h.handleRx
  | poll => exact h.poll now
  | route peer routeUp => exact h.peerRoute
  | supersede peer channel => exact h.supersedeChannel
  | reset peer reason => exact h.resetPeer
  | remove peer => exact h.removePeer

theorem updates_operates {c : Ctx} (hc : c.Framed) {ops : List (Operation × U32)}
    (hops : ∀ op ∈ ops, op.1.Allowed allowed) : Updates allowed c (c.operates ops) := by
  have hrun (c' : Ctx) (h : Updates allowed c c') : Updates allowed c (c'.operates ops) := by
    induction ops generalizing c' with
    | nil => exact h
    | cons op ops ih =>
        obtain ⟨hop, hrest⟩ := List.forall_mem_cons.mp hops
        exact ih hrest _ (h.operate hop)
  exact hrun c (.refl hc)

theorem init_framed {config : RelConfig} {session stream : U32} {c : Ctx}
    (h : init config session stream = some c) : c.Framed := by
  simp only [init] at h
  split at h
  · simp at h
  · obtain rfl := Option.some.inj h
    intro slot hslot
    simp [held_replicate_none] at hslot

/-- What `keemash_rel_init` establishes and every update keeps holds of every reachable
state. -/
theorem Reachable.keep {P : Ctx → Prop} {c : Ctx} (h : Reachable allowed c)
    (hinit : ∀ config session stream start, init config session stream = some start → P start)
    (hP : ∀ c c', P c → Update allowed c c' → P c') : P c := by
  obtain ⟨config, session, stream, start, ops, hstart, hops, rfl⟩ := h
  exact (updates_operates (init_framed hstart) hops).keep hP
    (hinit config session stream start hstart)

end KeemashCore.Rel
