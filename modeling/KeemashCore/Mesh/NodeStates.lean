import KeemashCore.Mesh.Proto
import Mathlib.Logic.Function.Basic

/-!
# The nodes that a root knows

`s_nodes` of `keemash_mesh_root.c` with the fields that the tunnel profile and the active
pings work on, and the search through it.
-/

namespace KeemashCore.MeshRoot

/-- `tunnel_rx_channel_t` of the root. -/
structure TunnelRxChannel where
  expectedSeq : U32
  highestSeenSeq : U32
  gapCount : U32
  replayCount : U32
  lostCount : U32
  lastMs : U32
  hasGap : Bool
  deriving DecidableEq, Repr

/-- `tunnel_tx_channel_t` of the root. -/
structure TunnelTxChannel where
  nextSeq : U32
  lastAckSeq : U32
  deriving DecidableEq, Repr

/-- `root_node_state_t`. -/
structure NodeState where
  mac : Mac
  sessionId : U32
  expectedSeq : U32
  highestSeenSeq : U32
  gapCount : U32
  replayCount : U32
  lostCount : U32
  lastV2Ms : U32
  hasGap : Bool
  tunnelSeen : Bool
  lastTunnelMs : U32
  capabilities : U32
  routeUp : Bool
  routeChangedMs : U32
  pingPending : Bool
  pingValid : Bool
  pingId : U32
  pingSentMs : U32
  pingLastAttemptMs : U32
  pingLastRxMs : U32
  pingMs : U32
  pingTimeoutCount : U32
  rx : ℕ → TunnelRxChannel
  tx : ℕ → TunnelTxChannel

/-- An rx channel of a new session. -/
def newRx : TunnelRxChannel where
  expectedSeq := 1
  highestSeenSeq := 0
  gapCount := 0
  replayCount := 0
  lostCount := 0
  lastMs := 0
  hasGap := false

/-- A tx channel of a new session. -/
def newTx : TunnelTxChannel where
  nextSeq := 1
  lastAckSeq := 0

/-- The record that `find_node_locked` creates. -/
def NodeState.fresh (mac : Mac) : NodeState where
  mac := mac
  sessionId := 0
  expectedSeq := 1
  highestSeenSeq := 0
  gapCount := 0
  replayCount := 0
  lostCount := 0
  lastV2Ms := 0
  hasGap := false
  tunnelSeen := false
  lastTunnelMs := 0
  capabilities := 0
  routeUp := false
  routeChangedMs := 0
  pingPending := false
  pingValid := false
  pingId := 0
  pingSentMs := 0
  pingLastAttemptMs := 0
  pingLastRxMs := 0
  pingMs := 0
  pingTimeoutCount := 0
  rx := fun _ => newRx
  tx := fun _ => newTx

/-- `s_nodes`; an entry that is not used is `none`. -/
abbrev NodeStates := List (Option NodeState)

namespace NodeStates

/-- `find_node_locked` without `create`. -/
def find (mac : Mac) : NodeStates → Option NodeState
  | [] => none
  | none :: rest => find mac rest
  | some n :: rest => if n.mac = mac then some n else find mac rest

/-- Put a record into the first free entry. -/
def insert (n : NodeState) : NodeStates → NodeStates
  | [] => []
  | none :: rest => some n :: rest
  | some m :: rest => some m :: insert n rest

/-- Change the record that the search finds. -/
def modify (mac : Mac) (f : NodeState → NodeState) : NodeStates → NodeStates
  | [] => []
  | none :: rest => none :: modify mac f rest
  | some n :: rest => if n.mac = mac then some (f n) :: rest else some n :: modify mac f rest

/-- The table after `find_node_locked` with `create`. -/
def ensure (mac : Mac) (nodes : NodeStates) : NodeStates :=
  if (nodes.find mac).isSome then nodes else nodes.insert (.fresh mac)

variable {nodes : NodeStates} {mac k : Mac} {f : NodeState → NodeState}

theorem mac_of_find {n : NodeState} (h : nodes.find mac = some n) : n.mac = mac := by
  induction nodes with
  | nil => simp [find] at h
  | cons entry rest ih =>
      cases entry with
      | none => exact ih h
      | some m =>
          rw [find] at h
          split at h
          · next hm =>
              rw [← Option.some.inj h]
              exact hm
          · exact ih h

theorem find_modify (hf : ∀ n, (f n).mac = n.mac) :
    (nodes.modify mac f).find k =
      if k = mac then (nodes.find mac).map f else nodes.find k := by
  induction nodes with
  | nil => simp [modify, find]
  | cons entry rest ih =>
      cases entry with
      | none => exact ih
      | some n =>
          by_cases hn : n.mac = mac
          · by_cases hk : k = mac
            · simp only [modify, find, hn, hf, hk, if_true, Option.map_some]
            · simp only [modify, find, hn, hf, hk, Ne.symm hk, if_true, if_false]
          · by_cases hk : k = mac
            · subst hk
              simpa only [modify, find, hn, if_true, if_false] using ih
            · rw [if_neg hk] at ih ⊢
              simp only [modify, find, hn, if_false, ih]

theorem find_insert_ne {n : NodeState} (h : n.mac ≠ k) :
    (nodes.insert n).find k = nodes.find k := by
  induction nodes with
  | nil => rfl
  | cons entry rest ih =>
      cases entry with
      | none => simp only [insert, find, h, if_false]
      | some m => simp only [insert, find, ih]

theorem find_insert_self {n : NodeState} (h : nodes.find n.mac = none) :
    (nodes.insert n).find n.mac = none ∨ (nodes.insert n).find n.mac = some n := by
  induction nodes with
  | nil => exact .inl rfl
  | cons entry rest ih =>
      cases entry with
      | none => exact .inr (if_pos rfl)
      | some m =>
          rw [find] at h
          split at h
          · simp at h
          · next hm =>
              rw [insert, find, if_neg hm]
              exact ih h

theorem find_ensure_ne (h : k ≠ mac) : (nodes.ensure mac).find k = nodes.find k := by
  rw [ensure]
  split
  · rfl
  · exact find_insert_ne (Ne.symm h)

/-- A record that is there is kept; a missing one is created, unless the table is full. -/
theorem find_ensure_self (nodes : NodeStates) (mac : Mac) :
    (nodes.ensure mac).find mac = nodes.find mac ∨
      nodes.find mac = none ∧ (nodes.ensure mac).find mac = some (.fresh mac) := by
  rw [ensure]
  split
  · exact .inl rfl
  · next h =>
      have hnone : nodes.find mac = none := by simpa using h
      rcases find_insert_self (n := .fresh mac) hnone with hfull | hnew
      · exact .inl (hfull.trans hnone.symm)
      · exact .inr ⟨hnone, hnew⟩

end NodeStates

end KeemashCore.MeshRoot
