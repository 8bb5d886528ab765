import KeemashCore.Mesh.Runs
import KeemashCore.Mesh.Isolation

/-!
# Submitting within the quotas

`tx_available` decides about a whole message and `tx_alloc` about one fragment.  The two
agree: filling one slot takes one from what is available, so the loop of
`keemash_rel_submit` never runs out once the message was let in.  The quotas that the two
compute hold in every reachable state.
-/

namespace KeemashCore.Rel

open SlotTable

/-! ## The two computations -/

section Available

variable {c : Ctx} {key : Mac} {priority : ℕ}

theorem txAvailable_low (h : priority < priorityControl) :
    txAvailable c key priority = min (freeCount c.tx - c.cfg.reservedControlSlots)
      (c.cfg.perPeerTxSlots - c.cfg.perPeerControlReserve - txUnacked c key) := by
  simp only [txAvailable, h, true_and, if_true]
  repeat' split
  all_goals omega

theorem txAvailable_high (h : ¬priority < priorityControl) :
    txAvailable c key priority =
      min (freeCount c.tx) (c.cfg.perPeerTxSlots - txUnacked c key) := by
  simp only [txAvailable, h, false_and, if_false]
  repeat' split
  all_goals omega

/-- `tx_alloc` succeeds as long as something is available. -/
theorem txAlloc_of_available (h : 0 < txAvailable c key priority) :
    ∃ i, txAlloc c key priority = some i := by
  have hfree (hpos : 0 < freeCount c.tx) : ∃ i, freeIdx c.tx = some i := by
    apply Option.ne_none_iff_exists'.mp
    intro hnone
    rw [freeIdx_eq_none] at hnone
    omega
  by_cases hlow : priority < priorityControl
  · rw [txAvailable_low hlow] at h
    obtain ⟨i, hi⟩ := hfree (by omega)
    refine ⟨i, ?_⟩
    rw [txAlloc, if_neg, if_neg, hi]
    · omega
    · split
      · omega
      · omega
  · rw [txAvailable_high hlow] at h
    obtain ⟨i, hi⟩ := hfree (by omega)
    refine ⟨i, ?_⟩
    rw [txAlloc, if_neg, if_neg, hi]
    · omega
    · omega

/-- Filling a slot takes one from what is available. -/
theorem txAvailable_fill {i : ℕ} {slot : TxSlot} (hpeer : slot.peer = key)
    (hfree : c.tx[i]? = some none) :
    txAvailable c key priority ≤
      txAvailable (c.setTx (c.tx.set i (some slot))) key priority + 1 := by
  have hcount : freeCount (c.tx.set i (some slot)) + 1 = freeCount c.tx :=
    freeCount_set_some slot hfree
  have hused : txUnacked (c.setTx (c.tx.set i (some slot))) key = txUnacked c key + 1 := by
    rw [txUnacked, Ctx.setTx, usedCount_set_some slot hfree, txUnacked, if_pos]
    simpa using hpeer
  by_cases hlow : priority < priorityControl
  · rw [txAvailable_low hlow, txAvailable_low hlow, hused]
    simp only [Ctx.setTx]
    omega
  · rw [txAvailable_high hlow, txAvailable_high hlow, hused]
    simp only [Ctx.setTx]
    omega

end Available

/-! ## The quotas of every reachable state -/

/-- The slots of messages below control priority. -/
def TxSlot.low (slot : TxSlot) : Bool :=
  decide (slot.priority < priorityControl)

/-- The tx table respects the limit of each peer and leaves the control reserve. -/
structure WithinQuotas (c : Ctx) : Prop where
  length : c.tx.length = c.cfg.txSlots
  peer : ∀ key, txUnacked c key ≤ c.cfg.perPeerTxSlots
  reserve : usedCount TxSlot.low c.tx ≤ c.cfg.txSlots - c.cfg.reservedControlSlots

theorem init_withinQuotas {config : RelConfig} {session stream : U32} {c : Ctx}
    (h : init config session stream = some c) : WithinQuotas c := by
  simp only [init] at h
  split at h
  · simp at h
  · obtain rfl := Option.some.inj h
    constructor
    · exact List.length_replicate
    · intro key
      rw [txUnacked, usedCount_replicate_none]
      exact Nat.zero_le _
    · rw [usedCount_replicate_none]
      exact Nat.zero_le _

/-- What `tx_alloc` has checked when it returns a slot. -/
theorem txAlloc_some {c : Ctx} {key : Mac} {priority i : ℕ}
    (hpriority : priority ≤ priorityControl) (h : txAlloc c key priority = some i) :
    txUnacked c key < c.cfg.perPeerTxSlots ∧
      (priority < priorityControl → c.cfg.reservedControlSlots < freeCount c.tx) := by
  have hlimit : (if c.cfg.perPeerTxSlots > c.cfg.perPeerControlReserve
      then c.cfg.perPeerTxSlots - c.cfg.perPeerControlReserve else 0) =
      c.cfg.perPeerTxSlots - c.cfg.perPeerControlReserve := by
    split
    · rfl
    · omega
  rw [txAlloc, hlimit] at h
  split at h
  · simp at h
  split at h
  · simp at h
  constructor
  · omega
  · omega

theorem WithinQuotas.fillTx {c : Ctx} (h : WithinQuotas c) {i : ℕ} {slot : TxSlot}
    (hpriority : slot.priority ≤ priorityControl)
    (halloc : txAlloc c slot.peer slot.priority = some i) :
    WithinQuotas (c.setTx (c.tx.set i (some slot))) := by
  have hfree : c.tx[i]? = some none := getElem?_of_freeIdx (freeIdx_of_txAlloc halloc)
  obtain ⟨hpeer, hreserve⟩ := txAlloc_some hpriority halloc
  constructor
  · exact List.length_set.trans h.length
  · intro key
    rw [txUnacked, Ctx.setTx, usedCount_set_some slot hfree]
    split
    · next hkey =>
        obtain rfl : slot.peer = key := by simpa using hkey
        exact hpeer
    · exact h.peer key
  · have hroom := usedCount_add_freeCount_le TxSlot.low c.tx
    have hlength := h.length
    have hold := h.reserve
    have hcfg : (c.setTx (c.tx.set i (some slot))).cfg = c.cfg := rfl
    have htx : (c.setTx (c.tx.set i (some slot))).tx = c.tx.set i (some slot) := rfl
    rw [hcfg, htx, usedCount_set_some slot hfree]
    split
    · next hlow =>
        have hspare := hreserve (by simpa [TxSlot.low] using hlow)
        omega
    · exact hold

theorem WithinQuotas.update {c c' : Ctx} (h : WithinQuotas c)
    (hstep : Update (· ≤ priorityControl) c c') : WithinQuotas c' := by
  cases hstep with
  | release hrel =>
      constructor
      · rw [hrel.tx.length, hrel.cfg]
        exact h.length
      · intro key
        rw [hrel.cfg]
        refine (hrel.tx.usedCount_le ?_).trans (h.peer key)
        intro slot slot' halike hkey
        rw [← halike.peer]
        exact hkey
      · rw [hrel.cfg]
        refine (hrel.tx.usedCount_le ?_).trans h.reserve
        intro slot slot' halike hlow
        rw [TxSlot.low, ← halike.priority]
        exact hlow
  | fillTx hallowed _ halloc => exact h.fillTx hallowed halloc
  | fillRx _ _ => exact ⟨h.length, h.peer, h.reserve⟩
  | openReassembly _ _ => exact ⟨h.length, h.peer, h.reserve⟩
  | store _ _ _ => exact ⟨h.length, h.peer, h.reserve⟩

/-- Messages of at most control priority keep every reachable state within the quotas. -/
theorem Reachable.withinQuotas {c : Ctx} (h : Reachable (· ≤ priorityControl) c) :
    WithinQuotas c :=
  h.keep (fun _ _ _ _ hinit => init_withinQuotas hinit) fun _ _ h hstep => h.update hstep

end KeemashCore.Rel
