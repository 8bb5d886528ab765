import KeemashCore.Mesh.TxBroker
import Mathlib.Algebra.Order.Group.Multiset
import Mathlib.Data.List.Induction
import Mathlib.Data.List.Infix
import Mathlib.Tactic.Abel

/-!
# Conservation, order and reservation in the transmit broker

With tickets that do not wrap, the tickets number the accepted packets in the order
of the calls.  Every accepted packet is passed to `raw_send` once or is still queued,
and the worker picks the first of those with the highest priority.
-/

namespace KeemashCore.TxBroker

open SlotTable

/-- An earlier ticket. -/
def Earlier (x y : Queued ℕ) : Prop :=
  x.ticket < y.ticket

/-- A packet for which the reserved slots are not meant. -/
def Slot.isLow (slot : Slot ℕ) : Prop :=
  slot.priority.toNat < Rel.priorityControl

instance (slot : Slot ℕ) : Decidable slot.isLow :=
  inferInstanceAs (Decidable (_ < _))

/-- The slots in use are the accepted packets that are not completed. -/
structure Keeps (s : System ℕ) : Prop where
  size : s.broker.slots.length < 2 ^ 16
  conserved : (s.accepted : Multiset (Queued ℕ)) =
    s.completed + (held s.broker.slots).map Slot.toQueued
  sorted : s.accepted.Pairwise Earlier
  bounded : ∀ packet ∈ s.accepted, packet.ticket ≤ s.broker.nextTicket
  idle : s.sent = none → s.passed = s.completed ∧
    ∀ slot ∈ held s.broker.slots, slot.sending = false
  busy : ∀ i, s.sent = some i → ∃ slot rest, held s.broker.slots = slot ::ₘ rest ∧
    slot.sending = true ∧ entryAt s.broker.slots i = some slot ∧
    s.passed = s.completed ++ [slot.toQueued] ∧ ∀ other ∈ rest, other.sending = false
  accepted : s.broker.stats.accepted = s.broker.stats.completed + s.broker.stats.pending
  pending : s.broker.stats.pending.toNat = (held s.broker.slots).card
  reserve : ((held s.broker.slots).filter Slot.isLow).card ≤
    s.broker.slots.length - s.broker.controlReservedSlots

section Keeps

variable {s : System ℕ}

theorem keeps_boot (slots controlReservedSlots maxPacketSize : BitVec 16) :
    Keeps (System.boot slots controlReservedSlots maxPacketSize) where
  size := by
    rw [System.boot, Broker.calloc, List.length_replicate]
    exact slots.isLt
  conserved := by
    rw [System.boot, Broker.calloc, held_replicate_none]
    rfl
  sorted := .nil
  bounded := fun _ h => absurd h List.not_mem_nil
  idle := by
    rw [System.boot, Broker.calloc, held_replicate_none]
    exact fun _ => ⟨rfl, fun _ h => absurd h (Multiset.notMem_zero _)⟩
  busy := fun _ h => nomatch h
  accepted := rfl
  pending := by
    rw [System.boot, Broker.calloc, held_replicate_none]
    rfl
  reserve := by
    rw [System.boot, Broker.calloc, held_replicate_none]
    exact Nat.zero_le _

theorem Keeps.mem_accepted (h : Keeps s) {slot : Slot ℕ} (hslot : slot ∈ held s.broker.slots) :
    slot.toQueued ∈ s.accepted := by
  have hmem : slot.toQueued ∈ (s.accepted : Multiset (Queued ℕ)) := by
    rw [h.conserved]
    exact Multiset.mem_add.2 (.inr (Multiset.mem_map_of_mem _ hslot))
  exact hmem

theorem Keeps.systemBounded (h : Keeps s) : s.Bounded := by
  intro slot hslot
  exact h.bounded _ (h.mem_accepted hslot)

theorem Keeps.card_lt (h : Keeps s) : (held s.broker.slots).card < 2 ^ 16 :=
  (card_held_le_length _).trans_lt h.size

/-- A broker in which only counters of rejections differ. -/
theorem Keeps.stats (h : Keeps s) {stats : Stats}
    (haccepted : stats.accepted = s.broker.stats.accepted)
    (hcompleted : stats.completed = s.broker.stats.completed)
    (hpending : stats.pending = s.broker.stats.pending) :
    Keeps { s with broker := { s.broker with stats := stats } } :=
  { h with
    accepted := by
      rw [haccepted, hcompleted, hpending]
      exact h.accepted
    pending := by
      rw [hpending]
      exact h.pending }

/-! ## The log -/

/-- The system after a critical section. -/
def System.work {T : Type} (s : System T) (sent : Option ℕ)
    (r : Broker T × List (Effect T)) : System T :=
  { broker := r.1, sent := sent, log := s.log ++ r.2 }

section Log

variable {sent : Option ℕ} {r : Broker ℕ × List (Effect ℕ)}

theorem accepted_work (s : System ℕ) (sent : Option ℕ) (r : Broker ℕ × List (Effect ℕ)) :
    (s.work sent r).accepted = s.accepted ++ r.2.filterMap Effect.accepted? :=
  List.filterMap_append

theorem passed_work (s : System ℕ) (sent : Option ℕ) (r : Broker ℕ × List (Effect ℕ)) :
    (s.work sent r).passed = s.passed ++ r.2.filterMap Effect.passed? :=
  List.filterMap_append

theorem completed_work (s : System ℕ) (sent : Option ℕ) (r : Broker ℕ × List (Effect ℕ)) :
    (s.work sent r).completed = s.completed ++ r.2.filterMap Effect.completed? :=
  List.filterMap_append

theorem accepted_work_none (h : r.2.filterMap Effect.accepted? = []) :
    (s.work sent r).accepted = s.accepted := by
  rw [accepted_work, h, List.append_nil]

theorem passed_work_none (h : r.2.filterMap Effect.passed? = []) :
    (s.work sent r).passed = s.passed := by
  rw [passed_work, h, List.append_nil]

theorem completed_work_none (h : r.2.filterMap Effect.completed? = []) :
    (s.work sent r).completed = s.completed := by
  rw [completed_work, h, List.append_nil]

end Log

theorem work_nil (s : System ℕ) : s.work s.sent (s.broker, []) = s := by
  rw [System.work, List.append_nil]

theorem coe_snoc (l : List (Queued ℕ)) (packet : Queued ℕ) :
    ((l ++ [packet] : List (Queued ℕ)) : Multiset (Queued ℕ)) =
      (l : Multiset (Queued ℕ)) + {packet} :=
  (Multiset.coe_add l [packet]).symm

/-! ## Submitting -/

/-- The slot that `accept` fills. -/
def acceptedSlot (b : Broker ℕ) (dst : Option Mac) (packet : List UInt8) (priority : UInt8) :
    Slot ℕ where
  ticket := b.nextTicket + 1
  priority := priority
  dst := dst.getD 0
  bytes := packet
  sending := false

/-- A packet of low priority is accepted only if the slots that are reserved stay free. -/
theorem Keeps.accept (h : Keeps s) {i : ℕ} (hfree : freeIdx s.broker.slots = some i)
    (dst : Option Mac) (packet : List UInt8) (priority : UInt8)
    (hreserve : ¬(priority.toNat < Rel.priorityControl ∧
      freeCount s.broker.slots ≤ s.broker.controlReservedSlots)) :
    Keeps (s.work s.sent (s.broker.accept i dst packet priority)) := by
  have hslot := getElem?_of_freeIdx hfree
  have hheld : held (s.broker.accept i dst packet priority).1.slots =
      acceptedSlot s.broker dst packet priority ::ₘ held s.broker.slots :=
    held_set_some _ hslot
  have haccepted : (s.work s.sent (s.broker.accept i dst packet priority)).accepted =
      s.accepted ++ [(acceptedSlot s.broker dst packet priority).toQueued] :=
    accepted_work _ _ _
  constructor
  case size => exact (List.length_set).trans_lt h.size
  case conserved =>
    have hmap : (held (s.broker.accept i dst packet priority).1.slots).map Slot.toQueued =
        (acceptedSlot s.broker dst packet priority).toQueued ::ₘ
          (held s.broker.slots).map Slot.toQueued := by
      rw [hheld, Multiset.map_cons]
    rw [haccepted, completed_work_none rfl, coe_snoc, h.conserved]
    refine Eq.trans ?_ (congrArg ((s.completed : Multiset (Queued ℕ)) + ·) hmap.symm)
    rw [← Multiset.singleton_add]
    abel
  case sorted =>
    rw [haccepted]
    refine List.pairwise_append.2 ⟨h.sorted, List.pairwise_singleton _ _, ?_⟩
    intro old hold new hnew
    rw [List.mem_singleton.1 hnew]
    exact Nat.lt_succ_of_le (h.bounded old hold)
  case bounded =>
    rw [haccepted]
    intro old hold
    rcases List.mem_append.1 hold with hold | hnew
    · exact Nat.le_succ_of_le (h.bounded old hold)
    · rw [List.mem_singleton.1 hnew]
      exact Nat.le_refl _
  case idle =>
    intro hsent
    obtain ⟨hpassed, hidle⟩ := h.idle hsent
    rw [passed_work_none rfl, completed_work_none rfl]
    refine ⟨hpassed, fun slot hmem => ?_⟩
    rcases Multiset.mem_cons.1 (hheld ▸ hmem) with rfl | hold
    · rfl
    · exact hidle slot hold
  case busy =>
    intro j hsent
    obtain ⟨slot, rest, hrest, hsending, hentry, hpassed, hidle⟩ := h.busy j hsent
    have hne : j ≠ i := by
      rintro rfl
      rw [entryAt_eq_some, hslot] at hentry
      cases hentry
    have hi : i < s.broker.slots.length := (List.getElem?_eq_some_iff.1 hslot).1
    refine ⟨slot, acceptedSlot s.broker dst packet priority ::ₘ rest, ?_, hsending, ?_, ?_, ?_⟩
    · rw [Multiset.cons_swap, ← hrest]
      exact hheld
    · exact (entryAt_set hi _ j).trans ((if_neg hne).trans hentry)
    · rw [passed_work_none rfl, completed_work_none rfl]
      exact hpassed
    · intro other hother
      rcases Multiset.mem_cons.1 hother with rfl | hold
      · rfl
      · exact hidle other hold
  case accepted =>
    have hsum : s.broker.stats.accepted + 1 =
        s.broker.stats.completed + (s.broker.stats.pending + 1) := by
      rw [h.accepted, BitVec.add_assoc]
    exact hsum
  case pending =>
    have hpending : (s.broker.stats.pending + 1).toNat = (held s.broker.slots).card + 1 := by
      have hcard := h.card_lt
      have hcount := h.pending
      bv_omega
    rw [← Multiset.card_cons (acceptedSlot s.broker dst packet priority), ← hheld] at hpending
    exact hpending
  case reserve =>
    have hcount := freeCount_add_card s.broker.slots
    have hlow := Multiset.card_le_card (Multiset.filter_le Slot.isLow (held s.broker.slots))
    have hlength : (s.broker.accept i dst packet priority).1.slots.length =
        s.broker.slots.length :=
      List.length_set
    have hnew : ((held (s.broker.accept i dst packet priority).1.slots).filter
        Slot.isLow).card ≤ s.broker.slots.length - s.broker.controlReservedSlots := by
      rw [hheld]
      by_cases hpriority : (acceptedSlot s.broker dst packet priority).isLow
      · have hroom : ¬freeCount s.broker.slots ≤ s.broker.controlReservedSlots :=
          fun hle => hreserve ⟨hpriority, hle⟩
        rw [Multiset.filter_cons_of_pos _ hpriority, Multiset.card_cons]
        omega
      · rw [Multiset.filter_cons_of_neg _ hpriority]
        exact h.reserve
    rw [← hlength] at hnew
    exact hnew

/-- What a call of `submit` can do. -/
theorem submit_cases (b : Broker ℕ) (locked : Bool) (dst : Option Mac) (packet : List UInt8)
    (priority : UInt8) :
    (∃ err stats, err ≠ .ok ∧ stats.accepted = b.stats.accepted ∧
        stats.completed = b.stats.completed ∧ stats.pending = b.stats.pending ∧
        b.submit locked dst packet priority = (err, { b with stats := stats }, [])) ∨
      ∃ i, freeIdx b.slots = some i ∧
        ¬(priority.toNat < Rel.priorityControl ∧ freeCount b.slots ≤ b.controlReservedSlots) ∧
        b.submit locked dst packet priority = (.ok, b.accept i dst packet priority) := by
  rw [Broker.submit]
  split
  · exact .inl ⟨.invalidArg, b.stats, by decide, rfl, rfl, rfl, rfl⟩
  split
  · cases locked with
    | false => exact .inl ⟨.invalidSize, b.stats, by decide, rfl, rfl, rfl, rfl⟩
    | true => exact .inl ⟨.invalidSize, b.rejectSize.stats, by decide, rfl, rfl, rfl, rfl⟩
  split
  · exact .inl ⟨.timeout, b.stats, by decide, rfl, rfl, rfl, rfl⟩
  split
  · exact .inl ⟨.noMem, (b.rejectFull priority).stats, by decide, rfl, rfl, rfl, rfl⟩
  next i hfree =>
    split
    · exact .inl ⟨.noMem, (b.rejectReserved priority).stats, by decide, rfl, rfl, rfl, rfl⟩
    next hreserve => exact .inr ⟨i, hfree, hreserve, rfl⟩

/-! ## The worker -/

/-- A packet that comes before another in the order of the worker. -/
def Slot.first (slot other : Slot ℕ) : Prop :=
  other.priority ≤ slot.priority ∧ (other.priority = slot.priority → slot.ticket ≤ other.ticket)

theorem beats_eq_true {slot best : Slot ℕ} :
    slot.beats best = true ↔ best.priority < slot.priority ∨
      slot.priority = best.priority ∧ slot.ticket < best.ticket := by
  simp only [Slot.beats, Ticket.before, Bool.or_eq_true, Bool.and_eq_true, decide_eq_true_eq,
    beq_iff_eq]

theorem beats_irrefl (slot : Slot ℕ) : slot.beats slot = false := by
  rw [← Bool.not_eq_true, beats_eq_true]
  rintro (hlt | ⟨-, hlt⟩)
  · exact absurd hlt (UInt8.lt_irrefl _)
  · exact Nat.lt_irrefl _ hlt

theorem beats_trans {a b c : Slot ℕ} (hab : a.beats b = true) (hbc : b.beats c = true) :
    a.beats c = true := by
  rw [beats_eq_true] at *
  rcases hab with hab | ⟨hab, hab'⟩
  · rcases hbc with hbc | ⟨hbc, -⟩
    · exact .inl (UInt8.lt_trans hbc hab)
    · exact .inl (hbc ▸ hab)
  · rcases hbc with hbc | ⟨hbc, hbc'⟩
    · exact .inl (hab ▸ hbc)
    · exact .inr ⟨hab.trans hbc, hab'.trans hbc'⟩

theorem first_of_not_beats {slot other : Slot ℕ} (h : other.beats slot = false) :
    slot.first other := by
  rw [← Bool.not_eq_true, beats_eq_true, not_or, not_and] at h
  obtain ⟨hpriority, hticket⟩ := h
  exact ⟨UInt8.not_lt.1 hpriority, fun heq => Nat.le_of_not_lt (hticket heq)⟩

/-- While the worker is idle it picks the first packet, if there is one. -/
theorem Keeps.pickNext (h : Keeps s) (hsent : s.sent = none) :
    (s.broker.pickNext = none ∧ held s.broker.slots = 0) ∨
      ∃ i slot, s.broker.pickNext = some (i, slot) ∧ entryAt s.broker.slots i = some slot ∧
        ∀ other ∈ held s.broker.slots, slot.first other := by
  have hbest := @bestEntry_spec _ (fun slot : Slot ℕ => !slot.sending) Slot.beats beats_irrefl
    (fun _ _ _ => beats_trans) s.broker.slots
  have hwaits : ∀ slot ∈ held s.broker.slots, (!slot.sending) = true := by
    intro slot hslot
    rw [(h.idle hsent).2 slot hslot]
    rfl
  cases hpick : s.broker.pickNext with
  | none =>
      refine .inl ⟨rfl, Multiset.eq_zero_of_forall_notMem fun slot hslot => ?_⟩
      have hno := hbest.none_eligible hpick slot hslot
      rw [hwaits slot hslot] at hno
      cases hno
  | some found =>
      obtain ⟨i, slot⟩ := found
      obtain ⟨hentry, -, hfirst⟩ := hbest.found i slot hpick
      refine .inr ⟨i, slot, rfl, hentry, fun other hother => ?_⟩
      exact first_of_not_beats (hfirst other hother (hwaits other hother))

/-- The slot after the worker has marked it. -/
def Slot.mark (slot : Slot ℕ) : Slot ℕ :=
  { slot with sending := true }

/-- The worker takes a packet. -/
theorem Keeps.take (h : Keeps s) (hsent : s.sent = none) {i : ℕ} {slot : Slot ℕ}
    (hentry : entryAt s.broker.slots i = some slot) :
    Keeps
      (s.work (some i)
        ({ s.broker with slots := s.broker.slots.set i (some slot.mark) },
          [.passed slot.toQueued])) := by
  obtain ⟨hpassed, hidle⟩ := h.idle hsent
  have hbefore := held_set_none hentry
  have hheld : held (s.broker.slots.set i (some slot.mark)) =
      slot.mark ::ₘ held (s.broker.slots.set i none) :=
    held_set_entry _ hentry
  constructor
  case size => exact (List.length_set).trans_lt h.size
  case conserved =>
    have hsame : (held (s.broker.slots.set i (some slot.mark))).map Slot.toQueued =
        (held s.broker.slots).map Slot.toQueued := by
      rw [hheld, hbefore, Multiset.map_cons, Multiset.map_cons]
      rfl
    rw [accepted_work_none rfl, completed_work_none rfl, h.conserved]
    exact congrArg (_ + ·) hsame.symm
  case sorted =>
    rw [accepted_work_none rfl]
    exact h.sorted
  case bounded =>
    rw [accepted_work_none rfl]
    exact h.bounded
  case idle => exact (nomatch ·)
  case busy =>
    intro j hj
    obtain rfl : i = j := Option.some.inj hj
    refine ⟨slot.mark, held (s.broker.slots.set i none), hheld, rfl, ?_, ?_, ?_⟩
    · exact (entryAt_set (lt_length_of_entryAt hentry) _ i).trans (if_pos rfl)
    · rw [passed_work, completed_work_none rfl, hpassed]
      rfl
    · intro other hother
      rw [hbefore] at hidle
      exact hidle other (Multiset.mem_cons_of_mem hother)
  case accepted => exact h.accepted
  case pending =>
    have hcard : (held (s.broker.slots.set i (some slot.mark))).card =
        (held s.broker.slots).card := by
      rw [hheld, hbefore, Multiset.card_cons, Multiset.card_cons]
    exact h.pending.trans hcard.symm
  case reserve =>
    have hlow : ((held (s.broker.slots.set i (some slot.mark))).filter Slot.isLow).card =
        ((held s.broker.slots).filter Slot.isLow).card := by
      rw [hheld, hbefore]
      by_cases hslot : slot.isLow
      · rw [@Multiset.filter_cons_of_pos _ Slot.isLow _ slot.mark _ hslot,
          Multiset.filter_cons_of_pos _ hslot, Multiset.card_cons, Multiset.card_cons]
      · rw [@Multiset.filter_cons_of_neg _ Slot.isLow _ slot.mark _ hslot,
          Multiset.filter_cons_of_neg _ hslot]
    have hnew := h.reserve
    rw [← hlow, ← @List.length_set _ s.broker.slots] at hnew
    exact hnew

theorem finish_of_entry {b : Broker ℕ} {i : ℕ} {slot : Slot ℕ}
    (hentry : entryAt b.slots i = some slot) (err : EspErr) :
    b.finish i err =
      ({ b with
          slots := b.slots.set i none
          stats :=
            { b.stats with
              completed := b.stats.completed + 1
              pending := b.stats.pending - 1
              lastTransportErr := err
              transportErrors :=
                if err ≠ .ok then b.stats.transportErrors + 1
                else b.stats.transportErrors } },
        [.completed slot.toQueued err]) := by
  rw [Broker.finish, hentry]

/-- `raw_send` has returned, and the slot is free again. -/
theorem Keeps.finish (h : Keeps s) {i : ℕ} (hsent : s.sent = some i) (err : EspErr) :
    Keeps (s.work none (s.broker.finish i err)) := by
  obtain ⟨slot, rest, hrest, -, hentry, hpassed, hidle⟩ := h.busy i hsent
  have hheld : held (s.broker.slots.set i none) = rest := by
    rw [held_set_none hentry] at hrest
    exact (Multiset.cons_inj_right slot).1 hrest
  rw [finish_of_entry hentry]
  constructor
  case size => exact (List.length_set).trans_lt h.size
  case conserved =>
    have hconserved := h.conserved
    rw [hrest, Multiset.map_cons, ← Multiset.singleton_add] at hconserved
    have hcompleted : ((s.completed ++ [slot.toQueued] : List (Queued ℕ)) :
        Multiset (Queued ℕ)) = (s.completed : Multiset (Queued ℕ)) + {slot.toQueued} :=
      coe_snoc _ _
    rw [accepted_work_none rfl, completed_work, hconserved, ← Multiset.add_assoc,
      ← hcompleted]
    exact congrArg (_ + ·) (congrArg (Multiset.map Slot.toQueued) hheld.symm)
  case sorted =>
    rw [accepted_work_none rfl]
    exact h.sorted
  case bounded =>
    rw [accepted_work_none rfl]
    exact h.bounded
  case idle =>
    intro _
    rw [passed_work_none rfl, completed_work]
    refine ⟨hpassed, fun other hother => ?_⟩
    exact hidle other (hheld ▸ hother)
  case busy => exact fun _ hj => nomatch hj
  case accepted =>
    have haccepted := h.accepted
    have hsum : s.broker.stats.accepted =
        s.broker.stats.completed + 1 + (s.broker.stats.pending - 1) := by
      bv_omega
    exact hsum
  case pending =>
    have hpending := h.pending
    rw [hrest, Multiset.card_cons] at hpending
    have hsub : (s.broker.stats.pending - 1).toNat = rest.card := by
      bv_omega
    exact hsub.trans (congrArg Multiset.card hheld.symm)
  case reserve =>
    have hle : (held (s.broker.slots.set i none)).filter Slot.isLow ≤
        (held s.broker.slots).filter Slot.isLow := by
      rw [hheld, hrest]
      exact Multiset.filter_le_filter _ (Multiset.le_cons_self _ _)
    have hnew := (Multiset.card_le_card hle).trans h.reserve
    rw [← @List.length_set _ s.broker.slots] at hnew
    exact hnew

/-! ## Steps -/

theorem coe_queued (s : System ℕ) :
    (s.queued : Multiset (Queued ℕ)) =
      ((held s.broker.slots).filter fun slot => slot.sending = false).map Slot.toQueued := by
  have hdecide : (fun slot : Slot ℕ => !slot.sending) =
      fun slot => decide (slot.sending = false) := by
    funext slot
    cases slot.sending with
    | false => rfl
    | true => rfl
  rw [System.queued, hdecide, ← Multiset.map_coe, ← Multiset.filter_coe, held]

theorem Keeps.queued_idle (h : Keeps s) (hsent : s.sent = none) :
    (s.queued : Multiset (Queued ℕ)) = (held s.broker.slots).map Slot.toQueued := by
  rw [coe_queued, Multiset.filter_eq_self.2 (h.idle hsent).2]

/-- Every accepted packet has been passed to `raw_send` or is queued. -/
theorem Keeps.perm (h : Keeps s) : s.accepted.Perm (s.passed ++ s.queued) := by
  refine Multiset.coe_eq_coe.1 ?_
  rw [h.conserved, ← Multiset.coe_add]
  cases hsent : s.sent with
  | none => rw [h.queued_idle hsent, (h.idle hsent).1]
  | some i =>
      obtain ⟨slot, rest, hrest, hsending, -, hpassed, hidle⟩ := h.busy i hsent
      have hmarked : ¬slot.sending = false := by
        rw [hsending]
        exact (nomatch ·)
      have hrestQueued : (slot ::ₘ rest).filter (fun other => other.sending = false) = rest := by
        rw [@Multiset.filter_cons_of_neg _ (fun other : Slot ℕ => other.sending = false) _ slot
          rest hmarked, Multiset.filter_eq_self.2 hidle]
      rw [coe_queued, hpassed, coe_snoc, hrest, hrestQueued, Multiset.map_cons,
        ← Multiset.singleton_add, Multiset.add_assoc]

/-- What `broker_task` does when it looks for the next packet. -/
theorem Keeps.take_cases (h : Keeps s) :
    (s.step .take = s ∧ (s.sent = none → s.queued = [])) ∨
      ∃ i slot, s.sent = none ∧ entryAt s.broker.slots i = some slot ∧
        (∀ other ∈ held s.broker.slots, slot.first other) ∧
        s.step .take = s.work (some i)
          ({ s.broker with slots := s.broker.slots.set i (some slot.mark) },
            [.passed slot.toQueued]) := by
  cases hsent : s.sent with
  | some i =>
      refine .inl ⟨?_, (nomatch ·)⟩
      simp only [System.step, hsent]
  | none =>
      rcases h.pickNext hsent with ⟨hnone, hempty⟩ | ⟨i, slot, hsome, hentry, hfirst⟩
      · refine .inl ⟨?_, fun _ => ?_⟩
        · have hsame : s.work none (s.broker, []) = s := by
            rw [← hsent]
            exact work_nil s
          simp only [System.step, hsent, Broker.take, hnone]
          exact hsame
        · have hqueued := h.queued_idle hsent
          rw [hempty, Multiset.map_zero] at hqueued
          exact (Multiset.coe_eq_zero _).1 hqueued
      · refine .inr ⟨i, slot, rfl, hentry, hfirst, ?_⟩
        simp only [System.step, hsent, Broker.take, hsome]
        rfl

/-- Every critical section keeps the invariant. -/
theorem Keeps.step (h : Keeps s) (action : Action) : Keeps (s.step action) := by
  cases action with
  | submit locked dst packet priority =>
      have hstep : s.step (.submit locked dst packet priority) =
          s.work s.sent (s.broker.submit locked dst packet priority).2 := rfl
      rw [hstep]
      rcases submit_cases s.broker locked dst packet priority with
        ⟨err, stats, -, haccepted, hcompleted, hpending, heq⟩ | ⟨i, hfree, hreserve, heq⟩
      · rw [heq, System.work, List.append_nil]
        exact h.stats haccepted hcompleted hpending
      · rw [heq]
        exact h.accept hfree dst packet priority hreserve
  | take =>
      rcases h.take_cases with ⟨hstep, -⟩ | ⟨i, slot, hsent, hentry, -, hstep⟩
      · rw [hstep]
        exact h
      · rw [hstep]
        exact h.take hsent hentry
  | finish err =>
      cases hsent : s.sent with
      | none =>
          have hstep : s.step (.finish err) = s := by
            simp only [System.step, hsent]
          rw [hstep]
          exact h
      | some i =>
          have hstep : s.step (.finish err) = s.work none (s.broker.finish i err) := by
            simp only [System.step, hsent, System.work]
          rw [hstep]
          exact h.finish hsent err

/-- No critical section changes the configuration. -/
theorem step_config (s : System ℕ) (action : Action) :
    (s.step action).broker.slots.length = s.broker.slots.length ∧
      (s.step action).broker.controlReservedSlots = s.broker.controlReservedSlots := by
  cases action with
  | submit locked dst packet priority =>
      simp only [System.step]
      rcases submit_cases s.broker locked dst packet priority with
        ⟨err, stats, -, -, -, -, heq⟩ | ⟨i, -, -, heq⟩
      · rw [heq]
        exact ⟨rfl, rfl⟩
      · rw [heq]
        exact ⟨List.length_set, rfl⟩
  | take =>
      simp only [System.step]
      split
      · exact ⟨rfl, rfl⟩
      · rw [Broker.take]
        split
        · exact ⟨rfl, rfl⟩
        · exact ⟨List.length_set, rfl⟩
  | finish err =>
      simp only [System.step]
      split
      · exact ⟨rfl, rfl⟩
      · rw [Broker.finish]
        split
        · exact ⟨rfl, rfl⟩
        · exact ⟨List.length_set, rfl⟩

end Keeps

/-! ## Runs -/

/-- The run with tickets that do not wrap. -/
abbrev idealRun (slots controlReservedSlots maxPacketSize : BitVec 16)
    (actions : List Action) : System ℕ :=
  (System.boot slots controlReservedSlots maxPacketSize).run actions

section Run

variable (slots controlReservedSlots maxPacketSize : BitVec 16)

theorem Keeps.run {s : System ℕ} (h : Keeps s) (actions : List Action) :
    Keeps (s.run actions) := by
  induction actions generalizing s with
  | nil => exact h
  | cons action actions ih => exact ih (h.step action)

theorem keeps_run (actions : List Action) :
    Keeps (idealRun slots controlReservedSlots maxPacketSize actions) :=
  (keeps_boot slots controlReservedSlots maxPacketSize).run actions

theorem run_config (s : System ℕ) (actions : List Action) :
    (s.run actions).broker.slots.length = s.broker.slots.length ∧
      (s.run actions).broker.controlReservedSlots = s.broker.controlReservedSlots := by
  induction actions generalizing s with
  | nil => exact ⟨rfl, rfl⟩
  | cons action actions ih =>
      obtain ⟨hlength, hreserved⟩ := ih (s.step action)
      obtain ⟨hlength', hreserved'⟩ := step_config s action
      exact ⟨hlength.trans hlength', hreserved.trans hreserved'⟩

/-- As long as the tickets in use are close, the run of the source is the run with
tickets that do not wrap. -/
theorem run_wrap (actions : List Action)
    (hwindow : ∀ before after, actions = before ++ after →
      (idealRun slots controlReservedSlots maxPacketSize before).Window) :
    (System.boot slots controlReservedSlots maxPacketSize : System (BitVec 32)).run actions =
      (idealRun slots controlReservedSlots maxPacketSize actions).wrap := by
  induction actions using List.reverseRecOn with
  | nil =>
      simp only [System.run, List.foldl_nil, System.wrap, System.boot, Broker.wrap,
        Broker.calloc, List.map_replicate, Option.map_none, wrap_zero, List.map_nil]
  | append_singleton actions action ih =>
      have hbounded := (keeps_run slots controlReservedSlots maxPacketSize actions).systemBounded
      have hbefore : ∀ before after, actions = before ++ after →
          (idealRun slots controlReservedSlots maxPacketSize before).Window := by
        rintro before after rfl
        exact hwindow before (after ++ [action]) (List.append_assoc _ _ _)
      rw [idealRun, System.run_snoc, System.run_snoc, ih hbefore]
      exact step_wrap hbounded (hwindow actions [action] rfl) action

end Run

/-! ## Draining -/

/-- The critical sections of the worker for `raw_send`s that end with these results. -/
def workerRounds (errs : List EspErr) : List Action :=
  errs.flatMap fun err => [.finish err, .take]

section Drain

variable {s : System ℕ}

theorem Keeps.length_queued (h : Keeps s) :
    s.accepted.length = s.passed.length + s.queued.length := by
  rw [h.perm.length_eq, List.length_append]

theorem finish_log (s : System ℕ) (err : EspErr) :
    (s.step (.finish err)).accepted = s.accepted ∧
      (s.step (.finish err)).passed = s.passed ∧ (s.step (.finish err)).sent = none := by
  cases hsent : s.sent with
  | none =>
      have hstep : s.step (.finish err) = s := by
        simp only [System.step, hsent]
      rw [hstep]
      exact ⟨rfl, rfl, hsent⟩
  | some i =>
      have hstep : s.step (.finish err) = s.work none (s.broker.finish i err) := by
        simp only [System.step, hsent, System.work]
      have hnone : (s.broker.finish i err).2.filterMap Effect.accepted? = [] ∧
          (s.broker.finish i err).2.filterMap Effect.passed? = [] := by
        rw [Broker.finish]
        split
        · exact ⟨rfl, rfl⟩
        · exact ⟨rfl, rfl⟩
      rw [hstep]
      exact ⟨accepted_work_none hnone.1, passed_work_none hnone.2, rfl⟩

/-- A round of the worker takes a packet, if there is one. -/
theorem Keeps.round (h : Keeps s) (err : EspErr) :
    ((s.step (.finish err)).step .take).accepted = s.accepted ∧
      ((s.step (.finish err)).step .take).queued.length = s.queued.length - 1 := by
  have hfinish := h.step (.finish err)
  have htake := hfinish.step .take
  obtain ⟨haccepted, hpassed, hsent⟩ := finish_log s err
  have hbefore := h.length_queued
  have hbetween := hfinish.length_queued
  rw [haccepted, hpassed] at hbetween
  rcases hfinish.take_cases with ⟨hsame, hempty⟩ | ⟨i, slot, -, -, -, hstep⟩
  · rw [hsame, hempty hsent, haccepted]
    rw [hempty hsent, List.length_nil] at hbetween
    exact ⟨rfl, by rw [List.length_nil]; omega⟩
  · have hafter := htake.length_queued
    rw [hstep] at hafter ⊢
    rw [accepted_work_none rfl, passed_work, List.length_append, haccepted, hpassed] at hafter
    refine ⟨(accepted_work_none rfl).trans haccepted, ?_⟩
    have hone : ([Effect.passed slot.toQueued].filterMap Effect.passed?).length = 1 := rfl
    rw [hone] at hafter
    omega

/-- As many rounds of the worker as there are packets queued pass all of them. -/
theorem Keeps.drain {errs : List EspErr} (h : Keeps s) (hlength : s.queued.length ≤ errs.length) :
    s.accepted.Perm (s.run (workerRounds errs)).passed := by
  induction errs generalizing s with
  | nil =>
      have hperm := h.perm
      rw [List.eq_nil_of_length_eq_zero (Nat.le_zero.1 hlength), List.append_nil] at hperm
      exact hperm
  | cons err errs ih =>
      obtain ⟨haccepted, hqueued⟩ := h.round err
      have hrest := ih ((h.step (.finish err)).step .take) (by
        rw [hqueued]
        exact Nat.sub_le_of_le_add hlength)
      rw [haccepted] at hrest
      exact hrest

end Drain

/-! ## Conservation, order and reservation -/

/-- What holds of the packets in every state of a broker with these slots. -/
structure Conserves (slots controlReservedSlots : ℕ) (s : System ℕ) : Prop where
  /-- Every ticket is given out once. -/
  once : s.accepted.Pairwise Earlier
  /-- Every accepted packet has been passed to `raw_send` or is queued. -/
  conserved : s.accepted.Perm (s.passed ++ s.queued)
  /-- While `raw_send` runs, the slot holds the packet that was passed to it. -/
  handed : ∀ i, s.sent = some i → ∃ slot, entryAt s.broker.slots i = some slot ∧
    slot.sending = true ∧ s.passed.getLast? = some slot.toQueued
  accepted : s.broker.stats.accepted = s.broker.stats.completed + s.broker.stats.pending
  pending : s.broker.stats.pending.toNat = (used s.broker.slots).length
  room : (used s.broker.slots).length ≤ slots
  reserve : ((used s.broker.slots).filter Slot.isLow).length ≤ slots - controlReservedSlots
  /-- The worker passes what is queued. -/
  drains : ∀ errs, s.queued.length ≤ errs.length →
    s.accepted.Perm (s.run (workerRounds errs)).passed

theorem Keeps.conserves {s : System ℕ} (h : Keeps s) :
    Conserves s.broker.slots.length s.broker.controlReservedSlots s where
  once := h.sorted
  conserved := h.perm
  handed := by
    intro i hsent
    obtain ⟨slot, rest, -, hsending, hentry, hpassed, -⟩ := h.busy i hsent
    refine ⟨slot, hentry, hsending, ?_⟩
    rw [hpassed]
    exact List.getLast?_concat
  accepted := h.accepted
  pending := h.pending
  room := card_held_le_length s.broker.slots
  reserve := by
    have hreserve := h.reserve
    rw [held, Multiset.filter_coe, Multiset.coe_card] at hreserve
    exact hreserve
  drains := fun _ => h.drain

/-- The worker passes a packet of the highest priority, the first accepted of those. -/
def PicksFirst (s : System ℕ) : Prop :=
  s.sent = none → s.queued ≠ [] → ∃ packet ∈ s.queued,
    (s.step .take).passed = s.passed ++ [packet] ∧
    ∀ other ∈ s.queued, other.priority ≤ packet.priority ∧
      (other.priority = packet.priority → packet.ticket ≤ other.ticket)

theorem Keeps.picksFirst {s : System ℕ} (h : Keeps s) : PicksFirst s := by
  intro hsent hqueued
  have hmem : ∀ packet, packet ∈ s.queued ↔
      packet ∈ (held s.broker.slots).map Slot.toQueued := by
    intro packet
    rw [← h.queued_idle hsent]
    rfl
  rcases h.take_cases with ⟨-, hempty⟩ | ⟨i, slot, -, hentry, hfirst, hstep⟩
  · exact absurd (hempty hsent) hqueued
  · refine ⟨slot.toQueued, ?_, ?_, ?_⟩
    · exact (hmem _).2 (Multiset.mem_map_of_mem _ (mem_held_of_entryAt hentry))
    · rw [hstep]
      exact passed_work _ _ _
    · intro other hother
      obtain ⟨other, hheld, rfl⟩ := Multiset.mem_map.1 ((hmem _).1 hother)
      exact hfirst other hheld

/-- What a call of `submit` in this state does. -/
def Submits (s : System ℕ) (locked : Bool) (dst : Option Mac) (packet : List UInt8)
    (priority : UInt8) : Prop :=
  let s' := s.step (.submit locked dst packet priority)
  if (s.broker.submit locked dst packet priority).1 = .ok then
    s'.accepted = s.accepted ++ [
      { ticket := s.broker.nextTicket + 1
        priority := priority
        dst := dst.getD 0
        bytes := packet }]
  else
    s'.broker.slots = s.broker.slots ∧ s'.broker.nextTicket = s.broker.nextTicket ∧
      s'.sent = s.sent ∧ s'.log = s.log

theorem submits (s : System ℕ) (locked : Bool) (dst : Option Mac) (packet : List UInt8)
    (priority : UInt8) : Submits s locked dst packet priority := by
  rw [Submits]
  simp only [System.step]
  rcases submit_cases s.broker locked dst packet priority with
    ⟨err, stats, herr, -, -, -, heq⟩ | ⟨i, -, -, heq⟩
  · rw [heq, if_neg herr]
    exact ⟨rfl, rfl, trivial, List.append_nil _⟩
  · rw [heq, if_pos rfl]
    exact accepted_work s s.sent (s.broker.accept i dst packet priority)

/-- Every accepted packet is passed to `raw_send` exactly once and as it was submitted,
by priority and then by age, for every interleaving of producers and the worker.  The
tickets of the source are those here, cut off to 32 bits; while one is in use, fewer
than `2 ^ 31` others are given out. -/
theorem broker_exactlyOnce (slots controlReservedSlots maxPacketSize : BitVec 16)
    (actions : List Action)
    (hwindow : ∀ before after, actions = before ++ after →
      (idealRun slots controlReservedSlots maxPacketSize before).Window) :
    (System.boot slots controlReservedSlots maxPacketSize : System (BitVec 32)).run actions =
        (idealRun slots controlReservedSlots maxPacketSize actions).wrap ∧
      Conserves slots.toNat controlReservedSlots.toNat
        (idealRun slots controlReservedSlots maxPacketSize actions) ∧
      PicksFirst (idealRun slots controlReservedSlots maxPacketSize actions) ∧
      ∀ locked dst packet priority,
        Submits (idealRun slots controlReservedSlots maxPacketSize actions) locked dst packet
          priority := by
  have h := keeps_run slots controlReservedSlots maxPacketSize actions
  obtain ⟨hlength, hreserved⟩ :=
    run_config (System.boot slots controlReservedSlots maxPacketSize) actions
  have hslots : (idealRun slots controlReservedSlots maxPacketSize actions).broker.slots.length =
      slots.toNat :=
    hlength.trans List.length_replicate
  refine ⟨run_wrap slots controlReservedSlots maxPacketSize actions hwindow, ?_, h.picksFirst,
    submits _⟩
  have hconserves := h.conserves
  rw [hslots, hreserved] at hconserves
  exact hconserves

instance (s : System ℕ) : Decidable s.Window :=
  inferInstanceAs (Decidable (∀ slot ∈ held s.broker.slots,
    s.broker.nextTicket < slot.ticket + 2 ^ 31))

/-- Two packets wait while one is sent, and a third finds only reserved slots. -/
def priorityRun : List Action :=
  [.submit true none [1] 1, .take, .submit true (some 7) [2] 1, .submit true none [3] 4,
    .submit true none [4] 2, .finish .fail, .take]

theorem broker_exactlyOnce_priorityRun :
    Conserves 3 1 (idealRun 3 1 8 priorityRun) ∧
      (idealRun 3 1 8 priorityRun).passed = [⟨1, 1, 0, [1]⟩, ⟨3, 4, 0, [3]⟩] ∧
      (idealRun 3 1 8 priorityRun).queued = [⟨2, 1, 7, [2]⟩] := by
  have hwindow : ∀ before ∈ priorityRun.inits, (idealRun 3 1 8 before).Window := by
    decide +kernel
  refine ⟨(broker_exactlyOnce 3 1 8 priorityRun ?_).2.1, by decide +kernel, by decide +kernel⟩
  intro before after hsplit
  exact hwindow before ((List.mem_inits _ _).2 ⟨after, hsplit.symm⟩)

end KeemashCore.TxBroker
