import KeemashCore.Fifo.Basic
import KeemashCore.Mesh.EventOutbox
import Mathlib.Algebra.Order.Group.Multiset
import Mathlib.Data.List.Induction
import Mathlib.Data.List.Infix
import Mathlib.Tactic.Abel

/-!
# The event outbox is a line

With tickets that do not wrap, the slots in use stand in a line: they join it at its
end, the worker serves the first, and an event with a key may be taken out, unless it
is being sent, and join again.  The tickets of the source agree with these as long as
those in use are less than `2 ^ 31` apart.
-/

namespace KeemashCore.EventOutbox

open SlotTable Fifo

/-! ## The tickets of the source -/

section Wrap

def Event.wrap (event : Event ℕ) : Event (BitVec 32) where
  ticket := SlotTable.wrap event.ticket
  key := event.key
  text := event.text

def Slot.wrap (slot : Slot ℕ) : Slot (BitVec 32) :=
  { slot.toEvent.wrap with sending := slot.sending }

def Effect.wrap : Effect ℕ → Effect (BitVec 32)
  | .accepted event => .accepted event.wrap
  | .replaced old new => .replaced old.wrap new.wrap
  | .sending event => .sending event.wrap
  | .delivered event => .delivered event.wrap
  | .failed event => .failed event.wrap

def Outbox.wrap (o : Outbox ℕ) : Outbox (BitVec 32) where
  textSize := o.textSize
  slots := o.slots.map (Option.map Slot.wrap)
  nextTicket := SlotTable.wrap o.nextTicket
  stats := o.stats

/-- The system with its tickets cut off to 32 bits. -/
def System.wrap (s : System ℕ) : System (BitVec 32) where
  outbox := s.outbox.wrap
  sent := s.sent
  log := s.log.map Effect.wrap

/-- Fewer than `2 ^ 31` tickets were given out since that of any slot in use. -/
def System.Window (s : System ℕ) : Prop :=
  ∀ slot ∈ held s.outbox.slots, s.outbox.nextTicket < slot.ticket + 2 ^ 31

/-- The tickets of the slots were given out. -/
def System.Bounded (s : System ℕ) : Prop :=
  ∀ slot ∈ held s.outbox.slots, slot.ticket ≤ s.outbox.nextTicket

variable (o : Outbox ℕ)

theorem oldest_wrap {s : System ℕ} (hbounded : s.Bounded) (h : s.Window) :
    s.outbox.wrap.oldest = s.outbox.oldest.map (Prod.map id Slot.wrap) := by
  refine bestEntry_map (p := fun slot : Slot ℕ => slot.ticket ≤ s.outbox.nextTicket ∧
    s.outbox.nextTicket < slot.ticket + 2 ^ 31) (fun a _ => rfl) (fun a b ha hb => ?_)
      fun slot hslot => ⟨hbounded slot hslot, h slot hslot⟩
  refine before_wrap ?_ ?_
  · exact Nat.lt_of_le_of_lt ha.1 hb.2
  · exact Nat.lt_of_le_of_lt hb.1 ha.2

theorem entryAt_wrap (i : ℕ) :
    entryAt o.wrap.slots i = (entryAt o.slots i).map Slot.wrap :=
  entryAt_map Slot.wrap o.slots i

theorem replace_wrap (i : ℕ) (slot : Slot ℕ) (text : CString) :
    o.wrap.replace i slot.wrap text =
      ((o.replace i slot text).1.wrap, (o.replace i slot text).2.map Effect.wrap) := by
  simp only [Outbox.replace, Outbox.wrap, List.map_set, Option.map_some, Slot.wrap, Event.wrap,
    Effect.wrap, List.map_cons, List.map_nil, wrap_next]

theorem accept_wrap (i : ℕ) (key text : CString) :
    o.wrap.accept i key text =
      ((o.accept i key text).1.wrap, (o.accept i key text).2.map Effect.wrap) := by
  simp only [Outbox.accept, Outbox.wrap, List.map_set, Option.map_some, Slot.wrap, Event.wrap,
    Effect.wrap, List.map_cons, List.map_nil, wrap_next]

theorem coalesces_wrap (replaceKey : CString) :
    o.wrap.coalesces replaceKey = o.coalesces replaceKey := by
  simp only [Outbox.coalesces]
  split
  · rfl
  · exact findIdx_map _ (fun _ => rfl) o.slots

theorem enqueue_wrap (locked : Bool) (replaceKey text : CString) :
    o.wrap.enqueue locked replaceKey text =
      ((o.enqueue locked replaceKey text).1, (o.enqueue locked replaceKey text).2.1.wrap,
        (o.enqueue locked replaceKey text).2.2.map Effect.wrap) := by
  have hfree : freeIdx o.wrap.slots = freeIdx o.slots := freeIdx_map _ _
  have hfound : ((o.wrap.coalesces replaceKey).bind fun i =>
      (entryAt o.wrap.slots i).map (i, ·)) =
        ((o.coalesces replaceKey).bind fun i => (entryAt o.slots i).map (i, ·)).map
          (Prod.map id Slot.wrap) := by
    rw [coalesces_wrap]
    cases o.coalesces replaceKey with
    | none => rfl
    | some i => simp only [Option.bind_some, entryAt_wrap, Option.map_map]; rfl
  have htext : o.wrap.textSize = o.textSize := rfl
  rw [Outbox.enqueue, Outbox.enqueue, hfound, hfree, htext]
  split
  · rfl
  split
  · rfl
  split
  · rfl
  cases (o.coalesces replaceKey).bind fun i => (entryAt o.slots i).map (i, ·) with
  | some found =>
      simp only [Option.map_some, Prod.map, id, replace_wrap]
  | none =>
      simp only [Option.map_none]
      cases freeIdx o.slots with
      | none => rfl
      | some i =>
          simp only [accept_wrap]
          rfl

theorem acceptAll_wrap (texts : List CString) :
    o.wrap.acceptAll texts =
      ((o.acceptAll texts).1.wrap, (o.acceptAll texts).2.map Effect.wrap) := by
  induction texts generalizing o with
  | nil => rfl
  | cons text texts ih =>
      have hfree : freeIdx o.wrap.slots = freeIdx o.slots := freeIdx_map _ _
      rw [Outbox.acceptAll, Outbox.acceptAll, hfree]
      cases freeIdx o.slots with
      | none => rfl
      | some i =>
          simp only [accept_wrap, ih, List.map_append]

theorem enqueueGroup_wrap (locked : Bool) (texts : List CString) :
    o.wrap.enqueueGroup locked texts =
      ((o.enqueueGroup locked texts).1, (o.enqueueGroup locked texts).2.1.wrap,
        (o.enqueueGroup locked texts).2.2.map Effect.wrap) := by
  have hcount : freeCount o.wrap.slots = freeCount o.slots := freeCount_map _ _
  have hlength : o.wrap.slots.length = o.slots.length := List.length_map _
  have htext : o.wrap.textSize = o.textSize := rfl
  rw [Outbox.enqueueGroup, Outbox.enqueueGroup, hcount, hlength, htext, acceptAll_wrap]
  split
  · rfl
  split
  · rfl
  split
  · rfl
  split
  · rfl
  · rfl

theorem finish_wrap (i : ℕ) (err : EspErr) :
    o.wrap.finish i err = ((o.finish i err).1.wrap, (o.finish i err).2.map Effect.wrap) := by
  rw [Outbox.finish, Outbox.finish, entryAt_wrap]
  cases entryAt o.slots i with
  | none => rfl
  | some slot =>
      simp only [Option.map_some]
      split
      · simp only [Outbox.wrap, List.map_set]
        rfl
      · simp only [Outbox.wrap, List.map_set]
        rfl

theorem step_wrap {s : System ℕ} (hbounded : s.Bounded) (h : s.Window) (action : Action) :
    s.wrap.step action = (s.step action).wrap := by
  cases action with
  | enqueue locked replaceKey text =>
      have hcall : s.wrap.outbox = s.outbox.wrap := rfl
      simp only [System.step, hcall, enqueue_wrap]
      simp only [System.wrap, List.map_append]
  | enqueueGroup locked texts =>
      have hcall : s.wrap.outbox = s.outbox.wrap := rfl
      simp only [System.step, hcall, enqueueGroup_wrap]
      simp only [System.wrap, List.map_append]
  | take =>
      have hsent : s.wrap.sent = s.sent := rfl
      simp only [System.step, hsent]
      cases s.sent with
      | some i => rfl
      | none =>
          have hcall : s.wrap.outbox = s.outbox.wrap := rfl
          simp only [hcall, Outbox.take, oldest_wrap hbounded h]
          cases s.outbox.oldest with
          | none => simp [System.wrap]
          | some found =>
              simp only [Option.map_some, System.wrap, Outbox.wrap, List.map_append,
                List.map_set]
              rfl
  | finish err =>
      have hsent : s.wrap.sent = s.sent := rfl
      simp only [System.step, hsent]
      cases s.sent with
      | none => rfl
      | some i =>
          have hcall : s.wrap.outbox = s.outbox.wrap := rfl
          simp only [hcall, finish_wrap]
          simp only [System.wrap, List.map_append]

end Wrap

/-! ## The line -/

/-- The event that was given to `send` last. -/
def Effect.sending? {T : Type} : Effect T → Option (Event T)
  | .sending event => some event
  | _ => none

def System.handed {T : Type} (s : System T) : Option (Event T) :=
  (s.log.filterMap Effect.sending?).getLast?

/-- An earlier ticket. -/
def Earlier (x y : Event ℕ) : Prop :=
  x.ticket < y.ticket

/-- The slots in use stand in `queue`, in the order of their tickets. -/
structure Stands (s : System ℕ) (queue : List (Slot ℕ)) : Prop where
  held : (queue : Multiset (Slot ℕ)) = SlotTable.held s.outbox.slots
  size : s.outbox.slots.length < 2 ^ 16
  sorted : (s.delivered ++ queue.map Slot.toEvent).Pairwise Earlier
  conserved : (s.issued : Multiset (Event ℕ)) =
    s.delivered + s.replaced + (queue.map Slot.toEvent : List (Event ℕ))
  issued_sorted : s.issued.Pairwise Earlier
  bounded : ∀ event ∈ s.issued, event.ticket ≤ s.outbox.nextTicket
  idle : s.sent = none → ∀ slot ∈ queue, slot.sending = false
  busy : ∀ i, s.sent = some i → ∃ slot rest, queue = slot :: rest ∧ slot.sending = true ∧
    entryAt s.outbox.slots i = some slot ∧ s.handed = some slot.toEvent ∧
    ∀ other ∈ rest, other.sending = false
  keyed : ∀ old new, Effect.replaced old new ∈ s.log → old.key ≠ [] ∧ new.key = old.key
  accepted : s.outbox.stats.accepted = s.outbox.stats.delivered + s.outbox.stats.pending
  pending : s.outbox.stats.pending.toNat = queue.length

/-- An event that is not being sent may be replaced by one with the same key. -/
def Moves (old new : Event ℕ) : Prop :=
  old.key ≠ [] ∧ new.key = old.key

/-- The line that a queue of slots stands for. -/
def System.line (s : System ℕ) (queue : List (Slot ℕ)) : Line (Event ℕ) where
  served := s.delivered
  waiting := queue.map Slot.toEvent

section Stands

variable {s : System ℕ} {queue : List (Slot ℕ)}

theorem stands_boot (slots textSize : BitVec 16) : Stands (System.boot slots textSize) [] where
  held := by
    rw [System.boot, Outbox.calloc, held_replicate_none]
    rfl
  size := by
    rw [System.boot, Outbox.calloc, List.length_replicate]
    exact slots.isLt
  sorted := .nil
  conserved := rfl
  issued_sorted := .nil
  bounded := fun _ h => absurd h List.not_mem_nil
  idle := fun _ _ h => absurd h List.not_mem_nil
  busy := fun _ h => nomatch h
  keyed := fun _ _ h => absurd h List.not_mem_nil
  accepted := rfl
  pending := rfl

/-- Events in the line were issued. -/
theorem Stands.mem_issued (h : Stands s queue) {event : Event ℕ}
    (hevent : event ∈ s.delivered ++ queue.map Slot.toEvent) : event ∈ s.issued := by
  have hmem : event ∈ (s.issued : Multiset (Event ℕ)) := by
    rw [h.conserved]
    rcases List.mem_append.1 hevent with hdone | hwaits
    · exact Multiset.mem_add.2 (.inl (Multiset.mem_add.2 (.inl hdone)))
    · exact Multiset.mem_add.2 (.inr hwaits)
  exact hmem

theorem Stands.mem_queue (h : Stands s queue) {slot : Slot ℕ} :
    slot ∈ queue ↔ slot ∈ SlotTable.held s.outbox.slots := by
  rw [← h.held]
  rfl

/-- Every ticket in the line was given out. -/
theorem Stands.ticket_le (h : Stands s queue) {event : Event ℕ}
    (hevent : event ∈ s.delivered ++ queue.map Slot.toEvent) :
    event.ticket ≤ s.outbox.nextTicket :=
  h.bounded event (h.mem_issued hevent)

theorem Stands.systemBounded (h : Stands s queue) : s.Bounded := by
  intro slot hslot
  have hmem := List.mem_map_of_mem (f := Slot.toEvent) (h.mem_queue.2 hslot)
  exact h.ticket_le (List.mem_append_right _ hmem)

theorem Stands.length_lt (h : Stands s queue) : queue.length < 2 ^ 16 := by
  have hcard := congrArg Multiset.card h.held
  rw [Multiset.coe_card] at hcard
  rw [hcard]
  exact (card_held_le_length _).trans_lt h.size

/-- An outbox in which only counters other than those of the line differ. -/
theorem Stands.stats (h : Stands s queue) {stats : Stats}
    (haccepted : stats.accepted = s.outbox.stats.accepted)
    (hdelivered : stats.delivered = s.outbox.stats.delivered)
    (hpending : stats.pending = s.outbox.stats.pending) :
    Stands { s with outbox := { s.outbox with stats := stats } } queue :=
  { h with
    accepted := by
      rw [haccepted, hdelivered, hpending]
      exact h.accepted
    pending := by
      rw [hpending]
      exact h.pending }

/-! ## Joining the line -/

/-- The system after a critical section. -/
def System.work {T : Type} (s : System T) (sent : Option ℕ)
    (r : Outbox T × List (Effect T)) : System T :=
  { outbox := r.1, sent := sent, log := s.log ++ r.2 }

/-- The system after a call of a producer. -/
def System.put {T : Type} (s : System T) (r : Outbox T × List (Effect T)) : System T :=
  s.work s.sent r

section Log

variable {sent : Option ℕ} {r : Outbox ℕ × List (Effect ℕ)}

theorem delivered_work (s : System ℕ) (sent : Option ℕ) (r : Outbox ℕ × List (Effect ℕ)) :
    (s.work sent r).delivered = s.delivered ++ r.2.filterMap Effect.delivered? :=
  List.filterMap_append

theorem issued_work (s : System ℕ) (sent : Option ℕ) (r : Outbox ℕ × List (Effect ℕ)) :
    (s.work sent r).issued = s.issued ++ r.2.filterMap Effect.issued? :=
  List.filterMap_append

theorem replaced_work (s : System ℕ) (sent : Option ℕ) (r : Outbox ℕ × List (Effect ℕ)) :
    (s.work sent r).replaced = s.replaced ++ r.2.filterMap Effect.replaced? :=
  List.filterMap_append

theorem delivered_work_none (h : r.2.filterMap Effect.delivered? = []) :
    (s.work sent r).delivered = s.delivered := by
  rw [delivered_work, h, List.append_nil]

theorem issued_work_none (h : r.2.filterMap Effect.issued? = []) :
    (s.work sent r).issued = s.issued := by
  rw [issued_work, h, List.append_nil]

theorem replaced_work_none (h : r.2.filterMap Effect.replaced? = []) :
    (s.work sent r).replaced = s.replaced := by
  rw [replaced_work, h, List.append_nil]

theorem handed_work_none (h : r.2.filterMap Effect.sending? = []) :
    (s.work sent r).handed = s.handed := by
  rw [System.handed, System.work, List.filterMap_append, h, List.append_nil]
  rfl

/-- A critical section that replaces nothing. -/
theorem Stands.keyed_work (h : Stands s queue) (hnone : r.2.filterMap Effect.replaced? = []) :
    ∀ old new, Effect.replaced old new ∈ (s.work sent r).log →
      old.key ≠ [] ∧ new.key = old.key := by
  intro old new hmem
  rcases List.mem_append.1 hmem with hold | hnew
  · exact h.keyed old new hold
  · have hreplaced : old ∈ r.2.filterMap Effect.replaced? :=
      List.mem_filterMap.2 ⟨_, hnew, rfl⟩
    rw [hnone] at hreplaced
    cases hreplaced

end Log

/-- The next ticket is later than every ticket in the line. -/
theorem Stands.earlier_next (h : Stands s queue) {event new : Event ℕ}
    (hnew : new.ticket = s.outbox.nextTicket + 1)
    (hevent : event ∈ s.delivered ++ queue.map Slot.toEvent) : Earlier event new := by
  rw [Earlier, hnew]
  exact Nat.lt_succ_of_le (h.ticket_le hevent)

theorem Stands.issued_next (h : Stands s queue) {new : Event ℕ}
    (hnew : new.ticket = s.outbox.nextTicket + 1) :
    (s.issued ++ [new]).Pairwise Earlier ∧
      ∀ event ∈ s.issued ++ [new], event.ticket ≤ s.outbox.nextTicket + 1 := by
  have hlater : ∀ event ∈ s.issued, event.ticket < new.ticket := by
    intro event hevent
    rw [hnew]
    exact Nat.lt_succ_of_le (h.bounded event hevent)
  constructor
  · refine List.pairwise_append.2 ⟨h.issued_sorted, List.pairwise_singleton _ _, ?_⟩
    intro event hevent other hother
    rw [List.mem_singleton.1 hother]
    exact hlater event hevent
  · intro event hevent
    rcases List.mem_append.1 hevent with hold | hlast
    · exact Nat.le_succ_of_le (h.bounded event hold)
    · rw [List.mem_singleton.1 hlast, hnew]

theorem coe_snoc {α : Type} (l : List α) (a : α) :
    ((l ++ [a] : List α) : Multiset α) = (l : Multiset α) + {a} :=
  (Multiset.coe_add l [a]).symm

/-- The slot that `accept` fills. -/
def acceptedSlot (o : Outbox ℕ) (key text : CString) : Slot ℕ where
  ticket := o.nextTicket + 1
  key := key.take (eventKeyMax - 1)
  text := text
  sending := false

/-- An accepted event joins the line. -/
theorem Stands.accept (h : Stands s queue) {i : ℕ} (hfree : freeIdx s.outbox.slots = some i)
    (key text : CString) :
    Stands (s.put (s.outbox.accept i key text)) (queue ++ [acceptedSlot s.outbox key text]) ∧
      (s.put (s.outbox.accept i key text)).delivered = s.delivered := by
  have hslot := getElem?_of_freeIdx hfree
  have hdelivered : (s.put (s.outbox.accept i key text)).delivered = s.delivered :=
    delivered_work_none rfl
  have hissued : (s.put (s.outbox.accept i key text)).issued =
      s.issued ++ [(acceptedSlot s.outbox key text).toEvent] :=
    issued_work _ _ _
  have hreplaced : (s.put (s.outbox.accept i key text)).replaced = s.replaced :=
    replaced_work_none rfl
  have hmap : (queue ++ [acceptedSlot s.outbox key text]).map Slot.toEvent =
      queue.map Slot.toEvent ++ [(acceptedSlot s.outbox key text).toEvent] :=
    List.map_append
  obtain ⟨hissuedSorted, hissuedBounded⟩ :=
    @Stands.issued_next _ _ h (acceptedSlot s.outbox key text).toEvent rfl
  refine ⟨?_, hdelivered⟩
  constructor
  case held =>
    calc ((queue ++ [acceptedSlot s.outbox key text] : List (Slot ℕ)) : Multiset (Slot ℕ))
        = acceptedSlot s.outbox key text ::ₘ queue := by
          rw [← Multiset.coe_add, Multiset.add_comm]
          rfl
      _ = SlotTable.held (s.outbox.accept i key text).1.slots := by
          rw [h.held]
          exact (held_set_some _ hslot).symm
  case size => exact (List.length_set).trans_lt h.size
  case sorted =>
    rw [hdelivered, hmap, ← List.append_assoc]
    refine List.pairwise_append.2 ⟨h.sorted, List.pairwise_singleton _ _, ?_⟩
    intro event hevent other hother
    rw [List.mem_singleton.1 hother]
    exact h.earlier_next rfl hevent
  case conserved =>
    rw [hissued, hdelivered, hreplaced, hmap, coe_snoc, coe_snoc, h.conserved,
      Multiset.add_assoc]
  case issued_sorted =>
    rw [hissued]
    exact hissuedSorted
  case bounded =>
    rw [hissued]
    exact hissuedBounded
  case idle =>
    intro hsent slot hmem
    rcases List.mem_append.1 hmem with hold | hnew
    · exact h.idle hsent slot hold
    · rw [List.mem_singleton.1 hnew]
      rfl
  case busy =>
    intro j hsent
    obtain ⟨slot, rest, hqueue, hsending, hentry, hhanded, hrest⟩ := h.busy j hsent
    have hne : j ≠ i := by
      rintro rfl
      rw [entryAt_eq_some, hslot] at hentry
      cases hentry
    refine ⟨slot, rest ++ [acceptedSlot s.outbox key text], ?_, hsending, ?_, ?_, ?_⟩
    · rw [hqueue, List.cons_append]
    · have hi : i < s.outbox.slots.length := (List.getElem?_eq_some_iff.1 hslot).1
      exact (entryAt_set hi _ j).trans ((if_neg hne).trans hentry)
    · exact (handed_work_none rfl).trans hhanded
    · intro other hother
      rcases List.mem_append.1 hother with hold | hnew
      · exact hrest other hold
      · rw [List.mem_singleton.1 hnew]
        rfl
  case keyed => exact h.keyed_work rfl
  case accepted =>
    have haccepted : s.outbox.stats.accepted + 1 =
        s.outbox.stats.delivered + (s.outbox.stats.pending + 1) := by
      rw [h.accepted, BitVec.add_assoc]
    exact haccepted
  case pending =>
    have hpending : (s.outbox.stats.pending + 1).toNat = queue.length + 1 := by
      have hlength := h.length_lt
      rw [BitVec.toNat_add, h.pending]
      exact Nat.mod_eq_of_lt (by simp; omega)
    rw [List.length_append, List.length_singleton]
    exact hpending

/-! ## Joining the line again -/

/-- The slot that `replace` leaves. -/
def replacedSlot (o : Outbox ℕ) (slot : Slot ℕ) (text : CString) : Slot ℕ :=
  { slot with ticket := o.nextTicket + 1, text := text }

/-- An event with a key, which is not being sent, leaves its place and joins the line
again with the new text. -/
theorem Stands.replace (h : Stands s queue) {i : ℕ} {slot : Slot ℕ}
    (hentry : entryAt s.outbox.slots i = some slot) (hsending : slot.sending = false)
    (hkey : slot.key ≠ []) (text : CString) :
    ∃ front back, queue = front ++ slot :: back ∧
      Stands (s.put (s.outbox.replace i slot text))
        (front ++ back ++ [replacedSlot s.outbox slot text]) ∧
      (s.put (s.outbox.replace i slot text)).delivered = s.delivered := by
  obtain ⟨front, back, rfl⟩ :=
    List.append_of_mem (h.mem_queue.2 (mem_held_of_entryAt hentry))
  have hi := lt_length_of_entryAt hentry
  have hdelivered : (s.put (s.outbox.replace i slot text)).delivered = s.delivered :=
    delivered_work_none rfl
  have hissued : (s.put (s.outbox.replace i slot text)).issued =
      s.issued ++ [(replacedSlot s.outbox slot text).toEvent] :=
    issued_work _ _ _
  have hreplaced : (s.put (s.outbox.replace i slot text)).replaced =
      s.replaced ++ [slot.toEvent] :=
    replaced_work _ _ _
  have hmap : (front ++ back ++ [replacedSlot s.outbox slot text]).map Slot.toEvent =
      (front ++ back).map Slot.toEvent ++ [(replacedSlot s.outbox slot text).toEvent] :=
    List.map_append
  have hsub : List.Sublist ((front ++ back).map Slot.toEvent)
      ((front ++ slot :: back).map Slot.toEvent) :=
    ((List.sublist_cons_self slot back).append_left front).map _
  obtain ⟨hissuedSorted, hissuedBounded⟩ :=
    @Stands.issued_next _ _ h (replacedSlot s.outbox slot text).toEvent rfl
  refine ⟨front, back, rfl, ?_, hdelivered⟩
  constructor
  case held =>
    have hrest : ((front ++ back : List (Slot ℕ)) : Multiset (Slot ℕ)) =
        SlotTable.held (s.outbox.slots.set i none) := by
      have hheld := h.held
      rw [held_set_none hentry] at hheld
      have hmiddle : ((front ++ slot :: back : List (Slot ℕ)) : Multiset (Slot ℕ)) =
          slot ::ₘ ((front ++ back : List (Slot ℕ)) : Multiset (Slot ℕ)) :=
        Multiset.coe_eq_coe.2 List.perm_middle
      rw [hmiddle] at hheld
      exact (Multiset.cons_inj_right slot).1 hheld
    calc ((front ++ back ++ [replacedSlot s.outbox slot text] : List (Slot ℕ)) :
          Multiset (Slot ℕ))
        = replacedSlot s.outbox slot text ::ₘ
            ((front ++ back : List (Slot ℕ)) : Multiset (Slot ℕ)) := by
          rw [← Multiset.coe_add, Multiset.add_comm]
          rfl
      _ = SlotTable.held (s.outbox.replace i slot text).1.slots := by
          rw [hrest]
          exact (held_set_entry _ hentry).symm
  case size => exact (List.length_set).trans_lt h.size
  case sorted =>
    rw [hdelivered, hmap, ← List.append_assoc]
    have hline := hsub.append_left s.delivered
    refine List.pairwise_append.2 ⟨h.sorted.sublist hline, List.pairwise_singleton _ _, ?_⟩
    intro event hevent other hother
    rw [List.mem_singleton.1 hother]
    exact h.earlier_next rfl (hline.subset hevent)
  case conserved =>
    have hmiddle : (((front ++ slot :: back).map Slot.toEvent : List (Event ℕ)) :
        Multiset (Event ℕ)) = {slot.toEvent} +
          ((front ++ back).map Slot.toEvent : List (Event ℕ)) := by
      rw [List.map_append, List.map_cons, List.map_append]
      exact Multiset.coe_eq_coe.2 List.perm_middle
    have hconserved := h.conserved
    rw [hmiddle] at hconserved
    rw [hissued, hdelivered, hreplaced, hmap, coe_snoc, coe_snoc, coe_snoc, hconserved]
    simp only [Multiset.add_assoc]
  case issued_sorted =>
    rw [hissued]
    exact hissuedSorted
  case bounded =>
    rw [hissued]
    exact hissuedBounded
  case idle =>
    intro hsent other hmem
    rcases List.mem_append.1 hmem with hold | hnew
    · exact h.idle hsent other (((List.sublist_cons_self slot back).append_left front).subset hold)
    · rw [List.mem_singleton.1 hnew]
      exact hsending
  case busy =>
    intro j hsent
    obtain ⟨first, rest, hqueue, hfirst, hentry', hhanded, hrest⟩ := h.busy j hsent
    have hne : j ≠ i := by
      rintro rfl
      rw [hentry] at hentry'
      cases hentry'
      rw [hsending] at hfirst
      cases hfirst
    -- The slot that is being sent stays the first.
    cases front with
    | nil =>
        rw [List.nil_append] at hqueue
        obtain ⟨rfl, -⟩ := List.cons.inj hqueue
        rw [hsending] at hfirst
        cases hfirst
    | cons head front =>
        rw [List.cons_append] at hqueue
        obtain ⟨rfl, rfl⟩ := List.cons.inj hqueue
        refine ⟨head, front ++ back ++ [replacedSlot s.outbox slot text], rfl, hfirst, ?_, ?_, ?_⟩
        · exact (entryAt_set hi _ j).trans ((if_neg hne).trans hentry')
        · exact (handed_work_none rfl).trans hhanded
        · intro other hother
          rcases List.mem_append.1 hother with hold | hnew
          · exact hrest other
              (((List.sublist_cons_self slot back).append_left front).subset hold)
          · rw [List.mem_singleton.1 hnew]
            exact hsending
  case keyed =>
    intro old new hmem
    rcases List.mem_append.1 hmem with hold | hnew
    · exact h.keyed old new hold
    · cases List.mem_singleton.1 hnew
      exact ⟨hkey, rfl⟩
  case accepted => exact h.accepted
  case pending =>
    have hlength : (front ++ back ++ [replacedSlot s.outbox slot text]).length =
        (front ++ slot :: back).length := by
      simp only [List.length_append, List.length_cons, List.length_nil]
      omega
    rw [hlength]
    exact h.pending

/-! ## The worker -/

/-- The oldest event is the first of the line. -/
theorem Stands.oldest (h : Stands s queue) (hsent : s.sent = none) :
    (s.outbox.oldest = none ∧ queue = [] ∨
      ∃ i slot rest, s.outbox.oldest = some (i, slot) ∧ queue = slot :: rest ∧
        entryAt s.outbox.slots i = some slot) := by
  have hirrefl : ∀ slot : Slot ℕ, Ticket.before slot.ticket slot.ticket = false := by
    intro slot
    exact decide_eq_false (Nat.lt_irrefl _)
  have htrans : ∀ a b c : Slot ℕ, Ticket.before a.ticket b.ticket = true →
      Ticket.before b.ticket c.ticket = true → Ticket.before a.ticket c.ticket = true := by
    intro a b c hab hbc
    exact decide_eq_true (Nat.lt_trans (of_decide_eq_true hab) (of_decide_eq_true hbc))
  have hbest := @bestEntry_spec _ (fun slot : Slot ℕ => !slot.sending)
    (fun slot best : Slot ℕ => Ticket.before slot.ticket best.ticket) hirrefl htrans
    s.outbox.slots
  have hwaits : ∀ slot ∈ queue, (!slot.sending) = true := by
    intro slot hslot
    rw [h.idle hsent slot hslot]
    rfl
  cases holdest : s.outbox.oldest with
  | none =>
      left
      refine ⟨rfl, List.eq_nil_iff_forall_not_mem.2 fun slot hslot => ?_⟩
      have hno := hbest.none_eligible holdest slot (h.mem_queue.1 hslot)
      rw [hwaits slot hslot] at hno
      cases hno
  | some found =>
      right
      obtain ⟨i, slot⟩ := found
      obtain ⟨hentry, -, hfirst⟩ := hbest.found i slot holdest
      have hmem := h.mem_queue.2 (mem_held_of_entryAt hentry)
      cases queue with
      | nil => cases hmem
      | cons head rest =>
          rcases List.mem_cons.1 hmem with rfl | hrest
          · exact ⟨i, slot, rest, rfl, rfl, hentry⟩
          · -- A later one would not be the oldest.
            have hsorted := (List.pairwise_append.1 h.sorted).2.1
            have hearlier := (List.pairwise_cons.1 hsorted).1 slot.toEvent
              (List.mem_map_of_mem hrest)
            have hnot := hfirst head (h.mem_queue.1 List.mem_cons_self)
              (hwaits head List.mem_cons_self)
            have hlate : ¬head.ticket < slot.ticket := of_decide_eq_false hnot
            exact absurd hearlier hlate

/-- The slots after the first one of the line has changed its mark. -/
theorem Stands.held_mark {slot : Slot ℕ} {rest : List (Slot ℕ)} (h : Stands s (slot :: rest))
    {i : ℕ} (hentry : entryAt s.outbox.slots i = some slot) (sending : Bool) :
    ((({ slot with sending := sending } : Slot ℕ) :: rest : List (Slot ℕ)) :
        Multiset (Slot ℕ)) =
      SlotTable.held (s.outbox.slots.set i (some { slot with sending := sending })) := by
  have hheld := h.held
  rw [held_set_none hentry, ← Multiset.cons_coe] at hheld
  rw [held_set_entry _ hentry, ← (Multiset.cons_inj_right slot).1 hheld]
  rfl

/-- The worker takes the first of the line. -/
theorem Stands.take {slot : Slot ℕ} {rest : List (Slot ℕ)} (h : Stands s (slot :: rest))
    (hsent : s.sent = none) {i : ℕ} (hentry : entryAt s.outbox.slots i = some slot) :
    Stands
      (s.work (some i)
        ({ s.outbox with
            slots := s.outbox.slots.set i (some { slot with sending := true }) },
          [.sending slot.toEvent]))
      ({ slot with sending := true } :: rest) where
  held := h.held_mark hentry true
  size := (List.length_set).trans_lt h.size
  sorted := by
    rw [delivered_work_none rfl]
    exact h.sorted
  conserved := by
    rw [delivered_work_none rfl, issued_work_none rfl, replaced_work_none rfl]
    exact h.conserved
  issued_sorted := by
    rw [issued_work_none rfl]
    exact h.issued_sorted
  bounded := by
    rw [issued_work_none rfl]
    exact h.bounded
  idle := (nomatch ·)
  busy := by
    intro j hj
    obtain rfl : i = j := Option.some.inj hj
    refine ⟨_, rest, rfl, rfl, ?_, ?_, ?_⟩
    · exact (entryAt_set (lt_length_of_entryAt hentry) _ i).trans (if_pos rfl)
    · rw [System.handed, System.work, List.filterMap_append]
      exact List.getLast?_concat
    · intro other hother
      exact h.idle hsent other (List.mem_cons_of_mem slot hother)
  keyed := h.keyed_work rfl
  accepted := h.accepted
  pending := h.pending

section Finish

variable {slot : Slot ℕ} {rest : List (Slot ℕ)} {i : ℕ}

theorem finish_of_ok {o : Outbox ℕ} (hentry : entryAt o.slots i = some slot) :
    o.finish i .ok =
      ({ o with
          slots := o.slots.set i none
          stats :=
            { o.stats with
              lastSendErr := .ok
              delivered := o.stats.delivered + 1
              pending := o.stats.pending - 1 } },
        [.delivered slot.toEvent]) := by
  rw [Outbox.finish, hentry]
  rfl

theorem finish_of_err {o : Outbox ℕ} (hentry : entryAt o.slots i = some slot) {err : EspErr}
    (herr : err ≠ .ok) :
    o.finish i err =
      ({ o with
          slots := o.slots.set i (some { slot with sending := false })
          stats :=
            { o.stats with
              lastSendErr := err
              sendErrors := o.stats.sendErrors + 1 } },
        [.failed slot.toEvent]) := by
  rw [Outbox.finish, hentry]
  exact if_neg herr

/-- The first of the line has been sent, and leaves it. -/
theorem Stands.finish_ok (h : Stands s (slot :: rest)) (hsent : s.sent = some i)
    (hentry : entryAt s.outbox.slots i = some slot) :
    Stands (s.work none (s.outbox.finish i .ok)) rest ∧
      (s.work none (s.outbox.finish i .ok)).delivered = s.delivered ++ [slot.toEvent] := by
  rw [finish_of_ok hentry]
  refine ⟨?_, delivered_work _ _ _⟩
  constructor
  case held =>
    have hheld := h.held
    rw [held_set_none hentry, ← Multiset.cons_coe] at hheld
    exact (Multiset.cons_inj_right slot).1 hheld
  case size => exact (List.length_set).trans_lt h.size
  case sorted =>
    have hdelivered := h.sorted
    rw [List.map_cons, List.append_cons] at hdelivered
    rw [delivered_work]
    exact hdelivered
  case conserved =>
    have hconserved := h.conserved
    rw [List.map_cons, ← Multiset.cons_coe, ← Multiset.singleton_add] at hconserved
    have hdelivered : ((s.delivered ++ [slot.toEvent] : List (Event ℕ)) : Multiset (Event ℕ)) =
        (s.delivered : Multiset (Event ℕ)) + {slot.toEvent} :=
      coe_snoc _ _
    rw [delivered_work, issued_work_none rfl, replaced_work_none rfl, hconserved]
    refine Eq.trans ?_ (congrArg (· + _ + _) hdelivered.symm)
    abel
  case issued_sorted =>
    rw [issued_work_none rfl]
    exact h.issued_sorted
  case bounded =>
    rw [issued_work_none rfl]
    exact h.bounded
  case idle =>
    intro _ other hother
    obtain ⟨first, others, hqueue, -, -, -, hrest⟩ := h.busy i hsent
    obtain ⟨rfl, rfl⟩ := List.cons.inj hqueue
    exact hrest other hother
  case busy => exact fun _ hj => nomatch hj
  case keyed => exact h.keyed_work rfl
  case accepted =>
    have haccepted := h.accepted
    have hsum : s.outbox.stats.accepted =
        s.outbox.stats.delivered + 1 + (s.outbox.stats.pending - 1) := by
      bv_omega
    exact hsum
  case pending =>
    have hpending := h.pending
    rw [List.length_cons] at hpending
    have hsub : (s.outbox.stats.pending - 1).toNat = rest.length := by
      bv_omega
    exact hsub

/-- The first of the line has not been sent, and stays. -/
theorem Stands.finish_err (h : Stands s (slot :: rest)) (hsent : s.sent = some i)
    (hentry : entryAt s.outbox.slots i = some slot) {err : EspErr} (herr : err ≠ .ok) :
    Stands (s.work none (s.outbox.finish i err)) ({ slot with sending := false } :: rest) ∧
      (s.work none (s.outbox.finish i err)).delivered = s.delivered := by
  rw [finish_of_err hentry herr]
  refine ⟨?_, delivered_work_none rfl⟩
  constructor
  case held => exact h.held_mark hentry false
  case size => exact (List.length_set).trans_lt h.size
  case sorted =>
    rw [delivered_work_none rfl]
    exact h.sorted
  case conserved =>
    rw [delivered_work_none rfl, issued_work_none rfl, replaced_work_none rfl]
    exact h.conserved
  case issued_sorted =>
    rw [issued_work_none rfl]
    exact h.issued_sorted
  case bounded =>
    rw [issued_work_none rfl]
    exact h.bounded
  case idle =>
    intro _ other hother
    obtain ⟨first, others, hqueue, -, -, -, hrest⟩ := h.busy i hsent
    obtain ⟨rfl, rfl⟩ := List.cons.inj hqueue
    rcases List.mem_cons.1 hother with rfl | hother
    · rfl
    · exact hrest other hother
  case busy => exact fun _ hj => nomatch hj
  case keyed => exact h.keyed_work rfl
  case accepted => exact h.accepted
  case pending => exact h.pending

end Finish

/-! ## Groups -/

/-- The events of a group, after `n` tickets. -/
def groupEvents : ℕ → List CString → List (Event ℕ)
  | _, [] => []
  | n, text :: texts =>
      { ticket := n + 1
        key := []
        text := text } :: groupEvents (n + 1) texts

/-- The events of a group have no key. -/
theorem key_groupEvents {texts : List CString} :
    ∀ {n : ℕ}, ∀ event ∈ groupEvents n texts, event.key = [] := by
  induction texts with
  | nil => exact fun _ h => absurd h List.not_mem_nil
  | cons text texts ih =>
      intro n event hevent
      rcases List.mem_cons.1 hevent with rfl | hrest
      · rfl
      · exact ih event hrest

/-- A group joins the line. -/
theorem Stands.acceptAll {texts : List CString} :
    ∀ {s : System ℕ} {queue : List (Slot ℕ)}, Stands s queue →
      texts.length ≤ freeCount s.outbox.slots →
        ∃ items, Stands (s.put (s.outbox.acceptAll texts)) (queue ++ items) ∧
          items.map Slot.toEvent = groupEvents s.outbox.nextTicket texts ∧
          (s.put (s.outbox.acceptAll texts)).delivered = s.delivered := by
  induction texts with
  | nil =>
      intro s queue h _
      refine ⟨[], ?_, rfl, delivered_work_none rfl⟩
      have hsame : s.put (s.outbox.acceptAll []) = s := by
        rw [System.put, System.work, Outbox.acceptAll, List.append_nil]
      rwa [hsame, List.append_nil]
  | cons text texts ih =>
      intro s queue h hroom
      rw [List.length_cons] at hroom
      cases hfree : freeIdx s.outbox.slots with
      | none =>
          rw [freeIdx_eq_none.1 hfree] at hroom
          exact absurd hroom (Nat.not_succ_le_zero _)
      | some i =>
          obtain ⟨hfirst, hdelivered⟩ := h.accept hfree [] text
          have hcount : freeCount (s.outbox.accept i [] text).1.slots + 1 =
              freeCount s.outbox.slots := by
            have hbefore := freeCount_add_card s.outbox.slots
            have hafter := freeCount_add_card (s.outbox.accept i [] text).1.slots
            have hlength : (s.outbox.accept i [] text).1.slots.length =
                s.outbox.slots.length :=
              List.length_set
            have hcard : (SlotTable.held (s.outbox.accept i [] text).1.slots).card =
                (SlotTable.held s.outbox.slots).card + 1 := by
              rw [← Multiset.card_cons (acceptedSlot s.outbox [] text)]
              exact congrArg Multiset.card (held_set_some _ (getElem?_of_freeIdx hfree))
            omega
          obtain ⟨items, hitems, hevents, hdelivered'⟩ := @ih
            (s.put (s.outbox.accept i [] text)) _ hfirst
              (Nat.le_of_succ_le_succ (hroom.trans hcount.ge))
          have hput : s.put (s.outbox.acceptAll (text :: texts)) =
              (s.put (s.outbox.accept i [] text)).put
                ((s.put (s.outbox.accept i [] text)).outbox.acceptAll texts) := by
            rw [Outbox.acceptAll, hfree]
            simp only [System.put, System.work, List.append_assoc]
          rw [List.append_assoc] at hitems
          rw [hput]
          refine ⟨_, hitems, ?_, hdelivered'.trans hdelivered⟩
          rw [List.singleton_append, List.map_cons, hevents]
          rfl

/-! ## Steps -/

/-- What a call of `enqueue` can do. -/
theorem enqueue_cases (o : Outbox ℕ) (locked : Bool) (replaceKey text : CString) :
    (∃ err, err ≠ .ok ∧ o.enqueue locked replaceKey text = (err, o, [])) ∨
      o.enqueue locked replaceKey text = (.noMem, o.overflow, []) ∨
      (∃ i slot, entryAt o.slots i = some slot ∧ slot.sending = false ∧ slot.key ≠ [] ∧
        o.enqueue locked replaceKey text = (.ok, o.replace i slot text)) ∨
      ∃ i, freeIdx o.slots = some i ∧ o.enqueue locked replaceKey text =
        (.ok, (o.accept i replaceKey text).1.updateHighWatermark,
          (o.accept i replaceKey text).2) := by
  rw [Outbox.enqueue]
  split
  · exact .inl ⟨.invalidArg, (nomatch ·), rfl⟩
  split
  · exact .inl ⟨.invalidSize, (nomatch ·), rfl⟩
  split
  · exact .inl ⟨.timeout, (nomatch ·), rfl⟩
  split
  · next i slot hfound =>
      obtain ⟨j, hcoalesces, hmap⟩ := Option.bind_eq_some_iff.1 hfound
      obtain ⟨slot', hentry, hpair⟩ := Option.map_eq_some_iff.1 hmap
      obtain ⟨rfl, rfl⟩ := Prod.mk.inj hpair
      rw [Outbox.coalesces] at hcoalesces
      split at hcoalesces
      · cases hcoalesces
      next hkey =>
        obtain ⟨found, hentry', hmatches⟩ := entryAt_of_findIdx hcoalesces
        rw [hentry] at hentry'
        obtain rfl := Option.some.inj hentry'
        simp only [Slot.matches, Bool.and_eq_true, Bool.not_eq_true', beq_iff_eq] at hmatches
        obtain ⟨hsending, hsame⟩ := hmatches
        refine .inr (.inr (.inl ⟨j, slot', hentry, hsending, ?_, rfl⟩))
        intro hempty
        rw [hempty, List.take_nil, eq_comm, List.take_eq_nil_iff] at hsame
        exact hsame.elim (nomatch ·) hkey
  · split
    · exact .inr (.inl rfl)
    · next i hfree => exact .inr (.inr (.inr ⟨i, hfree, rfl⟩))

/-- What a call of `enqueue_group` can do. -/
theorem enqueueGroup_cases (o : Outbox ℕ) (locked : Bool) (texts : List CString) :
    (∃ err, err ≠ .ok ∧ o.enqueueGroup locked texts = (err, o, [])) ∨
      o.enqueueGroup locked texts = (.noMem, o.overflow, []) ∨
      texts.length ≤ freeCount o.slots ∧ o.enqueueGroup locked texts =
        (.ok, (o.acceptAll texts).1.updateHighWatermark, (o.acceptAll texts).2) := by
  rw [Outbox.enqueueGroup]
  split
  · exact .inl ⟨.invalidArg, (nomatch ·), rfl⟩
  split
  · exact .inl ⟨.invalidSize, (nomatch ·), rfl⟩
  split
  · exact .inl ⟨.timeout, (nomatch ·), rfl⟩
  split
  · exact .inr (.inl rfl)
  · next hroom => exact .inr (.inr ⟨Nat.le_of_not_lt hroom, rfl⟩)

theorem Stands.updateHighWatermark {r : Outbox ℕ × List (Effect ℕ)} (h : Stands (s.put r) queue) :
    Stands (s.put (r.1.updateHighWatermark, r.2)) queue :=
  h.stats rfl rfl rfl

/-- A rejected call leaves the line. -/
theorem Stands.reject (h : Stands s queue) : Stands (s.put (s.outbox, [])) queue := by
  have hsame : s.put (s.outbox, []) = s := by
    rw [System.put, System.work, List.append_nil]
  rwa [hsame]

theorem Stands.overflow (h : Stands s queue) : Stands (s.put (s.outbox.overflow, [])) queue :=
  h.reject.stats rfl rfl rfl

theorem line_eq {s' : System ℕ} (hdelivered : s'.delivered = s.delivered)
    (queue : List (Slot ℕ)) : s'.line queue = ⟨s.delivered, queue.map Slot.toEvent⟩ := by
  rw [System.line, hdelivered]

/-- A group that is accepted joins the line together. -/
theorem Stands.enqueueGroup (h : Stands s queue) {locked : Bool} {texts : List CString}
    (hok : (s.outbox.enqueueGroup locked texts).1 = .ok) :
    ∃ items, Stands (s.step (.enqueueGroup locked texts)) (queue ++ items) ∧
      items.map Slot.toEvent = groupEvents s.outbox.nextTicket texts ∧
      (s.step (.enqueueGroup locked texts)).delivered = s.delivered := by
  rcases enqueueGroup_cases s.outbox locked texts with ⟨err, herr, heq⟩ | heq | ⟨hroom, heq⟩
  · rw [heq] at hok
    exact absurd hok herr
  · rw [heq] at hok
    cases hok
  · obtain ⟨items, hitems, hevents, hdelivered⟩ := h.acceptAll hroom
    have hstep : s.step (.enqueueGroup locked texts) =
        s.put ((s.outbox.acceptAll texts).1.updateHighWatermark,
          (s.outbox.acceptAll texts).2) := by
      simp only [System.step, heq]
      rfl
    rw [hstep]
    exact ⟨items, hitems.updateHighWatermark, hevents, hdelivered⟩

/-- Every critical section is a step of the line. -/
theorem Stands.step (h : Stands s queue) (action : Action) :
    ∃ queue', Stands (s.step action) queue' ∧
      Step Moves (s.line queue) ((s.step action).line queue') := by
  have hstay {s' : System ℕ} (h' : Stands s' queue) (hdelivered : s'.delivered = s.delivered) :
      ∃ queue', Stands s' queue' ∧ Step Moves (s.line queue) (s'.line queue') :=
    ⟨queue, h', line_eq hdelivered queue ▸ .refl _⟩
  cases action with
  | enqueue locked replaceKey text =>
      have hstep : s.step (.enqueue locked replaceKey text) =
          s.put (s.outbox.enqueue locked replaceKey text).2 := rfl
      rw [hstep]
      rcases enqueue_cases s.outbox locked replaceKey text with
        ⟨err, -, heq⟩ | heq | ⟨i, slot, hentry, hsending, hkey, heq⟩ | ⟨i, hfree, heq⟩
      · rw [heq]
        exact hstay h.reject (delivered_work_none rfl)
      · rw [heq]
        exact hstay h.overflow (delivered_work_none rfl)
      · obtain ⟨front, back, rfl, hnew, hdelivered⟩ := h.replace hentry hsending hkey text
        rw [heq]
        refine ⟨_, hnew, ?_⟩
        rw [line_eq hdelivered, System.line, List.map_append, List.map_append, List.map_append,
          List.map_cons]
        exact .rejoin ⟨hkey, rfl⟩
      · obtain ⟨hnew, hdelivered⟩ := h.accept hfree replaceKey text
        have hline : (s.put ((s.outbox.accept i replaceKey text).1.updateHighWatermark,
            (s.outbox.accept i replaceKey text).2)).delivered = s.delivered := hdelivered
        rw [heq]
        refine ⟨_, hnew.updateHighWatermark, ?_⟩
        rw [line_eq hline, List.map_append]
        exact .join _
  | enqueueGroup locked texts =>
      rcases enqueueGroup_cases s.outbox locked texts with ⟨err, -, heq⟩ | heq | ⟨-, heq⟩
      · have hstep : s.step (.enqueueGroup locked texts) = s.put (s.outbox, []) := by
          simp only [System.step, heq]
          rfl
        rw [hstep]
        exact hstay h.reject (delivered_work_none rfl)
      · have hstep : s.step (.enqueueGroup locked texts) = s.put (s.outbox.overflow, []) := by
          simp only [System.step, heq]
          rfl
        rw [hstep]
        exact hstay h.overflow (delivered_work_none rfl)
      · have hok : (s.outbox.enqueueGroup locked texts).1 = .ok := by rw [heq]
        obtain ⟨items, hitems, -, hdelivered⟩ := h.enqueueGroup hok
        refine ⟨_, hitems, ?_⟩
        rw [line_eq hdelivered, List.map_append]
        exact .join _
  | take =>
      cases hsent : s.sent with
      | some i =>
          have hstep : s.step .take = s := by
            simp only [System.step, hsent]
          rw [hstep]
          exact hstay h rfl
      | none =>
          rcases h.oldest hsent with ⟨hnone, rfl⟩ | ⟨i, slot, rest, hsome, rfl, hentry⟩
          · have hstep : s.step .take = s.put (s.outbox, []) := by
              simp only [System.step, hsent, Outbox.take, hnone, System.put, System.work]
            rw [hstep]
            exact hstay h.reject (delivered_work_none rfl)
          · have hstep : s.step .take = s.work (some i)
                ({ s.outbox with
                    slots := s.outbox.slots.set i (some { slot with sending := true }) },
                  [.sending slot.toEvent]) := by
              simp only [System.step, hsent, Outbox.take, hsome, System.work]
            rw [hstep]
            refine ⟨_, h.take hsent hentry, ?_⟩
            rw [line_eq (delivered_work_none rfl)]
            exact .refl _
  | finish err =>
      cases hsent : s.sent with
      | none =>
          have hstep : s.step (.finish err) = s := by
            simp only [System.step, hsent]
          rw [hstep]
          exact hstay h rfl
      | some i =>
          have hstep : s.step (.finish err) = s.work none (s.outbox.finish i err) := by
            simp only [System.step, hsent, System.work]
          obtain ⟨slot, rest, rfl, -, hentry, -⟩ := h.busy i hsent
          rw [hstep]
          by_cases herr : err = .ok
          · subst herr
            obtain ⟨hnew, hdelivered⟩ := h.finish_ok hsent hentry
            refine ⟨rest, hnew, ?_⟩
            rw [System.line, System.line, hdelivered, List.map_cons]
            exact .serve
          · obtain ⟨hnew, hdelivered⟩ := h.finish_err hsent hentry herr
            refine ⟨_, hnew, ?_⟩
            rw [line_eq hdelivered]
            exact .refl _

end Stands

/-! ## Runs -/

theorem Stands.run {s : System ℕ} {queue : List (Slot ℕ)} (h : Stands s queue)
    {block : List (Event ℕ)} (hblock : ∀ event ∈ block, event.key = [])
    (htogether : Together block (s.line queue)) (actions : List Action) :
    ∃ queue', Stands (s.run actions) queue' ∧ Together block ((s.run actions).line queue') := by
  induction actions generalizing s queue with
  | nil => exact ⟨queue, h, htogether⟩
  | cons action actions ih =>
      obtain ⟨queue', h', hstep⟩ := h.step action
      refine ih h' (hstep.together ?_ htogether)
      intro event hevent new hmoves
      exact hmoves.1 (hblock event hevent)

theorem stands_run (slots textSize : BitVec 16) (actions : List Action) :
    ∃ queue, Stands ((System.boot slots textSize).run actions) queue := by
  obtain ⟨queue, h, -⟩ := @Stands.run _ _ (stands_boot slots textSize) []
    (fun _ h => absurd h List.not_mem_nil) List.nil_infix actions
  exact ⟨queue, h⟩

/-- As long as the tickets in use are close, the run of the source is the run with
tickets that do not wrap. -/
theorem run_wrap (slots textSize : BitVec 16) (actions : List Action)
    (hwindow : ∀ before after, actions = before ++ after →
      ((System.boot slots textSize).run before).Window) :
    (System.boot slots textSize : System (BitVec 32)).run actions =
      ((System.boot slots textSize).run actions).wrap := by
  induction actions using List.reverseRecOn with
  | nil =>
      simp only [System.run, List.foldl_nil, System.wrap, System.boot, Outbox.wrap,
        Outbox.calloc, List.map_replicate, Option.map_none, wrap_zero, List.map_nil]
  | append_singleton actions action ih =>
      obtain ⟨queue, h⟩ := stands_run slots textSize actions
      have hbefore : ∀ before after, actions = before ++ after →
          ((System.boot slots textSize).run before).Window := by
        rintro before after rfl
        exact hwindow before (after ++ [action]) (List.append_assoc _ _ _)
      rw [System.run_snoc, System.run_snoc, ih hbefore]
      exact step_wrap h.systemBounded (hwindow actions [action] rfl) action

/-- What holds of the events in every state. -/
structure ExactlyOnce (s : System ℕ) : Prop where
  /-- Every ticket is given out once. -/
  once : s.issued.Pairwise Earlier
  /-- Every event with a ticket has been delivered, has been replaced or is pending. -/
  conserved : s.issued.Perm (s.delivered ++ s.replaced ++ s.pending)
  /-- Only an event with a key is replaced, and by one with the same key. -/
  keyed : ∀ old new, Effect.replaced old new ∈ s.log → old.key ≠ [] ∧ new.key = old.key
  /-- Events are delivered in the order of their tickets. -/
  ordered : s.delivered.Pairwise Earlier
  /-- The events that are pending come after those delivered. -/
  later : ∀ event ∈ s.delivered, ∀ other ∈ s.pending, Earlier event other
  /-- While `send` runs, the slot holds the event that was given to it. -/
  handed : ∀ i, s.sent = some i → ∃ slot, entryAt s.outbox.slots i = some slot ∧
    slot.sending = true ∧ s.handed = some slot.toEvent
  accepted : s.outbox.stats.accepted = s.outbox.stats.delivered + s.outbox.stats.pending
  pending : s.outbox.stats.pending.toNat = s.pending.length

theorem Stands.pending_perm {s : System ℕ} {queue : List (Slot ℕ)} (h : Stands s queue) :
    (queue.map Slot.toEvent).Perm s.pending :=
  List.Perm.map _ (Multiset.coe_eq_coe.1 h.held)

theorem Stands.exactlyOnce {s : System ℕ} {queue : List (Slot ℕ)} (h : Stands s queue) :
    ExactlyOnce s where
  once := h.issued_sorted
  conserved := by
    have hconserved := h.conserved
    rw [Multiset.coe_add, Multiset.coe_add] at hconserved
    exact (Multiset.coe_eq_coe.1 hconserved).trans (h.pending_perm.append_left _)
  keyed := h.keyed
  ordered := (List.pairwise_append.1 h.sorted).1
  later := by
    intro event hevent other hother
    exact (List.pairwise_append.1 h.sorted).2.2 event hevent other
      (h.pending_perm.mem_iff.2 hother)
  handed := by
    intro i hsent
    obtain ⟨slot, rest, -, hsending, hentry, hhanded, -⟩ := h.busy i hsent
    exact ⟨slot, hentry, hsending, hhanded⟩
  accepted := h.accepted
  pending := by
    rw [h.pending, ← h.pending_perm.length_eq, List.length_map]

/-- The events of a group stand together, in order, in what has been delivered and what
is pending in the order of the tickets. -/
def GroupTogether (s : System ℕ) (group : List (Event ℕ)) : Prop :=
  ∃ waiting : List (Event ℕ), waiting.Perm s.pending ∧ waiting.Pairwise Earlier ∧
    group <:+: s.delivered ++ waiting

/-- Nothing was added between two states. -/
structure AddsNothing (s s' : System ℕ) : Prop where
  slots : s'.outbox.slots = s.outbox.slots
  nextTicket : s'.outbox.nextTicket = s.outbox.nextTicket
  sent : s'.sent = s.sent
  log : s'.log = s.log

theorem addsNothing_of_rejected (s : System ℕ) (locked : Bool) (texts : List CString)
    (h : (s.outbox.enqueueGroup locked texts).1 ≠ .ok) :
    AddsNothing s (s.step (.enqueueGroup locked texts)) := by
  simp only [System.step]
  rcases enqueueGroup_cases s.outbox locked texts with ⟨err, -, heq⟩ | heq | ⟨-, heq⟩
  · rw [heq]
    exact ⟨rfl, rfl, rfl, List.append_nil _⟩
  · rw [heq]
    exact ⟨rfl, rfl, rfl, List.append_nil _⟩
  · rw [heq] at h
    exact absurd rfl h

/-- The run with tickets that do not wrap. -/
abbrev idealRun (slots textSize : BitVec 16) (actions : List Action) : System ℕ :=
  (System.boot slots textSize).run actions

/-- The outbox delivers every event exactly once and in the order of the tickets, for
every interleaving of producers and the worker.  The tickets of the source are those
here, cut off to 32 bits; while one is in use, fewer than `2 ^ 31` others are given
out. -/
theorem outbox_exactlyOnce (slots textSize : BitVec 16) (actions : List Action)
    (hwindow : ∀ before after, actions = before ++ after →
      (idealRun slots textSize before).Window) :
    (System.boot slots textSize : System (BitVec 32)).run actions =
        (idealRun slots textSize actions).wrap ∧
      ExactlyOnce (idealRun slots textSize actions) ∧
      ∀ before locked texts after, actions = before ++ .enqueueGroup locked texts :: after →
        if ((idealRun slots textSize before).outbox.enqueueGroup locked texts).1 = .ok then
          GroupTogether (idealRun slots textSize actions)
            (groupEvents (idealRun slots textSize before).outbox.nextTicket texts)
        else
          AddsNothing (idealRun slots textSize before)
            ((idealRun slots textSize before).step (.enqueueGroup locked texts)) := by
  obtain ⟨queue, h⟩ := stands_run slots textSize actions
  refine ⟨run_wrap slots textSize actions hwindow, h.exactlyOnce, ?_⟩
  rintro before locked texts after rfl
  split
  · next hok =>
      obtain ⟨queue, h⟩ := stands_run slots textSize before
      obtain ⟨items, hitems, hevents, hdelivered⟩ := h.enqueueGroup hok
      have hblock : Together
          (groupEvents (idealRun slots textSize before).outbox.nextTicket texts)
          (((idealRun slots textSize before).step (.enqueueGroup locked texts)).line
            (queue ++ items)) := by
        rw [Together, Line.all, System.line, List.map_append, hevents, ← List.append_assoc]
        exact (List.suffix_append _ _).isInfix
      obtain ⟨queue', h', htogether⟩ := hitems.run key_groupEvents hblock after
      rw [idealRun, System.run_append]
      exact ⟨_, h'.pending_perm, (List.pairwise_append.1 h'.sorted).2.1, htogether⟩
  · next hrejected => exact addsNothing_of_rejected _ locked texts hrejected

instance (s : System ℕ) : Decidable s.Window :=
  inferInstanceAs (Decidable (∀ slot ∈ held s.outbox.slots,
    s.outbox.nextTicket < slot.ticket + 2 ^ 31))

/-- An event with a key is replaced while a group is being sent, and the first `send`
fails. -/
def groupRun : List Action :=
  [.enqueueGroup true [[65], [66]], .enqueue true [75] [67], .take, .enqueue true [75] [68],
    .finish .fail, .take, .finish .ok, .take]

theorem outbox_exactlyOnce_groupRun :
    ExactlyOnce (idealRun 3 8 groupRun) ∧
      (idealRun 3 8 groupRun).delivered = [⟨1, [], [65]⟩] ∧
      (idealRun 3 8 groupRun).pending = [⟨2, [], [66]⟩, ⟨4, [75], [68]⟩] := by
  have hwindow : ∀ before ∈ groupRun.inits, (idealRun 3 8 before).Window := by
    decide +kernel
  refine ⟨(outbox_exactlyOnce 3 8 groupRun ?_).2.1, by decide +kernel, by decide +kernel⟩
  intro before after hsplit
  exact hwindow before ((List.mem_inits _ _).2 ⟨after, hsplit.symm⟩)

end KeemashCore.EventOutbox
