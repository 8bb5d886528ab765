import KeemashCore.Mesh.EventOutboxFifo

/-!
# Events with keys

An event with a key is to take the place of one that waits under the same key.  A slot keeps
the first fifteen bytes of the key it was filled with, and a call compares sixteen bytes of its
own key with those: a longer key finds nothing, and the first fifteen bytes of one find the
event of another caller.  Beside the outbox stands here what its callers know: the keys that
the slots were filled with, and under which key which text went in and came out.
-/

namespace KeemashCore.EventOutbox

open SlotTable

/-! ## What the callers know -/

/-- The outbox, the key that each slot was filled with, and the keys and texts of the calls
that were accepted and of the texts that were delivered. -/
@[ext]
structure Keyed (T : Type) where
  system : System T
  keys : ℕ → CString
  enqueued : List (CString × CString)
  delivered : List (CString × CString)

section Code

variable {T : Type} [Ticket T]

/-- The keys after a call that fills slots under a key. -/
def filledKeys (before after : List (Option (Slot T))) (key : CString) (keys : ℕ → CString) :
    ℕ → CString :=
  fun i => if (entryAt before i).isNone ∧ (entryAt after i).isSome then key else keys i

def Keyed.step (k : Keyed T) : Action → Keyed T
  | .enqueue locked key text =>
      let system := k.system.step (.enqueue locked key text)
      { k with
        system := system
        keys := filledKeys k.system.outbox.slots system.outbox.slots key k.keys
        enqueued :=
          if (k.system.outbox.enqueue locked key text).1 = .ok then k.enqueued ++ [(key, text)]
          else k.enqueued }
  | .enqueueGroup locked texts =>
      let system := k.system.step (.enqueueGroup locked texts)
      { k with
        system := system
        keys := filledKeys k.system.outbox.slots system.outbox.slots [] k.keys }
  | .take => { k with system := k.system.step .take }
  | .finish err =>
      { k with
        system := k.system.step (.finish err)
        delivered :=
          match k.system.sent with
          | none => k.delivered
          | some i =>
              k.delivered ++ ((k.system.outbox.finish i err).2.filterMap Effect.delivered?).map
                fun event => (k.keys i, event.text) }

def Keyed.boot (slots textSize : BitVec 16) : Keyed T where
  system := System.boot slots textSize
  keys := fun _ => []
  enqueued := []
  delivered := []

def Keyed.run (k : Keyed T) (actions : List Action) : Keyed T :=
  actions.foldl Keyed.step k

theorem Keyed.run_snoc (k : Keyed T) (actions : List Action) (action : Action) :
    k.run (actions ++ [action]) = (k.run actions).step action := by
  rw [Keyed.run, List.foldl_concat]
  rfl

theorem Keyed.system_step (k : Keyed T) (action : Action) :
    (k.step action).system = k.system.step action := by
  cases action with
  | enqueue locked key text => rfl
  | enqueueGroup locked texts => rfl
  | take => rfl
  | finish err => rfl

theorem Keyed.system_run (slots textSize : BitVec 16) (actions : List Action) :
    ((Keyed.boot slots textSize : Keyed T).run actions).system =
      (System.boot slots textSize).run actions := by
  induction actions using List.reverseRecOn with
  | nil => rfl
  | append_singleton actions action ih =>
      rw [Keyed.run_snoc, Keyed.system_step, ih, System.run_snoc]

/-- The slot is in use and is not being sent. -/
def Keyed.Waits (k : Keyed T) (i : ℕ) : Prop :=
  (entryAt k.system.outbox.slots i).any (fun slot => !slot.sending) = true

/-- The key that a slot keeps. -/
def cutKey (key : CString) : CString :=
  key.take (eventKeyMax - 1)

/-- No event waits under the key if it is longer than a slot keeps, and no event under a
longer key that is cut to this one waits in a slot before those of this key. -/
structure Keyed.Fits (k : Keyed T) (key : CString) : Prop where
  long : eventKeyMax ≤ key.length → ∀ i, k.Waits i → k.keys i ≠ key
  cut : ∀ i, k.Waits i → cutKey (k.keys i) = key → k.keys i ≠ key →
    ∃ j < i, k.Waits j ∧ k.keys j = key

/-- What a call is to do with a text and a key: if an event waits under the key, the text
takes its place without another slot, and no event of another key is replaced. -/
structure Keyed.Coalesces (k : Keyed T) (key text : CString) : Prop where
  replaces : (∃ i, k.Waits i ∧ k.keys i = key) →
    (k.system.outbox.enqueue true key text).1 = .ok ∧
      ∃ i slot, k.Waits i ∧ k.keys i = key ∧ entryAt k.system.outbox.slots i = some slot ∧
        (k.system.outbox.enqueue true key text).2.1.slots =
          k.system.outbox.slots.set i
            (some { slot with
              ticket := Ticket.next k.system.outbox.nextTicket
              text := text })
  spares : ∀ i, k.system.outbox.coalesces key = some i → k.keys i = key

/-- A text that `enqueue` takes. -/
def Outbox.Takes (o : Outbox T) (text : CString) : Prop :=
  text ≠ [] ∧ text.length < o.textSize

/-! ## One call -/

/-- What a call of `enqueue` does, and with which slot. -/
theorem enqueue_eq (o : Outbox T) (locked : Bool) (key text : CString) :
    (¬(o.Takes text ∧ locked = true) ∧
        ∃ err, err ≠ .ok ∧ o.enqueue locked key text = (err, o, [])) ∨
      (o.coalesces key = none ∧ freeIdx o.slots = none ∧
        o.enqueue locked key text = (.noMem, o.overflow, [])) ∨
      (∃ i slot, o.coalesces key = some i ∧ entryAt o.slots i = some slot ∧
        slot.matches key = true ∧ o.enqueue locked key text = (.ok, o.replace i slot text)) ∨
      (o.coalesces key = none ∧ ∃ i, freeIdx o.slots = some i ∧
        o.enqueue locked key text =
          (.ok, (o.accept i key text).1.updateHighWatermark, (o.accept i key text).2)) := by
  rw [Outbox.enqueue]
  split
  · next hempty => exact .inl ⟨fun h => h.1.1 hempty, .invalidArg, by decide, rfl⟩
  split
  · next hlong => exact .inl ⟨fun h => Nat.not_le.mpr h.1.2 hlong, .invalidSize, by decide, rfl⟩
  split
  · next hlocked =>
      refine .inl ⟨fun h => ?_, .timeout, by decide, rfl⟩
      rw [h.2] at hlocked
      exact absurd hlocked (by decide)
  cases hcoalesces : o.coalesces key with
  | none =>
      simp only [Option.bind_none]
      split
      · next hfree => exact .inr (.inl ⟨trivial, hfree, rfl⟩)
      · next i hfree => exact .inr (.inr (.inr ⟨trivial, i, hfree, rfl⟩))
  | some i =>
      have hfound := hcoalesces
      rw [Outbox.coalesces] at hfound
      split at hfound
      · exact absurd hfound (by simp)
      · obtain ⟨slot, hentry, hmatches⟩ := entryAt_of_findIdx hfound
        refine .inr (.inr (.inl ⟨i, slot, rfl, hentry, hmatches, ?_⟩))
        simp only [Option.bind_some, hentry, Option.map_some]

/-! ## One step -/

/-- The event in a slot. -/
def Keyed.eventAt (k : Keyed T) (i : ℕ) : Option (Event T) :=
  (entryAt k.system.outbox.slots i).map Slot.toEvent

/-- What a step does to the events, the keys and the two lists. -/
inductive Change (k : Keyed T) (action : Action) (k' : Keyed T) : Prop where
  | same (events : ∀ j, k'.eventAt j = k.eventAt j) (keys : k'.keys = k.keys)
      (enqueued : k'.enqueued = k.enqueued) (delivered : k'.delivered = k.delivered)
  | replaced (locked : Bool) (key text : CString) (i : ℕ) (event : Event T)
      (call : action = .enqueue locked key text)
      (coalesces : k.system.outbox.coalesces key = some i) (old : k.eventAt i = some event)
      (events : ∀ j, k'.eventAt j =
        if j = i then
          some { event with ticket := Ticket.next k.system.outbox.nextTicket, text := text }
        else k.eventAt j)
      (keys : k'.keys = k.keys) (enqueued : k'.enqueued = k.enqueued ++ [(key, text)])
      (delivered : k'.delivered = k.delivered)
  | accepted (locked : Bool) (key text : CString) (i : ℕ)
      (call : action = .enqueue locked key text) (old : k.eventAt i = none)
      (events : ∀ j, k'.eventAt j =
        if j = i then some ⟨Ticket.next k.system.outbox.nextTicket, cutKey key, text⟩
        else k.eventAt j)
      (keys : ∀ j, k'.keys j = if j = i then key else k.keys j)
      (enqueued : k'.enqueued = k.enqueued ++ [(key, text)])
      (delivered : k'.delivered = k.delivered)
  | group (locked : Bool) (texts : List CString) (call : action = .enqueueGroup locked texts)
      (events : ∀ j, (k'.eventAt j = k.eventAt j ∧ k'.keys j = k.keys j) ∨
        (k.eventAt j = none ∧ k'.keys j = [] ∧ ∃ event, k'.eventAt j = some event ∧
          event.key = []))
      (enqueued : k'.enqueued = k.enqueued) (delivered : k'.delivered = k.delivered)
  | delivered (i : ℕ) (event : Event T) (call : action = .finish .ok) (sent : k.system.sent = some i)
      (old : k.eventAt i = some event)
      (events : ∀ j, k'.eventAt j = if j = i then none else k.eventAt j)
      (keys : k'.keys = k.keys) (enqueued : k'.enqueued = k.enqueued)
      (delivered : k'.delivered = k.delivered ++ [(k.keys i, event.text)])

/-- A group fills free slots with events without a key. -/
theorem acceptAll_entry (o : Outbox T) (texts : List CString) (j : ℕ) :
    entryAt (o.acceptAll texts).1.slots j = entryAt o.slots j ∨
      (entryAt o.slots j = none ∧
        ∃ slot, entryAt (o.acceptAll texts).1.slots j = some slot ∧ slot.key = []) := by
  induction texts generalizing o with
  | nil => exact .inl rfl
  | cons text texts ih =>
      rw [Outbox.acceptAll]
      split
      · exact .inl rfl
      · next i hfree =>
          simp only
          have hone : entryAt (o.accept i [] text).1.slots j =
              if j = i then
                some { ticket := Ticket.next o.nextTicket, key := [], text := text,
                       sending := false }
              else entryAt o.slots j :=
            entryAt_set (lt_length_of_freeIdx hfree) _ j
          rcases ih (o.accept i [] text).1 with hrest | ⟨hnone, slot, hslot, hkey⟩
          · rw [hrest, hone]
            by_cases hj : j = i
            · rw [if_pos hj, hj]
              exact .inr ⟨entryAt_of_freeIdx hfree, _, rfl, rfl⟩
            · rw [if_neg hj]
              exact .inl rfl
          · rw [hone] at hnone
            by_cases hj : j = i
            · rw [if_pos hj] at hnone
              exact absurd hnone (by simp)
            · rw [if_neg hj] at hnone
              exact .inr ⟨hnone, slot, hslot, hkey⟩

omit [Ticket T] in
/-- The keys stay where no slot was filled. -/
theorem filledKeys_same {before after : List (Option (Slot T))}
    (h : ∀ j, (entryAt before j).isNone = true → entryAt after j = none) (key : CString)
    (keys : ℕ → CString) : filledKeys before after key keys = keys := by
  funext j
  rw [filledKeys, if_neg]
  rintro ⟨hnone, hsome⟩
  rw [h j hnone] at hsome
  exact Bool.noConfusion hsome

omit [Ticket T] in
/-- A slot whose event stays, whatever its mark becomes. -/
theorem toEvent_entryAt_set {table : List (Option (Slot T))} {i : ℕ} {slot new : Slot T}
    (hentry : entryAt table i = some slot) (hnew : new.toEvent = slot.toEvent) (j : ℕ) :
    (entryAt (table.set i (some new)) j).map Slot.toEvent =
      (entryAt table j).map Slot.toEvent := by
  rw [entryAt_set (lt_length_of_entryAt hentry)]
  split
  · next hj => rw [hj, hentry, Option.map_some, Option.map_some, hnew]
  · rfl

/-- A call of a producer that leaves the slots leaves everything. -/
theorem change_enqueue_same {k : Keyed T} {locked : Bool} {key text : CString}
    (hslots : (k.system.outbox.enqueue locked key text).2.1.slots = k.system.outbox.slots)
    (herr : (k.system.outbox.enqueue locked key text).1 ≠ .ok) :
    Change k (.enqueue locked key text) (k.step (.enqueue locked key text)) := by
  have hstep : (k.step (.enqueue locked key text)).system.outbox.slots =
      k.system.outbox.slots := hslots
  apply Change.same
  · intro j
    rw [Keyed.eventAt, Keyed.eventAt, hstep]
  · refine filledKeys_same (fun j hnone => ?_) key k.keys
    have hsame : (k.system.step (.enqueue locked key text)).outbox.slots =
        k.system.outbox.slots := hslots
    rw [hsame]
    exact Option.isNone_iff_eq_none.mp hnone
  · exact if_neg herr
  · rfl

theorem change_enqueue (k : Keyed T) (locked : Bool) (key text : CString) :
    Change k (.enqueue locked key text) (k.step (.enqueue locked key text)) := by
  have hsystem : (k.step (.enqueue locked key text)).system.outbox =
      (k.system.outbox.enqueue locked key text).2.1 := rfl
  rcases enqueue_eq k.system.outbox locked key text with
    ⟨-, err, herr, heq⟩ | ⟨-, -, heq⟩ | ⟨i, slot, hcoalesces, hentry, -, heq⟩ |
      ⟨-, i, hfree, heq⟩
  · apply change_enqueue_same
    · rw [heq]
    · rw [heq]
      exact herr
  · apply change_enqueue_same
    · rw [heq]
      rfl
    · rw [heq]
      exact fun h => nomatch h
  · have hset (j : ℕ) : entryAt (k.step (.enqueue locked key text)).system.outbox.slots j =
        if j = i then
          some { slot with ticket := Ticket.next k.system.outbox.nextTicket, text := text }
        else entryAt k.system.outbox.slots j := by
      rw [hsystem, heq]
      exact entryAt_set (lt_length_of_entryAt hentry) _ j
    refine .replaced locked key text i slot.toEvent rfl hcoalesces ?_ ?_ ?_ ?_ rfl
    · rw [Keyed.eventAt, hentry]
      rfl
    · intro j
      rw [Keyed.eventAt, hset]
      split
      · rfl
      · rfl
    · refine filledKeys_same (fun j hnone => ?_) key k.keys
      have hj : j ≠ i := by
        rintro rfl
        rw [hentry] at hnone
        exact Bool.noConfusion hnone
      exact (hset j).trans ((if_neg hj).trans (Option.isNone_iff_eq_none.mp hnone))
    · apply if_pos
      rw [heq]
  · have hset (j : ℕ) : entryAt (k.step (.enqueue locked key text)).system.outbox.slots j =
        if j = i then
          some { ticket := Ticket.next k.system.outbox.nextTicket, key := cutKey key, text := text,
                 sending := false }
        else entryAt k.system.outbox.slots j := by
      rw [hsystem, heq]
      exact entryAt_set (lt_length_of_freeIdx hfree) _ j
    refine .accepted locked key text i rfl ?_ ?_ ?_ ?_ rfl
    · rw [Keyed.eventAt, entryAt_of_freeIdx hfree]
      rfl
    · intro j
      rw [Keyed.eventAt, hset]
      split
      · rfl
      · rfl
    · intro j
      have hfilled : (k.step (.enqueue locked key text)).keys j =
          if (entryAt k.system.outbox.slots j).isNone ∧
            (entryAt (k.step (.enqueue locked key text)).system.outbox.slots j).isSome then key
          else k.keys j := rfl
      rw [hfilled, hset]
      by_cases hj : j = i
      · rw [if_pos hj, if_pos hj, hj, entryAt_of_freeIdx hfree, if_pos ⟨rfl, rfl⟩]
      · rw [if_neg hj, if_neg hj, if_neg]
        rintro ⟨hnone, hsome⟩
        rw [Option.isNone_iff_eq_none.mp hnone] at hsome
        exact Bool.noConfusion hsome
    · apply if_pos
      rw [heq]

theorem change_enqueueGroup (k : Keyed T) (locked : Bool) (texts : List CString) :
    Change k (.enqueueGroup locked texts) (k.step (.enqueueGroup locked texts)) := by
  have hentry (j : ℕ) : entryAt (k.system.outbox.enqueueGroup locked texts).2.1.slots j =
      entryAt k.system.outbox.slots j ∨
        (entryAt k.system.outbox.slots j = none ∧
          ∃ slot, entryAt (k.system.outbox.enqueueGroup locked texts).2.1.slots j = some slot ∧
            slot.key = []) := by
    rw [Outbox.enqueueGroup]
    split
    · exact .inl rfl
    split
    · exact .inl rfl
    split
    · exact .inl rfl
    split
    · exact .inl rfl
    · exact acceptAll_entry k.system.outbox texts j
  refine .group locked texts rfl (fun j => ?_) rfl rfl
  have hslots : entryAt (k.step (.enqueueGroup locked texts)).system.outbox.slots j =
      entryAt (k.system.outbox.enqueueGroup locked texts).2.1.slots j := rfl
  have hfilled : (k.step (.enqueueGroup locked texts)).keys j =
      if (entryAt k.system.outbox.slots j).isNone ∧
        (entryAt (k.system.outbox.enqueueGroup locked texts).2.1.slots j).isSome then []
      else k.keys j := rfl
  rw [Keyed.eventAt, Keyed.eventAt, hslots, hfilled]
  rcases hentry j with hsame | ⟨hnone, slot, hslot, hkey⟩
  · left
    rw [hsame, if_neg]
    · exact ⟨rfl, rfl⟩
    · rintro ⟨hnone, hsome⟩
      rw [Option.isNone_iff_eq_none.mp hnone] at hsome
      exact Bool.noConfusion hsome
  · right
    rw [hnone, hslot, if_pos ⟨rfl, rfl⟩]
    exact ⟨rfl, rfl, slot.toEvent, rfl, hkey⟩

theorem change_take (k : Keyed T) : Change k .take (k.step .take) := by
  refine .same (fun j => ?_) rfl rfl rfl
  rw [Keyed.eventAt, Keyed.eventAt, Keyed.system_step, System.step]
  cases k.system.sent with
  | some i => rfl
  | none =>
      simp only [Outbox.take]
      cases holdest : k.system.outbox.oldest with
      | none => rfl
      | some found =>
          obtain ⟨i, slot⟩ := found
          exact @toEvent_entryAt_set T _ i slot { slot with sending := true }
            (entryAt_of_bestEntry holdest) rfl j

theorem change_finish (k : Keyed T) (err : EspErr) :
    Change k (.finish err) (k.step (.finish err)) := by
  cases hsent : k.system.sent with
  | none =>
      have hsystem : k.system.step (.finish err) = k.system := by
        simp only [System.step, hsent]
      refine .same (fun j => ?_) rfl rfl ?_
      · rw [Keyed.eventAt, Keyed.eventAt, Keyed.system_step, hsystem]
      · simp only [Keyed.step, hsent]
  | some i =>
      have hsystem : (k.step (.finish err)).system.outbox = (k.system.outbox.finish i err).1 := by
        rw [Keyed.system_step]
        simp only [System.step, hsent]
      have hdelivered : (k.step (.finish err)).delivered =
          k.delivered ++ ((k.system.outbox.finish i err).2.filterMap Effect.delivered?).map
            fun event => (k.keys i, event.text) := by
        simp only [Keyed.step, hsent]
      cases hentry : entryAt k.system.outbox.slots i with
      | none =>
          have hfinish : k.system.outbox.finish i err = (k.system.outbox, []) := by
            rw [Outbox.finish, hentry]
          refine .same (fun j => ?_) rfl rfl ?_
          · rw [Keyed.eventAt, Keyed.eventAt, hsystem, hfinish]
          · rw [hdelivered, hfinish]
            exact List.append_nil _
      | some slot =>
          by_cases hok : err = .ok
          · refine .delivered i slot.toEvent (congrArg Action.finish hok) hsent ?_ ?_ rfl rfl ?_
            · rw [Keyed.eventAt, hentry]
              rfl
            · intro j
              rw [Keyed.eventAt, hsystem, Outbox.finish, hentry]
              simp only [hok, if_true, entryAt_set_none]
              split
              · rfl
              · rfl
            · rw [hdelivered, Outbox.finish, hentry]
              simp only [hok, if_true]
              rfl
          · refine .same (fun j => ?_) rfl rfl ?_
            · rw [Keyed.eventAt, Keyed.eventAt, hsystem, Outbox.finish, hentry]
              simp only [hok, if_false]
              exact @toEvent_entryAt_set T _ i slot { slot with sending := false } hentry rfl j
            · rw [hdelivered, Outbox.finish, hentry]
              simp only [hok, if_false]
              exact List.append_nil _

theorem change_step (k : Keyed T) (action : Action) : Change k action (k.step action) := by
  cases action with
  | enqueue locked key text => exact change_enqueue k locked key text
  | enqueueGroup locked texts => exact change_enqueueGroup k locked texts
  | take => exact change_take k
  | finish err => exact change_finish k err

/-! ## The keys in the slots -/

/-- Every slot in use keeps the key that it was filled with, cut. -/
def Keyed.Cut (k : Keyed T) : Prop :=
  ∀ i event, k.eventAt i = some event → event.key = cutKey (k.keys i)

theorem cut_step {k : Keyed T} (h : k.Cut) (action : Action) : (k.step action).Cut := by
  intro j event hevent
  cases change_step k action with
  | same events keys enqueued delivered =>
      rw [events] at hevent
      rw [keys]
      exact h j event hevent
  | replaced locked key text i old call coalesces hold events keys enqueued delivered =>
      rw [events] at hevent
      rw [keys]
      split at hevent
      next hj =>
        rw [← Option.some.inj hevent, hj]
        exact h i old hold
      next => exact h j event hevent
  | accepted locked key text i call hold events keys enqueued delivered =>
      rw [events] at hevent
      rw [keys]
      split at hevent
      next hj => rw [if_pos hj, ← Option.some.inj hevent]
      next hj =>
        rw [if_neg hj]
        exact h j event hevent
  | group locked texts call events enqueued delivered =>
      rcases events j with ⟨hsame, hkeys⟩ | ⟨-, hkeys, other, hother, hkey⟩
      · rw [hkeys]
        rw [hsame] at hevent
        exact h j event hevent
      · rw [hkeys]
        rw [hother] at hevent
        rw [← Option.some.inj hevent, hkey]
        rfl
  | delivered i old call sent hold events keys enqueued delivered =>
      rw [events] at hevent
      rw [keys]
      split at hevent
      next => exact absurd hevent (by simp)
      next => exact h j event hevent

theorem eventAt_boot (slots textSize : BitVec 16) (i : ℕ) :
    (Keyed.boot slots textSize : Keyed T).eventAt i = none :=
  congrArg (Option.map Slot.toEvent) (entryAt_replicate_none slots.toNat i)

theorem cut_run (slots textSize : BitVec 16) (actions : List Action) :
    ((Keyed.boot slots textSize : Keyed T).run actions).Cut := by
  induction actions using List.reverseRecOn with
  | nil =>
      intro j event hevent
      exact nomatch (eventAt_boot slots textSize j).symm.trans hevent
  | append_singleton actions action ih =>
      rw [Keyed.run_snoc]
      exact cut_step ih action

/-- Sixteen bytes of a key are what a slot has kept of another one only where the cut key is
the whole key. -/
theorem take_cutKey_eq_iff {key key' : CString} :
    (cutKey key').take eventKeyMax = key.take eventKeyMax ↔ cutKey key' = key := by
  have hmax : eventKeyMax = 16 := rfl
  have hlength : (cutKey key').length ≤ 15 := List.length_take_le _ _
  rw [List.take_of_length_le (hlength.trans (by decide))]
  constructor
  · intro h
    rw [h, List.length_take] at hlength
    rw [h]
    exact List.take_of_length_le (by omega)
  · intro h
    rw [h] at hlength ⊢
    exact (List.take_of_length_le (hlength.trans (by decide))).symm

omit [Ticket T] in
/-- The loop of `enqueue` compares the cut key of a slot with the whole key of the call. -/
theorem matches_iff {k : Keyed T} (h : k.Cut) (i : ℕ) (key : CString) :
    (entryAt k.system.outbox.slots i).any (Slot.matches key) = true ↔
      k.Waits i ∧ cutKey (k.keys i) = key := by
  rw [Keyed.Waits]
  cases hentry : entryAt k.system.outbox.slots i with
  | none => exact iff_of_false Bool.false_ne_true fun hwaits => Bool.false_ne_true hwaits.1
  | some slot =>
      have hcut : slot.key = cutKey (k.keys i) := by
        apply h i slot.toEvent
        rw [Keyed.eventAt, hentry]
        rfl
      rw [Option.any_some, Option.any_some, Slot.matches, Bool.and_eq_true, beq_iff_eq, hcut,
        take_cutKey_eq_iff]

omit [Ticket T] in
/-- The slot that an event with this key replaces is the first one that waits and has kept
the key. -/
theorem coalesces_eq_some {k : Keyed T} (h : k.Cut) {key : CString} (hkey : key ≠ []) {i : ℕ} :
    k.system.outbox.coalesces key = some i ↔
      k.Waits i ∧ cutKey (k.keys i) = key ∧
        ∀ j < i, k.Waits j → cutKey (k.keys j) ≠ key := by
  rw [Outbox.coalesces, if_neg hkey, findIdx_eq_some, matches_iff h, and_assoc]
  apply and_congr_right
  intro _
  apply and_congr_right
  intro _
  apply forall₂_congr
  intro j _
  rw [← Bool.not_eq_true, matches_iff h, not_and]

omit [Ticket T] in
theorem coalesces_eq_none {k : Keyed T} (h : k.Cut) {key : CString} (hkey : key ≠ []) :
    k.system.outbox.coalesces key = none ↔ ∀ i, k.Waits i → cutKey (k.keys i) ≠ key := by
  rw [Outbox.coalesces, if_neg hkey, findIdx_eq_none]
  constructor
  · intro hnone i hwaits hcut
    have hany := (matches_iff h i key).mpr ⟨hwaits, hcut⟩
    obtain ⟨slot, hentry, hmatches⟩ := (Option.any_eq_true _ _).mp hany
    rw [hnone slot (mem_held_of_entryAt hentry)] at hmatches
    exact Bool.noConfusion hmatches
  · intro hnone slot hslot
    obtain ⟨i, hentry⟩ := mem_held_iff_entryAt.mp hslot
    rw [← Bool.not_eq_true]
    intro hmatches
    have hany : (entryAt k.system.outbox.slots i).any (Slot.matches key) = true := by
      rw [hentry]
      exact hmatches
    obtain ⟨hwaits, hcut⟩ := (matches_iff h i key).mp hany
    exact hnone i hwaits hcut

/-! ## When a key coalesces -/

theorem cutKey_eq_self {key : CString} (h : key.length < eventKeyMax) : cutKey key = key :=
  List.take_of_length_le (Nat.le_sub_one_of_lt h)

theorem length_of_cutKey {key key' : CString} (h : cutKey key' = key) :
    key.length < eventKeyMax := by
  have hlength : (cutKey key').length ≤ eventKeyMax - 1 := List.length_take_le _ _
  rw [h] at hlength
  exact hlength.trans_lt (by decide)

omit [Ticket T] in
/-- What `Fits` says is that the first event that waits under the cut key was enqueued under
the key, if one waits. -/
theorem keys_of_fits {k : Keyed T} {key : CString} (h : k.Fits key) {i : ℕ} (hwaits : k.Waits i)
    (hcut : cutKey (k.keys i) = key) (hfirst : ∀ j < i, k.Waits j → cutKey (k.keys j) ≠ key) :
    k.keys i = key := by
  by_contra hne
  obtain ⟨j, hj, hwaits', hkey⟩ := h.cut i hwaits hcut hne
  apply hfirst j hj hwaits'
  rw [hkey]
  exact cutKey_eq_self (length_of_cutKey hcut)

omit [Ticket T] in
/-- Where the loop finds nothing, the keys fit if no event waits under the key. -/
theorem fits_iff_of_none {k : Keyed T} (h : k.Cut) {key : CString} (hkey : key ≠ [])
    (hnone : k.system.outbox.coalesces key = none) :
    k.Fits key ↔ ¬∃ i, k.Waits i ∧ k.keys i = key := by
  have hcut := (coalesces_eq_none h hkey).mp hnone
  constructor
  · rintro hfits ⟨i, hwaits, hsame⟩
    by_cases hlong : eventKeyMax ≤ key.length
    · exact hfits.long hlong i hwaits hsame
    · apply hcut i hwaits
      rw [hsame]
      exact cutKey_eq_self (Nat.not_le.mp hlong)
  · intro hnot
    constructor
    · intro _ i hwaits hsame
      exact hnot ⟨i, hwaits, hsame⟩
    · intro i hwaits hsame
      exact absurd hsame (hcut i hwaits)

omit [Ticket T] in
/-- Where the loop finds a slot, the keys fit if it was filled under the key. -/
theorem fits_iff_of_some {k : Keyed T} (h : k.Cut) {key : CString} (hkey : key ≠ []) {i : ℕ}
    (hsome : k.system.outbox.coalesces key = some i) : k.Fits key ↔ k.keys i = key := by
  obtain ⟨hwaits, hcut, hfirst⟩ := (coalesces_eq_some h hkey).mp hsome
  constructor
  · intro hfits
    exact keys_of_fits hfits hwaits hcut hfirst
  · intro hsame
    constructor
    · intro hlong
      exact absurd (length_of_cutKey hcut) (Nat.not_lt.mpr hlong)
    · intro j hwaits' hcut' hne
      refine ⟨i, ?_, hwaits, hsame⟩
      rcases Nat.lt_trichotomy j i with hj | rfl | hj
      · exact absurd hcut' (hfirst j hj hwaits')
      · exact absurd hsame hne
      · exact hj

/-- In every state, a key is coalesced as its callers expect exactly if the keys that wait fit
it. -/
theorem coalesces_iff {k : Keyed T} (h : k.Cut) {key text : CString} (hkey : key ≠ [])
    (htext : k.system.outbox.Takes text) : k.Coalesces key text ↔ k.Fits key := by
  rcases enqueue_eq k.system.outbox true key text with
    ⟨hrejected, -⟩ | ⟨hnone, -, heq⟩ | ⟨i, slot, hsome, hentry, -, heq⟩ |
      ⟨hnone, i, hfree, heq⟩
  · exact absurd ⟨htext, rfl⟩ hrejected
  · rw [fits_iff_of_none h hkey hnone]
    constructor
    · intro hcoalesces hwaits
      have hok := (hcoalesces.replaces hwaits).1
      rw [heq] at hok
      exact nomatch hok
    · intro hnot
      exact ⟨fun hwaits => absurd hwaits hnot, fun i hi => by rw [hnone] at hi; exact nomatch hi⟩
  · obtain ⟨hwaits, -, -⟩ := (coalesces_eq_some h hkey).mp hsome
    rw [fits_iff_of_some h hkey hsome]
    constructor
    · intro hcoalesces
      exact hcoalesces.spares i hsome
    · intro hsame
      constructor
      · intro _
        rw [heq]
        exact ⟨rfl, i, slot, hwaits, hsame, hentry, rfl⟩
      · intro j hj
        rw [hsome] at hj
        rw [← Option.some.inj hj]
        exact hsame
  · rw [fits_iff_of_none h hkey hnone]
    constructor
    · intro hcoalesces hwaits
      obtain ⟨-, j, slot, -, -, hentry, hslots⟩ := hcoalesces.replaces hwaits
      have hfilled : entryAt (k.system.outbox.enqueue true key text).2.1.slots i ≠ none := by
        rw [heq]
        have hset := entryAt_set (lt_length_of_freeIdx hfree)
          (some { ticket := Ticket.next k.system.outbox.nextTicket, key := cutKey key,
                  text := text, sending := false : Slot T }) i
        rw [if_pos rfl] at hset
        exact fun hfree' => nomatch hset.symm.trans hfree'
      apply hfilled
      have hne : i ≠ j := by
        rintro rfl
        rw [entryAt_of_freeIdx hfree] at hentry
        exact nomatch hentry
      rw [hslots, entryAt_set (lt_length_of_entryAt hentry), if_neg hne]
      exact entryAt_of_freeIdx hfree
    · intro hnot
      exact ⟨fun hwaits => absurd hwaits hnot, fun i hi => by rw [hnone] at hi; exact nomatch hi⟩

/-- A call of `enqueue` leaves every event but the one that it replaces. -/
theorem eventAt_enqueue {k : Keyed T} (locked : Bool) {key : CString} (text : CString) {i : ℕ}
    {event : Event T} (hevent : k.eventAt i = some event)
    (hother : k.system.outbox.coalesces key ≠ some i) :
    (k.step (.enqueue locked key text)).eventAt i = some event := by
  cases change_step k (.enqueue locked key text) with
  | same events keys enqueued delivered => rw [events, hevent]
  | replaced locked' key' text' j old call coalesces hold events keys enqueued delivered =>
      obtain ⟨-, rfl, -⟩ := Action.enqueue.inj call
      have hne : i ≠ j := by
        rintro rfl
        exact hother coalesces
      rw [events, if_neg hne, hevent]
  | accepted locked' key' text' j call hold events keys enqueued delivered =>
      have hne : i ≠ j := by
        rintro rfl
        rw [hold] at hevent
        exact nomatch hevent
      rw [events, if_neg hne, hevent]
  | group locked' texts' call => exact nomatch call
  | delivered j old call => exact nomatch call

/-- A group leaves every event. -/
theorem eventAt_enqueueGroup {k : Keyed T} (locked : Bool) (texts : List CString) {i : ℕ}
    {event : Event T} (hevent : k.eventAt i = some event) :
    (k.step (.enqueueGroup locked texts)).eventAt i = some event := by
  cases change_step k (.enqueueGroup locked texts) with
  | same events keys enqueued delivered => rw [events, hevent]
  | replaced locked' key text' j old call => exact nomatch call
  | accepted locked' key text' j call => exact nomatch call
  | group locked' texts' call events enqueued delivered =>
      rcases events i with ⟨hsame, -⟩ | ⟨hnone, -⟩
      · rw [hsame, hevent]
      · rw [hnone] at hevent
        exact nomatch hevent
  | delivered j old call => exact nomatch call

end Code

/-! ## The last text under a key -/

/-- The last text in a list of keys and texts that stands under a key. -/
def lastFor (key : CString) (log : List (CString × CString)) : Option CString :=
  ((log.filter fun entry => entry.1 == key).getLast?).map Prod.snd

theorem lastFor_snoc (key : CString) (log : List (CString × CString)) (key' text : CString) :
    lastFor key (log ++ [(key', text)]) =
      if key' = key then some text else lastFor key log := by
  rw [lastFor, List.filter_append]
  by_cases h : key' = key
  · have hone : [(key', text)].filter (fun entry => entry.1 == key) = [(key', text)] :=
      List.filter_cons_of_pos (beq_iff_eq.mpr h)
    rw [if_pos h, hone, List.getLast?_concat]
    rfl
  · have hnone : [(key', text)].filter (fun entry => entry.1 == key) = [] :=
      List.filter_cons_of_neg (by simpa using h)
    rw [if_neg h, hnone, List.append_nil, lastFor]

/-- Nothing is pending under the key. -/
def Keyed.Drained {T : Type} (k : Keyed T) (key : CString) : Prop :=
  ∀ i event, k.eventAt i = some event → k.keys i ≠ key

/-- The event with the last ticket under a key has the text of the last call, and where no
event is left, that text was delivered last. -/
structure Newest (k : Keyed ℕ) (key : CString) : Prop where
  pending : ∀ i event, k.eventAt i = some event → k.keys i = key →
    (∀ j other, k.eventAt j = some other → k.keys j = key → other.ticket ≤ event.ticket) →
    lastFor key k.enqueued = some event.text
  drained : k.Drained key → lastFor key k.delivered = lastFor key k.enqueued

/-- The tickets of a system that stands in a line: none is later than the last one given out,
and the event that is being sent has the first. -/
structure Lined (k : Keyed ℕ) : Prop where
  bounded : ∀ i event, k.eventAt i = some event → event.ticket ≤ k.system.outbox.nextTicket
  first : ∀ i, k.system.sent = some i → ∀ event, k.eventAt i = some event →
    ∀ j other, k.eventAt j = some other → event.ticket ≤ other.ticket

theorem Stands.lined {k : Keyed ℕ} {queue : List (Slot ℕ)} (h : Stands k.system queue) :
    Lined k := by
  constructor
  · intro i event hevent
    obtain ⟨slot, hentry, rfl⟩ := Option.map_eq_some_iff.mp hevent
    exact h.systemBounded slot (mem_held_of_entryAt hentry)
  · intro i hsent event hevent j other hother
    obtain ⟨slot, hentry, rfl⟩ := Option.map_eq_some_iff.mp hevent
    obtain ⟨slot', hentry', rfl⟩ := Option.map_eq_some_iff.mp hother
    obtain ⟨head, rest, hqueue, -, hhead, -, -⟩ := h.busy i hsent
    rw [hhead] at hentry
    obtain rfl := Option.some.inj hentry
    have hmem := h.mem_queue.mpr (mem_held_of_entryAt hentry')
    have hsorted := (List.pairwise_append.mp h.sorted).2.1
    rw [hqueue, List.map_cons, List.pairwise_cons] at hsorted
    rw [hqueue] at hmem
    rcases List.mem_cons.mp hmem with rfl | hrest
    · exact Nat.le_refl _
    · exact Nat.le_of_lt (hsorted.1 slot'.toEvent (List.mem_map_of_mem hrest))

section Newest

variable {k k' : Keyed ℕ} {key : CString}

/-- Nothing changes under a key. -/
theorem Newest.same (h : Newest k key)
    (hevents : ∀ i event, (k'.eventAt i = some event ∧ k'.keys i = key) ↔
      (k.eventAt i = some event ∧ k.keys i = key))
    (henqueued : lastFor key k'.enqueued = lastFor key k.enqueued)
    (hdelivered : lastFor key k'.delivered = lastFor key k.delivered) : Newest k' key := by
  constructor
  · intro i event hevent hkey hlast
    rw [henqueued]
    obtain ⟨hevent', hkey'⟩ := (hevents i event).mp ⟨hevent, hkey⟩
    apply h.pending i event hevent' hkey'
    intro j other hother hsame
    obtain ⟨hother', hsame'⟩ := (hevents j other).mpr ⟨hother, hsame⟩
    exact hlast j other hother' hsame'
  · intro hdrained
    rw [henqueued, hdelivered]
    apply h.drained
    intro i event hevent hkey
    obtain ⟨hevent', hkey'⟩ := (hevents i event).mpr ⟨hevent, hkey⟩
    exact hdrained i event hevent' hkey'

/-- A call gives an event under the key the next ticket and its text. -/
theorem Newest.put (hlined : Lined k) {i : ℕ} {new : Event ℕ} {text : CString}
    (hticket : new.ticket = k.system.outbox.nextTicket + 1) (htext : new.text = text)
    (hevents : ∀ j, k'.eventAt j = if j = i then some new else k.eventAt j)
    (hkey : k'.keys i = key) (henqueued : k'.enqueued = k.enqueued ++ [(key, text)]) :
    Newest k' key := by
  have hnew : k'.eventAt i = some new := (hevents i).trans (if_pos rfl)
  constructor
  · intro j event hevent _ hlast
    rw [henqueued, lastFor_snoc, if_pos rfl]
    rw [hevents] at hevent
    split at hevent
    next => rw [← Option.some.inj hevent, htext]
    next =>
      have hbound := hlined.bounded j event hevent
      have hle := hlast i new hnew hkey
      omega
  · intro hdrained
    exact absurd hkey (hdrained i new hnew)

/-- The event that is delivered has the first ticket. -/
theorem Newest.deliver (h : Newest k key) (hlined : Lined k) {i : ℕ} {event : Event ℕ}
    (hsent : k.system.sent = some i) (hevent : k.eventAt i = some event) (hkey : k.keys i = key)
    (hevents : ∀ j, k'.eventAt j = if j = i then none else k.eventAt j)
    (hkeys : k'.keys = k.keys) (henqueued : k'.enqueued = k.enqueued)
    (hdelivered : k'.delivered = k.delivered ++ [(key, event.text)]) : Newest k' key := by
  constructor
  · intro j other hother hsame hlast
    rw [hevents] at hother
    split at hother
    next => exact nomatch hother
    next hne =>
      rw [hkeys] at hsame hlast
      rw [henqueued]
      apply h.pending j other hother hsame
      intro m another hanother hsame'
      by_cases hm : m = i
      · rw [hm, hevent] at hanother
        rw [← Option.some.inj hanother]
        exact hlined.first i hsent event hevent j other hother
      · apply hlast m another ((hevents m).trans ((if_neg hm).trans hanother)) hsame'
  · intro hdrained
    rw [henqueued, hdelivered, lastFor_snoc, if_pos rfl, h.pending i event hevent hkey]
    intro m another hanother hsame
    by_cases hm : m = i
    · rw [hm, hevent] at hanother
      rw [← Option.some.inj hanother]
    · have hstays := (hevents m).trans ((if_neg hm).trans hanother)
      rw [← hkeys] at hsame
      exact absurd hsame (hdrained m another hstays)

/-- Every step keeps the last text under a key the last to be delivered, if the keys of its
call fit. -/
theorem newest_step (h : Newest k key) (hkey : key ≠ []) (hlined : Lined k) (hcut : k.Cut)
    {action : Action} (hfits : ∀ locked key' text, action = .enqueue locked key' text →
      key' ≠ [] → k.Fits key') : Newest (k.step action) key := by
  cases change_step k action with
  | same events keys enqueued delivered =>
      refine h.same (fun i event => ?_) ?_ ?_
      · rw [events, keys]
      · rw [enqueued]
      · rw [delivered]
  | replaced locked key' text i old call coalesces hold events keys enqueued delivered =>
      have hne : key' ≠ [] := by
        rintro rfl
        exact nomatch coalesces
      have hsame : k.keys i = key' :=
        (fits_iff_of_some hcut hne coalesces).mp (hfits locked key' text call hne)
      by_cases hk : key' = key
      · rw [hk] at enqueued
        refine Newest.put hlined ?_ ?_ events ?_ enqueued
        · rfl
        · rfl
        · rw [keys, hsame, hk]
      · refine h.same (fun j event => ?_) ?_ ?_
        · rw [events, keys]
          by_cases hj : j = i
          · rw [hj, hsame]
            exact iff_of_false (fun hno => hk hno.2) fun hno => hk hno.2
          · rw [if_neg hj]
        · rw [enqueued, lastFor_snoc, if_neg hk]
        · rw [delivered]
  | accepted locked key' text i call hold events keys enqueued delivered =>
      by_cases hk : key' = key
      · rw [hk] at enqueued
        refine Newest.put hlined ?_ ?_ events ?_ enqueued
        · rfl
        · rfl
        · rw [keys, if_pos rfl, hk]
      · refine h.same (fun j event => ?_) ?_ ?_
        · rw [events, keys]
          by_cases hj : j = i
          · rw [hj, if_pos rfl, if_pos rfl, hold]
            exact iff_of_false (fun hno => hk hno.2) fun hno => nomatch hno.1
          · rw [if_neg hj, if_neg hj]
        · rw [enqueued, lastFor_snoc, if_neg hk]
        · rw [delivered]
  | group locked texts call events enqueued delivered =>
      refine h.same (fun j event => ?_) ?_ ?_
      · rcases events j with ⟨hsame, hkeys⟩ | ⟨hnone, hkeys, -⟩
        · rw [hsame, hkeys]
        · rw [hnone, hkeys]
          exact iff_of_false (fun hno => hkey hno.2.symm) fun hno => nomatch hno.1
      · rw [enqueued]
      · rw [delivered]
  | delivered i old call sent hold events keys enqueued delivered =>
      by_cases hk : k.keys i = key
      · rw [hk] at delivered
        exact h.deliver hlined sent hold hk events keys enqueued delivered
      · refine h.same (fun j event => ?_) ?_ ?_
        · rw [events, keys]
          by_cases hj : j = i
          · rw [hj, if_pos rfl]
            exact iff_of_false (fun hno => nomatch hno.1) fun hno => hk hno.2
          · rw [if_neg hj]
        · rw [enqueued]
        · rw [delivered, lastFor_snoc, if_neg hk]

end Newest

/-! ## Runs -/

/-- Every call of a run has a key that fits the keys that wait. -/
def FitsAll {T : Type} [Ticket T] (k : Keyed T) (actions : List Action) : Prop :=
  ∀ before locked key text after, actions = before ++ .enqueue locked key text :: after →
    key ≠ [] → (k.run before).Fits key

theorem FitsAll.init {T : Type} [Ticket T] {k : Keyed T} {actions : List Action}
    {action : Action} (h : FitsAll k (actions ++ [action])) : FitsAll k actions := by
  rintro before locked key text after rfl hkey
  exact h before locked key text (after ++ [action]) (by simp) hkey

theorem newest_run (slots textSize : BitVec 16) (actions : List Action) {key : CString}
    (hkey : key ≠ []) (hfits : FitsAll (Keyed.boot slots textSize : Keyed ℕ) actions) :
    Newest ((Keyed.boot slots textSize).run actions) key := by
  induction actions using List.reverseRecOn with
  | nil =>
      constructor
      · intro i event hevent
        exact nomatch (eventAt_boot slots textSize i).symm.trans hevent
      · intro _
        rfl
  | append_singleton actions action ih =>
      obtain ⟨queue, hstands⟩ := stands_run slots textSize actions
      rw [← Keyed.system_run] at hstands
      rw [Keyed.run_snoc]
      apply newest_step (ih hfits.init) hkey hstands.lined (cut_run slots textSize actions)
      rintro locked key' text rfl hne
      exact hfits actions locked key' text [] rfl hne

/-! ## The tickets of the source -/

section Wrap

def Keyed.wrap (k : Keyed ℕ) : Keyed (BitVec 32) where
  system := k.system.wrap
  keys := k.keys
  enqueued := k.enqueued
  delivered := k.delivered

theorem filledKeys_wrap (before after : List (Option (Slot ℕ))) (key : CString)
    (keys : ℕ → CString) :
    filledKeys (before.map (Option.map Slot.wrap)) (after.map (Option.map Slot.wrap)) key keys =
      filledKeys before after key keys := by
  funext i
  rw [filledKeys, filledKeys, entryAt_map, entryAt_map, Option.isNone_map, Option.isSome_map]

theorem waits_wrap (k : Keyed ℕ) (i : ℕ) : k.wrap.Waits i ↔ k.Waits i := by
  have hentry : entryAt k.wrap.system.outbox.slots i =
      (entryAt k.system.outbox.slots i).map Slot.wrap := entryAt_wrap k.system.outbox i
  rw [Keyed.Waits, Keyed.Waits, hentry, Option.any_map]
  rfl

theorem fits_wrap (k : Keyed ℕ) (key : CString) : k.wrap.Fits key ↔ k.Fits key := by
  constructor
  · rintro ⟨hlong, hcut⟩
    simp only [waits_wrap] at hlong hcut
    exact ⟨hlong, hcut⟩
  · rintro ⟨hlong, hcut⟩
    constructor
    · simp only [waits_wrap]
      exact hlong
    · simp only [waits_wrap]
      exact hcut

theorem delivered_wrap (effects : List (Effect ℕ)) (key : CString) :
    ((effects.map Effect.wrap).filterMap Effect.delivered?).map
        (fun event => (key, event.text)) =
      (effects.filterMap Effect.delivered?).map fun event => (key, event.text) := by
  rw [List.filterMap_map, List.map_filterMap, List.map_filterMap]
  congr 1
  funext effect
  cases effect with
  | accepted event => rfl
  | replaced old new => rfl
  | sending event => rfl
  | delivered event => rfl
  | failed event => rfl

theorem keyed_step_wrap {k : Keyed ℕ} (hbounded : k.system.Bounded) (h : k.system.Window)
    (action : Action) : k.wrap.step action = (k.step action).wrap := by
  have hsystem := step_wrap hbounded h action
  have hafter : (k.system.wrap.step action).outbox.slots =
      (k.system.step action).outbox.slots.map (Option.map Slot.wrap) := by
    rw [hsystem]
    rfl
  cases action with
  | enqueue locked key text =>
      apply Keyed.ext
      · exact hsystem
      · have hkeys := filledKeys_wrap k.system.outbox.slots
          (k.system.step (.enqueue locked key text)).outbox.slots key k.keys
        rw [← hafter] at hkeys
        exact hkeys
      · have herr : (k.system.outbox.wrap.enqueue locked key text).1 =
            (k.system.outbox.enqueue locked key text).1 := by rw [enqueue_wrap]
        exact congrArg (fun err => if err = .ok then k.enqueued ++ [(key, text)] else k.enqueued)
          herr
      · rfl
  | enqueueGroup locked texts =>
      apply Keyed.ext
      · exact hsystem
      · have hkeys := filledKeys_wrap k.system.outbox.slots
          (k.system.step (.enqueueGroup locked texts)).outbox.slots [] k.keys
        rw [← hafter] at hkeys
        exact hkeys
      · rfl
      · rfl
  | take =>
      apply Keyed.ext
      · exact hsystem
      · rfl
      · rfl
      · rfl
  | finish err =>
      apply Keyed.ext
      · exact hsystem
      · rfl
      · rfl
      · have hsent : k.wrap.system.sent = k.system.sent := rfl
        have houtbox : k.wrap.system.outbox = k.system.outbox.wrap := rfl
        simp only [Keyed.step, hsent, houtbox]
        cases k.system.sent with
        | none => rfl
        | some i =>
            simp only [finish_wrap, delivered_wrap]
            rfl

/-- As long as the tickets in use are close, what the callers know is the same. -/
theorem keyed_run_wrap (slots textSize : BitVec 16) (actions : List Action)
    (hwindow : ∀ before after, actions = before ++ after →
      (idealRun slots textSize before).Window) :
    (Keyed.boot slots textSize : Keyed (BitVec 32)).run actions =
      ((Keyed.boot slots textSize).run actions).wrap := by
  induction actions using List.reverseRecOn with
  | nil =>
      have hboot := run_wrap slots textSize [] hwindow
      apply Keyed.ext
      · exact hboot
      · rfl
      · rfl
      · rfl
  | append_singleton actions action ih =>
      obtain ⟨queue, h⟩ := stands_run slots textSize actions
      have hbefore : ∀ before after, actions = before ++ after →
          (idealRun slots textSize before).Window := by
        rintro before after rfl
        exact hwindow before (after ++ [action]) (List.append_assoc _ _ _)
      have hnow := hwindow actions [action] rfl
      rw [idealRun, ← Keyed.system_run] at hnow
      rw [← Keyed.system_run] at h
      rw [Keyed.run_snoc, Keyed.run_snoc, ih hbefore]
      exact keyed_step_wrap h.systemBounded hnow action

theorem fitsAll_wrap (slots textSize : BitVec 16) (actions : List Action)
    (hwindow : ∀ before after, actions = before ++ after →
      (idealRun slots textSize before).Window)
    (h : FitsAll (Keyed.boot slots textSize : Keyed (BitVec 32)) actions) :
    FitsAll (Keyed.boot slots textSize : Keyed ℕ) actions := by
  rintro before locked key text after rfl hkey
  have hfits := h before locked key text after rfl hkey
  have hbefore : ∀ front back, before = front ++ back →
      (idealRun slots textSize front).Window := by
    rintro front back rfl
    exact hwindow front (back ++ .enqueue locked key text :: after) (List.append_assoc _ _ _)
  rw [keyed_run_wrap slots textSize before hbefore] at hfits
  exact (fits_wrap _ key).mp hfits

theorem drained_wrap (k : Keyed ℕ) (key : CString) : k.wrap.Drained key ↔ k.Drained key := by
  have hevent (i : ℕ) : k.wrap.eventAt i = (k.eventAt i).map Event.wrap := by
    have hentry : entryAt k.wrap.system.outbox.slots i =
        (entryAt k.system.outbox.slots i).map Slot.wrap := entryAt_wrap k.system.outbox i
    rw [Keyed.eventAt, Keyed.eventAt, hentry, Option.map_map, Option.map_map]
    rfl
  constructor
  · intro h i event hevent'
    apply h i event.wrap
    rw [hevent, hevent']
    rfl
  · intro h i event hevent'
    rw [hevent] at hevent'
    obtain ⟨event', hevent'', -⟩ := Option.map_eq_some_iff.mp hevent'
    exact h i event' hevent''

end Wrap

/-! ## Coalescing -/

/-- The outbox of the source after a run, with what its callers know. -/
abbrev keyedRun (slots textSize : BitVec 16) (actions : List Action) : Keyed (BitVec 32) :=
  (Keyed.boot slots textSize).run actions

/-- In every state that the outbox reaches, a call coalesces its key exactly if the keys that
wait fit it, and apart from the event it replaces a call changes none.  In every run whose
calls have fitting keys, and in which fewer than `2 ^ 31` tickets are given out while one is
in use, the last text delivered under a key is the one last accepted for it, once nothing is
pending under the key. -/
theorem keyed_coalescing (slots textSize : BitVec 16) :
    (∀ actions key text, key ≠ [] →
      (keyedRun slots textSize actions).system.outbox.Takes text →
      ((keyedRun slots textSize actions).Coalesces key text ↔
        (keyedRun slots textSize actions).Fits key)) ∧
    (∀ actions i event, (keyedRun slots textSize actions).eventAt i = some event →
      (∀ locked key text,
        (keyedRun slots textSize actions).system.outbox.coalesces key ≠ some i →
        ((keyedRun slots textSize actions).step (.enqueue locked key text)).eventAt i =
          some event) ∧
      ∀ locked texts,
        ((keyedRun slots textSize actions).step (.enqueueGroup locked texts)).eventAt i =
          some event) ∧
    ∀ actions, FitsAll (Keyed.boot slots textSize : Keyed (BitVec 32)) actions →
      (∀ before after, actions = before ++ after → (idealRun slots textSize before).Window) →
      ∀ key, key ≠ [] → (keyedRun slots textSize actions).Drained key →
        lastFor key (keyedRun slots textSize actions).delivered =
          lastFor key (keyedRun slots textSize actions).enqueued := by
  refine ⟨?_, ?_, ?_⟩
  · intro actions key text hkey htext
    exact coalesces_iff (cut_run slots textSize actions) hkey htext
  · intro actions i event hevent
    constructor
    · intro locked key text hother
      exact eventAt_enqueue locked text hevent hother
    · intro locked texts
      exact eventAt_enqueueGroup locked texts hevent
  · intro actions hfits hwindow key hkey hdrained
    have hnewest := newest_run slots textSize actions hkey
      (fitsAll_wrap slots textSize actions hwindow hfits)
    rw [keyedRun, keyed_run_wrap slots textSize actions hwindow] at hdrained ⊢
    exact hnewest.drained ((drained_wrap _ key).mp hdrained)

/-- A key of sixteen bytes. -/
def longKey : CString :=
  List.replicate 16 65

/-- A second text under a long key takes another slot, and one under the first fifteen bytes
of the key replaces the event of the long key. -/
theorem longKey_not_coalesced :
    ¬(keyedRun 3 8 [.enqueue true longKey [1]]).Coalesces longKey [2] ∧
      ¬(keyedRun 3 8 [.enqueue true longKey [1]]).Coalesces (cutKey longKey) [2] := by
  have hwaits : (keyedRun 3 8 [.enqueue true longKey [1]]).Waits 0 := by
    rw [Keyed.Waits]
    decide
  have hkeys : (keyedRun 3 8 [.enqueue true longKey [1]]).keys 0 = longKey := by decide
  constructor
  · intro hcoalesces
    have hfits := (coalesces_iff (cut_run 3 8 _) (by decide) ⟨by decide, by decide⟩).mp hcoalesces
    exact hfits.long (by decide) 0 hwaits hkeys
  · intro hcoalesces
    have hsame := hcoalesces.spares 0 (by decide)
    rw [hkeys] at hsame
    exact absurd hsame (by decide)

end KeemashCore.EventOutbox
