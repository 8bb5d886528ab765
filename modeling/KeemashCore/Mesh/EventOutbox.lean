import KeemashCore.Mesh.Proto
import KeemashCore.SlotTable.Ticket

/-!
# The event outbox

`keemash_mesh_event_outbox.c`: producers fill slots under a lock, and one worker
takes the oldest slot, sends its text without the lock, and frees the slot under the
lock if the text was sent.  A critical section is one step here, and so is each of
the two of the worker.  The tickets are a parameter: the source has 32 bits for them.

The text of a slot is the string in its part of `storage`.  A null pointer for
`replace_key` acts as the empty string, and null texts, the other fields of the
configuration, `init` and `deinit` are left out.
-/

namespace KeemashCore.EventOutbox

open SlotTable

/-- A C string, without the terminator. -/
abbrev CString := List UInt8

/-- `EVENT_KEY_MAX`. -/
def eventKeyMax : ℕ := 16

/-- What a slot in use says about its event. -/
structure Event (T : Type) where
  ticket : T
  key : CString
  text : CString
  deriving DecidableEq, Repr

/-- `event_slot_t` in use. -/
structure Slot (T : Type) extends Event T where
  sending : Bool
  deriving DecidableEq, Repr

/-- `keemash_mesh_event_outbox_stats_t`. -/
structure Stats where
  accepted : U32
  delivered : U32
  coalesced : U32
  overflow : U32
  sendErrors : U32
  pending : U32
  highWatermark : U32
  lastSendErr : EspErr
  deriving DecidableEq, Repr

/-- `struct keemash_mesh_event_outbox`, with the field `text_size` of its configuration
and without the task and the lock. -/
structure Outbox (T : Type) where
  textSize : ℕ
  slots : List (Option (Slot T))
  nextTicket : T
  stats : Stats
  deriving DecidableEq, Repr

/-- What happened to events, as far as a caller or `send` can tell. -/
inductive Effect (T : Type) where
  | accepted (event : Event T)
  | replaced (old new : Event T)
  | sending (event : Event T)
  | delivered (event : Event T)
  | failed (event : Event T)
  deriving DecidableEq, Repr

section Code

variable {T : Type} [Ticket T]

/-- The outbox that `keemash_mesh_event_outbox_init` allocates. -/
def Outbox.calloc (slots textSize : BitVec 16) : Outbox T where
  textSize := textSize.toNat
  slots := List.replicate slots.toNat none
  nextTicket := Ticket.zero
  stats :=
    { accepted := 0
      delivered := 0
      coalesced := 0
      overflow := 0
      sendErrors := 0
      pending := 0
      highWatermark := 0
      lastSendErr := .ok }

/-- `oldest_locked`, without the mark that it sets. -/
def Outbox.oldest (o : Outbox T) : Option (ℕ × Slot T) :=
  bestEntry (fun slot => !slot.sending)
    (fun slot best => Ticket.before slot.ticket best.ticket) o.slots

/-- `update_high_watermark_locked`. -/
def Stats.updateHighWatermark (stats : Stats) : Stats :=
  { stats with
    highWatermark :=
      if stats.pending > stats.highWatermark then stats.pending else stats.highWatermark }

/-- The test of the coalescing loop: `strncmp` of at most `EVENT_KEY_MAX` characters. -/
def Slot.matches (replaceKey : CString) (slot : Slot T) : Bool :=
  !slot.sending && slot.key.take eventKeyMax == replaceKey.take eventKeyMax

/-- The slot that an event with this key replaces. -/
def Outbox.coalesces (o : Outbox T) (replaceKey : CString) : Option ℕ :=
  if replaceKey = [] then none else findIdx (Slot.matches replaceKey) o.slots

/-- Replace the text of a slot and give it a new ticket. -/
def Outbox.replace (o : Outbox T) (i : ℕ) (slot : Slot T) (text : CString) :
    Outbox T × List (Effect T) :=
  let new : Event T :=
    { ticket := Ticket.next o.nextTicket
      key := slot.key
      text := text }
  ({ o with
      slots := o.slots.set i (some { new with sending := slot.sending })
      nextTicket := Ticket.next o.nextTicket
      stats := { o.stats with coalesced := o.stats.coalesced + 1 } },
    [.replaced slot.toEvent new])

/-- Fill a free slot; the key is cut off to fit its array. -/
def Outbox.accept (o : Outbox T) (i : ℕ) (key text : CString) : Outbox T × List (Effect T) :=
  let event : Event T :=
    { ticket := Ticket.next o.nextTicket
      key := key.take (eventKeyMax - 1)
      text := text }
  ({ o with
      slots := o.slots.set i (some { event with sending := false })
      nextTicket := Ticket.next o.nextTicket
      stats :=
        { o.stats with
          accepted := o.stats.accepted + 1
          pending := o.stats.pending + 1 } },
    [.accepted event])

def Outbox.overflow (o : Outbox T) : Outbox T :=
  { o with stats := { o.stats with overflow := o.stats.overflow + 1 } }

def Outbox.updateHighWatermark (o : Outbox T) : Outbox T :=
  { o with stats := o.stats.updateHighWatermark }

/-- `keemash_mesh_event_outbox_enqueue`; `locked` says that the lock was taken in time. -/
def Outbox.enqueue (o : Outbox T) (locked : Bool) (replaceKey text : CString) :
    EspErr × Outbox T × List (Effect T) :=
  if text = [] then (.invalidArg, o, [])
  else if text.length ≥ o.textSize then (.invalidSize, o, [])
  else if !locked then (.timeout, o, [])
  else
    match (o.coalesces replaceKey).bind fun i => (entryAt o.slots i).map (i, ·) with
    | some (i, slot) => (.ok, o.replace i slot text)
    | none =>
        match freeIdx o.slots with
        | none => (.noMem, o.overflow, [])
        | some i =>
            let accepted := o.accept i replaceKey text
            (.ok, accepted.1.updateHighWatermark, accepted.2)

/-- The filling loop of `keemash_mesh_event_outbox_enqueue_group`. -/
def Outbox.acceptAll : Outbox T → List CString → Outbox T × List (Effect T)
  | o, [] => (o, [])
  | o, text :: texts =>
      match freeIdx o.slots with
      | none => (o, [])
      | some i =>
          let accepted := o.accept i [] text
          let rest := accepted.1.acceptAll texts
          (rest.1, accepted.2 ++ rest.2)

/-- `keemash_mesh_event_outbox_enqueue_group`. -/
def Outbox.enqueueGroup (o : Outbox T) (locked : Bool) (texts : List CString) :
    EspErr × Outbox T × List (Effect T) :=
  if texts.length = 0 ∨ texts.length > o.slots.length then (.invalidArg, o, [])
  else if texts.any fun text => text = [] ∨ text.length ≥ o.textSize then (.invalidSize, o, [])
  else if !locked then (.timeout, o, [])
  else if freeCount o.slots < texts.length then (.noMem, o.overflow, [])
  else
    let accepted := o.acceptAll texts
    (.ok, accepted.1.updateHighWatermark, accepted.2)

/-- The first critical section of `event_worker`: the slot that is sent, if there is one. -/
def Outbox.take (o : Outbox T) : Option ℕ × Outbox T × List (Effect T) :=
  match o.oldest with
  | none => (none, o, [])
  | some (i, slot) =>
      (some i, { o with slots := o.slots.set i (some { slot with sending := true }) },
        [.sending slot.toEvent])

/-- The second critical section of `event_worker`, for the slot and the result of
`send`. -/
def Outbox.finish (o : Outbox T) (i : ℕ) (err : EspErr) : Outbox T × List (Effect T) :=
  match entryAt o.slots i with
  | none => (o, [])
  | some slot =>
      let stats := { o.stats with lastSendErr := err }
      if err = .ok then
        ({ o with
            slots := o.slots.set i none
            stats :=
              { stats with
                delivered := stats.delivered + 1
                pending := stats.pending - 1 } },
          [.delivered slot.toEvent])
      else
        ({ o with
            slots := o.slots.set i (some { slot with sending := false })
            stats := { stats with sendErrors := stats.sendErrors + 1 } },
          [.failed slot.toEvent])

/-! ## Producers and the worker -/

/-- The outbox, the slot that the worker is sending, and what has happened. -/
structure System (T : Type) where
  outbox : Outbox T
  sent : Option ℕ
  log : List (Effect T)
  deriving DecidableEq, Repr

/-- A call of a producer, or a critical section of the worker. -/
inductive Action where
  | enqueue (locked : Bool) (replaceKey text : CString)
  | enqueueGroup (locked : Bool) (texts : List CString)
  /-- The worker looks for the oldest event; it is idle if there is none. -/
  | take
  /-- `send` returns. -/
  | finish (err : EspErr)
  deriving Repr

def System.step (s : System T) : Action → System T
  | .enqueue locked replaceKey text =>
      let r := s.outbox.enqueue locked replaceKey text
      { s with outbox := r.2.1, log := s.log ++ r.2.2 }
  | .enqueueGroup locked texts =>
      let r := s.outbox.enqueueGroup locked texts
      { s with outbox := r.2.1, log := s.log ++ r.2.2 }
  | .take =>
      match s.sent with
      | some _ => s
      | none =>
          let r := s.outbox.take
          { outbox := r.2.1, sent := r.1, log := s.log ++ r.2.2 }
  | .finish err =>
      match s.sent with
      | none => s
      | some i =>
          let r := s.outbox.finish i err
          { outbox := r.1, sent := none, log := s.log ++ r.2 }

/-- The system after `init`. -/
def System.boot (slots textSize : BitVec 16) : System T where
  outbox := .calloc slots textSize
  sent := none
  log := []

def System.run (s : System T) (actions : List Action) : System T :=
  actions.foldl System.step s

theorem System.run_append (s : System T) (before after : List Action) :
    s.run (before ++ after) = (s.run before).run after :=
  List.foldl_append

theorem System.run_snoc (s : System T) (actions : List Action) (action : Action) :
    s.run (actions ++ [action]) = (s.run actions).step action := by
  rw [System.run_append]
  rfl

end Code

/-! ## The log -/

section Log

variable {T : Type}

/-- The events that were accepted or took the place of another. -/
def Effect.issued? : Effect T → Option (Event T)
  | .accepted event => some event
  | .replaced _ new => some new
  | _ => none

/-- The event whose place another took. -/
def Effect.replaced? : Effect T → Option (Event T)
  | .replaced old _ => some old
  | _ => none

def Effect.delivered? : Effect T → Option (Event T)
  | .delivered event => some event
  | _ => none

def System.issued (s : System T) : List (Event T) :=
  s.log.filterMap Effect.issued?

def System.replaced (s : System T) : List (Event T) :=
  s.log.filterMap Effect.replaced?

/-- The events that `send` has taken, in the order of the calls. -/
def System.delivered (s : System T) : List (Event T) :=
  s.log.filterMap Effect.delivered?

/-- The events in slots that are in use. -/
def System.pending (s : System T) : List (Event T) :=
  (used s.outbox.slots).map Slot.toEvent

end Log

end KeemashCore.EventOutbox
