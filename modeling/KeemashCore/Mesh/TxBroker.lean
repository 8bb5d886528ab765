import KeemashCore.Mesh.Proto
import KeemashCore.SlotTable.Ticket

/-!
# The transmit broker

`keemash_mesh_tx_broker.c`: producers copy packets into slots under a lock, and one
worker takes the packet of the highest priority, the oldest among those, hands it to
`raw_send` without the lock, and frees the slot under the lock.  A critical section
is one step here, and so is each of the two of the worker.  The tickets are a
parameter: the source has 32 bits for them.

The bytes of a slot are the first `len` of its part of `storage`.  Null packets, the
other fields of the configuration, `init` and `deinit` are left out.
-/

namespace KeemashCore.TxBroker

open SlotTable

/-- `KEEMASH_REL_PRIORITY_NORMAL`. -/
def priorityNormal : ℕ := 1

/-- `KEEMASH_REL_PRIORITY_HIGH`. -/
def priorityHigh : ℕ := 2

/-- What a slot in use says about its packet. -/
structure Queued (T : Type) where
  ticket : T
  priority : UInt8
  dst : Mac
  bytes : List UInt8
  deriving DecidableEq

/-- `broker_slot_t` in use. -/
structure Slot (T : Type) extends Queued T where
  sending : Bool
  deriving DecidableEq

/-- `keemash_mesh_tx_broker_stats_t`. -/
structure Stats where
  accepted : U32
  completed : U32
  rejectedFull : U32
  rejectedReserved : U32
  rejectedSize : U32
  transportErrors : U32
  pending : U32
  highWatermark : U32
  acceptedByPriority : Fin 4 → U32
  rejectedByPriority : Fin 4 → U32
  lastTransportErr : EspErr

/-- `struct keemash_mesh_tx_broker`, with two fields of its configuration and without
the task and the lock. -/
structure Broker (T : Type) where
  controlReservedSlots : ℕ
  maxPacketSize : ℕ
  slots : List (Option (Slot T))
  nextTicket : T
  stats : Stats

/-- What happened to packets, as far as a caller or `raw_send` can tell. -/
inductive Effect (T : Type) where
  | accepted (packet : Queued T)
  | passed (packet : Queued T)
  | completed (packet : Queued T) (err : EspErr)
  deriving DecidableEq

/-- `stats_priority_index`. -/
def statsPriorityIndex (priority : UInt8) : Fin 4 :=
  if priority.toNat ≥ Rel.priorityControl then 3
  else if priority.toNat ≥ priorityHigh then 2
  else if priority.toNat ≥ priorityNormal then 1
  else 0

/-- Count one more under the index of a priority. -/
def countPriority (counts : Fin 4 → U32) (priority : UInt8) : Fin 4 → U32 :=
  Function.update counts (statsPriorityIndex priority)
    (counts (statsPriorityIndex priority) + 1)

section Code

variable {T : Type} [Ticket T]

/-- The broker that `keemash_mesh_tx_broker_init` allocates. -/
def Broker.calloc (slots controlReservedSlots maxPacketSize : BitVec 16) : Broker T where
  controlReservedSlots := controlReservedSlots.toNat
  maxPacketSize := maxPacketSize.toNat
  slots := List.replicate slots.toNat none
  nextTicket := Ticket.zero
  stats :=
    { accepted := 0
      completed := 0
      rejectedFull := 0
      rejectedReserved := 0
      rejectedSize := 0
      transportErrors := 0
      pending := 0
      highWatermark := 0
      acceptedByPriority := fun _ => 0
      rejectedByPriority := fun _ => 0
      lastTransportErr := .ok }

/-- The comparison of `pick_next_locked`. -/
def Slot.beats (slot best : Slot T) : Bool :=
  decide (slot.priority > best.priority) ||
    (slot.priority == best.priority && Ticket.before slot.ticket best.ticket)

/-- `pick_next_locked`, without the mark that it sets. -/
def Broker.pickNext (b : Broker T) : Option (ℕ × Slot T) :=
  bestEntry (fun slot => !slot.sending) Slot.beats b.slots

/-- The rest of `keemash_mesh_tx_broker_submit` once the slot is found. -/
def Broker.accept (b : Broker T) (i : ℕ) (dst : Option Mac) (packet : List UInt8)
    (priority : UInt8) : Broker T × List (Effect T) :=
  let queued : Queued T :=
    { ticket := Ticket.next b.nextTicket
      priority := priority
      dst := dst.getD 0
      bytes := packet }
  let pending := b.stats.pending + 1
  ({ b with
      slots := b.slots.set i (some { queued with sending := false })
      nextTicket := Ticket.next b.nextTicket
      stats :=
        { b.stats with
          accepted := b.stats.accepted + 1
          acceptedByPriority := countPriority b.stats.acceptedByPriority priority
          pending := pending
          highWatermark :=
            if pending > b.stats.highWatermark then pending else b.stats.highWatermark } },
    [.accepted queued])

def Broker.rejectFull (b : Broker T) (priority : UInt8) : Broker T :=
  { b with
    stats :=
      { b.stats with
        rejectedFull := b.stats.rejectedFull + 1
        rejectedByPriority := countPriority b.stats.rejectedByPriority priority } }

def Broker.rejectReserved (b : Broker T) (priority : UInt8) : Broker T :=
  { b with
    stats :=
      { b.stats with
        rejectedReserved := b.stats.rejectedReserved + 1
        rejectedByPriority := countPriority b.stats.rejectedByPriority priority } }

def Broker.rejectSize (b : Broker T) : Broker T :=
  { b with stats := { b.stats with rejectedSize := b.stats.rejectedSize + 1 } }

/-- `keemash_mesh_tx_broker_submit`; `locked` says that the lock was taken in time, and
`dst` may be a null pointer. -/
def Broker.submit (b : Broker T) (locked : Bool) (dst : Option Mac) (packet : List UInt8)
    (priority : UInt8) : EspErr × Broker T × List (Effect T) :=
  if packet.length = 0 then (.invalidArg, b, [])
  else if packet.length > b.maxPacketSize then
    (.invalidSize, if locked then b.rejectSize else b, [])
  else if !locked then (.timeout, b, [])
  else
    match freeIdx b.slots with
    | none => (.noMem, b.rejectFull priority, [])
    | some i =>
        if priority.toNat < Rel.priorityControl ∧
            freeCount b.slots ≤ b.controlReservedSlots then
          (.noMem, b.rejectReserved priority, [])
        else (.ok, b.accept i dst packet priority)

/-- The first critical section of `broker_task`: the slot that is sent, if there is one. -/
def Broker.take (b : Broker T) : Option ℕ × Broker T × List (Effect T) :=
  match b.pickNext with
  | none => (none, b, [])
  | some (i, slot) =>
      (some i, { b with slots := b.slots.set i (some { slot with sending := true }) },
        [.passed slot.toQueued])

/-- The second critical section of `broker_task`, for the slot and the result of
`raw_send`. -/
def Broker.finish (b : Broker T) (i : ℕ) (err : EspErr) : Broker T × List (Effect T) :=
  match entryAt b.slots i with
  | none => (b, [])
  | some slot =>
      ({ b with
          slots := b.slots.set i none
          stats :=
            { b.stats with
              completed := b.stats.completed + 1
              pending := b.stats.pending - 1
              lastTransportErr := err
              transportErrors :=
                if err ≠ .ok then b.stats.transportErrors + 1
                else b.stats.transportErrors } },
        [.completed slot.toQueued err])

/-! ## Producers and the worker -/

/-- The broker, the slot that the worker is sending, and what has happened. -/
structure System (T : Type) where
  broker : Broker T
  sent : Option ℕ
  log : List (Effect T)

/-- A call of a producer, or a critical section of the worker. -/
inductive Action where
  | submit (locked : Bool) (dst : Option Mac) (packet : List UInt8) (priority : UInt8)
  /-- The worker looks for the next packet; it is idle if there is none. -/
  | take
  /-- `raw_send` returns. -/
  | finish (err : EspErr)

def System.step (s : System T) : Action → System T
  | .submit locked dst packet priority =>
      let r := s.broker.submit locked dst packet priority
      { s with broker := r.2.1, log := s.log ++ r.2.2 }
  | .take =>
      match s.sent with
      | some _ => s
      | none =>
          let r := s.broker.take
          { broker := r.2.1, sent := r.1, log := s.log ++ r.2.2 }
  | .finish err =>
      match s.sent with
      | none => s
      | some i =>
          let r := s.broker.finish i err
          { broker := r.1, sent := none, log := s.log ++ r.2 }

/-- The system after `init`. -/
def System.boot (slots controlReservedSlots maxPacketSize : BitVec 16) : System T where
  broker := .calloc slots controlReservedSlots maxPacketSize
  sent := none
  log := []

def System.run (s : System T) (actions : List Action) : System T :=
  actions.foldl System.step s

theorem System.run_append (s : System T) (before after : List Action) :
    s.run (before ++ after) = (s.run before).run after :=
  List.foldl_append

theorem System.run_snoc (s : System T) (actions : List Action) (action : Action) :
    s.run (actions ++ [action]) = (s.run actions).step action := by
  rw [System.run_append]
  rfl

end Code

/-! ## The log -/

section Log

variable {T : Type}

def Effect.accepted? : Effect T → Option (Queued T)
  | .accepted packet => some packet
  | _ => none

def Effect.passed? : Effect T → Option (Queued T)
  | .passed packet => some packet
  | _ => none

def Effect.completed? : Effect T → Option (Queued T)
  | .completed packet _ => some packet
  | _ => none

/-- The packets that were accepted, in the order of the calls. -/
def System.accepted (s : System T) : List (Queued T) :=
  s.log.filterMap Effect.accepted?

/-- The packets that were passed to `raw_send`, in the order of the calls. -/
def System.passed (s : System T) : List (Queued T) :=
  s.log.filterMap Effect.passed?

/-- The packets for which `raw_send` has returned. -/
def System.completed (s : System T) : List (Queued T) :=
  s.log.filterMap Effect.completed?

/-- The packets in slots that are in use and not being sent. -/
def System.queued (s : System T) : List (Queued T) :=
  ((used s.broker.slots).filter fun slot => !slot.sending).map Slot.toQueued

end Log

/-! ## The tickets of the source -/

section Wrap

def Queued.wrap (packet : Queued ℕ) : Queued (BitVec 32) :=
  { packet with ticket := SlotTable.wrap packet.ticket }

def Slot.wrap (slot : Slot ℕ) : Slot (BitVec 32) :=
  { slot.toQueued.wrap with sending := slot.sending }

def Effect.wrap : Effect ℕ → Effect (BitVec 32)
  | .accepted packet => .accepted packet.wrap
  | .passed packet => .passed packet.wrap
  | .completed packet err => .completed packet.wrap err

def Broker.wrap (b : Broker ℕ) : Broker (BitVec 32) where
  controlReservedSlots := b.controlReservedSlots
  maxPacketSize := b.maxPacketSize
  slots := b.slots.map (Option.map Slot.wrap)
  nextTicket := SlotTable.wrap b.nextTicket
  stats := b.stats

/-- The system with its tickets cut off to 32 bits. -/
def System.wrap (s : System ℕ) : System (BitVec 32) where
  broker := s.broker.wrap
  sent := s.sent
  log := s.log.map Effect.wrap

/-- Fewer than `2 ^ 31` tickets were given out since that of any slot in use. -/
def System.Window (s : System ℕ) : Prop :=
  ∀ slot ∈ held s.broker.slots, s.broker.nextTicket < slot.ticket + 2 ^ 31

/-- The tickets of the slots were given out. -/
def System.Bounded (s : System ℕ) : Prop :=
  ∀ slot ∈ held s.broker.slots, slot.ticket ≤ s.broker.nextTicket

theorem pickNext_wrap {s : System ℕ} (hbounded : s.Bounded) (h : s.Window) :
    s.broker.wrap.pickNext = s.broker.pickNext.map (Prod.map id Slot.wrap) := by
  refine bestEntry_map (p := fun slot : Slot ℕ => slot.ticket ≤ s.broker.nextTicket ∧
    s.broker.nextTicket < slot.ticket + 2 ^ 31) (fun a _ => rfl) (fun a b ha hb => ?_)
      fun slot hslot => ⟨hbounded slot hslot, h slot hslot⟩
  have hbefore : Ticket.before a.wrap.ticket b.wrap.ticket = Ticket.before a.ticket b.ticket :=
    before_wrap (Nat.lt_of_le_of_lt ha.1 hb.2) (Nat.lt_of_le_of_lt hb.1 ha.2)
  rw [Slot.beats, Slot.beats, hbefore]
  rfl

variable (b : Broker ℕ)

theorem entryAt_wrap (i : ℕ) :
    entryAt b.wrap.slots i = (entryAt b.slots i).map Slot.wrap :=
  entryAt_map Slot.wrap b.slots i

theorem accept_wrap (i : ℕ) (dst : Option Mac) (packet : List UInt8) (priority : UInt8) :
    b.wrap.accept i dst packet priority =
      ((b.accept i dst packet priority).1.wrap,
        (b.accept i dst packet priority).2.map Effect.wrap) := by
  simp only [Broker.accept, Broker.wrap, List.map_set, Option.map_some, Slot.wrap, Queued.wrap,
    Effect.wrap, List.map_cons, List.map_nil, wrap_next]
  rfl

theorem submit_wrap (locked : Bool) (dst : Option Mac) (packet : List UInt8)
    (priority : UInt8) :
    b.wrap.submit locked dst packet priority =
      ((b.submit locked dst packet priority).1, (b.submit locked dst packet priority).2.1.wrap,
        (b.submit locked dst packet priority).2.2.map Effect.wrap) := by
  have hfree : freeIdx b.wrap.slots = freeIdx b.slots := freeIdx_map _ _
  have hcount : freeCount b.wrap.slots = freeCount b.slots := freeCount_map _ _
  have hsize : b.wrap.maxPacketSize = b.maxPacketSize := rfl
  have hreserved : b.wrap.controlReservedSlots = b.controlReservedSlots := rfl
  rw [Broker.submit, Broker.submit, hfree, hcount, hsize, hreserved]
  split
  · rfl
  split
  · cases locked with
    | false => rfl
    | true => rfl
  split
  · rfl
  cases freeIdx b.slots with
  | none => rfl
  | some i =>
      dsimp only
      split
      · rfl
      · rw [accept_wrap]

theorem finish_wrap (i : ℕ) (err : EspErr) :
    b.wrap.finish i err = ((b.finish i err).1.wrap, (b.finish i err).2.map Effect.wrap) := by
  rw [Broker.finish, Broker.finish, entryAt_wrap]
  cases entryAt b.slots i with
  | none => rfl
  | some slot =>
      simp only [Option.map_some, Broker.wrap, List.map_set]
      rfl

theorem step_wrap {s : System ℕ} (hbounded : s.Bounded) (h : s.Window) (action : Action) :
    s.wrap.step action = (s.step action).wrap := by
  cases action with
  | submit locked dst packet priority =>
      have hcall : s.wrap.broker = s.broker.wrap := rfl
      simp only [System.step, hcall, submit_wrap]
      simp only [System.wrap, List.map_append]
  | take =>
      have hsent : s.wrap.sent = s.sent := rfl
      simp only [System.step, hsent]
      cases s.sent with
      | some i => rfl
      | none =>
          have hcall : s.wrap.broker = s.broker.wrap := rfl
          simp only [hcall, Broker.take, pickNext_wrap hbounded h]
          cases s.broker.pickNext with
          | none => simp [System.wrap]
          | some found =>
              simp only [Option.map_some, System.wrap, Broker.wrap, List.map_append,
                List.map_set]
              rfl
  | finish err =>
      have hsent : s.wrap.sent = s.sent := rfl
      simp only [System.step, hsent]
      cases s.sent with
      | none => rfl
      | some i =>
          have hcall : s.wrap.broker = s.broker.wrap := rfl
          simp only [hcall, finish_wrap]
          simp only [System.wrap, List.map_append]

end Wrap

end KeemashCore.TxBroker
