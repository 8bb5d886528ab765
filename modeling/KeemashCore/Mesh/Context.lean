import KeemashCore.Mesh.Proto
import KeemashCore.SlotTable.Basic

/-!
# The reliable context

The state of `struct keemash_rel_ctx` and the table operations that every
entry point of `keemash_mesh_core.c` is built from.

The C tables are slot tables: a free slot is an entry that is zeroed and not
`used`.  A `peer_state_t *` is represented by the `mac` under which `peer_find` stores the
record.  Every call of a callback, and every entry into `clear_peer_buffers`,
`deliver_fragment` and the frame construction of `keemash_rel_submit`, is
appended to `trace`.

The fault injection of `raw_send` is not modelled: it only drops, repeats or
delays packets, which the network of `Mesh.System` does anyway.
-/

namespace KeemashCore.Rel

open SlotTable

/-! ## Slots and peers -/

/-- `tx_slot_t`.  The stored packet bytes are kept as header and payload. -/
structure TxSlot where
  peer : Mac
  channel : ℕ
  priority : ℕ
  seq : U32
  streamId : U32
  firstSentMs : U32
  lastSentMs : U32
  retries : BitVec 8
  sessionId : U32
  rh : ReliableHdr
  payload : List UInt8
  deriving DecidableEq, Repr

/-- `rx_slot_t`; `payload` holds the `payload_len` copied bytes. -/
structure RxSlot where
  peer : Mac
  channel : ℕ
  seq : U32
  hdr : ReliableHdr
  payload : List UInt8
  deriving DecidableEq, Repr

/-- `reassembly_slot_t`. -/
structure ReassemblySlot where
  peer : Mac
  channel : ℕ
  streamId : U32
  firstSeq : U32
  lastMs : U32
  fragmentLen : List ℕ
  receivedMask : BitVec 16
  fragmentCount : ℕ
  data : List UInt8
  deriving DecidableEq, Repr

/-- `pending_lost_range_t`. -/
structure PendingLostRange where
  channel : ℕ
  first : U32
  last : U32
  deriving DecidableEq, Repr

/-- `peer_state_t`. -/
structure Peer where
  mac : Mac
  remoteMac : Mac
  ready : Bool
  routeUp : Bool
  routeDownSinceMs : U32
  lastRouteChangeMs : U32
  capabilities : U32
  rootSessionId : U32
  nodeSessionId : U32
  nextSeq : ℕ → U32
  expectedSeq : ℕ → U32
  pendingLost : List (Option PendingLostRange)
  lastAckMs : U32
  lastRxMs : U32
  rtoMs : U32
  srttMs : U32
  rttvarMs : U32
  retryCount : U32
  overflowCount : U32
  replayCount : U32
  lostCount : U32
  lostReason : Option LostReason

/-- Sequence counters as `peer_find` and `clear_peer_buffers` set them:
channels `1` to `9` start at `1`. -/
def firstSeqs (channel : ℕ) : U32 :=
  if 1 ≤ channel ∧ channel < channelCount then 1 else 0

/-- A peer record zeroed by `memset`. -/
def zeroPeer : Peer where
  mac := 0
  remoteMac := 0
  ready := false
  routeUp := false
  routeDownSinceMs := 0
  lastRouteChangeMs := 0
  capabilities := 0
  rootSessionId := 0
  nodeSessionId := 0
  nextSeq := fun _ => 0
  expectedSeq := fun _ => 0
  pendingLost := List.replicate pendingLostRanges none
  lastAckMs := 0
  lastRxMs := 0
  rtoMs := 0
  srttMs := 0
  rttvarMs := 0
  retryCount := 0
  overflowCount := 0
  replayCount := 0
  lostCount := 0
  lostReason := none

/-- Whether a reported range numbers frames this end sends or receives; the C
call sites know it, the callback does not get it. -/
inductive Role where
  | sent
  | received
  deriving DecidableEq, Repr

/-- One entry of a context's trace. -/
inductive Effect where
  /-- `cfg.send` was called for the record `key`. -/
  | send (key : Mac) (packet : Packet)
  /-- `cfg.deliver` was called for the record `key`. -/
  | deliver (key peer : Mac) (channel : ℕ) (bytes : List UInt8) (streamId : U32)
  /-- `cfg.event` was called by `record_lost` for the record `key`. -/
  | event (role : Role) (key peer : Mac) (channel : ℕ) (reason : LostReason)
      (first last : U32)
  /-- `deliver_fragment` was entered with this frame. -/
  | handOff (key : Mac) (rh : ReliableHdr) (payload : List UInt8)
  /-- `keemash_rel_submit` stored this frame in a tx slot. -/
  | queued (key : Mac) (rh : ReliableHdr) (payload : List UInt8)
  /-- `keemash_rel_submit` accepted this payload, numbered from `first`. -/
  | accepted (key : Mac) (channel : ℕ) (streamId first : U32) (payload : List UInt8)
  /-- A tx, rx or reassembly table had no room left. -/
  | exhausted (key : Mac)
  /-- The fragment timeout of `keemash_rel_poll` fired. -/
  | fragmentsExpired (key : Mac)
  /-- `clear_peer_buffers` was entered. -/
  | cleared (key : Mac)
  deriving DecidableEq, Repr

/-- `keemash_rel_config_t`.  `send` gives the result of the transport callback. -/
structure RelConfig where
  rootRole : Bool
  localMac : Mac
  maxPeers : ℕ
  txSlots : ℕ
  rxSlots : ℕ
  reassemblySlots : ℕ
  reservedControlSlots : ℕ
  perPeerTxSlots : ℕ
  perPeerRxSlots : ℕ
  perPeerReassemblySlots : ℕ
  perPeerControlReserve : ℕ
  routeGraceMs : U32
  initialRtoMs : U32
  minRtoMs : U32
  maxRtoMs : U32
  fragmentTimeoutMs : U32
  maxRetries : BitVec 8
  faultOverflowEvery : ℕ
  send : Mac → Packet → EspErr

/-- `struct keemash_rel_ctx`. -/
structure Ctx where
  cfg : RelConfig
  localSession : U32
  nextStreamId : U32
  peers : List (Option Peer)
  tx : List (Option TxSlot)
  rx : List (Option RxSlot)
  reassembly : List (Option ReassemblySlot)
  overflowCounter : U32
  pollPeerCursor : ℕ
  trace : List Effect

/-! ## Assignments -/

def Ctx.setPeers (c : Ctx) (peers : List (Option Peer)) : Ctx :=
  { c with peers := peers }

def Ctx.setTx (c : Ctx) (tx : List (Option TxSlot)) : Ctx :=
  { c with tx := tx }

def Ctx.setRx (c : Ctx) (rx : List (Option RxSlot)) : Ctx :=
  { c with rx := rx }

def Ctx.setReassembly (c : Ctx) (reassembly : List (Option ReassemblySlot)) : Ctx :=
  { c with reassembly := reassembly }

/-- Append to the trace. -/
def Ctx.emit (c : Ctx) (e : Effect) : Ctx :=
  { c with trace := c.trace ++ [e] }

/-! ## Peers -/

/-- The record stored under `key`. -/
def Ctx.peerAt (c : Ctx) (key : Mac) : Option Peer :=
  (used c.peers).find? fun p => p.mac == key

/-- The record a `peer_state_t *` points to. -/
def Ctx.peer (c : Ctx) (key : Mac) : Peer :=
  (c.peerAt key).getD zeroPeer

/-- Assign to fields of the record stored under `key`. -/
def Ctx.modPeer (c : Ctx) (key : Mac) (f : Peer → Peer) : Ctx :=
  c.setPeers (c.peers.map fun entry =>
    entry.map fun p => if p.mac == key then f p else p)

/-- Assign to `expected_seq[channel]`. -/
def Peer.setExpected (channel : ℕ) (seq : U32) (p : Peer) : Peer :=
  { p with expectedSeq := Function.update p.expectedSeq channel seq }

/-- Assign to `pending_lost`. -/
def Peer.setPending (table : List (Option PendingLostRange)) (p : Peer) : Peer :=
  { p with pendingLost := table }

def Ctx.setExpected (c : Ctx) (key : Mac) (channel : ℕ) (seq : U32) : Ctx :=
  c.modPeer key (Peer.setExpected channel seq)

def Ctx.setPending (c : Ctx) (key : Mac) (table : List (Option PendingLostRange)) :
    Ctx :=
  c.modPeer key (Peer.setPending table)

/-- The key under which `peer_find` looks a peer up: a node knows only its
root and stores it under the zero address. -/
def Ctx.keyOf (c : Ctx) (mac : Mac) : Mac :=
  if c.cfg.rootRole then mac else 0

/-- The record `peer_find` creates. -/
def newPeer (cfg : RelConfig) (key mac : Mac) (now : U32) : Peer :=
  { zeroPeer with
    mac := key
    remoteMac := mac
    rtoMs := cfg.initialRtoMs
    lastRouteChangeMs := now
    nextSeq := firstSeqs
    expectedSeq := firstSeqs }

/-- `peer_find`. -/
def peerFind (c : Ctx) (mac : Mac) (create : Bool) (now : U32) :
    Ctx × Option Mac :=
  let key := c.keyOf mac
  match c.peerAt key with
  | some _ =>
      if !c.cfg.rootRole && mac != 0 then
        (c.modPeer key fun p => { p with remoteMac := mac }, some key)
      else (c, some key)
  | none =>
      if create then
        match freeIdx c.peers with
        | some i =>
            (c.setPeers (c.peers.set i (some (newPeer c.cfg key mac now))), some key)
        | none => (c, none)
      else (c, none)

/-- `peer_send_mac`; at the root the `mac` of the record is its key. -/
def Ctx.peerSendMac (c : Ctx) (key : Mac) : Mac :=
  if c.cfg.rootRole then key else (c.peer key).remoteMac

/-! ## Sending and reporting -/

/-- `raw_send` to `peer_send_mac`, without fault injection. -/
def rawSend (c : Ctx) (key : Mac) (packet : Packet) : Ctx × EspErr :=
  (c.emit (.send key packet), c.cfg.send (c.peerSendMac key) packet)

/-- `send_packet`. -/
def sendPacket (c : Ctx) (key : Mac) (sessionId : U32) (body : Body) :
    Ctx × EspErr :=
  rawSend c key { sessionId := sessionId, srcMac := c.cfg.localMac, body := body }

/-- `notify_event`. -/
def notifyEvent (c : Ctx) (role : Role) (key : Mac) (channel : ℕ)
    (reason : LostReason) (first last : U32) : Ctx :=
  c.emit (.event role key (c.peerSendMac key) channel reason first last)

/-- The counters that `record_lost` updates. -/
def Peer.countLost (reason : LostReason) (count : U32) (p : Peer) : Peer :=
  { p with
    lostReason := some reason
    lostCount := p.lostCount + (if count ≠ 0 then count else 1) }

/-- `record_lost`. -/
def recordLost (c : Ctx) (role : Role) (key : Mac) (channel : ℕ)
    (reason : LostReason) (first last count : U32) : Ctx :=
  notifyEvent (c.modPeer key (Peer.countLost reason count)) role key channel reason
    first last

/-- The LOST payload that `send_lost_packet` builds. -/
def lostPayload (c : Ctx) (key : Mac) (channel : ℕ) (reason : LostReason)
    (flags : BitVec 16) (first last : U32) : LostPayload where
  channelId := channel
  reason := reason
  rsv := flags
  rootSessionId := (c.peer key).rootSessionId
  nodeSessionId := (c.peer key).nodeSessionId
  seqFirst := first
  seqLast := last
  originMac := c.cfg.localMac
  targetMac := c.peerSendMac key

/-- `send_lost_packet`. -/
def sendLostPacket (c : Ctx) (key : Mac) (channel : ℕ) (reason : LostReason)
    (flags : BitVec 16) (first last : U32) : Ctx × EspErr :=
  sendPacket c key c.localSession
    (.lost (lostPayload c key channel reason flags first last))

/-- `send_lost`. -/
def sendLost (c : Ctx) (key : Mac) (channel : ℕ) (reason : LostReason)
    (first last : U32) : Ctx × EspErr :=
  sendLostPacket
    (recordLost c .sent key channel reason first last (last - first + 1))
    key channel reason 0 first last

/-! ## Slot lookups -/

def TxSlot.isFor (key : Mac) (channel : ℕ) (slot : TxSlot) : Bool :=
  slot.channel == channel && slot.peer == key

def RxSlot.isFor (key : Mac) (channel : ℕ) (slot : RxSlot) : Bool :=
  slot.channel == channel && slot.peer == key

def ReassemblySlot.isFor (key : Mac) (channel : ℕ) (slot : ReassemblySlot) : Bool :=
  slot.channel == channel && slot.peer == key

/-- `tx_unacked`. -/
def txUnacked (c : Ctx) (key : Mac) : ℕ :=
  usedCount (fun slot : TxSlot => slot.peer == key) c.tx

/-- `channel_unacked`. -/
def channelUnacked (c : Ctx) (key : Mac) (channel : ℕ) : ℕ :=
  usedCount (TxSlot.isFor key channel) c.tx

/-- `reassembly_depth`. -/
def reassemblyDepth (c : Ctx) (key : Mac) : ℕ :=
  usedCount (fun slot : ReassemblySlot => slot.peer == key) c.reassembly

/-- `rx_depth`. -/
def rxDepth (c : Ctx) (key : Mac) : ℕ :=
  usedCount (fun slot : RxSlot => slot.peer == key) c.rx

/-- `tx_alloc`: the index of the slot to fill. -/
def txAlloc (c : Ctx) (key : Mac) (priority : ℕ) : Option ℕ :=
  let peerUsed := txUnacked c key
  let peerLimit := c.cfg.perPeerTxSlots
  let nonControlLimit :=
    if peerLimit > c.cfg.perPeerControlReserve
    then peerLimit - c.cfg.perPeerControlReserve else 0
  if (priority < priorityControl ∧ peerUsed ≥ nonControlLimit) ∨
      (priority = priorityControl ∧ peerUsed ≥ peerLimit) then none
  else if priority < priorityControl ∧
      freeCount c.tx ≤ c.cfg.reservedControlSlots then none
  else freeIdx c.tx

/-- `tx_available`. -/
def txAvailable (c : Ctx) (key : Mac) (priority : ℕ) : ℕ :=
  let free := freeCount c.tx
  if priority < priorityControl ∧ free ≤ c.cfg.reservedControlSlots then 0
  else
    let free :=
      if priority < priorityControl
      then free - c.cfg.reservedControlSlots else free
    let peerLimit :=
      if priority < priorityControl then
        if c.cfg.perPeerTxSlots > c.cfg.perPeerControlReserve
        then c.cfg.perPeerTxSlots - c.cfg.perPeerControlReserve else 0
      else c.cfg.perPeerTxSlots
    let peerUsed := txUnacked c key
    let peerFree := if peerUsed < peerLimit then peerLimit - peerUsed else 0
    if free > peerFree then peerFree else free

/-- `tx_find`: index of the slot holding `seq`. -/
def txFind (c : Ctx) (key : Mac) (channel : ℕ) (seq : U32) : Option ℕ :=
  findIdx (fun slot : TxSlot => slot.isFor key channel && slot.seq == seq) c.tx

/-- `rx_find`: the buffered frame numbered `seq`. -/
def rxFind (c : Ctx) (key : Mac) (channel : ℕ) (seq : U32) : Option ℕ :=
  findIdx (fun slot : RxSlot => slot.isFor key channel && slot.seq == seq) c.rx

/-- `rx_alloc`. -/
def rxAlloc (c : Ctx) (key : Mac) : Option ℕ :=
  if rxDepth c key ≥ c.cfg.perPeerRxSlots then none else freeIdx c.rx

/-- `sack_bitmap`: bit `b` is set when `ack + 1 + b` is buffered. -/
def sackBitmap (c : Ctx) (key : Mac) (channel : ℕ) : U32 :=
  let ack := (c.peer key).expectedSeq channel - 1
  (List.range reliableWindow).foldl
    (fun bitmap bit =>
      if (rxFind c key channel (ack + 1 + BitVec.ofNat 32 bit)).isSome
      then bitmap ||| (1#32 <<< bit) else bitmap) 0

/-! ## Clearing a peer -/

/-- First, last and number of the slots of one channel, as accumulated by the
tx loop of `clear_peer_buffers`. -/
def clearSpan (slots : List TxSlot) : Option (U32 × U32 × U32) :=
  slots.foldl
    (fun acc slot =>
      match acc with
      | none => some (slot.seq, slot.seq, 1)
      | some (first, last, count) =>
          some (if seqBefore slot.seq first then slot.seq else first,
            if seqAfter slot.seq last then slot.seq else last, count + 1))
    none

/-- The rx loop of `clear_peer_buffers`. -/
def clearRx (c : Ctx) (key : Mac) (reason : LostReason) : Ctx :=
  let c := ((used c.rx).filter fun slot => slot.peer == key).foldl
    (fun c slot => recordLost c .received key slot.channel reason slot.seq slot.seq 1) c
  c.setRx (freeWhere (fun slot => slot.peer == key) c.rx)

/-- The reassembly loop of `clear_peer_buffers`. -/
def clearReassembly (c : Ctx) (key : Mac) (reason : LostReason) : Ctx :=
  let c := ((used c.reassembly).filter fun slot => slot.peer == key).foldl
    (fun c slot => recordLost c .received key slot.channel reason slot.firstSeq
      (slot.firstSeq + BitVec.ofNat 32 slot.fragmentCount - 1)
      (BitVec.ofNat 32 slot.fragmentCount)) c
  c.setReassembly (freeWhere (fun slot => slot.peer == key) c.reassembly)

/-- The record after `clear_peer_buffers`. -/
def Peer.cleared (p : Peer) : Peer :=
  { p with
    nextSeq := fun channel =>
      if 1 ≤ channel ∧ channel < channelCount then 1 else p.nextSeq channel
    expectedSeq := fun channel =>
      if 1 ≤ channel ∧ channel < channelCount then 1 else p.expectedSeq channel
    pendingLost := p.pendingLost.map fun _ => none
    ready := false }

/-- The last loop of `clear_peer_buffers`: report what was in the tx slots. -/
def reportSpans (c : Ctx) (key : Mac) (reason : LostReason)
    (spans : ℕ → Option (U32 × U32 × U32)) : Ctx :=
  (List.range channelCount).foldl
    (fun c channel =>
      match (if channel = 0 then none else spans channel) with
      | some (first, last, count) =>
          recordLost c .sent key channel reason first last count
      | none => c) c

/-- `clear_peer_buffers`. -/
def clearPeerBuffers (c : Ctx) (key : Mac) (reason : LostReason) : Ctx :=
  let spans := fun channel => clearSpan ((used c.tx).filter (TxSlot.isFor key channel))
  let c := c.emit (.cleared key)
  let c := c.setTx (freeWhere (fun slot => slot.peer == key) c.tx)
  let c := clearReassembly (clearRx c key reason) key reason
  reportSpans (c.modPeer key Peer.cleared) key reason spans

end KeemashCore.Rel
