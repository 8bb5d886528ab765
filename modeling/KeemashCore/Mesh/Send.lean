import KeemashCore.Mesh.Receive

/-!
# Submitting, acknowledging and polling

The sending half of `keemash_mesh_core.c`, the HELLO exchange and the entry
points of the public interface.
-/

namespace KeemashCore.Rel

open SlotTable

/-! ## Acknowledgements -/

/-- `update_rto`. -/
def updateRto (cfg : RelConfig) (p : Peer) (sample : U32) : Peer :=
  if sample = 0 ∨ sample > 60000 then p
  else
    let p :=
      if p.srttMs = 0 then
        { p with srttMs := sample, rttvarMs := sample / 2 }
      else
        let diff := if p.srttMs > sample then p.srttMs - sample
          else sample - p.srttMs
        { p with
          rttvarMs := (3 * p.rttvarMs + diff) / 4
          srttMs := (7 * p.srttMs + sample) / 8 }
    let rto := p.srttMs + 4 * p.rttvarMs
    let rto := if rto < cfg.minRtoMs then cfg.minRtoMs else rto
    let rto := if rto > cfg.maxRtoMs then cfg.maxRtoMs else rto
    { p with rtoMs := rto }

/-- A slot that `ack_slots` frees: covered by the cumulative number or by a
bit of the selective bitmap. -/
def AckPayload.accepts (ack : AckPayload) (seq : U32) : Bool :=
  !seqAfter seq ack.ackSeq ||
    (decide ((seq - ack.ackSeq - 1).toNat < 32) &&
      ack.sackBitmap.getLsbD (seq - ack.ackSeq - 1).toNat)

def Peer.acknowledged (now : U32) (p : Peer) : Peer :=
  { p with lastAckMs := now }

/-- `ack_slots`. -/
def ackSlots (c : Ctx) (key : Mac) (ack : AckPayload) (now : U32) : Ctx :=
  let accepted := fun slot : TxSlot =>
    slot.isFor key ack.channelId && ack.accepts slot.seq
  let sampled := ((used c.tx).filter accepted).foldl
    (fun c slot =>
      if slot.retries = 0 ∧ slot.firstSentMs ≠ 0 then
        c.modPeer key fun p => updateRto c.cfg p (now - slot.firstSentMs)
      else c) c
  (sampled.setTx (freeWhere accepted sampled.tx)).modPeer key (Peer.acknowledged now)

/-- The DATA packet kept in a tx slot. -/
def TxSlot.packet (cfg : RelConfig) (slot : TxSlot) : Packet where
  sessionId := slot.sessionId
  srcMac := cfg.localMac
  body := .data slot.rh slot.payload

/-- The slot after `retransmit_slot` rewrote its header. -/
def TxSlot.replayed (slot : TxSlot) (now : U32) : TxSlot :=
  { slot with
    rh := { slot.rh with flags := slot.rh.flags ||| flagReplay, txMs := now }
    lastSentMs := now
    retries := slot.retries + 1 }

def Peer.countRetry (p : Peer) : Peer :=
  { p with retryCount := p.retryCount + 1, replayCount := p.replayCount + 1 }

/-- `retransmit_slot` on the slot with index `i`. -/
def retransmitSlot (c : Ctx) (key : Mac) (i : ℕ) (now : U32) : Ctx × EspErr :=
  match entryAt c.tx i with
  | none => (c, .invalidState)
  | some slot =>
      let slot := slot.replayed now
      let c := c.setTx (c.tx.set i (some slot))
      let c := c.modPeer key Peer.countRetry
      rawSend c key (slot.packet c.cfg)

/-- An acknowledgement proves that the route is up. -/
def Peer.routeSeen (p : Peer) : Peer :=
  { p with routeUp := true, routeDownSinceMs := 0 }

/-- `handle_ack_packet`. -/
def handleAckPacket (c : Ctx) (src : Mac) (ack : AckPayload) (nack : Bool)
    (now : U32) : Ctx × EspErr :=
  let found := peerFind c src false now
  let c := found.1
  match boundPeer c found.2 ack.rootSessionId ack.nodeSessionId with
  | none => (c, .invalidState)
  | some key =>
      if ack.channelId = 0 ∨ ack.channelId ≥ channelCount ∨
          ack.originMac ≠ c.cfg.localMac ∨ ack.targetMac ≠ src then
        (c, .invalidState)
      else
        let c := c.modPeer key Peer.routeSeen
        let c := ackSlots c key ack now
        if nack ∧ ack.nackSeq ≠ 0 then
          match txFind c key ack.channelId ack.nackSeq with
          | some i => retransmitSlot c key i now
          | none => sendLost c key ack.channelId .overflow ack.nackSeq ack.nackSeq
        else (c, .ok)

/-! ## Submitting a message -/

/-- The flags `keemash_rel_submit` puts into a frame. -/
def submitFlags (channel priority fragments : ℕ) : BitVec 8 :=
  (if fragments > 1 then flagFragment else 0) |||
    (if priority = priorityControl then flagUrgent else 0) |||
    (if channel = channelTime then flagLatest else 0)

/-- The tx slot `keemash_rel_submit` fills for fragment `i`. -/
def submitSlot (c : Ctx) (key : Mac) (channel : ℕ) (payload : List UInt8)
    (priority fragments i : ℕ) (streamId seq now : U32) : TxSlot :=
  let chunk := (payload.drop (i * reliableInnerMax)).take reliableInnerMax
  { peer := key
    channel := channel
    priority := priority
    seq := seq
    streamId := streamId
    firstSentMs := now
    lastSentMs := now
    retries := 0
    sessionId := c.localSession
    rh :=
      { channelId := channel
        flags := submitFlags channel priority fragments
        priority := priority
        fragmentCount := fragments
        payloadLen := chunk.length
        fragmentIndex := i
        streamId := streamId
        seq := seq
        txMs := now
        rootSessionId := (c.peer key).rootSessionId
        nodeSessionId := (c.peer key).nodeSessionId
        originMac := c.cfg.localMac
        targetMac := c.peerSendMac key }
    payload := chunk }

/-- Assign to `next_seq[channel]`. -/
def Peer.setNext (channel : ℕ) (seq : U32) (p : Peer) : Peer :=
  { p with nextSeq := Function.update p.nextSeq channel seq }

/-- The slot loop of `keemash_rel_submit`: allocate and fill one slot per
fragment.  `none` reports that `tx_alloc` failed. -/
def submitSlots (key : Mac) (channel : ℕ) (payload : List UInt8)
    (priority fragments : ℕ) (streamId now : U32) :
    List ℕ → Ctx → List ℕ → Ctx × Option (List ℕ)
  | [], c, slots => (c, some slots)
  | i :: is, c, slots =>
      let alloc := txAlloc c key priority
      let seq := (c.peer key).nextSeq channel
      let c := c.modPeer key (Peer.setNext channel (seq + 1))
      match alloc with
      | none =>
          (c.setTx (slots.foldl (fun tx j => tx.set j none) c.tx), none)
      | some j =>
          let slot := submitSlot c key channel payload priority fragments i
            streamId seq now
          submitSlots key channel payload priority fragments streamId now is
            ((c.setTx (c.tx.set j (some slot))).emit
              (.queued key slot.rh slot.payload))
            (slots ++ [j])

/-- The transmission loop of `keemash_rel_submit`. -/
def submitSend (key : Mac) : List ℕ → Ctx → EspErr → Ctx × EspErr
  | [], c, err => (c, err)
  | j :: js, c, err =>
      match entryAt c.tx j with
      | none => submitSend key js c err
      | some slot =>
          let sent := rawSend c key (slot.packet c.cfg)
          submitSend key js sent.1 (if err = .ok then sent.2 else err)

/-- The overflow exits of `keemash_rel_submit`: the numbers are used up and
reported lost. -/
def submitOverflow (c : Ctx) (key : Mac) (channel fragments : ℕ)
    (firstSeq : U32) : Ctx :=
  let c := c.emit (.exhausted key)
  let lastSeq := firstSeq + BitVec.ofNat 32 fragments - 1
  let c := c.modPeer key fun p => (p.setNext channel (lastSeq + 1)).countOverflow
  (sendLost c key channel .overflow firstSeq lastSeq).1

/-- What `keemash_rel_submit` reports through `info`. -/
structure SubmitInfo where
  queued : Bool
  initialTransportErr : EspErr
  streamId : U32
  deriving DecidableEq, Repr

/-- `info` after `memset`. -/
def noInfo : SubmitInfo where
  queued := false
  initialTransportErr := .ok
  streamId := 0

/-- Number of fragments of a payload, as the C cast computes it. -/
def fragmentsOf (payloadLen : ℕ) : ℕ :=
  ((payloadLen + reliableInnerMax - 1) / reliableInnerMax) % 256

/-- The counters that `keemash_rel_submit` advances before it looks for slots. -/
def Ctx.countSubmit (c : Ctx) (nextStreamId : U32) : Ctx :=
  { c with
    nextStreamId := nextStreamId
    overflowCounter :=
      if c.cfg.faultOverflowEvery ≠ 0 then c.overflowCounter + 1
      else c.overflowCounter }

/-- The stream id that the next message gets. -/
def Ctx.freshStream (c : Ctx) : U32 :=
  if c.nextStreamId = 0 then 1 else c.nextStreamId

/-- `keemash_rel_submit` from the search for free slots on. -/
def submitMessage (c : Ctx) (key : Mac) (channel : ℕ) (payload : List UInt8)
    (priority fragments : ℕ) (streamId now : U32) : Ctx × EspErr × SubmitInfo :=
  let firstSeq := (c.peer key).nextSeq channel
  if (c.cfg.faultOverflowEvery ≠ 0 ∧
        c.overflowCounter.toNat % c.cfg.faultOverflowEvery = 0) ∨
      txAvailable c key priority < fragments then
    (submitOverflow c key channel fragments firstSeq, .noMem, noInfo)
  else
    match submitSlots key channel payload priority fragments streamId now
        (List.range fragments) c [] with
    | (c, none) =>
        (submitOverflow c key channel fragments firstSeq, .noMem, noInfo)
    | (c, some slots) =>
        let c := c.emit (.accepted key channel streamId firstSeq payload)
        let sent :=
          if (c.peer key).routeUp then submitSend key slots c .ok
          else (c, .invalidState)
        (sent.1, .ok,
          { queued := true
            initialTransportErr := sent.2
            streamId := streamId })

/-- `keemash_rel_submit`. -/
def submit (c : Ctx) (peerMac : Mac) (channel : ℕ) (payload : List UInt8)
    (priority : ℕ) (now : U32) : Ctx × EspErr × SubmitInfo :=
  if payload.length = 0 ∨ channel = 0 ∨ channel ≥ channelCount ∨
      payload.length > messageMax then (c, .invalidArg, noInfo)
  else
    let found := peerFind c peerMac false now
    let c := found.1
    match found.2 with
    | none => (c, .invalidState, noInfo)
    | some key =>
        if !(c.peer key).ready then (c, .invalidState, noInfo)
        else
          let fragments := fragmentsOf payload.length
          if fragments = 0 ∨ fragments > reliableMaxFragments then
            (c, .invalidSize, noInfo)
          else
            submitMessage (c.countSubmit (c.freshStream + 1)) key channel payload
              priority fragments c.freshStream now

/-! ## The HELLO exchange -/

/-- `keemash_rel_send_hello`. -/
def sendHello (c : Ctx) (peerMac : Mac) (capabilities now : U32) :
    Ctx × EspErr :=
  if c.cfg.rootRole then (c, .invalidState)
  else
    match peerFind c peerMac true now with
    | (c, none) => (c, .noMem)
    | (c, some key) =>
        sendPacket c key c.localSession
          (.hello
            { profileVersion := reliableProfileVersion
              mtu := packetMax
              txSlots := c.cfg.txSlots
              reorderWindow := reliableWindow
              capabilities := capabilities ||| requiredCapabilities
              nodeSessionId := c.localSession
              rootSessionSeen := (c.peer key).rootSessionId })

/-- The HELLO fields that make `handle_hello` answer ESP_ERR_NOT_SUPPORTED. -/
def helloUnsupported (c : Ctx) (hello : HelloPayload) : Bool :=
  !c.cfg.rootRole || hello.profileVersion != reliableProfileVersion ||
    hello.capabilities &&& requiredCapabilities != requiredCapabilities ||
    decide (hello.mtu < minimumMtu) ||
    decide (hello.reorderWindow < reliableWindow)

/-- The `reset` decision of `handle_hello`. -/
def helloResets (c : Ctx) (key : Mac) (hello : HelloPayload) : Bool :=
  (c.peer key).nodeSessionId != hello.nodeSessionId ||
    hello.rootSessionSeen != c.localSession

/-- The record after a handshake packet was accepted. -/
def Peer.bind (rootSessionId nodeSessionId capabilities now : U32) (p : Peer) : Peer :=
  { p with
    rootSessionId := rootSessionId
    nodeSessionId := nodeSessionId
    capabilities := capabilities
    routeUp := true
    routeDownSinceMs := 0
    lastRouteChangeMs := now
    ready := true }

/-- `handle_hello`. -/
def handleHello (c : Ctx) (src : Mac) (hello : HelloPayload) (now : U32) :
    Ctx × EspErr :=
  if helloUnsupported c hello then (c, .notSupported)
  else
    match peerFind c src true now with
    | (c, none) => (c, .noMem)
    | (c, some key) =>
        let reset := helloResets c key hello
        let c := if reset then clearPeerBuffers c key .sessionReset else c
        let c := c.modPeer key (Peer.bind c.localSession hello.nodeSessionId
          hello.capabilities now)
        sendPacket c key c.localSession
          (.helloAck
            { profileVersion := reliableProfileVersion
              mtu := packetMax
              capabilities := requiredCapabilities ||| capTypedControl |||
                capTypedMemory ||| capOta ||| capTypedTime
              rootSessionId := c.localSession
              nodeSessionId := hello.nodeSessionId
              resetLink := reset })

/-- The decision of `handle_hello_ack` to clear the link. -/
def helloAckClears (p : Peer) (ack : HelloAckPayload) : Bool :=
  let sameBinding := p.ready && p.rootSessionId == ack.rootSessionId &&
    p.nodeSessionId == ack.nodeSessionId
  let sessionChanged :=
    (p.rootSessionId != 0 && p.rootSessionId != ack.rootSessionId) ||
      (p.nodeSessionId != 0 && p.nodeSessionId != ack.nodeSessionId)
  sessionChanged || (ack.resetLink && !sameBinding)

/-- `handle_hello_ack`. -/
def handleHelloAck (c : Ctx) (src : Mac) (ack : HelloAckPayload) (now : U32) :
    Ctx × EspErr :=
  if c.cfg.rootRole ∨ ack.profileVersion ≠ reliableProfileVersion ∨
      ack.nodeSessionId ≠ c.localSession ∨
      ack.capabilities &&& requiredCapabilities ≠ requiredCapabilities then
    (c, .invalidState)
  else
    match peerFind c src true now with
    | (c, none) => (c, .noMem)
    | (c, some key) =>
        let c := if helloAckClears (c.peer key) ack
          then clearPeerBuffers c key .sessionReset else c
        (c.modPeer key fun p => (p.bind ack.rootSessionId c.localSession
          ack.capabilities now).acknowledged now, .ok)

/-- `keemash_rel_handle_rx` for a packet that passed `packet_valid`. -/
def handleRx (c : Ctx) (src : Mac) (packet : Packet) (now : U32) :
    Ctx × EspErr :=
  if packet.srcMac ≠ src then (c, .invalidArg)
  else
    match packet.body with
    | .hello hello => handleHello c src hello now
    | .helloAck ack => handleHelloAck c src ack now
    | .data rh payload => handleData c src rh payload now
    | .ack ack => handleAckPacket c src ack false now
    | .nack ack => handleAckPacket c src ack true now
    | .lost lost => handleLostPacket c src lost now

/-! ## Polling and peer management -/

/-- The route-timeout loop of `keemash_rel_poll`. -/
def pollRoutes (now : U32) : List Mac → Ctx → Ctx
  | [], c => c
  | key :: keys, c =>
      let p := c.peer key
      pollRoutes now keys
        (if p.ready ∧ !p.routeUp ∧ p.routeDownSinceMs ≠ 0 ∧
            now - p.routeDownSinceMs ≥ c.cfg.routeGraceMs
          then clearPeerBuffers c key .routeTimeout else c)

/-- The slot that `keemash_rel_poll` picks for a peer and a priority. -/
def pollCandidate (c : Ctx) (key : Mac) (priority : ℕ) (now : U32) : Option ℕ :=
  findIdx
    (fun slot : TxSlot => slot.priority == priority && slot.peer == key &&
      !decide (now - slot.lastSentMs < (c.peer key).rtoMs)) c.tx

/-- Forget the session of the other end. -/
def Peer.unbind (rootRole : Bool) (p : Peer) : Peer :=
  if rootRole then { p with nodeSessionId := 0 } else { p with rootSessionId := 0 }

/-- What `keemash_rel_poll` does with a slot whose retries are used up. -/
def retryExhausted (c : Ctx) (key : Mac) (slot : TxSlot) : Ctx :=
  let c := (sendLostPacket c key slot.channel .retryExhausted 0 slot.seq
    slot.seq).1
  (clearPeerBuffers c key .retryExhausted).modPeer key (Peer.unbind c.cfg.rootRole)

/-- The retransmission loops of `keemash_rel_poll` over the pairs of priority
and peer key; an exhausted slot ends both loops. -/
def pollSlots (now : U32) : List (ℕ × Mac) → Ctx → Ctx
  | [], c => c
  | (priority, key) :: rest, c =>
      let p := c.peer key
      if !p.ready || !p.routeUp then pollSlots now rest c
      else
        match pollCandidate c key priority now with
        | none => pollSlots now rest c
        | some i =>
            match entryAt c.tx i with
            | none => pollSlots now rest c
            | some slot =>
                if slot.retries ≥ c.cfg.maxRetries then
                  retryExhausted c key slot
                else pollSlots now rest (retransmitSlot c key i now).1

/-- A reassembly slot whose last fragment is too old. -/
def ReassemblySlot.timedOut (cfg : RelConfig) (now : U32)
    (slot : ReassemblySlot) : Bool :=
  !decide (now - slot.lastMs < cfg.fragmentTimeoutMs)

/-- The fragment-timeout loop of `keemash_rel_poll`. -/
def pollFragments (now : U32) : List ℕ → Ctx → Ctx
  | [], c => c
  | i :: is, c =>
      match entryAt c.reassembly i with
      | none => pollFragments now is c
      | some slot =>
          if !slot.timedOut c.cfg now then pollFragments now is c
          else
            let found := peerFind c slot.peer false now
            let c :=
              match found with
              | (c, none) => c
              | (c, some key) =>
                  let c := c.emit (.fragmentsExpired key)
                  let c := recordLost c .received key slot.channel .fragmentTimeout
                    slot.firstSeq slot.lastSeq (BitVec.ofNat 32 slot.fragmentCount)
                  (sendLostPacket c key slot.channel .fragmentTimeout
                    lostFlagReceiverDrop slot.firstSeq slot.lastSeq).1
            pollFragments now is (c.setReassembly (c.reassembly.set i none))

/-- Keys of the peers in the order in which the poll cursor visits them. -/
def pollOrder (c : Ctx) : List Mac :=
  (List.range c.cfg.maxPeers).filterMap fun p =>
    ((c.peers[(c.pollPeerCursor + p) % c.cfg.maxPeers]?).join).map Peer.mac

/-- Advance the poll cursor. -/
def Ctx.moveCursor (c : Ctx) : Ctx :=
  { c with pollPeerCursor := (c.pollPeerCursor + 1) % c.cfg.maxPeers }

/-- `keemash_rel_poll`. -/
def poll (c : Ctx) (now : U32) : Ctx :=
  let c := pollRoutes now ((used c.peers).map Peer.mac) c
  let visits := [4, 3, 2, 1, 0].flatMap fun priority =>
    (pollOrder c).map fun key => (priority, key)
  let c := pollSlots now visits c
  let c := c.moveCursor
  pollFragments now (List.range c.reassembly.length) c

/-- `keemash_rel_reset_peer`. -/
def resetPeer (c : Ctx) (peerMac : Mac) (reason : LostReason) (now : U32) : Ctx :=
  match peerFind c peerMac false now with
  | (c, none) => c
  | (c, some key) => clearPeerBuffers c key reason

def Peer.setRoute (routeUp : Bool) (now : U32) (p : Peer) : Peer :=
  { p with
    routeUp := routeUp
    lastRouteChangeMs := now
    routeDownSinceMs := if routeUp then 0 else now }

/-- A slot of the peer is due for retransmission at once. -/
def TxSlot.due (key : Mac) (slot : TxSlot) : TxSlot :=
  if slot.peer == key then { slot with lastSentMs := 0 } else slot

/-- `keemash_rel_peer_route`. -/
def peerRoute (c : Ctx) (peerMac : Mac) (routeUp : Bool) (now : U32) :
    Ctx × EspErr :=
  match peerFind c peerMac routeUp now with
  | (c, none) => (c, if routeUp then .noMem else .notFound)
  | (c, some key) =>
      if (c.peer key).routeUp = routeUp then (c, .ok)
      else
        let c := c.modPeer key (Peer.setRoute routeUp now)
        (if routeUp then
          c.setTx (c.tx.map fun entry => entry.map (TxSlot.due key))
        else c, .ok)

/-- `keemash_rel_supersede_channel`. -/
def supersedeChannel (c : Ctx) (peerMac : Mac) (channel : ℕ) (now : U32) :
    Ctx × ℕ :=
  if channel = 0 ∨ channel ≥ channelCount then (c, 0)
  else
    match peerFind c peerMac false now with
    | (c, none) => (c, 0)
    | (c, some key) =>
        (c.setTx (freeWhere (TxSlot.isFor key channel) c.tx),
          channelUnacked c key channel)

/-- `keemash_rel_remove_peer`. -/
def removePeer (c : Ctx) (peerMac : Mac) (now : U32) : Ctx × EspErr :=
  match peerFind c peerMac false now with
  | (c, none) => (c, .notFound)
  | (c, some key) =>
      if txUnacked c key ≠ 0 ∨ rxDepth c key ≠ 0 ∨ reassemblyDepth c key ≠ 0 then
        (c, .invalidState)
      else
        (c.setPeers (freeWhere (fun p => p.mac == key) c.peers), .ok)

/-- `keemash_rel_init` with the two random numbers it draws. -/
def init (config : RelConfig) (session stream : U32) : Option Ctx :=
  if config.maxPeers = 0 ∨ config.txSlots = 0 ∨ config.rxSlots = 0 ∨
      config.reassemblySlots = 0 then none
  else
    let clip := fun value limit => if value = 0 ∨ value > limit then limit else value
    let perPeerTx := clip config.perPeerTxSlots config.txSlots
    some
      { cfg := { config with
          perPeerTxSlots := perPeerTx
          perPeerRxSlots := clip config.perPeerRxSlots config.rxSlots
          perPeerReassemblySlots :=
            clip config.perPeerReassemblySlots config.reassemblySlots
          perPeerControlReserve :=
            if config.perPeerControlReserve ≥ perPeerTx
            then (if perPeerTx > 1 then 1 else 0)
            else config.perPeerControlReserve
          routeGraceMs :=
            if config.routeGraceMs = 0 then 90000 else config.routeGraceMs }
        localSession := if session = 0 then 1 else session
        nextStreamId := if stream = 0 then 1 else stream
        peers := List.replicate config.maxPeers none
        tx := List.replicate config.txSlots none
        rx := List.replicate config.rxSlots none
        reassembly := List.replicate config.reassemblySlots none
        overflowCounter := 0
        pollPeerCursor := 0
        trace := [] }

end KeemashCore.Rel
