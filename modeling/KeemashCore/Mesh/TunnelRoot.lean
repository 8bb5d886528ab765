import KeemashCore.Mesh.NodeStates
import KeemashCore.Mesh.TunnelNode

/-!
# The root's end of the tunnel profile

The handlers of `keemash_mesh_root.c` for peers that do not know the reliable profile.  The
root keeps a number for every node and channel, delivers the frame with that number only,
and asks for it whenever it sees a later one.  A frame it sends itself is numbered but not
kept.
-/

namespace KeemashCore.MeshRoot

open LittleEndian Rel Tunnel

/-! ## State -/

/-- A call of a hook of the application. -/
inductive RootHook where
  | nodeSeenUptime (mac : Mac) (tag : List UInt8) (uptimeS : U32)
  | nodeSeen (mac : Mac) (tag : List UInt8)
  | logLine (mac : Mac) (tag line : List UInt8)
  | taskSnapshot (mac : Mac) (payload : List UInt8)
  | topology (mac : Mac) (payload : List UInt8)
  deriving DecidableEq, Repr

/-- One entry of the root's trace. -/
inductive RootEffect where
  /-- `keemash_mesh_transport_send` was called. -/
  | send (dst : Mac) (packet : List UInt8)
  /-- `deliver_tunnel_payload` was entered. -/
  | deliver (t : TunnelHdr) (payload : List UInt8)
  /-- `deliver_legacy_v2_payload` was entered. -/
  | deliverLegacy (h : WireHdr) (payload : List UInt8)
  | hook (call : RootHook)
  /-- `active_ping_poll_one` chose the peer. -/
  | ping (mac : Mac) (id sentMs : U32)
  /-- `handle_pong` took the answer and measured `ms`. -/
  | pong (mac : Mac) (id now ms : U32)
  deriving DecidableEq, Repr

/-- The state of the root's end. -/
structure TunnelRoot where
  localMac : Mac
  transport : Mac → List UInt8 → EspErr
  nodes : NodeStates
  trace : List RootEffect

def TunnelRoot.emit (r : TunnelRoot) (effects : List RootEffect) : TunnelRoot :=
  { r with trace := r.trace ++ effects }

/-- Find the record of a node, making it if asked, and change it. -/
def TunnelRoot.change (r : TunnelRoot) (mac : Mac) (create : Bool)
    (f : NodeState → NodeState) : TunnelRoot :=
  let nodes := if create then r.nodes.ensure mac else r.nodes
  { r with nodes := nodes.modify mac f }

/-! ## Sessions -/

/-- `reset_session_locked`. -/
def resetSession (sessionId now : U32) (n : NodeState) : NodeState :=
  { n with
    sessionId := sessionId
    expectedSeq := 1
    highestSeenSeq := 0
    gapCount := 0
    replayCount := 0
    lostCount := 0
    hasGap := false
    lastV2Ms := now
    lastTunnelMs := 0
    tunnelSeen := false
    pingPending := false
    pingValid := false
    rx := fun _ => newRx
    tx := fun _ => newTx }

/-- Assign to an rx channel. -/
def NodeState.setRx (n : NodeState) (channel : ℕ) (rx : TunnelRxChannel) :
    NodeState :=
  { n with rx := Function.update n.rx channel rx }

theorem NodeState.rx_setRx (n : NodeState) (channel : ℕ) (rx : TunnelRxChannel) (k : ℕ) :
    (n.setRx channel rx).rx k = if k = channel then rx else n.rx k :=
  Function.update_apply _ _ _ _

/-- Assign to a tx channel. -/
def NodeState.setTx (n : NodeState) (channel : ℕ) (tx : TunnelTxChannel) : NodeState :=
  { n with tx := Function.update n.tx channel tx }

/-! ## Sending -/

/-- `send_packet_to_mac`. -/
def TunnelRoot.sendPacketToMac (r : TunnelRoot) (mac : Mac) (type : BitVec 8)
    (sessionId seq ackSeq : U32) (payload : List UInt8) : TunnelRoot × EspErr :=
  if payload.length > payloadMax then (r, .invalidArg)
  else
    let packet :=
      sealPacket (packetHdr r.localMac type sessionId seq ackSeq payload.length) payload
    (r.emit [.send mac packet], r.transport mac packet)

/-- `send_control` to the address that a packet came from. -/
def TunnelRoot.sendControl (r : TunnelRoot) (dst : Mac) (type : BitVec 8)
    (sessionId ackSeq missingSeq : U32) : TunnelRoot :=
  if dst = 0 then r
  else
    let payload := if type = typeNack then toLeBytes 4 missingSeq else []
    (r.sendPacketToMac dst type sessionId 0 ackSeq payload).1

/-- `send_tunnel_ack` of the root. -/
def TunnelRoot.sendTunnelAck (r : TunnelRoot) (dst : Mac) (h : WireHdr) (t : TunnelHdr)
    (ackSeq : U32) : TunnelRoot :=
  (r.sendPacketToMac dst typeTunnelAck h.sessionId 0 0 (t.ack ackSeq).bytes).1

/-- `send_tunnel_nack` of the root. -/
def TunnelRoot.sendTunnelNack (r : TunnelRoot) (dst : Mac) (h : WireHdr) (t : TunnelHdr)
    (missingSeq : U32) : TunnelRoot :=
  (r.sendPacketToMac dst typeTunnelNack h.sessionId 0 0 (t.nack missingSeq).bytes).1

/-- The header of a frame from the root to a node. -/
def rootFrameHdr (rootMac nodeMac : Mac) (channel : ℕ) (seq : U32) (innerLen : ℕ) :
    TunnelHdr :=
  { frameHdr rootMac channel seq innerLen with targetMac := nodeMac }

/-- What `mesh_v2_root_send_log_ctrl` and `mesh_v2_root_send_task_request` do when the
reliable profile did not take the message and returned `relErr`: for a node without that
profile, number a frame in the node's session and send it once. -/
def TunnelRoot.sendFrame (r : TunnelRoot) (relErr : EspErr) (mac : Mac) (channel : ℕ)
    (inner : List UInt8) : TunnelRoot × EspErr :=
  match r.nodes.find mac with
  | none => (r, .invalidState)
  | some n =>
      if n.capabilities &&& requiredCapabilities = requiredCapabilities then (r, relErr)
      else if !n.tunnelSeen ∨ n.sessionId = 0 then (r, .invalidState)
      else
        let seq := (n.tx channel).nextSeq
        let r := r.change mac false fun n =>
          n.setTx channel { n.tx channel with nextSeq := seq + 1 }
        if seq = 0 then (r, .invalidState)
        else r.sendPacketToMac mac typeTunnelData n.sessionId 0 0
          ((rootFrameHdr r.localMac mac channel seq inner.length).bytes ++ inner)

/-- `mesh_v2_root_send_log_ctrl` past the reliable profile. -/
def TunnelRoot.sendLogCtrl (r : TunnelRoot) (relErr : EspErr) (mac : Mac) (enable : Bool) :
    TunnelRoot × EspErr :=
  r.sendFrame relErr mac channelControl [if enable then 1 else 0, 0, 0, 0]

/-- `mesh_v2_root_send_task_request` past the reliable profile. -/
def TunnelRoot.sendTaskRequest (r : TunnelRoot) (relErr : EspErr) (mac : Mac)
    (requestId : U32) : TunnelRoot × EspErr :=
  r.sendFrame relErr mac channelTask (toLeBytes 4 requestId ++ [1, 0, 0, 0])

/-! ## Delivering -/

/-- `copy_packet_text` of `len` bytes at `offset`. -/
def packetText (payload : List UInt8) (offset len : ℕ) : List UInt8 :=
  MeshNode.cText (field payload offset len)

/-- `deliver_tunnel_payload` of the root. -/
def tunnelHooks (t : TunnelHdr) (payload : List UInt8) : List RootHook :=
  if t.channelId.toNat = channelNodeinfo then
    if t.payloadLen.toNat < 20 then []
    else [.nodeSeenUptime t.originMac (packetText payload 0 16) (wordAt 4 payload 16)]
  else if t.channelId.toNat = channelLog then
    if t.payloadLen.toNat < 144 then []
    else [.nodeSeen t.originMac (packetText payload 0 16),
      .logLine t.originMac (packetText payload 0 16) (packetText payload 16 128)]
  else if t.channelId.toNat = channelTask then
    if t.payloadLen.toNat < 156 then []
    else [.taskSnapshot t.originMac (payload.take 156)]
  else if t.channelId.toNat = channelTopology then
    if t.payloadLen.toNat < 71 then []
    else [.topology t.originMac (payload.take t.payloadLen.toNat)]
  else []

/-- `deliver_legacy_v2_payload`. -/
def legacyHooks (h : WireHdr) (payload : List UInt8) : List RootHook :=
  if h.type = typeNodeinfo then
    if h.payloadLen.toNat < 20 then []
    else [.nodeSeenUptime h.srcMac (packetText payload 0 16) (wordAt 4 payload 16)]
  else if h.type = typeLogLine then
    if h.payloadLen.toNat < 192 then []
    else [.nodeSeen h.srcMac (packetText payload 0 16),
      .logLine h.srcMac (packetText payload 0 16) (packetText payload 16 176)]
  else []

/-! ## Handlers -/

/-- `handle_hello`. -/
def TunnelRoot.handleHello (r : TunnelRoot) (src : Mac) (h : WireHdr)
    (payload : List UInt8) (now : U32) : TunnelRoot :=
  let known := decide (28 ≤ h.payloadLen.toNat)
  let capabilities : U32 := if known then wordAt 4 payload 24 else 0
  let tag := if known then packetText payload 0 16 else MeshNode.ascii "node"
  let uptimeS : U32 := if known then wordAt 4 payload 16 else 0
  let tunnelSeen := capabilities &&& 1 != 0
  let r := r.change h.srcMac true fun n =>
    let n := resetSession h.sessionId now n
    { n with
      capabilities := capabilities
      tunnelSeen := tunnelSeen
      lastTunnelMs := if tunnelSeen then now else n.lastTunnelMs }
  (r.emit [.hook (.nodeSeenUptime h.srcMac tag uptimeS)]).sendControl src typeAck h.sessionId
    0 0

/-- The record after `handle_lost`. -/
def NodeState.lost (sessionId missingSeq now : U32) (n : NodeState) : NodeState :=
  if n.sessionId = sessionId then
    { n with
      lastV2Ms := now
      lostCount := n.lostCount + 1
      hasGap := true
      expectedSeq := skipLost n.expectedSeq n.highestSeenSeq missingSeq }
  else n

/-- `handle_lost`. -/
def TunnelRoot.handleLost (r : TunnelRoot) (src : Mac) (h : WireHdr) (payload : List UInt8)
    (now : U32) : TunnelRoot :=
  if h.payloadLen.toNat < 4 then r
  else
    let r := r.change h.srcMac true (NodeState.lost h.sessionId (wordAt 4 payload 0) now)
    let ackSeq : U32 :=
      match r.nodes.find h.srcMac with
      | some n =>
          if n.sessionId = h.sessionId ∧ n.expectedSeq ≠ 0 then n.expectedSeq - 1 else 0
      | none => 0
    r.sendControl src typeAck h.sessionId ackSeq 0

/-- The record after `handle_tunnel_lost`. -/
def NodeState.tunnelLost (sessionId : U32) (channel : ℕ) (missingSeq now : U32)
    (n : NodeState) : NodeState :=
  if n.sessionId = sessionId then
    let rx := n.rx channel
    { n.setRx channel { rx with
        lostCount := rx.lostCount + 1
        hasGap := true
        lastMs := now
        expectedSeq := skipLost rx.expectedSeq rx.highestSeenSeq missingSeq } with
      lastTunnelMs := now
      tunnelSeen := true }
  else n

/-- `handle_tunnel_lost`. -/
def TunnelRoot.handleTunnelLost (r : TunnelRoot) (h : WireHdr) (payload : List UInt8)
    (now : U32) : TunnelRoot :=
  if h.payloadLen.toNat < tunnelMissSize then r
  else
    let p := TunnelMiss.read payload
    if noChannel p.channelId.toNat then r
    else r.change p.originMac true
      (NodeState.tunnelLost h.sessionId p.channelId.toNat p.missingSeq now)

/-- `handle_tunnel_ack` of the root. -/
def TunnelRoot.handleTunnelAck (r : TunnelRoot) (h : WireHdr) (payload : List UInt8)
    (now : U32) : TunnelRoot :=
  if h.payloadLen.toNat < tunnelAckSize then r
  else
    let p := TunnelAck.read payload
    let channel := p.channelId.toNat
    if noChannel channel then r
    else r.change h.srcMac false fun n =>
      if n.sessionId = h.sessionId then
        { n.setTx channel { n.tx channel with lastAckSeq := p.ackSeq } with
          lastTunnelMs := now
          tunnelSeen := true }
      else n

/-- The record when a tunnel frame of another session comes in: a session that is picked up
in the middle starts at the frame. -/
def NodeState.adoptTunnel (sessionId : U32) (t : TunnelHdr) (now : U32) (n : NodeState) :
    NodeState :=
  if n.sessionId = sessionId then n
  else
    let n := resetSession sessionId now n
    if t.seq > 1 then
      n.setRx t.channelId.toNat
        { n.rx t.channelId.toNat with expectedSeq := t.seq, highestSeenSeq := t.seq }
    else n

/-- What the root decides about a tunnel frame. -/
def NodeState.judgeTunnel (sessionId : U32) (t : TunnelHdr) (now : U32) (n : NodeState) :
    Verdict :=
  let rx := (NodeState.adoptTunnel sessionId t now n).rx t.channelId.toNat
  judge rx.expectedSeq rx.highestSeenSeq t.seq

/-- The record after `handle_tunnel_data`. -/
def NodeState.tunnelData (sessionId : U32) (t : TunnelHdr) (now : U32) (n : NodeState) :
    NodeState :=
  let verdict := NodeState.judgeTunnel sessionId t now n
  let n := NodeState.adoptTunnel sessionId t now n
  let rx := n.rx t.channelId.toNat
  { n.setRx t.channelId.toNat
      { expectedSeq := verdict.expectedSeq
        highestSeenSeq := verdict.highestSeenSeq
        gapCount := if verdict.sendNack then rx.gapCount + 1 else rx.gapCount
        replayCount := if t.flags &&& replayFlag ≠ 0 then rx.replayCount + 1
          else rx.replayCount
        lostCount := rx.lostCount
        lastMs := now
        hasGap := verdict.sendNack || rx.hasGap } with
    tunnelSeen := true
    lastTunnelMs := now
    lastV2Ms := now }

/-- `handle_tunnel_data` of the root.  Without a record for the origin, which takes a full
table, the answer is an ACK for the number 0. -/
def TunnelRoot.handleTunnelData (r : TunnelRoot) (h : WireHdr) (payload : List UInt8)
    (now : U32) : TunnelRoot :=
  if h.payloadLen.toNat < tunnelHdrSize then r
  else
    match frameFor r.localMac h payload with
    | none => r
    | some (t, inner) =>
        match (r.nodes.ensure t.originMac).find t.originMac with
        | none => r.sendTunnelAck h.srcMac h t 0
        | some n =>
            let verdict := NodeState.judgeTunnel h.sessionId t now n
            let r := r.change t.originMac true (NodeState.tunnelData h.sessionId t now)
            let r := if verdict.sendNack then r.sendTunnelNack h.srcMac h t verdict.missingSeq
              else r.sendTunnelAck h.srcMac h t verdict.ackSeq
            if verdict.deliver then
              r.emit (.deliver t inner :: (tunnelHooks t inner).map .hook)
            else r

/-- The record when a packet of another session comes in. -/
def NodeState.adoptLegacy (h : WireHdr) (now : U32) (n : NodeState) : NodeState :=
  if n.sessionId = h.sessionId then n
  else
    let n := resetSession h.sessionId now n
    if h.seq > 1 then { n with expectedSeq := h.seq, highestSeenSeq := h.seq } else n

/-- What the root decides about a NODEINFO or LOG_LINE packet. -/
def NodeState.judgeLegacy (h : WireHdr) (now : U32) (n : NodeState) : Verdict :=
  let n := NodeState.adoptLegacy h now n
  judge n.expectedSeq n.highestSeenSeq h.seq

/-- The record after `handle_reliable_legacy_v2`. -/
def NodeState.legacyData (h : WireHdr) (now : U32) (n : NodeState) : NodeState :=
  let verdict := NodeState.judgeLegacy h now n
  let n := NodeState.adoptLegacy h now n
  { n with
    lastV2Ms := now
    replayCount := if h.flags &&& replayFlag ≠ 0 then n.replayCount + 1 else n.replayCount
    expectedSeq := verdict.expectedSeq
    highestSeenSeq := verdict.highestSeenSeq
    gapCount := if verdict.sendNack then n.gapCount + 1 else n.gapCount
    hasGap := verdict.sendNack || n.hasGap }

/-- `handle_reliable_legacy_v2`. -/
def TunnelRoot.handleReliableLegacy (r : TunnelRoot) (src : Mac) (h : WireHdr)
    (payload : List UInt8) (now : U32) : TunnelRoot :=
  match (r.nodes.ensure h.srcMac).find h.srcMac with
  | none => r.sendControl src typeAck h.sessionId 0 0
  | some n =>
      let verdict := NodeState.judgeLegacy h now n
      let r := r.change h.srcMac true (NodeState.legacyData h now)
      let r := if verdict.sendNack
        then r.sendControl src typeNack h.sessionId verdict.ackSeq verdict.missingSeq
        else r.sendControl src typeAck h.sessionId verdict.ackSeq 0
      if verdict.deliver then
        r.emit (.deliverLegacy h payload :: (legacyHooks h payload).map .hook)
      else r

/-- What `handle_pong` asks of the reliable profile. -/
structure RootView where
  now : U32
  /-- `keemash_rel_local_session`. -/
  localSession : U32
  /-- The reliable profile knows the peer and it is ready. -/
  relReady : Mac → Bool

/-- The record after a PONG that answers its ping. -/
def NodeState.pong (now : U32) (n : NodeState) : NodeState :=
  { n with
    pingPending := false
    pingValid := true
    pingMs := now - n.pingSentMs
    pingLastRxMs := now }

/-- `handle_pong`. -/
def TunnelRoot.handlePong (r : TunnelRoot) (src : Mac) (h : WireHdr) (payload : List UInt8)
    (view : RootView) : TunnelRoot × EspErr :=
  if h.payloadLen.toNat ≠ 8 then (r, .invalidArg)
  else if wordAt 4 payload 4 ≠ view.localSession ∨ !view.relReady src then (r, .invalidState)
  else
    match r.nodes.find src with
    | none => (r, .invalidState)
    | some n =>
        if n.pingPending ∧ n.pingId = wordAt 4 payload 0 then
          ((r.change src false (NodeState.pong view.now)).emit
            [.pong src n.pingId view.now (view.now - n.pingSentMs)], .ok)
        else (r, .invalidState)

/-- `mesh_v2_root_handle_rx` for a packet of the tunnel profile. -/
def TunnelRoot.handleRx (r : TunnelRoot) (src : Mac) (packet : List UInt8)
    (view : RootView) : TunnelRoot × EspErr :=
  match MeshRoot.validatePacket packet with
  | none => (r, .invalidArg)
  | some (h, payload) =>
      if src ≠ h.srcMac then (r, .invalidCrc)
      else if h.type = typeHello then (r.handleHello src h payload view.now, .ok)
      else if h.type = typePong then r.handlePong src h payload view
      else if h.type = typeTunnelData then (r.handleTunnelData h payload view.now, .ok)
      else if h.type = typeTunnelAck then (r.handleTunnelAck h payload view.now, .ok)
      else if h.type = typeTunnelLost then (r.handleTunnelLost h payload view.now, .ok)
      else if h.type = typeLost then (r.handleLost src h payload view.now, .ok)
      else if h.type = typeNodeinfo ∨ h.type = typeLogLine then
        (r.handleReliableLegacy src h payload view.now, .ok)
      else (r, .ok)

end KeemashCore.MeshRoot
