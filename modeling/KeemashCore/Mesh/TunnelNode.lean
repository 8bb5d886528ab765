import KeemashCore.Mesh.Command
import KeemashCore.Mesh.TunnelWire
import KeemashCore.ReplayRing.Basic

/-!
# The node's end of the tunnel profile

The static state of `keemash_mesh_node.c` for peers that do not know the reliable profile,
with `CONFIG_KEEMASH_V2_COMPAT_TUNNEL_ENABLE` set.  Every numbered frame is kept in a replay
ring until it is acknowledged or displaced; a frame that is asked for is sent again from the
ring, or given up with a LOST packet.

What the functions ask of the rest of the node (the clock, the reliable profile, the OTA
receivers, the random numbers) is an argument, and what they send, store and hand on is
appended to a trace.
-/

namespace KeemashCore.Tunnel

open LittleEndian Rel ReplayRing

/-! ## State -/

/-- `tunnel_tx_channel_t`. -/
structure TunnelTxChannel where
  nextSeq : U32
  ring : Slots (List UInt8)

/-- `tunnel_rx_channel_t` of the node. -/
structure TunnelRxChannel where
  expectedSeq : U32
  highestSeenSeq : U32
  lastAckSeq : U32

/-- One entry of the node's trace. -/
inductive NodeEffect where
  /-- `send_raw_to_root` was called. -/
  | send (packet : List UInt8)
  /-- `send_tunnel_packet` stored a frame with this payload. -/
  | queued (channel : ℕ) (inner : List UInt8)
  /-- `deliver_tunnel_payload` was entered. -/
  | deliver (t : TunnelHdr) (payload : List UInt8)
  /-- `mesh_v2_node_send_task_snapshot` and `mesh_v2_node_send_memory` were called. -/
  | taskRequest (requestId : U32)
  /-- `keemash_mesh_node_on_log_ctrl` was called. -/
  | logCtrl (enable : Bool)
  deriving DecidableEq, Repr

/-- The state of the node's end. -/
structure TunnelNode where
  localMac : Mac
  transport : List UInt8 → EspErr
  sessionId : U32
  nextSeq : U32
  ring : Slots (List UInt8)
  tunnelTx : ℕ → TunnelTxChannel
  tunnelRx : ℕ → TunnelRxChannel
  rootReady : Bool
  lastAckMs : U32
  lastHelloMs : U32
  tunnelGapCount : U32
  tunnelLostCount : U32
  tunnelReplayCount : U32
  trace : List NodeEffect

/-- What the functions read outside their own state. -/
structure NodeView where
  now : U32
  /-- What `esp_random` returns. -/
  random : U32
  /-- The payload that `send_hello` fills in. -/
  helloPayload : List UInt8
  /-- `mesh_v2_node_reliable_ready`. -/
  relReady : Bool
  /-- The reliable profile is ready and had an acknowledgement within
  `MESH_V2_ACK_STALE_MS`. -/
  relFresh : Bool
  /-- One of the OTA receivers is active. -/
  otaActive : Bool
  /-- What the HELLO of the reliable profile returned, if it was sent. -/
  relHello : Option EspErr
  /-- `s_root_origin_mac`. -/
  expectedRoot : Mac
  losslessNegotiated : Bool
  /-- The root session of the reliable profile, when its peer is ready. -/
  rootSession : Option U32

def ackStaleMs : U32 := 30000#32

def helloRetryMs : U32 := 5000#32

def TunnelNode.emit (n : TunnelNode) (e : NodeEffect) : TunnelNode :=
  { n with trace := n.trace ++ [e] }

/-- Assign to a tx channel. -/
def TunnelNode.setTx (n : TunnelNode) (channel : ℕ) (tx : TunnelTxChannel) : TunnelNode :=
  { n with tunnelTx := Function.update n.tunnelTx channel tx }

theorem TunnelNode.tunnelTx_setTx (n : TunnelNode) (channel : ℕ) (tx : TunnelTxChannel)
    (ch : ℕ) :
    (n.setTx channel tx).tunnelTx ch = if ch = channel then tx else n.tunnelTx ch :=
  Function.update_apply _ _ _ _

/-- Assign to an rx channel. -/
def TunnelNode.setRx (n : TunnelNode) (channel : ℕ) (rx : TunnelRxChannel) : TunnelNode :=
  { n with tunnelRx := Function.update n.tunnelRx channel rx }

/-- `mesh_v2_node_ready`. -/
def TunnelNode.ready (n : TunnelNode) (view : NodeView) : Bool :=
  n.rootReady || view.relReady

/-- `channel == 0 || channel > MESH_V2_TUNNEL_CHANNEL_MAX`. -/
def noChannel (channel : ℕ) : Bool :=
  decide (channel = 0 ∨ channel > tunnelChannelMax)

/-! ## Sessions -/

/-- A tx channel of a new session. -/
def newTx : TunnelTxChannel where
  nextSeq := 1
  ring := ReplayRing.empty tunnelReplayRingSize

/-- An rx channel of a new session. -/
def newRx : TunnelRxChannel where
  expectedSeq := 1
  highestSeenSeq := 0
  lastAckSeq := 0

/-- `new_session_locked`. -/
def TunnelNode.newSession (n : TunnelNode) (random : U32) : TunnelNode :=
  { n with
    sessionId := if random = 0 then 1 else random
    nextSeq := 1
    ring := ReplayRing.empty replayRingSize
    tunnelTx := fun _ => newTx
    tunnelRx := fun _ => newRx
    tunnelGapCount := 0
    tunnelLostCount := 0
    tunnelReplayCount := 0
    rootReady := false
    lastAckMs := 0 }

/-! ## Sending -/

/-- `send_raw_to_root`. -/
def TunnelNode.sendRawToRoot (n : TunnelNode) (packet : List UInt8) : TunnelNode × EspErr :=
  (n.emit (.send packet), n.transport packet)

/-- `send_packet`. -/
def TunnelNode.sendPacket (n : TunnelNode) (type : BitVec 8) (payload : List UInt8)
    (reliable : Bool) (view : NodeView) : TunnelNode × EspErr :=
  if payload.length > payloadMax then (n, .invalidSize)
  else if reliable ∧ !n.ready view then (n, .invalidState)
  else if reliable then
    let packet := sealPacket
      (packetHdr n.localMac type n.sessionId n.nextSeq 0 payload.length) payload
    { n with
      nextSeq := n.nextSeq + 1
      ring := store n.ring n.nextSeq.toNat packet }.sendRawToRoot packet
  else n.sendRawToRoot
    (sealPacket (packetHdr n.localMac type n.sessionId 0 0 payload.length) payload)

/-- `send_lost`. -/
def TunnelNode.sendLost (n : TunnelNode) (missingSeq : U32) (view : NodeView) : TunnelNode :=
  (n.sendPacket typeLost (toLeBytes 4 missingSeq) false view).1

/-- `send_tunnel_lost`. -/
def TunnelNode.sendTunnelLost (n : TunnelNode) (channel : BitVec 8) (missingSeq : U32)
    (view : NodeView) : TunnelNode :=
  let p : TunnelMiss :=
    { channelId := channel, missingSeq := missingSeq, originMac := n.localMac, targetMac := 0 }
  (n.sendPacket typeTunnelLost p.bytes false view).1

/-- The payload of `send_tunnel_ack`. -/
def TunnelHdr.ack (t : TunnelHdr) (ackSeq : U32) : TunnelAck where
  channelId := t.channelId
  flags := ackFlags
  seq := t.seq
  ackSeq := ackSeq
  sackBitmap := 0
  originMac := t.originMac
  targetMac := t.targetMac

/-- The payload of `send_tunnel_nack`. -/
def TunnelHdr.nack (t : TunnelHdr) (missingSeq : U32) : TunnelMiss where
  channelId := t.channelId
  missingSeq := missingSeq
  originMac := t.originMac
  targetMac := t.targetMac

/-- `send_tunnel_ack`. -/
def TunnelNode.sendTunnelAck (n : TunnelNode) (t : TunnelHdr) (ackSeq : U32)
    (view : NodeView) : TunnelNode :=
  (n.sendPacket typeTunnelAck (t.ack ackSeq).bytes false view).1

/-- `send_tunnel_nack`. -/
def TunnelNode.sendTunnelNack (n : TunnelNode) (t : TunnelHdr) (missingSeq : U32)
    (view : NodeView) : TunnelNode :=
  (n.sendPacket typeTunnelNack (t.nack missingSeq).bytes false view).1

/-- The header of a frame from the node to the root. -/
def frameHdr (localMac : Mac) (channel : ℕ) (seq : U32) (innerLen : ℕ) : TunnelHdr where
  channelId := BitVec.ofNat 8 channel
  flags := ackFlags
  ttl := tunnelTtlDefault
  fragmentCount := 1
  payloadLen := BitVec.ofNat 16 innerLen
  fragmentIndex := 0
  streamId := BitVec.ofNat 32 channel
  seq := seq
  ackSeq := 0
  sackBitmap := 0
  originMac := localMac
  targetMac := 0

/-- The packet of a frame with its tunnel header. -/
def framePacket (localMac : Mac) (sessionId : U32) (t : TunnelHdr) (inner : List UInt8) :
    List UInt8 :=
  sealPacket (packetHdr localMac typeTunnelData sessionId 0 0 (t.bytes ++ inner).length)
    (t.bytes ++ inner)

/-- The number under which the next frame is kept. -/
def TunnelNode.number (n : TunnelNode) (channel : ℕ) : U32 :=
  (n.tunnelTx channel).nextSeq

/-- `send_tunnel_packet`. -/
def TunnelNode.sendTunnelPacket (n : TunnelNode) (channel : ℕ) (inner : List UInt8)
    (reliable : Bool) (view : NodeView) : TunnelNode × EspErr :=
  if noChannel channel ∨ inner.length > tunnelInnerMax ∨
      tunnelHdrSize + inner.length > payloadMax then (n, .invalidArg)
  else if reliable ∧ !n.ready view then (n, .invalidState)
  else if reliable then
    let seq := n.number channel
    let packet := framePacket n.localMac n.sessionId
      (frameHdr n.localMac channel seq inner.length) inner
    let n := n.setTx channel
      { nextSeq := seq + 1
        ring := store (n.tunnelTx channel).ring seq.toNat packet }
    (n.emit (.queued channel inner)).sendRawToRoot packet
  else n.sendRawToRoot (framePacket n.localMac n.sessionId
    (frameHdr n.localMac channel 0 inner.length) inner)

/-! ## Keeping the link up -/

/-- `send_hello`, whose HELLO of the reliable profile is sent elsewhere. -/
def TunnelNode.sendHello (n : TunnelNode) (resetSession : Bool) (view : NodeView) :
    TunnelNode × EspErr :=
  let n := if resetSession then n.newSession view.random else n
  let n := { n with lastHelloMs := view.now }
  let sent := n.sendPacket typeHello view.helloPayload false view
  match view.relHello with
  | some .ok => (sent.1, .ok)
  | _ => sent

/-- `hello_due`. -/
def TunnelNode.helloDue (n : TunnelNode) (view : NodeView) : Bool :=
  n.lastHelloMs == 0 || decide (view.now - n.lastHelloMs ≥ helloRetryMs)

/-- `ack_stale`. -/
def TunnelNode.ackStale (n : TunnelNode) (view : NodeView) : Bool :=
  n.rootReady && (n.lastAckMs == 0 || decide (view.now - n.lastAckMs ≥ ackStaleMs))

/-- `recover_root_link_if_needed`. -/
def TunnelNode.recoverRootLinkIfNeeded (n : TunnelNode) (view : NodeView) : TunnelNode :=
  if view.relFresh then n
  else if n.helloDue view ∧ (!n.rootReady ∨ n.ackStale view) then
    (n.sendHello (n.ackStale view && !view.otaActive) view).1
  else n

/-- `mesh_v2_node_send_nodeinfo`, `mesh_v2_node_send_log_line`, `mesh_v2_node_send_topology`
and `mesh_v2_node_send_task_snapshot` where the reliable profile did not take the payload.
The last one does not look after the link first. -/
def TunnelNode.sendPayload (n : TunnelNode) (recovers : Bool) (channel : ℕ)
    (inner : List UInt8) (view : NodeView) : TunnelNode × EspErr :=
  let n := if recovers then n.recoverRootLinkIfNeeded view else n
  n.sendTunnelPacket channel inner true view

/-! ## Receiving -/

/-- `handle_ack`; the result is `became_ready`. -/
def TunnelNode.handleAck (n : TunnelNode) (h : WireHdr) (view : NodeView) :
    TunnelNode × Bool :=
  if h.sessionId = n.sessionId then
    ({ n with
      lastAckMs := view.now
      rootReady := true
      ring := release n.ring h.ackSeq.toNat }, !n.rootReady)
  else (n, false)

/-- `handle_nack`. -/
def TunnelNode.handleNack (n : TunnelNode) (h : WireHdr) (payload : List UInt8)
    (view : NodeView) : TunnelNode :=
  if h.payloadLen.toNat < 4 then n
  else
    let missingSeq : U32 := wordAt 4 payload 0
    if h.sessionId = n.sessionId then
      let n := { n with rootReady := true, ring := release n.ring h.ackSeq.toNat }
      match lookup n.ring missingSeq.toNat with
      | some packet => (n.sendRawToRoot (replayPacket packet)).1
      | none => n.sendLost missingSeq view
    else n.sendLost missingSeq view

/-- `handle_tunnel_ack`. -/
def TunnelNode.handleTunnelAck (n : TunnelNode) (h : WireHdr) (payload : List UInt8)
    (view : NodeView) : TunnelNode :=
  if h.payloadLen.toNat < tunnelAckSize then n
  else
    let p := TunnelAck.read payload
    let channel := p.channelId.toNat
    if noChannel channel then n
    else if h.sessionId = n.sessionId then
      let tx := n.tunnelTx channel
      { n.setTx channel { tx with ring := release tx.ring p.ackSeq.toNat } with
        rootReady := true
        lastAckMs := view.now }
    else n

/-- `tunnel_ring_copy_locked`. -/
def TunnelNode.tunnelRingCopy (n : TunnelNode) (channel : ℕ) (seq : U32) :
    Option (List UInt8) :=
  if noChannel channel then none else lookup (n.tunnelTx channel).ring seq.toNat

/-- `handle_tunnel_nack`. -/
def TunnelNode.handleTunnelNack (n : TunnelNode) (h : WireHdr) (payload : List UInt8)
    (view : NodeView) : TunnelNode :=
  if h.payloadLen.toNat < tunnelMissSize then n
  else
    let p := TunnelMiss.read payload
    if h.sessionId = n.sessionId then
      let n := { n with rootReady := true, lastAckMs := view.now }
      match n.tunnelRingCopy p.channelId.toNat p.missingSeq with
      | some packet =>
          ({ n with tunnelReplayCount := n.tunnelReplayCount + 1 }.sendRawToRoot
            (replayTunnelPacket packet)).1
      | none =>
          { n with tunnelLostCount := n.tunnelLostCount + 1 }.sendTunnelLost p.channelId
            p.missingSeq view
    else n.sendTunnelLost p.channelId p.missingSeq view

/-- `deliver_tunnel_payload` of the node. -/
def TunnelNode.deliverTunnelPayload (n : TunnelNode) (t : TunnelHdr)
    (payload : List UInt8) : TunnelNode :=
  let n := n.emit (.deliver t payload)
  if t.channelId.toNat = channelTask then
    if t.payloadLen.toNat < 8 then n else n.emit (.taskRequest (wordAt 4 payload 0))
  else if t.channelId.toNat ≠ channelControl then n
  else if t.payloadLen.toNat < 4 then n
  else n.emit (.logCtrl ((wordAt 1 payload 0 : BitVec 8) != 0))

/-- The tests of `handle_tunnel_data` of both ends on the tunnel header: what is left of
the payload, if the frame is for this end. -/
def frameFor (localMac : Mac) (h : WireHdr) (payload : List UInt8) :
    Option (TunnelHdr × List UInt8) :=
  let t := TunnelHdr.read payload
  let innerSpace := h.payloadLen.toNat - tunnelHdrSize
  if noChannel t.channelId.toNat ∨ t.payloadLen.toNat > innerSpace ∨
      t.payloadLen.toNat > tunnelInnerMax then none
  else if t.targetMac ≠ 0 ∧ t.targetMac ≠ localMac then none
  else some (t, payload.drop tunnelHdrSize)

/-- `handle_tunnel_data` of the node. -/
def TunnelNode.handleTunnelData (n : TunnelNode) (h : WireHdr) (payload : List UInt8)
    (view : NodeView) : TunnelNode :=
  if h.sessionId ≠ n.sessionId ∨ h.payloadLen.toNat < tunnelHdrSize then
    n.recoverRootLinkIfNeeded view
  else
    match frameFor n.localMac h payload with
    | none => n
    | some (t, inner) =>
        let channel := t.channelId.toNat
        let rx := n.tunnelRx channel
        let verdict := judge rx.expectedSeq rx.highestSeenSeq t.seq
        let n := n.setRx channel
          { expectedSeq := verdict.expectedSeq
            highestSeenSeq := verdict.highestSeenSeq
            lastAckSeq := if verdict.deliver then t.seq else rx.lastAckSeq }
        let n := if verdict.sendNack
          then { n with tunnelGapCount := n.tunnelGapCount + 1 } else n
        let n := if verdict.sendNack then n.sendTunnelNack t verdict.missingSeq view
          else n.sendTunnelAck t verdict.ackSeq view
        if verdict.deliver then n.deliverTunnelPayload t inner else n

/-- `mesh_v2_node_handle_rx` for a packet of the tunnel profile.  What the node sends of its
own accord when it became ready are calls of their own. -/
def TunnelNode.handleRx (n : TunnelNode) (src : Mac) (packet : List UInt8)
    (view : NodeView) : TunnelNode × EspErr :=
  if hdrSize ≤ packet.length ∧ ((WireHdr.read packet).srcMac ≠ src ∨
      (view.expectedRoot ≠ 0 ∧ view.expectedRoot ≠ src)) then (n, .invalidArg)
  else
    match MeshNode.validatePacket packet with
    | none => (n, .invalidArg)
    | some (h, payload) =>
        if h.srcMac ≠ src then (n, .invalidArg)
        else if h.type = typePing then
          if h.payloadLen.toNat ≠ 8 ∨ !view.losslessNegotiated then (n, .invalidState)
          else if view.rootSession ≠ some (wordAt 4 payload 4) then (n, .invalidState)
          else n.sendPacket typePong payload false view
        else if h.type = typeAck then ((n.handleAck h view).1, .ok)
        else if h.type = typeNack then (n.handleNack h payload view, .ok)
        else if h.type = typeTunnelAck then (n.handleTunnelAck h payload view, .ok)
        else if h.type = typeTunnelNack then (n.handleTunnelNack h payload view, .ok)
        else if h.type = typeTunnelData then (n.handleTunnelData h payload view, .ok)
        else (n, .ok)

end KeemashCore.Tunnel
