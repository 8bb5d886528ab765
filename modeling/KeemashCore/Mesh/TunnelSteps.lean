import KeemashCore.Mesh.TunnelRoot
import Mathlib.Logic.Relation

/-!
# The steps of the node's end

What an operation of the node can do to the tx channels and what it can send, in steps: it
keeps a new frame and sends it, releases frames, sends a kept frame again, gives a number
up, or does something else, which touches no tx channel and sends neither a frame nor a
LOST packet of the tunnel.
-/

namespace KeemashCore.Tunnel

open LittleEndian Rel ReplayRing Relation

/-! ## What is sent -/

/-- The packet of an effect. -/
def NodeEffect.packet? : NodeEffect → Option (List UInt8)
  | .send packet => some packet
  | _ => none

/-- The payload that an effect keeps on a channel. -/
def NodeEffect.innerOn (channel : ℕ) : NodeEffect → Option (List UInt8)
  | .queued ch inner => if ch = channel then some inner else none
  | _ => none

/-- The packets that the node handed to the transport. -/
def TunnelNode.sends (n : TunnelNode) : List (List UInt8) :=
  n.trace.filterMap NodeEffect.packet?

/-- The payloads that were kept on a channel, in order. -/
def TunnelNode.inners (n : TunnelNode) (channel : ℕ) : List (List UInt8) :=
  n.trace.filterMap (NodeEffect.innerOn channel)

@[simp] theorem TunnelNode.inners_emit_send (n : TunnelNode) (packet : List UInt8)
    (channel : ℕ) : (n.emit (.send packet)).inners channel = n.inners channel := by
  rw [inners, emit, List.filterMap_append]
  exact List.append_nil _

theorem TunnelNode.inners_emit_queued (n : TunnelNode) (channel : ℕ) (inner : List UInt8)
    (ch : ℕ) : (n.emit (.queued channel inner)).inners ch =
      if ch = channel then n.inners ch ++ [inner] else n.inners ch := by
  rw [inners, emit, List.filterMap_append]
  by_cases hch : ch = channel
  · subst hch
    simp [NodeEffect.innerOn, inners]
  · have hne : ¬channel = ch := fun heq => hch heq.symm
    simp [NodeEffect.innerOn, inners, hch, hne]

theorem TunnelNode.sends_emit_send (n : TunnelNode) (packet : List UInt8) :
    (n.emit (.send packet)).sends = n.sends ++ [packet] := by
  rw [sends, emit, List.filterMap_append]
  rfl

theorem TunnelNode.sends_emit_queued (n : TunnelNode) (channel : ℕ) (inner : List UInt8) :
    (n.emit (.queued channel inner)).sends = n.sends := by
  rw [sends, emit, List.filterMap_append]
  exact List.append_nil _

/-- The packet is neither a frame nor a LOST packet of the tunnel, and no packet of the
numbered stream before it. -/
def quietPacket (packet : List UInt8) : Bool :=
  !([typeTunnelData, typeTunnelLost, typeNodeinfo, typeLogLine].contains
    (WireHdr.read packet).type)

/-- The effect keeps no frame, and what it sends is quiet. -/
def NodeEffect.isQuiet : NodeEffect → Bool
  | .send packet => quietPacket packet
  | .queued _ _ => false
  | _ => true

theorem quietPacket_sealPacket (h : WireHdr) (payload : List UInt8) :
    quietPacket (sealPacket h payload) =
      !([typeTunnelData, typeTunnelLost, typeNodeinfo, typeLogLine].contains h.type) := by
  rw [quietPacket, read_sealPacket]

/-- The LOST packet of `send_tunnel_lost`. -/
def lostPacket (localMac : Mac) (sessionId : U32) (channel : BitVec 8) (missingSeq : U32) :
    List UInt8 :=
  let p : TunnelMiss :=
    { channelId := channel, missingSeq := missingSeq, originMac := localMac, targetMac := 0 }
  sealPacket (packetHdr localMac typeTunnelLost sessionId 0 0 p.bytes.length) p.bytes

/-! ## Steps -/

/-- The tx channels stay, nothing is kept, and what is sent is quiet. -/
structure Quiet (n n' : TunnelNode) : Prop where
  mac : n'.localMac = n.localMac
  session : n'.sessionId = n.sessionId
  ring : ∀ seq, lookup n.ring seq = none → lookup n'.ring seq = none
  tx : n'.tunnelTx = n.tunnelTx
  trace : ∃ new, n'.trace = n.trace ++ new ∧ ∀ e ∈ new, e.isQuiet = true

section Quiet

variable {n n' : TunnelNode}

theorem Quiet.refl (n : TunnelNode) : Quiet n n where
  mac := rfl
  session := rfl
  ring := fun _ h => h
  tx := rfl
  trace := ⟨[], (List.append_nil _).symm, by simp⟩

theorem Quiet.trans {n'' : TunnelNode} (h : Quiet n n') (h' : Quiet n' n'') :
    Quiet n n'' := by
  obtain ⟨new, hnew, hquiet⟩ := h.trace
  obtain ⟨new', hnew', hquiet'⟩ := h'.trace
  refine ⟨h'.mac.trans h.mac, h'.session.trans h.session,
    fun seq hseq => h'.ring seq (h.ring seq hseq), h'.tx.trans h.tx, new ++ new', ?_, ?_⟩
  · rw [hnew', hnew, List.append_assoc]
  · intro e he
    exact (List.mem_append.mp he).elim (hquiet e) (hquiet' e)

theorem Quiet.emit (h : Quiet n n') {e : NodeEffect} (he : e.isQuiet = true) :
    Quiet n (n'.emit e) := by
  refine h.trans ⟨rfl, rfl, fun _ h => h, rfl, [e], rfl, fun e' hmem => ?_⟩
  rw [List.mem_singleton.mp hmem]
  exact he

/-- A packet that is not numbered, of a type that is not one of the streams. -/
theorem Quiet.sendPacket (h : Quiet n n') {type : BitVec 8} {payload : List UInt8}
    {view : NodeView}
    (htype : [typeTunnelData, typeTunnelLost, typeNodeinfo, typeLogLine].contains type =
      false) : Quiet n (n'.sendPacket type payload false view).1 := by
  rw [TunnelNode.sendPacket]
  split
  · exact h
  · rw [if_neg (by simp), if_neg (by simp)]
    refine h.emit (e := .send _) ?_
    rw [NodeEffect.isQuiet, quietPacket_sealPacket]
    simp only [packetHdr, plainHdr, htype, Bool.not_false]

theorem Quiet.deliverTunnelPayload (h : Quiet n n') {t : TunnelHdr} {payload : List UInt8} :
    Quiet n (n'.deliverTunnelPayload t payload) := by
  have hdeliver : Quiet n (n'.emit (.deliver t payload)) := h.emit rfl
  simp only [TunnelNode.deliverTunnelPayload]
  split
  · split
    · exact hdeliver
    · exact hdeliver.emit rfl
  · split
    · exact hdeliver
    · split
      · exact hdeliver
      · exact hdeliver.emit rfl

end Quiet

/-- The operation may start a new session. -/
def TunnelNode.restarts (n : TunnelNode) (view : NodeView) : Bool :=
  !view.relFresh && n.helloDue view && n.ackStale view && !view.otaActive

/-- What a packet asks of the node's tx channels; a packet that asks nothing stands for the
node's own calls too. -/
inductive Request where
  | ack (channel : ℕ) (ackSeq : U32)
  | nack (channel : BitVec 8) (missingSeq : U32)
  | nothing

/-- What the node reads from a packet. -/
def requestOf (h : WireHdr) (payload : List UInt8) : Request :=
  if h.type = typeTunnelAck then
    let p := TunnelAck.read payload
    .ack p.channelId.toNat p.ackSeq
  else if h.type = typeTunnelNack then
    let p := TunnelMiss.read payload
    .nack p.channelId p.missingSeq
  else .nothing

/-- One step of the node's end, while a packet with this request is handled. -/
inductive NodeStep (request : Request) (n : TunnelNode) : TunnelNode → Prop where
  | quiet {n' : TunnelNode} (h : Quiet n n') : NodeStep request n n'
  /-- A frame is numbered, kept and sent. -/
  | queue {channel : ℕ} {inner : List UInt8} (hasks : request = .nothing)
      (hchannel : noChannel channel = false)
      (hlen : inner.length ≤ tunnelInnerMax) {packet : List UInt8}
      (hpacket : packet = framePacket n.localMac n.sessionId
        (frameHdr n.localMac channel (n.number channel) inner.length) inner) :
      NodeStep request n (((n.setTx channel
        { nextSeq := n.number channel + 1
          ring := store (n.tunnelTx channel).ring (n.number channel).toNat packet }).emit
        (.queued channel inner)).emit (.send packet))
  /-- Frames are released. -/
  | release {channel : ℕ} {ackSeq : U32} (hasks : request = .ack channel ackSeq) :
      NodeStep request n (n.setTx channel
        { n.tunnelTx channel with
          ring := ReplayRing.release (n.tunnelTx channel).ring ackSeq.toNat })
  /-- A kept frame is sent again. -/
  | replay {channel : BitVec 8} {missingSeq : U32} (hasks : request = .nack channel missingSeq)
      (hchannel : noChannel channel.toNat = false) {packet : List UInt8}
      (hfound : lookup (n.tunnelTx channel.toNat).ring missingSeq.toNat = some packet) :
      NodeStep request n (n.emit (.send (replayTunnelPacket packet)))
  /-- A number is given up. -/
  | lose {channel : BitVec 8} {missingSeq : U32} (hasks : request = .nack channel missingSeq)
      (hgone : noChannel channel.toNat = true ∨
        lookup (n.tunnelTx channel.toNat).ring missingSeq.toNat = none) :
      NodeStep request n
        (n.emit (.send (lostPacket n.localMac n.sessionId channel missingSeq)))

/-- The node's end went from `n` to `n'` in steps. -/
def NodeRun (request : Request) (n n' : TunnelNode) : Prop :=
  ReflTransGen (NodeStep request) n n'

section NodeRun

variable {request : Request} {n n' : TunnelNode} {view : NodeView}

theorem Quiet.run (h : Quiet n n') : NodeRun request n n' :=
  .single (.quiet h)

theorem NodeRun.quiet (h : NodeRun request n n') {n'' : TunnelNode} (hquiet : Quiet n' n'') :
    NodeRun request n n'' :=
  h.tail (.quiet hquiet)

/-- A HELLO in the same session. -/
theorem quiet_sendHello (n : TunnelNode) (view : NodeView) :
    Quiet n (n.sendHello false view).1 := by
  have hset : Quiet n { n with lastHelloMs := view.now } :=
    ⟨rfl, rfl, fun _ h => h, rfl, [], (List.append_nil _).symm, by simp⟩
  have hsent : Quiet n
      ({ n with lastHelloMs := view.now }.sendPacket typeHello view.helloPayload false view).1 :=
    hset.sendPacket rfl
  simp only [TunnelNode.sendHello, Bool.false_eq_true, if_false]
  split
  · exact hsent
  · exact hsent

/-- A HELLO of the recovery keeps the session. -/
theorem hello_keeps (hkeeps : n.restarts view = false) (hfresh : ¬view.relFresh = true)
    (hdue : n.helloDue view = true) : (n.ackStale view && !view.otaActive) = false := by
  rw [Bool.not_eq_true] at hfresh
  simpa [TunnelNode.restarts, hfresh, hdue] using hkeeps

theorem quiet_recover (hkeeps : n.restarts view = false) :
    Quiet n (n.recoverRootLinkIfNeeded view) := by
  rw [TunnelNode.recoverRootLinkIfNeeded]
  split
  · exact .refl n
  · next hfresh =>
      split
      · next hdue =>
          rw [hello_keeps hkeeps hfresh hdue.1]
          exact quiet_sendHello n view
      · exact .refl n

theorem nodeRun_sendTunnelPacket (n : TunnelNode) (channel : ℕ) (inner : List UInt8)
    (view : NodeView) : NodeRun .nothing n (n.sendTunnelPacket channel inner true view).1 := by
  simp only [TunnelNode.sendTunnelPacket]
  split
  · exact .refl
  · next hbad =>
      push Not at hbad
      split
      · exact .refl
      · simp only [if_true]
        exact .single (.queue rfl (Bool.eq_false_iff.mpr hbad.1) hbad.2.1 rfl)

theorem nodeRun_sendPayload (hkeeps : n.restarts view = false) (recovers : Bool)
    (channel : ℕ) (inner : List UInt8) :
    NodeRun .nothing n (n.sendPayload recovers channel inner view).1 := by
  simp only [TunnelNode.sendPayload]
  refine ReflTransGen.trans ?_ (nodeRun_sendTunnelPacket _ channel inner view)
  split
  · exact (quiet_recover hkeeps).run
  · exact .refl

theorem nodeRun_sendTunnelLost {channel : BitVec 8} {missingSeq : U32}
    (h : NodeRun (.nack channel missingSeq) n n')
    (hgone : noChannel channel.toNat = true ∨
      lookup (n'.tunnelTx channel.toNat).ring missingSeq.toNat = none) :
    NodeRun (.nack channel missingSeq) n (n'.sendTunnelLost channel missingSeq view) := by
  have hmax : payloadMax = 192 := rfl
  have hsize : tunnelMissSize = 20 := rfl
  simp only [TunnelNode.sendTunnelLost, TunnelNode.sendPacket]
  rw [if_neg (by rw [TunnelMiss.length_bytes]; omega), if_neg (by simp), if_neg (by simp)]
  exact h.tail (.lose rfl hgone)

end NodeRun

/-! ## The handlers in steps -/

section Handlers

variable {n : TunnelNode} {h : WireHdr} {payload : List UInt8} {view : NodeView}

theorem nodeRun_handleTunnelAck :
    NodeRun (.ack (TunnelAck.read payload).channelId.toNat (TunnelAck.read payload).ackSeq) n
      (n.handleTunnelAck h payload view) := by
  simp only [TunnelNode.handleTunnelAck]
  split
  · exact .refl
  · split
    · exact .refl
    · split
      · refine NodeRun.quiet (.single (.release rfl)) ?_
        exact ⟨rfl, rfl, fun _ h => h, rfl, [], (List.append_nil _).symm, by simp⟩
      · exact .refl

theorem nodeRun_handleTunnelNack (hsession : h.sessionId = n.sessionId) :
    NodeRun (.nack (TunnelMiss.read payload).channelId (TunnelMiss.read payload).missingSeq) n
      (n.handleTunnelNack h payload view) := by
  simp only [TunnelNode.handleTunnelNack]
  split
  · exact .refl
  · have hready : Quiet n { n with rootReady := true, lastAckMs := view.now } :=
      ⟨rfl, rfl, fun _ h => h, rfl, [], (List.append_nil _).symm, by simp⟩
    split
    · next packet hfound =>
        have hcount : Quiet n { n with
            rootReady := true
            lastAckMs := view.now
            tunnelReplayCount := n.tunnelReplayCount + 1 } :=
          hready.trans ⟨rfl, rfl, fun _ h => h, rfl, [], (List.append_nil _).symm, by simp⟩
        rw [TunnelNode.tunnelRingCopy] at hfound
        split at hfound
        · simp at hfound
        · next hchannel =>
            rw [Bool.not_eq_true] at hchannel
            exact (hcount.run).tail (.replay rfl hchannel hfound)
    · next hnone =>
        have hcount : Quiet n { n with
            rootReady := true
            lastAckMs := view.now
            tunnelLostCount := n.tunnelLostCount + 1 } :=
          hready.trans ⟨rfl, rfl, fun _ h => h, rfl, [], (List.append_nil _).symm, by simp⟩
        apply nodeRun_sendTunnelLost hcount.run
        rw [TunnelNode.tunnelRingCopy] at hnone
        split at hnone
        · next hchannel => exact .inl hchannel
        · exact .inr hnone

theorem quiet_handleTunnelData (hkeeps : n.restarts view = false) :
    Quiet n (n.handleTunnelData h payload view) := by
  rw [TunnelNode.handleTunnelData]
  split
  · exact quiet_recover hkeeps
  · split
    · exact .refl n
    · next t inner _ =>
        have hset (rx : TunnelRxChannel) : Quiet n (n.setRx t.channelId.toNat rx) :=
          ⟨rfl, rfl, fun _ h => h, rfl, [], (List.append_nil _).symm, by simp⟩
        have hcount (rx : TunnelRxChannel) (count : U32) :
            Quiet n { n.setRx t.channelId.toNat rx with tunnelGapCount := count } :=
          ⟨rfl, rfl, fun _ h => h, rfl, [], (List.append_nil _).symm, by simp⟩
        have hnack (rx : TunnelRxChannel) (count missing : U32) : Quiet n
            ({ n.setRx t.channelId.toNat rx with
              tunnelGapCount := count }.sendTunnelNack t missing view) :=
          (hcount rx count).sendPacket rfl
        have hack (rx : TunnelRxChannel) (ackSeq : U32) : Quiet n
            ((n.setRx t.channelId.toNat rx).sendTunnelAck t ackSeq view) :=
          (hset rx).sendPacket rfl
        dsimp only
        split
        · split
          · exact (hnack _ _ _).deliverTunnelPayload
          · exact (hack _ _).deliverTunnelPayload
        · split
          · exact hnack _ _ _
          · exact hack _ _

theorem quiet_handleNack (hring : ∀ seq, lookup n.ring seq = none) :
    Quiet n (n.handleNack h payload view) := by
  have hlost (n' : TunnelNode) (hquiet : Quiet n n') (missing : U32) :
      Quiet n (n'.sendLost missing view) :=
    hquiet.sendPacket rfl
  simp only [TunnelNode.handleNack]
  split
  · exact .refl n
  · split
    · have hrelease (seq : ℕ) : lookup (release n.ring h.ackSeq.toNat) seq = none := by
        rw [lookup_release, hring, ite_self]
      have hreleased : Quiet n
          { n with rootReady := true, ring := release n.ring h.ackSeq.toNat } :=
        ⟨rfl, rfl, fun seq _ => hrelease seq, rfl, [], (List.append_nil _).symm, by simp⟩
      rw [hrelease]
      exact hlost _ hreleased _
    · exact hlost n (.refl n) _

theorem quiet_handleAck : Quiet n (n.handleAck h view).1 := by
  rw [TunnelNode.handleAck]
  split
  · refine ⟨rfl, rfl, fun seq hseq => ?_, rfl, [], (List.append_nil _).symm, by simp⟩
    rw [lookup_release, hseq, ite_self]
  · exact .refl n

/-- Handling a packet whose NACK, if it is one, is of the node's session. -/
theorem nodeRun_handleRx {src : Mac} {packet : List UInt8}
    (hvalid : packetValid packet = some (h, payload))
    (hring : ∀ seq, lookup n.ring seq = none)
    (hkeeps : h.type = typeTunnelData → n.restarts view = false)
    (hsession : h.type = typeTunnelNack → h.sessionId = n.sessionId) :
    NodeRun (requestOf h payload) n (n.handleRx src packet view).1 := by
  rw [TunnelNode.handleRx, MeshNode.validatePacket_eq, hvalid]
  split
  · exact .refl
  · dsimp only
    split
    · exact .refl
    · split
      · split
        · exact .refl
        · split
          · exact .refl
          · exact ((Quiet.refl n).sendPacket rfl).run
      · split
        · exact quiet_handleAck.run
        · split
          · exact (quiet_handleNack hring).run
          · split
            · next htype =>
                rw [requestOf, if_pos htype]
                exact nodeRun_handleTunnelAck
            · next hack =>
                split
                · next htype =>
                    rw [requestOf, if_neg hack, if_pos htype]
                    exact nodeRun_handleTunnelNack (hsession htype)
                · split
                  · next htype => exact (quiet_handleTunnelData (hkeeps htype)).run
                  · exact .refl

end Handlers

end KeemashCore.Tunnel
