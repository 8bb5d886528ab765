import KeemashCore.Mesh.TunnelSteps

/-!
# A node and its root over the tunnel profile

The two ends exchange packets over a network that may delay, drop, reorder and repeat them:
a packet that was handed to the transport can be received at any later time, any number of
times, or never.  The root serves other nodes too, whose packets it receives from other
addresses and which speak for themselves only.
-/

namespace KeemashCore.Tunnel

open LittleEndian Rel ReplayRing Relation MeshRoot

/-! ## The system -/

/-- The packet of an effect, when it is for the address. -/
def packetTo (mac : Mac) : RootEffect → Option (List UInt8)
  | .send dst packet => if dst = mac then some packet else none
  | _ => none

/-- The frame of an effect, when it is of the node's channel: number and payload. -/
def frameOn (mac : Mac) (channel : ℕ) : RootEffect → Option (ℕ × List UInt8)
  | .deliver t payload =>
      if t.originMac = mac ∧ t.channelId.toNat = channel then some (t.seq.toNat, payload)
      else none
  | _ => none

/-- The packets that the root handed to the transport for an address. -/
def sendsTo (mac : Mac) (r : TunnelRoot) : List (List UInt8) :=
  r.trace.filterMap (packetTo mac)

/-- The frames of a node that the root handed on from a channel. -/
def delivered (mac : Mac) (channel : ℕ) (r : TunnelRoot) : List (ℕ × List UInt8) :=
  r.trace.filterMap (frameOn mac channel)

/-- The two ends. -/
structure World where
  node : TunnelNode
  root : TunnelRoot

/-- One step of the two ends. -/
inductive Action where
  /-- The node sends a payload. -/
  | send (recovers : Bool) (channel : ℕ) (inner : List UInt8) (view : NodeView)
  /-- `mesh_v2_node_kick_root`. -/
  | kick (view : NodeView)
  /-- `mesh_v2_node_force_hello` or `mesh_v2_node_on_mesh_connected`. -/
  | hello (resetSession : Bool) (view : NodeView)
  /-- `mesh_v2_node_on_mesh_disconnected`. -/
  | disconnected
  /-- The node receives one of the packets that the root sent to it. -/
  | nodeHears (index : ℕ) (view : NodeView)
  /-- The root receives one of the packets that the node sent. -/
  | rootHears (index : ℕ) (view : RootView)
  /-- The root receives a packet from another address. -/
  | rootHearsOther (src : Mac) (packet : List UInt8) (view : RootView)
  | logCtrl (relErr : EspErr) (mac : Mac) (enable : Bool)
  | taskRequest (relErr : EspErr) (mac : Mac) (requestId : U32)

def World.step (w : World) : Action → World
  | .send recovers channel inner view =>
      { w with node := (w.node.sendPayload recovers channel inner view).1 }
  | .kick view => { w with node := w.node.recoverRootLinkIfNeeded view }
  | .hello resetSession view => { w with node := (w.node.sendHello resetSession view).1 }
  | .disconnected => { w with node := { w.node with rootReady := false, lastAckMs := 0 } }
  | .nodeHears index view =>
      match (sendsTo w.node.localMac w.root)[index]? with
      | none => w
      | some packet =>
          { w with node := (w.node.handleRx w.root.localMac packet view).1 }
  | .rootHears index view =>
      match w.node.sends[index]? with
      | none => w
      | some packet => { w with root := (w.root.handleRx w.node.localMac packet view).1 }
  | .rootHearsOther src packet view =>
      { w with root := (w.root.handleRx src packet view).1 }
  | .logCtrl relErr mac enable => { w with root := (w.root.sendLogCtrl relErr mac enable).1 }
  | .taskRequest relErr mac requestId =>
      { w with root := (w.root.sendTaskRequest relErr mac requestId).1 }

/-- A packet of another address speaks for its own node only. -/
def speaksFor (mac : Mac) (packet : List UInt8) : Prop :=
  ∃ h payload, packetValid packet = some (h, payload) ∧
    (h.type = typeTunnelData ∧ (TunnelHdr.read payload).originMac = mac ∨
      h.type = typeTunnelLost ∧ (TunnelMiss.read payload).originMac = mac)

/-- The step leaves the session alone: the node starts no new one, and the root takes up no
HELLO of the node, which would make it start over with the session that it has. -/
def World.Keeps (w : World) : Action → Prop
  | .send _ _ _ view => w.node.restarts view = false
  | .kick view => w.node.restarts view = false
  | .hello resetSession _ => resetSession = false
  | .disconnected => True
  | .nodeHears _ view => w.node.restarts view = false
  | .rootHears index _ =>
      ∀ packet ∈ w.node.sends[index]?, (WireHdr.read packet).type ≠ typeHello
  | .rootHearsOther src packet _ =>
      src ≠ w.node.localMac ∧ ¬speaksFor w.node.localMac packet
  | .logCtrl _ _ _ => True
  | .taskRequest _ _ _ => True

/-- The states reached within a session, each of which meets `P`. -/
inductive World.Reach (P : World → Prop) (w₀ : World) : World → Prop where
  | start : World.Reach P w₀ w₀
  | step {w : World} (h : World.Reach P w₀ w) (a : Action) (hkeeps : w.Keeps a)
      (hP : P (w.step a)) : World.Reach P w₀ (w.step a)

/-! ## The node's end in a session -/

/-- The frames of a channel with these payloads. -/
def framesOf (mac : Mac) (session : U32) (channel : ℕ) (inners : List (List UInt8)) :
    List (List UInt8) :=
  inners.mapIdx fun i inner => framePacket mac session
    (frameHdr mac channel (BitVec.ofNat 32 (i + 1)) inner.length) inner

/-- What a packet of the node can be, when `gone` says which numbers may be given up. -/
inductive Honest (mac : Mac) (session : U32) (inners : ℕ → List (List UInt8))
    (gone : ℕ → ℕ → Prop) (packet : List UInt8) : Prop where
  | quiet (h : quietPacket packet = true)
  | frame {channel : ℕ} {seq : U32} (flags : BitVec 8) {inner : List UInt8}
      (hchannel : noChannel channel = false) (hlen : inner.length ≤ tunnelInnerMax)
      (hinner : numbered (inners channel) seq.toNat = some inner)
      (hpacket : packet = framePacket mac session
        { frameHdr mac channel seq inner.length with flags := flags } inner)
  | lost {channel : BitVec 8} {missingSeq : U32}
      (hgone : noChannel channel.toNat = false → gone channel.toNat missingSeq.toNat)
      (hpacket : packet = lostPacket mac session channel missingSeq)

/-- The node's end in a session: what the channels keep and what was sent. -/
structure NodeOk (mac : Mac) (session : U32) (bound : ℕ → ℕ) (gone : ℕ → ℕ → Prop)
    (n : TunnelNode) : Prop where
  localMac : n.localMac = mac
  sessionId : n.sessionId = session
  idle : ∀ seq, lookup n.ring seq = none
  number : ∀ channel, noChannel channel = false →
    (n.number channel).toNat = (n.inners channel).length + 1
  size : ∀ channel, noChannel channel = false →
    (n.tunnelTx channel).ring.length = tunnelReplayRingSize
  short : ∀ channel, ∀ inner ∈ n.inners channel, inner.length ≤ tunnelInnerMax
  holds : ∀ channel, noChannel channel = false → ∃ released ≤ bound channel,
    Holds (framesOf mac session channel (n.inners channel)) released
      (n.tunnelTx channel).ring
  sends : ∀ packet ∈ n.sends, Honest mac session n.inners gone packet

section Node

variable {mac : Mac} {session : U32} {bound : ℕ → ℕ} {gone : ℕ → ℕ → Prop}
  {n n' : TunnelNode} {request : Request} {channel : ℕ}

@[simp] theorem length_framesOf (inners : List (List UInt8)) :
    (framesOf mac session channel inners).length = inners.length :=
  List.length_mapIdx

theorem framesOf_snoc (inners : List (List UInt8)) (inner : List UInt8) :
    framesOf mac session channel (inners ++ [inner]) =
      framesOf mac session channel inners ++ [framePacket mac session
        (frameHdr mac channel (BitVec.ofNat 32 (inners.length + 1)) inner.length) inner] := by
  rw [framesOf, List.mapIdx_append, framesOf]
  simp

theorem numbered_framesOf (inners : List (List UInt8)) (seq : ℕ) :
    numbered (framesOf mac session channel inners) seq =
      (numbered inners seq).map fun inner => framePacket mac session
        (frameHdr mac channel (BitVec.ofNat 32 seq) inner.length) inner := by
  rw [numbered, numbered]
  split
  · rfl
  · next hseq =>
      rw [framesOf, List.getElem?_mapIdx, Nat.sub_add_cancel (Nat.pos_of_ne_zero hseq)]

theorem Honest.mono {inners inners' : ℕ → List (List UInt8)} {gone' : ℕ → ℕ → Prop}
    {packet : List UInt8} (h : Honest mac session inners gone packet)
    (hinners : ∀ ch, inners ch <+: inners' ch) (hgone : ∀ ch m, gone ch m → gone' ch m) :
    Honest mac session inners' gone' packet := by
  cases h with
  | quiet h => exact .quiet h
  | @frame ch seq flags inner hchannel hlen hinner hpacket =>
      refine .frame flags hchannel hlen ?_ hpacket
      obtain ⟨more, hmore⟩ := hinners ch
      rw [numbered] at hinner ⊢
      split at hinner
      · simp at hinner
      · next hseq =>
          rw [if_neg hseq, ← hmore, List.getElem?_append_left, hinner]
          exact (List.getElem?_eq_some_iff.mp hinner).1
  | lost hlost hpacket => exact .lost (fun hch => hgone _ _ (hlost hch)) hpacket

theorem inners_quiet (h : Quiet n n') : n'.inners = n.inners := by
  obtain ⟨new, hnew, hquiet⟩ := h.trace
  funext ch
  rw [TunnelNode.inners, hnew, List.filterMap_append, List.append_right_eq_self.mpr]
  · rfl
  · rw [List.filterMap_eq_nil_iff]
    intro e he
    have hq := hquiet e he
    cases e with
    | queued _ _ => simp [NodeEffect.isQuiet] at hq
    | _ => rfl

theorem sends_quiet (h : Quiet n n') {packet : List UInt8} (hmem : packet ∈ n'.sends) :
    packet ∈ n.sends ∨ quietPacket packet = true := by
  obtain ⟨new, hnew, hquiet⟩ := h.trace
  rw [TunnelNode.sends, hnew, List.filterMap_append, List.mem_append] at hmem
  refine hmem.imp_right fun hmem => ?_
  obtain ⟨e, he, hpacket⟩ := List.mem_filterMap.mp hmem
  have hq := hquiet e he
  cases e with
  | send p =>
      obtain rfl := Option.some.inj hpacket
      exact hq
  | _ => simp [NodeEffect.packet?] at hpacket

theorem NodeOk.mono {bound' : ℕ → ℕ} {gone' : ℕ → ℕ → Prop}
    (h : NodeOk mac session bound gone n) (hbound : ∀ ch, bound ch ≤ bound' ch)
    (hgone : ∀ ch m, gone ch m → gone' ch m) : NodeOk mac session bound' gone' n where
  localMac := h.localMac
  sessionId := h.sessionId
  idle := h.idle
  number := h.number
  size := h.size
  short := h.short
  holds ch hch := by
    obtain ⟨released, hle, hholds⟩ := h.holds ch hch
    exact ⟨released, hle.trans (hbound ch), hholds⟩
  sends packet hmem := (h.sends packet hmem).mono (fun _ => List.prefix_rfl) hgone

theorem NodeOk.quiet (h : NodeOk mac session bound gone n) (hquiet : Quiet n n') :
    NodeOk mac session bound gone n' where
  localMac := hquiet.mac.trans h.localMac
  sessionId := hquiet.session.trans h.sessionId
  idle seq := hquiet.ring seq (h.idle seq)
  number ch hch := by
    rw [TunnelNode.number, hquiet.tx, inners_quiet hquiet]
    exact h.number ch hch
  size ch hch := by
    rw [hquiet.tx]
    exact h.size ch hch
  short ch := by
    rw [inners_quiet hquiet]
    exact h.short ch
  holds ch hch := by
    rw [hquiet.tx, inners_quiet hquiet]
    exact h.holds ch hch
  sends packet hmem := by
    rw [inners_quiet hquiet]
    exact (sends_quiet hquiet hmem).elim (h.sends packet) .quiet

/-- The next frame of a channel is kept and sent. -/
theorem NodeOk.queue (h : NodeOk mac session bound gone n) {inner : List UInt8}
    (hchannel : noChannel channel = false) (hlen : inner.length ≤ tunnelInnerMax)
    (hroom : (n.inners channel).length + 1 < 2 ^ 32 - 1) {packet : List UInt8}
    (hpacket : packet = framePacket n.localMac n.sessionId
      (frameHdr n.localMac channel (n.number channel) inner.length) inner) :
    NodeOk mac session bound gone (((n.setTx channel
      { nextSeq := n.number channel + 1
        ring := store (n.tunnelTx channel).ring (n.number channel).toNat packet }).emit
      (.queued channel inner)).emit (.send packet)) := by
  have hnumber := h.number channel hchannel
  have hsize := h.size channel hchannel
  have hring : tunnelReplayRingSize = 8 := rfl
  generalize htx : TunnelTxChannel.mk (n.number channel + 1)
    (store (n.tunnelTx channel).ring (n.number channel).toNat packet) = tx
  have hseq : n.number channel = BitVec.ofNat 32 ((n.inners channel).length + 1) := by
    apply BitVec.eq_of_toNat_eq
    rw [hnumber, BitVec.toNat_ofNat, Nat.mod_eq_of_lt (by omega)]
  have hinners (ch : ℕ) : (((n.setTx channel tx).emit (.queued channel inner)).emit
      (.send packet)).inners ch =
        if ch = channel then n.inners ch ++ [inner] else n.inners ch := by
    rw [TunnelNode.inners_emit_send, TunnelNode.inners_emit_queued]
    rfl
  refine ⟨h.localMac, h.sessionId, h.idle, fun ch hch => ?_, fun ch hch => ?_, fun ch => ?_,
    fun ch hch => ?_, fun sent hsent => ?_⟩
  · rw [hinners]
    change ((n.setTx channel tx).tunnelTx ch).nextSeq.toNat = _
    rw [TunnelNode.tunnelTx_setTx]
    split
    · next heq =>
        subst heq
        have hone : (1 : U32).toNat = 1 := rfl
        rw [← htx, List.length_append, List.length_singleton, BitVec.toNat_add, hnumber, hone]
        exact Nat.mod_eq_of_lt (by omega)
    · exact h.number ch hch
  · change ((n.setTx channel tx).tunnelTx ch).ring.length = _
    rw [TunnelNode.tunnelTx_setTx]
    split
    · rw [← htx, length_store, hsize]
    · exact h.size ch hch
  · rw [hinners]
    split
    · intro i hi
      rw [List.mem_append, List.mem_singleton] at hi
      rcases hi with hi | rfl
      · exact h.short ch i hi
      · exact hlen
    · exact h.short ch
  · rw [hinners]
    change ∃ released ≤ _, Holds _ released ((n.setTx channel tx).tunnelTx ch).ring
    rw [TunnelNode.tunnelTx_setTx]
    split
    · next heq =>
        subst heq
        obtain ⟨released, hle, hholds⟩ := h.holds ch hchannel
        refine ⟨released, hle, ?_⟩
        have hstored := hholds.store (by rw [hsize]; omega) packet
        rw [length_framesOf] at hstored
        rw [← htx, framesOf_snoc, hnumber]
        rw [hpacket, h.localMac, h.sessionId, hseq] at hstored ⊢
        exact hstored
    · exact h.holds ch hch
  · rw [TunnelNode.sends_emit_send, TunnelNode.sends_emit_queued, List.mem_append,
      List.mem_singleton] at hsent
    rcases hsent with hsent | rfl
    · refine (h.sends sent hsent).mono (fun ch => ?_) fun _ _ hgone => hgone
      rw [hinners]
      split
      · exact List.prefix_append _ _
      · exact List.prefix_rfl
    · rw [h.localMac, h.sessionId] at hpacket
      refine .frame ackFlags hchannel hlen ?_ hpacket
      rw [hinners, if_pos rfl]
      exact numbered_snoc.trans (if_pos hnumber)

/-- Frames of a channel are released. -/
theorem NodeOk.release (h : NodeOk mac session bound gone n) {ackSeq : U32}
    (hack : noChannel channel = false →
      min ackSeq.toNat (n.inners channel).length ≤ bound channel) :
    NodeOk mac session bound gone (n.setTx channel
      { n.tunnelTx channel with
        ring := ReplayRing.release (n.tunnelTx channel).ring ackSeq.toNat }) := by
  refine ⟨h.localMac, h.sessionId, h.idle, fun ch hch => ?_, fun ch hch => ?_, h.short,
    fun ch hch => ?_, h.sends⟩
  · rw [TunnelNode.number, TunnelNode.tunnelTx_setTx]
    split
    · next heq =>
        subst heq
        exact h.number ch hch
    · exact h.number ch hch
  · rw [TunnelNode.tunnelTx_setTx]
    split
    · next heq =>
        subst heq
        rw [length_release]
        exact h.size ch hch
    · exact h.size ch hch
  · rw [TunnelNode.tunnelTx_setTx]
    split
    · next heq =>
        subst heq
        obtain ⟨released, hle, hholds⟩ := h.holds ch hch
        refine ⟨_, ?_, hholds.release ackSeq.toNat⟩
        rw [length_framesOf]
        exact max_le hle (hack hch)
    · exact h.holds ch hch

/-- One more packet is sent. -/
theorem NodeOk.emit (h : NodeOk mac session bound gone n) {packet : List UInt8}
    (hpacket : Honest mac session n.inners gone packet) :
    NodeOk mac session bound gone (n.emit (.send packet)) := by
  have hinners : (n.emit (.send packet)).inners = n.inners :=
    funext fun ch => n.inners_emit_send packet ch
  refine ⟨h.localMac, h.sessionId, h.idle, fun ch hch => ?_, h.size, fun ch => ?_,
    fun ch hch => ?_, fun sent hsent => ?_⟩
  · rw [hinners]
    exact h.number ch hch
  · rw [hinners]
    exact h.short ch
  · rw [hinners]
    exact h.holds ch hch
  · rw [hinners]
    rw [TunnelNode.sends_emit_send, List.mem_append, List.mem_singleton] at hsent
    rcases hsent with hsent | rfl
    · exact h.sends sent hsent
    · exact hpacket

/-- A kept frame, marked. -/
theorem NodeOk.kept (h : NodeOk mac session bound gone n) {seq : U32}
    (hchannel : noChannel channel = false) {packet : List UInt8}
    (hfound : lookup (n.tunnelTx channel).ring seq.toNat = some packet) :
    ∃ inner, numbered (n.inners channel) seq.toNat = some inner ∧
      inner.length ≤ tunnelInnerMax ∧
      replayTunnelPacket packet = framePacket mac session
        { frameHdr mac channel seq inner.length with flags := ackFlags ||| replayFlag }
        inner := by
  obtain ⟨released, -, hholds⟩ := h.holds channel hchannel
  have hnumbered := (hholds.sound hfound).1
  rw [numbered_framesOf, Option.map_eq_some_iff] at hnumbered
  obtain ⟨inner, hinner, hpacket⟩ := hnumbered
  have hseq : BitVec.ofNat 32 seq.toNat = seq := by
    rw [BitVec.ofNat_toNat, BitVec.setWidth_eq]
  rw [hseq] at hpacket
  refine ⟨inner, hinner, h.short channel inner (numbered_mem hinner), ?_⟩
  rw [← hpacket, framePacket, replayTunnelPacket_sealPacket, framePacket]
  simp only [List.length_append, TunnelHdr.length_bytes]
  rfl

/-- A kept frame that is marked and sent again is a frame. -/
theorem NodeOk.replay (h : NodeOk mac session bound gone n) {seq : U32}
    (hchannel : noChannel channel = false) {packet : List UInt8}
    (hfound : lookup (n.tunnelTx channel).ring seq.toNat = some packet) :
    Honest mac session n.inners gone (replayTunnelPacket packet) := by
  obtain ⟨inner, hinner, hlen, hpacket⟩ := h.kept hchannel hfound
  exact .frame _ hchannel hlen hinner hpacket

/-- What is not found was released or displaced. -/
theorem NodeOk.missing (h : NodeOk mac session bound gone n) {seq : ℕ}
    (hchannel : noChannel channel = false)
    (hnone : lookup (n.tunnelTx channel).ring seq = none)
    (hsent : seq ≤ (n.inners channel).length) :
    seq ≤ bound channel ∨ seq + tunnelReplayRingSize ≤ (n.inners channel).length := by
  obtain ⟨released, hle, hholds⟩ := h.holds channel hchannel
  by_contra hnot
  push Not at hnot
  rw [hholds.found (by omega) (by rw [length_framesOf, h.size channel hchannel]; omega),
    numbered_eq_none, length_framesOf] at hnone
  omega

/-- What handling a packet with this request may rely on. -/
structure Request.Fair (request : Request) (bound : ℕ → ℕ) (gone : ℕ → ℕ → Prop)
    (inners : ℕ → List (List UInt8)) : Prop where
  ack : ∀ {channel ackSeq}, request = .ack channel ackSeq → noChannel channel = false →
    min ackSeq.toNat (inners channel).length ≤ bound channel
  sent : ∀ {channel missingSeq}, request = .nack channel missingSeq →
    noChannel channel.toNat = false → missingSeq.toNat ≤ (inners channel.toNat).length
  gone : ∀ {channel missingSeq}, request = .nack channel missingSeq →
    noChannel channel.toNat = false → (missingSeq.toNat ≤ bound channel.toNat ∨
      missingSeq.toNat + tunnelReplayRingSize ≤ (inners channel.toNat).length) →
    gone channel.toNat missingSeq.toNat

theorem Request.fair_nothing {inners : ℕ → List (List UInt8)} :
    Request.Fair .nothing bound gone inners where
  ack h := by simp at h
  sent h := by simp at h
  gone h := by simp at h

/-- A step keeps the node's end in order. -/
theorem NodeStep.ok (hstep : NodeStep request n n') (h : NodeOk mac session bound gone n)
    (hfair : request.Fair bound gone n.inners)
    (hroom : ∀ ch, noChannel ch = false → (n'.inners ch).length < 2 ^ 32 - 1) :
    NodeOk mac session bound gone n' ∧ (request ≠ .nothing → n'.inners = n.inners) := by
  have hemit (packet : List UInt8) : (n.emit (.send packet)).inners = n.inners :=
    funext fun ch => n.inners_emit_send packet ch
  cases hstep with
  | quiet hquiet => exact ⟨h.quiet hquiet, fun _ => inners_quiet hquiet⟩
  | @queue channel inner hasks hchannel hlen packet hpacket =>
      refine ⟨h.queue hchannel hlen ?_ hpacket, fun hne => absurd hasks hne⟩
      have hgrown := hroom channel hchannel
      rw [TunnelNode.inners_emit_send, TunnelNode.inners_emit_queued, if_pos rfl,
        List.length_append] at hgrown
      exact hgrown
  | release hasks => exact ⟨h.release (hfair.ack hasks), fun _ => rfl⟩
  | replay hasks hchannel hfound =>
      exact ⟨h.emit (h.replay hchannel hfound), fun _ => hemit _⟩
  | @lose channel missingSeq hasks hgone =>
      refine ⟨h.emit ?_, fun _ => hemit _⟩
      rw [h.localMac, h.sessionId]
      refine .lost (fun hchannel => ?_) rfl
      have hnone := hgone.resolve_left (by rw [hchannel]; exact Bool.false_ne_true)
      exact hfair.gone hasks hchannel (h.missing hchannel hnone (hfair.sent hasks hchannel))

end Node

end KeemashCore.Tunnel
