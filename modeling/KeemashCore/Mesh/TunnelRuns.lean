import KeemashCore.Mesh.TunnelStream

/-!
# Runs over the tunnel profile

A session of a node and its root, from the HELLO on: every step keeps both ends in order.
What the root hands on from a channel is then read off the state that is reached.
-/

namespace KeemashCore.Tunnel

open LittleEndian Rel ReplayRing Relation MeshRoot

/-! ## The root hears a frame -/

/-- The ACK packet of a frame. -/
def ackPacket (localMac : Mac) (session : U32) (t : TunnelHdr) (ackSeq : U32) : List UInt8 :=
  sealPacket (packetHdr localMac typeTunnelAck session 0 0 (t.ack ackSeq).bytes.length)
    (t.ack ackSeq).bytes

/-- The NACK packet of a frame. -/
def nackPacket (localMac : Mac) (session : U32) (t : TunnelHdr) (missingSeq : U32) :
    List UInt8 :=
  sealPacket (packetHdr localMac typeTunnelNack session 0 0 (t.nack missingSeq).bytes.length)
    (t.nack missingSeq).bytes

section Hears

variable {mac : Mac} {session : U32} {channel : ℕ} {seq : U32} {flags : BitVec 8}
  {inner : List UInt8} {r : TunnelRoot} {t : TunnelHdr}

theorem noChannel_eq_false : noChannel channel = false ↔ 0 < channel ∧ channel ≤ 9 := by
  have hmax : tunnelChannelMax = 9 := rfl
  rw [noChannel, decide_eq_false_iff_not]
  omega

/-- The frame is for the root, whatever its address. -/
theorem frameFor_frameHdr (hchannel : noChannel channel = false)
    (hlen : inner.length ≤ tunnelInnerMax) (localMac : Mac)
    (ht : t = { frameHdr mac channel seq inner.length with flags := flags }) {h : WireHdr}
    (hh : h.payloadLen.toNat = tunnelHdrSize + inner.length) :
    frameFor localMac h (t.bytes ++ inner) = some (t, inner) := by
  have hmax : tunnelInnerMax = 156 := rfl
  have hch := noChannel_eq_false.mp hchannel
  have hid : t.channelId.toNat = channel := by
    rw [ht]
    exact Nat.mod_eq_of_lt (by omega)
  have hpayload : t.payloadLen.toNat = inner.length := by
    rw [ht]
    exact Nat.mod_eq_of_lt (by omega)
  have htarget : t.targetMac = 0 := by
    rw [ht]
    rfl
  simp only [frameFor, TunnelHdr.read_bytes]
  rw [hid, hpayload, hh, hchannel, htarget]
  rw [if_neg (by simp; omega), if_neg (by simp),
    List.drop_left' (TunnelHdr.length_bytes t)]

/-- A record of the session. -/
theorem tracked_self {n : NodeState} (h : n.sessionId = session) (k : ℕ) :
    n.tracked session k = some ((n.rx k).expectedSeq, (n.rx k).highestSeenSeq) :=
  if_pos h

theorem sessionId_adoptTunnel (session : U32) (t : TunnelHdr) (now : U32) (n : NodeState) :
    (NodeState.adoptTunnel session t now n).sessionId = session := by
  simp only [NodeState.adoptTunnel]
  split
  · assumption
  · split
    · rfl
    · rfl

theorem tracked_adoptTunnel (session : U32) (t : TunnelHdr) (now : U32) (n : NodeState) (k : ℕ) :
    (NodeState.adoptTunnel session t now n).tracked session k = some
      (if k = t.channelId.toNat then openedBy t.seq (n.tracked session k)
        else (n.tracked session k).getD (1, 0)) := by
  by_cases hsession : n.sessionId = session
  · have hkeep : NodeState.adoptTunnel session t now n = n := if_pos hsession
    rw [hkeep, tracked_self hsession, openedBy, Option.getD_some, Option.getD_some, ite_self]
  · have hnone : n.tracked session k = none := if_neg hsession
    rw [tracked_self (sessionId_adoptTunnel session t now n), hnone, openedBy, Option.getD_none,
      Option.getD_none]
    simp only [NodeState.adoptTunnel, hsession, if_false]
    split
    · rw [NodeState.rx_setRx]
      split
      · rfl
      · rfl
    · rw [ite_self]
      rfl

/-- What the root decides depends on the channel alone. -/
theorem judgeTunnel_eq (session : U32) (t : TunnelHdr) (now : U32) (n : NodeState) :
    NodeState.judgeTunnel session t now n =
      judge (openedBy t.seq (n.tracked session t.channelId.toNat)).1
        (openedBy t.seq (n.tracked session t.channelId.toNat)).2 t.seq := by
  have htracked := tracked_adoptTunnel session t now n t.channelId.toNat
  rw [tracked_self (sessionId_adoptTunnel session t now n), if_pos rfl, Option.some.injEq] at htracked
  rw [← htracked]
  rfl

theorem tracked_tunnelData (session : U32) (t : TunnelHdr) (now : U32) (n : NodeState) (k : ℕ) :
    (NodeState.tunnelData session t now n).tracked session k = some
      (if k = t.channelId.toNat then
        ((NodeState.judgeTunnel session t now n).expectedSeq,
          (NodeState.judgeTunnel session t now n).highestSeenSeq)
        else (n.tracked session k).getD (1, 0)) := by
  have hsession : (NodeState.tunnelData session t now n).sessionId = session :=
    sessionId_adoptTunnel session t now n
  have hadopt := tracked_adoptTunnel session t now n k
  rw [tracked_self (sessionId_adoptTunnel session t now n), Option.some.injEq] at hadopt
  rw [tracked_self hsession]
  change some (((NodeState.setRx _ _ _).rx k).expectedSeq,
    ((NodeState.setRx _ _ _).rx k).highestSeenSeq) = _
  rw [NodeState.rx_setRx]
  split
  · rfl
  · next hk =>
      rw [hadopt, if_neg hk]

/-- The root's answer to a frame. -/
def replyPacket (localMac : Mac) (session : U32) (t : TunnelHdr) (verdict : Verdict) :
    List UInt8 :=
  if verdict.sendNack then nackPacket localMac session t verdict.missingSeq
  else ackPacket localMac session t verdict.ackSeq

/-- What is traced of a frame that is handed on or not. -/
def handOn (t : TunnelHdr) (inner : List UInt8) (deliver : Bool) : List RootEffect :=
  if deliver then .deliver t inner :: (tunnelHooks t inner).map .hook else []

theorem packetTo_handOn (deliver : Bool) :
    (handOn t inner deliver).filterMap (packetTo mac) = [] := by
  cases deliver with
  | false => rfl
  | true =>
      rw [List.filterMap_eq_nil_iff]
      intro e he
      rw [handOn, if_pos rfl, List.mem_cons, List.mem_map] at he
      rcases he with rfl | ⟨call, -, rfl⟩
      · rfl
      · rfl

theorem frameOn_handOn (horigin : t.originMac = mac) (ch : ℕ) (deliver : Bool) :
    (handOn t inner deliver).filterMap (frameOn mac ch) =
      if t.channelId.toNat = ch ∧ deliver = true then [(t.seq.toNat, inner)] else [] := by
  have hhooks : ((tunnelHooks t inner).map RootEffect.hook).filterMap (frameOn mac ch) = [] := by
    rw [List.filterMap_eq_nil_iff]
    intro e he
    obtain ⟨call, -, rfl⟩ := List.mem_map.mp he
    rfl
  cases deliver with
  | false => simp [handOn]
  | true =>
      rw [handOn, if_pos rfl, List.filterMap_cons, hhooks, frameOn]
      by_cases hch : t.channelId.toNat = ch
      · rw [if_pos ⟨horigin, hch⟩, if_pos ⟨hch, rfl⟩]
      · rw [if_neg fun hboth => hch hboth.2, if_neg fun hboth => hch hboth.1]

/-- What the root makes of a frame of the session. -/
inductive Heard (mac : Mac) (session : U32) (t : TunnelHdr) (inner : List UInt8)
    (r r' : TunnelRoot) : Prop where
  /-- There is no record of the node and no room for one. -/
  | full (htrack : ∀ ch, r.track mac session ch = none)
      (htrack' : ∀ ch, r'.track mac session ch = none)
      (htrace : r'.trace = r.trace ++ [.send mac (ackPacket r.localMac session t 0)])
  | judged {verdict : Verdict}
      (hverdict : verdict = judge (openedBy t.seq (r.track mac session t.channelId.toNat)).1
        (openedBy t.seq (r.track mac session t.channelId.toNat)).2 t.seq)
      (htrack : ∀ ch, r'.track mac session ch = some
        (if ch = t.channelId.toNat then (verdict.expectedSeq, verdict.highestSeenSeq)
          else (r.track mac session ch).getD (1, 0)))
      (htrace : r'.trace = r.trace ++ (.send mac (replyPacket r.localMac session t verdict) ::
        handOn t inner verdict.deliver))

/-- How a packet that was not numbered is read. -/
theorem packetValid_packetHdr (mac : Mac) (session : U32) (type : BitVec 8)
    {payload : List UInt8}
    (hfit : payload.length ≤ payloadMax) :
    ∃ h, packetValid (sealPacket (packetHdr mac type session 0 0 payload.length) payload) =
        some (h, payload) ∧
      h.srcMac = mac ∧ h.type = type ∧ h.sessionId = session ∧
        h.payloadLen.toNat = payload.length :=
  ⟨_, packetValid_sealPacket (fits_packetHdr mac type session 0 0 hfit), rfl, rfl, rfl,
    (fits_packetHdr mac type session 0 0 hfit).length.symm⟩

theorem trace_sendPacketToMac {dst : Mac} {type : BitVec 8} {payload : List UInt8}
    (hlen : payload.length ≤ payloadMax) :
    (r.sendPacketToMac dst type session 0 0 payload).1 = r.emit [.send dst
      (sealPacket (packetHdr r.localMac type session 0 0 payload.length) payload)] := by
  rw [TunnelRoot.sendPacketToMac, if_neg (Nat.not_lt.mpr hlen)]

theorem handleRx_frame (hsession : session ≠ 0) (hchannel : noChannel channel = false)
    (hlen : inner.length ≤ tunnelInnerMax)
    (ht : t = { frameHdr mac channel seq inner.length with flags := flags })
    (view : RootView) :
    (r.handleRx mac (framePacket mac session t inner) view).1.localMac = r.localMac ∧
      Heard mac session t inner r
        (r.handleRx mac (framePacket mac session t inner) view).1 := by
  have hmax : tunnelInnerMax = 156 := rfl
  have hpay : payloadMax = 192 := rfl
  have hhdr : tunnelHdrSize = 36 := rfl
  have hack : tunnelAckSize = 28 := rfl
  have hmiss : tunnelMissSize = 20 := rfl
  have hwhole : (t.bytes ++ inner).length = tunnelHdrSize + inner.length := by
    rw [List.length_append, TunnelHdr.length_bytes]
  have hfit : (t.bytes ++ inner).length ≤ payloadMax := by omega
  have horigin : t.originMac = mac := by rw [ht]; rfl
  obtain ⟨h, hvalid, hsrc, htype, hid, hh⟩ :=
    packetValid_packetHdr mac session typeTunnelData hfit
  rw [hwhole] at hh
  rw [framePacket, TunnelRoot.handleRx, MeshRoot.validatePacket_eq, hvalid]
  dsimp only
  rw [if_neg (by rw [hsrc]; simp), htype, if_neg (by decide), if_neg (by decide),
    if_pos rfl, TunnelRoot.handleTunnelData, hh, if_neg (by omega),
    frameFor_frameHdr hchannel hlen r.localMac ht hh]
  dsimp only
  rw [horigin, hsrc, hid]
  have hensure (ch : ℕ) : ((r.nodes.ensure mac).find mac).bind (NodeState.tracked session ch) =
      r.track mac session ch := tracked_ensure hsession ch r.nodes
  have hackLen (ackSeq : U32) : (t.ack ackSeq).bytes.length ≤ payloadMax := by
    rw [TunnelAck.length_bytes]
    omega
  have hnackLen (missing : U32) : (t.nack missing).bytes.length ≤ payloadMax := by
    rw [TunnelMiss.length_bytes]
    omega
  cases hfind : (r.nodes.ensure mac).find mac with
  | none =>
      dsimp only
      rw [hfind] at hensure
      rw [TunnelRoot.sendTunnelAck, trace_sendPacketToMac (hackLen 0), hid]
      exact ⟨rfl, .full (fun ch => (hensure ch).symm) (fun ch => (hensure ch).symm) rfl⟩
  | some n =>
      rw [hfind] at hensure
      have hn (ch : ℕ) : n.tracked session ch = r.track mac session ch := hensure ch
      dsimp only
      have htrack (ch : ℕ) : (r.change mac true
          (NodeState.tunnelData session t view.now)).track mac session ch = some
            (if ch = t.channelId.toNat then
              ((NodeState.judgeTunnel session t view.now n).expectedSeq,
                (NodeState.judgeTunnel session t view.now n).highestSeenSeq)
            else (r.track mac session ch).getD (1, 0)) := by
        rw [TunnelRoot.track, TunnelRoot.change, if_pos rfl,
          NodeStates.find_modify (mac_tunnelData session t view.now), if_pos rfl, hfind, ← hn ch]
        exact tracked_tunnelData session t view.now n ch
      have hverdict := judgeTunnel_eq session t view.now n
      rw [hn] at hverdict
      generalize NodeState.judgeTunnel session t view.now n = verdict at htrack hverdict ⊢
      generalize hr : r.change mac true (NodeState.tunnelData session t view.now) = r₁ at htrack ⊢
      have hlocal : r₁.localMac = r.localMac := by rw [← hr]; rfl
      have htrace : r₁.trace = r.trace := by rw [← hr]; rfl
      have hreply : (if verdict.sendNack then r₁.sendTunnelNack mac h t verdict.missingSeq
          else r₁.sendTunnelAck mac h t verdict.ackSeq) =
            r₁.emit [.send mac (replyPacket r.localMac session t verdict)] := by
        rw [replyPacket, nackPacket, ackPacket, ← hlocal]
        split
        · rw [TunnelRoot.sendTunnelNack, trace_sendPacketToMac (hnackLen _), hid]
        · rw [TunnelRoot.sendTunnelAck, trace_sendPacketToMac (hackLen _), hid]
      rw [hreply]
      refine ⟨?_, .judged hverdict ?_ ?_⟩
      · split
        · exact hlocal
        · exact hlocal
      · split
        · exact htrack
        · exact htrack
      · split
        · next hdeliver =>
            rw [handOn, if_pos hdeliver]
            simp only [TunnelRoot.emit, htrace, List.append_assoc, List.singleton_append]
        · next hdeliver =>
            rw [handOn, if_neg hdeliver]
            simp only [TunnelRoot.emit, htrace]

theorem tracked_tunnelLost (session : U32) (k : ℕ) (missingSeq now : U32) (n : NodeState)
    (ch : ℕ) :
    (NodeState.tunnelLost session k missingSeq now n).tracked session ch =
      if ch = k then
        (n.tracked session ch).map fun pair => (skipLost pair.1 pair.2 missingSeq, pair.2)
      else n.tracked session ch := by
  by_cases hn : n.sessionId = session
  · rw [tracked_self hn, NodeState.tunnelLost, if_pos hn]
    dsimp only
    rw [NodeState.tracked, if_pos (by exact hn), NodeState.rx_setRx]
    split
    · next heq =>
        subst heq
        rfl
    · rfl
  · have hnone : n.tracked session ch = none := if_neg hn
    rw [NodeState.tunnelLost, if_neg hn, hnone, Option.map_none, ite_self]

theorem handleRx_lost (hsession : session ≠ 0) (k : BitVec 8) (missingSeq : U32)
    (view : RootView) :
    (r.handleRx mac (lostPacket mac session k missingSeq) view).1.localMac = r.localMac ∧
      (r.handleRx mac (lostPacket mac session k missingSeq) view).1.trace = r.trace ∧
      ∀ ch, (r.handleRx mac (lostPacket mac session k missingSeq) view).1.track mac session ch =
        if ch = k.toNat ∧ noChannel ch = false then
          (r.track mac session ch).map fun pair => (skipLost pair.1 pair.2 missingSeq, pair.2)
        else r.track mac session ch := by
  have hpay : payloadMax = 192 := rfl
  have hmiss : tunnelMissSize = 20 := rfl
  rw [lostPacket]
  generalize hp : TunnelMiss.mk k missingSeq mac 0 = p
  have hfit : p.bytes.length ≤ payloadMax := by
    rw [TunnelMiss.length_bytes]
    omega
  obtain ⟨h, hvalid, hsrc, htype, hid, hh⟩ :=
    packetValid_packetHdr mac session typeTunnelLost hfit
  rw [TunnelMiss.length_bytes] at hh
  rw [TunnelRoot.handleRx, MeshRoot.validatePacket_eq, hvalid]
  dsimp only
  rw [if_neg (by rw [hsrc]; simp), htype, if_neg (by decide), if_neg (by decide),
    if_neg (by decide), if_neg (by decide), if_pos rfl, TunnelRoot.handleTunnelLost, hh,
    if_neg (lt_irrefl _)]
  simp only [TunnelMiss.read_bytes]
  rw [hid, ← hp]
  dsimp only
  cases hchannel : noChannel k.toNat with
  | true =>
      refine ⟨rfl, rfl, fun ch => ?_⟩
      have hnot : ¬(ch = k.toNat ∧ noChannel ch = false) := by
        rintro ⟨rfl, hch⟩
        rw [hchannel] at hch
        simp at hch
      rw [if_neg hnot]
      rfl
  | false =>
      refine ⟨rfl, rfl, fun ch => ?_⟩
      have hensure : ((r.nodes.ensure mac).find mac).bind (NodeState.tracked session ch) =
          r.track mac session ch := tracked_ensure hsession ch r.nodes
      rw [if_neg Bool.false_ne_true, TunnelRoot.track, TunnelRoot.change, if_pos rfl,
        NodeStates.find_modify (mac_tunnelLost session _ missingSeq view.now), if_pos rfl,
        ← hensure]
      cases (r.nodes.ensure mac).find mac with
      | none => rw [Option.map_none, Option.bind_none, Option.map_none, ite_self]
      | some n =>
          rw [Option.map_some, Option.bind_some, Option.bind_some, tracked_tunnelLost]
          by_cases hch : ch = k.toNat
          · rw [if_pos hch, if_pos ⟨hch, hch ▸ hchannel⟩]
          · rw [if_neg hch, if_neg fun hboth => hch hboth.1]

end Hears

/-! ## Both ends in a session -/

/-- The number that the root expects on a channel of the node. -/
def World.expected (mac : Mac) (session : U32) (w : World) (channel : ℕ) : ℕ :=
  expectedOn (w.root.track mac session channel)

/-- The numbers that the node may give up: it used them, and on a channel that is to arrive
whole they are no longer expected. -/
def World.gone (whole : ℕ → Bool) (mac : Mac) (session : U32) (w : World) (channel m : ℕ) :
    Prop :=
  m ≤ (w.node.inners channel).length ∧
    (whole channel = true → m < w.expected mac session channel)

/-- What a packet of the root can ask of the node. -/
inductive Reply (session : U32) (expected sent : ℕ → ℕ) (packet : List UInt8) : Prop where
  | harmless (h : harmless packet = true)
  | ack {localMac : Mac} {t : TunnelHdr} {ackSeq : U32}
      (hack : noChannel t.channelId.toNat = false →
        ackSeq.toNat < expected t.channelId.toNat)
      (hpacket : packet = ackPacket localMac session t ackSeq)
  | nack {localMac : Mac} {t : TunnelHdr} {missingSeq : U32}
      (hsent : noChannel t.channelId.toNat = false →
        missingSeq.toNat ≤ sent t.channelId.toNat)
      (hpacket : packet = nackPacket localMac session t missingSeq)

/-- No channel is used up, and the ones that are to arrive whole are not further ahead than
the ring is long. -/
def World.Room (whole : ℕ → Bool) (mac : Mac) (session : U32) (w : World) : Prop :=
  ∀ channel, noChannel channel = false →
    (w.node.inners channel).length < 2 ^ 32 - 1 ∧ (whole channel = true →
      (w.node.inners channel).length < w.expected mac session channel + tunnelReplayRingSize)

/-- Both ends of a session. -/
structure Linked (whole : ℕ → Bool) (mac : Mac) (session : U32) (w : World) : Prop where
  opened : session ≠ 0
  node : NodeOk mac session (fun ch => w.expected mac session ch - 1)
    (w.gone whole mac session) w.node
  replies : ∀ packet ∈ sendsTo mac w.root, Reply session (w.expected mac session)
    (fun ch => (w.node.inners ch).length) packet
  stream : ∀ ch, noChannel ch = false → Stream (whole ch) (w.node.inners ch)
    (w.root.track mac session ch) (delivered mac ch w.root)

section Linked

variable {whole : ℕ → Bool} {mac : Mac} {session : U32} {w : World}

theorem Reply.mono {expected expected' sent sent' : ℕ → ℕ} {packet : List UInt8}
    (h : Reply session expected sent packet)
    (hexpected : ∀ ch, expected ch ≤ expected' ch) (hsent : ∀ ch, sent ch ≤ sent' ch) : Reply session expected' sent' packet := by
  cases h with
  | harmless h => exact .harmless h
  | ack hack hpacket =>
      exact .ack (fun hch => (hack hch).trans_le (hexpected _)) hpacket
  | nack hmiss hpacket => exact .nack (fun hch => (hmiss hch).trans (hsent _)) hpacket

theorem Stream.expected_pos {inners : List (List UInt8)} {track : Option (U32 × U32)}
    {got : List (ℕ × List UInt8)} {keep : Bool} (h : Stream keep inners track got) :
    1 ≤ expectedOn track := by
  cases htrack : track with
  | none => exact le_rfl
  | some pair => exact (h.seen pair.1 pair.2 htrack).1

/-- The node's end moves, while it handles a packet with this request. -/
theorem Linked.nodeRun (h : Linked whole mac session w) {request : Request} {n' : TunnelNode}
    (hrun : NodeRun request w.node n')
    (hack : ∀ {channel ackSeq}, request = .ack channel ackSeq → noChannel channel = false →
      ackSeq.toNat < w.expected mac session channel)
    (hnack : ∀ {channel missingSeq}, request = .nack channel missingSeq →
      noChannel channel.toNat = false →
        missingSeq.toNat ≤ (w.node.inners channel.toNat).length)
    (hroom₀ : w.Room whole mac session)
    (hroom : { w with node := n' }.Room whole mac session) :
    Linked whole mac session { w with node := n' } := by
  have hgrows (ch : ℕ) := hrun.inners_prefix ch
  have hring : tunnelReplayRingSize = 8 := rfl
  have hstart : NodeOk mac session (fun ch => w.expected mac session ch - 1)
      (World.gone whole mac session { w with node := n' }) w.node :=
    h.node.mono (fun _ => le_rfl) fun ch m hgone =>
      ⟨hgone.1.trans (hgrows ch).length_le, hgone.2⟩
  have hfair : request.Fair (fun ch => w.expected mac session ch - 1)
      (World.gone whole mac session { w with node := n' }) w.node.inners := by
    refine ⟨fun hasks hch => ?_, hnack, fun hasks hch hout => ?_⟩
    · have := hack hasks hch
      omega
    · have hsent := hnack hasks hch
      change _ ∧ _
      refine ⟨hsent.trans (hgrows _).length_le, fun hwhole => ?_⟩
      have hahead := (hroom₀ _ hch).2 hwhole
      have hpos := (h.stream _ hch).expected_pos
      change 1 ≤ w.expected mac session _ at hpos
      change _ < w.expected mac session _
      omega
  obtain ⟨hok, -⟩ := hrun.ok hstart hfair fun ch hch => (hroom ch hch).1
  exact {
    opened := h.opened
    node := hok
    replies := fun packet hmem =>
      (h.replies packet hmem).mono (fun _ => le_rfl) fun ch => (hgrows ch).length_le
    stream := fun ch hch => (h.stream ch hch).grow (hgrows ch) }

/-- The root's end moves: what it sends the node is a reply, and the streams go on. -/
theorem Linked.rootMoves (h : Linked whole mac session w) {r' : TunnelRoot}
    {new : List RootEffect} (htrace : r'.trace = w.root.trace ++ new)
    (hexpected : ∀ ch,
      w.expected mac session ch ≤ expectedOn (r'.track mac session ch))
    (hreply : ∀ packet ∈ new.filterMap (packetTo mac), Reply session
      (fun ch => expectedOn (r'.track mac session ch))
      (fun ch => (w.node.inners ch).length) packet)
    (hstream : ∀ ch, noChannel ch = false → Stream (whole ch) (w.node.inners ch)
      (r'.track mac session ch) (delivered mac ch w.root ++ new.filterMap (frameOn mac ch))) :
    Linked whole mac session { w with root := r' } where
  opened := h.opened
  node := h.node.mono (fun ch => Nat.sub_le_sub_right (hexpected ch) 1)
    fun ch _ hgone => ⟨hgone.1, fun hwhole => (hgone.2 hwhole).trans_le (hexpected ch)⟩
  replies packet hmem := by
    change packet ∈ sendsTo mac r' at hmem
    rw [sendsTo, htrace, List.filterMap_append, List.mem_append] at hmem
    rcases hmem with hmem | hmem
    · exact (h.replies packet hmem).mono hexpected fun _ => le_rfl
    · exact hreply packet hmem
  stream ch hch := by
    change Stream _ _ (r'.track mac session ch) (delivered mac ch r')
    rw [delivered, htrace, List.filterMap_append]
    exact hstream ch hch

theorem packetTo_still {new : List RootEffect} (hquiet : ∀ e ∈ new, e.isStill mac = true)
    {packet : List UInt8} (hmem : packet ∈ new.filterMap (packetTo mac)) :
    harmless packet = true := by
  obtain ⟨e, he, hpacket⟩ := List.mem_filterMap.mp hmem
  have hq := hquiet e he
  cases e with
  | send dst p =>
      rw [packetTo] at hpacket
      split at hpacket
      · next hdst =>
          obtain rfl := Option.some.inj hpacket
          subst hdst
          rw [RootEffect.isStill, bne_self_eq_false, Bool.false_or] at hq
          exact hq
      · simp at hpacket
  | _ => simp [packetTo] at hpacket

theorem frameOn_still {new : List RootEffect} (hquiet : ∀ e ∈ new, e.isStill mac = true)
    (ch : ℕ) : new.filterMap (frameOn mac ch) = [] := by
  rw [List.filterMap_eq_nil_iff]
  intro e he
  have hq := hquiet e he
  cases e with
  | deliver t payload =>
      rw [RootEffect.isStill, bne_iff_ne] at hq
      rw [frameOn, if_neg fun hboth => hq hboth.1]
  | _ => rfl

/-- The root leaves the node's channels alone. -/
theorem Linked.still (h : Linked whole mac session w) {r' : TunnelRoot}
    (hstill : Still mac session w.root r') : Linked whole mac session { w with root := r' } := by
  obtain ⟨new, hnew, hquiet⟩ := hstill.trace
  refine h.rootMoves hnew (fun ch => ?_) (fun packet hmem => .harmless (packetTo_still hquiet hmem))
    fun ch hch => ?_
  · rw [hstill.track]
    exact le_rfl
  · rw [frameOn_still hquiet, List.append_nil, hstill.track]
    exact h.stream ch hch

/-- A frame never lowers the number that is expected. -/
theorem Linked.heard_mono (h : Linked whole mac session w) {t : TunnelHdr}
    {inner : List UInt8} {r' : TunnelRoot} (hheard : Heard mac session t inner w.root r')
    (hchannel : noChannel t.channelId.toNat = false)
    (hinner : numbered (w.node.inners t.channelId.toNat) t.seq.toNat = some inner)
    (hroom : w.Room whole mac session) (ch : ℕ) :
    w.expected mac session ch ≤ expectedOn (r'.track mac session ch) := by
  cases hheard with
  | full htrack htrack' _ => rw [World.expected, htrack, htrack']
  | judged hverdict htrack _ =>
      rw [htrack]
      split
      · next hch =>
          subst hch
          exact ((h.stream _ hchannel).frame hinner (hroom _ hchannel).1 hverdict).2.1
      · rw [World.expected]
        cases w.root.track mac session ch with
        | none => exact le_rfl
        | some pair => exact le_rfl

/-- The root hears a frame of the node. -/
theorem Linked.frame (h : Linked whole mac session w) {t : TunnelHdr} {inner : List UInt8}
    {r' : TunnelRoot} (hheard : Heard mac session t inner w.root r') (horigin : t.originMac = mac)
    (hchannel : noChannel t.channelId.toNat = false)
    (hinner : numbered (w.node.inners t.channelId.toNat) t.seq.toNat = some inner)
    (hroom : w.Room whole mac session) : Linked whole mac session { w with root := r' } := by
  have hmono := h.heard_mono hheard hchannel hinner hroom
  cases hheard with
  | full htrack htrack' htrace =>
      refine h.rootMoves htrace hmono (fun packet hmem => ?_) fun ch hch => ?_
      · rw [List.filterMap_cons, packetTo, if_pos rfl, List.filterMap_nil,
          List.mem_singleton] at hmem
        refine .ack (fun _ => ?_) hmem
        rw [htrack']
        exact Nat.zero_lt_one
      · have hstream := h.stream ch hch
        rw [htrack] at hstream
        rw [htrack']
        exact (List.append_nil (delivered mac ch w.root)).symm ▸ hstream
  | @judged verdict hverdict htrack htrace =>
      obtain ⟨hstream, -, hack, hnack⟩ :=
        (h.stream _ hchannel).frame hinner (hroom _ hchannel).1 hverdict
      refine h.rootMoves htrace hmono (fun packet hmem => ?_) fun ch hch => ?_
      · rw [List.filterMap_cons, packetTo, if_pos rfl, packetTo_handOn,
          List.mem_singleton] at hmem
        have hexpected : expectedOn (r'.track mac session t.channelId.toNat) =
            verdict.expectedSeq.toNat := by
          rw [htrack, if_pos rfl]
          rfl
        rw [replyPacket] at hmem
        split at hmem
        · next hsend => exact .nack (fun _ => hnack hsend) hmem
        · next hsend =>
            refine .ack (fun _ => ?_) hmem
            rw [hexpected]
            exact hack (Bool.not_eq_true _ ▸ hsend)
      · have hsend : frameOn mac ch
            (.send mac (replyPacket w.root.localMac session t verdict)) = none := rfl
        rw [htrack, List.filterMap_cons, hsend, frameOn_handOn horigin]
        by_cases hsame : ch = t.channelId.toNat
        · subst hsame
          rw [if_pos rfl]
          cases hdeliver : verdict.deliver with
          | true =>
              rw [if_pos ⟨rfl, rfl⟩]
              rw [if_pos hdeliver] at hstream
              exact hstream
          | false =>
              rw [if_neg (by simp), List.append_nil]
              rw [if_neg (by rw [hdeliver]; simp)] at hstream
              exact hstream
        · rw [if_neg hsame, if_neg fun hboth => hsame hboth.1.symm, List.append_nil]
          exact (h.stream ch hch).open

/-- The root hears that the node gave a number up. -/
theorem Linked.lost (h : Linked whole mac session w) {k : BitVec 8} {missingSeq : U32}
    {r' : TunnelRoot} (htrace : r'.trace = w.root.trace)
    (htrack : ∀ ch, r'.track mac session ch = if ch = k.toNat ∧ noChannel ch = false then
      (w.root.track mac session ch).map fun pair => (skipLost pair.1 pair.2 missingSeq, pair.2)
      else w.root.track mac session ch)
    (hgone : noChannel k.toNat = false → w.gone whole mac session k.toNat missingSeq.toNat)
    (hroom : w.Room whole mac session) : Linked whole mac session { w with root := r' } := by
  have hlost (ch : ℕ) (hch : ch = k.toNat ∧ noChannel ch = false) :=
    (h.stream ch hch.2).lost (hch.1 ▸ (hgone (hch.1 ▸ hch.2)).1) (hroom ch hch.2).1
      fun hwhole => hch.1 ▸ (hgone (hch.1 ▸ hch.2)).2 (hch.1 ▸ hwhole)
  have hnew : r'.trace = w.root.trace ++ [] := htrace.trans (List.append_nil _).symm
  refine h.rootMoves hnew (fun ch => ?_) (by simp) fun ch hch => ?_
  · rw [htrack]
    split
    · next hboth => exact (hlost ch hboth).2
    · exact le_rfl
  · rw [htrack, List.filterMap_nil, List.append_nil]
    split
    · next hboth => exact (hlost ch hboth).1
    · exact h.stream ch hch

/-- The node hears a packet of the root. -/
theorem Linked.nodeHears (h : Linked whole mac session w) {src : Mac} {packet : List UInt8}
    {view : NodeView} (hreply : Reply session (w.expected mac session)
      (fun ch => (w.node.inners ch).length) packet)
    (hkeeps : (WireHdr.read packet).type = typeTunnelData → w.node.restarts view = false)
    (hroom₀ : w.Room whole mac session)
    (hroom : { w with node := (w.node.handleRx src packet view).1 }.Room whole mac session) :
    Linked whole mac session { w with node := (w.node.handleRx src packet view).1 } := by
  have hpay : payloadMax = 192 := rfl
  have hacks : tunnelAckSize = 28 := rfl
  have hmiss : tunnelMissSize = 20 := rfl
  cases hvalid : packetValid packet with
  | none =>
      have hsame : (w.node.handleRx src packet view).1 = w.node := by
        rw [TunnelNode.handleRx, MeshNode.validatePacket_eq, hvalid]
        split
        · rfl
        · rfl
      rw [hsame]
      exact h
  | some pair =>
      obtain ⟨hdr, payload⟩ := pair
      have hrun (hsession : hdr.type = typeTunnelNack → hdr.sessionId = w.node.sessionId) :
          NodeRun (requestOf hdr payload) w.node (w.node.handleRx src packet view).1 :=
        nodeRun_handleRx hvalid h.node.idle (hdr_of_packetValid hvalid ▸ hkeeps) hsession
      cases hreply with
      | harmless hquiet =>
          rw [harmless, ← hdr_of_packetValid hvalid, Bool.not_eq_true', List.contains_eq_mem,
            decide_eq_false_iff_not] at hquiet
          simp only [List.mem_cons, List.not_mem_nil, or_false, not_or] at hquiet
          have hask : requestOf hdr payload = .nothing := by
            rw [requestOf, if_neg hquiet.1, if_neg hquiet.2]
          refine h.nodeRun (hrun fun htype => absurd htype hquiet.2) (fun hasks => ?_)
            (fun hasks => ?_) hroom₀ hroom
          · rw [hask] at hasks
            simp at hasks
          · rw [hask] at hasks
            simp at hasks
      | @ack localMac t ackSeq hack hpacket =>
          have hfit : (t.ack ackSeq).bytes.length ≤ payloadMax := by
            rw [TunnelAck.length_bytes]
            omega
          obtain ⟨hdr', hread, -, htype, -, -⟩ :=
            packetValid_packetHdr localMac session typeTunnelAck hfit
          rw [hpacket, ackPacket, hread, Option.some.injEq, Prod.mk.injEq] at hvalid
          obtain ⟨rfl, rfl⟩ := hvalid
          have hask : requestOf hdr' (t.ack ackSeq).bytes =
              .ack t.channelId.toNat ackSeq := by
            rw [requestOf, if_pos htype, TunnelAck.read_bytes]
            rfl
          refine h.nodeRun (hrun fun hnack => ?_) (fun hasks hch => ?_) (fun hasks => ?_)
            hroom₀ hroom
          · rw [htype] at hnack
            exact absurd hnack (by decide)
          · rw [hask] at hasks
            injection hasks with hchannel hseq
            subst hchannel hseq
            exact hack hch
          · rw [hask] at hasks
            simp at hasks
      | @nack localMac t missingSeq hsent hpacket =>
          have hfit : (t.nack missingSeq).bytes.length ≤ payloadMax := by
            rw [TunnelMiss.length_bytes]
            omega
          obtain ⟨hdr', hread, -, htype, hid, -⟩ :=
            packetValid_packetHdr localMac session typeTunnelNack hfit
          rw [hpacket, nackPacket, hread, Option.some.injEq, Prod.mk.injEq] at hvalid
          obtain ⟨rfl, rfl⟩ := hvalid
          have hask : requestOf hdr' (t.nack missingSeq).bytes =
              .nack t.channelId missingSeq := by
            rw [requestOf, htype, if_neg (by decide), if_pos rfl, TunnelMiss.read_bytes]
            rfl
          refine h.nodeRun (hrun fun _ => hid.trans h.node.sessionId.symm) (fun hasks => ?_)
            (fun hasks hch => ?_) hroom₀ hroom
          · rw [hask] at hasks
            simp at hasks
          · rw [hask] at hasks
            injection hasks with hchannel hseq
            subst hchannel hseq
            exact hsent hch

/-- The node does something of its own accord. -/
theorem Linked.nodeCalls (h : Linked whole mac session w) {n' : TunnelNode}
    (hrun : NodeRun .nothing w.node n') (hroom₀ : w.Room whole mac session)
    (hroom : { w with node := n' }.Room whole mac session) :
    Linked whole mac session { w with node := n' } :=
  h.nodeRun hrun (fun hasks => by simp at hasks) (fun hasks => by simp at hasks) hroom₀ hroom

/-- The root hears a packet of the node. -/
theorem Linked.rootHears (h : Linked whole mac session w) {packet : List UInt8}
    (hpacket : Honest mac session w.node.inners (w.gone whole mac session) packet)
    (hhello : (WireHdr.read packet).type ≠ typeHello) (view : RootView)
    (hroom : w.Room whole mac session) :
    Linked whole mac session { w with root := (w.root.handleRx mac packet view).1 } := by
  cases hpacket with
  | quiet hquiet => exact h.still (still_handleRx_quiet h.opened hquiet hhello)
  | @frame channel seq flags inner hchannel hlen hinner hpacket =>
      generalize ht : { frameHdr mac channel seq inner.length with flags := flags } = t
        at hpacket
      have hid : t.channelId.toNat = channel := by
        have hch := noChannel_eq_false.mp hchannel
        rw [← ht]
        exact Nat.mod_eq_of_lt (by omega)
      have hseq : t.seq = seq := by
        rw [← ht]
        rfl
      have hheard := (handleRx_frame (r := w.root) h.opened hchannel hlen ht.symm view).2
      rw [hpacket]
      refine h.frame hheard ?_ (hid ▸ hchannel) ?_ hroom
      · rw [← ht]
        rfl
      · rw [hid, hseq]
        exact hinner
  | @lost k missingSeq hgone hpacket =>
      rw [hpacket]
      obtain ⟨-, htrace, htrack⟩ := handleRx_lost (r := w.root) h.opened k missingSeq view
      exact h.lost htrace htrack hgone hroom

/-- A step within the session keeps both ends in order. -/
theorem Linked.step (h : Linked whole mac session w) (hroom₀ : w.Room whole mac session)
    {a : Action} (hkeeps : w.Keeps a) (hroom : (w.step a).Room whole mac session) :
    Linked whole mac session (w.step a) := by
  have hmac := h.node.localMac
  cases a with
  | send recovers channel inner view =>
      exact h.nodeCalls (nodeRun_sendPayload hkeeps recovers channel inner) hroom₀ hroom
  | kick view => exact h.nodeCalls (quiet_recover hkeeps).run hroom₀ hroom
  | hello resetSession view =>
      change resetSession = false at hkeeps
      subst hkeeps
      exact h.nodeCalls (quiet_sendHello w.node view).run hroom₀ hroom
  | disconnected =>
      refine h.nodeCalls (Quiet.run ?_) hroom₀ hroom
      exact ⟨rfl, rfl, fun _ h => h, rfl, [], (List.append_nil _).symm, by simp⟩
  | nodeHears index view =>
      simp only [World.step] at hroom ⊢
      cases hget : (sendsTo w.node.localMac w.root)[index]? with
      | none => exact h
      | some packet =>
          rw [hget] at hroom
          have hmem := List.mem_of_getElem? hget
          rw [hmac] at hmem
          exact h.nodeHears (h.replies packet hmem) (fun _ => hkeeps) hroom₀ hroom
  | rootHears index view =>
      simp only [World.step]
      cases hget : w.node.sends[index]? with
      | none => exact h
      | some packet =>
          have hhello := hkeeps packet hget
          have hsent := h.node.sends packet (List.mem_of_getElem? hget)
          dsimp only
          rw [hmac]
          exact h.rootHears hsent hhello view hroom₀
  | rootHearsOther src packet view =>
      obtain ⟨hsrc, hspeaks⟩ := hkeeps
      rw [hmac] at hsrc hspeaks
      exact h.still (still_handleRx_other h.opened hsrc hspeaks)
  | logCtrl relErr dst enable => exact h.still (still_sendFrame h.opened)
  | taskRequest relErr dst requestId => exact h.still (still_sendFrame h.opened)

end Linked

/-! ## Runs -/

section Reach

variable {whole : ℕ → Bool} {mac : Mac} {session : U32} {w w₀ : World}

/-- Both ends are in order in every state that a session reaches. -/
theorem World.Reach.linked (h : World.Reach (World.Room whole mac session) w₀ w)
    (h₀ : Linked whole mac session w₀) (hroom₀ : w₀.Room whole mac session) :
    Linked whole mac session w ∧ w.Room whole mac session := by
  induction h with
  | start => exact ⟨h₀, hroom₀⟩
  | step _ a hkeeps hroom ih => exact ⟨ih.1.step ih.2 hkeeps hroom, hroom⟩

end Reach

end KeemashCore.Tunnel
