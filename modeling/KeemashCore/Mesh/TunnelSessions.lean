import KeemashCore.Mesh.TunnelRuns

/-!
# Sessions over the tunnel profile

What holds of every session between a node and its root, from its start on: the frames of a
channel are handed on in order and at most once, and none is passed over while the node is
at most a ring ahead.  A gap closes as soon as one later frame and the packets it gives rise
to arrive.
-/

namespace KeemashCore.Tunnel

open LittleEndian Rel ReplayRing Relation MeshRoot

/-! ## The start -/

/-- The node hears the packet that the root sent it last. -/
def World.nodeHearsLast (w : World) (view : NodeView) : World :=
  w.step (.nodeHears ((sendsTo w.node.localMac w.root).length - 1) view)

/-- The root hears the packet that the node sent last. -/
def World.rootHearsLast (w : World) (view : RootView) : World :=
  w.step (.rootHears (w.node.sends.length - 1) view)

/-- A node starts a session and the root hears its HELLO. -/
def World.join (w : World) (view : NodeView) (rootView : RootView) : World :=
  (w.step (.hello true view)).rootHearsLast rootView

/-- A session that was just started: the node's channels are new, no frame was sent or handed
on in it, and the root has no numbers of it or those that its HELLO leaves. -/
structure World.Fresh (mac : Mac) (session : U32) (w : World) : Prop where
  opened : session ≠ 0
  localMac : w.node.localMac = mac
  sessionId : w.node.sessionId = session
  idle : ∀ seq, lookup w.node.ring seq = none
  tx : ∀ channel, w.node.tunnelTx channel = newTx
  kept : ∀ channel, w.node.inners channel = []
  unsent : ∀ packet ∈ w.node.sends, quietPacket packet = true
  silent : ∀ packet ∈ sendsTo mac w.root, harmless packet = true
  undelivered : ∀ channel, delivered mac channel w.root = []
  track : ∀ channel, w.root.track mac session channel = none ∨
    w.root.track mac session channel = some (1, 0)

/-- A node and a root with a free entry, before they meet. -/
def smallWorld : World where
  node :=
    { localMac := 0x11, transport := fun _ => .ok, sessionId := 0, nextSeq := 1, ring := [],
      tunnelTx := fun _ => newTx, tunnelRx := fun _ => newRx, rootReady := false,
      lastAckMs := 0, lastHelloMs := 0, tunnelGapCount := 0, tunnelLostCount := 0,
      tunnelReplayCount := 0, trace := [] }
  root := { localMac := 0x22, transport := fun _ _ => .ok, nodes := [none], trace := [] }

/-- What a node without the reliable profile sees. -/
def smallNodeView (now : U32) : NodeView where
  now := now
  random := 9
  helloPayload := []
  relReady := false
  relFresh := false
  otaActive := false
  relHello := none
  expectedRoot := 0
  losslessNegotiated := false
  rootSession := none

def smallRootView (now : U32) : RootView where
  now := now
  localSession := 7
  relReady := fun _ => false

/-- The two ends after the HELLO and its ACK. -/
def smallJoined : World :=
  smallWorld.join (smallNodeView 1) (smallRootView 2)

section Fresh

variable {whole : ℕ → Bool} {mac : Mac} {session : U32} {w w₀ : World} {channel : ℕ}

theorem World.Fresh.expected (h : w.Fresh mac session) (channel : ℕ) :
    w.expected mac session channel = 1 := by
  rw [World.expected]
  rcases h.track channel with hnone | hsome
  · rw [hnone]
    rfl
  · rw [hsome]
    rfl

theorem World.Fresh.room (h : w.Fresh mac session) : w.Room whole mac session := by
  intro channel _
  rw [h.kept, h.expected, List.length_nil]
  exact ⟨by decide, fun _ => by decide⟩

theorem World.Fresh.linked (h : w.Fresh mac session)
    (hwhole : ∀ channel, whole channel = true →
      w.root.track mac session channel = some (1, 0)) : Linked whole mac session w where
  opened := h.opened
  node := {
    localMac := h.localMac
    sessionId := h.sessionId
    idle := h.idle
    number := fun channel _ => by
      rw [TunnelNode.number, h.tx, h.kept]
      rfl
    size := fun channel _ => by
      rw [h.tx]
      rfl
    short := fun channel => by
      rw [h.kept]
      simp
    holds := fun channel _ => by
      rw [h.tx, h.kept]
      exact ⟨0, Nat.zero_le _, holds_empty tunnelReplayRingSize⟩
    sends := fun packet hmem => .quiet (h.unsent packet hmem) }
  replies packet hmem := .harmless (h.silent packet hmem)
  stream channel _ := by
    rw [h.undelivered, h.kept]
    refine ⟨by simp, .nil, fun _ => rfl, fun expected highest htrack => ?_, fun hw => ?_⟩
    · rcases h.track channel with hnone | hsome
      · rw [hnone] at htrack
        simp at htrack
      · rw [hsome, Option.some.injEq] at htrack
        obtain ⟨rfl, rfl⟩ := Prod.mk.inj htrack
        exact ⟨by decide, by decide, by decide, by simp⟩
    · exact ⟨1, 0, hwhole channel hw, by simp⟩

theorem getElem?_last {α : Type*} (items : List α) :
    items[items.length - 1]? = items.getLast? :=
  List.getLast?_eq_getElem?.symm

/-- A HELLO starts the numbers over. -/
theorem track_handleHello {r : TunnelRoot} {h : WireHdr} {payload : List UInt8} (now : U32)
    (hsrc : h.srcMac = mac) (hid : h.sessionId = session)
    (hthere : ((r.nodes.ensure mac).find mac).isSome = true) :
    (∀ channel, (r.handleHello mac h payload now).track mac session channel = some (1, 0)) ∧
      ∃ new, (r.handleHello mac h payload now).trace = r.trace ++ new ∧
        ∀ e ∈ new, e.isStill mac = true := by
  obtain ⟨m, hm⟩ := Option.isSome_iff_exists.mp hthere
  have hchanged {ch : ℕ} (f : NodeState → NodeState) (hmac : ∀ n, (f n).mac = n.mac)
      (hf : ∀ n, (f n).tracked session ch = some (1, 0)) :
      (r.change mac true f).track mac session ch = some (1, 0) := by
    rw [TunnelRoot.track, TunnelRoot.change, if_pos rfl, NodeStates.find_modify hmac,
      if_pos rfl, hm]
    exact hf m
  rw [TunnelRoot.handleHello, hsrc, hid]
  dsimp only
  generalize hr : r.change mac true _ = r₁
  have hstill (call : RootHook) : Still mac session r₁
      ((r₁.emit [.hook call]).sendControl mac typeAck session 0 0) :=
    Still.sendControl (Still.emit (.refl _ _ r₁) fun e he => by
      rw [List.mem_singleton.mp he]
      rfl) (.inr rfl)
  have htrace : r₁.trace = r.trace := by
    rw [← hr]
    rfl
  refine ⟨fun ch => ?_, ?_⟩
  · rw [(hstill _).track, ← hr]
    exact hchanged _ (fun _ => rfl) (fun _ => if_pos rfl)
  · rw [← htrace]
    exact (hstill _).trace

/-- With room for the node at the root, its HELLO starts a session that both ends know. -/
theorem fresh_join {view : NodeView} {rootView : RootView} (hnode : w.node.trace = [])
    (hroot : w.root.trace = []) (hfit : view.helloPayload.length ≤ payloadMax)
    (hthere : ((w.root.nodes.ensure w.node.localMac).find w.node.localMac).isSome = true) :
    (w.join view rootView).Fresh w.node.localMac
        (if view.random = 0 then 1 else view.random) ∧
      ∀ channel, (w.join view rootView).root.track w.node.localMac
        (if view.random = 0 then 1 else view.random) channel = some (1, 0) := by
  generalize hmac : w.node.localMac = mac at hthere ⊢
  generalize hsession : (if view.random = 0 then 1 else view.random) = session
  have hopened : session ≠ 0 := by
    rw [← hsession]
    split
    · decide
    · assumption
  obtain ⟨h, hvalid, hsrc, htype, hid, -⟩ := packetValid_packetHdr mac session typeHello hfit
  generalize hpacket : sealPacket (packetHdr mac typeHello session 0 0 view.helloPayload.length)
    view.helloPayload = packet at hvalid
  have hsent : (w.node.sendHello true view).1 =
      { w.node.newSession view.random with lastHelloMs := view.now }.emit (.send packet) := by
    have hraw : (({ w.node.newSession view.random with lastHelloMs := view.now }).sendPacket
        typeHello view.helloPayload false view).1 =
          { w.node.newSession view.random with lastHelloMs := view.now }.emit (.send packet) := by
      rw [TunnelNode.sendPacket, if_neg (Nat.not_lt.mpr hfit), if_neg (by simp),
        if_neg (by simp), ← hpacket, ← hmac, ← hsession]
      rfl
    simp only [TunnelNode.sendHello, if_true]
    split
    · exact hraw
    · exact hraw
  generalize hn : (w.node.sendHello true view).1 = n at hsent
  have hsends : n.sends = [packet] := by
    rw [hsent, TunnelNode.sends_emit_send, TunnelNode.sends]
    change w.node.trace.filterMap _ ++ _ = _
    rw [hnode]
    rfl
  have hlocal : n.localMac = mac := by
    rw [hsent, ← hmac]
    rfl
  have hjoin : w.join view rootView =
      { node := n, root := w.root.handleHello mac h view.helloPayload rootView.now } := by
    rw [World.join, World.step, hn, World.rootHearsLast, World.step, getElem?_last, hsends,
      List.getLast?_singleton]
    dsimp only
    rw [hlocal, TunnelRoot.handleRx, MeshRoot.validatePacket_eq, hvalid]
    dsimp only
    rw [if_neg (by rw [hsrc]; simp), htype, if_pos rfl]
  obtain ⟨htrack, new, hnew, hquiet⟩ :
      (∀ channel, (w.root.handleHello mac h view.helloPayload rootView.now).track mac session
          channel = some (1, 0)) ∧ _ := track_handleHello rootView.now hsrc hid hthere
  rw [hroot, List.nil_append] at hnew
  rw [hjoin]
  refine ⟨{
    opened := hopened
    localMac := hlocal
    sessionId := ?_
    idle := fun seq => ?_
    tx := fun ch => ?_
    kept := fun ch => ?_
    unsent := fun sent hmem => ?_
    silent := fun sent hmem => ?_
    undelivered := fun ch => ?_
    track := fun ch => .inr (htrack ch) }, htrack⟩
  · change n.sessionId = session
    rw [hsent, ← hsession]
    rfl
  · change lookup n.ring seq = none
    rw [hsent]
    exact lookup_empty replayRingSize seq
  · change n.tunnelTx ch = newTx
    rw [hsent]
    rfl
  · change n.inners ch = []
    rw [hsent, TunnelNode.inners_emit_send, TunnelNode.inners]
    change w.node.trace.filterMap _ = _
    rw [hnode, List.filterMap_nil]
  · change sent ∈ n.sends at hmem
    rw [hsends, List.mem_singleton] at hmem
    rw [hmem, ← hpacket, quietPacket_sealPacket]
    rfl
  · change sent ∈ sendsTo mac (w.root.handleHello mac h view.helloPayload rootView.now) at hmem
    rw [sendsTo, hnew] at hmem
    exact packetTo_still hquiet hmem
  · change delivered mac ch (w.root.handleHello mac h view.helloPayload rootView.now) = []
    rw [delivered, hnew]
    exact frameOn_still hquiet ch

theorem fresh_smallJoined : smallJoined.Fresh 0x11 9 ∧
    ∀ channel, smallJoined.root.track 0x11 9 channel = some (1, 0) := by
  have hfit : (smallNodeView 1).helloPayload.length ≤ payloadMax := Nat.zero_le _
  exact fresh_join (w := smallWorld) rfl rfl hfit rfl

/-- The node heard the ACK and sent its first frame on the log channel. -/
def smallAhead : World :=
  (smallJoined.step (.nodeHears 0 (smallNodeView 3))).step (.send true 2 [1] (smallNodeView 4))

/-- The root heard it. -/
def smallHeard : World :=
  smallAhead.step (.rootHears 1 (smallRootView 5))

/-- A node that did little is not ahead. -/
theorem room_of_trace (h : w.node.trace.length ≤ 7) : w.Room whole mac session := by
  intro ch _
  have hle : (w.node.inners ch).length ≤ w.node.trace.length := List.length_filterMap_le ..
  have hring : tunnelReplayRingSize = 8 := rfl
  exact ⟨by omega, fun _ => by omega⟩

theorem reach_smallAhead (whole : ℕ → Bool) : World.Reach (World.Room whole 0x11 9) smallJoined smallAhead := by
  have hkeeps₁ : smallJoined.Keeps (.nodeHears 0 (smallNodeView 3)) := by
    rw [World.Keeps]
    decide +kernel
  have hkeeps₂ : (smallJoined.step (.nodeHears 0 (smallNodeView 3))).Keeps
      (.send true 2 [1] (smallNodeView 4)) := by
    rw [World.Keeps]
    decide +kernel
  exact .step (.step .start _ hkeeps₁ (room_of_trace (by decide +kernel))) _ hkeeps₂
    (room_of_trace (by decide +kernel))

theorem reach_smallHeard (whole : ℕ → Bool) : World.Reach (World.Room whole 0x11 9) smallJoined smallHeard := by
  have hkeeps : smallAhead.Keeps (.rootHears 1 (smallRootView 5)) := by
    rw [World.Keeps]
    decide +kernel
  exact .step (reach_smallAhead whole) _ hkeeps (room_of_trace (by decide +kernel))

end Fresh

/-! ## What is handed on -/

/-- Items that are picked by growing numbers are picked in order. -/
theorem sublist_of_numbered {α : Type*} {items : List α} {picked : List (ℕ × α)}
    (hgenuine : ∀ x ∈ picked, numbered items x.1 = some x.2)
    (hsorted : picked.Pairwise fun x y => x.1 < y.1) :
    (picked.map Prod.snd).Sublist items := by
  induction picked using List.reverseRecOn generalizing items with
  | nil => exact List.nil_sublist _
  | append_singleton picked last ih =>
      obtain ⟨hpicked, -, hbefore⟩ := List.pairwise_append.mp hsorted
      have hlast := hgenuine last (by simp)
      rw [numbered] at hlast
      split at hlast
      · simp at hlast
      · next hzero =>
          obtain ⟨hlt, hget⟩ := List.getElem?_eq_some_iff.mp hlast
          -- The earlier ones lie before the last one.
          have hinit : (picked.map Prod.snd).Sublist (items.take (last.1 - 1)) := by
            refine ih (fun x hx => ?_) hpicked
            have hx' := hgenuine x (List.mem_append_left _ hx)
            have hless := hbefore x hx last (List.mem_singleton_self _)
            rw [numbered] at hx' ⊢
            split at hx'
            · simp at hx'
            · rw [if_neg (by assumption), List.getElem?_take_of_lt (by omega), hx']
          rw [List.map_append, ← List.take_append_drop (last.1 - 1) items,
            List.drop_eq_getElem_cons hlt, hget]
          exact hinit.append (List.Sublist.cons_cons _ (List.nil_sublist _))

section Reach

variable {whole : ℕ → Bool} {mac : Mac} {session : U32} {w w₀ : World} {channel : ℕ}

/-- In a session the root hands the frames of a channel on with growing numbers, each with
the payload that the node kept under its number. -/
theorem handed_on_in_order (h₀ : w₀.Fresh mac session)
    (h : World.Reach (World.Room (fun _ => false) mac session) w₀ w)
    (hchannel : noChannel channel = false) :
    (delivered mac channel w.root).Pairwise (fun x y => x.1 < y.1) ∧
      (∀ x ∈ delivered mac channel w.root,
        numbered (w.node.inners channel) x.1 = some x.2) ∧
      ((delivered mac channel w.root).map Prod.snd).Sublist (w.node.inners channel) := by
  have hlinked := (h.linked (h₀.linked (by simp)) h₀.room).1
  have hstream := hlinked.stream channel hchannel
  exact ⟨hstream.sorted, hstream.genuine,
    sublist_of_numbered hstream.genuine hstream.sorted⟩

theorem handed_on_in_order_smallHeard :
    delivered 0x11 2 smallHeard.root = [(1, [1])] ∧
      ((delivered 0x11 2 smallHeard.root).map Prod.snd).Sublist (smallHeard.node.inners 2) :=
  ⟨by decide +kernel, (handed_on_in_order fresh_smallJoined.1 (reach_smallHeard _) rfl).2.2⟩

end Reach

/-! ## Closing a gap -/

/-- Both ends hear each other's last packet, again and again. -/
def World.recover (w : World) : List (NodeView × RootView) → World
  | [] => w
  | (view, rootView) :: rest => ((w.nodeHearsLast view).rootHearsLast rootView).recover rest

/-- The root saw the newest frame of a channel, and as long as frames are missing its last
packet to the node asks for the first of them. -/
structure Asking (whole : ℕ → Bool) (mac : Mac) (session : U32) (channel left : ℕ)
    (w : World) : Prop where
  linked : Linked whole mac session w
  room : w.Room whole mac session
  track : ∃ expected highest, w.root.track mac session channel = some (expected, highest) ∧
    highest.toNat = (w.node.inners channel).length ∧
    expected.toNat + left = (w.node.inners channel).length + 1 ∧
    (0 < left → ∃ t : TunnelHdr, t.channelId.toNat = channel ∧
      (sendsTo mac w.root).getLast? = some (nackPacket w.root.localMac session t expected))

section Gap

variable {whole : ℕ → Bool} {mac : Mac} {session : U32} {w w₀ : World} {channel left : ℕ}

/-- The node answers a NACK for a kept frame with the frame. -/
theorem handleRx_nack {n : TunnelNode} {src : Mac} {t : TunnelHdr} {missingSeq : U32}
    {view : NodeView} {packet : List UInt8} (hsession : n.sessionId = session)
    (hview : view.expectedRoot = 0 ∨ view.expectedRoot = src)
    (hchannel : noChannel t.channelId.toNat = false)
    (hfound : lookup (n.tunnelTx t.channelId.toNat).ring missingSeq.toNat = some packet) :
    (n.handleRx src (nackPacket src session t missingSeq) view).1.sends =
        n.sends ++ [replayTunnelPacket packet] ∧
      (n.handleRx src (nackPacket src session t missingSeq) view).1.inners = n.inners := by
  have hpay : payloadMax = 192 := rfl
  have hmiss : tunnelMissSize = 20 := rfl
  have hfit : (t.nack missingSeq).bytes.length ≤ payloadMax := by
    rw [TunnelMiss.length_bytes]
    omega
  obtain ⟨h, hvalid, hsrc, htype, hid, hh⟩ :=
    packetValid_packetHdr src session typeTunnelNack hfit
  rw [TunnelMiss.length_bytes] at hh
  have hread : (WireHdr.read (nackPacket src session t missingSeq)).srcMac = src := by
    rw [nackPacket, ← hdr_of_packetValid hvalid, hsrc]
  have hours : ¬(hdrSize ≤ (nackPacket src session t missingSeq).length ∧
      ((WireHdr.read (nackPacket src session t missingSeq)).srcMac ≠ src ∨
        view.expectedRoot ≠ 0 ∧ view.expectedRoot ≠ src)) := by
    rintro ⟨-, hne | ⟨hzero, hother⟩⟩
    · exact hne hread
    · exact hview.elim hzero hother
  rw [TunnelNode.handleRx, if_neg hours, MeshNode.validatePacket_eq, nackPacket, hvalid]
  dsimp only
  rw [if_neg (by rw [hsrc]; simp), htype, if_neg (by decide), if_neg (by decide),
    if_neg (by decide), if_neg (by decide), if_pos rfl]
  simp only [TunnelNode.handleTunnelNack, TunnelMiss.read_bytes, hh, hid, hsession,
    TunnelHdr.nack, TunnelNode.tunnelRingCopy, hchannel, hfound, lt_irrefl, if_true, if_false,
    Bool.false_eq_true]
  refine ⟨TunnelNode.sends_emit_send _ _, funext fun ch => ?_⟩
  exact TunnelNode.inners_emit_send _ _ ch

/-- The root hears a frame of a channel that it follows. -/
theorem Linked.hearsLast (h : Linked whole mac session w) (hroom : w.Room whole mac session)
    (hchannel : noChannel channel = false) {seq : U32} {flags : BitVec 8} {inner : List UInt8}
    (hlen : inner.length ≤ tunnelInnerMax)
    (hinner : numbered (w.node.inners channel) seq.toNat = some inner)
    (hlast : w.node.sends.getLast? = some (framePacket mac session
      { frameHdr mac channel seq inner.length with flags := flags } inner))
    {expected highest : U32} (htrack : w.root.track mac session channel = some (expected, highest))
    (view : RootView) :
    Linked whole mac session (w.rootHearsLast view) ∧
      (w.rootHearsLast view).Room whole mac session ∧
      (w.rootHearsLast view).node = w.node ∧
      (w.rootHearsLast view).root.localMac = w.root.localMac ∧
      ∃ t verdict, t.channelId.toNat = channel ∧ verdict = judge expected highest seq ∧
        (w.rootHearsLast view).root.track mac session channel =
          some (verdict.expectedSeq, verdict.highestSeenSeq) ∧
        (sendsTo mac (w.rootHearsLast view).root).getLast? =
          some (replyPacket w.root.localMac session t verdict) := by
  generalize ht : { frameHdr mac channel seq inner.length with flags := flags } = t at hlast
  have hid : t.channelId.toNat = channel := by
    have hch := noChannel_eq_false.mp hchannel
    rw [← ht]
    exact Nat.mod_eq_of_lt (by omega)
  have hseq : t.seq = seq := by
    rw [← ht]
    rfl
  have horigin : t.originMac = mac := by
    rw [← ht]
    rfl
  obtain ⟨hlocal, hheard⟩ := handleRx_frame (r := w.root) h.opened hchannel hlen ht.symm view
  have hstep : w.rootHearsLast view = { w with root :=
      (w.root.handleRx mac (framePacket mac session t inner) view).1 } := by
    rw [World.rootHearsLast, World.step, getElem?_last, hlast, h.node.localMac]
  rw [← hid] at hchannel hinner
  rw [← hseq] at hinner
  have hmono := h.heard_mono hheard hchannel hinner hroom
  rw [hstep]
  refine ⟨h.frame hheard horigin hchannel hinner hroom, fun ch hch => ⟨(hroom ch hch).1,
    fun hwhole => ((hroom ch hch).2 hwhole).trans_le (Nat.add_le_add_right (hmono ch) _)⟩,
    rfl, hlocal, ?_⟩
  cases hheard with
  | full hnone _ _ =>
      rw [hnone] at htrack
      simp at htrack
  | @judged verdict hverdict htrack' htrace =>
      rw [hid, htrack, hseq] at hverdict
      refine ⟨t, verdict, hid, hverdict, ?_, ?_⟩
      · rw [htrack', if_pos hid.symm]
      · rw [sendsTo, htrace, List.filterMap_append, List.filterMap_cons, packetTo, if_pos rfl,
          packetTo_handOn]
        exact List.getLast?_append_of_ne_nil _ (by simp)

/-- The expected frame, when later ones were seen. -/
theorem judge_expected {expected highest : U32} (hle : expected.toNat ≤ highest.toNat)
    (hroom : highest.toNat < 2 ^ 32 - 1) :
    (judge expected highest expected).expectedSeq.toNat = expected.toNat + 1 ∧
      (judge expected highest expected).highestSeenSeq = highest ∧
      (expected.toNat < highest.toNat → (judge expected highest expected).sendNack = true ∧
        (judge expected highest expected).missingSeq =
          (judge expected highest expected).expectedSeq) := by
  have hone : (1 : U32).toNat = 1 := rfl
  have hnext : (expected + 1).toNat = expected.toNat + 1 := by
    rw [BitVec.toNat_add, hone, Nat.mod_eq_of_lt (by omega)]
  have hseen : (judge expected highest expected).highestSeenSeq = highest := by
    rw [highest_judge, if_neg]
    rw [gt_iff_lt, BitVec.lt_def]
    omega
  refine ⟨?_, hseen, fun hlt => ?_⟩
  · rw [judge, if_pos rfl]
    exact hnext
  · have hbehind : expected + 1 ≤ highest := by
      rw [BitVec.le_def, hnext]
      exact hlt
    have hsend : (judge expected highest expected).sendNack =
        decide (expected + 1 ≤ (judge expected highest expected).highestSeenSeq) := by
      rw [judge, if_pos rfl]
    rw [hseen, decide_eq_true hbehind] at hsend
    refine ⟨hsend, ?_⟩
    rw [judge, if_pos rfl] at hsend ⊢
    exact if_pos hsend

/-- One round brings the root the frame that it asked for. -/
theorem Asking.round (h : Asking whole mac session channel (left + 1) w)
    (hchannel : noChannel channel = false) (hwhole : whole channel = true) {view : NodeView}
    (hview : view.expectedRoot = 0 ∨ view.expectedRoot = w.root.localMac)
    (rootView : RootView) :
    Asking whole mac session channel left ((w.nodeHearsLast view).rootHearsLast rootView) ∧
      ((w.nodeHearsLast view).rootHearsLast rootView).node.inners = w.node.inners ∧
      ((w.nodeHearsLast view).rootHearsLast rootView).root.localMac = w.root.localMac := by
  obtain ⟨hlinked, hroom, expected, highest, htrack, hhighest, hleft, hasked⟩ := h
  obtain ⟨t, hid, hlast⟩ := hasked (Nat.succ_pos left)
  obtain ⟨hpos, -⟩ := (hlinked.stream channel hchannel).seen expected highest htrack
  have hring : tunnelReplayRingSize = 8 := rfl
  -- The node still has the frame.
  obtain ⟨released, hreleased, hholds⟩ := hlinked.node.holds channel hchannel
  have hahead := (hroom channel hchannel).2 hwhole
  rw [World.expected, htrack] at hreleased hahead
  change released ≤ expected.toNat - 1 at hreleased
  change _ < expected.toNat + _ at hahead
  have hthere : lookup (w.node.tunnelTx channel).ring expected.toNat =
      numbered (framesOf mac session channel (w.node.inners channel)) expected.toNat :=
    hholds.found (by omega)
      (by rw [length_framesOf, hlinked.node.size channel hchannel]; exact hahead)
  have hsome : numbered (framesOf mac session channel (w.node.inners channel))
      expected.toNat ≠ none := by
    rw [Ne, numbered_eq_none, length_framesOf]
    omega
  obtain ⟨packet, hpacket⟩ := Option.ne_none_iff_exists'.mp hsome
  rw [hpacket] at hthere
  obtain ⟨inner, hinner, hlen, hframe⟩ := hlinked.node.kept hchannel hthere
  obtain ⟨hsends, hinners⟩ := handleRx_nack hlinked.node.sessionId hview (hid ▸ hchannel)
    (hid ▸ hthere)
  -- It sends the frame again.
  generalize hanswer : (w.node.handleRx w.root.localMac
    (nackPacket w.root.localMac session t expected) view).1 = n' at hsends hinners
  have hnode : w.nodeHearsLast view = { w with node := n' } := by
    rw [World.nodeHearsLast, World.step, getElem?_last, hlinked.node.localMac, hlast, ← hanswer]
  have hroom₁ : { w with node := n' }.Room whole mac session := by
    intro ch hch
    rw [hinners]
    exact hroom ch hch
  have hlinked₁ : Linked whole mac session { w with node := n' } := by
    rw [← hanswer] at hroom₁ ⊢
    refine hlinked.nodeHears (hlinked.replies _ (List.mem_of_getLast? hlast)) (fun htype => ?_)
      hroom hroom₁
    rw [nackPacket, read_sealPacket] at htype
    have hne : ¬typeTunnelNack = typeTunnelData := by decide
    exact absurd htype hne
  -- The root takes it and asks for the next one.
  have hlast₁ : n'.sends.getLast? = some (framePacket mac session
      { frameHdr mac channel expected inner.length with flags := ackFlags ||| replayFlag }
      inner) := by
    rw [hsends, List.getLast?_concat, hframe]
  obtain ⟨hlinked₂, hroom₂, hsame, hlocal, t', verdict, hid', hverdict, htrack₂, hlast₂⟩ :=
    hlinked₁.hearsLast hroom₁ hchannel hlen (hinners ▸ hinner) hlast₁ htrack rootView
  rw [hnode]
  refine ⟨⟨hlinked₂, hroom₂, verdict.expectedSeq, verdict.highestSeenSeq, htrack₂, ?_⟩, ?_,
    hlocal⟩
  · have hwindow := (hroom channel hchannel).1
    have hbehind : expected.toNat ≤ highest.toNat := by omega
    obtain ⟨hexpected, hseen, hnext⟩ := judge_expected hbehind (by omega)
    rw [← hverdict] at hexpected hseen hnext
    rw [hsame, hseen, hexpected]
    change _ = (n'.inners channel).length ∧ _ = (n'.inners channel).length + 1 ∧ _
    rw [hinners]
    refine ⟨hhighest, by omega, fun hmore => ⟨t', hid', ?_⟩⟩
    obtain ⟨hnack, hmissing⟩ := hnext (by omega)
    rw [hlast₂, replyPacket, if_pos hnack, hmissing, hlocal]
  · rw [hsame]
    exact hinners

theorem Asking.recover {views : List (NodeView × RootView)}
    (h : Asking whole mac session channel views.length w)
    (hchannel : noChannel channel = false) (hwhole : whole channel = true)
    (hviews : ∀ v ∈ views, v.1.expectedRoot = 0 ∨ v.1.expectedRoot = w.root.localMac) :
    Asking whole mac session channel 0 (w.recover views) ∧
      (w.recover views).node.inners = w.node.inners := by
  induction views generalizing w with
  | nil => exact ⟨h, rfl⟩
  | cons v rest ih =>
      obtain ⟨hround, hinners, hlocal⟩ :=
        h.round hchannel hwhole (hviews v (List.mem_cons_self ..)) v.2
      obtain ⟨hdone, hsame⟩ := ih hround fun u hu => by
        rw [hlocal]
        exact hviews u (List.mem_cons_of_mem _ hu)
      exact ⟨hdone, hsame.trans hinners⟩

end Gap

end KeemashCore.Tunnel
