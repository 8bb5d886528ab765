import KeemashCore.Mesh.Agreement

/-!
# Rejected packets

Which packets `keemash_rel_handle_rx` rejects for what they contain, and what it has
changed by then.  Two things are written too early.  The lookup of a node's only peer
replaces the address its packets go to before the binding is checked, and a DATA frame of
the current binding marks the route as up before its LATEST flag is checked.
-/

namespace KeemashCore.Rel

open SlotTable

/-! ## The link -/

/-- The part of a record that stands for the link with the peer. -/
structure Peer.SameLink (p p' : Peer) : Prop where
  ready : p'.ready = p.ready
  root : p'.rootSessionId = p.rootSessionId
  node : p'.nodeSessionId = p.nodeSessionId
  capabilities : p'.capabilities = p.capabilities
  next : p'.nextSeq = p.nextSeq
  expected : p'.expectedSeq = p.expectedSeq
  pending : p'.pendingLost = p.pendingLost
  routeUp : p'.routeUp = p.routeUp
  routeDown : p'.routeDownSinceMs = p.routeDownSinceMs
  routeChange : p'.lastRouteChangeMs = p.lastRouteChangeMs

/-- The links, the addresses that packets are sent to and the slots are as they were. -/
structure LinkKept (c c' : Ctx) : Prop where
  has : ∀ key, c'.has key ↔ c.has key
  link : ∀ key, (c.peer key).SameLink (c'.peer key)
  sendMac : ∀ key, c'.peerSendMac key = c.peerSendMac key
  tx : c'.tx = c.tx
  rx : c'.rx = c.rx
  reassembly : c'.reassembly = c.reassembly

theorem LinkKept.refl (c : Ctx) : LinkKept c c :=
  ⟨fun _ => Iff.rfl, fun _ => ⟨rfl, rfl, rfl, rfl, rfl, rfl, rfl, rfl, rfl, rfl⟩, fun _ => rfl,
    rfl, rfl, rfl⟩

/-! ## What is returned -/

/-- The context with another transport. -/
def Ctx.withSend (c : Ctx) (send : Mac → Packet → EspErr) : Ctx :=
  { c with cfg := { c.cfg with send := send } }

/-- The errors with which a packet is rejected. -/
def isValidation : EspErr → Bool
  | .invalidCrc | .invalidArg | .invalidSize | .invalidState | .notSupported => true
  | _ => false

/-- The packet is rejected with this error for what it contains: the error does not depend
on what the transport answers to the packets that are sent in return. -/
def Rejected (c : Ctx) (src : Mac) (packet : List UInt8) (now : U32) (err : EspErr) : Prop :=
  isValidation err = true ∧
    ∀ send, (handleRxBytes (c.withSend send) src packet now).2 = err

/-! ## The checks -/

/-- The record that the packet is looked up under is ready with this binding. -/
def boundTo (c : Ctx) (src : Mac) (rootSessionId nodeSessionId : U32) : Bool :=
  let p := c.peer (c.keyOf src)
  p.ready && p.rootSessionId == rootSessionId && p.nodeSessionId == nodeSessionId

/-- The fields of an ACK that `handle_ack_packet` checks. -/
def ackMalformed (c : Ctx) (src : Mac) (ack : AckPayload) : Bool :=
  ack.channelId == 0 || decide (ack.channelId ≥ channelCount) ||
    ack.originMac != c.cfg.localMac || ack.targetMac != src

/-- The fields of a LOST packet that `handle_lost_packet` checks. -/
def lostMalformed (c : Ctx) (src : Mac) (lost : LostPayload) : Bool :=
  lost.channelId == 0 || decide (lost.channelId ≥ channelCount) ||
    lost.originMac != src || lost.targetMac != c.cfg.localMac

/-- The fields of a HELLO_ACK that `handle_hello_ack` checks. -/
def helloAckMalformed (c : Ctx) (ack : HelloAckPayload) : Bool :=
  c.cfg.rootRole || ack.profileVersion != reliableProfileVersion ||
    ack.nodeSessionId != c.localSession ||
    ack.capabilities &&& requiredCapabilities != requiredCapabilities

/-- The error with which a packet handler leaves at one of its checks. -/
def bodyRejection (c : Ctx) (src : Mac) : Body → Option EspErr
  | .hello hello => if helloUnsupported c hello then some .notSupported else none
  | .helloAck ack => if helloAckMalformed c ack then some .invalidState else none
  | .data rh payload =>
      if dataMalformed c src rh payload then some .invalidArg
      else if !boundTo c src rh.rootSessionId rh.nodeSessionId then some .invalidState
      else if latestRefused rh then some .invalidArg
      else none
  | .ack ack | .nack ack =>
      if !boundTo c src ack.rootSessionId ack.nodeSessionId || ackMalformed c src ack
      then some .invalidState else none
  | .lost lost =>
      if !boundTo c src lost.rootSessionId lost.nodeSessionId || lostMalformed c src lost
      then some .invalidState else none

/-- The handler gets as far as `peer_find`, although it may still reject the packet. -/
def looksUp (c : Ctx) (src : Mac) : Body → Bool
  | .hello _ | .helloAck _ => false
  | .data rh payload => !dataMalformed c src rh payload
  | .ack _ | .nack _ | .lost _ => true

/-- The handler gets as far as marking the route as up. -/
def hears (c : Ctx) (src : Mac) : Body → Bool
  | .data rh payload =>
      !dataMalformed c src rh payload && boundTo c src rh.rootSessionId rh.nodeSessionId
  | _ => false

/-- The context in which a handler rejects a packet. -/
def rejectedCtx (c : Ctx) (src : Mac) (body : Body) (now : U32) : Ctx :=
  if hears c src body then
    match body with
    | .data rh _ => (c.noteMac src).modPeer (c.keyOf src) (Peer.heardData rh now)
    | _ => c
  else if looksUp c src body then c.noteMac src
  else c

theorem modPeer_missing {c : Ctx} {key : Mac} (h : ¬c.has key) (f : Peer → Peer) :
    c.modPeer key f = c := by
  have hnone : ∀ p ∈ used c.peers, (p.mac == key) = false := by
    have hfind : (used c.peers).find? (fun p => p.mac == key) = none := by
      simpa [Ctx.has, Ctx.peerAt] using h
    intro p hp
    simpa using List.find?_eq_none.mp hfind p hp
  have htable : (c.peers.map fun entry =>
      entry.map fun p => if p.mac == key then f p else p) = c.peers := by
    conv_rhs => rw [← List.map_id c.peers]
    refine List.map_congr_left fun entry hentry => ?_
    cases entry with
    | none => rfl
    | some p =>
        have hp : p ∈ used c.peers := mem_used.mpr (mem_held.mpr hentry)
        have hne : p.mac ≠ key := by simpa using hnone p hp
        simp [hne]
  rw [Ctx.modPeer, htable]
  rfl

theorem peerFind_fst (c : Ctx) (mac : Mac) (now : U32) :
    (peerFind c mac false now).1 = c.noteMac mac := by
  by_cases hhas : c.has (c.keyOf mac)
  · rw [peerFind_stored hhas]
  · rw [peerFind_missing hhas, Ctx.noteMac, modPeer_missing hhas]
    split
    · rfl
    · rfl

theorem boundPeer_peerFind (c : Ctx) (mac : Mac) (now rootSessionId nodeSessionId : U32) :
    boundPeer (peerFind c mac false now).1 (peerFind c mac false now).2 rootSessionId
        nodeSessionId =
      if boundTo c mac rootSessionId nodeSessionId then some (c.keyOf mac) else none := by
  by_cases hhas : c.has (c.keyOf mac)
  · rw [peerFind_stored hhas]
    simp only [boundPeer, boundTo]
    rw [peer_noteMac Peer.ready fun _ _ => rfl, peer_noteMac Peer.rootSessionId fun _ _ => rfl,
      peer_noteMac Peer.nodeSessionId fun _ _ => rfl]
    rfl
  · have hnone : c.peerAt (c.keyOf mac) = none := by simpa [Ctx.has] using hhas
    have hready : (c.peer (c.keyOf mac)).ready = false := by
      rw [Ctx.peer, hnone]
      rfl
    rw [peerFind_missing hhas]
    simp [boundPeer, boundTo, hready]

/-! ## The two ways out -/

/-- The results of a packet that passes the checks: the handler's own, and what the
transport answers. -/
def Accepting (c : Ctx) (err : EspErr) : Prop :=
  err = .ok ∨ err = .noMem ∨ ∃ mac packet, err = c.cfg.send mac packet

theorem accepting_send {c c' : Ctx} (hcfg : c'.cfg = c.cfg) (mac : Mac) (packet : Packet) :
    Accepting c (c'.cfg.send mac packet) :=
  .inr (.inr ⟨mac, packet, by rw [hcfg]⟩)

section Handlers

variable {c : Ctx} {src : Mac} {now : U32}

theorem accepting_acceptData {c' : Ctx} (hcfg : c'.cfg = c.cfg) (key : Mac) (rh : ReliableHdr)
    (payload : List UInt8) : Accepting c (acceptData c' key rh payload now).2 := by
  have hdrain := fun c => rootKept_drain c key rh.channelId now
  have hfeed : (drain (deliverFragment (fun c => drain c key rh.channelId now)
      (c'.setExpected key rh.channelId ((c'.peer key).expectedSeq rh.channelId + 1)) key rh
      (payload.take rh.payloadLen) now) key rh.channelId now).cfg = c'.cfg :=
    ((((RootKept.refl c').setExpected _).deliverFragment hdrain).trans (hdrain _)).cfg
  simp only [acceptData]
  split
  · exact accepting_send hcfg _ _
  · split
    · exact accepting_send (hfeed.trans hcfg) _ _
    · split
      · exact accepting_send hcfg _ _
      · split
        · exact accepting_send hcfg _ _
        · split
          · exact .inr (.inl rfl)
          · exact accepting_send hcfg _ _

theorem handleHello_outcome (hello : HelloPayload) :
    (helloUnsupported c hello = true → handleHello c src hello now = (c, .notSupported)) ∧
      (helloUnsupported c hello = false → Accepting c (handleHello c src hello now).2) := by
  constructor
  · intro h
    rw [handleHello, if_pos h]
  · intro h
    have hfind := (RootKept.refl c).peerFind src true now
    rw [handleHello, if_neg (by simp [h])]
    split
    · exact .inr (.inl rfl)
    · next heq =>
        rw [heq] at hfind
        refine accepting_send ?_ _ _
        split
        · exact hfind.clearPeerBuffers.cfg
        · exact hfind.cfg

theorem handleHelloAck_outcome (ack : HelloAckPayload) :
    (helloAckMalformed c ack = true → handleHelloAck c src ack now = (c, .invalidState)) ∧
      (helloAckMalformed c ack = false → Accepting c (handleHelloAck c src ack now).2) := by
  have hiff : helloAckMalformed c ack = true ↔ c.cfg.rootRole = true ∨
      ack.profileVersion ≠ reliableProfileVersion ∨ ack.nodeSessionId ≠ c.localSession ∨
        ack.capabilities &&& requiredCapabilities ≠ requiredCapabilities := by
    simp [helloAckMalformed, or_assoc]
  constructor
  · intro h
    rw [handleHelloAck, if_pos (hiff.mp h)]
  · intro h
    rw [handleHelloAck, if_neg (fun hbad => by simp [hiff.mpr hbad] at h)]
    split
    · exact .inr (.inl rfl)
    · exact .inl rfl

theorem handleData_outcome (rh : ReliableHdr) (payload : List UInt8) :
    match bodyRejection c src (.data rh payload) with
    | some err => handleData c src rh payload now =
        (rejectedCtx c src (.data rh payload) now, err)
    | none => Accepting c (handleData c src rh payload now).2 := by
  have hfind := (RootKept.refl c).peerFind src false now
  cases hformed : dataMalformed c src rh payload with
  | true =>
      simp only [bodyRejection, hformed, if_true, rejectedCtx, hears, looksUp, Bool.not_true,
        Bool.false_and, Bool.false_eq_true, if_false]
      rw [handleData, if_pos hformed]
  | false =>
      cases hbound : boundTo c src rh.rootSessionId rh.nodeSessionId with
      | false =>
          have hnone := boundPeer_peerFind c src now rh.rootSessionId rh.nodeSessionId
          rw [hbound, if_neg Bool.false_ne_true] at hnone
          simp only [bodyRejection, hformed, hbound, rejectedCtx, hears, looksUp, Bool.not_false,
            Bool.and_false, Bool.false_eq_true, if_false, if_true]
          rw [handleData, if_neg (by simp [hformed])]
          simp only [hnone]
          rw [peerFind_fst]
      | true =>
          have hsome := boundPeer_peerFind c src now rh.rootSessionId rh.nodeSessionId
          rw [hbound, if_pos rfl] at hsome
          rw [handleData_bound hformed hsome]
          cases hlatest : latestRefused rh with
          | true =>
              simp only [bodyRejection, hformed, hbound, hlatest, rejectedCtx, hears,
                Bool.not_true, Bool.not_false, Bool.and_true, Bool.false_eq_true, if_false,
                if_true, peerFind_fst]
          | false =>
              simp only [bodyRejection, hformed, hbound, hlatest, Bool.not_true,
                Bool.false_eq_true, if_false]
              apply accepting_acceptData
              rw [heardData]
              split
              · exact hfind.cfg
              · exact hfind.cfg

theorem handleAckPacket_outcome (ack : AckPayload) (nack : Bool) :
    ((!boundTo c src ack.rootSessionId ack.nodeSessionId || ackMalformed c src ack) = true →
        handleAckPacket c src ack nack now = (c.noteMac src, .invalidState)) ∧
      ((!boundTo c src ack.rootSessionId ack.nodeSessionId || ackMalformed c src ack) = false →
        Accepting c (handleAckPacket c src ack nack now).2) := by
  have hfind := (RootKept.refl c).peerFind src false now
  have hbound := boundPeer_peerFind c src now ack.rootSessionId ack.nodeSessionId
  have hcfg : (peerFind c src false now).1.cfg = c.cfg := hfind.cfg
  have hiff : ackMalformed c src ack = true ↔ ack.channelId = 0 ∨
      ack.channelId ≥ channelCount ∨ ack.originMac ≠ c.cfg.localMac ∨ ack.targetMac ≠ src := by
    simp [ackMalformed, or_assoc]
  simp only [handleAckPacket, hbound, hcfg]
  cases hb : boundTo c src ack.rootSessionId ack.nodeSessionId with
  | false => simp [peerFind_fst]
  | true =>
      simp only [if_true, Bool.not_true, Bool.false_or]
      constructor
      · intro h
        rw [if_pos (hiff.mp h), peerFind_fst]
      · intro h
        rw [if_neg (fun hbad => by simp [hiff.mpr hbad] at h)]
        have hseen : RootKept c
            ((peerFind c src false now).1.modPeer (c.keyOf src) Peer.routeSeen) :=
          hfind.modPeer (fun _ => rfl) (fun _ => rfl)
        have hack : RootKept c (ackSlots
            ((peerFind c src false now).1.modPeer (c.keyOf src) Peer.routeSeen) (c.keyOf src)
            ack now) :=
          hseen.ackSlots
        split
        · split
          · next i hi =>
              obtain ⟨slot, hslot, -⟩ := entryAt_of_findIdx hi
              rw [retransmitSlot, hslot]
              exact accepting_send hack.cfg _ _
          · exact accepting_send hack.recordLost.cfg _ _
        · exact .inl rfl

theorem handleLostPacket_outcome (lost : LostPayload) :
    ((!boundTo c src lost.rootSessionId lost.nodeSessionId || lostMalformed c src lost) = true →
        handleLostPacket c src lost now = (c.noteMac src, .invalidState)) ∧
      ((!boundTo c src lost.rootSessionId lost.nodeSessionId || lostMalformed c src lost) =
          false → Accepting c (handleLostPacket c src lost now).2) := by
  have hfind := (RootKept.refl c).peerFind src false now
  have hbound := boundPeer_peerFind c src now lost.rootSessionId lost.nodeSessionId
  have hcfg : (peerFind c src false now).1.cfg = c.cfg := hfind.cfg
  have hiff : lostMalformed c src lost = true ↔ lost.channelId = 0 ∨
      lost.channelId ≥ channelCount ∨ lost.originMac ≠ src ∨
        lost.targetMac ≠ c.cfg.localMac := by
    simp [lostMalformed, or_assoc]
  simp only [handleLostPacket, hbound, hcfg]
  cases hb : boundTo c src lost.rootSessionId lost.nodeSessionId with
  | false => simp [peerFind_fst]
  | true =>
      simp only [if_true, Bool.not_true, Bool.false_or]
      constructor
      · intro h
        rw [if_pos (hiff.mp h), peerFind_fst]
      · intro h
        rw [if_neg (fun hbad => by simp [hiff.mpr hbad] at h)]
        split
        · exact .inl rfl
        · split
          · exact .inl rfl
          · split
            · split
              · exact .inl rfl
              · exact .inr (.inl rfl)
            · exact .inl rfl

/-- A handler leaves at a check, or its result is its own or the transport's. -/
theorem handleRx_outcome {packet : Packet} (hmac : packet.srcMac = src) :
    match bodyRejection c src packet.body with
    | some err => handleRx c src packet now = (rejectedCtx c src packet.body now, err)
    | none => Accepting c (handleRx c src packet now).2 := by
  obtain ⟨sessionId, srcMac, body⟩ := packet
  rw [handleRx, if_neg (fun h => h hmac)]
  cases body with
  | hello hello =>
      obtain ⟨hbad, hgood⟩ := @handleHello_outcome c src now hello
      cases h : helloUnsupported c hello with
      | true => simpa [bodyRejection, h, rejectedCtx, hears, looksUp] using hbad h
      | false => simpa [bodyRejection, h] using hgood h
  | helloAck ack =>
      obtain ⟨hbad, hgood⟩ := @handleHelloAck_outcome c src now ack
      cases h : helloAckMalformed c ack with
      | true => simpa [bodyRejection, h, rejectedCtx, hears, looksUp] using hbad h
      | false => simpa [bodyRejection, h] using hgood h
  | data rh payload => exact handleData_outcome rh payload
  | ack ack =>
      obtain ⟨hbad, hgood⟩ := @handleAckPacket_outcome c src now ack false
      cases h : !boundTo c src ack.rootSessionId ack.nodeSessionId || ackMalformed c src ack with
      | true => simpa only [bodyRejection, h, if_true, rejectedCtx, hears, looksUp,
          Bool.false_eq_true, if_false] using hbad h
      | false => simpa only [bodyRejection, h, Bool.false_eq_true, if_false] using hgood h
  | nack ack =>
      obtain ⟨hbad, hgood⟩ := @handleAckPacket_outcome c src now ack true
      cases h : !boundTo c src ack.rootSessionId ack.nodeSessionId || ackMalformed c src ack with
      | true => simpa only [bodyRejection, h, if_true, rejectedCtx, hears, looksUp,
          Bool.false_eq_true, if_false] using hbad h
      | false => simpa only [bodyRejection, h, Bool.false_eq_true, if_false] using hgood h
  | lost lost =>
      obtain ⟨hbad, hgood⟩ := @handleLostPacket_outcome c src now lost
      cases h : !boundTo c src lost.rootSessionId lost.nodeSessionId ||
          lostMalformed c src lost with
      | true => simpa only [bodyRejection, h, if_true, rejectedCtx, hears, looksUp,
          Bool.false_eq_true, if_false] using hbad h
      | false => simpa only [bodyRejection, h, Bool.false_eq_true, if_false] using hgood h

end Handlers

theorem isValidation_bodyRejection {c : Ctx} {src : Mac} {body : Body} {err : EspErr}
    (h : bodyRejection c src body = some err) : isValidation err = true := by
  cases body with
  | data rh payload =>
      simp only [bodyRejection] at h
      split at h
      · obtain rfl := Option.some.inj h
        rfl
      · split at h
        · obtain rfl := Option.some.inj h
          rfl
        · split at h
          · obtain rfl := Option.some.inj h
            rfl
          · simp at h
  | _ =>
      simp only [bodyRejection] at h
      split at h
      · obtain rfl := Option.some.inj h
        rfl
      · simp at h

/-- The body that a packet handler gets to see. -/
def handledBody (src : Mac) (packet : List UInt8) : Option Body :=
  match packetValid packet with
  | none => none
  | some (h, payload) =>
      if h.srcMac ≠ src then none
      else
        match readBody h.type payload with
        | .error _ => none
        | .ok body => some body

/-- Before the handlers nothing is changed; after that the handler decides. -/
theorem handleRxBytes_handled (src : Mac) (packet : List UInt8) (now : U32) :
    (handledBody src packet = none ∧ ∃ err, isValidation err = true ∧
        ∀ c : Ctx, handleRxBytes c src packet now = (c, err)) ∨
      ∃ body sessionId, handledBody src packet = some body ∧ ∀ c : Ctx,
        handleRxBytes c src packet now =
          handleRx c src { sessionId := sessionId, srcMac := src, body := body } now := by
  have hsized (size : ℕ) (payload : List UInt8) (body : Body) (err : EspErr)
      (h : sizedBody size payload body = .error err) : isValidation err = true := by
    rw [sizedBody] at h
    split at h
    · obtain rfl := Except.error.inj h
      rfl
    · cases h
  simp only [handledBody, handleRxBytes]
  cases hvalid : packetValid packet with
  | none => exact .inl ⟨rfl, .invalidCrc, rfl, fun _ => rfl⟩
  | some found =>
      obtain ⟨h, payload⟩ := found
      by_cases hmac : h.srcMac ≠ src
      · simp only [if_pos hmac]
        exact .inl ⟨trivial, .invalidArg, rfl, fun _ => rfl⟩
      · simp only [if_neg hmac]
        cases hbody : readBody h.type payload with
        | error err =>
            refine .inl ⟨rfl, err, ?_, fun _ => rfl⟩
            simp only [readBody] at hbody
            repeat' split at hbody
            all_goals first
              | exact hsized _ _ _ _ hbody
              | (obtain rfl := Except.error.inj hbody; rfl)
        | ok body =>
            refine .inr ⟨body, h.sessionId, rfl, fun _ => ?_⟩
            rw [not_not.mp hmac]

/-- A rejected packet is rejected before the handlers or at one of their checks. -/
theorem Rejected.cases {c : Ctx} {src : Mac} {packet : List UInt8} {now : U32} {err : EspErr}
    (h : Rejected c src packet now err) :
    (handledBody src packet = none ∧ handleRxBytes c src packet now = (c, err)) ∨
      ∃ body, handledBody src packet = some body ∧ bodyRejection c src body = some err ∧
        handleRxBytes c src packet now = (rejectedCtx c src body now, err) := by
  obtain ⟨hvalidation, hresult⟩ := h
  rcases handleRxBytes_handled src packet now with
    ⟨hnone, err', -, hrun⟩ | ⟨body, sessionId, hbody, hrun⟩
  · left
    have hsame := hresult c.cfg.send
    rw [hrun] at hsame
    exact ⟨hnone, by rw [hrun, ← hsame]⟩
  · right
    have hquiet := hresult fun _ _ => .ok
    rw [hrun] at hquiet
    have houtcome := @handleRx_outcome (c.withSend fun _ _ => .ok) src now
      { sessionId := sessionId, srcMac := src, body := body } rfl
    have hsame : bodyRejection (c.withSend fun _ _ => .ok) src body = bodyRejection c src body :=
      rfl
    have hown := @handleRx_outcome c src now
      { sessionId := sessionId, srcMac := src, body := body } rfl
    simp only [hsame] at houtcome hown
    refine ⟨body, hbody, ?_⟩
    cases hrej : bodyRejection c src body with
    | none =>
        rw [hrej] at houtcome
        rw [hquiet] at houtcome
        rcases houtcome with rfl | rfl | ⟨_, _, rfl⟩
        · cases hvalidation
        · cases hvalidation
        · cases hvalidation
    | some err' =>
        rw [hrej] at houtcome hown
        simp only at houtcome hown
        rw [houtcome] at hquiet
        obtain rfl : err' = err := hquiet
        exact ⟨by simp, (hrun c).trans hown⟩

theorem rejected_of_body {c : Ctx} {src : Mac} {packet : List UInt8} {now : U32} {body : Body}
    {err : EspErr} (hbody : handledBody src packet = some body)
    (hrej : bodyRejection c src body = some err) : Rejected c src packet now err := by
  refine ⟨isValidation_bodyRejection hrej, fun send => ?_⟩
  rcases handleRxBytes_handled src packet now with
    ⟨hnone, -⟩ | ⟨body', sessionId, hbody', hrun⟩
  · rw [hnone] at hbody
    cases hbody
  · rw [hbody] at hbody'
    obtain rfl := Option.some.inj hbody'
    have houtcome := @handleRx_outcome (c.withSend send) src now
      { sessionId := sessionId, srcMac := src, body := body } rfl
    have hsame : bodyRejection (c.withSend send) src body = bodyRejection c src body := rfl
    simp only [hsame, hrej] at houtcome
    rw [hrun, houtcome]

/-! ## What is written too early -/

/-- A node's lookup replaces the address that its packets go to. -/
def movesAddress (c : Ctx) (src : Mac) : Bool :=
  !c.cfg.rootRole && src != 0 && (c.peerAt 0).isSome && (c.peer 0).remoteMac != src

/-- Marking the route of the sender as up changes the record. -/
def raisesRoute (c : Ctx) (src : Mac) : Bool :=
  !(c.peer (c.keyOf src)).routeUp || (c.peer (c.keyOf src)).routeDownSinceMs != 0

/-- The packet changes an address or a route before it is rejected. -/
def Disturbs (c : Ctx) (src : Mac) (packet : List UInt8) : Prop :=
  ∃ body, handledBody src packet = some body ∧
    ((looksUp c src body = true ∧ movesAddress c src = true) ∨
      (hears c src body = true ∧ raisesRoute c src = true))

section Early

variable {c : Ctx} {src : Mac}

theorem sendMac_noteMac :
    (∀ key, (c.noteMac src).peerSendMac key = c.peerSendMac key) ↔
      movesAddress c src = false := by
  have hcfg : (c.noteMac src).cfg = c.cfg := by rw [noteMac_eq]
  cases hrole : c.cfg.rootRole with
  | true =>
      simp [Ctx.peerSendMac, hcfg, hrole, movesAddress]
  | false =>
      have hkey : c.keyOf src = 0 := by simp [Ctx.keyOf, hrole]
      have hset : ∀ p : Peer, { p with remoteMac := src }.mac = p.mac := fun _ => rfl
      simp only [Ctx.peerSendMac, hcfg, hrole, Bool.false_eq_true, if_false]
      by_cases hzero : src = 0
      · simp [Ctx.noteMac, hrole, hzero, movesAddress]
      · have hbne : (src != 0) = true := bne_iff_ne.mpr hzero
        have hnote : c.noteMac src = c.modPeer 0 fun p => { p with remoteMac := src } := by
          rw [Ctx.noteMac, hrole, hkey, hbne]
          rfl
        by_cases hhas : c.has 0
        · have hself : ((c.noteMac src).peer 0).remoteMac = src := by
            rw [hnote, peer_modPeer_self hset hhas]
          have hother (k : Mac) (hk : k ≠ 0) :
              ((c.noteMac src).peer k).remoteMac = (c.peer k).remoteMac := by
            rw [hnote, peer_modPeer_ne hset hk]
          have hmoves : movesAddress c src = false ↔ (c.peer 0).remoteMac = src := by
            have hsome : (c.peerAt 0).isSome = true := hhas
            rw [movesAddress, hrole, hbne, hsome]
            exact bne_eq_false_iff_eq
          rw [hmoves]
          constructor
          · intro h
            rw [← h 0, hself]
          · intro h key
            by_cases hk : key = 0
            · rw [hk, hself, h]
            · exact hother key hk
        · have hsome : (c.peerAt 0).isSome = false := by simpa [Ctx.has] using hhas
          rw [hnote, modPeer_missing hhas, movesAddress, hsome]
          simp

theorem sameLink_noteMac (key : Mac) :
    (c.peer key).SameLink ((c.noteMac src).peer key) := by
  constructor
  · exact peer_noteMac Peer.ready (fun _ _ => rfl) c src key
  · exact peer_noteMac Peer.rootSessionId (fun _ _ => rfl) c src key
  · exact peer_noteMac Peer.nodeSessionId (fun _ _ => rfl) c src key
  · exact peer_noteMac Peer.capabilities (fun _ _ => rfl) c src key
  · exact peer_noteMac Peer.nextSeq (fun _ _ => rfl) c src key
  · exact peer_noteMac Peer.expectedSeq (fun _ _ => rfl) c src key
  · exact peer_noteMac Peer.pendingLost (fun _ _ => rfl) c src key
  · exact peer_noteMac Peer.routeUp (fun _ _ => rfl) c src key
  · exact peer_noteMac Peer.routeDownSinceMs (fun _ _ => rfl) c src key
  · exact peer_noteMac Peer.lastRouteChangeMs (fun _ _ => rfl) c src key

theorem linkKept_noteMac : LinkKept c (c.noteMac src) ↔ movesAddress c src = false := by
  constructor
  · intro h
    exact sendMac_noteMac.mp h.sendMac
  · intro h
    constructor
    · exact has_noteMac c src
    · exact sameLink_noteMac
    · exact sendMac_noteMac.mpr h
    · rw [noteMac_eq]
    · rw [noteMac_eq]
    · rw [noteMac_eq]

theorem linkKept_heard (hhas : c.has (c.keyOf src)) (rh : ReliableHdr) (now : U32) :
    LinkKept c ((c.noteMac src).modPeer (c.keyOf src) (Peer.heardData rh now)) ↔
      movesAddress c src = false ∧ raisesRoute c src = false := by
  have hmac : ∀ p, (Peer.heardData rh now p).mac = p.mac := fun _ => rfl
  have hnote : (c.noteMac src).has (c.keyOf src) := (has_noteMac c src _).mpr hhas
  have hself := peer_modPeer_self hmac hnote
  have hfield {α : Type} (g : Peer → α) (hg : ∀ p, g (Peer.heardData rh now p) = g p)
      (hg' : ∀ p mac, g { p with remoteMac := mac } = g p) (k : Mac) :
      g (((c.noteMac src).modPeer (c.keyOf src) (Peer.heardData rh now)).peer k) =
        g (c.peer k) :=
    (peer_modPeer_field g hmac hg k).trans (peer_noteMac g hg' c src k)
  have hsend (k : Mac) :
      ((c.noteMac src).modPeer (c.keyOf src) (Peer.heardData rh now)).peerSendMac k =
        (c.noteMac src).peerSendMac k := by
    have hremote := @peer_modPeer_field _ Peer.remoteMac (c.noteMac src) (c.keyOf src) _
      hmac (fun _ => rfl) k
    rw [Ctx.peerSendMac, Ctx.peerSendMac, hremote]
    rfl
  have hraise : raisesRoute c src = false ↔ (c.peer (c.keyOf src)).routeUp = true ∧
      (c.peer (c.keyOf src)).routeDownSinceMs = 0 := by
    simp [raisesRoute]
  rw [hraise]
  constructor
  · intro h
    have hlink := h.link (c.keyOf src)
    rw [hself] at hlink
    refine ⟨sendMac_noteMac.mp fun k => ?_, hlink.routeUp.symm, hlink.routeDown.symm⟩
    rw [← hsend k, h.sendMac k]
  · rintro ⟨hmoves, hup, hdown⟩
    constructor
    · intro k
      rw [has_modPeer hmac, has_noteMac]
    · intro k
      constructor
      · exact hfield Peer.ready (fun _ => rfl) (fun _ _ => rfl) k
      · exact hfield Peer.rootSessionId (fun _ => rfl) (fun _ _ => rfl) k
      · exact hfield Peer.nodeSessionId (fun _ => rfl) (fun _ _ => rfl) k
      · exact hfield Peer.capabilities (fun _ => rfl) (fun _ _ => rfl) k
      · exact hfield Peer.nextSeq (fun _ => rfl) (fun _ _ => rfl) k
      · exact hfield Peer.expectedSeq (fun _ => rfl) (fun _ _ => rfl) k
      · exact hfield Peer.pendingLost (fun _ => rfl) (fun _ _ => rfl) k
      · by_cases hk : k = c.keyOf src
        · rw [hk, hself, hup]
          rfl
        · rw [peer_modPeer_ne hmac hk]
          exact (sameLink_noteMac k).routeUp
      · by_cases hk : k = c.keyOf src
        · rw [hk, hself, hdown]
          rfl
        · rw [peer_modPeer_ne hmac hk]
          exact (sameLink_noteMac k).routeDown
      · exact hfield Peer.lastRouteChangeMs (fun _ => rfl) (fun _ _ => rfl) k
    · intro k
      rw [hsend k, sendMac_noteMac.mpr hmoves k]
    · exact (linkKept_noteMac.mpr hmoves).tx
    · exact (linkKept_noteMac.mpr hmoves).rx
    · exact (linkKept_noteMac.mpr hmoves).reassembly

theorem linkKept_rejectedCtx (body : Body) (now : U32) :
    LinkKept c (rejectedCtx c src body now) ↔
      ¬((looksUp c src body = true ∧ movesAddress c src = true) ∨
        (hears c src body = true ∧ raisesRoute c src = true)) := by
  rw [rejectedCtx.eq_def]
  cases hhears : hears c src body with
  | true =>
      cases body with
      | data rh payload =>
          have hlooks : looksUp c src (.data rh payload) = true := by
            simp only [hears, Bool.and_eq_true] at hhears
            exact hhears.1
          have hhas : c.has (c.keyOf src) := by
            have hbound : boundTo c src rh.rootSessionId rh.nodeSessionId = true := by
              simp only [hears, Bool.and_eq_true] at hhears
              exact hhears.2
            by_contra hmissing
            have hnone : c.peerAt (c.keyOf src) = none := by simpa [Ctx.has] using hmissing
            rw [boundTo, Ctx.peer, hnone] at hbound
            cases hbound
          rw [if_pos rfl, hlooks]
          simp only [true_and]
          rw [linkKept_heard hhas, not_or, Bool.not_eq_true, Bool.not_eq_true]
      | _ => cases hhears
  | false =>
      simp only [Bool.false_eq_true, if_false, false_and, or_false]
      cases hlooks : looksUp c src body with
      | true =>
          rw [if_pos rfl, linkKept_noteMac]
          simp
      | false => simpa using LinkKept.refl c

end Early

/-- A packet that is rejected for what it contains leaves the link untouched exactly when
it changes neither the address of a node's root nor the route of its sender. -/
theorem rejected_linkKept_iff {c : Ctx} {src : Mac} {packet : List UInt8} {now : U32}
    {err : EspErr} (h : Rejected c src packet now err) :
    LinkKept c (handleRxBytes c src packet now).1 ↔ ¬Disturbs c src packet := by
  rcases h.cases with ⟨hnone, hrun⟩ | ⟨body, hbody, -, hrun⟩
  · rw [hrun]
    refine ⟨fun _ => ?_, fun _ => .refl c⟩
    rintro ⟨body, hbody, -⟩
    rw [hnone] at hbody
    cases hbody
  · rw [hrun, linkKept_rejectedCtx]
    constructor
    · rintro h ⟨body', hbody', hdisturbs⟩
      rw [hbody] at hbody'
      obtain rfl := Option.some.inj hbody'
      exact h hdisturbs
    · intro h hdisturbs
      exact h ⟨body, hbody, hdisturbs⟩

/-! ## Two packets that are rejected too late -/

theorem handledBody_bytes {cfg : RelConfig} {slot : TxSlot} (hrh : slot.rh.Encodable)
    (hlen : slot.payload.length ≤ reliableInnerMax) :
    handledBody cfg.localMac (slot.bytes cfg) = some (.data slot.rh slot.payload) := by
  obtain ⟨h, bytes, hvalid, hmac, -, hbody⟩ := readBody_bytes hrh hlen cfg
  rw [handledBody, hvalid]
  simp only [hbody]
  exact if_neg fun hne => hne hmac

/-- A DATA frame of one byte. -/
def oneByteFrame (origin : Mac) (flags : BitVec 8) (rootSessionId : U32) : TxSlot where
  peer := 0
  channel := 3
  priority := 1
  seq := 1
  streamId := 1
  firstSentMs := 0
  lastSentMs := 0
  retries := 0
  sessionId := rootSessionId
  rh :=
    { channelId := 3
      flags := flags
      priority := 1
      fragmentCount := 1
      payloadLen := 1
      fragmentIndex := 0
      streamId := 1
      seq := 1
      txMs := 0
      rootSessionId := rootSessionId
      nodeSessionId := 9
      originMac := origin
      targetMac := 0x11 }
  payload := [1]

theorem oneByteFrame_encodable (origin : Mac) (flags : BitVec 8) (rootSessionId : U32) :
    (oneByteFrame origin flags rootSessionId).rh.Encodable := by
  constructor
  · exact (by decide : 3 < 2 ^ 8)
  · exact (by decide : 1 < 2 ^ 8)
  · exact (by decide : 1 < 2 ^ 8)
  · exact (by decide : 1 < 2 ^ 16)
  · exact (by decide : 0 < 2 ^ 16)

/-- A stranger's frame of an unknown session. -/
def strangerBytes : List UInt8 :=
  (oneByteFrame 0x99 0 8).bytes (smallConfig true 0x99)

/-- A frame of the root, marked LATEST on a channel that does not allow it. -/
def latestBytes : List UInt8 :=
  (oneByteFrame 0x10 flagLatest 7).bytes (smallConfig true 0x10)

theorem handledBody_strangerBytes : handledBody 0x99 strangerBytes =
    some (.data (oneByteFrame 0x99 0 8).rh [1]) :=
  @handledBody_bytes (smallConfig true 0x99) (oneByteFrame 0x99 0 8)
    (oneByteFrame_encodable 0x99 0 8) (by decide)

theorem handledBody_latestBytes : handledBody 0x10 latestBytes =
    some (.data (oneByteFrame 0x10 flagLatest 7).rh [1]) :=
  @handledBody_bytes (smallConfig true 0x10) (oneByteFrame 0x10 flagLatest 7)
    (oneByteFrame_encodable 0x10 flagLatest 7) (by decide)

/-- The node with its route marked as down. -/
def routelessNode : Ctx :=
  (peerRoute greetedNode 0 false 3).1

/-- The stranger's frame is rejected, and from then on the node's packets go to the
stranger; the LATEST frame is rejected and marks the route as up. -/
theorem rejected_not_linkKept :
    (Rejected greetedNode 0x99 strangerBytes 4 .invalidState ∧
      ¬LinkKept greetedNode (handleRxBytes greetedNode 0x99 strangerBytes 4).1) ∧
    (Rejected routelessNode 0x10 latestBytes 4 .invalidArg ∧
      ¬LinkKept routelessNode (handleRxBytes routelessNode 0x10 latestBytes 4).1) := by
  have hstranger : handleRxBytes greetedNode 0x99 strangerBytes 4 =
      handleRx greetedNode 0x99 ((oneByteFrame 0x99 0 8).packet (smallConfig true 0x99)) 4 :=
    @handleRxBytes_bytes (smallConfig true 0x99) (oneByteFrame 0x99 0 8)
      (oneByteFrame_encodable 0x99 0 8) (by decide) greetedNode 4
  have hlatest : handleRxBytes routelessNode 0x10 latestBytes 4 =
      handleRx routelessNode 0x10
        ((oneByteFrame 0x10 flagLatest 7).packet (smallConfig true 0x10)) 4 :=
    @handleRxBytes_bytes (smallConfig true 0x10) (oneByteFrame 0x10 flagLatest 7)
      (oneByteFrame_encodable 0x10 flagLatest 7) (by decide) routelessNode 4
  rw [hstranger, hlatest]
  refine ⟨⟨?_, fun h => ?_⟩, ?_, fun h => ?_⟩
  · exact rejected_of_body handledBody_strangerBytes (by decide +kernel)
  · exact absurd (h.sendMac 0) (by decide +kernel)
  · exact rejected_of_body handledBody_latestBytes (by decide +kernel)
  · exact absurd (h.link 0).routeUp (by decide +kernel)

theorem rejected_linkKept_iff_latest :
    LinkKept greetedNode (handleRxBytes greetedNode 0x10 latestBytes 4).1 ↔
      ¬Disturbs greetedNode 0x10 latestBytes := by
  have hrejected : Rejected greetedNode 0x10 latestBytes 4 .invalidArg :=
    rejected_of_body handledBody_latestBytes (by decide +kernel)
  exact rejected_linkKept_iff hrejected

end KeemashCore.Rel
