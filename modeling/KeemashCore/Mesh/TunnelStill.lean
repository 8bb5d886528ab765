import KeemashCore.Mesh.TunnelLink

/-!
# What the root does to one node's channels

The state of a node's channels at the root is what a session has of it: nothing unless the
record is there and of that session.  Every handler but that of the node's own frames and
LOST packets leaves it alone.
-/

namespace KeemashCore.MeshRoot

open LittleEndian Rel Tunnel

/-! ## The state of a channel -/

/-- The numbers of a channel, in a record of the session. -/
def NodeState.tracked (session : U32) (channel : ℕ) (n : NodeState) : Option (U32 × U32) :=
  if n.sessionId = session then
    some ((n.rx channel).expectedSeq, (n.rx channel).highestSeenSeq)
  else none

/-- The numbers of a channel of a node in a session. -/
def TunnelRoot.track (mac : Mac) (session : U32) (channel : ℕ) (r : TunnelRoot) :
    Option (U32 × U32) :=
  (r.nodes.find mac).bind (NodeState.tracked session channel)

/-- The packet acknowledges nothing and asks for nothing. -/
def harmless (packet : List UInt8) : Bool :=
  !([typeTunnelAck, typeTunnelNack].contains (WireHdr.read packet).type)

/-- The effect sends the node harmless packets only and delivers no frame of it. -/
def RootEffect.isStill (mac : Mac) : RootEffect → Bool
  | .send dst packet => dst != mac || harmless packet
  | .deliver t _ => t.originMac != mac
  | _ => true

/-- The node's channels are left alone. -/
structure Still (mac : Mac) (session : U32) (r r' : TunnelRoot) : Prop where
  localMac : r'.localMac = r.localMac
  track : ∀ channel, r'.track mac session channel = r.track mac session channel
  trace : ∃ new, r'.trace = r.trace ++ new ∧ ∀ e ∈ new, e.isStill mac = true

section Still

variable {mac k : Mac} {session : U32} {r r' : TunnelRoot} {f : NodeState → NodeState}

theorem Still.refl (mac : Mac) (session : U32) (r : TunnelRoot) : Still mac session r r where
  localMac := rfl
  track := fun _ => rfl
  trace := ⟨[], (List.append_nil _).symm, by simp⟩

theorem Still.trans {r'' : TunnelRoot} (h : Still mac session r r')
    (h' : Still mac session r' r'') : Still mac session r r'' := by
  obtain ⟨new, hnew, hstill⟩ := h.trace
  obtain ⟨new', hnew', hstill'⟩ := h'.trace
  refine ⟨h'.localMac.trans h.localMac, fun ch => (h'.track ch).trans (h.track ch),
    new ++ new', ?_, fun e he => ?_⟩
  · rw [hnew', hnew, List.append_assoc]
  · exact (List.mem_append.mp he).elim (hstill e) (hstill' e)

theorem Still.emit (h : Still mac session r r') {effects : List RootEffect}
    (heffects : ∀ e ∈ effects, e.isStill mac = true) :
    Still mac session r (r'.emit effects) :=
  h.trans ⟨rfl, fun _ => rfl, effects, rfl, heffects⟩

theorem Still.sendPacketToMac (h : Still mac session r r') {dst : Mac} {type : BitVec 8}
    {sessionId seq ackSeq : U32} {payload : List UInt8}
    (hsend : dst ≠ mac ∨ [typeTunnelAck, typeTunnelNack].contains type = false) :
    Still mac session r (r'.sendPacketToMac dst type sessionId seq ackSeq payload).1 := by
  rw [TunnelRoot.sendPacketToMac]
  split
  · exact h
  · refine h.emit fun e he => ?_
    rw [List.mem_singleton.mp he, RootEffect.isStill, Bool.or_eq_true]
    refine hsend.imp (fun hne => bne_iff_ne.mpr hne) fun htype => ?_
    rw [harmless, read_sealPacket]
    simp only [packetHdr, plainHdr, htype, Bool.not_false]

theorem Still.sendControl (h : Still mac session r r') {dst : Mac} {type : BitVec 8}
    {sessionId ackSeq missingSeq : U32}
    (hsend : dst ≠ mac ∨ [typeTunnelAck, typeTunnelNack].contains type = false) :
    Still mac session r (r'.sendControl dst type sessionId ackSeq missingSeq) := by
  rw [TunnelRoot.sendControl]
  split
  · exact h
  · exact h.sendPacketToMac hsend

theorem tracked_fresh (hsession : session ≠ 0) (channel : ℕ) :
    NodeState.tracked session channel (.fresh mac) = none :=
  if_neg (Ne.symm hsession)

/-- Looking for the record with `create` leaves the channels alone. -/
theorem tracked_ensure (hsession : session ≠ 0) (channel : ℕ) (nodes : NodeStates) :
    ((nodes.ensure k).find mac).bind (NodeState.tracked session channel) =
      (nodes.find mac).bind (NodeState.tracked session channel) := by
  by_cases hk : mac = k
  · subst hk
    rcases nodes.find_ensure_self mac with heq | ⟨hnone, hnew⟩
    · rw [heq]
    · rw [hnone, hnew]
      exact tracked_fresh hsession channel
  · rw [NodeStates.find_ensure_ne hk]

theorem Still.change (h : Still mac session r r') (hsession : session ≠ 0) {create : Bool}
    (hmac : ∀ n, (f n).mac = n.mac)
    (hf : k = mac → ∀ n channel, (f n).tracked session channel = n.tracked session channel) :
    Still mac session r (r'.change k create f) := by
  refine h.trans ⟨rfl, fun channel => ?_, [], (List.append_nil _).symm, by simp⟩
  have hensure : ((if create then r'.nodes.ensure k else r'.nodes).find mac).bind
      (NodeState.tracked session channel) = r'.track mac session channel := by
    split
    · exact tracked_ensure hsession channel r'.nodes
    · rfl
  rw [← hensure, TunnelRoot.track, TunnelRoot.change, NodeStates.find_modify hmac]
  by_cases hk : mac = k
  · subst hk
    rw [if_pos rfl]
    cases (if create then r'.nodes.ensure mac else r'.nodes).find mac with
    | none => rfl
    | some n => exact hf rfl n channel
  · rw [if_neg hk]

/-! ## Packets of other addresses -/

section Other

variable {src : Mac} {h : WireHdr} {payload : List UInt8} {now : U32}

theorem mac_tunnelData (sessionId : U32) (t : TunnelHdr) (now : U32) (n : NodeState) :
    (NodeState.tunnelData sessionId t now n).mac = n.mac := by
  rw [NodeState.tunnelData, NodeState.adoptTunnel]
  split
  · rfl
  · split
    · rfl
    · rfl

theorem mac_legacyData (h : WireHdr) (now : U32) (n : NodeState) :
    (NodeState.legacyData h now n).mac = n.mac := by
  rw [NodeState.legacyData, NodeState.adoptLegacy]
  split
  · rfl
  · split
    · rfl
    · rfl

theorem still_handleHello (hsession : session ≠ 0) (hsrc : src ≠ mac) (hh : h.srcMac ≠ mac) :
    Still mac session r (r.handleHello src h payload now) := by
  refine Still.sendControl (Still.emit (Still.change (.refl _ _ r) hsession ?_ ?_) ?_)
    (.inl hsrc)
  · exact fun _ => rfl
  · exact fun heq => absurd heq hh
  · intro e he
    rw [List.mem_singleton.mp he]
    rfl

theorem still_handlePong {view : RootView} (hsession : session ≠ 0) :
    Still mac session r (r.handlePong src h payload view).1 := by
  rw [TunnelRoot.handlePong]
  split
  · exact .refl _ _ r
  · split
    · exact .refl _ _ r
    · split
      · exact .refl _ _ r
      · split
        · refine Still.emit (Still.change (.refl _ _ r) hsession ?_ ?_) fun e he => ?_
          · exact fun _ => rfl
          · exact fun _ _ _ => rfl
          · rw [List.mem_singleton.mp he]
            rfl
        · exact .refl _ _ r

theorem still_handleTunnelAck (hsession : session ≠ 0) :
    Still mac session r (r.handleTunnelAck h payload now) := by
  simp only [TunnelRoot.handleTunnelAck]
  split
  · exact .refl _ _ r
  · split
    · exact .refl _ _ r
    · refine Still.change (.refl _ _ r) hsession (fun n => ?_) fun _ n channel => ?_
      · split
        · rfl
        · rfl
      · split
        · rfl
        · rfl

theorem still_handleLost (hsession : session ≠ 0) :
    Still mac session r (r.handleLost src h payload now) := by
  simp only [TunnelRoot.handleLost]
  split
  · exact .refl _ _ r
  · refine Still.sendControl (Still.change (.refl _ _ r) hsession (fun n => ?_)
      fun _ n channel => ?_) (.inr rfl)
    · rw [NodeState.lost]
      split
      · rfl
      · rfl
    · rw [NodeState.lost]
      split
      · rfl
      · rfl

theorem mac_tunnelLost (sessionId : U32) (channel : ℕ) (missingSeq now : U32)
    (n : NodeState) : (NodeState.tunnelLost sessionId channel missingSeq now n).mac = n.mac := by
  rw [NodeState.tunnelLost]
  split
  · rfl
  · rfl

theorem still_handleTunnelLost (hsession : session ≠ 0)
    (horigin : (TunnelMiss.read payload).originMac ≠ mac) :
    Still mac session r (r.handleTunnelLost h payload now) := by
  simp only [TunnelRoot.handleTunnelLost]
  split
  · exact .refl _ _ r
  · split
    · exact .refl _ _ r
    · exact Still.change (.refl _ _ r) hsession (mac_tunnelLost _ _ _ _)
        fun heq => absurd heq horigin

theorem still_handleTunnelData (hsession : session ≠ 0) (hh : h.srcMac ≠ mac)
    (horigin : (TunnelHdr.read payload).originMac ≠ mac) :
    Still mac session r (r.handleTunnelData h payload now) := by
  rw [TunnelRoot.handleTunnelData]
  split
  · exact .refl _ _ r
  · split
    · exact .refl _ _ r
    · next t inner hframe =>
        have ht : t.originMac ≠ mac := by
          simp only [frameFor] at hframe
          split at hframe
          · simp at hframe
          · split at hframe
            · simp at hframe
            · obtain ⟨rfl, -⟩ := Prod.mk.inj (Option.some.inj hframe)
              exact horigin
        split
        · exact (Still.refl _ _ r).sendPacketToMac (.inl hh)
        · have hchanged : Still mac session r (r.change t.originMac true
              (NodeState.tunnelData h.sessionId t now)) :=
            Still.change (.refl _ _ r) hsession (mac_tunnelData _ _ _)
              fun heq => absurd heq ht
          have hnack (missing : U32) : Still mac session r ((r.change t.originMac true
              (NodeState.tunnelData h.sessionId t now)).sendTunnelNack h.srcMac h t missing) :=
            hchanged.sendPacketToMac (.inl hh)
          have hack (ackSeq : U32) : Still mac session r ((r.change t.originMac true
              (NodeState.tunnelData h.sessionId t now)).sendTunnelAck h.srcMac h t ackSeq) :=
            hchanged.sendPacketToMac (.inl hh)
          have hreply (verdict : Verdict) : Still mac session r (if verdict.sendNack
              then (r.change t.originMac true (NodeState.tunnelData h.sessionId t now)
                ).sendTunnelNack h.srcMac h t verdict.missingSeq
              else (r.change t.originMac true (NodeState.tunnelData h.sessionId t now)
                ).sendTunnelAck h.srcMac h t verdict.ackSeq) := by
            split
            · exact hnack _
            · exact hack _
          dsimp only
          split
          · refine (hreply _).emit fun e he => ?_
            rcases List.mem_cons.mp he with rfl | he
            · exact bne_iff_ne.mpr ht
            · obtain ⟨call, -, rfl⟩ := List.mem_map.mp he
              rfl
          · exact hreply _

theorem still_handleReliableLegacy (hsession : session ≠ 0) (hsrc : src ≠ mac)
    (hh : h.srcMac ≠ mac) : Still mac session r (r.handleReliableLegacy src h payload now) := by
  rw [TunnelRoot.handleReliableLegacy]
  split
  · exact (Still.refl _ _ r).sendControl (.inl hsrc)
  · have hchanged : Still mac session r (r.change h.srcMac true
        (NodeState.legacyData h now)) :=
      Still.change (.refl _ _ r) hsession (mac_legacyData h now) fun heq => absurd heq hh
    have hreply (verdict : Verdict) : Still mac session r (if verdict.sendNack
        then (r.change h.srcMac true (NodeState.legacyData h now)).sendControl src typeNack
          h.sessionId verdict.ackSeq verdict.missingSeq
        else (r.change h.srcMac true (NodeState.legacyData h now)).sendControl src typeAck
          h.sessionId verdict.ackSeq 0) := by
      split
      · exact hchanged.sendControl (.inl hsrc)
      · exact hchanged.sendControl (.inl hsrc)
    dsimp only
    split
    · refine (hreply _).emit fun e he => ?_
      rcases List.mem_cons.mp he with rfl | he
      · rfl
      · obtain ⟨call, -, rfl⟩ := List.mem_map.mp he
        rfl
    · exact hreply _

/-- A packet of another address that speaks for its own node. -/
theorem still_handleRx_other {packet : List UInt8} {view : RootView} (hsession : session ≠ 0)
    (hsrc : src ≠ mac) (hspeaks : ¬speaksFor mac packet) :
    Still mac session r (r.handleRx src packet view).1 := by
  rw [TunnelRoot.handleRx, MeshRoot.validatePacket_eq]
  split
  · exact .refl _ _ r
  · next h payload hvalid =>
      have horigin : h.type = typeTunnelData →
          (TunnelHdr.read payload).originMac ≠ mac :=
        fun htype heq => hspeaks ⟨h, payload, hvalid, .inl ⟨htype, heq⟩⟩
      have hlost : h.type = typeTunnelLost →
          (TunnelMiss.read payload).originMac ≠ mac :=
        fun htype heq => hspeaks ⟨h, payload, hvalid, .inr ⟨htype, heq⟩⟩
      split
      · exact .refl _ _ r
      · next hmatch =>
          rw [not_not] at hmatch
          have hh : h.srcMac ≠ mac := fun heq => hsrc (hmatch.trans heq)
          split
          · exact still_handleHello hsession hsrc hh
          · split
            · exact still_handlePong hsession
            · split
              · next htype => exact still_handleTunnelData hsession hh (horigin htype)
              · split
                · exact still_handleTunnelAck hsession
                · split
                  · next htype => exact still_handleTunnelLost hsession (hlost htype)
                  · split
                    · exact still_handleLost hsession
                    · split
                      · exact still_handleReliableLegacy hsession hsrc hh
                      · exact .refl _ _ r

/-- The header of a packet that is accepted is the one that is read from it. -/
theorem hdr_of_packetValid {packet : List UInt8} (hvalid : packetValid packet = some (h, payload)) :
    h = WireHdr.read packet := by
  rw [packetValid] at hvalid
  split at hvalid
  · simp at hvalid
  · dsimp only at hvalid
    split at hvalid
    · simp at hvalid
    · split at hvalid
      · simp at hvalid
      · exact (Prod.mk.inj (Option.some.inj hvalid)).1.symm

/-- A packet of the node that is neither a HELLO nor of one of the streams. -/
theorem still_handleRx_quiet {packet : List UInt8} {view : RootView} (hsession : session ≠ 0)
    (hquiet : quietPacket packet = true) (hhello : (WireHdr.read packet).type ≠ typeHello) :
    Still mac session r (r.handleRx src packet view).1 := by
  rw [TunnelRoot.handleRx, MeshRoot.validatePacket_eq]
  split
  · exact .refl _ _ r
  · next h payload hvalid =>
      have hread := hdr_of_packetValid hvalid
      rw [quietPacket, ← hread, Bool.not_eq_true', List.contains_eq_mem,
        decide_eq_false_iff_not] at hquiet
      rw [← hread] at hhello
      simp only [List.mem_cons, List.not_mem_nil, or_false, not_or] at hquiet
      obtain ⟨hdata, hlost, hinfo, hline⟩ := hquiet
      split
      · exact .refl _ _ r
      · split
        · exact still_handlePong hsession
        · split
          · exact still_handleTunnelAck hsession
          · split
            · exact still_handleLost hsession
            · rw [if_neg (not_or.mpr ⟨hinfo, hline⟩)]
              exact .refl _ _ r

end Other

/-- Frames of the root itself. -/
theorem still_sendFrame (hsession : session ≠ 0) {relErr : EspErr} {dst : Mac} {channel : ℕ}
    {inner : List UInt8} :
    Still mac session r (r.sendFrame relErr dst channel inner).1 := by
  rw [TunnelRoot.sendFrame]
  split
  · exact .refl _ _ r
  · split
    · exact .refl _ _ r
    · split
      · exact .refl _ _ r
      · next n _ _ _ =>
          have hchanged : Still mac session r (r.change dst false fun m =>
              m.setTx channel { m.tx channel with nextSeq := (n.tx channel).nextSeq + 1 }) :=
            Still.change (.refl _ _ r) hsession (fun _ => rfl) fun _ _ _ => rfl
          dsimp only
          split
          · exact hchanged
          · exact hchanged.sendPacketToMac (.inr rfl)

end Still

end KeemashCore.MeshRoot
