import KeemashCore.Mesh.Accepted
import KeemashCore.Mesh.Polls

/-!
# One turn of an end

A turn is a call of the public interface or the arrival of a packet.  As long as
the link is not cleared or removed, every turn of an end takes link steps only:
`EndOk.nodeCall`, `EndOk.rootCall` and `EndOk.handleRx`.
-/

namespace KeemashCore.Rel

open SlotTable SelectiveRepeat

/-! ## Packets of the binding -/

/-- The sessions a packet names; handshake packets name none. -/
def Body.sessions? : Body → Option (U32 × U32)
  | .hello _ => none
  | .helloAck _ => none
  | .data rh _ => some (rh.rootSessionId, rh.nodeSessionId)
  | .ack a => some (a.rootSessionId, a.nodeSessionId)
  | .nack a => some (a.rootSessionId, a.nodeSessionId)
  | .lost l => some (l.rootSessionId, l.nodeSessionId)

/-- The packet names the binding of the link. -/
def Bond.Carries (b : Bond) (body : Body) : Prop :=
  body.sessions? = some (b.rootSessionId, b.nodeSessionId)

instance (b : Bond) (body : Body) : Decidable (b.Carries body) :=
  inferInstanceAs (Decidable (_ = _))

/-- The other end has sent what the packet says. -/
def Backed (S : ℕ → Sender Frame) (R : ℕ → Receiver Frame) : Body → Prop
  | .hello _ => True
  | .helloAck _ => True
  | .data rh payload =>
      (rh.seq.toNat, rh.frame payload) ∈ (S rh.channelId).data
  | .ack ack => (ack.ackSeq.toNat, ack.sacked) ∈ (R ack.channelId).acks
  | .nack ack =>
      (ack.ackSeq.toNat, ack.sacked) ∈ (R ack.channelId).acks ∧
        (ack.nackSeq ≠ 0 → ack.nackSeq.toNat ∈ (R ack.channelId).nacks)
  | .lost lost =>
      if lost.rsv &&& lostFlagReceiverDrop ≠ 0 then lost.range ∈ (R lost.channelId).drops
      else lost.range ∈ (S lost.channelId).losts

/-! ## Irregular arrivals -/

/-- A frame goes into an rx slot although a pending range covers its number. -/
def Body.buffersPending (c : Ctx) (src : Mac) (now : U32) : Body → Bool
  | .data rh _ => Rel.buffersPending (arrivalCtx c src rh now) (c.keyOf src) rh
  | _ => false

/-- `expected_seq` is moved past a pending range that stays in the table. -/
def Body.passesPending (c : Ctx) (src : Mac) (now : U32) : Body → Bool
  | .data rh payload =>
      !acceptClean (arrivalCtx c src rh now) (c.keyOf src) rh payload now
  | .lost l => !lostClean c src l now
  | _ => false

/-- A NACK asks for a frame that is not held any more. -/
def Body.asksInVain (c : Ctx) (src : Mac) (_ : U32) : Body → Bool
  | .nack a => !holdsAsked c (c.keyOf src) a
  | _ => false

/-- Taking the packet needs no irregular step that `Q` excludes. -/
structure Body.Regular (Q : Allow) (c : Ctx) (src : Mac) (now : U32) (body : Body) :
    Prop where
  buffers : ¬Q.bufferPending → body.buffersPending c src now = false
  passes : ¬Q.overrun → body.passesPending c src now = false
  asks : ¬(Q.lossy ∧ Q.disown) → body.asksInVain c src now = false

section

variable {Q : Allow} {b : Bond} {S : ℕ → Sender Frame} {R : ℕ → Receiver Frame}
  {c c' : Ctx} {ch : ℕ} {mac : Mac} {now : U32}

/-- What an end has sent to the other one is in its log. -/
theorem backed_of_sent {k : Mac} {packet : Packet} (h : Effect.send k packet ∈ c.trace) :
    Backed (fun ch => (c.slice k ch).sender) (fun ch => (c.slice k ch).receiver)
      packet.body := by
  obtain ⟨sessionId, srcMac, body⟩ := packet
  have hlog (ch : ℕ) (hch : body.channel? = some ch) :
      Effect.send k ⟨sessionId, srcMac, body⟩ ∈ (c.slice k ch).log :=
    List.mem_filter.mpr ⟨h, by simp [Effect.concerns, hch]⟩
  cases body with
  | hello _ => trivial
  | helloAck _ => trivial
  | data rh payload => exact ⟨_, hlog _ rfl, rfl⟩
  | ack ack => exact ⟨_, hlog _ rfl, rfl⟩
  | nack ack =>
      exact ⟨⟨_, hlog _ rfl, rfl⟩, fun hnonzero => ⟨_, hlog _ rfl, if_neg hnonzero⟩⟩
  | lost lost =>
      rw [Backed]
      split
      · next hflag => exact ⟨_, hlog _ rfl, if_pos (bne_iff_ne.mpr hflag)⟩
      · next hflag =>
          exact ⟨_, hlog _ rfl, if_pos (bne_eq_false_iff_eq.mpr (not_not.mp hflag))⟩

/-- A packet of another binding is not for this peer. -/
theorem EndOk.unbound (h : EndOk Q b S R c) {rootSessionId nodeSessionId : U32}
    (hname : ¬b.NamedBy rootSessionId nodeSessionId) (now : U32) :
    boundPeer (peerFind c b.far false now).1 (peerFind c b.far false now).2 rootSessionId
      nodeSessionId = none := by
  obtain ⟨-, hstart, hfound⟩ := h.found ⟨h.keyOf, h.knows⟩ false now
  cases hbound : boundPeer (peerFind c b.far false now).1 (peerFind c b.far false now).2
      rootSessionId nodeSessionId with
  | none => rfl
  | some key =>
      obtain ⟨hkey, -, hroot, hnode⟩ := boundPeer_some hbound
      obtain rfl : b.key = key := Option.some.inj (hfound.symm.trans hkey)
      exact absurd ⟨(congrArg Binding.rootSessionId hstart.ok.binding).symm.trans hroot,
        (congrArg Binding.nodeSessionId hstart.ok.binding).symm.trans hnode⟩ hname

/-- A packet of another binding changes nothing. -/
theorem EndOk.strange (h : EndOk Q b S R c) {packet : Packet} (hsrc : packet.srcMac = b.far)
    {sessions : U32 × U32} (hsome : packet.body.sessions? = some sessions)
    (hstrange : ¬b.Carries packet.body) :
    EndStep Q b S R c (handleRx c b.far packet now).1 := by
  obtain ⟨-, hstart, -⟩ := h.found ⟨h.keyOf, h.knows⟩ false now
  rw [Rel.handleRx, if_neg (not_not.mpr hsrc)]
  rw [Bond.Carries] at hstrange
  split
  · next heq => simp [heq, Body.sessions?] at hsome
  · next heq => simp [heq, Body.sessions?] at hsome
  · next rh payload heq =>
      rw [heq] at hstrange
      have hname : ¬b.NamedBy rh.rootSessionId rh.nodeSessionId := fun hname =>
        hstrange (by rw [Body.sessions?, hname.1, hname.2])
      rw [Rel.handleData]
      split
      · exact .refl h
      · simp only [h.unbound hname now]
        exact hstart
  · next ack heq =>
      rw [heq] at hstrange
      have hname : ¬b.NamedBy ack.rootSessionId ack.nodeSessionId := fun hname =>
        hstrange (by rw [Body.sessions?, hname.1, hname.2])
      simp only [Rel.handleAckPacket, h.unbound hname now]
      exact hstart
  · next ack heq =>
      rw [heq] at hstrange
      have hname : ¬b.NamedBy ack.rootSessionId ack.nodeSessionId := fun hname =>
        hstrange (by rw [Body.sessions?, hname.1, hname.2])
      simp only [Rel.handleAckPacket, h.unbound hname now]
      exact hstart
  · next lost heq =>
      rw [heq] at hstrange
      have hname : ¬b.NamedBy lost.rootSessionId lost.nodeSessionId := fun hname =>
        hstrange (by rw [Body.sessions?, hname.1, hname.2])
      simp only [Rel.handleLostPacket, h.unbound hname now]
      exact hstart

/-! ## Arrivals -/

/-- `keemash_rel_handle_rx` for a packet from the other end. -/
theorem EndOk.handleRx (h : EndOk Q b S R c) (hS : ∀ ch, Channel ch → Honest Q ch (S ch))
    (hroom : ∀ ch, Channel ch → (c.slice b.key ch).next.toNat ≤ 2 ^ 31)
    (hlossy : ∀ ch, Channel ch → ∀ x ∈ (R ch).drops, Q.lossy) {packet : Packet}
    (hbacked : b.Carries packet.body → Backed S R packet.body)
    (hregular : b.Carries packet.body → packet.body.Regular Q c b.far now)
    (hquiet : Quiet Q b.key (handleRx c b.far packet now).1) :
    EndStep Q b S R c (handleRx c b.far packet now).1 := by
  by_cases hsrc : packet.srcMac ≠ b.far
  · rw [Rel.handleRx, if_pos hsrc]
    exact .refl h
  by_cases hstrange : (∃ sessions, packet.body.sessions? = some sessions) ∧
      ¬b.Carries packet.body
  · obtain ⟨⟨sessions, hsome⟩, hnot⟩ := hstrange
    exact h.strange (not_not.mp hsrc) hsome hnot
  rw [not_and, not_not] at hstrange
  have hkey := h.keyOf
  rw [Rel.handleRx, if_neg hsrc] at hquiet ⊢
  obtain ⟨sessionId, srcMac, body⟩ := packet
  cases body with
  | hello hello => exact h.handleHello hquiet.cleared
  | helloAck ack => exact h.handleHelloAck hquiet.cleared
  | data rh payload =>
      have hcarries := hstrange ⟨_, rfl⟩
      obtain ⟨hbuffers, hpasses, -⟩ := hregular hcarries
      simp only [Body.buffersPending, Body.passesPending, hkey] at hbuffers hpasses
      refine h.handleData hS (fun _ _ => hbacked hcarries) hquiet (fun hno => ?_) hbuffers
      simpa using hpasses hno
  | ack ack =>
      have hcarries := hstrange ⟨_, rfl⟩
      refine h.handleAckPacket hroom (fun _ _ => ⟨hbacked hcarries, fun hnack => ?_⟩)
        (fun _ hnack => ?_) now
      · exact absurd hnack Bool.false_ne_true
      · exact absurd hnack Bool.false_ne_true
  | nack ack =>
      have hcarries := hstrange ⟨_, rfl⟩
      obtain ⟨-, -, hasks⟩ := hregular hcarries
      obtain ⟨hack, hnack⟩ := hbacked hcarries
      simp only [Body.asksInVain, hkey] at hasks
      refine h.handleAckPacket hroom (fun _ _ => ⟨hack, fun _ => hnack⟩) (fun hno _ => ?_) now
      simpa using hasks hno
  | lost lost =>
      have hcarries := hstrange ⟨_, rfl⟩
      obtain ⟨-, hpasses, -⟩ := hregular hcarries
      simp only [Body.passesPending] at hpasses
      refine h.handleLostPacket hS hlossy (fun _ _ => hbacked hcarries) hquiet fun hno => ?_
      simpa using hpasses hno

/-! ## Removing a peer -/

/-- Removing the other end would delete its record. -/
theorem EndOk.removePeer (h : EndOk Q b S R c) (hmac : b.Names c mac)
    (hhas : (removePeer c mac now).1.has b.key) :
    EndStep Q b S R c (removePeer c mac now).1 := by
  obtain ⟨-, hstart, hfound⟩ := h.found hmac false now
  rw [Rel.removePeer] at hhas ⊢
  split
  · next heq =>
      rw [heq] at hstart
      exact hstart
  · next c₁ key heq =>
      rw [heq] at hstart hfound hhas
      obtain rfl : key = b.key := Option.some.inj hfound
      split
      · exact hstart
      · next hempty =>
          simp only [if_neg hempty] at hhas
          obtain ⟨p, hp⟩ := Option.isSome_iff_exists.mp hhas
          have hmem := List.mem_of_find?_eq_some hp
          rw [mem_used, Ctx.setPeers, held_freeWhere, Multiset.mem_filter] at hmem
          exact absurd (peerAt_mac hp) (by simpa using hmem.2)

/-- Deleting one record leaves the others alone. -/
theorem peerAt_removed {key k : Mac} (hk : k ≠ key) :
    (c.setPeers (freeWhere (fun p => p.mac == key) c.peers)).peerAt k = c.peerAt k := by
  rw [Ctx.peerAt, Ctx.setPeers, used_freeWhere, List.find?_filter, Ctx.peerAt]
  congr 1
  funext p
  by_cases hp : p.mac = k
  · subst hp
    simp [hk]
  · simp [hp]

theorem elsewhere_removed {key : Mac} (hk : key ≠ b.key) :
    Elsewhere b c (c.setPeers (freeWhere (fun p => p.mac == key) c.peers)) := by
  have hat := @peerAt_removed c key b.key hk.symm
  have hpeer : (c.setPeers (freeWhere (fun p => p.mac == key) c.peers)).peer b.key =
      c.peer b.key := by
    rw [Ctx.peer, hat]
    rfl
  refine ⟨rfl, rfl, List.prefix_rfl, fun hhas => ?_, fun _ _ => by rw [hpeer], fun ch => ?_,
    fun _ _ _ _ hnone => hnone⟩
  · rw [Ctx.has, hat]
    exact hhas
  · simp only [Ctx.slice, hpeer]
    rfl

/-- A root removes another peer. -/
theorem elsewhere_removePeer (hroot : c.cfg.rootRole = true) (hmac : mac ≠ b.key) :
    Elsewhere b c (removePeer c mac now).1 := by
  have hname : c.keyOf mac = mac := by rw [Ctx.keyOf, if_pos hroot]
  have hfind := touches_peerFind c mac false now
  rw [hname] at hfind
  have hstart := hfind.elsewhere_root (b := b) hroot hmac
  rw [Rel.removePeer]
  split
  · next heq =>
      rw [heq] at hstart
      exact hstart
  · next c₁ key heq =>
      rw [heq] at hstart
      obtain rfl : key = mac := (peerFind_some heq).trans hname
      split
      · exact hstart
      · exact hstart.trans (elsewhere_removed hmac)

/-! ## Calls -/

/-- A call of the public interface at the node.  The link is neither cleared nor removed,
and no message of it expires ahead unless `Q` allows that. -/
theorem EndOk.nodeCall (h : EndOk Q b S R c) (hS : ∀ ch, Channel ch → Honest Q ch (S ch))
    (hroom : ∀ ch, Channel ch → (c.slice b.key ch).next.toNat ≤ 2 ^ 31)
    (hnode : c.cfg.rootRole = false) (hkey : b.key = 0) {call : Call}
    (hahead : ¬Q.expireAhead → call = .poll → expiresAhead c b.key now = false)
    (hquiet : Quiet Q b.key (nodeCall c now call)) (hhas : (nodeCall c now call).has b.key) :
    EndStep Q b S R c (nodeCall c now call) := by
  have hmac : b.Names c 0 := by
    have hzero : c.keyOf 0 = b.key := by simp [Ctx.keyOf, hnode, hkey]
    refine ⟨hzero, ?_⟩
    rw [Ctx.Knows, hzero]
    exact ⟨h.has, .inr (.inl rfl)⟩
  cases call with
  | submit peer channel payload priority => exact h.submit hmac hroom hquiet
  | sendHello capabilities => exact h.sendHello hmac capabilities now
  | poll => exact h.poll hS (fun hno => hahead hno rfl) hquiet
  | route peer routeUp => exact h.peerRoute hmac routeUp now
  | supersedeTime peer => exact h.supersedeTime hmac now
  | reset peer reason => exact h.resetPeer hmac hquiet.cleared
  | remove peer => exact h.removePeer hmac hhas
  | receive src packet => exact .refl h

/-- What a root does about another peer does not concern the link. -/
theorem elsewhere_other (hroot : c.cfg.rootRole = true) (hmac : mac ≠ b.key)
    (h : Touches (ofKey (c.keyOf mac)) c c') : Elsewhere b c c' := by
  rw [show c.keyOf mac = mac by rw [Ctx.keyOf, if_pos hroot]] at h
  exact h.elsewhere_root hroot hmac

/-- A call of the public interface at the root, about the link or about another peer. -/
theorem EndOk.rootCall (h : EndOk Q b S R c) (hS : ∀ ch, Channel ch → Honest Q ch (S ch))
    (hroom : ∀ ch, Channel ch → (c.slice b.key ch).next.toNat ≤ 2 ^ 31)
    (hroot : c.cfg.rootRole = true) {call : Call}
    (hahead : ¬Q.expireAhead → call = .poll → expiresAhead c b.key now = false)
    (hquiet : Quiet Q b.key (rootCall b.key c now call))
    (hhas : (rootCall b.key c now call).has b.key) :
    EndStep Q b S R c (rootCall b.key c now call) := by
  have hmac : b.Names c b.key := by
    have hself : c.keyOf b.key = b.key := by rw [Ctx.keyOf, if_pos hroot]
    refine ⟨hself, ?_⟩
    rw [Ctx.Knows, hself]
    exact ⟨h.has, .inl hroot⟩
  have helse {c' : Ctx} (helse : Elsewhere b c c') : EndStep Q b S R c c' :=
    .of_elsewhere h helse
  cases call with
  | submit peer channel payload priority =>
      by_cases hpeer : peer = b.key
      · subst hpeer
        exact h.submit hmac hroom hquiet
      · exact helse (elsewhere_other hroot hpeer (touches_submit c peer channel payload
          priority now))
  | sendHello capabilities =>
      rw [Rel.rootCall, Rel.sendHello, if_pos hroot]
      exact .refl h
  | poll => exact h.poll hS (fun hno => hahead hno rfl) hquiet
  | route peer routeUp =>
      by_cases hpeer : peer = b.key
      · subst hpeer
        exact h.peerRoute hmac routeUp now
      · exact helse (elsewhere_other hroot hpeer (touches_peerRoute c peer routeUp now))
  | supersedeTime peer =>
      by_cases hpeer : peer = b.key
      · subst hpeer
        exact h.supersedeTime hmac now
      · exact helse (elsewhere_other hroot hpeer
          (touches_supersedeChannel c peer channelTime now))
  | reset peer reason =>
      by_cases hpeer : peer = b.key
      · subst hpeer
        exact h.resetPeer hmac hquiet.cleared
      · exact helse (elsewhere_other hroot hpeer (touches_resetPeer c peer reason now))
  | remove peer =>
      by_cases hpeer : peer = b.key
      · subst hpeer
        exact h.removePeer hmac hhas
      · exact helse (elsewhere_removePeer hroot hpeer)
  | receive src packet =>
      rw [Rel.rootCall]
      split
      · exact .refl h
      · next hsrc => exact helse (elsewhere_other hroot hsrc (touches_handleRx c src packet now))

end

end KeemashCore.Rel
