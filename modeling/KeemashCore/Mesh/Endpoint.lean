import KeemashCore.Mesh.Arrivals
import KeemashCore.Mesh.Sender

/-!
# One end of a link

A context is an end of the link to the peer stored under `Bond.key`: on every
channel its slice is both a selective-repeat sender and a selective-repeat
receiver.  `EndOk` is what an end keeps, and `EndStep` says that an operation of
the context is, on every channel, a sequence of link steps.
-/

namespace KeemashCore.Rel

open SlotTable SelectiveRepeat

/-- The channels that carry messages. -/
def Channel (ch : ℕ) : Prop :=
  0 < ch ∧ ch < channelCount

instance (ch : ℕ) : Decidable (Channel ch) :=
  inferInstanceAs (Decidable (_ ∧ _))

/-- How an end knows the other one. -/
structure Bond where
  key : Mac
  near : Mac
  far : Mac
  rootSessionId : U32
  nodeSessionId : U32

def Bond.binding (b : Bond) : Binding where
  ready := true
  rootSessionId := b.rootSessionId
  nodeSessionId := b.nodeSessionId
  remoteMac := b.far

/-- Nothing has ever happened on the channel of this slice. -/
structure Slice.Bare (s : Slice) : Prop where
  tx : s.tx = 0
  reassembly : s.reassembly = 0
  log : s.log = []

/-- The sessions of the link are the context's own session and one of another end. -/
structure Bond.Fits (b : Bond) (c : Ctx) : Prop where
  root : c.cfg.rootRole = true → b.rootSessionId = c.localSession
  node : c.cfg.rootRole = false → b.nodeSessionId = c.localSession ∧ b.rootSessionId ≠ 0

/-- The context is an end of the link.  The other end sends as `S` says and receives as
`R` says. -/
structure EndOk (Q : Allow) (b : Bond) (S : ℕ → Sender Frame) (R : ℕ → Receiver Frame)
    (c : Ctx) : Prop where
  has : c.has b.key
  localMac : c.cfg.localMac = b.near
  keyOf : c.keyOf b.far = b.key
  binding : (c.peer b.key).binding = b.binding
  sessions : b.Fits c
  outside : ∀ ch, ¬Channel ch → (c.slice b.key ch).Bare
  /-- No message is assembled under another name of the peer. -/
  foreign : ∀ k, c.keyOf k = b.key → k ≠ b.key → ∀ ch, (c.slice k ch).reassembly = 0
  send : ∀ ch, Channel ch → SendOk Q ch b.near b.far (c.slice b.key ch)
  recv : ∀ ch, Channel ch → RecvOk Q ch (S ch) (c.slice b.key ch)
  drained : ∀ ch, Channel ch → Drained (c.slice b.key ch)
  other : ∀ ch, Channel ch → Bounded (linkPolicy Q ch) (c.slice b.key ch).sender (R ch)

/-- Going from `c` to `c'` takes link steps only, on every channel. -/
structure EndStep (Q : Allow) (b : Bond) (S : ℕ → Sender Frame) (R : ℕ → Receiver Frame)
    (c c' : Ctx) : Prop where
  ok : EndOk Q b S R c'
  cfg : c'.cfg = c.cfg
  session : c'.localSession = c.localSession
  trace : c.trace <+: c'.trace
  lostCount : c'.Unreported b.key → (c'.peer b.key).lostCount = (c.peer b.key).lostCount
  sends : ∀ ch, Channel ch → Sender.Steps (linkPolicy Q ch) (R ch)
    (c.slice b.key ch).sender (c'.slice b.key ch).sender
  receives : ∀ ch, Channel ch → Receiver.Steps (linkPolicy Q ch) (S ch)
    (c.slice b.key ch).receiver (c'.slice b.key ch).receiver

section

variable {Q : Allow} {b : Bond} {S : ℕ → Sender Frame} {R : ℕ → Receiver Frame}
  {c c' c'' : Ctx} {ch : ℕ}

theorem EndStep.refl (h : EndOk Q b S R c) : EndStep Q b S R c c :=
  ⟨h, rfl, rfl, List.prefix_rfl, fun _ => rfl, fun _ _ => .refl, fun _ _ => .refl⟩

theorem Ctx.Unreported.before {k : Mac} (h : c'.Unreported k) (hpre : c.trace <+: c'.trace) :
    c.Unreported k :=
  fun e he => h e (hpre.subset he)

theorem EndStep.trans (h : EndStep Q b S R c c') (h' : EndStep Q b S R c' c'') :
    EndStep Q b S R c c'' :=
  ⟨h'.ok, h'.cfg.trans h.cfg, h'.session.trans h.session, h.trace.trans h'.trace,
    fun hquiet => (h'.lostCount hquiet).trans (h.lostCount (hquiet.before h'.trace)),
    fun ch hch => (h.sends ch hch).trans (h'.sends ch hch),
    fun ch hch => (h.receives ch hch).trans (h'.receives ch hch)⟩

theorem EndOk.knows (h : EndOk Q b S R c) : c.Knows b.far := by
  have hremote : (c.peer b.key).remoteMac = b.far := congrArg Binding.remoteMac h.binding
  rw [Ctx.Knows, h.keyOf]
  exact ⟨h.has, .inr (.inr hremote)⟩

/-- The address to which packets for the other end go. -/
theorem Bond.peerSendMac (hkey : c.keyOf b.far = b.key)
    (hbinding : (c.peer b.key).binding = b.binding) : c.peerSendMac b.key = b.far := by
  rw [Ctx.keyOf] at hkey
  rw [Ctx.peerSendMac]
  split
  · next hroot =>
      rw [if_pos hroot] at hkey
      exact hkey.symm
  · exact congrArg Binding.remoteMac hbinding

/-- The LOST packets of the context name the link. -/
theorem Bond.proper (hmac : c.cfg.localMac = b.near) (hkey : c.keyOf b.far = b.key)
    (hbinding : (c.peer b.key).binding = b.binding) (sessionId : U32) (reason : LostReason)
    (flags : BitVec 16) (first last : U32) :
    Proper b.near b.far b.binding (.send b.key
      ⟨sessionId, c.cfg.localMac, .lost (lostPayload c b.key ch reason flags first last)⟩) := by
  refine ⟨b.key, sessionId, lostPayload c b.key ch reason flags first last, ?_,
    congrArg Binding.rootSessionId hbinding, congrArg Binding.nodeSessionId hbinding, hmac,
    Bond.peerSendMac hkey hbinding⟩
  rw [hmac]

theorem mem_slice_tx {k : Mac} {slot : TxSlot} :
    slot ∈ (c.slice k ch).tx ↔ slot ∈ held c.tx ∧ slot.channel = ch ∧ slot.peer = k := by
  simp only [Ctx.slice, Multiset.mem_filter, TxSlot.isFor_iff]

theorem mem_slice_reassembly {k : Mac} {slot : ReassemblySlot} :
    slot ∈ (c.slice k ch).reassembly ↔
      slot ∈ held c.reassembly ∧ slot.channel = ch ∧ slot.peer = k := by
  simp only [Ctx.slice, Multiset.mem_filter, ReassemblySlot.isFor_iff]

theorem Bond.Fits.congr (h : b.Fits c) (hcfg : c'.cfg = c.cfg)
    (hsession : c'.localSession = c.localSession) : b.Fits c' := by
  constructor
  · rw [hcfg, hsession]
    exact h.root
  · rw [hcfg, hsession]
    exact h.node

theorem keyOf_congr (h : c'.cfg = c.cfg) (mac : Mac) : c'.keyOf mac = c.keyOf mac := by
  rw [Ctx.keyOf, Ctx.keyOf, h]

/-- The other records are left alone. -/
theorem EndOk.foreign_near (h : EndOk Q b S R c) (htouch : Touches (ofKey b.key) c c')
    (k : Mac) (hk : c'.keyOf k = b.key) (hne : k ≠ b.key) (ch : ℕ) :
    (c'.slice k ch).reassembly = 0 := by
  rw [htouch.slice k ch hne]
  exact h.foreign k ((keyOf_congr htouch.cfg k).symm.trans hk) hne ch

/-! ## Steps on other slices -/

/-- Nothing that belongs to the link has changed. -/
structure Elsewhere (b : Bond) (c c' : Ctx) : Prop where
  cfg : c'.cfg = c.cfg
  session : c'.localSession = c.localSession
  trace : c.trace <+: c'.trace
  has : c.has b.key → c'.has b.key
  lostCount : c.has b.key → c'.Unreported b.key →
    (c'.peer b.key).lostCount = (c.peer b.key).lostCount
  slice : ∀ ch, c'.slice b.key ch = c.slice b.key ch
  foreign : ∀ k, c.keyOf k = b.key → k ≠ b.key →
    ∀ ch, (c.slice k ch).reassembly = 0 → (c'.slice k ch).reassembly = 0

theorem Elsewhere.refl (b : Bond) (c : Ctx) : Elsewhere b c c :=
  ⟨rfl, rfl, List.prefix_rfl, id, fun _ _ => rfl, fun _ => rfl, fun _ _ _ _ => id⟩

theorem Elsewhere.trans (h : Elsewhere b c c') (h' : Elsewhere b c' c'') : Elsewhere b c c'' :=
  ⟨h'.cfg.trans h.cfg, h'.session.trans h.session, h.trace.trans h'.trace,
    fun hhas => h'.has (h.has hhas),
    fun hhas hquiet => (h'.lostCount (h.has hhas) hquiet).trans
      (h.lostCount hhas (hquiet.before h'.trace)),
    fun ch => (h'.slice ch).trans (h.slice ch),
    fun k hk hne ch hnone => h'.foreign k ((keyOf_congr h.cfg k).trans hk) hne ch
      (h.foreign k hk hne ch hnone)⟩

/-- The other end has moved on. -/
theorem EndOk.react {S' : ℕ → Sender Frame} {R' : ℕ → Receiver Frame} (h : EndOk Q b S R c)
    (hsends : ∀ ch, Channel ch →
      Sender.Steps (linkPolicy Q ch) (c.slice b.key ch).receiver (S ch) (S' ch))
    (hreceives : ∀ ch, Channel ch →
      Receiver.Steps (linkPolicy Q ch) (c.slice b.key ch).sender (R ch) (R' ch)) :
    EndOk Q b S' R' c :=
  { h with
    recv := fun ch hch => (h.recv ch hch).sender_steps (hsends ch hch)
    other := fun ch hch => (hreceives ch hch).bounded (h.other ch hch) }

theorem EndStep.of_elsewhere (h : EndOk Q b S R c) (helse : Elsewhere b c c') :
    EndStep Q b S R c c' := by
  have hkey := keyOf_congr helse.cfg
  have hslice := helse.slice
  refine ⟨⟨helse.has h.has, ?_, (hkey _).trans h.keyOf, ?_,
    h.sessions.congr helse.cfg helse.session, ?_, ?_, ?_, ?_, ?_, ?_⟩,
    helse.cfg, helse.session, helse.trace, helse.lostCount h.has, ?_, ?_⟩
  · rw [helse.cfg]
    exact h.localMac
  · exact (congrArg Slice.binding (hslice 0)).trans h.binding
  · intro ch hch
    rw [hslice]
    exact h.outside ch hch
  · intro k hk hne ch
    have hk' := (hkey k).symm.trans hk
    exact helse.foreign k hk' hne ch (h.foreign k hk' hne ch)
  · intro ch hch
    rw [hslice]
    exact h.send ch hch
  · intro ch hch
    rw [hslice]
    exact h.recv ch hch
  · intro ch hch
    rw [hslice]
    exact h.drained ch hch
  · intro ch hch
    rw [hslice]
    exact h.other ch hch
  · intro ch _
    rw [hslice]
  · intro ch _
    rw [hslice]

/-- Only slices of another record have changed. -/
theorem Touches.elsewhere {A : Set (Mac × ℕ)} (h : Touches A c c')
    (hA : ∀ ch, (b.key, ch) ∉ A)
    (hforeign : ∀ k, c.keyOf k = b.key → k ≠ b.key →
      ∀ ch, (c.slice k ch).reassembly = 0 → (c'.slice k ch).reassembly = 0) :
    Elsewhere b c c' :=
  ⟨h.cfg, h.session, h.trace, h.has b.key, h.lostCount b.key, fun ch => h.slice _ ch (hA ch),
    hforeign⟩

theorem Touches.elsewhere_nowhere (h : Touches ∅ c c') : Elsewhere b c c' :=
  h.elsewhere (fun _ => Set.notMem_empty _) fun k _ _ ch hnone => by
    rw [h.slice k ch (Set.notMem_empty _)]
    exact hnone

/-- At a root a name is a key. -/
theorem Touches.elsewhere_root {k : Mac} (h : Touches (ofKey k) c c')
    (hroot : c.cfg.rootRole = true) (hne : k ≠ b.key) : Elsewhere b c c' := by
  refine h.elsewhere (fun _ hmem => hne hmem.symm) fun k' hk' hne' => ?_
  rw [Ctx.keyOf, if_pos hroot] at hk'
  exact absurd hk' hne'

/-! ## Steps on one channel -/

/-- An operation works on one channel of the link. -/
theorem EndStep.on_channel (h : EndOk Q b S R c) (hch : Channel ch)
    (htouch : Touches {(b.key, ch)} c c')
    (hbinding : (c'.slice b.key ch).binding = (c.slice b.key ch).binding)
    (hsend : SendOk Q ch b.near b.far (c'.slice b.key ch))
    (hrecv : RecvOk Q ch (S ch) (c'.slice b.key ch)) (hdrained : Drained (c'.slice b.key ch))
    (hsends : Sender.Steps (linkPolicy Q ch) (R ch) (c.slice b.key ch).sender
      (c'.slice b.key ch).sender)
    (hreceives : Receiver.Steps (linkPolicy Q ch) (S ch) (c.slice b.key ch).receiver
      (c'.slice b.key ch).receiver) : EndStep Q b S R c c' := by
  have hother (ch' : ℕ) (hne : ch' ≠ ch) : c'.slice b.key ch' = c.slice b.key ch' := by
    apply htouch.slice
    intro hmem
    exact hne (congrArg Prod.snd hmem)
  refine ⟨⟨htouch.has _ h.has, ?_, (keyOf_congr htouch.cfg _).trans h.keyOf,
    hbinding.trans h.binding, h.sessions.congr htouch.cfg htouch.session,
    ?_, ?_, ?_, ?_, ?_, ?_⟩, htouch.cfg, htouch.session, htouch.trace,
    htouch.lostCount _ h.has, ?_, ?_⟩
  · rw [htouch.cfg]
    exact h.localMac
  · intro ch' hch'
    rw [hother ch' fun heq => hch' (heq ▸ hch)]
    exact h.outside ch' hch'
  · exact h.foreign_near (htouch.mono (singleton_subset_ofKey _ _))
  · intro ch' hch'
    by_cases heq : ch' = ch
    · exact heq ▸ hsend
    · rw [hother ch' heq]
      exact h.send ch' hch'
  · intro ch' hch'
    by_cases heq : ch' = ch
    · exact heq ▸ hrecv
    · rw [hother ch' heq]
      exact h.recv ch' hch'
  · intro ch' hch'
    by_cases heq : ch' = ch
    · exact heq ▸ hdrained
    · rw [hother ch' heq]
      exact h.drained ch' hch'
  · intro ch' hch'
    by_cases heq : ch' = ch
    · exact heq ▸ hsends.bounded (h.other ch hch)
    · rw [hother ch' heq]
      exact h.other ch' hch'
  · intro ch' _
    by_cases heq : ch' = ch
    · exact heq ▸ hsends
    · rw [hother ch' heq]
  · intro ch' _
    by_cases heq : ch' = ch
    · exact heq ▸ hreceives
    · rw [hother ch' heq]

theorem EndStep.of_sends (h : EndOk Q b S R c) (hch : Channel ch)
    (htouch : Touches {(b.key, ch)} c c')
    (hsends : Sends Q ch b.near b.far (R ch) (c.slice b.key ch) (c'.slice b.key ch)) :
    EndStep Q b S R c c' := by
  have hreceiver : (c'.slice b.key ch).receiver = (c.slice b.key ch).receiver :=
    congrArg (fun part => part.2.2.2.2.1) hsends.recv
  refine .on_channel h hch htouch hsends.binding hsends.ok
    ((h.recv ch hch).of_recvPart hsends.recv) ?_ hsends.steps ?_
  · rw [Drained, hreceiver]
    exact h.drained ch hch
  · rw [hreceiver]

/-- An operation of the send path works on every channel of the link. -/
theorem EndStep.of_every (h : EndOk Q b S R c) (htouch : Touches (ofKey b.key) c c')
    (hbinding : (c'.peer b.key).binding = (c.peer b.key).binding)
    (hbare : ∀ ch, ¬Channel ch → (c'.slice b.key ch).Bare)
    (hsends : ∀ ch, Channel ch →
      Sends Q ch b.near b.far (R ch) (c.slice b.key ch) (c'.slice b.key ch)) :
    EndStep Q b S R c c' := by
  have hreceiver (ch : ℕ) (hch : Channel ch) :
      (c'.slice b.key ch).receiver = (c.slice b.key ch).receiver :=
    congrArg (fun part => part.2.2.2.2.1) (hsends ch hch).recv
  refine ⟨⟨htouch.has _ h.has, ?_, (keyOf_congr htouch.cfg _).trans h.keyOf,
    hbinding.trans h.binding, h.sessions.congr htouch.cfg htouch.session, hbare,
    h.foreign_near htouch, fun ch hch => (hsends ch hch).ok,
    fun ch hch => (h.recv ch hch).of_recvPart (hsends ch hch).recv, ?_, ?_⟩, htouch.cfg,
    htouch.session, htouch.trace, htouch.lostCount _ h.has,
    fun ch hch => (hsends ch hch).steps, ?_⟩
  · rw [htouch.cfg]
    exact h.localMac
  · intro ch hch
    rw [Drained, hreceiver ch hch]
    exact h.drained ch hch
  · intro ch hch
    exact (hsends ch hch).steps.bounded (h.other ch hch)
  · intro ch hch
    rw [hreceiver ch hch]

/-- What a receive operation does on its channel is a step of the end. -/
theorem EndStep.of_accepts (h : EndOk Q b S R c) (hch : Channel ch)
    (haccepts : Accepts Q ch (S ch) b.key c c') : EndStep Q b S R c c' := by
  have hsender : (c'.slice b.key ch).sender = (c.slice b.key ch).sender :=
    congrArg (fun part => part.2.2.1) haccepts.send
  refine .on_channel h hch haccepts.near haccepts.binding
    ((h.send ch hch).of_sendPart haccepts.send haccepts.binding) haccepts.ok
    haccepts.drained ?_ haccepts.steps
  rw [hsender]

end

end KeemashCore.Rel
