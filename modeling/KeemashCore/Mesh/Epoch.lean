import KeemashCore.Mesh.Turns
import KeemashCore.SelectiveRepeat.Loss
import KeemashCore.SelectiveRepeat.Window

/-!
# Epochs of a link

An epoch of the link between a node and its root starts when both ends have
cleared it for the same binding and no packet of that binding is in flight.  It
lasts until one of them clears or removes the link.  Whatever the network does,
the steps of an epoch are steps of the selective-repeat link in both directions.
-/

namespace KeemashCore.Rel

open SlotTable SelectiveRepeat

/-! ## The start of an epoch -/

/-- The addresses of a node and its root, and the binding they share. -/
structure Pairing where
  nodeMac : Mac
  rootMac : Mac
  rootSessionId : U32
  nodeSessionId : U32

/-- How an end knows the other one. -/
def Pairing.bond (l : Pairing) : Side → Bond
  | .node =>
      { key := 0
        near := l.nodeMac
        far := l.rootMac
        rootSessionId := l.rootSessionId
        nodeSessionId := l.nodeSessionId }
  | .root =>
      { key := l.nodeMac
        near := l.rootMac
        far := l.nodeMac
        rootSessionId := l.rootSessionId
        nodeSessionId := l.nodeSessionId }

/-- The key under which an end stores the other one. -/
abbrev Pairing.key (l : Pairing) (side : Side) : Mac :=
  (l.bond side).key

/-- The packet names the binding. -/
def Pairing.Carries (l : Pairing) (body : Body) : Prop :=
  body.sessions? = some (l.rootSessionId, l.nodeSessionId)

instance (l : Pairing) (body : Body) : Decidable (l.Carries body) :=
  inferInstanceAs (Decidable (_ = _))

/-- The end has just executed `clear_peer_buffers` for the binding. -/
structure Bond.Clear (b : Bond) (c : Ctx) : Prop where
  localMac : c.cfg.localMac = b.near
  has : c.has b.key
  binding : (c.peer b.key).binding = b.binding
  sessions : b.Fits c
  next : ∀ ch, Channel ch → (c.peer b.key).nextSeq ch = 1
  expected : ∀ ch, Channel ch → (c.peer b.key).expectedSeq ch = 1
  pending : used (c.peer b.key).pendingLost = []
  tx : ∀ slot ∈ used c.tx, slot.peer ≠ b.key
  rx : ∀ slot ∈ used c.rx, slot.peer ≠ b.key
  reassembly : ∀ slot ∈ used c.reassembly, c.keyOf slot.peer ≠ b.key

/-- An epoch of the link starts in this state. -/
structure Pairing.Opens (l : Pairing) (s : Sys) : Prop where
  node : s.node.cfg.rootRole = false
  root : s.root.cfg.rootRole = true
  clear : ∀ side, (l.bond side).Clear (s.ctx side)
  /-- No older packet of the binding is in flight. -/
  net : ∀ flight ∈ s.net, ¬l.Carries flight.packet.body

/-- The traces record what happens from here on. -/
def Ctx.fresh (c : Ctx) : Ctx :=
  { c with trace := [] }

def Sys.fresh (s : Sys) : Sys :=
  { s with node := s.node.fresh, root := s.root.fresh }

/-! ## Runs of an epoch -/

/-- An end has neither cleared nor removed the link, and has used few numbers. -/
structure Bond.Kept (b : Bond) (c : Ctx) : Prop where
  has : c.has b.key
  cleared : Effect.cleared b.key ∉ c.trace
  room : ∀ ch, Channel ch → ((c.peer b.key).nextSeq ch).toNat ≤ 2 ^ 31

def Pairing.Kept (l : Pairing) (s : Sys) : Prop :=
  ∀ side, (l.bond side).Kept (s.ctx side)

/-- The states of an epoch in which every action satisfies `P`. -/
inductive Epoch (l : Pairing) (P : Sys → Action → Prop) (s₀ : Sys) : Sys → Prop where
  | start : Epoch l P s₀ s₀.fresh
  | step {s : Sys} {a : Action} (h : Epoch l P s₀ s) (hP : P s a)
      (hkept : l.Kept (s.step a)) : Epoch l P s₀ (s.step a)

/-- What an end sends on a channel, as a selective-repeat sender. -/
def Pairing.sender (l : Pairing) (s : Sys) (side : Side) (ch : ℕ) : Sender Frame :=
  ((s.ctx side).slice (l.key side) ch).sender

/-- What an end takes on a channel, as a selective-repeat receiver. -/
def Pairing.receiver (l : Pairing) (s : Sys) (side : Side) (ch : ℕ) : Receiver Frame :=
  ((s.ctx side).slice (l.key side) ch).receiver

/-! ## Irregular actions -/

/-- A packet that reaches an end. -/
structure Arrival where
  side : Side
  packet : Packet
  now : U32

/-- The packet that an action delivers. -/
def Sys.arrival (s : Sys) : Action → Option Arrival
  | .deliver index now =>
      (s.net[index]?).map fun flight => ⟨flight.sender.other, flight.packet, now⟩
  | _ => none

/-- The action delivers no packet of the binding that would make the end do `p`. -/
def Pairing.Avoids (l : Pairing) (p : Ctx → Mac → U32 → Body → Bool) (s : Sys)
    (a : Action) : Prop :=
  ∀ x ∈ s.arrival a, l.Carries x.packet.body →
    p (s.ctx x.side) (l.bond x.side).far x.now x.packet.body = false

/-- A poll gives no message up whose numbers are not passed yet. -/
def Pairing.ExpiresBehind (l : Pairing) (s : Sys) : Action → Prop
  | .call side .poll now => expiresAhead (s.ctx side) (l.key side) now = false
  | _ => True

/-- No table was exhausted on the link, and no message of it timed out. -/
def Bond.Spared (b : Bond) (c : Ctx) : Prop :=
  Effect.exhausted b.key ∉ c.trace ∧ Effect.fragmentsExpired b.key ∉ c.trace

def Pairing.Spared (l : Pairing) (s : Sys) : Prop :=
  ∀ side, (l.bond side).Spared (s.ctx side)

/-- The action needs no irregular step that `Q` excludes. -/
structure Pairing.Regular (l : Pairing) (Q : Allow) (s : Sys) (a : Action) : Prop where
  buffers : ¬Q.bufferPending → l.Avoids Body.buffersPending s a
  passes : ¬Q.overrun → l.Avoids Body.passesPending s a
  expires : ¬Q.expireAhead → l.ExpiresBehind s a
  asks : ¬(Q.lossy ∧ Q.disown) → l.Avoids Body.asksInVain s a
  spares : ¬Q.lossy → l.Spared (s.step a)

/-! ## The invariant -/

/-- The link during an epoch. -/
structure Linked (Q : Allow) (l : Pairing) (s : Sys) : Prop where
  node : s.node.cfg.rootRole = false
  root : s.root.cfg.rootRole = true
  ends : ∀ side, EndOk Q (l.bond side) (l.sender s side.other) (l.receiver s side.other)
    (s.ctx side)
  link : ∀ side ch, Channel ch → Steps (linkPolicy Q ch) (.fresh, .fresh)
    (l.sender s side ch, l.receiver s side.other ch)
  /-- Packets of the binding are in flight only if they were sent. -/
  net : ∀ flight ∈ s.net, l.Carries flight.packet.body →
    Effect.send (l.key flight.sender) flight.packet ∈ (s.ctx flight.sender).trace

section

variable {Q : Allow} {l : Pairing} {s s₀ : Sys} {b : Bond} {c c' : Ctx} {ch : ℕ}

theorem Side.cases_other (side side' : Side) : side' = side ∨ side' = side.other := by
  cases side
  · cases side'
    · exact .inl rfl
    · exact .inr rfl
  · cases side'
    · exact .inr rfl
    · exact .inl rfl

theorem Side.other_other (side : Side) : side.other.other = side := by
  cases side
  · rfl
  · rfl

theorem Side.other_ne (side : Side) : side.other ≠ side := by
  cases side
  · simp [Side.other]
  · simp [Side.other]

theorem Pairing.far_bond (l : Pairing) (side : Side) :
    (l.bond side).far = (l.bond side.other).near := by
  cases side
  · rfl
  · rfl

theorem Pairing.carries_bond (side : Side) (body : Body) :
    (l.bond side).Carries body ↔ l.Carries body := by
  cases side
  · exact Iff.rfl
  · exact Iff.rfl

/-! ## A cleared slice -/

/-- Nothing has happened on the channel since the link was cleared. -/
structure Slice.Blank (s : Slice) : Prop where
  next : s.next = 1
  expected : s.expected = 1
  tx : s.tx = 0
  rx : s.rx = 0
  reassembly : s.reassembly = 0
  pending : held s.pending = 0
  log : s.log = []

theorem Slice.Blank.sender {s : Slice} (h : s.Blank) : s.sender = .fresh := by
  simp [Slice.sender, Sender.fresh, h.next, h.tx, h.log]

theorem Slice.Blank.receiver {s : Slice} (h : s.Blank) : s.receiver = .fresh := by
  simp [Slice.receiver, Receiver.fresh, h.expected, h.rx, h.pending, h.log]

theorem Slice.Blank.sendOk {s : Slice} (h : s.Blank) {near far : Mac} :
    SendOk Q ch near far s where
  slots := by simp [h.tx]
  valid := by simp [h.sender, Sender.fresh]
  part := by simp [h.sender, Sender.fresh]
  sorted := by simp [h.log]
  below := by simp [h.log]
  lengths := by simp [h.log]
  announced := by simp [h.log]
  lossless := by simp [h.sender, Sender.fresh, h.log]

theorem Slice.Blank.recvOk {s : Slice} (h : s.Blank) : RecvOk Q ch .fresh s where
  bounded := by
    rw [h.receiver]
    exact bounded_fresh _
  ordered := by
    rw [h.receiver]
    exact Receiver.ordered_fresh
  rx_hdr := by simp [h.rx]
  rx_time := by simp [h.rx]
  rx_nodup := by simp [h.rx]
  pending_channel := by simp [h.pending]
  pending_ok := by
    have hnone : ∀ i range, ¬OnChannel ch s.pending i range := by
      intro i range hi
      have hmem := mem_held_of_entryAt hi.1
      simp [h.pending] at hmem
    exact ⟨fun i range hi => absurd hi (hnone i range),
      fun i j range range' hi => absurd hi (hnone i range)⟩
  slots := by simp [h.reassembly]
  time := fun _ => h.reassembly
  delivered := by
    rw [h.log]
    exact ⟨[], .nil, by simp, .nil⟩
  lossless := by simp [h.pending, h.log]
  progress := by
    intro _ _
    refine ⟨by simp [h.reassembly], by simp [h.reassembly], ?_⟩
    simp [Sender.fresh]

theorem Slice.Blank.drained {s : Slice} (h : s.Blank) : Drained s := by
  simp [Drained, h.receiver, Receiver.fresh, Receiver.buffered]

theorem Bond.Clear.blank (h : b.Clear c) (hself : c.keyOf b.key = b.key) (hch : Channel ch) :
    (c.fresh.slice b.key ch).Blank where
  next := h.next ch hch
  expected := h.expected ch hch
  tx := by
    refine Multiset.eq_zero_of_forall_notMem fun slot hslot => ?_
    obtain ⟨hheld, -, hpeer⟩ := mem_slice_tx.mp hslot
    exact h.tx slot (mem_used.mpr hheld) hpeer
  rx := by
    refine Multiset.eq_zero_of_forall_notMem fun slot hslot => ?_
    rw [Ctx.slice, Multiset.mem_filter] at hslot
    exact h.rx slot (mem_used.mpr hslot.1) (RxSlot.isFor_iff.mp hslot.2).2
  reassembly := by
    refine Multiset.eq_zero_of_forall_notMem fun slot hslot => ?_
    obtain ⟨hheld, -, hpeer⟩ := mem_slice_reassembly.mp hslot
    refine h.reassembly slot (mem_used.mpr hheld) ?_
    rw [hpeer]
    exact hself
  pending := by
    have hnone : held (c.peer b.key).pendingLost = 0 := by
      rw [held, h.pending]
      rfl
    have hpending : (c.fresh.slice b.key ch).pending =
        pendingOn ch (c.peer b.key).pendingLost := rfl
    rw [hpending, pendingOn, held_freeWhere, hnone, Multiset.filter_zero]
  log := rfl

/-- A cleared end, seen from a cleared end. -/
theorem Bond.Clear.endOk (h : b.Clear c) (hself : c.keyOf b.key = b.key)
    (hfar : c.keyOf b.far = b.key) {S : ℕ → Sender Frame} {R : ℕ → Receiver Frame}
    (hS : ∀ ch, Channel ch → S ch = .fresh) (hR : ∀ ch, Channel ch → R ch = .fresh) :
    EndOk Q b S R c.fresh where
  has := h.has
  localMac := h.localMac
  keyOf := hfar
  binding := h.binding
  sessions := ⟨h.sessions.root, h.sessions.node⟩
  outside := fun ch _ => by
    refine ⟨Multiset.eq_zero_of_forall_notMem fun slot hslot => ?_,
      Multiset.eq_zero_of_forall_notMem fun slot hslot => ?_, rfl⟩
    · obtain ⟨hheld, -, hpeer⟩ := mem_slice_tx.mp hslot
      exact h.tx slot (mem_used.mpr hheld) hpeer
    · obtain ⟨hheld, -, hpeer⟩ := mem_slice_reassembly.mp hslot
      refine h.reassembly slot (mem_used.mpr hheld) ?_
      rw [hpeer]
      exact hself
  foreign := fun k hk _ ch => by
    refine Multiset.eq_zero_of_forall_notMem fun slot hslot => ?_
    obtain ⟨hheld, -, hpeer⟩ := mem_slice_reassembly.mp hslot
    refine h.reassembly slot (mem_used.mpr hheld) ?_
    rw [hpeer]
    exact hk
  send := fun _ hch => (h.blank hself hch).sendOk
  recv := fun ch hch => hS ch hch ▸ (h.blank hself hch).recvOk
  drained := fun _ hch => (h.blank hself hch).drained
  other := fun ch hch => by
    rw [(h.blank hself hch).sender, hR ch hch]
    exact bounded_fresh _

theorem Pairing.Opens.self (h : l.Opens s) (side : Side) :
    (s.ctx side).keyOf (l.key side) = l.key side := by
  cases side with
  | node => exact if_neg (by simp [Sys.ctx, h.node])
  | root => exact if_pos h.root

theorem Pairing.Opens.far (h : l.Opens s) (side : Side) :
    (s.ctx side).keyOf (l.bond side).far = l.key side := by
  cases side with
  | node => exact if_neg (by simp [Sys.ctx, h.node])
  | root => exact if_pos h.root

theorem Sys.ctx_fresh (s : Sys) (side : Side) : s.fresh.ctx side = (s.ctx side).fresh := by
  cases side
  · rfl
  · rfl

theorem Pairing.Opens.linked (h : l.Opens s) : Linked Q l s.fresh where
  node := h.node
  root := h.root
  ends := by
    intro side
    rw [Sys.ctx_fresh]
    refine (h.clear side).endOk (h.self side) (h.far side) (fun ch hch => ?_) fun ch hch => ?_
    · rw [Pairing.sender, Sys.ctx_fresh]
      exact ((h.clear _).blank (h.self _) hch).sender
    · rw [Pairing.receiver, Sys.ctx_fresh]
      exact ((h.clear _).blank (h.self _) hch).receiver
  link := by
    intro side ch hch
    rw [Pairing.sender, Pairing.receiver, Sys.ctx_fresh, Sys.ctx_fresh,
      ((h.clear side).blank (h.self side) hch).sender,
      ((h.clear side.other).blank (h.self side.other) hch).receiver]
  net := fun flight hflight hcarries => absurd hcarries (h.net flight hflight)

/-! ## One action -/

theorem Sys.ctx_setCtx (s : Sys) (side : Side) (c : Ctx) (net : List Flight) :
    Sys.ctx { s.setCtx side c with net := net } side = c := by
  cases side
  · rfl
  · rfl

theorem Sys.ctx_setCtx_other (s : Sys) (side : Side) (c : Ctx) (net : List Flight) :
    Sys.ctx { s.setCtx side c with net := net } side.other = s.ctx side.other := by
  cases side
  · rfl
  · rfl

/-- The other end keeps its own invariant when an end has moved on. -/
theorem Linked.turn (h : Linked Q l s) {side : Side} {c : Ctx}
    (hstep : EndStep Q (l.bond side) (l.sender s side.other) (l.receiver s side.other)
      (s.ctx side) c) {net : List Flight}
    (hnet : ∀ flight ∈ net, flight ∈ s.net ∨
      flight.sender = side ∧ Effect.send (l.key side) flight.packet ∈ c.trace) :
    Linked Q l { s.setCtx side c with net := net } := by
  have hself := s.ctx_setCtx side c net
  have hother := s.ctx_setCtx_other side c net
  generalize hs' : ({ s.setCtx side c with net := net } : Sys) = s' at hself hother
  have hrole : ∀ side, (s'.ctx side).cfg.rootRole = (s.ctx side).cfg.rootRole := by
    intro side'
    rcases side.cases_other side' with rfl | rfl
    · rw [hself, hstep.cfg]
    · rw [hother]
  refine ⟨(hrole .node).trans h.node, (hrole .root).trans h.root, ?_, ?_, ?_⟩
  · intro side'
    rcases side.cases_other side' with rfl | rfl
    · rw [hself]
      have hS : l.sender s' side'.other = l.sender s side'.other := by
        funext ch
        rw [Pairing.sender, hother, Pairing.sender]
      have hR : l.receiver s' side'.other = l.receiver s side'.other := by
        funext ch
        rw [Pairing.receiver, hother, Pairing.receiver]
      rw [hS, hR]
      exact hstep.ok
    · rw [hother, Side.other_other]
      have hend := h.ends side.other
      rw [Side.other_other] at hend
      refine hend.react (fun ch hch => ?_) fun ch hch => ?_
      · rw [Pairing.sender, Pairing.sender, hself]
        exact hstep.sends ch hch
      · rw [Pairing.receiver, Pairing.receiver, hself]
        exact hstep.receives ch hch
  · intro side' ch hch
    refine (h.link side' ch hch).trans ?_
    rcases side.cases_other side' with rfl | rfl
    · have hsend : Steps (linkPolicy Q ch) _ _ := Steps.sender (hstep.sends ch hch)
      rw [Pairing.sender, Pairing.receiver, Pairing.sender, Pairing.receiver, hself, hother]
      exact hsend
    · have hreceive : Steps (linkPolicy Q ch) _ _ := Steps.receiver (hstep.receives ch hch)
      rw [Side.other_other, Pairing.sender, Pairing.receiver, Pairing.sender,
        Pairing.receiver, hself, hother]
      exact hreceive
  · intro flight hflight hcarries
    have hmem : flight ∈ net := by
      rw [← hs'] at hflight
      exact hflight
    rcases hnet flight hmem with hold | ⟨hside, hsent⟩
    · have hsent := h.net flight hold hcarries
      rcases side.cases_other flight.sender with heq | heq
      · rw [heq] at hsent ⊢
        rw [hself]
        exact hstep.trace.subset hsent
      · rw [heq] at hsent ⊢
        rw [hother]
        exact hsent
    · rw [hside, hself]
      exact hsent

theorem Sys.step_acted {a : Action} {side : Side} {c : Ctx} (h : s.acted a = some (side, c)) :
    s.step a = { s.setCtx side c with
      net := s.netAfter a ++
        (newEffects (s.ctx side) c).filterMap (flightOf (s.key side) side) } := by
  simp only [Sys.step, Sys.effects, h]

theorem Sys.step_unacted {a : Action} (h : s.acted a = none) :
    s.step a = { s with net := s.netAfter a } := by
  simp only [Sys.step, h]

/-- Deliveries, drops and duplicates bring nothing new into flight. -/
theorem Sys.netAfter_subset (s : Sys) (a : Action) : s.netAfter a ⊆ s.net := by
  intro flight hflight
  cases a with
  | call side call now => exact hflight
  | deliver index now => exact List.mem_of_mem_eraseIdx hflight
  | drop index => exact List.mem_of_mem_eraseIdx hflight
  | duplicate index =>
      rcases List.mem_append.mp hflight with hold | hnew
      · exact hold
      · exact List.mem_of_getElem? (Option.mem_toList.mp hnew)

theorem flightOf_some {link : Mac} {side : Side} {e : Effect} {flight : Flight}
    (h : flightOf link side e = some flight) :
    flight.sender = side ∧ e = .send link flight.packet := by
  cases e with
  | send key packet =>
      simp only [flightOf] at h
      split at h
      · next heq =>
          obtain rfl := Option.some.inj h
          exact ⟨rfl, by rw [heq]⟩
      · exact absurd h (by simp)
  | _ => exact absurd h (by simp [flightOf])

theorem Linked.key (h : Linked Q l s) (side : Side) : s.key side = l.key side := by
  cases side with
  | node => rfl
  | root => exact (h.ends .node).localMac

/-- An end that gives nothing up is told of no drops. -/
theorem Linked.drops_lossy (h : Linked Q l s) (hQ : Q.disown → Q.lossy) (side : Side)
    (hch : Channel ch) : ∀ x ∈ (l.receiver s side ch).drops, Q.lossy := by
  intro x hx
  by_contra hno
  have hlink := h.link side.other ch hch
  rw [Side.other_other] at hlink
  have hlossless := Steps.lossless hno (fun hdisown => hno (hQ hdisown)) hlink lossless_fresh
  rw [hlossless.drops] at hx
  exact Set.notMem_empty _ hx

/-- A turn of an end takes link steps only. -/
theorem Linked.acted (h : Linked Q l s) (hQ : Q.disown → Q.lossy) (hkept : l.Kept s)
    {a : Action} (hregular : l.Regular Q s a) (hkept' : l.Kept (s.step a)) {side : Side}
    {c : Ctx} (hact : s.acted a = some (side, c)) :
    EndStep Q (l.bond side) (l.sender s side.other) (l.receiver s side.other)
      (s.ctx side) c := by
  have hend := h.ends side
  have hS : ∀ ch, Channel ch → Honest Q ch (l.sender s side.other ch) := fun ch hch =>
    ((h.ends side.other).send ch hch).honest ((hkept side.other).room ch hch)
  have hroom := (hkept side).room
  have hlossy := fun ch (hch : Channel ch) => h.drops_lossy hQ side.other hch
  have hafter : (s.step a).ctx side = c := by
    rw [Sys.step_acted hact, Sys.ctx_setCtx]
  have hhas := hafter ▸ (hkept' side).has
  have hquiet : Quiet Q (l.key side) c := by
    rw [← hafter]
    exact ⟨(hkept' side).cleared, fun hno => (hregular.spares hno side).1,
      fun hno => (hregular.spares hno side).2⟩
  have hexpires := hregular.expires
  cases a with
  | call who call now =>
      have hahead : ¬Q.expireAhead → call = .poll →
          expiresAhead (s.ctx who) (l.key who) now = false := by
        rintro hno rfl
        exact hexpires hno
      cases who with
      | node =>
          obtain ⟨rfl, rfl⟩ := Prod.mk.inj (Option.some.inj hact)
          exact hend.nodeCall hS hroom h.node rfl hahead hquiet hhas
      | root =>
          obtain ⟨rfl, rfl⟩ := Prod.mk.inj (Option.some.inj hact)
          have hmac : s.node.cfg.localMac = (l.bond .root).key := (h.ends .node).localMac
          rw [hmac] at hquiet hhas ⊢
          exact hend.rootCall hS hroom h.root hahead hquiet hhas
  | deliver index now =>
      simp only [Sys.acted] at hact
      split at hact
      · exact absurd hact (by simp)
      · next flight hflight =>
          obtain ⟨rfl, rfl⟩ := Prod.mk.inj (Option.some.inj hact)
          have hmac : (s.ctx flight.sender).cfg.localMac = (l.bond flight.sender.other).far := by
            rw [l.far_bond, Side.other_other]
            exact (h.ends _).localMac
          have harrival : ⟨flight.sender.other, flight.packet, now⟩ ∈
              s.arrival (.deliver index now) := by
            rw [Sys.arrival, hflight]
            rfl
          rw [hmac] at hquiet ⊢
          refine hend.handleRx hS hroom hlossy (fun hcarries => ?_) (fun hcarries => ?_) hquiet
          · rw [Side.other_other]
            exact backed_of_sent (h.net flight (List.mem_of_getElem? hflight)
              ((Pairing.carries_bond _ _).mp hcarries))
          · have hname := (Pairing.carries_bond _ _).mp hcarries
            exact ⟨fun hno => hregular.buffers hno _ harrival hname,
              fun hno => hregular.passes hno _ harrival hname,
              fun hno => hregular.asks hno _ harrival hname⟩
  | drop index => exact absurd hact (by simp [Sys.acted])
  | duplicate index => exact absurd hact (by simp [Sys.acted])

/-- Every action of an epoch keeps the link. -/
theorem Linked.step (h : Linked Q l s) (hQ : Q.disown → Q.lossy) (hkept : l.Kept s)
    {a : Action} (hregular : l.Regular Q s a) (hkept' : l.Kept (s.step a)) :
    Linked Q l (s.step a) := by
  cases hact : s.acted a with
  | none =>
      rw [Sys.step_unacted hact]
      exact ⟨h.node, h.root, h.ends, h.link, fun flight hflight =>
        h.net flight (s.netAfter_subset a hflight)⟩
  | some x =>
      obtain ⟨side, c⟩ := x
      have hstep := h.acted hQ hkept hregular hkept' hact
      rw [Sys.step_acted hact]
      refine h.turn hstep fun flight hflight => ?_
      rcases List.mem_append.mp hflight with hold | hnew
      · exact .inl (s.netAfter_subset a hold)
      · obtain ⟨e, he, hflightOf⟩ := List.mem_filterMap.mp hnew
        obtain ⟨hside, rfl⟩ := flightOf_some hflightOf
        rw [h.key] at he
        exact .inr ⟨hside, List.mem_of_mem_drop he⟩

/-! ## Whole epochs -/

variable {P : Sys → Action → Prop}

theorem Pairing.Opens.kept (h : l.Opens s) : l.Kept s.fresh := by
  intro side
  rw [Sys.ctx_fresh]
  refine ⟨(h.clear side).has, List.not_mem_nil, fun ch hch => ?_⟩
  have hnext : ((s.ctx side).fresh.peer (l.key side)).nextSeq ch = 1 :=
    (h.clear side).next ch hch
  rw [hnext]
  decide

/-- The link is kept throughout an epoch. -/
theorem Epoch.linked (hopen : l.Opens s₀) (hQ : Q.disown → Q.lossy)
    (hP : ∀ s a, P s a → l.Regular Q s a) (h : Epoch l P s₀ s) :
    Linked Q l s ∧ l.Kept s := by
  induction h with
  | start => exact ⟨hopen.linked, hopen.kept⟩
  | step _ hstep hkept ih => exact ⟨ih.1.step hQ ih.2 (hP _ _ hstep) hkept, hkept⟩

theorem Epoch.mono {P' : Sys → Action → Prop} (h : Epoch l P s₀ s)
    (hPP : ∀ s a, P s a → P' s a) : Epoch l P' s₀ s := by
  induction h with
  | start => exact .start
  | step _ hstep hkept ih => exact ih.step (hPP _ _ hstep) hkept

/-- The actions of a list satisfy `P` and keep the link. -/
def Pairing.Runs (l : Pairing) (P : Sys → Action → Prop) : Sys → List Action → Prop
  | _, [] => True
  | s, a :: as => P s a ∧ l.Kept (s.step a) ∧ l.Runs P (s.step a) as

theorem Epoch.run {as : List Action} (h : Epoch l P s₀ s) (hruns : l.Runs P s as) :
    Epoch l P s₀ (s.run as) := by
  induction as generalizing s with
  | nil => exact h
  | cons a as ih => exact ih (h.step hruns.1 hruns.2.1) hruns.2.2

end

/-! ## Deciding epochs -/

instance {p : Side → Prop} [DecidablePred p] : Decidable (∀ side, p side) :=
  decidable_of_iff (p .node ∧ p .root)
    ⟨fun h side => by cases side; exacts [h.1, h.2], fun h => ⟨h .node, h .root⟩⟩

instance {p : ℕ → Prop} [DecidablePred p] : Decidable (∀ ch, Channel ch → p ch) :=
  decidable_of_iff (∀ ch < channelCount, 0 < ch → p ch)
    ⟨fun h ch hch => h ch hch.2 hch.1, fun h ch hlt hpos => h ch ⟨hpos, hlt⟩⟩

instance (c : Ctx) (key : Mac) : Decidable (c.has key) :=
  inferInstanceAs (Decidable (_ = true))

instance (b : Bond) (c : Ctx) : Decidable (b.Kept c) :=
  decidable_of_iff (c.has b.key ∧ Effect.cleared b.key ∉ c.trace ∧
      ∀ ch, Channel ch → ((c.peer b.key).nextSeq ch).toNat ≤ 2 ^ 31)
    ⟨fun ⟨h, h', h''⟩ => ⟨h, h', h''⟩, fun ⟨h, h', h''⟩ => ⟨h, h', h''⟩⟩

instance (l : Pairing) (s : Sys) : Decidable (l.Kept s) :=
  inferInstanceAs (Decidable (∀ side, (l.bond side).Kept (s.ctx side)))

instance decidableRuns (l : Pairing) (P : Sys → Action → Prop) [∀ s a, Decidable (P s a)] :
    ∀ (s : Sys) (as : List Action), Decidable (l.Runs P s as)
  | _, [] => inferInstanceAs (Decidable True)
  | s, a :: as =>
      have : Decidable (l.Runs P (s.step a) as) :=
        decidableRuns l P (s.step a) as
      inferInstanceAs (Decidable (P s a ∧ l.Kept (s.step a) ∧ l.Runs P (s.step a) as))

instance (b : Bond) (c : Ctx) : Decidable (b.Clear c) :=
  decidable_of_iff (c.cfg.localMac = b.near ∧ c.has b.key ∧
      (c.peer b.key).binding = b.binding ∧
      ((c.cfg.rootRole = true → b.rootSessionId = c.localSession) ∧
        (c.cfg.rootRole = false →
          b.nodeSessionId = c.localSession ∧ b.rootSessionId ≠ 0)) ∧
      (∀ ch, Channel ch → (c.peer b.key).nextSeq ch = 1) ∧
      (∀ ch, Channel ch → (c.peer b.key).expectedSeq ch = 1) ∧
      used (c.peer b.key).pendingLost = [] ∧
      (∀ slot ∈ used c.tx, slot.peer ≠ b.key) ∧ (∀ slot ∈ used c.rx, slot.peer ≠ b.key) ∧
      ∀ slot ∈ used c.reassembly, c.keyOf slot.peer ≠ b.key)
    ⟨fun ⟨h1, h2, h3, h4, h5, h6, h7, h8, h9, h10⟩ =>
      ⟨h1, h2, h3, ⟨h4.1, h4.2⟩, h5, h6, h7, h8, h9, h10⟩,
    fun ⟨h1, h2, h3, h4, h5, h6, h7, h8, h9, h10⟩ =>
      ⟨h1, h2, h3, ⟨h4.root, h4.node⟩, h5, h6, h7, h8, h9, h10⟩⟩

instance (l : Pairing) (p : Ctx → Mac → U32 → Body → Bool) (s : Sys) (a : Action) :
    Decidable (l.Avoids p s a) :=
  inferInstanceAs (Decidable (∀ x ∈ s.arrival a, l.Carries x.packet.body →
    p (s.ctx x.side) (l.bond x.side).far x.now x.packet.body = false))

instance decidableExpiresBehind (l : Pairing) (s : Sys) :
    ∀ a : Action, Decidable (l.ExpiresBehind s a)
  | .call side .poll now =>
      inferInstanceAs (Decidable (expiresAhead (s.ctx side) (l.key side) now = false))
  | .call _ (.submit _ _ _ _) _ => inferInstanceAs (Decidable True)
  | .call _ (.sendHello _) _ => inferInstanceAs (Decidable True)
  | .call _ (.route _ _) _ => inferInstanceAs (Decidable True)
  | .call _ (.supersedeTime _) _ => inferInstanceAs (Decidable True)
  | .call _ (.reset _ _) _ => inferInstanceAs (Decidable True)
  | .call _ (.remove _) _ => inferInstanceAs (Decidable True)
  | .call _ (.receive _ _) _ => inferInstanceAs (Decidable True)
  | .deliver _ _ => inferInstanceAs (Decidable True)
  | .drop _ => inferInstanceAs (Decidable True)
  | .duplicate _ => inferInstanceAs (Decidable True)

/-! ## A small link -/

/-- The addresses and sessions of a small link. -/
def smallPairing : Pairing where
  nodeMac := 0x11
  rootMac := 0x22
  rootSessionId := 7
  nodeSessionId := 9

/-- A node and its root that have just greeted each other. -/
def smallSys : Sys :=
  Sys.run ⟨smallCtx false 0x11 9, smallCtx true 0x22 7, []⟩
    [.call .node (.sendHello 0) 1, .deliver 0 2, .deliver 0 3]

/-- The greeting opens an epoch. -/
theorem opens_smallSys : smallPairing.Opens smallSys :=
  ⟨by decide, by decide, by decide +kernel, by decide⟩

end KeemashCore.Rel
