import KeemashCore.Mesh.ActivePing

/-!
# Pings and their answers

Over every run of the root, whatever packets come in and however the other tasks interleave
with the poll task: at most one ping waits for its answer at a time, an answer is taken only
for the ping that was sent last, once, with the time that has passed since, and pings keep
the period between them.
-/

namespace KeemashCore.MeshRoot

open LittleEndian Rel Tunnel RoundRobin

/-! ## The exchange -/

/-- The effect is a ping or its answer. -/
def RootEffect.isPing : RootEffect → Bool
  | .ping _ _ _ => true
  | .pong _ _ _ _ => true
  | _ => false

/-- The pings and their answers, in order. -/
def TunnelRoot.pings (r : TunnelRoot) : List RootEffect :=
  r.trace.filter RootEffect.isPing

/-- When a ping was sent, and its id. -/
def RootEffect.sent? : RootEffect → Option (U32 × U32)
  | .ping _ id sentMs => some (id, sentMs)
  | _ => none

/-- The id and the time of the last ping. -/
def lastSent (log : List RootEffect) : Option (U32 × U32) :=
  (log.filterMap RootEffect.sent?).getLast?

/-- Pings with fresh ids that keep the period, each with at most one answer behind it, which
names its peer and its id and has the time that passed. -/
inductive Exchange (cfg : PingConfig) : List RootEffect → Prop where
  | nil : Exchange cfg []
  | ping {log : List RootEffect} (h : Exchange cfg log) (mac : Mac) {id sentMs : U32}
      (hid : id ≠ 0)
      (hafter : ∀ lastId lastMs, lastSent log = some (lastId, lastMs) →
        id = (takePingId (lastId + 1)).1 ∧ (lastMs = 0 ∨ cfg.periodMs ≤ sentMs - lastMs)) :
      Exchange cfg (log ++ [.ping mac id sentMs])
  | pong {log : List RootEffect} {mac : Mac} {id sentMs : U32}
      (h : Exchange cfg (log ++ [.ping mac id sentMs])) (now : U32) :
      Exchange cfg (log ++ [.ping mac id sentMs, .pong mac id now (now - sentMs)])

/-! ## Steps that start no ping -/

/-- The addresses of the records. -/
def NodeStates.macs (nodes : NodeStates) : List Mac :=
  nodes.filterMap (Option.map NodeState.mac)

/-- No ping is started, and the one that is waited for is at most given up. -/
structure Calm (r r' : TunnelRoot) : Prop where
  pings : r'.pings = r.pings
  size : r'.nodes.length = r.nodes.length
  unique : r.nodes.macs.Nodup → r'.nodes.macs.Nodup
  pending : ∀ n', some n' ∈ r'.nodes → n'.pingPending = true → ∃ n, some n ∈ r.nodes ∧
    n.pingPending = true ∧ n'.mac = n.mac ∧ n'.pingId = n.pingId ∧ n'.pingSentMs = n.pingSentMs

/-- The change of a record keeps its address and starts no ping. -/
structure Calming (f : NodeState → NodeState) : Prop where
  mac : ∀ n, (f n).mac = n.mac
  pending : ∀ n, (f n).pingPending = true → n.pingPending = true ∧ (f n).pingId = n.pingId ∧
    (f n).pingSentMs = n.pingSentMs

section Calm

variable {r r' : TunnelRoot} {f : NodeState → NodeState}

theorem Calm.refl (r : TunnelRoot) : Calm r r where
  pings := rfl
  size := rfl
  unique := fun h => h
  pending := fun n' hmem hpending => ⟨n', hmem, hpending, rfl, rfl, rfl⟩

theorem Calm.trans {r'' : TunnelRoot} (h : Calm r r') (h' : Calm r' r'') : Calm r r'' where
  pings := h'.pings.trans h.pings
  size := h'.size.trans h.size
  unique := fun hnodup => h'.unique (h.unique hnodup)
  pending := fun n'' hmem hpending => by
    obtain ⟨n', hmem', hpending', hmac', hid', hsent'⟩ := h'.pending n'' hmem hpending
    obtain ⟨n, hmem, hpending, hmac, hid, hsent⟩ := h.pending n' hmem' hpending'
    exact ⟨n, hmem, hpending, hmac'.trans hmac, hid'.trans hid, hsent'.trans hsent⟩

theorem Calm.emit (h : Calm r r') {effects : List RootEffect}
    (heffects : ∀ e ∈ effects, e.isPing = false) : Calm r (r'.emit effects) := by
  refine h.trans ⟨?_, rfl, fun hnodup => hnodup,
    fun n' hmem hpending => ⟨n', hmem, hpending, rfl, rfl, rfl⟩⟩
  rw [TunnelRoot.pings, TunnelRoot.emit, List.filter_append, TunnelRoot.pings,
    List.append_right_eq_self, List.filter_eq_nil_iff]
  intro e he
  rw [heffects e he]
  exact Bool.false_ne_true

theorem Calm.sendPacketToMac (h : Calm r r') {dst : Mac} {type : BitVec 8}
    {sessionId seq ackSeq : U32} {payload : List UInt8} :
    Calm r (r'.sendPacketToMac dst type sessionId seq ackSeq payload).1 := by
  rw [TunnelRoot.sendPacketToMac]
  split
  · exact h
  · refine h.emit fun e he => ?_
    rw [List.mem_singleton.mp he]
    rfl

theorem Calm.sendControl (h : Calm r r') {dst : Mac} {type : BitVec 8}
    {sessionId ackSeq missingSeq : U32} :
    Calm r (r'.sendControl dst type sessionId ackSeq missingSeq) := by
  rw [TunnelRoot.sendControl]
  split
  · exact h
  · exact h.sendPacketToMac

/-- The table with a changed record. -/
theorem mem_modify {nodes : NodeStates} {mac : Mac} {n' : NodeState}
    (h : some n' ∈ nodes.modify mac f) :
    some n' ∈ nodes ∨ ∃ n, some n ∈ nodes ∧ n' = f n := by
  induction nodes with
  | nil => simp [NodeStates.modify] at h
  | cons entry rest ih =>
      cases entry with
      | none =>
          rw [NodeStates.modify, List.mem_cons] at h
          rcases h.resolve_left (by simp) |> ih with hmem | ⟨n, hmem, heq⟩
          · exact .inl (List.mem_cons_of_mem _ hmem)
          · exact .inr ⟨n, List.mem_cons_of_mem _ hmem, heq⟩
      | some m =>
          rw [NodeStates.modify] at h
          split at h
          · rcases List.mem_cons.mp h with heq | hmem
            · exact .inr ⟨m, List.mem_cons_self .., Option.some.inj heq⟩
            · exact .inl (List.mem_cons_of_mem _ hmem)
          · rcases List.mem_cons.mp h with heq | hmem
            · exact .inl (heq ▸ List.mem_cons_self ..)
            · rcases ih hmem with hmem | ⟨n, hmem, heq⟩
              · exact .inl (List.mem_cons_of_mem _ hmem)
              · exact .inr ⟨n, List.mem_cons_of_mem _ hmem, heq⟩

theorem macs_modify (hf : ∀ n, (f n).mac = n.mac) (nodes : NodeStates) (mac : Mac) :
    (nodes.modify mac f).macs = nodes.macs := by
  induction nodes with
  | nil => rfl
  | cons entry rest ih =>
      cases entry with
      | none => exact ih
      | some m =>
          rw [NodeStates.modify]
          split
          · simp [NodeStates.macs, hf]
          · exact congrArg (m.mac :: ·) ih

theorem length_modify (nodes : NodeStates) (mac : Mac) :
    (nodes.modify mac f).length = nodes.length := by
  induction nodes with
  | nil => rfl
  | cons entry rest ih =>
      cases entry with
      | none => exact congrArg (· + 1) ih
      | some m =>
          rw [NodeStates.modify]
          split
          · rfl
          · exact congrArg (· + 1) ih

theorem mem_insert {nodes : NodeStates} {n n' : NodeState} (h : some n' ∈ nodes.insert n) :
    some n' ∈ nodes ∨ n' = n := by
  induction nodes with
  | nil => simp [NodeStates.insert] at h
  | cons entry rest ih =>
      cases entry with
      | none =>
          rcases List.mem_cons.mp h with heq | hmem
          · exact .inr (Option.some.inj heq)
          · exact .inl (List.mem_cons_of_mem _ hmem)
      | some m =>
          rcases List.mem_cons.mp h with heq | hmem
          · exact .inl (heq ▸ List.mem_cons_self ..)
          · exact (ih hmem).imp_left (List.mem_cons_of_mem _)

theorem length_insert (nodes : NodeStates) (n : NodeState) :
    (nodes.insert n).length = nodes.length := by
  induction nodes with
  | nil => rfl
  | cons entry rest ih =>
      cases entry with
      | none => rfl
      | some m => exact congrArg (· + 1) ih

theorem find_eq_none {nodes : NodeStates} {mac : Mac} :
    nodes.find mac = none ↔ mac ∉ nodes.macs := by
  induction nodes with
  | nil => simp [NodeStates.find, NodeStates.macs]
  | cons entry rest ih =>
      cases entry with
      | none => exact ih
      | some m =>
          by_cases hm : m.mac = mac
          · simp [NodeStates.find, NodeStates.macs, hm]
          · rw [NodeStates.find, if_neg hm, ih]
            simp [NodeStates.macs, Ne.symm hm]

/-- A new record takes the place of a free entry, if there is one. -/
theorem macs_insert (nodes : NodeStates) (n : NodeState) :
    (nodes.insert n).macs = nodes.macs ∨ (nodes.insert n).macs.Perm (n.mac :: nodes.macs) := by
  induction nodes with
  | nil => exact .inl rfl
  | cons entry rest ih =>
      cases entry with
      | none => exact .inr (.refl _)
      | some m =>
          rcases ih with heq | hperm
          · exact .inl (congrArg (m.mac :: ·) heq)
          · exact .inr ((hperm.cons m.mac).trans (.swap ..))

theorem mem_of_find {nodes : NodeStates} {mac : Mac} {n : NodeState}
    (h : nodes.find mac = some n) : some n ∈ nodes := by
  induction nodes with
  | nil => simp [NodeStates.find] at h
  | cons entry rest ih =>
      cases entry with
      | none => exact List.mem_cons_of_mem _ (ih h)
      | some m =>
          rw [NodeStates.find] at h
          split at h
          · exact List.mem_cons.mpr (.inl h.symm)
          · exact List.mem_cons_of_mem _ (ih h)

theorem mem_macs {nodes : NodeStates} {n : NodeState} (h : some n ∈ nodes) :
    n.mac ∈ nodes.macs :=
  List.mem_filterMap.mpr ⟨some n, h, rfl⟩

theorem mem_modify_ne {nodes : NodeStates} (hnodup : nodes.macs.Nodup) {mac : Mac}
    {n' : NodeState} (h : some n' ∈ nodes.modify mac f) :
    (some n' ∈ nodes ∧ n'.mac ≠ mac) ∨ ∃ n, nodes.find mac = some n ∧ n' = f n := by
  induction nodes with
  | nil => simp [NodeStates.modify] at h
  | cons entry rest ih =>
      cases entry with
      | none =>
          rw [NodeStates.modify, List.mem_cons] at h
          exact (ih hnodup (h.resolve_left (by simp))).imp_left fun hboth =>
            ⟨List.mem_cons_of_mem _ hboth.1, hboth.2⟩
      | some m =>
          obtain ⟨hout, hrest⟩ := List.nodup_cons.mp hnodup
          rw [NodeStates.modify] at h
          rw [NodeStates.find]
          split at h
          · next hm =>
              rw [if_pos hm]
              rcases List.mem_cons.mp h with heq | hmem
              · exact .inr ⟨m, rfl, Option.some.inj heq⟩
              · refine .inl ⟨List.mem_cons_of_mem _ hmem, fun heq => hout ?_⟩
                rw [hm, ← heq]
                exact mem_macs hmem
          · next hm =>
              rw [if_neg hm]
              rcases List.mem_cons.mp h with heq | hmem
              · obtain rfl := Option.some.inj heq
                exact .inl ⟨List.mem_cons_self .., hm⟩
              · exact (ih hrest hmem).imp_left fun hboth =>
                  ⟨List.mem_cons_of_mem _ hboth.1, hboth.2⟩

/-- Every record is changed. -/
theorem Calm.map (h : Calm r r') (hf : Calming f) :
    Calm r { r' with nodes := r'.nodes.map (Option.map f) } := by
  have hmacs (nodes : NodeStates) : NodeStates.macs (nodes.map (Option.map f)) =
      nodes.macs := by
    rw [NodeStates.macs, NodeStates.macs, List.filterMap_map]
    congr 1
    funext entry
    cases entry with
    | none => rfl
    | some n => exact congrArg some (hf.mac n)
  refine h.trans ⟨rfl, List.length_map _, fun hnodup => ?_, fun n' hmem hpending => ?_⟩
  · rw [hmacs]
    exact hnodup
  · obtain ⟨entry, hentry, heq⟩ := List.mem_map.mp hmem
    obtain ⟨n, rfl, rfl⟩ := Option.map_eq_some_iff.mp heq
    obtain ⟨hwaits, hid, hsent⟩ := hf.pending n hpending
    exact ⟨n, hentry, hwaits, hf.mac n, hid, hsent⟩

theorem macs_set_none (nodes : NodeStates) (i : ℕ) :
    (NodeStates.macs (nodes.set i none)).Sublist nodes.macs := by
  induction nodes generalizing i with
  | nil => exact .refl _
  | cons entry rest ih =>
      cases i with
      | zero =>
          cases entry with
          | none => exact .refl _
          | some n => exact List.sublist_cons_self n.mac (NodeStates.macs rest)
      | succ i =>
          cases entry with
          | none => exact ih i
          | some n => exact (ih i).cons_cons n.mac

theorem macs_set_some {nodes : NodeStates} {i : ℕ} {n n' : NodeState}
    (hn : nodes[i]?.join = some n) (hmac : n'.mac = n.mac) :
    NodeStates.macs (nodes.set i (some n')) = nodes.macs := by
  induction nodes generalizing i with
  | nil => simp at hn
  | cons entry rest ih =>
      cases i with
      | zero =>
          have hentry : entry = some n := hn
          subst hentry
          exact congrArg (· :: NodeStates.macs rest) hmac
      | succ i =>
          have hrest := ih hn
          cases entry with
          | none => exact hrest
          | some m => exact congrArg (m.mac :: ·) hrest

/-- Two entries for one address are one. -/
theorem eq_of_mac_eq {nodes : NodeStates} (hnodup : nodes.macs.Nodup) {i j : ℕ}
    {n m : NodeState} (hn : nodes[i]?.join = some n) (hm : nodes[j]?.join = some m)
    (hmac : n.mac = m.mac) : i = j := by
  have hmem {rest : NodeStates} {k : ℕ} {e : NodeState} (he : rest[k]?.join = some e) :
      e.mac ∈ rest.macs :=
    mem_macs (List.mem_of_getElem? (Option.join_eq_some_iff.mp he))
  induction nodes generalizing i j with
  | nil => simp at hn
  | cons entry rest ih =>
      have hrest : NodeStates.macs rest |>.Nodup := by
        cases entry with
        | none => exact hnodup
        | some e => exact (List.nodup_cons.mp hnodup).2
      cases i with
      | zero =>
          have hentry : entry = some n := hn
          subst hentry
          cases j with
          | zero => rfl
          | succ j => exact absurd (hmac ▸ hmem hm) (List.nodup_cons.mp hnodup).1
      | succ i =>
          cases j with
          | zero =>
              have hentry : entry = some m := hm
              subst hentry
              exact absurd (hmac ▸ hmem hn) (List.nodup_cons.mp hnodup).1
          | succ j => exact congrArg (· + 1) (ih hrest hn hm)

/-- An entry is freed. -/
theorem Calm.free (h : Calm r r') (i : ℕ) :
    Calm r { r' with nodes := r'.nodes.set i none } := by
  refine h.trans ⟨rfl, List.length_set, fun hnodup => hnodup.sublist (macs_set_none _ i),
    fun n' hmem hpending => ?_⟩
  · rcases List.mem_or_eq_of_mem_set hmem with hmem | heq
    · exact ⟨n', hmem, hpending, rfl, rfl, rfl⟩
    · simp at heq

theorem Calm.change (h : Calm r r') {k : Mac} {create : Bool} (hf : Calming f) :
    Calm r (r'.change k create f) := by
  refine h.trans ⟨rfl, ?_, fun hnodup => ?_, fun n' hmem hpending => ?_⟩
  · change ((if create then r'.nodes.ensure k else r'.nodes).modify k f).length = _
    rw [length_modify, NodeStates.ensure]
    split
    · split
      · rfl
      · exact length_insert _ _
    · rfl
  · change ((if create then r'.nodes.ensure k else r'.nodes).modify k f).macs.Nodup
    rw [macs_modify hf.mac, NodeStates.ensure]
    split
    · split
      · exact hnodup
      · next hnone =>
          rw [Option.not_isSome_iff_eq_none, find_eq_none] at hnone
          rcases macs_insert r'.nodes (.fresh k) with heq | hperm
          · rw [heq]
            exact hnodup
          · exact hperm.nodup_iff.mpr (hnodup.cons hnone)
    · exact hnodup
  · change some n' ∈ (if create then r'.nodes.ensure k else r'.nodes).modify k f at hmem
    have hensure {n : NodeState}
        (hn : some n ∈ (if create then r'.nodes.ensure k else r'.nodes))
        (hwaits : n.pingPending = true) : some n ∈ r'.nodes := by
      rw [NodeStates.ensure] at hn
      split at hn
      · split at hn
        · exact hn
        · rcases mem_insert hn with hn | rfl
          · exact hn
          · simp [NodeState.fresh] at hwaits
      · exact hn
    rcases mem_modify hmem with hkept | ⟨n, hold, rfl⟩
    · exact ⟨n', hensure hkept hpending, hpending, rfl, rfl, rfl⟩
    · obtain ⟨hwaits, hid, hsent⟩ := hf.pending n hpending
      exact ⟨n, hensure hold hwaits, hwaits, hf.mac n, hid, hsent⟩

end Calm

/-! ## The handlers -/

section Handlers

variable {r r' : TunnelRoot} {src : Mac} {h : WireHdr} {payload : List UInt8} {now : U32}

/-- What a change does to a ping. -/
theorem Calming.of_cases {f : NodeState → NodeState} (hmac : ∀ n, (f n).mac = n.mac)
    (hfields : ∀ n, (f n).pingPending = false ∨
      ((f n).pingPending, (f n).pingId, (f n).pingSentMs) =
        (n.pingPending, n.pingId, n.pingSentMs)) : Calming f where
  mac := hmac
  pending n h := by
    rcases hfields n with hfalse | hsame
    · rw [hfalse] at h
      simp at h
    · obtain ⟨hpending, hrest⟩ := Prod.mk.inj hsame
      obtain ⟨hid, hsent⟩ := Prod.mk.inj hrest
      exact ⟨hpending ▸ h, hid, hsent⟩

theorem calming_tunnelData (sessionId : U32) (t : TunnelHdr) (now : U32) :
    Calming (NodeState.tunnelData sessionId t now) := by
  refine .of_cases (fun n => ?_) fun n => ?_
  · rw [NodeState.tunnelData, NodeState.adoptTunnel]
    split
    · rfl
    · split
      · rfl
      · rfl
  · rw [NodeState.tunnelData, NodeState.adoptTunnel]
    split
    · exact .inr rfl
    · split
      · exact .inl rfl
      · exact .inl rfl

theorem calming_legacyData (h : WireHdr) (now : U32) :
    Calming (NodeState.legacyData h now) := by
  refine .of_cases (fun n => ?_) fun n => ?_
  · rw [NodeState.legacyData, NodeState.adoptLegacy]
    split
    · rfl
    · split
      · rfl
      · rfl
  · rw [NodeState.legacyData, NodeState.adoptLegacy]
    split
    · exact .inr rfl
    · split
      · exact .inl rfl
      · exact .inl rfl

theorem calming_lost (sessionId missingSeq now : U32) :
    Calming (NodeState.lost sessionId missingSeq now) := by
  refine .of_cases (fun n => ?_) fun n => .inr ?_
  · rw [NodeState.lost]
    split
    · rfl
    · rfl
  · rw [NodeState.lost]
    split
    · rfl
    · rfl

theorem calming_tunnelLost (sessionId : U32) (channel : ℕ) (missingSeq now : U32) :
    Calming (NodeState.tunnelLost sessionId channel missingSeq now) := by
  refine .of_cases (fun n => ?_) fun n => .inr ?_
  · rw [NodeState.tunnelLost]
    split
    · rfl
    · rfl
  · rw [NodeState.tunnelLost]
    split
    · rfl
    · rfl

theorem calm_hooks (hooks : List RootHook) :
    ∀ e ∈ hooks.map RootEffect.hook, e.isPing = false := by
  intro e he
  obtain ⟨call, -, rfl⟩ := List.mem_map.mp he
  rfl

theorem calm_handleHello : Calm r (r.handleHello src h payload now) := by
  refine Calm.sendControl (Calm.emit (Calm.change (.refl r) ?_) (calm_hooks [_]))
  exact .of_cases (fun _ => rfl) fun _ => .inl rfl

theorem calm_handleLost : Calm r (r.handleLost src h payload now) := by
  rw [TunnelRoot.handleLost]
  split
  · exact .refl r
  · exact (Calm.change (.refl r) (calming_lost _ _ _)).sendControl

theorem calm_handleTunnelLost : Calm r (r.handleTunnelLost h payload now) := by
  simp only [TunnelRoot.handleTunnelLost]
  split
  · exact .refl r
  · split
    · exact .refl r
    · exact Calm.change (.refl r) (calming_tunnelLost _ _ _ _)

theorem calm_handleTunnelAck : Calm r (r.handleTunnelAck h payload now) := by
  simp only [TunnelRoot.handleTunnelAck]
  split
  · exact .refl r
  · split
    · exact .refl r
    · refine Calm.change (.refl r) (.of_cases (fun n => ?_) fun n => .inr ?_)
      · split
        · rfl
        · rfl
      · split
        · rfl
        · rfl

theorem calm_handleTunnelData : Calm r (r.handleTunnelData h payload now) := by
  rw [TunnelRoot.handleTunnelData]
  split
  · exact .refl r
  · split
    · exact .refl r
    · next t inner _ =>
        split
        · exact (Calm.refl r).sendPacketToMac
        · have hchanged : Calm r (r.change t.originMac true
              (NodeState.tunnelData h.sessionId t now)) :=
            (Calm.refl r).change (calming_tunnelData h.sessionId t now)
          have hreply (verdict : Verdict) : Calm r (if verdict.sendNack
              then (r.change t.originMac true (NodeState.tunnelData h.sessionId t now)
                ).sendTunnelNack h.srcMac h t verdict.missingSeq
              else (r.change t.originMac true (NodeState.tunnelData h.sessionId t now)
                ).sendTunnelAck h.srcMac h t verdict.ackSeq) := by
            split
            · exact hchanged.sendPacketToMac
            · exact hchanged.sendPacketToMac
          dsimp only
          split
          · refine (hreply _).emit fun e he => ?_
            rcases List.mem_cons.mp he with rfl | he
            · rfl
            · exact calm_hooks _ e he
          · exact hreply _

theorem calm_handleReliableLegacy : Calm r (r.handleReliableLegacy src h payload now) := by
  rw [TunnelRoot.handleReliableLegacy]
  split
  · exact (Calm.refl r).sendControl
  · have hchanged : Calm r (r.change h.srcMac true (NodeState.legacyData h now)) :=
      (Calm.refl r).change (calming_legacyData h now)
    have hreply (verdict : Verdict) : Calm r (if verdict.sendNack
        then (r.change h.srcMac true (NodeState.legacyData h now)).sendControl src typeNack
          h.sessionId verdict.ackSeq verdict.missingSeq
        else (r.change h.srcMac true (NodeState.legacyData h now)).sendControl src typeAck
          h.sessionId verdict.ackSeq 0) := by
      split
      · exact hchanged.sendControl
      · exact hchanged.sendControl
    dsimp only
    split
    · refine (hreply _).emit fun e he => ?_
      rcases List.mem_cons.mp he with rfl | he
      · rfl
      · exact calm_hooks _ e he
    · exact hreply _

theorem calm_sendFrame {relErr : EspErr} {dst : Mac} {channel : ℕ} {inner : List UInt8} :
    Calm r (r.sendFrame relErr dst channel inner).1 := by
  rw [TunnelRoot.sendFrame]
  split
  · exact .refl r
  · split
    · exact .refl r
    · split
      · exact .refl r
      · next n _ _ _ =>
          have hchanged : Calm r (r.change dst false fun m =>
              m.setTx channel { m.tx channel with nextSeq := (n.tx channel).nextSeq + 1 }) :=
            Calm.change (.refl r) (.of_cases (fun _ => rfl) fun _ => .inr rfl)
          dsimp only
          split
          · exact hchanged
          · exact hchanged.sendPacketToMac

/-- A PONG that is taken. -/
structure Answered (src : Mac) (r r' : TunnelRoot) : Prop where
  answer : ∃ n now, r.nodes.find src = some n ∧ n.pingPending = true ∧
    r' = (r.change src false (NodeState.pong now)).emit
      [.pong src n.pingId now (now - n.pingSentMs)]

/-- A packet that comes in starts no ping; a PONG may answer the one that is waited for. -/
theorem calm_handleRx {packet : List UInt8} {view : RootView} :
    Calm r (r.handleRx src packet view).1 ∨ Answered src r (r.handleRx src packet view).1 := by
  rw [TunnelRoot.handleRx]
  split
  · exact .inl (.refl r)
  · split
    · exact .inl (.refl r)
    · split
      · exact .inl calm_handleHello
      · split
        · rw [TunnelRoot.handlePong]
          split
          · exact .inl (.refl r)
          · split
            · exact .inl (.refl r)
            · split
              · exact .inl (.refl r)
              · next n hfind =>
                  split
                  · next hanswers => exact .inr ⟨n, view.now, hfind, hanswers.1, rfl⟩
                  · exact .inl (.refl r)
        · split
          · exact .inl calm_handleTunnelData
          · split
            · exact .inl calm_handleTunnelAck
            · split
              · exact .inl calm_handleTunnelLost
              · split
                · exact .inl calm_handleLost
                · split
                  · exact .inl calm_handleReliableLegacy
                  · exact .inl (.refl r)

end Handlers

/-! ## The invariant -/

/-- A record that waits holds the last ping, and the poll task goes on from it. -/
structure PingOk (cfg : PingConfig) (size : ℕ) (p : PingRoot) : Prop where
  size : p.root.nodes.length = size
  unique : p.root.nodes.macs.Nodup
  waits : ∀ n, some n ∈ p.root.nodes → n.pingPending = true →
    p.root.pings.getLast? = some (.ping n.mac n.pingId n.pingSentMs)
  exchange : Exchange cfg p.root.pings
  last : ∀ id sentMs, lastSent p.root.pings = some (id, sentMs) →
    p.nextPingId = id + 1 ∧ p.lastPingDispatchMs = sentMs

section PingOk

variable {cfg : PingConfig} {size : ℕ} {p : PingRoot}

/-- Steps that start no ping. -/
theorem PingOk.calm (h : PingOk cfg size p) {r' : TunnelRoot} (hcalm : Calm p.root r')
    (sending : Option Ping) (pruning : Option (ℕ × Mac)) :
    PingOk cfg size { p with root := r', sending := sending, pruning := pruning } where
  size := hcalm.size.trans h.size
  unique := hcalm.unique h.unique
  waits n' hmem hpending := by
    obtain ⟨n, hn, hwaits, hmac, hid, hsent⟩ := hcalm.pending n' hmem hpending
    change r'.pings.getLast? = _
    rw [hcalm.pings, hmac, hid, hsent]
    exact h.waits n hn hwaits
  exchange := by
    change Exchange cfg r'.pings
    rw [hcalm.pings]
    exact h.exchange
  last id sentMs hlast := by
    change lastSent r'.pings = _ at hlast
    rw [hcalm.pings] at hlast
    exact h.last id sentMs hlast

/-- A PONG is taken. -/
theorem PingOk.answer (h : PingOk cfg size p) {src : Mac} {r' : TunnelRoot}
    (hanswered : Answered src p.root r') : PingOk cfg size { p with root := r' } := by
  obtain ⟨n, now, hfind, hpending, rfl⟩ := hanswered.answer
  have hmem := mem_of_find hfind
  have hmac := NodeStates.mac_of_find hfind
  have hlast := h.waits n hmem hpending
  obtain ⟨log, hlog⟩ := List.getLast?_eq_some_iff.mp hlast
  have hpings : ((p.root.change src false (NodeState.pong now)).emit
      [.pong src n.pingId now (now - n.pingSentMs)]).pings =
        log ++ [.ping src n.pingId n.pingSentMs, .pong src n.pingId now (now - n.pingSentMs)] := by
    rw [TunnelRoot.pings, TunnelRoot.emit, List.filter_append]
    change p.root.pings ++ _ = _
    rw [hlog, hmac, List.append_assoc]
    rfl
  refine ⟨?_, ?_, fun n' hn' hpending' => ?_, ?_, fun id sentMs hsent => ?_⟩
  · exact (length_modify _ _).trans h.size
  · change (p.root.nodes.modify src (NodeState.pong now)).macs.Nodup
    rw [macs_modify (f := NodeState.pong now) (fun _ => rfl)]
    exact h.unique
  · -- Another record cannot wait: it would wait for the same ping.
    exfalso
    change some n' ∈ p.root.nodes.modify src (NodeState.pong now) at hn'
    rcases mem_modify_ne h.unique hn' with ⟨hold, hother⟩ | ⟨m, -, rfl⟩
    · have hsame := h.waits n' hold hpending'
      rw [hlast, Option.some.injEq] at hsame
      injection hsame with hboth
      exact hother (hboth.symm.trans hmac)
    · simp [NodeState.pong] at hpending'
  · rw [hpings]
    refine .pong ?_ now
    rw [← hmac, ← hlog]
    exact h.exchange
  · rw [hpings] at hsent
    refine h.last id sentMs ?_
    rw [← hsent, hlog, hmac, lastSent, lastSent, List.filterMap_append, List.filterMap_append]
    rfl

/-- A peer is chosen while no ping waits. -/
theorem PingOk.dispatch (h : PingOk cfg size p) {i : ℕ} {n : NodeState} {now session : U32}
    (hn : p.root.nodes[i]?.join = some n) (hidle : p.root.nodes.pinging = false)
    (hperiod : p.lastPingDispatchMs = 0 ∨ cfg.periodMs ≤ now - p.lastPingDispatchMs) :
    PingOk cfg size (p.dispatch i n now session) := by
  have hpings : (p.dispatch i n now session).root.pings =
      p.root.pings ++ [.ping n.mac (takePingId p.nextPingId).1 now] := by
    rw [TunnelRoot.pings, PingRoot.dispatch, TunnelRoot.emit, List.filter_append]
    rfl
  refine ⟨List.length_set.trans h.size, ?_, fun n' hn' hpending => ?_, ?_,
    fun id sentMs hsent => ?_⟩
  · change (NodeStates.macs (p.root.nodes.set i _)).Nodup
    have hmac : (n.pinged (takePingId p.nextPingId).1 now).mac = n.mac := rfl
    rw [macs_set_some hn hmac]
    exact h.unique
  · rw [hpings, List.getLast?_concat]
    rcases List.mem_or_eq_of_mem_set hn' with hold | heq
    · have hnone : n'.pingPending = false := by
        rw [NodeStates.pinging, List.any_eq_false] at hidle
        exact Bool.not_eq_true _ ▸ hidle _ hold
      rw [hnone] at hpending
      simp at hpending
    · obtain rfl := Option.some.inj heq
      rfl
  · rw [hpings]
    refine .ping h.exchange n.mac ?_ fun lastId lastMs hlast => ?_
    · rw [takePingId]
      split
      · decide
      · assumption
    · obtain ⟨hnext, hms⟩ := h.last lastId lastMs hlast
      rw [hnext, ← hms]
      exact ⟨rfl, hperiod⟩
  · rw [hpings, lastSent, List.filterMap_append] at hsent
    have hlast : (takePingId p.nextPingId).1 = id ∧ now = sentMs := by
      have hboth : some ((takePingId p.nextPingId).1, now) = some (id, sentMs) := by
        rw [← hsent]
        exact List.getLast?_concat.symm
      exact Prod.mk.inj (Option.some.inj hboth)
    refine ⟨?_, hlast.2⟩
    rw [← hlast.1]
    change (takePingId p.nextPingId).2 = _
    rw [takePingId]
    split
    · rfl
    · rfl

theorem calming_expire (cfg : PingConfig) (now : U32) :
    Calming (NodeState.expirePing cfg now) := by
  refine .of_cases (fun n => ?_) fun n => ?_
  · rw [NodeState.expirePing]
    split
    · rfl
    · rfl
  · rw [NodeState.expirePing]
    split
    · exact .inl rfl
    · exact .inr rfl

/-- When a peer is pinged, no ping waits and the period has passed. -/
theorem turn_idle {now : U32} {i : ℕ} (h : p.turn cfg now = some i) :
    (p.expired cfg now).pinging = false ∧
      (p.lastPingDispatchMs = 0 ∨ cfg.periodMs ≤ now - p.lastPingDispatchMs) ∧
      pick (p.expired cfg now).length p.pingCursor ((p.expired cfg now).dueAt cfg now) =
        some i := by
  simp only [PingRoot.turn] at h
  split at h
  · simp at h
  · next hgo =>
      rw [not_or, Bool.not_eq_true, Classical.not_and_iff_not_or_not, not_not,
        BitVec.not_lt] at hgo
      exact ⟨hgo.1, hgo.2, h⟩

theorem PingOk.select (h : PingOk cfg size p) (now session : U32) :
    PingOk cfg size (p.select cfg now session) := by
  have hexpired : PingOk cfg size (p.setNodes (p.expired cfg now)) :=
    h.calm ((Calm.refl p.root).map (calming_expire cfg now)) p.sending p.pruning
  simp only [PingRoot.select]
  split
  · exact hexpired
  · next i hturn =>
      obtain ⟨hidle, hperiod, -⟩ := turn_idle hturn
      split
      · exact hexpired
      · next n hn => exact hexpired.dispatch hn hidle hperiod

theorem PingOk.finish (h : PingOk cfg size p) (relReady : Mac → Bool) :
    PingOk cfg size (p.finish relReady) := by
  have hcancel (r : TunnelRoot) (ping : Ping) (hcalm : Calm p.root r) :
      Calm p.root (r.change ping.mac false fun n =>
        if n.pingId = ping.id then { n with pingPending := false } else n) := by
    refine hcalm.change (.of_cases (fun n => ?_) fun n => ?_)
    · split
      · rfl
      · rfl
    · split
      · exact .inl rfl
      · exact .inr rfl
  rw [PingRoot.finish]
  split
  · exact h
  · next ping _ =>
      refine h.calm ?_ none p.pruning
      split
      · exact hcancel _ _ (.refl _)
      · split
        · exact hcancel _ _ (Calm.refl _).sendPacketToMac
        · exact (Calm.refl _).sendPacketToMac

theorem PingOk.pruneClear (h : PingOk cfg size p) (removed : Bool) :
    PingOk cfg size (p.pruneClear removed) := by
  rw [PingRoot.pruneClear]
  split
  · exact h
  · next i mac _ =>
      refine h.calm ?_ p.sending none
      split
      · exact .refl _
      · exact (Calm.refl _).free i

theorem calm_syncRoutes (r : TunnelRoot) (macs : List Mac) (now : U32) :
    Calm r (r.syncRoutes macs now) := by
  have hroutes : Calm r (macs.foldl (fun r mac => r.change mac true (NodeState.routed now)) r) := by
    induction macs using List.reverseRecOn with
    | nil => exact .refl r
    | append_singleton macs mac ih =>
        rw [List.foldl_append]
        exact Calm.change ih (.of_cases (fun _ => rfl) fun _ => .inr rfl)
  refine hroutes.map (.of_cases (fun n => ?_) fun n => ?_)
  · simp only [NodeState.syncRoute]
    split
    · rfl
    · rfl
  · simp only [NodeState.syncRoute]
    split
    · exact .inr rfl
    · exact .inl rfl

theorem calm_noteReliableDelivery (r : TunnelRoot) (peer : Mac) (now : U32) :
    Calm r (r.noteReliableDelivery peer now) := by
  refine Calm.change (.refl r) ?_
  exact .of_cases (fun _ => rfl) fun _ => .inr rfl

theorem calm_noteReliableHello (r : TunnelRoot) (peer : Mac) (hello : HelloMetadata)
    (now : U32) : Calm r (r.noteReliableHello peer hello now) := by
  refine Calm.emit (Calm.change (.refl r) ?_) (calm_hooks [_])
  exact .of_cases (fun _ => rfl) fun _ => .inr rfl

/-- Every step keeps the state of the pings. -/
theorem PingOk.step (h : PingOk cfg size p) (a : PingAction) :
    PingOk cfg size (p.step cfg a) := by
  cases a with
  | select now session =>
      rw [PingRoot.step]
      split
      · exact h
      · exact h.select now session
  | finish relReady => exact h.finish relReady
  | pruneFind i now => exact h.calm (.refl _) p.sending _
  | pruneClear removed => exact h.pruneClear removed
  | rx src packet view =>
      rcases calm_handleRx with hcalm | hanswered
      · exact h.calm hcalm p.sending p.pruning
      · exact h.answer hanswered
  | reliableDelivery peer now =>
      exact h.calm (calm_noteReliableDelivery _ _ _) p.sending p.pruning
  | reliableHello peer hello now =>
      exact h.calm (calm_noteReliableHello _ _ _ _) p.sending p.pruning
  | syncRoutes macs now => exact h.calm (calm_syncRoutes _ _ _) p.sending p.pruning
  | logCtrl relErr mac enable => exact h.calm calm_sendFrame p.sending p.pruning
  | taskRequest relErr mac requestId => exact h.calm calm_sendFrame p.sending p.pruning

theorem pingOk_boot (cfg : PingConfig) (localMac : Mac)
    (transport : Mac → List UInt8 → EspErr) (size : ℕ) :
    PingOk cfg size (.boot localMac transport size) where
  size := List.length_replicate
  unique := by
    have hnone : (PingRoot.boot localMac transport size).root.nodes.macs = [] := by
      rw [NodeStates.macs, List.filterMap_eq_nil_iff]
      intro entry hentry
      rw [List.eq_of_mem_replicate hentry]
      rfl
    rw [hnone]
    exact .nil
  waits n hmem _ := by
    have := List.eq_of_mem_replicate hmem
    simp at this
  exchange := .nil
  last id sentMs h := by simp [PingRoot.boot, TunnelRoot.pings, lastSent] at h

theorem PingOk.run (h : PingOk cfg size p) (actions : List PingAction) :
    PingOk cfg size (actions.foldl (PingRoot.step cfg) p) := by
  induction actions generalizing p with
  | nil => exact h
  | cons a rest ih => exact ih (h.step a)

/-- In every run from boot: pings keep their period and have fresh ids, an answer is taken
only for the last ping and once, with the time that passed, and at most one record waits. -/
theorem pings_answered (cfg : PingConfig) (localMac : Mac)
    (transport : Mac → List UInt8 → EspErr) (size : ℕ) (actions : List PingAction) :
    let p := actions.foldl (PingRoot.step cfg) (.boot localMac transport size)
    Exchange cfg p.root.pings ∧
      (∀ (i : ℕ) (n : NodeState), p.root.nodes[i]?.join = some n → n.pingPending = true →
        p.root.pings.getLast? = some (.ping n.mac n.pingId n.pingSentMs)) ∧
      ∀ (i j : ℕ) (n m : NodeState), p.root.nodes[i]?.join = some n → n.pingPending = true →
        p.root.nodes[j]?.join = some m → m.pingPending = true → i = j := by
  intro p
  have h : PingOk cfg size p := (pingOk_boot cfg localMac transport size).run actions
  have hwaits (i : ℕ) (n : NodeState) (hn : p.root.nodes[i]?.join = some n)
      (hpending : n.pingPending = true) :
      p.root.pings.getLast? = some (.ping n.mac n.pingId n.pingSentMs) :=
    h.waits n (List.mem_of_getElem? (Option.join_eq_some_iff.mp hn)) hpending
  refine ⟨h.exchange, hwaits, fun i j n m hn hpending hm hpending' => ?_⟩
  have hsame := hwaits i n hn hpending
  rw [hwaits j m hm hpending', Option.some.injEq] at hsame
  injection hsame with hmac
  exact eq_of_mac_eq h.unique hn hm hmac.symm

end PingOk

end KeemashCore.MeshRoot
