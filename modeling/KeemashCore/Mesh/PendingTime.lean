import KeemashCore.Mesh.Binding
import KeemashCore.Mesh.OtaLink
import KeemashCore.Mesh.Time
import KeemashCore.SlotTable.Ticket

/-!
# Pending time messages

A root keeps for every node the time message that it has last queued for it, and its poll
task sends one of them at a time.  `flush_one_pending_time` takes the first node whose route is
up and whose message is pending, and looks only then whether the node can take it.  When it
cannot, the call is over: the node stands in front of all nodes after it in the table.
-/

namespace KeemashCore.MeshRoot

open LittleEndian MeshTime Rel SlotTable

/-! ## The nodes of a root -/

/-- The fields of `root_node_state_t` that time messages depend on. -/
structure RootNode where
  mac : Mac
  capabilities : U32
  routeUp : Bool
  timePending : Bool
  pendingTime : TimePayload
  timeSupersededCount : U32
  deriving DecidableEq, Repr

/-- `s_nodes`, which holds a node at most once. -/
structure NodeTable where
  entries : List (Option RootNode)
  distinct : ∀ i j a b, entryAt entries i = some a → entryAt entries j = some b →
    a.mac = b.mac → i = j

/-- The nodes in use, in table order. -/
def NodeTable.nodes (t : NodeTable) : List RootNode :=
  used t.entries

/-- `find_node_locked` without `create`. -/
def NodeTable.find (t : NodeTable) (mac : Mac) : Option RootNode :=
  t.nodes.find? fun n => n.mac == mac

/-- A change of one node. -/
def RootNode.changeAt (mac : Mac) (f : RootNode → RootNode) (n : RootNode) : RootNode :=
  if n.mac = mac then { f n with mac := n.mac } else n

@[simp] theorem RootNode.mac_changeAt (mac : Mac) (f : RootNode → RootNode) (n : RootNode) :
    (n.changeAt mac f).mac = n.mac := by
  rw [RootNode.changeAt]
  split
  · rfl
  · rfl

/-- Change the node of an address, if there is one. -/
def NodeTable.modify (t : NodeTable) (mac : Mac) (f : RootNode → RootNode) : NodeTable where
  entries := t.entries.map (Option.map (RootNode.changeAt mac f))
  distinct := by
    intro i j a b ha hb hab
    rw [entryAt_map, Option.map_eq_some_iff] at ha hb
    obtain ⟨a, ha, rfl⟩ := ha
    obtain ⟨b, hb, rfl⟩ := hb
    rw [RootNode.mac_changeAt, RootNode.mac_changeAt] at hab
    exact t.distinct i j a b ha hb hab

theorem NodeTable.nodes_modify (t : NodeTable) (mac : Mac) (f : RootNode → RootNode) :
    (t.modify mac f).nodes = t.nodes.map (RootNode.changeAt mac f) := by
  rw [NodeTable.nodes, NodeTable.nodes, used, used, NodeTable.modify, List.filterMap_map,
    List.map_filterMap]
  rfl

theorem NodeTable.mem_nodes {t : NodeTable} {n : RootNode} :
    n ∈ t.nodes ↔ ∃ i, entryAt t.entries i = some n := by
  rw [NodeTable.nodes, mem_used]
  exact mem_held_iff_entryAt

theorem NodeTable.eq_of_mac {t : NodeTable} {a b : RootNode} (ha : a ∈ t.nodes)
    (hb : b ∈ t.nodes) (hab : a.mac = b.mac) : a = b := by
  obtain ⟨i, hi⟩ := NodeTable.mem_nodes.mp ha
  obtain ⟨j, hj⟩ := NodeTable.mem_nodes.mp hb
  have hij := t.distinct i j a b hi hj hab
  rw [hij, hj] at hi
  exact (Option.some.inj hi).symm

theorem NodeTable.find_eq_some {t : NodeTable} {mac : Mac} {n : RootNode} :
    t.find mac = some n ↔ n ∈ t.nodes ∧ n.mac = mac := by
  constructor
  · intro h
    refine ⟨List.mem_of_find?_eq_some h, ?_⟩
    simpa using List.find?_some h
  · rintro ⟨hmem, rfl⟩
    have hsome : (t.find n.mac).isSome := List.find?_isSome.mpr ⟨n, hmem, by simp⟩
    obtain ⟨m, hm⟩ := Option.isSome_iff_exists.mp hsome
    have hmac : m.mac = n.mac := by simpa using List.find?_some hm
    rw [hm, NodeTable.eq_of_mac (List.mem_of_find?_eq_some hm) hmem hmac]

/-- The node as `find_node_locked` makes it. -/
def RootNode.fresh (mac : Mac) : RootNode where
  mac := mac
  capabilities := 0
  routeUp := false
  timePending := false
  pendingTime := ⟨0, 0, 0⟩
  timeSupersededCount := 0

/-- `find_node_locked` with `create`, which does nothing when the table is full. -/
def NodeTable.create (t : NodeTable) (mac : Mac) : NodeTable :=
  match hfound : t.find mac, hfree : freeIdx t.entries with
  | none, some i =>
      { entries := t.entries.set i (some (RootNode.fresh mac))
        distinct := by
          have hlt : i < t.entries.length := lt_length_of_freeIdx hfree
          have hother {k : ℕ} {a : RootNode} (ha : entryAt t.entries k = some a) :
              a.mac ≠ mac := by
            intro hmac
            have hmem : a ∈ t.nodes := NodeTable.mem_nodes.mpr ⟨k, ha⟩
            rw [NodeTable.find_eq_some.mpr ⟨hmem, hmac⟩] at hfound
            exact absurd hfound (by simp)
          intro j k a b ha hb hab
          rw [entryAt_set hlt] at ha hb
          split at ha
          · split at hb
            · simp_all
            · obtain rfl := Option.some.inj ha
              exact absurd hab.symm (hother hb)
          · split at hb
            · obtain rfl := Option.some.inj hb
              exact absurd hab (hother ha)
            · exact t.distinct j k a b ha hb hab }
  | _, _ => t

/-- Take the node of an address out of the table. -/
def NodeTable.drop (t : NodeTable) (mac : Mac) : NodeTable where
  entries := freeWhere (fun n => n.mac == mac) t.entries
  distinct := by
    intro i j a b ha hb hab
    rw [entryAt_freeWhere, Option.filter_eq_some_iff] at ha hb
    exact t.distinct i j a b ha.1 hb.1 hab

theorem NodeTable.mem_create {t : NodeTable} {mac : Mac} {n : RootNode}
    (h : n ∈ (t.create mac).nodes) : n = RootNode.fresh mac ∨ n ∈ t.nodes := by
  rw [NodeTable.create] at h
  split at h
  · rw [NodeTable.nodes, mem_used] at h
    rcases mem_held_set h with rfl | hmem
    · exact .inl rfl
    · exact .inr (mem_used.mpr hmem)
  · exact .inr h

theorem NodeTable.mem_drop {t : NodeTable} {mac : Mac} {n : RootNode}
    (h : n ∈ (t.drop mac).nodes) : n ∈ t.nodes := by
  rw [NodeTable.nodes, NodeTable.drop, used_freeWhere] at h
  exact List.mem_of_mem_filter h

/-! ## Sending -/

/-- `KEEMASH_REL_PRIORITY_NORMAL`. -/
def priorityNormal : ℕ := 1

/-- `mesh_v2_time_payload_t` on the wire. -/
def timeBytes (time : TimePayload) : List UInt8 :=
  toLeBytes 8 time.epochSec ++ toLeBytes 4 time.generation ++ toLeBytes 4 time.sourceUptimeS

/-- `keemash_rel_channel_unacked`. -/
def relChannelUnacked (c : Ctx) (mac : Mac) (channel : ℕ) (now : U32) : Ctx × ℕ :=
  if channel = 0 ∨ channel ≥ channelCount then (c, 0)
  else
    match peerFind c mac false now with
    | (c, none) => (c, 0)
    | (c, some key) => (c, channelUnacked c key channel)

/-- What `flush_one_pending_time` does with the node it has found: whether the message is
sent. -/
def sendPendingTime (c : Ctx) (mac : Mac) (pending : TimePayload) (now : U32) : Ctx × Bool :=
  let ready := peerReady c mac now
  if !ready.2 then (ready.1, false)
  else
    let unacked := relChannelUnacked ready.1 mac channelTime now
    if unacked.2 ≠ 0 then (unacked.1, false)
    else
      let sent := submit unacked.1 mac channelTime (timeBytes pending) priorityNormal now
      (sent.1, sent.2.1 == .ok)

section Link

variable {c : Ctx} {mac : Mac} {now : U32}

/-- In the role of a root a search that finds a record changes nothing. -/
theorem peerFind_root (h : c.cfg.rootRole = true) (hhas : c.has mac) :
    peerFind c mac false now = (c, some mac) := by
  have hkey : c.keyOf mac = mac := by rw [Ctx.keyOf, if_pos h]
  have hnote : c.noteMac mac = c := by
    rw [Ctx.noteMac, h]
    rfl
  rw [← hkey] at hhas
  rw [peerFind_stored hhas, hnote, hkey]

theorem peerReady_root (h : c.cfg.rootRole = true) :
    peerReady c mac now = (c, (c.peer mac).ready) := by
  by_cases hhas : c.has mac
  · rw [peerReady, peerFind_root h hhas]
    rfl
  · have hkey : c.keyOf mac = mac := by rw [Ctx.keyOf, if_pos h]
    have hready : (c.peer mac).ready = false := by
      rw [← Bool.not_eq_true]
      exact fun hready => hhas (has_of_ready hready)
    rw [← hkey] at hhas
    rw [peerReady, peerFind_missing hhas, hready]
    rfl

theorem relChannelUnacked_root (h : c.cfg.rootRole = true) (hready : (c.peer mac).ready = true) :
    relChannelUnacked c mac channelTime now = (c, channelUnacked c mac channelTime) := by
  rw [relChannelUnacked, if_neg (by decide), peerFind_root h (has_of_ready hready)]

/-- The peer is ready and has acknowledged every time message. -/
def Free (c : Ctx) (mac : Mac) : Prop :=
  (c.peer mac).ready = true ∧ channelUnacked c mac channelTime = 0

instance : Decidable (Free c mac) :=
  inferInstanceAs (Decidable (_ ∧ _))

theorem sendPendingTime_free (h : c.cfg.rootRole = true) (hfree : Free c mac)
    (pending : TimePayload) :
    sendPendingTime c mac pending now =
      ((submit c mac channelTime (timeBytes pending) priorityNormal now).1,
        (submit c mac channelTime (timeBytes pending) priorityNormal now).2.1 == .ok) := by
  rw [sendPendingTime, peerReady_root h]
  simp only [hfree.1, Bool.not_true, Bool.false_eq_true, if_false]
  rw [relChannelUnacked_root h hfree.1]
  simp only [hfree.2, ne_eq, not_true_eq_false, if_false]

theorem sendPendingTime_busy (h : c.cfg.rootRole = true) (hbusy : ¬Free c mac)
    (pending : TimePayload) : sendPendingTime c mac pending now = (c, false) := by
  rw [sendPendingTime, peerReady_root h]
  by_cases hready : (c.peer mac).ready = true
  · have hunacked : channelUnacked c mac channelTime ≠ 0 := fun hzero => hbusy ⟨hready, hzero⟩
    simp only [hready, Bool.not_true, Bool.false_eq_true, if_false]
    rw [relChannelUnacked_root h hready]
    simp only [hunacked, ne_eq, not_false_eq_true, if_true]
  · rw [Bool.not_eq_true] at hready
    simp only [hready, Bool.not_false, if_true]

theorem cfg_sendPendingTime (h : c.cfg.rootRole = true) (pending : TimePayload) :
    (sendPendingTime c mac pending now).1.cfg = c.cfg := by
  by_cases hfree : Free c mac
  · rw [sendPendingTime_free h hfree]
    exact (rootKept_submit c mac channelTime (timeBytes pending) priorityNormal now).cfg
  · rw [sendPendingTime_busy h hfree]

end Link

/-! ## The root -/

/-- The state of `keemash_mesh_root.c` that time messages depend on. -/
structure Root where
  rel : Ctx
  isRoot : rel.cfg.rootRole = true
  nodes : NodeTable

/-- The node that `flush_one_pending_time` stops at. -/
def RootNode.wantsTime (n : RootNode) : Bool :=
  n.routeUp && n.timePending

/-- The message of the generation that was sent is no longer pending. -/
def RootNode.timeSent (generation : U32) (n : RootNode) : RootNode :=
  if n.timePending ∧ n.pendingTime.generation = generation then { n with timePending := false }
  else n

/-- The first node that `flush_one_pending_time` does not pass over. -/
def Root.candidate (r : Root) : Option RootNode :=
  r.nodes.nodes.find? RootNode.wantsTime

/-- `flush_one_pending_time`. -/
def Root.flushOnePendingTime (r : Root) (now : U32) : Root :=
  match r.candidate with
  | none => r
  | some n =>
      { rel := (sendPendingTime r.rel n.mac n.pendingTime now).1
        isRoot := by rw [cfg_sendPendingTime r.isRoot]; exact r.isRoot
        nodes :=
          if (sendPendingTime r.rel n.mac n.pendingTime now).2 then
            r.nodes.modify n.mac (RootNode.timeSent n.pendingTime.generation)
          else r.nodes }

/-- Drop the time messages of a node that are not acknowledged; how many there were. -/
def Root.supersedeTime (r : Root) (mac : Mac) (now : U32) : Root × ℕ :=
  ({ r with
      rel := (supersedeChannel r.rel mac channelTime now).1
      isRoot := by
        rw [(rootKept_supersedeChannel r.rel mac channelTime now).cfg]
        exact r.isRoot },
    (supersedeChannel r.rel mac channelTime now).2)

/-- A message is queued in place of the one before it. -/
def RootNode.queueTime (time : TimePayload) (superseded : Bool) (n : RootNode) : RootNode :=
  { n with
    timeSupersededCount := if superseded then n.timeSupersededCount + 1 else n.timeSupersededCount
    pendingTime := time
    timePending := true }

/-- Drop what is on its way to a node and queue a message for it. -/
def Root.queueFor (r : Root) (n : RootNode) (time : TimePayload) (now : U32) : Root :=
  let superseded := r.supersedeTime n.mac now
  { superseded.1 with
    nodes := superseded.1.nodes.modify n.mac
      (RootNode.queueTime time (n.timePending || superseded.2 != 0)) }

/-- `mesh_v2_root_queue_time`, with whether `s_rel_lock` was taken in time. -/
def Root.queueTime (r : Root) (mac : Mac) (time : TimePayload) (locked : Bool) (now : U32) :
    Root × EspErr :=
  if time.generation = 0 then (r, .invalidArg)
  else if !locked then (r, .invalidState)
  else
    match r.nodes.find mac with
    | none => (r, .notSupported)
    | some n =>
        if n.capabilities &&& capTypedTime = 0 then (r, .notSupported)
        else (r.queueFor n time now, .ok)

/-- The node can take typed time over the reliable link. -/
def RootNode.takesTime (n : RootNode) : Bool :=
  n.capabilities &&& (requiredCapabilities ||| capTypedTime) ==
    requiredCapabilities ||| capTypedTime

/-- `mesh_v2_root_queue_time_all`. -/
def Root.queueTimeAll (r : Root) (time : TimePayload) (locked : Bool) (now : U32) : Root × ℕ :=
  if time.generation = 0 ∨ !locked then (r, 0)
  else
    let peers := r.nodes.nodes.filter RootNode.takesTime
    (peers.foldl (fun r n => r.queueFor n time now) r, peers.length)

/-! ## Runs -/

/-- What happens to a root: the reliable link moves on, a node says what it can do, a route
goes up or down, a node is forgotten, the application queues a time message, and the poll
task flushes. -/
inductive RootEvent where
  | link (c : Ctx) (isRoot : c.cfg.rootRole = true)
  | hello (mac : Mac) (capabilities : U32)
  | route (mac : Mac) (up : Bool)
  | forget (mac : Mac)
  | queueTime (mac : Mac) (time : TimePayload) (locked : Bool) (now : U32)
  | queueTimeAll (time : TimePayload) (locked : Bool) (now : U32)
  | flush (now : U32)

def Root.step (r : Root) : RootEvent → Root
  | .link c isRoot => { r with rel := c, isRoot := isRoot }
  | .hello mac capabilities =>
      { r with nodes := (r.nodes.create mac).modify mac fun n =>
          { n with capabilities := capabilities } }
  | .route mac up =>
      { r with nodes := (r.nodes.create mac).modify mac fun n => { n with routeUp := up } }
  | .forget mac => { r with nodes := r.nodes.drop mac }
  | .queueTime mac time locked now => (r.queueTime mac time locked now).1
  | .queueTimeAll time locked now => (r.queueTimeAll time locked now).1
  | .flush now => r.flushOnePendingTime now

/-- The message that was last queued for a node, after an event. -/
def lastQueued (r : Root) (queued : Mac → Option TimePayload) :
    RootEvent → Mac → Option TimePayload
  | .queueTime mac time locked now =>
      if (r.queueTime mac time locked now).2 = .ok then Function.update queued mac (some time)
      else queued
  | .queueTimeAll time locked now => fun mac =>
      if (r.queueTimeAll time locked now).2 ≠ 0 ∧
          ∃ n ∈ r.nodes.nodes, n.takesTime = true ∧ n.mac = mac then some time
      else queued mac
  | _ => queued

/-- A run from a root, with what was last queued for each node. -/
def Root.run (r : Root) (queued : Mac → Option TimePayload) :
    List RootEvent → Root × (Mac → Option TimePayload)
  | [] => (r, queued)
  | event :: events => (r.step event).run (lastQueued r queued event) events

/-- What is pending for a node is what was last queued for it. -/
def Latest (t : NodeTable) (queued : Mac → Option TimePayload) : Prop :=
  ∀ n ∈ t.nodes, n.timePending = true → queued n.mac = some n.pendingTime

section Latest

variable {t : NodeTable} {queued : Mac → Option TimePayload}

/-- A change that leaves what is pending alone. -/
theorem Latest.modify (h : Latest t queued) (mac : Mac) {f : RootNode → RootNode}
    (hf : ∀ n, (f n).timePending = true →
      n.timePending = true ∧ (f n).pendingTime = n.pendingTime) :
    Latest (t.modify mac f) queued := by
  intro n hn hpending
  rw [NodeTable.nodes_modify, List.mem_map] at hn
  obtain ⟨m, hm, rfl⟩ := hn
  rw [RootNode.mac_changeAt]
  rw [RootNode.changeAt] at hpending ⊢
  split at hpending
  next hmac =>
    obtain ⟨hbefore, htime⟩ := hf m hpending
    rw [if_pos hmac, h m hm hbefore, htime]
  next hmac =>
    rw [if_neg hmac]
    exact h m hm hpending

theorem Latest.create (h : Latest t queued) (mac : Mac) : Latest (t.create mac) queued := by
  intro n hn hpending
  rcases NodeTable.mem_create hn with rfl | hmem
  · exact absurd hpending (by simp [RootNode.fresh])
  · exact h n hmem hpending

theorem Latest.drop (h : Latest t queued) (mac : Mac) : Latest (t.drop mac) queued :=
  fun n hn hpending => h n (NodeTable.mem_drop hn) hpending

/-- A message queued for a node is pending there. -/
theorem Latest.queueTime (h : Latest t queued) (mac : Mac) (time : TimePayload)
    (superseded : Bool) :
    Latest (t.modify mac (RootNode.queueTime time superseded))
      (Function.update queued mac (some time)) := by
  intro n hn hpending
  rw [NodeTable.nodes_modify, List.mem_map] at hn
  obtain ⟨m, hm, rfl⟩ := hn
  rw [RootNode.mac_changeAt]
  rw [RootNode.changeAt] at hpending ⊢
  split at hpending
  next hmac =>
    rw [if_pos hmac, hmac, Function.update_self]
    rfl
  next hmac =>
    rw [if_neg hmac, Function.update_of_ne hmac]
    exact h m hm hpending

theorem latest_timeSent (h : Latest t queued) (mac : Mac) (generation : U32) :
    Latest (t.modify mac (RootNode.timeSent generation)) queued := by
  apply h.modify
  intro n hpending
  rw [RootNode.timeSent] at hpending ⊢
  split at hpending
  next hsent => exact absurd hpending (by simp)
  next hsent => rw [if_neg hsent]; exact ⟨hpending, rfl⟩

/-- Queueing for several nodes, one after the other. -/
theorem latest_queueFor {r : Root} (h : Latest r.nodes queued) (peers : List RootNode)
    (time : TimePayload) (now : U32) :
    Latest (peers.foldl (fun r n => r.queueFor n time now) r).nodes
      (fun mac => if ∃ n ∈ peers, n.mac = mac then some time else queued mac) := by
  induction peers generalizing r queued with
  | nil => simpa using h
  | cons n peers ih =>
      have hstep : Latest (r.queueFor n time now).nodes
          (Function.update queued n.mac (some time)) :=
        h.queueTime n.mac time _
      rw [List.foldl_cons]
      convert ih hstep using 2 with mac
      by_cases hlater : ∃ m ∈ peers, m.mac = mac
      · rw [if_pos hlater, if_pos]
        obtain ⟨m, hm, hmac⟩ := hlater
        exact ⟨m, List.mem_cons_of_mem n hm, hmac⟩
      · rw [if_neg hlater]
        by_cases hmac : n.mac = mac
        · rw [if_pos ⟨n, List.mem_cons_self, hmac⟩, ← hmac, Function.update_self]
        · rw [Function.update_of_ne (Ne.symm hmac), if_neg]
          rintro ⟨m, hm, hsame⟩
          rcases List.mem_cons.mp hm with rfl | hm
          · exact hmac hsame
          · exact hlater ⟨m, hm, hsame⟩

end Latest

/-- Every step keeps what is pending the latest. -/
theorem latest_step {r : Root} {queued : Mac → Option TimePayload} (h : Latest r.nodes queued)
    (event : RootEvent) : Latest (r.step event).nodes (lastQueued r queued event) := by
  cases event with
  | link c isRoot => exact h
  | hello mac capabilities => exact (h.create mac).modify mac fun n hpending => ⟨hpending, rfl⟩
  | route mac up => exact (h.create mac).modify mac fun n hpending => ⟨hpending, rfl⟩
  | forget mac => exact h.drop mac
  | queueTime mac time locked now =>
      rw [Root.step, lastQueued, Root.queueTime]
      split
      · exact h
      · split
        · exact h
        · split
          · exact h
          next n hfound =>
            split
            · exact h
            · rw [if_pos rfl, ← (NodeTable.find_eq_some.mp hfound).2]
              exact h.queueTime n.mac time _
  | queueTimeAll time locked now =>
      rw [Root.step, lastQueued, Root.queueTimeAll]
      split
      · simpa using h
      · convert latest_queueFor h (r.nodes.nodes.filter RootNode.takesTime) time now using 3
          with mac
        simp only [List.mem_filter, and_assoc]
        apply and_iff_right_of_imp
        rintro ⟨n, hn, htakes, -⟩
        exact (List.length_pos_of_mem (List.mem_filter.mpr ⟨hn, htakes⟩)).ne'
  | flush now =>
      have hlast : lastQueued r queued (.flush now) = queued := rfl
      rw [hlast, Root.step, Root.flushOnePendingTime]
      split
      · exact h
      · simp only
        split
        · exact latest_timeSent h _ _
        · exact h

theorem latest_run {r : Root} {queued : Mac → Option TimePayload} (h : Latest r.nodes queued)
    (events : List RootEvent) :
    Latest (r.run queued events).1.nodes (r.run queued events).2 := by
  induction events generalizing r queued with
  | nil => exact h
  | cons event events ih => exact ih (latest_step h event)

/-! ## Which node is served -/

/-- A root after a run, with what was last queued for each node; at the start that is what
is pending. -/
def Root.history (r : Root) (events : List RootEvent) : Root × (Mac → Option TimePayload) :=
  r.run (fun mac => (r.nodes.find mac).map RootNode.pendingTime) events

theorem latest_history (r : Root) (events : List RootEvent) :
    Latest (r.history events).1.nodes (r.history events).2 := by
  apply latest_run
  intro n hn _
  have hfind : r.nodes.find n.mac = some n := NodeTable.find_eq_some.mpr ⟨hn, rfl⟩
  exact congrArg (Option.map RootNode.pendingTime) hfind

/-- A node with a pending message that it can take at once. -/
structure Root.CanTake (r : Root) (n : RootNode) : Prop where
  mem : n ∈ r.nodes.nodes
  wants : n.wantsTime = true
  free : Free r.rel n.mac

/-- `keemash_rel_send` accepts a time message for the node. -/
def Root.Accepts (r : Root) (n : RootNode) (time : TimePayload) (now : U32) : Prop :=
  (submit r.rel n.mac channelTime (timeBytes time) priorityNormal now).2.1 = .ok

/-- A flush submits the message for the node, and nothing is pending for it any more. -/
structure Root.Served (r : Root) (n : RootNode) (time : TimePayload) (now : U32) : Prop where
  accepted : r.Accepts n time now
  rel : (r.flushOnePendingTime now).rel =
    (submit r.rel n.mac channelTime (timeBytes time) priorityNormal now).1
  cleared : (r.flushOnePendingTime now).nodes.find n.mac = some { n with timePending := false }

section Flush

variable {r : Root} {n : RootNode} {now : U32}

theorem Root.candidate_eq_some (h : r.candidate = some n) :
    n ∈ r.nodes.nodes ∧ n.wantsTime = true :=
  ⟨List.mem_of_find?_eq_some h, List.find?_some h⟩

/-- The flush serves the node it stops at when that node can take the message. -/
theorem served_of_candidate (hcandidate : r.candidate = some n) (hfree : Free r.rel n.mac)
    (haccepts : r.Accepts n n.pendingTime now) : r.Served n n.pendingTime now := by
  obtain ⟨hmem, hwants⟩ := Root.candidate_eq_some hcandidate
  have hpending : n.timePending = true := (Bool.and_eq_true_iff.mp hwants).2
  have hsent := @sendPendingTime_free r.rel n.mac now r.isRoot hfree n.pendingTime
  have hok : (sendPendingTime r.rel n.mac n.pendingTime now).2 = true := by
    rw [hsent]
    exact beq_iff_eq.mpr haccepts
  have hflush : (r.flushOnePendingTime now).rel =
        (sendPendingTime r.rel n.mac n.pendingTime now).1 ∧
      (r.flushOnePendingTime now).nodes =
        r.nodes.modify n.mac (RootNode.timeSent n.pendingTime.generation) := by
    rw [Root.flushOnePendingTime, hcandidate]
    simp only [hok, if_true, and_self]
  constructor
  · exact haccepts
  · rw [hflush.1, hsent]
  · rw [hflush.2]
    apply NodeTable.find_eq_some.mpr
    refine ⟨?_, rfl⟩
    rw [NodeTable.nodes_modify, List.mem_map]
    refine ⟨n, hmem, ?_⟩
    rw [RootNode.changeAt, if_pos rfl, RootNode.timeSent, if_pos ⟨hpending, rfl⟩]

/-- The flush changes no node when the one it stops at cannot take the message. -/
theorem nodes_flush_busy (hcandidate : r.candidate = some n) (hbusy : ¬Free r.rel n.mac) :
    (r.flushOnePendingTime now).nodes = r.nodes := by
  rw [Root.flushOnePendingTime, hcandidate]
  simp only [sendPendingTime_busy r.isRoot hbusy, Bool.false_eq_true, if_false]

/-- A node that can take its message is not served behind one that cannot. -/
theorem not_served_behind {m : RootNode} {time : TimePayload} (hcandidate : r.candidate = some n)
    (hbusy : ¬Free r.rel n.mac) (hm : r.CanTake m) : ¬r.Served m time now := by
  intro hserved
  have hfind := hserved.cleared
  rw [nodes_flush_busy hcandidate hbusy, NodeTable.find_eq_some.mpr ⟨hm.mem, rfl⟩] at hfind
  have hpending : m.timePending = true := (Bool.and_eq_true_iff.mp hm.wants).2
  have hcleared := congrArg RootNode.timePending (Option.some.inj hfind)
  rw [hpending] at hcleared
  exact Bool.noConfusion hcleared

end Flush

/-- From any root and after any run of it, a flush serves some node that can take the message
last queued for it, where there is one, if and only if the first node with a route and a
pending message is such a node. -/
theorem flush_serves_iff (r : Root) (events : List RootEvent) (now : U32)
    (hsend : ∀ n, (r.history events).1.CanTake n →
      (r.history events).1.Accepts n n.pendingTime now) :
    ((∃ n, (r.history events).1.CanTake n) →
        ∃ n time, (r.history events).1.CanTake n ∧ (r.history events).2 n.mac = some time ∧
          (r.history events).1.Served n time now) ↔
      ((∃ n, (r.history events).1.CanTake n) →
        ∃ n, (r.history events).1.candidate = some n ∧ Free (r.history events).1.rel n.mac) := by
  have hlatest := latest_history r events
  generalize (r.history events).1 = s, (r.history events).2 = queued at hsend hlatest ⊢
  apply imp_congr_right
  rintro ⟨m, hm⟩
  constructor
  · rintro ⟨n, time, hn, -, hserved⟩
    have hsome : s.candidate.isSome := List.find?_isSome.mpr ⟨m, hm.mem, hm.wants⟩
    obtain ⟨first, hfirst⟩ := Option.isSome_iff_exists.mp hsome
    refine ⟨first, hfirst, ?_⟩
    by_contra hbusy
    exact not_served_behind hfirst hbusy hn hserved
  · rintro ⟨n, hcandidate, hfree⟩
    obtain ⟨hmem, hwants⟩ := Root.candidate_eq_some hcandidate
    have hn : s.CanTake n := ⟨hmem, hwants, hfree⟩
    have hpending : n.timePending = true := (Bool.and_eq_true_iff.mp hwants).2
    exact ⟨n, n.pendingTime, hn, hlatest n hmem hpending,
      served_of_candidate hcandidate hfree (hsend n hn)⟩

/-- A root that knows no node. -/
def emptyRoot : Root where
  rel := greetedRoot
  isRoot := by decide +kernel
  nodes :=
    { entries := List.replicate 4 none
      distinct := by
        intro i j a b ha hb hab
        have hmem := mem_held_of_entryAt ha
        rw [held_replicate_none] at hmem
        exact absurd hmem (Multiset.notMem_zero a) }

/-- A message for a node that is ready, and one for a node that is not, which the root has
met first. -/
def greetings (first second : Mac) : List RootEvent :=
  [.hello first (requiredCapabilities ||| capTypedTime), .route first true,
    .hello second (requiredCapabilities ||| capTypedTime), .route second true,
    .queueTimeAll ⟨1700000000, 1, 100⟩ true 5]

/-- The node of an address after these events. -/
def greeted (mac : Mac) : RootNode where
  mac := mac
  capabilities := requiredCapabilities ||| capTypedTime
  routeUp := true
  timePending := true
  pendingTime := ⟨1700000000, 1, 100⟩
  timeSupersededCount := 0

theorem nodes_greetings :
    (emptyRoot.history (greetings 0x22 0x11)).1.nodes.nodes = [greeted 0x22, greeted 0x11] ∧
      (emptyRoot.history (greetings 0x11 0x22)).1.nodes.nodes = [greeted 0x11, greeted 0x22] := by
  decide +kernel

/-- Only the node that has introduced itself can take its message, and `keemash_rel_send`
accepts it. -/
theorem canTake_greetings {first second : Mac}
    (hmacs : (first = 0x22 ∧ second = 0x11) ∨ (first = 0x11 ∧ second = 0x22)) :
    (emptyRoot.history (greetings first second)).1.CanTake (greeted 0x11) ∧
      ∀ n, (emptyRoot.history (greetings first second)).1.CanTake n →
        (emptyRoot.history (greetings first second)).1.Accepts n n.pendingTime 7 := by
  obtain ⟨hbehind, hahead⟩ := nodes_greetings
  rcases hmacs with ⟨rfl, rfl⟩ | ⟨rfl, rfl⟩
  · refine ⟨⟨?_, by decide, by decide +kernel⟩, fun n hn => ?_⟩
    · rw [hbehind]
      decide
    · have hmem := hn.mem
      rw [hbehind, List.mem_pair] at hmem
      rcases hmem with rfl | rfl
      · exact absurd hn.free (by decide +kernel)
      · rw [Root.Accepts]
        decide +kernel
  · refine ⟨⟨?_, by decide, by decide +kernel⟩, fun n hn => ?_⟩
    · rw [hahead]
      decide
    · have hmem := hn.mem
      rw [hahead, List.mem_pair] at hmem
      rcases hmem with rfl | rfl
      · rw [Root.Accepts]
        decide +kernel
      · exact absurd hn.free (by decide +kernel)

theorem flush_serves_iff_ahead :
    ∃ n time, (emptyRoot.history (greetings 0x11 0x22)).1.CanTake n ∧
      (emptyRoot.history (greetings 0x11 0x22)).2 n.mac = some time ∧
      (emptyRoot.history (greetings 0x11 0x22)).1.Served n time 7 := by
  obtain ⟨htakes, haccepts⟩ := canTake_greetings (.inr ⟨rfl, rfl⟩)
  apply (flush_serves_iff emptyRoot (greetings 0x11 0x22) 7 haccepts).mpr
  · intro _
    exact ⟨greeted 0x11, by decide +kernel, htakes.free⟩
  · exact ⟨greeted 0x11, htakes⟩

/-- The ready node stands behind the other one, which is asked first and cannot take it. -/
theorem node_behind_unready_not_served :
    (∀ n, (emptyRoot.history (greetings 0x22 0x11)).1.CanTake n →
        (emptyRoot.history (greetings 0x22 0x11)).1.Accepts n n.pendingTime 7) ∧
      (∃ n, (emptyRoot.history (greetings 0x22 0x11)).1.CanTake n) ∧
      ¬∃ n time, (emptyRoot.history (greetings 0x22 0x11)).1.CanTake n ∧
        (emptyRoot.history (greetings 0x22 0x11)).2 n.mac = some time ∧
        (emptyRoot.history (greetings 0x22 0x11)).1.Served n time 7 := by
  obtain ⟨htakes, haccepts⟩ := canTake_greetings (.inl ⟨rfl, rfl⟩)
  refine ⟨haccepts, ⟨greeted 0x11, htakes⟩, ?_⟩
  rintro ⟨n, time, hn, -, hserved⟩
  have hcandidate : (emptyRoot.history (greetings 0x22 0x11)).1.candidate =
      some (greeted 0x22) := by decide +kernel
  have hbusy : ¬Free (emptyRoot.history (greetings 0x22 0x11)).1.rel (greeted 0x22).mac := by
    decide +kernel
  exact not_served_behind hcandidate hbusy hn hserved

end KeemashCore.MeshRoot
