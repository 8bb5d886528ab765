import KeemashCore.Mesh.TunnelRoot
import KeemashCore.RoundRobin.Basic

/-!
# The active pings of the root

`active_ping_poll_one` of `keemash_mesh_root.c` and what else writes the records that it
works on.  The poll task chooses a peer in one critical section and sends the PING after it,
so that packets and calls of other tasks come in between.
-/

namespace KeemashCore.MeshRoot

open LittleEndian Rel Tunnel RoundRobin

/-- `CONFIG_KEEMASH_ACTIVE_PING_*` and `CONFIG_KEEMASH_REL_STALE_PEER_MS`. -/
structure PingConfig where
  periodMs : U32
  timeoutMs : U32
  stalePeerMs : U32

/-- `MESH_V2_CAP_ACTIVE_PING`. -/
def capActivePing : U32 := 0x800#32

/-- The PING that the poll task is about to send. -/
structure Ping where
  mac : Mac
  id : U32
  session : U32
  deriving DecidableEq, Repr

/-- The root with the state of its poll task. -/
structure PingRoot where
  root : TunnelRoot
  nextPingId : U32
  pingCursor : ℕ
  lastPingDispatchMs : U32
  /-- Between the critical sections of `active_ping_poll_one`. -/
  sending : Option Ping
  /-- Between the critical sections of `prune_stale_route_down_peers`. -/
  pruning : Option (ℕ × Mac)

/-- Assign to the table. -/
def PingRoot.setNodes (p : PingRoot) (nodes : NodeStates) : PingRoot :=
  { p with root := { p.root with nodes := nodes } }

/-! ## Choosing a peer -/

/-- A ping that was not answered in time. -/
def NodeState.expirePing (cfg : PingConfig) (now : U32) (n : NodeState) : NodeState :=
  if n.pingPending ∧ now - n.pingSentMs ≥ cfg.timeoutMs then
    { n with
      pingPending := false
      pingValid := false
      pingTimeoutCount := n.pingTimeoutCount + 1 }
  else n

/-- Some ping waits for its answer. -/
def NodeStates.pinging (nodes : NodeStates) : Bool :=
  nodes.any fun entry => entry.elim false NodeState.pingPending

/-- The peer can be pinged, and was not within the period. -/
def NodeState.pingDue (cfg : PingConfig) (now : U32) (n : NodeState) : Bool :=
  n.routeUp && !n.pingPending && n.capabilities &&& capActivePing != 0 &&
    !(n.pingLastAttemptMs != 0 && decide (now - n.pingLastAttemptMs < cfg.periodMs))

/-- The entry of the table is due. -/
def NodeStates.dueAt (cfg : PingConfig) (now : U32) (nodes : NodeStates) (i : ℕ) : Bool :=
  nodes[i]?.join.elim false (NodeState.pingDue cfg now)

/-- The next id, which is never 0, and what `s_next_ping_id` is after it. -/
def takePingId (nextPingId : U32) : U32 × U32 :=
  if nextPingId = 0 then (1, 2) else (nextPingId, nextPingId + 1)

/-- The record of a peer that is pinged. -/
def NodeState.pinged (id now : U32) (n : NodeState) : NodeState :=
  { n with
    pingPending := true
    pingId := id
    pingSentMs := now
    pingLastAttemptMs := now }

/-- Ping the peer of an entry. -/
def PingRoot.dispatch (p : PingRoot) (i : ℕ) (n : NodeState) (now session : U32) : PingRoot :=
  { root :=
      { p.root with
        nodes := p.root.nodes.set i (some (n.pinged (takePingId p.nextPingId).1 now)) }.emit
        [.ping n.mac (takePingId p.nextPingId).1 now]
    nextPingId := (takePingId p.nextPingId).2
    pingCursor := next p.root.nodes.length i
    lastPingDispatchMs := now
    sending := some ⟨n.mac, (takePingId p.nextPingId).1, session⟩
    pruning := p.pruning }

/-- The table without the pings that were not answered in time. -/
def PingRoot.expired (cfg : PingConfig) (p : PingRoot) (now : U32) : NodeStates :=
  p.root.nodes.map (Option.map (NodeState.expirePing cfg now))

/-- The entry whose peer is to be pinged: the next one that is due, unless a ping waits or
was sent within the period. -/
def PingRoot.turn (cfg : PingConfig) (p : PingRoot) (now : U32) : Option ℕ :=
  let nodes := p.expired cfg now
  if nodes.pinging ∨
      p.lastPingDispatchMs ≠ 0 ∧ now - p.lastPingDispatchMs < cfg.periodMs then none
  else pick nodes.length p.pingCursor (nodes.dueAt cfg now)

/-- The first critical section of `active_ping_poll_one`. -/
def PingRoot.select (cfg : PingConfig) (p : PingRoot) (now session : U32) : PingRoot :=
  let nodes := p.expired cfg now
  match p.turn cfg now with
  | none => p.setNodes nodes
  | some i =>
      match nodes[i]?.join with
      | none => p.setNodes nodes
      | some n => (p.setNodes nodes).dispatch i n now session

/-- The payload of a PING. -/
def Ping.bytes (ping : Ping) : List UInt8 :=
  toLeBytes 4 ping.id ++ toLeBytes 4 ping.session

/-- The rest of `active_ping_poll_one`: a PING that was not sent is not waited for. -/
def PingRoot.finish (p : PingRoot) (relReady : Mac → Bool) : PingRoot :=
  match p.sending with
  | none => p
  | some ping =>
      let cancel (r : TunnelRoot) := r.change ping.mac false fun n =>
        if n.pingId = ping.id then { n with pingPending := false } else n
      let sent := p.root.sendPacketToMac ping.mac typePing ping.session 0 0 ping.bytes
      { p with
        sending := none
        root := if !relReady ping.mac then cancel p.root
          else if sent.2 ≠ .ok then cancel sent.1
          else sent.1 }

/-! ## Other writers of the records -/

/-- `note_reliable_delivery`. -/
def TunnelRoot.noteReliableDelivery (r : TunnelRoot) (peer : Mac) (now : U32) : TunnelRoot :=
  r.change peer true fun n =>
    { n with lastV2Ms := now, lastTunnelMs := now, tunnelSeen := true }

/-- What `note_reliable_hello_metadata` reads from a HELLO of the reliable profile. -/
structure HelloMetadata where
  capabilities : U32
  tag : List UInt8
  uptimeS : U32

/-- `note_reliable_hello_metadata`. -/
def TunnelRoot.noteReliableHello (r : TunnelRoot) (peer : Mac) (hello : HelloMetadata)
    (now : U32) : TunnelRoot :=
  (r.change peer true fun n =>
    { n with
      capabilities := hello.capabilities
      routeUp := true
      routeChangedMs := now
      tunnelSeen := true
      lastV2Ms := now
      lastTunnelMs := now }).emit
    [.hook (.nodeSeenUptime peer (packetText hello.tag 0 16) hello.uptimeS)]

/-- A record while `mesh_v2_root_sync_routes` goes through the routing table. -/
def NodeState.routed (now : U32) (n : NodeState) : NodeState :=
  { n with routeUp := true, routeChangedMs := if n.routeUp then n.routeChangedMs else now }

/-- A record after `mesh_v2_root_sync_routes`. -/
def NodeState.syncRoute (macs : List Mac) (now : U32) (n : NodeState) : NodeState :=
  let present := decide (n.mac ∈ macs)
  let n := { n with
    routeUp := present
    routeChangedMs := if n.routeUp ≠ present then now else n.routeChangedMs }
  if present then n else { n with pingPending := false, pingValid := false }

/-- `mesh_v2_root_sync_routes`, whose calls of the reliable profile are not part of the
records. -/
def TunnelRoot.syncRoutes (r : TunnelRoot) (macs : List Mac) (now : U32) : TunnelRoot :=
  let r := macs.foldl (fun r mac => r.change mac true (NodeState.routed now)) r
  { r with nodes := r.nodes.map (Option.map (NodeState.syncRoute macs now)) }

/-- `prune_stale_route_down_peers` at one entry, before the reliable profile forgets the
peer. -/
def PingRoot.pruneFind (cfg : PingConfig) (p : PingRoot) (i : ℕ) (now : U32) : PingRoot :=
  { p with
    pruning :=
      (p.root.nodes[i]?.join.filter fun n => !n.routeUp && n.routeChangedMs != 0 &&
        decide (now - n.routeChangedMs ≥ cfg.stalePeerMs)).map fun n => (i, n.mac) }

/-- And after it. -/
def PingRoot.pruneClear (p : PingRoot) (removed : Bool) : PingRoot :=
  match p.pruning with
  | none => p
  | some (i, mac) =>
      let keep := p.root.nodes[i]?.join.elim true fun n =>
        !(removed && decide (n.mac = mac) && !n.routeUp)
      { p with
        pruning := none
        root := { p.root with
          nodes := if keep then p.root.nodes else p.root.nodes.set i none } }

/-! ## Runs -/

/-- One step of the root. -/
inductive PingAction where
  | select (now session : U32)
  | finish (relReady : Mac → Bool)
  | pruneFind (i : ℕ) (now : U32)
  | pruneClear (removed : Bool)
  | rx (src : Mac) (packet : List UInt8) (view : RootView)
  | reliableDelivery (peer : Mac) (now : U32)
  | reliableHello (peer : Mac) (hello : HelloMetadata) (now : U32)
  | syncRoutes (macs : List Mac) (now : U32)
  | logCtrl (relErr : EspErr) (mac : Mac) (enable : Bool)
  | taskRequest (relErr : EspErr) (mac : Mac) (requestId : U32)

/-- The poll task chooses a peer only when it has no PING to send. -/
def PingRoot.step (cfg : PingConfig) (p : PingRoot) : PingAction → PingRoot
  | .select now session => if p.sending.isSome then p else p.select cfg now session
  | .finish relReady => p.finish relReady
  | .pruneFind i now => p.pruneFind cfg i now
  | .pruneClear removed => p.pruneClear removed
  | .rx src packet view => { p with root := (p.root.handleRx src packet view).1 }
  | .reliableDelivery peer now => { p with root := p.root.noteReliableDelivery peer now }
  | .reliableHello peer hello now =>
      { p with root := p.root.noteReliableHello peer hello now }
  | .syncRoutes macs now => { p with root := p.root.syncRoutes macs now }
  | .logCtrl relErr mac enable => { p with root := (p.root.sendLogCtrl relErr mac enable).1 }
  | .taskRequest relErr mac requestId =>
      { p with root := (p.root.sendTaskRequest relErr mac requestId).1 }

/-- The root after `mesh_v2_root_init`. -/
def PingRoot.boot (localMac : Mac) (transport : Mac → List UInt8 → EspErr) (size : ℕ) :
    PingRoot where
  root :=
    { localMac := localMac
      transport := transport
      nodes := List.replicate size none
      trace := [] }
  nextPingId := 1
  pingCursor := 0
  lastPingDispatchMs := 0
  sending := none
  pruning := none

end KeemashCore.MeshRoot
