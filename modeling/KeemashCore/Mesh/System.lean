import KeemashCore.Mesh.Send

/-!
# A node and its root over an unreliable network

Two contexts that exchange packets.  The network holds the packets in flight;
it may deliver them in any order, drop them and duplicate them.  Each entry
point runs under the context's lock, so a call or a delivery is one step.

The root may serve other nodes as well: they show up as calls about another
address and as packets received from another address.  A node reaches its root
through the zero address, as every caller in `keemash_mesh_node.c` does.
-/

namespace KeemashCore.Rel

/-- The two ends of the link. -/
inductive Side where
  | node
  | root
  deriving DecidableEq, Repr

def Side.other : Side → Side
  | .node => .root
  | .root => .node

/-- A packet in flight between the two ends, with the end that sent it. -/
structure Flight where
  sender : Side
  packet : Packet
  deriving DecidableEq, Repr

structure Sys where
  node : Ctx
  root : Ctx
  net : List Flight

/-- The context of one end. -/
def Sys.ctx (s : Sys) : Side → Ctx
  | .node => s.node
  | .root => s.root

def Sys.setCtx (s : Sys) (side : Side) (c : Ctx) : Sys :=
  match side with
  | .node => { s with node := c }
  | .root => { s with root := c }

/-- The key under which an end stores the other end. -/
def Sys.key (s : Sys) : Side → Mac
  | .node => 0
  | .root => s.node.cfg.localMac

/-- Calls of the public interface. -/
inductive Call where
  | submit (peer : Mac) (channel : ℕ) (payload : List UInt8) (priority : ℕ)
  | sendHello (capabilities : U32)
  | poll
  | route (peer : Mac) (routeUp : Bool)
  | supersedeTime (peer : Mac)
  | reset (peer : Mac) (reason : LostReason)
  | remove (peer : Mac)
  /-- The root receives a packet from another node. -/
  | receive (src : Mac) (packet : Packet)

/-- Run a call on the root's context. -/
def rootCall (nodeMac : Mac) (c : Ctx) (now : U32) : Call → Ctx
  | .submit peer channel payload priority =>
      (submit c peer channel payload priority now).1
  | .sendHello capabilities => (sendHello c 0 capabilities now).1
  | .poll => poll c now
  | .route peer routeUp => (peerRoute c peer routeUp now).1
  | .supersedeTime peer => (supersedeChannel c peer channelTime now).1
  | .reset peer reason => resetPeer c peer reason now
  | .remove peer => (removePeer c peer now).1
  | .receive src packet =>
      if src = nodeMac then c else (handleRx c src packet now).1

/-- Run a call on the node's context, whose only peer is the root. -/
def nodeCall (c : Ctx) (now : U32) : Call → Ctx
  | .submit _ channel payload priority =>
      (submit c 0 channel payload priority now).1
  | .sendHello capabilities => (sendHello c 0 capabilities now).1
  | .poll => poll c now
  | .route _ routeUp => (peerRoute c 0 routeUp now).1
  | .supersedeTime _ => (supersedeChannel c 0 channelTime now).1
  | .reset _ reason => resetPeer c 0 reason now
  | .remove _ => (removePeer c 0 now).1
  | .receive _ _ => c

/-- One step of the two ends or of the network. -/
inductive Action where
  | call (side : Side) (call : Call) (now : U32)
  | deliver (index : ℕ) (now : U32)
  | drop (index : ℕ)
  | duplicate (index : ℕ)

/-- What an end appended to its trace. -/
def newEffects (before after : Ctx) : List Effect :=
  after.trace.drop before.trace.length

/-- The packet of an effect, if it is sent to the other end of the link, which
`sender` stores under `link`. -/
def flightOf (link : Mac) (sender : Side) : Effect → Option Flight
  | .send key packet => if key = link then some ⟨sender, packet⟩ else none
  | _ => none

/-- The context of the acting end after an action. -/
def Sys.acted (s : Sys) : Action → Option (Side × Ctx)
  | .call .node call now => some (.node, nodeCall s.node now call)
  | .call .root call now =>
      some (.root, rootCall s.node.cfg.localMac s.root now call)
  | .deliver index now =>
      match s.net[index]? with
      | none => none
      | some flight =>
          let side := flight.sender.other
          some (side, (handleRx (s.ctx side) (s.ctx flight.sender).cfg.localMac
            flight.packet now).1)
  | .drop _ => none
  | .duplicate _ => none

/-- The network after an action, without what the acting end sends. -/
def Sys.netAfter (s : Sys) : Action → List Flight
  | .call _ _ _ => s.net
  | .deliver index _ => s.net.eraseIdx index
  | .drop index => s.net.eraseIdx index
  | .duplicate index => s.net ++ (s.net[index]?).toList

/-- Effects of the acting end in one action. -/
def Sys.effects (s : Sys) (a : Action) : List Effect :=
  match s.acted a with
  | none => []
  | some (side, c) => newEffects (s.ctx side) c

def Sys.step (s : Sys) (a : Action) : Sys :=
  match s.acted a with
  | none => { s with net := s.netAfter a }
  | some (side, c) =>
      { s.setCtx side c with
        net := s.netAfter a ++
          (s.effects a).filterMap (flightOf (s.key side) side) }

/-- The state after a list of actions. -/
def Sys.run (s : Sys) (actions : List Action) : Sys :=
  actions.foldl Sys.step s

/-- A small configuration of one end, with a transport that takes every packet. -/
def smallConfig (rootRole : Bool) (localMac : Mac) : RelConfig where
  rootRole := rootRole
  localMac := localMac
  maxPeers := 2
  txSlots := 8
  rxSlots := 8
  reassemblySlots := 2
  reservedControlSlots := 1
  perPeerTxSlots := 8
  perPeerRxSlots := 8
  perPeerReassemblySlots := 2
  perPeerControlReserve := 1
  routeGraceMs := 90000
  initialRtoMs := 1000
  minRtoMs := 200
  maxRtoMs := 8000
  fragmentTimeoutMs := 15000
  maxRetries := 8
  faultOverflowEvery := 0
  send := fun _ _ => .ok

/-- The context of an end after `keemash_rel_init` with that configuration. -/
def smallCtx (rootRole : Bool) (localMac : Mac) (session : U32) : Ctx where
  cfg := smallConfig rootRole localMac
  localSession := session
  nextStreamId := 1
  peers := List.replicate 2 none
  tx := List.replicate 8 none
  rx := List.replicate 8 none
  reassembly := List.replicate 2 none
  overflowCounter := 0
  pollPeerCursor := 0
  trace := []

theorem init_smallConfig (rootRole : Bool) (localMac : Mac) {session : U32}
    (h : session ≠ 0) :
    init (smallConfig rootRole localMac) session 1 =
      some (smallCtx rootRole localMac session) := by
  have hsession : (if session = 0 then 1 else session) = session := if_neg h
  simp only [init, smallConfig, smallCtx, hsession]
  rfl

end KeemashCore.Rel
