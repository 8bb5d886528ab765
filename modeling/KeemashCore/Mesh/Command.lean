import KeemashCore.Mesh.System

/-!
# Typed CONTROL commands on a node

The part of `keemash_mesh_node.c` that runs a command once and answers its
retransmissions from a cache, together with the handshake code that clears the
cache.  The application hooks are outside the component: what they return comes
with the event that calls them.  A text is the bytes of its C string.
-/

namespace KeemashCore.MeshNode

open KeemashCore.Rel SlotTable

/-! ## Wire data -/

/-- `MESH_V2_TUNNEL_CHANNEL_CONTROL`. -/
def channelControl : ℕ := 3

/-- `MESH_V2_CONTROL_TEXT_MAX`. -/
def controlTextMax : ℕ := 128

/-- `offsetof(mesh_v2_control_payload_t, text)`. -/
def controlTextOffset : ℕ := 8

def controlCommand : UInt8 := 1

def controlResult : UInt8 := 2

def controlStatusOk : UInt8 := 0

def controlStatusUnsupported : UInt8 := 1

/-- `MESH_V2_CONTROL_FLAG_OPERATION_ID`. -/
def controlFlagOperationId : UInt8 := 1

/-- `mesh_v2_operation_id_t`. -/
structure OperationId where
  high : BitVec 64
  low : BitVec 64
  deriving DecidableEq, Repr

def sizeofOperationId : ℕ := 16

/-- The number that bytes in little-endian order stand for. -/
def fromBytes : List UInt8 → ℕ
  | [] => 0
  | byte :: bytes => byte.toNat + 256 * fromBytes bytes

/-- A number as `n` bytes in little-endian order. -/
def toBytes (n value : ℕ) : List UInt8 :=
  (List.range n).map fun i => UInt8.ofNat (value / 256 ^ i)

/-- The bytes of a string of the source. -/
def ascii (text : String) : List UInt8 :=
  text.toList.map fun c => UInt8.ofNat c.toNat

/-- The C string at the start of some bytes. -/
def cText (bytes : List UInt8) : List UInt8 :=
  bytes.takeWhile (· ≠ 0)

/-- `keemash_mesh_control_payload_size`. -/
def controlPayloadSize (textLen : ℕ) (hasOperationId : Bool) : ℕ :=
  if textLen > controlTextMax then 0
  else controlTextOffset + textLen + if hasOperationId then sizeofOperationId else 0

/-- `control->text_len`. -/
def textLen (payload : List UInt8) : ℕ :=
  (payload.getD 2 0).toNat

/-- Whether `MESH_V2_CONTROL_FLAG_OPERATION_ID` is set in `control->rsv`. -/
def flagged (payload : List UInt8) : Bool :=
  payload.getD 3 0 &&& controlFlagOperationId ≠ 0

/-- `keemash_mesh_control_get_operation_id`. -/
def controlGetOperationId (payload : List UInt8) : Option OperationId :=
  if payload.length < controlTextOffset then none
  else if !flagged payload || textLen payload > controlTextMax then none
  else
    let base := controlPayloadSize (textLen payload) false
    if base = 0 ∨ payload.length < base + sizeofOperationId then none
    else
      let id : OperationId :=
        { high := BitVec.ofNat 64 (fromBytes ((payload.drop base).take 8))
          low := BitVec.ofNat 64 (fromBytes ((payload.drop (base + 8)).take 8)) }
      if id.high ≠ 0 ∨ id.low ≠ 0 then some id else none

/-- What `rel_deliver_cb` reads of a command it accepts. -/
structure Command where
  commandId : U32
  operationId : Option OperationId
  text : List UInt8
  deriving DecidableEq, Repr

/-- The checks of `rel_deliver_cb` on a CONTROL payload. -/
def commandOf? (payload : List UInt8) : Option Command :=
  if payload.length < controlTextOffset then none
  else if payload.getD 0 0 ≠ controlCommand ∨ textLen payload > controlTextMax ∨
      payload.length < controlTextOffset + textLen payload then none
  else if flagged payload ∧ controlGetOperationId payload = none then none
  else
    some
      { commandId := BitVec.ofNat 32 (fromBytes ((payload.drop 4).take 4))
        operationId := controlGetOperationId payload
        text := cText ((payload.drop controlTextOffset).take (textLen payload)) }

/-- The payload that `rel_send_control` builds. -/
def controlWire (kind : UInt8) (commandId : U32) (status : UInt8) (text : List UInt8)
    (operationId : Option OperationId) : List UInt8 :=
  let text := text.take controlTextMax
  let withId := operationId.filter fun id => id.high ≠ 0 || id.low ≠ 0
  [kind, status, UInt8.ofNat text.length,
      if withId.isSome then controlFlagOperationId else 0] ++
    toBytes 4 commandId.toNat ++ text ++
    match withId with
    | none => []
    | some id => toBytes 8 id.high.toNat ++ toBytes 8 id.low.toNat

/-! ## State -/

/-- `command_cache_t`; `operationId` is `none` where `has_operation_id` is false. -/
structure CommandCache where
  commandId : U32
  operationId : Option OperationId
  status : UInt8
  result : List UInt8
  deriving DecidableEq, Repr

/-- Number of slots of `s_command_cache`. -/
def commandCacheSlots : ℕ := 32

/-- The variables of `keemash_mesh_node.c` that a command or a handshake touches. -/
structure Node where
  rel : Ctx
  rootOriginMac : Mac
  losslessNegotiated : Bool
  commandCache : List (Option CommandCache)
  commandCacheNext : BitVec 8
  debugDedupeActionCount : U32

/-- The variables at boot, with the context that `reliable_init` makes. -/
def Node.boot (rel : Ctx) : Node where
  rel := rel
  rootOriginMac := 0
  losslessNegotiated := false
  commandCache := List.replicate commandCacheSlots none
  commandCacheNext := 0
  debugDedupeActionCount := 0

/-- What the hooks return for one command.  `status` and `result` are what
`keemash_mesh_node_on_control_command_result` leaves behind its pointers. -/
structure HookAnswers where
  handled : Bool
  status : UInt8
  result : List UInt8
  accepted : Bool
  deriving DecidableEq, Repr

/-- What a delivered command makes the node do. -/
inductive NodeEffect where
  /-- The counter of `@dbg:dedupe` moved. -/
  | debugDedupe
  /-- `keemash_mesh_node_on_log_ctrl` was called. -/
  | logCtrl (enable : Bool)
  /-- `keemash_mesh_node_on_control_command_result` was called. -/
  | controlCommandResult (text : List UInt8)
  /-- `keemash_mesh_node_on_control_command` was called. -/
  | controlCommand (text : List UInt8)
  /-- `rel_send_control_result` was called. -/
  | sendControlResult (commandId : U32) (status : UInt8) (text : List UInt8)
      (operationId : Option OperationId)
  deriving DecidableEq, Repr

/-- The effects that are the action of a command, not its answer. -/
def NodeEffect.isAction : NodeEffect → Bool
  | .sendControlResult _ _ _ _ => false
  | _ => true

/-! ## Commands -/

/-- `command_cache_clear`. -/
def Node.commandCacheClear (n : Node) : Node :=
  { n with
    commandCache := List.replicate commandCacheSlots none
    commandCacheNext := 0 }

/-- The test of `command_cache_find` on a slot in use. -/
def CommandCache.isFor (commandId : U32) (operationId : Option OperationId)
    (entry : CommandCache) : Bool :=
  match operationId with
  | some id => entry.operationId == some id
  | none => entry.operationId == none && entry.commandId == commandId

/-- `command_cache_find`. -/
def Node.commandCacheFind (n : Node) (commandId : U32)
    (operationId : Option OperationId) : Option CommandCache :=
  (used n.commandCache).find? (CommandCache.isFor commandId operationId)

/-- The slot that `command_cache_store` fills; `strncpy` keeps 47 bytes. -/
def cacheEntry (commandId : U32) (operationId : Option OperationId) (status : UInt8)
    (result : List UInt8) : CommandCache where
  commandId := commandId
  operationId := operationId
  status := status
  result := result.take 47

/-- `command_cache_store`. -/
def Node.commandCacheStore (n : Node) (entry : CommandCache) : Node :=
  { n with
    commandCache :=
      n.commandCache.set (n.commandCacheNext.toNat % commandCacheSlots) (some entry)
    commandCacheNext := n.commandCacheNext + 1 }

/-- `rel_send_control_result`. -/
def Node.relSendControlResult (n : Node) (commandId : U32) (status : UInt8)
    (text : List UInt8) (operationId : Option OperationId) (now : U32) : Node :=
  { n with
    rel := (submit n.rel 0 channelControl
      (controlWire controlResult commandId status text operationId)
      priorityControl now).1 }

/-- The text of `debug_result`. -/
def debugResult (count : U32) : List UInt8 :=
  ascii ("debug action count=" ++ toString count.toNat)

/-- The text that `keemash_mesh_node_on_control_command_result` wrote, or the
default for its status. -/
def appResult (answers : HookAnswers) : List UInt8 :=
  let text := cText (answers.result.take controlTextMax)
  if text ≠ [] then text
  else if answers.status = controlStatusOk then ascii "accepted" else ascii "failed"

/-- Run a command that is not cached: the node, the actions in order, the status
and the result text. -/
def Node.perform (n : Node) (text : List UInt8) (answers : HookAnswers) :
    Node × List NodeEffect × UInt8 × List UInt8 :=
  if text = ascii "@dbg:dedupe" then
    let count := n.debugDedupeActionCount + 1
    ({ n with debugDedupeActionCount := count }, [.debugDedupe], controlStatusOk,
      debugResult count)
  else if text = ascii "@log:1" ∨ text = ascii "@log:0" then
    let enable : Bool := text = ascii "@log:1"
    (n, [.logCtrl enable], controlStatusOk,
      if enable then ascii "log enabled" else ascii "log disabled")
  else if answers.handled then
    (n, [.controlCommandResult text], answers.status, appResult answers)
  else if answers.accepted then
    -- `status` is what the first hook left in it, although that hook declined.
    (n, [.controlCommandResult text, .controlCommand text], answers.status,
      ascii "accepted")
  else
    (n, [.controlCommandResult text, .controlCommand text], controlStatusUnsupported,
      ascii "unsupported")

/-- `rel_deliver_cb`.  The other channels go to handlers that neither read nor
write the cache. -/
def Node.relDeliver (n : Node) (channel : ℕ) (payload : List UInt8)
    (answers : HookAnswers) (now : U32) : Node × List NodeEffect :=
  if channel ≠ channelControl then (n, [])
  else
    match commandOf? payload with
    | none => (n, [])
    | some command =>
        match n.commandCacheFind command.commandId command.operationId with
        | some cached =>
            (n.relSendControlResult command.commandId cached.status cached.result
              command.operationId now,
              [.sendControlResult command.commandId cached.status cached.result
                command.operationId])
        | none =>
            let performed := n.perform command.text answers
            let status := performed.2.2.1
            let text := performed.2.2.2
            let n := performed.1.commandCacheStore
              (cacheEntry command.commandId command.operationId status text)
            (n.relSendControlResult command.commandId status text command.operationId now,
              performed.2.1 ++
                [.sendControlResult command.commandId status text command.operationId])

/-! ## Handshakes -/

/-- `root_session_changed` of `mesh_v2_node_handle_rx`. -/
def Node.rootSessionChanged (n : Node) (ack : HelloAckPayload) : Bool :=
  let previous := (n.rel.peer (n.rel.keyOf 0)).rootSessionId
  previous ≠ 0 && previous ≠ ack.rootSessionId

/-- What `mesh_v2_node_handle_rx` does after the reliable layer took a HELLO_ACK. -/
def Node.helloAcked (n : Node) (src : Mac) (changed : Bool) : Node :=
  let n := { n with
    rootOriginMac := if n.rootOriginMac = 0 then src else n.rootOriginMac
    losslessNegotiated := true }
  if changed then n.commandCacheClear else n

/-- `mesh_v2_node_handle_rx` for a packet of the reliable profile.  The packets it
sends of its own accord and the payloads it delivers are events of their own. -/
def Node.handleRx (n : Node) (src : Mac) (packet : Packet) (now : U32) : Node × EspErr :=
  if packet.srcMac ≠ src ∨ (n.rootOriginMac ≠ 0 ∧ n.rootOriginMac ≠ src) then
    (n, .invalidArg)
  else
    let handled := Rel.handleRx n.rel src packet now
    match packet.body with
    | .helloAck ack =>
        if handled.2 = .ok then
          ({ n with rel := handled.1 }.helloAcked src (n.rootSessionChanged ack), .ok)
        else ({ n with rel := handled.1 }, handled.2)
    | _ => ({ n with rel := handled.1 }, handled.2)

/-- `mesh_v2_node_forget_root`. -/
def Node.forgetRoot (n : Node) : Node :=
  { n with
    rootOriginMac := 0
    losslessNegotiated := false }.commandCacheClear

/-! ## Runs -/

/-- One entry into the node's code. -/
inductive NodeEvent where
  | deliver (channel : ℕ) (payload : List UInt8) (answers : HookAnswers) (now : U32)
  | handleRx (src : Mac) (packet : Packet) (now : U32)
  /-- Any other call on the reliable context: a send, a poll, a route change. -/
  | call (call : Call) (now : U32)
  | setRootMac (mac : Mac)
  | forgetRoot

def Node.step (n : Node) : NodeEvent → Node
  | .deliver channel payload answers now => (n.relDeliver channel payload answers now).1
  | .handleRx src packet now => (n.handleRx src packet now).1
  | .call call now => { n with rel := nodeCall n.rel now call }
  | .setRootMac mac => { n with rootOriginMac := mac }
  | .forgetRoot => n.forgetRoot

/-- The node after a list of events. -/
def Node.run (n : Node) (events : List NodeEvent) : Node :=
  events.foldl Node.step n

end KeemashCore.MeshNode
