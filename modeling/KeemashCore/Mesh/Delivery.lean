import KeemashCore.Memory.Access
import KeemashCore.OtaReceiver.Channel

/-!
# What the handlers read of a payload

`rel_deliver_cb` of the root and of a node and the OTA v2 receiver once more, on the
memory that the payload pointer leads to: each byte they look at, copy or hand on is a read
of that memory.  The payload length is what the caller says it is; the handlers decide
themselves how far they read.

Where the source stops comparing the fields of a record early, all of them are read here.
-/

namespace KeemashCore.Delivery

open Memory LittleEndian OtaReceiver
open MeshNode (OperationId Command channelControl controlTextMax controlTextOffset
  controlCommand controlResult controlFlagOperationId controlPayloadSize sizeofOperationId cText)
open OtaV3 (Bytes)

/-! ## Channels and records -/

def channelNodeinfo : ℕ := 1

def channelLog : ℕ := 2

def channelTask : ℕ := 4

def channelMemory : ℕ := 5

def channelTopology : ℕ := 6

def channelOta : ℕ := 7

def channelSensor : ℕ := 9

/-- `MESH_V2_TAG_MAX`. -/
def tagMax : ℕ := 16

/-- `MESH_V2_TUNNEL_LOG_LINE_MAX`. -/
def logLineMax : ℕ := 128

/-- `MESH_V2_SENSOR_MAX_ENTRIES`. -/
def sensorMaxEntries : ℕ := 12

/-- `sizeof(mesh_v2_tunnel_nodeinfo_payload_t)`. -/
def sizeofNodeinfo : ℕ := tagMax + 4

/-- `sizeof(mesh_v2_tunnel_log_payload_t)`. -/
def sizeofTunnelLog : ℕ := tagMax + logLineMax

/-- `sizeof(mesh_v2_task_request_payload_t)`. -/
def sizeofTaskRequest : ℕ := 8

/-- `sizeof(mesh_v2_task_snapshot_payload_t)`, with four entries of 28 bytes. -/
def sizeofTaskSnapshot : ℕ := 44 + 4 * 28

/-- `sizeof(mesh_v2_memory_payload_t)`. -/
def sizeofMemory : ℕ := 92

/-- `sizeof(mesh_v2_topology_payload_t)`. -/
def sizeofTopology : ℕ := 71

/-- `sizeof(mesh_v2_sensor_snapshot_payload_t)`. -/
def sizeofSensorSnapshot : ℕ := 16 + sensorMaxEntries * 8

/-- `sizeof(mesh_v2_time_payload_t)`. -/
def sizeofTime : ℕ := 16

/-- `sizeof(mesh_v2_ota_status_payload_t)`. -/
def sizeofV2Status : ℕ := 204

def controlEvent : UInt8 := 3

/-! ## CONTROL -/

/-- `keemash_mesh_control_get_operation_id`. -/
def readOperationId (len : ℕ) : Access (Option OperationId) :=
  if len < controlTextOffset then pure none
  else do
    let rsv ← readByte 3
    let textLen ← readByte 2
    if rsv &&& controlFlagOperationId = 0 ∨ textLen.toNat > controlTextMax then pure none
    else
      let base := controlPayloadSize textLen.toNat false
      if base = 0 ∨ len < base + sizeofOperationId then pure none
      else do
        let bytes ← read base sizeofOperationId
        let id : OperationId :=
          { high := fromLeBytes 64 (bytes.take 8)
            low := fromLeBytes 64 ((bytes.drop 8).take 8) }
        pure (if id.high ≠ 0 ∨ id.low ≠ 0 then some id else none)

/-! ## The root -/

/-- The hook of the root's application that a delivery ends in. -/
inductive RootCall where
  | nodeSeenUptime (tag : Bytes) (uptimeS : U32)
  | logLine (tag line : Bytes)
  | taskSnapshot
  | memorySnapshot
  | sensorSnapshot
  | otaV3Message
  | otaStatus
  | topology
  | control (kind : UInt8) (commandId : U32) (status : UInt8) (text : Bytes)
      (operationId : Option OperationId)

/-- The body of the loop in `keemash_mesh_sensor_snapshot_valid`. -/
def sensorEntryValid (i : ℕ) : Access Bool := do
  let metricId ← readWord 2 (16 + 8 * i)
  let status ← readByte (16 + 8 * i + 2)
  let scale10 ← readByte (16 + 8 * i + 3)
  pure (1 ≤ metricId.toNat && metricId.toNat ≤ 5 && status &&& 0xF0 == 0 &&
    decide (-9 ≤ scale10.toInt8.toInt) && decide (scale10.toInt8.toInt ≤ 9))

/-- The loop, from entry `i` on. -/
def sensorEntriesValid (i : ℕ) : ℕ → Access Bool
  | 0 => pure true
  | n + 1 => do
      let valid ← sensorEntryValid i
      if valid then sensorEntriesValid (i + 1) n else pure false

/-- `keemash_mesh_sensor_snapshot_valid`. -/
def sensorSnapshotValid (len : ℕ) : Access Bool :=
  if len ≠ sizeofSensorSnapshot then pure false
  else do
    let count ← readByte 14
    if count.toNat > sensorMaxEntries then pure false else sensorEntriesValid 0 count.toNat

/-- The CONTROL part of the root's `rel_deliver_cb`. -/
def rootControl (len : ℕ) : Access (Option RootCall) := do
  let kind ← readByte 0
  let textLen ← readByte 2
  if ¬((kind = controlResult ∨ kind = controlEvent) ∧ 0 < textLen.toNat ∧
      textLen.toNat ≤ controlTextMax) then pure none
  else do
    let text ← read controlTextOffset textLen.toNat
    let operationId ← readOperationId len
    let rsv ← readByte 3
    if rsv &&& controlFlagOperationId ≠ 0 ∧ operationId = none then pure none
    else do
      let commandId ← readWord 4 4
      let status ← readByte 1
      pure (some (.control kind commandId status (cText text) operationId))

/-- `rel_deliver_cb` of the root. -/
def rootDeliver (channel len : ℕ) : Access (Option RootCall) :=
  if channel = channelNodeinfo ∧ sizeofNodeinfo ≤ len then do
    let tag ← readText 0 tagMax
    let uptimeS ← readWord 4 tagMax
    pure (some (.nodeSeenUptime tag uptimeS))
  else if channel = channelLog ∧ sizeofTunnelLog ≤ len then do
    let tag ← readText 0 tagMax
    let line ← readText tagMax logLineMax
    pure (some (.logLine tag line))
  else if channel = channelTask ∧ sizeofTaskSnapshot ≤ len then do
    lend 0 sizeofTaskSnapshot
    pure (some .taskSnapshot)
  else if channel = channelMemory ∧ sizeofMemory ≤ len then do
    lend 0 sizeofMemory
    pure (some .memorySnapshot)
  else if channel = channelSensor then do
    let valid ← sensorSnapshotValid len
    if valid then do
      lend 0 sizeofSensorSnapshot
      pure (some .sensorSnapshot)
    else pure none
  else if channel = channelOta then
    if len = 0 then pure none
    else do
      let op ← readByte 0
      if op.toNat > v2OpStatus then do
        lend 0 len
        pure (some .otaV3Message)
      else if sizeofV2Status ≤ len then do
        lend 0 len
        pure (some .otaStatus)
      else pure none
  else if channel = channelTopology ∧ sizeofTopology ≤ len then do
    lend 0 len
    pure (some .topology)
  else if channel = channelControl ∧ controlTextOffset ≤ len then rootControl len
  else pure none

/-! ## The OTA v2 receiver -/

/-- What `keemash_mesh_ota_receiver_handle_v2` meets. -/
structure V2Answers where
  /-- `keemash_mesh_ota_v3_receiver_active`. -/
  v3Active : Bool
  /-- `s_ota_lock` and `s_ota_v2_queue` exist. -/
  started : Bool
  /-- `xQueueSend` takes the item. -/
  queueTakes : Bool

/-- How `keemash_mesh_ota_receiver_handle_v2` ends. -/
inductive V2Outcome where
  | refused (err : EspErr)
  | queued (item : Bytes)
  /-- The status of a busy worker was sent. -/
  | busy (op : UInt8) (opId imageSize : U32)

/-- `keemash_mesh_ota_receiver_handle_v2`. -/
def handleV2 (answers : V2Answers) (len : ℕ) : Access V2Outcome :=
  if answers.v3Active then pure (.refused .invalidState)
  else if len < sizeofV2Common then pure (.refused .invalidSize)
  else if !answers.started then pure (.refused .invalidState)
  else if len > sizeofV2Common + v2OtaChunkMax then pure (.refused .invalidSize)
  else do
    let op ← readByte 0
    -- the shortest payload of each of the four operations is the common part
    if op.toNat < 1 ∨ op.toNat > 4 then pure (.refused .invalidArg)
    else do
      let item ← read 0 len
      if answers.queueTakes then pure (.queued item)
      else do
        let opId ← readWord 4 4
        let imageSize ← readWord 4 8
        pure (.busy op opId imageSize)

/-- The fields of `mesh_v2_ota_common_payload_t`. -/
def readV2Common : Access V2Common := do
  let opId ← readWord 4 4
  let imageSize ← readWord 4 8
  let offset ← readWord 4 12
  let chunkLen ← readWord 4 16
  let projectName ← read 20 otaProjectMax
  -- the version is only logged
  let _version ← readText 52 32
  let sha256 ← read 84 32
  pure
    { opId := opId
      imageSize := imageSize
      offset := offset
      len := chunkLen
      projectName := projectName
      sha256 := Vector.ofFn fun i : Fin 32 => sha256.getD i.val 0 }

variable (env : RxEnv)

/-- The end of `handle_v2_data`: the chunk goes to the flash and into the hash. -/
def takeChunk (r : OtaRx) (handle : Handle) (c : V2Common) (bytes : Bytes)
    (answers : RxAnswers) : OtaRx × EspErr :=
  let write := handle.write bytes answers.otaWrite
  let hash := hashUpdate r.ota.shaCtx bytes answers.hashUpdate
  let err := if write.1 = .ok then hash.1 else write.1
  let r := if write.1 = .ok then r.emit (.wrote c.offset bytes) else r
  if err ≠ .ok then
    (((r.sendStatusV2 .data .error c.opId r.ota.written r.ota.imageSize
      (MeshNode.ascii "OTA write/hash " ++ env.errToName err)).noteAbortReason
        (MeshNode.ascii "write/hash")).finishAbort, err)
  else
    let r := r.setOta
      { r.ota with
        handle := some write.2
        written := r.ota.written + c.len
        lastRxTick := answers.now
        shaCtx := hash.2 }
    (r.sendStatusV2 .data .ok c.opId r.ota.written r.ota.imageSize
      (MeshNode.ascii "chunk OK"), .ok)

/-- `handle_v2_data`, given the fields of the common part. -/
def handleV2DataReads (r : OtaRx) (c : V2Common) (len : ℕ) (answers : RxAnswers) :
    Access (OtaRx × EspErr) :=
  let r := r.finishStaleAbort env answers.now
  match r.ota.active, r.ota.handle with
  | true, some handle =>
      if r.ota.v2Active = false ∨ c.opId ≠ r.ota.opId then
        pure (r.sendStatusV2 .data .error c.opId r.ota.written r.ota.imageSize r.notActive,
          .invalidState)
      else if c.len = 0 ∨ c.len.toNat > v2OtaChunkMax ∨ len < sizeofV2Common + c.len.toNat ∨
          c.offset + c.len > r.ota.imageSize then
        pure (r.sendStatusV2 .data .error c.opId r.ota.written r.ota.imageSize
          (MeshNode.ascii "bad chunk"), .invalidSize)
      else if c.offset ≠ r.ota.written then
        if c.offset < r.ota.written ∧ c.offset + c.len ≤ r.ota.written then
          pure ((r.touch answers.now).sendStatusV2 .data .ok c.opId r.ota.written
            r.ota.imageSize (MeshNode.ascii "duplicate chunk OK"), .ok)
        else
          pure (r.sendStatusV2 .data .error c.opId r.ota.written r.ota.imageSize
            (MeshNode.ascii "offset mismatch"), .invalidArg)
      else do
        let bytes ← read sizeofV2Common c.len.toNat
        pure (takeChunk env r handle c bytes answers)
  | _, _ =>
      pure (r.sendStatusV2 .data .error c.opId r.ota.written r.ota.imageSize r.notActive,
        .invalidState)

/-- `process_v2_payload_locked`. -/
def processV2Reads (r : OtaRx) (len : ℕ) (answers : RxAnswers) : Access (OtaRx × EspErr) := do
  let op ← readByte 0
  if op.toNat < 1 ∨ op.toNat > 4 then pure (r, .invalidArg)
  else if len < sizeofV2Common then pure (r, .invalidSize)
  else do
    let c ← readV2Common
    match op.toNat with
    | 1 => pure (handleV2Prepare env r c answers)
    | 2 => handleV2DataReads env r c len answers
    | 3 => pure (handleV2Commit env r c answers)
    | _ => pure (handleV2Abort r c)

/-- The operation of an item in the queue. -/
def v2OpOf (op : UInt8) : V2Op :=
  match op.toNat with
  | 1 => .prepare
  | 2 => .data
  | 3 => .commit
  | _ => .abort

/-- `ota_v2_worker_task` on an item that it took, with whether it got the lock in time. -/
def workV2 (r : OtaRx) (len : ℕ) (locked : Bool) (answers : RxAnswers) : Access OtaRx :=
  if !locked then
    if sizeofV2Common ≤ len then do
      let op ← readByte 0
      let opId ← readWord 4 4
      let imageSize ← readWord 4 8
      pure (r.sendStatusV2 (v2OpOf op) .error opId 0 imageSize
        (MeshNode.ascii "OTA worker lock timeout"))
    else pure r
  else do
    let done ← processV2Reads env r len answers
    pure done.1

/-! ## A node -/

/-- What `rel_deliver_cb` of a node meets on the OTA channel. -/
structure NodeAnswers where
  /-- `CONFIG_KEEMASH_OTA_V3_ENABLE`. -/
  v3Enabled : Bool
  /-- `keemash_mesh_ota_receiver_active`. -/
  otaActive : Bool
  /-- `keemash_mesh_ota_v3_receiver_active`. -/
  v3Active : Bool
  /-- The queue and the worker of the v3 receiver exist. -/
  v3Started : Bool
  v2 : V2Answers

/-- What a delivery to a node ends in. -/
inductive NodeCall where
  | taskSnapshot (requestId : U32)
  | v3Item (bytes : Bytes)
  | v2 (outcome : V2Outcome)
  | timeSync
  | command (command : Command)

/-- `keemash_mesh_ota_v3_receiver_handle`, up to its queue. -/
def handleV3 (started : Bool) (len : ℕ) : Access (Option NodeCall) :=
  if len = 0 ∨ len > otaMeshMessageSize then pure none
  else if !started then pure none
  else do
    let bytes ← read 0 len
    pure (some (.v3Item bytes))

/-- The OTA part of the node's `rel_deliver_cb`, past the test for v3 messages. -/
def nodeOtaV2 (answers : NodeAnswers) (len : ℕ) : Access (Option NodeCall) :=
  if answers.v3Enabled ∧ answers.v3Active then pure none
  else if sizeofV2Common ≤ len then do
    let outcome ← handleV2 answers.v2 len
    pure (some (.v2 outcome))
  else pure none

/-- The OTA part of the node's `rel_deliver_cb`. -/
def nodeOta (answers : NodeAnswers) (len : ℕ) : Access (Option NodeCall) :=
  if answers.v3Enabled ∧ 0 < len then do
    let first ← readByte 0
    if first.toNat > v2OpStatus then
      if answers.otaActive then pure none else handleV3 answers.v3Started len
    else nodeOtaV2 answers len
  else nodeOtaV2 answers len

/-- The CONTROL part of the node's `rel_deliver_cb`. -/
def nodeControl (len : ℕ) : Access (Option NodeCall) := do
  let kind ← readByte 0
  let textLen ← readByte 2
  if kind ≠ controlCommand ∨ textLen.toNat > controlTextMax ∨
      len < controlTextOffset + textLen.toNat then pure none
  else do
    let operationId ← readOperationId len
    let rsv ← readByte 3
    if rsv &&& controlFlagOperationId ≠ 0 ∧ operationId = none then pure none
    else do
      let commandId ← readWord 4 4
      let text ← read controlTextOffset textLen.toNat
      pure (some (.command
        { commandId := commandId
          operationId := operationId
          text := cText text }))

/-- `rel_deliver_cb` of a node. -/
def nodeDeliver (answers : NodeAnswers) (channel len : ℕ) : Access (Option NodeCall) :=
  if channel = channelTask ∧ sizeofTaskRequest ≤ len then do
    let requestId ← readWord 4 0
    pure (some (.taskSnapshot requestId))
  else if channel = channelOta then nodeOta answers len
  else if channel = Rel.channelTime ∧ sizeofTime ≤ len then do
    lend 0 sizeofTime
    pure (some .timeSync)
  else if channel ≠ channelControl ∨ len < controlTextOffset then pure none
  else nodeControl len

end KeemashCore.Delivery
