import KeemashCore.OtaReceiver.Basic
import KeemashCore.OtaV3.Worker

/-!
# The OTA channel of a node

How payloads reach the two receivers: `rel_deliver_cb` looks whether the other
receiver is busy and queues the payload, and a worker task takes it out of the
queue and handles it under its receiver's lock.  The tasks are the reliable link,
the one that receives v1 packets, the two workers and the watchdog; a step is
what one task does between two points at which another may run.
-/

namespace KeemashCore.OtaReceiver

open MeshNode (fromBytes)
open OtaV3 (Bytes Digest OtaMeshMessage OtaTransfer Receiver Worker WorkerEnv WorkerAnswers)

/-! ## Payloads -/

/-- `sizeof(mesh_v2_ota_common_payload_t)`, also the offset of the data. -/
def sizeofV2Common : ℕ := 180

/-- `keemash_fabric_v2_OtaMeshMessage_size`. -/
def otaMeshMessageSize : ℕ := 2221

/-- `MESH_OTA_V2_QUEUE_LEN` and `OTA_V3_QUEUE_LEN`. -/
def otaQueueLen : ℕ := 2

/-- `MESH_V2_OTA_OP_STATUS`. -/
def v2OpStatus : ℕ := 5

/-- The 32-bit field of a payload at an offset. -/
def field32 (payload : Bytes) (offset : ℕ) : U32 :=
  BitVec.ofNat 32 (fromBytes ((payload.drop offset).take 4))

/-- The fields of `mesh_v2_ota_common_payload_t` that a receiver reads. -/
def v2Common (payload : Bytes) : V2Common where
  opId := field32 payload 4
  imageSize := field32 payload 8
  offset := field32 payload 12
  len := field32 payload 16
  projectName := (payload.drop 20).take otaProjectMax
  sha256 := Vector.ofFn fun i : Fin 32 => payload.getD (84 + i.val) 0

/-- The dispatch of `process_v2_payload_locked`. -/
def v2Payload (payload : Bytes) : V2Payload :=
  let c := v2Common payload
  match (payload.getD 0 0).toNat with
  | 1 => if payload.length < sizeofV2Common then .other .invalidSize else .prepare c
  | 2 =>
      if payload.length < sizeofV2Common then .other .invalidSize
      else .data c (payload.drop sizeofV2Common)
  | 3 => if payload.length < sizeofV2Common then .other .invalidSize else .commit c
  | 4 => if payload.length < sizeofV2Common then .other .invalidSize else .abort c
  | _ => .other .invalidArg

/-- The first byte says that the payload is an `OtaMeshMessage`. -/
def isV3Payload (payload : Bytes) : Bool :=
  0 < payload.length && v2OpStatus < (payload.getD 0 0).toNat

/-- The checks of `keemash_mesh_ota_receiver_handle_v2` on a payload. -/
def v2Queueable (payload : Bytes) : Bool :=
  sizeofV2Common ≤ payload.length && payload.length ≤ sizeofV2Common + v2OtaChunkMax &&
    1 ≤ (payload.getD 0 0).toNat && (payload.getD 0 0).toNat ≤ 4

/-- The check of `keemash_mesh_ota_v3_receiver_handle` on a payload. -/
def v3Queueable (payload : Bytes) : Bool :=
  0 < payload.length && payload.length ≤ otaMeshMessageSize

/-! ## State -/

/-- Where the reliable link stands in `rel_deliver_cb`. -/
inductive LinkTask where
  | idle
  /-- About to queue a v3 payload: no v1 or v2 session was active. -/
  | v3Send (payload : Bytes)
  /-- About to call `keemash_mesh_ota_receiver_handle_v2`, which looks once more
  whether the v3 receiver is busy. -/
  | v2Check (payload : Bytes)
  /-- About to queue a v2 payload. -/
  | v2Send (payload : Bytes)
  deriving DecidableEq

/-- The libraries and constants behind both receivers. -/
structure ChannelEnv where
  rx : RxEnv
  worker : WorkerEnv
  /-- `keemash_ota_v3_decode_mesh_message`. -/
  decodeMeshMessage : Bytes → Option OtaMeshMessage

/-- Both receivers, their queues and the tasks that fill and empty them. -/
structure Channel (env : ChannelEnv) where
  rx : OtaRx
  worker : Worker env.worker
  link : LinkTask
  /-- The v1 packet for which `keemash_mesh_ota_receiver_handle_rx` waits for its
  lock. -/
  v1Packet : Option V1Packet
  v2Queue : List Bytes
  /-- The payload that `ota_v2_worker_task` took out of its queue. -/
  v2Item : Option Bytes
  v3Queue : List Bytes
  v3Item : Option Bytes

variable {env : ChannelEnv}

/-- A node that has just booted. -/
def Channel.boot (worker : Worker env.worker) : Channel env where
  rx := OtaRx.boot
  worker := { worker with receiver := Receiver.zero env.worker.toReceiverEnv }
  link := .idle
  v1Packet := none
  v2Queue := []
  v2Item := none
  v3Queue := []
  v3Item := none

/-- `keemash_mesh_ota_receiver_active`; a lock that is taken counts as active. -/
def Channel.v2Active (s : Channel env) (lockTaken : Bool) : Bool :=
  lockTaken || s.rx.ota.active

/-- The v3 receiver is active or holds a verified image. -/
def Channel.v3Busy (s : Channel env) : Bool :=
  s.worker.receiver.status.active || s.worker.receiver.status.verified

/-- `keemash_mesh_ota_v3_receiver_active`; a lock that is taken counts as active. -/
def Channel.v3Active (s : Channel env) (lockTaken : Bool) : Bool :=
  lockTaken || s.v3Busy

/-! ## Steps -/

/-- One step of one task. -/
inductive ChannelEvent (env : ChannelEnv) where
  /-- The link delivers a payload on the OTA channel and looks at the other receiver. -/
  | deliver (payload : Bytes) (lockTaken : Bool)
  /-- The link goes on with its delivery. -/
  | link (lockTaken : Bool)
  /-- A v1 packet arrives and the v3 receiver is looked at. -/
  | v1Arrive (packet : V1Packet) (lockTaken : Bool)
  /-- The v1 packet is handled under the lock, or given up. -/
  | v1Handle (answers : RxAnswers)
  | v1Timeout
  | v2Take
  | v2Handle (answers : RxAnswers)
  | v2Timeout
  | v3Take
  | v3Handle (answers : WorkerAnswers env.worker.toReceiverEnv)
  /-- The v3 queue stays empty for a while. -/
  | v3Idle (answers : WorkerAnswers env.worker.toReceiverEnv)
  | watchdog (now : U32)
  | restart (running : OtaV3.Partition) (now : U32)

/-- The checks of `rel_deliver_cb` on a payload of the OTA channel. -/
def Channel.deliver (s : Channel env) (payload : Bytes) (lockTaken : Bool) : Channel env :=
  if s.link ≠ .idle then s
  else if isV3Payload payload then
    if s.v2Active lockTaken then s else { s with link := .v3Send payload }
  else if s.v3Active lockTaken then s
  else if sizeofV2Common ≤ payload.length then { s with link := .v2Check payload }
  else s

/-- The rest of a delivery. -/
def Channel.linkStep (s : Channel env) (lockTaken : Bool) : Channel env :=
  match s.link with
  | .idle => s
  | .v3Send payload =>
      { s with
        link := .idle
        v3Queue :=
          if v3Queueable payload && s.v3Queue.length < otaQueueLen
          then s.v3Queue ++ [payload] else s.v3Queue }
  | .v2Check payload =>
      if s.v3Active lockTaken || !v2Queueable payload then { s with link := .idle }
      else { s with link := .v2Send payload }
  | .v2Send payload =>
      { s with
        link := .idle
        v2Queue :=
          if s.v2Queue.length < otaQueueLen then s.v2Queue ++ [payload] else s.v2Queue }

/-- The check of `keemash_mesh_ota_receiver_handle_rx`. -/
def Channel.v1Arrive (s : Channel env) (packet : V1Packet) (lockTaken : Bool) : Channel env :=
  if s.v1Packet.isSome || s.v3Active lockTaken then s
  else { s with v1Packet := some packet }

/-- `ota_v3_worker` handles the payload that it took. -/
def Channel.v3Handle (s : Channel env) (answers : WorkerAnswers env.worker.toReceiverEnv) :
    Channel env :=
  match s.v3Item with
  | none => s
  | some payload =>
      let s := { s with v3Item := none }
      match env.decodeMeshMessage payload with
      | none => s
      | some message => { s with worker := s.worker.step (.message message answers) }

def Channel.step (s : Channel env) : ChannelEvent env → Channel env
  | .deliver payload lockTaken => s.deliver payload lockTaken
  | .link lockTaken => s.linkStep lockTaken
  | .v1Arrive packet lockTaken => s.v1Arrive packet lockTaken
  | .v1Handle answers =>
      match s.v1Packet with
      | none => s
      | some packet =>
          { s with rx := (handleRx env.rx s.rx packet answers).1, v1Packet := none }
  | .v1Timeout => { s with v1Packet := none }
  | .v2Take =>
      match s.v2Item, s.v2Queue with
      | none, payload :: rest => { s with v2Item := some payload, v2Queue := rest }
      | _, _ => s
  | .v2Handle answers =>
      match s.v2Item with
      | none => s
      | some payload =>
          { s with
            rx := (processV2Payload env.rx s.rx (v2Payload payload) answers).1
            v2Item := none }
  | .v2Timeout => { s with v2Item := none }
  | .v3Take =>
      match s.v3Item, s.v3Queue with
      | none, payload :: rest => { s with v3Item := some payload, v3Queue := rest }
      | _, _ => s
  | .v3Handle answers => s.v3Handle answers
  | .v3Idle answers =>
      if s.v3Item = none ∧ s.v3Queue = [] then
        { s with worker := s.worker.step (.idle answers) }
      else s
  | .watchdog now => { s with rx := s.rx.finishStaleAbort env.rx now }
  | .restart running now =>
      { Channel.boot (s.worker.step (.restart running now)) with
        rx := { OtaRx.boot with trace := s.rx.trace } }

/-- The channel after a list of steps. -/
def Channel.run (s : Channel env) (events : List (ChannelEvent env)) : Channel env :=
  events.foldl Channel.step s

end KeemashCore.OtaReceiver
