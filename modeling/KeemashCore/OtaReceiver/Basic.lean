import KeemashCore.Mesh.Command
import KeemashCore.OtaV3.FlashReceiver

/-!
# The receiver of the OTA protocols v1 and v2

`keemash_mesh_ota_receiver.c`.  Both protocols share one session record.  The
platform answers each call through `RxAnswers`; the packets are decoded, with
the bytes that follow the header of a DATA packet as a list.  The trace keeps the
calls of the OTA library that touch the update slot, and the statuses sent.
-/

namespace KeemashCore.OtaReceiver

open MeshNode (ascii cText)
open OtaV3 (Bytes Digest zeroDigest Partition)

/-! ## Constants -/

def otaRxTimeoutMs : ℕ := 60000

def otaV2RxTimeoutMs : ℕ := 300000

/-- `MESH_OTA_CHUNK_MAX`. -/
def otaChunkMax : ℕ := 192

/-- `MESH_V2_OTA_CHUNK_MAX`. -/
def v2OtaChunkMax : ℕ := 1024

/-- `MESH_OTA_PROJECT_MAX`. -/
def otaProjectMax : ℕ := 32

/-- `MESH_OTA_STATUS_*` and `MESH_V2_OTA_STATUS_*`. -/
inductive StatusCode where
  | ok
  | error
  | busy
  deriving DecidableEq, Repr

/-- `MESH_OTA_OP_*`. -/
inductive Op where
  | begin
  | data
  | finish
  | abort
  deriving DecidableEq, Repr

/-- `MESH_V2_OTA_OP_*`, without the status that only goes the other way. -/
inductive V2Op where
  | prepare
  | data
  | commit
  | abort
  deriving DecidableEq, Repr

/-! ## Packets -/

structure BeginPacket where
  seq : BitVec 16
  chunkSize : BitVec 16
  imageSize : U32
  projectName : Bytes
  deriving DecidableEq, Repr

/-- `mesh_ota_data_packet_t` with the bytes received behind its header. -/
structure DataPacket where
  seq : BitVec 16
  len : BitVec 16
  offset : U32
  data : Bytes
  deriving DecidableEq, Repr

structure EndPacket where
  seq : BitVec 16
  imageSize : U32
  deriving DecidableEq, Repr

structure AbortPacket where
  seq : BitVec 16
  deriving DecidableEq, Repr

/-- A packet that is long enough for its type, or any other. -/
inductive V1Packet where
  | begin (packet : BeginPacket)
  | data (packet : DataPacket)
  | finish (packet : EndPacket)
  | abort (packet : AbortPacket)
  /-- Too short, or of a type that the receiver does not know. -/
  | other (err : EspErr)
  deriving DecidableEq, Repr

/-- `mesh_v2_ota_common_payload_t`. -/
structure V2Common where
  opId : U32
  imageSize : U32
  offset : U32
  len : U32
  projectName : Bytes
  sha256 : Digest
  deriving DecidableEq

/-- A v2 payload that is long enough for its operation, or any other. -/
inductive V2Payload where
  | prepare (c : V2Common)
  | data (c : V2Common) (bytes : Bytes)
  | commit (c : V2Common)
  | abort (c : V2Common)
  | other (err : EspErr)
  deriving DecidableEq

/-! ## State -/

/-- What the receiver takes from its program and the libraries. -/
structure RxEnv where
  sha256 : Bytes → Digest
  /-- `esp_app_get_description()->project_name`. -/
  project : Bytes
  /-- `esp_ota_get_next_update_partition(NULL)`. -/
  nextUpdatePartition : Option Partition
  size_lt : ∀ p, nextUpdatePartition = some p → p.size < 2 ^ 32
  /-- `configTICK_RATE_HZ`. -/
  tickRateHz : ℕ
  /-- `esp_err_to_name`. -/
  errToName : EspErr → Bytes

/-- The platform's answers while one packet is handled. -/
structure RxAnswers where
  /-- `xTaskGetTickCount`. -/
  now : U32
  otaBegin : EspErr
  otaWrite : EspErr
  otaEnd : EspErr
  setBoot : EspErr
  hashStart : EspErr
  hashUpdate : EspErr
  hashFinish : EspErr
  deriving DecidableEq, Repr

/-- An OTA handle, with the bytes that `esp_ota_write` took through it. -/
structure Handle where
  partition : Partition
  content : Bytes

/-- `esp_ota_write`: the bytes go behind the ones before them, and a write that
does not fit into the partition fails. -/
def Handle.write (h : Handle) (bytes : Bytes) (answer : EspErr) : EspErr × Handle :=
  if answer ≠ .ok then (answer, h)
  else if h.content.length + bytes.length > h.partition.size then (.invalidSize, h)
  else (.ok, { h with content := h.content ++ bytes })

/-- `mesh_ota_rx_state_t`.  `shaCtx` is `none` unless `sha_active`, and holds the
bytes that went into the hash. -/
structure OtaState where
  active : Bool
  handle : Option Handle
  partition : Option Partition
  imageSize : U32
  written : U32
  opId : U32
  lastSeq : BitVec 16
  lastRxTick : U32
  v2Active : Bool
  shaCtx : Option Bytes
  sha256 : Digest

/-- The record after `memset`. -/
def OtaState.zero : OtaState where
  active := false
  handle := none
  partition := none
  imageSize := 0
  written := 0
  opId := 0
  lastSeq := 0
  lastRxTick := 0
  v2Active := false
  shaCtx := none
  sha256 := zeroDigest

/-- What a session was begun with. -/
structure Session where
  v2 : Bool
  opId : U32
  imageSize : U32
  /-- The digest of the PREPARE. -/
  sha256 : Digest
  partition : Partition
  deriving DecidableEq

/-- One entry of the trace. -/
inductive RxEffect where
  /-- A session was begun: `esp_ota_begin` succeeded. -/
  | begun (session : Session)
  /-- `esp_ota_write` took the data of a packet with this offset. -/
  | wrote (offset : U32) (bytes : Bytes)
  /-- A COMMIT passed all its checks. -/
  | committed (opId : U32) (sha256 : Digest)
  /-- `esp_ota_set_boot_partition` was called. -/
  | setBoot (partition : Option Partition)
  | status (op : Op) (code : StatusCode) (seq : BitVec 16) (offset total : U32)
      (message : Bytes)
  | statusV2 (op : V2Op) (code : StatusCode) (opId offset total : U32) (message : Bytes)
  deriving DecidableEq

/-- The static variables of the file. -/
structure OtaRx where
  ota : OtaState
  lastAbortReason : Bytes
  rebootPending : Bool
  rebootEndSeq : BitVec 16
  rebootV2OpId : U32
  rebootTotal : U32
  trace : List RxEffect

/-- The variables at boot. -/
def OtaRx.boot : OtaRx where
  ota := OtaState.zero
  lastAbortReason := ascii "boot"
  rebootPending := false
  rebootEndSeq := 0
  rebootV2OpId := 0
  rebootTotal := 0
  trace := []

/-! ## Assignments and statuses -/

def OtaRx.emit (r : OtaRx) (effect : RxEffect) : OtaRx :=
  { r with trace := r.trace ++ [effect] }

def OtaRx.setOta (r : OtaRx) (ota : OtaState) : OtaRx :=
  { r with ota := ota }

/-- `ota_note_abort_reason`. -/
def OtaRx.noteAbortReason (r : OtaRx) (reason : Bytes) : OtaRx :=
  { r with lastAbortReason := reason }

/-- `send_status`. -/
def OtaRx.sendStatus (r : OtaRx) (op : Op) (code : StatusCode) (seq : BitVec 16)
    (offset total : U32) (message : Bytes) : OtaRx :=
  r.emit (.status op code seq offset total message)

/-- `send_status_v2`. -/
def OtaRx.sendStatusV2 (r : OtaRx) (op : V2Op) (code : StatusCode) (opId offset total : U32)
    (message : Bytes) : OtaRx :=
  r.emit (.statusV2 op code opId offset total message)

/-- `ota_rx_touch`. -/
def OtaRx.touch (r : OtaRx) (now : U32) : OtaRx :=
  r.setOta { r.ota with lastRxTick := now }

/-- `finish_abort`. -/
def OtaRx.finishAbort (r : OtaRx) : OtaRx :=
  r.setOta OtaState.zero

/-- `packet_text_equals`. -/
def packetTextEquals (field expected : Bytes) : Bool :=
  cText (field.take otaProjectMax) = expected

/-- The message of a refused project name. -/
def wrongProject (field : Bytes) : Bytes :=
  ascii "wrong project " ++ cText (field.take otaProjectMax)

/-- The message of a v2 packet for another session. -/
def OtaRx.notActive (r : OtaRx) : Bytes :=
  ascii "not active a=" ++ ascii (if r.ota.active then "1" else "0") ++
    ascii " v=" ++ ascii (if r.ota.v2Active then "1" else "0") ++
    ascii " cur=" ++ ascii (toString r.ota.opId.toNat) ++ ascii " r=" ++ r.lastAbortReason

variable (env : RxEnv)

/-- The timeout of the session in ticks. -/
def OtaState.timeoutTicks (ota : OtaState) : ℕ :=
  (if ota.v2Active then otaV2RxTimeoutMs else otaRxTimeoutMs) * env.tickRateHz / 1000

/-- `ota_rx_stale`. -/
def OtaState.stale (ota : OtaState) (now : U32) : Bool :=
  ota.active && decide (ota.timeoutTicks env < (now - ota.lastRxTick).toNat)

/-- `finish_stale_abort`. -/
def OtaRx.finishStaleAbort (r : OtaRx) (now : U32) : OtaRx :=
  if !r.ota.stale env now then r
  else
    let r :=
      if r.ota.v2Active then
        r.sendStatusV2 .abort .error r.ota.opId r.ota.written r.ota.imageSize
          (ascii "OTA timeout abort")
      else
        r.sendStatus .abort .error r.ota.lastSeq r.ota.written r.ota.imageSize
          (ascii "OTA timeout abort")
    (r.noteAbortReason (ascii "timeout")).finishAbort

/-! ## Version 1 -/

/-- The end of `handle_begin`, once `esp_ota_begin` has succeeded. -/
def OtaRx.openV1 (r : OtaRx) (p : BeginPacket) (partition : Partition) (now : U32) : OtaRx :=
  let r := r.setOta
    { OtaState.zero with
      active := true
      handle := some ⟨partition, []⟩
      partition := some partition
      imageSize := p.imageSize
      lastSeq := p.seq
      lastRxTick := now }
  let r := { (r.noteAbortReason (ascii "v1 prepare")) with rebootPending := false }
  (r.emit (.begun ⟨false, 0, p.imageSize, zeroDigest, partition⟩)).sendStatus .begin .ok p.seq
    0 p.imageSize partition.label

/-- `handle_begin`. -/
def handleBegin (r : OtaRx) (p : BeginPacket) (answers : RxAnswers) : OtaRx × EspErr :=
  if r.rebootPending then
    (r.sendStatus .begin .busy p.seq r.rebootTotal r.rebootTotal (ascii "OTA reboot pending"),
      .invalidState)
  else
    let r := r.finishStaleAbort env answers.now
    if r.ota.active then
      match r.ota.partition with
      | some partition =>
          if p.seq = r.ota.lastSeq ∧ r.ota.written = 0 ∧ p.imageSize = r.ota.imageSize then
            ((r.touch answers.now).sendStatus .begin .ok p.seq 0 r.ota.imageSize
              partition.label, .ok)
          else
            (r.sendStatus .begin .busy p.seq r.ota.written r.ota.imageSize
              (ascii "OTA already active"), .invalidState)
      | none =>
          (r.sendStatus .begin .busy p.seq r.ota.written r.ota.imageSize
            (ascii "OTA already active"), .invalidState)
    else if !packetTextEquals p.projectName env.project then
      (r.sendStatus .begin .error p.seq 0 p.imageSize (wrongProject p.projectName), .invalidArg)
    else if p.chunkSize = 0 ∨ p.chunkSize.toNat > otaChunkMax ∨ p.imageSize = 0 then
      (r.sendStatus .begin .error p.seq 0 p.imageSize (ascii "bad OTA begin"), .invalidArg)
    else
      match env.nextUpdatePartition with
      | none =>
          (r.sendStatus .begin .error p.seq 0 p.imageSize (ascii "no OTA partition"), .notFound)
      | some partition =>
          if p.imageSize.toNat > partition.size then
            (r.sendStatus .begin .error p.seq 0 p.imageSize (ascii "image too large"),
              .invalidSize)
          else if answers.otaBegin ≠ .ok then
            (r.sendStatus .begin .error p.seq 0 p.imageSize
              (ascii "esp_ota_begin " ++ env.errToName answers.otaBegin), answers.otaBegin)
          else (r.openV1 p partition answers.now, .ok)

/-- `handle_data`. -/
def handleData (r : OtaRx) (p : DataPacket) (answers : RxAnswers) : OtaRx × EspErr :=
  let r := r.finishStaleAbort env answers.now
  let len := p.len.setWidth 32
  match r.ota.active, r.ota.handle with
  | true, some handle =>
      if p.len = 0 ∨ p.len.toNat > otaChunkMax ∨ p.data.length < p.len.toNat then
        (r.sendStatus .data .error p.seq r.ota.written r.ota.imageSize (ascii "bad chunk"),
          .invalidSize)
      else if p.offset ≠ r.ota.written ∨ p.offset + len > r.ota.imageSize then
        if p.seq = r.ota.lastSeq ∧ p.offset < r.ota.written ∧
            p.offset + len = r.ota.written then
          ((r.touch answers.now).sendStatus .data .ok p.seq r.ota.written r.ota.imageSize
            (ascii "duplicate chunk OK"), .ok)
        else
          (r.sendStatus .data .error p.seq r.ota.written r.ota.imageSize
            (ascii "offset mismatch"), .invalidArg)
      else
        let bytes := p.data.take p.len.toNat
        let write := handle.write bytes answers.otaWrite
        if write.1 ≠ .ok then
          ((r.sendStatus .data .error p.seq r.ota.written r.ota.imageSize
            (ascii "esp_ota_write " ++ env.errToName write.1)).finishAbort, write.1)
        else
          let r := (r.emit (.wrote p.offset bytes)).setOta
            { r.ota with
              handle := some write.2
              written := r.ota.written + len
              lastSeq := p.seq
              lastRxTick := answers.now }
          (r.sendStatus .data .ok p.seq r.ota.written r.ota.imageSize (ascii "chunk OK"), .ok)
  | _, _ =>
      (r.sendStatus .data .error p.seq 0 0 (ascii "OTA not active"), .invalidState)

/-- The end of `handle_end` and `handle_v2_commit`: the new image boots next. -/
def OtaRx.rebootSoon (r : OtaRx) (endSeq : BitVec 16) (v2OpId : Option U32) : OtaRx :=
  { r with
    rebootPending := true
    rebootEndSeq := endSeq
    rebootV2OpId := v2OpId.getD r.rebootV2OpId
    rebootTotal := r.ota.imageSize }

/-- `handle_end`. -/
def handleEnd (r : OtaRx) (p : EndPacket) (answers : RxAnswers) : OtaRx × EspErr :=
  if r.rebootPending ∧ p.seq = r.rebootEndSeq ∧ p.imageSize = r.rebootTotal then
    (r.sendStatus .finish .ok p.seq r.rebootTotal r.rebootTotal (ascii "OTA OK rebooting"), .ok)
  else
    let r := r.finishStaleAbort env answers.now
    if !r.ota.active then
      (r.sendStatus .finish .error p.seq 0 0 (ascii "OTA not active"), .invalidState)
    else if p.imageSize ≠ r.ota.imageSize ∨ r.ota.written ≠ r.ota.imageSize then
      ((r.sendStatus .finish .error p.seq r.ota.written r.ota.imageSize
        (ascii "size mismatch")).finishAbort, .invalidSize)
    else if answers.otaEnd ≠ .ok then
      ((r.sendStatus .finish .error p.seq r.ota.written r.ota.imageSize
        (ascii "esp_ota_end " ++ env.errToName answers.otaEnd)).finishAbort, answers.otaEnd)
    else
      let r := r.emit (.setBoot r.ota.partition)
      if answers.setBoot ≠ .ok then
        ((r.sendStatus .finish .error p.seq r.ota.written r.ota.imageSize
          (ascii "set boot " ++ env.errToName answers.setBoot)).setOta OtaState.zero,
          answers.setBoot)
      else
        let r := r.rebootSoon p.seq none
        ((r.sendStatus .finish .ok p.seq r.ota.written r.ota.imageSize
          (ascii "OTA OK rebooting")).setOta OtaState.zero, .ok)

/-- `handle_abort`. -/
def handleAbort (r : OtaRx) (p : AbortPacket) : OtaRx × EspErr :=
  if r.rebootPending then
    (r.sendStatus .abort .busy p.seq r.rebootTotal r.rebootTotal (ascii "OTA reboot pending"),
      .invalidState)
  else
    ((r.finishAbort.noteAbortReason (ascii "v1 abort")).sendStatus .abort .ok p.seq 0 0
      (ascii "OTA aborted"), .ok)

/-- The part of `keemash_mesh_ota_receiver_handle_rx` under the lock. -/
def handleRx (r : OtaRx) (packet : V1Packet) (answers : RxAnswers) : OtaRx × EspErr :=
  match packet with
  | .begin p => handleBegin env r p answers
  | .data p => handleData env r p answers
  | .finish p => handleEnd env r p answers
  | .abort p => handleAbort r p
  | .other err => (r, err)

/-! ## Version 2 -/

/-- The end of `handle_v2_prepare`, once `esp_ota_begin` has succeeded. -/
def OtaRx.openV2 (r : OtaRx) (c : V2Common) (partition : Partition) (now : U32) : OtaRx :=
  let r := r.setOta
    { OtaState.zero with
      active := true
      v2Active := true
      handle := some ⟨partition, []⟩
      partition := some partition
      imageSize := c.imageSize
      opId := c.opId
      lastRxTick := now }
  let r := { (r.noteAbortReason (ascii "v2 prepare")) with rebootPending := false }
  r.emit (.begun ⟨true, c.opId, c.imageSize, c.sha256, partition⟩)

/-- `ota_hash_start` when the hash library succeeds. -/
def OtaRx.hashStart (r : OtaRx) (expected : Digest) : OtaRx :=
  r.setOta
    { r.ota with
      shaCtx := some []
      sha256 := if expected = zeroDigest then r.ota.sha256 else expected }

/-- `handle_v2_prepare`. -/
def handleV2Prepare (r : OtaRx) (c : V2Common) (answers : RxAnswers) : OtaRx × EspErr :=
  if r.rebootPending then
    (r.sendStatusV2 .prepare .busy c.opId r.rebootTotal r.rebootTotal
      (ascii "OTA reboot pending"), .invalidState)
  else
    let r := r.finishStaleAbort env answers.now
    if r.ota.active then
      match r.ota.partition with
      | some partition =>
          if r.ota.v2Active ∧ c.opId = r.ota.opId ∧ r.ota.written = 0 ∧
              c.imageSize = r.ota.imageSize then
            ((r.touch answers.now).sendStatusV2 .prepare .ok c.opId 0 r.ota.imageSize
              partition.label, .ok)
          else
            (r.sendStatusV2 .prepare .busy c.opId r.ota.written r.ota.imageSize
              (ascii "OTA already active"), .invalidState)
      | none =>
          (r.sendStatusV2 .prepare .busy c.opId r.ota.written r.ota.imageSize
            (ascii "OTA already active"), .invalidState)
    else if !packetTextEquals c.projectName env.project then
      (r.sendStatusV2 .prepare .error c.opId 0 c.imageSize (wrongProject c.projectName),
        .invalidArg)
    else if c.opId = 0 ∨ c.imageSize = 0 ∨ c.len = 0 ∨ c.len.toNat > v2OtaChunkMax then
      (r.sendStatusV2 .prepare .error c.opId 0 c.imageSize (ascii "bad OTA prepare"),
        .invalidArg)
    else
      match env.nextUpdatePartition with
      | none =>
          (r.sendStatusV2 .prepare .error c.opId 0 c.imageSize (ascii "no OTA partition"),
            .notFound)
      | some partition =>
          if c.imageSize.toNat > partition.size then
            (r.sendStatusV2 .prepare .error c.opId 0 c.imageSize (ascii "image too large"),
              .invalidSize)
          else if answers.otaBegin ≠ .ok then
            (r.sendStatusV2 .prepare .error c.opId 0 c.imageSize
              (ascii "esp_ota_begin " ++ env.errToName answers.otaBegin), answers.otaBegin)
          else
            let r := r.openV2 c partition answers.now
            if answers.hashStart ≠ .ok then
              (r.finishAbort.sendStatusV2 .prepare .error c.opId 0 c.imageSize
                (ascii "sha256 init failed"), answers.hashStart)
            else
              ((r.hashStart c.sha256).sendStatusV2 .prepare .ok c.opId 0 c.imageSize
                partition.label, .ok)

/-- `ota_hash_update`. -/
def hashUpdate (shaCtx : Option Bytes) (bytes : Bytes) (answer : EspErr) :
    EspErr × Option Bytes :=
  match shaCtx with
  | none => (.invalidState, none)
  | some hashed =>
      if bytes.length = 0 then (.invalidState, some hashed)
      else (answer, if answer = .ok then some (hashed ++ bytes) else some hashed)

/-- `handle_v2_data`. -/
def handleV2Data (r : OtaRx) (c : V2Common) (data : Bytes) (answers : RxAnswers) :
    OtaRx × EspErr :=
  let r := r.finishStaleAbort env answers.now
  match r.ota.active, r.ota.handle with
  | true, some handle =>
      if r.ota.v2Active = false ∨ c.opId ≠ r.ota.opId then
        (r.sendStatusV2 .data .error c.opId r.ota.written r.ota.imageSize r.notActive,
          .invalidState)
      else if c.len = 0 ∨ c.len.toNat > v2OtaChunkMax ∨ data.length < c.len.toNat ∨
          c.offset + c.len > r.ota.imageSize then
        (r.sendStatusV2 .data .error c.opId r.ota.written r.ota.imageSize (ascii "bad chunk"),
          .invalidSize)
      else if c.offset ≠ r.ota.written then
        if c.offset < r.ota.written ∧ c.offset + c.len ≤ r.ota.written then
          ((r.touch answers.now).sendStatusV2 .data .ok c.opId r.ota.written r.ota.imageSize
            (ascii "duplicate chunk OK"), .ok)
        else
          (r.sendStatusV2 .data .error c.opId r.ota.written r.ota.imageSize
            (ascii "offset mismatch"), .invalidArg)
      else
        let bytes := data.take c.len.toNat
        let write := handle.write bytes answers.otaWrite
        let hash := hashUpdate r.ota.shaCtx bytes answers.hashUpdate
        let err := if write.1 = .ok then hash.1 else write.1
        -- A write whose hash fails is on the flash, and its session ends.
        let r := if write.1 = .ok then r.emit (.wrote c.offset bytes) else r
        if err ≠ .ok then
          (((r.sendStatusV2 .data .error c.opId r.ota.written r.ota.imageSize
            (ascii "OTA write/hash " ++ env.errToName err)).noteAbortReason
              (ascii "write/hash")).finishAbort, err)
        else
          let r := r.setOta
            { r.ota with
              handle := some write.2
              written := r.ota.written + c.len
              lastRxTick := answers.now
              shaCtx := hash.2 }
          (r.sendStatusV2 .data .ok c.opId r.ota.written r.ota.imageSize (ascii "chunk OK"), .ok)
  | _, _ =>
      (r.sendStatusV2 .data .error c.opId r.ota.written r.ota.imageSize r.notActive,
        .invalidState)

/-- `ota_hash_finish_and_check`, with the digest of the COMMIT already stored. -/
def hashFinishAndCheck (shaCtx : Option Bytes) (expected : Digest) (answer : EspErr) : EspErr :=
  match shaCtx with
  | none => .invalidState
  | some hashed =>
      if answer ≠ .ok then .fail
      else if env.sha256 hashed = expected then .ok else .invalidCrc

/-- The part of `handle_v2_commit` that refuses a COMMIT and gives up the session. -/
def OtaRx.refuseCommit (r : OtaRx) (c : V2Common) (message reason : Bytes) : OtaRx :=
  ((r.sendStatusV2 .commit .error c.opId r.ota.written r.ota.imageSize message).noteAbortReason
    reason).finishAbort

/-- `handle_v2_commit`. -/
def handleV2Commit (r : OtaRx) (c : V2Common) (answers : RxAnswers) : OtaRx × EspErr :=
  if r.rebootPending ∧ c.opId = r.rebootV2OpId then
    (r.sendStatusV2 .commit .ok c.opId r.rebootTotal r.rebootTotal (ascii "OTA OK rebooting"),
      .ok)
  else
    let r := r.finishStaleAbort env answers.now
    if r.ota.active = false ∨ r.ota.v2Active = false ∨ c.opId ≠ r.ota.opId then
      (r.sendStatusV2 .commit .error c.opId r.ota.written r.ota.imageSize r.notActive,
        .invalidState)
    else if c.imageSize ≠ r.ota.imageSize ∨ r.ota.written ≠ r.ota.imageSize then
      (r.refuseCommit c (ascii "size mismatch") (ascii "size mismatch"), .invalidSize)
    else if c.sha256 = zeroDigest then
      (r.refuseCommit c (ascii "missing sha256") (ascii "missing sha"), .invalidArg)
    else if r.ota.sha256 ≠ zeroDigest ∧ c.sha256 ≠ r.ota.sha256 then
      (r.refuseCommit c (ascii "sha256 mismatch") (ascii "sha mismatch"), .invalidCrc)
    else if hashFinishAndCheck env r.ota.shaCtx c.sha256 answers.hashFinish ≠ .ok then
      (r.refuseCommit c (ascii "sha256 mismatch") (ascii "sha mismatch"), .invalidCrc)
    else
      let r := r.emit (.committed c.opId c.sha256)
      if answers.otaEnd ≠ .ok then
        (r.refuseCommit c (ascii "esp_ota_end " ++ env.errToName answers.otaEnd)
          (ascii "ota_end"), answers.otaEnd)
      else
        let r := r.emit (.setBoot r.ota.partition)
        if answers.setBoot ≠ .ok then
          ((r.sendStatusV2 .commit .error c.opId r.ota.written r.ota.imageSize
            (ascii "set boot " ++ env.errToName answers.setBoot)).setOta OtaState.zero,
            answers.setBoot)
        else
          let r := r.rebootSoon 0 (some r.ota.opId)
          ((r.sendStatusV2 .commit .ok r.ota.opId r.ota.imageSize r.ota.imageSize
            (ascii "OTA OK rebooting")).setOta OtaState.zero, .ok)

/-- `handle_v2_abort`. -/
def handleV2Abort (r : OtaRx) (c : V2Common) : OtaRx × EspErr :=
  if r.rebootPending then
    (r.sendStatusV2 .abort .busy c.opId r.rebootTotal r.rebootTotal
      (ascii "OTA reboot pending"), .invalidState)
  else if r.ota.active ∧ r.ota.v2Active ∧ c.opId ≠ r.ota.opId then
    (r.sendStatusV2 .abort .ok c.opId r.ota.written r.ota.imageSize
      (ascii "stale abort ignored"), .ok)
  else
    ((r.noteAbortReason (ascii "v2 abort")).finishAbort.sendStatusV2 .abort .ok c.opId 0 0
      (ascii "OTA aborted"), .ok)

/-- `process_v2_payload_locked`. -/
def processV2Payload (r : OtaRx) (payload : V2Payload) (answers : RxAnswers) :
    OtaRx × EspErr :=
  match payload with
  | .prepare c => handleV2Prepare env r c answers
  | .data c bytes => handleV2Data env r c bytes answers
  | .commit c => handleV2Commit env r c answers
  | .abort c => handleV2Abort r c
  | .other err => (r, err)

/-! ## Runs -/

/-- What happens under the receiver's lock. -/
inductive RxEvent where
  | v1 (packet : V1Packet) (answers : RxAnswers)
  | v2 (payload : V2Payload) (answers : RxAnswers)
  /-- `ota_watchdog_task` looks for a stale session. -/
  | watchdog (now : U32)
  | restart

def OtaRx.step (r : OtaRx) : RxEvent → OtaRx
  | .v1 packet answers => (handleRx env r packet answers).1
  | .v2 payload answers => (processV2Payload env r payload answers).1
  | .watchdog now => r.finishStaleAbort env now
  | .restart => { OtaRx.boot with trace := r.trace }

/-- The receiver after a list of events. -/
def OtaRx.run (r : OtaRx) (events : List RxEvent) : OtaRx :=
  events.foldl (OtaRx.step env) r

end KeemashCore.OtaReceiver
