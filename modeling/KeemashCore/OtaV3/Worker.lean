import KeemashCore.OtaV3.FlashReceiver

/-!
# The OTA worker

`keemash_ota_v3_boot.c` and the worker task of `keemash_mesh_ota_v3_receiver.c`.
A `Worker` is the device with the state of the task and what it has sent.
Beside it stand what the attestation is about: the activation that still has to
be attested, and where the list of boot selections stood at the last restart.
-/

namespace KeemashCore.OtaV3

/-! ## Boot reports -/

/-- `esp_ota_img_states_t`. -/
inductive OtaImgState where
  | new
  | pendingVerify
  | valid
  | invalid
  | aborted
  | undefined
  deriving DecidableEq

/-- The numeric value of the state. -/
def OtaImgState.code : OtaImgState → ℕ
  | .new => 0
  | .pendingVerify => 1
  | .valid => 2
  | .invalid => 3
  | .aborted => 4
  | .undefined => 0xffffffff

/-- `keemash_fabric_v2_OtaBootState`. -/
inductive OtaBootState where
  | unspecified
  | pendingVerify
  | validated
  | rolledBack
  | failed
  deriving DecidableEq

/-- `keemash_fabric_v2_OtaBootReport`. -/
structure OtaBootReport where
  operationId : Id128
  nodeId : Id128
  artifactId : Digest
  bootSession : ℕ
  firmwareVersion : Bytes
  state : OtaBootState
  rollbackState : ℕ
  healthStatus : EspErr
  message : String
  deriving DecidableEq

/-- `keemash_fabric_v2_OtaBootAck`. -/
structure OtaBootAck where
  operationId : Option Id128
  artifactId : Bytes
  state : OtaBootState

/-- `read_be64`. -/
def readBe64 (bytes : Bytes) : UInt64 :=
  bytes.foldl (fun value byte => (value <<< 8) ||| byte.toUInt64) 0

/-- `copy_operation`. -/
def copyOperation (bytes : Vector UInt8 16) : Id128 where
  high := readBe64 (bytes.toList.take 8)
  low := readBe64 (bytes.toList.drop 8)

/-- `report_terminal`. -/
def reportTerminal (state : OtaBootState) : Bool :=
  state = .validated ∨ state = .rolledBack ∨ state = .failed

/-- What a report says of the image, given whether the target partition runs and
what `esp_ota_get_state_partition` answers. -/
def bootVerdict (targetRuns : Bool) (image : Except EspErr OtaImgState) :
    OtaBootState × ℕ × EspErr × String :=
  if targetRuns = false then
    (.rolledBack, 0, .ok, "target partition is not running")
  else
    match image with
    | .error err =>
        (.failed, OtaImgState.undefined.code, err, "rollback state unavailable")
    | .ok .valid => (.validated, OtaImgState.valid.code, .ok, "image validated")
    | .ok .new =>
        (.pendingVerify, OtaImgState.new.code, .ok, "waiting for application health")
    | .ok .pendingVerify =>
        (.pendingVerify, OtaImgState.pendingVerify.code, .ok, "waiting for application health")
    | .ok state =>
        (.failed, state.code, .fail, "unexpected OTA state " ++ toString state.code)

variable (env : ReceiverEnv)

/-- `keemash_ota_v3_boot_report`. -/
def bootReport (d : Device) (nodeId : Id128) (bootSession : ℕ)
    (image : Except EspErr OtaImgState) : Except EspErr OtaBootReport :=
  match checkpointLoad env.toJournalEnv d.nvs with
  | .error err => .error err
  | .ok cp =>
      if cp.phase ≠ checkpointBootPending then
        .error .notFound
      else
        match verifySignedFields env.toOtaEnv cp.signedFields cp.signature.toList with
        | .error err => .error err
        | .ok fields =>
            let verdict := bootVerdict (d.running.label = cString cp.partitionLabel) image
            .ok
              { operationId := copyOperation cp.operationId
                nodeId := nodeId
                artifactId := cp.artifactId
                bootSession := bootSession
                firmwareVersion := fields.firmwareVersion
                state := verdict.1
                rollbackState := verdict.2.1
                healthStatus := verdict.2.2.1
                message := verdict.2.2.2 }

/-- `keemash_ota_v3_boot_ack`. -/
def bootAck (d : Device) (ack : OtaBootAck) (image : Except EspErr OtaImgState)
    (clear : Option (NvsWrite env.toJournalEnv)) : Option EspErr × Device :=
  match ack.operationId, asVector? 32 ack.artifactId with
  | some id, some artifact =>
      if reportTerminal ack.state = false then
        (some .invalidArg, d)
      else
        match bootReport env d ⟨0, 0⟩ 0 image with
        | .error err => (some err, d)
        | .ok report =>
            if report.operationId ≠ id ∨ report.artifactId ≠ artifact ∨
                report.state ≠ ack.state then
              (some .invalidState, d)
            else
              d.clear clear
  | _, _ => (some .invalidArg, d)

/-! ## Messages -/

/-- `keemash_fabric_v2_OtaPhase`, as far as the worker uses it. -/
inductive OtaPhase where
  | transferring
  | verifying
  | rebooting
  | aborted
  | failed
  deriving DecidableEq

/-- `keemash_fabric_v2_OtaTransferStatus`. -/
structure OtaTransferStatus where
  operationId : Id128
  artifactId : Digest
  phase : OtaPhase
  rawOffset : ℕ
  encodedOffset : ℕ
  nextBlockIndex : ℕ
  windowCredit : ℕ
  resumeCount : ℕ
  status : EspErr
  message : String
  deriving DecidableEq

/-- `keemash_fabric_v2_OtaMeshMessage`, as the worker receives it. -/
inductive OtaMeshMessage where
  | transfer (message : OtaTransfer)
  | bootAck (ack : OtaBootAck)
  /-- A boot report, or no body. -/
  | other

/-- `message_operation`. -/
def OtaTransfer.messageOperation : OtaTransfer → Option Id128
  | .prepare operationId _ _ _ _ _ => operationId
  | .data operationId _ _ _ _ _ => operationId
  | .commit operationId _ _ _ => operationId
  | .abort operationId _ => operationId
  | .query operationId _ => operationId
  | .other => none

/-- `message_artifact`. -/
def OtaTransfer.messageArtifact : OtaTransfer → Option Digest
  | .prepare _ artifactId _ _ _ _ => asVector? 32 artifactId
  | .data _ artifactId _ _ _ _ => asVector? 32 artifactId
  | .commit _ artifactId _ _ => asVector? 32 artifactId
  | .abort _ artifactId => asVector? 32 artifactId
  | .query _ artifactId => asVector? 32 artifactId
  | .other => none

/-! ## The worker -/

/-- What the worker takes from its build and its program besides. -/
structure WorkerEnv extends ReceiverEnv where
  target : Target
  /-- `CONFIG_KEEMASH_OTA_V3_MAX_WINDOW`. -/
  maxWindow : ℕ
  /-- `configTICK_RATE_HZ`. -/
  tickRateHz : ℕ
  /-- `esp_err_to_name`. -/
  errToName : EspErr → String

/-- An activation that has to be attested. -/
structure Activation where
  operationId : Vector UInt8 16
  artifactId : Digest
  label : Bytes
  deriving DecidableEq

/-- A report that was sent, with the operations whose image was selected for boot
since the restart before. -/
structure SentReport where
  report : OtaBootReport
  selected : List Id128

/-- The device, the worker task, and what it has sent. -/
structure Worker (env : WorkerEnv) where
  device : Device
  receiver : Receiver env.toReceiverEnv
  /-- `last_transfer_tick`. -/
  lastTransferTick : U32
  statuses : List OtaTransferStatus
  reports : List SentReport
  /-- The activation that no acknowledgement has cleared yet. -/
  pending : Option Activation
  /-- How many boot selections there were at the last restart. -/
  restartMark : ℕ

/-- What the platform and the mesh answer while the worker handles one event. -/
structure WorkerAnswers (env : ReceiverEnv) where
  transfer : Answers env
  activate : Answers env
  ackClear : Option (NvsWrite env.toJournalEnv)
  /-- `mesh_v2_node_reliable_ready`. -/
  reliableReady : Bool
  /-- `mesh_v2_node_fabric_identity`. -/
  identity : Except EspErr (Id128 × ℕ)
  /-- `esp_ota_get_state_partition` of the running partition. -/
  image : Except EspErr OtaImgState
  sendReport : EspErr
  sendVerifying : EspErr
  sendStatus : EspErr
  /-- The partition that runs after a restart. -/
  restarted : Partition
  /-- `xTaskGetTickCount` when the event is handled. -/
  now : U32

variable {env : WorkerEnv}

/-- The operations whose image was selected for boot since the last restart. -/
def Worker.selectedSinceRestart (w : Worker env) : List Id128 :=
  (w.device.selections.drop w.restartMark).map fun call => copyOperation call.operationId

/-- The device starts again: the receiver is empty. -/
def Worker.restart (w : Worker env) (running : Partition) (now : U32) : Worker env :=
  { w with
    device := { w.device with running := running }
    receiver := Receiver.zero env.toReceiverEnv
    lastTransferTick := now
    restartMark := w.device.selections.length }

/-- `send_status`: the status that answers a request. -/
def statusFor (r : Receiver env.toReceiverEnv) (request : OtaTransfer) (phase : OtaPhase)
    (result : EspErr) (text : String) : Option OtaTransferStatus :=
  match request.messageOperation, request.messageArtifact with
  | some operationId, some artifactId =>
      some
        { operationId := operationId
          artifactId := artifactId
          phase := phase
          rawOffset := r.status.rawOffset
          encodedOffset := r.status.encodedOffset
          nextBlockIndex := r.status.nextBlockIndex
          windowCredit := env.maxWindow
          resumeCount := if r.status.resumed then 1 else 0
          status := result
          message := text }
  | _, _ => none

/-- `send_status`, with the answer of the mesh. -/
def Worker.sendStatus (w : Worker env) (request : OtaTransfer) (phase : OtaPhase)
    (result : EspErr) (text : String) (answer : EspErr) : EspErr × Worker env :=
  match statusFor w.receiver request phase result text with
  | none => (.invalidArg, w)
  | some status =>
      (answer, if answer = .ok then { w with statuses := w.statuses ++ [status] } else w)

/-- `send_pending_boot_report`. -/
def Worker.sendPendingBootReport (w : Worker env) (answers : WorkerAnswers env.toReceiverEnv) :
    EspErr × Worker env :=
  if answers.reliableReady = false then
    (.invalidState, w)
  else
    match answers.identity with
    | .error err => (err, w)
    | .ok (nodeId, bootSession) =>
        match bootReport env.toReceiverEnv w.device nodeId bootSession answers.image with
        | .error err => (err, w)
        | .ok report =>
            (answers.sendReport,
              if answers.sendReport = .ok then
                { w with reports := w.reports ++ [⟨report, w.selectedSinceRestart⟩] }
              else
                w)

/-- What the receiver leaves; a device that went down starts again. -/
def Worker.settle (w : Worker env) (outcome : Outcome env.toReceiverEnv)
    (answers : WorkerAnswers env.toReceiverEnv) :
    Option (Reply env.toReceiverEnv) × Worker env :=
  match outcome with
  | (none, d) => (none, { w with device := d }.restart answers.restarted answers.now)
  | (some reply, d) => (some reply, { w with device := d, receiver := reply.receiver })

/-- The part of `process_message` that follows the activation of an image. -/
def Worker.activated (w : Worker env) (transfer : OtaTransfer)
    (answers : WorkerAnswers env.toReceiverEnv) : Worker env :=
  let sent := w.sendStatus transfer .rebooting .ok "verified; rebooting" answers.sendStatus
  if sent.1 ≠ .ok then sent.2 else sent.2.restart answers.restarted answers.now

/-- The part of `process_message` that activates a verified image. -/
def Worker.activateVerified (w : Worker env) (transfer : OtaTransfer)
    (answers : WorkerAnswers env.toReceiverEnv) : Worker env :=
  match w.settle (activate w.device w.receiver answers.activate) answers with
  | (none, w') => w'
  | (some reply, w') =>
      if reply.err ≠ .ok then
        (w'.sendStatus transfer .failed reply.err (env.errToName reply.err)
          answers.sendStatus).2
      else
        Worker.activated
          { w' with
            pending := some
              ⟨w'.receiver.operationId, w'.receiver.artifactId,
                (w'.receiver.partition.map Partition.label).getD []⟩ }
          transfer answers

/-- The part of `process_message` that hands a transfer to the flash receiver. -/
def Worker.processTransfer (w : Worker env) (transfer : OtaTransfer)
    (answers : WorkerAnswers env.toReceiverEnv) : Worker env :=
  match w.settle (handleTransfer w.device w.receiver env.target transfer answers.transfer)
      answers with
  | (none, w') => w'
  | (some reply, w') =>
      if reply.err ≠ .ok then
        (w'.sendStatus transfer .failed reply.err (env.errToName reply.err)
          answers.sendStatus).2
      else if reply.verified.isSome then
        w'.activateVerified transfer answers
      else
        match transfer with
        | .abort _ _ => (w'.sendStatus transfer .aborted .ok "aborted" answers.sendStatus).2
        | _ => (w'.sendStatus transfer .transferring .ok "accepted" answers.sendStatus).2

/-- The acknowledgement names the activation. -/
def Activation.isAcked (a : Activation) (ack : OtaBootAck) : Bool :=
  ack.operationId = some (copyOperation a.operationId) ∧
    asVector? 32 ack.artifactId = some a.artifactId

/-- `process_message` on an acknowledgement. -/
def Worker.processAck (w : Worker env) (ack : OtaBootAck)
    (answers : WorkerAnswers env.toReceiverEnv) : Worker env :=
  match bootAck env.toReceiverEnv w.device ack answers.image answers.ackClear with
  | (none, d) => { w with device := d }.restart answers.restarted answers.now
  | (some err, d) =>
      { w with
        device := d
        pending :=
          if err = .ok then w.pending.filter fun a => !a.isAcked ack else w.pending }

/-- `process_message`. -/
def Worker.processMessage (w : Worker env) (message : OtaMeshMessage)
    (answers : WorkerAnswers env.toReceiverEnv) : Worker env :=
  match message with
  | .bootAck ack => w.processAck ack answers
  | .other => w
  | .transfer transfer =>
      match transfer with
      | .query _ _ =>
          let reported := w.sendPendingBootReport answers
          if reported.1 = .ok then reported.2
          else reported.2.processTransfer transfer answers
      | .commit _ _ _ _ =>
          let verifying :=
            w.sendStatus transfer .verifying .ok "verifying image" answers.sendVerifying
          verifying.2.processTransfer transfer answers
      | _ => w.processTransfer transfer answers

/-- `OTA_V3_IDLE_TIMEOUT_MS` in ticks. -/
def idleTimeoutTicks (env : WorkerEnv) : ℕ := 10 * 60 * 1000 * env.tickRateHz / 1000

/-- No transfer came for so long that one under way is given up. -/
def Worker.idleExpired (w : Worker env) (now : U32) : Bool :=
  idleTimeoutTicks env ≤ (now - w.lastTransferTick).toNat

/-- The part of `ota_v3_worker` that gives up a transfer when the queue stays empty. -/
def Worker.giveUp (w : Worker env) (answers : WorkerAnswers env.toReceiverEnv) :
    Option (Reply env.toReceiverEnv) × Worker env :=
  if w.idleExpired answers.now ∧ (w.receiver.status.active ∨ w.receiver.status.verified) then
    w.settle (abortCurrent w.device w.receiver answers.transfer) answers
  else
    (some ⟨.ok, none, w.receiver⟩, w)

/-- What the worker task meets. -/
inductive WorkerEvent (env : ReceiverEnv) where
  /-- A message that decodes comes out of the queue. -/
  | message (message : OtaMeshMessage) (answers : WorkerAnswers env)
  /-- The queue stays empty for `OTA_V3_REPORT_PERIOD_MS`. -/
  | idle (answers : WorkerAnswers env)
  | restart (running : Partition) (now : U32)

/-- One turn of `ota_v3_worker`, or a restart of the device. -/
def Worker.step (w : Worker env) : WorkerEvent env.toReceiverEnv → Worker env
  | .message message answers =>
      let processed := w.processMessage message answers
      match message with
      | .transfer _ => { processed with lastTransferTick := answers.now }
      | _ => processed
  | .idle answers =>
      match w.giveUp answers with
      | (none, w') => w'
      | (some _, w') => (w'.sendPendingBootReport answers).2
  | .restart running now => w.restart running now

/-- A device on which nothing has been written. -/
def Worker.factory (env : WorkerEnv) (flash : Partition → Bytes) (running : Partition)
    (now : U32) : Worker env where
  device := ⟨Nvs.empty, flash, running, 0, []⟩
  receiver := Receiver.zero env.toReceiverEnv
  lastTransferTick := now
  statuses := []
  reports := []
  pending := none
  restartMark := 0

/-- The worker after a run. -/
def runWorker (w : Worker env) (events : List (WorkerEvent env.toReceiverEnv)) : Worker env :=
  events.foldl Worker.step w

end KeemashCore.OtaV3
