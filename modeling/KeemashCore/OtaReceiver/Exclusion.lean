import KeemashCore.OtaReceiver.Activation
import KeemashCore.OtaReceiver.Channel
import KeemashCore.OtaV3.Attestation

/-!
# The two OTA receivers and the update slot

A receiver takes the slot when it handles a BEGIN or PREPARE, and each of them is
let through only while the other receiver is idle.  The check comes before the
payload waits, so the receivers exclude each other as long as none is let through
while one of the other protocol is still on its way.
-/

namespace KeemashCore.OtaReceiver

open OtaV3 (Bytes OtaMeshMessage OtaTransfer Receiver Worker WorkerEnv WorkerAnswers
  WorkerEvent ReceiverEnv Device Outcome Answers Chunk)

/-! ## What makes the v3 receiver busy -/

section Receiver

variable {env : ReceiverEnv}

/-- The receiver is active or holds a verified image. -/
def busy (r : Receiver env) : Bool :=
  r.active || r.verified

/-- A call that makes no idle receiver busy. -/
def StaysIdle (r : Receiver env) (outcome : Outcome env) : Prop :=
  ∀ reply, outcome.1 = some reply → busy reply.receiver = true → busy r = true

theorem staysIdle_same (r : Receiver env) {outcome : Outcome env}
    (h : ∀ reply, outcome.1 = some reply → busy reply.receiver = busy r) :
    StaysIdle r outcome := by
  intro reply hreply hbusy
  rw [← h reply hreply]
  exact hbusy

/-- A call of a busy receiver has nothing to keep. -/
theorem staysIdle_busy {r : Receiver env} (h : busy r = true) (outcome : Outcome env) :
    StaysIdle r outcome :=
  fun _ _ _ => h

theorem abortCurrent_staysIdle (d : Device) (r : Receiver env) (answers : Answers env) :
    StaysIdle r (OtaV3.abortCurrent d r answers) := by
  intro reply hreply hbusy
  rw [OtaV3.abortCurrent] at hreply
  split at hreply
  · cases hreply
    exact hbusy
  · split at hreply
    · cases hreply
    · split at hreply
      · cases hreply
        exact hbusy
      · cases hreply
        cases hbusy

theorem abort_staysIdle (d : Device) (r : Receiver env) (operationId : Vector UInt8 16)
    (artifactId : OtaV3.Digest) (answers : Answers env) :
    StaysIdle r (OtaV3.abort d r operationId artifactId answers) := by
  rw [OtaV3.abort]
  split
  · split
    · exact abortCurrent_staysIdle d r answers
    · exact staysIdle_same r fun reply hreply => by
        cases hreply
        rfl
  · split
    · exact staysIdle_same r fun reply hreply => by
        cases hreply
        rfl
    · split
      · exact staysIdle_same r fun reply hreply => by
          cases hreply
          rfl
      · exact abortCurrent_staysIdle d r answers

theorem write_staysIdle (d : Device) (r : Receiver env) (chunk : Chunk)
    (answers : Answers env) : StaysIdle r (OtaV3.write d r chunk answers) := by
  cases hactive : r.active with
  | true =>
      refine staysIdle_busy ?_ _
      rw [busy, hactive]
      rfl
  | false =>
      refine staysIdle_same r fun reply hreply => ?_
      simp only [OtaV3.write, hactive] at hreply
      cases hreply
      rfl

theorem verify_staysIdle (d : Device) (r : Receiver env) (answers : Answers env) :
    StaysIdle r (OtaV3.verify d r answers) := by
  cases hactive : r.active with
  | true =>
      refine staysIdle_busy ?_ _
      rw [busy, hactive]
      rfl
  | false =>
      refine staysIdle_same r fun reply hreply => ?_
      simp only [OtaV3.verify, hactive] at hreply
      cases hreply
      rfl

/-- The message asks to prepare a transfer. -/
def preparesV3 : OtaMeshMessage → Bool
  | .transfer (.prepare _ _ _ _ _ _) => true
  | _ => false

/-- Only a PREPARE makes the flash receiver busy. -/
theorem handleTransfer_staysIdle (d : Device) (r : Receiver env) (target : OtaV3.Target)
    (transfer : OtaTransfer) (answers : Answers env)
    (hprepare : preparesV3 (.transfer transfer) = false) :
    StaysIdle r (OtaV3.handleTransfer d r target transfer answers) := by
  have hsame (err : EspErr) (verified : Option OtaV3.Partition) :
      StaysIdle r (some ⟨err, verified, r⟩, d) :=
    staysIdle_same r fun reply hreply => by
      cases hreply
      rfl
  cases transfer with
  | prepare operationId artifactId signedFields signature size window => cases hprepare
  | data operationId artifactId block offset data final =>
      simp only [OtaV3.handleTransfer]
      split
      · split
        · exact hsame _ _
        · exact write_staysIdle d r _ answers
      · exact hsame _ _
  | commit operationId artifactId table image =>
      simp only [OtaV3.handleTransfer]
      split
      · exact hsame _ _
      · split
        · exact hsame _ _
        · split
          · exact hsame _ _
          · exact verify_staysIdle d r answers
  | abort operationId artifactId =>
      simp only [OtaV3.handleTransfer]
      split
      · exact abort_staysIdle d r _ _ answers
      · exact hsame _ _
  | query operationId artifactId =>
      simp only [OtaV3.handleTransfer]
      split
      · exact hsame _ _
      · split
        · exact hsame _ _
        · exact hsame _ _
  | other => exact hsame _ _

theorem setBoot_receiver {d : Device} {r : Receiver env} {answers : Answers env}
    {reply : OtaV3.Reply env} (h : (OtaV3.setBoot d r answers).1 = some reply) :
    reply.receiver = r := by
  rw [OtaV3.setBoot] at h
  split at h
  · cases h
  · split at h
    · cases h
      rfl
    · split at h
      · cases h
      · cases h
        rfl

theorem activate_staysIdle (d : Device) (r : Receiver env) (answers : Answers env) :
    StaysIdle r (OtaV3.activate d r answers) := by
  refine staysIdle_same r fun reply hreply => ?_
  have hsame : reply.receiver = r := by
    rw [OtaV3.activate] at hreply
    split at hreply
    · split at hreply
      · cases hreply
        rfl
      · split at hreply
        · cases hreply
        · split at hreply
          · cases hreply
            rfl
          · exact setBoot_receiver hreply
    · cases hreply
      rfl
  rw [hsame]

end Receiver

/-! ## The v3 worker -/

section Worker

variable {env : WorkerEnv}

theorem sendStatus_receiver (w : Worker env) (request : OtaTransfer) (phase : OtaV3.OtaPhase)
    (result : EspErr) (text : String) (answer : EspErr) :
    (w.sendStatus request phase result text answer).2.receiver = w.receiver := by
  rw [Worker.sendStatus]
  split
  · rfl
  · dsimp only
    split
    · rfl
    · rfl

theorem sendPendingBootReport_receiver (w : Worker env)
    (answers : WorkerAnswers env.toReceiverEnv) :
    (w.sendPendingBootReport answers).2.receiver = w.receiver := by
  rw [Worker.sendPendingBootReport]
  split
  · rfl
  · split
    · rfl
    · split
      · rfl
      · dsimp only
        split
        · rfl
        · rfl

/-- What the receiver leaves behind a call that keeps it idle. -/
theorem settle_busy {w : Worker env} {outcome : Outcome env.toReceiverEnv}
    (h : StaysIdle w.receiver outcome) (answers : WorkerAnswers env.toReceiverEnv)
    (hbusy : busy (w.settle outcome answers).2.receiver = true) :
    busy w.receiver = true := by
  obtain ⟨result, d⟩ := outcome
  cases result with
  | none => cases hbusy
  | some reply => exact h reply rfl hbusy

theorem activateVerified_busy {w : Worker env} {transfer : OtaTransfer}
    {answers : WorkerAnswers env.toReceiverEnv}
    (hbusy : busy (w.activateVerified transfer answers).receiver = true) :
    busy w.receiver = true := by
  have hsettled := settle_busy (activate_staysIdle w.device w.receiver answers.activate)
    answers
  rw [Worker.activateVerified] at hbusy
  generalize w.settle (OtaV3.activate w.device w.receiver answers.activate) answers = settled
    at hsettled hbusy
  obtain ⟨result, w'⟩ := settled
  cases result with
  | none => exact hsettled hbusy
  | some reply =>
      dsimp only at hbusy
      split at hbusy
      · rw [sendStatus_receiver] at hbusy
        exact hsettled hbusy
      · rw [Worker.activated] at hbusy
        split at hbusy
        · rw [sendStatus_receiver] at hbusy
          exact hsettled hbusy
        · cases hbusy

theorem processTransfer_busy {w : Worker env} {transfer : OtaTransfer}
    {answers : WorkerAnswers env.toReceiverEnv}
    (hprepare : preparesV3 (.transfer transfer) = false)
    (hbusy : busy (w.processTransfer transfer answers).receiver = true) :
    busy w.receiver = true := by
  have hsettled := settle_busy
    (handleTransfer_staysIdle w.device w.receiver env.target transfer answers.transfer hprepare)
    answers
  rw [Worker.processTransfer] at hbusy
  generalize w.settle (OtaV3.handleTransfer w.device w.receiver env.target transfer
    answers.transfer) answers = settled at hsettled hbusy
  obtain ⟨result, w'⟩ := settled
  cases result with
  | none => exact hsettled hbusy
  | some reply =>
      dsimp only at hbusy
      split at hbusy
      · rw [sendStatus_receiver] at hbusy
        exact hsettled hbusy
      · split at hbusy
        · exact hsettled (activateVerified_busy hbusy)
        · split at hbusy
          · rw [sendStatus_receiver] at hbusy
            exact hsettled hbusy
          · rw [sendStatus_receiver] at hbusy
            exact hsettled hbusy

theorem processAck_busy {w : Worker env} {ack : OtaV3.OtaBootAck}
    {answers : WorkerAnswers env.toReceiverEnv}
    (hbusy : busy (w.processAck ack answers).receiver = true) : busy w.receiver = true := by
  rw [Worker.processAck] at hbusy
  split at hbusy
  · cases hbusy
  · exact hbusy

/-- Only a PREPARE makes the worker's receiver busy. -/
theorem message_busy {w : Worker env} {message : OtaMeshMessage}
    {answers : WorkerAnswers env.toReceiverEnv} (hprepare : preparesV3 message = false)
    (hbusy : busy (w.step (.message message answers)).receiver = true) :
    busy w.receiver = true := by
  cases message with
  | bootAck ack => exact processAck_busy hbusy
  | other => exact hbusy
  | transfer transfer =>
      have hprocessed : busy (w.processMessage (.transfer transfer) answers).receiver = true :=
        hbusy
      cases transfer with
      | prepare operationId artifactId signedFields signature size window => cases hprepare
      | data operationId artifactId block offset data final =>
          exact processTransfer_busy hprepare hprocessed
      | commit operationId artifactId table image =>
          have hsent := processTransfer_busy hprepare hprocessed
          rwa [sendStatus_receiver] at hsent
      | abort operationId artifactId => exact processTransfer_busy hprepare hprocessed
      | query operationId artifactId =>
          rw [Worker.processMessage] at hprocessed
          split at hprocessed
          · rwa [sendPendingBootReport_receiver] at hprocessed
          · have hreported := processTransfer_busy hprepare hprocessed
            rwa [sendPendingBootReport_receiver] at hreported
      | other => exact processTransfer_busy hprepare hprocessed

theorem idle_busy {w : Worker env} {answers : WorkerAnswers env.toReceiverEnv}
    (hbusy : busy (w.step (.idle answers)).receiver = true) : busy w.receiver = true := by
  have hgiven (h : busy (w.giveUp answers).2.receiver = true) : busy w.receiver = true := by
    rw [Worker.giveUp] at h
    split at h
    · exact settle_busy (abortCurrent_staysIdle w.device w.receiver answers.transfer) answers h
    · exact h
  rw [Worker.step] at hbusy
  generalize w.giveUp answers = given at hgiven hbusy
  obtain ⟨result, w'⟩ := given
  cases result with
  | none => exact hgiven hbusy
  | some reply =>
      dsimp only at hbusy
      rw [sendPendingBootReport_receiver] at hbusy
      exact hgiven hbusy

end Worker

/-! ## What makes the v1 and v2 receiver active -/

section Rx

variable {env : RxEnv}

theorem finishStaleAbort_active (env : RxEnv) (r : OtaRx) (now : U32)
    (h : (r.finishStaleAbort env now).ota.active = true) : r.ota.active = true := by
  rw [OtaRx.finishStaleAbort] at h
  split at h
  · exact h
  · cases h

/-- The packet asks to begin a session. -/
def beginsV1 : V1Packet → Bool
  | .begin _ => true
  | _ => false

def preparesV2 : V2Payload → Bool
  | .prepare _ => true
  | _ => false

theorem handleData_active {r : OtaRx} {p : DataPacket} {answers : RxAnswers}
    (h : (handleData env r p answers).1.ota.active = true) : r.ota.active = true := by
  refine finishStaleAbort_active env r answers.now ?_
  rw [handleData] at h
  generalize r.finishStaleAbort env answers.now = r' at h ⊢
  dsimp only at h
  split at h
  · next hactive _ => exact hactive
  · exact h

theorem handleEnd_active {r : OtaRx} {p : EndPacket} {answers : RxAnswers}
    (h : (handleEnd env r p answers).1.ota.active = true) : r.ota.active = true := by
  rw [handleEnd] at h
  split at h
  · exact h
  · refine finishStaleAbort_active env r answers.now ?_
    generalize r.finishStaleAbort env answers.now = r' at h ⊢
    dsimp only at h
    split at h
    · exact h
    · next hactive => simpa using hactive

theorem handleV2Data_active {r : OtaRx} {c : V2Common} {bytes : Bytes} {answers : RxAnswers}
    (h : (handleV2Data env r c bytes answers).1.ota.active = true) : r.ota.active = true := by
  refine finishStaleAbort_active env r answers.now ?_
  rw [handleV2Data] at h
  generalize r.finishStaleAbort env answers.now = r' at h ⊢
  dsimp only at h
  split at h
  · next hactive _ => exact hactive
  · exact h

theorem handleV2Commit_active {r : OtaRx} {c : V2Common} {answers : RxAnswers}
    (h : (handleV2Commit env r c answers).1.ota.active = true) : r.ota.active = true := by
  rw [handleV2Commit] at h
  split at h
  · exact h
  · refine finishStaleAbort_active env r answers.now ?_
    generalize r.finishStaleAbort env answers.now = r' at h ⊢
    dsimp only at h
    split at h
    · exact h
    · next hsession =>
        push Not at hsession
        simpa using hsession.1

/-- Only a BEGIN packet starts a v1 session. -/
theorem handleRx_active {r : OtaRx} {packet : V1Packet} {answers : RxAnswers}
    (hbegin : beginsV1 packet = false)
    (h : (handleRx env r packet answers).1.ota.active = true) : r.ota.active = true := by
  cases packet with
  | begin p => cases hbegin
  | data p => exact handleData_active h
  | finish p => exact handleEnd_active h
  | abort p =>
      rw [handleRx, handleAbort] at h
      split at h
      · exact h
      · cases h
  | other err => exact h

/-- Only a PREPARE starts a v2 session. -/
theorem processV2Payload_active {r : OtaRx} {payload : V2Payload} {answers : RxAnswers}
    (hprepare : preparesV2 payload = false)
    (h : (processV2Payload env r payload answers).1.ota.active = true) :
    r.ota.active = true := by
  cases payload with
  | prepare c => cases hprepare
  | data c bytes => exact handleV2Data_active h
  | commit c => exact handleV2Commit_active h
  | abort c =>
      rw [processV2Payload, handleV2Abort] at h
      split at h
      · exact h
      · split at h
        · exact h
        · cases h
  | other err => exact h

end Rx

/-! ## Exclusion -/

variable {env : ChannelEnv}

/-- The payload makes the v3 receiver busy when it is handled. -/
def opensV3 (env : ChannelEnv) (payload : Bytes) : Bool :=
  (env.decodeMeshMessage payload).any preparesV3

/-- The payload may start a v2 session when it is handled. -/
def opensV2 (payload : Bytes) : Bool :=
  preparesV2 (v2Payload payload)

/-- The payload that a delivery is about to queue for the v3 worker. -/
def LinkTask.v3? : LinkTask → Option Bytes
  | .v3Send payload => some payload
  | _ => none

def LinkTask.v2? : LinkTask → Option Bytes
  | .v2Check payload => some payload
  | .v2Send payload => some payload
  | _ => none

section LinkTask

variable (payload : Bytes)

@[simp] theorem v3?_idle : LinkTask.idle.v3? = none := rfl

@[simp] theorem v3?_v3Send : (LinkTask.v3Send payload).v3? = some payload := rfl

@[simp] theorem v3?_v2Check : (LinkTask.v2Check payload).v3? = none := rfl

@[simp] theorem v3?_v2Send : (LinkTask.v2Send payload).v3? = none := rfl

@[simp] theorem v2?_idle : LinkTask.idle.v2? = none := rfl

@[simp] theorem v2?_v3Send : (LinkTask.v3Send payload).v2? = none := rfl

@[simp] theorem v2?_v2Check : (LinkTask.v2Check payload).v2? = some payload := rfl

@[simp] theorem v2?_v2Send : (LinkTask.v2Send payload).v2? = some payload := rfl

end LinkTask

/-- A v3 PREPARE is between the check of `rel_deliver_cb` and its handling. -/
def Channel.v3Waiting (s : Channel env) : Bool :=
  s.link.v3?.any (opensV3 env) || s.v3Queue.any (opensV3 env) ||
    s.v3Item.any (opensV3 env)

/-- A v2 PREPARE or v1 BEGIN is between its check and its handling. -/
def Channel.v2Waiting (s : Channel env) : Bool :=
  s.link.v2?.any opensV2 || s.v2Queue.any opensV2 || s.v2Item.any opensV2 ||
    s.v1Packet.any beginsV1

/-- The step lets a PREPARE or BEGIN pass its check while one of the other protocol
has passed its own and has not been handled. -/
def Channel.overtakes (s : Channel env) : ChannelEvent env → Bool
  | .deliver payload lockTaken =>
      if isV3Payload payload then
        !s.v2Active lockTaken && opensV3 env payload && s.v2Waiting
      else !s.v3Active lockTaken && opensV2 payload && s.v3Waiting
  | .v1Arrive packet lockTaken =>
      !s.v3Active lockTaken && beginsV1 packet && s.v3Waiting
  | _ => false

/-- The v1 or v2 session is active while the v3 receiver is active or verified. -/
def Channel.clash (s : Channel env) : Bool :=
  s.rx.ota.active && s.v3Busy

/-- The v1 and v2 receiver has the slot or is about to take it. -/
def Channel.v2Side (s : Channel env) : Bool :=
  s.rx.ota.active || s.v2Waiting

/-- The v3 receiver has the slot or is about to take it. -/
def Channel.v3Side (s : Channel env) : Bool :=
  s.v3Busy || s.v3Waiting

/-- The receivers exclude each other, counting what is on its way to them. -/
def Channel.Exclusive (s : Channel env) : Prop :=
  s.v2Side = true → s.v3Side = false

theorem Channel.Exclusive.mono {s s' : Channel env} (h : s.Exclusive)
    (hv2 : s'.v2Side = true → s.v2Side = true) (hv3 : s'.v3Side = true → s.v3Side = true) :
    s'.Exclusive := by
  intro hside
  have hfree := h (hv2 hside)
  rw [Bool.eq_false_iff] at hfree ⊢
  exact fun hno => hfree (hv3 hno)

theorem Channel.v2Side_eq (s : Channel env) :
    s.v2Side = (s.rx.ota.active || (s.link.v2?.any opensV2 || s.v2Queue.any opensV2 ||
      s.v2Item.any opensV2 || s.v1Packet.any beginsV1)) := rfl

theorem Channel.v3Side_eq (s : Channel env) :
    s.v3Side = (busy s.worker.receiver || (s.link.v3?.any (opensV3 env) ||
      s.v3Queue.any (opensV3 env) || s.v3Item.any (opensV3 env))) := rfl

section Steps

variable {s : Channel env} (h : s.Exclusive)
include h

theorem deliver_exclusive (payload : Bytes) (lockTaken : Bool)
    (hfair : s.overtakes (.deliver payload lockTaken) = false) :
    (s.deliver payload lockTaken).Exclusive := by
  rw [Channel.overtakes] at hfair
  rw [Channel.deliver]
  split
  · exact h
  · next hlink =>
      have hidle : s.link = .idle := not_not.mp hlink
      split
      · next hv3 =>
          rw [if_pos hv3] at hfair
          split
          · exact h
          · next hfree =>
              cases hopens : opensV3 env payload with
              | false =>
                  refine h.mono ?_ ?_
                  · simp [Channel.v2Side_eq, hidle]
                  · simp [Channel.v3Side_eq, hidle, hopens]
              | true =>
                  have hnone : s.v2Waiting = false := by simpa [hfree, hopens] using hfair
                  -- Nobody waits on the other side, and its session is not active.
                  intro hside
                  have hfree' : s.v2Side = false := by
                    simp only [Channel.v2Active, Bool.not_eq_true, Bool.or_eq_false_iff]
                      at hfree
                    rw [Channel.v2Side, hfree.2, hnone]
                    rfl
                  have hsame : Channel.v2Side { s with link := .v3Send payload } =
                      s.v2Side := by
                    simp [Channel.v2Side_eq, hidle]
                  rw [hsame, hfree'] at hside
                  cases hside
      · next hv2 =>
          rw [if_neg hv2] at hfair
          split
          · exact h
          · next hfree =>
              split
              · cases hopens : opensV2 payload with
                | false =>
                    refine h.mono ?_ ?_
                    · simp [Channel.v2Side_eq, hidle, hopens]
                    · simp [Channel.v3Side_eq, hidle]
                | true =>
                    have hnone : s.v3Waiting = false := by simpa [hfree, hopens] using hfair
                    intro _
                    have hsame : Channel.v3Side { s with link := .v2Check payload } =
                        s.v3Side := by
                      simp [Channel.v3Side_eq, hidle]
                    simp only [Channel.v3Active, Bool.not_eq_true, Bool.or_eq_false_iff]
                      at hfree
                    rw [hsame, Channel.v3Side, hfree.2, hnone]
                    rfl
              · exact h

theorem linkStep_exclusive (lockTaken : Bool) : (s.linkStep lockTaken).Exclusive := by
  rw [Channel.linkStep]
  split
  · exact h
  · next payload hlink =>
      refine h.mono ?_ ?_
      · simp [Channel.v2Side_eq, hlink]
      · rw [Channel.v3Side_eq, Channel.v3Side_eq, hlink]
        split
        · simp only [v3?_idle, v3?_v3Send, Option.any_none, Option.any_some, List.any_append,
            List.any_cons, List.any_nil, Bool.or_eq_true, Bool.or_false, Bool.false_or]
          tauto
        · simp only [v3?_idle, v3?_v3Send, Option.any_none, Option.any_some, Bool.or_eq_true,
            Bool.false_or]
          tauto
  · next payload hlink =>
      split
      · refine h.mono ?_ ?_
        · rw [Channel.v2Side_eq, Channel.v2Side_eq, hlink]
          simp only [v2?_idle, v2?_v2Check, Option.any_none, Option.any_some, Bool.or_eq_true,
            Bool.false_or]
          tauto
        · simp [Channel.v3Side_eq, hlink]
      · refine h.mono ?_ ?_
        · simp [Channel.v2Side_eq, hlink]
        · simp [Channel.v3Side_eq, hlink]
  · next payload hlink =>
      refine h.mono ?_ ?_
      · rw [Channel.v2Side_eq, Channel.v2Side_eq, hlink]
        split
        · simp only [v2?_idle, v2?_v2Send, Option.any_none, Option.any_some, List.any_append,
            List.any_cons, List.any_nil, Bool.or_eq_true, Bool.or_false, Bool.false_or]
          tauto
        · simp only [v2?_idle, v2?_v2Send, Option.any_none, Option.any_some, Bool.or_eq_true,
            Bool.false_or]
          tauto
      · simp [Channel.v3Side_eq, hlink]

theorem v1Arrive_exclusive (packet : V1Packet) (lockTaken : Bool)
    (hfair : s.overtakes (.v1Arrive packet lockTaken) = false) :
    (s.v1Arrive packet lockTaken).Exclusive := by
  rw [Channel.overtakes] at hfair
  rw [Channel.v1Arrive]
  split
  · exact h
  · next hfree =>
      rw [Bool.or_eq_true, not_or] at hfree
      have hempty : s.v1Packet = none := by simpa using hfree.1
      cases hbegin : beginsV1 packet with
      | false =>
          refine h.mono ?_ ?_
          · simp [Channel.v2Side_eq, hempty, hbegin]
          · simp [Channel.v3Side_eq]
      | true =>
          have hnone : s.v3Waiting = false := by simpa [hfree.2, hbegin] using hfair
          intro _
          have hidle := hfree.2
          simp only [Channel.v3Active, Bool.not_eq_true, Bool.or_eq_false_iff] at hidle
          rw [Channel.v3Side, Bool.or_eq_false_iff]
          exact ⟨hidle.2, hnone⟩

theorem v1Handle_exclusive (answers : RxAnswers) :
    (s.step (.v1Handle answers)).Exclusive := by
  rw [Channel.step]
  cases hpacket : s.v1Packet with
  | none => exact h
  | some packet =>
      refine h.mono ?_ ?_
      · rw [Channel.v2Side_eq, Channel.v2Side_eq, hpacket]
        simp only [Option.any_none, Option.any_some, Bool.or_false, Bool.or_eq_true]
        cases hbegin : beginsV1 packet with
        | true => tauto
        | false =>
            have hkeep : (handleRx env.rx s.rx packet answers).1.ota.active = true →
                s.rx.ota.active = true := handleRx_active hbegin
            tauto
      · simp [Channel.v3Side_eq]

theorem v2Handle_exclusive (answers : RxAnswers) :
    (s.step (.v2Handle answers)).Exclusive := by
  rw [Channel.step]
  cases hitem : s.v2Item with
  | none => exact h
  | some payload =>
      refine h.mono ?_ ?_
      · rw [Channel.v2Side_eq, Channel.v2Side_eq, hitem]
        simp only [Option.any_none, Option.any_some, Bool.or_false, Bool.or_eq_true]
        cases hprepare : opensV2 payload with
        | true => tauto
        | false =>
            have hkeep : (processV2Payload env.rx s.rx (v2Payload payload)
                answers).1.ota.active = true → s.rx.ota.active = true :=
              processV2Payload_active hprepare
            tauto
      · simp [Channel.v3Side_eq]

theorem v2Take_exclusive : (s.step .v2Take).Exclusive := by
  rw [Channel.step]
  cases hitem : s.v2Item with
  | some payload => exact h
  | none =>
      cases hqueue : s.v2Queue with
      | nil => exact h
      | cons payload rest =>
          refine h.mono ?_ ?_
          · rw [Channel.v2Side_eq, Channel.v2Side_eq, hitem, hqueue]
            simp only [Option.any_none, Option.any_some, List.any_cons, Bool.or_eq_true,
              Bool.or_false]
            tauto
          · simp [Channel.v3Side_eq]

theorem v3Take_exclusive : (s.step .v3Take).Exclusive := by
  rw [Channel.step]
  cases hitem : s.v3Item with
  | some payload => exact h
  | none =>
      cases hqueue : s.v3Queue with
      | nil => exact h
      | cons payload rest =>
          refine h.mono ?_ ?_
          · simp [Channel.v2Side_eq]
          · rw [Channel.v3Side_eq, Channel.v3Side_eq, hitem, hqueue]
            simp only [Option.any_none, Option.any_some, List.any_cons, Bool.or_eq_true,
              Bool.or_false]
            tauto

theorem v3Handle_exclusive (answers : WorkerAnswers env.worker.toReceiverEnv) :
    (s.v3Handle answers).Exclusive := by
  rw [Channel.v3Handle]
  cases hitem : s.v3Item with
  | none => exact h
  | some payload =>
      cases hmessage : env.decodeMeshMessage payload with
      | none =>
          simp only [hmessage]
          refine h.mono ?_ ?_
          · simp [Channel.v2Side_eq]
          · rw [Channel.v3Side_eq, Channel.v3Side_eq, hitem]
            simp only [Option.any_none, Option.any_some, Bool.or_eq_true, Bool.or_false]
            tauto
      | some message =>
          simp only [hmessage]
          refine h.mono ?_ ?_
          · simp [Channel.v2Side_eq]
          · rw [Channel.v3Side_eq, Channel.v3Side_eq, hitem]
            simp only [Option.any_none, Option.any_some, Bool.or_eq_true, Bool.or_false]
            have hopens : opensV3 env payload = preparesV3 message := by
              rw [opensV3, hmessage, Option.any_some]
            rw [hopens]
            cases hprepare : preparesV3 message with
            | true => tauto
            | false =>
                have hkeep : busy (s.worker.step (.message message answers)).receiver = true →
                    busy s.worker.receiver = true := message_busy hprepare
                tauto

theorem step_exclusive (event : ChannelEvent env) (hfair : s.overtakes event = false) :
    (s.step event).Exclusive := by
  cases event with
  | deliver payload lockTaken => exact deliver_exclusive h payload lockTaken hfair
  | link lockTaken => exact linkStep_exclusive h lockTaken
  | v1Arrive packet lockTaken => exact v1Arrive_exclusive h packet lockTaken hfair
  | v1Handle answers => exact v1Handle_exclusive h answers
  | v1Timeout =>
      refine h.mono ?_ ?_
      · rw [Channel.step, Channel.v2Side_eq, Channel.v2Side_eq]
        simp only [Option.any_none, Bool.or_eq_true, Bool.or_false]
        tauto
      · simp [Channel.step, Channel.v3Side_eq]
  | v2Take => exact v2Take_exclusive h
  | v2Handle answers => exact v2Handle_exclusive h answers
  | v2Timeout =>
      refine h.mono ?_ ?_
      · rw [Channel.step, Channel.v2Side_eq, Channel.v2Side_eq]
        simp only [Option.any_none, Bool.or_eq_true, Bool.or_false]
        tauto
      · simp [Channel.step, Channel.v3Side_eq]
  | v3Take => exact v3Take_exclusive h
  | v3Handle answers => exact v3Handle_exclusive h answers
  | v3Idle answers =>
      rw [Channel.step]
      split
      · refine h.mono ?_ ?_
        · simp [Channel.v2Side_eq]
        · rw [Channel.v3Side_eq, Channel.v3Side_eq]
          simp only [Bool.or_eq_true]
          have hkeep : busy (s.worker.step (.idle answers)).receiver = true →
              busy s.worker.receiver = true := idle_busy
          tauto
      · exact h
  | watchdog now =>
      refine h.mono ?_ ?_
      · rw [Channel.step, Channel.v2Side_eq, Channel.v2Side_eq]
        simp only [Bool.or_eq_true]
        have hkeep := finishStaleAbort_active env.rx s.rx now
        tauto
      · simp [Channel.step, Channel.v3Side_eq]
  | restart running now =>
      intro _
      rfl

end Steps

/-! ## Runs -/

/-- No step of the run overtakes. -/
def Channel.keepsTurns (s : Channel env) : List (ChannelEvent env) → Bool
  | [] => true
  | event :: events => !s.overtakes event && (s.step event).keepsTurns events

theorem run_exclusive {s : Channel env} (h : s.Exclusive) (events : List (ChannelEvent env))
    (hturns : s.keepsTurns events = true) : (s.run events).Exclusive := by
  induction events generalizing s with
  | nil => exact h
  | cons event events ih =>
      rw [Channel.keepsTurns, Bool.and_eq_true, Bool.not_eq_true'] at hturns
      exact ih (step_exclusive h event hturns.1) hturns.2

/-- In every run in which nothing overtakes, no v1 or v2 session is active while the v3
receiver is active or verified. -/
theorem run_no_clash (worker : Worker env.worker) (events : List (ChannelEvent env))
    (hturns : (Channel.boot worker : Channel env).keepsTurns events = true) :
    ((Channel.boot worker).run events).clash = false := by
  have hstart : (Channel.boot worker : Channel env).Exclusive := fun _ => rfl
  have hfinal := run_exclusive hstart events hturns
  rw [Channel.clash, Bool.and_eq_false_iff]
  by_cases hactive : ((Channel.boot worker).run events).rx.ota.active = true
  · have hside : ((Channel.boot worker).run events).v2Side = true := by
      rw [Channel.v2Side, hactive]
      rfl
    have hfree := hfinal hside
    rw [Channel.v3Side, Bool.or_eq_false_iff] at hfree
    exact Or.inr hfree.1
  · exact Or.inl (Bool.eq_false_iff.mpr hactive)

/-! ## Two transfers at once -/

/-- The v2 PREPARE of operation `7` for an image of two bytes. -/
def v2PrepareBytes : Bytes :=
  [1, 0, 0, 0] ++ MeshNode.toBytes 4 7 ++ MeshNode.toBytes 4 2 ++ MeshNode.toBytes 4 0 ++
    MeshNode.toBytes 4 1024 ++ 0x70 :: List.replicate 159 0

/-- The PREPARE of the one-byte image, encoded. -/
def v3PrepareBytes : Bytes :=
  let id : Bytes := 9 :: MeshNode.toBytes 8 1 ++ 17 :: MeshNode.toBytes 8 2
  let prepare := OtaV3.bytesField 1 id ++
    OtaV3.bytesField 2 OtaV3.letterSignedSha256.toList ++
    OtaV3.bytesField 3 OtaV3.letterSigned ++
    OtaV3.bytesField 4 OtaV3.letterSignature.toList ++
    OtaV3.varintField 5 2048 ++ OtaV3.varintField 6 4
  OtaV3.bytesField 1 (OtaV3.bytesField 1 prepare)

def smallChannelEnv : ChannelEnv where
  rx := smallRxEnv
  worker := OtaV3.twoSlotsWorker
  decodeMeshMessage := fun bytes =>
    if bytes = v3PrepareBytes then some (.transfer OtaV3.letterPrepare) else none

/-- A device on which nothing has been written. -/
def freshWorker : Worker smallChannelEnv.worker :=
  Worker.factory OtaV3.twoSlotsWorker (fun _ => []) OtaV3.otaZero 0

/-- The v2 PREPARE is handled before the v3 PREPARE is delivered. -/
def oneAfterTheOther : List (ChannelEvent smallChannelEnv) :=
  [.deliver v2PrepareBytes false, .link false, .link false, .v2Take, .v2Handle allOk,
    .deliver v3PrepareBytes false, .link false, .v3Take, .v3Handle OtaV3.smoothWorker]

theorem run_no_clash_oneAfterTheOther :
    ((Channel.boot freshWorker).run oneAfterTheOther).rx.ota.active = true ∧
      ((Channel.boot freshWorker).run oneAfterTheOther).clash = false :=
  ⟨by decide +kernel, run_no_clash freshWorker oneAfterTheOther (by decide +kernel)⟩

/-- Both PREPAREs pass their checks before either is handled. -/
theorem run_clash :
    ((Channel.boot freshWorker).run
      [.deliver v2PrepareBytes false, .link false, .link false,
        .deliver v3PrepareBytes false, .link false, .v2Take, .v2Handle allOk, .v3Take,
        .v3Handle OtaV3.smoothWorker] : Channel smallChannelEnv).clash = true := by
  decide +kernel

end KeemashCore.OtaReceiver
