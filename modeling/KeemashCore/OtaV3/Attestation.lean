import KeemashCore.OtaV3.Selection
import KeemashCore.OtaV3.Worker

/-!
# Attesting a boot

Once an image is selected for boot, its record should stay in the journal until
the root has acknowledged a report, and no report should judge the image before
the device has restarted.  Between the selection and the restart the worker goes
on when its last status cannot be sent, and then neither holds without more;
`Undoes` and `ReportsEarly` say exactly which events break them.
-/

namespace KeemashCore.OtaV3

variable {env : WorkerEnv}

/-! ## What sending leaves alone -/

section

variable (w : Worker env) (answers : WorkerAnswers env.toReceiverEnv)

theorem sendStatus_same (request : OtaTransfer) (phase : OtaPhase) (result : EspErr)
    (text : String) (answer : EspErr) :
    ∃ statuses, (w.sendStatus request phase result text answer).2 =
      { w with statuses := statuses } := by
  simp only [Worker.sendStatus]
  split
  · exact ⟨w.statuses, rfl⟩
  · split
    · exact ⟨_, rfl⟩
    · exact ⟨w.statuses, rfl⟩

theorem sendPendingBootReport_same :
    ∃ reports, (w.sendPendingBootReport answers).2 = { w with reports := reports } := by
  simp only [Worker.sendPendingBootReport]
  split
  · exact ⟨w.reports, rfl⟩
  · split
    · exact ⟨w.reports, rfl⟩
    · split
      · exact ⟨w.reports, rfl⟩
      · split
        · exact ⟨_, rfl⟩
        · exact ⟨w.reports, rfl⟩

end

/-! ## Reports -/

/-- A report that judges an image comes after the restart that boots it. -/
def SentReport.Timely (sent : SentReport) : Prop :=
  reportTerminal sent.report.state = true → sent.report.operationId ∉ sent.selected

/-- The journal waits for the boot of an image that was selected since the last
restart, and that image is not under verification. -/
def Worker.AwaitsRestart (w : Worker env) (image : Except EspErr OtaImgState) : Prop :=
  ∃ cp fields, w.device.load env.toReceiverEnv = .ok cp ∧ cp.phase = checkpointBootPending ∧
    verifySignedFields env.toOtaEnv cp.signedFields cp.signature.toList = .ok fields ∧
    copyOperation cp.operationId ∈ w.selectedSinceRestart ∧
    ¬(w.device.running.label = cString cp.partitionLabel ∧
      (image = .ok .new ∨ image = .ok .pendingVerify))

/-- The mesh takes a boot report. -/
def WorkerAnswers.TakesReport {env : ReceiverEnv} (answers : WorkerAnswers env) : Prop :=
  answers.reliableReady = true ∧ (∃ identity, answers.identity = .ok identity) ∧
    answers.sendReport = .ok

/-- The event has the worker report on an image that still waits for its restart:
a query, or the end of a report period. -/
def Worker.ReportsEarly (w : Worker env) : WorkerEvent env.toReceiverEnv → Prop
  | .message (.transfer (.query _ _)) answers =>
      answers.TakesReport ∧ w.AwaitsRestart answers.image
  | .idle answers =>
      (w.giveUp answers).1.isSome = true ∧ answers.TakesReport ∧
        (w.giveUp answers).2.AwaitsRestart answers.image
  | _ => False

theorem bootVerdict_terminal (targetRuns : Bool) (image : Except EspErr OtaImgState) :
    reportTerminal (bootVerdict targetRuns image).1 = true ↔
      ¬(targetRuns = true ∧ (image = .ok .new ∨ image = .ok .pendingVerify)) := by
  cases targetRuns with
  | false => simp [bootVerdict, reportTerminal]
  | true =>
      match image with
      | .error err => simp [bootVerdict, reportTerminal]
      | .ok .new => simp [bootVerdict, reportTerminal]
      | .ok .pendingVerify => simp [bootVerdict, reportTerminal]
      | .ok .valid => simp [bootVerdict, reportTerminal]
      | .ok .invalid => simp [bootVerdict, reportTerminal]
      | .ok .aborted => simp [bootVerdict, reportTerminal]
      | .ok .undefined => simp [bootVerdict, reportTerminal]

/-- What a report says. -/
theorem bootReport_ok {env : ReceiverEnv} {d : Device} {nodeId : Id128} {bootSession : ℕ}
    {image : Except EspErr OtaImgState} {report : OtaBootReport}
    (h : bootReport env d nodeId bootSession image = .ok report) :
    ∃ cp fields, d.load env = .ok cp ∧ cp.phase = checkpointBootPending ∧
      verifySignedFields env.toOtaEnv cp.signedFields cp.signature.toList = .ok fields ∧
      report.operationId = copyOperation cp.operationId ∧ report.artifactId = cp.artifactId ∧
      report.state = (bootVerdict (d.running.label = cString cp.partitionLabel) image).1 := by
  simp only [bootReport] at h
  split at h
  · cases h
  · next cp hload =>
      split at h
      · cases h
      · next hphase =>
          split at h
          · cases h
          · next fields hverified =>
              cases h
              exact ⟨cp, fields, hload, Decidable.not_not.mp hphase, hverified, rfl, rfl, rfl⟩

theorem bootReport_isOk {env : ReceiverEnv} {d : Device} {cp : Checkpoint}
    {fields : SignedFields} (hload : d.load env = .ok cp)
    (hphase : cp.phase = checkpointBootPending)
    (hverified : verifySignedFields env.toOtaEnv cp.signedFields cp.signature.toList = .ok fields)
    (nodeId : Id128) (bootSession : ℕ) (image : Except EspErr OtaImgState) :
    ∃ report, bootReport env d nodeId bootSession image = .ok report := by
  rw [Device.load] at hload
  simp only [bootReport, hload, hphase, hverified, ne_eq, not_true_eq_false, if_false]
  exact ⟨_, rfl⟩

/-- A report is untimely exactly when its image waits for a restart. -/
theorem timely_iff {w : Worker env} {nodeId : Id128} {bootSession : ℕ}
    {image : Except EspErr OtaImgState} {report : OtaBootReport}
    (h : bootReport env.toReceiverEnv w.device nodeId bootSession image = .ok report) :
    SentReport.Timely ⟨report, w.selectedSinceRestart⟩ ↔ ¬w.AwaitsRestart image := by
  obtain ⟨cp, fields, hload, hphase, hverified, hoperation, -, hstate⟩ := bootReport_ok h
  constructor
  · rintro htimely ⟨cp', -, hload', -, -, hselected, himage⟩
    obtain rfl : cp = cp' := Except.ok.inj (hload.symm.trans hload')
    refine htimely ?_ (hoperation ▸ hselected)
    simp only [hstate]
    rw [bootVerdict_terminal]
    simpa using himage
  · intro hno hterminal hselected
    simp only [hstate] at hterminal
    rw [bootVerdict_terminal] at hterminal
    simp only [hoperation] at hselected
    exact hno ⟨cp, fields, hload, hphase, hverified, hselected, by simpa using hterminal⟩

/-- The reports after `send_pending_boot_report` are timely exactly when those
before are and this one, if it is sent, does not come before a restart. -/
theorem sendPendingBootReport_timely (w : Worker env)
    (answers : WorkerAnswers env.toReceiverEnv) :
    (∀ sent ∈ (w.sendPendingBootReport answers).2.reports, sent.Timely) ↔
      (∀ sent ∈ w.reports, sent.Timely) ∧
        ¬(answers.TakesReport ∧ w.AwaitsRestart answers.image) := by
  have hsame (hno : ¬(answers.TakesReport ∧ w.AwaitsRestart answers.image)) :
      (∀ sent ∈ w.reports, sent.Timely) ↔ (∀ sent ∈ w.reports, sent.Timely) ∧
        ¬(answers.TakesReport ∧ w.AwaitsRestart answers.image) :=
    ⟨fun h => ⟨h, hno⟩, fun h => h.1⟩
  simp only [Worker.sendPendingBootReport]
  split
  · next hready =>
      refine hsame fun htakes => ?_
      rw [htakes.1.1] at hready
      cases hready
  · next hready =>
      split
      · next err hidentity =>
          refine hsame fun htakes => ?_
          obtain ⟨identity, hok⟩ := htakes.1.2.1
          rw [hidentity] at hok
          cases hok
      · next nodeId bootSession hidentity =>
          split
          · next err hreport =>
              refine hsame fun htakes => ?_
              obtain ⟨cp, fields, hload, hphase, hverified, -⟩ := htakes.2
              obtain ⟨report, hok⟩ :=
                bootReport_isOk hload hphase hverified nodeId bootSession answers.image
              rw [hreport] at hok
              cases hok
          · next report hreport =>
              by_cases hsend : answers.sendReport = .ok
              · have htakes : answers.TakesReport :=
                  ⟨by simpa using hready, ⟨_, hidentity⟩, hsend⟩
                have htimely := timely_iff hreport
                simp only [if_pos hsend, List.mem_append, List.mem_singleton]
                constructor
                · intro hall
                  refine ⟨fun sent hsent => hall sent (Or.inl hsent), fun hearly => ?_⟩
                  exact htimely.mp (hall _ (Or.inr rfl)) hearly.2
                · rintro ⟨hold, hno⟩ sent hsent
                  rcases hsent with hsent | rfl
                  · exact hold sent hsent
                  · exact htimely.mpr fun hawaits => hno ⟨htakes, hawaits⟩
              · simp only [if_neg hsend]
                exact hsame fun htakes => hsend htakes.1.2.2

theorem settle_reports (w : Worker env) (outcome : Outcome env.toReceiverEnv)
    (answers : WorkerAnswers env.toReceiverEnv) :
    (w.settle outcome answers).2.reports = w.reports := by
  obtain ⟨reply, d⟩ := outcome
  cases reply <;> rfl

theorem sendStatus_reports (w : Worker env) (request : OtaTransfer) (phase : OtaPhase)
    (result : EspErr) (text : String) (answer : EspErr) :
    (w.sendStatus request phase result text answer).2.reports = w.reports := by
  obtain ⟨statuses, hsame⟩ := sendStatus_same w request phase result text answer
  rw [hsame]

theorem processTransfer_reports (w : Worker env) (transfer : OtaTransfer)
    (answers : WorkerAnswers env.toReceiverEnv) :
    (w.processTransfer transfer answers).reports = w.reports := by
  have hactivated (w : Worker env) : (w.activated transfer answers).reports = w.reports := by
    simp only [Worker.activated]
    split <;> exact sendStatus_reports w _ _ _ _ _
  have hactivate (w : Worker env) :
      (w.activateVerified transfer answers).reports = w.reports := by
    have hsettle := settle_reports w (activate w.device w.receiver answers.activate) answers
    simp only [Worker.activateVerified]
    split
    · next w' heq =>
        rw [heq] at hsettle
        exact hsettle
    · next reply w' heq =>
        rw [heq] at hsettle
        split
        · exact (sendStatus_reports w' _ _ _ _ _).trans hsettle
        · exact (hactivated _).trans hsettle
  have hsettle := settle_reports w
    (handleTransfer w.device w.receiver env.target transfer answers.transfer) answers
  simp only [Worker.processTransfer]
  split
  · next w' heq =>
      rw [heq] at hsettle
      exact hsettle
  · next reply w' heq =>
      rw [heq] at hsettle
      split
      · exact (sendStatus_reports w' _ _ _ _ _).trans hsettle
      · split
        · exact (hactivate w').trans hsettle
        · split <;> exact (sendStatus_reports w' _ _ _ _ _).trans hsettle

/-- An event keeps the reports timely exactly when it does not report early. -/
theorem step_timely (w : Worker env) (event : WorkerEvent env.toReceiverEnv) :
    (∀ sent ∈ (w.step event).reports, sent.Timely) ↔
      (∀ sent ∈ w.reports, sent.Timely) ∧ ¬w.ReportsEarly event := by
  have hquiet (reports : List SentReport) (hreports : reports = w.reports)
      (hno : ¬w.ReportsEarly event) : (∀ sent ∈ reports, sent.Timely) ↔
        (∀ sent ∈ w.reports, sent.Timely) ∧ ¬w.ReportsEarly event := by
    rw [hreports]
    exact ⟨fun h => ⟨h, hno⟩, fun h => h.1⟩
  cases event with
  | restart running now => exact hquiet _ rfl (fun hno => hno)
  | idle answers =>
      have hgiveUp : (w.giveUp answers).2.reports = w.reports := by
        simp only [Worker.giveUp]
        split
        · exact settle_reports w _ answers
        · rfl
      simp only [Worker.step, Worker.ReportsEarly]
      cases hreply : (w.giveUp answers) with
      | mk reply w' =>
          rw [hreply] at hgiveUp
          cases reply with
          | none =>
              simp only at hgiveUp
              simp [hgiveUp]
          | some reply =>
              simp only [Option.isSome_some, true_and]
              rw [sendPendingBootReport_timely, hgiveUp]
  | message message answers =>
      cases message with
      | other => exact hquiet _ rfl (fun hno => hno)
      | bootAck ack =>
          refine hquiet _ ?_ (fun hno => hno)
          simp only [Worker.step, Worker.processMessage, Worker.processAck]
          split <;> rfl
      | transfer transfer =>
          cases transfer with
          | query operationId artifactId =>
              simp only [Worker.step, Worker.processMessage, Worker.ReportsEarly]
              rw [← sendPendingBootReport_timely]
              split
              · rfl
              · rw [processTransfer_reports]
          | commit operationId artifactId blockTableSha256 imageSha256 =>
              refine hquiet _ ?_ (fun hno => hno)
              simp only [Worker.step, Worker.processMessage]
              rw [processTransfer_reports, sendStatus_reports]
          | prepare operationId artifactId signedFields signature chunkSize window =>
              exact hquiet _ (processTransfer_reports w _ answers) (fun hno => hno)
          | data operationId artifactId block offset data finalChunk =>
              exact hquiet _ (processTransfer_reports w _ answers) (fun hno => hno)
          | abort operationId artifactId =>
              exact hquiet _ (processTransfer_reports w _ answers) (fun hno => hno)
          | other => exact hquiet _ (processTransfer_reports w _ answers) (fun hno => hno)

theorem runWorker_snoc (w : Worker env) (events : List (WorkerEvent env.toReceiverEnv))
    (event : WorkerEvent env.toReceiverEnv) :
    runWorker w (events ++ [event]) = (runWorker w events).step event := by
  simp [runWorker]

/-- Every event of the run satisfies the condition in the state it meets. -/
def RunKeeps (condition : Worker env → WorkerEvent env.toReceiverEnv → Prop) (w : Worker env)
    (events : List (WorkerEvent env.toReceiverEnv)) : Prop :=
  ∀ before event after, events = before ++ event :: after →
    condition (runWorker w before) event

theorem runKeeps_nil {condition : Worker env → WorkerEvent env.toReceiverEnv → Prop}
    {w : Worker env} : RunKeeps condition w [] :=
  fun before event after heq => by simp at heq

theorem runKeeps_snoc {condition : Worker env → WorkerEvent env.toReceiverEnv → Prop}
    {w : Worker env} {events : List (WorkerEvent env.toReceiverEnv)}
    {event : WorkerEvent env.toReceiverEnv} :
    RunKeeps condition w (events ++ [event]) ↔
      RunKeeps condition w events ∧ condition (runWorker w events) event := by
  constructor
  · intro h
    refine ⟨fun before e after heq => h before e (after ++ [event]) (by simp [heq]), ?_⟩
    exact h events event [] rfl
  · rintro ⟨hold, hlast⟩ before e after heq
    rcases List.eq_nil_or_concat' after with rfl | ⟨after', last, rfl⟩
    · obtain ⟨rfl, rfl⟩ := List.append_inj' heq rfl |>.imp id fun h => (List.cons.inj h).1
      exact hlast
    · rw [← List.cons_append, ← List.append_assoc] at heq
      exact hold before e after' (List.append_inj_left' heq rfl)

/-- No report judges an image before the restart that boots it exactly when no
query and no end of a report period comes, with the mesh taking reports, while the
journal waits for that restart. -/
theorem runWorker_timely (flash : Partition → Bytes) (running : Partition) (now : U32)
    (events : List (WorkerEvent env.toReceiverEnv)) :
    (∀ sent ∈ (runWorker (.factory env flash running now) events).reports, sent.Timely) ↔
      RunKeeps (fun w event => ¬w.ReportsEarly event) (.factory env flash running now)
        events := by
  induction events using List.reverseRecOn with
  | nil =>
      exact ⟨fun _ => runKeeps_nil, fun _ sent hsent => (nomatch hsent)⟩
  | append_singleton events event ih =>
      rw [runWorker_snoc, step_timely, ih, runKeeps_snoc]

/-! ## A query before the restart -/

instance : DecidablePred SentReport.Timely := fun sent =>
  inferInstanceAs (Decidable (reportTerminal sent.report.state = true → _))

def twoSlotsWorker : WorkerEnv :=
  { twoSlots with
    target := letterTarget
    maxWindow := 4
    tickRateHz := 100
    errToName := fun _ => "error" }

/-- Everything succeeds, and the image is new. -/
def smoothWorker : WorkerAnswers twoSlotsWorker.toReceiverEnv where
  transfer := smooth
  activate := smooth
  ackClear := some .done
  reliableReady := true
  identity := .ok (⟨3, 4⟩, 5)
  image := .ok .valid
  sendReport := .ok
  sendVerifying := .ok
  sendStatus := .ok
  restarted := otaOne
  now := 0

/-- The image is transferred and selected, but the status that announces the
restart cannot be sent. -/
def unannounced : List (WorkerEvent twoSlotsWorker.toReceiverEnv) :=
  [.message (.transfer letterPrepare) smoothWorker, .message (.transfer letterData) smoothWorker,
    .message (.transfer letterCommit) { smoothWorker with sendStatus := .timeout }]

/-- A query then reports that the image was rolled back. -/
theorem runWorker_early :
    ¬∀ sent ∈ (runWorker (.factory twoSlotsWorker (fun _ => []) otaZero 0)
      (unannounced ++ [.message (.transfer (.query (some ⟨1, 2⟩) letterSignedSha256.toList))
        smoothWorker])).reports, sent.Timely := by
  decide +kernel

/-! ## The record of an activation -/

section

variable {env : ReceiverEnv}

/-- The journal waits for the boot of the activation. -/
def Device.Attests (env : ReceiverEnv) (d : Device) (a : Activation) : Prop :=
  ∃ cp, d.load env = .ok cp ∧ cp.phase = checkpointBootPending ∧
    cp.operationId = a.operationId ∧ cp.artifactId = a.artifactId ∧
    cString cp.partitionLabel = a.label

/-- The receiver does not write, and holds no other image verified. -/
structure Receiver.Stays (r : Receiver env) (a : Activation) : Prop where
  idle : r.active = false
  same : r.verified = true → r.operationId = a.operationId ∧ r.artifactId = a.artifactId ∧
    ∃ p, r.partition = some p ∧ p.label = a.label

theorem stays_zero (a : Activation) : (Receiver.zero env).Stays a :=
  ⟨rfl, fun hverified => (nomatch hverified)⟩

theorem Device.After.attests {d d' : Device} {a : Activation} (h : d.Attests env a)
    (hafter : d.After env d' (d.load env)) : d'.Attests env a := by
  rw [Device.Attests, hafter.load]
  exact h

theorem Device.After.refl {d : Device} (h : d.Sound env) : d.After env d (d.load env) :=
  ⟨h, rfl, rfl, rfl, rfl⟩

/-- Giving up the transfer clears the journal. -/
def Answers.Clears (answers : Answers env) : Prop :=
  answers.clear = some .done

theorem clear_ok_iff (d : Device) (write : Option (NvsWrite env.toJournalEnv)) :
    (d.clear write).1 = some .ok ↔ write = some .done := by
  cases write with
  | none => simp [Device.clear]
  | some write =>
      cases write with
      | done => simp [Device.clear, checkpointClear, writeRecord]
      | torn left invalid => simp [Device.clear, checkpointClear, writeRecord]
      | refused error isError => simp [Device.clear, checkpointClear, writeRecord, isError]

theorem save_ok_iff (d : Device) (cp : Checkpoint)
    (write : Option (NvsWrite env.toJournalEnv)) :
    (d.save cp write).1 = some .ok ↔
      write = some .done ∧ saveRejects env.toJournalEnv cp = false := by
  cases write with
  | none => simp [Device.save]
  | some write =>
      by_cases hreject : saveRejects env.toJournalEnv cp = true
      · simp [Device.save, checkpointSave, hreject]
      · cases write with
        | done => simp [Device.save, checkpointSave, writeRecord, hreject]
        | torn left invalid => simp [Device.save, checkpointSave, writeRecord, hreject]
        | refused error isError =>
            simp [Device.save, checkpointSave, writeRecord, hreject, isError]

/-- What `keemash_ota_v3_flash_receiver_abort_current` does to a receiver that is
not idle. -/
theorem abortCurrent_after {d : Device} {r : Receiver env} (hsound : d.Sound env)
    (answers : Answers env)
    (hroom : (abortCurrent d r answers).2.journalWrites < generationLimit) :
    (¬answers.Clears ∨ (r.active = false ∧ r.verified = false) →
      d.After env (abortCurrent d r answers).2 (d.load env) ∧
        ((abortCurrent d r answers).receiver = r ∨
          (abortCurrent d r answers).receiver = Receiver.zero env)) ∧
    (answers.Clears → (r.active = true ∨ r.verified = true) →
      d.After env (abortCurrent d r answers).2 (.error .notFound) ∧
        ∃ reply, (abortCurrent d r answers).1 = some reply) := by
  have hafter := fun hroom => Device.clear_after hsound answers.clear hroom
  have hok := clear_ok_iff d answers.clear
  simp only [abortCurrent] at hroom ⊢
  by_cases hidle : r.active = false ∧ r.verified = false
  · simp only [if_pos hidle]
    refine ⟨fun _ => ⟨.refl hsound, Or.inl rfl⟩, fun _ hbusy => ?_⟩
    rw [hidle.1, hidle.2] at hbusy
    simp at hbusy
  · simp only [if_neg hidle] at hroom ⊢
    rw [Answers.Clears, ← hok]
    generalize d.clear answers.clear = cleared at hafter hroom ⊢
    obtain ⟨res, d'⟩ := cleared
    cases res with
    | none =>
        exact ⟨fun _ => ⟨hafter hroom, Or.inr rfl⟩, fun hclears => (by cases hclears)⟩
    | some err =>
        simp only at hroom ⊢
        by_cases herr : err = .ok
        · subst herr
          simp only [ne_eq, not_true_eq_false, if_false] at hroom ⊢
          refine ⟨fun hno => ?_, fun _ _ => ⟨hafter hroom, _, rfl⟩⟩
          rcases hno with hno | hno
          · exact hno.elim
          · exact absurd hno hidle
        · simp only [ne_eq, herr, not_false_eq_true, if_true] at hroom ⊢
          have hsame := hafter hroom
          rw [if_neg (by simpa using herr)] at hsame
          exact ⟨fun _ => ⟨hsame, Or.inl rfl⟩, fun hclears => absurd hclears (by simpa using herr)⟩

/-- The message gives up the image that the receiver holds, and the journal takes
it. -/
def Receiver.GivesUp (r : Receiver env) (answers : Answers env) : OtaTransfer → Prop
  | .abort (some id) artifactId => r.matchingTransfer id artifactId = true ∧ answers.Clears
  | _ => False

/-- A repeated commit of the image that the receiver holds verified. -/
def Receiver.Recommits (r : Receiver env) : OtaTransfer → Prop
  | .commit (some id) artifactId blockTableSha256 imageSha256 =>
      r.verified = true ∧ r.matchingTransfer id artifactId = true ∧
        blockTableSha256 = r.fields.blockTableSha256.toList ∧
        imageSha256 = r.fields.imageSha256.toList
  | _ => False

theorem matchingTransfer_iff {r : Receiver env} {id : Id128} {artifactId : Bytes} :
    r.matchingTransfer id artifactId = true ↔ ∃ artifact,
      asVector? 32 artifactId = some artifact ∧ (r.active = true ∨ r.verified = true) ∧
        r.sameOperation (operationBytes id) artifact = true := by
  simp only [Receiver.matchingTransfer]
  cases asVector? 32 artifactId with
  | none => simp
  | some artifact =>
      simp only [Option.some.injEq, exists_eq_left']
      by_cases hidle : r.active = false ∧ r.verified = false
      · simp [hidle]
      · rw [if_neg hidle]
        have hbusy : r.active = true ∨ r.verified = true := by
          by_contra hno
          simp only [not_or, Bool.not_eq_true] at hno
          exact hidle hno
        simp [hbusy]

/-- A call leaves the record of an activation, and returns a verified partition only
for a repeated commit. -/
structure Leaves (d : Device) (r : Receiver env) (a : Activation) (recommits : Prop)
    (outcome : Outcome env) : Prop where
  after : d.After env outcome.2 (d.load env)
  stays : outcome.receiver.Stays a
  verified : ∀ reply, outcome.1 = some reply → reply.verified.isSome = true →
    reply.receiver = r ∧ recommits

theorem Leaves.same {d : Device} {r : Receiver env} {a : Activation} (hsound : d.Sound env)
    (hstays : r.Stays a) (recommits : Prop) (err : EspErr) :
    Leaves d r a recommits (some ⟨err, none, r⟩, d) :=
  ⟨.refl hsound, hstays, fun reply hreply hsome => by cases hreply; cases hsome⟩

theorem prepare_leaves {d : Device} {r : Receiver env} {a : Activation}
    (hsound : d.Sound env) (hattests : d.Attests env a) (hstays : r.Stays a)
    (target : Target) (operationId : Vector UInt8 16) (artifactId : Digest)
    (signedFields : Bytes) (signature : Vector UInt8 64) (answers : Answers env)
    (recommits : Prop) :
    Leaves d r a recommits
      (prepare d r target operationId artifactId signedFields signature answers) := by
  obtain ⟨cp, hload, hphase, hoperation, hartifact, hlabel⟩ := hattests
  have hsame := Leaves.same hsound hstays recommits
  have hload' : checkpointLoad env.toJournalEnv d.nvs = .ok cp := hload
  have hterminal : cp.phase ≠ checkpointTransferring := by
    rw [hphase]
    decide
  simp only [prepare, hload']
  split
  · exact hsame _
  · split
    · split <;> exact hsame _
    · split
      · exact hsame _
      · next fields hverified =>
          split
          · exact hsame _
          · split
            · exact hsame _
            · split
              · exact hsame _
              · split
                · exact hsame _
                · next hof =>
                    split
                    · exact hsame _
                    · next saved hfind =>
                        have hof := Bool.not_eq_false _ ▸ hof
                        simp only [Checkpoint.isOf, decide_eq_true_eq] at hof
                        refine ⟨.refl hsound, ⟨hstays.idle, fun _ => ?_⟩,
                          fun reply hreply hsome => by cases hreply; cases hsome⟩
                        refine ⟨hof.1 ▸ hoperation, hof.2.1 ▸ hartifact, saved, rfl, ?_⟩
                        have hsaved := List.find?_some hfind
                        rw [← hlabel]
                        simpa using hsaved

theorem abortCurrent_verified {d : Device} {r : Receiver env} {answers : Answers env}
    {reply : Reply env} (h : (abortCurrent d r answers).1 = some reply) :
    reply.verified = none := by
  simp only [abortCurrent] at h
  split at h
  · cases h
    rfl
  · split at h
    · cases h
    · split at h
      · cases h
        rfl
      · cases h
        rfl

theorem abort_leaves {d : Device} {r : Receiver env} {a : Activation} (hsound : d.Sound env)
    (hstays : r.Stays a) (operationId : Vector UInt8 16) (artifactId : Digest)
    (answers : Answers env)
    (hroom : (abort d r operationId artifactId answers).2.journalWrites < generationLimit)
    (hno : ¬(r.verified = true ∧ r.sameOperation operationId artifactId = true ∧
      answers.Clears)) (recommits : Prop) :
    Leaves d r a recommits (abort d r operationId artifactId answers) := by
  have hsame := Leaves.same hsound hstays recommits
  have hcurrent (hroom : (abortCurrent d r answers).2.journalWrites < generationLimit)
      (hno : ¬answers.Clears ∨ (r.active = false ∧ r.verified = false)) :
      Leaves d r a recommits (abortCurrent d r answers) := by
    obtain ⟨hafter, hreceiver⟩ := (abortCurrent_after hsound answers hroom).1 hno
    refine ⟨hafter, ?_, ?_⟩
    · rcases hreceiver with hr | hr
      · rw [hr]
        exact hstays
      · rw [hr]
        exact stays_zero a
    · intro reply hreply hsome
      rw [abortCurrent_verified hreply] at hsome
      cases hsome
  simp only [abort] at hroom ⊢
  by_cases hbusy : r.active = true ∨ r.verified = true
  · simp only [if_pos hbusy] at hroom ⊢
    by_cases hop : r.sameOperation operationId artifactId = true
    · simp only [if_pos hop] at hroom ⊢
      have hverified : r.verified = true := by
        rcases hbusy with hactive | hverified
        · rw [hstays.idle] at hactive
          cases hactive
        · exact hverified
      exact hcurrent hroom (Or.inl fun hclears => hno ⟨hverified, hop, hclears⟩)
    · simp only [if_neg hop]
      exact hsame _
  · simp only [if_neg hbusy] at hroom ⊢
    simp only [not_or, Bool.not_eq_true] at hbusy
    cases hload : checkpointLoad env.toJournalEnv d.nvs with
    | error err => exact hsame _
    | ok cp =>
        simp only [hload] at hroom ⊢
        split at hroom
        · next hof =>
            rw [if_pos hof]
            exact hsame _
        · next hof =>
            rw [if_neg hof]
            exact hcurrent hroom (Or.inr hbusy)

theorem handleTransfer_leaves {d : Device} {r : Receiver env} {a : Activation}
    (hsound : d.Sound env) (hattests : d.Attests env a) (hstays : r.Stays a)
    (target : Target) (transfer : OtaTransfer) (answers : Answers env)
    (hroom : (handleTransfer d r target transfer answers).2.journalWrites < generationLimit)
    (hno : ¬r.GivesUp answers transfer) :
    Leaves d r a (r.Recommits transfer) (handleTransfer d r target transfer answers) := by
  have hsame := Leaves.same hsound hstays (r.Recommits transfer)
  cases transfer with
  | prepare operationId artifactId signedFields signature requestedChunkSize requestedWindow =>
      simp only [handleTransfer]
      split
      · split
        · exact hsame _
        · exact prepare_leaves hsound hattests hstays target _ _ signedFields _ answers _
      · exact hsame _
  | data operationId artifactId block blockEncodedOffset data finalChunk =>
      simp only [handleTransfer]
      split
      · split
        · exact hsame _
        · simp only [write, hstays.idle]
          exact hsame _
      · exact hsame _
  | commit operationId artifactId blockTableSha256 imageSha256 =>
      simp only [handleTransfer]
      split
      · exact hsame _
      · split
        · exact hsame _
        · next hshape =>
            simp only [not_or, Bool.not_eq_false, ne_eq, Decidable.not_not] at hshape
            split
            · next hverified =>
                refine ⟨.refl hsound, hstays, fun reply hreply hsome => ?_⟩
                cases hreply
                exact ⟨rfl, hverified, hshape⟩
            · simp only [verify, hstays.idle]
              exact hsame _
  | abort operationId artifactId =>
      simp only [handleTransfer] at hroom ⊢
      split
      · next id artifact hartifact =>
          simp only [hartifact] at hroom
          refine abort_leaves hsound hstays _ artifact answers hroom (fun hgives => hno ?_) _
          exact ⟨matchingTransfer_iff.mpr ⟨artifact, hartifact, Or.inr hgives.1, hgives.2.1⟩,
            hgives.2.2⟩
      · exact hsame _
  | query operationId artifactId =>
      simp only [handleTransfer]
      split
      · exact hsame _
      · split <;> exact hsame _
  | other => exact hsame _

/-- Giving up the image takes the record with it. -/
theorem handleTransfer_givesUp {d : Device} {r : Receiver env} (hsound : d.Sound env)
    (target : Target) (transfer : OtaTransfer) (answers : Answers env)
    (hroom : (handleTransfer d r target transfer answers).2.journalWrites < generationLimit)
    (hgives : r.GivesUp answers transfer) :
    d.After env (handleTransfer d r target transfer answers).2 (.error .notFound) ∧
      ∃ reply, (handleTransfer d r target transfer answers).1 = some reply ∧
        reply.verified = none := by
  cases transfer with
  | abort operationId artifactId =>
      cases operationId with
      | none => exact hgives.elim
      | some id =>
          obtain ⟨hmatch, hclears⟩ := hgives
          obtain ⟨artifact, hartifact, hbusy, hop⟩ := matchingTransfer_iff.mp hmatch
          have heq : handleTransfer d r target (.abort (some id) artifactId) answers =
              abortCurrent d r answers := by
            simp only [handleTransfer, hartifact, abort, if_pos hbusy, if_pos hop]
          rw [heq] at hroom ⊢
          obtain ⟨hafter, reply, hreply⟩ :=
            (abortCurrent_after hsound answers hroom).2 hclears hbusy
          exact ⟨hafter, reply, hreply, abortCurrent_verified hreply⟩
  | prepare operationId artifactId signedFields signature chunkSize window => exact hgives.elim
  | data operationId artifactId block offset data finalChunk => exact hgives.elim
  | commit operationId artifactId blockTableSha256 imageSha256 => exact hgives.elim
  | query operationId artifactId => exact hgives.elim
  | other => exact hgives.elim

/-- `esp_ota_set_boot_partition` fails, and the image is marked as verified again. -/
structure Receiver.Withdraws (r : Receiver env) (answers : Answers env) : Prop where
  preflight : answers.preflight = .ok
  save : answers.save = some .done
  setBoot : ∃ err, answers.setBootPartition = some err ∧ err ≠ .ok
  restore : answers.restore = some .done
  storable : saveRejects env.toJournalEnv (r.terminalCheckpoint checkpointVerified) = false

/-- What becomes of the journal when a verified image is activated. -/
inductive ActivateResult (d : Device) (r : Receiver env) (answers : Answers env) :
    Outcome env → Prop where
  | kept {outcome : Outcome env} (hno : ¬r.Withdraws answers)
      (hafter : d.After env outcome.2 (d.load env))
      (hreply : ∀ reply, outcome.1 = some reply → reply.err ≠ .ok ∧ reply.receiver = r) :
      ActivateResult d r answers outcome
  | pending {outcome : Outcome env} (hno : ¬r.Withdraws answers)
      (hsound : outcome.2.Sound env)
      (hload : outcome.2.load env = .ok (r.terminalCheckpoint checkpointBootPending))
      (hreply : ∀ reply, outcome.1 = some reply → reply.receiver = r) :
      ActivateResult d r answers outcome
  | withdrawn {outcome : Outcome env} (hwithdraws : r.Withdraws answers)
      (hload : outcome.2.load env = .ok (r.terminalCheckpoint checkpointVerified))
      (hreply : ∃ reply, outcome.1 = some reply ∧ reply.err ≠ .ok) :
      ActivateResult d r answers outcome

/-- The checks of a save do not tell the two records of a verified image apart. -/
theorem saveRejects_terminal (r : Receiver env) :
    saveRejects env.toJournalEnv (r.terminalCheckpoint checkpointBootPending) =
      saveRejects env.toJournalEnv (r.terminalCheckpoint checkpointVerified) := by
  simp [saveRejects, Receiver.terminalCheckpoint, Receiver.fillCheckpoint,
    checkpointBootPending, checkpointVerified, checkpointTransferring]

theorem setBoot_result {d : Device} {r : Receiver env} {answers : Answers env}
    (hsound : d.Sound env)
    (hload : d.load env = .ok (r.terminalCheckpoint checkpointBootPending))
    (hpreflight : answers.preflight = .ok) (hsave : answers.save = some .done)
    (hroom : (setBoot d r answers).2.journalWrites < generationLimit) {d₀ : Device} :
    ActivateResult d₀ r answers (setBoot d r answers) := by
  have hafter := fun hroom => Device.save_after hsound (r.terminalCheckpoint checkpointVerified)
    answers.restore hroom
  have hok := save_ok_iff d (r.terminalCheckpoint checkpointVerified) answers.restore
  simp only [setBoot] at hroom ⊢
  cases hset : answers.setBootPartition with
  | none =>
      refine .pending (fun hw => ?_) hsound hload fun reply hreply => (by cases hreply)
      obtain ⟨err, herr, -⟩ := hw.setBoot
      rw [hset] at herr
      cases herr
  | some err =>
      simp only [hset] at hroom ⊢
      by_cases herr : err = .ok
      · simp only [if_pos herr]
        refine .pending (fun hw => ?_) hsound hload fun reply hreply => by cases hreply; rfl
        obtain ⟨err', hset', hne⟩ := hw.setBoot
        rw [hset, herr] at hset'
        cases hset'
        exact hne rfl
      · simp only [if_neg herr] at hroom ⊢
        generalize d.save (r.terminalCheckpoint checkpointVerified) answers.restore = saved
          at hafter hok hroom ⊢
        obtain ⟨res, d'⟩ := saved
        cases res with
        | none =>
            have hsame := hafter hroom
            refine .pending (fun hw => ?_) hsame.sound (hsame.load.trans hload)
              fun reply hreply => (by cases hreply)
            cases hok.mpr ⟨hw.restore, hw.storable⟩
        | some restoreErr =>
            simp only at hroom ⊢
            have hsame := hafter hroom
            by_cases hrestore : restoreErr = .ok
            · subst hrestore
              rw [if_pos rfl] at hsame
              obtain ⟨hdone, hstorable⟩ := hok.mp rfl
              exact .withdrawn ⟨hpreflight, hsave, ⟨err, hset, herr⟩, hdone, hstorable⟩
                hsame.load ⟨_, rfl, by simpa using herr⟩
            · rw [if_neg (by simpa using hrestore)] at hsame
              refine .pending (fun hw => ?_) hsame.sound (hsame.load.trans hload)
                fun reply hreply => by cases hreply; rfl
              exact hrestore (Option.some.inj (hok.mpr ⟨hw.restore, hw.storable⟩))

theorem activate_result {d : Device} {r : Receiver env} (hsound : d.Sound env)
    (answers : Answers env) (hidle : r.active = false) (hverified : r.verified = true)
    {p : Partition} (hpartition : r.partition = some p)
    (hroom : (activate d r answers).2.journalWrites < generationLimit) :
    ActivateResult d r answers (activate d r answers) := by
  have hafter := fun hroom => Device.save_after hsound
    (r.terminalCheckpoint checkpointBootPending) answers.save hroom
  have hok := save_ok_iff d (r.terminalCheckpoint checkpointBootPending) answers.save
  simp only [activate, hidle, hverified, hpartition] at hroom ⊢
  by_cases hpreflight : answers.preflight = .ok
  · simp only [hpreflight, ne_eq, not_true_eq_false, if_false] at hroom ⊢
    generalize d.save (r.terminalCheckpoint checkpointBootPending) answers.save = saved
      at hafter hok hroom ⊢
    obtain ⟨res, d'⟩ := saved
    cases res with
    | none =>
        refine .kept (fun hw => ?_) (hafter hroom) fun reply hreply => (by cases hreply)
        cases hok.mpr ⟨hw.save, (saveRejects_terminal r).trans hw.storable⟩
    | some err =>
        simp only at hroom ⊢
        by_cases herr : err = .ok
        · subst herr
          simp only [not_true_eq_false, if_false] at hroom ⊢
          have hle := setBoot_rel journalWrites_rel (d'.select r p) r answers
          have hsaved := hafter (Nat.lt_of_le_of_lt hle hroom)
          rw [if_pos rfl] at hsaved
          exact setBoot_result (d := d'.select r p) hsaved.sound hsaved.load hpreflight
            (hok.mp rfl).1 hroom
        · simp only [herr, not_false_eq_true, if_true] at hroom ⊢
          have hsame := hafter hroom
          rw [if_neg (by simpa using herr)] at hsame
          refine .kept (fun hw => ?_) hsame fun reply hreply => by cases hreply; exact ⟨herr, rfl⟩
          exact herr (Option.some.inj
            (hok.mpr ⟨hw.save, (saveRejects_terminal r).trans hw.storable⟩))
  · simp only [ne_eq, hpreflight, not_false_eq_true, if_true]
    refine .kept (fun hw => hpreflight hw.preflight) (.refl hsound) fun reply hreply => ?_
    cases hreply
    exact ⟨hpreflight, rfl⟩

end

/-! ## The worker keeps the receiver safe -/

/-- The journal is written to at most, and safety survives. -/
structure KeepsSafe (w w' : Worker env) : Prop where
  writes : w.device.journalWrites ≤ w'.device.journalWrites
  safe : w'.device.journalWrites < generationLimit → Safe w.device w.receiver →
    Safe w'.device w'.receiver

theorem KeepsSafe.trans {w w' w'' : Worker env} (h : KeepsSafe w w') (h' : KeepsSafe w' w'') :
    KeepsSafe w w'' :=
  ⟨Nat.le_trans h.writes h'.writes, fun hroom hsafe =>
    h'.safe hroom (h.safe (Nat.lt_of_le_of_lt h'.writes hroom) hsafe)⟩

/-- Nothing that matters to safety changes. -/
theorem KeepsSafe.of_eq {w w' : Worker env} (hdevice : w'.device = w.device)
    (hreceiver : w'.receiver = w.receiver) : KeepsSafe w w' := by
  refine ⟨Nat.le_of_eq (by rw [hdevice]), fun _ hsafe => ?_⟩
  rw [hdevice, hreceiver]
  exact hsafe

theorem keepsSafe_restart (w : Worker env) (running : Partition) (now : U32) :
    KeepsSafe w (w.restart running now) :=
  ⟨Nat.le_refl _, fun _ hsafe => safe_zero hsafe.sound hsafe.vouched hsafe.selections⟩

theorem keepsSafe_sendStatus (w : Worker env) (request : OtaTransfer) (phase : OtaPhase)
    (result : EspErr) (text : String) (answer : EspErr) :
    KeepsSafe w (w.sendStatus request phase result text answer).2 := by
  obtain ⟨statuses, hsame⟩ := sendStatus_same w request phase result text answer
  rw [hsame]
  exact .of_eq rfl rfl

theorem keepsSafe_report (w : Worker env) (answers : WorkerAnswers env.toReceiverEnv) :
    KeepsSafe w (w.sendPendingBootReport answers).2 := by
  obtain ⟨reports, hsame⟩ := sendPendingBootReport_same w answers
  rw [hsame]
  exact .of_eq rfl rfl

theorem keepsSafe_settle {w : Worker env} {outcome : Outcome env.toReceiverEnv}
    (answers : WorkerAnswers env.toReceiverEnv)
    (hwrites : w.device.journalWrites ≤ outcome.2.journalWrites)
    (hsafe : outcome.2.journalWrites < generationLimit → Safe w.device w.receiver →
      Safe outcome.2 outcome.receiver) :
    KeepsSafe w (w.settle outcome answers).2 := by
  obtain ⟨reply, d⟩ := outcome
  cases reply with
  | none =>
      refine ⟨hwrites, fun hroom h => ?_⟩
      have hzero := hsafe hroom h
      exact safe_zero hzero.sound hzero.vouched hzero.selections
  | some reply => exact ⟨hwrites, hsafe⟩

theorem keepsSafe_activateVerified (w : Worker env) (transfer : OtaTransfer)
    (answers : WorkerAnswers env.toReceiverEnv) :
    KeepsSafe w (w.activateVerified transfer answers) := by
  have hactivated (w : Worker env) : KeepsSafe w (w.activated transfer answers) := by
    simp only [Worker.activated]
    split
    · exact keepsSafe_sendStatus w _ _ _ _ _
    · exact (keepsSafe_sendStatus w _ _ _ _ _).trans (keepsSafe_restart _ _ _)
  have hsettle := keepsSafe_settle (w := w) answers
    (activate_rel journalWrites_rel w.device w.receiver answers.activate)
    (fun hroom hsafe => activate_safe hsafe answers.activate hroom)
  simp only [Worker.activateVerified]
  split
  · next w' heq =>
      rw [heq] at hsettle
      exact hsettle
  · next reply w' heq =>
      rw [heq] at hsettle
      split
      · exact hsettle.trans (keepsSafe_sendStatus w' _ _ _ _ _)
      · refine hsettle.trans (KeepsSafe.trans ?_ (hactivated _))
        exact .of_eq rfl rfl

theorem keepsSafe_processTransfer (w : Worker env) (transfer : OtaTransfer)
    (answers : WorkerAnswers env.toReceiverEnv) :
    KeepsSafe w (w.processTransfer transfer answers) := by
  have hsettle := keepsSafe_settle (w := w) answers
    (handleTransfer_rel journalWrites_rel w.device w.receiver env.target transfer answers.transfer)
    (fun hroom hsafe => handleTransfer_safe hsafe env.target transfer answers.transfer hroom)
  simp only [Worker.processTransfer]
  split
  · next w' heq =>
      rw [heq] at hsettle
      exact hsettle
  · next reply w' heq =>
      rw [heq] at hsettle
      split
      · exact hsettle.trans (keepsSafe_sendStatus w' _ _ _ _ _)
      · split
        · exact hsettle.trans (keepsSafe_activateVerified w' transfer answers)
        · split <;> exact hsettle.trans (keepsSafe_sendStatus w' _ _ _ _ _)

theorem bootReport_error {env : ReceiverEnv} {d : Device} {nodeId : Id128} {bootSession : ℕ}
    {image : Except EspErr OtaImgState} {err : EspErr}
    (h : bootReport env d nodeId bootSession image = .error err) : err ≠ .ok := by
  have hload (err : EspErr) (h : checkpointLoad env.toJournalEnv d.nvs = .error err) :
      err ≠ .ok := by
    simp only [checkpointLoad] at h
    split at h
    · split at h
      · cases h
        decide
      · cases h
    · cases h
      decide
  have hverify (signedFields signature : Bytes) (err : EspErr)
      (h : verifySignedFields env.toOtaEnv signedFields signature = .error err) : err ≠ .ok := by
    simp only [verifySignedFields] at h
    repeat' split at h
    all_goals first | cases h; decide | cases h; assumption | cases h
  simp only [bootReport] at h
  split at h
  · next err' herr =>
      cases h
      exact hload _ herr
  · split at h
    · cases h
      decide
    · split at h
      · next err' herr =>
          cases h
          exact hverify _ _ _ herr
      · cases h

/-- An acknowledgement is refused, or names the report and clears the journal. -/
theorem bootAck_cases {env : ReceiverEnv} (d : Device) (ack : OtaBootAck)
    (image : Except EspErr OtaImgState) (clear : Option (NvsWrite env.toJournalEnv)) :
    (∃ err, err ≠ .ok ∧ bootAck env d ack image clear = (some err, d)) ∨
      ∃ report, bootReport env d ⟨0, 0⟩ 0 image = .ok report ∧
        ack.operationId = some report.operationId ∧
        asVector? 32 ack.artifactId = some report.artifactId ∧
        bootAck env d ack image clear = d.clear clear := by
  simp only [bootAck]
  split
  · next id artifact hid hartifact =>
      split
      · exact Or.inl ⟨_, by decide, rfl⟩
      · split
        · next err hreport => exact Or.inl ⟨err, bootReport_error hreport, rfl⟩
        · next report hreport =>
            split
            · exact Or.inl ⟨_, by decide, rfl⟩
            · next hsame =>
                simp only [not_or, ne_eq, Decidable.not_not] at hsame
                obtain ⟨rfl, rfl, -⟩ := hsame
                exact Or.inr ⟨report, hreport, hid, hartifact, rfl⟩
  · exact Or.inl ⟨_, by decide, rfl⟩

theorem keepsSafe_processAck (w : Worker env) (ack : OtaBootAck)
    (answers : WorkerAnswers env.toReceiverEnv) : KeepsSafe w (w.processAck ack answers) := by
  have hclear : w.device.journalWrites ≤
      (w.device.clear answers.ackClear).2.journalWrites := journalWrites_rel.clear _ answers.ackClear
  have hsafe (hroom : (w.device.clear answers.ackClear).2.journalWrites < generationLimit)
      (h : Safe w.device w.receiver) :
      Safe (w.device.clear answers.ackClear).2 w.receiver := by
    have hafter := Device.clear_after h.sound answers.ackClear hroom
    by_cases hok : (w.device.clear answers.ackClear).1 = some .ok
    · rw [if_pos hok] at hafter
      exact h.after_unsealed hafter fun cp hcp => (nomatch hcp)
    · rw [if_neg hok] at hafter
      exact h.after_same hafter
  simp only [Worker.processAck]
  rcases bootAck_cases w.device ack answers.image answers.ackClear with
    ⟨err, herr, heq⟩ | ⟨report, -, -, -, heq⟩
  · rw [heq]
    exact .of_eq rfl rfl
  · rw [heq]
    generalize w.device.clear answers.ackClear = cleared at hclear hsafe ⊢
    obtain ⟨res, d⟩ := cleared
    cases res with
    | none =>
        refine ⟨hclear, fun hroom h => ?_⟩
        have hzero := hsafe hroom h
        exact safe_zero hzero.sound hzero.vouched hzero.selections
    | some err => exact ⟨hclear, hsafe⟩

theorem keepsSafe_giveUp (w : Worker env) (answers : WorkerAnswers env.toReceiverEnv) :
    KeepsSafe w (w.giveUp answers).2 := by
  simp only [Worker.giveUp]
  split
  · exact keepsSafe_settle answers (abortCurrent_rel journalWrites_rel w.device w.receiver answers.transfer)
      fun hroom hsafe => abortCurrent_safe hsafe answers.transfer hroom
  · exact .of_eq rfl rfl

theorem keepsSafe_step (w : Worker env) (event : WorkerEvent env.toReceiverEnv) :
    KeepsSafe w (w.step event) := by
  cases event with
  | restart running now => exact keepsSafe_restart w running now
  | idle answers =>
      have hgiveUp := keepsSafe_giveUp w answers
      simp only [Worker.step]
      split
      · next w' heq =>
          rw [heq] at hgiveUp
          exact hgiveUp
      · next reply w' heq =>
          rw [heq] at hgiveUp
          exact hgiveUp.trans (keepsSafe_report w' answers)
  | message message answers =>
      cases message with
      | other => exact .of_eq rfl rfl
      | bootAck ack => exact keepsSafe_processAck w ack answers
      | transfer transfer =>
          have hprocessed : KeepsSafe w (w.processMessage (.transfer transfer) answers) := by
            cases transfer with
            | query operationId artifactId =>
                simp only [Worker.processMessage]
                have hreport := keepsSafe_report w answers
                split
                · exact hreport
                · exact hreport.trans (keepsSafe_processTransfer _ _ answers)
            | commit operationId artifactId blockTableSha256 imageSha256 =>
                exact (keepsSafe_sendStatus w _ _ _ _ _).trans
                  (keepsSafe_processTransfer _ _ answers)
            | prepare operationId artifactId signedFields signature chunkSize window =>
                exact keepsSafe_processTransfer w _ answers
            | data operationId artifactId block offset data finalChunk =>
                exact keepsSafe_processTransfer w _ answers
            | abort operationId artifactId => exact keepsSafe_processTransfer w _ answers
            | other => exact keepsSafe_processTransfer w .other answers
          exact hprocessed.trans (.of_eq rfl rfl)

theorem runWorker_safe (flash : Partition → Bytes) (running : Partition) (now : U32)
    (events : List (WorkerEvent env.toReceiverEnv))
    (hroom : (runWorker (.factory env flash running now) events).device.journalWrites <
      generationLimit) :
    Safe (runWorker (.factory env flash running now) events).device
      (runWorker (.factory env flash running now) events).receiver := by
  induction events using List.reverseRecOn with
  | nil => exact factory_safe flash running
  | append_singleton events event ih =>
      rw [runWorker_snoc] at hroom ⊢
      have hkeeps := keepsSafe_step (runWorker (.factory env flash running now) events) event
      exact hkeeps.safe hroom (ih (Nat.lt_of_le_of_lt hkeeps.writes hroom))

/-! ## Attestation -/

/-- While an activation waits for its acknowledgement, the journal shows its record
and no transfer writes flash. -/
def Worker.Attested (w : Worker env) : Prop :=
  ∀ a, w.pending = some a →
    w.device.Attests env.toReceiverEnv a ∧ w.receiver.active = false

/-- The event takes the record of an activation that waits for its acknowledgement:
its image is given up, by a message or after too long an idle time, or it is
committed once more and withdrawn. -/
def Worker.Undoes (w : Worker env) (event : WorkerEvent env.toReceiverEnv) : Prop :=
  w.pending.isSome = true ∧
    match event with
    | .message (.transfer transfer) answers =>
        w.receiver.GivesUp answers.transfer transfer ∨
          (w.receiver.Recommits transfer ∧ w.receiver.Withdraws answers.activate)
    | .idle answers =>
        w.idleExpired answers.now = true ∧ w.receiver.verified = true ∧
          answers.transfer.Clears
    | _ => False

/-- The record of the activation is in the journal, and the receiver is not about
to lose it. -/
def Worker.Attesting (w : Worker env) : Prop :=
  ∀ a, w.pending = some a → w.device.Attests env.toReceiverEnv a ∧ w.receiver.Stays a

theorem attesting_of_eq {w w' : Worker env} (h : w.Attesting) (hdevice : w'.device = w.device)
    (hreceiver : w'.receiver = w.receiver) (hpending : w'.pending = w.pending) :
    w'.Attesting := by
  intro a ha
  rw [hdevice, hreceiver]
  exact h a (hpending ▸ ha)

theorem attesting_restart {w : Worker env} (h : ∀ a, w.pending = some a →
    w.device.Attests env.toReceiverEnv a) (running : Partition) (now : U32) :
    (w.restart running now).Attesting :=
  fun a ha => ⟨h a ha, stays_zero a⟩

theorem attesting_sendStatus {w : Worker env} (h : w.Attesting) (request : OtaTransfer)
    (phase : OtaPhase) (result : EspErr) (text : String) (answer : EspErr) :
    (w.sendStatus request phase result text answer).2.Attesting := by
  obtain ⟨statuses, hsame⟩ := sendStatus_same w request phase result text answer
  rw [hsame]
  exact attesting_of_eq h rfl rfl rfl

theorem attesting_activated {w : Worker env} (h : w.Attesting) (transfer : OtaTransfer)
    (answers : WorkerAnswers env.toReceiverEnv) : (w.activated transfer answers).Attesting := by
  have hsent := attesting_sendStatus h transfer .rebooting .ok "verified; rebooting"
    answers.sendStatus
  simp only [Worker.activated]
  split
  · exact hsent
  · exact attesting_restart (fun a ha => (hsent a ha).1) answers.restarted answers.now

/-- The record that an activation leaves attests it. -/
theorem attests_terminal {env : ReceiverEnv} {d : Device} {r : Receiver env} {p : Partition}
    (hload : d.load env = .ok (r.terminalCheckpoint checkpointBootPending))
    (hpartition : r.partition = some p) :
    d.Attests env ⟨r.operationId, r.artifactId, p.label⟩ := by
  refine ⟨_, hload, rfl, rfl, rfl, ?_⟩
  simp only [Receiver.terminalCheckpoint, Receiver.fillCheckpoint, hpartition]
  exact cString_labelArray p

/-- The receiver holds the image of the activation. -/
theorem Receiver.Stays.eq {env : ReceiverEnv} {r : Receiver env} {a : Activation}
    (h : r.Stays a) (hverified : r.verified = true) {p : Partition}
    (hpartition : r.partition = some p) : a = ⟨r.operationId, r.artifactId, p.label⟩ := by
  obtain ⟨hoperation, hartifact, q, hq, hlabel⟩ := h.same hverified
  obtain rfl : p = q := Option.some.inj (hpartition.symm.trans hq)
  rw [hoperation, hartifact, hlabel]

theorem attesting_activateVerified {w : Worker env} (h : w.Attesting)
    (hsound : w.device.Sound env.toReceiverEnv) (transfer : OtaTransfer)
    (answers : WorkerAnswers env.toReceiverEnv)
    (hroom : (activate w.device w.receiver answers.activate).2.journalWrites < generationLimit)
    (hno : ¬(w.pending.isSome = true ∧ w.receiver.Withdraws answers.activate)) :
    (w.activateVerified transfer answers).Attesting := by
  by_cases hready : w.receiver.active = false ∧ w.receiver.verified = true ∧
      ∃ p, w.receiver.partition = some p
  · obtain ⟨hidle, hverified, p, hpartition⟩ := hready
    have hresult := activate_result hsound answers.activate hidle hverified hpartition hroom
    simp only [Worker.activateVerified]
    generalize activate w.device w.receiver answers.activate = outcome at hresult ⊢
    obtain ⟨reply, d⟩ := outcome
    cases hresult with
    | kept hnot hafter hreply =>
        have hattests (a : Activation) (ha : w.pending = some a) :
            d.Attests env.toReceiverEnv a := Device.After.attests (h a ha).1 hafter
        cases reply with
        | none => exact attesting_restart hattests answers.restarted answers.now
        | some reply =>
            obtain ⟨herr, hreceiver⟩ := hreply reply rfl
            simp only [Worker.settle]
            rw [if_pos herr]
            refine attesting_sendStatus (w := { w with device := d, receiver := reply.receiver })
              (fun a ha => ⟨hattests a ha, ?_⟩) _ _ _ _ _
            dsimp only
            rw [hreceiver]
            exact (h a ha).2
    | pending hnot hsound' hload hreply =>
        have hnew := attests_terminal hload hpartition
        have hattests (a : Activation) (ha : w.pending = some a) :
            d.Attests env.toReceiverEnv a := by
          rw [(h a ha).2.eq hverified hpartition]
          exact hnew
        cases reply with
        | none => exact attesting_restart hattests answers.restarted answers.now
        | some reply =>
            have hreceiver := hreply reply rfl
            simp only [Worker.settle]
            split
            · refine attesting_sendStatus
                (w := { w with device := d, receiver := reply.receiver })
                (fun a ha => ⟨hattests a ha, ?_⟩) _ _ _ _ _
              dsimp only
              rw [hreceiver]
              exact (h a ha).2
            · refine attesting_activated (fun a ha => ?_) transfer answers
              simp only [hreceiver, hpartition, Option.map_some, Option.getD_some,
                Option.some.injEq] at ha ⊢
              subst ha
              exact ⟨hnew, hidle, fun _ => ⟨rfl, rfl, p, hpartition, rfl⟩⟩
    | withdrawn hwithdraws hload hreply =>
        obtain ⟨reply, rfl, herr⟩ := hreply
        simp only [Worker.settle]
        rw [if_pos herr]
        refine attesting_sendStatus (fun a ha => ?_) _ _ _ _ _
        exact absurd ⟨by rw [Option.isSome_iff_exists]; exact ⟨a, ha⟩, hwithdraws⟩ hno
  · have heq : activate w.device w.receiver answers.activate =
        (some ⟨.invalidState, none, w.receiver⟩, w.device) := by
      simp only [activate]
      split
      · next p hidle hverified hpartition =>
          exact absurd ⟨hidle, hverified, p, hpartition⟩ hready
      · rfl
    simp only [Worker.activateVerified, heq, Worker.settle]
    exact attesting_sendStatus (attesting_of_eq h rfl rfl rfl) _ _ _ _ _

theorem activateVerified_writes (w : Worker env) (transfer : OtaTransfer)
    (answers : WorkerAnswers env.toReceiverEnv) :
    (w.activateVerified transfer answers).device.journalWrites =
      (activate w.device w.receiver answers.activate).2.journalWrites := by
  have hstatus (w : Worker env) (phase : OtaPhase) (result : EspErr) (text : String) :
      (w.sendStatus transfer phase result text answers.sendStatus).2.device.journalWrites =
        w.device.journalWrites := by
    obtain ⟨statuses, hsame⟩ :=
      sendStatus_same w transfer phase result text answers.sendStatus
    rw [hsame]
  simp only [Worker.activateVerified]
  generalize activate w.device w.receiver answers.activate = outcome
  obtain ⟨reply, d⟩ := outcome
  cases reply with
  | none => rfl
  | some reply =>
      simp only [Worker.settle]
      split
      · rw [hstatus]
      · simp only [Worker.activated]
        split
        · rw [hstatus]
        · exact hstatus _ _ _ _

/-- The journal is written to no more after the message has been handled. -/
theorem handleTransfer_le_processTransfer (w : Worker env) (transfer : OtaTransfer)
    (answers : WorkerAnswers env.toReceiverEnv) :
    (handleTransfer w.device w.receiver env.target transfer answers.transfer).2.journalWrites ≤
      (w.processTransfer transfer answers).device.journalWrites := by
  simp only [Worker.processTransfer]
  generalize handleTransfer w.device w.receiver env.target transfer answers.transfer = outcome
  obtain ⟨reply, d⟩ := outcome
  cases reply with
  | none => exact Nat.le_refl _
  | some reply =>
      simp only [Worker.settle]
      split
      · exact (keepsSafe_sendStatus (w := { w with device := d, receiver := reply.receiver })
          _ _ _ _ _).writes
      · split
        · exact (keepsSafe_activateVerified { w with device := d, receiver := reply.receiver }
            transfer answers).writes
        · split
          all_goals exact (keepsSafe_sendStatus
            (w := { w with device := d, receiver := reply.receiver }) _ _ _ _ _).writes

theorem attesting_processTransfer {w : Worker env} (h : w.Attesting)
    (hsafe : Safe w.device w.receiver) (transfer : OtaTransfer)
    (answers : WorkerAnswers env.toReceiverEnv)
    (hroom : (w.processTransfer transfer answers).device.journalWrites < generationLimit)
    (hno : ¬(w.pending.isSome = true ∧ (w.receiver.GivesUp answers.transfer transfer ∨
      (w.receiver.Recommits transfer ∧ w.receiver.Withdraws answers.activate)))) :
    (w.processTransfer transfer answers).Attesting := by
  have hhandled : (handleTransfer w.device w.receiver env.target transfer
      answers.transfer).2.journalWrites < generationLimit :=
    Nat.lt_of_le_of_lt (handleTransfer_le_processTransfer w transfer answers) hroom
  have hsafe' := handleTransfer_safe hsafe env.target transfer answers.transfer hhandled
  have hleaves (a : Activation) (ha : w.pending = some a) :
      Leaves w.device w.receiver a (w.receiver.Recommits transfer)
        (handleTransfer w.device w.receiver env.target transfer answers.transfer) :=
    handleTransfer_leaves hsafe.sound (h a ha).1 (h a ha).2 env.target transfer answers.transfer
      hhandled fun hgives => hno ⟨by rw [ha]; rfl, Or.inl hgives⟩
  simp only [Worker.processTransfer] at hroom ⊢
  generalize handleTransfer w.device w.receiver env.target transfer answers.transfer = outcome
    at hsafe' hleaves hroom ⊢
  obtain ⟨reply, d⟩ := outcome
  have hattests (a : Activation) (ha : w.pending = some a) :
      d.Attests env.toReceiverEnv a := Device.After.attests (h a ha).1 (hleaves a ha).after
  cases reply with
  | none => exact attesting_restart hattests answers.restarted answers.now
  | some reply =>
      have hnext : Worker.Attesting { w with device := d, receiver := reply.receiver } :=
        fun a ha => ⟨hattests a ha, (hleaves a ha).stays⟩
      simp only [Worker.settle] at hroom ⊢
      split
      · exact attesting_sendStatus hnext _ _ _ _ _
      · next herr =>
          rw [if_neg herr] at hroom
          split
          · next hpartition =>
              rw [if_pos hpartition, activateVerified_writes] at hroom
              refine attesting_activateVerified hnext hsafe'.sound transfer answers hroom ?_
              rintro ⟨hpending, hwithdraws⟩
              obtain ⟨a, ha⟩ := Option.isSome_iff_exists.mp hpending
              obtain ⟨hreceiver, hrecommits⟩ := (hleaves a ha).verified reply rfl hpartition
              dsimp only at hwithdraws
              rw [hreceiver] at hwithdraws
              exact hno ⟨hpending, Or.inr ⟨hrecommits, hwithdraws⟩⟩
          · split <;> exact attesting_sendStatus hnext _ _ _ _ _

theorem attesting_processAck {w : Worker env} (h : w.Attesting)
    (hsound : w.device.Sound env.toReceiverEnv) (ack : OtaBootAck)
    (answers : WorkerAnswers env.toReceiverEnv)
    (hroom : (w.processAck ack answers).device.journalWrites < generationLimit) :
    (w.processAck ack answers).Attesting := by
  rcases bootAck_cases w.device ack answers.image answers.ackClear with
    ⟨err, herr, heq⟩ | ⟨report, hreport, hoperation, hartifact, heq⟩
  · simp only [Worker.processAck, heq, if_neg herr]
    exact attesting_of_eq h rfl rfl rfl
  · have hafter := fun hroom => Device.clear_after hsound answers.ackClear hroom
    simp only [Worker.processAck, heq] at hroom ⊢
    generalize w.device.clear answers.ackClear = cleared at hafter hroom ⊢
    obtain ⟨res, d⟩ := cleared
    cases res with
    | none =>
        exact attesting_restart (w := { w with device := d })
          (fun a ha => Device.After.attests (h a ha).1 (hafter hroom)) answers.restarted
          answers.now
    | some err =>
        have hclear := hafter hroom
        by_cases hok : err = .ok
        · -- The report, and so the acknowledgement, is of the pending activation.
          intro a ha
          simp only [if_pos hok, Option.filter_eq_some_iff] at ha
          obtain ⟨ha, hnot⟩ := ha
          obtain ⟨cp, -, hload, -, -, hreportOperation, hreportArtifact, -⟩ := bootReport_ok hreport
          obtain ⟨cp', hload', -, hcpOperation, hcpArtifact, -⟩ := (h a ha).1
          obtain rfl : cp = cp' := Except.ok.inj (hload.symm.trans hload')
          have hacked : a.isAcked ack = true := by
            simp only [Activation.isAcked, decide_eq_true_eq]
            rw [hoperation, hartifact, hreportOperation, hreportArtifact, hcpOperation, hcpArtifact]
            exact ⟨rfl, rfl⟩
          rw [hacked] at hnot
          cases hnot
        · rw [if_neg (by simpa using hok)] at hclear
          intro a ha
          simp only [if_neg hok] at ha
          exact ⟨Device.After.attests (h a ha).1 hclear, (h a ha).2⟩

theorem attesting_giveUp {w : Worker env} (h : w.Attesting)
    (hsound : w.device.Sound env.toReceiverEnv) (answers : WorkerAnswers env.toReceiverEnv)
    (hroom : (w.giveUp answers).2.device.journalWrites < generationLimit)
    (hno : ¬(w.pending.isSome = true ∧ w.idleExpired answers.now = true ∧
      w.receiver.verified = true ∧ answers.transfer.Clears)) :
    (w.giveUp answers).2.Attesting := by
  simp only [Worker.giveUp] at hroom ⊢
  split
  · next hexpired =>
      rw [if_pos hexpired] at hroom
      have hroom' : (abortCurrent w.device w.receiver answers.transfer).2.journalWrites <
          generationLimit := by
        generalize abortCurrent w.device w.receiver answers.transfer = outcome at hroom ⊢
        obtain ⟨reply, d⟩ := outcome
        cases reply <;> exact hroom
      have hkept := (abortCurrent_after hsound answers.transfer hroom').1
      have hall (a : Activation) (ha : w.pending = some a) :
          (abortCurrent w.device w.receiver answers.transfer).2.Attests env.toReceiverEnv a ∧
            (abortCurrent w.device w.receiver answers.transfer).receiver.Stays a := by
        have hcond : ¬answers.transfer.Clears ∨
            (w.receiver.active = false ∧ w.receiver.verified = false) := by
          by_cases hverified : w.receiver.verified = true
          · exact Or.inl fun hclears => hno ⟨by rw [ha]; rfl, hexpired.1, hverified, hclears⟩
          · exact Or.inr ⟨(h a ha).2.idle, by simpa using hverified⟩
        obtain ⟨hafter, hreceiver⟩ := hkept hcond
        refine ⟨Device.After.attests (h a ha).1 hafter, ?_⟩
        rcases hreceiver with hr | hr
        · rw [hr]
          exact (h a ha).2
        · rw [hr]
          exact stays_zero a
      generalize abortCurrent w.device w.receiver answers.transfer = outcome at hall ⊢
      obtain ⟨reply, d⟩ := outcome
      cases reply with
      | none =>
          exact attesting_restart (w := { w with device := d }) (fun a ha => (hall a ha).1)
            answers.restarted answers.now
      | some reply => exact hall
  · exact h

/-- An event that does not undo an activation keeps the record. -/
theorem attesting_step {w : Worker env} (h : w.Attesting) (hsafe : Safe w.device w.receiver)
    (event : WorkerEvent env.toReceiverEnv)
    (hroom : (w.step event).device.journalWrites < generationLimit) (hno : ¬w.Undoes event) :
    (w.step event).Attesting := by
  cases event with
  | restart running now => exact attesting_restart (fun a ha => (h a ha).1) running now
  | idle answers =>
      have hgiveUp := attesting_giveUp h hsafe.sound answers
      simp only [Worker.step] at hroom ⊢
      generalize w.giveUp answers = given at hgiveUp hroom ⊢
      obtain ⟨reply, w'⟩ := given
      cases reply with
      | none => exact hgiveUp hroom hno
      | some reply =>
          obtain ⟨reports, hsame⟩ := sendPendingBootReport_same w' answers
          simp only [hsame] at hroom ⊢
          exact attesting_of_eq (hgiveUp hroom hno) rfl rfl rfl
  | message message answers =>
      cases message with
      | other => exact h
      | bootAck ack => exact attesting_processAck h hsafe.sound ack answers hroom
      | transfer transfer =>
          -- What is sent before the receiver is called changes nothing for it.
          have hprocess (w' : Worker env) (hdevice : w'.device = w.device)
              (hreceiver : w'.receiver = w.receiver) (hpending : w'.pending = w.pending)
              (hroom : (w'.processTransfer transfer answers).device.journalWrites <
                generationLimit) : (w'.processTransfer transfer answers).Attesting := by
            refine attesting_processTransfer (attesting_of_eq h hdevice hreceiver hpending) ?_
              transfer answers hroom ?_
            · rw [hdevice, hreceiver]
              exact hsafe
            · rw [hreceiver, hpending]
              exact hno
          have hprocessed : (w.processMessage (.transfer transfer) answers).Attesting := by
            cases transfer with
            | query operationId artifactId =>
                obtain ⟨reports, hsame⟩ := sendPendingBootReport_same w answers
                simp only [Worker.step, Worker.processMessage] at hroom ⊢
                split
                · rw [hsame]
                  exact attesting_of_eq h rfl rfl rfl
                · next hsend =>
                    rw [if_neg hsend] at hroom
                    rw [hsame] at hroom ⊢
                    exact hprocess _ rfl rfl rfl hroom
            | commit operationId artifactId blockTableSha256 imageSha256 =>
                obtain ⟨statuses, hsame⟩ := sendStatus_same w
                  (.commit operationId artifactId blockTableSha256 imageSha256) .verifying .ok
                  "verifying image" answers.sendVerifying
                simp only [Worker.step, Worker.processMessage] at hroom ⊢
                rw [hsame] at hroom ⊢
                exact hprocess _ rfl rfl rfl hroom
            | prepare operationId artifactId signedFields signature chunkSize window =>
                exact hprocess w rfl rfl rfl hroom
            | data operationId artifactId block offset data finalChunk =>
                exact hprocess w rfl rfl rfl hroom
            | abort operationId artifactId => exact hprocess w rfl rfl rfl hroom
            | other => exact hprocess w rfl rfl rfl hroom
          exact attesting_of_eq hprocessed rfl rfl rfl

/-- A journal that shows another record, or none, attests nothing. -/
theorem not_attested {w : Worker env} {a : Activation} (ha : w.pending = some a)
    (hload : ∀ cp, w.device.load env.toReceiverEnv = .ok cp →
      cp.phase ≠ checkpointBootPending) : ¬w.Attested := by
  intro h
  obtain ⟨⟨cp, hcp, hphase, -⟩, -⟩ := h a ha
  exact hload cp hcp hphase

theorem processTransfer_givesUp {w : Worker env} (hsafe : Safe w.device w.receiver)
    {a : Activation} (ha : w.pending = some a) (transfer : OtaTransfer)
    (answers : WorkerAnswers env.toReceiverEnv)
    (hroom : (w.processTransfer transfer answers).device.journalWrites < generationLimit)
    (hgives : w.receiver.GivesUp answers.transfer transfer) :
    ¬(w.processTransfer transfer answers).Attested := by
  have hhandled : (handleTransfer w.device w.receiver env.target transfer
      answers.transfer).2.journalWrites < generationLimit :=
    Nat.lt_of_le_of_lt (handleTransfer_le_processTransfer w transfer answers) hroom
  obtain ⟨hafter, reply, hreply, hnone⟩ :=
    handleTransfer_givesUp hsafe.sound env.target transfer answers.transfer hhandled hgives
  simp only [Worker.processTransfer]
  generalize handleTransfer w.device w.receiver env.target transfer answers.transfer = outcome
    at hafter hreply ⊢
  obtain ⟨reply', d⟩ := outcome
  simp only at hreply
  subst hreply
  have hsent (w' : Worker env) (hw' : w' = { w with device := d, receiver := reply.receiver })
      (phase : OtaPhase) (result : EspErr) (text : String) :
      ¬(w'.sendStatus transfer phase result text answers.sendStatus).2.Attested := by
    obtain ⟨statuses, hsame⟩ :=
      sendStatus_same w' transfer phase result text answers.sendStatus
    rw [hsame, hw']
    refine not_attested (a := a) ha fun cp hcp => ?_
    have hload := hafter.load
    rw [hcp] at hload
    cases hload
  simp only [Worker.settle]
  split
  · exact hsent _ rfl _ _ _
  · rw [if_neg (by simp [hnone])]
    split <;> exact hsent _ rfl _ _ _

theorem processTransfer_withdraws {w : Worker env} (hsafe : Safe w.device w.receiver)
    (hidle : w.receiver.active = false) {a : Activation} (ha : w.pending = some a)
    (transfer : OtaTransfer) (answers : WorkerAnswers env.toReceiverEnv)
    (hroom : (w.processTransfer transfer answers).device.journalWrites < generationLimit)
    (hrecommits : w.receiver.Recommits transfer)
    (hwithdraws : w.receiver.Withdraws answers.activate) :
    ¬(w.processTransfer transfer answers).Attested := by
  cases transfer with
  | commit operationId artifactId blockTableSha256 imageSha256 =>
      cases operationId with
      | none => exact hrecommits.elim
      | some id =>
          obtain ⟨hverified, hmatch, htable, himage⟩ := hrecommits
          obtain ⟨p, hpartition, -⟩ := hsafe.verified hverified
          have hhandle : handleTransfer w.device w.receiver env.target
              (.commit (some id) artifactId blockTableSha256 imageSha256) answers.transfer =
                (some ⟨.ok, w.receiver.partition, w.receiver⟩, w.device) := by
            simp [handleTransfer, hmatch, htable, himage, hverified]
          have hactivate : w.processTransfer
              (.commit (some id) artifactId blockTableSha256 imageSha256) answers =
                w.activateVerified
                  (.commit (some id) artifactId blockTableSha256 imageSha256) answers := by
            simp [Worker.processTransfer, hhandle, Worker.settle, hpartition]
          rw [hactivate] at hroom ⊢
          rw [activateVerified_writes] at hroom
          have hresult := activate_result hsafe.sound answers.activate hidle hverified hpartition
            hroom
          simp only [Worker.activateVerified]
          generalize activate w.device w.receiver answers.activate = outcome at hresult ⊢
          obtain ⟨reply, d⟩ := outcome
          cases hresult with
          | kept hno hafter hreply => exact absurd hwithdraws hno
          | pending hno hsound hload hreply => exact absurd hwithdraws hno
          | withdrawn _ hload hreply =>
              obtain ⟨reply, rfl, herr⟩ := hreply
              simp only [Worker.settle]
              rw [if_pos herr]
              obtain ⟨statuses, hsame⟩ := sendStatus_same
                { w with device := d, receiver := reply.receiver }
                (.commit (some id) artifactId blockTableSha256 imageSha256) .failed reply.err
                (env.errToName reply.err) answers.sendStatus
              rw [hsame]
              refine not_attested (a := a) ha fun cp hcp hphase => ?_
              obtain rfl : w.receiver.terminalCheckpoint checkpointVerified = cp :=
                Except.ok.inj (hload.symm.trans hcp)
              have hne : checkpointVerified ≠ checkpointBootPending := by decide
              exact hne hphase
  | prepare operationId artifactId signedFields signature chunkSize window =>
      exact hrecommits.elim
  | data operationId artifactId block offset data finalChunk => exact hrecommits.elim
  | abort operationId artifactId => exact hrecommits.elim
  | query operationId artifactId => exact hrecommits.elim
  | other => exact hrecommits.elim

/-- An event that undoes an activation takes its record. -/
theorem step_undoes {w : Worker env} (h : w.Attested) (hsafe : Safe w.device w.receiver)
    (event : WorkerEvent env.toReceiverEnv)
    (hroom : (w.step event).device.journalWrites < generationLimit) (hundoes : w.Undoes event) :
    ¬(w.step event).Attested := by
  obtain ⟨hpending, hevent⟩ := hundoes
  obtain ⟨a, ha⟩ := Option.isSome_iff_exists.mp hpending
  have hidle := (h a ha).2
  cases event with
  | restart running now => exact hevent.elim
  | idle answers =>
      obtain ⟨hexpired, hverified, hclears⟩ := hevent
      have hgiveUp : w.giveUp answers =
          w.settle (abortCurrent w.device w.receiver answers.transfer) answers := by
        simp [Worker.giveUp, hexpired, Receiver.status, hverified]
      simp only [Worker.step, hgiveUp] at hroom ⊢
      have hafter := abortCurrent_after hsafe.sound (r := w.receiver) answers.transfer
      generalize abortCurrent w.device w.receiver answers.transfer = outcome at hafter hroom ⊢
      obtain ⟨reply, d⟩ := outcome
      cases reply with
      | none =>
          obtain ⟨-, reply, hreply⟩ := (hafter hroom).2 hclears (Or.inr hverified)
          cases hreply
      | some reply =>
          simp only [Worker.settle] at hroom ⊢
          obtain ⟨reports, hsame⟩ := sendPendingBootReport_same
            { w with device := d, receiver := reply.receiver } answers
          simp only [hsame] at hroom ⊢
          obtain ⟨hcleared, -⟩ := (hafter hroom).2 hclears (Or.inr hverified)
          refine not_attested (a := a) ha fun cp hcp => ?_
          have hload := hcleared.load
          rw [hcp] at hload
          cases hload
  | message message answers =>
      cases message with
      | other => exact hevent.elim
      | bootAck ack => exact hevent.elim
      | transfer transfer =>
          have htick (hlost : ¬(w.processMessage (.transfer transfer) answers).Attested) :
              ¬(w.step (.message (.transfer transfer) answers)).Attested := hlost
          refine htick ?_
          rcases hevent with hgives | ⟨hrecommits, hwithdraws⟩
          · cases transfer with
            | abort operationId artifactId =>
                exact processTransfer_givesUp hsafe ha _ answers hroom hgives
            | prepare operationId artifactId signedFields signature chunkSize window =>
                exact hgives.elim
            | data operationId artifactId block offset data finalChunk => exact hgives.elim
            | commit operationId artifactId blockTableSha256 imageSha256 => exact hgives.elim
            | query operationId artifactId => exact hgives.elim
            | other => exact hgives.elim
          · cases transfer with
            | commit operationId artifactId blockTableSha256 imageSha256 =>
                obtain ⟨statuses, hsame⟩ := sendStatus_same w
                  (.commit operationId artifactId blockTableSha256 imageSha256) .verifying .ok
                  "verifying image" answers.sendVerifying
                simp only [Worker.step, Worker.processMessage] at hroom ⊢
                rw [hsame] at hroom ⊢
                exact processTransfer_withdraws (w := { w with statuses := statuses }) hsafe hidle
                  ha _ answers hroom hrecommits hwithdraws
            | prepare operationId artifactId signedFields signature chunkSize window =>
                exact hrecommits.elim
            | data operationId artifactId block offset data finalChunk => exact hrecommits.elim
            | abort operationId artifactId => exact hrecommits.elim
            | query operationId artifactId => exact hrecommits.elim
            | other => exact hrecommits.elim

/-- The record of every activation stays until it is acknowledged, and no transfer
writes flash before, exactly when no event undoes an activation. -/
theorem runWorker_attested (flash : Partition → Bytes) (running : Partition) (now : U32)
    (events : List (WorkerEvent env.toReceiverEnv))
    (hroom : (runWorker (.factory env flash running now) events).device.journalWrites <
      generationLimit) :
    (∀ before, before <+: events →
      (runWorker (.factory env flash running now) before).Attested) ↔
      RunKeeps (fun w event => ¬w.Undoes event) (.factory env flash running now) events := by
  suffices hboth : ((∀ before, before <+: events →
      (runWorker (.factory env flash running now) before).Attested) →
        RunKeeps (fun w event => ¬w.Undoes event) (.factory env flash running now) events) ∧
      (RunKeeps (fun w event => ¬w.Undoes event) (.factory env flash running now) events →
        (runWorker (.factory env flash running now) events).Attesting ∧
        ∀ before, before <+: events →
          (runWorker (.factory env flash running now) before).Attested) from
    ⟨hboth.1, fun h => (hboth.2 h).2⟩
  have hattested (w : Worker env) (h : w.Attesting) : w.Attested :=
    fun a ha => ⟨(h a ha).1, (h a ha).2.idle⟩
  induction events using List.reverseRecOn with
  | nil =>
      have hfactory : (Worker.factory env flash running now).Attesting :=
        fun a ha => (nomatch ha)
      refine ⟨fun _ => runKeeps_nil, fun _ => ⟨hfactory, fun before hbefore => ?_⟩⟩
      rw [List.prefix_nil.mp hbefore]
      exact hattested _ hfactory
  | append_singleton events event ih =>
      rw [runWorker_snoc] at hroom
      have hkeeps := keepsSafe_step (runWorker (.factory env flash running now) events) event
      have hearlier := Nat.lt_of_le_of_lt hkeeps.writes hroom
      have hsafe := runWorker_safe flash running now events hearlier
      obtain ⟨hforward, hback⟩ := ih hearlier
      rw [runKeeps_snoc]
      constructor
      · intro hall
        have hold (before : List (WorkerEvent env.toReceiverEnv)) (h : before <+: events) :
            (runWorker (.factory env flash running now) before).Attested :=
          hall before (h.trans (List.prefix_append events [event]))
        refine ⟨hforward hold, fun hundoes => ?_⟩
        refine step_undoes (hold events List.prefix_rfl) hsafe event hroom hundoes ?_
        rw [← runWorker_snoc]
        exact hall _ List.prefix_rfl
      · rintro ⟨hkept, hno⟩
        obtain ⟨hattesting, hold⟩ := hback hkept
        have hnext := attesting_step hattesting hsafe event hroom hno
        rw [runWorker_snoc]
        refine ⟨hnext, fun before hbefore => ?_⟩
        rcases List.prefix_concat_iff.mp hbefore with rfl | hbefore
        · rw [runWorker_snoc]
          exact hattested _ hnext
        · exact hold before hbefore

/-- The image is attested after the restart that boots it. -/
theorem runWorker_attested_letter :
    (runWorker (.factory twoSlotsWorker (fun _ => []) otaZero 0)
        (unannounced ++ [.restart otaOne 0])).pending.isSome = true ∧
      (runWorker (.factory twoSlotsWorker (fun _ => []) otaZero 0)
        (unannounced ++ [.restart otaOne 0])).Attested := by
  refine ⟨by decide +kernel, (runWorker_attested (fun _ => []) otaZero 0
    (unannounced ++ [.restart otaOne 0]) (by decide +kernel)).mpr ?_ _ List.prefix_rfl⟩
  have hquiet (event : WorkerEvent twoSlotsWorker.toReceiverEnv) (w : Worker twoSlotsWorker)
      (hpending : w.pending = none) : ¬w.Undoes event := by
    intro hundoes
    have hsome := hundoes.1
    rw [hpending] at hsome
    cases hsome
  refine runKeeps_snoc.mpr ⟨?_, fun hundoes => hundoes.2⟩
  change RunKeeps _ _ ((([] ++ [_]) ++ [_]) ++ [_])
  refine runKeeps_snoc.mpr ⟨runKeeps_snoc.mpr ⟨runKeeps_snoc.mpr ⟨runKeeps_nil, ?_⟩, ?_⟩, ?_⟩
  · exact hquiet _ _ (by decide +kernel)
  · exact hquiet _ _ (by decide +kernel)
  · exact hquiet _ _ (by decide +kernel)

/-- An abort after the selection takes the record of the image that will boot. -/
theorem runWorker_undone :
    ¬(runWorker (.factory twoSlotsWorker (fun _ => []) otaZero 0)
      (unannounced ++ [.message (.transfer (.abort (some ⟨1, 2⟩) letterSignedSha256.toList))
        smoothWorker])).Attested := by
  have hpending : (runWorker (.factory twoSlotsWorker (fun _ => []) otaZero 0)
      (unannounced ++ [.message (.transfer (.abort (some ⟨1, 2⟩) letterSignedSha256.toList))
        smoothWorker])).pending =
        some ⟨operationBytes ⟨1, 2⟩, letterSignedSha256, otaOne.label⟩ := by
    decide +kernel
  have hload : checkpointLoad twoSlots.toJournalEnv
      (runWorker (.factory twoSlotsWorker (fun _ => []) otaZero 0)
        (unannounced ++ [.message (.transfer (.abort (some ⟨1, 2⟩) letterSignedSha256.toList))
          smoothWorker])).device.nvs = .error .notFound := by
    decide +kernel
  intro h
  obtain ⟨⟨cp, hcp, -⟩, -⟩ := h _ hpending
  exact absurd (hload.symm.trans hcp) (fun hno => nomatch hno)

end KeemashCore.OtaV3
