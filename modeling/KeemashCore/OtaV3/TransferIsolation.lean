import KeemashCore.OtaV3.Selection

/-!
# Messages of another transfer

A message names the transfer it is for by an operation and an artifact.  Each kind
checks the two in a place of its own: `matching_transfer` for data and commits,
`same_operation` below `keemash_ota_v3_flash_receiver_prepare` and
`keemash_ota_v3_flash_receiver_abort`.  All of them do so before anything is
written, so a receiver that holds one transfer is deaf to every other.
-/

namespace KeemashCore.OtaV3

variable {env : ReceiverEnv}

/-! ## Whom a message is for -/

/-- The operation and the artifact that a message names. -/
def OtaTransfer.names : OtaTransfer → Option (Id128 × Bytes)
  | .prepare operationId artifactId _ _ _ _ => operationId.map (·, artifactId)
  | .data operationId artifactId _ _ _ _ => operationId.map (·, artifactId)
  | .commit operationId artifactId _ _ => operationId.map (·, artifactId)
  | .abort operationId artifactId => operationId.map (·, artifactId)
  | .query operationId artifactId => operationId.map (·, artifactId)
  | .other => none

/-- The message is for the transfer of `artifactId` under `operationId`. -/
def OtaTransfer.isFor (message : OtaTransfer) (operationId : Vector UInt8 16)
    (artifactId : Digest) : Bool :=
  message.names.any fun name =>
    operationBytes name.1 = operationId ∧ name.2 = artifactId.toList

/-- A query only asks. -/
def OtaTransfer.isQuery : OtaTransfer → Bool
  | .query _ _ => true
  | _ => false

/-- The receiver is active or verified, and for this transfer. -/
def Receiver.isFor (r : Receiver env) (operationId : Vector UInt8 16) (artifactId : Digest) :
    Bool :=
  (r.active ∨ r.verified) ∧ r.sameOperation operationId artifactId

theorem toNat_byteAt (word : UInt64) {k : ℕ} (hk : k < 64) :
    (word >>> UInt64.ofNat k).toUInt8.toNat = word.toNat / 2 ^ k % 256 := by
  rw [UInt64.toNat_toUInt8, UInt64.toNat_shiftRight, UInt64.toNat_ofNat',
    Nat.mod_eq_of_lt (by omega : k < 2 ^ 64), Nat.mod_eq_of_lt hk, Nat.shiftRight_eq_div_pow]

theorem operationBytes_getElem (id : Id128) (i : Fin 16) :
    (operationBytes id)[i].toNat =
      (if i.val < 8 then id.high else id.low).toNat / 2 ^ (56 - 8 * (i.val % 8)) % 256 := by
  simp only [operationBytes, Fin.getElem_fin, Vector.getElem_ofFn]
  split
  · have hmod : i.val % 8 = i.val := by omega
    rw [toNat_byteAt _ (by omega), hmod]
  · have hmod : i.val % 8 = i.val - 8 := by omega
    rw [toNat_byteAt _ (by omega), hmod]

/-- The eight bytes of a word determine it. -/
theorem eq_of_bytes {a b : UInt64}
    (h : ∀ i < 8, a.toNat / 2 ^ (56 - 8 * i) % 256 = b.toNat / 2 ^ (56 - 8 * i) % 256) :
    a = b := by
  apply UInt64.toNat_inj.mp
  have ha := a.toNat_lt
  have hb := b.toNat_lt
  have h0 := h 0 (by omega)
  have h1 := h 1 (by omega)
  have h2 := h 2 (by omega)
  have h3 := h 3 (by omega)
  have h4 := h 4 (by omega)
  have h5 := h 5 (by omega)
  have h6 := h 6 (by omega)
  have h7 := h 7 (by omega)
  simp only [Nat.reduceMul, Nat.reduceSub, Nat.reducePow] at h0 h1 h2 h3 h4 h5 h6 h7
  omega

/-- Two different operations have different bytes. -/
theorem operationBytes_injective : Function.Injective operationBytes := by
  intro a b hab
  have hbyte : ∀ i : Fin 16, (operationBytes a)[i].toNat = (operationBytes b)[i].toNat := by
    intro i
    rw [hab]
  simp only [operationBytes_getElem] at hbyte
  have hhigh : a.high = b.high := by
    apply eq_of_bytes
    intro i hi
    have hword := hbyte ⟨i, by omega⟩
    simp only [if_pos hi, Nat.mod_eq_of_lt hi] at hword
    exact hword
  have hlow : a.low = b.low := by
    apply eq_of_bytes
    intro i hi
    have hword := hbyte ⟨8 + i, by omega⟩
    have hmod : (8 + i) % 8 = i := by omega
    simp only [if_neg (show ¬8 + i < 8 by omega), hmod] at hword
    exact hword
  cases a
  cases b
  cases hhigh
  cases hlow
  rfl

/-! ## One message -/

section Foreign

variable {d : Device} {r : Receiver env} {operationId : Vector UInt8 16} {artifactId : Digest}

theorem Receiver.isFor_busy (h : r.isFor operationId artifactId = true) :
    r.active = true ∨ r.verified = true := by
  simp only [Receiver.isFor, decide_eq_true_eq] at h
  exact h.1

theorem Receiver.isFor_eq (h : r.isFor operationId artifactId = true) :
    r.operationId = operationId ∧ r.artifactId = artifactId := by
  simp only [Receiver.isFor, Receiver.sameOperation, decide_eq_true_eq] at h
  exact h.2

/-- A receiver that is busy with one transfer is not busy with another. -/
theorem sameOperation_foreign (h : r.isFor operationId artifactId = true) {id : Id128}
    {bytes : Bytes} {artifact : Digest}
    (hforeign : ¬(operationBytes id = operationId ∧ bytes = artifactId.toList))
    (hartifact : asVector? 32 bytes = some artifact) :
    r.sameOperation (operationBytes id) artifact = false := by
  obtain ⟨hop, hart⟩ := Receiver.isFor_eq h
  rw [Receiver.sameOperation, decide_eq_false_iff_not]
  rintro ⟨hsame, hsameArtifact⟩
  apply hforeign
  constructor
  · rw [← hop, hsame]
  · rw [← hart, hsameArtifact, asVector?_toList hartifact]

theorem matchingTransfer_foreign (h : r.isFor operationId artifactId = true) {id : Id128}
    {bytes : Bytes}
    (hforeign : ¬(operationBytes id = operationId ∧ bytes = artifactId.toList)) :
    r.matchingTransfer id bytes = false := by
  rw [Receiver.matchingTransfer]
  split
  · rfl
  · rename_i artifact hartifact
    rw [sameOperation_foreign h hforeign hartifact]
    split <;> rfl

/-- `keemash_ota_v3_flash_receiver_prepare` on a receiver that is busy with another
transfer. -/
theorem prepare_foreign (h : r.isFor operationId artifactId = true)
    {operation : Vector UInt8 16} {artifact : Digest}
    (hforeign : r.sameOperation operation artifact = false) (target : Target)
    (signedFields : Bytes) (signature : Vector UInt8 64) (answers : Answers env) :
    ∃ err, prepare d r target operation artifact signedFields signature answers =
      (some ⟨err, none, r⟩, d) ∧ err ≠ .ok := by
  have hsame : ¬((r.sameOperation operation artifact : Prop) ∧ r.signedFields = signedFields ∧
      r.signature = signature) := by
    rw [hforeign]
    simp
  simp only [prepare, if_pos (Receiver.isFor_busy h), if_neg hsame]
  split
  · exact ⟨_, rfl, by decide⟩
  · exact ⟨_, rfl, by decide⟩

/-- `keemash_ota_v3_flash_receiver_abort` on a receiver that is busy with another
transfer. -/
theorem abort_foreign (h : r.isFor operationId artifactId = true)
    {operation : Vector UInt8 16} {artifact : Digest}
    (hforeign : r.sameOperation operation artifact = false) (answers : Answers env) :
    abort d r operation artifact answers = (some ⟨.invalidState, none, r⟩, d) := by
  rw [abort, if_pos (Receiver.isFor_busy h), hforeign]
  rfl

/-- A message for another transfer changes nothing, and only a query is answered. -/
theorem handleTransfer_foreign (h : r.isFor operationId artifactId = true)
    {message : OtaTransfer} (hforeign : message.isFor operationId artifactId = false)
    (target : Target) (answers : Answers env) :
    ∃ err, handleTransfer d r target message answers = (some ⟨err, none, r⟩, d) ∧
      (message.isQuery = false → err ≠ .ok) := by
  cases message with
  | prepare operation artifact signedFields signature requestedChunkSize requestedWindow =>
      simp only [handleTransfer]
      split
      · rename_i id vector signature hartifact hsignature
        have hother : ¬(operationBytes id = operationId ∧ artifact = artifactId.toList) := by
          simpa [OtaTransfer.isFor, OtaTransfer.names] using hforeign
        split
        · exact ⟨_, rfl, fun _ => by decide⟩
        · obtain ⟨err, hprepare, herr⟩ := @prepare_foreign env d r operationId artifactId h
            (operationBytes id) vector (sameOperation_foreign h hother hartifact) target
            signedFields signature answers
          exact ⟨err, hprepare, fun _ => herr⟩
      · exact ⟨_, rfl, fun _ => by decide⟩
  | data operation artifact block blockEncodedOffset data finalChunk =>
      simp only [handleTransfer]
      split
      · rename_i id descriptor
        have hother : ¬(operationBytes id = operationId ∧ artifact = artifactId.toList) := by
          simpa [OtaTransfer.isFor, OtaTransfer.names] using hforeign
        rw [if_pos (.inr (matchingTransfer_foreign h hother))]
        exact ⟨_, rfl, fun _ => by decide⟩
      · exact ⟨_, rfl, fun _ => by decide⟩
  | commit operation artifact blockTableSha256 imageSha256 =>
      simp only [handleTransfer]
      split
      · exact ⟨_, rfl, fun _ => by decide⟩
      · rename_i id
        have hother : ¬(operationBytes id = operationId ∧ artifact = artifactId.toList) := by
          simpa [OtaTransfer.isFor, OtaTransfer.names] using hforeign
        rw [if_pos (.inl (matchingTransfer_foreign h hother))]
        exact ⟨_, rfl, fun _ => by decide⟩
  | abort operation artifact =>
      simp only [handleTransfer]
      split
      · rename_i id vector hartifact
        have hother : ¬(operationBytes id = operationId ∧ artifact = artifactId.toList) := by
          simpa [OtaTransfer.isFor, OtaTransfer.names] using hforeign
        rw [abort_foreign h (sameOperation_foreign h hother hartifact)]
        exact ⟨_, rfl, fun _ => by decide⟩
      · exact ⟨_, rfl, fun _ => by decide⟩
  | query operation artifact =>
      simp only [handleTransfer]
      split
      · exact ⟨_, rfl, fun hno => Bool.noConfusion hno⟩
      · split
        · exact ⟨_, rfl, fun hno => Bool.noConfusion hno⟩
        · exact ⟨_, rfl, fun hno => Bool.noConfusion hno⟩
  | other => exact ⟨_, rfl, fun _ => by decide⟩

end Foreign

/-! ## Runs with two senders -/

/-- The event is a message for another transfer. -/
def ReceiverEvent.isForeign (operationId : Vector UInt8 16) (artifactId : Digest) :
    ReceiverEvent env → Bool
  | .transfer _ message _ => ¬message.isFor operationId artifactId
  | _ => false

theorem step_foreign {s : ReceiverState env} {operationId : Vector UInt8 16}
    {artifactId : Digest} (h : s.receiver.isFor operationId artifactId = true)
    {event : ReceiverEvent env} (hforeign : event.isForeign operationId artifactId = true) :
    event.step s = s := by
  cases event with
  | transfer target message answers =>
      have hother : message.isFor operationId artifactId = false := by
        simpa [ReceiverEvent.isForeign] using hforeign
      obtain ⟨err, hreply, -⟩ := @handleTransfer_foreign env s.device s.receiver operationId
        artifactId h message hother target answers
      rw [ReceiverEvent.step, hreply]
      rfl
  | activate answers => cases hforeign
  | idleAbort answers => cases hforeign
  | restart running => cases hforeign

/-- In the run of the events, each message for another transfer finds the receiver
active or verified for this one. -/
def findsBusy (operationId : Vector UInt8 16) (artifactId : Digest) :
    ReceiverState env → List (ReceiverEvent env) → Bool
  | _, [] => true
  | s, event :: events =>
      (event.isForeign operationId artifactId → s.receiver.isFor operationId artifactId) ∧
        findsBusy operationId artifactId (event.step s) events

theorem runReceiver_foreign {operationId : Vector UInt8 16} {artifactId : Digest}
    (events : List (ReceiverEvent env)) :
    ∀ s : ReceiverState env, findsBusy operationId artifactId s events = true →
      runReceiver s events =
        runReceiver s (events.filter fun event => ¬event.isForeign operationId artifactId) := by
  induction events with
  | nil =>
      intro s _
      rfl
  | cons event events ih =>
      intro s hbusy
      simp only [findsBusy, decide_eq_true_eq] at hbusy
      obtain ⟨hhead, htail⟩ := hbusy
      have hrest := ih _ htail
      by_cases hforeign : event.isForeign operationId artifactId = true
      · have hstays : event.step s = s := step_foreign (hhead hforeign) hforeign
        rw [hstays] at hrest
        rw [List.filter_cons_of_neg (by simpa using hforeign), ← hrest, runReceiver,
          List.foldl_cons, hstays]
        rfl
      · rw [List.filter_cons_of_pos (by simpa using hforeign)]
        exact hrest

/-- A receiver that is active or verified for one transfer refuses every message for
another and stays as it is, also its device.  In a run it is as if these messages had
never come, as long as they find the receiver busy with its transfer. -/
theorem transfers_isolated (operationId : Vector UInt8 16) (artifactId : Digest) :
    (∀ (d : Device) (r : Receiver env) (target : Target) (message : OtaTransfer)
        (answers : Answers env), r.isFor operationId artifactId = true →
      message.isFor operationId artifactId = false →
      ∃ err, handleTransfer d r target message answers = (some ⟨err, none, r⟩, d) ∧
        (message.isQuery = false → err ≠ .ok)) ∧
    ∀ (s : ReceiverState env) (events : List (ReceiverEvent env)),
      findsBusy operationId artifactId s events = true →
      runReceiver s events =
        runReceiver s (events.filter fun event => ¬event.isForeign operationId artifactId) := by
  constructor
  · intro d r target message answers h hforeign
    exact handleTransfer_foreign h hforeign target answers
  · intro s events hbusy
    exact runReceiver_foreign events s hbusy

/-- The messages of a second sender between those of the transfer of the letter. -/
def crossedLetter : List (ReceiverEvent twoSlots) :=
  [.transfer letterTarget
      (.prepare (some ⟨3, 4⟩) letterSignedSha256.toList letterSigned letterSignature.toList 0 0)
      smooth,
    .transfer letterTarget letterData smooth,
    .transfer letterTarget (.abort (some ⟨3, 4⟩) letterSignedSha256.toList) smooth,
    .transfer letterTarget
      (.data (some ⟨1, 2⟩) letterRawSha256.toList (some letterBlock) 0 letterEncoded true) smooth,
    .transfer letterTarget letterCommit smooth,
    .transfer letterTarget (.query none letterSignedSha256.toList) smooth,
    .transfer letterTarget (.abort none letterSignedSha256.toList) smooth]

/-- They are found to leave the transfer alone, which ends verified. -/
theorem transfers_isolated_crossedLetter :
    runReceiver
        (runReceiver (.factory twoSlots (fun _ => []) otaZero)
          [.transfer letterTarget letterPrepare smooth]) crossedLetter =
      runReceiver
        (runReceiver (.factory twoSlots (fun _ => []) otaZero)
          [.transfer letterTarget letterPrepare smooth])
        [.transfer letterTarget letterData smooth,
          .transfer letterTarget letterCommit smooth] :=
  (transfers_isolated (operationBytes ⟨1, 2⟩) letterSignedSha256).2 _ crossedLetter
    (by decide +kernel)

end KeemashCore.OtaV3
