import KeemashCore.Mesh.Delivery
import KeemashCore.Mesh.LegacyCommand

/-!
# Payload handlers and the end of the payload

Which handlers stay inside the payload they are given, whatever its bytes are.  Those of a
node and of the OTA receiver do.  The CONTROL handler of the root copies as many bytes of
text as the payload says it has, and does not compare that with the payload's length, as the
node does.
-/

namespace KeemashCore.Delivery

open Memory LittleEndian OtaReceiver
open MeshNode (channelControl controlTextMax controlTextOffset controlCommand controlResult
  controlPayloadSize sizeofOperationId textLen commandOf? controlGetOperationId flagged
  fromBytes_eq cText)

/-! ## CONTROL -/

section Handlers

variable {mem : Mem} {len : ℕ}

theorem controlPayloadSize_eq {n : ℕ} (h : n ≤ controlTextMax) :
    controlPayloadSize n false = controlTextOffset + n := by
  rw [controlPayloadSize, if_neg (by omega)]
  rfl

theorem readOperationId_within : (readOperationId len).Within len mem := by
  rw [readOperationId]
  refine within_ite (fun _ => within_pure _) fun hlen => ?_
  have hoffset : controlTextOffset = 8 := rfl
  refine within_bind_of (within_readByte (by omega)) fun rsv => ?_
  refine within_bind_of (within_readByte (by omega)) fun textLen => ?_
  refine within_ite (fun _ => within_pure _) fun _ => ?_
  refine within_ite (fun _ => within_pure _) fun hroom => ?_
  exact within_bind_of (within_read (by omega)) fun _ => within_pure _

theorem nodeControl_within (h : controlTextOffset ≤ len) : (nodeControl len).Within len mem := by
  have hoffset : controlTextOffset = 8 := rfl
  rw [nodeControl]
  refine within_bind_of (within_readByte (by omega)) fun kind => ?_
  refine within_bind_of (within_readByte (by omega)) fun textLen => ?_
  refine within_ite (fun _ => within_pure _) fun hchecked => ?_
  refine within_bind_of readOperationId_within fun operationId => ?_
  refine within_bind_of (within_readByte (by omega)) fun rsv => ?_
  refine within_ite (fun _ => within_pure _) fun _ => ?_
  refine within_bind_of (within_readWord (by omega)) fun commandId => ?_
  exact within_bind_of (within_read (by omega)) fun _ => within_pure _

/-- The root's handler copies the text before it looks at anything else. -/
theorem rootControl_within_iff (h : controlTextOffset ≤ len) :
    (rootControl len).Within len mem ↔
      ((mem 0 = controlResult ∨ mem 0 = controlEvent) ∧ 0 < (mem 2).toNat ∧
        (mem 2).toNat ≤ controlTextMax → controlTextOffset + (mem 2).toNat ≤ len) := by
  have hoffset : controlTextOffset = 8 := rfl
  have hkind : (readByte 0).Within len mem := within_readByte (by omega)
  have hlength : (readByte 2).Within len mem := within_readByte (by omega)
  have hrest (text : List UInt8) : (do
      let operationId ← readOperationId len
      let rsv ← readByte 3
      if rsv &&& MeshNode.controlFlagOperationId ≠ 0 ∧ operationId = none then pure none
      else do
        let commandId ← readWord 4 4
        let status ← readByte 1
        pure (some (RootCall.control (mem 0) commandId status (cText text) operationId)) :
      Access (Option RootCall)).Within len mem := by
    refine within_bind_of readOperationId_within fun operationId => ?_
    refine within_bind_of (within_readByte (by omega)) fun rsv => ?_
    refine within_ite (fun _ => within_pure _) fun _ => ?_
    refine within_bind_of (within_readWord (by omega)) fun commandId => ?_
    exact within_bind_of (within_readByte (by omega)) fun _ => within_pure _
  by_cases htext : (mem 0 = controlResult ∨ mem 0 = controlEvent) ∧ 0 < (mem 2).toNat ∧
      (mem 2).toNat ≤ controlTextMax
  · have hcopied : (rootControl len).Within len mem ↔
        (read controlTextOffset (mem 2).toNat).Within len mem := by
      rw [rootControl, within_bind, and_iff_right hkind, within_bind, and_iff_right hlength]
      have hread : (readByte 0).result mem = mem 0 ∧ (readByte 2).result mem = mem 2 :=
        ⟨rfl, rfl⟩
      rw [hread.1, hread.2, if_neg (not_not_intro htext), within_bind]
      exact and_iff_left (hrest _)
    rw [hcopied, within_read_iff]
    have hpos := htext.2.1
    constructor
    · rintro hor -
      omega
    · intro hle
      exact .inr (hle htext)
  · refine iff_of_true ?_ fun h => absurd h htext
    rw [rootControl, within_bind, and_iff_right hkind, within_bind, and_iff_right hlength]
    have hread : (readByte 0).result mem = mem 0 ∧ (readByte 2).result mem = mem 2 :=
      ⟨rfl, rfl⟩
    rw [hread.1, hread.2, if_pos htext]
    exact within_pure _

/-! ## The other channels of the root -/

theorem sensorEntriesValid_within (n i : ℕ) (h : 16 + 8 * (i + n) ≤ len) :
    (sensorEntriesValid i n).Within len mem := by
  induction n generalizing i with
  | zero => exact within_pure _
  | succ n ih =>
      have hentry : (sensorEntryValid i).Within len mem := by
        rw [sensorEntryValid]
        refine within_bind_of (within_readWord (by omega)) fun metricId => ?_
        refine within_bind_of (within_readByte (by omega)) fun status => ?_
        exact within_bind_of (within_readByte (by omega)) fun _ => within_pure _
      rw [sensorEntriesValid]
      refine within_bind_of hentry fun valid => ?_
      exact within_ite (fun _ => ih (i + 1) (by omega)) fun _ => within_pure _

theorem sensorSnapshotValid_within : (sensorSnapshotValid len).Within len mem := by
  rw [sensorSnapshotValid]
  refine within_ite (fun _ => within_pure _) fun hlen => ?_
  have hsize : len = 112 := not_not.mp hlen
  refine within_bind_of (within_readByte (by omega)) fun count => ?_
  refine within_ite (fun _ => within_pure _) fun hcount => ?_
  have hmax : sensorMaxEntries = 12 := rfl
  exact sensorEntriesValid_within count.toNat 0 (by omega)

/-- The snapshot is long enough once it is valid. -/
theorem length_of_sensorSnapshotValid (h : (sensorSnapshotValid len).result mem = true) :
    len = sizeofSensorSnapshot := by
  by_contra hne
  rw [sensorSnapshotValid, if_pos hne] at h
  exact Bool.noConfusion h

theorem rootDeliver_within_of_ne {channel : ℕ} (h : channel ≠ channelControl) :
    (rootDeliver channel len).Within len mem := by
  rw [rootDeliver]
  refine within_ite (fun hnode => ?_) fun _ => ?_
  · have hsize : sizeofNodeinfo = 20 := rfl
    have htag : tagMax = 16 := rfl
    refine within_bind_of (within_readText (by omega)) fun tag => ?_
    exact within_bind_of (within_readWord (by omega)) fun _ => within_pure _
  refine within_ite (fun hlog => ?_) fun _ => ?_
  · have hsize : sizeofTunnelLog = 144 := rfl
    have htag : tagMax = 16 := rfl
    have hline : logLineMax = 128 := rfl
    refine within_bind_of (within_readText (by omega)) fun tag => ?_
    exact within_bind_of (within_readText (by omega)) fun _ => within_pure _
  refine within_ite (fun htask => ?_) fun _ => ?_
  · exact within_bind_of (within_lend (by omega)) fun _ => within_pure _
  refine within_ite (fun hmemory => ?_) fun _ => ?_
  · exact within_bind_of (within_lend (by omega)) fun _ => within_pure _
  refine within_ite (fun hsensor => ?_) fun _ => ?_
  · refine within_bind.mpr ⟨sensorSnapshotValid_within, ?_⟩
    refine within_ite (fun hvalid => ?_) fun _ => within_pure _
    have hlen := length_of_sensorSnapshotValid hvalid
    exact within_bind_of (within_lend (by omega)) fun _ => within_pure _
  refine within_ite (fun hota => ?_) fun _ => ?_
  · refine within_ite (fun _ => within_pure _) fun hpos => ?_
    refine within_bind_of (within_readByte (by omega)) fun op => ?_
    refine within_ite (fun _ => ?_) fun _ => ?_
    · exact within_bind_of (within_lend (by omega)) fun _ => within_pure _
    · refine within_ite (fun _ => ?_) fun _ => within_pure _
      exact within_bind_of (within_lend (by omega)) fun _ => within_pure _
  refine within_ite (fun htopology => ?_) fun _ => ?_
  · exact within_bind_of (within_lend (by omega)) fun _ => within_pure _
  rw [if_neg fun hcontrol => h hcontrol.1]
  exact within_pure _

/-! ## The OTA v2 receiver -/

theorem handleV2_within (answers : V2Answers) : (handleV2 answers len).Within len mem := by
  have hcommon : sizeofV2Common = 180 := rfl
  rw [handleV2]
  refine within_ite (fun _ => within_pure _) fun _ => ?_
  refine within_ite (fun _ => within_pure _) fun hlen => ?_
  refine within_ite (fun _ => within_pure _) fun _ => ?_
  refine within_ite (fun _ => within_pure _) fun _ => ?_
  refine within_bind_of (within_readByte (by omega)) fun op => ?_
  refine within_ite (fun _ => within_pure _) fun _ => ?_
  refine within_bind_of (within_read (by omega)) fun item => ?_
  refine within_ite (fun _ => within_pure _) fun _ => ?_
  refine within_bind_of (within_readWord (by omega)) fun opId => ?_
  exact within_bind_of (within_readWord (by omega)) fun _ => within_pure _

theorem readV2Common_within (h : sizeofV2Common ≤ len) : readV2Common.Within len mem := by
  have hcommon : sizeofV2Common = 180 := rfl
  have hproject : otaProjectMax = 32 := rfl
  rw [readV2Common]
  refine within_bind_of (within_readWord (by omega)) fun opId => ?_
  refine within_bind_of (within_readWord (by omega)) fun imageSize => ?_
  refine within_bind_of (within_readWord (by omega)) fun offset => ?_
  refine within_bind_of (within_readWord (by omega)) fun chunkLen => ?_
  refine within_bind_of (within_read (by omega)) fun projectName => ?_
  refine within_bind_of (within_readText (by omega)) fun version => ?_
  exact within_bind_of (within_read (by omega)) fun _ => within_pure _

variable {env : RxEnv} {r : OtaRx} {answers : RxAnswers}

/-- The chunk of a DATA payload lies inside whatever length its header states. -/
theorem handleV2DataReads_within (c : V2Common) :
    (handleV2DataReads env r c len answers).Within len mem := by
  rw [handleV2DataReads]
  split
  · refine within_ite (fun _ => within_pure _) fun _ => ?_
    refine within_ite (fun _ => within_pure _) fun hchunk => ?_
    refine within_ite (fun _ => ?_) fun _ => ?_
    · exact within_ite (fun _ => within_pure _) fun _ => within_pure _
    · have hroom : sizeofV2Common + c.len.toNat ≤ len := by
        by_contra hshort
        exact hchunk (.inr (.inr (.inl (Nat.not_le.mp hshort))))
      exact within_bind_of (within_read hroom) fun _ => within_pure _
  · exact within_pure _

theorem processV2Reads_within (h : 0 < len) :
    (processV2Reads env r len answers).Within len mem := by
  rw [processV2Reads]
  refine within_bind_of (within_readByte h) fun op => ?_
  refine within_ite (fun _ => within_pure _) fun _ => ?_
  refine within_ite (fun _ => within_pure _) fun hcommon => ?_
  refine within_bind_of (readV2Common_within (Nat.not_lt.mp hcommon)) fun c => ?_
  split
  · exact within_pure _
  · exact handleV2DataReads_within c
  · exact within_pure _
  · exact within_pure _

theorem workV2_within (h : 0 < len) (locked : Bool) :
    (workV2 env r len locked answers).Within len mem := by
  have hcommon : sizeofV2Common = 180 := rfl
  rw [workV2]
  refine within_ite (fun _ => ?_) fun _ => ?_
  · refine within_ite (fun hlen => ?_) fun _ => within_pure _
    refine within_bind_of (within_readByte h) fun op => ?_
    refine within_bind_of (within_readWord (by omega)) fun opId => ?_
    exact within_bind_of (within_readWord (by omega)) fun _ => within_pure _
  · exact within_bind_of (processV2Reads_within h) fun _ => within_pure _

/-! ## A node -/

theorem nodeOtaV2_within (answers : NodeAnswers) : (nodeOtaV2 answers len).Within len mem := by
  rw [nodeOtaV2]
  refine within_ite (fun _ => within_pure _) fun _ => ?_
  refine within_ite (fun _ => ?_) fun _ => within_pure _
  exact within_bind_of (handleV2_within answers.v2) fun _ => within_pure _

theorem nodeOta_within (answers : NodeAnswers) : (nodeOta answers len).Within len mem := by
  rw [nodeOta]
  refine within_ite (fun hv3 => ?_) fun _ => nodeOtaV2_within answers
  refine within_bind_of (within_readByte hv3.2) fun first => ?_
  refine within_ite (fun _ => ?_) fun _ => nodeOtaV2_within answers
  refine within_ite (fun _ => within_pure _) fun _ => ?_
  rw [handleV3]
  refine within_ite (fun _ => within_pure _) fun _ => ?_
  refine within_ite (fun _ => within_pure _) fun _ => ?_
  exact within_bind_of (within_read (by omega)) fun _ => within_pure _

theorem nodeDeliver_within (answers : NodeAnswers) (channel : ℕ) :
    (nodeDeliver answers channel len).Within len mem := by
  have hrequest : sizeofTaskRequest = 8 := rfl
  rw [nodeDeliver]
  refine within_ite (fun htask => ?_) fun _ => ?_
  · exact within_bind_of (within_readWord (by omega)) fun _ => within_pure _
  refine within_ite (fun _ => nodeOta_within answers) fun _ => ?_
  refine within_ite (fun htime => ?_) fun _ => ?_
  · exact within_bind_of (within_lend (by omega)) fun _ => within_pure _
  refine within_ite (fun _ => within_pure _) fun hcontrol => ?_
  exact nodeControl_within (by omega)

end Handlers

/-! ## What is read is what the list of bytes says -/

section Results

variable {mem : Mem} {payload : List UInt8}

theorem readOperationId_result (hmem : Holds mem payload) :
    (readOperationId payload.length).result mem = controlGetOperationId payload := by
  have hoffset : controlTextOffset = 8 := rfl
  have hsize : sizeofOperationId = 16 := rfl
  rw [readOperationId, controlGetOperationId, result_ite]
  refine ite_congr rfl (fun _ => rfl) fun hlen => ?_
  have hrsv : (readByte 3).result mem = payload.getD 3 0 := hmem.readByte (by omega)
  have htext : (readByte 2).result mem = payload.getD 2 0 := hmem.readByte (by omega)
  have hskip : ((!flagged payload || decide (textLen payload > controlTextMax)) = true) ↔
      (payload.getD 3 0 &&& MeshNode.controlFlagOperationId = 0 ∨
        (payload.getD 2 0).toNat > controlTextMax) := by
    rw [Bool.or_eq_true, Bool.not_eq_true', flagged, decide_eq_false_iff_not, ne_eq, not_not,
      decide_eq_true_iff, textLen]
  rw [result_bind, result_bind, hrsv, htext, result_ite]
  refine ite_congr (propext hskip.symm) (fun _ => rfl) fun hgoes => ?_
  simp only [result_ite, textLen]
  refine ite_congr rfl (fun _ => rfl) fun hroom => ?_
  set base := controlPayloadSize (payload.getD 2 0).toNat false
  have hbytes : (read base sizeofOperationId).result mem = field payload base 16 :=
    hmem.read (by omega)
  have hhigh : (field payload base 16).take 8 = (payload.drop base).take 8 := by
    rw [field, List.take_take]
    rfl
  have hlow : ((field payload base 16).drop 8).take 8 = (payload.drop (base + 8)).take 8 := by
    rw [field, List.drop_take, List.drop_drop, List.take_take]
    rfl
  have hword (bytes : List UInt8) :
      BitVec.ofNat 64 (MeshNode.fromBytes bytes) = fromLeBytes 64 bytes := by
    rw [fromBytes_eq]
    rfl
  rw [result_bind, hbytes, hhigh, hlow]
  simp only [hword]
  rfl

/-- What the node makes of a CONTROL payload in memory is the command of its bytes. -/
theorem nodeControl_result (hmem : Holds mem payload)
    (hlen : controlTextOffset ≤ payload.length) :
    (nodeControl payload.length).result mem = (commandOf? payload).map .command := by
  have hoffset : controlTextOffset = 8 := rfl
  have hkind : (readByte 0).result mem = payload.getD 0 0 := hmem.readByte (by omega)
  have htext : (readByte 2).result mem = payload.getD 2 0 := hmem.readByte (by omega)
  have hrsv : (readByte 3).result mem = payload.getD 3 0 := hmem.readByte (by omega)
  rw [nodeControl, commandOf?, if_neg (Nat.not_lt.mpr hlen), result_bind, result_bind, hkind,
    htext, result_ite, apply_ite (Option.map NodeCall.command)]
  refine ite_congr rfl (fun _ => rfl) fun hchecked => ?_
  have hflag : (payload.getD 3 0 &&& MeshNode.controlFlagOperationId ≠ 0 ∧
      controlGetOperationId payload = none) ↔
      (flagged payload = true ∧ controlGetOperationId payload = none) := by
    rw [flagged, decide_eq_true_iff]
  rw [result_bind, readOperationId_result hmem, result_bind, hrsv, result_ite,
    apply_ite (Option.map NodeCall.command)]
  refine ite_congr (propext hflag) (fun _ => rfl) fun _ => ?_
  have hid : (readWord 4 4).result mem =
      BitVec.ofNat 32 (MeshNode.fromBytes ((payload.drop 4).take 4)) := by
    rw [hmem.readWord (by omega), fromBytes_eq]
    rfl
  have htl : textLen payload = (payload.getD 2 0).toNat := rfl
  have hcopy : (read controlTextOffset (payload.getD 2 0).toNat).result mem =
      (payload.drop controlTextOffset).take (textLen payload) :=
    hmem.read (by omega)
  rw [result_bind, hid, result_bind, hcopy]
  rfl

theorem readV2Common_result (hmem : Holds mem payload)
    (hlen : sizeofV2Common ≤ payload.length) : readV2Common.result mem = v2Common payload := by
  have hcommon : sizeofV2Common = 180 := rfl
  have hproject : otaProjectMax = 32 := rfl
  have hword {offset : ℕ} (h : offset + 4 ≤ payload.length) :
      (readWord 4 offset).result mem = field32 payload offset := by
    rw [hmem.readWord h, field32, fromBytes_eq]
    rfl
  have hname : (read 20 otaProjectMax).result mem = (payload.drop 20).take otaProjectMax :=
    hmem.read (by omega)
  have hsha : (read 84 32).result mem = field payload 84 32 := hmem.read (by omega)
  have hdigest (i : Fin 32) : (field payload 84 32).getD i.val 0 = payload.getD (84 + i.val) 0 := by
    rw [field, List.getD_eq_getElem?_getD, List.getD_eq_getElem?_getD,
      List.getElem?_take_of_lt i.isLt, List.getElem?_drop]
  rw [readV2Common]
  simp only [result_bind, result_pure]
  rw [hword (by omega), hword (by omega), hword (by omega), hword (by omega), hname, hsha,
    v2Common]
  simp only [hdigest]

variable {env : RxEnv} {r : OtaRx} {answers : RxAnswers}

theorem handleV2DataReads_result (hmem : Holds mem payload)
    (hlen : sizeofV2Common ≤ payload.length) (c : V2Common) :
    (handleV2DataReads env r c payload.length answers).result mem =
      handleV2Data env r c (payload.drop sizeofV2Common) answers := by
  have hroom : ((payload.drop sizeofV2Common).length < c.len.toNat) =
      (payload.length < sizeofV2Common + c.len.toNat) := by
    rw [List.length_drop]
    apply propext
    omega
  rw [handleV2DataReads, handleV2Data]
  generalize r.finishStaleAbort env answers.now = r
  generalize hhandle : r.ota.handle = found
  cases hactive : r.ota.active
  · rfl
  cases found with
  | none => rfl
  | some handle =>
      simp only [result_ite, hroom]
      refine ite_congr rfl (fun _ => rfl) fun _ => ?_
      refine ite_congr rfl (fun _ => rfl) fun hchunk => ?_
      refine ite_congr rfl (fun _ => rfl) fun _ => ?_
      have hbytes : (read sizeofV2Common c.len.toNat).result mem =
          (payload.drop sizeofV2Common).take c.len.toNat := by
        apply hmem.read
        by_contra hshort
        exact hchunk (.inr (.inr (.inl (Nat.not_le.mp hshort))))
      rw [result_bind, hbytes]
      rfl

/-- What the worker makes of an item in memory is what it makes of its bytes. -/
theorem processV2Reads_result (hmem : Holds mem payload) (hpos : 0 < payload.length) :
    (processV2Reads env r payload.length answers).result mem =
      processV2Payload env r (v2Payload payload) answers := by
  have hop : (readByte 0).result mem = payload.getD 0 0 := hmem.readByte hpos
  rw [processV2Reads, result_bind, hop, result_ite, result_ite, result_bind, v2Payload]
  generalize (payload.getD 0 0).toNat = n
  by_cases hunknown : n < 1 ∨ n > 4
  · rw [if_pos hunknown]
    match n, hunknown with
    | 0, _ => rfl
    | n + 5, _ => rfl
  · rw [if_neg hunknown]
    have hknown : n = 1 ∨ n = 2 ∨ n = 3 ∨ n = 4 := by omega
    by_cases hshort : payload.length < sizeofV2Common
    · rw [if_pos hshort]
      obtain rfl | rfl | rfl | rfl := hknown
      all_goals
        simp only [if_pos hshort]
        rfl
    · have hlen : sizeofV2Common ≤ payload.length := Nat.not_lt.mp hshort
      rw [if_neg hshort, readV2Common_result hmem hlen]
      obtain rfl | rfl | rfl | rfl := hknown
      all_goals simp only [if_neg hshort]
      · rfl
      · exact handleV2DataReads_result hmem hlen _
      · rfl
      · rfl

end Results

/-! ## Every channel, every payload -/

/-- The payload is a result or an event for the root, and states more text than it carries. -/
def RootOverrun (channel : ℕ) (payload : List UInt8) : Prop :=
  channel = channelControl ∧ controlTextOffset ≤ payload.length ∧
    (payload.getD 0 0 = controlResult ∨ payload.getD 0 0 = controlEvent) ∧
    textLen payload ≤ controlTextMax ∧ payload.length < controlTextOffset + textLen payload

instance (channel : ℕ) (payload : List UInt8) : Decidable (RootOverrun channel payload) :=
  inferInstanceAs (Decidable (_ ∧ _ ∧ _ ∧ _ ∧ _))

section Payload

variable {mem : Mem} {payload : List UInt8}

theorem rootDeliver_within_iff (hmem : Holds mem payload) (channel : ℕ) :
    (rootDeliver channel payload.length).Within payload.length mem ↔
      ¬RootOverrun channel payload := by
  by_cases hchannel : channel = channelControl
  · subst hchannel
    have hdispatch : rootDeliver channelControl payload.length =
        if controlTextOffset ≤ payload.length then rootControl payload.length else pure none := by
      simp [rootDeliver, channelControl, channelNodeinfo, channelLog, channelTask,
        channelMemory, channelSensor, channelOta, channelTopology]
    rw [hdispatch]
    by_cases hlen : controlTextOffset ≤ payload.length
    · have hoffset : controlTextOffset = 8 := rfl
      have hkind : mem 0 = payload.getD 0 0 := hmem 0 (by omega)
      have htext : (mem 2).toNat = textLen payload := by
        rw [hmem 2 (by omega), textLen]
      rw [if_pos hlen, rootControl_within_iff hlen, hkind, htext, RootOverrun]
      constructor
      · rintro hchecked ⟨-, -, hreply, hmax, hshort⟩
        have hroom := hchecked ⟨hreply, by omega, hmax⟩
        omega
      · rintro hnot ⟨hreply, -, hmax⟩
        by_contra hshort
        exact hnot ⟨rfl, hlen, hreply, hmax, Nat.not_le.mp hshort⟩
    · rw [if_neg hlen]
      exact iff_of_true (within_pure _) fun h => hlen h.2.1
  · exact iff_of_true (rootDeliver_within_of_ne hchannel) fun h => hchannel h.1

/-- Whatever stands behind the payload, the handlers of a node and of the OTA receiver read
nothing of it, and the root's handler does exactly when the payload is a result or an event
that states more text than it carries. -/
theorem handlers_stay_inside (hmem : Holds mem payload) (hpos : 0 < payload.length)
    (channel : ℕ) :
    ((rootDeliver channel payload.length).Within payload.length mem ↔
        ¬RootOverrun channel payload) ∧
      (∀ answers, (nodeDeliver answers channel payload.length).Within payload.length mem) ∧
      (∀ answers, (handleV2 answers payload.length).Within payload.length mem) ∧
      (∀ env r locked answers,
        (workV2 env r payload.length locked answers).Within payload.length mem) :=
  ⟨rootDeliver_within_iff hmem channel, fun answers => nodeDeliver_within answers channel,
    fun answers => handleV2_within answers, fun _ _ locked _ => workV2_within hpos locked⟩

end Payload

/-- A result of two bytes of text, that carries them. -/
def okResult : List UInt8 := [2, 0, 2, 0, 1, 0, 0, 0, 111, 107]

theorem handlers_stay_inside_okResult :
    (rootDeliver channelControl okResult.length).Within okResult.length
        (fun i => okResult.getD i 0) ∧
      (nodeDeliver ⟨true, false, false, true, ⟨false, true, true⟩⟩ channelControl
        okResult.length).Within okResult.length (fun i => okResult.getD i 0) := by
  obtain ⟨hroot, hnode, -, -⟩ :=
    handlers_stay_inside (holds_getD okResult) (by decide) channelControl
  exact ⟨hroot.mpr (by decide), hnode _⟩

/-- A result of eight bytes that states 128 bytes of text. -/
def bareResult : List UInt8 := [2, 0, 128, 0, 0, 0, 0, 0]

theorem rootDeliver_leaves_bareResult :
    ¬(rootDeliver channelControl bareResult.length).Within bareResult.length
      (fun i => bareResult.getD i 0) := by
  rw [rootDeliver_within_iff (holds_getD bareResult)]
  decide

end KeemashCore.Delivery
