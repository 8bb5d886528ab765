import KeemashCore.Mesh.DeliveryBounds
import KeemashCore.Mesh.PendingTime
import Mathlib.Data.List.TakeWhile

/-!
# CONTROL payloads between a root and a node

`mesh_v2_root_send_command_operation` builds what the node's `rel_deliver_cb` parses, and
`rel_send_control` what the root's does.  An operation id follows the text, and a bit of the
header says that it is there: a payload that sets the bit and carries no id is dropped by
either side.
-/

namespace KeemashCore.Delivery

open Memory LittleEndian Rel SlotTable
open MeshNode (OperationId Command Node HookAnswers channelControl controlTextMax
  controlTextOffset controlCommand controlResult controlFlagOperationId controlPayloadSize
  sizeofOperationId textLen flagged commandOf? controlGetOperationId controlWire toBytes
  fromBytes fromBytes_eq cText)

/-! ## The root -/

/-- `MESH_V2_CAP_OPERATION_ID`. -/
def capOperationId : U32 := 0x00001000#32

/-- `keemash_rel_peer_capabilities`. -/
def peerCapabilities (c : Ctx) (mac : Mac) (now : U32) : Ctx × U32 :=
  match peerFind c mac false now with
  | (c, none) => (c, 0)
  | (c, some key) => (c, (c.peer key).capabilities)

/-- `mesh_v2_root_peer_advertises_lossless`, with whether `s_rel_lock` was taken in time. -/
def peerAdvertisesLossless (c : Ctx) (mac : Mac) (requiredCaps : U32) (locked : Bool)
    (now : U32) : Ctx × Bool :=
  if !locked then (c, false)
  else
    let caps := peerCapabilities c mac now
    let required := requiredCapabilities ||| requiredCaps
    (caps.1, caps.2 &&& required == required)

/-- Both words of an operation id are zero. -/
def idZero (id : OperationId) : Bool :=
  id.high == 0 && id.low == 0

/-- The bytes that `mesh_v2_root_send_command_operation` builds. -/
def commandWire (commandId : U32) (command : List UInt8) (operationId : Option OperationId) :
    List UInt8 :=
  [controlCommand, 0, UInt8.ofNat command.length,
      if operationId.isSome then controlFlagOperationId else 0] ++
    toBytes 4 commandId.toNat ++ command ++
    match operationId with
    | none => []
    | some id => toBytes 8 id.high.toNat ++ toBytes 8 id.low.toNat

/-- `mesh_v2_root_send_command_operation`; `locked` and `lockedAgain` tell whether
`s_rel_lock` was taken in time for the capabilities and for the send. -/
def sendCommandOperation (c : Ctx) (mac : Mac) (commandId : U32) (command : List UInt8)
    (operationId : Option OperationId) (locked lockedAgain : Bool) (now : U32) : Ctx × EspErr :=
  if command = [] then (c, .invalidArg)
  else if command.length ≥ controlTextMax then (c, .invalidSize)
  else if operationId.any idZero then (c, .invalidArg)
  else
    let advertised :=
      if operationId.isSome then peerAdvertisesLossless c mac capOperationId locked now
      else (c, true)
    if !advertised.2 then (advertised.1, .notSupported)
    else if !lockedAgain then (advertised.1, .timeout)
    else
      let payloadLen := controlPayloadSize command.length operationId.isSome
      if payloadLen = 0 ∨ payloadLen > reliableInnerMax then (advertised.1, .invalidSize)
      else
        let sent := submit advertised.1 mac channelControl
          (commandWire commandId command operationId) priorityControl now
        (sent.1, sent.2.1)

/-- `command_result_slot_t`; `operationId` is `none` where `has_operation_id` is false. -/
structure CommandResultSlot where
  peer : Mac
  rootSessionId : U32
  nodeSessionId : U32
  commandId : U32
  operationId : Option OperationId
  status : UInt8
  seenCount : U32
  updatedMs : U32
  text : List UInt8
  firstText : List UInt8
  textChanged : Bool
  deriving DecidableEq, Repr

/-- `s_command_results` and `s_command_result_next`. -/
structure CommandResults where
  slots : List (Option CommandResultSlot)
  next : BitVec 8

/-- `COMMAND_RESULT_CACHE_SIZE`. -/
def commandResultCacheSize : ℕ := 32

/-- The sessions of a link as `current_rel_stats` reports them. -/
structure LinkSessions where
  root : U32
  node : U32
  deriving DecidableEq, Repr

/-- The slot is the one of a command of a peer, under the sessions if those are known. -/
def CommandResultSlot.isFor (peer : Mac) (sessions : Option LinkSessions) (commandId : U32)
    (operationId : Option OperationId) (slot : CommandResultSlot) : Bool :=
  slot.peer == peer &&
    sessions.all (fun s => slot.rootSessionId == s.root && slot.nodeSessionId == s.node) &&
    match operationId with
    | some id => slot.operationId == some id
    | none => slot.operationId == none && slot.commandId == commandId

/-- What `note_command_result` writes to the slot of the command. -/
def CommandResultSlot.note (commandId : U32) (status : UInt8) (text : List UInt8) (now : U32)
    (slot : CommandResultSlot) : CommandResultSlot :=
  { slot with
    commandId := commandId
    status := status
    seenCount := slot.seenCount + 1
    updatedMs := now
    text := text }

/-- The slot of a command that has none. -/
def CommandResultSlot.start (peer : Mac) (sessions : Option LinkSessions) (commandId : U32)
    (operationId : Option OperationId) (text : List UInt8) : CommandResultSlot where
  peer := peer
  rootSessionId := (sessions.map LinkSessions.root).getD 0
  nodeSessionId := (sessions.map LinkSessions.node).getD 0
  commandId := commandId
  operationId := operationId
  status := 0
  seenCount := 0
  updatedMs := 0
  text := []
  firstText := text
  textChanged := false

/-- `note_command_result`; `strncpy` keeps 63 bytes. -/
def noteCommandResult (results : CommandResults) (peer : Mac) (sessions : Option LinkSessions)
    (commandId : U32) (operationId : Option OperationId) (status : UInt8) (text : List UInt8)
    (now : U32) : CommandResults :=
  let newText := text.take 63
  let put (i : ℕ) (slot : CommandResultSlot) :=
    results.slots.set i (some (slot.note commandId status newText now))
  match findIdx (CommandResultSlot.isFor peer sessions commandId operationId) results.slots with
  | some i =>
      { results with
        slots :=
          match entryAt results.slots i with
          | none => results.slots
          | some slot =>
              put i { slot with textChanged := slot.textChanged || slot.text != newText } }
  | none =>
      { slots := put (results.next.toNat % commandResultCacheSize)
          (CommandResultSlot.start peer sessions commandId operationId newText)
        next := results.next + 1 }

/-- `rel_deliver_cb` of the root, with the results that it notes.  That the node was heard is
noted before, whatever the payload holds, and is left out. -/
def rootRelDeliver (results : CommandResults) (peer : Mac) (sessions : Option LinkSessions)
    (channel len : ℕ) (now : U32) : Access (CommandResults × Option RootCall) := do
  let call ← rootDeliver channel len
  match call with
  | some (.control kind commandId status text operationId) =>
      if kind = controlResult then
        pure (noteCommandResult results peer sessions commandId operationId status text now, call)
      else pure (results, call)
  | call => pure (results, call)

/-! ## The layout -/

section Layout

/-- The operation id behind the text. -/
def trailer : Option OperationId → List UInt8
  | none => []
  | some id => toBytes 8 id.high.toNat ++ toBytes 8 id.low.toNat

/-- A CONTROL payload with everything in its place. -/
def layout (kind status : UInt8) (commandId : U32) (text : List UInt8)
    (operationId : Option OperationId) : List UInt8 :=
  [kind, status, UInt8.ofNat text.length,
      if operationId.isSome then controlFlagOperationId else 0] ++
    toBytes 4 commandId.toNat ++ text ++ trailer operationId

theorem length_toBytes (n value : ℕ) : (toBytes n value).length = n := by
  rw [toBytes, List.length_map, List.length_range]

theorem ofNat_fromBytes_toBytes {n w : ℕ} (hw : w = 8 * n) (word : BitVec w) :
    BitVec.ofNat w (fromBytes (toBytes n word.toNat)) = word := by
  subst hw
  have hlt : word.toNat < 256 ^ n := by
    have hword := word.isLt
    rwa [Nat.pow_mul] at hword
  rw [MeshNode.fromBytes_toBytes, Nat.mod_eq_of_lt hlt, BitVec.ofNat_toNat, BitVec.setWidth_eq]

theorem length_trailer (operationId : Option OperationId) :
    (trailer operationId).length = if operationId.isSome then sizeofOperationId else 0 := by
  cases operationId with
  | none => rfl
  | some id =>
      rw [trailer, List.length_append, length_toBytes, length_toBytes]
      rfl

variable {kind status : UInt8} {commandId : U32} {text : List UInt8}
  {operationId : Option OperationId}

theorem length_layout :
    (layout kind status commandId text operationId).length =
      controlTextOffset + text.length + (trailer operationId).length := by
  have hoffset : controlTextOffset = 8 := rfl
  simp only [layout, List.length_append, List.length_cons, List.length_nil, length_toBytes]
  omega

theorem drop_text_layout :
    (layout kind status commandId text operationId).drop controlTextOffset =
      text ++ trailer operationId := by
  have hhead : ([kind, status, UInt8.ofNat text.length,
      if operationId.isSome then controlFlagOperationId else 0] ++
        toBytes 4 commandId.toNat).length = controlTextOffset := by
    rw [List.length_append, length_toBytes]
    rfl
  rw [layout, List.append_assoc, ← hhead, List.drop_left]

theorem text_layout :
    ((layout kind status commandId text operationId).drop controlTextOffset).take text.length =
      text := by
  rw [drop_text_layout]
  exact List.take_left

theorem drop_trailer_layout :
    (layout kind status commandId text operationId).drop (controlTextOffset + text.length) =
      trailer operationId := by
  rw [← List.drop_drop, drop_text_layout]
  exact List.drop_left

theorem commandId_layout :
    ((layout kind status commandId text operationId).drop 4).take 4 =
      toBytes 4 commandId.toNat := by
  have hhead : (layout kind status commandId text operationId).drop 4 =
      toBytes 4 commandId.toNat ++ (text ++ trailer operationId) := by
    rw [layout, List.append_assoc, List.append_assoc]
    rfl
  rw [hhead]
  exact List.take_left' (length_toBytes 4 _)

theorem textLen_layout (h : text.length ≤ controlTextMax) :
    textLen (layout kind status commandId text operationId) = text.length := by
  have hmax : controlTextMax = 128 := rfl
  have hbyte : (layout kind status commandId text operationId).getD 2 0 =
      UInt8.ofNat text.length := rfl
  rw [textLen, hbyte, UInt8.toNat_ofNat', Nat.mod_eq_of_lt (by omega)]

theorem flagged_layout :
    flagged (layout kind status commandId text operationId) = operationId.isSome := by
  have hbyte : (layout kind status commandId text operationId).getD 3 0 =
      if operationId.isSome then controlFlagOperationId else 0 := rfl
  rw [flagged, hbyte]
  cases operationId with
  | none => decide
  | some id =>
      have hset : controlFlagOperationId &&& controlFlagOperationId ≠ 0 := by decide
      exact decide_eq_true hset

/-- The operation id is found behind the text. -/
theorem operationId_layout (h : text.length ≤ controlTextMax)
    (hid : ∀ id ∈ operationId, idZero id = false) :
    controlGetOperationId (layout kind status commandId text operationId) = operationId := by
  have hlength := @length_layout kind status commandId text operationId
  have hoffset : ¬(layout kind status commandId text operationId).length < controlTextOffset := by
    omega
  rw [controlGetOperationId, if_neg hoffset, flagged_layout, textLen_layout h,
    controlPayloadSize_eq h]
  cases operationId with
  | none => rfl
  | some id =>
      have hsize : sizeofOperationId = 16 := rfl
      have htrailer := length_trailer (some id)
      have hroom : ¬(controlTextOffset + text.length = 0 ∨
          (layout kind status commandId text (some id)).length <
            controlTextOffset + text.length + sizeofOperationId) := by
        have hpos : controlTextOffset = 8 := rfl
        rw [hlength, htrailer]
        simp only [Option.isSome_some, if_true]
        omega
      have hhigh : ((layout kind status commandId text (some id)).drop
          (controlTextOffset + text.length)).take 8 = toBytes 8 id.high.toNat := by
        rw [drop_trailer_layout]
        exact List.take_left' (length_toBytes 8 _)
      have hlow : ((layout kind status commandId text (some id)).drop
          (controlTextOffset + text.length + 8)).take 8 = toBytes 8 id.low.toNat := by
        have hdrop : (trailer (some id)).drop 8 = toBytes 8 id.low.toNat :=
          List.drop_left' (length_toBytes 8 _)
        rw [← List.drop_drop, drop_trailer_layout, hdrop]
        exact List.take_of_length_le (Nat.le_of_eq (length_toBytes 8 _))
      have hset : id.high ≠ 0 ∨ id.low ≠ 0 := by
        have hzero := hid id rfl
        rw [idZero, Bool.and_eq_false_iff, beq_eq_false_iff_ne, beq_eq_false_iff_ne] at hzero
        exact hzero
      simp only [Option.isSome_some, Bool.not_true, Bool.false_or, decide_eq_true_eq,
        Nat.not_lt.mpr h, if_false, if_neg hroom, hhigh, hlow,
        ofNat_fromBytes_toBytes (show 64 = 8 * 8 from rfl), if_pos hset]

end Layout

/-! ## Round trips -/

section RoundTrip

variable {commandId : U32} {text : List UInt8} {operationId : Option OperationId}

theorem commandWire_eq : commandWire commandId text operationId =
    layout controlCommand 0 commandId text operationId := by
  cases operationId with
  | none => rfl
  | some id => rfl

/-- `rel_send_control` cuts nothing off a text that fits, and drops no operation id that is
set. -/
theorem controlWire_eq {kind status : UInt8} (h : text.length ≤ controlTextMax)
    (hid : ∀ id ∈ operationId, idZero id = false) :
    controlWire kind commandId status text operationId =
      layout kind status commandId text operationId := by
  have hfilter : operationId.filter (fun id => id.high ≠ 0 || id.low ≠ 0) = operationId := by
    cases operationId with
    | none => rfl
    | some id =>
        have hzero := hid id rfl
        rw [idZero, Bool.and_eq_false_iff, beq_eq_false_iff_ne, beq_eq_false_iff_ne] at hzero
        rw [Option.filter_some, if_pos]
        rw [Bool.or_eq_true, decide_eq_true_iff, decide_eq_true_iff]
        exact hzero
  rw [controlWire, List.take_of_length_le h]
  simp only [hfilter]
  cases operationId with
  | none => rfl
  | some id => rfl

/-- The payload fits one frame, with the longest text and an operation id. -/
theorem length_layout_le {kind status : UInt8} (h : text.length ≤ controlTextMax) :
    (layout kind status commandId text operationId).length ≤ reliableInnerMax := by
  have hoffset : controlTextOffset = 8 := rfl
  have hmax : controlTextMax = 128 := rfl
  have hinner : reliableInnerMax = 152 := rfl
  have hsize : sizeofOperationId = 16 := rfl
  have htrailer : (trailer operationId).length ≤ sizeofOperationId := by
    rw [length_trailer]
    split
    · exact Nat.le_refl _
    · exact Nat.zero_le _
  rw [length_layout]
  omega

theorem cText_of_notMem (h : 0 ∉ text) : cText text = text := by
  rw [cText, List.takeWhile_eq_self_iff]
  intro byte hbyte
  rw [decide_eq_true_iff]
  rintro rfl
  exact h hbyte

/-- The node reads back what a command was built from. -/
theorem commandOf_layout (h : text.length ≤ controlTextMax) (hzero : 0 ∉ text)
    (hid : ∀ id ∈ operationId, idZero id = false) (status : UInt8) :
    commandOf? (layout controlCommand status commandId text operationId) =
      some ⟨commandId, operationId, text⟩ := by
  have hlength := @length_layout controlCommand status commandId text operationId
  have hkind : (layout controlCommand status commandId text operationId).getD 0 0 =
      controlCommand := rfl
  have hoffset : ¬(layout controlCommand status commandId text operationId).length <
      controlTextOffset := by
    omega
  have hchecks : ¬((layout controlCommand status commandId text operationId).getD 0 0 ≠
        controlCommand ∨ textLen (layout controlCommand status commandId text operationId) >
          controlTextMax ∨
      (layout controlCommand status commandId text operationId).length <
        controlTextOffset + textLen (layout controlCommand status commandId text operationId)) := by
    rw [textLen_layout h, hkind]
    rintro (hother | hlong | hshort)
    · exact hother rfl
    · omega
    · omega
  have hflag : ¬(flagged (layout controlCommand status commandId text operationId) = true ∧
      operationId = none) := by
    rw [flagged_layout]
    rintro ⟨hsome, rfl⟩
    exact absurd hsome (by decide)
  rw [commandOf?, if_neg hoffset, if_neg hchecks, operationId_layout h hid, if_neg hflag,
    textLen_layout h, text_layout, commandId_layout, cText_of_notMem hzero,
    ofNat_fromBytes_toBytes (show 32 = 8 * 4 from rfl)]

/-- A CONTROL payload is left to `rootControl` once it holds a header. -/
theorem rootDeliver_control (len : ℕ) :
    rootDeliver channelControl len =
      if controlTextOffset ≤ len then rootControl len else pure none := by
  have hother : channelControl ≠ channelNodeinfo ∧ channelControl ≠ channelLog ∧
      channelControl ≠ channelTask ∧ channelControl ≠ channelMemory ∧
      channelControl ≠ channelSensor ∧ channelControl ≠ channelOta ∧
      channelControl ≠ channelTopology := by
    decide
  simp only [rootDeliver, hother.1, hother.2.1, hother.2.2.1, hother.2.2.2.1, hother.2.2.2.2.1,
    hother.2.2.2.2.2.1, hother.2.2.2.2.2.2, false_and, true_and, if_false]

/-- The root reads back what a result or an event was built from. -/
theorem rootDeliver_layout {kind status : UInt8} {mem : Mem}
    (hkind : kind = controlResult ∨ kind = controlEvent) (hpos : text ≠ [])
    (h : text.length ≤ controlTextMax) (hzero : 0 ∉ text)
    (hid : ∀ id ∈ operationId, idZero id = false)
    (hmem : Holds mem (layout kind status commandId text operationId)) :
    (rootDeliver channelControl (layout kind status commandId text operationId).length).result
        mem = some (.control kind commandId status text operationId) := by
  have hoffset : controlTextOffset = 8 := rfl
  have hlength := @length_layout kind status commandId text operationId
  have hroom : controlTextOffset ≤ (layout kind status commandId text operationId).length := by
    omega
  have hkind' : (readByte 0).result mem = kind := hmem.readByte (by omega)
  have hstatus : (readByte 1).result mem = status := hmem.readByte (by omega)
  have hrsv : (readByte 3).result mem =
      (layout kind status commandId text operationId).getD 3 0 := hmem.readByte (by omega)
  have htextLen : ((readByte 2).result mem).toNat = text.length := by
    have hbyte : (readByte 2).result mem =
        (layout kind status commandId text operationId).getD 2 0 := hmem.readByte (by omega)
    rw [hbyte]
    exact textLen_layout h
  have htext : (read controlTextOffset text.length).result mem = text := by
    rw [hmem.read (by omega)]
    exact text_layout
  have hword : (readWord 4 4).result mem = commandId := by
    rw [hmem.readWord (by omega), wordAt, field, commandId_layout]
    have hback := ofNat_fromBytes_toBytes (show 32 = 8 * 4 from rfl) commandId
    rw [fromBytes_eq] at hback
    exact hback
  have hread : (readOperationId (layout kind status commandId text operationId).length).result
      mem = operationId := by
    rw [readOperationId_result hmem]
    exact operationId_layout h hid
  have hlen : 0 < text.length := List.length_pos_of_ne_nil hpos
  have hflag : ¬((layout kind status commandId text operationId).getD 3 0 &&&
      controlFlagOperationId ≠ 0 ∧ operationId = none) := by
    have hflagged := @flagged_layout kind status commandId text operationId
    rw [flagged] at hflagged
    rintro ⟨hset, rfl⟩
    rw [decide_eq_true hset] at hflagged
    exact absurd hflagged (by decide)
  have hchecks : ¬¬((kind = controlResult ∨ kind = controlEvent) ∧ 0 < text.length ∧
      text.length ≤ controlTextMax) :=
    not_not_intro ⟨hkind, hlen, h⟩
  rw [rootDeliver_control, if_pos hroom, rootControl, result_bind, hkind', result_bind, htextLen,
    if_neg hchecks, result_bind, htext, result_bind, hread, result_bind, hrsv, if_neg hflag,
    result_bind, hword, result_bind, hstatus, result_pure, cText_of_notMem hzero]

end RoundTrip

/-! ## Payloads without the operation id they announce -/

/-- Behind the text stand sixteen bytes that are not all zero. -/
def CarriesOperationId (payload : List UInt8) : Prop :=
  controlTextOffset + textLen payload + sizeofOperationId ≤ payload.length ∧
    ∃ byte ∈ field payload (controlTextOffset + textLen payload) sizeofOperationId, byte ≠ 0

theorem fromBytes_zeros {bytes : List UInt8} (h : ∀ byte ∈ bytes, byte = 0) :
    fromBytes bytes = 0 := by
  induction bytes with
  | nil => rfl
  | cons byte bytes ih =>
      rw [fromBytes, h byte List.mem_cons_self,
        ih fun byte hbyte => h byte (List.mem_cons_of_mem _ hbyte)]
      rfl

section FailClosed

variable {payload : List UInt8}

/-- An operation id is missing, cut short or zero. -/
theorem controlGetOperationId_none (h : ¬CarriesOperationId payload) :
    controlGetOperationId payload = none := by
  rw [controlGetOperationId]
  refine ite_eq_left_iff.mpr fun hlen => ?_
  refine ite_eq_left_iff.mpr fun hchecks => ?_
  refine ite_eq_left_iff.mpr fun hroom => ?_
  have hlong : textLen payload ≤ controlTextMax := by
    by_contra hmore
    exact hchecks (by simp [Nat.not_le.mp hmore])
  rw [controlPayloadSize_eq hlong] at hroom ⊢
  have hzeros : ∀ byte ∈ field payload (controlTextOffset + textLen payload) sizeofOperationId,
      byte = 0 := by
    intro byte hbyte
    by_contra hne
    exact h ⟨by omega, byte, hbyte, hne⟩
  have hhigh : fromBytes ((payload.drop (controlTextOffset + textLen payload)).take 8) = 0 := by
    refine fromBytes_zeros fun byte hbyte => hzeros byte ?_
    exact List.take_subset_take_left _ (by decide) hbyte
  have hlow : fromBytes ((payload.drop (controlTextOffset + textLen payload + 8)).take 8) = 0 := by
    refine fromBytes_zeros fun byte hbyte => hzeros byte ?_
    rw [field, show sizeofOperationId = 8 + 8 from rfl, List.take_add, List.drop_drop]
    exact List.mem_append_right _ hbyte
  simp only [hhigh, hlow]
  decide

/-- The node neither runs such a command nor answers it. -/
theorem relDeliver_unidentified (hflag : flagged payload = true)
    (h : ¬CarriesOperationId payload) (n : Node) (answers : HookAnswers) (now : U32) :
    n.relDeliver channelControl payload answers now = (n, []) := by
  have hnone : commandOf? payload = none := by
    rw [commandOf?]
    refine ite_eq_left_iff.mpr fun _ => ite_eq_left_iff.mpr fun _ => ?_
    exact if_pos ⟨hflag, controlGetOperationId_none h⟩
  rw [Node.relDeliver, if_neg (not_not_intro rfl), hnone]

/-- The root neither notes such a result nor tells the application. -/
theorem rootDeliver_unidentified (hflag : flagged payload = true)
    (h : ¬CarriesOperationId payload) {mem : Mem} (hmem : Holds mem payload) :
    (rootDeliver channelControl payload.length).result mem = none := by
  have hset : payload.getD 3 0 &&& controlFlagOperationId ≠ 0 := of_decide_eq_true hflag
  have hsome : 3 < payload.length := by
    by_contra hshort
    rw [List.getD_eq_getElem?_getD, List.getElem?_eq_none (Nat.not_lt.mp hshort)] at hset
    exact hset (by decide)
  have hrsv : (readByte 3).result mem = payload.getD 3 0 := hmem.readByte hsome
  have hcontrol : (rootControl payload.length).result mem = none := by
    rw [rootControl, result_bind, result_bind, result_ite]
    refine ite_eq_left_iff.mpr fun _ => ?_
    rw [result_bind, result_bind, readOperationId_result hmem, controlGetOperationId_none h,
      result_bind, hrsv, if_pos ⟨hset, rfl⟩, result_pure]
  rw [rootDeliver_control]
  split
  · exact hcontrol
  · rfl

end FailClosed

/-! ## The round trip -/

/-- A text of a command: a C string that leaves room for its end. -/
def CommandText (text : List UInt8) : Prop :=
  text ≠ [] ∧ text.length < controlTextMax ∧ 0 ∉ text

/-- A text of a result, which may fill its field. -/
def ResultText (text : List UInt8) : Prop :=
  text ≠ [] ∧ text.length ≤ controlTextMax ∧ 0 ∉ text

/-- Past its checks, `mesh_v2_root_send_command_operation` submits the payload it has built. -/
theorem sendCommandOperation_eq {c : Ctx} (hrole : c.cfg.rootRole = true) {mac : Mac}
    {commandId : U32} {command : List UInt8} (hcommand : CommandText command)
    {operationId : Option OperationId} (hid : ∀ id ∈ operationId, idZero id = false) {now : U32}
    (hcaps : operationId ≠ none →
      (peerAdvertisesLossless c mac capOperationId true now).2 = true) :
    sendCommandOperation c mac commandId command operationId true true now =
      ((submit c mac channelControl (commandWire commandId command operationId) priorityControl
          now).1,
        (submit c mac channelControl (commandWire commandId command operationId) priorityControl
          now).2.1) := by
  obtain ⟨hne, hlt, -⟩ := hcommand
  have hcapabilities : (peerCapabilities c mac now).1 = c := by
    rw [peerCapabilities]
    by_cases hhas : c.has (c.keyOf mac)
    · have hkey : c.keyOf mac = mac := by rw [Ctx.keyOf, if_pos hrole]
      rw [MeshRoot.peerFind_root hrole (hkey ▸ hhas)]
    · rw [peerFind_missing hhas]
  have hadvertised : (if operationId.isSome = true then
      peerAdvertisesLossless c mac capOperationId true now else (c, true)) = (c, true) := by
    cases operationId with
    | none => rfl
    | some id =>
        have hcap := hcaps (Option.some_ne_none id)
        rw [if_pos (show (some id).isSome = true from rfl)]
        apply Prod.ext
        · exact hcapabilities
        · exact hcap
  have hset : ¬operationId.any idZero = true := by
    cases operationId with
    | none => decide
    | some id => simpa using hid id rfl
  have hfits : ¬(controlPayloadSize command.length operationId.isSome = 0 ∨
      controlPayloadSize command.length operationId.isSome > reliableInnerMax) := by
    have hoffset : controlTextOffset = 8 := rfl
    have hmax : controlTextMax = 128 := rfl
    have hinner : reliableInnerMax = 152 := rfl
    have hsize : sizeofOperationId = 16 := rfl
    rw [controlPayloadSize, if_neg (by omega)]
    split
    · omega
    · omega
  rw [sendCommandOperation, if_neg hne, if_neg (Nat.not_le.mpr hlt), if_neg hset]
  simp only [hadvertised, Bool.not_true, Bool.false_eq_true, if_false, if_neg hfits]

/-- What the root builds of a command fits one frame and the node reads it back; what a node
builds of a result or an event fits one frame and the root reads it back; and a payload that
announces an operation id and carries none makes neither side do or note anything. -/
theorem control_round_trip :
    (∀ commandId command operationId, CommandText command →
      (∀ id ∈ operationId, idZero id = false) →
      (∀ c mac now, c.cfg.rootRole = true →
        (operationId ≠ none → (peerAdvertisesLossless c mac capOperationId true now).2 = true) →
        sendCommandOperation c mac commandId command operationId true true now =
          ((submit c mac channelControl (commandWire commandId command operationId)
              priorityControl now).1,
            (submit c mac channelControl (commandWire commandId command operationId)
              priorityControl now).2.1)) ∧
        (commandWire commandId command operationId).length ≤ reliableInnerMax ∧
        commandOf? (commandWire commandId command operationId) =
          some ⟨commandId, operationId, command⟩) ∧
    (∀ kind commandId status text operationId, kind = controlResult ∨ kind = controlEvent →
      ResultText text → (∀ id ∈ operationId, idZero id = false) →
      (controlWire kind commandId status text operationId).length ≤ reliableInnerMax ∧
        ∀ mem, Holds mem (controlWire kind commandId status text operationId) →
          (rootDeliver channelControl
              (controlWire kind commandId status text operationId).length).result mem =
            some (.control kind commandId status text operationId)) ∧
    (∀ payload, flagged payload = true → ¬CarriesOperationId payload →
      (∀ (n : Node) answers now,
        n.relDeliver channelControl payload answers now = (n, [])) ∧
        ∀ results peer sessions now mem, Holds mem payload →
          (rootRelDeliver results peer sessions channelControl payload.length now).result mem =
            (results, none)) := by
  refine ⟨?_, ?_, ?_⟩
  · intro commandId command operationId hcommand hid
    refine ⟨fun c mac now hrole hcaps => ?_, ?_, ?_⟩
    · exact sendCommandOperation_eq hrole hcommand hid hcaps
    · rw [commandWire_eq]
      exact length_layout_le hcommand.2.1.le
    · rw [commandWire_eq]
      exact commandOf_layout hcommand.2.1.le hcommand.2.2 hid 0
  · intro kind commandId status text operationId hkind htext hid
    rw [controlWire_eq htext.2.1 hid]
    refine ⟨length_layout_le htext.2.1, fun mem hmem => ?_⟩
    exact rootDeliver_layout hkind htext.1 htext.2.1 htext.2.2 hid hmem
  · intro payload hflag hcarries
    refine ⟨relDeliver_unidentified hflag hcarries, ?_⟩
    intro results peer sessions now mem hmem
    rw [rootRelDeliver, result_bind, rootDeliver_unidentified hflag hcarries hmem]
    rfl

end KeemashCore.Delivery
