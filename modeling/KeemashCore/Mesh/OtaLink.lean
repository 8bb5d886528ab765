import KeemashCore.Fabric.OtaMesh
import KeemashCore.Mesh.Retries
import KeemashCore.Mesh.Submit

/-!
# OTA messages on an idle link of the root

`mesh_v2_root_init` leaves a node fourteen frames below control priority, so an idle link
takes an OTA message of at most 2128 bytes.  The largest one takes 2221, and the buffer it
is encoded into is as large: `keemash_rel_send` refuses the data chunks in between, whatever
the load.
-/

namespace KeemashCore.MeshRoot

open KeemashCore.Rel KeemashCore.Fabric KeemashCore.Protobuf SlotTable

/-! ## The configuration -/

/-- What `mesh_v2_root_init` takes from the build. -/
structure RootBuild where
  /-- `MESH_V2_MAX_NODES`. -/
  maxNodes : ℕ
  maxNodes_pos : 0 < maxNodes
  routeGraceMs : U32
  routeGraceMs_ne_zero : routeGraceMs ≠ 0
  initialRtoMs : U32
  minRtoMs : U32
  maxRtoMs : U32
  fragmentTimeoutMs : U32
  maxRetries : BitVec 8
  faultOverflowEvery : ℕ

/-- The configuration of `mesh_v2_root_init`. -/
def rootConfig (build : RootBuild) (localMac : Mac) (send : Mac → Packet → EspErr) :
    RelConfig where
  rootRole := true
  localMac := localMac
  maxPeers := build.maxNodes
  txSlots := 64
  rxSlots := 64
  reassemblySlots := 8
  reservedControlSlots := 8
  perPeerTxSlots := 16
  perPeerRxSlots := 8
  perPeerReassemblySlots := 2
  perPeerControlReserve := 2
  routeGraceMs := build.routeGraceMs
  initialRtoMs := build.initialRtoMs
  minRtoMs := build.minRtoMs
  maxRtoMs := build.maxRtoMs
  fragmentTimeoutMs := build.fragmentTimeoutMs
  maxRetries := build.maxRetries
  faultOverflowEvery := build.faultOverflowEvery
  send := send

/-! ## Sending -/

/-- `MESH_V2_TUNNEL_CHANNEL_OTA`. -/
def channelOta : ℕ := 7

/-- `KEEMASH_REL_PRIORITY_OTA`. -/
def priorityOta : ℕ := 3

/-- `pb_encode` of a `keemash_fabric_v2_OtaMeshMessage` into a buffer of some capacity: the
bytes, or how many were written before it gave up. -/
structure Nanopb where
  encode : OtaMeshMessage → ℕ → Except ℕ (List UInt8)
  /-- What is written is the message on the wire, its fields in the order of the list. -/
  writes : ∀ message capacity wire, encode message capacity = .ok wire →
    wire = Protobuf.encode message.fields

/-- `keemash_ota_v3_encode_mesh_message`. -/
def encodeMeshMessage (pb : Nanopb) (message : OtaMeshMessage) (capacity : ℕ) :
    Except EspErr (List UInt8) :=
  if capacity = 0 then .error .invalidArg
  else
    match pb.encode message capacity with
    | .error written => .error (if written ≥ capacity then .invalidSize else .fail)
    | .ok wire => .ok wire

/-- `keemash_rel_peer_ready`. -/
def peerReady (c : Ctx) (mac : Mac) (now : U32) : Ctx × Bool :=
  let found := peerFind c mac false now
  (found.1, found.2.any fun key => (found.1.peer key).ready)

/-- `mesh_v2_root_send_ota_payload`, with whether `s_rel_lock` was taken in time. -/
def sendOtaPayload (c : Ctx) (mac : Mac) (payload : List UInt8) (locked : Bool) (now : U32) :
    Ctx × EspErr :=
  if payload.length = 0 then (c, .invalidArg)
  else if !locked then (c, .timeout)
  else
    let ready := peerReady c mac now
    if ready.2 then
      let sent := submit ready.1 mac channelOta payload priorityOta now
      (sent.1, sent.2.1)
    else (ready.1, .invalidState)

/-- `mesh_v2_root_send_ota_v3_message`, with whether `malloc` gave it a buffer. -/
def sendOtaV3Message (pb : Nanopb) (c : Ctx) (mac : Mac) (message : OtaMeshMessage)
    (allocated locked : Bool) (now : U32) : Ctx × EspErr :=
  if !allocated then (c, .noMem)
  else
    match encodeMeshMessage pb message otaMeshMessageSize with
    | .error err => (c, err)
    | .ok wire => sendOtaPayload c mac wire locked now

/-! ## An idle link -/

/-- A root set up by `mesh_v2_root_init` whose tx slots are all free, and a node that is
ready. -/
structure IdleLink (build : RootBuild) (c : Ctx) (mac : Mac) : Prop where
  config : ∃ localMac send, c.cfg = rootConfig build localMac send
  idle : c.tx = List.replicate c.cfg.txSlots none
  ready : (c.peer mac).ready = true

/-- The next message is one that the fault injection refuses. -/
def OverflowDue (c : Ctx) : Prop :=
  c.cfg.faultOverflowEvery ≠ 0 ∧
    (c.overflowCounter + 1).toNat % c.cfg.faultOverflowEvery = 0

section Idle

variable {build : RootBuild} {c : Ctx} {mac : Mac}

theorem IdleLink.keyOf (h : IdleLink build c mac) : c.keyOf mac = mac := by
  obtain ⟨localMac, send, hcfg⟩ := h.config
  rw [Ctx.keyOf, hcfg]
  rfl

/-- Fourteen frames below control priority. -/
theorem IdleLink.available (h : IdleLink build c mac) {c' : Ctx} (hcfg : c'.cfg = c.cfg)
    (htx : c'.tx = c.tx) (key : Mac) : txAvailable c' key priorityOta = 14 := by
  obtain ⟨localMac, send, hroot⟩ := h.config
  have hslots : c.cfg.txSlots = 64 := by rw [hroot]; rfl
  have hfree : freeCount c'.tx = 64 := by
    rw [htx, h.idle, hslots]
    rfl
  have hunacked : txUnacked c' key = 0 := by
    rw [txUnacked, htx, h.idle, usedCount_replicate_none]
  rw [txAvailable_low (by decide), hfree, hunacked, hcfg, hroot]
  rfl

/-- What `keemash_rel_send` answers at OTA priority for an encoded message. -/
theorem IdleLink.submit_ok (h : IdleLink build c mac) {wire : List UInt8}
    (hpos : 0 < wire.length) (hwire : wire.length ≤ messageMax) (now : U32) :
    (submit c mac channelOta wire priorityOta now).2.1 = .ok ↔
      ¬OverflowDue c ∧ wire.length ≤ 14 * reliableInnerMax := by
  have hready : (c.peer (c.keyOf mac)).ready = true := by
    rw [h.keyOf]
    exact h.ready
  have hmax : reliableInnerMax = 152 := rfl
  have hcfg : ((c.noteMac mac).countSubmit ((c.noteMac mac).freshStream + 1)).cfg = c.cfg := by
    rw [noteMac_eq]
    rfl
  have htx : ((c.noteMac mac).countSubmit ((c.noteMac mac).freshStream + 1)).tx = c.tx := by
    rw [noteMac_eq]
    rfl
  have hhas : ((c.noteMac mac).countSubmit ((c.noteMac mac).freshStream + 1)).has
      (c.keyOf mac) :=
    (has_noteMac c mac _).mpr (has_of_ready hready)
  have hcounter (hfault : c.cfg.faultOverflowEvery ≠ 0) :
      ((c.noteMac mac).countSubmit ((c.noteMac mac).freshStream + 1)).overflowCounter =
        c.overflowCounter + 1 := by
    rw [noteMac_eq, Ctx.countSubmit]
    exact if_pos hfault
  rw [@submit_eq_submitMessage c mac channelOta priorityOta wire hready (by decide) (by decide)
    hpos hwire now, submitMessage_result hhas, hcfg, h.available hcfg htx,
    fragmentsOf_eq hwire, OverflowDue]
  apply and_congr
  · apply not_congr
    apply and_congr_right
    intro hfault
    rw [hcounter hfault]
  · rw [hmax]
    omega

/-- Past its checks, `mesh_v2_root_send_ota_payload` is the call of `keemash_rel_send`. -/
theorem IdleLink.sendOtaPayload_eq (h : IdleLink build c mac) {wire : List UInt8}
    (hpos : 0 < wire.length) (now : U32) :
    (sendOtaPayload c mac wire true now).2 =
      (submit (c.noteMac mac) mac channelOta wire priorityOta now).2.1 := by
  have hready : (c.peer (c.keyOf mac)).ready = true := by
    rw [h.keyOf]
    exact h.ready
  have hstill : ((c.noteMac mac).peer (c.keyOf mac)).ready = true := by
    rw [peer_noteMac Peer.ready fun _ _ => rfl]
    exact hready
  have hfound : peerReady c mac now = (c.noteMac mac, true) := by
    rw [peerReady, peerFind_stored (has_of_ready hready)]
    simp only [Option.any_some, hstill]
  rw [sendOtaPayload, if_neg (by omega), hfound]
  rfl

theorem IdleLink.noteMac (h : IdleLink build c mac) : IdleLink build (c.noteMac mac) mac := by
  have hcfg : (c.noteMac mac).cfg = c.cfg := by rw [noteMac_eq]
  have htx : (c.noteMac mac).tx = c.tx := by rw [noteMac_eq]
  constructor
  · rw [hcfg]
    exact h.config
  · rw [hcfg, htx]
    exact h.idle
  · rw [peer_noteMac Peer.ready fun _ _ => rfl]
    exact h.ready

/-- Every run of a root that `mesh_v2_root_init` set up comes back to an idle link whenever
its tx slots are free again. -/
theorem idleLink_of_run {localMac : Mac} {send : Mac → Packet → EspErr} {session stream : U32}
    {start : Ctx} {ops : List (Operation × U32)}
    (hinit : init (rootConfig build localMac send) session stream = some start)
    (hops : ∀ op ∈ ops, op.1.Allowed (· ≤ priorityControl))
    (hfree : ∀ entry ∈ (start.operates ops).tx, entry = none)
    (hready : ((start.operates ops).peer mac).ready = true) :
    IdleLink build (start.operates ops) mac := by
  have hstart : start.cfg = rootConfig build localMac send := by
    simp only [init, rootConfig, build.maxNodes_pos.ne', build.routeGraceMs_ne_zero] at hinit
    obtain rfl := Option.some.inj hinit
    rfl
  have hcfg : (start.operates ops).cfg = start.cfg := by
    refine (updates_operates (init_framed hinit) hops).keep
      (P := fun c => c.cfg = start.cfg) ?_ rfl
    intro c c' hc hstep
    cases hstep with
    | release hrel => exact hrel.cfg.trans hc
    | _ => exact hc
  have hquotas : WithinQuotas (start.operates ops) :=
    Reachable.withinQuotas ⟨_, session, stream, start, ops, hinit, hops, rfl⟩
  constructor
  · exact ⟨localMac, send, hcfg.trans hstart⟩
  · exact List.eq_replicate_iff.mpr ⟨hquotas.length, hfree⟩
  · exact hready

theorem overflowDue_noteMac (c : Ctx) (mac : Mac) :
    OverflowDue (c.noteMac mac) ↔ OverflowDue c := by
  rw [OverflowDue, OverflowDue, noteMac_eq]

end Idle

/-! ## Which messages fit -/

/-- The message has a body, and a data chunk in it leaves room for the two keys and lengths
around it in fourteen frames. -/
def Sendable (message : OtaMeshMessage) : Prop :=
  message ≠ .none ∧ ∀ chunk ∈ message.chunk?, size chunk.fields ≤ 2122

theorem size_pos_of_ne_none {message : OtaMeshMessage} (h : message ≠ .none) :
    0 < size message.fields := by
  have hall {number : ℕ} (hnumber : number < 16) (fields : List Field) :
      0 < size (Protobuf.message number fields) := by
    rw [size_message hnumber, delimitedSize]
    omega
  cases message with
  | none => exact absurd rfl h
  | transfer m => exact hall (by decide) m.fields
  | bootReport m => exact hall (by decide) m.fields
  | bootAck m => exact hall (by decide) m.fields

/-- Two keys and two lengths add six bytes to a chunk of about that size. -/
theorem nested_le_iff {n : ℕ} : delimitedSize (delimitedSize n) ≤ 14 * reliableInnerMax ↔
    n ≤ 2122 := by
  have hmax : reliableInnerMax = 152 := rfl
  have hinner : delimitedSize 2122 = 2125 := delimitedSize_long (by decide) (by decide)
  have hlast : delimitedSize (delimitedSize 2122) = 2128 := by
    rw [hinner]
    exact delimitedSize_long (by decide) (by decide)
  constructor
  · intro h
    by_contra hlong
    have hmore : delimitedSize 2122 < delimitedSize n := delimitedSize_lt (by omega)
    have houter := delimitedSize_lt hmore
    omega
  · intro h
    have hless := delimitedSize_mono (delimitedSize_mono h)
    omega

theorem sendable_iff (message : OtaMeshMessage) :
    Sendable message ↔
      0 < size message.fields ∧ size message.fields ≤ 14 * reliableInnerMax := by
  have hmax : reliableInnerMax = 152 := rfl
  rw [Sendable]
  constructor
  · rintro ⟨hbody, hchunks⟩
    refine ⟨size_pos_of_ne_none hbody, ?_⟩
    cases hchunk : message.chunk? with
    | none =>
        have hsize := OtaMeshMessage.size_le_of_not_chunk hchunk
        omega
    | some chunk =>
        rw [OtaMeshMessage.size_chunk hchunk]
        exact nested_le_iff.mpr (hchunks chunk hchunk)
  · rintro ⟨hpos, hsize⟩
    constructor
    · rintro rfl
      exact absurd hpos (by decide)
    · intro chunk hchunk
      rw [OtaMeshMessage.size_chunk hchunk] at hsize
      exact nested_le_iff.mp hsize

/-- A chunk of up to 1955 bytes is sendable, whatever its other fields hold. -/
theorem sendable_of_short_chunk {message : OtaMeshMessage} {chunk : OtaBlockChunk}
    (hchunk : message.chunk? = some chunk) (h : chunk.data.val.length ≤ 1955) :
    Sendable message := by
  constructor
  · rintro rfl
    exact absurd hchunk.symm (Option.some_ne_none chunk)
  · intro other hother
    obtain rfl : chunk = other := Option.some.inj (hchunk.symm.trans hother)
    have hdata : delimitedSize chunk.data.val.length ≤ 1958 :=
      (delimitedSize_mono h).trans_eq (delimitedSize_long (by decide) (by decide))
    have hsize := chunk.size_le
    omega

/-- A chunk of 2048 bytes is not, once it names its artifact and carries the two hashes of
its block, as every chunk that a receiver takes does. -/
theorem not_sendable_of_full_chunk {message : OtaMeshMessage} {chunk : OtaBlockChunk}
    {block : FirmwareBlockDescriptor} (hchunk : message.chunk? = some chunk)
    (hblock : chunk.block = some block) (hdata : chunk.data.val.length = 2048)
    (hartifact : chunk.artifactId.val.length = 32) (hraw : block.rawSha256.val.length = 32)
    (hencoded : block.encodedSha256.val.length = 32) : ¬Sendable message := by
  rintro ⟨-, hfits⟩
  have hsize := hfits chunk hchunk
  have hbytes {number n : ℕ} (hnumber : number < 16) {value : List UInt8}
      (hvalue : value.length = n) (hn : 0 < n) :
      size (bytes number value) = delimitedSize n := by
    rw [← hvalue]
    exact size_bytes hnumber (List.ne_nil_of_length_pos (hvalue ▸ hn))
  have hid := hbytes (by decide : 2 < 16) hartifact (by decide)
  have hpayload := hbytes (by decide : 5 < 16) hdata (by decide)
  have hrawHash := hbytes (by decide : 7 < 16) hraw (by decide)
  have hencodedHash := hbytes (by decide : 8 < 16) hencoded (by decide)
  have hdescriptor : 68 ≤ size block.fields := by
    rw [delimitedSize_short (by decide)] at hrawHash hencodedHash
    simp only [FirmwareBlockDescriptor.fields, size_append]
    omega
  have hfield : 68 < size (optional 3 (chunk.block.map FirmwareBlockDescriptor.fields)) := by
    rw [hblock]
    refine hdescriptor.trans_lt (lt_of_lt_of_eq ?_ (size_message (by decide) block.fields).symm)
    rw [delimitedSize]
    omega
  rw [delimitedSize_short (by decide)] at hid
  rw [delimitedSize_long (by decide) (by decide)] at hpayload
  simp only [OtaBlockChunk.fields, size_append] at hsize
  omega

/-! ## What an idle link takes -/

section Sends

variable {build : RootBuild} {c : Ctx} {mac : Mac}

theorem length_of_encodeMeshMessage {pb : Nanopb} {message : OtaMeshMessage}
    {wire : List UInt8} (h : encodeMeshMessage pb message otaMeshMessageSize = .ok wire) :
    wire.length = size message.fields := by
  rw [encodeMeshMessage, if_neg (by decide)] at h
  cases hrun : pb.encode message otaMeshMessageSize with
  | error written =>
      simp [hrun] at h
  | ok bytes =>
      rw [hrun] at h
      obtain rfl : bytes = wire := Except.ok.inj h
      rw [pb.writes message _ _ hrun]
      rfl

section Encoded

variable {pb : Nanopb} {message : OtaMeshMessage} {wire : List UInt8}

theorem length_le_messageMax
    (h : encodeMeshMessage pb message otaMeshMessageSize = .ok wire) :
    wire.length ≤ messageMax := by
  rw [length_of_encodeMeshMessage h]
  exact message.size_le.trans (by decide)

theorem IdleLink.submit_ok_iff (hidle : IdleLink build c mac)
    (hwire : encodeMeshMessage pb message otaMeshMessageSize = .ok wire) (now : U32) :
    (submit c mac channelOta wire priorityOta now).2.1 = .ok ↔
      Sendable message ∧ ¬OverflowDue c := by
  have hlength := length_of_encodeMeshMessage hwire
  rcases Nat.eq_zero_or_pos wire.length with hempty | hpos
  · rw [submit, if_pos (.inl hempty)]
    refine iff_of_false EspErr.noConfusion ?_
    rintro ⟨hfits, -⟩
    have hbody := ((sendable_iff message).mp hfits).1
    omega
  · rw [hidle.submit_ok hpos (length_le_messageMax hwire), sendable_iff, ← hlength]
    exact ⟨fun h => ⟨⟨hpos, h.2⟩, h.1⟩, fun h => ⟨h.2, h.1.2⟩⟩

/-- What `keemash_rel_send` refuses it refuses for want of slots. -/
theorem IdleLink.submit_noMem (hidle : IdleLink build c mac)
    (hwire : encodeMeshMessage pb message otaMeshMessageSize = .ok wire)
    (hbody : message ≠ .none) (hnot : ¬(Sendable message ∧ ¬OverflowDue c)) (now : U32) :
    (submit c mac channelOta wire priorityOta now).2.1 = .noMem := by
  have hready : (c.peer (c.keyOf mac)).ready = true := by
    rw [hidle.keyOf]
    exact hidle.ready
  have hpos : 0 < wire.length := by
    rw [length_of_encodeMeshMessage hwire]
    exact size_pos_of_ne_none hbody
  have hchannel : 0 < channelOta ∧ channelOta < channelCount := by decide
  rcases submit_outcome hready hchannel.1 hchannel.2 hpos (length_le_messageMax hwire)
    now with ⟨hok, -⟩ | ⟨hfull, -⟩
  · exact absurd ((hidle.submit_ok_iff hwire now).mp hok) hnot
  · exact hfull

/-- With a buffer and the lock, sending a message ends in `keemash_rel_send`. -/
theorem IdleLink.send_eq (hidle : IdleLink build c mac)
    (hwire : encodeMeshMessage pb message otaMeshMessageSize = .ok wire)
    (hbody : message ≠ .none) (now : U32) :
    (sendOtaV3Message pb c mac message true true now).2 =
      (submit (c.noteMac mac) mac channelOta wire priorityOta now).2.1 := by
  have hpos : 0 < wire.length := by
    rw [length_of_encodeMeshMessage hwire]
    exact size_pos_of_ne_none hbody
  have hsend : sendOtaV3Message pb c mac message true true now =
      sendOtaPayload c mac wire true now := by
    rw [sendOtaV3Message, hwire]
    rfl
  rw [hsend, hidle.sendOtaPayload_eq hpos]

/-- On an idle link, `keemash_rel_send` takes the encoding of an OTA message exactly when the
message is sendable and the fault injection is not due, and so does
`mesh_v2_root_send_ota_v3_message`; what it refuses is refused for want of slots. -/
theorem idle_link_sends (hidle : IdleLink build c mac)
    (hwire : encodeMeshMessage pb message otaMeshMessageSize = .ok wire) (now : U32) :
    ((submit c mac channelOta wire priorityOta now).2.1 = .ok ↔
        Sendable message ∧ ¬OverflowDue c) ∧
      ((sendOtaV3Message pb c mac message true true now).2 = .ok ↔
        Sendable message ∧ ¬OverflowDue c) ∧
      (message ≠ .none → ¬(Sendable message ∧ ¬OverflowDue c) →
        (submit c mac channelOta wire priorityOta now).2.1 = .noMem ∧
          (sendOtaV3Message pb c mac message true true now).2 = .noMem) := by
  refine ⟨hidle.submit_ok_iff hwire now, ?_, ?_⟩
  · by_cases hbody : message = .none
    · have hempty : wire.length = 0 := by
        rw [length_of_encodeMeshMessage hwire, hbody]
        rfl
      rw [sendOtaV3Message, hwire]
      simp only [Bool.not_true, Bool.false_eq_true, if_false, sendOtaPayload, if_pos hempty]
      refine iff_of_false EspErr.noConfusion ?_
      rintro ⟨hfits, -⟩
      exact hfits.1 hbody
    · rw [hidle.send_eq hwire hbody, hidle.noteMac.submit_ok_iff hwire, overflowDue_noteMac]
  · intro hbody hnot
    constructor
    · exact hidle.submit_noMem hwire hbody hnot now
    · rw [← overflowDue_noteMac c mac] at hnot
      rw [hidle.send_eq hwire hbody]
      exact hidle.noteMac.submit_noMem hwire hbody hnot now

end Encoded

end Sends

/-! ## A chunk of 2048 bytes -/

/-- The defaults of the build. -/
def defaultBuild : RootBuild where
  maxNodes := 24
  maxNodes_pos := by decide
  routeGraceMs := 90000
  routeGraceMs_ne_zero := by decide
  initialRtoMs := 1500
  minRtoMs := 500
  maxRtoMs := 5000
  fragmentTimeoutMs := 10000
  maxRetries := 5
  faultOverflowEvery := 0

/-- A root with these defaults and a transport that takes every packet. -/
def defaultConfig : RelConfig :=
  rootConfig defaultBuild 0x10 fun _ _ => .ok

def defaultRoot : Ctx where
  cfg := defaultConfig
  localSession := 7
  nextStreamId := 1
  peers := List.replicate 24 none
  tx := List.replicate 64 none
  rx := List.replicate 64 none
  reassembly := List.replicate 8 none
  overflowCounter := 0
  pollPeerCursor := 0
  trace := []

theorem init_defaultConfig : init defaultConfig 7 1 = some defaultRoot :=
  rfl

/-- A node has introduced itself. -/
def greetedDefault : Ctx :=
  defaultRoot.operates [(.receive nackNode helloBytes, 1)]

theorem greetedDefault_idle : IdleLink defaultBuild greetedDefault nackNode := by
  refine idleLink_of_run init_defaultConfig (by simp [Operation.Allowed]) ?_ ?_
  · decide +kernel
  · decide +kernel

theorem greetedDefault_not_due : ¬OverflowDue greetedDefault :=
  fun h => h.1 (by decide +kernel)

/-- An encoder that gives up when the message is too long for the buffer. -/
def wireWriter : Nanopb where
  encode message capacity :=
    if size message.fields ≤ capacity then .ok (Protobuf.encode message.fields)
    else .error capacity
  writes := by
    intro message capacity wire h
    split at h
    · exact (Except.ok.inj h).symm
    · simp at h

theorem encodeMeshMessage_wireWriter (message : OtaMeshMessage) :
    encodeMeshMessage wireWriter message otaMeshMessageSize =
      .ok (Protobuf.encode message.fields) := by
  rw [encodeMeshMessage, if_neg (by decide), wireWriter]
  simp only [if_pos message.size_le]

def someHash : PbBytes 32 :=
  ⟨List.replicate 32 0x5A, by decide⟩

/-- The first chunk of a block of 16 KiB, with as many bytes as a prepare may ask for. -/
def fullChunk : OtaBlockChunk where
  operationId := some ⟨1, 2⟩
  artifactId := someHash
  block := some
    { index := 0
      rawOffset := 0
      rawSize := 16384
      encodedOffset := 0
      encodedSize := 9000
      kind := .deflate
      rawSha256 := someHash
      encodedSha256 := someHash }
  blockEncodedOffset := 0
  data := ⟨List.replicate 2048 0xA5, List.length_replicate.le⟩
  finalChunk := false

/-- The root encodes the chunk and then refuses it, with every slot free. -/
theorem idle_link_refuses_fullChunk :
    IdleLink defaultBuild greetedDefault nackNode ∧ ¬OverflowDue greetedDefault ∧
      encodeMeshMessage wireWriter (.transfer (.data fullChunk)) otaMeshMessageSize =
        .ok (Protobuf.encode (OtaMeshMessage.transfer (.data fullChunk)).fields) ∧
      (submit greetedDefault nackNode channelOta
        (Protobuf.encode (OtaMeshMessage.transfer (.data fullChunk)).fields) priorityOta
        2).2.1 = .noMem := by
  have hnot : ¬Sendable (.transfer (.data fullChunk)) :=
    not_sendable_of_full_chunk rfl rfl List.length_replicate rfl rfl rfl
  refine ⟨greetedDefault_idle, greetedDefault_not_due, encodeMeshMessage_wireWriter _, ?_⟩
  · exact greetedDefault_idle.submit_noMem (encodeMeshMessage_wireWriter _)
      OtaMeshMessage.noConfusion (fun h => hnot h.1) 2

/-- A query goes through. -/
theorem idle_link_sends_query :
    (sendOtaV3Message wireWriter greetedDefault nackNode
      (.transfer (.query ⟨some ⟨1, 2⟩, someHash⟩)) true true 2).2 = .ok := by
  refine (idle_link_sends greetedDefault_idle (encodeMeshMessage_wireWriter _) 2).2.1.mpr
    ⟨⟨OtaMeshMessage.noConfusion, ?_⟩, ?_⟩
  · intro chunk hchunk
    exact absurd hchunk.symm (Option.some_ne_none chunk)
  · exact greetedDefault_not_due

end KeemashCore.MeshRoot
