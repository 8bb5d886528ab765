import KeemashCore.Mesh.Proto
import KeemashCore.Protobuf.Basic

/-!
# The OTA messages of the fabric

The messages of `keelink-fabric-v2.pb.h` that travel on the OTA channel, with the
capacities of their fields, the field lists that the encoder walks through, and the
largest encodings that the header states.
-/

namespace KeemashCore.Fabric

open Protobuf

/-! ## Field types -/

/-- `PB_BYTES_ARRAY_T(n)`. -/
abbrev PbBytes (n : ℕ) := {bytes : List UInt8 // bytes.length ≤ n}

/-- A `char` array of `n + 1` bytes that holds a C string. -/
abbrev PbString (n : ℕ) := {text : List UInt8 // text.length ≤ n ∧ 0 ∉ text}

/-- `keemash_fabric_v2_FirmwareBlockKind`. -/
inductive FirmwareBlockKind where
  | unspecified
  | deflate
  | copyBase
  deriving DecidableEq

def FirmwareBlockKind.code : FirmwareBlockKind → ℕ
  | .unspecified => 0
  | .deflate => 1
  | .copyBase => 2

/-- `keemash_fabric_v2_OtaPhase`. -/
inductive OtaPhase where
  | unspecified
  | validating
  | staging
  | cached
  | waitingRoute
  | transferring
  | verifying
  | rebooting
  | bootValidating
  | complete
  | rolledBack
  | outcomeUnknown
  | aborted
  | failed
  deriving DecidableEq

def OtaPhase.code : OtaPhase → ℕ
  | .unspecified => 0
  | .validating => 1
  | .staging => 2
  | .cached => 3
  | .waitingRoute => 4
  | .transferring => 5
  | .verifying => 6
  | .rebooting => 7
  | .bootValidating => 8
  | .complete => 9
  | .rolledBack => 10
  | .outcomeUnknown => 11
  | .aborted => 12
  | .failed => 13

/-- `keemash_fabric_v2_OtaBootState`. -/
inductive OtaBootState where
  | unspecified
  | pendingVerify
  | validated
  | rolledBack
  | failed
  deriving DecidableEq

def OtaBootState.code : OtaBootState → ℕ
  | .unspecified => 0
  | .pendingVerify => 1
  | .validated => 2
  | .rolledBack => 3
  | .failed => 4

/-! ## Messages

An optional member is `none` where its `has_` flag is false, and a union is an inductive
type with a case for `which_body` being zero. -/

structure Id128 where
  high : BitVec 64
  low : BitVec 64

structure FirmwareBlockDescriptor where
  index : U32
  rawOffset : U32
  rawSize : U32
  encodedOffset : U32
  encodedSize : U32
  kind : FirmwareBlockKind
  rawSha256 : PbBytes 32
  encodedSha256 : PbBytes 32

structure OtaPrepare where
  operationId : Option Id128
  artifactId : PbBytes 32
  signedFields : PbBytes 1024
  signature : PbBytes 64
  requestedChunkSize : U32
  requestedWindow : U32

structure OtaBlockChunk where
  operationId : Option Id128
  artifactId : PbBytes 32
  block : Option FirmwareBlockDescriptor
  blockEncodedOffset : U32
  data : PbBytes 2048
  finalChunk : Bool

structure OtaCommit where
  operationId : Option Id128
  artifactId : PbBytes 32
  blockTableSha256 : PbBytes 32
  imageSha256 : PbBytes 32

structure OtaAbort where
  operationId : Option Id128
  artifactId : PbBytes 32
  reason : PbString 64

structure OtaQuery where
  operationId : Option Id128
  artifactId : PbBytes 32

structure OtaTransferStatus where
  operationId : Option Id128
  artifactId : PbBytes 32
  phase : OtaPhase
  rawOffset : U32
  encodedOffset : U32
  nextBlockIndex : U32
  windowCredit : U32
  retries : U32
  resumeCount : U32
  status : U32
  message : PbString 96

inductive OtaTransfer where
  | none
  | prepare (prepare : OtaPrepare)
  | data (chunk : OtaBlockChunk)
  | commit (commit : OtaCommit)
  | abort (abort : OtaAbort)
  | query (query : OtaQuery)
  | status (status : OtaTransferStatus)

structure OtaBootReport where
  operationId : Option Id128
  nodeId : Option Id128
  artifactId : PbBytes 32
  bootSession : BitVec 64
  firmwareVersion : PbString 32
  state : OtaBootState
  rollbackState : U32
  healthStatus : U32
  message : PbString 96

structure OtaBootAck where
  operationId : Option Id128
  artifactId : PbBytes 32
  state : OtaBootState

inductive OtaMeshMessage where
  | none
  | transfer (transfer : OtaTransfer)
  | bootReport (report : OtaBootReport)
  | bootAck (ack : OtaBootAck)

/-! ## Field lists -/

def Id128.fields (m : Id128) : List Field :=
  fixed64 1 m.high ++ fixed64 2 m.low

def FirmwareBlockDescriptor.fields (m : FirmwareBlockDescriptor) : List Field :=
  uint 1 m.index.toNat ++ uint 2 m.rawOffset.toNat ++ uint 3 m.rawSize.toNat ++
    uint 4 m.encodedOffset.toNat ++ uint 5 m.encodedSize.toNat ++ uint 6 m.kind.code ++
    bytes 7 m.rawSha256.val ++ bytes 8 m.encodedSha256.val

def OtaPrepare.fields (m : OtaPrepare) : List Field :=
  optional 1 (m.operationId.map Id128.fields) ++ bytes 2 m.artifactId.val ++
    bytes 3 m.signedFields.val ++ bytes 4 m.signature.val ++
    uint 5 m.requestedChunkSize.toNat ++ uint 6 m.requestedWindow.toNat

def OtaBlockChunk.fields (m : OtaBlockChunk) : List Field :=
  optional 1 (m.operationId.map Id128.fields) ++ bytes 2 m.artifactId.val ++
    optional 3 (m.block.map FirmwareBlockDescriptor.fields) ++
    uint 4 m.blockEncodedOffset.toNat ++ bytes 5 m.data.val ++ uint 6 m.finalChunk.toNat

def OtaCommit.fields (m : OtaCommit) : List Field :=
  optional 1 (m.operationId.map Id128.fields) ++ bytes 2 m.artifactId.val ++
    bytes 3 m.blockTableSha256.val ++ bytes 4 m.imageSha256.val

def OtaAbort.fields (m : OtaAbort) : List Field :=
  optional 1 (m.operationId.map Id128.fields) ++ bytes 2 m.artifactId.val ++
    bytes 3 m.reason.val

def OtaQuery.fields (m : OtaQuery) : List Field :=
  optional 1 (m.operationId.map Id128.fields) ++ bytes 2 m.artifactId.val

def OtaTransferStatus.fields (m : OtaTransferStatus) : List Field :=
  optional 1 (m.operationId.map Id128.fields) ++ bytes 2 m.artifactId.val ++
    uint 3 m.phase.code ++ uint 4 m.rawOffset.toNat ++ uint 5 m.encodedOffset.toNat ++
    uint 6 m.nextBlockIndex.toNat ++ uint 7 m.windowCredit.toNat ++
    uint 8 m.retries.toNat ++ uint 9 m.resumeCount.toNat ++ uint 10 m.status.toNat ++
    bytes 11 m.message.val

def OtaTransfer.fields : OtaTransfer → List Field
  | .none => []
  | .prepare m => message 1 m.fields
  | .data m => message 2 m.fields
  | .commit m => message 3 m.fields
  | .abort m => message 4 m.fields
  | .query m => message 5 m.fields
  | .status m => message 6 m.fields

def OtaBootReport.fields (m : OtaBootReport) : List Field :=
  optional 1 (m.operationId.map Id128.fields) ++ optional 2 (m.nodeId.map Id128.fields) ++
    bytes 3 m.artifactId.val ++ fixed64 4 m.bootSession ++ bytes 5 m.firmwareVersion.val ++
    uint 6 m.state.code ++ uint 7 m.rollbackState.toNat ++ uint 8 m.healthStatus.toNat ++
    bytes 9 m.message.val

def OtaBootAck.fields (m : OtaBootAck) : List Field :=
  optional 1 (m.operationId.map Id128.fields) ++ bytes 2 m.artifactId.val ++
    uint 3 m.state.code

def OtaMeshMessage.fields : OtaMeshMessage → List Field
  | .none => []
  | .transfer m => message 1 m.fields
  | .bootReport m => message 2 m.fields
  | .bootAck m => message 3 m.fields

/-! ## The largest encodings -/

/-- `keemash_fabric_v2_Id128_size`. -/
def id128Size : ℕ := 18

/-- `keemash_fabric_v2_FirmwareBlockDescriptor_size`. -/
def firmwareBlockDescriptorSize : ℕ := 100

/-- `keemash_fabric_v2_OtaPrepare_size`. -/
def otaPrepareSize : ℕ := 1159

/-- `keemash_fabric_v2_OtaBlockChunk_size`. -/
def otaBlockChunkSize : ℕ := 2215

/-- `keemash_fabric_v2_OtaTransfer_size`. -/
def otaTransferSize : ℕ := 2218

/-- `keemash_fabric_v2_OtaMeshMessage_size`. -/
def otaMeshMessageSize : ℕ := 2221

theorem size_u32_le {number : ℕ} (h : number < 16) (word : U32) :
    size (uint number word.toNat) ≤ 6 := by
  have hword := word.isLt
  exact size_uint_le h (by decide : 5 ≠ 0) (by omega)

/-- An enumeration or a flag. -/
theorem size_small_le {number n : ℕ} (h : number < 16) (hn : n < 128) :
    size (uint number n) ≤ 2 :=
  size_uint_le h one_ne_zero (by omega)

theorem FirmwareBlockKind.code_lt (kind : FirmwareBlockKind) : kind.code < 128 := by
  cases kind <;> decide

theorem OtaPhase.code_lt (phase : OtaPhase) : phase.code < 128 := by
  cases phase <;> decide

theorem OtaBootState.code_lt (state : OtaBootState) : state.code < 128 := by
  cases state <;> decide

theorem Id128.size_le (m : Id128) : size m.fields ≤ id128Size := by
  have hhigh := size_fixed64_le (by decide : 1 < 16) m.high
  have hlow := size_fixed64_le (by decide : 2 < 16) m.low
  rw [Id128.fields, size_append, id128Size]
  omega

theorem size_id_le {number : ℕ} (h : number < 16) (id : Option Id128) :
    size (optional number (id.map Id128.fields)) ≤ 20 := by
  have hsize : ∀ fields ∈ id.map Id128.fields, size fields ≤ id128Size := by
    intro fields hfields
    obtain ⟨m, -, rfl⟩ := Option.map_eq_some_iff.mp hfields
    exact m.size_le
  exact (size_optional_le h hsize).trans_eq (delimitedSize_short (by decide))

/-- A byte string or a text of fewer than 128 bytes. -/
theorem size_short_le {number n : ℕ} (h : number < 16) (hn : n < 128) {value : List UInt8}
    (hvalue : value.length ≤ n) : size (bytes number value) ≤ n + 2 :=
  (size_bytes_le h hvalue).trans_eq (delimitedSize_short hn)

theorem size_hash_le {number : ℕ} (h : number < 16) (hash : PbBytes 32) :
    size (bytes number hash.val) ≤ 34 :=
  size_short_le h (by decide) hash.property

theorem FirmwareBlockDescriptor.size_le (m : FirmwareBlockDescriptor) :
    size m.fields ≤ firmwareBlockDescriptorSize := by
  have hindex := size_u32_le (by decide : 1 < 16) m.index
  have hraw := size_u32_le (by decide : 2 < 16) m.rawOffset
  have hrawSize := size_u32_le (by decide : 3 < 16) m.rawSize
  have hencoded := size_u32_le (by decide : 4 < 16) m.encodedOffset
  have hencodedSize := size_u32_le (by decide : 5 < 16) m.encodedSize
  have hkind := size_small_le (by decide : 6 < 16) m.kind.code_lt
  have hrawHash := size_hash_le (by decide : 7 < 16) m.rawSha256
  have hencodedHash := size_hash_le (by decide : 8 < 16) m.encodedSha256
  simp only [FirmwareBlockDescriptor.fields, size_append, firmwareBlockDescriptorSize]
  omega

theorem OtaPrepare.size_le (m : OtaPrepare) : size m.fields ≤ otaPrepareSize := by
  have hid := size_id_le (by decide : 1 < 16) m.operationId
  have hartifact := size_hash_le (by decide : 2 < 16) m.artifactId
  have hsigned : size (bytes 3 m.signedFields.val) ≤ 1027 :=
    (size_bytes_le (by decide) m.signedFields.property).trans_eq
      (delimitedSize_long (by decide) (by decide))
  have hsignature : size (bytes 4 m.signature.val) ≤ 66 :=
    size_short_le (by decide) (by decide) m.signature.property
  have hchunk := size_u32_le (by decide : 5 < 16) m.requestedChunkSize
  have hwindow := size_u32_le (by decide : 6 < 16) m.requestedWindow
  simp only [OtaPrepare.fields, size_append, otaPrepareSize]
  omega

/-- What a data chunk adds to the bytes it carries. -/
theorem OtaBlockChunk.size_le (m : OtaBlockChunk) :
    size m.fields ≤ 164 + delimitedSize m.data.val.length := by
  have hid := size_id_le (by decide : 1 < 16) m.operationId
  have hartifact := size_hash_le (by decide : 2 < 16) m.artifactId
  have hdescriptor : ∀ fields ∈ m.block.map FirmwareBlockDescriptor.fields,
      size fields ≤ firmwareBlockDescriptorSize := by
    intro fields hfields
    obtain ⟨block, -, rfl⟩ := Option.map_eq_some_iff.mp hfields
    exact block.size_le
  have hblock : size (optional 3 (m.block.map FirmwareBlockDescriptor.fields)) ≤ 102 :=
    (size_optional_le (by decide) hdescriptor).trans_eq (delimitedSize_short (by decide))
  have hoffset := size_u32_le (by decide : 4 < 16) m.blockEncodedOffset
  have hdata : size (bytes 5 m.data.val) ≤ delimitedSize m.data.val.length :=
    size_bytes_le (by decide) (le_refl _)
  have hfinal : size (uint 6 m.finalChunk.toNat) ≤ 2 :=
    size_small_le (by decide) ((Bool.toNat_le m.finalChunk).trans_lt (by decide))
  simp only [OtaBlockChunk.fields, size_append]
  omega

theorem OtaCommit.size_le (m : OtaCommit) : size m.fields ≤ 122 := by
  have hid := size_id_le (by decide : 1 < 16) m.operationId
  have hartifact := size_hash_le (by decide : 2 < 16) m.artifactId
  have htable := size_hash_le (by decide : 3 < 16) m.blockTableSha256
  have himage := size_hash_le (by decide : 4 < 16) m.imageSha256
  simp only [OtaCommit.fields, size_append]
  omega

theorem OtaAbort.size_le (m : OtaAbort) : size m.fields ≤ 120 := by
  have hid := size_id_le (by decide : 1 < 16) m.operationId
  have hartifact := size_hash_le (by decide : 2 < 16) m.artifactId
  have hreason : size (bytes 3 m.reason.val) ≤ 66 :=
    size_short_le (by decide) (by decide) m.reason.property.1
  simp only [OtaAbort.fields, size_append]
  omega

theorem OtaQuery.size_le (m : OtaQuery) : size m.fields ≤ 54 := by
  have hid := size_id_le (by decide : 1 < 16) m.operationId
  have hartifact := size_hash_le (by decide : 2 < 16) m.artifactId
  simp only [OtaQuery.fields, size_append]
  omega

theorem OtaTransferStatus.size_le (m : OtaTransferStatus) : size m.fields ≤ 196 := by
  have hid := size_id_le (by decide : 1 < 16) m.operationId
  have hartifact := size_hash_le (by decide : 2 < 16) m.artifactId
  have hphase := size_small_le (by decide : 3 < 16) m.phase.code_lt
  have hraw := size_u32_le (by decide : 4 < 16) m.rawOffset
  have hencoded := size_u32_le (by decide : 5 < 16) m.encodedOffset
  have hnext := size_u32_le (by decide : 6 < 16) m.nextBlockIndex
  have hcredit := size_u32_le (by decide : 7 < 16) m.windowCredit
  have hretries := size_u32_le (by decide : 8 < 16) m.retries
  have hresume := size_u32_le (by decide : 9 < 16) m.resumeCount
  have hstatus := size_u32_le (by decide : 10 < 16) m.status
  have hmessage : size (bytes 11 m.message.val) ≤ 98 :=
    size_short_le (by decide) (by decide) m.message.property.1
  simp only [OtaTransferStatus.fields, size_append]
  omega

theorem OtaBootReport.size_le (m : OtaBootReport) : size m.fields ≤ 229 := by
  have hid := size_id_le (by decide : 1 < 16) m.operationId
  have hnode := size_id_le (by decide : 2 < 16) m.nodeId
  have hartifact := size_hash_le (by decide : 3 < 16) m.artifactId
  have hsession := size_fixed64_le (by decide : 4 < 16) m.bootSession
  have hversion : size (bytes 5 m.firmwareVersion.val) ≤ 34 :=
    size_short_le (by decide) (by decide) m.firmwareVersion.property.1
  have hstate := size_small_le (by decide : 6 < 16) m.state.code_lt
  have hrollback := size_u32_le (by decide : 7 < 16) m.rollbackState
  have hhealth := size_u32_le (by decide : 8 < 16) m.healthStatus
  have hmessage : size (bytes 9 m.message.val) ≤ 98 :=
    size_short_le (by decide) (by decide) m.message.property.1
  simp only [OtaBootReport.fields, size_append]
  omega

theorem OtaBootAck.size_le (m : OtaBootAck) : size m.fields ≤ 56 := by
  have hid := size_id_le (by decide : 1 < 16) m.operationId
  have hartifact := size_hash_le (by decide : 2 < 16) m.artifactId
  have hstate := size_small_le (by decide : 3 < 16) m.state.code_lt
  simp only [OtaBootAck.fields, size_append]
  omega

/-! ## The encoding of a whole message -/

theorem OtaBlockChunk.size_le_max (m : OtaBlockChunk) : size m.fields ≤ otaBlockChunkSize := by
  have hdata : delimitedSize m.data.val.length ≤ 2051 :=
    (delimitedSize_mono m.data.property).trans_eq (delimitedSize_long (by decide) (by decide))
  have hsize := m.size_le
  rw [otaBlockChunkSize]
  omega

/-- A message inside a message, each with a one-byte key. -/
theorem size_nested {number inner : ℕ} (h : number < 16) (hinner : inner < 16)
    (fields : List Field) :
    size (message number (message inner fields)) = delimitedSize (delimitedSize (size fields)) := by
  rw [size_message h, size_message hinner]

/-- The data chunk inside a transfer, if there is one. -/
def OtaTransfer.chunk? : OtaTransfer → Option OtaBlockChunk
  | .data chunk => some chunk
  | _ => Option.none

/-- The data chunk inside a message, if there is one. -/
def OtaMeshMessage.chunk? : OtaMeshMessage → Option OtaBlockChunk
  | .transfer m => m.chunk?
  | _ => Option.none

theorem OtaTransfer.size_le_of_not_chunk {m : OtaTransfer} (h : m.chunk? = Option.none) :
    size m.fields ≤ 1162 := by
  have hall {number : ℕ} (hnumber : number < 16) {fields : List Field}
      (hsize : size fields ≤ otaPrepareSize) : size (message number fields) ≤ 1162 :=
    (size_message hnumber fields).trans_le ((delimitedSize_mono hsize).trans_eq
      (delimitedSize_long (by decide) (by decide)))
  cases m with
  | none => exact Nat.zero_le _
  | prepare m => exact hall (by decide) m.size_le
  | data chunk => exact absurd h (Option.some_ne_none chunk)
  | commit m => exact hall (by decide) (m.size_le.trans (by decide))
  | abort m => exact hall (by decide) (m.size_le.trans (by decide))
  | query m => exact hall (by decide) (m.size_le.trans (by decide))
  | status m => exact hall (by decide) (m.size_le.trans (by decide))

theorem OtaTransfer.size_le (m : OtaTransfer) : size m.fields ≤ otaTransferSize := by
  cases hchunk : m.chunk? with
  | none => exact (OtaTransfer.size_le_of_not_chunk hchunk).trans (by decide)
  | some chunk =>
      cases m with
      | data chunk =>
          exact (size_message (by decide) chunk.fields).trans_le
            ((delimitedSize_mono chunk.size_le_max).trans_eq
              (delimitedSize_long (by decide) (by decide)))
      | _ => simp [OtaTransfer.chunk?] at hchunk

/-- Every message fits the buffer that the header names for it. -/
theorem OtaMeshMessage.size_le (m : OtaMeshMessage) : size m.fields ≤ otaMeshMessageSize := by
  have hall {number : ℕ} (hnumber : number < 16) {fields : List Field}
      (hsize : size fields ≤ otaTransferSize) :
      size (message number fields) ≤ otaMeshMessageSize :=
    (size_message hnumber fields).trans_le ((delimitedSize_mono hsize).trans_eq
      (delimitedSize_long (by decide) (by decide)))
  cases m with
  | none => exact Nat.zero_le _
  | transfer m => exact hall (by decide) m.size_le
  | bootReport m => exact hall (by decide) (m.size_le.trans (by decide))
  | bootAck m => exact hall (by decide) (m.size_le.trans (by decide))

/-- Everything but a data chunk is far shorter. -/
theorem OtaMeshMessage.size_le_of_not_chunk {m : OtaMeshMessage} (h : m.chunk? = Option.none) :
    size m.fields ≤ 1165 := by
  have hall {number : ℕ} (hnumber : number < 16) {fields : List Field}
      (hsize : size fields ≤ 1162) : size (message number fields) ≤ 1165 :=
    (size_message hnumber fields).trans_le ((delimitedSize_mono hsize).trans_eq
      (delimitedSize_long (by decide) (by decide)))
  cases m with
  | none => exact Nat.zero_le _
  | transfer m => exact hall (by decide) (OtaTransfer.size_le_of_not_chunk h)
  | bootReport m => exact hall (by decide) (m.size_le.trans (by decide))
  | bootAck m => exact hall (by decide) (m.size_le.trans (by decide))

theorem OtaMeshMessage.size_chunk {m : OtaMeshMessage} {chunk : OtaBlockChunk}
    (h : m.chunk? = some chunk) :
    size m.fields = delimitedSize (delimitedSize (size chunk.fields)) := by
  cases m with
  | transfer m =>
      cases m with
      | data own =>
          obtain rfl : own = chunk := Option.some.inj h
          exact size_nested (by decide) (by decide) own.fields
      | _ => simp [OtaMeshMessage.chunk?, OtaTransfer.chunk?] at h
  | _ => simp [OtaMeshMessage.chunk?] at h

end KeemashCore.Fabric
