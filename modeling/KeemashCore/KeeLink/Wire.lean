import KeemashCore.KeeLink.Artifact
import KeemashCore.Protobuf.Decode

/-!
# The messages of an artifact on the wire

The protobuf encoding of the three messages, with the numbers of
`keelink-fabric-v2.proto`, and a decoder that undoes it.
-/

namespace KeemashCore.KeeLink.Ota

open Protobuf (Field uint bytes message uintAt bytesAt repeatedAt valuesAt valuesAt_append
  valuesAt_singleton valuesAt_uint_ne valuesAt_bytes_ne)

/-! ## Texts and enumerations -/

/-- The UTF-8 bytes of a text. -/
def stringBytes (text : String) : Bytes :=
  text.toByteArray.data.toList

def stringOf (value : Bytes) : Option String :=
  String.fromUTF8? ⟨value.toArray⟩

theorem stringOf_stringBytes (text : String) : stringOf (stringBytes text) = some text := by
  rw [stringOf, String.fromUTF8?]
  exact dif_pos text.isValidUTF8

theorem stringBytes_inj {a b : String} : stringBytes a = stringBytes b ↔ a = b := by
  constructor
  · intro h
    have hsome := stringOf_stringBytes a
    rw [h, stringOf_stringBytes, Option.some.injEq] at hsome
    exact hsome.symm
  · exact congrArg stringBytes

/-- The value of an enumeration, extended to 64 bits with its sign. -/
def enumValue (value : Int32) : ℕ :=
  (value.toBitVec.signExtend 64).toNat

def enumOf (n : ℕ) : Int32 :=
  Int32.ofBitVec (BitVec.ofNat 32 n)

theorem enumOf_enumValue (value : Int32) : enumOf (enumValue value) = value := by
  have hword : BitVec.ofNat 32 (value.toBitVec.signExtend 64).toNat = value.toBitVec := by
    rw [BitVec.ofNat_toNat]
    ext i hi
    have hwide : i < 64 := by omega
    rw [BitVec.getElem_setWidth, BitVec.getLsbD_signExtend]
    simp [hi, hwide]
  rw [enumOf, enumValue, hword]
  rfl

/-! ## Block descriptors -/

def FirmwareBlockDescriptor.toFields (block : FirmwareBlockDescriptor) : List Field :=
  uint 1 block.index.toNat ++ uint 2 block.rawOffset.toNat ++ uint 3 block.rawSize.toNat ++
    uint 4 block.encodedOffset.toNat ++ uint 5 block.encodedSize.toNat ++
    uint 6 (enumValue block.kind) ++ bytes 7 block.rawSha256 ++ bytes 8 block.encodedSha256

def FirmwareBlockDescriptor.ofFields (fields : List Field) : FirmwareBlockDescriptor where
  index := UInt32.ofNat (uintAt 1 fields)
  rawOffset := UInt32.ofNat (uintAt 2 fields)
  rawSize := UInt32.ofNat (uintAt 3 fields)
  encodedOffset := UInt32.ofNat (uintAt 4 fields)
  encodedSize := UInt32.ofNat (uintAt 5 fields)
  kind := enumOf (uintAt 6 fields)
  rawSha256 := bytesAt 7 fields
  encodedSha256 := bytesAt 8 fields

theorem FirmwareBlockDescriptor.ofFields_toFields (block : FirmwareBlockDescriptor) :
    ofFields block.toFields = block := by
  have hnumber (number n : ℕ) (h : valuesAt number block.toFields =
      valuesAt number (uint number n)) : uintAt number block.toFields = n :=
    Protobuf.uintAt_of_valuesAt h
  have hbytes (number : ℕ) (value : Bytes) (h : valuesAt number block.toFields =
      valuesAt number (bytes number value)) : bytesAt number block.toFields = value :=
    Protobuf.bytesAt_of_valuesAt h
  rw [ofFields, hnumber 1 block.index.toNat (by simp [toFields]),
    hnumber 2 block.rawOffset.toNat (by simp [toFields]),
    hnumber 3 block.rawSize.toNat (by simp [toFields]),
    hnumber 4 block.encodedOffset.toNat (by simp [toFields]),
    hnumber 5 block.encodedSize.toNat (by simp [toFields]),
    hnumber 6 (enumValue block.kind) (by simp [toFields]),
    hbytes 7 block.rawSha256 (by simp [toFields]),
    hbytes 8 block.encodedSha256 (by simp [toFields]), enumOf_enumValue]
  simp only [UInt32.ofNat_toNat]

/-- The bytes of a descriptor with their length in front. -/
def wireDescriptor (block : FirmwareBlockDescriptor) : Bytes :=
  Protobuf.varint (Protobuf.encode block.toFields).length ++ Protobuf.encode block.toFields

/-! ## Signed fields -/

def FirmwareArtifactSignedFields.toFields (signed : FirmwareArtifactSignedFields) : List Field :=
  uint 1 signed.schemaVersion.toNat ++ bytes 2 (stringBytes signed.projectName) ++
    bytes 3 (stringBytes signed.chipTarget) ++ bytes 4 (stringBytes signed.firmwareVersion) ++
    bytes 5 (stringBytes signed.buildCommit) ++ uint 6 signed.minimumCoreVersion.toNat ++
    uint 7 signed.minimumFabricSchema.toNat ++ uint 8 signed.rawSize.toNat ++
    uint 9 signed.encodedSize.toNat ++ uint 10 signed.requiredAppSlotSize.toNat ++
    uint 11 (enumValue signed.codec) ++ bytes 12 signed.imageSha256 ++
    bytes 13 signed.encodedSha256 ++ bytes 14 signed.blockTableSha256 ++
    bytes 15 signed.baseImageSha256 ++ uint 16 signed.blockSize.toNat ++
    uint 17 signed.blockCount.toNat ++ uint 18 signed.deflateWindowBits.toNat ++
    bytes 19 (stringBytes signed.signingKeyId)

def FirmwareArtifactSignedFields.ofFields (fields : List Field) :
    Option FirmwareArtifactSignedFields := do
  let projectName ← stringOf (bytesAt 2 fields)
  let chipTarget ← stringOf (bytesAt 3 fields)
  let firmwareVersion ← stringOf (bytesAt 4 fields)
  let buildCommit ← stringOf (bytesAt 5 fields)
  let signingKeyId ← stringOf (bytesAt 19 fields)
  some
    { schemaVersion := UInt32.ofNat (uintAt 1 fields)
      projectName := projectName
      chipTarget := chipTarget
      firmwareVersion := firmwareVersion
      buildCommit := buildCommit
      minimumCoreVersion := UInt32.ofNat (uintAt 6 fields)
      minimumFabricSchema := UInt32.ofNat (uintAt 7 fields)
      rawSize := UInt32.ofNat (uintAt 8 fields)
      encodedSize := UInt32.ofNat (uintAt 9 fields)
      requiredAppSlotSize := UInt32.ofNat (uintAt 10 fields)
      codec := enumOf (uintAt 11 fields)
      imageSha256 := bytesAt 12 fields
      encodedSha256 := bytesAt 13 fields
      blockTableSha256 := bytesAt 14 fields
      baseImageSha256 := bytesAt 15 fields
      blockSize := UInt32.ofNat (uintAt 16 fields)
      blockCount := UInt32.ofNat (uintAt 17 fields)
      deflateWindowBits := UInt32.ofNat (uintAt 18 fields)
      signingKeyId := signingKeyId }

theorem FirmwareArtifactSignedFields.ofFields_toFields (signed : FirmwareArtifactSignedFields) :
    ofFields signed.toFields = some signed := by
  have hnumber (number n : ℕ) (h : valuesAt number signed.toFields =
      valuesAt number (uint number n)) : uintAt number signed.toFields = n :=
    Protobuf.uintAt_of_valuesAt h
  have hbytes (number : ℕ) (value : Bytes) (h : valuesAt number signed.toFields =
      valuesAt number (bytes number value)) : bytesAt number signed.toFields = value :=
    Protobuf.bytesAt_of_valuesAt h
  rw [ofFields, hbytes 2 (stringBytes signed.projectName) (by simp [toFields]),
    hbytes 3 (stringBytes signed.chipTarget) (by simp [toFields]),
    hbytes 4 (stringBytes signed.firmwareVersion) (by simp [toFields]),
    hbytes 5 (stringBytes signed.buildCommit) (by simp [toFields]),
    hbytes 19 (stringBytes signed.signingKeyId) (by simp [toFields]),
    hnumber 1 signed.schemaVersion.toNat (by simp [toFields]),
    hnumber 6 signed.minimumCoreVersion.toNat (by simp [toFields]),
    hnumber 7 signed.minimumFabricSchema.toNat (by simp [toFields]),
    hnumber 8 signed.rawSize.toNat (by simp [toFields]),
    hnumber 9 signed.encodedSize.toNat (by simp [toFields]),
    hnumber 10 signed.requiredAppSlotSize.toNat (by simp [toFields]),
    hnumber 11 (enumValue signed.codec) (by simp [toFields]),
    hbytes 12 signed.imageSha256 (by simp [toFields]),
    hbytes 13 signed.encodedSha256 (by simp [toFields]),
    hbytes 14 signed.blockTableSha256 (by simp [toFields]),
    hbytes 15 signed.baseImageSha256 (by simp [toFields]),
    hnumber 16 signed.blockSize.toNat (by simp [toFields]),
    hnumber 17 signed.blockCount.toNat (by simp [toFields]),
    hnumber 18 signed.deflateWindowBits.toNat (by simp [toFields])]
  simp only [stringOf_stringBytes, enumOf_enumValue, UInt32.ofNat_toNat, Option.bind_eq_bind,
    Option.bind_some]

/-- `encode_to_vec` of signed fields. -/
def wireSignedFields (signed : FirmwareArtifactSignedFields) : Bytes :=
  Protobuf.encode signed.toFields

def readSignedFields (value : Bytes) : Except String FirmwareArtifactSignedFields :=
  match (Protobuf.decode value).bind FirmwareArtifactSignedFields.ofFields with
  | none => .error "failed to decode Protobuf message"
  | some signed => .ok signed

theorem readSignedFields_wire (signed : FirmwareArtifactSignedFields) :
    readSignedFields (wireSignedFields signed) = .ok signed := by
  rw [readSignedFields, wireSignedFields, Protobuf.decode_encode, Option.bind_some,
    FirmwareArtifactSignedFields.ofFields_toFields]

/-! ## Manifests -/

def FirmwareArtifactManifest.toFields (manifest : FirmwareArtifactManifest) : List Field :=
  bytes 1 manifest.signedFields ++
    manifest.blocks.flatMap (fun block => message 2 block.toFields) ++
    bytes 3 manifest.signature

def FirmwareArtifactManifest.ofFields (fields : List Field) : Option FirmwareArtifactManifest := do
  let blocks ← (repeatedAt 2 fields).mapM fun value =>
    (Protobuf.decode value).map FirmwareBlockDescriptor.ofFields
  some
    { signedFields := bytesAt 1 fields
      blocks := blocks
      signature := bytesAt 3 fields }

theorem valuesAt_blocks {number : ℕ} (h : 2 ≠ number) (blocks : List FirmwareBlockDescriptor) :
    valuesAt number (blocks.flatMap fun block => message 2 block.toFields) = [] := by
  induction blocks with
  | nil => rfl
  | cons block blocks ih =>
      rw [List.flatMap_cons, valuesAt_append, ih, message, valuesAt_singleton, if_neg h]
      rfl

theorem repeatedAt_blocks (blocks : List FirmwareBlockDescriptor) :
    repeatedAt 2 (blocks.flatMap fun block => message 2 block.toFields) =
      blocks.map fun block => Protobuf.encode block.toFields := by
  induction blocks with
  | nil => rfl
  | cons block blocks ih =>
      rw [repeatedAt] at ih
      rw [List.flatMap_cons, repeatedAt, valuesAt_append, List.filterMap_append, ih, message,
        valuesAt_singleton, if_pos rfl]
      rfl

theorem FirmwareArtifactManifest.ofFields_toFields (manifest : FirmwareArtifactManifest) :
    ofFields manifest.toFields = some manifest := by
  have hfields : bytesAt 1 manifest.toFields = manifest.signedFields :=
    Protobuf.bytesAt_of_valuesAt (by simp [toFields, valuesAt_blocks])
  have hsignature : bytesAt 3 manifest.toFields = manifest.signature :=
    Protobuf.bytesAt_of_valuesAt (by simp [toFields, valuesAt_blocks])
  have hblocks : repeatedAt 2 manifest.toFields =
      manifest.blocks.map fun block => Protobuf.encode block.toFields := by
    rw [← repeatedAt_blocks, repeatedAt, repeatedAt]
    simp [toFields]
  have hread : (manifest.blocks.map fun block => Protobuf.encode block.toFields).mapM
      (fun value => (Protobuf.decode value).map FirmwareBlockDescriptor.ofFields) =
        some manifest.blocks := by
    induction manifest.blocks with
    | nil => rfl
    | cons block blocks ih =>
        rw [List.map_cons, List.mapM_cons, ih, Protobuf.decode_encode, Option.map_some,
          FirmwareBlockDescriptor.ofFields_toFields]
        rfl
  rw [ofFields, hblocks, hread, hfields, hsignature]
  rfl

/-- `encode_to_vec` of a manifest. -/
def wireManifest (manifest : FirmwareArtifactManifest) : Bytes :=
  Protobuf.encode manifest.toFields

def readManifest (value : Bytes) : Except String FirmwareArtifactManifest :=
  match (Protobuf.decode value).bind FirmwareArtifactManifest.ofFields with
  | none => .error "failed to decode Protobuf message"
  | some manifest => .ok manifest

theorem readManifest_wire (manifest : FirmwareArtifactManifest) :
    readManifest (wireManifest manifest) = .ok manifest := by
  rw [readManifest, wireManifest, Protobuf.decode_encode, Option.bind_some,
    FirmwareArtifactManifest.ofFields_toFields]

theorem readManifest_nil :
    readManifest [] = .ok { signedFields := [], blocks := [], signature := [] } :=
  rfl

end KeemashCore.KeeLink.Ota
