import KeemashCore.LittleEndian.Field
import KeemashCore.WeeklySchedule.Basic

/-!
# The stored schedule

`config_to_blob` packs a configuration into 48 bytes with a checksum, and `load_config`
unpacks them and validates what it finds.  In a stored point the enabled flag is the highest
bit of the action, so a configuration comes back as it was exactly if all its actions are
below 128; `config_valid` only asks them not to exceed `max_action`.
-/

namespace KeemashCore.WeeklySchedule

open LittleEndian

/-! ## The blob -/

/-- `SCHEDULE_BLOB_VERSION`. -/
def blobVersion : BitVec 8 := 1

/-- `SCHEDULE_FLAG_ENABLED`. -/
def flagEnabled : BitVec 8 := 0x01

/-- `SCHEDULE_FLAG_PERSIST`. -/
def flagPersist : BitVec 8 := 0x02

/-- `POINT_FLAG_ENABLED`. -/
def pointFlagEnabled : BitVec 8 := 0x80

/-- `persisted_point_t`. -/
structure PersistedPoint where
  minuteOfDay : BitVec 16
  daysMask : BitVec 8
  actionFlags : BitVec 8
  deriving DecidableEq

def PersistedPoint.zero : PersistedPoint where
  minuteOfDay := 0
  daysMask := 0
  actionFlags := 0

def PersistedPoint.bytes (point : PersistedPoint) : List UInt8 :=
  toLeBytes 2 point.minuteOfDay ++ (toLeBytes 1 point.daysMask ++
    toLeBytes 1 point.actionFlags)

def PersistedPoint.read (bytes : List UInt8) : PersistedPoint where
  minuteOfDay := wordAt 2 bytes 0
  daysMask := wordAt 1 bytes 2
  actionFlags := wordAt 1 bytes 3

/-- `schedule_blob_t`. -/
structure Blob where
  magic : U32
  version : BitVec 8
  count : BitVec 8
  flags : BitVec 8
  reserved : BitVec 8
  generation : U32
  points : Vector PersistedPoint maxPoints
  checksum : U32

/-- `sizeof(persisted_point_t)`. -/
def persistedPointSize : ℕ := 4

/-- `offsetof(schedule_blob_t, points)`. -/
def blobHeaderSize : ℕ := 12

/-- `sizeof(schedule_blob_t)`. -/
def blobSize : ℕ := 48

/-- The bytes in front of the points. -/
def Blob.header (blob : Blob) : List UInt8 :=
  toLeBytes 4 blob.magic ++ (toLeBytes 1 blob.version ++ (toLeBytes 1 blob.count ++
    (toLeBytes 1 blob.flags ++ (toLeBytes 1 blob.reserved ++ toLeBytes 4 blob.generation))))

/-- The bytes in front of the checksum. -/
def Blob.body (blob : Blob) : List UInt8 :=
  blob.header ++ blob.points.toList.flatMap PersistedPoint.bytes

def Blob.bytes (blob : Blob) : List UInt8 :=
  blob.body ++ toLeBytes 4 blob.checksum

def Blob.read (bytes : List UInt8) : Blob where
  magic := wordAt 4 bytes 0
  version := wordAt 1 bytes 4
  count := wordAt 1 bytes 5
  flags := wordAt 1 bytes 6
  reserved := wordAt 1 bytes 7
  generation := wordAt 4 bytes 8
  points := .ofFn fun i =>
    .read (bytes.drop (blobHeaderSize + persistedPointSize * i.val))
  checksum := wordAt 4 bytes 44

/-- `checksum32`. -/
def checksum32 (data : List UInt8) : U32 :=
  data.foldl (fun value byte => (value ^^^ byte.toBitVec.setWidth 32) * 16777619) 2166136261

/-! ## Packing and unpacking -/

/-- A point as `config_to_blob` stores it. -/
def Point.pack (point : Point) : PersistedPoint where
  minuteOfDay := point.minuteOfDay
  daysMask := point.daysMask
  actionFlags := point.action ||| (if point.enabled then pointFlagEnabled else 0)

/-- A point as `blob_to_config` reads it. -/
def PersistedPoint.unpack (point : PersistedPoint) : Point where
  enabled := decide (point.actionFlags &&& pointFlagEnabled ≠ 0)
  minuteOfDay := point.minuteOfDay
  action := point.actionFlags &&& ~~~pointFlagEnabled
  daysMask := point.daysMask

/-- `config_to_blob` before the checksum is written. -/
def unsummedBlob (magic : U32) (config : Config) : Blob where
  magic := magic
  version := blobVersion
  count := config.count
  flags := (if config.enabled then flagEnabled else 0) |||
    (if config.persistenceEnabled then flagPersist else 0)
  reserved := 0
  generation := config.generation
  points := .ofFn fun i =>
    if i.val < config.count.toNat then (config.point i).pack else .zero
  checksum := 0

/-- `config_to_blob`; `magic` is the `blob_magic` of the schedule. -/
def configToBlob (magic : U32) (config : Config) : Blob :=
  let blob := unsummedBlob magic config
  { blob with checksum := checksum32 blob.body }

/-- `blob_to_config`. -/
def blobToConfig (blob : Blob) : Config where
  generation := blob.generation
  enabled := decide (blob.flags &&& flagEnabled ≠ 0)
  persistenceEnabled := decide (blob.flags &&& flagPersist ≠ 0)
  count := blob.count
  points := .ofFn fun i =>
    if i.val < blob.count.toNat then (blob.points[i]).unpack else .zero

/-! ## NVS -/

/-- What `nvs_get_blob` finds for the key. -/
inductive GetBlob where
  | notFound
  | failed
  | found (bytes : List UInt8)

/-- What `persist_config` leaves under the key when it succeeds. -/
def persistedBlob (magic : U32) (config : Config) : GetBlob :=
  if config.persistenceEnabled then .found (configToBlob magic config).bytes else .notFound

/-- The configuration that `load_config` starts with. -/
def Config.initial : Config :=
  { Config.zero with generation := 1 }

/-- `load_config`; `opened` and `stored` are what `nvs_open` and `nvs_get_blob` give. -/
def loadConfig (options : Options) (magic : U32) (opened : EspErr) (stored : GetBlob) :
    Config :=
  if opened ≠ .ok then .initial
  else
    match stored with
    | .notFound => .initial
    | .failed => .initial
    | .found bytes =>
        let blob := Blob.read bytes
        if bytes.length ≠ blobSize ∨ blob.magic ≠ magic ∨ blob.version ≠ blobVersion ∨
            blob.checksum ≠ checksum32 blob.body then
          .initial
        else
          let candidate := blobToConfig blob
          if candidate.persistenceEnabled = false ∨ ¬ConfigValid options candidate then .initial
          else candidate

/-! ## The bytes of a blob -/

@[simp] theorem PersistedPoint.length_bytes (point : PersistedPoint) :
    point.bytes.length = persistedPointSize := by
  simp [PersistedPoint.bytes, persistedPointSize]

@[simp] theorem PersistedPoint.read_bytes (point : PersistedPoint) (rest : List UInt8) :
    PersistedPoint.read (point.bytes ++ rest) = point := by
  simp only [PersistedPoint.read, PersistedPoint.bytes, List.append_assoc]
  simp [wordAt_append]

@[simp] theorem Blob.length_header (blob : Blob) : blob.header.length = blobHeaderSize := by
  simp [Blob.header, blobHeaderSize]

theorem length_flatMap_bytes (points : List PersistedPoint) :
    (points.flatMap PersistedPoint.bytes).length = persistedPointSize * points.length := by
  induction points with
  | nil => rfl
  | cons point points ih =>
      rw [List.flatMap_cons, List.length_append, ih, PersistedPoint.length_bytes,
        List.length_cons, Nat.mul_succ, Nat.add_comm]

theorem Blob.length_bytes (blob : Blob) : blob.bytes.length = blobSize := by
  simp only [Blob.bytes, Blob.body, List.length_append, Blob.length_header,
    length_flatMap_bytes, Vector.length_toList, length_toLeBytes]
  rfl

/-- The points one after another are read one by one. -/
theorem read_flatMap_bytes {points : List PersistedPoint} (rest : List UInt8) {i : ℕ}
    (hi : i < points.length) :
    PersistedPoint.read
        ((points.flatMap PersistedPoint.bytes ++ rest).drop (persistedPointSize * i)) =
      points[i] := by
  induction points generalizing i with
  | nil => exact absurd hi (Nat.not_lt_zero i)
  | cons point points ih =>
      rw [List.flatMap_cons, List.append_assoc]
      cases i with
      | zero => rw [Nat.mul_zero, List.drop_zero, PersistedPoint.read_bytes, List.getElem_cons_zero]
      | succ i =>
          have hskip : persistedPointSize * (i + 1) =
              point.bytes.length + persistedPointSize * i := by
            rw [PersistedPoint.length_bytes, Nat.mul_succ, Nat.add_comm]
          rw [hskip, ← List.drop_drop, List.drop_left, List.getElem_cons_succ]
          exact ih (Nat.lt_of_succ_lt_succ hi)

theorem Blob.read_bytes (blob : Blob) : Blob.read blob.bytes = blob := by
  have hbody : blob.body.length = 44 := by
    simp only [Blob.body, List.length_append, Blob.length_header, length_flatMap_bytes,
      Vector.length_toList]
    rfl
  have hchecksum : wordAt 4 blob.bytes 44 = blob.checksum := by
    have hword := @wordAt_toLeBytes_append 4 blob.checksum []
    rw [List.append_nil] at hword
    rw [Blob.bytes, wordAt_append _ (Nat.le_of_eq hbody), hbody, Nat.sub_self]
    exact hword
  have hpoints : (Vector.ofFn fun i : Fin maxPoints =>
      PersistedPoint.read (blob.bytes.drop (blobHeaderSize + persistedPointSize * i.val))) =
      blob.points := by
    ext i hi
    rw [Vector.getElem_ofFn, Blob.bytes, Blob.body, List.append_assoc, ← List.drop_drop,
      ← Blob.length_header blob, List.drop_left, read_flatMap_bytes]
    · exact Vector.getElem_toList _
    · exact lt_of_lt_of_eq hi (Vector.length_toList).symm
  rw [Blob.read, hpoints, hchecksum]
  simp only [Blob.bytes, Blob.body, Blob.header, List.append_assoc]
  simp [wordAt_append]

/-! ## The round trip -/

/-- A flag of a stored point. -/
theorem pack_enabled (action : BitVec 8) (enabled : Bool) :
    (action ||| (if enabled then pointFlagEnabled else 0)) &&& pointFlagEnabled ≠ 0 ↔
      enabled = true ∨ 128 ≤ action.toNat := by
  revert action enabled
  decide +kernel

theorem pack_action (action : BitVec 8) (enabled : Bool) :
    ((action ||| (if enabled then pointFlagEnabled else 0)) &&& ~~~pointFlagEnabled) = action ↔
      action.toNat < 128 := by
  revert action enabled
  decide +kernel

/-- The two parts of the byte are told apart if the action is below 128. -/
theorem unpack_pack_iff (point : Point) : point.pack.unpack = point ↔ point.action.toNat < 128 := by
  constructor
  · intro h
    exact (pack_action point.action point.enabled).1 (congrArg Point.action h)
  · intro hsmall
    have henabled := pack_enabled point.action point.enabled
    have haction := (pack_action point.action point.enabled).2 hsmall
    have hflag : point.pack.unpack.enabled = point.enabled := by
      rw [Bool.eq_iff_iff, PersistedPoint.unpack, Point.pack, decide_eq_true_eq, henabled]
      exact or_iff_left (Nat.not_le.2 hsmall)
    calc
      point.pack.unpack =
          { point with
            enabled := point.pack.unpack.enabled
            action := point.pack.unpack.action } := rfl
      _ = { point with
            enabled := point.enabled
            action := point.action } := by rw [hflag, show point.pack.unpack.action = _ from haction]
      _ = point := rfl

/-- The parts of a configuration that are stored. -/
structure SameStored (config other : Config) : Prop where
  generation : other.generation = config.generation
  enabled : other.enabled = config.enabled
  persistenceEnabled : other.persistenceEnabled = config.persistenceEnabled
  count : other.count = config.count
  point : ∀ i < config.count.toNat, other.point i = config.point i

/-- The configuration comes back from its blob, and from NVS after `persist_config`. -/
def RoundTrips (options : Options) (magic : U32) (config : Config) : Prop :=
  SameStored config (blobToConfig (configToBlob magic config)) ∧
    (config.persistenceEnabled = true → ∀ nvs, persistConfig nvs config = .ok →
      SameStored config (loadConfig options magic .ok (persistedBlob magic config)))

theorem config_flags (enabled persistenceEnabled : Bool) :
    decide (((if enabled then flagEnabled else 0) |||
        (if persistenceEnabled then flagPersist else 0)) &&& flagEnabled ≠ 0) = enabled ∧
      decide (((if enabled then flagEnabled else 0) |||
        (if persistenceEnabled then flagPersist else 0)) &&& flagPersist ≠ 0) =
          persistenceEnabled := by
  revert enabled persistenceEnabled
  decide

theorem point_blobToConfig {options : Options} {config : Config}
    (hvalid : ConfigValid options config) (magic : U32) {i : ℕ}
    (hi : i < config.count.toNat) :
    (blobToConfig (configToBlob magic config)).point i = (config.point i).pack.unpack := by
  have hmax : i < maxPoints := Nat.lt_of_lt_of_le hi hvalid.2.1
  rw [Config.point, blobToConfig, Vector.getElem?_eq_getElem hmax, Option.getD_some,
    Vector.getElem_ofFn]
  simp only [configToBlob, unsummedBlob, Fin.getElem_fin, Vector.getElem_ofFn, if_pos hi]

/-- From the blob, each point comes back as it is packed and unpacked. -/
theorem sameStored_blobToConfig_iff {options : Options} {config : Config}
    (hvalid : ConfigValid options config) (magic : U32) :
    SameStored config (blobToConfig (configToBlob magic config)) ↔
      ∀ i < config.count.toNat, (config.point i).action.toNat < 128 := by
  have hflags := config_flags config.enabled config.persistenceEnabled
  constructor
  · intro hsame i hi
    rw [← unpack_pack_iff, ← point_blobToConfig hvalid magic hi]
    exact hsame.point i hi
  · intro hactions
    constructor
    · rfl
    · exact hflags.1
    · exact hflags.2
    · rfl
    · intro i hi
      rw [point_blobToConfig hvalid magic hi]
      exact (unpack_pack_iff _).2 (hactions i hi)

/-- What is valid stays valid in another configuration with the same stored parts. -/
theorem SameStored.configValid {options : Options} {config other : Config}
    (hsame : SameStored config other) (hvalid : ConfigValid options config) :
    ConfigValid options other := by
  refine ⟨by rw [hsame.generation]; exact hvalid.1, by rw [hsame.count]; exact hvalid.2.1, ?_⟩
  intro i hi
  rw [hsame.count] at hi
  rw [hsame.point i hi]
  refine ⟨(hvalid.2.2 i hi).1, fun henabled j hj => ?_⟩
  rw [hsame.point j (Nat.lt_trans hj hi)]
  exact (hvalid.2.2 i hi).2 henabled j hj

theorem checksum_configToBlob (magic : U32) (config : Config) :
    (configToBlob magic config).checksum = checksum32 (configToBlob magic config).body := by
  rw [configToBlob]
  simp only [Blob.body, Blob.header]

/-- The blob of a configuration passes the checks of `load_config`, so the rest depends on
the configuration that is unpacked. -/
theorem loadConfig_persistedBlob (options : Options) (magic : U32) {config : Config}
    (hpersistence : config.persistenceEnabled = true) :
    loadConfig options magic .ok (persistedBlob magic config) =
      if (blobToConfig (configToBlob magic config)).persistenceEnabled = false ∨
          ¬ConfigValid options (blobToConfig (configToBlob magic config)) then .initial
      else blobToConfig (configToBlob magic config) := by
  rw [persistedBlob, if_pos hpersistence, loadConfig, if_neg (fun h => h rfl)]
  simp only [Blob.read_bytes, Blob.length_bytes]
  rw [if_neg]
  rintro (h | h | h | h)
  · exact h rfl
  · exact h rfl
  · exact h rfl
  · exact h (checksum_configToBlob magic config)

/-- A valid configuration is restored if and only if its actions leave the flag alone. -/
theorem roundTrips_iff {options : Options} (magic : U32) {config : Config}
    (hvalid : ConfigValid options config) :
    RoundTrips options magic config ↔
      ∀ i < config.count.toNat, (config.point i).action.toNat < 128 := by
  rw [← sameStored_blobToConfig_iff hvalid magic]
  constructor
  · intro h
    exact h.1
  · intro hsame
    refine ⟨hsame, fun hpersistence nvs _ => ?_⟩
    rw [loadConfig_persistedBlob options magic hpersistence, if_neg]
    · exact hsame
    · rintro (hflag | hinvalid)
      · rw [hsame.persistenceEnabled, hpersistence] at hflag
        exact Bool.noConfusion hflag
      · exact hinvalid (hsame.configValid hvalid)

def anyByte : Options where
  maxAction := 0xff
  catchUpOnClockReady := true
  stageTimeoutMs := 0

/-- One point that is not enabled, with the given action. -/
def storedPoint (action : BitVec 8) : Config where
  generation := 7
  enabled := true
  persistenceEnabled := true
  count := 1
  points := Vector.replicate maxPoints
    { enabled := false
      minuteOfDay := 360
      action := action
      daysMask := allDays }

/-- The action 128 comes back as 0, in a point that is enabled. -/
theorem storedPoint_not_roundTrips :
    ConfigValid anyByte (storedPoint 128) ∧ ¬RoundTrips anyByte 1 (storedPoint 128) ∧
      (blobToConfig (configToBlob 1 (storedPoint 128))).point 0 =
        { enabled := true
          minuteOfDay := 360
          action := 0
          daysMask := allDays } := by
  have hpoint : (blobToConfig (configToBlob 1 (storedPoint 128))).point 0 =
      { enabled := true
        minuteOfDay := 360
        action := 0
        daysMask := allDays } := by decide +kernel
  refine ⟨by decide +kernel, fun hround => ?_, hpoint⟩
  have hsame := (hround.1.point 0 (by decide)).symm.trans hpoint
  exact absurd hsame (by decide)

/-- The action 127 comes back. -/
theorem roundTrips_iff_storedPoint :
    RoundTrips anyByte 1 (storedPoint 127) ↔
      ∀ i < (storedPoint 127).count.toNat, ((storedPoint 127).point i).action.toNat < 128 :=
  roundTrips_iff 1 (by decide +kernel)

end KeemashCore.WeeklySchedule
