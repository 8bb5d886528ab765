import KeemashCore.OtaV3.Checkpoint

/-!
# What the checkpoint journal shows

The journal is a `DoubleBuffer.Pair` of optional checkpoints, a tombstone being
no checkpoint.  `Journal` says that its keys hold what some history of writes
left there; as long as generations have not come round, loading the journal
returns the last record whose write completed, whatever was torn in between.
-/

namespace KeemashCore.OtaV3

variable {env : JournalEnv}

/-! ## Generations -/

/-- Fewer generations than this have been handed out: `nextGeneration` has not
come round to zero. -/
def generationLimit : ℕ := 2 ^ 31

theorem newer_iff {a b : U32} (ha : a.toNat ≤ generationLimit) (hb : b.toNat ≤ generationLimit)
    (hne : a.toNat % 2 ≠ b.toNat % 2) : newer a b = true ↔ b.toNat < a.toNat := by
  have hlimit : generationLimit = 2147483648 := rfl
  have hsub : (a - b).toNat = (4294967296 - b.toNat + a.toNat) % 4294967296 :=
    BitVec.toNat_sub a b
  simp only [newer, decide_eq_true_eq, BitVec.toInt_eq_toNat_cond, hsub]
  split <;> omega

theorem checkpointKey_eq (generation : U32) :
    checkpointKey generation = if generation.toNat % 2 = 1 then .v3a else .v3b := by
  have hand : (generation &&& 1).toNat = generation.toNat % 2 := by
    rw [BitVec.toNat_and]
    exact Nat.and_one_is_mod _
  have hiff : generation &&& 1 ≠ 0 ↔ generation.toNat % 2 = 1 := by
    rw [Ne, ← BitVec.toNat_inj, hand]
    change ¬generation.toNat % 2 = 0 ↔ _
    omega
  by_cases hodd : generation.toNat % 2 = 1
  · rw [checkpointKey, if_pos (hiff.mpr hodd), if_pos hodd]
  · rw [checkpointKey, if_neg (fun h => hodd (hiff.mp h)), if_neg hodd]

/-! ## Records -/

/-- The checkpoint of a record; a tombstone has none. -/
def StoredCheckpoint.content (record : StoredCheckpoint) : Option Checkpoint :=
  if record.tombstone ≠ 0 then none else some record.checkpoint

theorem nextGeneration_ne_zero (nvs : Nvs) : nextGeneration env nvs ≠ 0 := by
  have hfix (next : U32) : (if next = 0 then 1 else next) ≠ 0 := by
    by_cases hzero : next = 0
    · rw [if_pos hzero]
      decide
    · rw [if_neg hzero]
      exact hzero
  exact hfix _

/-- A checkpoint that `keemash_ota_v3_checkpoint_save` lets through. -/
def Storable (env : JournalEnv) (checkpoint : Option Checkpoint) : Prop :=
  ∀ cp, checkpoint = some cp → saveRejects env cp = false

/-- What `keemash_ota_v3_checkpoint_save` accepts, `record_valid` accepts. -/
theorem recordValid_of_accepted {record : StoredCheckpoint}
    (hmagic : record.magic = checkpointMagic) (hversion : record.version = checkpointVersion)
    (htombstone : record.tombstone = 0) (hgeneration : record.generation ≠ 0)
    (hcrc : env.crc32 record.toStoredBody = record.crc32)
    (hsave : saveRejects env record.checkpoint = false) :
    recordValid env record = true := by
  simp only [recordValid]
  rw [if_neg (by simpa [hmagic, hversion, htombstone] using hgeneration), if_neg (by simp [hcrc]),
    if_neg (by simp [htombstone])]
  simp only [saveRejects] at hsave
  split at hsave
  · exact absurd hsave (by decide)
  · rename_i hshape
    rw [if_neg hshape]
    split at hsave
    · rename_i hphase
      rw [if_pos hphase]
      simp only [decide_eq_false_iff_not, not_or] at hsave
      simp only [decide_eq_true_eq]
      omega
    · rename_i hphase
      rw [if_neg hphase]
      simp only [decide_eq_false_iff_not, not_or] at hsave
      simp only [decide_eq_true_eq]
      omega

theorem recordValid_freshRecord (nvs : Nvs) {checkpoint : Option Checkpoint}
    (hstore : Storable env checkpoint) :
    recordValid env (freshRecord env nvs checkpoint) = true := by
  have hgen : nextGeneration env nvs ≠ 0 := nextGeneration_ne_zero nvs
  cases checkpoint with
  | none => simp [recordValid, freshRecord, BitVec.ofNat_eq_ofNat ▸ hgen]
  | some cp => exact recordValid_of_accepted rfl rfl rfl hgen rfl (hstore cp rfl)

theorem content_freshRecord (nvs : Nvs) (checkpoint : Option Checkpoint) :
    (freshRecord env nvs checkpoint).content = checkpoint := by
  cases checkpoint <;> simp [freshRecord, StoredCheckpoint.content]

/-! ## The journal as a double buffer -/

/-- What a key shows: the number and the content of a readable record. -/
def slotView (env : JournalEnv) (nvs : Nvs) (key : NvsKey) : Option (ℕ × Option Checkpoint) :=
  (readRecord env nvs key).map fun record => (record.generation.toNat, record.content)

def view (env : JournalEnv) (nvs : Nvs) : DoubleBuffer.Pair (Option Checkpoint) where
  odd := slotView env nvs .v3a
  even := slotView env nvs .v3b

open DoubleBuffer (Write replay committed)

/-- The keys hold what the history left there, and no more than `n` of its
writes completed. -/
def Journal (env : JournalEnv) (nvs : Nvs) (history : List (Write (Option Checkpoint))) : Prop :=
  view env nvs = replay history ∧ (committed history).length < generationLimit

theorem journal_empty : Journal env Nvs.empty [] :=
  ⟨rfl, by decide⟩

/-- The latest record is the latest one of the double buffer. -/
theorem Journal.latestRecord {nvs : Nvs} {history : List (Write (Option Checkpoint))}
    (hj : Journal env nvs history) :
    (OtaV3.latestRecord env nvs).map (fun record => (record.generation.toNat, record.content)) =
      (committed history).getLast?.map fun c => ((committed history).length, c) := by
  obtain ⟨hview, hlimit⟩ := hj
  rw [← DoubleBuffer.latest_replay, ← hview]
  have horderly : (view env nvs).Orderly := hview ▸ DoubleBuffer.replay_orderly history
  have hbound (b) (hb : (view env nvs).odd = some b ∨ (view env nvs).even = some b) :
      b.1 ≤ generationLimit := by
    rw [hview] at hb
    exact Nat.le_trans (DoubleBuffer.number_le hb) (Nat.le_of_lt hlimit)
  simp only [OtaV3.latestRecord, DoubleBuffer.Pair.latest]
  cases hfirst : readRecord env nvs .v3a with
  | none => simp [view, slotView, hfirst]
  | some first =>
      have hodd : (view env nvs).odd = some (first.generation.toNat, first.content) := by
        simp [view, slotView, hfirst]
      cases hother : readRecord env nvs .v3b with
      | none =>
          have heven : (view env nvs).even = none := by simp [view, slotView, hother]
          rw [hodd, heven]
          rfl
      | some other =>
          have heven : (view env nvs).even = some (other.generation.toNat, other.content) := by
            simp [view, slotView, hother]
          have hnewer : newer other.generation first.generation = true ↔
              first.generation.toNat < other.generation.toNat := by
            refine newer_iff (hbound _ (Or.inr heven)) (hbound _ (Or.inl hodd)) ?_
            have hone : first.generation.toNat % 2 = 1 := horderly.odd _ hodd
            have hzero : other.generation.toNat % 2 = 0 := horderly.even _ heven
            omega
          rw [hodd, heven]
          simp only
          by_cases hlt : first.generation.toNat < other.generation.toNat
          · rw [if_pos (hnewer.mpr hlt), if_pos hlt]
            rfl
          · rw [if_neg (fun h => hlt (hnewer.mp h)), if_neg hlt]
            rfl

/-- Loading the journal returns the last record whose write completed. -/
theorem Journal.load {nvs : Nvs} {history : List (Write (Option Checkpoint))}
    (hj : Journal env nvs history) :
    checkpointLoad env nvs =
      match (committed history).getLast? with
      | some (some cp) => .ok cp
      | _ => .error .notFound := by
  have hlatest := hj.latestRecord
  cases hlast : (committed history).getLast? with
  | none =>
      rw [hlast] at hlatest
      simp only [Option.map_none, Option.map_eq_none_iff] at hlatest
      rw [checkpointLoad, hlatest]
  | some c =>
      rw [hlast] at hlatest
      simp only [Option.map_some, Option.map_eq_some_iff, Prod.mk.injEq] at hlatest
      obtain ⟨record, hrecord, -, hcontent⟩ := hlatest
      rw [checkpointLoad, hrecord]
      simp only [StoredCheckpoint.content] at hcontent
      split at hcontent <;> subst hcontent <;> simp_all

/-- The generation of the next record is the next number of the double buffer. -/
theorem Journal.nextGeneration {nvs : Nvs} {history : List (Write (Option Checkpoint))}
    (hj : Journal env nvs history) :
    (OtaV3.nextGeneration env nvs).toNat = (replay history).next := by
  have hlatest := hj.latestRecord
  have hlimit : (committed history).length < 2147483648 := hj.2
  rw [DoubleBuffer.Pair.next, DoubleBuffer.latest_replay]
  cases hlast : (committed history).getLast? with
  | none =>
      rw [hlast] at hlatest
      simp only [Option.map_none, Option.map_eq_none_iff] at hlatest
      simp only [OtaV3.nextGeneration, hlatest]
      rfl
  | some c =>
      rw [hlast] at hlatest
      simp only [Option.map_some, Option.map_eq_some_iff, Prod.mk.injEq] at hlatest
      obtain ⟨record, hrecord, hnumber, -⟩ := hlatest
      have hsucc : (record.generation + 1).toNat = record.generation.toNat + 1 := by
        rw [BitVec.toNat_add]
        change (record.generation.toNat + 1) % 4294967296 = _
        omega
      have hne : record.generation + 1 ≠ 0 := by
        rw [Ne, ← BitVec.toNat_inj, hsucc]
        exact Nat.succ_ne_zero _
      simp only [OtaV3.nextGeneration, hrecord, if_neg hne, Option.map_some]
      omega

theorem slotView_set (nvs : Nvs) (key other : NvsKey) (blob : Option StoredCheckpoint) :
    slotView env (nvs.set key blob) other =
      if other = key then
        (blob.filter (recordValid env)).map fun r => (r.generation.toNat, r.content)
      else
        slotView env nvs other := by
  by_cases hkey : other = key
  · subst hkey
    simp [slotView, readRecord, Nvs.set]
  · simp [slotView, readRecord, Nvs.set, hkey]

/-- Storing a blob under a generation's key replaces that number's slot. -/
theorem view_set (nvs : Nvs) (generation : U32) (blob : Option StoredCheckpoint) :
    view env (nvs.set (checkpointKey generation) blob) =
      (view env nvs).set generation.toNat
        ((blob.filter (recordValid env)).map fun r => (r.generation.toNat, r.content)) := by
  rw [checkpointKey_eq]
  by_cases hodd : generation.toNat % 2 = 1 <;>
    simp [view, slotView_set, DoubleBuffer.Pair.set, hodd]

/-! ## One write -/

/-- A completed write adds its record to the history. -/
theorem Journal.write_done {nvs : Nvs} {history : List (Write (Option Checkpoint))}
    (hj : Journal env nvs history) {checkpoint : Option Checkpoint}
    (hstore : Storable env checkpoint)
    (hroom : (committed history).length + 1 < generationLimit) :
    Journal env (writeRecord env nvs checkpoint .done).2 (history ++ [.done checkpoint]) := by
  refine ⟨?_, ?_⟩
  · have hvalid := @recordValid_freshRecord env nvs _ hstore
    have hgen : (freshRecord env nvs checkpoint).generation = OtaV3.nextGeneration env nvs := rfl
    simp only [writeRecord, view_set, Option.filter_some, hvalid, if_true, Option.map_some,
      content_freshRecord, hgen, hj.nextGeneration, hj.1, DoubleBuffer.replay_append]
    rfl
  · rw [DoubleBuffer.committed_append]
    simpa [committed] using hroom

/-- A torn write adds nothing. -/
theorem Journal.write_torn {nvs : Nvs} {history : List (Write (Option Checkpoint))}
    (hj : Journal env nvs history) (checkpoint : Option Checkpoint)
    (left : Option StoredCheckpoint) (invalid : left.filter (recordValid env) = none) :
    Journal env (writeRecord env nvs checkpoint (.torn left invalid)).2
      (history ++ [.torn]) := by
  refine ⟨?_, ?_⟩
  · have hgen : (freshRecord env nvs checkpoint).generation = OtaV3.nextGeneration env nvs := rfl
    simp only [writeRecord, view_set, invalid, Option.map_none, hgen, hj.nextGeneration, hj.1,
      DoubleBuffer.replay_append]
    rfl
  · rw [DoubleBuffer.committed_append]
    simpa [committed] using hj.2

/-! ## Sequences of calls -/

/-- The two calls that write the journal, with what becomes of the write. -/
inductive JournalCall (env : JournalEnv) where
  | save (checkpoint : Checkpoint) (write : NvsWrite env)
  | clear (write : NvsWrite env)

namespace JournalCall

def run (nvs : Nvs) : JournalCall env → Option EspErr × Nvs
  | .save checkpoint write => checkpointSave env nvs checkpoint write
  | .clear write => checkpointClear env nvs write

/-- The call hands a record to NVS. -/
def writes : JournalCall env → Bool
  | .save _ (.refused _ _) => false
  | .clear (.refused _ _) => false
  | .save checkpoint _ => !saveRejects env checkpoint
  | .clear _ => true

/-- The record of the call, when its write completed. -/
def completed : JournalCall env → Option (Option Checkpoint)
  | .save checkpoint .done => if saveRejects env checkpoint then none else some (some checkpoint)
  | .clear .done => some none
  | _ => none

end JournalCall

/-- The namespace after a sequence of calls. -/
def runCalls (nvs : Nvs) (calls : List (JournalCall env)) : Nvs :=
  calls.foldl (fun nvs call => (call.run nvs).2) nvs

/-- One call extends the history by at most one write. -/
theorem Journal.run {nvs : Nvs} {history : List (Write (Option Checkpoint))}
    (hj : Journal env nvs history) (call : JournalCall env)
    (hroom : (committed history).length + (call.completed.toList).length < generationLimit) :
    ∃ more, Journal env (call.run nvs).2 (history ++ more) ∧
      committed more = call.completed.toList := by
  have hsame : Journal env nvs (history ++ []) := by rwa [List.append_nil]
  have hwrite (checkpoint : Option Checkpoint) (hstore : Storable env checkpoint)
      (write : NvsWrite env)
      (hroom : write = .done → (committed history).length + 1 < generationLimit) :
      ∃ more, Journal env (writeRecord env nvs checkpoint write).2 (history ++ more) ∧
        (write = .done → committed more = [checkpoint]) ∧
        (write ≠ .done → committed more = []) := by
    cases write with
    | done =>
        exact ⟨[.done checkpoint], hj.write_done hstore (hroom rfl), fun _ => rfl,
          fun h => absurd rfl h⟩
    | torn left invalid =>
        exact ⟨[.torn], hj.write_torn checkpoint left invalid, fun h => (nomatch h), fun _ => rfl⟩
    | refused error isError =>
        exact ⟨[], hsame, fun h => (nomatch h), fun _ => rfl⟩
  cases call with
  | clear write =>
      obtain ⟨more, hmore, hdone, hother⟩ := hwrite none (fun _ h => nomatch h) write (by
        rintro rfl
        exact hroom)
      refine ⟨more, hmore, ?_⟩
      cases write with
      | done => exact hdone rfl
      | torn left invalid => exact hother (fun h => nomatch h)
      | refused error isError => exact hother (fun h => nomatch h)
  | save checkpoint write =>
      by_cases hreject : saveRejects env checkpoint = true
      · refine ⟨[], ?_, ?_⟩
        · simpa [JournalCall.run, checkpointSave, hreject] using hsame
        · cases write <;> simp [JournalCall.completed, hreject, committed]
      · have haccept : saveRejects env checkpoint = false := by simpa using hreject
        obtain ⟨more, hmore, hdone, hother⟩ := hwrite (some checkpoint)
          (fun _ h => by cases h; exact haccept) write (by
            rintro rfl
            simpa [JournalCall.completed, haccept] using hroom)
        refine ⟨more, ?_, ?_⟩
        · simpa [JournalCall.run, checkpointSave, haccept] using hmore
        · cases write with
          | done => simpa [JournalCall.completed, haccept] using hdone rfl
          | torn left invalid => exact hother (fun h => nomatch h)
          | refused error isError => exact hother (fun h => nomatch h)

theorem journal_runCalls (calls : List (JournalCall env))
    (hroom : (calls.filterMap JournalCall.completed).length < generationLimit) :
    ∃ history, Journal env (runCalls Nvs.empty calls) history ∧
      committed history = calls.filterMap JournalCall.completed := by
  induction calls using List.reverseRecOn with
  | nil => exact ⟨[], journal_empty, rfl⟩
  | append_singleton calls call ih =>
      have hsplit : (calls ++ [call]).filterMap JournalCall.completed =
          calls.filterMap JournalCall.completed ++ call.completed.toList := by
        rw [List.filterMap_append, List.filterMap_cons]
        cases call.completed <;> rfl
      rw [hsplit, List.length_append] at hroom
      obtain ⟨history, hj, hcommitted⟩ := ih (by omega)
      obtain ⟨more, hmore, hmoreCommitted⟩ := hj.run call (by rwa [hcommitted])
      refine ⟨history ++ more, ?_, ?_⟩
      · simpa [runCalls] using hmore
      · rw [hsplit, committed, List.filterMap_append]
        exact congrArg₂ (· ++ ·) hcommitted hmoreCommitted

/-- A call whose write completed did write. -/
theorem JournalCall.completed_le_writes (calls : List (JournalCall env)) :
    (calls.filterMap JournalCall.completed).length ≤ calls.countP JournalCall.writes := by
  induction calls with
  | nil => exact Nat.le_refl 0
  | cons call calls ih =>
      rw [List.filterMap_cons, List.countP_cons]
      have hone : call.completed ≠ none → call.writes = true := by
        rcases call with ⟨checkpoint, _ | _ | _⟩ | ⟨_ | _ | _⟩ <;>
          simp [JournalCall.completed, JournalCall.writes]
      cases hc : call.completed with
      | none => simp only; omega
      | some record =>
          have hw : call.writes = true := hone (by simp [hc])
          simp only [List.length_cons, hw, if_true]
          omega

/-! ## A device -/

/-- One byte of the reflected CRC-32 that `esp_rom_crc32_le` computes. -/
def crc32Byte (crc : U32) (byte : UInt8) : U32 :=
  (List.range 8).foldl
    (fun crc _ => if crc &&& 1 ≠ 0 then (crc >>> 1) ^^^ 0xedb88320 else crc >>> 1)
    (crc ^^^ byte.toBitVec.setWidth 32)

/-- `esp_rom_crc32_le`. -/
def espRomCrc32Le (crc : U32) (bytes : Bytes) : U32 :=
  ~~~(bytes.foldl crc32Byte (~~~crc))

/-- A little-endian integer of `n` bytes. -/
def littleEndian (n value : ℕ) : Bytes :=
  (List.range n).map fun i => UInt8.ofNat (value / 256 ^ i)

/-- The bytes of the record before its checksum, with the reserved bytes and the
padding that the record's initial `memset` leaves zero. -/
def StoredBody.bytes (body : StoredBody) : Bytes :=
  let cp := body.checkpoint
  littleEndian 4 body.magic.toNat ++ littleEndian 2 body.version.toNat ++
    littleEndian 1 body.tombstone.toNat ++ [0] ++ littleEndian 4 body.generation.toNat ++
    littleEndian 1 cp.phase.toNat ++ [0, 0, 0] ++ cp.operationId.toList ++
    cp.artifactId.toList ++ cp.signature.toList ++ littleEndian 2 cp.signedFields.length ++
    cp.signedFields ++ List.replicate (signedFieldsMax - cp.signedFields.length) 0 ++
    cp.partitionLabel.toList ++ [0] ++ littleEndian 4 cp.resume.nextBlockIndex ++
    littleEndian 4 cp.resume.rawOffset ++ littleEndian 4 cp.resume.encodedOffset ++
    cp.resume.blockChain.toList ++ cp.resume.imagePrefixSha256.toList

/-- A device with the default checkpoint interval. -/
def deviceJournal : JournalEnv where
  interval := 65536
  interval_pos := defaultInterval_pos
  interval_aligned := defaultInterval_aligned
  deltaExperimental := false
  crc32 := fun body => espRomCrc32Le 0 body.bytes

/-- A checkpoint after the first four blocks of a transfer to `ota_1`. -/
def fourBlocks : Checkpoint :=
  { Checkpoint.zero with
    phase := checkpointTransferring
    signedFields := [8, 1]
    partitionLabel := #v[111, 116, 97, 95, 49, 0, 0, 0, 0, 0, 0, 0, 0, 0, 0, 0, 0]
    resume := { ResumePoint.zero with
      nextBlockIndex := 4
      rawOffset := 65536
      encodedOffset := 30000 } }

/-! ## Loading after any sequence of calls -/

/-- What the journal should show after a sequence of calls: the record of the
last completed write. -/
def lastCompleted (calls : List (JournalCall env)) : Except EspErr Checkpoint :=
  match (calls.filterMap JournalCall.completed).getLast? with
  | some (some cp) => .ok cp
  | _ => .error .notFound

/-- From an empty namespace, with fewer than `2 ^ 31` writes, loading the journal
reports exactly the record of the last completed write: a save that returned
`ESP_OK` is the next checkpoint loaded, a call whose write did not complete
changes nothing, and a cleared checkpoint does not come back. -/
theorem checkpointLoad_runCalls (calls : List (JournalCall env))
    (hfew : calls.countP JournalCall.writes < 2 ^ 31) :
    checkpointLoad env (runCalls Nvs.empty calls) = lastCompleted calls ∧
      (∀ before cp write, calls = before ++ [.save cp write] →
        (checkpointSave env (runCalls Nvs.empty before) cp write).1 = some .ok →
        checkpointLoad env (runCalls Nvs.empty calls) = .ok cp) ∧
      (∀ before call, calls = before ++ [call] → call.completed = none →
        checkpointLoad env (runCalls Nvs.empty calls) =
          checkpointLoad env (runCalls Nvs.empty before)) ∧
      ∀ before later, calls = before ++ .clear .done :: later →
        (∀ call ∈ later, ∀ cp, call.completed ≠ some (some cp)) →
        checkpointLoad env (runCalls Nvs.empty calls) = .error .notFound := by
  have hload (part : List (JournalCall env))
      (hpart : part.countP JournalCall.writes < 2 ^ 31) :
      checkpointLoad env (runCalls Nvs.empty part) = lastCompleted part := by
    have hle := JournalCall.completed_le_writes part
    obtain ⟨history, hj, hcommitted⟩ :=
      journal_runCalls part (Nat.lt_of_le_of_lt hle hpart)
    rw [hj.load, hcommitted]
    rfl
  refine ⟨hload calls hfew, ?_, ?_, ?_⟩
  · rintro before cp write rfl hok
    rw [hload _ hfew]
    have hcompleted : (JournalCall.save cp write).completed = some (some cp) := by
      by_cases hreject : saveRejects env cp = true
      · simp [checkpointSave, hreject] at hok
      · cases write with
        | done => simp [JournalCall.completed, hreject]
        | torn left invalid => simp [checkpointSave, hreject, writeRecord] at hok
        | refused error isError => simp [checkpointSave, hreject, writeRecord, isError] at hok
    simp [lastCompleted, List.filterMap_append, hcompleted]
  · rintro before call rfl hnone
    have hbefore : before.countP JournalCall.writes < 2 ^ 31 := by
      rw [List.countP_append] at hfew
      omega
    rw [hload _ hfew, hload _ hbefore]
    simp [lastCompleted, List.filterMap_append, hnone]
  · rintro before later rfl hlater
    rw [hload _ hfew]
    have hnone : ∀ record ∈ later.filterMap JournalCall.completed, record = none := by
      intro record hrecord
      obtain ⟨call, hmem, hcall⟩ := List.mem_filterMap.mp hrecord
      cases record with
      | none => rfl
      | some cp => exact absurd hcall (hlater call hmem cp)
    have hlast : ((before ++ JournalCall.clear .done :: later).filterMap
        JournalCall.completed).getLast? = some none := by
      rw [List.filterMap_append, List.filterMap_cons]
      simp only [JournalCall.completed]
      cases hl : (later.filterMap JournalCall.completed).getLast? with
      | none =>
          rw [List.getLast?_eq_none_iff] at hl
          rw [hl]
          simp
      | some record =>
          have hrecord : record = none := hnone record (List.mem_of_getLast? hl)
          rw [List.getLast?_append, List.getLast?_cons, hl, hrecord]
          rfl
    rw [lastCompleted, hlast]

/-- A torn clear leaves the saved checkpoint in force, a completed one does not. -/
theorem checkpointLoad_runCalls_fourBlocks :
    checkpointLoad deviceJournal
        (@runCalls deviceJournal Nvs.empty
          [.save fourBlocks .done, .clear (.torn none rfl)]) = .ok fourBlocks ∧
      checkpointLoad deviceJournal
        (@runCalls deviceJournal Nvs.empty
          [.save fourBlocks .done, .clear .done, .save fourBlocks (.torn none rfl)]) =
        .error .notFound :=
  ⟨(checkpointLoad_runCalls [.save fourBlocks .done, .clear (.torn none rfl)] (by decide)).1,
    (checkpointLoad_runCalls
      [.save fourBlocks .done, .clear .done, .save fourBlocks (.torn none rfl)] (by decide)).1⟩

end KeemashCore.OtaV3
