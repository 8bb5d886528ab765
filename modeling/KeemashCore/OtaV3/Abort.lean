import KeemashCore.OtaV3.Selection

/-!
# Aborting a transfer

`keemash_ota_v3_flash_receiver_abort` clears the journal and the receiver when the
receiver in RAM holds the transfer.  After a restart the transfer is in the
journal only, and there the guard of
`keemash_ota_v3_flash_receiver_abort_current` refuses what
`keemash_ota_v3_flash_receiver_abort` has just matched.

That a completed tombstone hides every earlier record needs no bound on the
number of writes: the records under the two keys follow one another, also where
the generation comes round to one.
-/

namespace KeemashCore.OtaV3

/-! ## Consecutive records -/

section Paired

variable {env : JournalEnv}

/-- `write_record` gives `new` to the record after the one of generation `old`, or
to a later one that replaces the record between the two. -/
def Follows (old new : U32) : Prop :=
  new = old + 1 ∨ (old = 0xfffffffe ∧ new = 1)

theorem Follows.newer {old new : U32} (h : Follows old new) :
    OtaV3.newer new old = true ∧ OtaV3.newer old new = false := by
  rcases h with rfl | ⟨rfl, rfl⟩
  · have hafter : old + 1 - old = 1 := by bv_omega
    have hbefore : old - (old + 1) = 0xffffffff := by bv_omega
    simp only [OtaV3.newer, hafter, hbefore]
    decide
  · decide

/-- Each readable record lies under the key of its generation, and of two readable
records one follows the other. -/
structure Paired (env : JournalEnv) (nvs : Nvs) : Prop where
  key : ∀ key record, readRecord env nvs key = some record →
    checkpointKey record.generation = key
  follows : ∀ first other, readRecord env nvs .v3a = some first →
    readRecord env nvs .v3b = some other →
    Follows first.generation other.generation ∨ Follows other.generation first.generation

theorem paired_empty : Paired env Nvs.empty :=
  ⟨fun _ _ h => (nomatch h), fun _ _ h => (nomatch h)⟩

theorem readRecord_set (nvs : Nvs) (key other : NvsKey) (blob : Option StoredCheckpoint) :
    readRecord env (nvs.set key blob) other =
      if other = key then blob.filter (recordValid env) else readRecord env nvs other := by
  by_cases hkey : other = key
  · subst hkey
    simp [readRecord, Nvs.set]
  · simp [readRecord, Nvs.set, hkey]

theorem recordValid_generation {record : StoredCheckpoint} (h : recordValid env record = true) :
    record.generation ≠ 0 := by
  intro hzero
  simp [recordValid, hzero] at h

theorem readRecord_generation {nvs : Nvs} {key : NvsKey} {record : StoredCheckpoint}
    (h : readRecord env nvs key = some record) : record.generation ≠ 0 :=
  recordValid_generation (Option.mem_filter_iff.mp h).2

/-- The latest record is one of the readable ones. -/
theorem latestRecord_mem {nvs : Nvs} {record : StoredCheckpoint}
    (h : latestRecord env nvs = some record) : ∃ key, readRecord env nvs key = some record := by
  simp only [latestRecord] at h
  split at h
  · rename_i first other hfirst hother
    split at h
    · exact ⟨.v3b, hother.trans h⟩
    · exact ⟨.v3a, hfirst.trans h⟩
  · rename_i first hfirst hother
    exact ⟨.v3a, hfirst.trans h⟩
  · exact ⟨.v3b, h⟩

theorem latestRecord_none {nvs : Nvs} (h : latestRecord env nvs = none) (key : NvsKey) :
    readRecord env nvs key = none := by
  simp only [latestRecord] at h
  split at h
  · split at h <;> cases h
  · cases h
  · rename_i hfirst
    cases key with
    | v3a => exact hfirst
    | v3b => exact h

/-- A readable record that is newer than any under the other key is the latest. -/
theorem latestRecord_of_newer {nvs : Nvs} {key : NvsKey} {record : StoredCheckpoint}
    (hread : readRecord env nvs key = some record)
    (hother : ∀ other old, other ≠ key → readRecord env nvs other = some old →
      newer record.generation old.generation = true ∧
        newer old.generation record.generation = false) :
    latestRecord env nvs = some record := by
  cases key with
  | v3a =>
      cases hold : readRecord env nvs .v3b with
      | none => simp [latestRecord, hread, hold]
      | some old =>
          have hnewer := (hother .v3b old (by decide) hold).2
          simp [latestRecord, hread, hold, hnewer]
  | v3b =>
      cases hold : readRecord env nvs .v3a with
      | none => simp [latestRecord, hread, hold]
      | some old =>
          have hnewer := (hother .v3a old (by decide) hold).1
          simp [latestRecord, hread, hold, hnewer]

/-- What the record under the other key is to the one that `write_record` stores. -/
theorem Paired.before_fresh {nvs : Nvs} (h : Paired env nvs) {key : NvsKey}
    {old : StoredCheckpoint} (hkey : key ≠ checkpointKey (nextGeneration env nvs))
    (hold : readRecord env nvs key = some old) :
    Follows old.generation (nextGeneration env nvs) := by
  cases hlatest : latestRecord env nvs with
  | none =>
      rw [latestRecord_none hlatest] at hold
      cases hold
  | some latest =>
      obtain ⟨latestKey, hread⟩ := latestRecord_mem hlatest
      have hnext : nextGeneration env nvs =
          if latest.generation + 1 = 0 then 1 else latest.generation + 1 := by
        simp only [nextGeneration, hlatest]
      by_cases hsame : latestKey = key
      · subst hsame
        obtain rfl : latest = old := Option.some.inj (hread.symm.trans hold)
        by_cases hround : latest.generation + 1 = 0
        · -- After generation `0xffffffff` the latest record itself is replaced.
          have hlast : latest.generation = 0xffffffff := by bv_omega
          have hlatestKey := h.key _ _ hread
          rw [hnext, if_pos hround, ← hlatestKey, hlast] at hkey
          exact absurd (by decide) hkey
        · rw [hnext, if_neg hround]
          exact .inl rfl
      · have hround : latest.generation + 1 = 0 := by
          by_contra hround
          have hlatestKey := h.key _ _ hread
          have holdKey := h.key _ _ hold
          rw [hnext, if_neg hround] at hkey
          have htwo : latestKey = checkpointKey (latest.generation + 1) := by
            generalize checkpointKey (latest.generation + 1) = next at hkey ⊢
            cases latestKey <;> cases key <;> cases next <;> simp_all
          rw [← hlatestKey, checkpointKey_eq, checkpointKey_eq] at htwo
          have hadd : (latest.generation + 1).toNat = latest.generation.toNat + 1 := by
            bv_omega
          rw [hadd] at htwo
          split at htwo <;> split at htwo <;> first | omega | cases htwo
        have hlast : latest.generation = 0xffffffff := by bv_omega
        have hzero := readRecord_generation hold
        have hpair : Follows latest.generation old.generation ∨
            Follows old.generation latest.generation := by
          cases latestKey <;> cases key
          · exact absurd rfl hsame
          · exact h.follows _ _ hread hold
          · exact (h.follows _ _ hold hread).symm
          · exact absurd rfl hsame
        rw [hnext, if_pos hround]
        rw [hlast] at hpair
        rcases hpair with (hafter | ⟨hafter, -⟩) | (hbefore | ⟨-, hbefore⟩)
        · exact absurd hafter (by bv_omega)
        · exact absurd hafter (by decide)
        · exact .inr ⟨by bv_omega, rfl⟩
        · exact absurd hbefore (by decide)

/-- A completed write is what the journal shows next. -/
theorem Paired.latest_write {nvs : Nvs} (h : Paired env nvs) {checkpoint : Option Checkpoint}
    (hstore : Storable env checkpoint) :
    latestRecord env (writeRecord env nvs checkpoint .done).2 =
      some (freshRecord env nvs checkpoint) := by
  have hvalid := @recordValid_freshRecord env nvs _ hstore
  have hgeneration : (freshRecord env nvs checkpoint).generation = nextGeneration env nvs := rfl
  have hread : readRecord env (writeRecord env nvs checkpoint .done).2
      (checkpointKey (nextGeneration env nvs)) = some (freshRecord env nvs checkpoint) := by
    simp [writeRecord, hgeneration, readRecord_set, hvalid]
  apply latestRecord_of_newer hread
  intro other old hother hold
  rw [hgeneration]
  refine (h.before_fresh hother ?_).newer
  simpa [writeRecord, hgeneration, readRecord_set, hother] using hold

theorem Paired.write {nvs : Nvs} (h : Paired env nvs) {checkpoint : Option Checkpoint}
    (hstore : Storable env checkpoint) (write : NvsWrite env) :
    Paired env (writeRecord env nvs checkpoint write).2 := by
  have hgeneration : (freshRecord env nvs checkpoint).generation = nextGeneration env nvs := rfl
  have hvalid := @recordValid_freshRecord env nvs _ hstore
  cases write with
  | refused error isError => exact h
  | torn left invalid =>
      have hread (key : NvsKey) (record : StoredCheckpoint)
          (hrecord : readRecord env (writeRecord env nvs checkpoint (.torn left invalid)).2 key =
            some record) : readRecord env nvs key = some record := by
        simp only [writeRecord, readRecord_set, invalid] at hrecord
        split at hrecord
        · cases hrecord
        · exact hrecord
      constructor
      · intro key record hrecord
        exact h.key key record (hread key record hrecord)
      · intro first other hfirst hother
        exact h.follows first other (hread _ _ hfirst) (hread _ _ hother)
  | done =>
      have hread (key : NvsKey) (record : StoredCheckpoint)
          (hrecord : readRecord env (writeRecord env nvs checkpoint .done).2 key = some record) :
          (key = checkpointKey (nextGeneration env nvs) ∧
              record.generation = nextGeneration env nvs) ∨
            (key ≠ checkpointKey (nextGeneration env nvs) ∧
              readRecord env nvs key = some record) := by
        simp only [writeRecord, readRecord_set, hgeneration, Option.filter_some, hvalid,
          if_true] at hrecord
        split at hrecord
        · rename_i hkey
          cases hrecord
          exact .inl ⟨hkey, rfl⟩
        · rename_i hkey
          exact .inr ⟨hkey, hrecord⟩
      constructor
      · intro key record hrecord
        rcases hread key record hrecord with ⟨rfl, heq⟩ | ⟨-, hold⟩
        · rw [heq]
        · exact h.key key record hold
      · intro first other hfirst hother
        rcases hread _ _ hfirst with ⟨hkey, heq⟩ | ⟨hkey, hold⟩
        · rcases hread _ _ hother with ⟨hkey', -⟩ | ⟨hkey', hold'⟩
          · exact absurd (hkey.trans hkey'.symm) (by decide)
          · rw [heq]
            exact .inr (h.before_fresh hkey' hold')
        · rcases hread _ _ hother with ⟨hkey', heq'⟩ | ⟨hkey', hold'⟩
          · rw [heq']
            exact .inl (h.before_fresh hkey hold)
          · exact h.follows first other hold hold'

/-- The keys are in order after any sequence of calls, however long. -/
theorem paired_runCalls (calls : List (JournalCall env)) :
    Paired env (runCalls Nvs.empty calls) := by
  induction calls using List.reverseRecOn with
  | nil => exact paired_empty
  | append_singleton calls call ih =>
      have hrun : runCalls Nvs.empty (calls ++ [call]) =
          (call.run (runCalls Nvs.empty calls)).2 := by
        simp [runCalls]
      rw [hrun]
      cases call with
      | clear write =>
          have hstore : Storable env none := by
            intro cp hcp
            cases hcp
          exact ih.write hstore write
      | save checkpoint write =>
          by_cases hreject : saveRejects env checkpoint = true
          · simpa [JournalCall.run, checkpointSave, hreject] using ih
          · have haccept : saveRejects env checkpoint = false := by simpa using hreject
            have hstore : Storable env (some checkpoint) := by
              intro cp hcp
              cases hcp
              exact haccept
            simpa [JournalCall.run, checkpointSave, haccept] using ih.write hstore write

/-- A tombstone that is stored hides whatever the journal showed. -/
theorem Paired.load_clear {nvs : Nvs} (h : Paired env nvs) :
    checkpointLoad env (checkpointClear env nvs .done).2 = .error .notFound := by
  have hstore : Storable env none := by
    intro cp hcp
    cases hcp
  have hlatest := h.latest_write hstore
  simp [checkpointLoad, checkpointClear, hlatest, freshRecord]

end Paired

/-! ## The live transfer -/

variable {env : ReceiverEnv}

/-- Every call leaves the journal as calls of `keemash_ota_v3_checkpoint_save` and
`keemash_ota_v3_checkpoint_clear` do. -/
theorem journalCalls_rel :
    JournalRel env fun d d' =>
      ∃ calls : List (JournalCall env.toJournalEnv), d'.nvs = runCalls d.nvs calls where
  trans := by
    rintro d d' d'' ⟨calls, hcalls⟩ ⟨later, hlater⟩
    refine ⟨calls ++ later, ?_⟩
    rw [hlater, hcalls, runCalls, runCalls, runCalls, List.foldl_append]
  same hnvs _ := ⟨[], hnvs⟩
  save d cp write := by
    cases write with
    | none => exact ⟨[], rfl⟩
    | some write => exact ⟨[.save cp write], rfl⟩
  clear d write := by
    cases write with
    | none => exact ⟨[], rfl⟩
    | some write => exact ⟨[.clear write], rfl⟩

/-- The journal of a run, however long, is what some calls left there. -/
theorem runReceiver_journal (flash : Partition → Bytes) (running : Partition)
    (events : List (ReceiverEvent env)) :
    ∃ calls : List (JournalCall env.toJournalEnv),
      (runReceiver (.factory env flash running) events).device.nvs =
        runCalls Nvs.empty calls := by
  induction events using List.reverseRecOn with
  | nil => exact ⟨[], rfl⟩
  | append_singleton events event ih =>
      have hstep := step_rel journalCalls_rel
        (runReceiver (ReceiverState.factory env flash running) events) event
      obtain ⟨calls, hcalls⟩ := ih
      obtain ⟨later, hlater⟩ := hstep
      refine ⟨calls ++ later, ?_⟩
      rw [runReceiver, List.foldl_append, List.foldl_cons, List.foldl_nil, ← runReceiver,
        hlater, hcalls, runCalls, runCalls, runCalls, List.foldl_append]

/-- The operation and the artifact of the transfer under way: of the one in RAM, or
else of the one that the journal shows. -/
def liveTransfer (d : Device) (r : Receiver env) : Option (Vector UInt8 16 × Digest) :=
  if r.active ∨ r.verified then
    some (r.operationId, r.artifactId)
  else
    match d.load env with
    | .ok cp => some (cp.operationId, cp.artifactId)
    | .error _ => none

/-- Aborting the transfer of the operation and the artifact ends it, and no other
abort does anything. -/
structure AbortClears (d : Device) (r : Receiver env) (operationId : Vector UInt8 16)
    (artifactId : Digest) : Prop where
  /-- With NVS succeeding the abort returns `ESP_OK`, the receiver is idle, the
  journal shows nothing, and a later prepare goes as with an empty journal. -/
  clears : ∀ answers : Answers env, answers.clear = some .done →
    ∃ d', abort d r operationId artifactId answers =
        (some ⟨.ok, none, Receiver.zero env⟩, d') ∧
      d'.load env = .error .notFound ∧
      ∀ target operation artifact signedFields signature (later : Answers env),
        (prepare d' (Receiver.zero env) target operation artifact signedFields signature
            later).1 =
          (prepare { d' with nvs := Nvs.empty } (Receiver.zero env) target operation artifact
            signedFields signature later).1
  refuses : ∀ operation artifact, (operation, artifact) ≠ (operationId, artifactId) →
    ∀ answers : Answers env, ∃ err, err ≠ EspErr.ok ∧
      abort d r operation artifact answers = (some ⟨err, none, r⟩, d)

theorem sameOperation_iff (r : Receiver env) (operationId : Vector UInt8 16)
    (artifactId : Digest) :
    r.sameOperation operationId artifactId = true ↔
      (r.operationId, r.artifactId) = (operationId, artifactId) := by
  simp [Receiver.sameOperation]

/-- An abort for another transfer than the one under way changes nothing. -/
theorem abort_refuses {d : Device} {r : Receiver env} {operationId : Vector UInt8 16}
    {artifactId : Digest} (hlive : liveTransfer d r ≠ some (operationId, artifactId))
    (answers : Answers env) :
    ∃ err, err ≠ EspErr.ok ∧
      abort d r operationId artifactId answers = (some ⟨err, none, r⟩, d) := by
  by_cases hram : r.active = true ∨ r.verified = true
  · have hother : r.sameOperation operationId artifactId = false := by
      rw [Bool.eq_false_iff, Ne, sameOperation_iff]
      simpa [liveTransfer, hram] using hlive
    refine ⟨.invalidState, by decide, ?_⟩
    rw [abort, if_pos hram, hother, if_neg Bool.false_ne_true]
  · cases hload : d.load env with
    | error err =>
        have hne : err ≠ .ok := by
          rintro rfl
          simp only [Device.load, checkpointLoad] at hload
          split at hload
          · split at hload <;> cases hload
          · cases hload
        refine ⟨err, hne, ?_⟩
        rw [Device.load] at hload
        rw [abort, if_neg hram, hload]
    | ok cp =>
        have hother : cp.operationId ≠ operationId ∨ cp.artifactId ≠ artifactId := by
          rw [liveTransfer, if_neg hram, hload] at hlive
          by_contra hsame
          push Not at hsame
          obtain ⟨rfl, rfl⟩ := hsame
          exact hlive rfl
        refine ⟨.invalidState, by decide, ?_⟩
        rw [Device.load] at hload
        rw [abort, if_neg hram, hload]
        exact if_pos hother

/-- With the journal showing nothing, an idle receiver prepares as with an empty
journal. -/
theorem prepare_load {d d' : Device} (hload : d.load env = d'.load env)
    (hflash : d.flash = d'.flash) (hrunning : d.running = d'.running) (target : Target)
    (operationId : Vector UInt8 16) (artifactId : Digest) (signedFields : Bytes)
    (signature : Vector UInt8 64) (answers : Answers env) :
    (prepare d (Receiver.zero env) target operationId artifactId signedFields signature
        answers).1 =
      (prepare d' (Receiver.zero env) target operationId artifactId signedFields signature
        answers).1 := by
  have hopen (p : Partition) (fields : SignedFields) (resume : Option ResumePoint) :
      (openTransfer d p fields operationId artifactId signedFields signature resume answers).1 =
        (openTransfer d' p fields operationId artifactId signedFields signature resume
          answers).1 := by
    have hread : d.flashRead p answers.partitionRead = d'.flashRead p answers.partitionRead := by
      funext offset length
      simp only [Device.flashRead, hflash]
    simp only [openTransfer, hread]
    split
    · rfl
    · split
      · rfl
      · split <;> rfl
  rw [Device.load, Device.load] at hload
  simp only [prepare, hload, hrunning]
  repeat' split
  all_goals first | rfl | exact hopen _ _ _

/-- The receiver holds the transfer in RAM, and NVS succeeds. -/
theorem abort_held {d : Device} {r : Receiver env} (hpaired : Paired env.toJournalEnv d.nvs)
    (hram : r.active = true ∨ r.verified = true) (answers : Answers env)
    (hclear : answers.clear = some .done) :
    ∃ d', abort d r r.operationId r.artifactId answers =
        (some ⟨.ok, none, Receiver.zero env⟩, d') ∧ d'.load env = .error .notFound := by
  have hsame : r.sameOperation r.operationId r.artifactId = true :=
    (sameOperation_iff r _ _).mpr rfl
  have hbusy : ¬(r.active = false ∧ r.verified = false) := by
    rintro ⟨hactive, hverified⟩
    simp [hactive, hverified] at hram
  refine ⟨(d.clear (some (NvsWrite.done : NvsWrite env.toJournalEnv))).2, ?_, ?_⟩
  · rw [abort, if_pos hram, if_pos hsame, abortCurrent, if_neg hbusy, hclear]
    rfl
  · exact hpaired.load_clear

/-- An idle receiver refuses to abort what it finds in the journal. -/
theorem abort_persisted {d : Device} {r : Receiver env}
    (hidle : ¬(r.active = true ∨ r.verified = true)) {operationId : Vector UInt8 16}
    {artifactId : Digest} (hlive : liveTransfer d r = some (operationId, artifactId))
    (answers : Answers env) :
    abort d r operationId artifactId answers = (some ⟨.invalidState, none, r⟩, d) := by
  rw [liveTransfer, if_neg hidle] at hlive
  cases hload : d.load env with
  | error err =>
      rw [hload] at hlive
      cases hlive
  | ok cp =>
      rw [hload] at hlive
      cases hlive
      have hboth : r.active = false ∧ r.verified = false := by simpa using hidle
      have hmatch : ¬(cp.operationId ≠ cp.operationId ∨ cp.artifactId ≠ cp.artifactId) := by
        simp
      rw [Device.load] at hload
      rw [abort, if_neg hidle, hload]
      simp only [if_neg hmatch, abortCurrent, if_pos hboth]

/-- Whatever calls and crashes came before, an abort ends the live transfer exactly
if the receiver has it in RAM. -/
theorem abortClears_iff (calls : List (JournalCall env.toJournalEnv)) (d : Device)
    (hjournal : d.nvs = runCalls Nvs.empty calls) (r : Receiver env)
    (operationId : Vector UInt8 16) (artifactId : Digest)
    (hlive : liveTransfer d r = some (operationId, artifactId)) :
    AbortClears d r operationId artifactId ↔ r.active = true ∨ r.verified = true := by
  constructor
  · intro h
    by_contra hidle
    obtain ⟨d', habort, -⟩ := h.clears
      { preflight := .ok, partitionRead := fun _ => .ok, otaBegin := .ok,
        otaWrite := fun _ _ => .ok, otaEnd := .ok, setBootPartition := some .ok,
        save := some .done, clear := some .done, restore := some .done, leftover := [],
        flashDown := false } rfl
    rw [abort_persisted hidle hlive] at habort
    cases habort
  · intro hram
    have hpaired : Paired env.toJournalEnv d.nvs := by
      rw [hjournal]
      exact paired_runCalls calls
    have hheld : (r.operationId, r.artifactId) = (operationId, artifactId) := by
      rw [liveTransfer, if_pos hram] at hlive
      exact Option.some.inj hlive
    cases hheld
    constructor
    · intro answers hclear
      obtain ⟨d', habort, hload⟩ := abort_held hpaired hram answers hclear
      refine ⟨d', habort, hload, ?_⟩
      intro target operation artifact signedFields signature later
      have hempty : ({ d' with nvs := Nvs.empty } : Device).load env = .error .notFound := rfl
      exact prepare_load (hload.trans hempty.symm) rfl rfl target operation artifact
        signedFields signature later
    · intro operation artifact hother answers
      refine abort_refuses ?_ answers
      rw [hlive]
      exact fun h => hother (Option.some.inj h).symm

/-! ## A restart between two messages -/

/-- The image of one byte is transferred and verified. -/
def verifiedLetter : ReceiverState twoSlots :=
  runReceiver (.factory twoSlots (fun _ => []) otaZero)
    [.transfer letterTarget letterPrepare smooth, .transfer letterTarget letterData smooth,
      .transfer letterTarget letterCommit smooth]

/-- Then the device restarts. -/
def restartedLetter : ReceiverState twoSlots :=
  ReceiverEvent.step verifiedLetter (.restart otaZero)

/-- Before the restart an abort ends the transfer. -/
theorem abortClears_iff_verifiedLetter :
    AbortClears verifiedLetter.device verifiedLetter.receiver (operationBytes ⟨1, 2⟩)
      letterSignedSha256 := by
  obtain ⟨calls, hcalls⟩ := @runReceiver_journal twoSlots (fun _ => []) otaZero
    [.transfer letterTarget letterPrepare smooth, .transfer letterTarget letterData smooth,
      .transfer letterTarget letterCommit smooth]
  exact (abortClears_iff calls verifiedLetter.device hcalls verifiedLetter.receiver
    (operationBytes ⟨1, 2⟩) letterSignedSha256 (by decide +kernel)).mpr
      (.inr (by decide +kernel))

/-- After it the abort is refused, the journal still shows the transfer, and the
prepare of another operation is refused because of it. -/
theorem abort_restartedLetter :
    liveTransfer restartedLetter.device restartedLetter.receiver =
        some (operationBytes ⟨1, 2⟩, letterSignedSha256) ∧
      ((abort restartedLetter.device restartedLetter.receiver (operationBytes ⟨1, 2⟩)
        letterSignedSha256 smooth).1.map Reply.err) = some .invalidState ∧
      ((prepare
        (abort restartedLetter.device restartedLetter.receiver (operationBytes ⟨1, 2⟩)
          letterSignedSha256 smooth).2 (Receiver.zero twoSlots) letterTarget
        (operationBytes ⟨3, 4⟩) letterSignedSha256 letterSigned letterSignature smooth).1.map
          Reply.err) = some .invalidState ∧
      ¬AbortClears restartedLetter.device restartedLetter.receiver (operationBytes ⟨1, 2⟩)
        letterSignedSha256 := by
  refine ⟨by decide +kernel, by decide +kernel, by decide +kernel, ?_⟩
  intro h
  obtain ⟨d', habort, -⟩ := h.clears smooth rfl
  have herr : ((abort restartedLetter.device restartedLetter.receiver (operationBytes ⟨1, 2⟩)
      letterSignedSha256 smooth).1.map Reply.err) = some .ok := by
    rw [habort]
    rfl
  exact absurd herr (by decide +kernel)

end KeemashCore.OtaV3
