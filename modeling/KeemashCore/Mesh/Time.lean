import KeemashCore.LittleEndian.Field
import KeemashCore.Mesh.Proto
import KeemashCore.Trace.Answers

/-!
# Time messages

`keemash_mesh_time.c`.  A node takes its clock from the root, by the legacy packet or by the
typed payload, and remembers the generation of the last message it applied, so that an older
one does not set the clock back.  A root whose uptime has fallen has started again, and its
generations with it.

A call carries what `settimeofday` would answer it and the time at which it is made.
-/

namespace KeemashCore.MeshTime

open LittleEndian Rel

/-! ## The model -/

/-- `KEEMASH_TIME_VALID_EPOCH`. -/
def timeValidEpoch : ℤ := 1577836800

/-- `MESH_PKT_MAGIC`. -/
def pktMagic : BitVec 8 := 0xA5

/-- `MESH_PKT_VERSION`. -/
def pktVersion : BitVec 8 := 1

/-- `MESH_TIME_SYNC_TYPE_TIME`. -/
def typeTime : BitVec 8 := 2

/-- `sizeof(keemash_v1_packet_t)`. -/
def v1PacketSize : ℕ := 46

/-- `mesh_v2_time_payload_t`. -/
structure TimePayload where
  epochSec : BitVec 64
  generation : U32
  sourceUptimeS : U32
  deriving DecidableEq, Repr

/-- The static variables. -/
structure TimeState where
  haveTime : Bool
  lastRxV2 : Bool
  lastGeneration : U32
  lastSourceUptimeS : U32
  lastSyncMs : U32
  deriving DecidableEq, Repr

/-- The static variables at boot. -/
def TimeState.boot : TimeState where
  haveTime := false
  lastRxV2 := false
  lastGeneration := 0
  lastSourceUptimeS := 0
  lastSyncMs := 0

/-- What a call meets: whether `settimeofday` succeeds, and `monotonic_ms`. -/
structure Surroundings where
  settimeofday : Bool
  now : U32
  deriving DecidableEq, Repr

/-- What a call returns, and the value it sets the clock to. -/
structure Reply where
  err : EspErr
  clock : Option ℤ
  deriving DecidableEq, Repr

/-- `apply_time`. -/
def applyTime (s : TimeState) (epochSec : BitVec 64) (generation : U32) (around : Surroundings) :
    TimeState × Reply :=
  if epochSec.toInt ≤ timeValidEpoch ∨ generation = 0 then (s, ⟨.invalidArg, none⟩)
  else if s.haveTime ∧ generation ≤ s.lastGeneration then (s, ⟨.ok, none⟩)
  else if around.settimeofday = false then (s, ⟨.fail, none⟩)
  else
    ({ s with haveTime := true, lastGeneration := generation }, ⟨.ok, some epochSec.toInt⟩)

/-- `keemash_mesh_time_handle_v1`; a null packet is no byte string. -/
def handleV1 (s : TimeState) (packet : Option (List UInt8)) (around : Surroundings) :
    TimeState × Reply :=
  match packet with
  | none => (s, ⟨.invalidSize, none⟩)
  | some packet =>
      if packet.length < v1PacketSize then (s, ⟨.invalidSize, none⟩)
      else if (wordAt 1 packet 0 : BitVec 8) ≠ pktMagic ∨
          (wordAt 1 packet 1 : BitVec 8) ≠ pktVersion ∨
          (wordAt 1 packet 2 : BitVec 8) ≠ typeTime then
        (s, ⟨.invalidArg, none⟩)
      else
        let (s, reply) := applyTime s (wordAt 8 packet 14) (wordAt 4 packet 22) around
        if reply.err = .ok then
          ({ s with lastRxV2 := false, lastSyncMs := around.now }, reply)
        else (s, reply)

/-- The uptime of the root has fallen. -/
def rootRestarted (s : TimeState) (timeSync : TimePayload) : Bool :=
  s.haveTime && s.lastSourceUptimeS != 0 && timeSync.sourceUptimeS != 0 &&
    decide (timeSync.sourceUptimeS + 5 < s.lastSourceUptimeS)

/-- What `keemash_mesh_time_apply_v2` does before it looks at the message. -/
def forgetRoot (s : TimeState) (timeSync : TimePayload) : TimeState :=
  if rootRestarted s timeSync then { s with haveTime := false, lastGeneration := 0 } else s

/-- `keemash_mesh_time_apply_v2`. -/
def applyV2 (s : TimeState) (timeSync : Option TimePayload) (around : Surroundings) :
    TimeState × Reply :=
  match timeSync with
  | none => (s, ⟨.invalidArg, none⟩)
  | some timeSync =>
      let s := forgetRoot s timeSync
      let (s, reply) := applyTime s timeSync.epochSec timeSync.generation around
      if reply.err = .ok then
        ({ s with
            lastRxV2 := true
            lastSourceUptimeS := timeSync.sourceUptimeS
            lastSyncMs := around.now }, reply)
      else (s, reply)

/-- `keemash_mesh_time_status_t`. -/
structure TimeStatus where
  synchronized : Bool
  lastRxV2 : Bool
  generation : U32
  sourceUptimeS : U32
  lastSyncAgeMs : U32
  deriving DecidableEq, Repr

/-- `keemash_mesh_time_get_status` at a time. -/
def getStatus (s : TimeState) (now : U32) : TimeStatus where
  synchronized := s.haveTime
  lastRxV2 := s.lastRxV2
  generation := s.lastGeneration
  sourceUptimeS := s.lastSourceUptimeS
  lastSyncAgeMs := if s.haveTime ∧ s.lastSyncMs ≠ 0 then now - s.lastSyncMs else 0xffffffff

/-- A call with what it meets. -/
inductive TimeCall where
  | v1 (packet : Option (List UInt8)) (around : Surroundings)
  | v2 (timeSync : Option TimePayload) (around : Surroundings)
  deriving DecidableEq, Repr

def TimeState.call (s : TimeState) : TimeCall → TimeState × Reply
  | .v1 packet around => handleV1 s packet around
  | .v2 timeSync around => applyV2 s timeSync around

/-- A call is turned away: it returns an error, and not because `settimeofday` failed. -/
def Rejects (s : TimeState) (call : TimeCall) : Prop :=
  (s.call call).2.err ≠ .ok ∧ (s.call call).2.err ≠ .fail

/-- The call is a typed message whose source uptime has fallen. -/
def TimeCall.fromRestarted (s : TimeState) : TimeCall → Bool
  | .v2 (some timeSync) _ => rootRestarted s timeSync
  | _ => false

/-! ## Rejected calls -/

section Rejected

variable {s : TimeState} {around : Surroundings}

/-- A message that `apply_time` does not apply leaves the variables alone. -/
theorem applyTime_rejected {epochSec : BitVec 64} {generation : U32}
    (h : (applyTime s epochSec generation around).2.err ≠ .ok) :
    (applyTime s epochSec generation around).1 = s := by
  rw [applyTime] at h ⊢
  split_ifs at h ⊢ with hinvalid happlied hfailed
  · rfl
  · rfl
  · rfl
  · exact absurd rfl h

theorem handleV1_rejected {packet : Option (List UInt8)}
    (h : (handleV1 s packet around).2.err ≠ .ok) : (handleV1 s packet around).1 = s := by
  cases packet with
  | none => rfl
  | some packet =>
      rw [handleV1] at h ⊢
      dsimp only at h ⊢
      split_ifs at h ⊢ with hshort hkind happlied
      · rfl
      · rfl
      · exact absurd happlied h
      · exact applyTime_rejected happlied

/-- A rejected typed message still does what `keemash_mesh_time_apply_v2` does first. -/
theorem applyV2_rejected {timeSync : TimePayload}
    (h : (applyV2 s (some timeSync) around).2.err ≠ .ok) :
    (applyV2 s (some timeSync) around).1 = forgetRoot s timeSync := by
  rw [applyV2] at h ⊢
  dsimp only at h ⊢
  split_ifs at h ⊢ with happlied
  · exact absurd happlied h
  · exact applyTime_rejected happlied

theorem forgetRoot_of_not {timeSync : TimePayload} (h : rootRestarted s timeSync = false) :
    forgetRoot s timeSync = s := by
  rw [forgetRoot, h]
  rfl

/-- Forgetting the root shows: the node no longer counts as synchronized. -/
theorem forgetRoot_seen {timeSync : TimePayload} (h : rootRestarted s timeSync = true) :
    getStatus (forgetRoot s timeSync) ≠ getStatus s := by
  have hhave : s.haveTime = true := by
    rw [rootRestarted, Bool.and_assoc, Bool.and_assoc, Bool.and_eq_true] at h
    exact h.1
  intro heq
  have hsync := congrArg TimeStatus.synchronized (congrFun heq 0)
  rw [getStatus, getStatus, forgetRoot, if_pos h, hhave] at hsync
  exact Bool.noConfusion hsync

end Rejected

/-- A rejected call that does not come from a root that has started again changes nothing. -/
theorem call_same {s : TimeState} {call : TimeCall} (h : Rejects s call)
    (hroot : call.fromRestarted s = false) : (s.call call).1 = s := by
  cases call with
  | v1 packet around => exact handleV1_rejected h.1
  | v2 timeSync around =>
      cases timeSync with
      | none => rfl
      | some timeSync => exact (applyV2_rejected h.1).trans (forgetRoot_of_not hroot)

theorem call_seen {s : TimeState} {call : TimeCall} (h : Rejects s call)
    (hroot : call.fromRestarted s = true) : getStatus (s.call call).1 ≠ getStatus s := by
  cases call with
  | v1 packet around => exact Bool.noConfusion hroot
  | v2 timeSync around =>
      cases timeSync with
      | none => exact Bool.noConfusion hroot
      | some timeSync =>
          have hstate : (s.call (.v2 (some timeSync) around)).1 = forgetRoot s timeSync :=
            applyV2_rejected h.1
          rw [hstate]
          exact forgetRoot_seen hroot

/-! ## Two runs -/

/-- A rejected call, put anywhere between other calls, is noticed by none of them and not in
the status, exactly if it is no typed message whose source uptime has fallen below that of
the last one applied. -/
theorem rejected_inert_iff (s : TimeState) (before : List TimeCall) (call : TimeCall)
    (h : Rejects (Trace.run (Trace.next TimeState.call) s before) call) :
    Trace.Inert TimeState.call getStatus s before call ↔
      call.fromRestarted (Trace.run (Trace.next TimeState.call) s before) = false := by
  constructor
  · intro hinert
    by_contra hroot
    exact call_seen h (Bool.eq_true_of_not_eq_false hroot) hinert.see_eq
  · intro hroot
    exact Trace.inert_of_same (call_same h hroot)

/-- A message of generation 7 that is applied. -/
def generationSeven : TimeCall :=
  .v2 (some { epochSec := 1700000000, generation := 7, sourceUptimeS := 100 })
    { settimeofday := true, now := 5 }

/-- A message that carries no time, with a small uptime. -/
def emptyTime : TimeCall :=
  .v2 (some { epochSec := 0, generation := 8, sourceUptimeS := 1 })
    { settimeofday := true, now := 6 }

/-- A null packet is rejected and not noticed. -/
theorem rejected_inert_null :
    Trace.Inert TimeState.call getStatus .boot [generationSeven]
      (.v1 none { settimeofday := true, now := 6 }) :=
  (rejected_inert_iff .boot [generationSeven] (.v1 none { settimeofday := true, now := 6 })
    ⟨by decide, by decide⟩).2 rfl

/-- The message without a time is rejected, and yet the node counts as not synchronized after
it, and the next message of generation 7 sets the clock once more. -/
theorem emptyTime_noticed :
    Rejects (Trace.run (Trace.next TimeState.call) .boot [generationSeven]) emptyTime ∧
      ¬Trace.Inert TimeState.call getStatus .boot [generationSeven] emptyTime ∧
      (Trace.answers TimeState.call .boot
        [generationSeven, emptyTime, generationSeven]).eraseIdx 1 ≠
          Trace.answers TimeState.call .boot [generationSeven, generationSeven] := by
  have hanswers : (Trace.answers TimeState.call .boot
      [generationSeven, emptyTime, generationSeven]).eraseIdx 1 ≠
        Trace.answers TimeState.call .boot [generationSeven, generationSeven] := by
    decide
  refine ⟨⟨?_, ?_⟩, ?_, hanswers⟩
  · decide
  · decide
  · intro hinert
    exact hanswers (hinert [generationSeven]).1

end KeemashCore.MeshTime
