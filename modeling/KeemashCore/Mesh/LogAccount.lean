import KeemashCore.Mesh.LogStream
import KeemashCore.Trace.Basic

/-!
# Every line is accounted for

However the logging tasks and the worker interleave: a line that the queue took is sent in
its turn, once, and is never lost before, whatever the sends return; the counters are what
was taken, sent and dropped, up to the tasks that have not counted yet; and the reports add
up to lines that were dropped.
-/

namespace KeemashCore.MeshLog

/-! ## What the trace says -/

theorem filterMap_snoc {α β : Type*} (f : α → Option β) (items : List α) (item : α) :
    (items ++ [item]).filterMap f = items.filterMap f ++ (f item).toList := by
  rw [List.filterMap_append, List.filterMap_cons, List.filterMap_nil]
  cases f item with
  | none => rfl
  | some _ => rfl

/-- The line that the queue took. -/
def Effect.taken? : Effect → Option (List UInt8)
  | .taken line => some line
  | _ => none

/-- The line from the queue that was sent. -/
def Effect.delivered? : Effect → Option (List UInt8)
  | .delivered line => some line
  | _ => none

/-- The line that the queue had no room for. -/
def Effect.dropped? : Effect → Option (List UInt8)
  | .dropped line => some line
  | _ => none

/-- The number of dropped lines that was reported. -/
def Effect.reported? : Effect → Option ℕ
  | .reported lines => some lines.toNat
  | _ => none

/-- The lines that the queue took, in order. -/
def takenLines (trace : List Effect) : List (List UInt8) :=
  trace.filterMap Effect.taken?

/-- The lines from the queue that were sent, in order. -/
def sentLines (trace : List Effect) : List (List UInt8) :=
  trace.filterMap Effect.delivered?

/-- The lines that the queue had no room for. -/
def droppedLines (trace : List Effect) : List (List UInt8) :=
  trace.filterMap Effect.dropped?

/-- The numbers of dropped lines that were reported. -/
def reports (trace : List Effect) : List ℕ :=
  trace.filterMap Effect.reported?

section Snoc

variable (trace : List Effect) (e : Effect)

@[simp] theorem takenLines_snoc : takenLines (trace ++ [e]) = takenLines trace ++ e.taken?.toList :=
  filterMap_snoc Effect.taken? trace e

@[simp] theorem sentLines_snoc : sentLines (trace ++ [e]) = sentLines trace ++ e.delivered?.toList :=
  filterMap_snoc Effect.delivered? trace e

@[simp] theorem droppedLines_snoc :
    droppedLines (trace ++ [e]) = droppedLines trace ++ e.dropped?.toList :=
  filterMap_snoc Effect.dropped? trace e

@[simp] theorem reports_snoc : reports (trace ++ [e]) = reports trace ++ e.reported?.toList :=
  filterMap_snoc Effect.reported? trace e

end Snoc

/-- The effect is part of a send only. -/
def Effect.isSend : Effect → Bool
  | .v2 _ => true
  | .v1 _ => true
  | _ => false

/-- The line that the worker has taken from the queue. -/
def LogStream.inHand (s : LogStream) : List (List UInt8) :=
  match s.worker with
  | .sending line => [line]
  | _ => []

/-- The task has a line in the queue that it has not counted. -/
def Capture.isTaken : Capture → Bool
  | .queued => true
  | .counted _ => true
  | _ => false

/-- The lines that were sent and are not counted. -/
def LogStream.uncounted (s : LogStream) : ℕ :=
  match s.worker with
  | .sent => 1
  | .counted _ => 1
  | _ => 0

/-- What the worker knows of the dropped lines. -/
def LogStream.seenOverflow (s : LogStream) : U32 :=
  match s.worker with
  | .reporting overflow => overflow
  | _ => s.reportedOverflow

/-! ## The invariant -/

/-- The counters follow the trace. -/
structure Accounted (cfg : Config) (s : LogStream) : Prop where
  lines : takenLines s.trace = sentLines s.trace ++ (s.inHand ++ s.queue)
  room : s.queue.length ≤ cfg.queueLen
  captured : ∃ n, s.stats.captured = BitVec.ofNat 32 n ∧
    n + s.captures.countP Capture.isTaken = (takenLines s.trace).length
  delivered : ∃ n, s.stats.delivered = BitVec.ofNat 32 n ∧
    n + s.uncounted = (sentLines s.trace).length
  overflow : ∃ n, s.stats.captureOverflow = BitVec.ofNat 32 n ∧
    n + s.captures.count .refused = (droppedLines s.trace).length
  reported : (droppedLines s.trace).length < 2 ^ 32 →
    (reports s.trace).sum = s.reportedOverflow.toNat ∧
      s.reportedOverflow.toNat ≤ s.seenOverflow.toNat ∧
      s.seenOverflow.toNat ≤ s.stats.captureOverflow.toNat

section Accounted

variable {cfg : Config} {s s' : LogStream}

/-- What a send leaves alone. -/
structure Sends (s s' : LogStream) : Prop where
  enabled : s'.enabled = s.enabled
  queue : s'.queue = s.queue
  captures : s'.captures = s.captures
  worker : s'.worker = s.worker
  stats : s'.stats = s.stats
  reported : s'.reportedOverflow = s.reportedOverflow
  trace : ∃ new, s'.trace = s.trace ++ new ∧ ∀ e ∈ new, e.isSend = true

theorem Sends.refl (s : LogStream) : Sends s s :=
  ⟨rfl, rfl, rfl, rfl, rfl, rfl, [], (List.append_nil _).symm, by simp⟩

theorem sends_sendLogline (s : LogStream) (line : List UInt8) (view : SendView) :
    Sends s (s.sendLogline cfg line view).1 := by
  have hrecord {s' : LogStream} (h : Sends s s') (err : EspErr) :
      Sends s (s'.recordSendResult err view.now) :=
    ⟨h.enabled, h.queue, h.captures, h.worker, h.stats, h.reported, h.trace⟩
  have hemit {s' : LogStream} (h : Sends s s') {e : Effect} (he : e.isSend = true) :
      Sends s (s'.emit e) := by
    obtain ⟨new, hnew, hsend⟩ := h.trace
    refine ⟨h.enabled, h.queue, h.captures, h.worker, h.stats, h.reported, new ++ [e], ?_,
      fun e' he' => ?_⟩
    · rw [LogStream.emit, hnew, List.append_assoc]
    · rcases List.mem_append.mp he' with hold | hlast
      · exact hsend e' hold
      · rw [List.mem_singleton.mp hlast]
        exact he
  have hv2 : Sends s (s.emit (.v2 line)) := hemit (.refl s) rfl
  rw [LogStream.sendLogline]
  split
  · exact hrecord (.refl s) _
  · dsimp only
    split
    · exact hrecord hv2 _
    · split
      · exact hrecord hv2 _
      · split
        · exact hrecord hv2 _
        · have hcount : Sends s { s.emit (.v2 line) with counter := s.counter + 1 } :=
            ⟨hv2.enabled, hv2.queue, hv2.captures, hv2.worker, hv2.stats, hv2.reported,
              hv2.trace⟩
          exact hrecord (hemit hcount rfl) _

/-- A send traces nothing that is counted. -/
theorem Sends.counts (h : Sends s s') : takenLines s'.trace = takenLines s.trace ∧
    sentLines s'.trace = sentLines s.trace ∧ droppedLines s'.trace = droppedLines s.trace ∧
      reports s'.trace = reports s.trace := by
  obtain ⟨new, hnew, hsend⟩ := h.trace
  have hnone {α : Type} (f : Effect → Option α) (hf : ∀ e, e.isSend = true → f e = none) :
      s'.trace.filterMap f = s.trace.filterMap f := by
    rw [hnew, List.filterMap_append, List.append_right_eq_self, List.filterMap_eq_nil_iff]
    exact fun e he => hf e (hsend e he)
  refine ⟨hnone _ fun e he => ?_, hnone _ fun e he => ?_, hnone _ fun e he => ?_,
    hnone _ fun e he => ?_⟩
  · cases e with
    | taken _ => simp [Effect.isSend] at he
    | _ => rfl
  · cases e with
    | delivered _ => simp [Effect.isSend] at he
    | _ => rfl
  · cases e with
    | dropped _ => simp [Effect.isSend] at he
    | _ => rfl
  · cases e with
    | reported _ => simp [Effect.isSend] at he
    | _ => rfl

/-- A send leaves the account as it is. -/
theorem Accounted.sends (h : Accounted cfg s) (hsends : Sends s s') : Accounted cfg s' := by
  obtain ⟨htaken, hdelivered, hdropped, hreports⟩ := hsends.counts
  have hhand : s'.inHand = s.inHand := by rw [LogStream.inHand, hsends.worker, LogStream.inHand]
  have huncounted : s'.uncounted = s.uncounted := by
    rw [LogStream.uncounted, hsends.worker, LogStream.uncounted]
  have hseen : s'.seenOverflow = s.seenOverflow := by
    rw [LogStream.seenOverflow, hsends.worker, hsends.reported, LogStream.seenOverflow]
  refine ⟨?_, ?_, ?_, ?_, ?_, ?_⟩
  · rw [htaken, hdelivered, hhand, hsends.queue]
    exact h.lines
  · rw [hsends.queue]
    exact h.room
  · rw [hsends.stats, hsends.captures, htaken]
    exact h.captured
  · rw [hsends.stats, huncounted, hdelivered]
    exact h.delivered
  · rw [hsends.stats, hsends.captures, hdropped]
    exact h.overflow
  · rw [hdropped, hreports, hsends.reported, hseen, hsends.stats]
    exact h.reported

/-- The tasks in a phase, when one of them goes on. -/
theorem countP_set {captures : List Capture} {i : ℕ} {c : Capture}
    (hc : captures[i]? = some c) (c' : Capture) (f : Capture → Bool) :
    captures.countP f = (captures.eraseIdx i).countP f + (if f c then 1 else 0) ∧
      (captures.set i c').countP f =
        (captures.eraseIdx i).countP f + (if f c' then 1 else 0) := by
  obtain ⟨hi, rfl⟩ := List.getElem?_eq_some_iff.mp hc
  refine ⟨?_, ?_⟩
  · rw [← (List.getElem_cons_eraseIdx_perm hi).countP_eq, List.countP_cons]
  · rw [(List.set_perm_cons_eraseIdx hi c').countP_eq, List.countP_cons]

theorem Accounted.vprintf (h : Accounted cfg s) (time text : List UInt8) :
    Accounted cfg (s.vprintf cfg time text) := by
  rw [LogStream.vprintf]
  split
  · exact h
  · refine ⟨h.lines, h.room, ?_, h.delivered, ?_, h.reported⟩
    · rw [List.countP_append]
      exact h.captured
    · rw [List.count_append]
      exact h.overflow

/-- The queue takes a line. -/
theorem accounted_taken (h : Accounted cfg s) {i : ℕ} {line : List UInt8}
    (hc : s.captures[i]? = some (.entered line)) (hroom : s.queue.length < cfg.queueLen) :
    Accounted cfg ({ s with
      queue := s.queue ++ [line], captures := s.captures.set i .queued }.emit (.taken line)) := by
  obtain ⟨n, hn, hcaptured⟩ := h.captured
  obtain ⟨m, hm, hoverflow⟩ := h.overflow
  obtain ⟨hold, hnew⟩ := countP_set hc .queued Capture.isTaken
  obtain ⟨hold', hnew'⟩ := countP_set hc .queued (· == Capture.refused)
  rw [List.count_eq_countP, hold'] at hoverflow
  rw [hold] at hcaptured
  refine ⟨?_, ?_, ⟨n, hn, ?_⟩, ?_, ⟨m, hm, ?_⟩, ?_⟩
  · simp only [LogStream.emit, takenLines_snoc, sentLines_snoc, h.lines]
    simp [Effect.taken?, Effect.delivered?, LogStream.inHand]
  · simp only [LogStream.emit, List.length_append]
    exact hroom
  · simp only [LogStream.emit, hnew, takenLines_snoc, List.length_append, ← hcaptured]
    rfl
  · simpa [LogStream.emit, Effect.delivered?, LogStream.uncounted] using h.delivered
  · simp only [LogStream.emit, List.count_eq_countP, hnew', droppedLines_snoc,
      List.length_append, ← hoverflow]
    rfl
  · simpa [LogStream.emit, Effect.dropped?, Effect.reported?, LogStream.seenOverflow] using
      h.reported

/-- The queue is full. -/
theorem accounted_dropped (h : Accounted cfg s) {i : ℕ} {line : List UInt8}
    (hc : s.captures[i]? = some (.entered line)) :
    Accounted cfg ({ s with captures := s.captures.set i .refused }.emit (.dropped line)) := by
  obtain ⟨n, hn, hcaptured⟩ := h.captured
  obtain ⟨m, hm, hoverflow⟩ := h.overflow
  obtain ⟨hold, hnew⟩ := countP_set hc .refused Capture.isTaken
  obtain ⟨hold', hnew'⟩ := countP_set hc .refused (· == Capture.refused)
  rw [List.count_eq_countP, hold'] at hoverflow
  rw [hold] at hcaptured
  refine ⟨?_, h.room, ⟨n, hn, ?_⟩, ?_, ⟨m, hm, ?_⟩, fun hless => ?_⟩
  · simpa [LogStream.emit, Effect.taken?, Effect.delivered?, LogStream.inHand] using h.lines
  · simp only [LogStream.emit, hnew, takenLines_snoc, List.length_append, ← hcaptured]
    rfl
  · simpa [LogStream.emit, Effect.delivered?, LogStream.uncounted] using h.delivered
  · simp only [LogStream.emit, List.count_eq_countP, hnew', droppedLines_snoc,
      List.length_append, ← hoverflow]
    rfl
  · have hbefore : (droppedLines s.trace).length < 2 ^ 32 := by
      simp only [LogStream.emit, droppedLines_snoc, List.length_append] at hless
      exact (Nat.le_add_right _ _).trans_lt hless
    simpa [LogStream.emit, Effect.reported?, LogStream.seenOverflow] using h.reported hbefore

/-- A task asks how long the queue is. -/
theorem accounted_counted (h : Accounted cfg s) {i : ℕ} (hc : s.captures[i]? = some .queued)
    (pending : U32) :
    Accounted cfg { s with captures := s.captures.set i (.counted pending) } := by
  obtain ⟨n, hn, hcaptured⟩ := h.captured
  obtain ⟨m, hm, hoverflow⟩ := h.overflow
  obtain ⟨hold, hnew⟩ := countP_set hc (.counted pending) Capture.isTaken
  obtain ⟨hold', hnew'⟩ := countP_set hc (.counted pending) (· == Capture.refused)
  rw [List.count_eq_countP, hold'] at hoverflow
  rw [hold] at hcaptured
  refine ⟨h.lines, h.room, ⟨n, hn, ?_⟩, h.delivered, ⟨m, hm, ?_⟩, h.reported⟩
  · simp only [hnew]
    exact hcaptured
  · simp only [List.count_eq_countP, hnew']
    exact hoverflow

/-- A task counts its line. -/
theorem accounted_captured (h : Accounted cfg s) {i : ℕ} {pending high : U32}
    (hc : s.captures[i]? = some (.counted pending)) :
    Accounted cfg { s with
      captures := s.captures.eraseIdx i
      stats :=
        { s.stats with
          captured := s.stats.captured + 1, pending := pending, highWatermark := high } } := by
  obtain ⟨n, hn, hcaptured⟩ := h.captured
  obtain ⟨m, hm, hoverflow⟩ := h.overflow
  have hold := (countP_set hc .queued Capture.isTaken).1
  have hold' := (countP_set hc .queued (· == Capture.refused)).1
  rw [List.count_eq_countP, hold'] at hoverflow
  rw [hold] at hcaptured
  refine ⟨h.lines, h.room, ⟨n + 1, ?_, ?_⟩, h.delivered, ⟨m, hm, ?_⟩, h.reported⟩
  · simp only [hn, BitVec.ofNat_add]
    rfl
  · simp only [← hcaptured, Capture.isTaken, if_true]
    omega
  · simp only [List.count_eq_countP]
    exact hoverflow

/-- A task counts the line that did not fit. -/
theorem accounted_refused (h : Accounted cfg s) {i : ℕ}
    (hc : s.captures[i]? = some .refused) :
    Accounted cfg { s with
      captures := s.captures.eraseIdx i
      stats := { s.stats with captureOverflow := s.stats.captureOverflow + 1 } } := by
  obtain ⟨n, hn, hcaptured⟩ := h.captured
  obtain ⟨m, hm, hoverflow⟩ := h.overflow
  have hold := (countP_set hc .queued Capture.isTaken).1
  have hold' := (countP_set hc .queued (· == Capture.refused)).1
  rw [List.count_eq_countP, hold'] at hoverflow
  rw [hold] at hcaptured
  have hone : (1 : U32).toNat = 1 := rfl
  refine ⟨h.lines, h.room, ⟨n, hn, hcaptured⟩, h.delivered, ⟨m + 1, ?_, ?_⟩, fun hless => ?_⟩
  · simp only [hm, BitVec.ofNat_add]
    rfl
  · simp only [List.count_eq_countP, ← hoverflow, beq_self_eq_true, if_true]
    omega
  · obtain ⟨hsum, hle, hseen⟩ := h.reported hless
    refine ⟨hsum, hle, hseen.trans ?_⟩
    simp only [beq_self_eq_true, if_true] at hoverflow
    have hsmall : m + 1 < 2 ^ 32 := by
      change (droppedLines s.trace).length < 2 ^ 32 at hless
      omega
    rw [hm, BitVec.toNat_add, hone, BitVec.toNat_ofNat, Nat.mod_eq_of_lt (by omega : m < 2 ^ 32),
      Nat.mod_eq_of_lt hsmall]
    exact Nat.le_succ m

theorem accounted_capture (h : Accounted cfg s) (i : ℕ) : Accounted cfg (s.capture cfg i) := by
  rw [LogStream.capture]
  split
  · exact h
  · next line hc =>
      split
      · next hroom => exact accounted_taken h hc hroom
      · exact accounted_dropped h hc
  · next hc => exact accounted_counted h hc _
  · next pending hc => exact accounted_captured h hc
  · next hc => exact accounted_refused h hc

/-! ### The worker -/

/-- The worker takes the next line. -/
theorem accounted_take (h : Accounted cfg s) {line : List UInt8} {rest : List (List UInt8)}
    (hworker : s.worker = .idle) (hqueue : s.queue = line :: rest) :
    Accounted cfg { s with queue := rest, worker := .sending line } := by
  have hlines := h.lines
  have hroom := h.room
  have hsent := h.delivered
  have hreported := h.reported
  simp only [LogStream.inHand, hworker, hqueue, List.nil_append] at hlines
  simp only [hqueue, List.length_cons] at hroom
  simp only [LogStream.uncounted, hworker] at hsent
  simp only [LogStream.seenOverflow, hworker] at hreported
  exact ⟨hlines, (Nat.le_succ _).trans hroom, h.captured, hsent, h.overflow, hreported⟩

/-- The line is sent. -/
theorem accounted_sent (h : Accounted cfg s) {line : List UInt8}
    (hworker : s.worker = .sending line) :
    Accounted cfg ({ s with worker := .sent }.emit (.delivered line)) := by
  obtain ⟨n, hn, hsent⟩ := h.delivered
  have hlines := h.lines
  have hreported := h.reported
  simp only [LogStream.inHand, hworker, List.singleton_append] at hlines
  simp only [LogStream.uncounted, hworker] at hsent
  simp only [LogStream.seenOverflow, hworker] at hreported
  refine ⟨?_, h.room, ?_, ⟨n, hn, ?_⟩, ?_, ?_⟩
  · simp [LogStream.emit, Effect.taken?, Effect.delivered?, LogStream.inHand, hlines]
  · simpa [LogStream.emit, Effect.taken?] using h.captured
  · simp only [LogStream.emit, sentLines_snoc, List.length_append, ← hsent]
    rfl
  · simpa [LogStream.emit, Effect.dropped?] using h.overflow
  · simpa [LogStream.emit, Effect.dropped?, Effect.reported?, LogStream.seenOverflow] using
      hreported

/-- The worker goes on in a way that sends nothing and holds no line. -/
theorem accounted_count (h : Accounted cfg s) (hworker : s.worker = .sent) (pending : U32) :
    Accounted cfg { s with worker := .counted pending } := by
  have hlines := h.lines
  have hsent := h.delivered
  have hreported := h.reported
  simp only [LogStream.inHand, hworker] at hlines
  simp only [LogStream.uncounted, hworker] at hsent
  simp only [LogStream.seenOverflow, hworker] at hreported
  exact ⟨hlines, h.room, h.captured, hsent, h.overflow, hreported⟩

/-- The worker counts its line. -/
theorem accounted_delivered (h : Accounted cfg s) {pending : U32}
    (hworker : s.worker = .counted pending) :
    Accounted cfg { s with
      worker := .reporting s.stats.captureOverflow
      stats := { s.stats with delivered := s.stats.delivered + 1, pending := pending } } := by
  obtain ⟨n, hn, hsent⟩ := h.delivered
  have hlines := h.lines
  have hreported := h.reported
  simp only [LogStream.inHand, hworker] at hlines
  simp only [LogStream.uncounted, hworker] at hsent
  simp only [LogStream.seenOverflow, hworker] at hreported
  refine ⟨hlines, h.room, h.captured, ⟨n + 1, ?_, hsent⟩, h.overflow, fun hless => ?_⟩
  · simp only [hn, BitVec.ofNat_add]
    rfl
  · obtain ⟨hsum, -, hle⟩ := hreported hless
    exact ⟨hsum, hle, le_rfl⟩

/-- The worker has nothing to report, or could not. -/
theorem accounted_unreported (h : Accounted cfg s) {overflow : U32}
    (hworker : s.worker = .reporting overflow) : Accounted cfg { s with worker := .idle } := by
  have hlines := h.lines
  have hsent := h.delivered
  have hreported := h.reported
  simp only [LogStream.inHand, hworker] at hlines
  simp only [LogStream.uncounted, hworker] at hsent
  simp only [LogStream.seenOverflow, hworker] at hreported
  refine ⟨hlines, h.room, h.captured, hsent, h.overflow, fun hless => ?_⟩
  obtain ⟨hsum, hle, hseen⟩ := hreported hless
  exact ⟨hsum, le_rfl, hle.trans hseen⟩

/-- The worker reports dropped lines. -/
theorem accounted_reported (h : Accounted cfg s) {overflow : U32}
    (hworker : s.worker = .reporting overflow) :
    Accounted cfg ({ s with worker := .idle, reportedOverflow := overflow }.emit
      (.reported (overflow - s.reportedOverflow))) := by
  have hlines := h.lines
  have hsent := h.delivered
  have hreported := h.reported
  simp only [LogStream.inHand, hworker] at hlines
  simp only [LogStream.uncounted, hworker] at hsent
  simp only [LogStream.seenOverflow, hworker] at hreported
  refine ⟨?_, h.room, ?_, ?_, ?_, fun hless => ?_⟩
  · simpa [LogStream.emit, Effect.taken?, Effect.delivered?, LogStream.inHand] using hlines
  · simpa [LogStream.emit, Effect.taken?] using h.captured
  · simpa [LogStream.emit, Effect.delivered?, LogStream.uncounted] using hsent
  · simpa [LogStream.emit, Effect.dropped?] using h.overflow
  · have hbefore : (droppedLines s.trace).length < 2 ^ 32 := by
      simpa [LogStream.emit, Effect.dropped?] using hless
    obtain ⟨hsum, hle, hseen⟩ := hreported hbefore
    refine ⟨?_, le_rfl, hseen⟩
    simp only [LogStream.emit, reports_snoc, List.sum_append, hsum, Effect.reported?,
      Option.toList, List.sum_singleton]
    rw [BitVec.toNat_sub_of_le hle]
    exact Nat.add_sub_cancel' hle

theorem accounted_work (h : Accounted cfg s) (time : List UInt8) (view : SendView) :
    Accounted cfg (s.work cfg time view) := by
  rw [LogStream.work]
  split
  · next hworker =>
      split
      · exact h
      · next line rest hqueue => exact accounted_take h hworker hqueue
  · next line hworker =>
      have hsends : Sends s (s.sendLogline cfg line view).1 := sends_sendLogline s line view
      dsimp only
      split
      · exact h.sends hsends
      · exact accounted_sent (h.sends hsends) (hsends.worker.trans hworker)
  · next hworker => exact accounted_count h hworker _
  · next pending hworker => exact accounted_delivered h hworker
  · next overflow hworker =>
      split
      · exact accounted_unreported h hworker
      · have hsends : Sends s (s.sendLogline cfg
            (overflowLine cfg time (overflow - s.reportedOverflow)) view).1 :=
          sends_sendLogline s _ view
        have hafter := h.sends hsends
        have hworker' := hsends.worker.trans hworker
        dsimp only
        split
        · exact accounted_unreported hafter hworker'
        · have hdone := accounted_reported hafter hworker'
          rw [hsends.reported] at hdone
          exact hdone

/-- Every step keeps the account. -/
theorem accounted_step (h : Accounted cfg s) (a : Action) : Accounted cfg (s.step cfg a) := by
  cases a with
  | vprintf time text => exact h.vprintf time text
  | capture i => exact accounted_capture h i
  | work time view => exact accounted_work h time view
  | connect => exact ⟨h.lines, h.room, h.captured, h.delivered, h.overflow, h.reported⟩
  | disconnect => exact ⟨h.lines, h.room, h.captured, h.delivered, h.overflow, h.reported⟩
  | ctrl enable time view =>
      have hset : Accounted cfg { s with enabled := enable } :=
        ⟨h.lines, h.room, h.captured, h.delivered, h.overflow, h.reported⟩
      simp only [LogStream.step, LogStream.ctrl]
      split
      · exact hset.sends (sends_sendLogline _ _ view)
      · exact hset
  | clearTxAccepted =>
      exact ⟨h.lines, h.room, h.captured, h.delivered, h.overflow, h.reported⟩

theorem accounted_init (cfg : Config) : Accounted cfg .init where
  lines := rfl
  room := Nat.zero_le _
  captured := ⟨0, rfl, rfl⟩
  delivered := ⟨0, rfl, rfl⟩
  overflow := ⟨0, rfl, rfl⟩
  reported _ := ⟨rfl, le_rfl, le_rfl⟩

/-- In every interleaving: the lines that the queue took are those that were sent, the one in
the worker's hand and those in the queue, in this order; the counters count them, up to the
tasks that have not counted yet; and the reported numbers add up to counted drops. -/
theorem lines_accounted (cfg : Config) (actions : List Action) :
    let s := Trace.run (LogStream.step cfg) .init actions
    takenLines s.trace = sentLines s.trace ++ (s.inHand ++ s.queue) ∧
      s.queue.length ≤ cfg.queueLen ∧
      s.stats.captured + BitVec.ofNat 32 (s.captures.countP Capture.isTaken) =
        BitVec.ofNat 32 (takenLines s.trace).length ∧
      s.stats.delivered + BitVec.ofNat 32 s.uncounted =
        BitVec.ofNat 32 (sentLines s.trace).length ∧
      s.stats.captureOverflow + BitVec.ofNat 32 (s.captures.count .refused) =
        BitVec.ofNat 32 (droppedLines s.trace).length ∧
      ((droppedLines s.trace).length < 2 ^ 32 →
        (reports s.trace).sum = s.reportedOverflow.toNat ∧
          (reports s.trace).sum ≤ (droppedLines s.trace).length) := by
  intro s
  have h : Accounted cfg s := by
    have hrun := List.foldlRecOn (motive := Accounted cfg) actions (LogStream.step cfg)
      (accounted_init cfg) fun _ hs a _ => accounted_step hs a
    exact hrun
  obtain ⟨n, hn, hcaptured⟩ := h.captured
  obtain ⟨k, hk, hsent⟩ := h.delivered
  obtain ⟨m, hm, hoverflow⟩ := h.overflow
  refine ⟨h.lines, h.room, ?_, ?_, ?_, fun hless => ?_⟩
  · rw [hn, ← BitVec.ofNat_add, hcaptured]
  · rw [hk, ← BitVec.ofNat_add, hsent]
  · rw [hm, ← BitVec.ofNat_add, hoverflow]
  · obtain ⟨hsum, hle, hseen⟩ := h.reported hless
    refine ⟨hsum, ?_⟩
    rw [hm, BitVec.toNat_ofNat, Nat.mod_eq_of_lt (by omega)] at hseen
    omega

end Accounted

end KeemashCore.MeshLog
