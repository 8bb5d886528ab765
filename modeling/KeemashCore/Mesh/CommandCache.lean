import KeemashCore.Mesh.Command
import KeemashCore.SlotTable.Ring

/-!
# What the command cache of a node remembers

The cache holds the last thirty-two executions since it was last cleared, and it
never holds two of one operation.  So a command that carries an operation id is
answered from the cache as long as its execution is among them.
-/

namespace KeemashCore.MeshNode

open KeemashCore.Rel SlotTable

/-! ## Executions -/

/-- The cache entry of the command that an event executes. -/
def Node.executes (n : Node) : NodeEvent → Option CommandCache
  | .deliver channel payload answers _ =>
      if channel ≠ channelControl then none
      else
        match commandOf? payload with
        | none => none
        | some command =>
            match n.commandCacheFind command.commandId command.operationId with
            | some _ => none
            | none =>
                let performed := n.perform command.text answers
                some (cacheEntry command.commandId command.operationId performed.2.2.1
                  performed.2.2.2)
  | _ => none

/-- The event clears the cache: the node takes a HELLO_ACK of a root session other
than the one it holds, or it is told to forget its root. -/
def Node.clears (n : Node) : NodeEvent → Bool
  | .handleRx src packet now =>
      match packet.body with
      | .helloAck ack => n.rootSessionChanged ack && (n.handleRx src packet now).2 == .ok
      | _ => false
  | .forgetRoot => true
  | _ => false

/-- The executions of a run, oldest first. -/
def Node.executions (n : Node) : List NodeEvent → List CommandCache
  | [] => []
  | event :: events => (n.executes event).toList ++ (n.step event).executions events

/-- No event of the run clears the cache. -/
def Node.keepsCache (n : Node) : List NodeEvent → Bool
  | [] => true
  | event :: events => !n.clears event && (n.step event).keepsCache events

/-- A run executed the command of `entry`, then the commands `newer` and none
else, and has not cleared the cache since. -/
def Node.ExecutedBefore (n : Node) (events : List NodeEvent) (entry : CommandCache)
    (newer : List CommandCache) : Prop :=
  ∃ before event after, events = before ++ event :: after ∧
    (n.run before).executes event = some entry ∧
    ((n.run before).step event).keepsCache after = true ∧
    ((n.run before).step event).executions after = newer

section Runs

variable (n : Node) (events : List NodeEvent) (event : NodeEvent)

theorem Node.run_snoc : n.run (events ++ [event]) = (n.run events).step event := by
  simp [Node.run]

theorem Node.executions_snoc :
    n.executions (events ++ [event]) =
      n.executions events ++ ((n.run events).executes event).toList := by
  induction events generalizing n with
  | nil => simp [Node.executions, Node.run]
  | cons first events ih =>
      rw [List.cons_append, Node.executions, Node.executions, ih, List.append_assoc]
      rfl

theorem Node.keepsCache_snoc :
    n.keepsCache (events ++ [event]) =
      (n.keepsCache events && !(n.run events).clears event) := by
  induction events generalizing n with
  | nil => simp [Node.keepsCache, Node.run]
  | cons first events ih =>
      rw [List.cons_append, Node.keepsCache, Node.keepsCache, ih, Bool.and_assoc]
      rfl

theorem Node.run_append (more : List NodeEvent) :
    n.run (events ++ more) = (n.run events).run more := by
  simp [Node.run]

end Runs

/-- An event that clears the cache executes nothing. -/
theorem Node.executes_of_clears {n : Node} {event : NodeEvent} (h : n.clears event = true) :
    n.executes event = none := by
  cases event with
  | deliver channel payload answers now => simp [Node.clears] at h
  | handleRx src packet now => rfl
  | call call now => rfl
  | setRootMac mac => rfl
  | forgetRoot => rfl

/-- The same, with the run before the execution. -/
def Node.ExecutedAt (n : Node) (events before : List NodeEvent) (entry : CommandCache)
    (newer : List CommandCache) : Prop :=
  ∃ event after, events = before ++ event :: after ∧
    (n.run before).executes event = some entry ∧
    ((n.run before).step event).keepsCache after = true ∧
    ((n.run before).step event).executions after = newer

theorem Node.executedBefore_iff_at {n : Node} {events : List NodeEvent} {entry : CommandCache}
    {newer : List CommandCache} :
    n.ExecutedBefore events entry newer ↔ ∃ before, n.ExecutedAt events before entry newer :=
  Iff.rfl

theorem Node.executedAt_nil {n : Node} {before : List NodeEvent} {entry : CommandCache}
    {newer : List CommandCache} : ¬n.ExecutedAt [] before entry newer := by
  rintro ⟨event, after, hsplit, -⟩
  simp at hsplit

/-- What one more event does to the record of an execution. -/
theorem Node.executedAt_snoc {n : Node} {events before : List NodeEvent} {event : NodeEvent}
    {entry : CommandCache} {newer : List CommandCache} :
    n.ExecutedAt (events ++ [event]) before entry newer ↔
      (before = events ∧ (n.run events).executes event = some entry ∧ newer = []) ∨
        ((n.run events).clears event = false ∧ ∃ newer', n.ExecutedAt events before entry newer' ∧
          newer = newer' ++ ((n.run events).executes event).toList) := by
  constructor
  · rintro ⟨first, after, hsplit, hfirst, hkeeps, hnewer⟩
    rcases List.eq_nil_or_concat after with rfl | ⟨after', last, rfl⟩
    · obtain ⟨rfl, hlast⟩ := List.append_inj' hsplit rfl
      cases hlast
      exact Or.inl ⟨rfl, hfirst, hnewer.symm⟩
    · rw [List.concat_eq_append, ← List.cons_append, ← List.append_assoc] at hsplit
      obtain ⟨rfl, hlast⟩ := List.append_inj' hsplit rfl
      cases hlast
      have hrun : n.run (before ++ first :: after') =
          ((n.run before).step first).run after' := by
        rw [Node.run_append]
        rfl
      rw [List.concat_eq_append, Node.keepsCache_snoc, Bool.and_eq_true,
        Bool.not_eq_true'] at hkeeps
      rw [List.concat_eq_append, Node.executions_snoc] at hnewer
      rw [hrun]
      exact Or.inr ⟨hkeeps.2, _, ⟨first, after', rfl, hfirst, hkeeps.1, rfl⟩, hnewer.symm⟩
  · rintro (⟨rfl, hlast, rfl⟩ | ⟨hkeeps, newer', ⟨first, after, rfl, hfirst, hafter, rfl⟩, rfl⟩)
    · exact ⟨event, [], rfl, hlast, rfl, rfl⟩
    · have hrun : n.run (before ++ first :: after) =
          ((n.run before).step first).run after := by
        rw [Node.run_append]
        rfl
      rw [hrun] at hkeeps ⊢
      refine ⟨first, after ++ [event], by simp, hfirst, ?_, ?_⟩
      · rw [Node.keepsCache_snoc, hafter, hkeeps]
        rfl
      · rw [Node.executions_snoc]

theorem Node.executedBefore_snoc {n : Node} {events : List NodeEvent} {event : NodeEvent}
    {entry : CommandCache} {newer : List CommandCache} :
    n.ExecutedBefore (events ++ [event]) entry newer ↔
      ((n.run events).executes event = some entry ∧ newer = []) ∨
        ((n.run events).clears event = false ∧ ∃ newer', n.ExecutedBefore events entry newer' ∧
          newer = newer' ++ ((n.run events).executes event).toList) := by
  simp only [Node.executedBefore_iff_at, Node.executedAt_snoc]
  constructor
  · rintro ⟨before, ⟨-, hlast⟩ | ⟨hkeeps, newer', hbefore, hnewer⟩⟩
    · exact Or.inl hlast
    · exact Or.inr ⟨hkeeps, newer', ⟨before, hbefore⟩, hnewer⟩
  · rintro (hlast | ⟨hkeeps, newer', ⟨before, hbefore⟩, hnewer⟩)
    · exact ⟨events, Or.inl ⟨rfl, hlast⟩⟩
    · exact ⟨before, Or.inr ⟨hkeeps, newer', hbefore, hnewer⟩⟩

/-! ## The cache as a ring -/

/-- The executions since the cache was last cleared. -/
def Node.cacheLog (n : Node) (events : List NodeEvent) : List CommandCache :=
  (events.foldl
    (fun state event => (state.1.step event,
      if state.1.clears event then [] else state.2 ++ (state.1.executes event).toList))
    (n, [])).2

theorem Node.cacheLog_snoc (n : Node) (events : List NodeEvent) (event : NodeEvent) :
    n.cacheLog (events ++ [event]) =
      if (n.run events).clears event then []
      else n.cacheLog events ++ ((n.run events).executes event).toList := by
  have hfirst (log : List CommandCache) : ∀ n : Node, (events.foldl
      (fun state event => (state.1.step event,
        if state.1.clears event then [] else state.2 ++ (state.1.executes event).toList))
      (n, log)).1 = n.run events := by
    induction events generalizing log with
    | nil =>
        intro n
        rfl
    | cons first events ih =>
        intro n
        exact ih _ (n.step first)
  rw [Node.cacheLog, List.foldl_append, List.foldl_cons, List.foldl_nil, hfirst]
  rfl

/-- The log since the last clearing tells which executions precede without one. -/
theorem Node.executedBefore_iff (n : Node) (events : List NodeEvent) (entry : CommandCache)
    (newer : List CommandCache) :
    n.ExecutedBefore events entry newer ↔
      ∃ older, n.cacheLog events = older ++ entry :: newer := by
  induction events using List.reverseRecOn generalizing newer with
  | nil =>
      constructor
      · rintro ⟨before, event, after, hsplit, -⟩
        simp at hsplit
      · rintro ⟨older, hlog⟩
        simp [Node.cacheLog] at hlog
  | append_singleton events event ih =>
      rw [Node.executedBefore_snoc, Node.cacheLog_snoc]
      cases hclears : (n.run events).clears event with
      | true => simp [Node.executes_of_clears hclears]
      | false =>
          simp only [Bool.false_eq_true, ↓reduceIte, true_and, ih]
          cases (n.run events).executes event with
          | none => simp
          | some last =>
              rw [Option.toList_some]
              constructor
              · rintro (⟨hlast, rfl⟩ | ⟨newer', ⟨older, holder⟩, rfl⟩)
                · cases hlast
                  exact ⟨_, rfl⟩
                · exact ⟨older, by rw [holder, List.append_assoc, List.cons_append]⟩
              · rintro ⟨older, holder⟩
                rcases List.eq_nil_or_concat newer with rfl | ⟨newer', last', rfl⟩
                · obtain ⟨-, hlast⟩ := List.append_inj' holder rfl
                  cases hlast
                  exact Or.inl ⟨rfl, rfl⟩
                · rw [List.concat_eq_append, ← List.cons_append, ← List.append_assoc] at holder
                  obtain ⟨hlog, hlast⟩ := List.append_inj' holder rfl
                  cases hlast
                  exact Or.inr ⟨newer', ⟨older, hlog⟩, List.concat_eq_append⟩

/-- The cache of a node whose executions since the last clearing are `log`. -/
structure Caches (n : Node) (log : List CommandCache) : Prop where
  table : n.commandCache = ring commandCacheSlots log
  next : n.commandCacheNext.toNat % commandCacheSlots = log.length % commandCacheSlots
  /-- No operation stands twice among the entries that the table holds. -/
  distinct : ∀ older entry newer, log = older ++ entry :: newer →
    newer.length < commandCacheSlots → ∀ other ∈ newer, ∀ id,
      entry.operationId = some id → other.operationId ≠ some id

theorem caches_cleared (n : Node) : Caches n.commandCacheClear [] where
  table := rfl
  next := rfl
  distinct := fun older entry newer hsplit => by simp at hsplit

theorem Caches.of_same {n n' : Node} {log : List CommandCache} (h : Caches n log)
    (htable : n'.commandCache = n.commandCache)
    (hnext : n'.commandCacheNext = n.commandCacheNext) : Caches n' log where
  table := htable.trans h.table
  next := by rw [hnext, h.next]
  distinct := h.distinct

theorem CommandCache.isFor_some {commandId : U32} {id : OperationId} {entry : CommandCache} :
    entry.isFor commandId (some id) = true ↔ entry.operationId = some id := by
  simp [CommandCache.isFor]

/-- A search by operation id finds the execution of that operation that the cache
remembers. -/
theorem Caches.find_eq_some {n : Node} {log : List CommandCache} (h : Caches n log)
    {commandId : U32} {id : OperationId} {entry : CommandCache} :
    n.commandCacheFind commandId (some id) = some entry ↔
      entry.operationId = some id ∧
        ∃ older newer, log = older ++ entry :: newer ∧ newer.length < commandCacheSlots := by
  have hfound {found : CommandCache}
      (hfind : n.commandCacheFind commandId (some id) = some found) :
      found.operationId = some id ∧ ∃ older newer,
        log = older ++ found :: newer ∧ newer.length < commandCacheSlots := by
    refine ⟨CommandCache.isFor_some.mp (List.find?_some hfind), ?_⟩
    have hmem := mem_used.mp (List.mem_of_find?_eq_some hfind)
    rwa [h.table, mem_held_ring] at hmem
  constructor
  · exact hfound
  · rintro ⟨hid, older, newer, hlog, hnewer⟩
    cases hfind : n.commandCacheFind commandId (some id) with
    | none =>
        have hmem : entry ∈ used n.commandCache := by
          rw [mem_used, h.table, mem_held_ring]
          exact ⟨older, newer, hlog, hnewer⟩
        exact absurd (CommandCache.isFor_some.mpr hid) (List.find?_eq_none.mp hfind entry hmem)
    | some found =>
        obtain ⟨hid', older', newer', hlog', hnewer'⟩ := hfound hfind
        -- Both stand among the last entries, and one of them is not newer.
        have hsplit := hlog.symm.trans hlog'
        rcases List.append_eq_append_iff.mp hsplit with
          ⟨between, -, htail⟩ | ⟨between, -, htail⟩
        · cases between with
          | nil => exact congrArg some (List.cons.inj htail).1.symm
          | cons first between =>
              obtain ⟨-, rfl⟩ := List.cons.inj htail
              exact absurd hid' (h.distinct older entry _ hlog hnewer found (by simp) id hid)
        · cases between with
          | nil => exact congrArg some (List.cons.inj htail).1
          | cons first between =>
              obtain ⟨-, rfl⟩ := List.cons.inj htail
              exact absurd hid
                (h.distinct older' found _ hlog' hnewer' entry (by simp) id hid')

/-- A stored execution is the newest one the cache holds. -/
theorem Caches.store {n : Node} {log : List CommandCache} (h : Caches n log)
    {entry : CommandCache} {commandId : U32}
    (hnew : n.commandCacheFind commandId entry.operationId = none) :
    Caches (n.commandCacheStore entry) (log ++ [entry]) where
  table := by
    rw [ring_snoc, ← h.table, ← h.next]
    rfl
  next := by
    have hwrap : (n.commandCacheNext + 1).toNat % commandCacheSlots =
        (n.commandCacheNext.toNat + 1) % commandCacheSlots := by
      simp only [BitVec.toNat_add, commandCacheSlots]
      exact Nat.mod_mod_of_dvd _ (by decide)
    rw [Node.commandCacheStore, hwrap, Nat.add_mod, h.next, ← Nat.add_mod,
      List.length_append, List.length_singleton]
  distinct := by
    intro older old newer hsplit hnewer other hother id hold
    rcases List.eq_nil_or_concat newer with rfl | ⟨newer', last, rfl⟩
    · simp at hother
    · rw [List.concat_eq_append, ← List.cons_append, ← List.append_assoc] at hsplit
      obtain ⟨hlog, hlast⟩ := List.append_inj' hsplit rfl
      cases hlast
      rw [List.concat_eq_append, List.length_append, List.length_singleton] at hnewer
      rw [List.concat_eq_append, List.mem_append, List.mem_singleton] at hother
      rcases hother with hother | rfl
      · exact h.distinct older old newer' hlog (by omega) other hother id hold
      · intro hsame
        rw [hsame] at hnew
        have hfind : n.commandCacheFind commandId (some id) = some old :=
          h.find_eq_some.mpr ⟨hold, older, newer', hlog, by omega⟩
        rw [hnew] at hfind
        cases hfind

/-! ## One event -/

section Deliver

variable {n : Node} {payload : List UInt8} {command : Command}

/-- A cached command is answered and nothing else happens. -/
theorem Node.relDeliver_cached (hcommand : commandOf? payload = some command)
    {cached : CommandCache}
    (hfind : n.commandCacheFind command.commandId command.operationId = some cached)
    (answers : HookAnswers) (now : U32) :
    n.relDeliver channelControl payload answers now =
      (n.relSendControlResult command.commandId cached.status cached.result
        command.operationId now,
        [.sendControlResult command.commandId cached.status cached.result
          command.operationId]) := by
  simp [Node.relDeliver, hcommand, hfind]

/-- A command that is not cached is performed, stored and answered. -/
theorem Node.relDeliver_new (hcommand : commandOf? payload = some command)
    (hfind : n.commandCacheFind command.commandId command.operationId = none)
    (answers : HookAnswers) (now : U32) :
    ∃ entry status text, n.executes (.deliver channelControl payload answers now) = some entry ∧
      entry.operationId = command.operationId ∧
      n.relDeliver channelControl payload answers now =
        (((n.perform command.text answers).1.commandCacheStore entry).relSendControlResult
          command.commandId status text command.operationId now,
          (n.perform command.text answers).2.1 ++
            [.sendControlResult command.commandId status text command.operationId]) := by
  let performed := n.perform command.text answers
  refine ⟨cacheEntry command.commandId command.operationId performed.2.2.1 performed.2.2.2,
    performed.2.2.1, performed.2.2.2, ?_, rfl, ?_⟩
  · simp [Node.executes, hcommand, hfind, performed]
  · simp [Node.relDeliver, hcommand, hfind, performed]

theorem Node.executes_cached (hcommand : commandOf? payload = some command)
    {cached : CommandCache}
    (hfind : n.commandCacheFind command.commandId command.operationId = some cached)
    (answers : HookAnswers) (now : U32) :
    n.executes (.deliver channelControl payload answers now) = none := by
  simp [Node.executes, hcommand, hfind]

end Deliver

theorem Node.perform_cache (n : Node) (text : List UInt8) (answers : HookAnswers) :
    (n.perform text answers).1.commandCache = n.commandCache ∧
      (n.perform text answers).1.commandCacheNext = n.commandCacheNext := by
  unfold Node.perform
  repeat' split
  all_goals exact ⟨rfl, rfl⟩

theorem Node.perform_acts (n : Node) (text : List UInt8) (answers : HookAnswers) :
    ∃ effect ∈ (n.perform text answers).2.1, effect.isAction = true := by
  unfold Node.perform
  repeat' split
  all_goals exact ⟨_, List.mem_cons_self, rfl⟩

theorem Caches.relDeliver {n : Node} {log : List CommandCache} (h : Caches n log)
    (channel : ℕ) (payload : List UInt8) (answers : HookAnswers) (now : U32) :
    Caches (n.relDeliver channel payload answers now).1
      (log ++ (n.executes (.deliver channel payload answers now)).toList) := by
  by_cases hchannel : channel = channelControl
  · subst hchannel
    cases hcommand : commandOf? payload with
    | none => simpa [Node.relDeliver, Node.executes, hcommand] using h
    | some command =>
        cases hfind : n.commandCacheFind command.commandId command.operationId with
        | some cached =>
            rw [Node.relDeliver_cached hcommand hfind, Node.executes_cached hcommand hfind,
              Option.toList_none, List.append_nil]
            exact h.of_same rfl rfl
        | none =>
            obtain ⟨htable, hnext⟩ := n.perform_cache command.text answers
            have hsame : Caches (n.perform command.text answers).1 log :=
              h.of_same htable hnext
            obtain ⟨entry, status, text, hexecutes, hid, hdeliver⟩ :=
              Node.relDeliver_new hcommand hfind answers now
            rw [hdeliver, hexecutes, Option.toList_some]
            have hmiss : (n.perform command.text answers).1.commandCacheFind
                command.commandId entry.operationId = none := by
              rw [hid, ← hfind, Node.commandCacheFind, htable]
              rfl
            exact (hsame.store hmiss).of_same rfl rfl
  · simpa [Node.relDeliver, Node.executes, hchannel] using h

/-- A packet from the right address ends as the reliable layer says. -/
theorem Node.handleRx_status {n : Node} {src : Mac} {packet : Packet} (now : U32)
    (haccepted : ¬(packet.srcMac ≠ src ∨ (n.rootOriginMac ≠ 0 ∧ n.rootOriginMac ≠ src))) :
    (n.handleRx src packet now).2 = (Rel.handleRx n.rel src packet now).2 := by
  rw [Node.handleRx, if_neg haccepted]
  cases packet.body with
  | helloAck ack =>
      by_cases hok : (Rel.handleRx n.rel src packet now).2 = .ok
      · simp only [hok, ↓reduceIte]
      · simp only [hok, ↓reduceIte]
  | hello hello => rfl
  | data rh bytes => rfl
  | ack ack => rfl
  | nack ack => rfl
  | lost lost => rfl

theorem Caches.handleRx {n : Node} {log : List CommandCache} (h : Caches n log)
    (src : Mac) (packet : Packet) (now : U32) :
    Caches (n.handleRx src packet now).1
      (if n.clears (.handleRx src packet now) then [] else log) := by
  by_cases hrefused : packet.srcMac ≠ src ∨ (n.rootOriginMac ≠ 0 ∧ n.rootOriginMac ≠ src)
  · have hresult : n.handleRx src packet now = (n, .invalidArg) := by
      rw [Node.handleRx, if_pos hrefused]
    have hclears : n.clears (.handleRx src packet now) = false := by
      rw [Node.clears, hresult]
      split
      · exact Bool.and_false _
      · rfl
    rw [hclears, hresult]
    exact h
  · have hstatus := Node.handleRx_status now hrefused
    rw [Node.clears, hstatus, Node.handleRx, if_neg hrefused]
    cases packet.body with
    | helloAck ack =>
        by_cases hok : (Rel.handleRx n.rel src packet now).2 = .ok
        · simp only [hok, ↓reduceIte, Node.helloAcked, beq_self_eq_true, Bool.and_true]
          split
          · exact (caches_cleared _).of_same rfl rfl
          · exact h.of_same rfl rfl
        · simp only [hok, ↓reduceIte, beq_iff_eq, Bool.and_eq_true, and_false]
          exact h.of_same rfl rfl
    | hello hello => exact h.of_same rfl rfl
    | data rh bytes => exact h.of_same rfl rfl
    | ack ack => exact h.of_same rfl rfl
    | nack ack => exact h.of_same rfl rfl
    | lost lost => exact h.of_same rfl rfl

theorem Caches.step {n : Node} {log : List CommandCache} (h : Caches n log)
    (event : NodeEvent) :
    Caches (n.step event)
      (if n.clears event then [] else log ++ (n.executes event).toList) := by
  cases event with
  | deliver channel payload answers now => exact h.relDeliver channel payload answers now
  | handleRx src packet now =>
      have hnone : n.executes (.handleRx src packet now) = none := rfl
      rw [hnone, Option.toList_none, List.append_nil]
      exact h.handleRx src packet now
  | call call now =>
      have hnone : n.executes (.call call now) = none := rfl
      rw [hnone, Option.toList_none, List.append_nil]
      exact h.of_same rfl rfl
  | setRootMac mac =>
      have hnone : n.executes (.setRootMac mac) = none := rfl
      rw [hnone, Option.toList_none, List.append_nil]
      exact h.of_same rfl rfl
  | forgetRoot => exact (caches_cleared n).of_same rfl rfl

/-! ## Runs -/

/-- Over every run the cache holds the last executions since it was cleared. -/
theorem caches_run (rel : Ctx) (events : List NodeEvent) :
    Caches ((Node.boot rel).run events) ((Node.boot rel).cacheLog events) := by
  induction events using List.reverseRecOn with
  | nil => exact (caches_cleared (Node.boot rel)).of_same rfl rfl
  | append_singleton events event ih =>
      rw [Node.run_snoc, Node.cacheLog_snoc]
      exact ih.step event

/-- What a search by operation id finds after a run. -/
theorem find_run {rel : Ctx} {events : List NodeEvent} {commandId : U32} {id : OperationId}
    {entry : CommandCache} :
    ((Node.boot rel).run events).commandCacheFind commandId (some id) = some entry ↔
      entry.operationId = some id ∧ ∃ newer,
        (Node.boot rel).ExecutedBefore events entry newer ∧
          newer.length < commandCacheSlots := by
  rw [(caches_run rel events).find_eq_some]
  simp only [Node.executedBefore_iff]
  constructor
  · rintro ⟨hid, older, newer, hlog, hnewer⟩
    exact ⟨hid, newer, ⟨older, hlog⟩, hnewer⟩
  · rintro ⟨hid, newer, ⟨older, hlog⟩, hnewer⟩
    exact ⟨hid, older, newer, hlog, hnewer⟩

/-- After an execution that the cache still remembers, a command with the same
operation id is answered as that execution was, and nothing else happens. -/
theorem relDeliver_once (rel : Ctx) (events : List NodeEvent) {payload : List UInt8}
    {command : Command} {id : OperationId} (hcommand : commandOf? payload = some command)
    (hid : command.operationId = some id) {entry : CommandCache} {newer : List CommandCache}
    (hentry : entry.operationId = some id)
    (hbefore : (Node.boot rel).ExecutedBefore events entry newer)
    (hnewer : newer.length < commandCacheSlots) (answers : HookAnswers) (now : U32) :
    (((Node.boot rel).run events).relDeliver channelControl payload answers now).2 =
      [.sendControlResult command.commandId entry.status entry.result (some id)] := by
  have hfind : ((Node.boot rel).run events).commandCacheFind command.commandId
      command.operationId = some entry := by
    rw [hid, find_run]
    exact ⟨hentry, newer, hbefore, hnewer⟩
  rw [Node.relDeliver_cached hcommand hfind, hid]

/-- A node that has just booted, in session `9`. -/
def nodeLink : Node :=
  Node.boot (smallCtx false 0x11 9)

/-- The root takes up root session `session` with that node. -/
def rootAck (session : U32) : NodeEvent :=
  .handleRx 0x22 ⟨session, 0x22, .helloAck
    { profileVersion := reliableProfileVersion
      mtu := Rel.packetMax
      capabilities := requiredCapabilities
      rootSessionId := session
      nodeSessionId := 9
      resetLink := true }⟩ 0

/-- The command `@log:1` under an operation id. -/
def logOnPayload (id : BitVec 64) : List UInt8 :=
  controlWire controlCommand 7 0 (ascii "@log:1") (some ⟨0, id⟩)

/-- Hooks that know no command. -/
def noHooks : HookAnswers where
  handled := false
  status := 0
  result := []
  accepted := false

def logOn (id : BitVec 64) : NodeEvent :=
  .deliver channelControl (logOnPayload id) noHooks 0

theorem relDeliver_once_logOn :
    ((nodeLink.run [rootAck 1, logOn 5, rootAck 1, logOn 6]).relDeliver channelControl
      (logOnPayload 5) noHooks 0).2 =
        [.sendControlResult 7 0 (ascii "log enabled") (some ⟨0, 5⟩)] :=
  relDeliver_once (smallCtx false 0x11 9) [rootAck 1, logOn 5, rootAck 1, logOn 6]
    (by decide +kernel : commandOf? (logOnPayload 5) =
      some ⟨7, some ⟨0, 5⟩, ascii "@log:1"⟩) rfl
    (rfl : (cacheEntry 7 (some ⟨0, 5⟩) 0 (ascii "log enabled")).operationId = some ⟨0, 5⟩)
    ⟨[rootAck 1], logOn 5, [rootAck 1, logOn 6], rfl, by decide +kernel, by decide +kernel,
      (by decide +kernel : _ = [cacheEntry 7 (some ⟨0, 6⟩) 0 (ascii "log enabled")])⟩
    (by decide) noHooks 0

/-- One delivery, thirty-one other commands, and the same delivery again. -/
def fillCache : List NodeEvent :=
  logOn 5 :: (List.range 31).map (fun i => logOn (BitVec.ofNat 64 (100 + i))) ++ [logOn 5]

/-- The action runs again after a HELLO_ACK of another root session although no
command came between, and after one command more when a delivery was answered
from a slot that was next in turn. -/
theorem relDeliver_again :
    ((nodeLink.run [rootAck 1, logOn 5]).executions [rootAck 2] = [] ∧
      NodeEffect.logCtrl true ∈ ((nodeLink.run [rootAck 1, logOn 5, rootAck 2]).relDeliver
        channelControl (logOnPayload 5) noHooks 0).2) ∧
    ((nodeLink.run fillCache).executions [logOn 200]).length = 1 ∧
      NodeEffect.logCtrl true ∈ ((nodeLink.run (fillCache ++ [logOn 200])).relDeliver
        channelControl (logOnPayload 5) noHooks 0).2 := by
  decide +kernel

/-- Without such an execution it runs. -/
theorem relDeliver_runs (rel : Ctx) (events : List NodeEvent) {payload : List UInt8}
    {command : Command} {id : OperationId} (hcommand : commandOf? payload = some command)
    (hid : command.operationId = some id)
    (hnone : ∀ entry newer, entry.operationId = some id →
      (Node.boot rel).ExecutedBefore events entry newer → commandCacheSlots ≤ newer.length)
    (answers : HookAnswers) (now : U32) :
    ∃ effect ∈ (((Node.boot rel).run events).relDeliver channelControl payload answers now).2,
      effect.isAction = true := by
  have hfind : ((Node.boot rel).run events).commandCacheFind command.commandId
      command.operationId = none := by
    rw [hid]
    cases hfind : ((Node.boot rel).run events).commandCacheFind command.commandId
        (some id) with
    | none => rfl
    | some entry =>
        obtain ⟨hentry, newer, hbefore, hnewer⟩ := find_run.mp hfind
        exact absurd hnewer (Nat.not_lt.mpr (hnone entry newer hentry hbefore))
  obtain ⟨_, _, _, -, -, hdeliver⟩ := Node.relDeliver_new hcommand hfind answers now
  obtain ⟨effect, hmem, haction⟩ :=
    ((Node.boot rel).run events).perform_acts command.text answers
  rw [hdeliver]
  exact ⟨effect, List.mem_append_left _ hmem, haction⟩

end KeemashCore.MeshNode
