import KeemashCore.LittleEndian.Basic
import KeemashCore.Mesh.Binding
import KeemashCore.Mesh.CommandCache

/-!
# Commands without an operation id

Such a command is known by the number that its root gave it, and each root boot
counts from one.  So an entry of the cache may only answer the root session under
which it was stored.  `mesh_v2_node_handle_rx` clears the cache when a HELLO_ACK
names another root session than the record of the root holds; a record that holds
none, because retries ran out, does not tell.
-/

namespace KeemashCore.MeshNode

open KeemashCore.Rel SlotTable

/-! ## Payloads -/

theorem fromBytes_eq (bytes : List UInt8) : fromBytes bytes = LittleEndian.valueOf bytes := by
  induction bytes with
  | nil => rfl
  | cons byte bytes ih => rw [fromBytes, LittleEndian.valueOf, ih]

theorem fromBytes_toBytes (n value : ℕ) : fromBytes (toBytes n value) = value % 256 ^ n := by
  rw [toBytes, ← LittleEndian.bytesOf_eq_map, fromBytes_eq, LittleEndian.valueOf_bytesOf]

/-- The payload of a command with a number and no text. -/
def numberedPayload (commandId : U32) : List UInt8 :=
  controlWire controlCommand commandId 0 [] none

/-- A node reads the number of a command that `rel_send_control` built. -/
theorem commandOf_numberedPayload (commandId : U32) :
    commandOf? (numberedPayload commandId) = some ⟨commandId, none, []⟩ := by
  have hbytes : numberedPayload commandId =
      controlCommand :: 0 :: 0 :: 0 :: toBytes 4 commandId.toNat := by
    simp [numberedPayload, controlWire]
  have hlength : (toBytes 4 commandId.toNat).length = 4 := by simp [toBytes]
  have hid : BitVec.ofNat 32 (fromBytes (toBytes 4 commandId.toNat)) = commandId := by
    have hlt : commandId.toNat < 256 ^ 4 := commandId.isLt
    rw [fromBytes_toBytes, Nat.mod_eq_of_lt hlt, BitVec.ofNat_toNat, BitVec.setWidth_eq]
  have htake : (toBytes 4 commandId.toNat).take 4 = toBytes 4 commandId.toNat :=
    List.take_of_length_le (Nat.le_of_eq hlength)
  rw [hbytes]
  simp [commandOf?, textLen, flagged, controlGetOperationId, controlTextOffset, controlTextMax,
    hlength, htake, hid, cText]

/-! ## The remembered session -/

/-- `root_session_id` of the record of the root. -/
def Node.rootSession (n : Node) : U32 :=
  (n.rel.peer (n.rel.keyOf 0)).rootSessionId

theorem Node.rootSessionChanged_iff {n : Node} {ack : HelloAckPayload} :
    n.rootSessionChanged ack = true ↔
      n.rootSession ≠ 0 ∧ n.rootSession ≠ ack.rootSessionId := by
  simp only [Node.rootSessionChanged, Node.rootSession, Bool.and_eq_true, decide_eq_true_eq]

/-- The guards under which `mesh_v2_node_handle_rx` takes a HELLO_ACK. -/
def Node.takesAck (n : Node) (src : Mac) (packet : Packet) (ack : HelloAckPayload)
    (now : U32) : Bool :=
  packet.srcMac == src && (n.rootOriginMac == 0 || n.rootOriginMac == src) &&
    takesHelloAck n.rel src ack now

theorem rootSession_of_rootKept {n n' : Node} (h : RootKept n.rel n'.rel) :
    n'.rel.cfg = n.rel.cfg ∧ (n'.rootSession = n.rootSession ∨ n'.rootSession = 0) := by
  have hkey : n'.rel.keyOf 0 = n.rel.keyOf 0 := by
    rw [Ctx.keyOf, Ctx.keyOf, h.cfg]
  refine ⟨h.cfg, ?_⟩
  rw [Node.rootSession, Node.rootSession, hkey]
  exact h.session _

theorem rootKept_nodeCall (c : Ctx) (now : U32) (call : Call) :
    RootKept c (nodeCall c now call) := by
  cases call with
  | submit peer channel payload priority => exact rootKept_submit c 0 channel payload priority now
  | sendHello capabilities => exact rootKept_sendHello c 0 capabilities now
  | poll => exact rootKept_poll c now
  | route peer routeUp => exact rootKept_peerRoute c 0 routeUp now
  | supersedeTime peer => exact rootKept_supersedeChannel c 0 channelTime now
  | reset peer reason => exact rootKept_resetPeer c 0 reason now
  | remove peer => exact rootKept_removePeer c 0 now
  | receive src packet => exact RootKept.refl c

theorem rootKept_relDeliver (n : Node) (channel : ℕ) (payload : List UInt8)
    (answers : HookAnswers) (now : U32) :
    RootKept n.rel (n.relDeliver channel payload answers now).1.rel := by
  have hperform (text : List UInt8) : (n.perform text answers).1.rel = n.rel := by
    unfold Node.perform
    repeat' split
    all_goals rfl
  simp only [Node.relDeliver]
  split
  · exact RootKept.refl n.rel
  · split
    · exact RootKept.refl n.rel
    · split
      · exact rootKept_submit _ _ _ _ _ _
      · next command _ _ =>
          simp only [Node.relSendControlResult, Node.commandCacheStore, hperform]
          exact rootKept_submit _ _ _ _ _ _

theorem Node.helloAcked_rel (n : Node) (src : Mac) (changed : Bool) :
    (n.helloAcked src changed).rel = n.rel := by
  rw [Node.helloAcked]
  split
  · rfl
  · rfl

/-- A node takes a HELLO_ACK exactly under its guards, and then remembers the root
session that it names. -/
theorem Node.handleRx_helloAck (n : Node) (src : Mac) {packet : Packet}
    {ack : HelloAckPayload} (hbody : packet.body = .helloAck ack) (now : U32) :
    ((n.handleRx src packet now).2 = .ok ↔ n.takesAck src packet ack now = true) ∧
      (n.handleRx src packet now).1.rel.cfg = n.rel.cfg ∧
      (n.takesAck src packet ack now = false →
        RootKept n.rel (n.handleRx src packet now).1.rel) ∧
      (n.takesAck src packet ack now = true →
        ((n.handleRx src packet now).1.rel.peer (n.rel.keyOf src)).rootSessionId =
          ack.rootSessionId) := by
  by_cases hrefused : packet.srcMac ≠ src ∨ (n.rootOriginMac ≠ 0 ∧ n.rootOriginMac ≠ src)
  · have htakes : n.takesAck src packet ack now = false := by
      rw [Bool.eq_false_iff]
      intro htakes
      simp only [Node.takesAck, Bool.and_eq_true, Bool.or_eq_true, beq_iff_eq] at htakes
      rcases hrefused with h | ⟨hset, hother⟩
      · exact h htakes.1.1
      · rcases htakes.1.2 with h | h
        · exact hset h
        · exact hother h
    rw [Node.handleRx, if_pos hrefused, htakes]
    exact ⟨by simp, rfl, fun _ => RootKept.refl n.rel, by simp⟩
  · have hopen := hrefused
    push Not at hopen
    obtain ⟨hsrc, horigin⟩ := hopen
    have htakes : n.takesAck src packet ack now = takesHelloAck n.rel src ack now := by
      have hmac : (n.rootOriginMac == 0 || n.rootOriginMac == src) = true := by
        rw [Bool.or_eq_true, beq_iff_eq, beq_iff_eq]
        exact or_iff_not_imp_left.mpr horigin
      rw [Node.takesAck, hmac, hsrc]
      simp
    have hrel : Rel.handleRx n.rel src packet now = handleHelloAck n.rel src ack now := by
      rw [Rel.handleRx, if_neg (not_not_intro hsrc), hbody]
    obtain ⟨hok, hcfg, hkept, hsession⟩ := handleHelloAck_session n.rel src ack now
    have hresult : (n.handleRx src packet now).1.rel = (handleHelloAck n.rel src ack now).1 := by
      rw [Node.handleRx, if_neg hrefused, hbody, hrel]
      dsimp only
      split
      · rw [Node.helloAcked_rel]
      · rfl
    rw [Node.handleRx_status now hrefused, hrel, hresult, htakes]
    exact ⟨hok, hcfg, hkept, hsession⟩

/-- What an event does to the remembered session of a node. -/
theorem Node.step_session {n : Node} (hrole : n.rel.cfg.rootRole = false)
    (event : NodeEvent) :
    (n.step event).rel.cfg = n.rel.cfg ∧
      ((n.step event).rootSession = n.rootSession ∨ (n.step event).rootSession = 0 ∨
        ∃ src packet now ack, event = .handleRx src packet now ∧
          packet.body = .helloAck ack ∧ n.takesAck src packet ack now = true ∧
          (n.step event).rootSession = ack.rootSessionId) := by
  have hkept {n' : Node} (h : RootKept n.rel n'.rel) :
      n'.rel.cfg = n.rel.cfg ∧ (n'.rootSession = n.rootSession ∨ n'.rootSession = 0 ∨
        ∃ src packet now ack, event = .handleRx src packet now ∧
          packet.body = .helloAck ack ∧ n.takesAck src packet ack now = true ∧
          n'.rootSession = ack.rootSessionId) := by
    obtain ⟨hcfg, hsession⟩ := rootSession_of_rootKept h
    exact ⟨hcfg, hsession.imp_right Or.inl⟩
  cases event with
  | deliver channel payload answers now =>
      exact hkept (rootKept_relDeliver n channel payload answers now)
  | call call now => exact hkept (rootKept_nodeCall n.rel now call)
  | setRootMac mac => exact hkept (RootKept.refl n.rel)
  | forgetRoot => exact hkept (RootKept.refl n.rel)
  | handleRx src packet now =>
      by_cases hack : ∃ ack, packet.body = .helloAck ack
      · obtain ⟨ack, hbody⟩ := hack
        obtain ⟨-, hcfg, hno, hyes⟩ := n.handleRx_helloAck src hbody now
        cases htakes : n.takesAck src packet ack now with
        | false => exact hkept (hno htakes)
        | true =>
            refine ⟨hcfg, .inr (.inr ⟨src, packet, now, ack, rfl, hbody, htakes, ?_⟩)⟩
            have hkey : (n.handleRx src packet now).1.rel.keyOf 0 = n.rel.keyOf src := by
              rw [Ctx.keyOf, Ctx.keyOf, hcfg, hrole]
              rfl
            rw [Node.rootSession]
            exact (congrArg _ (congrArg _ hkey)).trans (hyes htakes)
      · have hother : ∀ ack, packet.body ≠ .helloAck ack := fun ack h => hack ⟨ack, h⟩
        refine hkept ?_
        by_cases hrefused : packet.srcMac ≠ src ∨
            (n.rootOriginMac ≠ 0 ∧ n.rootOriginMac ≠ src)
        · rw [Node.step, Node.handleRx, if_pos hrefused]
          exact RootKept.refl n.rel
        · have hresult : (n.step (.handleRx src packet now)).rel =
              (Rel.handleRx n.rel src packet now).1 := by
            rw [Node.step, Node.handleRx, if_neg hrefused]
            dsimp only
            split
            · next ack hbody => exact absurd hbody (hother ack)
            · rfl
          rw [hresult]
          exact rootKept_handleRx hrole src packet now hother

/-! ## What the cache holds -/

/-- The cache holds `entry`, which a command stored after the events `before`. -/
def Node.Holds (n : Node) (events before : List NodeEvent) (entry : CommandCache) : Prop :=
  ∃ newer, n.ExecutedAt events before entry newer ∧ newer.length < commandCacheSlots

theorem Node.not_holds_nil {n : Node} {before : List NodeEvent} {entry : CommandCache} :
    ¬n.Holds [] before entry := by
  rintro ⟨newer, hexecuted, -⟩
  exact Node.executedAt_nil hexecuted

/-- An entry that the cache holds after an event was stored by it or held before. -/
theorem Node.holds_snoc {n : Node} {events before : List NodeEvent} {event : NodeEvent}
    {entry : CommandCache} (h : n.Holds (events ++ [event]) before entry) :
    (before = events ∧ (n.run events).executes event = some entry) ∨
      ((n.run events).clears event = false ∧ n.Holds events before entry) := by
  obtain ⟨newer, hexecuted, hnewer⟩ := h
  rcases Node.executedAt_snoc.mp hexecuted with
    ⟨rfl, hlast, -⟩ | ⟨hkeeps, newer', hbefore, rfl⟩
  · exact .inl ⟨rfl, hlast⟩
  · rw [List.length_append] at hnewer
    exact .inr ⟨hkeeps, newer', hbefore, by omega⟩

/-- An event that executes nothing and does not clear the cache leaves it. -/
theorem Node.Holds.snoc {n : Node} {events before : List NodeEvent} {event : NodeEvent}
    {entry : CommandCache} (h : n.Holds events before entry)
    (hkeeps : (n.run events).clears event = false)
    (hnone : (n.run events).executes event = none) :
    n.Holds (events ++ [event]) before entry := by
  obtain ⟨newer, hexecuted, hnewer⟩ := h
  refine ⟨newer, Node.executedAt_snoc.mpr (.inr ⟨hkeeps, newer, hexecuted, ?_⟩), hnewer⟩
  rw [hnone, Option.toList_none, List.append_nil]

/-- The entries in the slots are the ones that the run left there. -/
theorem mem_used_run {rel : Ctx} {events : List NodeEvent} {entry : CommandCache} :
    entry ∈ used ((Node.boot rel).run events).commandCache ↔
      ∃ before, (Node.boot rel).Holds events before entry := by
  rw [mem_used, (caches_run rel events).table, mem_held_ring]
  constructor
  · rintro ⟨older, newer, hlog, hnewer⟩
    obtain ⟨before, hexecuted⟩ := Node.executedBefore_iff_at.mp
      ((Node.executedBefore_iff _ events entry newer).mpr ⟨older, hlog⟩)
    exact ⟨before, newer, hexecuted, hnewer⟩
  · rintro ⟨before, newer, hexecuted, hnewer⟩
    obtain ⟨older, hlog⟩ := (Node.executedBefore_iff _ events entry newer).mp ⟨before, hexecuted⟩
    exact ⟨older, newer, hlog, hnewer⟩

/-- The run ends where every command without an operation id that arrives while a
root session is remembered, and that the cache answers, is answered with what was
stored while that session was remembered. -/
def Node.AnswersOwn (n : Node) (events : List NodeEvent) : Prop :=
  (n.run events).rootSession ≠ 0 → ∀ payload command cached,
    commandOf? payload = some command → command.operationId = none →
    (n.run events).commandCacheFind command.commandId none = some cached →
    (∃ before, n.Holds events before cached) ∧
      ∀ before entry, n.Holds events before entry → entry.operationId = none →
        entry.commandId = command.commandId →
        (n.run before).rootSession = (n.run events).rootSession

/-- The event is no HELLO_ACK that the node takes while it remembers no root
session, or the one that it names is the session of every command without an
operation id that the cache holds. -/
def Node.AckFits (n : Node) (events : List NodeEvent) (event : NodeEvent) : Prop :=
  ∀ src packet now ack, event = .handleRx src packet now → packet.body = .helloAck ack →
    (n.run events).takesAck src packet ack now = true → (n.run events).rootSession = 0 →
    ack.rootSessionId ≠ 0 →
    ∀ before entry, n.Holds events before entry → entry.operationId = none →
      (n.run before).rootSession = ack.rootSessionId

theorem CommandCache.isFor_none {commandId : U32} {entry : CommandCache} :
    entry.isFor commandId none = true ↔
      entry.operationId = none ∧ entry.commandId = commandId := by
  simp [CommandCache.isFor]

theorem run_role {rel : Ctx} (hrole : rel.cfg.rootRole = false) (events : List NodeEvent) :
    ((Node.boot rel).run events).rel.cfg.rootRole = false := by
  induction events using List.reverseRecOn with
  | nil => exact hrole
  | append_singleton events event ih =>
      rw [Node.run_snoc, (Node.step_session ih event).1]
      exact ih

/-- What the cache holds was stored under the session that the node remembers. -/
theorem holds_run {rel : Ctx} (hrole : rel.cfg.rootRole = false) (events : List NodeEvent)
    (hfits : ∀ before event after, events = before ++ event :: after →
      (Node.boot rel).AckFits before event)
    (hbound : ((Node.boot rel).run events).rootSession ≠ 0) {before : List NodeEvent}
    {entry : CommandCache} (hholds : (Node.boot rel).Holds events before entry)
    (hlegacy : entry.operationId = none) :
    ((Node.boot rel).run before).rootSession = ((Node.boot rel).run events).rootSession := by
  induction events using List.reverseRecOn with
  | nil => exact absurd hholds Node.not_holds_nil
  | append_singleton events event ih =>
      have hih (h : ((Node.boot rel).run events).rootSession ≠ 0)
          (hheld : (Node.boot rel).Holds events before entry) :
          ((Node.boot rel).run before).rootSession =
            ((Node.boot rel).run events).rootSession := by
        refine ih ?_ h hheld
        rintro before event' after rfl
        exact hfits before event' (after ++ [event]) (by simp)
      have hstep := (Node.step_session (run_role hrole events) event).2
      rw [Node.run_snoc] at hbound ⊢
      rcases Node.holds_snoc hholds with ⟨rfl, hexecutes⟩ | ⟨hkeeps, hheld⟩
      · -- The event stored the entry: it is a delivery, not a handshake.
        rcases hstep with hsame | hzero | ⟨src, packet, now, ack, rfl, -, -, -⟩
        · exact hsame.symm
        · exact absurd hzero hbound
        · cases hexecutes
      · rcases hstep with hsame | hzero | ⟨src, packet, now, ack, rfl, hbody, htakes, hnew⟩
        · rw [hsame] at hbound ⊢
          exact hih hbound hheld
        · exact absurd hzero hbound
        · rw [hnew] at hbound ⊢
          by_cases hnone : ((Node.boot rel).run events).rootSession = 0
          · exact hfits events _ [] rfl src packet now ack rfl hbody htakes hnone hbound
              before entry hheld hlegacy
          · have hok := (Node.handleRx_helloAck _ src hbody now).1.mpr htakes
            have hsame : ((Node.boot rel).run events).rootSession = ack.rootSessionId := by
              by_contra hother
              have hchanged : ((Node.boot rel).run events).rootSessionChanged ack = true :=
                Node.rootSessionChanged_iff.mpr ⟨hnone, hother⟩
              rw [Node.clears, hbody] at hkeeps
              simp [hchanged, hok] at hkeeps
            rw [← hsame]
            exact hih hnone hheld

/-- Over a whole run the cache answers a command without an operation id only with
what was stored under the root session of the command, exactly if no HELLO_ACK is
taken while no session is remembered and the cache holds such a command of another
session. -/
theorem run_answersOwn_iff (rel : Ctx) (hrole : rel.cfg.rootRole = false)
    (events : List NodeEvent) :
    (∀ before after, events = before ++ after → (Node.boot rel).AnswersOwn before) ↔
      ∀ before event after, events = before ++ event :: after →
        (Node.boot rel).AckFits before event := by
  constructor
  · intro h before event after hsplit src packet now ack hevent hbody htakes hnone hsession
      stored entry hholds hlegacy
    have hsnoc : events = (before ++ [event]) ++ after := by simp [hsplit]
    have hown := h (before ++ [event]) after hsnoc
    subst hevent
    have hsame : ((Node.boot rel).run (before ++ [.handleRx src packet now])).rootSession =
        ack.rootSessionId := by
      obtain ⟨-, hcfg, -, hyes⟩ :=
        ((Node.boot rel).run before).handleRx_helloAck src hbody now
      have hkey : (((Node.boot rel).run before).handleRx src packet now).1.rel.keyOf 0 =
          ((Node.boot rel).run before).rel.keyOf src := by
        rw [Ctx.keyOf, Ctx.keyOf, hcfg, run_role hrole before]
        rfl
      rw [Node.run_snoc, Node.rootSession]
      exact (congrArg _ (congrArg _ hkey)).trans (hyes htakes)
    have hkeeps : ((Node.boot rel).run before).clears (.handleRx src packet now) = false := by
      have hunchanged : ((Node.boot rel).run before).rootSessionChanged ack = false := by
        rw [Bool.eq_false_iff, Ne, Node.rootSessionChanged_iff]
        exact fun hchanged => hchanged.1 hnone
      rw [Node.clears, hbody]
      simp [hunchanged]
    have hheld := hholds.snoc hkeeps rfl
    have hused := mem_used_run.mpr ⟨stored, hheld⟩
    rw [← hsame]
    cases hfind : ((Node.boot rel).run (before ++ [.handleRx src packet now])).commandCacheFind
        entry.commandId none with
    | none =>
        exact absurd (CommandCache.isFor_none.mpr ⟨hlegacy, rfl⟩)
          (List.find?_eq_none.mp hfind entry hused)
    | some cached =>
        exact (hown (by rwa [hsame]) (numberedPayload entry.commandId)
          ⟨entry.commandId, none, []⟩ cached (commandOf_numberedPayload _) rfl hfind).2
          stored entry hheld hlegacy rfl
  · intro h before after hsplit hbound payload command cached _ _ hfind
    constructor
    · exact mem_used_run.mp (List.mem_of_find?_eq_some hfind)
    · intro stored entry hholds hlegacy _
      refine holds_run hrole before ?_ hbound hholds hlegacy
      rintro first event rest rfl
      exact h first event (rest ++ after) (by simp [hsplit])

/-! ## Two root boots -/

/-- A command with a number and a text, without an operation id. -/
def textPayload (commandId : U32) (text : String) : List UInt8 :=
  controlWire controlCommand commandId 0 (ascii text) none

def deliverText (commandId : U32) (text : String) : NodeEvent :=
  .deliver channelControl (textPayload commandId text) noHooks 0

theorem run_answersOwn_iff_oneRoot :
    (smallCtx false 0x11 9).cfg.rootRole = false ∧
      ∀ before after, [rootAck 1, deliverText 1 "@log:1"] = before ++ after →
        nodeLink.AnswersOwn before := by
  refine ⟨rfl, (run_answersOwn_iff (smallCtx false 0x11 9) rfl
    [rootAck 1, deliverText 1 "@log:1"]).mpr ?_⟩
  intro before event after hsplit src packet now ack hevent _ _ _ _ stored entry hholds
  subst hevent
  cases before with
  | nil => exact absurd hholds Node.not_holds_nil
  | cons first rest =>
      cases rest with
      | nil =>
          have hsecond := (List.cons.inj (List.cons.inj hsplit).2).1
          cases hsecond
      | cons second rest =>
          have hlength := congrArg List.length hsplit
          simp only [List.length_cons, List.length_append, List.length_nil] at hlength
          omega

/-- The root turns the log on, its result is never acknowledged until retries run
out, and another root boot takes over. -/
def twoRoots : List NodeEvent :=
  [rootAck 1, deliverText 1 "@log:1"] ++
    (List.range 9).map (fun k => .call .poll (BitVec.ofNat 32 (2000 * (k + 1)))) ++ [rootAck 2]

/-- The first command of the second root boot is to turn the log off.  The node
answers that the log is on, and does nothing. -/
theorem answersOwn_twoRoots :
    (nodeLink.run twoRoots).rootSession = 2 ∧
      ((nodeLink.run twoRoots).relDeliver channelControl (textPayload 1 "@log:0") noHooks 0).2 =
        [.sendControlResult 1 0 (ascii "log enabled") none] ∧
      ¬nodeLink.AnswersOwn twoRoots := by
  refine ⟨by decide +kernel, by decide +kernel, fun hown => ?_⟩
  have hheld : nodeLink.Holds twoRoots [rootAck 1]
      (cacheEntry 1 none 0 (ascii "log enabled")) :=
    ⟨[], ⟨deliverText 1 "@log:1", twoRoots.drop 2, rfl, by decide +kernel, by decide +kernel,
      by decide +kernel⟩, by decide⟩
  have hsame := (hown (by decide +kernel) (textPayload 1 "@log:0")
    ⟨1, none, ascii "@log:0"⟩ (cacheEntry 1 none 0 (ascii "log enabled")) (by decide +kernel) rfl
    (by decide +kernel)).2 [rootAck 1] (cacheEntry 1 none 0 (ascii "log enabled")) hheld rfl rfl
  exact absurd hsame (by decide +kernel)

end KeemashCore.MeshNode
