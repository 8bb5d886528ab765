import KeemashCore.Mesh.ControlWire
import Mathlib.Data.Nat.Digits.Defs

/-!
# Replayed results

A command that the cache answers gets the result that was stored when it was executed.  The
first result goes out from the buffer of the hook, which takes 128 bytes of text, and the
stored one is cut to 47: the two are the same for as long as the text is no longer than that.
-/

namespace KeemashCore.MeshNode

open KeemashCore.Rel SlotTable

/-! ## Results on their way to the root -/

/-- The status and the text of a CONTROL RESULT. -/
def NodeEffect.result? : NodeEffect → Option (UInt8 × List UInt8)
  | .sendControlResult _ status text _ => some (status, text)
  | _ => none

/-- The results that an event makes the node send. -/
def Node.results (n : Node) : NodeEvent → List (UInt8 × List UInt8)
  | .deliver channel payload answers now =>
      (n.relDeliver channel payload answers now).2.filterMap NodeEffect.result?
  | _ => []

/-- A command as it is known to the cache. -/
structure CommandKey where
  commandId : U32
  operationId : Option OperationId
  deriving DecidableEq, Repr

def Command.key (command : Command) : CommandKey where
  commandId := command.commandId
  operationId := command.operationId

/-- The same command again: the same operation, or the same number where neither has one. -/
def SameCommand (key key' : CommandKey) : Prop :=
  key'.operationId = key.operationId ∧
    (key.operationId = none → key'.commandId = key.commandId)

instance (key key' : CommandKey) : Decidable (SameCommand key key') :=
  inferInstanceAs (Decidable (_ ∧ _))

def CommandCache.key (entry : CommandCache) : CommandKey where
  commandId := entry.commandId
  operationId := entry.operationId

theorem CommandCache.isFor_iff {entry : CommandCache} {key : CommandKey} :
    entry.isFor key.commandId key.operationId = true ↔ SameCommand entry.key key := by
  rw [SameCommand, CommandCache.key]
  cases hid : key.operationId with
  | none =>
      rw [CommandCache.isFor_none]
      constructor
      · rintro ⟨hnone, hnumber⟩
        exact ⟨hnone.symm, fun _ => hnumber.symm⟩
      · rintro ⟨hnone, hnumber⟩
        exact ⟨hnone.symm, (hnumber hnone.symm).symm⟩
  | some id =>
      rw [CommandCache.isFor_some]
      constructor
      · intro hsome
        refine ⟨hsome.symm, fun hnone => ?_⟩
        rw [hsome] at hnone
        exact absurd hnone (Option.some_ne_none id)
      · exact fun hsame => hsame.1.symm

theorem SameCommand.trans {key key' key'' : CommandKey} (h : SameCommand key key')
    (h' : SameCommand key' key'') : SameCommand key key'' := by
  refine ⟨h'.1.trans h.1, fun hnone => ?_⟩
  rw [h'.2 (h.1.trans hnone), h.2 hnone]

theorem SameCommand.symm {key key' : CommandKey} (h : SameCommand key key') :
    SameCommand key' key :=
  ⟨h.1.symm, fun hnone => (h.2 (h.1.symm.trans hnone)).symm⟩

theorem SameCommand.refl (key : CommandKey) : SameCommand key key :=
  ⟨rfl, fun _ => rfl⟩

/-! ## Executions and their entries -/

/-- What an execution stores is its result, cut to the entry's size. -/
theorem Node.executes_eq {n : Node} {event : NodeEvent} {entry : CommandCache}
    (h : n.executes event = some entry) :
    ∃ payload command answers now, event = .deliver channelControl payload answers now ∧
      commandOf? payload = some command ∧
      n.commandCacheFind command.commandId command.operationId = none ∧
      entry = cacheEntry command.commandId command.operationId
        (n.perform command.text answers).2.2.1 (n.perform command.text answers).2.2.2 := by
  cases event with
  | deliver channel payload answers now =>
      rw [Node.executes] at h
      split at h
      · exact absurd h (by simp)
      · next hchannel =>
          rw [not_not] at hchannel
          split at h
          · exact absurd h (by simp)
          · next command hcommand =>
              split at h
              · exact absurd h (by simp)
              · next hfind =>
                  rw [hchannel]
                  exact ⟨payload, command, answers, now, rfl, hcommand, hfind,
                    (Option.some.inj h).symm⟩
  | handleRx src packet now => exact absurd h (by simp [Node.executes])
  | call call now => exact absurd h (by simp [Node.executes])
  | setRootMac mac => exact absurd h (by simp [Node.executes])
  | forgetRoot => exact absurd h (by simp [Node.executes])

section Deliver

variable {n : Node} {payload : List UInt8} {command : Command}

/-- The effects of running a command are no results. -/
theorem Node.perform_results (n : Node) (text : List UInt8) (answers : HookAnswers) :
    (n.perform text answers).2.1.filterMap NodeEffect.result? = [] := by
  rw [Node.perform]
  split
  · rfl
  · split
    · rfl
    · split
      · rfl
      · split
        · rfl
        · rfl

/-- The first result of a command. -/
theorem Node.results_new (hcommand : commandOf? payload = some command)
    (hfind : n.commandCacheFind command.commandId command.operationId = none)
    (answers : HookAnswers) (now : U32) :
    n.results (.deliver channelControl payload answers now) =
      [((n.perform command.text answers).2.2.1, (n.perform command.text answers).2.2.2)] := by
  have hdeliver : (n.relDeliver channelControl payload answers now).2 =
      (n.perform command.text answers).2.1 ++
        [.sendControlResult command.commandId (n.perform command.text answers).2.2.1
          (n.perform command.text answers).2.2.2 command.operationId] := by
    simp only [Node.relDeliver, ne_eq, not_true_eq_false, if_false, hcommand, hfind]
  rw [Node.results, hdeliver, List.filterMap_append, Node.perform_results, List.nil_append]
  rfl

/-- The result of a command that the cache answers. -/
theorem Node.results_cached (hcommand : commandOf? payload = some command)
    {cached : CommandCache}
    (hfind : n.commandCacheFind command.commandId command.operationId = some cached)
    (answers : HookAnswers) (now : U32) :
    n.results (.deliver channelControl payload answers now) =
      [(cached.status, cached.result)] := by
  rw [Node.results, Node.relDeliver_cached hcommand hfind]
  rfl

theorem Node.executes_new (hcommand : commandOf? payload = some command)
    (hfind : n.commandCacheFind command.commandId command.operationId = none)
    (answers : HookAnswers) (now : U32) :
    n.executes (.deliver channelControl payload answers now) =
      some (cacheEntry command.commandId command.operationId
        (n.perform command.text answers).2.2.1 (n.perform command.text answers).2.2.2) := by
  simp only [Node.executes, ne_eq, not_true_eq_false, if_false, hcommand, hfind]

end Deliver

/-! ## What the cache holds of a command -/

section Held

variable {rel : Ctx} {events before before' : List NodeEvent} {entry entry' : CommandCache}

/-- A held entry stands in a slot. -/
theorem find_ne_none_of_holds (h : (Node.boot rel).Holds events before entry) {key : CommandKey}
    (hkey : SameCommand entry.key key) :
    ((Node.boot rel).run events).commandCacheFind key.commandId key.operationId ≠ none := by
  intro hnone
  have hmem := mem_used_run.mpr ⟨before, h⟩
  exact List.find?_eq_none.mp hnone entry hmem (CommandCache.isFor_iff.mpr hkey)

/-- The cache holds at most one execution of a command. -/
theorem holds_unique (h : (Node.boot rel).Holds events before entry)
    (h' : (Node.boot rel).Holds events before' entry') (hkey : SameCommand entry.key entry'.key) :
    before = before' ∧ entry = entry' := by
  induction events using List.reverseRecOn generalizing entry entry' before before' with
  | nil => exact absurd h Node.not_holds_nil
  | append_singleton events event ih =>
      -- The command of a new execution is not in the cache yet.
      have hnew {old new : CommandCache} {first : List NodeEvent}
          (hheld : (Node.boot rel).Holds events first old)
          (hlast : ((Node.boot rel).run events).executes event = some new) :
          ¬SameCommand old.key new.key := by
        intro hsame
        obtain ⟨payload, command, answers, now, -, -, hfind, rfl⟩ := Node.executes_eq hlast
        exact find_ne_none_of_holds hheld hsame hfind
      rcases Node.holds_snoc h with ⟨rfl, hlast⟩ | ⟨-, hheld⟩
      · rcases Node.holds_snoc h' with ⟨rfl, hlast'⟩ | ⟨-, hheld'⟩
        · rw [hlast] at hlast'
          exact ⟨rfl, Option.some.inj hlast'⟩
        · exact absurd hkey.symm (hnew hheld' hlast)
      · rcases Node.holds_snoc h' with ⟨rfl, hlast'⟩ | ⟨-, hheld'⟩
        · exact absurd hkey (hnew hheld hlast')
        · exact ih hheld hheld' hkey

/-- A command that the cache holds is answered with its own entry. -/
theorem find_of_holds (h : (Node.boot rel).Holds events before entry) {key : CommandKey}
    (hkey : SameCommand entry.key key) :
    ((Node.boot rel).run events).commandCacheFind key.commandId key.operationId =
      some entry := by
  obtain ⟨found, hfound⟩ := Option.ne_none_iff_exists'.mp (find_ne_none_of_holds h hkey)
  obtain ⟨first, hheld⟩ := mem_used_run.mp (List.mem_of_find?_eq_some hfound)
  have hsame : SameCommand found.key key := CommandCache.isFor_iff.mp (List.find?_some hfound)
  have hone := (holds_unique h hheld (hkey.trans hsame.symm)).2
  rw [hfound, hone]

end Held

/-! ## Which texts the cache keeps -/

/-- The command is one of the node's own, or no hook answers it with a text of more than 47
bytes. -/
def ShortResult (text : List UInt8) (answers : HookAnswers) : Prop :=
  text = ascii "@dbg:dedupe" ∨ text = ascii "@log:1" ∨ text = ascii "@log:0" ∨
    answers.handled = false ∨ (cText (answers.result.take controlTextMax)).length ≤ 47

theorem length_debugResult (count : U32) : (debugResult count).length ≤ 47 := by
  have hdigits : (toString count.toNat).length ≤ 10 := by
    apply Nat.repr_length
    · decide
    · exact count.isLt.trans (by decide)
  have hprefix : ("debug action count=" : String).length = 19 := by decide
  rw [debugResult, ascii, List.length_map, String.length_toList, String.length_append, hprefix]
  omega

/-- The text that a command of the node's own or a short answer leads to is kept whole, and a
longer one is cut. -/
theorem length_perform_iff (n : Node) (text : List UInt8) (answers : HookAnswers) :
    (n.perform text answers).2.2.2.length ≤ 47 ↔ ShortResult text answers := by
  rw [Node.perform, ShortResult]
  split
  · next hdebug => exact iff_of_true (length_debugResult _) (.inl hdebug)
  · next hdebug =>
      split
      · next hlog =>
          apply iff_of_true
          · simp only
            split
            · decide
            · decide
          · exact .inr (hlog.imp_right .inl)
      · next hlog =>
          rw [not_or] at hlog
          rw [or_iff_right hdebug, or_iff_right hlog.1, or_iff_right hlog.2]
          split
          · next hhandled =>
              rw [hhandled, or_iff_right (by decide), appResult]
              simp only
              split
              · exact Iff.rfl
              · next hempty =>
                  rw [not_not] at hempty
                  rw [hempty]
                  apply iff_of_true
                  · split
                    · decide
                    · decide
                  · decide
          · next hhandled =>
              rw [Bool.not_eq_true] at hhandled
              apply iff_of_true
              · split
                · show (ascii "accepted").length ≤ 47
                  decide
                · show (ascii "unsupported").length ≤ 47
                  decide
              · exact .inl hhandled

/-! ## Replays -/

section Replay

variable {rel : Ctx} {before after : List NodeEvent} {event : NodeEvent} {entry : CommandCache}

theorem executes_of_holds (h : (Node.boot rel).Holds (before ++ event :: after) before entry) :
    ((Node.boot rel).run before).executes event = some entry := by
  obtain ⟨newer, ⟨event', after', hsplit, hexecutes, -, -⟩, -⟩ := h
  have hsame := (List.cons.inj (List.append_cancel_left hsplit)).1
  rw [hsame]
  exact hexecutes

theorem holds_at_once (h : ((Node.boot rel).run before).executes event = some entry) :
    (Node.boot rel).Holds (before ++ [event]) before entry :=
  ⟨[], Node.executedAt_snoc.mpr (.inl ⟨rfl, h, rfl⟩), by decide⟩

end Replay

/-- Every answer from the cache goes back to an execution of the same command that the cache
still holds; and as long as it holds one, the command is answered with the status and the text
of the first result if and only if that text was short. -/
theorem replay_same_iff (rel : Ctx) :
    (∀ events command cached,
      ((Node.boot rel).run events).commandCacheFind command.commandId command.operationId =
        some cached →
      SameCommand cached.key (Command.key command) ∧
        ∃ before, (Node.boot rel).Holds events before cached) ∧
    ∀ before payload command answers now, commandOf? payload = some command →
      ((Node.boot rel).run before).commandCacheFind command.commandId command.operationId = none →
      ((∀ after entry payload' command' answers' now',
          (Node.boot rel).Holds
            (before ++ .deliver channelControl payload answers now :: after) before entry →
          commandOf? payload' = some command' → SameCommand command.key command'.key →
          ((Node.boot rel).run
              (before ++ .deliver channelControl payload answers now :: after)).results
              (.deliver channelControl payload' answers' now') =
            ((Node.boot rel).run before).results
              (.deliver channelControl payload answers now)) ↔
        ShortResult command.text answers) := by
  constructor
  · intro events command cached hfind
    refine ⟨CommandCache.isFor_iff.mp (List.find?_some hfind), ?_⟩
    exact mem_used_run.mp (List.mem_of_find?_eq_some hfind)
  · intro before payload command answers now hcommand hnew
    have hexecutes := Node.executes_new hcommand hnew answers now
    rw [Node.results_new hcommand hnew, ← length_perform_iff ((Node.boot rel).run before)]
    constructor
    · intro hsame
      have hheld := holds_at_once hexecutes
      have hagain := hsame [] _ payload command answers now hheld hcommand (SameCommand.refl _)
      rw [Node.results_cached hcommand (find_of_holds hheld (SameCommand.refl _))] at hagain
      have htext := congrArg Prod.snd (List.cons.inj hagain).1
      have hlength := congrArg List.length htext
      simp only [cacheEntry, List.length_take] at hlength
      omega
    · intro hshort after entry payload' command' answers' now' hheld hcommand' hkey
      have hentry := executes_of_holds hheld
      rw [hexecutes] at hentry
      obtain rfl := Option.some.inj hentry
      rw [Node.results_cached hcommand' (find_of_holds hheld hkey)]
      rw [cacheEntry, List.take_of_length_le hshort]

/-- Hooks that answer with a text of 48 bytes. -/
def longHooks : HookAnswers where
  handled := true
  status := 0
  result := List.replicate 48 97
  accepted := false

/-- A retransmitted command is answered with one byte less, and the root marks its result as
changed. -/
theorem replay_cut :
    nodeLink.results (.deliver channelControl (textPayload 1 "state") longHooks 0) =
        [(0, List.replicate 48 97)] ∧
      (nodeLink.run [.deliver channelControl (textPayload 1 "state") longHooks 0]).results
          (.deliver channelControl (textPayload 1 "state") longHooks 1) =
        [(0, List.replicate 47 97)] ∧
      (entryAt (Delivery.noteCommandResult
          (Delivery.noteCommandResult ⟨List.replicate 32 none, 0⟩ 0x11 none 1 none 0
            (List.replicate 48 97) 5)
          0x11 none 1 none 0 (List.replicate 47 97) 6).slots 0).any
        Delivery.CommandResultSlot.textChanged = true := by
  refine ⟨?_, ?_, ?_⟩
  · decide +kernel
  · decide +kernel
  · decide +kernel

end KeemashCore.MeshNode
