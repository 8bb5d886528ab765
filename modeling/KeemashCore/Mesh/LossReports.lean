import KeemashCore.Mesh.Epoch

/-!
# When a loss is reported

Without exhausted tables and timeouts, an epoch reports a loss only because of a NACK that
asks for a frame the sender has already let go.  Such a NACK need not mean a loss: it may
have been overtaken by the acknowledgement of the frame.
-/

namespace KeemashCore.Rel

open SlotTable SelectiveRepeat

/-- Nothing is given up. -/
def Allow.truthful : Allow where
  bufferPending := True
  overrun := True
  expireAhead := True
  disown := False
  lossy := False

/-- No NACK of the binding arrives that asks for a frame not held any more. -/
def Pairing.AskedStep (l : Pairing) (s : Sys) (a : Action) : Prop :=
  l.Avoids Body.asksInVain s a

/-- No loss on the link was announced or reported at this end, or counted since `c₀`. -/
structure Bond.Truthful (b : Bond) (c₀ c : Ctx) : Prop where
  silent : ∀ sessionId srcMac lost,
    Effect.send b.key ⟨sessionId, srcMac, .lost lost⟩ ∉ c.trace
  uncounted : (c.peer b.key).lostCount = (c₀.peer b.key).lostCount
  unreported : ∀ role peer ch reason first last,
    Effect.event role b.key peer ch reason first last ∉ c.trace

section

variable {Q : Allow} {l : Pairing} {s s₀ : Sys} {b : Bond} {S : ℕ → Sender Frame}
  {R : ℕ → Receiver Frame} {c : Ctx} {ch : ℕ}

theorem Pairing.AskedStep.regular {a : Action} (h : l.AskedStep s a)
    (hspared : l.Spared (s.step a)) : l.Regular .truthful s a where
  buffers := fun h => absurd trivial h
  passes := fun h => absurd trivial h
  expires := fun h => absurd trivial h
  asks := fun _ => h
  spares := fun _ => hspared

/-- An end that gives nothing up reports nothing. -/
theorem EndOk.unreported (h : EndOk Q b S R c) (hQ : ¬Q.lossy) (role : Role) (peer : Mac)
    (ch : ℕ) (reason : LostReason) (first last : U32) :
    Effect.event role b.key peer ch reason first last ∉ c.trace := by
  intro hevent
  have hlog : Effect.event role b.key peer ch reason first last ∈ (c.slice b.key ch).log :=
    List.mem_filter.mpr ⟨hevent, by simp [Effect.concerns]⟩
  by_cases hch : Channel ch
  · have hmem : (first.toNat, last.toNat) ∈ logged (Effect.report? role) (c.slice b.key ch).log :=
      ⟨_, hlog, by simp [Effect.report?]⟩
    cases role with
    | sent =>
        rw [((h.send ch hch).lossless hQ).2] at hmem
        exact Set.notMem_empty _ hmem
    | received =>
        rw [((h.recv ch hch).lossless hQ).2] at hmem
        exact Set.notMem_empty _ hmem
  · rw [(h.outside ch hch).log] at hlog
    exact absurd hlog List.not_mem_nil

/-- An end of a link that gives nothing up announces no loss. -/
theorem Linked.silent (h : Linked Q l s) (hlossy : ¬Q.lossy) (hdisown : ¬Q.disown)
    (side : Side) (sessionId : U32) (srcMac : Mac) (lost : LostPayload) :
    Effect.send (l.key side) ⟨sessionId, srcMac, .lost lost⟩ ∉ (s.ctx side).trace := by
  intro hsent
  have hlog : Effect.send (l.key side) ⟨sessionId, srcMac, .lost lost⟩ ∈
      ((s.ctx side).slice (l.key side) lost.channelId).log :=
    List.mem_filter.mpr ⟨hsent, by simp [Effect.concerns, Body.channel?]⟩
  by_cases hch : Channel lost.channelId
  · have hsend := Steps.lossless hlossy hdisown (h.link side _ hch) lossless_fresh
    have hrecv := Steps.lossless hlossy hdisown (h.link side.other _ hch) lossless_fresh
    rw [Side.other_other] at hrecv
    have hrange : Backed (l.sender s side) (l.receiver s side) (.lost lost) :=
      backed_of_sent hsent
    rw [Backed] at hrange
    split at hrange
    · rw [hrecv.drops] at hrange
      exact Set.notMem_empty _ hrange
    · rw [hsend.losts] at hrange
      exact Set.notMem_empty _ hrange
  · rw [((h.ends side).outside _ hch).log] at hlog
    exact absurd hlog List.not_mem_nil

theorem EndOk.ctx_unreported (h : EndOk Q b S R c) (hQ : ¬Q.lossy) : c.Unreported b.key := by
  intro e he
  cases e with
  | event role key peer ch reason first last =>
      by_contra hreports
      obtain rfl : key = b.key := by simpa [Effect.reports] using hreports
      exact h.unreported hQ role peer ch reason first last he
  | _ => rfl

/-- In every epoch without exhausted tables and timeouts in which no NACK arrives for a frame
that is not held any more, no loss is announced, counted or reported at either end. -/
theorem Epoch.truthful (hopen : l.Opens s₀)
    (h : Epoch l (fun s a => l.Spared (s.step a) ∧ l.AskedStep s a) s₀ s) (side : Side) :
    (l.bond side).Truthful (s₀.ctx side) (s.ctx side) := by
  have hregular : ∀ (s : Sys) (a : Action), l.Spared (s.step a) ∧ l.AskedStep s a →
      l.Regular .truthful s a := fun s a hstep => hstep.2.regular hstep.1
  obtain ⟨hlink, -⟩ := h.linked (Q := .truthful) hopen id hregular
  refine ⟨fun sessionId srcMac lost => hlink.silent id id side sessionId srcMac lost, ?_,
    (hlink.ends side).unreported id⟩
  clear hlink
  induction h with
  | start =>
      rw [Sys.ctx_fresh]
      rfl
  | @step s a hepoch hP hkept' ih =>
      obtain ⟨hlink, hkept⟩ := hepoch.linked (Q := .truthful) hopen id hregular
      cases hact : s.acted a with
      | none =>
          rw [Sys.step_unacted hact]
          exact ih
      | some x =>
          obtain ⟨who, c⟩ := x
          have hstep := hlink.acted id hkept (hregular s a hP) hkept' hact
          rw [Sys.step_acted hact]
          rcases who.cases_other side with rfl | rfl
          · rw [Sys.ctx_setCtx]
            exact (hstep.lostCount (hstep.ok.ctx_unreported id)).trans ih
          · rw [Sys.ctx_setCtx_other]
            exact ih

end

instance (b : Bond) (c : Ctx) : Decidable (b.Spared c) :=
  inferInstanceAs (Decidable (_ ∧ _))

instance (l : Pairing) (s : Sys) : Decidable (l.Spared s) :=
  inferInstanceAs (Decidable (∀ side, (l.bond side).Spared (s.ctx side)))

instance (l : Pairing) (s : Sys) (a : Action) : Decidable (l.AskedStep s a) :=
  inferInstanceAs (Decidable (l.Avoids Body.asksInVain s a))

/-- Two frames arrive in the wrong order, and the NACK for the first one arrives at once. -/
theorem truthful_nacked :
    (smallPairing.bond .node).Truthful smallSys.node (smallSys.fresh.run
      [.call .node (.submit 0 2 [1, 2, 3] 2) 10, .call .node (.submit 0 2 [4, 5] 2) 11,
        .deliver 1 20, .deliver 1 21, .deliver 0 30]).node :=
  Epoch.truthful opens_smallSys (Epoch.start.run (by decide +kernel)) .node

/-! ## An overtaken NACK -/

/-- The second frame arrives first and is answered by a NACK, then the first one arrives and
both are acknowledged; the acknowledgement overtakes the NACK. -/
def overtakeActions : List Action :=
  [.call .node (.submit 0 2 [1, 2, 3] 2) 10, .call .node (.submit 0 2 [4, 5] 2) 11,
    .deliver 1 20, .deliver 0 21, .deliver 1 22, .deliver 0 23]

/-- A frame that was delivered is reported lost. -/
theorem reports_delivered_frame :
    ¬∀ (l : Pairing) (s₀ s : Sys), l.Opens s₀ →
      Epoch l (fun s a => l.Spared (s.step a)) s₀ s →
        ∀ side, (l.bond side).Truthful (s₀.ctx side) (s.ctx side) := by
  intro h
  have hrun : smallPairing.Runs (fun s a => smallPairing.Spared (s.step a)) smallSys.fresh
      overtakeActions := by
    decide +kernel
  have htruthful := h smallPairing smallSys _ opens_smallSys (Epoch.start.run hrun) .node
  have hcount : ((smallSys.fresh.run overtakeActions).node.peer 0).lostCount ≠
      (smallSys.node.peer 0).lostCount := by
    decide +kernel
  exact hcount htruthful.uncounted

end KeemashCore.Rel
