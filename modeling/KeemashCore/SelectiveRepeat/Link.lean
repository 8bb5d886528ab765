import Mathlib.Data.Set.Lattice
import Mathlib.Order.Interval.Set.Basic
import Mathlib.Logic.Relation

/-!
# A selective-repeat link

One direction of a link that numbers its frames, acknowledges them cumulatively
and selectively, and lets either end give numbers up.  The sender holds
unacknowledged frames in `tx`; the receiver hands frames off in order, keeps
early ones in `rx`, and skips the numbers in `pend` when it reaches them.

The network may lose, repeat, delay and reorder packets.  A link therefore
records what each end has *ever* sent, and a step may consume any packet that
was sent at some time before.

A `Policy` fixes the window, the message a frame belongs to, and which of the
irregular steps an end may take.
-/

namespace SelectiveRepeat

variable {F : Type}

/-- Parameters of a link.  The frame `f` numbered `n` belongs to the message
with the numbers `lo n f` to `hi n f`. -/
structure Policy (F : Type) where
  window : ℕ
  lo : ℕ → F → ℕ
  hi : ℕ → F → ℕ
  /-- A newer frame may displace everything before it. -/
  latest : Prop
  /-- A number that is already given up may be buffered. -/
  bufferPending : Prop
  /-- A drop may move past numbers that are pending. -/
  overrun : Prop
  /-- A message that is not passed yet may expire. -/
  expireAhead : Prop
  /-- The sender may answer a request for a frame it no longer holds. -/
  disown : Prop
  /-- Either end may give numbers up. -/
  lossy : Prop

/-- The sending end. -/
structure Sender (F : Type) where
  next : ℕ
  /-- Frames that were ever stored under their number. -/
  sent : Set (ℕ × F)
  tx : Set (ℕ × F)
  /-- Frames that were ever transmitted. -/
  data : Set (ℕ × F)
  /-- Ranges that were ever announced as lost. -/
  losts : Set (ℕ × ℕ)
  /-- Numbers this end has reported lost. -/
  lost : Set ℕ

/-- The receiving end. -/
structure Receiver (F : Type) where
  exp : ℕ
  rx : Set (ℕ × F)
  pend : Set ℕ
  /-- Frames handed off, oldest first. -/
  handed : List (ℕ × F)
  /-- Acknowledgements ever sent: a cumulative number and a selective set. -/
  acks : Set (ℕ × Set ℕ)
  /-- Numbers ever asked for. -/
  nacks : Set ℕ
  /-- Ranges ever reported to the sender as dropped. -/
  drops : Set (ℕ × ℕ)
  /-- Numbers this end has reported lost. -/
  lost : Set ℕ

/-- A sender that has used no number yet. -/
def Sender.fresh : Sender F where
  next := 1
  sent := ∅
  tx := ∅
  data := ∅
  losts := ∅
  lost := ∅

/-- A receiver that has taken nothing yet. -/
def Receiver.fresh : Receiver F where
  exp := 1
  rx := ∅
  pend := ∅
  handed := []
  acks := ∅
  nacks := ∅
  drops := ∅
  lost := ∅

/-- The frames `fs` under consecutive numbers from `n`. -/
def numbered (n : ℕ) (fs : List F) : Set (ℕ × F) :=
  {x | n ≤ x.1 ∧ fs[x.1 - n]? = some x.2}

/-- The numbers that have a buffered frame. -/
def Receiver.buffered (r : Receiver F) : Set ℕ :=
  {n | ∃ f, (n, f) ∈ r.rx}

/-- The numbers handed off. -/
def Receiver.done (r : Receiver F) : Set ℕ :=
  {n | ∃ f, (n, f) ∈ r.handed}

/-! ## Steps of the sender -/

inductive Sender.Step (P : Policy F) (r : Receiver F) :
    Sender F → Sender F → Prop
  /-- A message is accepted and its frames are numbered. -/
  | submit {s : Sender F} (fs : List F)
      (hspan : ∀ x ∈ numbered s.next fs,
        P.lo x.1 x.2 = s.next ∧ P.hi x.1 x.2 + 1 = s.next + fs.length) :
      Step P r s
        { s with
          next := s.next + fs.length
          sent := s.sent ∪ numbered s.next fs
          tx := s.tx ∪ numbered s.next fs }
  /-- Numbers are used up without a frame. -/
  | burn {s : Sender F} {b : ℕ} (hb : s.next ≤ b) (hlossy : P.lossy) :
      Step P r s
        { s with
          next := b + 1
          losts := insert (s.next, b) s.losts
          lost := s.lost ∪ Set.Icc s.next b }
  | transmit {s : Sender F} {x : ℕ × F} (hx : x ∈ s.tx) :
      Step P r s { s with data := insert x s.data }
  | acked {s : Sender F} {a : ℕ} {T : Set ℕ} (h : (a, T) ∈ r.acks) :
      Step P r s { s with tx := {x ∈ s.tx | a < x.1 ∧ x.1 ∉ T} }
  /-- A frame is asked for that is no longer held. -/
  | disown {s : Sender F} {n : ℕ} (h : n ∈ r.nacks) (hP : P.disown) :
      Step P r s
        { s with
          losts := insert (n, n) s.losts
          lost := s.lost ∪ Set.Icc n n }
  /-- The receiver reported that it dropped a range. -/
  | dropped {s : Sender F} {a b : ℕ} (h : (a, b) ∈ r.drops) :
      Step P r s
        { s with
          tx := {x ∈ s.tx | x.1 ∉ Set.Icc a b}
          lost := s.lost ∪ Set.Icc a b }
  | supersede {s : Sender F} (hP : P.latest) : Step P r s { s with tx := ∅ }

/-! ## Steps of the receiver -/

/-- Hand off the frame numbered `exp`. -/
def Receiver.hand (r : Receiver F) (f : F) : Receiver F :=
  { r with exp := r.exp + 1, handed := r.handed ++ [(r.exp, f)] }

/-- Forget what is buffered in a range and report the range at both ends. -/
def Receiver.drop (r : Receiver F) (a b : ℕ) : Receiver F :=
  { r with
    rx := {x ∈ r.rx | x.1 ∉ Set.Icc a b}
    drops := insert (a, b) r.drops
    lost := r.lost ∪ Set.Icc a b }

/-- Add to what the receiver has reported. -/
def Receiver.report (r : Receiver F) (lost : Set ℕ) (drops : Set (ℕ × ℕ)) :
    Receiver F :=
  { r with lost := r.lost ∪ lost, drops := r.drops ∪ drops }

/-- A range the receiver may drop: a single frame or the whole message of a
frame it has received. -/
def Droppable (P : Policy F) (s : Sender F) (a b : ℕ) : Prop :=
  P.lossy ∧ ∃ x ∈ s.sent, (a = x.1 ∧ b = x.1) ∨
    (a = P.lo x.1 x.2 ∧ b = P.hi x.1 x.2)

inductive Receiver.Step (P : Policy F) (s : Sender F) :
    Receiver F → Receiver F → Prop
  /-- The expected frame arrives. -/
  | accept {r : Receiver F} {f : F} (hdata : (r.exp, f) ∈ s.data)
      (hrx : r.exp ∉ r.buffered) (hpend : r.exp ∉ r.pend) :
      Step P s r (r.hand f)
  /-- The expected frame is in the buffer. -/
  | take {r : Receiver F} {f : F} (hrx : (r.exp, f) ∈ r.rx) :
      Step P s r { r.hand f with rx := r.rx \ {(r.exp, f)} }
  /-- The expected number lies in a block of pending numbers. -/
  | skip {r : Receiver F} {a b : ℕ} (ha : a ≤ r.exp) (hb : r.exp ≤ b)
      (hsub : Set.Icc a b ⊆ r.pend) (hlow : ∀ n, n + 1 = a → n ∉ r.pend)
      (hhigh : b + 1 ∉ r.pend) :
      Step P s r { r with exp := b + 1, pend := r.pend \ Set.Icc a b }
  | buffer {r : Receiver F} {n : ℕ} {f : F} (hdata : (n, f) ∈ s.data)
      (hlt : r.exp < n) (hwin : n < r.exp + P.window) (hrx : n ∉ r.buffered)
      (hpend : n ∉ r.pend ∨ P.bufferPending) :
      Step P s r { r with rx := insert (n, f) r.rx }
  /-- A newer frame displaces everything before it. -/
  | jump {r : Receiver F} {n : ℕ} {f : F} (hP : P.latest)
      (hdata : (n, f) ∈ s.data) (hlt : r.exp < n) :
      Step P s r { r with exp := n, rx := ∅, pend := ∅ }
  | dropPast {r : Receiver F} {a b : ℕ} (h : Droppable P s a b)
      (hb : b < r.exp) : Step P s r (r.drop a b)
  | dropHere {r : Receiver F} {a b : ℕ} (h : Droppable P s a b)
      (ha : a ≤ r.exp) (hb : r.exp ≤ b)
      (hover : (∀ n ∈ Set.Icc a b, n ∈ r.pend → n + 1 ∈ r.pend) ∨ P.overrun) :
      Step P s r { r.drop a b with exp := b + 1 }
  | dropAhead {r : Receiver F} {a b : ℕ} (h : Droppable P s a b)
      (ha : r.exp < a) :
      Step P s r { r.drop a b with pend := r.pend ∪ Set.Icc a b }
  /-- The rest of a message did not arrive in time. -/
  | expire {r : Receiver F} {x : ℕ × F} (hx : x ∈ r.handed) (hP : P.lossy)
      (hb : P.hi x.1 x.2 < r.exp ∨ P.expireAhead) :
      Step P s r (r.report (Set.Icc (P.lo x.1 x.2) (P.hi x.1 x.2))
        {(P.lo x.1 x.2, P.hi x.1 x.2)})
  | lostPast {r : Receiver F} {a b : ℕ} (h : (a, b) ∈ s.losts)
      (hb : b < r.exp) : Step P s r (r.report (Set.Icc a b) ∅)
  | lostHere {r : Receiver F} {a b : ℕ} (h : (a, b) ∈ s.losts)
      (ha : a ≤ r.exp) (hb : r.exp ≤ b)
      (hrx : r.exp ∉ r.buffered) (hpend : r.exp ∉ r.pend) :
      Step P s r { r.report (Set.Icc a b) ∅ with exp := b + 1 }
  | lostAhead {r : Receiver F} {a b : ℕ} (h : (a, b) ∈ s.losts)
      (ha : r.exp < a) :
      Step P s r { r.report (Set.Icc a b) ∅ with pend := r.pend ∪ Set.Icc a b }
  | ack {r : Receiver F} {a : ℕ} (ha : a + 1 = r.exp) :
      Step P s r
        { r with
          acks := insert (a, r.buffered ∩ Set.Ico r.exp (r.exp + P.window)) r.acks }
  /-- A later frame has arrived, and the expected one is asked for. -/
  | nack {r : Receiver F} {a : ℕ} (ha : a + 1 = r.exp)
      (hgap : ∃ x ∈ s.data, r.exp < x.1) :
      Step P s r
        { r with
          acks := insert (a, r.buffered ∩ Set.Ico r.exp (r.exp + P.window)) r.acks
          nacks := insert r.exp r.nacks }

/-- Several steps of the receiver. -/
abbrev Receiver.Steps (P : Policy F) (s : Sender F) :
    Receiver F → Receiver F → Prop :=
  Relation.ReflTransGen (Receiver.Step P s)

/-- Several steps of the sender. -/
abbrev Sender.Steps (P : Policy F) (r : Receiver F) :
    Sender F → Sender F → Prop :=
  Relation.ReflTransGen (Sender.Step P r)

/-! ## Reports commute with steps -/

theorem Receiver.report_empty (r : Receiver F) : r.report ∅ ∅ = r := by
  simp [Receiver.report]

theorem Receiver.report_report (r : Receiver F) (A B : Set ℕ)
    (C D : Set (ℕ × ℕ)) :
    (r.report A C).report B D = r.report (A ∪ B) (C ∪ D) := by
  simp [Receiver.report, Set.union_assoc]

theorem Receiver.drop_report (r : Receiver F) (a b : ℕ) (A : Set ℕ)
    (D : Set (ℕ × ℕ)) : (r.report A D).drop a b = (r.drop a b).report A D := by
  simp [Receiver.report, Receiver.drop, Set.union_right_comm, Set.insert_union]

/-- No step of the receiver looks at what it has reported, so a report may be
made before the steps that follow it. -/
theorem Receiver.Step.report {P : Policy F} {s : Sender F} {r r' : Receiver F}
    (h : Receiver.Step P s r r') (A : Set ℕ) (D : Set (ℕ × ℕ)) :
    Receiver.Step P s (r.report A D) (r'.report A D) := by
  cases h with
  | accept hdata hrx hpend => exact .accept hdata hrx hpend
  | take hrx => exact .take (r := r.report A D) hrx
  | skip ha hb hsub hlow hhigh =>
      exact .skip (r := r.report A D) ha hb hsub hlow hhigh
  | buffer hdata hlt hwin hrx hpend =>
      exact .buffer (r := r.report A D) hdata hlt hwin hrx hpend
  | jump hP hdata hlt => exact .jump (r := r.report A D) hP hdata hlt
  | dropPast h hb =>
      have := Receiver.Step.dropPast (r := r.report A D) h hb
      rwa [Receiver.drop_report] at this
  | dropHere h ha hb hover =>
      have := Receiver.Step.dropHere (r := r.report A D) h ha hb hover
      rwa [Receiver.drop_report] at this
  | dropAhead h ha =>
      have := Receiver.Step.dropAhead (r := r.report A D) h ha
      rwa [Receiver.drop_report] at this
  | expire hx hP hb =>
      have := Receiver.Step.expire (r := r.report A D) (s := s) hx hP hb
      rw [Receiver.report_report] at this ⊢
      rwa [Set.union_comm A, Set.union_comm D] at this
  | lostPast h hb =>
      have := Receiver.Step.lostPast (P := P) (r := r.report A D) h hb
      rw [Receiver.report_report] at this ⊢
      rwa [Set.union_comm A, Set.union_comm D] at this
  | lostHere h ha hb hrx hpend =>
      have := Receiver.Step.lostHere (P := P) (r := r.report A D) h ha hb hrx hpend
      rw [Receiver.report_report, Set.union_comm A, Set.union_comm D,
        ← Receiver.report_report] at this
      exact this
  | lostAhead h ha =>
      have := Receiver.Step.lostAhead (P := P) (r := r.report A D) h ha
      rw [Receiver.report_report, Set.union_comm A, Set.union_comm D,
        ← Receiver.report_report] at this
      exact this
  | ack ha => exact .ack (r := r.report A D) ha
  | nack ha hgap => exact .nack (r := r.report A D) ha hgap

theorem Receiver.Steps.report {P : Policy F} {s : Sender F} {r r' : Receiver F}
    (h : Receiver.Steps P s r r') (A : Set ℕ) (D : Set (ℕ × ℕ)) :
    Receiver.Steps P s (r.report A D) (r'.report A D) := by
  induction h with
  | refl => exact .refl
  | tail _ hstep ih => exact ih.tail (hstep.report A D)

/-! ## The link -/

/-- One step of either end. -/
inductive Step (P : Policy F) : Sender F × Receiver F → Sender F × Receiver F → Prop
  | sender {s s' : Sender F} {r : Receiver F} (h : Sender.Step P r s s') :
      Step P (s, r) (s', r)
  | receiver {s : Sender F} {r r' : Receiver F} (h : Receiver.Step P s r r') :
      Step P (s, r) (s, r')

/-- Several steps of the link. -/
abbrev Steps (P : Policy F) :
    Sender F × Receiver F → Sender F × Receiver F → Prop :=
  Relation.ReflTransGen (Step P)

theorem Steps.sender {P : Policy F} {s s' : Sender F} {r : Receiver F}
    (h : Sender.Steps P r s s') : Steps P (s, r) (s', r) :=
  h.lift (fun s => (s, r)) fun _ _ => .sender

theorem Steps.receiver {P : Policy F} {s : Sender F} {r r' : Receiver F}
    (h : Receiver.Steps P s r r') : Steps P (s, r) (s, r') :=
  h.lift (fun r => (s, r)) fun _ _ => .receiver

/-- A property that every step keeps holds after every run. -/
theorem Steps.invariant {P : Policy F} {I : Sender F × Receiver F → Prop}
    (hstep : ∀ l l', Step P l l' → I l → I l') {l l' : Sender F × Receiver F}
    (h : Steps P l l') (hI : I l) : I l' := by
  induction h with
  | refl => exact hI
  | tail _ hlast ih => exact hstep _ _ hlast ih

end SelectiveRepeat
