import XePCI.Running
import XePCI.Footprint

/-!
# The power controller answers when it likes

The other end of `FORCEWAKE_REQ` and `FORCEWAKE_ACK` is a party of its own.
It receives what is written to the request register, in order, and gets
round to each write some time later; then it sets bit 0 of the
acknowledgment to the bit that was requested. `Gt` is the driver's machine
together with that controller, and a schedule interleaves the driver's
requests with the controller's moves, so that a delay is any number of
requests.

A guard polls for the bit to be set and takes the first odd value for the
answer to its own request. It does not wait for the bit to clear before it
asks, nor after it has released. So the value may be the answer to an
earlier guard's request: one whose withdrawal the controller has not got
round to, and then the bit is cleared under a guard that has `acquired` set;
or one that was given up, whose answer comes late
(`leftover_acknowledgment`). If a guard only asks while the bit is clear and
no write that sets it is under way, then the bit a guard goes by is the
answer to its own request, and it is set until the guard is released,
whatever the delays are (`acknowledgment_held`). The writes are numbered, so
that an answer can be told from another.
-/

/-! ## The controller -/

/-- **The power controller**: the writes it has not got round to, oldest
first, and bit 0 of `FORCEWAKE_ACK`. The writes are numbered from 1 on, in the
order in which they arrive. -/
structure PowerController where
  /-- The writes under way. -/
  pending : List UInt32
  /-- Bit 0 of `FORCEWAKE_ACK`. -/
  ack : Bool
  /-- How many writes it has got round to. -/
  handled : ℕ := 0
  /-- The number of the write that the bit answers. -/
  answered : ℕ := 0
  deriving DecidableEq, Repr

/-- Whether a write to a register with a mask in its upper half is about
bit 0. -/
def asksBit (v : UInt32) : Bool := v >>> 16 &&& 1 == 1

/-- Bit 0 after a write to such a register. -/
def requestedBit (v : UInt32) (bit : Bool) : Bool := if asksBit v then v &&& 1 == 1 else bit

namespace PowerController

/-- How many writes have arrived. -/
def received (c : PowerController) : ℕ := c.handled + c.pending.length

/-- A request of the driver reaches the controller if it is a write to
`FORCEWAKE_REQ`. -/
def hears (c : PowerController) : KextOp → PowerController
  | .mmioWrite _ _ off v =>
    if off = XeHW.forcewakeReq then { c with pending := c.pending ++ [v] } else c
  | _ => c

/-- The controller gets round to the oldest write, if there is one. -/
def process (c : PowerController) : PowerController :=
  match c.pending with
  | [] => c
  | v :: pending =>
    { pending
      ack := requestedBit v c.ack
      handled := c.handled + 1
      answered := if asksBit v then c.handled + 1 else c.answered }

/-- **The bit is clear, and nothing under way sets it.** -/
def Clear (c : PowerController) : Prop :=
  c.ack = false ∧ ∀ v ∈ c.pending, requestedBit v false = false

instance (c : PowerController) : Decidable c.Clear :=
  -- by a look at the list, and not at all numbers of 32 bits
  have : Decidable (∀ v ∈ c.pending, requestedBit v false = false) := List.decidableBAll _ _
  inferInstanceAs (Decidable (_ ∧ _))

/-- **The bit answers the request with the number `n`**, the last one that has
arrived. -/
structure Answered (c : PowerController) (n : ℕ) : Prop where
  pending : c.pending = []
  ack : c.ack = true
  answered : c.answered = n

/-- **A guard's request, with the number `n`, is under way**: it is the last one
that has arrived, and the bit is clear until the controller gets round to
it. -/
structure UnderWay (c : PowerController) (n : ℕ) : Prop where
  pending : ∃ before, c.pending = before ++ [forcewakeSet]
    ∧ ∀ v ∈ before, requestedBit v false = false
  ack : c.ack = false
  number : n = c.received

/-- A request that is made while the bit is clear is under way. -/
theorem Clear.request {c : PowerController} (h : c.Clear) (path : AccessPath) (m : UInt64) :
    (c.hears (.mmioWrite path m XeHW.forcewakeReq forcewakeSet)).UnderWay (c.received + 1) := by
  refine ⟨⟨c.pending, rfl, h.2⟩, h.1, ?_⟩
  show c.handled + c.pending.length + 1 = c.handled + (c.pending ++ [forcewakeSet]).length
  rw [List.length_append]
  rfl

/-- The controller has nothing to do after the request it has answered. -/
theorem Answered.process {c : PowerController} {n : ℕ} (h : c.Answered n) : c.process = c := by
  unfold PowerController.process
  rw [h.pending]

/-- The controller gets nearer to a request that is under way, and answers
it. -/
theorem UnderWay.process {c : PowerController} {n : ℕ} (h : c.UnderWay n) :
    c.process.UnderWay n ∨ c.process.Answered n := by
  obtain ⟨⟨before, hpending, hclear⟩, hack, rfl⟩ := h
  obtain ⟨pending, ack, handled, answered⟩ := c
  obtain rfl : pending = before ++ [forcewakeSet] := hpending
  obtain rfl : ack = false := hack
  cases before with
  | nil => exact Or.inr ⟨rfl, (by decide : requestedBit forcewakeSet false = true), rfl⟩
  | cons v before =>
    rw [List.forall_mem_cons] at hclear
    refine Or.inl ⟨⟨before, rfl, hclear.2⟩, hclear.1, ?_⟩
    show handled + (before ++ [forcewakeSet]).length.succ
      = handled + 1 + (before ++ [forcewakeSet]).length
    omega

end PowerController

/-- **The driver's machine and the controller.** -/
structure Gt where
  /-- The driver's side. -/
  machine : Machine
  /-- The other side of the two registers. -/
  controller : PowerController
  /-- The number of the last request of a guard. -/
  asked : ℕ := 0

/-- The platform on which bit 0 of `FORCEWAKE_ACK` is the given one. -/
def Platform.withAckBit (P : Platform) (ack : Bool) : Platform :=
  { P with
    hw := fun hist off =>
      if off = XeHW.forcewakeAck then (P.hw hist off &&& ~~~1) ||| (if ack then 1 else 0)
      else P.hw hist off }

/-- Whether a request is a guard's request for the GT to be awake. -/
def KextOp.isGuardRequest : KextOp → Bool
  | .mmioWrite .guardRdWr _ off v => off == XeHW.forcewakeReq && v == forcewakeSet
  | _ => false

/-- **A request of the driver**: it is answered with the controller's bit,
and the controller hears of it. -/
def execGt (P : Platform) (o : KextOp) (t : Gt) : o.Resp × Gt :=
  ((exec (P.withAckBit t.controller.ack) o t.machine).1,
    { machine := (exec (P.withAckBit t.controller.ack) o t.machine).2
      controller := t.controller.hears o
      asked := if o.isGuardRequest then t.controller.received + 1 else t.asked })

/-- A move of the controller. -/
def Gt.process (_ : Unit) (t : Gt) : Gt := { t with controller := t.controller.process }

/-- A program of the driver on its way, with the controller beside it. -/
abbrev GtRunning (α : Type) : Type := Running KextOp KextOp.Resp Gt α

/-- **Guards one after another**: each is constructed, registers are read
under it, and it is destroyed. -/
def ForcewakeGuard.lifetimes (m : UInt64) : List (List UInt32) → Kext Unit
  | [] => return ()
  | offs :: rest => do
    let _values ← scope m fun _ => offs.mapM (XeCommandStream.safeRd m)
    lifetimes m rest

/-! ## What a guard goes by -/

/-- Where a guard is, in view of what it was answered. -/
inductive AckPhase where
  /-- There is no guard, or it was not acknowledged, or it was released. -/
  | idle
  /-- It has asked and has not read the bit set. -/
  | asking
  /-- It has read the bit set. -/
  | seen
  /-- It has `acquired` set. -/
  | awake
  deriving DecidableEq

/-- The phase after a request and its answer. -/
def AckPhase.next : AckPhase → (o : KextOp) → o.Resp → AckPhase
  | asking, .mmioRead .guardRdWr _ off, r =>
    if off = XeHW.forcewakeAck ∧ r &&& (1 : UInt32) ≠ 0 then seen else asking
  | _, .guardOutcome acquired, _ => if acquired then awake else idle
  | _, .mmioWrite _ _ _ v, _ => if v = forcewakeSet then asking else idle
  | φ, _, _ => φ

/-- **The monitor of a guard's acknowledgment**: a guard asks when there is
none and withdraws when it is awake, and `acquired` is set only after the
bit was read set. -/
def ackMonitor : Monitor KextOp KextOp.Resp AckPhase where
  allows φ
    | .mmioWrite path _ off v => path = .guardRdWr ∧ off = XeHW.forcewakeReq
      ∧ (φ = .idle ∧ v = forcewakeSet ∨ φ = .awake ∧ v = forcewakeClear)
    | .guardOutcome acquired => acquired = true → φ = .seen
    | _ => True
  admits _ _ _ := True
  next := AckPhase.next

namespace ForcewakeGuard

/-- The loop of `acquire` ends with `acquired` only if it has read the bit
set: by induction on the polls that are left. -/
theorem obeys_ack_poll {m : UInt64} (hm : m ≠ 0) (n : ℕ) :
    Prog.Obeys ackMonitor .asking (poll m n) (fun φ acquired => acquired = true → φ = .seen) := by
  induction n with
  | zero => exact fun h => nomatch h
  | succ n ih =>
    unfold poll rd checkedRead
    rw [if_neg hm, if_neg (by decide)]
    refine .perform_bind trivial fun ack _ => ?_
    split
    · exact fun h => nomatch h
    · split
      · rename_i hodd
        exact fun _ => if_pos ⟨rfl, hodd⟩
      · rename_i heven
        have hphase : ackMonitor.next .asking (.mmioRead .guardRdWr m XeHW.forcewakeAck) ack
            = .asking := if_neg fun h => heven h.2
        rw [hphase]
        exact ih

/-- What the constructor leaves. -/
def Made (φ : AckPhase) (fw : ForcewakeGuard) : Prop :=
  φ = (if fw.acquired then .awake else .idle) ∧ (fw.acquired = true → fw.m ≠ 0)

theorem obeys_ack_make (m : UInt64) : Prog.Obeys ackMonitor .idle (make m) Made := by
  unfold make
  split
  · exact ⟨rfl, fun h => nomatch h⟩
  rename_i hm
  refine .perform_bind trivial fun gXeBoot _ => ?_
  split
  · exact ⟨rfl, fun h => nomatch h⟩
  split
  · exact ⟨rfl, fun h => nomatch h⟩
  unfold acquire wr
  rw [if_neg hm, if_neg (by decide)]
  refine .perform_bind ⟨rfl, rfl, Or.inl ⟨rfl, rfl⟩⟩ fun _ _ => ?_
  rw [Prog.obeys_bind]
  refine (obeys_ack_poll hm 50).mono fun φ acquired hseen => ?_
  refine .perform_bind hseen fun _ _ => ⟨?_, fun _ => hm⟩
  cases φ <;> rfl

/-- The destructor withdraws the request of a guard that is awake. -/
theorem obeys_ack_destroy {φ : AckPhase} {fw : ForcewakeGuard} (h : Made φ fw) :
    Prog.Obeys ackMonitor φ fw.destroy (fun φ _ => φ = .idle) := by
  obtain ⟨m, acquired⟩ := fw
  obtain ⟨rfl, hm⟩ := h
  cases acquired with
  | false => exact rfl
  | true =>
    have hdestroy : (⟨m, true⟩ : ForcewakeGuard).destroy
        = req (.mmioWrite .guardRdWr m XeHW.forcewakeReq forcewakeClear) := by
      unfold destroy release wr
      rw [if_pos ⟨rfl, hm rfl⟩, if_neg (hm rfl), if_neg (hm rfl), if_neg (by decide)]
    rw [hdestroy]
    exact ⟨⟨rfl, rfl, Or.inr ⟨rfl, rfl⟩⟩, fun _ _ => rfl⟩

theorem obeys_ack_reads (φ : AckPhase) (m : UInt64) (offs : List UInt32) :
    Prog.Obeys ackMonitor φ (offs.mapM (XeCommandStream.safeRd m)) (fun φ' _ => φ' = φ) := by
  refine Prog.Issues.obeys (A := fun o => ∃ off, o = .mmioRead .csSafeRd m off) ?_
    (Prog.Issues.mapM fun off _ => ?_)
  · rintro _ ⟨off, rfl⟩
    exact ⟨trivial, fun _ => by cases φ <;> rfl⟩
  · unfold XeCommandStream.safeRd checkedRead
    split
    · exact Prog.issues_ret _
    · split
      · exact Prog.issues_ret _
      · exact Prog.issues_perform ⟨off, rfl⟩

/-- Guards that follow one another find none alive: by induction on them. -/
theorem obeys_ack_lifetimes (m : UInt64) (bodies : List (List UInt32)) :
    Prog.Obeys ackMonitor .idle (lifetimes m bodies) (fun φ _ => φ = .idle) := by
  induction bodies with
  | nil => exact rfl
  | cons offs rest ih =>
    unfold lifetimes scope
    simp only [Prog.obeys_bind]
    refine (obeys_ack_make m).mono fun φ fw hmade => ?_
    refine (obeys_ack_reads φ m offs).mono fun φ' _ hφ => ?_
    subst hφ
    refine (obeys_ack_destroy hmade).mono fun φ'' _ hidle => ?_
    subst hidle
    exact ih

end ForcewakeGuard

/-! ## The invariant -/

/-- **A guard asks afresh**: when it writes its request, the bit is clear and
nothing under way sets it. -/
def AsksAfresh {α : Type} (c : GtRunning α) (e : Option Unit) : Prop :=
  e = none → c.prog.next?.any KextOp.isGuardRequest = true → c.state.controller.Clear

instance {α : Type} (c : GtRunning α) (e : Option Unit) : Decidable (AsksAfresh c e) :=
  inferInstanceAs (Decidable (_ → _ → _))

/-- Whether a request sets a guard's `acquired`. -/
def KextOp.setsAcquired : KextOp → Bool
  | .guardOutcome acquired => acquired
  | _ => false

/-- A guard is about to set `acquired`, or has it set and was not released. -/
def HasAck {α : Type} (c : GtRunning α) : Prop :=
  c.prog.next?.any KextOp.setsAcquired = true ∨ GuardPhase.of c.state.machine.hist = .awake

instance {α : Type} (c : GtRunning α) : Decidable (HasAck c) := inferInstanceAs (Decidable (_ ∨ _))

/-- **The acknowledgment is held, and it is the guard's own**: from when a guard
is about to set `acquired` until it is released, bit 0 of `FORCEWAKE_ACK` is
set, and it answers the guard's own request. -/
def AckHeld {α : Type} (c : GtRunning α) : Prop :=
  HasAck c → c.state.controller.ack = true ∧ c.state.controller.answered = c.state.asked

instance {α : Type} (c : GtRunning α) : Decidable (AckHeld c) :=
  inferInstanceAs (Decidable (_ → _))

/-- **What holds in each phase**: while a guard asks, its request is under way
or was answered; once it has read the bit set, it was answered; and the history
shows a guard awake only in that phase. -/
structure Acknowledged (φ : AckPhase) (t : Gt) : Prop where
  phase : GuardPhase.of t.machine.hist = .awake → φ = .awake
  asking : φ = .asking → t.controller.UnderWay t.asked ∨ t.controller.Answered t.asked
  ack : φ = .seen ∨ φ = .awake → t.controller.Answered t.asked

theorem Acknowledged.of_idle {t : Gt} (ht : GuardPhase.of t.machine.hist ≠ .awake) :
    Acknowledged .idle t :=
  ⟨fun hawake => absurd hawake ht, fun h => (nomatch h),
    fun h => h.elim (fun h => nomatch h) fun h => nomatch h⟩

/-- The controller's moves keep it. -/
theorem Acknowledged.process {φ : AckPhase} {t : Gt} (h : Acknowledged φ t) :
    Acknowledged φ (t.process ()) := by
  have hanswered (ha : t.controller.Answered t.asked) :
      t.controller.process.Answered t.asked := ha.process.symm ▸ ha
  exact ⟨h.phase, fun hφ => (h.asking hφ).elim (·.process) (Or.inr ∘ hanswered),
    fun hφ => hanswered (h.ack hφ)⟩

/-- A poll reads the controller's bit. -/
theorem ack_of_odd {P : Platform} {t : Gt} {path : AccessPath} {m : UInt64}
    (h : (execGt P (.mmioRead path m XeHW.forcewakeAck) t).1 &&& (1 : UInt32) ≠ 0) :
    t.controller.ack = true := by
  by_contra hclear
  refine h ?_
  show (if XeHW.forcewakeAck = XeHW.forcewakeAck
    then (P.hw t.machine.hist XeHW.forcewakeAck &&& ~~~1) ||| (if t.controller.ack then 1 else 0)
    else P.hw t.machine.hist XeHW.forcewakeAck) &&& 1 = 0
  rw [if_pos rfl, if_neg hclear, UInt32.or_zero, and_not_one_and_one]

/-- The history after a request, as far as the guard is concerned. -/
theorem phase_execGt (P : Platform) (o : KextOp) (t : Gt) :
    GuardPhase.of (execGt P o t).2.machine.hist = (GuardPhase.of t.machine.hist).next o := by
  rcases exec_hist (P.withAckBit t.controller.ack) o t.machine with
    ⟨hhist, hsame⟩ | ⟨e, hhist, -, hnext, -⟩
  · show GuardPhase.of (exec _ o t.machine).2.hist = _
    rw [hhist, hsame]
  · show GuardPhase.of (exec _ o t.machine).2.hist = _
    rw [hhist, hnext]
    rfl

/-- A request that the controller does not hear of and that makes no guard
awake keeps it. -/
theorem Acknowledged.other {P : Platform} {φ : AckPhase} {o : KextOp} {t : Gt}
    (h : Acknowledged φ t)
    (hnext : (GuardPhase.of t.machine.hist).next o = .awake →
      GuardPhase.of t.machine.hist = .awake)
    (hcontroller : (execGt P o t).2.controller = t.controller)
    (hasked : (execGt P o t).2.asked = t.asked) :
    Acknowledged φ (execGt P o t).2 := by
  refine ⟨fun hawake => h.phase (hnext (phase_execGt P o t ▸ hawake)), ?_, ?_⟩
  · rw [hcontroller, hasked]
    exact h.asking
  · rw [hcontroller, hasked]
    exact h.ack

theorem GuardPhase.awake_of_afterRead {φ : GuardPhase} (h : φ.afterRead = .awake) :
    φ = .awake := by
  cases φ <;> first | rfl | exact nomatch h

/-- **The poll that a guard goes by** reads the answer to its own request: while
the request is under way, the bit is clear. -/
theorem Acknowledged.poll {P : Platform} {t : Gt} {m : UInt64} (h : Acknowledged .asking t)
    (hodd : (execGt P (.mmioRead .guardRdWr m XeHW.forcewakeAck) t).1 &&& (1 : UInt32) ≠ 0) :
    Acknowledged .seen (execGt P (.mmioRead .guardRdWr m XeHW.forcewakeAck) t).2 := by
  have hanswered : t.controller.Answered t.asked := (h.asking rfl).resolve_left fun hway =>
    Bool.false_ne_true (hway.ack.symm.trans (ack_of_odd hodd))
  refine ⟨fun hawake => ?_, fun h => (nomatch h), fun _ => hanswered⟩
  rw [phase_execGt] at hawake
  exact nomatch h.phase (GuardPhase.awake_of_afterRead hawake)

/-- **The driver's requests keep it.** -/
theorem Acknowledged.step {P : Platform} {α : Type} {c : GtRunning α} {φ : AckPhase} {o : KextOp}
    {k : o.Resp → Kext α} (hprog : c.prog = .request o k) (ho : ackMonitor.allows φ o)
    (h : Acknowledged φ c.state) (hG : AsksAfresh c none) :
    Acknowledged (φ.next o (execGt P o c.state).1) (execGt P o c.state).2 := by
  have hphase := phase_execGt P o c.state
  have hother (hφ : φ.next o (execGt P o c.state).1 = φ)
      (h' : Acknowledged φ (execGt P o c.state).2) :
      Acknowledged (φ.next o (execGt P o c.state).1) (execGt P o c.state).2 := hφ.symm ▸ h'
  cases o with
  | mmioWrite path m off v =>
    obtain ⟨rfl, rfl, ⟨rfl, rfl⟩ | ⟨rfl, rfl⟩⟩ := ho
    · -- the request of a guard
      have hclear : c.state.controller.Clear := hG rfl (by rw [hprog]; rfl)
      show Acknowledged .asking _
      refine ⟨fun hawake => ?_, fun _ => Or.inl (hclear.request .guardRdWr m), fun h => ?_⟩
      · exact nomatch (hphase.symm.trans hawake : GuardPhase.asking = .awake)
      · exact h.elim (fun h => nomatch h) fun h => nomatch h
    · exact .of_idle (ne_of_eq_of_ne hphase (by decide : GuardPhase.idle ≠ .awake))
  | guardOutcome acquired =>
    have hφ : φ.next (.guardOutcome acquired) (execGt P (.guardOutcome acquired) c.state).1
        = if acquired then .awake else .idle := by cases φ <;> rfl
    rw [hφ]
    cases acquired with
    | false => exact .of_idle (ne_of_eq_of_ne hphase (by decide : GuardPhase.idle ≠ .awake))
    | true => exact ⟨fun _ => rfl, fun h => (nomatch h), fun _ => h.ack (Or.inl (ho rfl))⟩
  | mmioRead path m off =>
    cases path with
    | guardRdWr =>
      by_cases hseen : φ = .asking ∧ off = XeHW.forcewakeAck
          ∧ (execGt P (.mmioRead .guardRdWr m off) c.state).1 &&& (1 : UInt32) ≠ 0
      · obtain ⟨rfl, rfl, hodd⟩ := hseen
        have hφ : AckPhase.next .asking (.mmioRead .guardRdWr m XeHW.forcewakeAck)
            (execGt P (.mmioRead .guardRdWr m XeHW.forcewakeAck) c.state).1 = .seen :=
          if_pos ⟨rfl, hodd⟩
        rw [hφ]
        exact h.poll hodd
      · refine hother ?_ (h.other GuardPhase.awake_of_afterRead rfl rfl)
        cases φ with
        | asking => exact if_neg fun hodd => hseen ⟨rfl, hodd⟩
        | _ => rfl
    | _ => exact hother (by cases φ <;> rfl) (h.other id rfl rfl)
  | _ => exact hother (by cases φ <;> rfl) (h.other id rfl rfl)

/-- **An acknowledged guard stays awake, by its own acknowledgment.** For guards
one after another, as many as there are, on any mapping and from any state of
the controller; for every delay of the controller's answers under which each
guard asks while the bit is clear and nothing under way sets it: from when a
guard is about to set `acquired` until it is released, bit 0 of
`FORCEWAKE_ACK` is set, and it is the answer to the guard's own request. -/
theorem acknowledgment_held (P : Platform) (t : Gt) (hidle : GuardPhase.of t.machine.hist = .idle)
    (m : UInt64) (bodies : List (List UInt32)) (sched : List (Option Unit))
    (h : Running.Along (execGt P) Gt.process AsksAfresh
      ⟨t, ForcewakeGuard.lifetimes m bodies⟩ sched) :
    AckHeld (Running.runs (execGt P) Gt.process ⟨t, ForcewakeGuard.lifetimes m bodies⟩ sched) := by
  have hstart : Acknowledged .idle t := .of_idle (hidle ▸ by decide)
  obtain ⟨φ, hobeys, hφ⟩ := h.obeys (R := Acknowledged)
    (fun _ _ _ _ hprog ho hR hG => ⟨trivial, hR.step hprog ho hG⟩)
    (fun _ _ _ hR => hR.process) (ForcewakeGuard.obeys_ack_lifetimes m bodies) hstart
  intro hhas
  have hanswered := hφ.ack (hhas.imp (fun hnext => ?_) hφ.phase)
  · exact ⟨hanswered.ack, hanswered.answered⟩
  · -- `acquired` is set only after the bit was read set
    revert hobeys hnext
    generalize (Running.runs (execGt P) Gt.process
      ⟨t, ForcewakeGuard.lifetimes m bodies⟩ sched).prog = p
    intro hobeys hnext
    cases p with
    | ret a => exact nomatch hnext
    | request o k =>
      cases o with
      | guardOutcome acquired => exact hobeys.1 hnext
      | _ => exact nomatch hnext

/-- Two guards, one after the other, and a controller with nothing to do. -/
def twoGuards : GtRunning Unit :=
  ⟨⟨.fresh, ⟨[], false, 0, 0⟩, 0⟩, ForcewakeGuard.lifetimes 0x1000 [[], []]⟩

/-- A controller that gets round to each write before the driver goes on. -/
def promptAnswers : GtRunning Unit := twoGuards.runs (execGt .ideal) Gt.process
  [none, none, some (), none, none, none, some (), none, none, some (), none, none]

/-- Then the second guard is awake, and the bit is set and answers its
request. -/
theorem acknowledgment_held_promptly :
    GuardPhase.of promptAnswers.state.machine.hist = .awake
      ∧ promptAnswers.state.controller.ack = true
      ∧ promptAnswers.state.controller.answered = promptAnswers.state.asked := by
  have hawake : GuardPhase.of promptAnswers.state.machine.hist = .awake := by decide +kernel
  have hheld : AckHeld promptAnswers := acknowledgment_held .ideal
    ⟨.fresh, ⟨[], false, 0, 0⟩, 0⟩ rfl 0x1000 [[], []]
    [none, none, some (), none, none, none, some (), none, none, some (), none, none]
    (by decide +kernel)
  exact ⟨hawake, hheld (Or.inr hawake)⟩

/-- The controller is late with the first guard's withdrawal: the second guard
asks, polls and reads the bit that answers the first guard's request; then the
controller gets round to the withdrawal. -/
def lateWithdrawal : GtRunning Unit := twoGuards.runs (execGt .ideal) Gt.process
  [none, none, some (), none, none, none, none, none, none, none, some ()]

/-- The controller is late with the first guard's request, which is given up
after 50 polls: it gets round to it when the second guard has asked. -/
def lateAnswer : GtRunning Unit := twoGuards.runs (execGt .ideal) Gt.process
  (List.replicate 55 none ++ [some (), none, none])

/-- **A leftover acknowledgment.** The second guard has `acquired` set and the
bit is clear under it; or the bit is set, and answers the first guard's request
and not the second one's. -/
theorem leftover_acknowledgment :
    (GuardPhase.of lateWithdrawal.state.machine.hist = .awake
        ∧ lateWithdrawal.state.controller.ack = false ∧ ¬AckHeld lateWithdrawal)
      ∧ GuardPhase.of lateAnswer.state.machine.hist = .awake
      ∧ lateAnswer.state.controller.answered = 1 ∧ lateAnswer.state.asked = 2
      ∧ ¬AckHeld lateAnswer := by
  decide +kernel
