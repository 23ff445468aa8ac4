import XePCI.UserClient

/-!
# What the driver touches, and when

The accesses a request may make are known from the request alone: its
accessor, its offset and, for a write, its value. That is a `Touch`. When
it may be made is said by the phase of the forcewake guard (`GuardPhase`),
which is read off the history. What a function may touch in which phase is
then a predicate `F`, and the driver keeps to such predicates on every
path, whatever the hardware answers.

The argument has two halves. Down at the machine, `exec_hist` says once
what a request can add to the history. Up at the programs, the monitor
`footprint` lets a function make the accesses that `F` allows, and lets it
count on the answers that do not change between bring-up and shutdown – the
boot flags and the mapping – and on what is assumed of the answer to a
guard's first poll. `Prog.Obeys.within` joins the halves, and the rest of
the module walks through the driver's functions once, for every `F`:
`obeys_bringUp` and `obeys_call` are what the safety modes are read off.

A mapping that is null is one of the cases: then nothing is touched.
-/

/-- **An access**, as the driver decides it: what the hardware answers is
not part of it. -/
structure Touch where
  /-- The accessor. -/
  path : AccessPath
  /-- The offset. -/
  off : UInt32
  /-- The value, for a write. -/
  written : Option UInt32 := none
  deriving DecidableEq, Repr

/-- The access an event is. -/
def MmioEvent.touch? : MmioEvent → Option Touch
  | .read path off _ => some { path, off }
  | .write path off val => some { path, off, written := some val }
  | .guardOutcome _ => none

/-- The reads and writes of a history. -/
def accesses (hist : List MmioEvent) : List MmioEvent := hist.filter (·.touch?.isSome)

/-- Where a forcewake guard is in its life. -/
inductive GuardPhase where
  /-- There is no guard, or it was not acknowledged, or it was released. -/
  | idle
  /-- The request is written and not yet polled for. -/
  | asking
  /-- It was polled for. -/
  | polling
  /-- The guard has `acquired` set and was not released. -/
  | awake
  deriving DecidableEq, Repr

namespace GuardPhase

/-- The phase after a write through `ForcewakeGuard::wr`. -/
def afterWrite (φ : GuardPhase) (off val : UInt32) : GuardPhase :=
  if off = XeHW.forcewakeReq ∧ val = forcewakeSet then asking
  else if off = XeHW.forcewakeReq ∧ val = forcewakeClear then idle
  else φ

/-- The phase after a read through `ForcewakeGuard::rd`. -/
def afterRead : GuardPhase → GuardPhase
  | asking => polling
  | φ => φ

/-- The phase in which `acquire` leaves the guard. -/
def ofAcquired (acquired : Bool) : GuardPhase := if acquired then awake else idle

/-- The phase after an event. -/
def after (φ : GuardPhase) : MmioEvent → GuardPhase
  | .read .guardRdWr _ _ => φ.afterRead
  | .write .guardRdWr off val => φ.afterWrite off val
  | .guardOutcome acquired => ofAcquired acquired
  | _ => φ

/-- **The phase a history leaves the guard in.** -/
def of : List MmioEvent → GuardPhase
  | [] => idle
  | e :: hist => (of hist).after e

/-- The phase after a request. -/
def next (φ : GuardPhase) : KextOp → GuardPhase
  | .mmioRead .guardRdWr _ _ => φ.afterRead
  | .mmioWrite .guardRdWr _ off val => φ.afterWrite off val
  | .guardOutcome acquired => ofAcquired acquired
  | _ => φ

end GuardPhase

namespace KextOp

/-- The access a request may make. -/
def touch? : KextOp → Option Touch
  | readRegSafe off => some { path := .readReg, off }
  | mmioRead path _ off => some { path, off }
  | mmioWrite path _ off val => some { path, off, written := some val }
  | _ => none

/-- Whether a request leaves the flags, the mapping and its length alone
and does not pass a raw access off as one of `readReg`. -/
def keepsSetup : KextOp → Bool
  | storeBoot _ | setBar0Length _ | setMmio _ => false
  | mmioRead .readReg _ _ | mmioWrite .readReg _ _ _ => false
  | _ => true

/-- The answers that are fixed by the flags, the mapping and what is
assumed of a first poll. -/
def Answers (g : XeBootFlags) (m : UInt64) (ack : UInt32 → Prop) (φ : GuardPhase) :
    (o : KextOp) → o.Resp → Prop
  | loadBoot, r => r = g
  | getMmio, r => r = m
  | mmioRead _ _ off, r => φ = .asking → off = XeHW.forcewakeAck → ack r
  | _, _ => True

/-- Whether a request leaves the history alone. -/
def quiet : KextOp → Bool
  | readRegSafe _ | mmioRead _ _ _ | mmioWrite _ _ _ _ | guardOutcome _ => false
  | _ => true

/-- A quiet request makes no access. -/
theorem touch?_of_quiet {o : KextOp} (h : o.quiet = true) : o.touch? = none := by
  cases o <;> first | rfl | exact absurd h Bool.false_ne_true

/-- A quiet request is no step of a guard. -/
theorem next_of_quiet {o : KextOp} (h : o.quiet = true) (φ : GuardPhase) : φ.next o = φ := by
  cases o <;> first | rfl | exact absurd h Bool.false_ne_true

end KextOp

/-! ## What a request adds to the history -/

section Exec

variable (P : Platform)

/-- A quiet request adds nothing. -/
theorem exec_hist_of_quiet {o : KextOp} (h : o.quiet = true) (s : Machine) :
    (exec P o s).2.hist = s.hist := by
  cases o with
  | setObject md => rw [setObject_eq]
  | getObject i => rw [getObject_eq]
  | withOptions capacity => rw [withOptions_eq]
  | _ => first | rfl | exact absurd h Bool.false_ne_true

/-- **What a request can add to the history**: nothing, or one event, which
is the access the request asks for and moves the guard as the request
does. An access through `readReg` lies below the length of the BAR. -/
theorem exec_hist (o : KextOp) (s : Machine) :
    ((exec P o s).2.hist = s.hist ∧ ∀ φ, GuardPhase.next φ o = φ)
      ∨ ∃ e : MmioEvent, (exec P o s).2.hist = e :: s.hist ∧ e.touch? = o.touch?
        ∧ (∀ φ, GuardPhase.next φ o = φ.after e)
        ∧ ∀ off, o = .readRegSafe off → s.bar0Length ≠ 0 →
          off.toUInt64 < s.bar0Length := by
  cases o with
  | readRegSafe off =>
    rcases readRegSafe_cases P s off with ⟨v, hrun⟩ | ⟨hread, hrun⟩
    · rw [hrun]
      exact Or.inl ⟨rfl, fun _ => rfl⟩
    · rw [hrun]
      refine Or.inr ⟨_, rfl, rfl, fun _ => rfl, ?_⟩
      intro off' hoff hne
      cases hoff
      exact s.lt_length_of_sentinel hread hne
  | mmioRead path m off =>
    refine Or.inr ⟨_, rfl, rfl, fun _ => ?_, fun _ h => nomatch h⟩
    cases path <;> rfl
  | mmioWrite path m off val =>
    refine Or.inr ⟨_, rfl, rfl, fun _ => ?_, fun _ h => nomatch h⟩
    cases path <;> rfl
  | guardOutcome acquired =>
    exact Or.inr ⟨_, rfl, rfl, fun _ => rfl, fun _ h => nomatch h⟩
  | _ => exact Or.inl ⟨exec_hist_of_quiet P rfl s, fun _ => rfl⟩

/-- The history only grows. -/
theorem hist_suffix_run {α : Type} (p : Kext α) (s : Machine) :
    s.hist <:+ (p.run (exec P) s).2.hist := by
  refine Prog.run_rel (exec P) (R := fun s t => s.hist <:+ t.hist)
    (fun s => List.suffix_refl _) (fun h h' => h.trans h') (fun o s => ?_) p s
  rcases exec_hist P o s with ⟨h, -⟩ | ⟨e, h, -⟩
  · exact h ▸ List.suffix_refl s.hist
  · exact h ▸ List.suffix_cons e s.hist

/-- **Something happened** on the way from one state to a later one: an
event with the property `X`. -/
def Happened (X : MmioEvent → Prop) (s s' : Machine) : Prop :=
  ∃ e h, X e ∧ s.hist <:+ h ∧ e :: h <:+ s'.hist

theorem Happened.mem {X : MmioEvent → Prop} {s s' : Machine} (h : Happened X s s') :
    ∃ e ∈ s'.hist, X e := by
  obtain ⟨e, h, hX, -, hsuf⟩ := h
  exact ⟨e, hsuf.subset List.mem_cons_self, hX⟩

variable {P} {α β : Type} {p : Kext α} {f : α → Kext β} {X : MmioEvent → Prop} {s : Machine}

/-- What the first of two programs did happened in the two. -/
theorem Happened.bind_left (h : Happened X s (p.run (exec P) s).2) :
    Happened X s ((p >>= f).run (exec P) s).2 := by
  obtain ⟨e, h, hX, hbase, hsuf⟩ := h
  rw [Prog.run_bind]
  exact ⟨e, h, hX, hbase, hsuf.trans (hist_suffix_run P _ _)⟩

/-- What the second of two programs did happened in the two. -/
theorem Happened.bind_right
    (h : Happened X (p.run (exec P) s).2
      ((f (p.run (exec P) s).1).run (exec P) (p.run (exec P) s).2).2) :
    Happened X s ((p >>= f).run (exec P) s).2 := by
  obtain ⟨e, h, hX, hbase, hsuf⟩ := h
  rw [Prog.run_bind]
  exact ⟨e, h, hX, (hist_suffix_run P p s).trans hbase, hsuf⟩

/-- A dword read happens. -/
theorem happened_readDword (s : Machine) {path : AccessPath} {off : UInt32}
    (hX : X (.read path off (P.hw s.hist off))) :
    Happened X s (s.readDword P path off).2 :=
  ⟨_, s.hist, hX, List.suffix_refl _, List.suffix_refl _⟩

theorem happened_checkedRead {path : AccessPath} {m : UInt64} (hm : m ≠ 0) {off : UInt32}
    (hoff : ¬kMaxSafeMmioOffset < off) (s : Machine)
    (hX : X (.read path off (P.hw s.hist off))) :
    Happened X s ((checkedRead path m off).run (exec P) s).2 := by
  rw [run_checkedRead P s path hm hoff]
  exact happened_readDword s hX

end Exec

/-! ## The footprint monitor -/

/-- **The monitor of a footprint**: the flags and the mapping are the given
ones, a first poll is answered as assumed, only the accesses that `F`
allows in the current phase are made, and a guard learns its outcome after
it has polled. -/
def footprint (g : XeBootFlags) (m : UInt64) (ack : UInt32 → Prop)
    (F : GuardPhase → Touch → Prop) : Monitor KextOp KextOp.Resp GuardPhase where
  allows φ o := o.keepsSetup = true ∧ (∀ t, o.touch? = some t → F φ t)
    ∧ ∀ b, o = .guardOutcome b → φ = .polling
  admits φ o r := o.Answers g m ack φ r
  next φ o _ := φ.next o

/-- **The flags, the mapping and its length are the given ones, and since
the history was `h₀` every access was allowed** in the phase it was made
in. An access through `readReg` lay below the length, if that is not `0`. -/
structure Machine.Within (g : XeBootFlags) (m L : UInt64)
    (F : GuardPhase → Touch → Prop) (h₀ : List MmioEvent) (φ : GuardPhase)
    (s : Machine) : Prop where
  /-- The flags. -/
  boot : s.gXeBoot = g
  /-- The mapping. -/
  mmio : s.mmio = m
  /-- Its length. -/
  length : s.bar0Length = L
  /-- The phase the guard is in. -/
  phase : GuardPhase.of s.hist = φ
  /-- The accesses are the allowed ones. -/
  allowed : ∀ e h, e :: h <:+ s.hist → h₀ <:+ h →
    ∀ t, e.touch? = some t → F (GuardPhase.of h) t
  /-- The accesses through `readReg` are below the length. -/
  bounded : L ≠ 0 → ∀ e h, e :: h <:+ s.hist → h₀ <:+ h →
    ∀ t, e.touch? = some t → t.path = .readReg → t.off.toUInt64 < L

/-- A request that keeps the setup keeps the flags, the mapping and its
length. -/
theorem exec_setup (P : Platform) {o : KextOp} (h : o.keepsSetup = true) (s : Machine) :
    (exec P o s).2.gXeBoot = s.gXeBoot ∧ (exec P o s).2.mmio = s.mmio
      ∧ (exec P o s).2.bar0Length = s.bar0Length := by
  cases o with
  | setObject md =>
    rw [setObject_eq]
    exact ⟨rfl, rfl, rfl⟩
  | getObject i =>
    rw [getObject_eq]
    exact ⟨rfl, rfl, rfl⟩
  | withOptions capacity =>
    rw [withOptions_eq]
    exact ⟨rfl, rfl, rfl⟩
  | readRegSafe off =>
    rw [readRegSafe_eq]
    exact ⟨rfl, rfl, rfl⟩
  | _ => first | exact ⟨rfl, rfl, rfl⟩ | exact absurd h Bool.false_ne_true

/-- The hardware answers the first poll of a request as assumed. -/
def Platform.FirstPoll (P : Platform) (ack : UInt32 → Prop) : Prop :=
  ∀ h, GuardPhase.of h = .asking → ack (P.hw h XeHW.forcewakeAck)

/-- Nothing need be assumed of a first poll. -/
theorem Platform.firstPoll_true (P : Platform) : P.FirstPoll (fun _ => True) :=
  fun _ _ => trivial

/-- The answers of a machine are those its flags and its mapping fix. -/
theorem exec_answers {P : Platform} {ack : UInt32 → Prop} (hP : P.FirstPoll ack)
    (o : KextOp) (s : Machine) :
    o.Answers s.gXeBoot s.mmio ack (GuardPhase.of s.hist) (exec P o s).1 := by
  cases o with
  | mmioRead path m off =>
    rintro hφ rfl
    exact hP s.hist hφ
  | _ => trivial

/-- Where nothing is assumed of a first poll, they are so in any phase. -/
theorem exec_answers_true (P : Platform) (o : KextOp) (s : Machine) (φ : GuardPhase) :
    o.Answers s.gXeBoot s.mmio (fun _ => True) φ (exec P o s).1 := by
  cases o with
  | mmioRead path m off => exact fun _ _ => trivial
  | _ => trivial

/-- A request of `readReg`'s path is one of `readReg`. -/
theorem KextOp.eq_readRegSafe {o : KextOp} (ho : o.keepsSetup = true) {t : Touch}
    (ht : o.touch? = some t) (hpath : t.path = .readReg) : o = .readRegSafe t.off := by
  cases o with
  | readRegSafe off => cases ht; rfl
  | mmioRead path m off =>
    cases ht
    cases hpath
    exact absurd ho Bool.false_ne_true
  | mmioWrite path m off val =>
    cases ht
    cases hpath
    exact absurd ho Bool.false_ne_true
  | _ => exact nomatch ht

section Within

variable {P : Platform} {g : XeBootFlags} {m L : UInt64} {ack : UInt32 → Prop}
  {F : GuardPhase → Touch → Prop} {h₀ : List MmioEvent} {φ : GuardPhase} {s : Machine}

/-- Nothing has been done since now. -/
theorem Machine.within_self (s : Machine) (F : GuardPhase → Touch → Prop) :
    s.Within s.gXeBoot s.mmio s.bar0Length F s.hist (GuardPhase.of s.hist) := by
  -- an event after the whole history would make the history longer than itself
  have hnone : ∀ e h, e :: h <:+ s.hist → ¬s.hist <:+ h := fun e h he hh => by
    have := he.length_le
    have := hh.length_le
    simp only [List.length_cons] at *
    omega
  exact ⟨rfl, rfl, rfl, rfl, fun e h he hh => absurd hh (hnone e h he),
    fun _ e h he hh => absurd hh (hnone e h he)⟩

/-- **One step of the footprint monitor** keeps `Machine.Within`. -/
theorem Machine.Within.exec (hs : s.Within g m L F h₀ φ) {o : KextOp}
    (ho : (footprint g m ack F).allows φ o) :
    (exec P o s).2.Within g m L F h₀ (φ.next o) := by
  obtain ⟨hboot, hmmio, hlen⟩ := exec_setup P ho.1 s
  rcases exec_hist P o s with ⟨hh, hnext⟩ | ⟨e', hh, htouch, hnext, hbound⟩
  · refine ⟨hboot.trans hs.boot, hmmio.trans hs.mmio, hlen.trans hs.length, ?_, ?_, ?_⟩
    · rw [hh, hnext, hs.phase]
    · rw [hh]
      exact hs.allowed
    · rw [hh]
      exact hs.bounded
  · refine ⟨hboot.trans hs.boot, hmmio.trans hs.mmio, hlen.trans hs.length, ?_, ?_, ?_⟩
    · rw [hh, hnext, ← hs.phase]
      rfl
    · intro e h he hbase t ht
      rw [hh] at he
      rcases List.suffix_cons_iff.mp he with heq | he
      · cases heq
        rw [hs.phase]
        exact ho.2.1 t (htouch ▸ ht)
      · exact hs.allowed e h he hbase t ht
    · intro hL e h he hbase t ht hpath
      rw [hh] at he
      rcases List.suffix_cons_iff.mp he with heq | he
      · cases heq
        have hop := KextOp.eq_readRegSafe ho.1 (htouch ▸ ht) hpath
        have hlt := hbound t.off hop (hs.length ▸ hL)
        rwa [hs.length] at hlt
      · exact hs.bounded hL e h he hbase t ht hpath

/-- **From a footprint to every run**: a program that obeys the footprint
monitor makes allowed accesses only. -/
theorem Prog.Obeys.within {α : Type} {p : Kext α} {Q : GuardPhase → α → Prop}
    (h : Prog.Obeys (footprint g m ack F) φ p Q) (hP : P.FirstPoll ack)
    (hs : s.Within g m L F h₀ φ) :
    ∃ φ', (p.run (exec P) s).2.Within g m L F h₀ φ' ∧ Q φ' (p.run (exec P) s).1 := by
  have hstep : ∀ (φ : GuardPhase) (o : KextOp) (s : Machine),
      (footprint g m ack F).allows φ o → s.Within g m L F h₀ φ →
        (footprint g m ack F).admits φ o (exec P o s).1
          ∧ (exec P o s).2.Within g m L F h₀ (φ.next o) := by
    intro φ o s ho hs
    have hans := exec_answers hP o s
    rw [hs.boot, hs.mmio, hs.phase] at hans
    exact ⟨hans, hs.exec ho⟩
  exact h.run hstep hs

/-- A program that obeys some footprint leaves the setup alone. -/
theorem Prog.Obeys.setup {α : Type} {p : Kext α} {Q : GuardPhase → α → Prop}
    (h : Prog.Obeys (footprint s.gXeBoot s.mmio (fun _ => True) F)
      (GuardPhase.of s.hist) p Q) :
    (p.run (exec P) s).2.gXeBoot = s.gXeBoot ∧ (p.run (exec P) s).2.mmio = s.mmio
      ∧ (p.run (exec P) s).2.bar0Length = s.bar0Length := by
  obtain ⟨φ, hrun, -⟩ := h.within P.firstPoll_true (s.within_self F)
  exact ⟨hrun.boot, hrun.mmio, hrun.length⟩

end Within

/-! ## The footprints of the driver's functions

Each is a list: the phases and the accesses that are made in them. -/

/-- An answer to a poll that sets `acquired`. -/
def ForcewakeGuard.Acknowledges (ack : UInt32) : Prop :=
  ¬IsErrorValue ack ∧ ack &&& 1 ≠ 0

/-- The reads of a list of registers through one accessor. -/
def readTouches (φ : GuardPhase) (path : AccessPath) (offs : List UInt32) :
    List (GuardPhase × Touch) :=
  offs.map fun off => (φ, { path, off })

/-- What a forcewake guard touches. -/
def guardTouches : List (GuardPhase × Touch) :=
  [(.idle, { path := .guardRdWr, off := XeHW.forcewakeReq, written := some forcewakeSet }),
    (.asking, { path := .guardRdWr, off := XeHW.forcewakeAck }),
    (.polling, { path := .guardRdWr, off := XeHW.forcewakeAck }),
    (.awake, { path := .guardRdWr, off := XeHW.forcewakeReq, written := some forcewakeClear })]

/-- The ring registers `logRcs0State` reads. -/
def ringRegs : List UInt32 :=
  [XeHW.rcs0RingHead, XeHW.rcs0RingTail, XeHW.rcs0RingCtl, XeHW.rcs0MiMode, XeHW.gfxMode]

/-- **What `logRcs0State` touches.** It reads the ring registers whether or
not its guard was acknowledged; `acked` says that a guard always is. -/
def rcs0Touches (g : XeBootFlags) (acked : Bool) : List (GuardPhase × Touch) :=
  if g.disableCommandStream || g.strictSafe then []
  else if g.disableForcewake then readTouches .idle .csSafeRd ringRegs
  else guardTouches ++ readTouches .awake .csSafeRd ringRegs
    ++ if acked then [] else readTouches .idle .csSafeRd ringRegs

/-- The registers the GGTT probe reads. -/
def probeRegs : List UInt32 :=
  [XeHW.pgtblCtl, XeHW.hswPwrWellCtl1, XeHW.hswPwrWellCtl2, XeHW.fenceStart 0, XeHW.fenceEnd 0]

/-- **What `start` touches** once the BAR is mapped. -/
def startTouches (g : XeBootFlags) : List (GuardPhase × Touch) :=
  readTouches .idle .startRaw XeService.samplerOffs ++
    if g.strictSafe then []
    else readTouches .idle .readReg XeService.powerStateRegs
      ++ readTouches .idle .ggttSafeRead probeRegs
      ++ readTouches .idle .readReg XeService.displayStateRegs

/-- The registers a call reads through `readReg`: those of its entry of the
table, if it is accepted for one that reads registers. -/
def Call.regs (c : Call) : List UInt32 :=
  match c.args with
  | none => []
  | some a =>
    if c.client.providerSvc = true ∧ a.scalarInputCount = 0 ∧ a.scalarOutputCount = 8 then
      XeUserClient.regsOf c.selector
    else []

/-- **What a call touches** on a mapping that is not null. -/
def Call.touches (g : XeBootFlags) (acked : Bool) (c : Call) : List (GuardPhase × Touch) :=
  rcs0Touches g acked ++ readTouches .idle .readReg c.regs

theorem Call.Accepted.regs_eq {c : Call} {k : UInt32} {a : IOExternalMethodArguments}
    (hc : c.Accepted k 0 8 a) : c.regs = XeUserClient.regsOf k := by
  unfold regs
  rw [hc.args]
  dsimp only
  rw [if_pos ⟨hc.providerSvc, hc.inputs, hc.outputs⟩, hc.selector]

/-- A list of reads is allowed if each of them is. -/
theorem forall_mem_readTouches {F : GuardPhase → Touch → Prop} {φ : GuardPhase}
    {path : AccessPath} {offs : List UInt32} :
    (∀ p ∈ readTouches φ path offs, F p.1 p.2) ↔ ∀ off ∈ offs, F φ { path, off } := by
  unfold readTouches
  rw [List.forall_mem_map]

/-- What a call touches is allowed if the ring's part and the registers
are. -/
theorem forall_mem_touches {F : GuardPhase → Touch → Prop} {g : XeBootFlags} {acked : Bool}
    {c : Call} : (∀ p ∈ c.touches g acked, F p.1 p.2)
      ↔ (∀ p ∈ rcs0Touches g acked, F p.1 p.2)
        ∧ ∀ off ∈ c.regs, F .idle { path := .readReg, off } := by
  unfold Call.touches
  rw [List.forall_mem_append, forall_mem_readTouches]

/-- **The requests of a creation** for which `sz` bytes are allocated: the
registry and the descriptor are all it deals with. -/
def KextOp.Creates (sz : UInt32) : KextOp → Prop
  | hasBoList | setObject _ | release _ | getCount | getBytesNoCopy _ => True
  | withOptions capacity => capacity = sz
  | _ => False

/-- None of them is an access, a step of a guard or a change of the setup. -/
theorem KextOp.Creates.quiet {sz : UInt32} {o : KextOp} (h : o.Creates sz) :
    o.keepsSetup = true ∧ o.quiet = true := by
  cases o <;> first | exact ⟨rfl, rfl⟩ | exact h.elim

theorem XeService.issues_ucCreateBuffer (bytes : UInt32) :
    (ucCreateBuffer bytes).Issues (KextOp.Creates (pageAlign bytes)) := by
  refine Prog.Issues.bind (Prog.issues_perform trivial) fun ready => ?_
  split
  · exact Prog.issues_ret _
  refine Prog.Issues.bind (Prog.issues_perform rfl) fun md => ?_
  cases md with
  | none => exact Prog.issues_ret _
  | some md =>
    refine Prog.Issues.bind (Prog.issues_perform trivial) fun added => ?_
    split
    · exact Prog.Issues.bind (Prog.issues_perform trivial) fun _ => Prog.issues_ret _
    refine Prog.Issues.bind (Prog.issues_perform trivial) fun _ => ?_
    exact Prog.Issues.bind (Prog.issues_perform trivial) fun _ => Prog.issues_ret _

section Obeys

variable {g : XeBootFlags} {m : UInt64} {ack : UInt32 → Prop}
  {F : GuardPhase → Touch → Prop} {φ : GuardPhase}

/-- A request that is neither an access nor a step of a guard may be made
at any time, and leaves the phase as it is. -/
theorem footprint_of_quiet {o : KextOp} (hk : o.keepsSetup = true) (hq : o.quiet = true) :
    (footprint g m ack F).allows φ o ∧ ∀ r, (footprint g m ack F).next φ o r = φ := by
  refine ⟨⟨hk, fun t ht => ?_, fun b hb => ?_⟩, fun _ => KextOp.next_of_quiet hq φ⟩
  · rw [KextOp.touch?_of_quiet hq] at ht
    exact nomatch ht
  · rw [hb] at hq
    exact absurd hq Bool.false_ne_true

theorem obeys_req {o : KextOp} {Q : GuardPhase → o.Resp → Prop}
    (hk : o.keepsSetup = true) (hq : o.quiet = true)
    (hQ : ∀ r, o.Answers g m ack φ r → Q φ r) :
    Prog.Obeys (footprint g m ack F) φ (req o) Q := by
  have hquiet : (footprint g m ack F).allows φ o ∧ ∀ r, (footprint g m ack F).next φ o r = φ :=
    footprint_of_quiet hk hq
  refine ⟨hquiet.1, fun r hr => ?_⟩
  rw [hquiet.2 r]
  exact hQ r hr

theorem obeys_readReg {off : UInt32} {Q : GuardPhase → UInt32 → Prop}
    (h : F φ { path := .readReg, off }) (hQ : ∀ r, Q φ r) :
    Prog.Obeys (footprint g m ack F) φ (XeService.readReg off) Q := by
  refine ⟨⟨rfl, fun t ht => ?_, fun _ h => nomatch h⟩, fun r _ => hQ r⟩
  cases ht
  exact h

/-- The accessors of `XeGGTT` and `XeCommandStream`. -/
theorem obeys_checkedRead {path : AccessPath} {off : UInt32}
    {Q : GuardPhase → UInt32 → Prop} (hpath : path = .ggttSafeRead ∨ path = .csSafeRd)
    (h : F φ { path, off }) (hQ : ∀ r, Q φ r) :
    Prog.Obeys (footprint g m ack F) φ (checkedRead path m off) Q := by
  unfold checkedRead
  split
  · exact hQ _
  · split
    · exact hQ _
    · rcases hpath with rfl | rfl
      all_goals
        refine ⟨⟨rfl, fun t ht => ?_, fun _ h => nomatch h⟩, fun r _ => hQ r⟩
        cases ht
        exact h

/-- A poll of a guard. -/
theorem obeys_rd_ack (hm : m ≠ 0) {Q : GuardPhase → UInt32 → Prop}
    (h : F φ { path := .guardRdWr, off := XeHW.forcewakeAck })
    (hQ : ∀ r, (φ = .asking → ack r) → Q φ.afterRead r) :
    Prog.Obeys (footprint g m ack F) φ (ForcewakeGuard.rd m XeHW.forcewakeAck) Q := by
  unfold ForcewakeGuard.rd checkedRead
  rw [if_neg hm, if_neg (by decide)]
  refine ⟨⟨rfl, fun t ht => ?_, fun _ h => nomatch h⟩, fun r hr => hQ r fun hφ => hr hφ rfl⟩
  cases ht
  exact h

/-- A write of a guard. -/
theorem obeys_wr_req (hm : m ≠ 0) {v : UInt32} {Q : GuardPhase → Unit → Prop}
    (h : F φ { path := .guardRdWr, off := XeHW.forcewakeReq, written := some v })
    (hQ : Q (φ.afterWrite XeHW.forcewakeReq v) ()) :
    Prog.Obeys (footprint g m ack F) φ (ForcewakeGuard.wr m XeHW.forcewakeReq v) Q := by
  unfold ForcewakeGuard.wr
  rw [if_neg hm, if_neg (by decide)]
  refine ⟨⟨rfl, fun t ht => ?_, fun _ h => nomatch h⟩, fun _ _ => hQ⟩
  cases ht
  exact h

/-- The polling loop after its first poll, by induction on the iterations
that are left. -/
theorem obeys_poll (hm : m ≠ 0) {Q : GuardPhase → Bool → Prop}
    (h : F .polling { path := .guardRdWr, off := XeHW.forcewakeAck })
    (hQ : ∀ b, Q .polling b) (n : ℕ) :
    Prog.Obeys (footprint g m ack F) .polling (ForcewakeGuard.poll m n) Q := by
  induction n with
  | zero => exact hQ false
  | succ n ih =>
    rw [ForcewakeGuard.poll, Prog.obeys_bind]
    refine obeys_rd_ack hm h fun r _ => ?_
    split
    · exact hQ false
    · split
      · exact hQ true
      · exact ih

/-- `acquire`: asked for, polled for, and decided. -/
theorem obeys_acquire (hm : m ≠ 0) (hF : ∀ p ∈ guardTouches, F p.1 p.2)
    {Q : GuardPhase → ForcewakeGuard → Prop}
    (hQ : ∀ b, (b = false → ¬∀ r, ack r → ForcewakeGuard.Acknowledges r) →
      Q (.ofAcquired b) ⟨m, b⟩) :
    Prog.Obeys (footprint g m ack F) .idle (ForcewakeGuard.acquire m) Q := by
  simp only [guardTouches, List.forall_mem_cons] at hF
  obtain ⟨hset, hfirst, hagain, -⟩ := hF
  have houtcome : ∀ b, (b = false → ¬∀ r, ack r → ForcewakeGuard.Acknowledges r) →
      Prog.Obeys (footprint g m ack F) .polling
        (do req (.guardOutcome b); return (⟨m, b⟩ : ForcewakeGuard)) Q :=
    fun b hb => ⟨⟨rfl, fun t h => absurd h (Option.some_ne_none t).symm, fun _ _ => rfl⟩,
      fun _ _ => hQ b hb⟩
  unfold ForcewakeGuard.acquire
  rw [Prog.obeys_bind]
  refine obeys_wr_req hm hset ?_
  -- the first poll is the one whose answer is assumed something of
  show Prog.Obeys _ .asking (ForcewakeGuard.poll m (49 + 1) >>= _) Q
  rw [ForcewakeGuard.poll, Prog.obeys_bind, Prog.obeys_bind]
  refine obeys_rd_ack hm hfirst fun r hr => ?_
  show Prog.Obeys _ GuardPhase.polling _ _
  split
  · rename_i herr
    exact houtcome false fun _ hgood => (hgood r (hr rfl)).1 herr
  · split
    · exact houtcome true fun h => Bool.noConfusion h
    · rename_i heven
      refine obeys_poll hm hagain (fun b => houtcome b fun _ hgood => ?_) 49
      exact heven (hgood r (hr rfl)).2

/-- The constructor of a guard. -/
theorem obeys_make (hm : m ≠ 0) (hs : g.strictSafe = false)
    (hF : g.disableForcewake = false → ∀ p ∈ guardTouches, F p.1 p.2)
    {Q : GuardPhase → ForcewakeGuard → Prop}
    (hQ : ∀ b, (b = true → g.disableForcewake = false) →
      (b = false → g.disableForcewake = false →
        ¬∀ r, ack r → ForcewakeGuard.Acknowledges r) →
      Q (.ofAcquired b) ⟨m, b⟩) :
    Prog.Obeys (footprint g m ack F) .idle (ForcewakeGuard.make m) Q := by
  unfold ForcewakeGuard.make
  rw [if_neg hm, Prog.obeys_bind]
  refine obeys_req rfl rfl ?_
  rintro r rfl
  cases hfw : r.disableForcewake with
  | true => exact hQ false (fun h => nomatch h) (fun _ h => nomatch hfw.symm.trans h)
  | false =>
    rw [hs, if_neg (by decide), if_neg (by decide)]
    exact obeys_acquire hm (hF hfw) fun b hb => hQ b (fun _ => hfw) (fun h _ => hb h)

/-- **A scope that holds a guard**: its body runs awake if the guard was
acknowledged and idle if not, and the guard is gone at the end. -/
theorem obeys_scope (hm : m ≠ 0) (hs : g.strictSafe = false)
    (hF : g.disableForcewake = false → ∀ p ∈ guardTouches, F p.1 p.2)
    {α : Type} {body : ForcewakeGuard → Kext α} {Q : GuardPhase → α → Prop}
    (hbody : ∀ b, (b = true → g.disableForcewake = false) →
      (b = false → g.disableForcewake = false →
        ¬∀ r, ack r → ForcewakeGuard.Acknowledges r) →
      Prog.Obeys (footprint g m ack F) (.ofAcquired b) (body ⟨m, b⟩)
        (fun φ a => φ = .ofAcquired b ∧ Q .idle a)) :
    Prog.Obeys (footprint g m ack F) .idle (ForcewakeGuard.scope m body) Q := by
  unfold ForcewakeGuard.scope
  rw [Prog.obeys_bind]
  refine obeys_make hm hs hF fun b hon hoff => ?_
  rw [Prog.obeys_bind]
  refine (hbody b hon hoff).mono ?_
  rintro φ a ⟨rfl, ha⟩
  unfold ForcewakeGuard.destroy ForcewakeGuard.release
  -- the destructor writes only if the guard was acknowledged
  cases b with
  | false => exact ha
  | true =>
    have hclear := hF (hon rfl)
    simp only [guardTouches, List.forall_mem_cons] at hclear
    dsimp only
    rw [if_pos ⟨rfl, hm⟩, if_neg hm, Prog.obeys_bind]
    exact obeys_wr_req hm hclear.2.2.2.1 ha

/-- The reads under the guard. -/
theorem obeys_readRcs0 (hF : ∀ off ∈ ringRegs, F φ { path := .csSafeRd, off })
    {Q : XeCommandStream.Rcs0Exit → Prop} (hQ : ∀ x, Q x) :
    Prog.Obeys (footprint g m ack F) φ (XeCommandStream.readRcs0 m)
      (fun φ' a => φ' = φ ∧ Q a) := by
  simp only [ringRegs, List.forall_mem_cons] at hF
  obtain ⟨hhead, htail, hctl, hmode, hgfx, -⟩ := hF
  have hcs : AccessPath.csSafeRd = .ggttSafeRead ∨ AccessPath.csSafeRd = .csSafeRd := Or.inr rfl
  unfold XeCommandStream.readRcs0
  rw [Prog.obeys_bind]
  refine obeys_checkedRead hcs hhead fun ringHead => ?_
  rw [Prog.obeys_bind]
  refine obeys_checkedRead hcs htail fun ringTail => ?_
  rw [Prog.obeys_bind]
  refine obeys_checkedRead hcs hctl fun ringCtl => ?_
  split
  · exact ⟨rfl, hQ _⟩
  · split
    · exact ⟨rfl, hQ _⟩
    · rw [if_pos (by decide), Prog.obeys_bind]
      refine obeys_checkedRead hcs hmode fun _ => ?_
      rw [Prog.obeys_bind]
      exact obeys_checkedRead hcs hgfx fun _ => ⟨rfl, hQ _⟩

/-- `logRcs0State` touches what its list says, and nothing where the
mapping is null. -/
theorem obeys_logRcs0State {acked : Bool}
    (hack : acked = true → ∀ r, ack r → ForcewakeGuard.Acknowledges r)
    (hF : m ≠ 0 → ∀ p ∈ rcs0Touches g acked, F p.1 p.2)
    {Q : GuardPhase → XeCommandStream.Rcs0Exit → Prop} (hQ : ∀ x, Q .idle x) :
    Prog.Obeys (footprint g m ack F) .idle (XeCommandStream.logRcs0State m) Q := by
  unfold XeCommandStream.logRcs0State
  split
  · exact hQ _
  rename_i hm
  rw [Prog.obeys_bind]
  refine obeys_req rfl rfl ?_
  rintro r rfl
  split
  · exact hQ _
  rename_i hcs
  rw [if_neg (by decide)]
  have hstrict : r.strictSafe = false := by
    rw [Bool.or_eq_true, not_or] at hcs
    exact Bool.eq_false_iff.mpr hcs.2
  have hmem := hF hm
  unfold rcs0Touches at hmem
  rw [if_neg hcs] at hmem
  refine obeys_scope hm hstrict (fun hfw p hp => hmem p ?_) fun b hon hoff => ?_
  · rw [hfw, if_neg Bool.false_ne_true]
    exact List.mem_append_left _ (List.mem_append_left _ hp)
  refine obeys_readRcs0 (forall_mem_readTouches.mp fun p hp => hmem p ?_) fun x => hQ x
  cases hfw : r.disableForcewake with
  | true =>
    -- a guard that is switched off is not acknowledged
    cases b with
    | true => exact nomatch hfw.symm.trans (hon rfl)
    | false => exact hp
  | false =>
    rw [if_neg Bool.false_ne_true]
    cases b with
    | true => exact List.mem_append_left _ (List.mem_append_right _ hp)
    | false =>
      -- the ring is read unguarded only where no acknowledgment is assumed
      have hnot : acked = false := Bool.eq_false_iff.mpr fun h => hoff rfl hfw (hack h)
      rw [hnot]
      exact List.mem_append_right _ hp

/-- `submitNoop` on the driver's mapping: it succeeds only if the command
stream is enabled. -/
theorem obeys_submitNoop {acked : Bool}
    (hack : acked = true → ∀ r, ack r → ForcewakeGuard.Acknowledges r)
    (hF : m ≠ 0 → ∀ p ∈ rcs0Touches g acked, F p.1 p.2) (bo : Option ObjId)
    {Q : GuardPhase → IOReturn → Prop}
    (hQ : ∀ kr, ((g.disableCommandStream || g.strictSafe) = true → kr ≠ .success) →
      Q .idle kr) :
    Prog.Obeys (footprint g m ack F) .idle (XeCommandStream.submitNoop m bo) Q := by
  unfold XeCommandStream.submitNoop
  split
  · exact hQ _ fun _ => by decide
  cases bo with
  | none => exact hQ _ fun _ => by decide
  | some md =>
    rw [Prog.obeys_bind]
    refine obeys_req rfl rfl ?_
    rintro r rfl
    split
    · exact hQ _ fun _ => by decide
    rename_i hcs
    rw [Prog.obeys_bind]
    refine obeys_req rfl rfl fun rawAddr _ => ?_
    split
    · exact hQ _ fun _ => by decide
    rw [Prog.obeys_bind]
    refine obeys_req rfl rfl fun bufSize _ => ?_
    split
    · exact hQ _ fun _ => by decide
    rw [Prog.obeys_bind]
    refine obeys_req rfl rfl fun _ _ => ?_
    rw [Prog.obeys_bind]
    exact obeys_logRcs0State hack hF fun _ => hQ _ fun h => absurd h hcs

theorem obeys_ucSubmitNoop {acked : Bool}
    (hack : acked = true → ∀ r, ack r → ForcewakeGuard.Acknowledges r)
    (hF : m ≠ 0 → ∀ p ∈ rcs0Touches g acked, F p.1 p.2)
    {Q : GuardPhase → IOReturn → Prop}
    (hQ : ∀ kr, ((g.disableCommandStream || g.strictSafe) = true → kr ≠ .success) →
      Q .idle kr) :
    Prog.Obeys (footprint g m ack F) .idle XeService.ucSubmitNoop Q := by
  unfold XeService.ucSubmitNoop
  rw [Prog.obeys_bind]
  refine obeys_req rfl rfl fun _ _ => ?_
  split
  · exact hQ _ fun _ => by decide
  rw [Prog.obeys_bind]
  refine obeys_req rfl rfl fun md _ => ?_
  cases md with
  | none => exact hQ _ fun _ => by decide
  | some md =>
    dsimp only
    rw [Prog.obeys_bind]
    refine obeys_req rfl rfl ?_
    rintro r rfl
    rw [Prog.obeys_bind]
    refine obeys_submitNoop hack hF (some md) fun kr hkr => ?_
    rw [Prog.obeys_bind]
    exact obeys_req rfl rfl fun _ _ => hQ kr hkr

/-- A list of registers read through `readReg`, in a phase. -/
theorem obeys_mapM_readReg {offs : List UInt32} (hF : ∀ off ∈ offs, F φ { path := .readReg, off })
    {Q : GuardPhase → List UInt32 → Prop} (hQ : ∀ out, Q φ out) :
    Prog.Obeys (footprint g m ack F) φ (offs.mapM XeService.readReg) Q := by
  refine (Prog.Obeys.mapM (R := fun _ _ => True) fun off hoff => ?_).mono ?_
  · exact obeys_readReg (hF off hoff) fun _ => ⟨rfl, trivial⟩
  · rintro φ' out ⟨rfl, -⟩
    exact hQ out

theorem obeys_readList {offs : List UInt32}
    (hF : m ≠ 0 → ∀ off ∈ offs, F φ { path := .readReg, off })
    {Q : GuardPhase → IOReturn × List UInt32 → Prop} (hQ : ∀ r, Q φ r) :
    Prog.Obeys (footprint g m ack F) φ (XeService.readList offs) Q := by
  unfold XeService.readList
  rw [Prog.obeys_bind]
  refine obeys_req rfl rfl ?_
  rintro r rfl
  split
  · exact hQ _
  · rename_i hm
    rw [Prog.obeys_bind]
    exact obeys_mapM_readReg (hF hm) fun out => hQ _

theorem obeys_ucCreateBuffer (bytes : UInt32) {Q : GuardPhase → IOReturn × UInt64 → Prop}
    (hQ : ∀ r, Q φ r) :
    Prog.Obeys (footprint g m ack F) φ (XeService.ucCreateBuffer bytes) Q := by
  have hcreates := (XeService.issues_ucCreateBuffer bytes).obeys (M := footprint g m ack F)
    (φ := φ) fun o ho => footprint_of_quiet ho.quiet.1 ho.quiet.2
  refine hcreates.mono ?_
  rintro _ r rfl
  exact hQ r

/-- **A call touches what its list says**, on a mapping that is not null,
and nothing otherwise; and a `kMethodSubmit` only succeeds if the command
stream is enabled. -/
theorem obeys_call {acked : Bool}
    (hack : acked = true → ∀ r, ack r → ForcewakeGuard.Acknowledges r) (c : Call)
    (hF : m ≠ 0 → ∀ p ∈ c.touches g acked, F p.1 p.2) :
    Prog.Obeys (footprint g m ack F) .idle c.prog (fun φ r => φ = .idle ∧
      ((g.disableCommandStream || g.strictSafe) = true →
        c.selector = XeUserClient.kMethodSubmit → r.1 ≠ .success)) := by
  cases c.way with
  | refused kr hkr hp =>
    rw [hp]
    exact ⟨rfl, fun _ _ => hkr⟩
  | createBuffer a hc bytes hp =>
    rw [hp, Prog.obeys_map]
    refine obeys_ucCreateBuffer bytes fun r => ⟨rfl, fun _ h => ?_⟩
    rw [hc.selector] at h
    exact absurd h (by decide)
  | submit a hc hp =>
    rw [hp, Prog.obeys_map]
    exact obeys_ucSubmitNoop hack (fun hm p hp => hF hm p (List.mem_append_left _ hp))
      fun kr hkr => ⟨rfl, fun h _ => hkr h⟩
  | wait a hc timeoutMs hp =>
    unfold XeService.ucWait at hp
    rw [hp, Prog.obeys_map, Prog.obeys_bind]
    refine obeys_req rfl rfl fun _ _ => ⟨rfl, fun _ h => ?_⟩
    rw [hc.selector] at h
    exact absurd h (by decide)
  | readList a k hk hc out hout hp =>
    rw [hp, Prog.obeys_map]
    refine obeys_readList (fun hm => forall_mem_readTouches.mp fun p hp => hF hm p ?_)
      fun r => ⟨rfl, fun _ h => ?_⟩
    · rw [← hc.regs_eq] at hp
      exact List.mem_append_right _ hp
    · rw [hc.selector] at h
      rcases hk with rfl | rfl | rfl <;> exact absurd h (by decide)

/-- The clients' calls, one after another. -/
theorem obeys_serve {acked : Bool}
    (hack : acked = true → ∀ r, ack r → ForcewakeGuard.Acknowledges r) (calls : List Call)
    (hF : m ≠ 0 → ∀ c ∈ calls, ∀ p ∈ c.touches g acked, F p.1 p.2) :
    Prog.Obeys (footprint g m ack F) .idle (serve calls) (fun φ rs => φ = .idle ∧
      List.Forall₂ (fun (c : Call) r => (g.disableCommandStream || g.strictSafe) = true →
        c.selector = XeUserClient.kMethodSubmit → r.1 ≠ .success) calls rs) :=
  Prog.Obeys.mapM fun c hc => obeys_call hack c fun hm => hF hm c hc

/-- The raw reads of `start`. -/
theorem obeys_sampleRegisters
    (hF : ∀ off ∈ XeService.samplerOffs, F φ { path := .startRaw, off })
    {Q : GuardPhase → List UInt32 → Prop} (hQ : ∀ out, Q φ out) :
    Prog.Obeys (footprint g m ack F) φ XeService.sampleRegisters Q := by
  refine (Prog.Obeys.mapM (R := fun _ _ => True) fun off hoff => ?_).mono ?_
  · unfold XeService.readRaw
    rw [Prog.obeys_bind]
    refine obeys_req rfl rfl fun mmio _ =>
      ⟨⟨rfl, fun t ht => ?_, fun _ h => nomatch h⟩, fun _ _ => ⟨rfl, trivial⟩⟩
    cases ht
    exact hF off hoff
  · rintro φ' out ⟨rfl, -⟩
    exact hQ out

theorem obeys_probe (hF : ∀ off ∈ probeRegs, F φ { path := .ggttSafeRead, off })
    {Q : GuardPhase → Bool → Prop} (hQ : ∀ b, Q φ b) :
    Prog.Obeys (footprint g m ack F) φ (XeGGTT.probe m) Q := by
  simp only [probeRegs, List.forall_mem_cons] at hF
  obtain ⟨hpgtbl, hwell1, hwell2, hstart, hstop, -⟩ := hF
  have hggtt : AccessPath.ggttSafeRead = .ggttSafeRead ∨ AccessPath.ggttSafeRead = .csSafeRd :=
    Or.inl rfl
  unfold XeGGTT.probe
  split
  · exact hQ _
  rw [Prog.obeys_bind]
  refine obeys_checkedRead hggtt hpgtbl fun pgtblCtl => ?_
  split
  · exact hQ _
  rw [Prog.obeys_bind]
  refine obeys_checkedRead hggtt hwell1 fun _ => ?_
  rw [Prog.obeys_bind]
  refine obeys_checkedRead hggtt hwell2 fun _ => ?_
  rw [if_pos (by decide), Prog.obeys_bind]
  refine obeys_checkedRead hggtt hstart fun _ => ?_
  rw [Prog.obeys_bind]
  exact obeys_checkedRead hggtt hstop fun _ => hQ _

theorem obeys_probeGpu
    (hF : g.strictSafe = false →
      (∀ off ∈ XeService.powerStateRegs, F φ { path := .readReg, off })
        ∧ (∀ off ∈ probeRegs, F φ { path := .ggttSafeRead, off })
        ∧ ∀ off ∈ XeService.displayStateRegs, F φ { path := .readReg, off })
    {Q : GuardPhase → Unit → Prop} (hQ : Q φ ()) :
    Prog.Obeys (footprint g m ack F) φ XeService.probeGpu Q := by
  unfold XeService.probeGpu XeService.logPowerState XeService.logDisplayState
  rw [Prog.obeys_bind]
  refine obeys_req rfl rfl ?_
  rintro r rfl
  split
  · exact hQ
  rename_i hstrict
  obtain ⟨hpower, hprobe, hdisplay⟩ := hF (Bool.eq_false_iff.mpr hstrict)
  rw [Prog.obeys_bind]
  refine obeys_mapM_readReg hpower fun _ => ?_
  rw [Prog.obeys_bind]
  refine obeys_req rfl rfl ?_
  rintro mmio rfl
  rw [Prog.obeys_bind]
  refine obeys_probe hprobe fun _ => ?_
  rw [Prog.obeys_bind]
  exact obeys_mapM_readReg hdisplay fun _ => hQ

/-- **`start` touches what its list says**, from the mapping on. -/
theorem obeys_bringUp (hF : ∀ p ∈ startTouches g, F p.1 p.2) :
    Prog.Obeys (footprint g m ack F) .idle XeService.bringUp (fun φ _ => φ = .idle) := by
  unfold startTouches at hF
  rw [List.forall_mem_append, forall_mem_readTouches] at hF
  unfold XeService.bringUp
  rw [Prog.obeys_bind]
  refine obeys_sampleRegisters hF.1 fun _ => ?_
  rw [Prog.obeys_bind]
  refine obeys_probeGpu (fun hstrict => ?_) ?_
  · have hrest := hF.2
    rw [hstrict, if_neg Bool.false_ne_true, List.forall_mem_append, List.forall_mem_append,
      forall_mem_readTouches, forall_mem_readTouches, forall_mem_readTouches] at hrest
    exact ⟨hrest.1.1, hrest.1.2, hrest.2⟩
  · unfold XeService.makeRegistry
    rw [Prog.obeys_bind]
    refine obeys_req rfl rfl fun a _ => ?_
    rw [Prog.obeys_bind]
    exact obeys_req rfl rfl fun _ _ => rfl

end Obeys
