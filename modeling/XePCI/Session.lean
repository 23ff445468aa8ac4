import XePCI.Footprint

/-!
# One life of the driver

A session is `init`, `start`, the clients' calls and `stop`. This module
says what becomes of the history over a whole one. The BAR is mapped or it
is not, which the platform alone decides (`Platform.mapped`): if it is not,
a session makes no access at all; if it is, every access of the session is
one of bring-up or of a call (`session_allowed`), so that a statement about
all runs becomes one about two lists (`history_all`).
-/

open XeService

/-- The mapping `start` gets, if it gets one. -/
def Platform.mapped (P : Platform) : Option IOMemoryMap :=
  if P.superStart && P.providerIsPci then
    P.bar0.filter fun map => map.length != 0 && map.virtualAddress != 0
  else none

/-- The machine after `init`. -/
def Platform.initialized (P : Platform) : Machine := (init.run (exec P) .fresh).2

/-- The machine after `init` and `start`. -/
def Platform.started (P : Platform) : Machine := (start.run (exec P) P.initialized).2

/-- What a session leaves in the history. -/
def history (P : Platform) (calls : List Call) : List MmioEvent :=
  ((session calls).run (exec P) .fresh).2.hist

/-- What the calls of a session return. -/
def results (P : Platform) (calls : List Call) :
    List (IOReturn × Option IOExternalMethodArguments) :=
  ((session calls).run (exec P) .fresh).1

section Run

variable (P : Platform)

/-- The flags that parsing the platform's boot argument adds to `g`. -/
def Platform.parsed (P : Platform) (g : XeBootFlags) : XeBootFlags :=
  P.bootArg.elim g fun buf => (g.parse buf).getD g

/-- Parsing touches the flags and nothing else. -/
theorem run_xeParseBootArgs (s : Machine) :
    (xeParseBootArgs.run (exec P) s).2 = { s with gXeBoot := P.parsed s.gXeBoot } := by
  unfold xeParseBootArgs Platform.parsed
  rw [Prog.run_bind, Prog.run_perform, exec_peParseBootArgn]
  cases P.bootArg with
  | none => rfl
  | some buf =>
    dsimp only
    rw [Prog.run_bind, Prog.run_perform, exec_loadBoot]
    dsimp only [Option.elim_some]
    cases s.gXeBoot.parse buf with
    | none => rfl
    | some g => rfl

theorem run_init (s : Machine) :
    init.run (exec P) s
      = (P.superInit,
        { s with gXeBoot := if P.superInit then P.parsed s.gXeBoot else s.gXeBoot }) := by
  unfold init
  rw [Prog.run_bind, Prog.run_perform, exec_superInit]
  cases P.superInit with
  | false => rfl
  | true =>
    rw [if_pos rfl, if_pos rfl, Prog.run_bind, run_xeParseBootArgs]
    rfl

/-- The flags are those of the boot argument, if there is a driver at all. -/
theorem flags_eq : P.flags = if P.superInit then P.parsed {} else {} := by
  unfold Platform.flags
  rw [run_init]
  rfl

theorem initialized_eq : P.initialized = { Machine.fresh with gXeBoot := P.flags } := by
  unfold Platform.flags Platform.initialized
  rw [run_init]

/-- A session's flags are strict-safe only together with the two other
restrictions. -/
theorem strictImplied_flags : P.flags.StrictImplied := by
  have hempty : XeBootFlags.StrictImplied {} := fun h => nomatch h
  rw [flags_eq]
  unfold Platform.parsed
  split
  · cases P.bootArg with
    | none => exact hempty
    | some buf =>
      dsimp only [Option.elim_some]
      cases hparse : XeBootFlags.parse buf {} with
      | none => exact hempty
      | some g => exact XeBootFlags.strictImplied_parse hparse
  · exact hempty

/-- The machine on which the BAR is mapped. -/
def Machine.withMapping (map : IOMemoryMap) (s : Machine) : Machine :=
  { s with
    pci := true
    memoryEnable := true
    ioEnable := true
    busMasterEnable := true
    bar0Refs := s.bar0Refs + 1
    bar0 := some map
    bar0Length := map.length
    mmio := map.virtualAddress }

variable {P}

/-- The mapping is what the platform's steps say it is. -/
theorem mapped_eq_some {map : IOMemoryMap} (h : P.mapped = some map) :
    P.superStart = true ∧ P.providerIsPci = true ∧ P.bar0 = some map
      ∧ map.length ≠ 0 ∧ map.virtualAddress ≠ 0 := by
  unfold Platform.mapped at h
  split at h
  · rename_i hok
    rw [Bool.and_eq_true] at hok
    obtain ⟨hbar, hfit⟩ := Option.filter_eq_some_iff.mp h
    rw [Bool.and_eq_true, bne_iff_ne, bne_iff_ne] at hfit
    exact ⟨hok.1, hok.2, hbar, hfit.1, hfit.2⟩
  · exact nomatch h

theorem run_mapBar0_of_mapped {map : IOMemoryMap} (h : P.mapped = some map) (s : Machine) :
    mapBar0.run (exec P) s = (true, s.withMapping map) := by
  obtain ⟨hstart, hpci, hbar, hlen, hva⟩ := mapped_eq_some h
  unfold mapBar0
  simp [hstart, hpci, hbar, hlen, hva, Machine.withMapping]

/-- Without a mapping `start` ends early, having done nothing at the BAR. -/
theorem run_mapBar0_of_unmapped (h : P.mapped = none) {s : Machine} (hs : s.mmio = 0) :
    (mapBar0.run (exec P) s).1 = false ∧ (mapBar0.run (exec P) s).2.mmio = 0
      ∧ (mapBar0.run (exec P) s).2.hist = s.hist
      ∧ (mapBar0.run (exec P) s).2.gXeBoot = s.gXeBoot := by
  unfold mapBar0
  cases hstart : P.superStart with
  | false => simp [hstart, hs]
  | true =>
    cases hpci : P.providerIsPci with
    | false => simp [hstart, hpci, hs]
    | true =>
      cases hbar : P.bar0 with
      | none => simp [hstart, hpci, hbar, hs]
      | some map =>
        by_cases hlen : map.length = 0
        · simp [hstart, hpci, hbar, hlen, hs]
        · by_cases hva : map.virtualAddress = 0
          · simp [hstart, hpci, hbar, hlen, hva]
          · -- every check passed, so there is a mapping after all
            simp [Platform.mapped, hstart, hpci, hbar, hlen, hva] at h

theorem run_serve_cons (P : Platform) (c : Call) (calls : List Call) (s : Machine) :
    (serve (c :: calls)).run (exec P) s
      = ((c.prog.run (exec P) s).1 :: ((serve calls).run (exec P) (c.prog.run (exec P) s).2).1,
        ((serve calls).run (exec P) (c.prog.run (exec P) s).2).2) := by
  unfold serve
  rw [List.mapM_cons, Prog.run_bind, Prog.run_bind]
  rfl

theorem run_serve_append (P : Platform) (pre post : List Call) (s : Machine) :
    ((serve (pre ++ post)).run (exec P) s).2
      = ((serve post).run (exec P) ((serve pre).run (exec P) s).2).2 := by
  unfold serve
  rw [List.mapM_append, Prog.run_bind, Prog.run_bind]
  rfl

/-- **A session is its four parts**, run one after another. -/
theorem run_session (P : Platform) (calls : List Call) :
    (session calls).run (exec P) .fresh
      = (((serve calls).run (exec P) P.started).1,
        (stop.run (exec P) ((serve calls).run (exec P) P.started).2).2) := by
  unfold session Platform.started Platform.initialized
  simp only [Prog.run_bind, Prog.pure_eq_ret, Prog.run_ret]

/-! ## Shutdown is quiet -/

/-- The program makes no access. -/
def Quiet {α : Type} (p : Kext α) : Prop := p.Issues (fun o => o.quiet = true)

/-- Whether a request is one of the registry's: none of them is an access. -/
def KextOp.ofRegistry : KextOp → Bool
  | hasBoList | getCount | getObject _ | release _ | releaseArray | setBoList _ => true
  | _ => false

/-- The loop of `stop` that releases the members, by induction on the
members that are left. -/
theorem issues_releaseMembers (i n : ℕ) :
    (releaseMembers i n).Issues (fun o => o.ofRegistry = true) := by
  induction n generalizing i with
  | zero => exact Prog.issues_ret ()
  | succ n ih =>
    refine Prog.Issues.bind (Prog.issues_perform rfl) fun md => ?_
    cases md with
    | none => exact ih (i + 1)
    | some md => exact Prog.Issues.bind (Prog.issues_perform rfl) fun _ => ih (i + 1)

theorem issues_stopRegistry : stopRegistry.Issues (fun o => o.ofRegistry = true) := by
  refine Prog.Issues.bind (Prog.issues_perform rfl) fun ready => ?_
  cases ready with
  | false => exact Prog.issues_ret ()
  | true =>
    refine Prog.Issues.bind (Prog.issues_perform rfl) fun count => ?_
    refine (issues_releaseMembers 0 _).bind fun _ => ?_
    exact Prog.Issues.bind (Prog.issues_perform rfl) fun _ => Prog.issues_perform rfl

/-- Whether a request is one of a shutdown, which clears what it sets. -/
def KextOp.ofShutdown : KextOp → Bool
  | hasBar0 | releaseBar0 | hasPci => true
  | setBar0 map => map.isNone
  | setMmio p => p == 0
  | setBusMasterEnable b => !b
  | o => o.ofRegistry

theorem issues_stop : stop.Issues (fun o => o.ofShutdown = true) := by
  have hregistry : stopRegistry.Issues (fun o => o.ofShutdown = true) :=
    issues_stopRegistry.imp fun o ho => by
      cases o <;> first | rfl | exact absurd ho Bool.false_ne_true
  have hmapping : stopMapping.Issues (fun o => o.ofShutdown = true) := by
    refine Prog.Issues.bind (Prog.issues_perform rfl) fun mapped => ?_
    cases mapped with
    | false => exact Prog.issues_ret ()
    | true =>
      refine Prog.Issues.bind (Prog.issues_perform rfl) fun _ => ?_
      exact Prog.Issues.bind (Prog.issues_perform rfl) fun _ => Prog.issues_perform rfl
  refine hregistry.bind fun _ => hmapping.bind fun _ => ?_
  refine Prog.Issues.bind (Prog.issues_perform rfl) fun pci => ?_
  cases pci with
  | false => exact Prog.issues_ret ()
  | true => exact Prog.issues_perform rfl

theorem quiet_stop : Quiet stop := issues_stop.imp fun o ho => by
  cases o <;> first | rfl | exact absurd ho Bool.false_ne_true

/-- Shutdown adds nothing to the history. -/
theorem hist_stop (s : Machine) : (stop.run (exec P) s).2.hist = s.hist :=
  quiet_stop.run_frame (fun _ s ho => exec_hist_of_quiet P ho s) s

/-! ## The history of a session -/

/-- It is the history of `start` and the calls. -/
theorem history_eq (P : Platform) (calls : List Call) :
    history P calls = ((serve calls).run (exec P) P.started).2.hist := by
  unfold history
  rw [run_session, hist_stop]

/-- The history of `start` is the older part of it. -/
theorem started_suffix_history (P : Platform) (calls : List Call) :
    P.started.hist <:+ history P calls := by
  rw [history_eq]
  exact hist_suffix_run P _ _

theorem run_start_of_mapped {map : IOMemoryMap} (h : P.mapped = some map) (s : Machine) :
    start.run (exec P) s = bringUp.run (exec P) (s.withMapping map) := by
  unfold start
  rw [Prog.run_bind, run_mapBar0_of_mapped h]
  rfl

theorem run_start_of_unmapped (h : P.mapped = none) {s : Machine} (hs : s.mmio = 0) :
    start.run (exec P) s = mapBar0.run (exec P) s := by
  obtain ⟨hfalse, -⟩ := run_mapBar0_of_unmapped h hs
  unfold start
  rw [Prog.run_bind, hfalse]
  exact Prod.ext hfalse.symm rfl

variable {ack : UInt32 → Prop} {F : GuardPhase → Touch → Prop}

/-- **After `start`** the flags are those of the boot argument, the mapping
is the platform's or null, and only what `start` may touch was touched. -/
theorem started_within (hP : P.FirstPoll ack)
    (hF : P.mapped.isSome = true → ∀ p ∈ startTouches P.flags, F p.1 p.2) :
    ∃ m L, P.started.Within P.flags m L F [] .idle
      ∧ (P.mapped = some ⟨L, m⟩ ∨ P.mapped = none ∧ m = 0) := by
  have hinit : P.initialized.mmio = 0 ∧ P.initialized.hist = []
      ∧ P.initialized.gXeBoot = P.flags := by
    rw [initialized_eq]
    exact ⟨rfl, rfl, rfl⟩
  obtain ⟨hmmio, hhist, hboot⟩ := hinit
  unfold Platform.started
  cases hmap : P.mapped with
  | none =>
    obtain ⟨-, hmmio', hhist', hboot'⟩ := run_mapBar0_of_unmapped hmap hmmio
    rw [run_start_of_unmapped hmap hmmio]
    have hself := (mapBar0.run (exec P) P.initialized).2.within_self F
    rw [hmmio', hhist', hhist, hboot', hboot] at hself
    exact ⟨0, _, hself, Or.inr ⟨rfl, rfl⟩⟩
  | some map =>
    rw [run_start_of_mapped hmap]
    have hself : (P.initialized.withMapping map).Within P.flags map.virtualAddress
        map.length F [] .idle := by
      have hself := (P.initialized.withMapping map).within_self F
      rw [show (P.initialized.withMapping map).hist = [] from hhist,
        show (P.initialized.withMapping map).gXeBoot = P.flags from hboot] at hself
      exact hself
    obtain ⟨φ, hrun, rfl⟩ := (obeys_bringUp (hF (hmap ▸ rfl))).within hP hself
    exact ⟨_, _, hrun, Or.inl rfl⟩

variable {acked : Bool} {calls : List Call}

/-- **Every access of a session** is one of bring-up or one of a call, made
in a phase in which it is allowed, on the platform's mapping, and below its
length if it goes through `readReg`. -/
theorem session_allowed (hP : P.FirstPoll ack)
    (hack : acked = true → ∀ r, ack r → ForcewakeGuard.Acknowledges r)
    (hstart : P.mapped.isSome = true → ∀ p ∈ startTouches P.flags, F p.1 p.2)
    (hcalls : P.mapped.isSome = true →
      ∀ c ∈ calls, ∀ p ∈ c.touches P.flags acked, F p.1 p.2)
    {e : MmioEvent} {h : List MmioEvent}
    (he : e :: h <:+ history P calls)
    {t : Touch} (ht : e.touch? = some t) :
    ∃ map, P.mapped = some map ∧ F (GuardPhase.of h) t
      ∧ (t.path = .readReg → t.off.toUInt64 < map.length) := by
  -- the predicate also says that there is a mapping
  obtain ⟨m, L, hstarted, hm⟩ := started_within (F := fun φ t => P.mapped.isSome = true ∧ F φ t)
    hP (fun hmap p hp => ⟨hmap, hstart hmap p hp⟩)
  have hsome : m ≠ 0 → P.mapped.isSome = true := fun hm0 => by
    rcases hm with hmap | ⟨-, hnull⟩
    · rw [hmap]
      rfl
    · exact absurd hnull hm0
  have hserve := obeys_serve (F := fun φ t => P.mapped.isSome = true ∧ F φ t) (g := P.flags)
    (m := m) hack calls
    (fun hm0 c hc p hp => ⟨hsome hm0, hcalls (hsome hm0) c hc p hp⟩)
  obtain ⟨φ, hrun, -⟩ := hserve.within hP hstarted
  rw [history_eq] at he
  obtain ⟨hmap, hF⟩ := hrun.allowed e h he List.nil_suffix t ht
  rcases hm with hm | ⟨hnone, -⟩
  · obtain ⟨-, -, -, hlen, -⟩ := mapped_eq_some hm
    exact ⟨_, hm, hF, hrun.bounded hlen e h he List.nil_suffix t ht⟩
  · rw [hnone] at hmap
    exact nomatch hmap

/-- **What holds of the accesses on the lists holds of every access of a
session.** -/
theorem history_all {X : Touch → Prop} (hstart : ∀ p ∈ startTouches P.flags, X p.2)
    (hrcs0 : ∀ p ∈ rcs0Touches P.flags false, X p.2)
    (hregs : ∀ c ∈ calls, ∀ off ∈ c.regs, X { path := .readReg, off })
    {e : MmioEvent} (he : e ∈ history P calls) {t : Touch} (ht : e.touch? = some t) :
    ∃ map, P.mapped = some map ∧ X t ∧ (t.path = .readReg → t.off.toUInt64 < map.length) := by
  obtain ⟨after, before, hsplit⟩ := List.append_of_mem he
  exact @session_allowed P (fun _ => True) (fun _ t => X t) false calls P.firstPoll_true
    (fun h => nomatch h) (fun _ => hstart)
    (fun _ c hc => (forall_mem_touches (F := fun _ t => X t)).mpr ⟨hrcs0, hregs c hc⟩)
    e before ⟨after, hsplit.symm⟩ t ht

/-- A `kMethodSubmit` of a session only succeeds if the command stream is
enabled. -/
theorem session_submit (P : Platform) (calls : List Call) :
    List.Forall₂ (fun (c : Call) r =>
        (P.flags.disableCommandStream || P.flags.strictSafe) = true →
          c.selector = XeUserClient.kMethodSubmit → r.1 ≠ .success)
      calls (results P calls) := by
  have hP := P.firstPoll_true
  obtain ⟨m, L, hstarted, -⟩ := started_within (F := fun _ _ => True) hP
    (fun _ _ _ => trivial)
  have hserve := @obeys_serve P.flags m (fun _ => True) (fun _ _ => True) false
    (fun h => nomatch h) calls (fun _ _ _ _ _ => trivial)
  obtain ⟨φ, -, -, hresults⟩ := hserve.within hP hstarted
  unfold results
  rw [run_session]
  exact hresults

/-! ## What bring-up does for sure -/

section Started

variable {map : IOMemoryMap} {X : MmioEvent → Prop}

/-- The raw reads of `start` are made in every mode. -/
theorem happened_sampleRegisters {off : UInt32} (hoff : off ∈ samplerOffs)
    (hX : ∀ v, X (.read .startRaw off v)) (s : Machine) :
    Happened X s (sampleRegisters.run (exec P) s).2 := by
  unfold sampleRegisters
  -- the reads before the one in question add to the history and nothing else
  generalize samplerOffs = offs at hoff
  induction offs generalizing s with
  | nil => exact nomatch hoff
  | cons off' offs ih =>
    rw [List.mapM_cons]
    rcases List.mem_cons.mp hoff with rfl | hoff
    · exact .bind_left (.bind_right (happened_readDword _ (hX _)))
    · exact .bind_right (.bind_left (ih _ hoff))

/-- Outside strict-safe mode the GGTT is probed, after the reads of the
power state, which leave the mapping alone. -/
theorem happened_probeGpu {s : Machine} (hstrict : s.gXeBoot.strictSafe = false)
    (hX : ∀ s', Happened X s' ((XeGGTT.probe s.mmio).run (exec P) s').2) :
    Happened X s (probeGpu.run (exec P) s).2 := by
  have hpower : (logPowerState.run (exec P) s).2.mmio = s.mmio :=
    (obeys_mapM_readReg (F := fun _ _ => True) (Q := fun _ _ => True)
      (fun _ _ => trivial) (fun _ => trivial)).setup.2.1
  unfold probeGpu
  refine .bind_right ?_
  rw [Prog.run_perform, exec_loadBoot, hstrict, if_neg Bool.false_ne_true]
  refine .bind_right (.bind_right ?_)
  rw [Prog.run_perform, exec_getMmio, hpower]
  exact .bind_left (hX _)

theorem happened_started_sampler (hmap : P.mapped = some map) {off : UInt32}
    (hoff : off ∈ samplerOffs) (hX : ∀ v, X (.read .startRaw off v)) :
    ∃ e ∈ P.started.hist, X e := by
  unfold Platform.started
  rw [run_start_of_mapped hmap]
  exact (Happened.bind_left (happened_sampleRegisters hoff hX _)).mem

theorem happened_started_probe (hmap : P.mapped = some map)
    (hstrict : P.flags.strictSafe = false)
    (hX : ∀ s', Happened X s' ((XeGGTT.probe map.virtualAddress).run (exec P) s').2) :
    ∃ e ∈ P.started.hist, X e := by
  have hboot : (P.initialized.withMapping map).gXeBoot = P.flags := by
    rw [initialized_eq]
    rfl
  have hsamples := (obeys_sampleRegisters (F := fun _ _ => True) (Q := fun _ _ => True)
    (fun _ _ => trivial) (fun _ => trivial)).setup (P := P) (s := P.initialized.withMapping map)
  have hrun : Happened X (P.initialized.withMapping map)
      (bringUp.run (exec P) (P.initialized.withMapping map)).2 := by
    unfold bringUp
    refine .bind_right ?_
    refine .bind_left (happened_probeGpu ?_ ?_)
    · rw [hsamples.1, hboot]
      exact hstrict
    · rw [hsamples.2.1]
      exact hX
  unfold Platform.started
  rw [run_start_of_mapped hmap]
  exact hrun.mem

end Started

end Run

/-! ## Calls and shutdowns side by side -/

/-- A thread is a call, which ends with what it returns, or a shutdown. -/
def clientThread : Option Call → Kext (Option (IOReturn × Option IOExternalMethodArguments))
  | some c => some <$> c.prog
  | none => (fun _ => none) <$> stop

/-- **The pool of calls and shutdowns** over one machine. -/
def servicePool {ι : Type} (s₀ : Machine) (work : ι → Option Call) :
    KextPool (Option (IOReturn × Option IOExternalMethodArguments)) ι :=
  Pool.start s₀ fun i => clientThread (work i)
