import XePCI.Objects

/-!
# Bring-up, shutdown and what holds between them

Four fields of the service are set and cleared at different points: the
mapping `bar0`, the pointer `mmio`, the length `bar0Length` and the registry
`m_boList`. Each method tests one of them and relies on the others.

That is justified in every state a service can get into that is started
once (`lifecycle_wired`): the pointer is there exactly if the mapping is,
then the length is not `0`, and there is no registry without them. After
`stop` none of them is there, and a call does nothing at all.

What is not kept is the promise that a failing `start` undoes what it did.
Its first exits leave nothing, because nothing was done; the later ones
leave the PCI function enabled, and the last one leaves everything but the
registry (`start_allOrNothing_iff`).
-/

open XeService

/-- **Neither a mapping nor a registry**, as before `start` and after
`stop`. -/
structure Machine.Down (s : Machine) : Prop where
  bar0 : s.bar0 = none
  mmio : s.mmio = 0
  boList : s.boList = none

/-! ## What `start` does -/

section Start

variable {P : Platform}

/-- A `start` that gets no mapping leaves the service down; whether it has
enabled the PCI function depends on how far it came. -/
theorem run_start_of_down_of_unmapped (h : P.mapped = none) {s : Machine} (hs : s.Down) :
    ∃ pci L, start.run (exec P) s = (false, { s with
      pci := pci
      bar0Length := L
      memoryEnable := s.memoryEnable || (P.superStart && P.providerIsPci)
      ioEnable := s.ioEnable || (P.superStart && P.providerIsPci)
      busMasterEnable := s.busMasterEnable || (P.superStart && P.providerIsPci) }) := by
  obtain ⟨hbar0, hmmio, -⟩ := hs
  rw [run_start_of_unmapped h hmmio]
  unfold mapBar0
  cases hstart : P.superStart with
  | false => exact ⟨s.pci, s.bar0Length, by simp [hstart]⟩
  | true =>
    cases hpci : P.providerIsPci with
    | false => exact ⟨false, s.bar0Length, by simp [hstart, hpci]⟩
    | true =>
      cases hbar : P.bar0 with
      | none => exact ⟨true, s.bar0Length, by simp [hstart, hpci, hbar, hbar0]⟩
      | some map =>
        by_cases hlen : map.length = 0
        · exact ⟨true, 0, by simp [hstart, hpci, hbar, hlen, hbar0]⟩
        · by_cases hva : map.virtualAddress = 0
          · exact ⟨true, map.length, by simp [hstart, hpci, hbar, hlen, hva, hbar0, hmmio]⟩
          · simp [Platform.mapped, hstart, hpci, hbar, hlen, hva] at h

/-- One that gets a mapping keeps it, whether or not there is memory for the
registry. -/
theorem run_start_eq_of_mapped {map : IOMemoryMap} (h : P.mapped = some map) (s : Machine) :
    ∃ hist, start.run (exec P) s = (P.withCapacityOk, { s.withMapping map with
      boList := if P.withCapacityOk then some .empty else none
      hist := hist }) := by
  have hstill := probes_reads.run P (s.withMapping map)
  generalize hreads : ((sampleRegisters >>= fun _ => probeGpu).run (exec P)
    (s.withMapping map)).2 = t at hstill
  refine ⟨t.hist, ?_⟩
  rw [run_start_of_mapped h, objects_bringUp, hreads]
  have ht : t = { s.withMapping map with hist := t.hist } := Machine.eq_of_still hstill
  rw [ht]

/-- **Nothing is left** of what was done since `s`: no mapping, no registry,
no reference to a mapping, and the PCI function as it was. -/
structure Machine.NothingLeft (s s' : Machine) : Prop where
  down : s'.Down
  bar0Refs : s'.bar0Refs = s.bar0Refs
  memoryEnable : s'.memoryEnable = s.memoryEnable
  ioEnable : s'.ioEnable = s.ioEnable
  busMasterEnable : s'.busMasterEnable = s.busMasterEnable

/-- **When `start` is all or nothing.** On a service that is down, whatever
the flags, the hardware and the PCI function were: it leaves nothing behind
where it fails exactly if it fails before it enables the PCI function, or
the function was enabled before and it gets no mapping, or it gets one and
there is memory for the registry – then it does not fail. -/
theorem start_allOrNothing_iff (P : Platform) {s : Machine} (hs : s.Down) :
    ((start.run (exec P) s).1 = false → s.NothingLeft (start.run (exec P) s).2)
      ↔ P.superStart = false ∨ P.providerIsPci = false
        ∨ P.mapped = none
          ∧ s.memoryEnable = true ∧ s.ioEnable = true ∧ s.busMasterEnable = true
        ∨ P.mapped ≠ none ∧ P.withCapacityOk = true := by
  cases hmap : P.mapped with
  | none =>
    obtain ⟨pci, L, hrun⟩ := run_start_of_down_of_unmapped hmap hs
    rw [hrun]
    constructor
    · intro hall
      obtain ⟨-, -, hmem, hio, hbus⟩ := hall rfl
      cases hstart : P.superStart with
      | false => exact Or.inl rfl
      | true =>
        cases hpci : P.providerIsPci with
        | false => exact Or.inr (Or.inl rfl)
        | true =>
          simp only [hstart, hpci, Bool.and_self, Bool.or_true] at hmem hio hbus
          exact Or.inr (Or.inr (Or.inl ⟨rfl, hmem.symm, hio.symm, hbus.symm⟩))
    · intro hcond _
      have hkeeps : (P.superStart && P.providerIsPci) = false
          ∨ s.memoryEnable = true ∧ s.ioEnable = true ∧ s.busMasterEnable = true := by
        rcases hcond with h | h | ⟨-, h⟩ | ⟨h, -⟩
        · exact Or.inl (by rw [h, Bool.false_and])
        · exact Or.inl (by rw [h, Bool.and_false])
        · exact Or.inr h
        · exact absurd rfl h
      refine ⟨⟨hs.bar0, hs.mmio, hs.boList⟩, rfl, ?_, ?_, ?_⟩
      all_goals
        rcases hkeeps with hoff | ⟨hmem, hio, hbus⟩
        · simp only [hoff, Bool.or_false]
        · simp only [hmem, hio, hbus, Bool.true_or]
  | some map =>
    obtain ⟨hstart, hpci, -, -, hva⟩ := mapped_eq_some hmap
    obtain ⟨hist, hrun⟩ := run_start_eq_of_mapped hmap s
    rw [hrun, hstart, hpci]
    cases hok : P.withCapacityOk with
    | true => exact ⟨fun _ => Or.inr (Or.inr (Or.inr ⟨Option.some_ne_none map, rfl⟩)),
        fun _ hfail => nomatch hfail⟩
    | false =>
      -- the mapping and the pointer are still there
      constructor
      · intro hall
        exact absurd (hall rfl).down.mmio hva
      · intro hcond
        rcases hcond with h | h | ⟨h, -⟩ | ⟨-, h⟩ <;> exact nomatch h

/-- The service on a machine whose PCI function is enabled, as firmware
leaves it. -/
def enabledMachine : Machine :=
  { Machine.fresh with memoryEnable := true, ioEnable := true, busMasterEnable := true }

theorem enabledMachine_down : enabledMachine.Down := ⟨rfl, rfl, rfl⟩

/-- A BAR that cannot be mapped is all that is wrong: nothing is left. -/
theorem start_allOrNothing_iff_enabled :
    enabledMachine.NothingLeft
      (start.run (exec { Platform.ideal with bar0 := none }) enabledMachine).2 :=
  (start_allOrNothing_iff { Platform.ideal with bar0 := none } enabledMachine_down).mpr
    (Or.inr (Or.inr (Or.inl ⟨rfl, rfl, rfl, rfl⟩))) (by decide)

/-- **A `start` that fails for want of a registry leaves the mapping**, the
pointer, the reference to the mapping and the PCI function enabled. -/
theorem start_leaves_mapping :
    ¬((start.run (exec { Platform.ideal with withCapacityOk := false }) .fresh).1 = false →
      Machine.fresh.NothingLeft
        (start.run (exec { Platform.ideal with withCapacityOk := false }) .fresh).2) := by
  intro hall
  have hleft := (hall (by decide)).down.mmio
  exact absurd hleft (by decide)

end Start

/-! ## The invariant -/

/-- **The fields agree**: the pointer is there exactly if the mapping is,
and then the length is not `0`; and there is no registry without them. -/
structure Machine.Wired (s : Machine) : Prop where
  mapped : s.mmio ≠ 0 ↔ s.bar0.isSome = true
  length : s.mmio ≠ 0 → 0 < s.bar0Length
  registry : s.boList.isSome = true → s.mmio ≠ 0

theorem Machine.Down.wired {s : Machine} (hs : s.Down) : s.Wired := by
  refine ⟨?_, fun h => absurd hs.mmio h, fun h => ?_⟩
  · rw [hs.bar0]
    exact ⟨fun h => absurd hs.mmio h, fun h => nomatch h⟩
  · rw [hs.boList] at h
    exact nomatch h

/-- Whether a request leaves the mapping, the pointer and the length alone. -/
def KextOp.keepsWiring : KextOp → Bool
  | setBar0 _ | setBar0Length _ | setMmio _ => false
  | _ => true

theorem exec_wiring (P : Platform) {o : KextOp} (h : o.keepsWiring = true) (s : Machine) :
    ((exec P o s).2.bar0, (exec P o s).2.mmio, (exec P o s).2.bar0Length)
      = (s.bar0, s.mmio, s.bar0Length) := by
  cases o with
  | setObject md => rw [setObject_eq]
  | getObject i => rw [getObject_eq]
  | withOptions capacity => rw [withOptions_eq]
  | readRegSafe off => rw [readRegSafe_eq]
  | _ => first | rfl | exact absurd h Bool.false_ne_true

/-- The program leaves them alone. -/
def KeepsWiring {α : Type} (p : Kext α) : Prop := p.Issues (fun o => o.keepsWiring = true)

theorem KeepsWiring.run {α : Type} {p : Kext α} (h : KeepsWiring p) (P : Platform)
    (s : Machine) : (p.run (exec P) s).2.bar0 = s.bar0 ∧ (p.run (exec P) s).2.mmio = s.mmio
      ∧ (p.run (exec P) s).2.bar0Length = s.bar0Length := by
  have hframe := Prog.Issues.run_frame (f := fun s : Machine => (s.bar0, s.mmio, s.bar0Length))
    (fun _ s ho => exec_wiring P ho s) h s
  simp only [Prod.mk.injEq] at hframe
  exact hframe

/-- Whether a request is one of a call. -/
def KextOp.ofCall : KextOp → Bool
  | hasBoList | withOptions _ | setObject _ | getCount | getBytesNoCopy _ | getLength _
  | writeCmds _ _ | release _ => true
  | o => o.probes

/-- What only looks at the device does what a call may do. -/
theorem Probes.ofCall {α : Type} {p : Kext α} (h : Probes p) :
    p.Issues (fun o => o.ofCall = true) :=
  Prog.Issues.imp h fun o ho => by
    cases o <;> first | rfl | exact absurd ho Bool.false_ne_true

theorem ofCall_ucSubmitNoop : ucSubmitNoop.Issues (fun o => o.ofCall = true) := by
  have hsubmit : ∀ m md,
      (XeCommandStream.submitNoop m (some md)).Issues (fun o => o.ofCall = true) := by
    intro m md
    unfold XeCommandStream.submitNoop
    split
    · exact Prog.issues_ret _
    refine Prog.Issues.bind (Prog.issues_perform rfl) fun gXeBoot => ?_
    split
    · exact Prog.issues_ret _
    refine Prog.Issues.bind (Prog.issues_perform rfl) fun rawAddr => ?_
    split
    · exact Prog.issues_ret _
    refine Prog.Issues.bind (Prog.issues_perform rfl) fun bufSize => ?_
    split
    · exact Prog.issues_ret _
    refine Prog.Issues.bind (Prog.issues_perform rfl) fun _ => ?_
    exact Prog.Issues.bind (probes_logRcs0State m).ofCall fun _ => Prog.issues_ret _
  refine Prog.Issues.bind (Prog.issues_perform rfl) fun mmio => ?_
  split
  · exact Prog.issues_ret _
  refine Prog.Issues.bind (Prog.issues_perform rfl) fun md => ?_
  cases md with
  | none => exact Prog.issues_ret _
  | some md =>
    refine Prog.Issues.bind (Prog.issues_perform rfl) fun m => ?_
    refine Prog.Issues.bind (hsubmit m md) fun kr => ?_
    exact Prog.Issues.bind (Prog.issues_perform rfl) fun _ => Prog.issues_ret _

/-- A call has no other requests. -/
theorem issues_call (c : Call) : c.prog.Issues (fun o => o.ofCall = true) := by
  cases c.way with
  | refused kr hkr hp =>
    rw [hp]
    exact Prog.issues_ret _
  | createBuffer a hc bytes hp =>
    rw [hp]
    exact ((issues_ucCreateBuffer bytes).imp fun o ho => by
      cases o <;> first | rfl | exact ho.elim).map _
  | submit a hc hp =>
    rw [hp]
    exact ofCall_ucSubmitNoop.map _
  | wait a hc timeoutMs hp =>
    rw [hp]
    exact (probes_ucWait timeoutMs).ofCall.map _
  | readList a k hk hc out hout hp =>
    rw [hp]
    exact (probes_readList _).ofCall.map _

/-- So it leaves the wiring alone. -/
theorem wiring_call (P : Platform) (c : Call) (s : Machine) :
    (c.prog.run (exec P) s).2.bar0 = s.bar0 ∧ (c.prog.run (exec P) s).2.mmio = s.mmio
      ∧ (c.prog.run (exec P) s).2.bar0Length = s.bar0Length := by
  have hkeeps : KeepsWiring c.prog := (issues_call c).imp fun o ho => by
    cases o <;> first | rfl | exact absurd ho Bool.false_ne_true
  exact hkeeps.run P s

/-- A call makes no registry where there is none. -/
theorem Objects.Step.registry_isSome {o o' : Objects} (h : o.Step o')
    (hsome : o'.registry.isSome = true) : o.registry.isSome = true := by
  cases h with
  | same => exact hsome
  | transient n => exact hsome
  | register a a' ha hpush => rw [ha]; rfl

theorem Machine.Wired.call {s : Machine} (hs : s.Wired) (P : Platform) (c : Call) :
    (c.prog.run (exec P) s).2.Wired := by
  obtain ⟨hbar0, hmmio, hlength⟩ := wiring_call P c s
  refine ⟨?_, ?_, fun hsome => ?_⟩
  · rw [hmmio, hbar0]
    exact hs.mapped
  · rw [hmmio, hlength]
    exact hs.length
  · rw [hmmio]
    exact hs.registry ((objects_call P c s).registry_isSome hsome)

/-- **`stop` takes the service down.** -/
theorem Machine.Wired.stop {s : Machine} (hs : s.Wired) (P : Platform) :
    (XeService.stop.run (exec P) s).2.Down := by
  have hregistry : KeepsWiring stopRegistry := issues_stopRegistry.imp fun o ho => by
    cases o <;> first | rfl | exact absurd ho Bool.false_ne_true
  have hbus : KeepsWiring (do
      let pci ← req .hasPci
      if pci then
        req (.setBusMasterEnable false)) := by
    refine Prog.Issues.bind (Prog.issues_perform rfl) fun pci => ?_
    split
    · exact Prog.issues_perform rfl
    · exact Prog.issues_ret _
  have hnone : (XeService.stop.run (exec P) s).2.boList = none := by
    have hobjects := congrArg Objects.registry (objects_stop P s)
    exact hobjects.trans (Objects.registry_dismantle _)
  obtain ⟨hbar0, hmmio, -⟩ := hregistry.run P s
  have hmapping : (stopMapping.run (exec P) (stopRegistry.run (exec P) s).2).2.bar0 = none
      ∧ (stopMapping.run (exec P) (stopRegistry.run (exec P) s).2).2.mmio = 0 := by
    generalize (stopRegistry.run (exec P) s).2 = t at hbar0 hmmio
    unfold stopMapping
    rw [Prog.run_bind, Prog.run_perform, exec_hasBar0]
    cases hbar : t.bar0 with
    | none =>
      refine ⟨hbar, ?_⟩
      -- no mapping, so no pointer
      show t.mmio = 0
      rw [hmmio]
      refine Decidable.not_not.mp fun hne => ?_
      have hsome := hs.mapped.mp hne
      rw [← hbar0, hbar] at hsome
      exact nomatch hsome
    | some map => exact ⟨rfl, rfl⟩
  unfold XeService.stop at hnone ⊢
  rw [Prog.run_bind, Prog.run_bind] at hnone ⊢
  obtain ⟨hbar0', hmmio', -⟩ := hbus.run P
    (stopMapping.run (exec P) (stopRegistry.run (exec P) s).2).2
  exact ⟨hbar0'.trans hmapping.1, hmmio'.trans hmapping.2, hnone⟩

/-- `start` wires a service that is down, or leaves it down. -/
theorem Machine.Down.start {s : Machine} (hs : s.Down) (P : Platform) :
    (XeService.start.run (exec P) s).2.Wired := by
  cases hmap : P.mapped with
  | none =>
    obtain ⟨pci, L, hrun⟩ := run_start_of_down_of_unmapped hmap hs
    rw [hrun]
    exact Machine.Down.wired ⟨hs.bar0, hs.mmio, hs.boList⟩
  | some map =>
    obtain ⟨-, -, -, hlen, hva⟩ := mapped_eq_some hmap
    obtain ⟨hist, hrun⟩ := run_start_eq_of_mapped hmap s
    rw [hrun]
    exact ⟨⟨fun _ => rfl, fun _ => hva⟩, fun _ => UInt64.pos_iff_ne_zero.mpr hlen, fun _ => hva⟩

/-! ## A service that is down -/

section Down

variable {P : Platform} {s : Machine}

theorem Machine.Down.run_ucCreateBuffer (hs : s.Down) (bytes : UInt32) :
    (ucCreateBuffer bytes).run (exec P) s = ((.notReady, 0), s) := by
  unfold ucCreateBuffer
  rw [Prog.run_bind, Prog.run_perform, exec_hasBoList, hs.boList]
  rfl

theorem Machine.Down.run_ucSubmitNoop (hs : s.Down) :
    ucSubmitNoop.run (exec P) s = (.notReady, s) := by
  unfold ucSubmitNoop
  rw [Prog.run_bind, Prog.run_perform, exec_getMmio, if_pos hs.mmio]
  rfl

theorem Machine.Down.run_readList (hs : s.Down) (offs : List UInt32) :
    (readList offs).run (exec P) s = ((.notReady, []), s) := by
  unfold readList
  rw [Prog.run_bind, Prog.run_perform, exec_getMmio, if_pos hs.mmio]
  rfl

/-- **A call does nothing** to a service that is down. -/
theorem Machine.Down.call (hs : s.Down) (c : Call) : (c.prog.run (exec P) s).2 = s := by
  cases c.way with
  | refused kr hkr hp => rw [hp]; rfl
  | createBuffer a hc bytes hp => rw [hp, Prog.run_map, hs.run_ucCreateBuffer]
  | submit a hc hp => rw [hp, Prog.run_map, hs.run_ucSubmitNoop]
  | wait a hc timeoutMs hp => rw [hp]; rfl
  | readList a k hk hc out hout hp => rw [hp, Prog.run_map, hs.run_readList]

end Down

/-- **The call has the argument counts of its entry** of the table. -/
def Call.WellCounted (c : Call) : Prop :=
  ∃ h : c.selector.toNat < XeUserClient.sMethods.length, ∃ a, c.args = some a
    ∧ a.scalarInputCount
      = (XeUserClient.sMethods.get ⟨c.selector.toNat, h⟩).checkScalarInputCount
    ∧ a.scalarOutputCount
      = (XeUserClient.sMethods.get ⟨c.selector.toNat, h⟩).checkScalarOutputCount

/-- It is told that the service is not ready, unless it is `kMethodWait`,
which asks nothing of the service. -/
theorem Machine.Down.result {P : Platform} {s : Machine} (hs : s.Down) {c : Call}
    (hc : c.WellCounted) (hwait : c.selector ≠ XeUserClient.kMethodWait) :
    (c.prog.run (exec P) s).1.1 = .notReady := by
  obtain ⟨h, a, ha, hin, hout⟩ := hc
  have hprog := Call.prog_of_counts h ha ⟨hin, hout⟩
  cases hsvc : c.client.providerSvc with
  | false =>
    rw [hprog, Call.function_of_noProvider hsvc (List.get_mem _ _) a]
    rfl
  | true =>
    obtain ⟨client, selector, args⟩ := c
    rcases XeUserClient.selector_cases h with rfl | rfl | rfl | rfl | rfl | rfl
    · rw [hprog.trans (XeUserClient.sCreateBuffer_eq a hsvc), Prog.run_map, hs.run_ucCreateBuffer]
    · rw [hprog.trans (XeUserClient.sSubmit_eq a hsvc), Prog.run_map, hs.run_ucSubmitNoop]
    · exact absurd rfl hwait
    · rw [hprog.trans (XeUserClient.sReadRegs_eq a hsvc), Prog.run_map, ucReadRegs,
        hs.run_readList]
    · rw [hprog.trans (XeUserClient.checked_copyRecord_eq a ucGetGTConfig hsvc), Prog.run_map,
        ucGetGTConfig, hs.run_readList]
    · rw [hprog.trans (XeUserClient.checked_copyRecord_eq a ucGetDisplayInfo hsvc), Prog.run_map,
        ucGetDisplayInfo, hs.run_readList]

/-- So do any calls, one after another: by induction on them. -/
theorem Machine.Down.serve {P : Platform} {s : Machine} (hs : s.Down) (calls : List Call) :
    ((serve calls).run (exec P) s).2 = s
      ∧ List.Forall₂ (fun (c : Call) r => c.WellCounted →
          c.selector ≠ XeUserClient.kMethodWait → r.1 = .notReady)
        calls ((serve calls).run (exec P) s).1 := by
  induction calls with
  | nil => exact ⟨rfl, .nil⟩
  | cons c calls ih =>
    rw [run_serve_cons, hs.call]
    exact ⟨ih.1, .cons (fun hc hwait => hs.result hc hwait) ih.2⟩

/-! ## Lives with one `start` -/

/-- **A life of the service with one `start` at most**: what happens to it
in any order, each time with outcomes of its own. The index says whether it
was started. -/
inductive Lifecycle : Bool → Machine → Prop
  | fresh : Lifecycle false .fresh
  | init {s : Machine} (P : Platform) (h : Lifecycle false s) :
      Lifecycle false (s.after P .init)
  | start {s : Machine} (P : Platform) (h : Lifecycle false s) :
      Lifecycle true (s.after P .start)
  | call {b : Bool} {s : Machine} (P : Platform) (c : Call) (h : Lifecycle b s) :
      Lifecycle b (s.after P (.call c))
  | stop {b : Bool} {s : Machine} (P : Platform) (h : Lifecycle b s) :
      Lifecycle b (s.after P .stop)

/-- By induction on the life: before `start` the service is down, and ever
after the fields agree. -/
theorem lifecycle_wired {b : Bool} {s : Machine} (h : Lifecycle b s) :
    s.Wired ∧ (b = false → s.Down) := by
  induction h with
  | fresh => exact ⟨Machine.Down.wired ⟨rfl, rfl, rfl⟩, fun _ => ⟨rfl, rfl, rfl⟩⟩
  | @init s P _ ih =>
    have hdown : (s.after P .init).Down := by
      unfold Machine.after
      rw [run_init]
      exact ⟨(ih.2 rfl).bar0, (ih.2 rfl).mmio, (ih.2 rfl).boList⟩
    exact ⟨hdown.wired, fun _ => hdown⟩
  | start P _ ih => exact ⟨(ih.2 rfl).start P, fun h => nomatch h⟩
  | @call b s P c _ ih =>
    refine ⟨ih.1.call P c, fun hb => ?_⟩
    have hsame : s.after P (.call c) = s := (ih.2 hb).call c
    rw [hsame]
    exact ih.2 hb
  | stop P _ ih =>
    have hdown := ih.1.stop P
    exact ⟨hdown.wired, fun _ => hdown⟩

/-- **The lifecycle invariant.** In every state of a service that is started
once, however its `start` went: the pointer is there exactly if the mapping
is, then the length is not `0`, and a registry is there only together with
them. After a `stop` any calls leave everything as it is – no access, no
descriptor, no registry –, and every one of them that has the argument
counts of its entry, other than `kMethodWait`, is told that the service is
not ready. -/
theorem lifecycle_invariant {b : Bool} {s : Machine} (h : Lifecycle b s) :
    ((s.mmio ≠ 0 ↔ s.bar0.isSome = true) ∧ (s.mmio ≠ 0 → 0 < s.bar0Length)
        ∧ (s.boList.isSome = true → s.mmio ≠ 0))
      ∧ ∀ (P P' : Platform) (calls : List Call),
        ((serve calls).run (exec P') (s.after P .stop)).2 = s.after P .stop
          ∧ (s.after P .stop).boList = none
          ∧ List.Forall₂ (fun (c : Call) r => c.WellCounted →
              c.selector ≠ XeUserClient.kMethodWait → r.1 = .notReady)
            calls ((serve calls).run (exec P') (s.after P .stop)).1 := by
  obtain ⟨hwired, -⟩ := lifecycle_wired h
  refine ⟨⟨hwired.mapped, hwired.length, hwired.registry⟩, fun P P' calls => ?_⟩
  have hdown : (s.after P .stop).Down := hwired.stop P
  obtain ⟨hsame, hresults⟩ := hdown.serve (P := P') calls
  exact ⟨hsame, hdown.boList, hresults⟩

/-- A service that was started with success has its pointer, and its
registry. -/
theorem lifecycle_invariant_started :
    Lifecycle true Platform.ideal.started ∧ Platform.ideal.started.boList.isSome = true
      ∧ Platform.ideal.started.mmio ≠ 0 := by
  have hlife : Lifecycle true Platform.ideal.started := .start .ideal (.init .ideal .fresh)
  have hregistry : Platform.ideal.started.boList.isSome = true := by decide
  exact ⟨hlife, hregistry, (lifecycle_invariant hlife).1.2.2 hregistry⟩
