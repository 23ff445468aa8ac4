import XePCI.AbstractService

/-!
# The specification is exact

Every session of the driver is a run of the specification. A specification
that allowed everything would have as much to say for itself; so this module
shows the converse. Whatever run of the specification one writes down, after
whatever outcome of `start`, there are a boot argument, a BAR, a device and a
kernel on which the calls and shutdowns of the run are replied to exactly so
(`service_exact`).

The surroundings are made from a script: the outcomes of the allocations and
of the additions to the registry, the addresses of the buffers, and the
values of the registers that clients read, each in the order in which they
are asked for. A device that knows how often `readReg` has read can play the
last of these (`regReads`); what a guard or a probe reads through its own
accessors does not count.
-/

open XeService

/-! ## Scripts -/

/-- **What the surroundings are to answer.** -/
structure Script where
  /-- The outcomes of `withOptions`. -/
  allocs : List Bool := []
  /-- The outcomes of `setObject`. -/
  adds : List Bool := []
  /-- The addresses of the buffers. -/
  addrs : List UInt64 := []
  /-- The values of the registers read through `readReg`. -/
  values : List UInt32 := []

instance : Inhabited Script := ⟨{}⟩

instance : Append Script :=
  ⟨fun x y => ⟨x.allocs ++ y.allocs, x.adds ++ y.adds, x.addrs ++ y.addrs, x.values ++ y.values⟩⟩

/-- Whether an event is a read through `readReg`. -/
def MmioEvent.isRegRead : MmioEvent → Bool
  | .read .readReg _ _ => true
  | _ => false

/-- How often `readReg` has read. -/
def regReads (hist : List MmioEvent) : ℕ := hist.countP MmioEvent.isRegRead

/-- **The platform follows the script** from here on. -/
structure Platform.Follows (P : Platform) (s : Machine) (x : Script) : Prop where
  allocs : Serves P.withOptionsOk s.withOptionsCalls x.allocs
  adds : Serves P.setObjectOk s.setObjectCalls x.adds
  addrs : Serves P.bytesNoCopy s.buffers.length x.addrs
  values : ∃ f : ℕ → UInt32, (∀ hist off, P.hw hist off = f (regReads hist))
    ∧ Serves f (regReads s.hist) x.values

/-- It does so wherever as much was asked for. -/
theorem Platform.Follows.of_eq {P : Platform} {s s' : Machine} {x : Script} (h : P.Follows s x)
    (hallocs : s'.withOptionsCalls = s.withOptionsCalls)
    (hadds : s'.setObjectCalls = s.setObjectCalls)
    (haddrs : s'.buffers.length = s.buffers.length)
    (hvalues : regReads s'.hist = regReads s.hist) : P.Follows s' x := by
  obtain ⟨f, hf, hserves⟩ := h.values
  exact ⟨hallocs ▸ h.allocs, hadds ▸ h.adds, haddrs ▸ h.addrs, f, hf, hvalues ▸ hserves⟩

/-! ## What does not count -/

section RegReads

variable {P : Platform} {g : XeBootFlags} {m : UInt64} {s : Machine}

/-- An access on another path is not counted. -/
theorem regReads_cons_of_touch {e : MmioEvent} (h : ∀ t, e.touch? = some t → t.path ≠ .readReg)
    (hist : List MmioEvent) : regReads (e :: hist) = regReads hist := by
  refine List.countP_cons_of_neg ?_
  cases e with
  | read path off val =>
    cases path <;> first | exact absurd rfl (h _ rfl) | exact Bool.false_ne_true
  | _ => exact Bool.false_ne_true

/-- **A program that keeps off `readReg`** leaves the count, the flags and the
mapping alone. -/
theorem regReads_of_obeys {α : Type} {p : Kext α} {φ : GuardPhase} {Q : GuardPhase → α → Prop}
    (h : Prog.Obeys (footprint g m (fun _ => True) fun _ t => t.path ≠ .readReg) φ p Q)
    (hg : s.gXeBoot = g) (hm : s.mmio = m) :
    regReads (p.run (exec P) s).2.hist = regReads s.hist := by
  have hstep : ∀ (φ : GuardPhase) (o : KextOp) (t : Machine),
      (footprint g m (fun _ => True) fun _ t => t.path ≠ .readReg).allows φ o →
      t.gXeBoot = g ∧ t.mmio = m ∧ regReads t.hist = regReads s.hist →
        o.Answers g m (fun _ => True) φ (exec P o t).1 ∧ (exec P o t).2.gXeBoot = g
          ∧ (exec P o t).2.mmio = m ∧ regReads (exec P o t).2.hist = regReads s.hist := by
    intro φ o t ho ⟨hg, hm, hcount⟩
    obtain ⟨hboot, hmmio, -⟩ := exec_setup P ho.1 t
    have hanswers := exec_answers_true P o t φ
    rw [hg, hm] at hanswers
    refine ⟨hanswers, hboot.trans hg, hmmio.trans hm, ?_⟩
    rcases exec_hist P o t with ⟨hhist, -⟩ | ⟨e, hhist, htouch, -⟩
    · rw [hhist, hcount]
    · rw [hhist, regReads_cons_of_touch (fun t' ht' => ho.2.1 t' (htouch ▸ ht')), hcount]
  obtain ⟨-, ⟨-, -, hcount⟩, -⟩ := h.run
    (R := fun _ (t : Machine) => t.gXeBoot = g ∧ t.mmio = m ∧ regReads t.hist = regReads s.hist)
    hstep ⟨hg, hm, rfl⟩
  exact hcount

/-- What `logRcs0State` reads does not count. -/
theorem path_of_mem_rcs0Touches {p : GuardPhase × Touch} (h : p ∈ rcs0Touches g false) :
    p.2.path ≠ .readReg := by
  have hall : ∀ p ∈ guardTouches ++ readTouches .awake .csSafeRd ringRegs
      ++ readTouches .idle .csSafeRd ringRegs, p.2.path ≠ .readReg := by decide
  unfold rcs0Touches at h
  rw [if_neg Bool.false_ne_true] at h
  split_ifs at h
  · exact nomatch h
  · exact hall p (List.mem_append_right _ h)
  · exact hall p h

theorem regReads_ucSubmitNoop (P : Platform) (s : Machine) :
    regReads (ucSubmitNoop.run (exec P) s).2.hist = regReads s.hist := by
  have hack : false = true → ∀ r : UInt32, True → ForcewakeGuard.Acknowledges r :=
    fun h => nomatch h
  exact regReads_of_obeys (Q := fun _ _ => True)
    (obeys_ucSubmitNoop hack (fun _ _ hp => path_of_mem_rcs0Touches hp) fun _ _ => trivial) rfl rfl

end RegReads

/-! ## What a call does on a script -/

section Runs

variable {P : Platform} {s : Machine}

/-- As much was allocated and entered. -/
structure Machine.SameTally (s s' : Machine) : Prop where
  withOptionsCalls : s'.withOptionsCalls = s.withOptionsCalls
  setObjectCalls : s'.setObjectCalls = s.setObjectCalls
  buffers : s'.buffers.length = s.buffers.length

/-- A creation for which there is no memory. -/
theorem run_ucCreateBuffer_of_noMemory (hlist : s.boList.isSome = true)
    (halloc : P.withOptionsOk s.withOptionsCalls = false) (bytes : UInt32) :
    (ucCreateBuffer bytes).run (exec P) s
      = ((.noResources, 0), { s with withOptionsCalls := s.withOptionsCalls + 1 }) := by
  unfold ucCreateBuffer
  simp [hlist, Machine.withOptions, halloc]

/-- A creation for which there is, in a registry with room. -/
theorem run_ucCreateBuffer_of_room {a a' : OSArray} (hlist : s.boList = some a)
    (halloc : P.withOptionsOk s.withOptionsCalls = true)
    (hpush : a.push? s.buffers.length = some a') (hadd : P.setObjectOk s.setObjectCalls = true)
    (bytes : UInt32) :
    let r := (ucCreateBuffer bytes).run (exec P) s
    r.1.1 = .success ∧ r.2.withOptionsCalls = s.withOptionsCalls + 1
      ∧ r.2.setObjectCalls = s.setObjectCalls + 1
      ∧ r.2.buffers.length = s.buffers.length + 1 ∧ r.2.hist = s.hist := by
  unfold ucCreateBuffer
  simp [hlist, Machine.withOptions, halloc, Machine.setObject, hpush, hadd]

/-- A submission of a batch, on a mapping. -/
theorem run_submitNoop_of_room {m : UInt64} (hm : m ≠ 0) {md : ObjId}
    (hroom : ¬(s.buffers[md]?).elim 0 Buffer.length < 16) :
    ∃ s', (XeCommandStream.submitNoop m (some md)).run (exec P) s
        = (if s.view.stream = false then .notReady
          else if P.bytesNoCopy md = 0 then .noMemory else .success, s')
      ∧ s.SameTally s' := by
  unfold XeCommandStream.submitNoop
  rw [if_neg hm, Prog.run_bind, Prog.run_perform, exec_loadBoot]
  cases hoff : s.gXeBoot.disableCommandStream || s.gXeBoot.strictSafe with
  | true =>
    have hstream : s.view.stream = false := congrArg not hoff
    rw [if_pos rfl, if_pos hstream]
    exact ⟨s, rfl, rfl, rfl, rfl⟩
  | false =>
    have hstream : s.view.stream = true := congrArg not hoff
    rw [if_neg Bool.false_ne_true, if_neg (by rw [hstream]; exact Bool.noConfusion),
      Prog.run_bind, Prog.run_perform, exec_getBytesNoCopy]
    by_cases haddr : P.bytesNoCopy md = 0
    · rw [if_pos haddr, if_pos haddr]
      exact ⟨_, rfl, rfl, rfl, rfl⟩
    · rw [if_neg haddr, if_neg haddr, Prog.run_bind, Prog.run_perform, exec_getLength,
        if_neg hroom, Prog.run_bind, Prog.run_perform, exec_writeCmds, Prog.run_bind]
      refine ⟨_, rfl, ?_⟩
      -- looking at the ring leaves all but the history alone
      have hstill := fun t => (probes_logRcs0State m).run P t
      refine ⟨(congrArg Machine.withOptionsCalls (hstill _)).trans rfl,
        (congrArg Machine.setObjectCalls (hstill _)).trans rfl,
        (congrArg (fun t : Machine => t.buffers.length) (hstill _)).trans ?_⟩
      exact List.length_modify ..

theorem run_ucSubmitNoop_of_noMemory (hm : s.mmio ≠ 0)
    (halloc : P.withOptionsOk s.withOptionsCalls = false) :
    ucSubmitNoop.run (exec P) s
      = (.noResources, { s with withOptionsCalls := s.withOptionsCalls + 1 }) := by
  unfold ucSubmitNoop
  simp [hm, Machine.withOptions, halloc]

theorem run_ucSubmitNoop_of_batch (hm : s.mmio ≠ 0)
    (halloc : P.withOptionsOk s.withOptionsCalls = true) :
    let r := ucSubmitNoop.run (exec P) s
    r.1 = (if s.view.stream = false then .notReady
        else if P.bytesNoCopy s.buffers.length = 0 then .noMemory else .success)
      ∧ r.2.withOptionsCalls = s.withOptionsCalls + 1 ∧ r.2.setObjectCalls = s.setObjectCalls
      ∧ r.2.buffers.length = s.buffers.length + 1 := by
  unfold ucSubmitNoop
  rw [Prog.run_bind, Prog.run_perform, exec_getMmio, if_neg hm, Prog.run_bind, Prog.run_perform,
    exec_withOptions, Machine.withOptions, if_pos halloc]
  dsimp only
  rw [Prog.run_bind, Prog.run_perform, exec_getMmio, Prog.run_bind]
  set t : Machine := { s with
    withOptionsCalls := s.withOptionsCalls + 1
    buffers := s.buffers ++ [⟨(4096 : UInt32).toUInt64, []⟩]
    objLog := .alloc s.buffers.length :: s.objLog } with ht
  have hroom : ¬(t.buffers[s.buffers.length]?).elim 0 Buffer.length < 16 := by
    rw [show t.buffers[s.buffers.length]? = some ⟨(4096 : UInt32).toUInt64, []⟩ from
      List.getElem?_concat_length]
    decide
  obtain ⟨s', hrun, htally⟩ := run_submitNoop_of_room (P := P) (s := t) (m := t.mmio) hm hroom
  rw [hrun]
  refine ⟨rfl, htally.withOptionsCalls, htally.setObjectCalls, htally.buffers.trans ?_⟩
  exact List.length_append

/-- The values of the registers that lie in the BAR. -/
def inBar (L : UInt64) (offs vals : List UInt32) : List UInt32 :=
  ((offs.zip vals).filter fun p => p.1.toUInt64 < L).map Prod.snd

/-- **Registers are read as the script says**: by induction on them. -/
theorem run_mapM_readReg {L : UInt64} (hL : L ≠ 0) {f : ℕ → UInt32}
    (hf : ∀ hist off, P.hw hist off = f (regReads hist)) {rest : List UInt32}
    {offs vals : List UInt32} (hvals : List.Forall₂ (ReadsAs L) offs vals)
    (hsafe : ∀ off ∈ offs, ¬kMaxSafeMmioOffset < off) {s : Machine} (hm : s.mmio ≠ 0)
    (hlen : s.bar0Length = L) (hserves : Serves f (regReads s.hist) (inBar L offs vals ++ rest)) :
    ∃ s', (offs.mapM readReg).run (exec P) s = (vals, s') ∧ s'.still = s.still
      ∧ Serves f (regReads s'.hist) rest := by
  induction hvals generalizing s with
  | nil => exact ⟨s, rfl, rfl, hserves⟩
  | @cons off val offs vals hval _ ih =>
    have hsafe' : ∀ off ∈ offs, ¬kMaxSafeMmioOffset < off :=
      fun off' hoff' => hsafe off' (List.mem_cons_of_mem off hoff')
    have hread : readReg off = req (.readRegSafe off) := rfl
    rw [List.mapM_cons, Prog.run_bind, hread, Prog.run_perform, exec_readRegSafe,
      Machine.readRegSafe, if_neg hm, if_neg (hsafe off List.mem_cons_self), hlen]
    by_cases hin : off.toUInt64 < L
    · -- the register lies in the BAR, and the device plays its value
      have hbar : inBar L (off :: offs) (val :: vals) = val :: inBar L offs vals := by
        simp [inBar, hin]
      rw [hbar, List.cons_append, serves_cons] at hserves
      have hnot : ¬(0 < L ∧ L ≤ off.toUInt64) := fun h => UInt64.not_le.mpr hin h.2
      rw [if_neg hnot]
      obtain ⟨s', hrun, hstill, hrest⟩ := ih hsafe' (s := (s.readDword P .readReg off).2) hm hlen
        (by
          have hcount : regReads (s.readDword P .readReg off).2.hist = regReads s.hist + 1 :=
            List.countP_cons_of_pos rfl
          rw [hcount]
          exact hserves.2)
      refine ⟨s', ?_, hstill, hrest⟩
      rw [Prog.run_bind, hrun]
      refine Prod.ext ?_ rfl
      show P.hw s.hist off :: vals = val :: vals
      rw [hf, hserves.1]
    · -- it lies past its end
      have hle : L ≤ off.toUInt64 := UInt64.not_lt.mp hin
      have hbar : inBar L (off :: offs) (val :: vals) = inBar L offs vals := by
        simp [inBar, hin]
      rw [hbar] at hserves
      rw [if_pos ⟨UInt64.pos_iff_ne_zero.mpr hL, hle⟩]
      obtain ⟨s', hrun, hstill, hrest⟩ := ih hsafe' hm hlen hserves
      refine ⟨s', ?_, hstill, hrest⟩
      rw [Prog.run_bind, hrun]
      refine Prod.ext ?_ rfl
      show kSentinelOutOfRange :: vals = val :: vals
      rw [hval hL hle]

end Runs

/-! ## Every step can be played -/

section Play

variable {P : Platform} {s : Machine} {v : View} {o : Reply} {y : Script}

/-- A creation is replied to as the script says. -/
theorem play_createBuffer (bytes : UInt32) {v' : View} (h : View.Step v .createBuffer o v') :
    ∃ x : Script, ∀ (P : Platform) (s : Machine) (y : Script), s.view = v →
      P.Follows s (x ++ y) →
        let r := (ucCreateBuffer bytes).run (exec P) s
        r.1.1 = o.1 ∧ P.Follows r.2 y := by
  cases h with
  | answer h =>
    cases h with
    | noRegistry hcount =>
      refine ⟨{}, fun P s y hv hfollows => ?_⟩
      have hlist : s.boList = none :=
        Option.map_eq_none_iff.mp ((congrArg View.count hv).trans hcount)
      have hrun : (ucCreateBuffer bytes).run (exec P) s = ((.notReady, 0), s) := by
        unfold ucCreateBuffer
        rw [Prog.run_bind, Prog.run_perform, exec_hasBoList, hlist]
        rfl
      rw [hrun]
      exact ⟨rfl, hfollows⟩
    | notCreated hcount =>
      refine ⟨{ allocs := [false] }, fun P s y hv hfollows => ?_⟩
      obtain ⟨halloc, hallocs⟩ := serves_cons.mp hfollows.allocs
      have hlist : s.boList.isSome = true := by
        rw [← hv] at hcount
        exact Option.isSome_map.symm.trans hcount
      rw [run_ucCreateBuffer_of_noMemory hlist halloc]
      exact ⟨rfl, hallocs, hfollows.adds, hfollows.addrs, hfollows.values⟩
  | created hcount hn =>
    refine ⟨{ allocs := [true], adds := [true], addrs := [0] }, fun P s y hv hfollows => ?_⟩
    obtain ⟨halloc, hallocs⟩ := serves_cons.mp hfollows.allocs
    obtain ⟨hadd, hadds⟩ := serves_cons.mp hfollows.adds
    obtain ⟨-, haddrs⟩ := serves_cons.mp hfollows.addrs
    rw [← hv] at hcount
    obtain ⟨a, ha, hlen⟩ := Option.map_eq_some_iff.mp hcount
    have hsize : a.objs.length + 1 < UInt32.size := hlen ▸ hn
    have hpush : a.push? s.buffers.length
        = some ⟨a.objs ++ [s.buffers.length], by simpa using hsize⟩ := dif_pos hsize
    obtain ⟨hkr, hcalls, hsets, hbuffers, hhist⟩ :=
      run_ucCreateBuffer_of_room ha halloc hpush hadd bytes
    refine ⟨hkr, hcalls ▸ hallocs, hsets ▸ hadds, hbuffers ▸ haddrs, ?_⟩
    rw [hhist]
    exact hfollows.values

/-- A submission is replied to as the script says. -/
theorem play_submit {v' : View} (h : View.Step v .submit o v') :
    ∃ x : Script, ∀ (P : Platform) (s : Machine) (y : Script), s.view = v →
      P.Follows s (x ++ y) →
        let r := ucSubmitNoop.run (exec P) s
        (r.1, []) = o ∧ P.Follows r.2 y := by
  -- with a batch, the address decides
  have hbatch (addr : UInt64) (hlen : v.length.isSome = true)
      (ho : o = (if v.stream = false then .notReady
        else if addr = 0 then .noMemory else .success, [])) :
      ∃ x : Script, ∀ (P : Platform) (s : Machine) (y : Script), s.view = v →
        P.Follows s (x ++ y) →
          let r := ucSubmitNoop.run (exec P) s
          (r.1, []) = o ∧ P.Follows r.2 y := by
    refine ⟨{ allocs := [true], addrs := [addr] }, fun P s y hv hfollows => ?_⟩
    obtain ⟨halloc, hallocs⟩ := serves_cons.mp hfollows.allocs
    obtain ⟨haddr, haddrs⟩ := serves_cons.mp hfollows.addrs
    have hm : s.mmio ≠ 0 := fun hm => by
      rw [← hv, Machine.view_length_eq_none.mpr hm] at hlen
      exact nomatch hlen
    obtain ⟨hkr, hcalls, hsets, hbuffers⟩ := run_ucSubmitNoop_of_batch hm halloc
    refine ⟨?_, ?_⟩
    · rw [ho, hkr, hv, haddr]
    · obtain ⟨f, hf, hvalues⟩ := hfollows.values
      exact ⟨hcalls ▸ hallocs, hsets ▸ hfollows.adds, hbuffers ▸ haddrs, f, hf,
        (regReads_ucSubmitNoop P s).symm ▸ hvalues⟩
  cases h with
  | answer h =>
    cases h with
    | noStream hnone =>
      cases hlen : v.length with
      | none =>
        refine ⟨{}, fun P s y hv hfollows => ?_⟩
        have hm : s.mmio = 0 :=
          Machine.view_length_eq_none.mp ((congrArg View.length hv).trans hlen)
        have hrun : ucSubmitNoop.run (exec P) s = (.notReady, s) := by
          unfold ucSubmitNoop
          rw [Prog.run_bind, Prog.run_perform, exec_getMmio, if_pos hm]
          rfl
        rw [hrun]
        exact ⟨rfl, hfollows⟩
      | some L =>
        rw [hlen] at hnone
        have hoff : v.stream = false := hnone.resolve_left (Option.some_ne_none L)
        exact hbatch 0 (hlen ▸ rfl) (by rw [if_pos hoff])
    | noBatch hlen =>
      refine ⟨{ allocs := [false] }, fun P s y hv hfollows => ?_⟩
      obtain ⟨halloc, hallocs⟩ := serves_cons.mp hfollows.allocs
      have hm : s.mmio ≠ 0 := fun hm => by
        rw [← hv, Machine.view_length_eq_none.mpr hm] at hlen
        exact nomatch hlen
      rw [run_ucSubmitNoop_of_noMemory hm halloc]
      exact ⟨rfl, hallocs, hfollows.adds, hfollows.addrs, hfollows.values⟩
    | noAddress hlen hs => exact hbatch 0 hlen (by rw [hs]; rfl)
    | submitted hlen hs => exact hbatch 1 hlen (by rw [hs]; rfl)

/-- Registers are replied to as the script says. -/
theorem play_read {offs : List UInt32} (hlen : offs.length = 8)
    (hsafe : ∀ off ∈ offs, ¬kMaxSafeMmioOffset < off) {v' : View}
    (h : View.Step v (.read offs) o v') :
    ∃ x : Script, ∀ (P : Platform) (s : Machine) (y : Script), s.view = v → s.Wired →
      P.Follows s (x ++ y) →
        let r := (readList offs).run (exec P) s
        Reply.of (fun out => (out.take 8).map UInt32.toUInt64) r.1 = o ∧ P.Follows r.2 y := by
  cases h with
  | answer h =>
    cases h with
    | noBar offs hnone =>
      refine ⟨{}, fun P s y hv _ hfollows => ?_⟩
      have hm : s.mmio = 0 := Machine.view_length_eq_none.mp ((congrArg View.length hv).trans hnone)
      have hrun : (readList offs).run (exec P) s = ((.notReady, []), s) := by
        unfold readList
        rw [Prog.run_bind, Prog.run_perform, exec_getMmio, if_pos hm]
        rfl
      rw [hrun]
      exact ⟨rfl, hfollows⟩
    | @read L hL _ vals hvals =>
      refine ⟨{ values := inBar L offs vals }, fun P s y hv hwired hfollows => ?_⟩
      obtain ⟨hm, hbar⟩ := Machine.view_length_eq_some.mp ((congrArg View.length hv).trans hL)
      have hpos : L ≠ 0 := hbar ▸ UInt64.pos_iff_ne_zero.mp (hwired.length hm)
      obtain ⟨f, hf, hserves⟩ := hfollows.values
      obtain ⟨s', hrun, hstill, hrest⟩ := run_mapM_readReg hpos hf hvals hsafe hm hbar hserves
      have hread : (readList offs).run (exec P) s = ((.success, vals), s') := by
        unfold readList
        rw [Prog.run_bind, Prog.run_perform, exec_getMmio, if_neg hm, Prog.run_bind, hrun]
        rfl
      have htake : vals.take 8 = vals :=
        List.take_of_length_le (hvals.length_eq.symm.trans hlen).le
      have hsame : s' = { s with hist := s'.hist } := Machine.eq_of_still hstill
      rw [hread]
      refine ⟨?_, ?_⟩
      · rw [Reply.of_success, htake]
      · rw [hsame]
        exact ⟨hfollows.allocs, hfollows.adds, hfollows.addrs, f, hf, hrest⟩

/-- **A script can be written** on which the program returns `a` and takes the
view `v` to `v'`, whatever is to be played after it. -/
def Plays {α : Type} (p : Kext α) (v : View) (a : α) (v' : View) : Prop :=
  ∃ x : Script, ∀ (P : Platform) (s : Machine) (y : Script), s.view = v ∧ s.Wired →
    P.Follows s (x ++ y) →
      (p.run (exec P) s).1 = a ∧ ((p.run (exec P) s).2.view = v' ∧ (p.run (exec P) s).2.Wired)
        ∧ P.Follows (p.run (exec P) s).2 y

theorem plays_return {α : Type} (a : α) (v : View) : Plays (return a) v a v :=
  ⟨{}, fun _ _ _ hs hfollows => ⟨rfl, hs, hfollows⟩⟩

theorem Plays.map {α β : Type} {p : Kext α} {v v' : View} {a : α} (h : Plays p v a v')
    (g : α → β) : Plays (g <$> p) v (g a) v' := by
  obtain ⟨x, hx⟩ := h
  refine ⟨x, fun P s y hs hfollows => ?_⟩
  obtain ⟨hresult, hrest⟩ := hx P s y hs hfollows
  rw [Prog.run_map]
  exact ⟨congrArg g hresult, hrest⟩

/-- **Every step of the specification can be played.** -/
theorem play_event {e : Option Call} {v' : View}
    (h : (serviceSpec.comap eventRequest).step v e o v') : Plays (eventProg e) v o v' := by
  replace h : View.Step v (eventRequest e) o v' := h
  -- the reply tells the view
  suffices hplay : ∃ x : Script, ∀ (P : Platform) (s : Machine) (y : Script), s.view = v →
      s.Wired → P.Follows s (x ++ y) →
        ((eventProg e).run (exec P) s).1 = o ∧ P.Follows ((eventProg e).run (exec P) s).2 y by
    obtain ⟨x, hx⟩ := hplay
    refine ⟨x, fun P s y ⟨hv, hwired⟩ hfollows => ?_⟩
    obtain ⟨hreply, hfollows'⟩ := hx P s y hv hwired hfollows
    obtain ⟨hstep, hwired'⟩ := event_step P e hwired
    refine ⟨hreply, ⟨?_, hwired'⟩, hfollows'⟩
    rw [View.Step.eq_after hstep, h.eq_after, hv, hreply]
  cases e with
  | none =>
    refine ⟨{}, fun P s y _ _ hfollows => ?_⟩
    have hframe := frame_stop P s
    rw [Prod.mk.injEq, Prod.mk.injEq, Prod.mk.injEq, Prod.mk.injEq] at hframe
    obtain ⟨-, hallocs, hadds, hbuffers, hhist⟩ := hframe
    unfold eventProg
    rw [Prog.run_map]
    refine ⟨?_, ?_⟩
    · exact h.reply_stop.symm
    · have hfollows' : P.Follows s y := hfollows
      exact hfollows'.of_eq hallocs hadds (congrArg List.length hbuffers) (congrArg regReads hhist)
  | some c =>
    have hfirst : ∀ {q : Kext Reply}, reply <$> c.prog = q → eventProg (some c) = q := fun hq => hq
    replace h : View.Step v c.request o v' := h
    cases c.asks with
    | refused kr hkr hr hp =>
      rw [hr] at h
      refine ⟨{}, fun P s y _ _ hfollows => ?_⟩
      rw [hfirst rfl, hp, Prog.run_map]
      exact ⟨(reply_of_ne hkr _).trans h.reply_refused.symm, hfollows⟩
    | createBuffer bytes hr hp =>
      rw [hr] at h
      obtain ⟨x, hx⟩ := play_createBuffer bytes h
      refine ⟨x, fun P s y hv hwired hfollows => ?_⟩
      obtain ⟨hkr, hfollows'⟩ := hx P s y hv hfollows
      have hstep : View.Step s.view (eventRequest (some c)) _ _ := (event_step P (some c) hwired).1
      rw [show eventRequest (some c) = .createBuffer from hr, hv] at hstep
      rw [hfirst hp, Prog.run_map] at hstep ⊢
      refine ⟨?_, hfollows'⟩
      have hcode : (Reply.of (fun cookie => [cookie])
          ((ucCreateBuffer bytes).run (exec P) s).1).1 = o.1 := by
        rw [← hkr]
        unfold Reply.of
        split_ifs with hsuccess
        · exact hsuccess.symm
        · rfl
      rw [hstep.reply_createBuffer, h.reply_createBuffer, hcode]
    | submit hr hp =>
      rw [hr] at h
      obtain ⟨x, hx⟩ := play_submit h
      refine ⟨x, fun P s y hv _ hfollows => ?_⟩
      rw [hfirst hp, Prog.run_map]
      exact hx P s y hv hfollows
    | wait timeoutMs hr hp =>
      rw [hr] at h
      refine ⟨{}, fun P s y _ _ hfollows => ?_⟩
      rw [hfirst hp, Prog.run_map]
      exact ⟨h.reply_wait.symm, hfollows⟩
    | read offs hr hlen hsafe hp =>
      rw [hr] at h
      obtain ⟨x, hx⟩ := play_read hlen hsafe h
      refine ⟨x, fun P s y hv hwired hfollows => ?_⟩
      rw [hfirst hp, Prog.run_map]
      exact hx P s y hv hwired hfollows

end Play

/-! ## A platform for every run -/

section Start

variable {P : Platform} {f : ℕ → UInt32} {rest : List UInt32} {L : UInt64}

/-- Values for the registers `start` reads, which nobody gets to see. -/
def blank (L : UInt64) (offs : List UInt32) : List UInt32 :=
  offs.map fun off => if off.toUInt64 < L then 0 else kSentinelOutOfRange

theorem readsAs_blank (L : UInt64) (offs : List UInt32) :
    List.Forall₂ (ReadsAs L) offs (blank L offs) := by
  unfold blank
  rw [List.forall₂_map_right_iff, List.forall₂_same]
  exact fun off _ _ hle => if_neg (UInt64.not_lt.mpr hle)

/-- What a device that plays a script has to begin with: the registers `start`
reads. -/
def startValues (L : UInt64) : List UInt32 :=
  inBar L powerStateRegs (blank L powerStateRegs)
    ++ inBar L displayStateRegs (blank L displayStateRegs)

/-- Looking at the device keeps the flags, the mapping and its length. -/
theorem Machine.setup_of_still {s t : Machine} (h : t.still = s.still) :
    t.gXeBoot = s.gXeBoot ∧ t.mmio = s.mmio ∧ t.bar0Length = s.bar0Length := by
  rw [Machine.eq_of_still h]
  exact ⟨rfl, rfl, rfl⟩

/-- The probes of `start` play their part of the script. -/
theorem serves_probeGpu (hf : ∀ hist off, P.hw hist off = f (regReads hist)) {s : Machine}
    (hm : s.mmio ≠ 0) (hL : s.bar0Length ≠ 0) (hstrict : s.gXeBoot.strictSafe = false)
    (hserves : Serves f (regReads s.hist) (startValues s.bar0Length ++ rest)) :
    Serves f (regReads (probeGpu.run (exec P) s).2.hist) rest := by
  unfold startValues at hserves
  rw [List.append_assoc] at hserves
  obtain ⟨t, hpower, ht, hserves⟩ := run_mapM_readReg hL hf (readsAs_blank _ powerStateRegs)
    (not_pastSafe_of_all rfl) hm rfl hserves
  obtain ⟨-, hmmio, -⟩ := Machine.setup_of_still ht
  -- the GGTT is probed through an accessor of its own
  have hprobe : regReads ((XeGGTT.probe s.mmio).run (exec P) t).2.hist = regReads t.hist :=
    regReads_of_obeys (φ := .idle) (Q := fun _ _ => True)
      (obeys_probe (fun _ _ => (by decide : AccessPath.ggttSafeRead ≠ .readReg))
        fun _ => trivial) rfl hmmio
  have ht' : ((XeGGTT.probe s.mmio).run (exec P) t).2.still = s.still :=
    ((probes_probe s.mmio).run P t).trans ht
  obtain ⟨-, hmmio', hlength⟩ := Machine.setup_of_still ht'
  obtain ⟨t', hdisplay, -, hserves⟩ := run_mapM_readReg hL hf (readsAs_blank _ displayStateRegs)
    (not_pastSafe_of_all rfl) (s := ((XeGGTT.probe s.mmio).run (exec P) t).2)
    (hmmio'.trans_ne hm) hlength (hprobe.symm ▸ hserves)
  have hrun : (probeGpu.run (exec P) s).2 = t' := by
    unfold probeGpu logPowerState logDisplayState
    rw [Prog.run_bind, Prog.run_perform, exec_loadBoot, hstrict, if_neg Bool.false_ne_true,
      Prog.run_bind, hpower, Prog.run_bind, Prog.run_perform, exec_getMmio, hmmio, Prog.run_bind,
      Prog.run_bind, hdisplay]
    rfl
  rw [hrun]
  exact hserves

/-- **After `start` the rest of the script is left to play.** -/
theorem serves_started {map : IOMemoryMap} (hmap : P.mapped = some map)
    (hstrict : P.flags.strictSafe = false) (hf : ∀ hist off, P.hw hist off = f (regReads hist))
    (hserves : Serves f 0 (startValues map.length ++ rest)) :
    Serves f (regReads P.started.hist) rest := by
  obtain ⟨-, -, -, hlen, hva⟩ := mapped_eq_some hmap
  have hinit : (P.initialized.withMapping map).gXeBoot = P.flags
      ∧ (P.initialized.withMapping map).hist = [] := by
    rw [initialized_eq]
    exact ⟨rfl, rfl⟩
  set s := P.initialized.withMapping map with hs
  have hsample : Probes sampleRegisters := Prog.Issues.mapM fun _ _ =>
    Prog.Issues.bind (Prog.issues_perform rfl) fun _ => Prog.issues_perform rfl
  have hstill := hsample.run P s
  have hcount : regReads (sampleRegisters.run (exec P) s).2.hist = 0 := by
    rw [regReads_of_obeys (φ := .idle) (Q := fun _ _ => True)
      (obeys_sampleRegisters (fun _ _ => (by decide : AccessPath.startRaw ≠ .readReg))
        fun _ => trivial) rfl rfl, hinit.2]
    rfl
  unfold Platform.started
  rw [run_start_of_mapped hmap, ← hs]
  unfold bringUp
  rw [Prog.run_bind, Prog.run_bind]
  generalize (sampleRegisters.run (exec P) s).2 = t at hstill hcount
  obtain ⟨hboot, hmmio, hlength⟩ := Machine.setup_of_still hstill
  have hlength : t.bar0Length = map.length := hlength
  refine serves_probeGpu hf (hmmio.trans_ne hva) (hlength.trans_ne hlen)
    (hboot.trans hinit.1 ▸ hstrict) ?_
  rw [hcount, hlength]
  exact hserves

end Start

/-- The boot argument `nocs`. -/
def nocsArg : BootArg := ⟨tokenNocs, by decide, by decide⟩

/-- **The platform that plays a script** after a `start` that returns `ok` and
leaves the view `v`. -/
def Platform.playing (ok : Bool) (v : View) (allocs adds : ℕ → Bool) (addrs : ℕ → UInt64)
    (values : ℕ → UInt32) : Platform where
  superInit := true
  bootArg := if v.stream then none else some nocsArg
  superStart := true
  providerIsPci := true
  bar0 := v.length.map fun L => ⟨L, 0x1000⟩
  withCapacityOk := ok
  hw := fun hist _ => values (regReads hist)
  withOptionsOk := allocs
  bytesNoCopy := addrs
  setObjectOk := adds

section Playing

variable {ok : Bool} {v : View} (allocs adds : ℕ → Bool) (addrs : ℕ → UInt64)
variable (values : ℕ → UInt32)

theorem flags_playing :
    (Platform.playing ok v allocs adds addrs values).flags
      = { disableCommandStream := !v.stream } := by
  rw [flags_eq]
  show Option.elim (if v.stream then none else some nocsArg) _ _ = _
  cases v.stream with
  | false =>
    show (XeBootFlags.parse nocsArg {}).getD {} = _
    decide
  | true => rfl

theorem mapped_playing (hv : View.Started ok v) :
    (Platform.playing ok v allocs adds addrs values).mapped
      = v.length.map fun L => ⟨L, 0x1000⟩ := by
  show Option.filter _ (v.length.map _) = _
  cases hlen : v.length with
  | none => rfl
  | some L =>
    refine Option.filter_eq_some_iff.mpr ⟨rfl, ?_⟩
    simp [hv.length L hlen]

/-- **The platform starts as it is to**, with all of the script before it. -/
theorem started_playing (hv : View.Started ok v) :
    let P := Platform.playing ok v allocs adds addrs values
    (start.run (exec P) P.initialized).1 = ok ∧ P.started.view = v
      ∧ P.started.withOptionsCalls = 0 ∧ P.started.setObjectCalls = 0 ∧ P.started.buffers = [] := by
  intro P
  have hmapped : P.mapped = v.length.map fun L => ⟨L, 0x1000⟩ := mapped_playing _ _ _ _ hv
  have hstream : (!(P.flags.disableCommandStream || P.flags.strictSafe)) = v.stream := by
    rw [show P.flags = _ from flags_playing ..]
    cases v.stream <;> rfl
  unfold Platform.started
  rw [initialized_eq]
  cases hlen : v.length with
  | none =>
    rw [hlen] at hmapped
    have hok : ok = false := Bool.eq_false_iff.mpr fun hok => by
      have hsome := hv.mapped hok
      rw [hlen] at hsome
      exact nomatch hsome
    obtain ⟨pci, L, hrun⟩ := run_start_of_down_of_unmapped hmapped
      (s := { Machine.fresh with gXeBoot := P.flags }) ⟨rfl, rfl, rfl⟩
    rw [hrun]
    refine ⟨hok.symm, ?_, rfl, rfl, rfl⟩
    show View.mk none none (!(P.flags.disableCommandStream || P.flags.strictSafe)) = v
    have hcount := hv.count
    rw [hok] at hcount
    rw [hstream, ← hlen]
    exact congrArg (fun n => View.mk v.length n v.stream) hcount.symm
  | some L =>
    rw [hlen] at hmapped
    obtain ⟨hist, hrun⟩ := run_start_eq_of_mapped hmapped
      { Machine.fresh with gXeBoot := P.flags }
    rw [hrun]
    refine ⟨rfl, ?_, rfl, rfl, rfl⟩
    have hcount : (if ok then some OSArray.empty else none).map (fun a => a.objs.length)
        = v.count := by
      rw [hv.count]
      cases ok <;> rfl
    show View.mk (some L) ((if ok then some OSArray.empty else none).map fun a => a.objs.length)
      (!(P.flags.disableCommandStream || P.flags.strictSafe)) = v
    rw [hstream, hcount, ← hlen]

/-- The values of the script are before it as well. -/
theorem serves_started_playing (hv : View.Started ok v) {rest : List UInt32}
    (hvalues : Serves values 0 (v.length.elim [] startValues ++ rest)) :
    Serves values
      (regReads (Platform.playing ok v allocs adds addrs values).started.hist) rest := by
  set P := Platform.playing ok v allocs adds addrs values
  have hmapped : P.mapped = v.length.map fun L => ⟨L, 0x1000⟩ := mapped_playing _ _ _ _ hv
  cases hlen : v.length with
  | none =>
    rw [hlen] at hmapped hvalues
    have hmmio : P.initialized.mmio = 0 ∧ P.initialized.hist = [] := by
      rw [initialized_eq]
      exact ⟨rfl, rfl⟩
    obtain ⟨-, -, hhist, -⟩ := run_mapBar0_of_unmapped hmapped hmmio.1
    unfold Platform.started
    rw [run_start_of_unmapped hmapped hmmio.1, hhist, hmmio.2]
    exact hvalues
  | some L =>
    rw [hlen] at hmapped hvalues
    have hstrict : P.flags.strictSafe = false := by rw [show P.flags = _ from flags_playing ..]
    exact serves_started hmapped hstrict (fun _ _ => rfl) hvalues

end Playing

/-! ## Exactly these runs -/

/-- **Programs that make the steps of a specification**, each of which can be
played, are replied to exactly as its runs say: the runs from a view that
`start` may leave. -/
theorem runs_exact {ε ω : Type} {A : Spec View ε ω} {f : ε → Kext ω}
    (hstep : ∀ (P : Platform) (e : ε) {s : Machine}, s.Wired →
      A.step s.view e ((f e).run (exec P) s).1 ((f e).run (exec P) s).2.view
        ∧ ((f e).run (exec P) s).2.Wired)
    (hplay : ∀ {v e o v'}, A.step v e o v' → Plays (f e) v o v')
    (ok : Bool) (tr : List (ε × ω)) :
    (∃ P : Platform, (start.run (exec P) P.initialized).1 = ok
        ∧ (((tr.map Prod.fst).mapM f).run (exec P) P.started).1 = tr.map Prod.snd)
      ↔ ∃ v v', View.Started ok v ∧ A.Run v tr v' := by
  constructor
  · rintro ⟨P, rfl, hreplies⟩
    have hmoves : ∀ (e : ε) (s : Machine) (v : View), s.view = v ∧ s.Wired →
        ∃ v', A.step v e ((f e).run (exec P) s).1 v'
          ∧ ((f e).run (exec P) s).2.view = v' ∧ ((f e).run (exec P) s).2.Wired := by
      rintro e s v ⟨rfl, hwired⟩
      obtain ⟨hfirst, hwired'⟩ := hstep P e hwired
      exact ⟨_, hfirst, rfl, hwired'⟩
    obtain ⟨v', hrun, -⟩ := Spec.run_of_steps (R := fun s v => s.view = v ∧ s.Wired) hmoves
      (tr.map Prod.fst) (s := P.started) ⟨rfl, (initialized_down P).start P⟩
    refine ⟨P.started.view, v', view_started P, ?_⟩
    unfold Spec.trace at hrun
    rw [hreplies, ← List.unzip_fst, ← List.unzip_snd, List.zip_unzip] at hrun
    exact hrun
  · rintro ⟨v, v', hv, hrun⟩
    obtain ⟨x, hx⟩ := Spec.exists_script (R := fun (s : Machine) v => s.view = v ∧ s.Wired)
      hplay hrun
    -- the device begins with what `start` reads
    obtain ⟨values, hvalues⟩ := exists_serves 0 (v.length.elim [] startValues ++ x.values)
    obtain ⟨allocs, hallocs⟩ := exists_serves 0 x.allocs
    obtain ⟨adds, hadds⟩ := exists_serves 0 x.adds
    obtain ⟨addrs, haddrs⟩ := exists_serves 0 x.addrs
    obtain ⟨hok, hview, hcalls, hsets, hbuffers⟩ := started_playing allocs adds addrs values hv
    set P := Platform.playing ok v allocs adds addrs values
    have hfollows : P.Follows P.started x := by
      refine ⟨hcalls ▸ hallocs, hsets ▸ hadds, ?_, values, fun _ _ => rfl,
        serves_started_playing allocs adds addrs values hv hvalues⟩
      rw [hbuffers]
      exact haddrs
    exact ⟨P, hok, hx P P.started ⟨hview, (initialized_down P).start P⟩ hfollows⟩

/-- **The specification is exact.** What `start` returns on some platform, and
what the calls and shutdowns after it are replied to, are exactly the runs of
the specification from a view that such a `start` may leave. -/
theorem service_exact (ok : Bool) (tr : List (Option Call × Reply)) :
    (∃ P : Platform, (start.run (exec P) P.initialized).1 = ok
        ∧ (((tr.map Prod.fst).mapM eventProg).run (exec P) P.started).1 = tr.map Prod.snd)
      ↔ ∃ v v', View.Started ok v ∧ (serviceSpec.comap eventRequest).Run v tr v' :=
  runs_exact event_step play_event ok tr
