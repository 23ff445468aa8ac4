import XePCI.Budget
import XePCI.RegistryRaces
import XePCI.UnmapRaces

/-!
# How long a call takes

No method of the service waits: none takes a lock, and the one loop that
depends on the device, a guard's polling, is cut off after 50 rounds. So a
call is bounded twice over. In steps: it returns after so many requests of
its own, whatever other calls and shutdowns do in between
(`calls_waitFree`). And in accesses: the device sees no more than so many
from it, and from the whole session (`access_budget`).

That a call gets to make its requests takes more. A shutdown at the wrong
moment leaves it with a registry, a descriptor or a mapping that is gone, and
a request made of one of those does not return (`Faults`). The conditions
under which references balance and nothing is accessed after the release are
enough for there to be no such request.

Both bounds are one count. `KextOp.weight u` weighs an access `1` and any
other request `u`, and `Call.cost g u` is the cost of a call under the boot
flags `g`: for `u = 1` these are its steps, for `u = 0` its accesses. The
flags matter, since `nocs` takes the ring out of a submission and
`noforcewake` the guard.
-/

open XeService

/-- The weight of a request: `1` for an access, `u` for any other. -/
def KextOp.weight (u : ℕ) (o : KextOp) : ℕ := if o.touch?.isSome then 1 else u

/-- The requests that keep the boot flags. -/
def KextOp.keepsBoot : KextOp → Prop
  | storeBoot _ => False
  | _ => True

/-- The flags are loaded as they are. -/
def KextOp.LoadsFlags (g : XeBootFlags) : (o : KextOp) → o.Resp → Prop
  | loadBoot, r => r = g
  | _, _ => True

/-- **The program costs at most `n`** under the flags `g`. -/
abbrev Costs {α : Type} (g : XeBootFlags) (u n : ℕ) (p : Kext α) : Prop :=
  p.Within KextOp.keepsBoot (KextOp.LoadsFlags g) (KextOp.weight u) n

/-- What a request does to the flags and to the number of accesses. -/
theorem exec_costs (P : Platform) (g : XeBootFlags) (o : KextOp) (s : Machine)
    (ho : o.keepsBoot) (hs : s.gXeBoot = g) :
    (o.LoadsFlags g (exec P o s).1 ∧ (exec P o s).2.gXeBoot = g)
      ∧ (accesses (exec P o s).2.hist).length ≤ (accesses s.hist).length + o.weight 0 := by
  refine ⟨⟨?_, ?_⟩, ?_⟩
  · cases o <;> trivial
  · subst hs
    cases o with
    | storeBoot g => exact ho.elim
    | setObject md => rw [setObject_eq]
    | getObject i => rw [getObject_eq]
    | withOptions capacity => rw [withOptions_eq]
    | readRegSafe off => rw [readRegSafe_eq]
    | _ => rfl
  · rcases exec_hist P o s with ⟨h, -⟩ | ⟨e, h, htouch, -⟩
    · rw [h]
      exact Nat.le_add_right _ _
    · rw [h, accesses, List.filter_cons, htouch, KextOp.weight]
      split
      · exact le_rfl
      · exact le_rfl

/-! ## The functions -/

section Costs

open Prog

variable {g : XeBootFlags} {u : ℕ}

theorem costs_checkedRead (path : AccessPath) (m : UInt64) (off : UInt32) :
    Costs g u 1 (checkedRead path m off) := by
  unfold checkedRead
  split
  · exact within_ret _ _
  · split
    · exact within_ret _ _
    · exact within_perform trivial le_rfl

theorem costs_wr (m : UInt64) (off v : UInt32) : Costs g u 1 (ForcewakeGuard.wr m off v) := by
  unfold ForcewakeGuard.wr
  split
  · exact within_ret _ _
  · split
    · exact within_ret _ _
    · exact within_perform trivial le_rfl

/-- A round of the loop is one access. -/
theorem costs_poll (m : UInt64) (n : ℕ) : Costs g u n (ForcewakeGuard.poll m n) := by
  induction n with
  | zero => exact within_ret _ _
  | succ n ih =>
    have hround : Costs g u (1 + n) (ForcewakeGuard.poll m (n + 1)) := by
      refine (costs_checkedRead .guardRdWr m _).bind fun ack => ?_
      split
      · exact within_ret _ _
      · split
        · exact within_ret _ _
        · exact ih
    exact hround.mono (Nat.add_comm 1 n).le

theorem costs_acquire (m : UInt64) : Costs g u (51 + u) (ForcewakeGuard.acquire m) := by
  have hacquire : Costs g u (1 + (50 + (u + 0))) (ForcewakeGuard.acquire m) := by
    refine (costs_wr m _ _).bind fun _ => ?_
    refine (costs_poll m 50).bind fun _ => ?_
    exact (within_perform trivial le_rfl).bind fun _ => within_ret _ _
  exact hacquire.mono (by omega)

theorem costs_destroy (fw : ForcewakeGuard) :
    Costs g u (if fw.acquired then 1 else 0) fw.destroy := by
  unfold ForcewakeGuard.destroy ForcewakeGuard.release
  by_cases hfw : fw.acquired = true ∧ fw.m ≠ 0
  · rw [if_pos hfw.1, if_pos hfw, if_neg hfw.2]
    exact costs_wr _ _ _
  · rw [if_neg hfw]
    exact within_ret _ _

/-- What a guard costs: one write, 50 polls and the note of the outcome to
make it, and one write to destroy it; or nothing, if forcewake is off. -/
def guardCost (g : XeBootFlags) (u : ℕ) : ℕ :=
  if g.disableForcewake || g.strictSafe then 0 else 52 + u

theorem costs_scope {α : Type} (m : UInt64) {body : ForcewakeGuard → Kext α} {n : ℕ}
    (h : ∀ fw, Costs g u n (body fw)) :
    Costs g u (n + guardCost g u + u) (ForcewakeGuard.scope m body) := by
  have hrest (fw : ForcewakeGuard) : Costs g u (n + (if fw.acquired then 1 else 0))
      (do let a ← body fw; fw.destroy; return a) :=
    (h fw).bind fun a => (costs_destroy fw).bind (m := 0) fun _ => within_ret _ _
  have hnone : Costs g u n
      (do let a ← body ⟨m, false⟩; ForcewakeGuard.destroy ⟨m, false⟩; return a) := hrest ⟨m, false⟩
  unfold ForcewakeGuard.scope ForcewakeGuard.make
  by_cases hm : m = 0
  · rw [if_pos hm]
    exact hnone.mono (by omega)
  rw [if_neg hm, bind_assoc]
  refine within_perform_bind trivial fun gXeBoot (hboot : gXeBoot = g) => ?_
  subst hboot
  unfold guardCost
  by_cases hoff : (gXeBoot.disableForcewake || gXeBoot.strictSafe) = true
  · rw [if_pos hoff, if_pos hoff]
    exact hnone
  rw [if_neg hoff, if_neg hoff]
  split
  · exact hnone.mono (by omega)
  · refine ((costs_acquire m).bind (m := n + 1) fun fw => ?_).mono (by omega)
    exact (hrest fw).mono (by split <;> omega)

/-- The registers of the ring. -/
theorem costs_readRcs0 (m : UInt64) : Costs g u 5 (XeCommandStream.readRcs0 m) := by
  have hrd (off : UInt32) : Costs g u 1 (XeCommandStream.safeRd m off) :=
    costs_checkedRead .csSafeRd m off
  have hring : Costs g u (1 + (1 + (1 + (1 + (1 + 0))))) (XeCommandStream.readRcs0 m) := by
    refine (hrd _).bind fun ringHead => (hrd _).bind fun ringTail => (hrd _).bind fun ringCtl => ?_
    split
    · exact within_ret _ _
    split
    · exact within_ret _ _
    split
    · exact (hrd _).bind fun _ => (hrd _).bind fun _ => within_ret _ _
    · exact within_ret _ _
  exact hring

/-- What the look at the ring costs, beyond the two loads of the flags. -/
def ringCost (g : XeBootFlags) (u : ℕ) : ℕ := 5 + guardCost g u

theorem costs_logRcs0State (m : UInt64) :
    Costs g u (ringCost g u + u + u) (XeCommandStream.logRcs0State m) := by
  unfold XeCommandStream.logRcs0State ringCost
  split
  · exact within_ret _ _
  refine within_perform_bind trivial fun gXeBoot _ => ?_
  split
  · exact within_ret _ _
  split
  · exact within_ret _ _
  exact costs_scope m fun _ => costs_readRcs0 m

/-- What the command stream costs. -/
def streamCost (g : XeBootFlags) (u : ℕ) : ℕ :=
  if g.NoCommandStream then 0 else ringCost g u + 5 * u

theorem costs_submitNoop (m : UInt64) (md : ObjId) :
    Costs g u (streamCost g u + u) (XeCommandStream.submitNoop m (some md)) := by
  unfold XeCommandStream.submitNoop
  split
  · exact within_ret _ _
  refine within_perform_bind trivial fun gXeBoot (hboot : gXeBoot = g) => ?_
  subst hboot
  by_cases hoff : gXeBoot.NoCommandStream
  · rw [if_pos (show (_ || _) = true from hoff)]
    exact within_ret _ _
  rw [if_neg (show ¬(_ || _) = true from hoff), streamCost, if_neg hoff]
  have hbatch : Costs gXeBoot u (u + (u + (u + (ringCost gXeBoot u + u + u + 0)))) (do
      let rawAddr ← req (.getBytesNoCopy md)
      if rawAddr = 0 then return .noMemory
      let bufSize ← req (.getLength md)
      if bufSize < 16 then return .noSpace
      req (.writeCmds md [XeHW.miNoop, XeHW.miNoop, XeHW.miNoop, XeHW.miBatchBufferEnd])
      let _exit ← XeCommandStream.logRcs0State m
      return IOReturn.success) := by
    refine (within_perform trivial le_rfl).bind fun rawAddr => ?_
    split
    · exact within_ret _ _
    refine (within_perform trivial le_rfl).bind fun bufSize => ?_
    split
    · exact within_ret _ _
    refine (within_perform trivial le_rfl).bind fun _ => ?_
    exact (costs_logRcs0State m).bind fun _ => within_ret _ _
  exact hbatch.mono (by omega)

theorem costs_ucSubmitNoop : Costs g u (streamCost g u + 5 * u) ucSubmitNoop := by
  have hsubmit : Costs g u (u + (u + (u + (streamCost g u + u + (u + 0))))) ucSubmitNoop := by
    refine (within_perform trivial le_rfl).bind fun mmio => ?_
    split
    · exact within_ret _ _
    refine (within_perform trivial le_rfl).bind fun md => ?_
    cases md with
    | none => exact within_ret _ _
    | some md =>
      refine (within_perform trivial le_rfl).bind fun m => ?_
      refine (costs_submitNoop m md).bind fun kr => ?_
      exact (within_perform trivial le_rfl).bind fun _ => within_ret _ _
  exact hsubmit.mono (by omega)

theorem costs_ucCreateBuffer (bytes : UInt32) : Costs g u (5 * u) (ucCreateBuffer bytes) := by
  have hcreate : Costs g u (u + (u + (u + (u + (u + 0))))) (ucCreateBuffer bytes) := by
    refine (within_perform trivial le_rfl).bind fun ready => ?_
    split
    · exact within_ret _ _
    refine (within_perform trivial le_rfl).bind fun md => ?_
    cases md with
    | none => exact within_ret _ _
    | some md =>
      refine (within_perform trivial le_rfl).bind fun added => ?_
      split
      · exact (within_perform trivial le_rfl).bind fun _ => within_ret (u + 0) _
      refine (within_perform trivial le_rfl).bind fun count => ?_
      exact (within_perform trivial le_rfl).bind fun _ => within_ret _ _
  exact hcreate.mono (by omega)

theorem costs_mapM_readReg (offs : List UInt32) : Costs g u offs.length (offs.mapM readReg) := by
  have hsum := Within.mapM (l := offs) (f := readReg) (b := fun _ => 1) fun _ _ =>
    (within_perform trivial le_rfl : Costs g u 1 (readReg _))
  exact hsum.mono (by simp)

theorem costs_readList (offs : List UInt32) : Costs g u (u + offs.length) (readList offs) := by
  have hread : Costs g u (u + (offs.length + 0)) (readList offs) := by
    refine (within_perform trivial le_rfl).bind fun mmio => ?_
    split
    · exact within_ret _ _
    · exact (costs_mapM_readReg offs).bind fun _ => within_ret _ _
  exact hread

/-- **What a call costs**, by its selector. -/
def Call.cost (g : XeBootFlags) (u : ℕ) (c : Call) : ℕ :=
  if c.selector = XeUserClient.kMethodSubmit then streamCost g u + 5 * u
  else if c.selector = XeUserClient.kMethodCreateBuffer then 5 * u
  else u + c.regs.length

theorem costs_call (c : Call) : Costs g u (c.cost g u) c.prog := by
  cases c.way with
  | refused kr hkr hp =>
    rw [hp]
    exact within_ret _ _
  | wait a hc timeoutMs hp =>
    rw [hp, Call.cost, hc.selector]
    exact ((within_perform trivial le_rfl).bind fun _ => within_ret _ _).map _
  | createBuffer a hc bytes hp =>
    rw [hp, Call.cost, hc.selector]
    exact (costs_ucCreateBuffer bytes).map _
  | submit a hc hp =>
    rw [hp, Call.cost, hc.selector]
    exact costs_ucSubmitNoop.map _
  | readList a k hk hc out hout hp =>
    rw [hp, Call.cost, hc.selector, hc.regs_eq]
    rcases hk with rfl | rfl | rfl <;> exact (costs_readList _).map _

/-- No call takes more than 68 steps. -/
theorem Call.cost_le (g : XeBootFlags) (c : Call) : c.cost g 1 ≤ 68 := by
  have hregs : c.regs.length ≤ 8 := by
    unfold Call.regs
    split
    · decide
    · split
      · unfold XeUserClient.regsOf
        split_ifs <;> decide
      · decide
  unfold Call.cost streamCost ringCost guardCost
  split_ifs <;> omega

/-! ## Shutdown and bring-up -/

theorem costs_releaseMembers (i n : ℕ) : Costs g u (2 * n * u) (releaseMembers i n) := by
  induction n generalizing i with
  | zero => exact within_ret _ _
  | succ n ih =>
    have hround : Costs g u (u + (u + 2 * n * u)) (releaseMembers i (n + 1)) := by
      refine (within_perform trivial le_rfl).bind fun md => ?_
      cases md with
      | none => exact (ih (i + 1)).mono (Nat.le_add_left _ _)
      | some md => exact (within_perform trivial le_rfl).bind fun _ => ih (i + 1)
    have hcount : 2 * (n + 1) * u = u + (u + 2 * n * u) := by
      rw [Nat.mul_add, Nat.add_mul]
      omega
    exact hround.mono hcount.ge

/-- What a shutdown costs, with as many members as the registry can hold. -/
def stopCost (u : ℕ) : ℕ := 2 * UInt32.size * u + 10 * u

theorem costs_stop : Costs g u (stopCost u) stop := by
  have hregistry : Costs g u (u + (u + (2 * UInt32.size * u + (u + u)))) stopRegistry := by
    refine (within_perform trivial le_rfl).bind fun ready => ?_
    split
    · refine (within_perform trivial le_rfl).bind fun count => ?_
      refine ((costs_releaseMembers 0 count.toNat).mono ?_).bind fun _ => ?_
      · exact Nat.mul_le_mul_right u (Nat.mul_le_mul_left 2 count.toNat_lt.le)
      · exact (within_perform trivial le_rfl).bind fun _ => within_perform trivial le_rfl
    · exact within_ret _ _
  have hmapping : Costs g u (u + (u + (u + u))) stopMapping := by
    refine (within_perform trivial le_rfl).bind fun mapped => ?_
    split
    · refine (within_perform trivial le_rfl).bind fun _ => ?_
      exact (within_perform trivial le_rfl).bind fun _ => within_perform trivial le_rfl
    · exact within_ret _ _
  have hbus : Costs g u (u + u) (do
      let pci ← req .hasPci
      if pci then req (.setBusMasterEnable false)) := by
    refine (within_perform trivial le_rfl).bind fun pci => ?_
    split
    · exact within_perform trivial le_rfl
    · exact within_ret _ _
  refine (hregistry.bind fun _ => hmapping.bind fun _ => hbus).mono ?_
  unfold stopCost
  omega

/-- What `start` costs: the four samples, and outside strict-safe mode the
registers of the power state, the page table and the display. -/
def startCost (g : XeBootFlags) : ℕ := if g.strictSafe then 4 else 32

theorem costs_probe (m : UInt64) : Costs g 0 5 (XeGGTT.probe m) := by
  have hread (off : UInt32) : Costs g 0 1 (XeGGTT.safeRead m off) :=
    costs_checkedRead .ggttSafeRead m off
  have hprobe : Costs g 0 (1 + (1 + (1 + (1 + (1 + 0))))) (XeGGTT.probe m) := by
    unfold XeGGTT.probe
    split
    · exact within_ret _ _
    refine (hread _).bind fun pgtblCtl => ?_
    split
    · exact within_ret _ _
    refine (hread _).bind fun _ => (hread _).bind fun _ => ?_
    split
    · exact (hread _).bind fun _ => (hread _).bind fun _ => within_ret _ _
    · exact within_ret _ _
  exact hprobe

theorem costs_start : Costs g 0 (startCost g) start := by
  have hmapBar0 : Costs g 0 0 mapBar0 := issues_mapBar0.within fun o ho => by
    cases o <;> first | exact ⟨trivial, rfl⟩ | exact absurd ho Bool.false_ne_true
  have hraw (off : UInt32) : Costs g 0 1 (readRaw off) :=
    within_perform_bind (o := KextOp.getMmio) trivial fun _ _ => within_perform trivial le_rfl
  have hsample : Costs g 0 4 sampleRegisters :=
    Within.mapM (l := samplerOffs) (b := fun _ => 1) fun off _ => hraw off
  have hprobeGpu : Costs g 0 ((if g.strictSafe then 0 else 28) + 0) probeGpu := by
    refine within_perform_bind trivial fun gXeBoot (hboot : gXeBoot = g) => ?_
    subst hboot
    split
    · exact within_ret _ _
    · refine ((costs_mapM_readReg powerStateRegs).bind (m := 18) fun _ => ?_).mono le_rfl
      refine within_perform_bind (o := KextOp.getMmio) trivial fun mmio _ => ?_
      refine (costs_probe mmio).bind (m := 13) fun _ => ?_
      exact (costs_mapM_readReg displayStateRegs).bind (m := 0) fun _ => within_ret _ _
  have hregistry : Costs g 0 0 makeRegistry :=
    within_perform_bind (o := KextOp.withCapacity 8) trivial fun a _ =>
      within_perform_bind (o := KextOp.setBoList a) trivial fun _ _ => within_ret 0 _
  refine (hmapBar0.bind (m := startCost g) fun mapped => ?_).mono (Nat.zero_add _).le
  split
  · exact within_ret _ _
  · refine (hsample.bind fun _ => hprobeGpu.bind fun _ => hregistry).mono ?_
    unfold startCost
    split <;> omega

end Costs

/-! ## Whole runs -/

section Runs

variable {ι : Type} [DecidableEq ι]

/-- What a thread costs. -/
def threadCost (g : XeBootFlags) (u : ℕ) : Option Call → ℕ
  | some c => c.cost g u
  | none => stopCost u

omit [DecidableEq ι] in
theorem budgeted_servicePool (u : ℕ) (s₀ : Machine) (work : ι → Option Call) :
    (servicePool s₀ work).Budgeted KextOp.keepsBoot (KextOp.LoadsFlags s₀.gXeBoot)
      (KextOp.weight u) (fun s => s.gXeBoot = s₀.gXeBoot)
      (fun i => threadCost s₀.gXeBoot u (work i)) where
  shared := rfl
  threads i := by
    show Costs _ _ _ (clientThread (work i))
    cases work i with
    | none => exact costs_stop.map _
    | some c => exact (costs_call c).map _

/-- **A request that does not return**: it is made of a registry that is gone,
it touches a descriptor that was freed, or it accesses the device after the
mapping was released. -/
def Faults {α : Type} (P : Platform) (c : KextPool α ι) (o : KextOp) : Prop :=
  o.asksRegistry = true ∧ c.shared.boList.isSome = false
    ∨ ¬RefEvent.Live (exec P o c.shared).2.objLog
    ∨ Unmapped c.log ∧ accesses (exec P o c.shared).2.hist ≠ accesses c.shared.hist

/-- No request faults in a step that passes the gate and is safe. -/
theorem not_faults {α : Type} {P : Platform} {g : XeBootFlags} {c : KextPool α ι} {i : ι}
    {o : KextOp} (haccounts : KeepsAccounts c) (hunmapping : KeepsUnmapping g c)
    (hgate : PassesGate c i) (hsafe : UnmapsSafely c i) (hi : (c.thread i).next? = some o) :
    ¬Faults P c o := by
  rintro (⟨hasks, hnone⟩ | hdead | ⟨hunmapped, haccess⟩)
  · rw [haccounts.registry hi hasks] at hnone
    exact nomatch hnone
  · have hlive := (haccounts.step P hgate).live
    rw [Pool.shared_step _ hi] at hlive
    exact hdead hlive
  · exact haccess (hunmapping.accesses_exec P hsafe hunmapped hi)

/-- A creation, a submission and a shutdown. -/
def createSubmitStop : Fin 3 → Option Call
  | 0 => some (.creating 1)
  | 1 => some .submitting
  | 2 => none

/-- **What the device sees of a session is bounded** by the boot flags and
the calls: the accesses of `start` and those of each call. The same bound
holds at every moment of every interleaving of calls and shutdowns, which
make none. -/
theorem access_budget (P : Platform) :
    (∀ calls, (accesses (history P calls)).length
      ≤ startCost P.flags + (calls.map (Call.cost P.flags 0)).sum) ∧
    ∀ [Fintype ι] (s₀ : Machine) (work : ι → Option Call) (sched : List ι),
      (accesses ((servicePool s₀ work).runs (exec P) sched).shared.hist).length
        ≤ (accesses s₀.hist).length + ∑ i, threadCost s₀.gXeBoot 0 (work i) := by
  constructor
  · intro calls
    have hinit : P.initialized.gXeBoot = P.flags ∧ P.initialized.hist = [] := by
      rw [initialized_eq]
      exact ⟨rfl, rfl⟩
    have hserve : Costs P.flags 0 (calls.map (Call.cost P.flags 0)).sum (serve calls) :=
      .mapM fun c _ => costs_call c
    have hrun := (costs_start.bind fun _ => hserve).run
      (I := fun s : Machine => s.gXeBoot = P.flags)
      (μ := fun s : Machine => (accesses s.hist).length) (exec_costs P P.flags) hinit.1
    rw [Prog.run_bind, hinit.2] at hrun
    rw [history_eq]
    exact hrun.2.trans (Nat.zero_add _).le
  · intro _ s₀ work sched
    exact (budgeted_servicePool 0 s₀ work).sum_budgets
      (μ := fun s => (accesses s.hist).length) (exec_costs P s₀.gXeBoot) sched

end Runs
