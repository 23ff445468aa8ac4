import XePCI.Lifecycle
import XePCI.SafeModes

/-!
# Shutdown while calls are in flight

`stop` releases the mapping and clears the pointer, and waits for nobody.
A call that goes through `readReg` tests the pointer at every access and
reads nothing any more. A submission does not: it copies the pointer once
and hands the copy to the command stream and its guard, which use it for up
to 50 polls and the registers of the ring.

Calls and shutdowns are the threads of a pool. A submission tests the
pointer and then reads it a second time; from there until it releases its
batch buffer it holds the copy (`UnmapPhase.holding`). The mapping may be
released while nobody holds a copy (`UnmapsAlone`), and then nothing is
accessed after the release, in any interleaving
(`untouched_after_unmap`). Otherwise the submission goes on with an address
that is no longer mapped: `submission_after_unmap`.

Releasing the mapping and clearing the pointer are two requests here and
one step of the shutdown (`UnmapsAtOnce`).
-/

open XeService

/-- How far a thread has come with respect to the mapping. -/
inductive UnmapPhase where
  /-- Neither of the others. -/
  | free
  /-- A method has tested the pointer. -/
  | checked
  /-- A submission has a copy of the pointer, and it is not null. -/
  | holding
  /-- A shutdown has released the mapping and not yet cleared the pointer. -/
  | unmapping
  /-- It has cleared the pointer. -/
  | unmapped
  deriving DecidableEq

/-- The phase after a request and its answer. -/
def UnmapPhase.next : UnmapPhase → (o : KextOp) → o.Resp → UnmapPhase
  | unmapping, .setMmio _, _ => unmapped
  | unmapping, _, _ => unmapping
  | unmapped, _, _ => unmapped
  | free, .getMmio, _ => checked
  | checked, .getMmio, p => if p = 0 then free else holding
  | holding, .release _, _ => free
  | _, .releaseBar0, _ => unmapping
  | φ, _, _ => φ

/-- Whether a request releases the mapping. -/
def KextOp.isUnmap : KextOp → Bool
  | .releaseBar0 => true
  | _ => false

/-- The mapping is released, from a thread's point of view. -/
def UnmapPhase.Released : UnmapPhase → Prop
  | unmapping | unmapped => True
  | free | checked | holding => False

/-- The boot flags switch the command stream off. -/
def XeBootFlags.NoCommandStream (g : XeBootFlags) : Prop :=
  (g.disableCommandStream || g.strictSafe) = true

instance (g : XeBootFlags) : Decidable g.NoCommandStream := inferInstanceAs (Decidable (_ = _))

/-- **The monitor of the mapping.** Under the boot flags `g`, a register is
read or written through a copy of the pointer only by a thread that holds
one, and only with the command stream on. -/
def unmapMonitor (g : XeBootFlags) : Monitor KextOp KextOp.Resp UnmapPhase where
  allows φ
    | .mmioRead _ _ _ | .mmioWrite _ _ _ _ => φ = .holding ∧ ¬g.NoCommandStream
    | .readRegSafe _ => φ ≠ .unmapping
    | .setMmio p => p = 0
    | .storeBoot _ => False
    | _ => True
  admits _
    | .loadBoot, r => r = g
    | _, _ => True
  next := UnmapPhase.next

/-! ## Calls and shutdowns obey it -/

section Obeys

variable (g : XeBootFlags)

/-- Whatever only looks at the device may do so while the thread holds a
copy and the command stream is on. -/
theorem Probes.obeys_holding {α : Type} {p : Kext α} (hp : Probes p)
    (hg : ¬g.NoCommandStream) : Prog.Obeys (unmapMonitor g) .holding p (fun φ _ => φ = .holding) :=
  Prog.Issues.obeys (fun o ho => by
    cases o with
    | mmioRead _ _ _ | mmioWrite _ _ _ _ => exact ⟨⟨rfl, hg⟩, fun _ => rfl⟩
    | readRegSafe _ => exact ⟨(by decide : UnmapPhase.holding ≠ .unmapping), fun _ => rfl⟩
    | loadBoot | getMmio | guardOutcome _ | logWait _ => exact ⟨trivial, fun _ => rfl⟩
    | _ => exact absurd ho Bool.false_ne_true) hp

/-- The command stream uses its copy only if it is one. -/
theorem obeys_submitNoop_holding (m : UInt64) (md : ObjId) :
    Prog.Obeys (unmapMonitor g) .holding (XeCommandStream.submitNoop m (some md))
      (fun _ _ => True) := by
  unfold XeCommandStream.submitNoop
  split
  · trivial
  · refine .perform_bind trivial fun gXeBoot (hboot : gXeBoot = g) => ?_
    subst hboot
    split
    · trivial
    · rename_i hg
      refine .perform_bind trivial fun rawAddr _ => ?_
      split
      · trivial
      · refine .perform_bind trivial fun bufSize _ => ?_
        split
        · trivial
        · refine .perform_bind trivial fun _ _ => ?_
          have hring := (probes_logRcs0State m).obeys_holding gXeBoot hg
          exact (Prog.obeys_bind ..).mpr (hring.mono fun _ _ _ => trivial)

/-- A submission, from its test of the pointer to its return. -/
theorem obeys_unmap_ucSubmitNoop :
    Prog.Obeys (unmapMonitor g) .free ucSubmitNoop (fun _ _ => True) := by
  unfold ucSubmitNoop
  refine .perform_bind trivial fun mmio _ => ?_
  split
  · trivial
  · refine .perform_bind trivial fun md _ => ?_
    cases md with
    | none => trivial
    | some md =>
      refine .perform_bind trivial fun m _ => ?_
      refine (Prog.obeys_bind ..).mpr ?_
      by_cases hm : m = 0
      · -- the pointer was cleared since it was tested
        subst hm
        exact ⟨trivial, fun _ _ => trivial⟩
      · have hnext : (unmapMonitor g).next .checked .getMmio m = .holding := if_neg hm
        show Prog.Obeys (unmapMonitor g) ((unmapMonitor g).next .checked .getMmio m) _ _
        rw [hnext]
        exact (obeys_submitNoop_holding g m md).mono fun _ _ _ => ⟨trivial, fun _ _ => trivial⟩

/-- A method that reads registers tests the pointer at each of them. -/
theorem obeys_unmap_readList (offs : List UInt32) :
    Prog.Obeys (unmapMonitor g) .free (readList offs) (fun _ _ => True) := by
  unfold readList
  refine .perform_bind trivial fun mmio _ => ?_
  split
  · trivial
  · have hreads : (offs.mapM readReg).Issues (fun o => ∃ off, o = .readRegSafe off) :=
      Prog.Issues.mapM fun off _ => Prog.issues_perform ⟨off, rfl⟩
    have hchecked : Prog.Obeys (unmapMonitor g) .checked (offs.mapM readReg)
        (fun φ _ => φ = .checked) :=
      Prog.Issues.obeys (fun o ⟨off, ho⟩ => by
        subst ho
        exact ⟨(by decide : UnmapPhase.checked ≠ .unmapping), fun _ => rfl⟩) hreads
    exact (Prog.obeys_bind ..).mpr (hchecked.mono fun _ _ _ => trivial)

/-- No phase of a creation matters. -/
theorem obeys_unmap_ucCreateBuffer (bytes : UInt32) :
    Prog.Obeys (unmapMonitor g) .free (ucCreateBuffer bytes) (fun _ _ => True) := by
  refine ((issues_ucCreateBuffer bytes).obeys fun o ho => ?_).mono fun _ _ _ => trivial
  cases o <;> first | exact ⟨trivial, fun _ => rfl⟩ | exact ho.elim

theorem obeys_unmap_call (c : Call) :
    Prog.Obeys (unmapMonitor g) .free c.prog (fun _ _ => True) := by
  cases c.way with
  | refused kr hkr hp => rw [hp]; trivial
  | createBuffer a hc bytes hp =>
    rw [hp, Prog.obeys_map]
    exact obeys_unmap_ucCreateBuffer g bytes
  | submit a hc hp =>
    rw [hp, Prog.obeys_map]
    exact obeys_unmap_ucSubmitNoop g
  | wait a hc timeoutMs hp =>
    rw [hp, Prog.obeys_map]
    exact .perform_bind trivial fun _ _ => trivial
  | readList a k hk hc out hout hp =>
    rw [hp, Prog.obeys_map]
    exact obeys_unmap_readList g _

/-- A shutdown clears the pointer right after it has released the mapping. -/
theorem obeys_unmap_stop : Prog.Obeys (unmapMonitor g) .free stop (fun _ _ => True) := by
  have hregistry : Prog.Obeys (unmapMonitor g) .free stopRegistry (fun φ _ => φ = .free) :=
    Prog.Issues.obeys (fun o ho => by
      cases o with
      | hasBoList | getCount | getObject _ | release _ | releaseArray | setBoList _ =>
        exact ⟨trivial, fun _ => rfl⟩
      | _ => exact absurd ho Bool.false_ne_true) issues_stopRegistry
  have hbus : ∀ φ, Prog.Obeys (unmapMonitor g) φ (do
      let pci ← req .hasPci
      if pci then req (.setBusMasterEnable false)) (fun _ _ => True) := by
    refine fun φ => ⟨trivial, fun pci _ => ?_⟩
    cases pci with
    | false => trivial
    | true => exact ⟨trivial, fun _ _ => trivial⟩
  unfold stop
  rw [Prog.obeys_bind]
  refine hregistry.mono ?_
  rintro _ _ rfl
  rw [Prog.obeys_bind]
  refine ⟨trivial, fun mapped _ => ?_⟩
  cases mapped with
  | false => exact hbus _
  | true => exact ⟨trivial, fun _ _ => ⟨trivial, fun _ _ => ⟨rfl, fun _ _ => hbus _⟩⟩⟩

end Obeys

/-! ## What a request does to the phase and to the machine -/

section Exec

variable {P : Platform} {g : XeBootFlags} {φ : UnmapPhase} {o : KextOp} {s : Machine}

theorem UnmapPhase.Released.eq (h : φ.Released) : φ = .unmapping ∨ φ = .unmapped := by
  cases φ with
  | unmapping => exact Or.inl rfl
  | unmapped => exact Or.inr rfl
  | _ => exact h.elim

theorem UnmapPhase.Released.next (h : φ.Released) (r : o.Resp) : (φ.next o r).Released := by
  cases φ with
  | unmapping =>
    cases o with
    | setMmio p => trivial
    | _ => trivial
  | unmapped => trivial
  | _ => exact h.elim

/-- Only the release of the mapping makes it released. -/
theorem UnmapPhase.isUnmap_of_released_next {r : o.Resp} (h : ¬φ.Released)
    (hnext : (φ.next o r).Released) : o.isUnmap = true := by
  cases φ with
  | unmapping | unmapped => exact absurd trivial h
  | free | holding =>
    cases o with
    | releaseBar0 => rfl
    | _ => exact False.elim hnext
  | checked =>
    cases o with
    | releaseBar0 => rfl
    | getMmio =>
      change (if r = 0 then free else holding).Released at hnext
      split at hnext <;> exact False.elim hnext
    | _ => exact False.elim hnext

/-- A thread comes to hold a copy by reading a pointer that is not null,
after it has tested it. -/
theorem UnmapPhase.eq_of_next_holding (h : φ.next o (exec P o s).1 = .holding) :
    φ = .holding ∨ φ = .checked ∧ s.mmio ≠ 0 := by
  cases φ with
  | holding => exact Or.inl rfl
  | checked =>
    cases o with
    | getMmio => exact Or.inr ⟨rfl, fun hnull => nomatch (if_pos hnull).symm.trans h⟩
    | _ => exact nomatch h
  | unmapped => exact nomatch h
  | free | unmapping =>
    cases o with
    | _ => exact nomatch h

/-- Nobody sets the pointer to anything but null. -/
theorem exec_mmio_null (ho : (unmapMonitor g).allows φ o) (hs : s.mmio = 0) :
    (exec P o s).2.mmio = 0 := by
  have hkeeps (h : o.keepsWiring = true) : (exec P o s).2.mmio = 0 :=
    (congrArg (·.2.1) (exec_wiring P h s)).trans hs
  cases o with
  | setMmio p => exact ho
  | setBar0 _ | setBar0Length _ => exact hs
  | _ => exact hkeeps rfl

/-- The thread that has cleared the pointer has done so. -/
theorem exec_mmio_unmapped (ho : (unmapMonitor g).allows φ o) (hs : φ = .unmapped → s.mmio = 0)
    (h : φ.next o (exec P o s).1 = .unmapped) : (exec P o s).2.mmio = 0 := by
  cases φ with
  | unmapped => exact exec_mmio_null ho (hs rfl)
  | unmapping =>
    cases o with
    | setMmio p => exact ho
    | _ => exact nomatch h
  | checked =>
    cases o with
    | getMmio =>
      change (if s.mmio = 0 then .free else .holding) = UnmapPhase.unmapped at h
      split at h <;> exact nomatch h
    | _ => exact nomatch h
  | free | holding =>
    cases o with
    | _ => exact nomatch h

/-- The answers the monitor counts on are given. -/
theorem exec_unmap_admits (h : s.gXeBoot = g) : (unmapMonitor g).admits φ o (exec P o s).1 := by
  cases o with
  | loadBoot => exact h
  | _ => trivial

theorem exec_gXeBoot (ho : (unmapMonitor g).allows φ o) :
    (exec P o s).2.gXeBoot = s.gXeBoot := by
  cases o with
  | storeBoot _ => exact ho.elim
  | setMmio _ | setBar0Length _ | mmioRead _ _ _ | mmioWrite _ _ _ _ => rfl
  | _ => exact (exec_setup P rfl s).1

end Exec

/-! ## What a request does to the accesses -/

/-- A request that is no access makes none. -/
theorem exec_accesses_of_noTouch (P : Platform) {o : KextOp} (h : o.touch? = none) (s : Machine) :
    accesses (exec P o s).2.hist = accesses s.hist := by
  rcases exec_hist P o s with ⟨hhist, -⟩ | ⟨e, hhist, htouch, -⟩
  · rw [hhist]
  · rw [hhist, accesses, List.filter_cons_of_neg (by rw [htouch, h]; decide)]
    rfl

/-- Nor does a checked one while the pointer is null. -/
theorem exec_readRegSafe_of_null (P : Platform) (off : UInt32) {s : Machine} (h : s.mmio = 0) :
    (exec P (.readRegSafe off) s).2 = s := by
  rw [exec_readRegSafe, Machine.readRegSafe, if_pos h]

/-! ## The pool of calls and shutdowns -/

section Pool

variable {ι α : Type} [DecidableEq ι]

theorem obeys_unmap_clientThread (g : XeBootFlags) (w : Option Call) :
    Prog.Obeys (unmapMonitor g) .free (clientThread w) (fun _ _ => True) := by
  cases w with
  | none => exact (Prog.obeys_map ..).mpr (obeys_unmap_stop g)
  | some c => exact (Prog.obeys_map ..).mpr (obeys_unmap_call g c)

theorem obedient_unmapMonitor (s₀ : Machine) (work : ι → Option Call) :
    (servicePool s₀ work).Obedient (unmapMonitor s₀.gXeBoot) .free (fun _ _ => True) :=
  Pool.obedient_start fun i => obeys_unmap_clientThread _ (work i)

/-- How far a thread of the pool has come. -/
def unmapPhase (i : ι) : List (ι × (o : KextOp) × o.Resp) → UnmapPhase
  | [] => .free
  | (j, ⟨o, r⟩) :: log => if j = i then (unmapPhase i log).next o r else unmapPhase i log

/-- **Releasing the mapping and clearing the pointer is one step** of a
shutdown: nobody else moves between the two. -/
def UnmapsAtOnce (c : KextPool α ι) (i : ι) : Prop :=
  ∀ j, unmapPhase j c.log = .unmapping → i = j

/-- **The mapping is released only while no submission holds a copy** of the
pointer, or the boot flags switch the command stream off. -/
def UnmapsAlone (c : KextPool α ι) (i : ι) : Prop :=
  (c.thread i).next?.any KextOp.isUnmap = true →
    c.shared.gXeBoot.NoCommandStream ∨ ∀ j, unmapPhase j c.log ≠ .holding

/-- Both. -/
def UnmapsSafely (c : KextPool α ι) (i : ι) : Prop := UnmapsAtOnce c i ∧ UnmapsAlone c i

instance [Fintype ι] (c : KextPool α ι) (i : ι) : Decidable (UnmapsAtOnce c i) :=
  inferInstanceAs (Decidable (∀ _, _ → _))

instance [Fintype ι] (c : KextPool α ι) (i : ι) : Decidable (UnmapsAlone c i) :=
  inferInstanceAs (Decidable (_ → _ ∨ ∀ _, _))

instance [Fintype ι] (c : KextPool α ι) (i : ι) : Decidable (UnmapsSafely c i) :=
  inferInstanceAs (Decidable (_ ∧ _))

/-- The mapping was released. -/
def Unmapped (log : List (ι × (o : KextOp) × o.Resp)) : Prop :=
  log.any (fun e => e.2.1.isUnmap) = true

instance (log : List (ι × (o : KextOp) × o.Resp)) : Decidable (Unmapped log) :=
  inferInstanceAs (Decidable (_ = _))

theorem phases_unmapMonitor (g : XeBootFlags) (c : KextPool α ι) (i : ι) :
    c.phases (unmapMonitor g) .free i = unmapPhase i c.log :=
  Monitor.phase_eq (unmapMonitor g) unmapPhase (fun _ => rfl) (fun _ _ _ _ _ => rfl) i c.log

/-- **The thread that released the mapping knows it**: by induction on the
log. -/
theorem released_of_unmapped {log : List (ι × (o : KextOp) × o.Resp)} (h : Unmapped log) :
    ∃ j, (unmapPhase j log).Released := by
  induction log with
  | nil => exact nomatch h
  | cons e log ih =>
    obtain ⟨i, o, r⟩ := e
    by_cases ho : o.isUnmap = true
    · refine ⟨i, ?_⟩
      rw [unmapPhase, if_pos rfl]
      cases o with
      | releaseBar0 =>
        cases unmapPhase i log with
        | _ => trivial
      | _ => exact nomatch ho
    · obtain ⟨j, hj⟩ := ih (by simpa [Unmapped, ho] using h)
      refine ⟨j, ?_⟩
      rw [unmapPhase]
      split
      · exact hj.next r
      · exact hj

/-- **What holds of all threads together**: the boot flags are the given
ones, and once the pointer is cleared it is null. -/
structure Cleared (g : XeBootFlags) (s : Machine) (φs : ι → UnmapPhase) : Prop where
  boot : s.gXeBoot = g
  cleared : ∀ j, φs j = .unmapped → s.mmio = 0

/-- And once the mapping is released nobody holds a copy that would be
used. -/
structure Unmapping (g : XeBootFlags) (s : Machine) (φs : ι → UnmapPhase) : Prop
    extends Cleared g s φs where
  alone : (∃ j, (φs j).Released) → g.NoCommandStream ∨ ∀ j, φs j ≠ .holding

variable {P : Platform} {g : XeBootFlags} {c : KextPool α ι} {i : ι} {o : KextOp}
  {k : o.Resp → Kext α}

omit [DecidableEq ι] in
theorem cleared_free (s₀ : Machine) : Cleared s₀.gXeBoot s₀ fun _ : ι => .free :=
  ⟨rfl, fun _ hj => nomatch hj⟩

omit [DecidableEq ι] in
theorem unmapping_free (s₀ : Machine) : Unmapping s₀.gXeBoot s₀ fun _ : ι => .free :=
  ⟨cleared_free s₀, fun ⟨_, hj⟩ => hj.elim⟩

/-- **One step keeps the pointer cleared.** -/
theorem Cleared.step {s : Machine} {φs : ι → UnmapPhase} (h : Cleared g s φs)
    (ho : (unmapMonitor g).allows (φs i) o) :
    Cleared g (exec P o s).2 (Function.update φs i ((φs i).next o (exec P o s).1)) where
  boot := (exec_gXeBoot ho).trans h.boot
  cleared := (Function.forall_update_iff _ fun _ φ => φ = UnmapPhase.unmapped →
      (exec P o s).2.mmio = 0).mpr
    ⟨exec_mmio_unmapped ho (h.cleared i), fun j _ hj => exec_mmio_null ho (h.cleared j hj)⟩

/-- Once the mapping is released the pointer reads as null, but for the
thread that is about to clear it. -/
theorem Cleared.mmio_null (h : Cleared g c.shared (c.phases (unmapMonitor g) .free))
    (hG : UnmapsAtOnce c i) (hreleased : ∃ j, (c.phases (unmapMonitor g) .free j).Released)
    (hne : c.phases (unmapMonitor g) .free i ≠ .unmapping) : c.shared.mmio = 0 := by
  obtain ⟨j, hj⟩ := hreleased
  rcases hj.eq with hφ | hφ
  · have hself := hG j (phases_unmapMonitor g c j ▸ hφ)
    exact absurd (hself ▸ hφ) hne
  · exact h.cleared j hφ

/-- **One step keeps it**, if the mapping is released safely. -/
theorem Unmapping.step (hi : c.thread i = .request o k)
    (h : Unmapping g c.shared (c.phases (unmapMonitor g) .free)) (hG : UnmapsSafely c i)
    (ho : (unmapMonitor g).allows (c.phases (unmapMonitor g) .free i) o) :
    Unmapping g (exec P o c.shared).2 (Function.update (c.phases (unmapMonitor g) .free) i
      ((c.phases (unmapMonitor g) .free i).next o (exec P o c.shared).1)) := by
  refine ⟨h.toCleared.step ho, fun hreleased => ?_⟩
  by_cases hold : ∃ j, (c.phases (unmapMonitor g) .free j).Released
  · -- it was released before: nobody can have come to hold a copy
    refine (h.alone hold).imp_right fun hfree =>
      (Function.forall_update_iff _ fun _ φ => φ ≠ UnmapPhase.holding).mpr
        ⟨fun hholding => ?_, fun j _ => hfree j⟩
    rcases UnmapPhase.eq_of_next_holding hholding with hh | ⟨hchecked, hmmio⟩
    · exact hfree i hh
    · exact hmmio (h.mmio_null hG.1 hold (hchecked ▸ by decide))
  · -- it is being released now, by the thread that moves
    have hnow := ((Function.exists_update_iff _ fun _ => UnmapPhase.Released).mp
      hreleased).resolve_right fun ⟨j, _, hj⟩ => hold ⟨j, hj⟩
    have hunmap := UnmapPhase.isUnmap_of_released_next (fun hr => hold ⟨i, hr⟩) hnow
    have halone := hG.2 (by rw [hi]; exact hunmap)
    rw [h.boot] at halone
    refine halone.imp_right fun hfree =>
      (Function.forall_update_iff _ fun _ φ => φ ≠ UnmapPhase.holding).mpr
        ⟨fun hholding => ?_, fun j _ => phases_unmapMonitor g c j ▸ hfree j⟩
    rw [hholding] at hnow
    exact hnow.elim

/-- After the release an allowed request accesses nothing. -/
theorem Unmapping.accesses_step
    (h : Unmapping g c.shared (c.phases (unmapMonitor g) .free)) (hG : UnmapsSafely c i)
    (ho : (unmapMonitor g).allows (c.phases (unmapMonitor g) .free i) o)
    (hreleased : ∃ j, (c.phases (unmapMonitor g) .free j).Released) :
    accesses (exec P o c.shared).2.hist = accesses c.shared.hist := by
  have hheld : ¬(c.phases (unmapMonitor g) .free i = .holding ∧ ¬g.NoCommandStream) :=
    fun ⟨hholding, hg⟩ => (h.alone hreleased).elim hg fun hfree => hfree i hholding
  cases o with
  | mmioRead _ _ _ | mmioWrite _ _ _ _ => exact absurd ho hheld
  | readRegSafe off => rw [exec_readRegSafe_of_null P off (h.toCleared.mmio_null hG.1 hreleased ho)]
  | _ => exact exec_accesses_of_noTouch P rfl c.shared

/-- Once it was released the phases say so. -/
theorem exists_released (hunmapped : Unmapped c.log) (g : XeBootFlags) :
    ∃ j, (c.phases (unmapMonitor g) .free j).Released := by
  obtain ⟨j, hj⟩ := released_of_unmapped hunmapped
  exact ⟨j, phases_unmapMonitor g c j ▸ hj⟩

/-- **A register is read through `readReg` before the mapping is released**, or
not at all. For this it is enough that releasing the mapping and clearing the
pointer is one step. -/
theorem readRegSafe_after_unmap (P : Platform) (s₀ : Machine) (work : ι → Option Call)
    {sched : List ι} (h : Pool.Along (exec P) UnmapsAtOnce (servicePool s₀ work) sched) :
    Pool.Along (exec P) (fun c i => ∀ off, (c.thread i).next? = some (.readRegSafe off) →
      Unmapped c.log → (exec P (.readRegSafe off) c.shared).2 = c.shared)
      (servicePool s₀ work) sched := by
  refine h.imp (J := fun c => c.Obedient (unmapMonitor s₀.gXeBoot) .free (fun _ _ => True)
      ∧ Cleared s₀.gXeBoot c.shared (c.phases (unmapMonitor s₀.gXeBoot) .free))
    (fun c i hc _ => ?_) (fun c i hc hG off hi hunmapped => ?_)
    ⟨obedient_unmapMonitor s₀ work, cleared_free s₀⟩
  · exact Pool.Obedient.step_phases (G := fun _ _ => True) (R := Cleared s₀.gXeBoot)
      (fun _ _ _ _ _ _ hR _ ho => ⟨exec_unmap_admits hR.boot, hR.step ho⟩) hc trivial
  · have hallows := hc.1.allows hi
    exact exec_readRegSafe_of_null P off
      (hc.2.mmio_null hG (exists_released hunmapped s₀.gXeBoot) hallows)

/-- **The invariant of the pool**: its threads obey the monitor, and what
holds of them together does. -/
def KeepsUnmapping (g : XeBootFlags) (c : KextPool α ι) : Prop :=
  c.Obedient (unmapMonitor g) .free (fun _ _ => True)
    ∧ Unmapping g c.shared (c.phases (unmapMonitor g) .free)

theorem keepsUnmapping_start (s₀ : Machine) (work : ι → Option Call) :
    KeepsUnmapping s₀.gXeBoot (servicePool s₀ work) :=
  ⟨obedient_unmapMonitor s₀ work, unmapping_free s₀⟩

/-- **A safe step keeps it.** -/
theorem KeepsUnmapping.step (h : KeepsUnmapping g c) (P : Platform) (hG : UnmapsSafely c i) :
    KeepsUnmapping g (c.step (exec P) i) :=
  Pool.Obedient.step_phases (G := UnmapsSafely) (R := Unmapping g)
    (fun _ _ _ _ hi _ hR hG ho => ⟨exec_unmap_admits hR.boot, hR.step hi hG ho⟩) h hG

/-- **After the release a request accesses nothing.** -/
theorem KeepsUnmapping.accesses_exec (h : KeepsUnmapping g c) (P : Platform)
    (hG : UnmapsSafely c i) (hunmapped : Unmapped c.log) (hi : (c.thread i).next? = some o) :
    accesses (exec P o c.shared).2.hist = accesses c.shared.hist :=
  h.2.accesses_step hG (h.1.allows hi) (exists_released hunmapped g)

/-- Nor does a step. -/
theorem KeepsUnmapping.accesses_step (h : KeepsUnmapping g c) (P : Platform)
    (hG : UnmapsSafely c i) (hunmapped : Unmapped c.log) :
    accesses (c.step (exec P) i).shared.hist = accesses c.shared.hist := by
  cases hi : c.thread i with
  | ret a => rw [Pool.step_of_ret _ hi]
  | request o k =>
    rw [Pool.step_of_request _ hi]
    exact h.accesses_exec P hG hunmapped (by rw [hi]; rfl)

/-- What was released stays so. -/
theorem Unmapped.step (h : Unmapped c.log) (P : Platform) (i : ι) :
    Unmapped (c.step (exec P) i).log := by
  cases hi : c.thread i with
  | ret a => rwa [Pool.step_of_ret _ hi]
  | request o k =>
    rw [Pool.step_of_request _ hi]
    unfold Unmapped at h ⊢
    rw [List.any_cons, h, Bool.or_true]

/-- **No access after the mapping is released.** In every interleaving of
any number of calls and shutdowns in which the mapping is released only
while no submission holds a copy of the pointer: once it is released, no
register is read or written any more. -/
theorem untouched_after_unmap (P : Platform) (s₀ : Machine) (work : ι → Option Call)
    (pre post : List ι)
    (h : Pool.Along (exec P) UnmapsSafely (servicePool s₀ work) (pre ++ post))
    (hunmapped : Unmapped ((servicePool s₀ work).runs (exec P) pre).log) :
    accesses ((servicePool s₀ work).runs (exec P) (pre ++ post)).shared.hist
      = accesses ((servicePool s₀ work).runs (exec P) pre).shared.hist := by
  obtain ⟨hpre, hpost⟩ := Pool.along_append.mp h
  -- up to the release: the invariant
  have hinv := hpre.runs (J := KeepsUnmapping s₀.gXeBoot) (fun _ _ hc hG => hc.step P hG)
    (keepsUnmapping_start s₀ work)
  -- from there on: the invariant, and no access
  have hrest := hpost.runs (J := fun c => KeepsUnmapping s₀.gXeBoot c ∧ Unmapped c.log
      ∧ accesses c.shared.hist = accesses ((servicePool s₀ work).runs (exec P) pre).shared.hist)
    (fun c i ⟨hc, hrel, hacc⟩ hG => ⟨hc.step P hG, hrel.step P i,
      (hc.accesses_step P hG hrel).trans hacc⟩)
    ⟨hinv, hunmapped, rfl⟩
  rw [Pool.runs_append]
  exact hrest.2.2

end Pool

/-- Two submissions, and a shutdown. -/
def submissionsAndStop :
    KextPool (Option (IOReturn × Option IOExternalMethodArguments)) (Fin 3) :=
  servicePool oddPlatform.started fun i => if i = 2 then none else some .submitting

/-- The first submission to its end, then the shutdown, then the second
submission: it accesses nothing. -/
theorem untouched_after_unmap_inTurn :
    Unmapped (submissionsAndStop.runs (exec oddPlatform)
        (List.replicate 19 0 ++ List.replicate 10 2)).log
      ∧ accesses (submissionsAndStop.runs (exec oddPlatform)
          (List.replicate 19 0 ++ List.replicate 10 2 ++ List.replicate 19 1)).shared.hist
        = accesses (submissionsAndStop.runs (exec oddPlatform)
          (List.replicate 19 0 ++ List.replicate 10 2)).shared.hist := by
  have hunmapped : Unmapped (submissionsAndStop.runs (exec oddPlatform)
      (List.replicate 19 0 ++ List.replicate 10 2)).log := by
    decide
  exact ⟨hunmapped, untouched_after_unmap oddPlatform _ _ _ _ (by decide) hunmapped⟩

/-- **A submission goes on after the mapping is released.** The guard of the
first one is awake when the shutdown runs, all of it; then it reads the
first register of the ring. -/
theorem submission_after_unmap :
    ¬(Pool.Along (exec oddPlatform) UnmapsAtOnce submissionsAndStop
        (List.replicate 12 0 ++ List.replicate 10 2 ++ [0]) →
      Unmapped (submissionsAndStop.runs (exec oddPlatform)
        (List.replicate 12 0 ++ List.replicate 10 2)).log →
      accesses (submissionsAndStop.runs (exec oddPlatform)
          (List.replicate 12 0 ++ List.replicate 10 2 ++ [0])).shared.hist
        = accesses (submissionsAndStop.runs (exec oddPlatform)
          (List.replicate 12 0 ++ List.replicate 10 2)).shared.hist) :=
  fun h => absurd (h (by decide) (by decide)) (by decide)
