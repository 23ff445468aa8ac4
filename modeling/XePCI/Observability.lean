import XePCI.Coupling
import XePCI.Objects
import XePCI.SafeModes

/-!
# What neither clients nor the device can see

Two things the driver is given should make no difference to its clients or
to the device: where in the kernel's address space the BAR and the buffers
are mapped, and whether the boot argument asks for a verbose log. They do
enter the machine. The address of the BAR is a field of the service and is
copied into the command stream and its guard, the address of a buffer is
fetched by every creation and every submission, and the flag is one of the
four that are loaded at every turn. The driver writes the addresses to the
kernel's log, which is no part of what is compared here.

Otherwise all it asks of an address is whether it is null, and of the flag
nothing. So two platforms that agree but for them (`Platform.Alike`) are in
lockstep: request by request the answers are the same, up to what
`KextOp.Alike` says. Therefore a client gets the same results on both, and
the device sees the same accesses – over a whole session and in every
interleaving of calls and shutdowns (`results_addressFree`).
-/

open XeService

/-! ## Platforms and machines that look alike -/

/-- The flags differ in `verbose` at most. -/
def XeBootFlags.Alike (g g' : XeBootFlags) : Prop := g' = { g with verbose := g'.verbose }

theorem XeBootFlags.Alike.gate {g g' : XeBootFlags} (h : g.Alike g') :
    g'.disableForcewake = g.disableForcewake
      ∧ g'.disableCommandStream = g.disableCommandStream ∧ g'.strictSafe = g.strictSafe := by
  rw [h]
  exact ⟨rfl, rfl, rfl⟩

/-- Both addresses are null, or neither is. -/
def SameNull (a a' : UInt64) : Prop := a = 0 ↔ a' = 0

/-- The mappings are of one length, and their addresses are null together. -/
structure IOMemoryMap.Alike (map map' : IOMemoryMap) : Prop where
  length : map'.length = map.length
  address : SameNull map.virtualAddress map'.virtualAddress

/-- **The platforms agree** but for the addresses and the flag `verbose`. -/
structure Platform.Alike (P P' : Platform) : Prop where
  flags : P.flags.Alike P'.flags
  superStart : P'.superStart = P.superStart
  providerIsPci : P'.providerIsPci = P.providerIsPci
  bar0 : Option.Rel IOMemoryMap.Alike P.bar0 P'.bar0
  withCapacityOk : P'.withCapacityOk = P.withCapacityOk
  hw : P'.hw = P.hw
  withOptionsOk : P'.withOptionsOk = P.withOptionsOk
  bytesNoCopy : ∀ md, SameNull (P.bytesNoCopy md) (P'.bytesNoCopy md)
  setObjectOk : P'.setObjectOk = P.setObjectOk

/-- The machines agree but for the addresses and the flag. -/
structure Machine.Alike (s s' : Machine) : Prop where
  rest : s' = { s with gXeBoot := s'.gXeBoot, bar0 := s'.bar0, mmio := s'.mmio }
  gXeBoot : s.gXeBoot.Alike s'.gXeBoot
  bar0 : Option.Rel IOMemoryMap.Alike s.bar0 s'.bar0
  mmio : SameNull s.mmio s'.mmio

/-! ## Requests that go together -/

/-- Whether neither the request nor its answer has an address or the flags
in it. -/
def KextOp.plain : KextOp → Bool
  | superInit | peParseBootArgn | loadBoot | storeBoot _ | mapBar0 | setBar0 _ | setMmio _ | getMmio
  | getBytesNoCopy _ | mmioRead _ _ _ | mmioWrite _ _ _ _ => false
  | _ => true

/-- **The requests that go together**, with what is known of the answers. -/
inductive KextOp.Alike : Coupling KextOp KextOp.Resp
  | plain {o : KextOp} (ho : o.plain = true) : Alike o o Eq
  | loadBoot : Alike .loadBoot .loadBoot XeBootFlags.Alike
  | getMmio : Alike .getMmio .getMmio SameNull
  | getBytesNoCopy (md : ObjId) : Alike (.getBytesNoCopy md) (.getBytesNoCopy md) SameNull
  | mapBar0 : Alike .mapBar0 .mapBar0 (Option.Rel IOMemoryMap.Alike)
  | setBar0 {map map' : Option IOMemoryMap} (h : Option.Rel IOMemoryMap.Alike map map') :
      Alike (.setBar0 map) (.setBar0 map') Eq
  | setMmio {p p' : UInt64} (h : SameNull p p') : Alike (.setMmio p) (.setMmio p') Eq
  | mmioRead (path : AccessPath) (m m' : UInt64) (off : UInt32) :
      Alike (.mmioRead path m off) (.mmioRead path m' off) Eq
  | mmioWrite (path : AccessPath) (m m' : UInt64) (off val : UInt32) :
      Alike (.mmioWrite path m off val) (.mmioWrite path m' off val) Eq

theorem isSome_of_rel {α β : Type} {R : α → β → Prop} {a : Option α} {b : Option β}
    (h : Option.Rel R a b) : b.isSome = a.isSome := by
  cases h <;> rfl

/-- **They get answers that go together**, and leave the machines alike. -/
theorem exec_alike {P P' : Platform} (hP : P.Alike P') (o o' : KextOp)
    (A : o.Resp → o'.Resp → Prop) (s s' : Machine) (ho : KextOp.Alike o o' A)
    (hs : s.Alike s') :
    A (exec P o s).1 (exec P' o' s').1 ∧ (exec P o s).2.Alike (exec P' o' s').2 := by
  obtain ⟨hrest, hboot, hbar0, hmmio⟩ := hs
  generalize s'.gXeBoot = g' at hrest hboot
  generalize s'.bar0 = map' at hrest hbar0
  generalize s'.mmio = m' at hrest hmmio
  subst hrest
  cases ho with
  | loadBoot => exact ⟨hboot, ⟨rfl, hboot, hbar0, hmmio⟩⟩
  | getMmio => exact ⟨hmmio, ⟨rfl, hboot, hbar0, hmmio⟩⟩
  | getBytesNoCopy md => exact ⟨hP.bytesNoCopy md, ⟨rfl, hboot, hbar0, hmmio⟩⟩
  | mapBar0 =>
    refine ⟨hP.bar0, ⟨?_, hboot, hbar0, hmmio⟩⟩
    simp only [exec_mapBar0, isSome_of_rel hP.bar0]
  | setBar0 h => exact ⟨rfl, ⟨rfl, hboot, h, hmmio⟩⟩
  | setMmio h => exact ⟨rfl, ⟨rfl, hboot, hbar0, h⟩⟩
  | mmioRead path m m' off =>
    simp only [exec_mmioRead, Machine.readDword, hP.hw]
    exact ⟨trivial, ⟨rfl, hboot, hbar0, hmmio⟩⟩
  | mmioWrite path m m' off val => exact ⟨rfl, ⟨rfl, hboot, hbar0, hmmio⟩⟩
  | plain ho =>
    cases o with
    | superStart => exact ⟨hP.superStart.symm, ⟨rfl, hboot, hbar0, hmmio⟩⟩
    | castProvider => exact ⟨hP.providerIsPci.symm, ⟨rfl, hboot, hbar0, hmmio⟩⟩
    | hasBar0 => exact ⟨(isSome_of_rel hbar0).symm, ⟨rfl, hboot, hbar0, hmmio⟩⟩
    | withCapacity n =>
      simp only [exec_withCapacity, hP.withCapacityOk]
      exact ⟨trivial, ⟨rfl, hboot, hbar0, hmmio⟩⟩
    | setObject md =>
      simp only [setObject_eq, Machine.entered, hP.setObjectOk]
      exact ⟨trivial, ⟨rfl, hboot, hbar0, hmmio⟩⟩
    | getObject i =>
      simp only [getObject_eq]
      exact ⟨trivial, ⟨rfl, hboot, hbar0, hmmio⟩⟩
    | withOptions capacity =>
      simp only [withOptions_eq, hP.withOptionsOk]
      exact ⟨trivial, ⟨rfl, hboot, hbar0, hmmio⟩⟩
    | readRegSafe off =>
      -- the pointer is null in both machines or in neither
      have hnull : s.mmio = 0 ↔ m' = 0 := hmmio
      simp only [readRegSafe_eq, Machine.sentinel, hnull, hP.hw]
      exact ⟨trivial, ⟨rfl, hboot, hbar0, hmmio⟩⟩
    | _ => first
      | exact ⟨rfl, ⟨rfl, hboot, hbar0, hmmio⟩⟩
      | exact absurd ho Bool.false_ne_true

/-! ## The programs are in lockstep

One lemma for each function that handles an address or loads the flags; the
others only make plain requests. -/

/-- The programs are in lockstep. -/
abbrev InLockstep {α β : Type} (Q : α → β → Prop) (p : Kext α) (p' : Kext β) : Prop :=
  Prog.Coupled KextOp.Alike Q p p'

section Lockstep

open Prog

theorem lockstep_plain {α : Type} {p : Kext α} (h : p.Issues (fun o => o.plain = true)) :
    InLockstep Eq p p :=
  h.coupled fun _ ho => .plain ho

variable {m m' : UInt64}

theorem lockstep_checkedRead (path : AccessPath) (hm : SameNull m m') (off : UInt32) :
    InLockstep Eq (checkedRead path m off) (checkedRead path m' off) := by
  refine .ite hm (fun _ => coupled_ret rfl) fun _ => ?_
  refine .ite Iff.rfl (fun _ => coupled_ret rfl) fun _ => ?_
  exact coupled_perform (.mmioRead path m m' off)

theorem lockstep_wr (hm : SameNull m m') (off v : UInt32) :
    InLockstep Eq (ForcewakeGuard.wr m off v) (ForcewakeGuard.wr m' off v) := by
  refine .ite hm (fun _ => coupled_ret rfl) fun _ => ?_
  refine .ite Iff.rfl (fun _ => coupled_ret rfl) fun _ => ?_
  exact coupled_perform (.mmioWrite .guardRdWr m m' off v)

theorem lockstep_poll (hm : SameNull m m') (n : ℕ) :
    InLockstep Eq (ForcewakeGuard.poll m n) (ForcewakeGuard.poll m' n) := by
  induction n with
  | zero => exact coupled_ret rfl
  | succ n ih =>
    refine (lockstep_checkedRead .guardRdWr hm _).bind ?_
    rintro ack _ rfl
    refine .ite Iff.rfl (fun _ => coupled_ret rfl) fun _ => ?_
    exact .ite Iff.rfl (fun _ => coupled_ret rfl) fun _ => ih

/-- The guards differ in the address at most. -/
structure ForcewakeGuard.Alike (fw fw' : ForcewakeGuard) : Prop where
  m : SameNull fw.m fw'.m
  acquired : fw'.acquired = fw.acquired

theorem lockstep_make (hm : SameNull m m') :
    InLockstep ForcewakeGuard.Alike (ForcewakeGuard.make m) (ForcewakeGuard.make m') := by
  refine .ite hm (fun _ => coupled_ret ⟨hm, rfl⟩) fun _ => ?_
  refine (coupled_perform .loadBoot).bind fun g g' hg => ?_
  refine .ite (by rw [hg.gate.1, hg.gate.2.2]) (fun _ => coupled_ret ⟨hm, rfl⟩) fun _ => ?_
  refine .ite Iff.rfl (fun _ => coupled_ret ⟨hm, rfl⟩) fun _ => ?_
  refine (lockstep_wr hm _ _).bind fun _ _ _ => ?_
  refine (lockstep_poll hm 50).bind ?_
  rintro acquired _ rfl
  exact (coupled_perform (.plain rfl)).bind fun _ _ _ => coupled_ret ⟨hm, rfl⟩

theorem lockstep_destroy {fw fw' : ForcewakeGuard} (h : fw.Alike fw') :
    InLockstep Eq fw.destroy fw'.destroy := by
  refine .ite (and_congr (by rw [h.acquired]) (not_congr h.m)) (fun _ => ?_)
    fun _ => coupled_ret rfl
  exact .ite h.m (fun _ => coupled_ret rfl) fun _ => lockstep_wr h.m _ _

theorem lockstep_scope {α : Type} (hm : SameNull m m') {body body' : ForcewakeGuard → Kext α}
    (h : ∀ fw fw', fw.Alike fw' → InLockstep Eq (body fw) (body' fw')) :
    InLockstep Eq (ForcewakeGuard.scope m body) (ForcewakeGuard.scope m' body') := by
  refine (lockstep_make hm).bind fun fw fw' hfw => ?_
  refine (h fw fw' hfw).bind fun a a' ha => ?_
  exact (lockstep_destroy hfw).bind fun _ _ _ => coupled_ret ha

theorem lockstep_readRcs0 (hm : SameNull m m') :
    InLockstep Eq (XeCommandStream.readRcs0 m) (XeCommandStream.readRcs0 m') := by
  have hrd (off : UInt32) := lockstep_checkedRead .csSafeRd hm off
  refine (hrd _).bind ?_
  rintro ringHead _ rfl
  refine (hrd _).bind ?_
  rintro ringTail _ rfl
  refine (hrd _).bind ?_
  rintro ringCtl _ rfl
  refine .ite Iff.rfl (fun _ => coupled_ret rfl) fun _ => ?_
  refine .ite Iff.rfl (fun _ => coupled_ret rfl) fun _ => ?_
  refine .ite Iff.rfl (fun _ => ?_) fun _ => coupled_ret rfl
  exact (hrd _).bind fun _ _ _ => (hrd _).bind fun _ _ _ => coupled_ret rfl

theorem lockstep_logRcs0State (hm : SameNull m m') :
    InLockstep Eq (XeCommandStream.logRcs0State m) (XeCommandStream.logRcs0State m') := by
  refine .ite hm (fun _ => coupled_ret rfl) fun _ => ?_
  refine (coupled_perform .loadBoot).bind fun g g' hg => ?_
  refine .ite (by rw [hg.gate.2.1, hg.gate.2.2]) (fun _ => coupled_ret rfl) fun _ => ?_
  refine .ite Iff.rfl (fun _ => coupled_ret rfl) fun _ => ?_
  exact lockstep_scope hm fun _ _ _ => lockstep_readRcs0 hm

theorem lockstep_submitNoop (hm : SameNull m m') (md : ObjId) :
    InLockstep Eq (XeCommandStream.submitNoop m (some md))
      (XeCommandStream.submitNoop m' (some md)) := by
  refine .ite hm (fun _ => coupled_ret rfl) fun _ => ?_
  refine (coupled_perform .loadBoot).bind fun g g' hg => ?_
  refine .ite (by rw [hg.gate.2.1, hg.gate.2.2]) (fun _ => coupled_ret rfl) fun _ => ?_
  refine (coupled_perform (.getBytesNoCopy md)).bind fun rawAddr rawAddr' hraw => ?_
  refine .ite hraw (fun _ => coupled_ret rfl) fun _ => ?_
  refine (coupled_perform (.plain rfl)).bind ?_
  rintro bufSize _ rfl
  refine .ite Iff.rfl (fun _ => coupled_ret rfl) fun _ => ?_
  refine (coupled_perform (.plain rfl)).bind fun _ _ _ => ?_
  exact (lockstep_logRcs0State hm).bind fun _ _ _ => coupled_ret rfl

/-! ### The methods of the service -/

theorem lockstep_ucSubmitNoop : InLockstep Eq ucSubmitNoop ucSubmitNoop := by
  refine (coupled_perform .getMmio).bind fun mmio mmio' hmmio => ?_
  refine .ite hmmio (fun _ => coupled_ret rfl) fun _ => ?_
  refine (coupled_perform (.plain rfl)).bind ?_
  rintro md _ rfl
  cases md with
  | none => exact coupled_ret rfl
  | some md =>
    refine (coupled_perform .getMmio).bind fun m m' hm => ?_
    refine (lockstep_submitNoop hm md).bind ?_
    rintro kr _ rfl
    exact (coupled_perform (.plain rfl)).bind fun _ _ _ => coupled_ret rfl

theorem lockstep_ucCreateBuffer (bytes : UInt32) :
    InLockstep Eq (ucCreateBuffer bytes) (ucCreateBuffer bytes) := by
  refine (coupled_perform (.plain rfl)).bind ?_
  rintro ready _ rfl
  refine .ite Iff.rfl (fun _ => coupled_ret rfl) fun _ => ?_
  refine (coupled_perform (.plain rfl)).bind ?_
  rintro md _ rfl
  cases md with
  | none => exact coupled_ret rfl
  | some md =>
    refine (coupled_perform (.plain rfl)).bind ?_
    rintro added _ rfl
    refine .ite Iff.rfl (fun _ => ?_) fun _ => ?_
    · exact (coupled_perform (.plain rfl)).bind fun _ _ _ => coupled_ret rfl
    · refine (coupled_perform (.plain rfl)).bind ?_
      rintro count _ rfl
      exact (coupled_perform (.getBytesNoCopy md)).bind fun _ _ _ => coupled_ret rfl

theorem lockstep_mapM_readReg (offs : List UInt32) :
    InLockstep Eq (offs.mapM readReg) (offs.mapM readReg) :=
  lockstep_plain (Issues.mapM fun _ _ => issues_perform rfl)

theorem lockstep_readList (offs : List UInt32) :
    InLockstep Eq (readList offs) (readList offs) := by
  refine (coupled_perform .getMmio).bind fun mmio mmio' hmmio => ?_
  refine .ite hmmio (fun _ => coupled_ret rfl) fun _ => ?_
  refine (lockstep_mapM_readReg offs).bind ?_
  rintro out _ rfl
  exact coupled_ret rfl

/-- **Every call is in lockstep with itself.** -/
theorem lockstep_call (c : Call) : InLockstep Eq c.prog c.prog := by
  cases c.way with
  | refused kr hkr hp =>
    rw [hp]
    exact coupled_ret rfl
  | wait a hc timeoutMs hp =>
    rw [hp]
    exact ((coupled_perform (.plain rfl)).bind fun _ _ _ => coupled_ret rfl).map_eq _
  | createBuffer a hc bytes hp =>
    rw [hp]
    exact (lockstep_ucCreateBuffer bytes).map_eq _
  | submit a hc hp =>
    rw [hp]
    exact lockstep_ucSubmitNoop.map_eq _
  | readList a k hk hc out hout hp =>
    rw [hp]
    exact (lockstep_readList _).map_eq _

/-! ### Bring-up and shutdown -/

theorem lockstep_mapBar0 : InLockstep Eq mapBar0 mapBar0 := by
  refine (coupled_perform (.plain rfl)).bind ?_
  rintro started _ rfl
  refine .ite Iff.rfl (fun _ => coupled_ret rfl) fun _ => ?_
  refine (coupled_perform (.plain rfl)).bind ?_
  rintro dev _ rfl
  refine (coupled_perform (.plain rfl)).bind fun _ _ _ => ?_
  refine .ite Iff.rfl (fun _ => coupled_ret rfl) fun _ => ?_
  refine (coupled_perform (.plain rfl)).bind fun _ _ _ => ?_
  refine (coupled_perform (.plain rfl)).bind fun _ _ _ => ?_
  refine (coupled_perform (.plain rfl)).bind fun _ _ _ => ?_
  refine (coupled_perform .mapBar0).bind fun bar0 bar0' hbar0 => ?_
  refine (coupled_perform (.setBar0 hbar0)).bind fun _ _ _ => ?_
  -- the two early exits give the mapping back
  have hback : InLockstep Eq
      (do req .releaseBar0; req (.setBar0 none); return false)
      (do req .releaseBar0; req (.setBar0 none); return false) := by
    refine (coupled_perform (.plain rfl)).bind fun _ _ _ => ?_
    exact (coupled_perform (.setBar0 .none)).bind fun _ _ _ => coupled_ret rfl
  cases hbar0 with
  | none => exact coupled_ret rfl
  | @some map map' hmap =>
    refine (hmap.length ▸ coupled_perform (.plain rfl) :
      InLockstep Eq (req (.setBar0Length map.length)) (req (.setBar0Length map'.length))).bind
      fun _ _ _ => ?_
    refine .ite (by rw [hmap.length]) (fun _ => hback) fun _ => ?_
    refine (coupled_perform (.setMmio hmap.address)).bind fun _ _ _ => ?_
    exact .ite hmap.address (fun _ => hback) fun _ => coupled_ret rfl

theorem lockstep_sampleRegisters :
    InLockstep (fun _ _ => True) sampleRegisters sampleRegisters := by
  have hraw (off : UInt32) : InLockstep Eq (readRaw off) (readRaw off) :=
    (coupled_perform .getMmio).bind fun mmio mmio' _ =>
      coupled_perform (.mmioRead .startRaw mmio mmio' off)
  exact (Coupled.mapM fun off _ => hraw off).imp fun _ _ _ => trivial

theorem lockstep_probe (hm : SameNull m m') :
    InLockstep Eq (XeGGTT.probe m) (XeGGTT.probe m') := by
  have hread (off : UInt32) := lockstep_checkedRead .ggttSafeRead hm off
  refine .ite hm (fun _ => coupled_ret rfl) fun _ => ?_
  refine (hread _).bind ?_
  rintro pgtblCtl _ rfl
  refine .ite Iff.rfl (fun _ => coupled_ret rfl) fun _ => ?_
  refine (hread _).bind fun _ _ _ => (hread _).bind fun _ _ _ => ?_
  refine .ite Iff.rfl (fun _ => ?_) fun _ => coupled_ret rfl
  exact (hread _).bind fun _ _ _ => (hread _).bind fun _ _ _ => coupled_ret rfl

theorem lockstep_probeGpu : InLockstep Eq probeGpu probeGpu := by
  refine (coupled_perform .loadBoot).bind fun g g' hg => ?_
  refine .ite (by rw [hg.gate.2.2]) (fun _ => coupled_ret rfl) fun _ => ?_
  refine (lockstep_mapM_readReg _).bind fun _ _ _ => ?_
  refine (coupled_perform .getMmio).bind fun mmio mmio' hmmio => ?_
  refine (lockstep_probe hmmio).bind fun _ _ _ => ?_
  exact (lockstep_mapM_readReg _).bind fun _ _ _ => coupled_ret rfl

theorem lockstep_start : InLockstep Eq start start := by
  refine lockstep_mapBar0.bind ?_
  rintro mapped _ rfl
  refine .ite Iff.rfl (fun _ => coupled_ret rfl) fun _ => ?_
  refine lockstep_sampleRegisters.bind fun _ _ _ => ?_
  refine lockstep_probeGpu.bind fun _ _ _ => ?_
  refine (coupled_perform (.plain rfl)).bind ?_
  rintro a _ rfl
  exact (coupled_perform (.plain rfl)).bind fun _ _ _ => coupled_ret rfl

theorem lockstep_stop : InLockstep Eq stop stop := by
  have hregistry : InLockstep Eq stopRegistry stopRegistry :=
    lockstep_plain (issues_stopRegistry.imp fun o ho => by
      cases o <;> first | rfl | exact absurd ho Bool.false_ne_true)
  refine hregistry.bind fun _ _ _ => ?_
  refine Coupled.bind (Q := Eq) ?_ fun _ _ _ => ?_
  · refine (coupled_perform (.plain rfl)).bind ?_
    rintro mapped _ rfl
    refine .ite Iff.rfl (fun _ => ?_) fun _ => coupled_ret rfl
    refine (coupled_perform (.plain rfl)).bind fun _ _ _ => ?_
    refine (coupled_perform (.setBar0 .none)).bind fun _ _ _ => ?_
    exact coupled_perform (.setMmio Iff.rfl)
  · refine (coupled_perform (.plain rfl)).bind ?_
    rintro pci _ rfl
    exact .ite Iff.rfl (fun _ => coupled_perform (.plain rfl)) fun _ => coupled_ret rfl

theorem lockstep_clientThread (w : Option Call) :
    InLockstep Eq (clientThread w) (clientThread w) := by
  cases w with
  | none => exact lockstep_stop.map_eq _
  | some c => exact (lockstep_call c).map_eq _

end Lockstep

/-! ## Sessions and interleavings -/

section AddressFree

variable {P P' : Platform}

theorem initialized_alike (hP : P.Alike P') : P.initialized.Alike P'.initialized := by
  rw [initialized_eq, initialized_eq]
  exact ⟨rfl, hP.flags, .none, Iff.rfl⟩

theorem started_alike (hP : P.Alike P') : P.started.Alike P'.started :=
  (lockstep_start.agree (exec_alike hP) _ _ (initialized_alike hP)).2

/-- **No result of a call and no access to the device depends on the addresses
or on the flag `verbose`.** On two platforms that agree but for them, the calls
of a session return the same and the device sees the same accesses; and so it
is at every moment of every interleaving of calls and shutdowns. -/
theorem results_addressFree {ι : Type} [DecidableEq ι] (hP : P.Alike P') :
    (∀ calls, results P' calls = results P calls ∧ history P' calls = history P calls) ∧
      ∀ (work : ι → Option Call) (sched : List ι),
        (∀ i, (((servicePool P'.started work).runs (exec P') sched).thread i).result?
          = (((servicePool P.started work).runs (exec P) sched).thread i).result?) ∧
        ((servicePool P'.started work).runs (exec P') sched).shared.hist
          = ((servicePool P.started work).runs (exec P) sched).shared.hist := by
  constructor
  · intro calls
    have hserve : InLockstep Eq (serve calls) (serve calls) :=
      (Prog.Coupled.mapM fun c _ => lockstep_call c).imp fun _ _ => List.forall₂_eq_eq_eq ▸ id
    obtain ⟨hresults, hend⟩ := hserve.agree (exec_alike hP) _ _ (started_alike hP)
    unfold results
    rw [run_session, run_session, history_eq, history_eq, hend.rest]
    exact ⟨hresults.symm, rfl⟩
  · intro work sched
    have hstart : Pool.Coupled KextOp.Alike Machine.Alike Eq (servicePool P.started work)
        (servicePool P'.started work) :=
      ⟨started_alike hP, fun i => lockstep_clientThread (work i)⟩
    have hpool := Pool.coupled_runs (exec_alike hP) hstart sched
    refine ⟨fun i => (hpool.threads i).result?.symm, ?_⟩
    rw [hpool.shared.rest]

end AddressFree

/-- A platform with everything at another place, and a verbose log. -/
def elsewherePlatform : Platform :=
  { Platform.ideal with
    bootArg := some ⟨tokenVerbose, by decide, by decide⟩
    bar0 := some ⟨0x1000000, 0xFFFFFF8000⟩
    bytesNoCopy := fun _ => 0xFFFFFF9000 }

theorem ideal_alike_elsewhere : Platform.ideal.Alike elsewherePlatform where
  flags := show _ = _ by decide
  superStart := rfl
  providerIsPci := rfl
  bar0 := .some ⟨rfl, iff_of_false (by decide) (by decide)⟩
  withCapacityOk := rfl
  hw := rfl
  withOptionsOk := rfl
  bytesNoCopy _ := iff_of_false (show (0x1000 : UInt64) ≠ 0 by decide)
    (show (0xFFFFFF9000 : UInt64) ≠ 0 by decide)
  setObjectOk := rfl

/-- A session with a creation and a reading, at the two places. -/
theorem results_addressFree_elsewhere :
    Platform.ideal.Alike elsewherePlatform ∧ elsewherePlatform.flags.verbose = true
      ∧ results elsewherePlatform [Call.creating 1, Call.reading 3]
        = results Platform.ideal [Call.creating 1, Call.reading 3] :=
  ⟨ideal_alike_elsewhere, by decide,
    ((results_addressFree (ι := Unit) ideal_alike_elsewhere).1 _).1⟩
