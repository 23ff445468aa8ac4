import XePCI.BufferObjects

/-!
# How calls and shutdowns use the registry

Three of the driver's functions handle buffer descriptors. A creation looks
at the registry, creates a descriptor, enters it and fetches its address. A
submission creates a descriptor for its batch, writes the batch and releases
the descriptor, and has nothing to do with the registry. A shutdown looks at
the registry, reads its count, sweeps over the members, releasing each, then
releases the array and clears the field.

Where a thread is in this is its phase (`RegistryPhase`), and
`registryMonitor` says what each phase may do. Every call and every shutdown
obeys it (`obeys_registry`), so what is proved of the phases holds of every
interleaving of them.
-/

open XeService

/-- How far a thread has come with descriptors. -/
inductive RegistryPhase where
  /-- It has none and is not at the registry. -/
  | idle
  /-- A submission has its batch. -/
  | batch (md : ObjId)
  /-- A creation or a shutdown has found a registry. -/
  | inside
  /-- A creation has a descriptor that is not in the registry. -/
  | holding (md : ObjId)
  /-- The descriptor is in the registry. -/
  | entered (md : ObjId)
  /-- A shutdown has released the first `k` of `n` members. -/
  | sweeping (k n : ℕ)
  /-- It has looked at the next one. -/
  | picked (k n : ℕ) (md : ObjId)
  /-- It has released the array and not yet cleared the field. -/
  | dropped
  deriving DecidableEq

/-- The batch `submitNoop` writes. -/
def noopBatch : List UInt32 :=
  [XeHW.miNoop, XeHW.miNoop, XeHW.miNoop, XeHW.miBatchBufferEnd]

/-- Whether a request has nothing to do with descriptors or the registry. -/
def KextOp.offRegistry : KextOp → Bool
  | hasBoList | getCount => false
  | o => o.keepsObjects

namespace RegistryPhase

/-- The descriptor of a thread that has the one reference to it. -/
def owned? : RegistryPhase → Option ObjId
  | batch md | holding md => some md
  | _ => none

/-- The phase after a request and its answer. -/
def next (φ : RegistryPhase) : (o : KextOp) → o.Resp → RegistryPhase
  | .hasBoList, found => if found then inside else idle
  | .withOptions _, md =>
    match φ with
    | inside => md.elim idle holding
    | _ => md.elim idle batch
  | .setObject md, added => if added then entered md else φ
  | .getCount, count =>
    match φ with
    | inside => sweeping 0 count.toNat
    | _ => φ
  | .getBytesNoCopy _, _ =>
    match φ with
    | entered _ => idle
    | _ => φ
  | .getObject _, md =>
    match φ with
    | sweeping k n => md.elim (sweeping (k + 1) n) (picked k n)
    | _ => φ
  | .release _, _ =>
    match φ with
    | picked k n _ => sweeping (k + 1) n
    | _ => idle
  | .releaseArray, _ => dropped
  | .setBoList _, _ => idle
  | _, _ => φ

/-- **What a phase may do.** -/
inductive Allows : RegistryPhase → KextOp → Prop
  | other {φ : RegistryPhase} {o : KextOp} (ho : o.offRegistry = true) : Allows φ o
  | look : Allows idle .hasBoList
  | allocBatch : Allows idle (.withOptions 4096)
  | batchAddress (md : ObjId) : Allows (batch md) (.getBytesNoCopy md)
  | batchLength (md : ObjId) : Allows (batch md) (.getLength md)
  | writeBatch (md : ObjId) : Allows (batch md) (.writeCmds md noopBatch)
  | releaseBatch (md : ObjId) : Allows (batch md) (.release md)
  | alloc (capacity : UInt32) : Allows inside (.withOptions capacity)
  | enter (md : ObjId) : Allows (holding md) (.setObject md)
  | undo (md : ObjId) : Allows (holding md) (.release md)
  | count (md : ObjId) : Allows (entered md) .getCount
  | address (md : ObjId) : Allows (entered md) (.getBytesNoCopy md)
  | sweep : Allows inside .getCount
  | pick {k n : ℕ} (hk : k < n) : Allows (sweeping k n) (.getObject (UInt32.ofNat k))
  | drop (k n : ℕ) (md : ObjId) : Allows (picked k n md) (.release md)
  | dropArray (n : ℕ) : Allows (sweeping n n) .releaseArray
  | clear : Allows dropped (.setBoList none)

end RegistryPhase

/-- **The monitor of the registry.** -/
def registryMonitor : Monitor KextOp KextOp.Resp RegistryPhase where
  allows := RegistryPhase.Allows
  admits _ _ _ := True
  next := RegistryPhase.next

/-- A request that has nothing to do with it leaves the phase. -/
theorem RegistryPhase.next_of_offRegistry {o : KextOp} (ho : o.offRegistry = true)
    (φ : RegistryPhase) (r : o.Resp) : φ.next o r = φ := by
  cases o <;> first | rfl | exact absurd ho Bool.false_ne_true

/-! ## Calls and shutdowns obey it -/

section Obeys

open Prog

/-- Whatever has nothing to do with the registry may be done in any phase. -/
theorem obeys_offRegistry {α : Type} {p : Kext α}
    (h : p.Issues (fun o => o.offRegistry = true)) (φ : RegistryPhase) :
    Obeys registryMonitor φ p (fun φ' _ => φ' = φ) :=
  h.obeys fun _ ho => ⟨RegistryPhase.Allows.other ho, φ.next_of_offRegistry ho⟩

theorem Probes.offRegistry {α : Type} {p : Kext α} (h : Probes p) :
    p.Issues (fun o => o.offRegistry = true) :=
  h.imp fun o ho => by cases o <;> first | rfl | exact absurd ho Bool.false_ne_true

theorem obeys_registry_ucCreateBuffer (bytes : UInt32) :
    Obeys registryMonitor .idle (ucCreateBuffer bytes) (fun φ _ => φ = .idle) := by
  refine .perform_bind .look fun ready _ => ?_
  cases ready with
  | false => exact rfl
  | true =>
    refine .perform_bind (.alloc _) fun md _ => ?_
    cases md with
    | none => exact rfl
    | some md =>
      refine .perform_bind (.enter md) fun added _ => ?_
      cases added with
      | false => exact .perform_bind (.undo md) fun _ _ => rfl
      | true =>
        refine .perform_bind (.count md) fun count _ => ?_
        exact .perform_bind (.address md) fun _ _ => rfl

/-- The command stream only touches the batch it is given. -/
theorem obeys_registry_submitNoop (m : UInt64) (md : ObjId) :
    Obeys registryMonitor (.batch md) (XeCommandStream.submitNoop m (some md))
      (fun φ _ => φ = .batch md) := by
  unfold XeCommandStream.submitNoop
  split
  · exact rfl
  refine .perform_bind (.other rfl) fun gXeBoot _ => ?_
  split
  · exact rfl
  refine .perform_bind (.batchAddress md) fun rawAddr _ => ?_
  split
  · exact rfl
  refine .perform_bind (.batchLength md) fun bufSize _ => ?_
  split
  · exact rfl
  refine .perform_bind (.writeBatch md) fun _ _ => ?_
  refine (obeys_bind ..).mpr ?_
  exact (obeys_offRegistry (probes_logRcs0State m).offRegistry _).mono fun _ _ h => h

theorem obeys_registry_ucSubmitNoop :
    Obeys registryMonitor .idle ucSubmitNoop (fun φ _ => φ = .idle) := by
  refine .perform_bind (.other rfl) fun mmio _ => ?_
  split
  · exact rfl
  refine .perform_bind .allocBatch fun md _ => ?_
  cases md with
  | none => exact rfl
  | some md =>
    refine .perform_bind (.other rfl) fun m _ => ?_
    refine (obeys_bind ..).mpr ((obeys_registry_submitNoop m md).mono ?_)
    rintro φ kr rfl
    exact .perform_bind (.releaseBatch md) fun _ _ => rfl

theorem obeys_registry_call (c : Call) :
    Obeys registryMonitor .idle c.prog (fun φ _ => φ = .idle) := by
  cases c.way with
  | refused kr hkr hp =>
    rw [hp]
    exact rfl
  | wait a hc timeoutMs hp =>
    rw [hp, obeys_map]
    exact obeys_offRegistry (probes_ucWait _).offRegistry .idle
  | createBuffer a hc bytes hp =>
    rw [hp, obeys_map]
    exact obeys_registry_ucCreateBuffer bytes
  | submit a hc hp =>
    rw [hp, obeys_map]
    exact obeys_registry_ucSubmitNoop
  | readList a k hk hc out hout hp =>
    rw [hp, obeys_map]
    exact obeys_offRegistry (probes_readList _).offRegistry .idle

/-- The loop of `stop`, from the `k`-th of `n` members on. -/
theorem obeys_releaseMembers {k n left : ℕ} (hn : k + left = n) :
    Obeys registryMonitor (.sweeping k n) (releaseMembers k left)
      (fun φ _ => φ = .sweeping n n) := by
  induction left generalizing k with
  | zero =>
    rw [Nat.add_zero] at hn
    subst hn
    exact rfl
  | succ left ih =>
    refine .perform_bind (.pick (by omega)) fun md _ => ?_
    cases md with
    | none => exact ih (by omega)
    | some md => exact .perform_bind (.drop k n md) fun _ _ => ih (by omega)

theorem obeys_registry_stop : Obeys registryMonitor .idle stop (fun φ _ => φ = .idle) := by
  have hregistry : Obeys registryMonitor .idle stopRegistry (fun φ _ => φ = .idle) := by
    refine .perform_bind .look fun ready _ => ?_
    cases ready with
    | false => exact rfl
    | true =>
      refine .perform_bind .sweep fun count _ => ?_
      refine (obeys_bind ..).mpr ((obeys_releaseMembers (Nat.zero_add _)).mono ?_)
      rintro φ _ rfl
      exact .perform_bind (.dropArray _) fun _ _ => ⟨.clear, fun _ _ => rfl⟩
  have hrest : Issues (fun o : KextOp => o.offRegistry = true) (do
      stopMapping
      let pci ← req .hasPci
      if pci then
        req (.setBusMasterEnable false)) := by
    refine Issues.bind ?_ fun _ => Issues.bind (issues_perform rfl) fun pci => ?_
    · refine Issues.bind (issues_perform rfl) fun mapped => ?_
      split
      · refine Issues.bind (issues_perform rfl) fun _ => ?_
        exact Issues.bind (issues_perform rfl) fun _ => issues_perform rfl
      · exact issues_ret _
    · split
      · exact issues_perform rfl
      · exact issues_ret _
  unfold stop
  refine (obeys_bind ..).mpr (hregistry.mono ?_)
  rintro φ _ rfl
  exact obeys_offRegistry hrest .idle

/-- **Every thread obeys the monitor**, and is idle in the end. -/
theorem obeys_registry (w : Option Call) :
    Obeys registryMonitor .idle (clientThread w) (fun φ _ => φ = .idle) := by
  cases w with
  | none => exact (obeys_map ..).mpr obeys_registry_stop
  | some c => exact (obeys_map ..).mpr (obeys_registry_call c)

theorem obedient_servicePool {ι : Type} [DecidableEq ι] (s₀ : Machine) (work : ι → Option Call) :
    (servicePool s₀ work).Obedient registryMonitor .idle (fun φ _ => φ = .idle) :=
  Pool.obedient_start fun i => obeys_registry (work i)

end Obeys
