import XePCI.Session

/-!
# The buffer objects

What the driver does with buffer descriptors is a small machine of its own,
`Objects`: the registry, how many descriptors were created and what was
done to them. It has three moves. A descriptor is created, used and
released again (`transient`), as by a submission or by a creation that
finds the registry full. A descriptor is created and entered in the
registry (`register`). And `stop` drops the two references of every member
(`dismantle`).

Every call of a client is one of the first two moves or none
(`objects_call`), and `stop` is the third (`objects_stop`). What is proved
about the objects is proved about the moves.

A call that fails makes no access either, and hands the caller's record
back: `failed_call_atomic` puts this together for every state the driver
can get into.
-/

open XeService

/-- **The buffer objects** of a machine. -/
structure Objects where
  /-- The registry. -/
  registry : Option OSArray
  /-- How many descriptors were created; their names are the numbers
  below. -/
  created : ℕ
  /-- What was done to them, newest first. -/
  log : List (RefEvent ObjId)

def Machine.objects (s : Machine) : Objects where
  registry := s.boList
  created := s.buffers.length
  log := s.objLog

namespace Objects

/-- The members of the registry. -/
def members (o : Objects) : List ObjId := o.registry.elim [] OSArray.objs

/-- A descriptor is created, used `n` times and released. -/
def transient (o : Objects) (n : ℕ) : Objects :=
  { o with
    created := o.created + 1
    log := .release o.created
      :: (List.replicate n (.use o.created) ++ .alloc o.created :: o.log) }

/-- A descriptor is created and is the last member of the registry `a`. -/
def register (o : Objects) (a : OSArray) : Objects where
  registry := some a
  created := o.created + 1
  log := .use o.created :: .retain o.created :: .alloc o.created :: o.log

/-- Every member of the registry is released twice: by the loop of `stop`,
which looks at it first, and with the array. -/
def dismantle (o : Objects) : Objects :=
  match o.registry with
  | none => o
  | some a =>
    { o with
      registry := none
      log := (a.objs.map .release).reverse
        ++ ((a.objs.flatMap fun md => [.use md, .release md]).reverse ++ o.log) }

/-- **What a call can do to the objects.** -/
inductive Step (o : Objects) : Objects → Prop
  | same : Step o o
  | transient (n : ℕ) : Step o (o.transient n)
  | register (a a' : OSArray) (ha : o.registry = some a) (hpush : a.push? o.created = some a') :
      Step o (o.register a')

/-- A descriptor that was created and released has no reference left. -/
theorem count_transient (o : Objects) (n : ℕ) :
    RefEvent.count o.created (o.transient n).log = 0 := by
  unfold transient
  simp only [RefEvent.count_cons, RefEvent.obj, RefEvent.after, RefEvent.count_uses, if_true,
    Nat.sub_self]

/-- The whole life of a descriptor that is created, used `n` times and
released. -/
theorem about_transient (o : Objects) (n : ℕ) (md : ObjId) :
    RefEvent.about md (o.transient n).log
      = if md = o.created then
          (RefEvent.release o.created
            :: (List.replicate n (RefEvent.use o.created) ++ [RefEvent.alloc o.created]))
          ++ RefEvent.about md o.log
        else RefEvent.about md o.log := by
  rw [← RefEvent.about_append_of_obj]
  · simp [transient]
  · intro e he
    simp only [List.mem_cons, List.mem_append, List.mem_replicate, List.not_mem_nil,
      or_false] at he
    rcases he with rfl | ⟨-, rfl⟩ | rfl <;> rfl

/-- **What is left of a call that fails**: nothing, or a descriptor that
was created and released. -/
def Undone (o o' : Objects) : Prop := o' = o ∨ ∃ n, o' = o.transient n

theorem Undone.step {o o' : Objects} (h : o.Undone o') : o.Step o' := by
  rcases h with rfl | ⟨n, rfl⟩
  · exact .same
  · exact .transient n

theorem Undone.registry {o o' : Objects} (h : o.Undone o') : o'.registry = o.registry := by
  rcases h with rfl | ⟨n, rfl⟩ <;> rfl

/-- The descriptors there were have the references they had. -/
theorem Undone.count_old {o o' : Objects} (h : o.Undone o') {md : ObjId} (hmd : md < o.created) :
    RefEvent.count md o'.log = RefEvent.count md o.log := by
  rcases h with rfl | ⟨n, rfl⟩
  · rfl
  · rw [← RefEvent.count_about, o.about_transient, if_neg hmd.ne, RefEvent.count_about]

/-- The descriptors there were not have none left. -/
theorem Undone.count_new {o o' : Objects} (h : o.Undone o') {md : ObjId}
    (hmd : o.created ≤ md) (hmd' : md < o'.created) : RefEvent.count md o'.log = 0 := by
  rcases h with rfl | ⟨n, rfl⟩
  · exact absurd hmd' (Nat.not_lt.mpr hmd)
  · obtain rfl : md = o.created := Nat.le_antisymm (Nat.le_of_lt_succ hmd') hmd
    exact o.count_transient n

end Objects

/-! ## Programs that only look at the device -/

/-- Whether a request reads a field that bring-up has set, is made at the
mapped BAR, or goes to the kernel's log. -/
def KextOp.probes : KextOp → Bool
  | loadBoot | getMmio | readRegSafe _ | mmioRead _ _ _ | mmioWrite _ _ _ _ | guardOutcome _
  | logWait _ => true
  | _ => false

/-- The machine but for its history. -/
def Machine.still (s : Machine) : Machine := { s with hist := [] }

theorem Machine.eq_of_still {s t : Machine} (h : t.still = s.still) :
    t = { s with hist := t.hist } := by
  have hhist := congrArg (fun u : Machine => { u with hist := t.hist }) h
  exact hhist

theorem Machine.objects_of_still {s t : Machine} (h : t.still = s.still) :
    t.objects = s.objects := by
  have hobjects := congrArg Machine.objects h
  exact hobjects

/-- Such a request changes the history and nothing else. -/
theorem exec_still (P : Platform) {o : KextOp} (h : o.probes = true) (s : Machine) :
    (exec P o s).2.still = s.still := by
  cases o with
  | readRegSafe off => rw [readRegSafe_eq, Machine.still, Machine.still]
  | _ => first | rfl | exact absurd h Bool.false_ne_true

/-- The program only looks at the device. -/
def Probes {α : Type} (p : Kext α) : Prop := p.Issues (fun o => o.probes = true)

theorem Probes.run {α : Type} {p : Kext α} (h : Probes p) (P : Platform) (s : Machine) :
    (p.run (exec P) s).2.still = s.still :=
  Prog.Issues.run_frame (fun _ s ho => exec_still P ho s) h s

theorem probes_checkedRead (path : AccessPath) (m : UInt64) (off : UInt32) :
    Probes (checkedRead path m off) := by
  unfold checkedRead
  split
  · exact Prog.issues_ret _
  · split
    · exact Prog.issues_ret _
    · exact Prog.issues_perform rfl

theorem probes_wr (m : UInt64) (off v : UInt32) : Probes (ForcewakeGuard.wr m off v) := by
  unfold ForcewakeGuard.wr
  split
  · exact Prog.issues_ret _
  · split
    · exact Prog.issues_ret _
    · exact Prog.issues_perform rfl

theorem probes_poll (m : UInt64) (n : ℕ) : Probes (ForcewakeGuard.poll m n) := by
  induction n with
  | zero => exact Prog.issues_ret _
  | succ n ih =>
    refine Prog.Issues.bind (probes_checkedRead _ _ _) fun ack => ?_
    split
    · exact Prog.issues_ret _
    · split
      · exact Prog.issues_ret _
      · exact ih

theorem probes_make (m : UInt64) : Probes (ForcewakeGuard.make m) := by
  have hacquire : Probes (ForcewakeGuard.acquire m) := by
    refine Prog.Issues.bind (probes_wr _ _ _) fun _ => ?_
    refine Prog.Issues.bind (probes_poll m 50) fun _ => ?_
    exact Prog.Issues.bind (Prog.issues_perform rfl) fun _ => Prog.issues_ret _
  unfold ForcewakeGuard.make
  split
  · exact Prog.issues_ret _
  · refine Prog.Issues.bind (Prog.issues_perform rfl) fun gXeBoot => ?_
    split
    · exact Prog.issues_ret _
    · split
      · exact Prog.issues_ret _
      · exact hacquire

theorem probes_scope {α : Type} (m : UInt64) {body : ForcewakeGuard → Kext α}
    (h : ∀ fw, Probes (body fw)) : Probes (ForcewakeGuard.scope m body) := by
  refine Prog.Issues.bind (probes_make m) fun fw => ?_
  refine Prog.Issues.bind (h fw) fun a => ?_
  refine Prog.Issues.bind ?_ fun _ => Prog.issues_ret _
  unfold ForcewakeGuard.destroy ForcewakeGuard.release
  split
  · split
    · exact Prog.issues_ret _
    · exact probes_wr _ _ _
  · exact Prog.issues_ret _

theorem probes_logRcs0State (m : UInt64) : Probes (XeCommandStream.logRcs0State m) := by
  have hrd : ∀ off, Probes (XeCommandStream.safeRd m off) :=
    fun off => probes_checkedRead _ m off
  unfold XeCommandStream.logRcs0State
  split
  · exact Prog.issues_ret _
  refine Prog.Issues.bind (Prog.issues_perform rfl) fun gXeBoot => ?_
  split
  · exact Prog.issues_ret _
  split
  · exact Prog.issues_ret _
  refine probes_scope m fun _ => ?_
  refine Prog.Issues.bind (hrd _) fun _ => ?_
  refine Prog.Issues.bind (hrd _) fun _ => ?_
  refine Prog.Issues.bind (hrd _) fun _ => ?_
  split
  · exact Prog.issues_ret _
  split
  · exact Prog.issues_ret _
  split
  · refine Prog.Issues.bind (hrd _) fun _ => ?_
    exact Prog.Issues.bind (hrd _) fun _ => Prog.issues_ret _
  · exact Prog.issues_ret _

theorem probes_probe (m : UInt64) : Probes (XeGGTT.probe m) := by
  have hread : ∀ off, Probes (XeGGTT.safeRead m off) :=
    fun off => probes_checkedRead _ m off
  unfold XeGGTT.probe
  split
  · exact Prog.issues_ret _
  refine Prog.Issues.bind (hread _) fun _ => ?_
  split
  · exact Prog.issues_ret _
  refine Prog.Issues.bind (hread _) fun _ => ?_
  refine Prog.Issues.bind (hread _) fun _ => ?_
  split
  · refine Prog.Issues.bind (hread _) fun _ => ?_
    exact Prog.Issues.bind (hread _) fun _ => Prog.issues_ret _
  · exact Prog.issues_ret _

theorem probes_mapM_readReg (offs : List UInt32) : Probes (offs.mapM readReg) :=
  Prog.Issues.mapM fun _ _ => Prog.issues_perform rfl

theorem probes_readList (offs : List UInt32) : Probes (readList offs) := by
  refine Prog.Issues.bind (Prog.issues_perform rfl) fun mmio => ?_
  split
  · exact Prog.issues_ret _
  · exact Prog.Issues.bind (probes_mapM_readReg offs) fun _ => Prog.issues_ret _

theorem probes_ucWait (timeoutMs : UInt32) : Probes (ucWait timeoutMs) :=
  Prog.Issues.bind (Prog.issues_perform rfl) fun _ => Prog.issues_ret _

/-- Both kinds of reads of `start`. -/
theorem probes_reads : Probes (sampleRegisters >>= fun _ => probeGpu) := by
  have hsample : Probes sampleRegisters := Prog.Issues.mapM fun _ _ =>
    Prog.Issues.bind (Prog.issues_perform rfl) fun _ => Prog.issues_perform rfl
  refine Prog.Issues.bind hsample fun _ => ?_
  refine Prog.Issues.bind (Prog.issues_perform rfl) fun gXeBoot => ?_
  split
  · exact Prog.issues_ret _
  refine Prog.Issues.bind (probes_mapM_readReg _) fun _ => ?_
  refine Prog.Issues.bind (Prog.issues_perform rfl) fun _ => ?_
  refine Prog.Issues.bind (probes_probe _) fun _ => ?_
  exact Prog.Issues.bind (probes_mapM_readReg _) fun _ => Prog.issues_ret _

/-! ## Requests that leave the objects alone -/

/-- Whether a request leaves the objects alone. -/
def KextOp.keepsObjects : KextOp → Bool
  | setBoList _ | releaseArray | setObject _ | getObject _ | withOptions _ | release _
  | getBytesNoCopy _ | getLength _ | writeCmds _ _ => false
  | _ => true

theorem exec_objects (P : Platform) {o : KextOp} (h : o.keepsObjects = true) (s : Machine) :
    (exec P o s).2.objects = s.objects := by
  cases o with
  | readRegSafe off => exact Machine.objects_of_still (exec_still P rfl s)
  | _ => first | rfl | exact absurd h Bool.false_ne_true

/-- The program leaves the objects alone. -/
def KeepsObjects {α : Type} (p : Kext α) : Prop := p.Issues (fun o => o.keepsObjects = true)

theorem KeepsObjects.run {α : Type} {p : Kext α} (h : KeepsObjects p) (P : Platform)
    (s : Machine) : (p.run (exec P) s).2.objects = s.objects :=
  Prog.Issues.run_frame (fun _ s ho => exec_objects P ho s) h s

/-- A program that only looks at the device does. -/
theorem Probes.objects {α : Type} {p : Kext α} (h : Probes p) (P : Platform) (s : Machine) :
    (p.run (exec P) s).2.objects = s.objects :=
  Machine.objects_of_still (h.run P s)

/-! ## The requests that do not

Each is one entry of the log, and no access. -/

namespace Objects

/-- The objects with one more entry in the log. -/
def logged (o : Objects) (e : RefEvent ObjId) : Objects := { o with log := e :: o.log }

/-- The objects after `n` uses of a descriptor. -/
def used (o : Objects) (md : ObjId) (n : ℕ) : Objects :=
  { o with log := List.replicate n (.use md) ++ o.log }

/-- The objects with one more descriptor. -/
def alloc (o : Objects) : Objects :=
  { o with created := o.created + 1, log := .alloc o.created :: o.log }

end Objects

section Requests

variable {P : Platform} {s s' : Machine}

theorem exec_withOptions_cases {capacity : UInt32} {md : Option ObjId}
    (h : exec P (.withOptions capacity) s = (md, s')) :
    s'.hist = s.hist
      ∧ (md = none ∧ s'.objects = s.objects
        ∨ md = some s.buffers.length ∧ s'.objects = s.objects.alloc) := by
  rcases withOptions_cases P s capacity with hrun | hrun
  · rw [hrun] at h
    cases h
    exact ⟨rfl, Or.inl ⟨rfl, rfl⟩⟩
  · rw [hrun] at h
    cases h
    refine ⟨rfl, Or.inr ⟨rfl, ?_⟩⟩
    simp [Machine.objects, Objects.alloc]

theorem exec_setObject_cases {md : ObjId} {b : Bool}
    (h : exec P (.setObject md) s = (b, s')) :
    s'.hist = s.hist
      ∧ (b = false ∧ s'.objects = s.objects
        ∨ b = true ∧ ∃ a a', s.boList = some a ∧ a.push? md = some a' ∧ s'.boList = some a'
          ∧ s'.objects = { s.objects.logged (.retain md) with registry := some a' }) := by
  rcases setObject_cases P s md with hrun | ⟨a, a', hlist, hpush, hrun⟩
  · rw [hrun] at h
    cases h
    exact ⟨rfl, Or.inl ⟨rfl, rfl⟩⟩
  · rw [hrun] at h
    cases h
    exact ⟨rfl, Or.inr ⟨rfl, a, a', hlist, hpush, rfl, rfl⟩⟩

end Requests

/-! ## What the methods do to the objects -/

/-- What `ucCreateBuffer` does with the descriptor it has created. -/
def addBuffer : Option ObjId → Kext (IOReturn × UInt64)
  | none => return (.noResources, 0)
  | some md => do
    let added ← req (.setObject md)
    if !added then
      req (.release md)
      return (.noResources, 0)
    let count ← req .getCount
    let cookie := count.toUInt64
    let _vaddr ← req (.getBytesNoCopy md)
    return (.success, cookie)

/-- The size asked for is in one request and nowhere else. -/
theorem ucCreateBuffer_eq (bytes : UInt32) :
    ucCreateBuffer bytes = req .hasBoList >>= fun ready =>
      if !ready then return (.notReady, 0)
      else req (.withOptions (pageAlign bytes)) >>= addBuffer := by
  unfold ucCreateBuffer
  refine bind_congr fun ready => ?_
  split
  · rfl
  · refine bind_congr fun md => ?_
    cases md with
    | none => rfl
    | some md => rfl

section Methods

variable {P : Platform} {s s' : Machine}

/-- **`ucCreateBuffer`** makes no access. If it fails, what it created is
released; if it succeeds, the cookie is the new number of members. -/
theorem run_ucCreateBuffer {bytes : UInt32} {r : IOReturn × UInt64}
    (h : (ucCreateBuffer bytes).run (exec P) s = (r, s')) :
    s'.hist = s.hist ∧
      (r.1 ≠ .success ∧ s.objects.Undone s'.objects
        ∨ ∃ a a', s.boList = some a ∧ a.push? s.buffers.length = some a'
          ∧ r = (.success, a'.getCount.toUInt64) ∧ s'.objects = s.objects.register a') := by
  unfold ucCreateBuffer at h
  rw [Prog.run_bind, Prog.run_perform, exec_hasBoList] at h
  split at h
  · cases h
    exact ⟨rfl, Or.inl ⟨by decide, Or.inl rfl⟩⟩
  rw [Prog.run_bind, Prog.run_perform] at h
  rcases halloc : exec P (.withOptions (pageAlign bytes)) s with ⟨md, s₁⟩
  rw [halloc] at h
  obtain ⟨hhist, ⟨rfl, hobj⟩ | ⟨rfl, hobj⟩⟩ := exec_withOptions_cases halloc
  · cases h
    exact ⟨hhist, Or.inl ⟨by decide, Or.inl hobj⟩⟩
  dsimp only at h
  rw [Prog.run_bind, Prog.run_perform] at h
  rcases hadd : exec P (.setObject s.buffers.length) s₁ with ⟨added, s₂⟩
  rw [hadd] at h
  obtain ⟨hhist', ⟨rfl, hobj'⟩ | ⟨rfl, a, a', ha, hpush, ha', hobj'⟩⟩ :=
    exec_setObject_cases hadd
  · -- the registry would not take it: created, never used, released
    cases h
    refine ⟨hhist'.trans hhist, Or.inl ⟨by decide, Or.inr ⟨0, ?_⟩⟩⟩
    show s₂.objects.logged (.release s.buffers.length) = _
    rw [hobj', hobj]
    rfl
  · -- registered: the creator's own reference is not dropped, and the count is
    -- read with the new member in it
    have hreg : s.boList = some a := (congrArg Objects.registry hobj).symm.trans ha
    dsimp only at h
    rw [if_neg (by decide), Prog.run_bind, Prog.run_perform, exec_getCount, ha'] at h
    cases h
    refine ⟨hhist'.trans hhist, Or.inr ⟨a, a', hreg, hpush, rfl, ?_⟩⟩
    show s₂.objects.logged (.use s.buffers.length) = _
    rw [hobj', hobj]
    rfl

/-- `submitNoop` uses the descriptor it is given, and makes no access if it
fails. -/
theorem run_submitNoop {m : UInt64} {md : ObjId} {kr : IOReturn}
    (h : (XeCommandStream.submitNoop m (some md)).run (exec P) s = (kr, s')) :
    (∃ n, s'.objects = s.objects.used md n) ∧ (kr ≠ .success → s'.hist = s.hist) := by
  unfold XeCommandStream.submitNoop at h
  split at h
  · cases h
    exact ⟨⟨0, rfl⟩, fun _ => rfl⟩
  dsimp only at h
  rw [Prog.run_bind, Prog.run_perform, exec_loadBoot] at h
  split at h
  · cases h
    exact ⟨⟨0, rfl⟩, fun _ => rfl⟩
  rw [Prog.run_bind, Prog.run_perform, exec_getBytesNoCopy] at h
  split at h
  · cases h
    exact ⟨⟨1, rfl⟩, fun _ => rfl⟩
  rw [Prog.run_bind, Prog.run_perform, exec_getLength] at h
  split at h
  · cases h
    exact ⟨⟨2, rfl⟩, fun _ => rfl⟩
  rw [Prog.run_bind, Prog.run_perform, exec_writeCmds, Prog.run_bind] at h
  -- past the checks nothing fails: which exit `logRcs0State` took is ignored
  cases h
  refine ⟨⟨3, ?_⟩, fun hkr => absurd rfl hkr⟩
  refine ((probes_logRcs0State m).objects P _).trans ?_
  simp [Machine.objects, Objects.used, List.replicate]

/-- **`ucSubmitNoop`** releases what it created, and makes no access if it
fails. -/
theorem run_ucSubmitNoop {kr : IOReturn} (h : ucSubmitNoop.run (exec P) s = (kr, s')) :
    s.objects.Undone s'.objects ∧ (kr ≠ .success → s'.hist = s.hist) := by
  unfold ucSubmitNoop at h
  rw [Prog.run_bind, Prog.run_perform, exec_getMmio] at h
  split at h
  · cases h
    exact ⟨Or.inl rfl, fun _ => rfl⟩
  rw [Prog.run_bind, Prog.run_perform] at h
  rcases halloc : exec P (.withOptions 4096) s with ⟨md, s₁⟩
  rw [halloc] at h
  obtain ⟨hhist, ⟨rfl, hobj⟩ | ⟨rfl, hobj⟩⟩ := exec_withOptions_cases halloc
  · cases h
    exact ⟨Or.inl hobj, fun _ => hhist⟩
  dsimp only at h
  -- the mapping is read again for the command stream, after the allocation
  rw [Prog.run_bind, Prog.run_perform, exec_getMmio, Prog.run_bind] at h
  rcases hsubmit : (XeCommandStream.submitNoop s₁.mmio (some s.buffers.length)).run (exec P) s₁
    with ⟨kr', s₂⟩
  rw [hsubmit] at h
  obtain ⟨⟨n, hused⟩, hfail⟩ := run_submitNoop hsubmit
  cases h
  refine ⟨Or.inr ⟨n, ?_⟩, fun hkr => (hfail hkr).trans hhist⟩
  show s₂.objects.logged (.release s.buffers.length) = _
  rw [hused, hobj]
  rfl

/-- A method that reads registers leaves the objects alone, and makes no
access if it fails. -/
theorem run_readList {offs : List UInt32} {r : IOReturn × List UInt32}
    (h : (readList offs).run (exec P) s = (r, s')) :
    s'.objects = s.objects ∧ (r.1 ≠ .success → s'.hist = s.hist) := by
  unfold readList at h
  rw [Prog.run_bind, Prog.run_perform, exec_getMmio] at h
  split at h
  · cases h
    exact ⟨rfl, fun _ => rfl⟩
  · rw [Prog.run_bind] at h
    cases h
    exact ⟨(probes_mapM_readReg offs).objects P s, fun hr => absurd rfl hr⟩

end Methods

theorem objects_ucCreateBuffer (P : Platform) (bytes : UInt32) (s : Machine) :
    s.objects.Step ((ucCreateBuffer bytes).run (exec P) s).2.objects := by
  rcases hrun : (ucCreateBuffer bytes).run (exec P) s with ⟨r, s'⟩
  obtain ⟨-, ⟨-, hundone⟩ | ⟨a, a', ha, hpush, -, hobj⟩⟩ := run_ucCreateBuffer hrun
  · exact hundone.step
  · exact hobj ▸ .register a a' ha hpush

theorem objects_ucSubmitNoop (P : Platform) (s : Machine) :
    s.objects.Step (ucSubmitNoop.run (exec P) s).2.objects := by
  rcases hrun : ucSubmitNoop.run (exec P) s with ⟨kr, s'⟩
  exact (run_ucSubmitNoop hrun).1.step

/-- **A call is a move of the objects, or none.** -/
theorem objects_call (P : Platform) (c : Call) (s : Machine) :
    s.objects.Step (c.prog.run (exec P) s).2.objects := by
  cases c.way with
  | refused kr hkr hp =>
    rw [hp]
    exact .same
  | createBuffer a hc bytes hp =>
    rw [hp, Prog.run_map]
    exact objects_ucCreateBuffer P bytes s
  | submit a hc hp =>
    rw [hp, Prog.run_map]
    exact objects_ucSubmitNoop P s
  | wait a hc timeoutMs hp =>
    rw [hp]
    exact .same
  | readList a k hk hc out hout hp =>
    rcases hrun : (readList (XeUserClient.regsOf k)).run (exec P) s with ⟨r, s'⟩
    rw [hp, Prog.run_map, hrun]
    exact (run_readList hrun).1 ▸ .same

/-! ## Bring-up and shutdown -/

/-- Whether a request is one of step 3 of `start`. -/
def KextOp.wires : KextOp → Bool
  | superStart | castProvider | setPci _ | setMemoryEnable _ | setIoEnable _ | setBusMasterEnable _
  | mapBar0 | releaseBar0 | setBar0 _ | setBar0Length _ | setMmio _ => true
  | _ => false

theorem issues_mapBar0 : mapBar0.Issues (fun o => o.wires = true) := by
  refine Prog.Issues.bind (Prog.issues_perform rfl) fun started => ?_
  split
  · exact Prog.issues_ret _
  refine Prog.Issues.bind (Prog.issues_perform rfl) fun dev => ?_
  refine Prog.Issues.bind (Prog.issues_perform rfl) fun _ => ?_
  split
  · exact Prog.issues_ret _
  refine Prog.Issues.bind (Prog.issues_perform rfl) fun _ => ?_
  refine Prog.Issues.bind (Prog.issues_perform rfl) fun _ => ?_
  refine Prog.Issues.bind (Prog.issues_perform rfl) fun _ => ?_
  refine Prog.Issues.bind (Prog.issues_perform rfl) fun bar0 => ?_
  refine Prog.Issues.bind (Prog.issues_perform rfl) fun _ => ?_
  cases bar0 with
  | none => exact Prog.issues_ret _
  | some map =>
    refine Prog.Issues.bind (Prog.issues_perform rfl) fun _ => ?_
    split
    · refine Prog.Issues.bind (Prog.issues_perform rfl) fun _ => ?_
      exact Prog.Issues.bind (Prog.issues_perform rfl) fun _ => Prog.issues_ret _
    refine Prog.Issues.bind (Prog.issues_perform rfl) fun _ => ?_
    split
    · refine Prog.Issues.bind (Prog.issues_perform rfl) fun _ => ?_
      exact Prog.Issues.bind (Prog.issues_perform rfl) fun _ => Prog.issues_ret _
    exact Prog.issues_ret _

theorem keepsObjects_mapBar0 : KeepsObjects mapBar0 :=
  issues_mapBar0.imp fun o ho => by
    cases o <;> first | rfl | exact absurd ho Bool.false_ne_true

section Lifecycle

variable (P : Platform)

/-- Bring-up on a mapped BAR puts a new registry, or none, in the place of
the old one. -/
theorem objects_bringUp (s : Machine) :
    bringUp.run (exec P) s
      = (P.withCapacityOk, { ((sampleRegisters >>= fun _ => probeGpu).run (exec P) s).2 with
          boList := if P.withCapacityOk then some .empty else none }) := by
  unfold bringUp makeRegistry
  rw [Prog.run_bind, Prog.run_bind, Prog.run_bind, Prog.run_bind, Prog.run_perform,
    Prog.run_perform, exec_withCapacity, exec_setBoList, Prog.run_bind]
  cases P.withCapacityOk <;> rfl

/-- `start` leaves the objects alone, or replaces the registry. -/
theorem objects_start (s : Machine) :
    (start.run (exec P) s).2.objects = s.objects
      ∨ (start.run (exec P) s).2.objects
        = { s.objects with registry := if P.withCapacityOk then some .empty else none } := by
  unfold start
  rw [Prog.run_bind]
  split
  · exact Or.inl (keepsObjects_mapBar0.run P s)
  · refine Or.inr ?_
    rw [objects_bringUp,
      ← (probes_reads.objects P _).trans (keepsObjects_mapBar0.run P s)]
    rfl

/-- The loop of `stop`, from the member at `i` on: by induction on the
members that are left. -/
theorem run_releaseMembers {a : OSArray} (n : ℕ) {i : ℕ} (hn : i + n = a.objs.length)
    {s : Machine} (hs : s.boList = some a) :
    ((releaseMembers i n).run (exec P) s).2
      = { s with objLog := ((a.objs.drop i).flatMap
          fun md => [.use md, .release md]).reverse ++ s.objLog } := by
  induction n generalizing i s with
  | zero =>
    rw [List.drop_of_length_le (by omega)]
    rfl
  | succ n ih =>
    have hi : i < a.objs.length := by omega
    -- the index is 32 bits wide, and so is the count of an array
    have hget : (UInt32.ofNat i).toNat = i :=
      UInt32.toNat_ofNat_of_lt (Nat.lt_trans hi a.count_lt)
    have hobj : exec P (.getObject (UInt32.ofNat i)) s
        = (some a.objs[i], { s with objLog := .use a.objs[i] :: s.objLog }) := by
      rw [exec_getObject, Machine.getObject, hs, Option.bind_some, hget,
        List.getElem?_eq_getElem hi]
    rw [releaseMembers, Prog.run_bind, Prog.run_perform, hobj]
    dsimp only
    rw [Prog.run_bind, Prog.run_perform, exec_release, List.drop_eq_getElem_cons hi,
      List.flatMap_cons]
    have hn' : i + 1 + n = a.objs.length := by omega
    refine (ih hn' (s := { s with
      objLog := .release a.objs[i] :: .use a.objs[i] :: s.objLog }) hs).trans ?_
    simp

theorem keepsObjects_stopMapping : KeepsObjects stopMapping := by
  refine Prog.Issues.bind (Prog.issues_perform rfl) fun mapped => ?_
  split
  · refine Prog.Issues.bind (Prog.issues_perform rfl) fun _ => ?_
    refine Prog.Issues.bind (Prog.issues_perform rfl) fun _ => ?_
    exact Prog.issues_perform rfl
  · exact Prog.issues_ret _

theorem objects_stopRegistry (s : Machine) :
    (stopRegistry.run (exec P) s).2.objects = s.objects.dismantle := by
  unfold stopRegistry
  rw [Prog.run_bind, Prog.run_perform, exec_hasBoList]
  cases hs : s.boList with
  | none =>
    have hnone : s.objects.registry = none := hs
    unfold Objects.dismantle
    rw [hnone]
    rfl
  | some a =>
    have hsome : s.objects.registry = some a := hs
    dsimp only [Option.isSome_some]
    rw [if_pos rfl, Prog.run_bind, Prog.run_perform, exec_getCount]
    dsimp only
    rw [hs, Option.elim_some, a.toNat_getCount, Prog.run_bind,
      run_releaseMembers P a.objs.length (by omega) hs]
    unfold Objects.dismantle
    rw [hsome]
    simp [Machine.objects, hs, Machine.releaseArray]

/-- **`stop` dismantles the registry.** -/
theorem objects_stop (s : Machine) :
    (stop.run (exec P) s).2.objects = s.objects.dismantle := by
  have hrest : KeepsObjects (do
      stopMapping
      let pci ← req .hasPci
      if pci then
        req (.setBusMasterEnable false)) := by
    refine Prog.Issues.bind keepsObjects_stopMapping fun _ => ?_
    refine Prog.Issues.bind (Prog.issues_perform rfl) fun pci => ?_
    split
    · exact Prog.issues_perform rfl
    · exact Prog.issues_ret _
  unfold stop
  rw [Prog.run_bind, hrest.run, objects_stopRegistry]

end Lifecycle

/-! ## Reachable states -/

/-- What happens to the driver from outside. -/
inductive Event where
  /-- The driver is loaded. -/
  | init
  /-- Its service is started, successfully or not. -/
  | start
  /-- A client makes a call. -/
  | call (c : Call)
  /-- The service is stopped. -/
  | stop

/-- The machine after the driver has met an event. -/
def Machine.after (P : Platform) (s : Machine) : Event → Machine
  | .init => (XeService.init.run (exec P) s).2
  | .start => (XeService.start.run (exec P) s).2
  | .call c => (c.prog.run (exec P) s).2
  | .stop => (XeService.stop.run (exec P) s).2

/-- **The states the driver can get into**: by events in any order, each of
them with its own outcomes of everything the driver cannot decide. -/
inductive Reachable : Machine → Prop
  | fresh : Reachable .fresh
  | step {s : Machine} (P : Platform) (e : Event) (hs : Reachable s) : Reachable (s.after P e)

namespace Objects

/-- Every member of the registry was created. -/
def Created (o : Objects) : Prop := ∀ md ∈ o.members, md < o.created

theorem members_register {o : Objects} {a a' : OSArray} (ha : o.registry = some a)
    (hpush : a.push? o.created = some a') :
    (o.register a').members = o.members ++ [o.created] := by
  unfold members register
  rw [ha]
  exact OSArray.objs_of_push hpush

theorem registry_dismantle (o : Objects) : o.dismantle.registry = none := by
  unfold dismantle
  cases h : o.registry with
  | none => exact h
  | some a => rfl

theorem members_dismantle (o : Objects) : o.dismantle.members = [] := by
  unfold members
  rw [registry_dismantle]
  rfl

theorem created_dismantle (o : Objects) : o.dismantle.created = o.created := by
  unfold dismantle
  split <;> rfl

theorem Created.step {o o' : Objects} (ho : o.Created) (h : o.Step o') : o'.Created := by
  cases h with
  | same => exact ho
  | transient n => exact fun md hmd => Nat.lt_succ_of_lt (ho md hmd)
  | register a a' ha hpush =>
    intro md hmd
    rw [members_register ha hpush, List.mem_append, List.mem_singleton] at hmd
    rcases hmd with hmd | rfl
    · exact Nat.lt_succ_of_lt (ho md hmd)
    · exact Nat.lt_succ_self _

end Objects

theorem keepsObjects_init : KeepsObjects XeService.init := by
  refine Prog.Issues.bind (Prog.issues_perform rfl) fun ok => ?_
  split
  · refine Prog.Issues.bind ?_ fun _ => Prog.issues_ret _
    refine Prog.Issues.bind (Prog.issues_perform rfl) fun buf => ?_
    cases buf with
    | none => exact Prog.issues_ret _
    | some buf =>
      refine Prog.Issues.bind (Prog.issues_perform rfl) fun g => ?_
      cases g.parse buf with
      | none => exact Prog.issues_ret _
      | some g' => exact Prog.issues_perform rfl
  · exact Prog.issues_ret _

/-- **In every reachable state the members of the registry were created**:
by induction on the events. -/
theorem Reachable.created {s : Machine} (hs : Reachable s) : s.objects.Created := by
  induction hs with
  | fresh => exact fun _ hmd => absurd hmd List.not_mem_nil
  | @step s P e _ ih =>
    cases e with
    | init =>
      show (XeService.init.run (exec P) s).2.objects.Created
      rwa [keepsObjects_init.run]
    | start =>
      show (XeService.start.run (exec P) s).2.objects.Created
      rcases objects_start P s with h | h <;> rw [h]
      · exact ih
      · cases P.withCapacityOk <;> exact fun _ hmd => absurd hmd List.not_mem_nil
    | call c => exact ih.step (objects_call P c s)
    | stop =>
      show (XeService.stop.run (exec P) s).2.objects.Created
      intro md hmd
      rw [objects_stop, Objects.members_dismantle] at hmd
      exact absurd hmd List.not_mem_nil

/-! ## Failed calls -/

/-- A call that fails leaves the outputs, the objects and the BAR alone, up
to a descriptor it created and released. -/
theorem run_failed_call {P : Platform} {s s' : Machine} {c : Call}
    {r : IOReturn × Option IOExternalMethodArguments} (h : c.prog.run (exec P) s = (r, s'))
    (hfail : r.1 ≠ .success) :
    Option.Rel IOExternalMethodArguments.SameOutputs c.args r.2
      ∧ s.objects.Undone s'.objects ∧ s'.hist = s.hist := by
  cases c.way with
  | refused kr hkr hp =>
    rw [hp] at h
    cases h
    refine ⟨?_, Or.inl rfl, rfl⟩
    cases c.args with
    | none => exact .none
    | some a => exact .some (.refl a)
  | createBuffer a hc bytes hp =>
    rcases hrun : (ucCreateBuffer bytes).run (exec P) s with ⟨q, t⟩
    rw [hp, Prog.run_map, hrun] at h
    cases h
    obtain ⟨hhist, ⟨-, hundone⟩ | ⟨_, _, -, -, hq, -⟩⟩ := run_ucCreateBuffer hrun
    · rw [hc.args]
      exact ⟨.some (XeUserClient.sameOutputs_cookieOut a q hfail), hundone, hhist⟩
    · exact absurd (congrArg Prod.fst hq) hfail
  | submit a hc hp =>
    rcases hrun : ucSubmitNoop.run (exec P) s with ⟨kr, t⟩
    rw [hp, Prog.run_map, hrun] at h
    cases h
    obtain ⟨hundone, hhist⟩ := run_ucSubmitNoop hrun
    rw [hc.args]
    exact ⟨.some (.refl a), hundone, hhist hfail⟩
  | wait a hc timeoutMs hp =>
    rw [hp] at h
    cases h
    exact absurd rfl hfail
  | readList a k hk hc out hout hp =>
    rcases hrun : (readList (XeUserClient.regsOf k)).run (exec P) s with ⟨q, t⟩
    rw [hp, Prog.run_map, hrun] at h
    cases h
    obtain ⟨hobj, hhist⟩ := run_readList hrun
    rw [hc.args]
    exact ⟨.some (hout q hfail), Or.inl hobj, hhist hfail⟩

/-- **A failed call is atomic.** In every state the driver can get into, a
call that returns anything but success leaves the caller's outputs and their
count as they were passed, the registry and the references of its members
as they were, no descriptor that it created referenced, and the BAR
untouched. -/
theorem failed_call_atomic (P : Platform) {s : Machine} (hs : Reachable s) (c : Call)
    (hfail : (c.prog.run (exec P) s).1.1 ≠ .success) :
    Option.Rel IOExternalMethodArguments.SameOutputs c.args (c.prog.run (exec P) s).1.2
      ∧ (c.prog.run (exec P) s).2.boList = s.boList
      ∧ (∀ md ∈ s.objects.members,
          RefEvent.count md (c.prog.run (exec P) s).2.objLog = RefEvent.count md s.objLog)
      ∧ (∀ md, s.buffers.length ≤ md → md < (c.prog.run (exec P) s).2.buffers.length →
          RefEvent.count md (c.prog.run (exec P) s).2.objLog = 0)
      ∧ (c.prog.run (exec P) s).2.hist = s.hist := by
  rcases hrun : c.prog.run (exec P) s with ⟨r, s'⟩
  rw [hrun] at hfail
  obtain ⟨hout, hundone, hhist⟩ := run_failed_call hrun hfail
  exact ⟨hout, hundone.registry, fun md hmd => hundone.count_old (hs.created md hmd),
    fun md hmd hmd' => hundone.count_new hmd hmd', hhist⟩

/-- A `kMethodCreateBuffer` of `bytes` bytes, as its table entry wants it. -/
def Call.creating (bytes : UInt64) : Call where
  client := ⟨true⟩
  selector := XeUserClient.kMethodCreateBuffer
  args := some ⟨fun _ => bytes, 1, fun _ => 0, 1, [], []⟩

/-- A platform on which an array never has room for one more member. -/
def fullPlatform : Platform := { Platform.ideal with setObjectOk := fun _ => false }

/-- A creation that finds the registry full has created a descriptor, and
leaves no reference to it. -/
theorem failed_call_atomic_full :
    ((Call.creating 1).prog.run (exec fullPlatform) fullPlatform.started).1.1 = .noResources
      ∧ ((Call.creating 1).prog.run (exec fullPlatform) fullPlatform.started).2.buffers.length = 1
      ∧ RefEvent.count 0
        ((Call.creating 1).prog.run (exec fullPlatform) fullPlatform.started).2.objLog = 0 := by
  have hreach : Reachable fullPlatform.started := .step fullPlatform .start
    (.step fullPlatform .init .fresh)
  have hresult : ((Call.creating 1).prog.run (exec fullPlatform) fullPlatform.started).1.1
      = .noResources := by decide
  obtain ⟨-, -, -, hnew, -⟩ := failed_call_atomic fullPlatform hreach (.creating 1)
    (by rw [hresult]; decide)
  exact ⟨hresult, by decide, hnew 0 (by decide) (by decide)⟩
