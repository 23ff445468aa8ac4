import XePCI.Objects
import XePCI.SafeModes

/-!
# What the clients' inputs can influence

A client passes 64-bit scalars to the methods: the size of a buffer and the
time to wait. None of them reaches a register, a branch or an output. The
size does reach the machine: it is the length of the descriptor that is
created, and stays there. So two runs that differ in the inputs alone are in
states that differ in the lengths of descriptors alone
(`Machine.SameButLengths`), and the argument is that nobody looks at the
length of a descriptor but a submission, at that of its own batch buffer,
which is 4096 bytes whatever the inputs are.

That is a monitor again, whose phase is the descriptor a program has created
last (`lengthMonitor`), and the rule for two runs of one program carries the
relation along. A creation is two different programs in the two runs; they
differ in one request, which is treated by itself.
-/

open XeService

/-! ## Two machines -/

/-- **Two machines differ in the lengths of descriptors alone**, and not in
that of the descriptor `own`. -/
structure Machine.SameButLengths (own : Option ObjId) (s s' : Machine) : Prop where
  rest : s' = { s with buffers := s'.buffers }
  count : s'.buffers.length = s.buffers.length
  own : ∀ md, own = some md → s'.buffers[md]? = s.buffers[md]?

theorem Machine.SameButLengths.of_count {s s' : Machine}
    (hrest : s' = { s with buffers := s'.buffers })
    (hcount : s'.buffers.length = s.buffers.length) : s.SameButLengths none s' :=
  ⟨hrest, hcount, fun md h => absurd h.symm (Option.some_ne_none md)⟩

theorem Machine.SameButLengths.refl (s : Machine) : s.SameButLengths none s := .of_count rfl rfl

theorem Machine.SameButLengths.forget {own : Option ObjId} {s s' : Machine}
    (h : s.SameButLengths own s') : s.SameButLengths none s' := .of_count h.rest h.count

theorem Machine.SameButLengths.hist {own : Option ObjId} {s s' : Machine}
    (h : s.SameButLengths own s') : s'.hist = s.hist := by
  rw [h.rest]

/-- **The monitor of lengths**: the length of a descriptor is read only by
the program that has created it, before it creates another. -/
def lengthMonitor : Monitor KextOp KextOp.Resp (Option ObjId) where
  allows own
    | .getLength md => own = some md
    | _ => True
  admits _ _ _ := True
  next own
    | .withOptions _, md => md
    | _, _ => own

/-- Creating a descriptor goes the same way on both machines, also if the
lengths asked for are not the same. -/
theorem exec_withOptions_sameButLengths (P : Platform) (n n' : UInt32) {own : Option ObjId}
    {s s' : Machine} (h : s.SameButLengths own s') :
    (exec P (.withOptions n') s').1 = (exec P (.withOptions n) s).1
      ∧ (exec P (.withOptions n) s).2.SameButLengths none (exec P (.withOptions n') s').2
      ∧ (n' = n → (exec P (.withOptions n) s).2.SameButLengths (exec P (.withOptions n) s).1
          (exec P (.withOptions n') s').2) := by
  obtain ⟨hrest, hcount, -⟩ := h
  generalize s'.buffers = bs at hrest hcount
  subst hrest
  rw [exec_withOptions, exec_withOptions, Machine.withOptions, Machine.withOptions]
  dsimp only
  split
  · rw [hcount]
    have hlen : (bs ++ [(⟨n'.toUInt64, []⟩ : Buffer)]).length
        = (s.buffers ++ [(⟨n.toUInt64, []⟩ : Buffer)]).length := by
      simp only [List.length_append, hcount, List.length_singleton]
    refine ⟨rfl, .of_count rfl hlen, ?_⟩
    rintro rfl
    refine ⟨rfl, hlen, fun md hmd => ?_⟩
    cases hmd
    show (bs ++ _)[s.buffers.length]? = (s.buffers ++ _)[s.buffers.length]?
    rw [List.getElem?_append_right hcount.le, List.getElem?_append_right le_rfl, hcount]
  · exact ⟨rfl, .of_count rfl hcount, fun _ => .of_count rfl hcount⟩

/-- **One request goes the same way on both machines.** -/
theorem exec_sameButLengths (P : Platform) (own : Option ObjId) (o : KextOp) (s s' : Machine)
    (ho : lengthMonitor.allows own o) (h : s.SameButLengths own s') :
    (exec P o s').1 = (exec P o s).1 ∧ lengthMonitor.admits own o (exec P o s).1
      ∧ (exec P o s).2.SameButLengths (lengthMonitor.next own o (exec P o s).1)
        (exec P o s').2 := by
  have hcreate := fun n => exec_withOptions_sameButLengths P n n h
  obtain ⟨hrest, hcount, hown⟩ := h
  generalize s'.buffers = bs at hrest hcount hown
  subst hrest
  cases o with
  | withOptions n =>
    obtain ⟨hanswer, -, hsame⟩ := hcreate n
    exact ⟨hanswer, trivial, hsame rfl⟩
  | getLength md =>
    -- the monitor lets only the owner look
    refine ⟨?_, trivial, rfl, hcount, hown⟩
    exact congrArg (Option.elim · 0 Buffer.length) (hown md ho)
  | writeCmds md cmds =>
    refine ⟨rfl, trivial, rfl, ?_, fun md' hmd' => ?_⟩
    · show (bs.modify md _).length = (s.buffers.modify md _).length
      rw [List.length_modify, List.length_modify, hcount]
    · show (bs.modify md _)[md']? = (s.buffers.modify md _)[md']?
      rw [List.getElem?_modify, List.getElem?_modify, hown md' hmd']
  | setObject md =>
    rw [setObject_eq, setObject_eq]
    exact ⟨rfl, trivial, rfl, hcount, hown⟩
  | getObject i =>
    rw [getObject_eq, getObject_eq]
    exact ⟨rfl, trivial, rfl, hcount, hown⟩
  | readRegSafe off =>
    rw [readRegSafe_eq, readRegSafe_eq]
    exact ⟨rfl, trivial, rfl, hcount, hown⟩
  | _ => exact ⟨rfl, trivial, rfl, hcount, hown⟩

/-! ## The methods look at no other length -/

/-- Looking at the device is not looking at a descriptor. -/
theorem Probes.obeys_length {α : Type} {p : Kext α} (hp : Probes p) (own : Option ObjId) :
    Prog.Obeys lengthMonitor own p (fun _ _ => True) :=
  (Prog.Issues.obeys (fun o ho => by
    cases o with
    | loadBoot | getMmio | readRegSafe _ | mmioRead _ _ _ | mmioWrite _ _ _ _ | guardOutcome _
    | logWait _ =>
      exact ⟨trivial, fun _ => rfl⟩
    | _ => exact absurd ho Bool.false_ne_true) hp).mono fun _ _ _ => trivial

theorem obeys_length_submitNoop (m : UInt64) (md : ObjId) :
    Prog.Obeys lengthMonitor (some md) (XeCommandStream.submitNoop m (some md))
      (fun _ _ => True) := by
  unfold XeCommandStream.submitNoop
  split
  · trivial
  refine .perform_bind trivial fun gXeBoot _ => ?_
  split
  · trivial
  refine .perform_bind trivial fun rawAddr _ => ?_
  split
  · trivial
  refine .perform_bind rfl fun bufSize _ => ?_
  split
  · trivial
  refine .perform_bind trivial fun _ _ => ?_
  rw [Prog.obeys_bind]
  exact ((probes_logRcs0State m).obeys_length _).mono fun _ _ _ => trivial

/-- The length a submission reads is that of the buffer it has just
created. -/
theorem obeys_length_ucSubmitNoop :
    Prog.Obeys lengthMonitor none ucSubmitNoop (fun _ _ => True) := by
  unfold ucSubmitNoop
  refine .perform_bind trivial fun mmio _ => ?_
  split
  · trivial
  refine .perform_bind trivial fun md _ => ?_
  cases md with
  | none => trivial
  | some md =>
    refine .perform_bind trivial fun m _ => ?_
    rw [Prog.obeys_bind]
    exact (obeys_length_submitNoop m md).mono fun _ _ _ =>
      .perform_bind trivial fun _ _ => trivial

theorem obeys_length_addBuffer (md : Option ObjId) :
    Prog.Obeys lengthMonitor none (addBuffer md) (fun _ _ => True) := by
  cases md with
  | none => trivial
  | some md =>
    refine .perform_bind trivial fun added _ => ?_
    split
    · exact .perform_bind trivial fun _ _ => trivial
    · exact .perform_bind trivial fun _ _ => .perform_bind trivial fun _ _ => trivial

/-- **Two programs go the same way** from two machines: their results are
related by `R`, and the machines still differ in lengths alone. -/
structure SameWay (P : Platform) {α β : Type} (R : α → β → Prop) (p : Kext α) (p' : Kext β)
    (s s' : Machine) : Prop where
  result : R (p.run (exec P) s).1 (p'.run (exec P) s').1
  machine : (p.run (exec P) s).2.SameButLengths none (p'.run (exec P) s').2

section Methods

variable {P : Platform} {s s' : Machine}

/-- A program that obeys the monitor goes the same way as itself. -/
theorem Machine.SameButLengths.sameWay {α : Type} {p : Kext α} (h : s.SameButLengths none s')
    (hp : Prog.Obeys lengthMonitor none p (fun _ _ => True)) : SameWay P Eq p p s s' := by
  obtain ⟨hresult, own, hsame, -⟩ := hp.run₂ (exec_sameButLengths P) h
  exact ⟨hresult.symm, hsame.forget⟩

/-- Programs in sequence go the same way if their parts do. -/
theorem SameWay.bind {α β γ : Type} {p p' : Kext α} {f : α → Kext β} {f' : α → Kext γ}
    {R : β → γ → Prop} (h : SameWay P Eq p p' s s')
    (hf : ∀ r t t', t.SameButLengths none t' → SameWay P R (f r) (f' r) t t') :
    SameWay P R (p >>= f) (p' >>= f') s s' := by
  have hrest := hf (p.run (exec P) s).1 _ _ h.machine
  constructor
  all_goals rw [Prog.run_bind, Prog.run_bind, ← h.result]
  · exact hrest.result
  · exact hrest.machine

theorem Machine.SameButLengths.withOptions (h : s.SameButLengths none s') (n n' : UInt32) :
    SameWay P Eq (req (.withOptions n)) (req (.withOptions n')) s s' := by
  obtain ⟨hanswer, hsame, -⟩ := exec_withOptions_sameButLengths P n n' h
  exact ⟨hanswer.symm, hsame⟩

/-- **Creations go the same way whatever their sizes.** -/
theorem Machine.SameButLengths.ucCreateBuffer (h : s.SameButLengths none s')
    (bytes bytes' : UInt32) :
    SameWay P Eq (ucCreateBuffer bytes) (ucCreateBuffer bytes') s s' := by
  rw [ucCreateBuffer_eq, ucCreateBuffer_eq]
  generalize pageAlign bytes = n
  generalize pageAlign bytes' = n'
  have hready : SameWay P Eq (req .hasBoList) (req .hasBoList) s s' :=
    h.sameWay ⟨trivial, fun _ _ => trivial⟩
  refine hready.bind fun ready t t' ht => ?_
  cases ready with
  | false => exact ⟨rfl, ht⟩
  | true => exact (ht.withOptions n n').bind fun md _ _ hu => hu.sameWay (obeys_length_addBuffer md)

/-- What is computed from the results is related if it is for every
result. -/
theorem SameWay.map {α β γ : Type} {p p' : Kext α} {f : α → β} {f' : α → γ} {R : β → γ → Prop}
    (h : SameWay P Eq p p' s s') (hf : ∀ r, R (f r) (f' r)) :
    SameWay P R (f <$> p) (f' <$> p') s s' := by
  constructor
  all_goals rw [Prog.run_map, Prog.run_map]
  · rw [← h.result]
    exact hf _
  · exact h.machine

end Methods

/-! ## Calls that differ in their inputs -/

/-- **Two records differ in the input scalars alone.** -/
def IOExternalMethodArguments.SameButInputs (a a' : IOExternalMethodArguments) : Prop :=
  a' = { a with scalarInput := a'.scalarInput }

/-- Two calls do. -/
structure Call.SameButInputs (c c' : Call) : Prop where
  client : c'.client = c.client
  selector : c'.selector = c.selector
  args : Option.Rel IOExternalMethodArguments.SameButInputs c.args c'.args

/-- **Two results are the same**: the same value is returned, and the
records still differ in the inputs alone – so the outputs are the same. -/
structure SameResult (r r' : IOReturn × Option IOExternalMethodArguments) : Prop where
  value : r'.1 = r.1
  outputs : Option.Rel IOExternalMethodArguments.SameButInputs r.2 r'.2

namespace IOExternalMethodArguments.SameButInputs

variable {a a' : IOExternalMethodArguments}

theorem inputCount (h : a.SameButInputs a') : a'.scalarInputCount = a.scalarInputCount := by
  rw [h]

theorem outputCount (h : a.SameButInputs a') : a'.scalarOutputCount = a.scalarOutputCount := by
  rw [h]

/-- Reading an input leaves it so. -/
theorem clampedInput (h : a.SameButInputs a') (dflt limit : UInt32) :
    (a.clampedInput dflt limit).2.SameButInputs (a'.clampedInput dflt limit).2 := by
  unfold SameButInputs at h ⊢
  generalize a'.scalarInput = f at h
  subst h
  unfold IOExternalMethodArguments.clampedInput
  split <;> rfl

/-- Writing an output does. -/
theorem writeOutput (h : a.SameButInputs a') (i : ℕ) (v : UInt64) :
    (a.writeOutput i v).SameButInputs (a'.writeOutput i v) := by
  unfold SameButInputs at h ⊢
  generalize a'.scalarInput = f at h
  subst h
  rfl

/-- Setting the count of outputs does. -/
theorem setCount (h : a.SameButInputs a') (n : UInt32) :
    { a with scalarOutputCount := n }.SameButInputs { a' with scalarOutputCount := n } := by
  unfold SameButInputs at h ⊢
  generalize a'.scalarInput = f at h
  subst h
  rfl

/-- Copying registers out does, by induction on the positions. -/
theorem copyOut (h : a.SameButInputs a') (tmp : List UInt32) (n : ℕ) :
    (a.copyOut tmp n).SameButInputs (a'.copyOut tmp n) := by
  unfold IOExternalMethodArguments.copyOut
  induction List.range n generalizing a a' with
  | nil => exact h
  | cons i is ih => exact ih (h.writeOutput i _)

theorem cookieOut (h : a.SameButInputs a') (r : IOReturn × UInt64) :
    (XeUserClient.cookieOut a r).SameButInputs (XeUserClient.cookieOut a' r) := by
  have hin : (XeUserClient.createRequest a).2.SameButInputs (XeUserClient.createRequest a').2 :=
    h.clampedInput 4096 (64 * 1024 * 1024)
  unfold XeUserClient.cookieOut
  rw [hin.outputCount]
  split
  · exact (hin.writeOutput 0 r.2).setCount 1
  · exact hin

theorem regsOut (h : a.SameButInputs a') (room : ℕ) (r : IOReturn × List UInt32) :
    (XeUserClient.regsOut a room r).SameButInputs (XeUserClient.regsOut a' room r) := by
  unfold XeUserClient.regsOut
  split
  · exact (h.copyOut r.2 _).setCount _
  · exact h

end IOExternalMethodArguments.SameButInputs

section Calls

open XeUserClient

variable {P : Platform} {s s' : Machine}

/-- Calls that are accepted for the same entry go the same way, by cases on
the entry. -/
theorem Machine.SameButLengths.accepted (h : s.SameButLengths none s') {c c' : Call}
    {a a' : IOExternalMethodArguments} (ha : a.SameButInputs a')
    (hsel : c.selector.toNat < sMethods.length)
    (hc : c.Accepted c.selector (sMethods.get ⟨c.selector.toNat, hsel⟩).checkScalarInputCount
      (sMethods.get ⟨c.selector.toNat, hsel⟩).checkScalarOutputCount a)
    (hc' : c'.Accepted c.selector (sMethods.get ⟨c.selector.toNat, hsel⟩).checkScalarInputCount
      (sMethods.get ⟨c.selector.toNat, hsel⟩).checkScalarOutputCount a') :
    SameWay P SameResult c.prog c'.prog s s' := by
  have hreads (k : UInt32) (hk : k = 3 ∨ k = 4 ∨ k = 5) (hc : c.Accepted k 0 8 a)
      (hc' : c'.Accepted k 0 8 a') : SameWay P SameResult c.prog c'.prog s s' := by
    rw [hc.prog_readList hk, hc'.prog_readList hk]
    exact (h.sameWay ((probes_readList _).obeys_length none)).map
      fun r => ⟨rfl, .some (ha.regsOut 8 r)⟩
  obtain ⟨client, selector, args⟩ := c
  rcases selector_cases hsel with rfl | rfl | rfl | rfl | rfl | rfl
  · rw [hc.prog_createBuffer, hc'.prog_createBuffer]
    exact (h.ucCreateBuffer _ _).map fun r => ⟨rfl, .some (ha.cookieOut r)⟩
  · rw [hc.prog_submit, hc'.prog_submit]
    exact (h.sameWay obeys_length_ucSubmitNoop).map fun _ => ⟨rfl, .some ha⟩
  · rw [hc.prog_wait, hc'.prog_wait]
    exact ⟨⟨rfl, .some (ha.clampedInput _ _)⟩, h⟩
  · exact hreads 3 (by decide) hc hc'
  · exact hreads 4 (by decide) hc hc'
  · exact hreads 5 (by decide) hc hc'

/-- **A call goes the same way whatever its inputs**, by cases on how the
dispatcher treats it. -/
theorem Machine.SameButLengths.call (h : s.SameButLengths none s') {c c' : Call}
    (hc : c.SameButInputs c') : SameWay P SameResult c.prog c'.prog s s' := by
  obtain ⟨client, selector, args⟩ := c
  obtain ⟨client', selector', args'⟩ := c'
  obtain ⟨rfl, rfl, hargs⟩ := hc
  -- refused with the same value
  have hrefused (kr : IOReturn) {c c' : Call}
      (hargs : Option.Rel IOExternalMethodArguments.SameButInputs c.args c'.args)
      (hp : c.prog = return (kr, c.args)) (hp' : c'.prog = return (kr, c'.args)) :
      SameWay P SameResult c.prog c'.prog s s' := by
    rw [hp, hp']
    exact ⟨⟨rfl, hargs⟩, h⟩
  by_cases hsel : selector'.toNat < sMethods.length
  swap
  · exact hrefused .unsupported hargs (dif_neg hsel) (dif_neg hsel)
  cases hargs with
  | none => exact hrefused .badArgument .none (dif_pos hsel) (dif_pos hsel)
  | @some a a' ha =>
    have hcounts : (a'.scalarInputCount
            = (sMethods.get ⟨selector'.toNat, hsel⟩).checkScalarInputCount
          ∧ a'.scalarOutputCount
            = (sMethods.get ⟨selector'.toNat, hsel⟩).checkScalarOutputCount)
        ↔ a.scalarInputCount = (sMethods.get ⟨selector'.toNat, hsel⟩).checkScalarInputCount
          ∧ a.scalarOutputCount
            = (sMethods.get ⟨selector'.toNat, hsel⟩).checkScalarOutputCount := by
      rw [ha.inputCount, ha.outputCount]
    by_cases hcount : a.scalarInputCount
          = (sMethods.get ⟨selector'.toNat, hsel⟩).checkScalarInputCount
        ∧ a.scalarOutputCount = (sMethods.get ⟨selector'.toNat, hsel⟩).checkScalarOutputCount
    swap
    · exact hrefused _ (.some ha) (Call.prog_of_badCounts hsel rfl hcount)
        (Call.prog_of_badCounts hsel rfl (fun h' => hcount (hcounts.mp h')))
    have hcount' := hcounts.mpr hcount
    cases hs : client'.providerSvc with
    | false =>
      have hmem := List.get_mem sMethods ⟨selector'.toNat, hsel⟩
      exact hrefused _ (.some ha)
        ((Call.prog_of_counts hsel rfl hcount).trans (Call.function_of_noProvider hs hmem a))
        ((Call.prog_of_counts hsel rfl hcount').trans (Call.function_of_noProvider hs hmem a'))
    | true =>
      exact h.accepted ha hsel ⟨rfl, hs, rfl, hcount.1, hcount.2⟩
        ⟨rfl, hs, rfl, hcount'.1, hcount'.2⟩

/-- **So do any calls**, by induction on them. -/
theorem Machine.SameButLengths.serve (h : s.SameButLengths none s') {calls calls' : List Call}
    (hcalls : List.Forall₂ Call.SameButInputs calls calls') :
    SameWay P (List.Forall₂ SameResult) (serve calls) (serve calls') s s' := by
  induction hcalls generalizing s s' with
  | nil => exact ⟨.nil, h⟩
  | cons hc _ ih =>
    have hcall := h.call (P := P) hc
    have hrest := ih hcall.machine
    constructor
    all_goals rw [run_serve_cons, run_serve_cons]
    · exact .cons hcall.result hrest.result
    · exact hrest.machine

end Calls

/-- **The inputs influence nothing.** Two runs whose calls differ in the
input scalars alone make the same accesses in the same order, with the same
values; and call by call the same value is returned and the outputs are the
same. -/
theorem inputs_without_influence (P : Platform) {calls calls' : List Call}
    (h : List.Forall₂ Call.SameButInputs calls calls') :
    history P calls' = history P calls
      ∧ List.Forall₂ SameResult (results P calls) (results P calls') := by
  have hserve := (Machine.SameButLengths.refl P.started).serve (P := P) h
  constructor
  · rw [history_eq, history_eq, hserve.machine.hist]
  · unfold results
    rw [run_session, run_session]
    exact hserve.result

/-- A creation of one byte, and one of almost 4 GiB, and then a
submission. -/
theorem inputs_without_influence_sizes :
    history oddPlatform [.creating 0xFFFFFFFF, .submitting]
        = history oddPlatform [.creating 1, .submitting]
      ∧ List.Forall₂ SameResult (results oddPlatform [.creating 1, .submitting])
        (results oddPlatform [.creating 0xFFFFFFFF, .submitting]) :=
  inputs_without_influence oddPlatform
    (.cons ⟨rfl, rfl, .some rfl⟩ (.cons ⟨rfl, rfl, .some rfl⟩ .nil))
