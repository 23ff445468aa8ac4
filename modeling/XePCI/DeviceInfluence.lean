import XePCI.Coupling
import XePCI.ArgumentArrays
import XePCI.BufferObjects

/-!
# What the device can influence

The device answers reads as it likes, and it is asked for more than the
values a client gets to see: bring-up probes it, a guard polls it, the
command stream looks at its ring, and all of these compare what they read
with the two error values the accessors return. A device may answer with
exactly these.

It makes no difference. Two devices in the place of one (`Platform.withHw`)
lead to machines that differ in the history alone, and to results that
differ in the values of the registers a client has asked for: the return
codes, the cookies, the counts and the positions that are written are the
same (`device_decides_values_only`). The two runs are not in lockstep – a
guard polls until it is acknowledged – so they are compared run by run, and
the point is that what only looks at the device, however often, leaves
nothing behind.
-/

open XeService

/-! ## Records that differ in the values of registers -/

/-- **The records differ in the first `n` output values at most.** -/
structure IOExternalMethodArguments.SameButValues (n : ℕ)
    (a a' : IOExternalMethodArguments) : Prop where
  rest : a' = { a with scalarOutput := a'.scalarOutput }
  values : ∀ i, n ≤ i → a'.scalarOutput i = a.scalarOutput i

namespace IOExternalMethodArguments.SameButValues

variable {a a' : IOExternalMethodArguments} {n : ℕ}

theorem refl (n : ℕ) (a : IOExternalMethodArguments) : a.SameButValues n a := ⟨rfl, fun _ _ => rfl⟩

/-- A value that is written at a position below `n` may differ. -/
theorem writeOutput (h : a.SameButValues n a') {i : ℕ} (hi : i < n) (v v' : UInt64) :
    (a.writeOutput i v).SameButValues n (a'.writeOutput i v') := by
  refine ⟨?_, fun j hj => ?_⟩
  · rw [IOExternalMethodArguments.writeOutput, IOExternalMethodArguments.writeOutput]
    conv_lhs => rw [h.rest]
  · have hne : j ≠ i := by omega
    simp only [IOExternalMethodArguments.writeOutput, Function.update_of_ne hne]
    exact h.values j hj

/-- So may all that are copied, if there are no more than `n`: by induction
on how many there are. -/
theorem copyOut (h : a.SameButValues n a') (tmp tmp' : List UInt32) {k : ℕ} (hk : k ≤ n) :
    (a.copyOut tmp k).SameButValues n (a'.copyOut tmp' k) := by
  unfold IOExternalMethodArguments.copyOut
  induction k with
  | zero => exact h
  | succ k ih =>
    rw [List.range_succ, List.foldl_append, List.foldl_append]
    exact (ih (by omega)).writeOutput (by omega) _ _

/-- The records of two readings of equally many registers. -/
theorem regsOut (a : IOExternalMethodArguments) (room : ℕ) {kr : IOReturn} {tmp tmp' : List UInt32}
    (htmp : tmp'.length = tmp.length) (hn : tmp.length ≤ n) :
    (XeUserClient.regsOut a room (kr, tmp)).SameButValues n
      (XeUserClient.regsOut a room (kr, tmp')) := by
  unfold XeUserClient.regsOut
  dsimp only
  rw [htmp]
  split
  · have hcopy : (a.copyOut tmp (if room < tmp.length then room else tmp.length)).SameButValues n
        (a.copyOut tmp' (if room < tmp.length then room else tmp.length)) :=
      (refl n a).copyOut tmp tmp' (by split <;> omega)
    refine ⟨?_, hcopy.values⟩
    conv_lhs => rw [hcopy.rest]
  · exact refl n a

end IOExternalMethodArguments.SameButValues

/-- **Two results of a call**: the same code, and records that differ in
the values of the registers the call reads. -/
structure Call.SameButValues (c : Call) (r r' : IOReturn × Option IOExternalMethodArguments) :
    Prop where
  code : r'.1 = r.1
  record : Option.Rel (IOExternalMethodArguments.SameButValues c.regs.length) r.2 r'.2

theorem Call.SameButValues.refl (c : Call) (r : IOReturn × Option IOExternalMethodArguments) :
    c.SameButValues r r := by
  refine ⟨rfl, ?_⟩
  cases r.2 with
  | none => exact .none
  | some a => exact .some (.refl _ a)

/-! ## Machines that differ in the history -/

section Devices

open Prog

variable (P : Platform) (hw : List MmioEvent → UInt32 → UInt32)

/-- The machines differ in the history at most. -/
def Machine.SameButHistory (s s' : Machine) : Prop := s'.still = s.still

/-- The programs agree, on the two devices. -/
abbrev OnBothDevices {α β : Type} (Q : α → β → Prop) (p : Kext α) (p' : Kext β) : Prop :=
  Agree (exec P) (exec (P.withHw hw)) Machine.SameButHistory Q p p'

/-- What only looks at the device leaves nothing behind, so any two programs
that do may be compared. -/
theorem bothDevices_probes {α β : Type} {p : Kext α} {p' : Kext β} (h : Probes p) (h' : Probes p') :
    OnBothDevices P hw (fun _ _ => True) p p' := fun s s' hs =>
  ⟨trivial, ((h'.run _ s').trans hs).trans (h.run _ s).symm⟩

/-- Whether the answer to a request does not come from the device. -/
def KextOp.offDevice : KextOp → Bool
  | readRegSafe _ | mmioRead _ _ _ => false
  | _ => true

/-- Such a request gets the same answer. -/
theorem bothDevices_perform {o : KextOp} (ho : o.offDevice = true) :
    OnBothDevices P hw Eq (req o) (req o) := by
  intro s s' hs
  rw [Machine.eq_of_still hs]
  cases o with
  | setObject md =>
    rw [run_perform, run_perform, setObject_eq, setObject_eq]
    exact ⟨rfl, rfl⟩
  | getObject i =>
    rw [run_perform, run_perform, getObject_eq, getObject_eq]
    exact ⟨rfl, rfl⟩
  | withOptions capacity =>
    rw [run_perform, run_perform, withOptions_eq, withOptions_eq]
    exact ⟨rfl, rfl⟩
  | _ => first
    | exact ⟨rfl, rfl⟩
    | exact absurd ho Bool.false_ne_true

/-- A program that asks the device nothing runs the same. -/
theorem bothDevices_self {α : Type} {p : Kext α} (h : p.Issues (fun o => o.offDevice = true)) :
    OnBothDevices P hw Eq p p := by
  have hcoupled : Coupled (fun o o' A => ∃ h : o = o', o.offDevice = true ∧ A = h ▸ Eq) Eq p p :=
    h.coupled fun o ho => ⟨rfl, ho, rfl⟩
  refine hcoupled.agree ?_
  rintro o _ _ s s' ⟨rfl, ho, rfl⟩ hs
  exact bothDevices_perform P hw ho s s' hs

theorem bothDevices_ucCreateBuffer (bytes : UInt32) :
    OnBothDevices P hw Eq (ucCreateBuffer bytes) (ucCreateBuffer bytes) :=
  bothDevices_self P hw ((issues_ucCreateBuffer bytes).imp fun o ho => by
    cases o <;> first | rfl | exact ho.elim)

/-- A submission returns the same, however long its guard has polled and
whatever the ring looks like. -/
theorem bothDevices_submitNoop (m : UInt64) (md : ObjId) :
    OnBothDevices P hw Eq (XeCommandStream.submitNoop m (some md))
      (XeCommandStream.submitNoop m (some md)) := by
  unfold XeCommandStream.submitNoop
  split
  · exact agree_ret rfl
  refine (bothDevices_perform P hw rfl).bind ?_
  rintro gXeBoot _ rfl
  split
  · exact agree_ret rfl
  refine (bothDevices_perform P hw rfl).bind ?_
  rintro rawAddr _ rfl
  split
  · exact agree_ret rfl
  refine (bothDevices_perform P hw rfl).bind ?_
  rintro bufSize _ rfl
  split
  · exact agree_ret rfl
  refine (bothDevices_perform P hw rfl).bind fun _ _ _ => ?_
  have hring := bothDevices_probes P hw (probes_logRcs0State m) (probes_logRcs0State m)
  exact hring.bind fun _ _ _ => agree_ret rfl

theorem bothDevices_ucSubmitNoop : OnBothDevices P hw Eq ucSubmitNoop ucSubmitNoop := by
  refine (bothDevices_perform P hw rfl).bind ?_
  rintro mmio _ rfl
  split
  · exact agree_ret rfl
  refine (bothDevices_perform P hw rfl).bind ?_
  rintro md _ rfl
  cases md with
  | none => exact agree_ret rfl
  | some md =>
    refine (bothDevices_perform P hw rfl).bind ?_
    rintro m _ rfl
    refine (bothDevices_submitNoop P hw m md).bind ?_
    rintro kr _ rfl
    exact (bothDevices_perform P hw rfl).bind fun _ _ _ => agree_ret rfl

/-- A reading returns the same code and as many values, of which there are
none unless it is a success. -/
theorem bothDevices_readList (offs : List UInt32) :
    OnBothDevices P hw (fun r r' => r'.1 = r.1 ∧ r'.2.length = r.2.length
        ∧ r.2.length ≤ offs.length) (readList offs) (readList offs) := by
  refine (bothDevices_perform P hw rfl).bind ?_
  rintro mmio _ rfl
  split
  · exact agree_ret ⟨rfl, rfl, Nat.zero_le _⟩
  · intro s s' hs
    have hreads := bothDevices_probes P hw (probes_mapM_readReg offs) (probes_mapM_readReg offs)
    simp only [run_bind, pure_eq_ret, run_ret]
    refine ⟨⟨trivial, ?_, ?_⟩, (hreads s s' hs).2⟩
    · rw [length_run_mapM, length_run_mapM]
    · rw [length_run_mapM]

/-- **A call on the two devices.** -/
theorem bothDevices_call (c : Call) : OnBothDevices P hw c.SameButValues c.prog c.prog := by
  cases c.way with
  | refused kr hkr hp =>
    rw [hp]
    exact agree_ret (.refl c _)
  | wait a hc timeoutMs hp =>
    rw [hp]
    refine ((bothDevices_perform P hw rfl).bind fun _ _ _ => agree_ret rfl).map ?_
    rintro kr _ rfl
    exact .refl c _
  | createBuffer a hc bytes hp =>
    rw [hp]
    refine (bothDevices_ucCreateBuffer P hw bytes).map ?_
    rintro r _ rfl
    exact .refl c _
  | submit a hc hp =>
    rw [hp]
    refine (bothDevices_ucSubmitNoop P hw).map ?_
    rintro kr _ rfl
    exact .refl c _
  | readList a k hk hc out hout hp =>
    rw [hc.prog_readList hk]
    refine (bothDevices_readList P hw _).map ?_
    rintro ⟨kr, tmp⟩ ⟨_, tmp'⟩ ⟨rfl, hlen, hle⟩
    refine ⟨rfl, .some ?_⟩
    rw [hc.regs_eq]
    exact .regsOut a 8 hlen hle

/-! ## Sessions -/

theorem bothDevices_start : OnBothDevices P hw Eq start start := by
  have hmapBar0 : OnBothDevices P hw Eq mapBar0 mapBar0 :=
    bothDevices_self P hw (issues_mapBar0.imp fun o ho => by
      cases o <;> first | rfl | exact absurd ho Bool.false_ne_true)
  refine hmapBar0.bind ?_
  rintro mapped _ rfl
  split
  · exact agree_ret rfl
  unfold bringUp makeRegistry
  rw [← bind_assoc]
  refine (bothDevices_probes P hw probes_reads probes_reads).bind fun _ _ _ => ?_
  refine (bothDevices_perform P hw rfl).bind ?_
  rintro a _ rfl
  exact (bothDevices_perform P hw rfl).bind fun _ _ _ => agree_ret rfl

theorem bothDevices_stop : OnBothDevices P hw Eq stop stop :=
  bothDevices_self P hw (quiet_stop.imp fun o ho => by
    cases o <;> first | rfl | exact absurd ho Bool.false_ne_true)

theorem initialized_withHw : (P.withHw hw).initialized = P.initialized := by
  unfold Platform.initialized
  rw [run_init, run_init]
  rfl

end Devices
