import XePCI.UserClient

/-!
# The arrays of a call

A call comes with two arrays of scalars and their lengths, and nothing but
the lengths keeps a handler within them. The handlers trust different
things: one tests that there is an input, two take the smaller of what they
have and what the caller has room for, and `sReadRegs` tests nothing at all,
but copies as many registers as the method says it has read, 8 at most.

Together with the table, whose counts the dispatcher compares before it
calls a handler, they are within the caller's arrays, whatever the record
and the state of the service are (`externalMethod_withinArrays`). The record
keeps the positions that are read and written, so that this can be said.
-/

open XeService XeUserClient

namespace IOExternalMethodArguments

/-- The record as a caller hands it over: nothing was read or written. -/
def untouched (a : IOExternalMethodArguments) : IOExternalMethodArguments :=
  { a with inputReads := [], outputWrites := [] }

/-- **A call is within its arrays.** The record `a` came in and `a'` goes
out with the result `kr`: the positions that were read and written are below
the caller's counts, and below the 8 entries of a handler's temporary; no
more outputs are announced than there was room for; and on success all that
are announced were written. -/
structure WithinArrays (a : IOExternalMethodArguments) (kr : IOReturn)
    (a' : IOExternalMethodArguments) : Prop where
  inputs : ∀ i ∈ a'.inputReads, i < a.scalarInputCount.toNat
  outputs : ∀ i ∈ a'.outputWrites, i < a.scalarOutputCount.toNat ∧ i < 8
  count : a'.scalarOutputCount ≤ a.scalarOutputCount
  filled : kr = .success → ∀ i < a'.scalarOutputCount.toNat, i ∈ a'.outputWrites

variable {a : IOExternalMethodArguments}

/-- A record to which nothing was written is, unless a success announces
outputs. -/
theorem withinArrays_of_noWrites {kr : IOReturn} {a' : IOExternalMethodArguments}
    (hreads : ∀ i ∈ a'.inputReads, i < a.scalarInputCount.toNat) (hwrites : a'.outputWrites = [])
    (hcount : a'.scalarOutputCount = a.scalarOutputCount)
    (h : kr = .success → a.scalarOutputCount = 0) : a.WithinArrays kr a' := by
  refine ⟨hreads, fun i hi => ?_, hcount ▸ UInt32.le_refl _, fun hkr i hi => ?_⟩
  · rw [hwrites] at hi
    exact nomatch hi
  · rw [hcount, h hkr] at hi
    exact absurd hi (Nat.not_lt_zero i)

/-- Copying `n` entries writes the first `n` positions, and reads no input:
by induction on `n`. -/
theorem copyOut_writes (a : IOExternalMethodArguments) (tmp : List UInt32) (n : ℕ) :
    (∀ i, i ∈ (a.copyOut tmp n).outputWrites ↔ i < n ∨ i ∈ a.outputWrites)
      ∧ (a.copyOut tmp n).inputReads = a.inputReads := by
  unfold copyOut
  induction n with
  | zero => exact ⟨fun i => by simp, rfl⟩
  | succ n ih =>
    rw [List.range_succ, List.foldl_append]
    refine ⟨fun i => ?_, ih.2⟩
    show i ∈ n :: _ ↔ _
    rw [List.mem_cons, ih.1, ← or_assoc]
    exact or_congr_left (by omega)

/-- The input is read only if there is one, and no output is written. -/
theorem clampedInput_untouched (a : IOExternalMethodArguments) (dflt limit : UInt32) :
    (∀ i ∈ (a.untouched.clampedInput dflt limit).2.inputReads, i < a.scalarInputCount.toNat)
      ∧ (a.untouched.clampedInput dflt limit).2.outputWrites = [] := by
  unfold clampedInput
  split
  · rename_i hone
    refine ⟨fun i hi => ?_, rfl⟩
    rw [List.mem_singleton.mp hi]
    exact hone
  · exact ⟨fun i hi => (nomatch hi), rfl⟩

/-- The record of a creation. -/
theorem withinArrays_cookieOut (a : IOExternalMethodArguments) (r : IOReturn × UInt64) :
    a.WithinArrays r.1 (cookieOut a.untouched r) := by
  obtain ⟨hreads, hwrites⟩ := clampedInput_untouched a 4096 (64 * 1024 * 1024)
  have hroom : (createRequest a.untouched).2.scalarOutputCount = a.scalarOutputCount :=
    (a.untouched.sameOutputs_clampedInput _ _).2
  unfold cookieOut
  rw [hroom]
  split
  · rename_i hok
    refine ⟨hreads, fun i hi => ?_, hok.2, fun _ i hi => ?_⟩
    · have hi' : i ∈ 0 :: (createRequest a.untouched).2.outputWrites := hi
      rw [createRequest, hwrites, List.mem_singleton] at hi'
      rw [hi']
      exact ⟨hok.2, by decide⟩
    · rw [Nat.lt_one_iff.mp hi]
      exact List.mem_cons_self
  · rename_i hno
    refine withinArrays_of_noWrites hreads hwrites hroom fun hkr => ?_
    have hlt := UInt32.not_le.mp fun hone => hno ⟨hkr, hone⟩
    exact UInt32.toNat_inj.mp (Nat.lt_one_iff.mp hlt)

/-- The record of a method that reads registers, if there is room for 8. -/
theorem withinArrays_regsOut (a : IOExternalMethodArguments) (ha : a.scalarOutputCount = 8)
    (r : IOReturn × List UInt32) :
    a.WithinArrays r.1 (regsOut a.untouched 8 r) := by
  unfold regsOut
  split
  · generalize hn : (if 8 < r.2.length then 8 else r.2.length) = n
    have hle : n ≤ 8 := by
      rw [← hn]
      split <;> omega
    have htoNat : (UInt32.ofNat n).toNat = n := UInt32.toNat_ofNat_of_lt (hle.trans_lt (by decide))
    obtain ⟨hwrites, hreads⟩ := copyOut_writes a.untouched r.2 n
    refine ⟨fun i hi => ?_, fun i hi => ?_, ?_, fun _ i hi => ?_⟩
    · have hi' : i ∈ (a.untouched.copyOut r.2 n).inputReads := hi
      rw [hreads] at hi'
      exact nomatch hi'
    · have hlt : i < n := ((hwrites i).mp hi).resolve_right (fun h => nomatch h)
      rw [ha]
      exact ⟨hlt.trans_le hle, hlt.trans_le hle⟩
    · rw [ha, UInt32.le_iff_toNat_le]
      show (UInt32.ofNat n).toNat ≤ 8
      rw [htoNat]
      exact hle
    · exact (hwrites i).mpr (Or.inl (htoNat ▸ hi))
  · rename_i hfail
    exact withinArrays_of_noWrites (fun i hi => (nomatch hi)) rfl rfl fun hkr => absurd hkr hfail

end IOExternalMethodArguments

/-! ## Every call -/

/-- A method that reads registers has as many results as registers, or
none. -/
theorem length_run_readList (P : Platform) (offs : List UInt32) (s : Machine) :
    ((readList offs).run (exec P) s).1.2.length ≤ offs.length := by
  unfold readList
  rw [Prog.run_bind]
  split
  · exact Nat.zero_le _
  · rw [Prog.run_bind]
    exact (Prog.length_run_mapM (exec P) readReg offs _).le

/-- **A call is within its arrays**, by cases on the way it goes. -/
theorem Call.withinArrays (P : Platform) (s : Machine) (self : XeUserClient) (selector : UInt32)
    (a : IOExternalMethodArguments) :
    ∃ a', ((⟨self, selector, some a.untouched⟩ : Call).prog.run (exec P) s).1.2 = some a'
      ∧ a.WithinArrays
        ((⟨self, selector, some a.untouched⟩ : Call).prog.run (exec P) s).1.1 a' := by
  have hnone : ∀ i ∈ a.untouched.inputReads, i < a.scalarInputCount.toNat :=
    fun i hi => (nomatch hi)
  cases (⟨self, selector, some a.untouched⟩ : Call).way with
  | refused kr hkr hp =>
    rw [hp]
    exact ⟨a.untouched, rfl, IOExternalMethodArguments.withinArrays_of_noWrites hnone rfl rfl
      fun h => absurd h hkr⟩
  | createBuffer a₀ hc bytes hp =>
    obtain rfl := Option.some.inj hc.args
    rw [hc.prog_createBuffer, Prog.run_map]
    exact ⟨_, rfl, a.withinArrays_cookieOut _⟩
  | submit a₀ hc hp =>
    obtain rfl := Option.some.inj hc.args
    rw [hp, Prog.run_map]
    exact ⟨a.untouched, rfl, IOExternalMethodArguments.withinArrays_of_noWrites hnone rfl rfl
      fun _ => hc.outputs⟩
  | wait a₀ hc timeoutMs hp =>
    obtain rfl := Option.some.inj hc.args
    obtain ⟨hreads, hwrites⟩ := a.clampedInput_untouched 1000 60000
    rw [hc.prog_wait, Prog.run_map]
    exact ⟨_, rfl, IOExternalMethodArguments.withinArrays_of_noWrites hreads hwrites
      (a.untouched.sameOutputs_clampedInput _ _).2 fun _ => hc.outputs⟩
  | readList a₀ k hk hc out hout hp =>
    obtain rfl := Option.some.inj hc.args
    rw [hc.prog_readList hk, Prog.run_map]
    exact ⟨_, rfl, a.withinArrays_regsOut hc.outputs _⟩

/-- **Calls are within their arrays**, for every client, selector, record,
platform and state. A selector beyond the table does not index it; a null
record stays null; and a service method fills no more than the 8 entries it
is given. -/
theorem externalMethod_withinArrays (P : Platform) (s : Machine) (self : XeUserClient)
    (selector : UInt32) (a : IOExternalMethodArguments) :
    (∃ a', ((self.externalMethod selector (some a.untouched)).run (exec P) s).1.2 = some a'
        ∧ a.WithinArrays
          ((self.externalMethod selector (some a.untouched)).run (exec P) s).1.1 a')
      ∧ ((self.externalMethod selector none).run (exec P) s).1.2 = none
      ∧ (sMethods.length ≤ selector.toNat →
        ∀ args, self.externalMethod selector args = return (.unsupported, args))
      ∧ ((ucReadRegs 8).run (exec P) s).1.2.length ≤ 8
      ∧ (ucGetGTConfig.run (exec P) s).1.2.length ≤ 8
      ∧ (ucGetDisplayInfo.run (exec P) s).1.2.length ≤ 8 := by
  refine ⟨Call.withinArrays P s self selector a, ?_, fun hsel args => ?_,
    length_run_readList P _ s, length_run_readList P _ s, length_run_readList P _ s⟩
  · unfold externalMethod
    split <;> rfl
  · unfold externalMethod
    rw [dif_neg (Nat.not_lt.mpr hsel)]

/-- A dump on a mapped BAR succeeds and is within its arrays, and so is a
selector beyond the table, with no record at all. -/
theorem externalMethod_withinArrays_dump :
    let a : IOExternalMethodArguments := ⟨fun _ => 0, 0, fun _ => 0, 8, [], []⟩
    let r := ((⟨true⟩ : XeUserClient).externalMethod kMethodReadReg (some a.untouched)).run
      (exec .ideal) { Machine.fresh with mmio := 0x1000 }
    (r.1.1 = .success
        ∧ ∃ a', r.1.2 = some a' ∧ a'.scalarOutputCount = 8 ∧ a.WithinArrays .success a')
      ∧ (⟨true⟩ : XeUserClient).externalMethod 6 none = return (.unsupported, none) := by
  intro a r
  have hok : r.1.1 = .success := by decide
  obtain ⟨⟨a', ha', hwithin⟩, -⟩ := externalMethod_withinArrays .ideal
    { Machine.fresh with mmio := 0x1000 } ⟨true⟩ kMethodReadReg a
  refine ⟨⟨hok, a', ha', ?_, hok ▸ hwithin⟩, ?_⟩
  · have hcount : r.1.2.map (·.scalarOutputCount) = some 8 := by decide
    rw [show r.1.2 = some a' from ha'] at hcount
    exact Option.some.inj hcount
  · exact (externalMethod_withinArrays .ideal .fresh ⟨true⟩ 6 a).2.2.1 (by decide) none
