import XePCI.Session

/-!
# The safety modes

The boot argument can switch parts of the driver off before it touches
unknown hardware: `noforcewake`, `nocs` and `strictsafe`. The flags are
tested in four classes, each on its own subset, and what a session does
under them is read off the lists of the session's accesses.

What is gated is gated on every path (`history_gated`): the driver writes
nothing but forcewake requests, nothing at all under any of the three
flags, and leaves the ring registers, `PGTBL_CTL` and the fences alone in
the modes that say so.

Two further promises of the documentation are not kept, because the methods
of the user client have register lists of their own. In strict-safe mode
only the sampler registers are to be read, but the methods that read
registers do not test the flag (`strictSafe_iff`). And registers of the GT
are to be read under forcewake, but only `logRcs0State` holds a guard
(`guardedSince_iff`).
-/

open XeService

/-- The registers any call may read through `readReg`. -/
def clientRegs : List UInt32 := kSafeOffs.take 8 ++ gtConfigRegs ++ displayInfoRegs

theorem regs_subset_clientRegs (c : Call) : c.regs ⊆ clientRegs := by
  have hregsOf : ∀ k, XeUserClient.regsOf k ⊆ clientRegs := by
    intro k
    unfold XeUserClient.regsOf clientRegs
    split
    · exact fun _ h => List.mem_append_left _ (List.mem_append_left _ h)
    · split
      · exact fun _ h => List.mem_append_left _ (List.mem_append_right _ h)
      · split
        · exact fun _ h => List.mem_append_right _ h
        · exact List.nil_subset _
  unfold Call.regs
  cases c.args with
  | none => exact List.nil_subset _
  | some a =>
    dsimp only
    split
    · exact hregsOf c.selector
    · exact List.nil_subset _

/-! ## What the flags gate -/

/-- An access of `start` or of `logRcs0State`, or one of a client's reads. -/
def sessionTouches (g : XeBootFlags) : List Touch :=
  (startTouches g).map Prod.snd ++ (rcs0Touches g false).map Prod.snd
    ++ clientRegs.map fun off => { path := .readReg, off }

/-- The accesses of a session are among those its flags allow. -/
theorem touch_mem_sessionTouches {P : Platform} {calls : List Call} {e : MmioEvent}
    (he : e ∈ history P calls) {t : Touch} (ht : e.touch? = some t) :
    t ∈ sessionTouches P.flags := by
  have hstart : ∀ p ∈ startTouches P.flags, p.2 ∈ sessionTouches P.flags := fun p hp =>
    List.mem_append_left _ (List.mem_append_left _ (List.mem_map_of_mem hp))
  have hrcs0 : ∀ p ∈ rcs0Touches P.flags false, p.2 ∈ sessionTouches P.flags := fun p hp =>
    List.mem_append_left _ (List.mem_append_right _ (List.mem_map_of_mem hp))
  have hregs : ∀ c ∈ calls, ∀ off ∈ c.regs,
      { path := .readReg, off } ∈ sessionTouches P.flags := fun c _ off hoff =>
    List.mem_append_right _ (List.mem_map_of_mem (regs_subset_clientRegs c hoff))
  obtain ⟨-, -, hmem, -⟩ := history_all hstart hrcs0 hregs he ht
  exact hmem

/-- The offsets of the fence registers. -/
def inFences (off : UInt32) : Bool :=
  XeHW.fenceRegBase ≤ off && off < XeHW.fenceRegBase + XeHW.fenceRegCount * 8

theorem inFences_fence {n : UInt32} (hn : n < XeHW.fenceRegCount) :
    inFences (XeHW.fenceStart n) = true ∧ inFences (XeHW.fenceEnd n) = true := by
  have hn' : n.toNat < 32 := UInt32.lt_iff_toNat_lt.mp hn
  simp only [inFences, XeHW.fenceStart, XeHW.fenceEnd, XeHW.fenceRegBase, XeHW.fenceRegCount,
    Bool.and_eq_true, decide_eq_true_eq, UInt32.le_iff_toNat_le, UInt32.lt_iff_toNat_lt,
    UInt32.toNat_add, UInt32.toNat_mul, UInt32.reduceToNat]
  omega

/-- A write is a forcewake request or its withdrawal. -/
theorem sessionTouches_writes : ∀ g, ∀ t ∈ sessionTouches g, t.written = none
    ∨ t.off = XeHW.forcewakeReq
      ∧ (t.written = some forcewakeSet ∨ t.written = some forcewakeClear) := by
  decide

/-- Each of the three flags rules writes out. -/
theorem sessionTouches_noWrites : ∀ g : XeBootFlags,
    (g.disableForcewake || g.disableCommandStream || g.strictSafe) = true →
      ∀ t ∈ sessionTouches g, t.written = none := by
  decide

/-- Without the command stream the ring registers are not touched. -/
theorem sessionTouches_noRing : ∀ g : XeBootFlags,
    (g.disableCommandStream || g.strictSafe) = true →
      ∀ t ∈ sessionTouches g, t.off ∉ ringRegs := by
  decide

/-- In strict-safe mode neither are the page table control and the fences. -/
theorem sessionTouches_noGgtt : ∀ g : XeBootFlags, g.strictSafe = true →
    ∀ t ∈ sessionTouches g, t.off ≠ XeHW.pgtblCtl ∧ inFences t.off = false := by
  decide

/-- **The modes gate what they say**, for every boot argument, every
platform and all calls.

* Every write is `0x00010001` or `0x00010000` to `FORCEWAKE_REQ`.
* Under `noforcewake`, `nocs` or `strictsafe` there is no write.
* Under `nocs` or `strictsafe` the five ring registers are not read, and no
  `kMethodSubmit` succeeds.
* Under `strictsafe` neither `PGTBL_CTL` nor a fence register is read. -/
theorem history_gated (P : Platform) (calls : List Call) :
    (∀ path off v, .write path off v ∈ history P calls →
        off = XeHW.forcewakeReq ∧ (v = forcewakeSet ∨ v = forcewakeClear))
      ∧ (P.flags.disableForcewake = true ∨ P.flags.disableCommandStream = true
          ∨ P.flags.strictSafe = true →
        ∀ path off v, .write path off v ∉ history P calls)
      ∧ (P.flags.disableCommandStream = true ∨ P.flags.strictSafe = true →
        (∀ path, ∀ off ∈ ringRegs, ∀ v, .read path off v ∉ history P calls)
          ∧ List.Forall₂ (fun (c : Call) r =>
              c.selector = XeUserClient.kMethodSubmit → r.1 ≠ .success)
            calls (results P calls))
      ∧ (P.flags.strictSafe = true →
        ∀ path v, .read path XeHW.pgtblCtl v ∉ history P calls
          ∧ ∀ n < XeHW.fenceRegCount,
            .read path (XeHW.fenceStart n) v ∉ history P calls
              ∧ .read path (XeHW.fenceEnd n) v ∉ history P calls) := by
  refine ⟨fun path off v h => ?_, fun hflag path off v h => ?_, fun hflag => ⟨?_, ?_⟩,
    fun hflag path v => ⟨fun h => ?_, fun n hn => ⟨fun h => ?_, fun h => ?_⟩⟩⟩
  · rcases sessionTouches_writes _ _ (touch_mem_sessionTouches h rfl) with hnone | ⟨hoff, hval⟩
    · exact nomatch hnone
    · exact ⟨hoff, hval.imp Option.some.inj Option.some.inj⟩
  · have hor : (P.flags.disableForcewake || P.flags.disableCommandStream
        || P.flags.strictSafe) = true := by
      simpa only [Bool.or_eq_true, or_assoc] using hflag
    exact nomatch sessionTouches_noWrites _ hor _ (touch_mem_sessionTouches h rfl)
  · rw [← Bool.or_eq_true] at hflag
    intro path off hoff v h
    exact sessionTouches_noRing _ hflag _ (touch_mem_sessionTouches h rfl) hoff
  · rw [← Bool.or_eq_true] at hflag
    exact (session_submit P calls).imp fun c r hr => hr hflag
  · exact (sessionTouches_noGgtt _ hflag _ (touch_mem_sessionTouches h rfl)).1 rfl
  · have hnot := (sessionTouches_noGgtt _ hflag _ (touch_mem_sessionTouches h rfl)).2
    exact Bool.false_ne_true (hnot.symm.trans (inFences_fence hn).1)
  · have hnot := (sessionTouches_noGgtt _ hflag _ (touch_mem_sessionTouches h rfl)).2
    exact Bool.false_ne_true (hnot.symm.trans (inFences_fence hn).2)

/-! ## The reads a call makes -/

/-- The setup between bring-up and shutdown: the flags, the mapping and its
length, and no guard alive. -/
abbrev Machine.Ready (g : XeBootFlags) (m L : UInt64) (s : Machine) : Prop :=
  s.Within g m L (fun _ _ => True) [] .idle

/-- The call is accepted for an entry of the table that reads registers. -/
def Call.Reads (c : Call) (k : UInt32) : Prop := ∃ a, c.Accepted k 0 8 a

section Reads

variable {P : Platform} {g : XeBootFlags} {m L : UInt64} {s : Machine}
  {X : MmioEvent → Prop} {off : UInt32}

/-- A register below the length is read by `readReg`. -/
theorem happened_readReg (hm : s.mmio ≠ 0) (hoff : off ≤ kMaxSafeMmioOffset)
    (hlen : off.toUInt64 < s.bar0Length) (hX : ∀ v, X (.read .readReg off v)) :
    Happened X s ((readReg off).run (exec P) s).2 := by
  unfold readReg
  rw [Prog.run_perform, exec_readRegSafe, Machine.readRegSafe, if_neg hm,
    if_neg (UInt32.not_lt.mpr hoff), if_neg (fun h => UInt64.not_le.mpr hlen h.2)]
  exact happened_readDword s (hX _)

/-- A list of registers: by induction, the registers before the one in
question leave the setup alone. -/
theorem happened_mapM_readReg {offs : List UInt32} (hmem : off ∈ offs)
    (hm : s.mmio ≠ 0) (hoff : off ≤ kMaxSafeMmioOffset)
    (hlen : off.toUInt64 < s.bar0Length) (hX : ∀ v, X (.read .readReg off v)) :
    Happened X s ((offs.mapM readReg).run (exec P) s).2 := by
  induction offs generalizing s with
  | nil => exact nomatch hmem
  | cons off' offs ih =>
    rw [List.mapM_cons]
    rcases List.mem_cons.mp hmem with rfl | hmem
    · exact .bind_left (happened_readReg hm hoff hlen hX)
    · have hsetup := (obeys_readReg (F := fun _ _ => True) (Q := fun _ _ => True)
        trivial (fun _ => trivial)).setup (P := P) (s := s) (p := readReg off')
      exact .bind_right (.bind_left
        (ih hmem (hsetup.2.1 ▸ hm) (hsetup.2.2 ▸ hlen)))

/-- **A call that is accepted reads its registers**, as far as they are
below the length. -/
theorem happened_call {c : Call} {k : UInt32} (hk : k = 3 ∨ k = 4 ∨ k = 5)
    (hc : c.Reads k) (hs : s.Ready g m L) (hm : m ≠ 0)
    (hmem : off ∈ XeUserClient.regsOf k) (hoff : off ≤ kMaxSafeMmioOffset)
    (hlen : off.toUInt64 < L) (hX : ∀ v, X (.read .readReg off v)) :
    Happened X s (c.prog.run (exec P) s).2 := by
  obtain ⟨a, ha⟩ := hc
  rw [ha.prog_readList hk, Prog.run_map]
  unfold readList
  refine .bind_right ?_
  rw [Prog.run_perform, exec_getMmio, hs.mmio, if_neg hm]
  exact .bind_left (happened_mapM_readReg hmem (hs.mmio ▸ hm) hoff (hs.length ▸ hlen) hX)

/-- A call finds the setup and leaves it. -/
theorem Machine.Ready.call (hs : s.Ready g m L) (c : Call) :
    (c.prog.run (exec P) s).2.Ready g m L := by
  have hobey := @obeys_call g m (fun _ => True) (fun _ _ => True) false
    (fun h => nomatch h) c (fun _ _ _ => trivial)
  obtain ⟨φ, hrun, rfl, -⟩ := hobey.within P.firstPoll_true hs
  exact hrun

/-- **What a call does is done in a sequence of calls that contains it**:
whatever was called before has left the setup as it was. -/
theorem happened_serve {c : Call}
    (hX : ∀ s : Machine, s.Ready g m L → Happened X s (c.prog.run (exec P) s).2)
    {calls : List Call} (hc : c ∈ calls) (hs : s.Ready g m L) :
    Happened X s ((serve calls).run (exec P) s).2 := by
  induction calls generalizing s with
  | nil => exact nomatch hc
  | cons c' calls ih =>
    unfold serve
    rw [List.mapM_cons]
    rcases List.mem_cons.mp hc with rfl | hc
    · exact .bind_left (hX s hs)
    · exact .bind_right (.bind_left (ih hc (hs.call c')))

end Reads

/-- After a `start` that got its mapping the setup is the platform's. -/
theorem started_ready {P : Platform} {map : IOMemoryMap} (hmap : P.mapped = some map) :
    P.started.Ready P.flags map.virtualAddress map.length := by
  obtain ⟨m, L, hstarted, hm | ⟨hnone, -⟩⟩ := started_within (P := P)
    (F := fun _ _ => True) P.firstPoll_true (fun _ _ _ => trivial)
  · cases hmap.symm.trans hm
    exact hstarted
  · exact nomatch hmap.symm.trans hnone

/-- An accepted call of a session reads its registers, after `start`. -/
theorem happened_session {P : Platform} {calls : List Call} {map : IOMemoryMap}
    (hmap : P.mapped = some map) {c : Call} (hc : c ∈ calls) {k : UInt32}
    (hk : k = 3 ∨ k = 4 ∨ k = 5) (hreads : c.Reads k) {off : UInt32}
    (hmem : off ∈ XeUserClient.regsOf k) (hoff : off ≤ kMaxSafeMmioOffset)
    (hlen : off.toUInt64 < map.length) :
    Happened (fun e => ∃ v, e = .read .readReg off v) P.started
      ((serve calls).run (exec P) P.started).2 := by
  obtain ⟨-, -, -, -, hva⟩ := mapped_eq_some hmap
  refine happened_serve (fun s hs => ?_) hc (started_ready hmap)
  exact happened_call hk hreads hs hva hmem hoff hlen fun v => ⟨v, rfl⟩

/-- What can be checked of every register of the table's entries holds of
each. -/
theorem forall_regsOf {X : UInt32 → UInt32 → Prop} [∀ k off, Decidable (X k off)]
    (h : ([3, 4, 5].all fun k => (XeUserClient.regsOf k).all fun off => X k off) = true)
    {k off : UInt32} (hk : k = 3 ∨ k = 4 ∨ k = 5) (hoff : off ∈ XeUserClient.regsOf k) :
    X k off := by
  have hmem : k ∈ [(3 : UInt32), 4, 5] := by simpa using hk
  exact of_decide_eq_true (List.all_eq_true.mp (List.all_eq_true.mp h k hmem) off hoff)

/-- The registers of the table's entries are within the accessor's range. -/
theorem regsOf_le {k off : UInt32} (hk : k = 3 ∨ k = 4 ∨ k = 5)
    (h : off ∈ XeUserClient.regsOf k) : off ≤ kMaxSafeMmioOffset :=
  forall_regsOf (X := fun _ off => off ≤ kMaxSafeMmioOffset) (by decide) hk h

/-- A register on a call's list is on the list of the entry the call is
accepted for. -/
theorem Call.reads_of_mem_regs {c : Call} {off : UInt32} (h : off ∈ c.regs) :
    ∃ k, (k = 3 ∨ k = 4 ∨ k = 5) ∧ c.Reads k ∧ off ∈ XeUserClient.regsOf k := by
  unfold Call.regs at h
  cases ha : c.args with
  | none =>
    rw [ha] at h
    exact nomatch h
  | some a =>
    rw [ha] at h
    dsimp only at h
    split at h
    · rename_i hok
      refine ⟨c.selector, ?_, ⟨a, rfl, hok.1, ha, hok.2.1, hok.2.2⟩, h⟩
      unfold XeUserClient.regsOf at h
      split at h
      · exact Or.inl (by assumption)
      · split at h
        · exact Or.inr (Or.inl (by assumption))
        · split at h
          · exact Or.inr (Or.inr (by assumption))
          · exact nomatch h
    · exact nomatch h

/-! ## Strict-safe mode and the sampler registers -/

/-- **The call reads a register that is no sampler register**: it is
accepted, and the first such register of its list is below the length. -/
def Call.LeavesSampler (L : UInt64) (c : Call) : Prop :=
  c.Reads 3 ∧ 0x14 < L ∨ c.Reads 4 ∧ 0xA024 < L ∨ c.Reads 5 ∧ 0x60000 < L

/-- The register meant is the first one of the list outside the sampler's. -/
theorem leavesSampler_iff (L : UInt64) (c : Call) :
    c.LeavesSampler L ↔ ∃ k off, (k = 3 ∨ k = 4 ∨ k = 5) ∧ c.Reads k
      ∧ off ∈ XeUserClient.regsOf k ∧ off ∉ samplerOffs ∧ off.toUInt64 < L := by
  have hfirst : ∀ {k off}, k = 3 ∨ k = 4 ∨ k = 5 → off ∈ XeUserClient.regsOf k →
      off ∉ samplerOffs →
        (if k = 3 then 0x14 else if k = 4 then 0xA024 else 0x60000) ≤ off.toUInt64 :=
    forall_regsOf (X := fun k off => off ∉ samplerOffs →
      (if k = 3 then 0x14 else if k = 4 then 0xA024 else 0x60000) ≤ off.toUInt64) (by decide)
  constructor
  · rintro (⟨hc, hL⟩ | ⟨hc, hL⟩ | ⟨hc, hL⟩)
    · exact ⟨3, 0x14, by decide, hc, by decide, by decide, hL⟩
    · exact ⟨4, 0xA024, by decide, hc, by decide, by decide, hL⟩
    · exact ⟨5, 0x60000, by decide, hc, by decide, by decide, hL⟩
  · rintro ⟨k, off, rfl | rfl | rfl, hc, hmem, hnot, hL⟩
    · have hle : 0x14 ≤ off.toUInt64 := hfirst (by decide) hmem hnot
      exact Or.inl ⟨hc, UInt64.lt_of_le_of_lt hle hL⟩
    · have hle : 0xA024 ≤ off.toUInt64 := hfirst (by decide) hmem hnot
      exact Or.inr (Or.inl ⟨hc, UInt64.lt_of_le_of_lt hle hL⟩)
    · have hle : 0x60000 ≤ off.toUInt64 := hfirst (by decide) hmem hnot
      exact Or.inr (Or.inr ⟨hc, UInt64.lt_of_le_of_lt hle hL⟩)

/-- **When a strict-safe session reads the sampler registers only**: exactly
if there is no mapping, or no call is accepted that reads another register
below the length of the BAR. -/
theorem strictSafe_iff (P : Platform) (calls : List Call)
    (hstrict : P.flags.strictSafe = true) :
    (∀ path off v, .read path off v ∈ history P calls → off ∈ samplerOffs)
      ↔ ∀ map, P.mapped = some map → ∀ c ∈ calls, ¬c.LeavesSampler map.length := by
  constructor
  · intro hall map hmap c hc hleaves
    obtain ⟨k, off, hk, hreads, hmem, hnot, hlen⟩ := (leavesSampler_iff _ _).mp hleaves
    have hoff : off ≤ kMaxSafeMmioOffset := regsOf_le hk hmem
    obtain ⟨e, he, v, rfl⟩ := (happened_session hmap hc hk hreads hmem hoff hlen).mem
    rw [← history_eq] at he
    exact hnot (hall _ _ _ he)
  · -- a read past the sampler is on the list of some call, below the length
    intro hcalls path off v he
    by_contra hnot
    have hstart : ∀ g : XeBootFlags, g.strictSafe = true →
        ∀ p ∈ startTouches g, p.2.off ∈ samplerOffs := by
      decide
    have hrcs0 : ∀ g : XeBootFlags, g.strictSafe = true → rcs0Touches g false = [] := by
      decide
    obtain ⟨map, hmap, hX, hbound⟩ := history_all
      (X := fun t => t.off ∈ samplerOffs
        ∨ t.path = .readReg ∧ ∃ c ∈ calls, t.off ∈ c.regs)
      (fun p hp => Or.inl (hstart _ hstrict p hp))
      (fun p hp => by rw [hrcs0 _ hstrict] at hp; exact nomatch hp)
      (fun c hc off hoff => Or.inr ⟨rfl, c, hc, hoff⟩) he rfl
    rcases hX with hmem | ⟨hpath, c, hc, hmem⟩
    · exact hnot hmem
    · obtain ⟨k, hk, hreads, hmem⟩ := Call.reads_of_mem_regs hmem
      exact hcalls map hmap c hc
        ((leavesSampler_iff _ _).mpr ⟨k, off, hk, hreads, hmem, hnot, hbound hpath⟩)

/-- A call of an entry that reads registers, as the table wants it. -/
def Call.reading (k : UInt32) : Call where
  client := ⟨true⟩
  selector := k
  args := some ⟨fun _ => 0, 0, fun _ => 0, 8, [], []⟩

/-- The boot argument `xepci=strictsafe`. -/
def strictsafeArg : BootArg := ⟨tokenStrictsafe, by decide, by decide⟩

/-- A platform booted with `xepci=strictsafe`, with a BAR of a given
length. -/
def strictPlatform (L : UInt64) : Platform :=
  { Platform.ideal with
    bootArg := some strictsafeArg
    bar0 := some ⟨L, 0x1000⟩ }

/-- On a BAR that ends before the display registers, a display query stays
with the sampler registers. -/
theorem strictSafe_iff_shortBar :
    (strictPlatform 0x60000).flags.strictSafe = true
      ∧ ∀ path off v, .read path off v ∈ history (strictPlatform 0x60000) [.reading 5] →
        off ∈ samplerOffs := by
  have hstrict : (strictPlatform 0x60000).flags.strictSafe = true := by decide
  refine ⟨hstrict, (strictSafe_iff (strictPlatform 0x60000) [.reading 5] hstrict).mpr ?_⟩
  rintro map hmap c hc hleaves
  cases hmap
  cases List.mem_singleton.mp hc
  rcases hleaves with ⟨⟨a, ha⟩, -⟩ | ⟨⟨a, ha⟩, -⟩ | ⟨-, hlt⟩
  · exact absurd ha.selector (by decide)
  · exact absurd ha.selector (by decide)
  · exact absurd hlt (by decide)

/-- **In strict-safe mode a client's `kMethodReadReg` reads `0x14`**, which
is no sampler register. -/
theorem strictSafe_reads_past_sampler :
    ¬∀ path off v, .read path off v ∈ history (strictPlatform 0x1000000) [.reading 3] →
      off ∈ samplerOffs := by
  intro hall
  have hread : .read .readReg 0x14 0 ∈ history (strictPlatform 0x1000000) [.reading 3] := by
    decide
  exact absurd (hall _ _ _ hread) (by decide)

/-! ## Registers of the GT and forcewake -/

/-- **A read of an engine or GT power-management register**, other than a
guard's own poll. -/
def Touch.isGtRead (t : Touch) : Bool :=
  t.written.isNone
    && (0x2000 ≤ t.off && t.off ≤ 0x2FFF || 0xA000 ≤ t.off && t.off ≤ 0xAFFF)
    && !(t.path == .guardRdWr && t.off == XeHW.forcewakeAck)

/-- **Since the history was `h₀`, every such read was made under a guard**
that had `acquired` set and was not yet released. -/
def GuardedSince (h₀ hist : List MmioEvent) : Prop :=
  ∀ e h, e :: h <:+ hist → h₀ <:+ h →
    ∀ t, e.touch? = some t → t.isGtRead = true → GuardPhase.of h = .awake

section Guarded

variable {P : Platform} {calls : List Call} {map : IOMemoryMap}

/-- `start` reads `PGTBL_CTL`, whatever the hardware answers. -/
theorem happened_probe_pgtblCtl {m : UInt64} (hm : m ≠ 0) (s : Machine) :
    Happened (fun e => ∃ v, e = .read .ggttSafeRead XeHW.pgtblCtl v) s
      ((XeGGTT.probe m).run (exec P) s).2 := by
  unfold XeGGTT.probe XeGGTT.safeRead
  rw [if_neg hm]
  exact .bind_left (happened_checkedRead hm (by decide) s ⟨_, rfl⟩)

/-- Accesses through the accessors that are used with no guard alive. -/
def GuardPhase.IdleAccess (φ : GuardPhase) (t : Touch) : Prop :=
  t.path = .readReg ∨ t.path = .ggttSafeRead → φ = .idle

/-- Only the command stream reads while a guard is alive. -/
theorem idle_of_history {e : MmioEvent} {h : List MmioEvent} (he : e :: h <:+ history P calls)
    {t : Touch} (ht : e.touch? = some t)
    (hpath : t.path = .readReg ∨ t.path = .ggttSafeRead) : GuardPhase.of h = .idle := by
  have hstart : ∀ g, ∀ p ∈ startTouches g,
      p.2.path = .readReg ∨ p.2.path = .ggttSafeRead → p.1 = .idle := by
    decide
  have hrcs0 : ∀ g, ∀ p ∈ rcs0Touches g false,
      p.2.path = .readReg ∨ p.2.path = .ggttSafeRead → p.1 = .idle := by
    decide
  obtain ⟨-, -, hidle, -⟩ := @session_allowed P (fun _ => True) GuardPhase.IdleAccess false
    calls P.firstPoll_true (fun h => nomatch h) (fun _ => hstart P.flags)
    (fun _ _ _ => forall_mem_touches.mpr ⟨hrcs0 P.flags, fun _ _ _ => rfl⟩) e h he t ht
  exact hidle hpath

/-- `start` does not hold a guard where it should: a session that gets its
mapping has read `PGTBL_CTL` without one. -/
theorem not_guardedSince_of_mapped (hmap : P.mapped = some map)
    (hstrict : P.flags.strictSafe = false) : ¬GuardedSince [] (history P calls) := by
  obtain ⟨-, -, -, -, hva⟩ := mapped_eq_some hmap
  obtain ⟨e, he, v, rfl⟩ := happened_started_probe hmap hstrict
    (happened_probe_pgtblCtl hva)
  obtain ⟨after, before, hsplit⟩ :=
    List.append_of_mem ((started_suffix_history P calls).subset he)
  have hsuf : .read .ggttSafeRead XeHW.pgtblCtl v :: before <:+ history P calls :=
    ⟨after, hsplit.symm⟩
  intro hall
  have hawake := hall _ _ hsuf List.nil_suffix _ rfl (by decide)
  have hidle := idle_of_history hsuf rfl (Or.inr rfl)
  exact absurd (hidle.symm.trans hawake) (by decide)

/-- The calls that read a GT register below the length. -/
def Call.LeavesForcewake (L : UInt64) (c : Call) : Prop :=
  (c.Reads 3 ∨ c.Reads 4) ∧ 0xA024 < L

theorem leavesForcewake_iff (L : UInt64) (c : Call) :
    c.LeavesForcewake L ↔ ∃ k off, (k = 3 ∨ k = 4 ∨ k = 5) ∧ c.Reads k
      ∧ off ∈ XeUserClient.regsOf k
      ∧ Touch.isGtRead { path := .readReg, off } = true ∧ off.toUInt64 < L := by
  constructor
  · rintro ⟨hc | hc, hL⟩
    · exact ⟨3, 0xA024, by decide, hc, by decide, by decide, hL⟩
    · exact ⟨4, 0xA024, by decide, hc, by decide, by decide, hL⟩
  · rintro ⟨k, off, hk, hc, hmem, hgt, hL⟩
    obtain ⟨hk5, hle⟩ := forall_regsOf (X := fun k off =>
      Touch.isGtRead { path := .readReg, off } = true → k ≠ 5 ∧ 0xA024 ≤ off.toUInt64)
      (by decide) hk hmem hgt
    refine ⟨?_, UInt64.lt_of_le_of_lt hle hL⟩
    rcases hk with rfl | rfl | rfl
    · exact Or.inl hc
    · exact Or.inr hc
    · exact absurd rfl hk5

/-- A GT register is read under a guard, or asked for past the length. -/
def GuardPhase.GuardedAccess (L : UInt64) (φ : GuardPhase) (t : Touch) : Prop :=
  t.isGtRead = true → φ = .awake ∨ t.path = .readReg ∧ L ≤ t.off.toUInt64

/-- The calls read under forcewake, unless one is accepted that reads a GT
register below the length: then that read is made without a guard. -/
theorem guardedSince_started_iff (hmap : P.mapped = some map)
    (hfw : P.flags.disableForcewake = false)
    (hack : P.FirstPoll ForcewakeGuard.Acknowledges) :
    GuardedSince P.started.hist (history P calls)
      ↔ ∀ c ∈ calls, ¬c.LeavesForcewake map.length := by
  obtain ⟨-, -, -, hlen, hva⟩ := mapped_eq_some hmap
  constructor
  · intro hall c hc hleaves
    obtain ⟨k, off, hk, hreads, hmem, hgt, hL⟩ := (leavesForcewake_iff _ _).mp hleaves
    have hoff : off ≤ kMaxSafeMmioOffset := regsOf_le hk hmem
    obtain ⟨e, h, ⟨v, rfl⟩, hbase, hsuf⟩ := happened_session hmap hc hk hreads hmem hoff hL
    rw [← history_eq] at hsuf
    have hawake := hall _ _ hsuf hbase _ rfl hgt
    exact absurd ((idle_of_history hsuf rfl (Or.inl rfl)).symm.trans hawake) (by decide)
  · intro hcalls e h he hbase t ht hgt
    have hrcs0 : ∀ g : XeBootFlags, g.disableForcewake = false →
        ∀ p ∈ rcs0Touches g true, p.2.isGtRead = true → p.1 = .awake := by
      decide
    have hallowed : ∀ c ∈ calls, ∀ p ∈ c.touches P.flags true,
        p.1.GuardedAccess map.length p.2 := by
      intro c hc
      refine forall_mem_touches.mpr ⟨fun p hp hgt => Or.inl (hrcs0 _ hfw p hp hgt), ?_⟩
      intro off hoff hgt
      obtain ⟨k, hk, hreads, hmem⟩ := Call.reads_of_mem_regs hoff
      refine Or.inr ⟨rfl, UInt64.not_lt.mp fun hlt => hcalls c hc ?_⟩
      exact (leavesForcewake_iff _ _).mpr ⟨k, off, hk, hreads, hmem, hgt, hlt⟩
    -- `start` itself has read GT registers, so the run is followed from its end on
    have hready := started_ready hmap
    have hself := P.started.within_self (GuardPhase.GuardedAccess map.length)
    rw [hready.boot, hready.mmio, hready.length, hready.phase] at hself
    obtain ⟨φ, hrun, -⟩ := (obeys_serve (fun _ _ h => h) calls fun _ => hallowed).within hack hself
    rw [history_eq] at he
    rcases hrun.allowed e h he hbase t ht hgt with hawake | ⟨hpath, hle⟩
    · exact hawake
    · have hlt := hrun.bounded hlen e h he hbase t ht hpath
      exact absurd hlt (UInt64.not_lt.mpr hle)

end Guarded

/-- **When GT registers are read under forcewake.** On hardware that
acknowledges every request at the first poll, with neither `noforcewake`
nor `strictsafe` set: the whole session reads them under a guard exactly if
`start` gets no mapping – otherwise it has read `PGTBL_CTL` without one –
and its calls do exactly if none is accepted that reads one of them through
`readReg` below the length of the BAR. -/
theorem guardedSince_iff (P : Platform) (calls : List Call)
    (hfw : P.flags.disableForcewake = false) (hstrict : P.flags.strictSafe = false)
    (hack : P.FirstPoll ForcewakeGuard.Acknowledges) :
    (GuardedSince [] (history P calls) ↔ P.mapped = none)
      ∧ ∀ map, P.mapped = some map →
        (GuardedSince P.started.hist (history P calls)
          ↔ ∀ c ∈ calls, ¬c.LeavesForcewake map.length) := by
  refine ⟨⟨fun hall => ?_, fun hnone e h he _ t ht _ => ?_⟩,
    fun map hmap => guardedSince_started_iff hmap hfw hack⟩
  · cases hmap : P.mapped with
    | none => rfl
    | some map => exact absurd hall (not_guardedSince_of_mapped hmap hstrict)
  · -- without a mapping there is no access
    obtain ⟨map, hmap, -⟩ := @session_allowed P (fun _ => True) (fun _ _ => True) false calls
      P.firstPoll_true (fun h => nomatch h) (fun _ _ _ => trivial) (fun _ _ _ _ _ => trivial)
      e h he t ht
    exact nomatch hnone.symm.trans hmap

/-- Hardware that reads as `1` everywhere, and so acknowledges at once. -/
def oddPlatform : Platform := Platform.ideal.withHw fun _ _ => 1

theorem oddPlatform_firstPoll : oddPlatform.FirstPoll ForcewakeGuard.Acknowledges :=
  fun _ _ => by
    show ForcewakeGuard.Acknowledges 1
    exact ⟨by decide, by decide⟩

/-- A call of `kMethodSubmit`, as the table wants it. -/
def Call.submitting : Call where
  client := ⟨true⟩
  selector := XeUserClient.kMethodSubmit
  args := some ⟨fun _ => 0, 0, fun _ => 0, 0, [], []⟩

/-- A submission reads the ring under its guard. -/
theorem guardedSince_iff_submit :
    GuardedSince oddPlatform.started.hist (history oddPlatform [.submitting]) := by
  refine ((guardedSince_iff oddPlatform [.submitting] (by decide) (by decide)
    oddPlatform_firstPoll).2 _ rfl).mpr ?_
  rintro c hc ⟨⟨a, ha⟩ | ⟨a, ha⟩, -⟩ <;> cases List.mem_singleton.mp hc
  · exact absurd ha.selector (by decide)
  · exact absurd ha.selector (by decide)

/-- **`start` reads `PGTBL_CTL` with no guard alive**, on hardware that
would acknowledge one at once. -/
theorem pgtblCtl_read_unguarded : ¬GuardedSince [] (history oddPlatform []) := by
  intro hall
  have hread : .read .ggttSafeRead XeHW.pgtblCtl 1 :: (history oddPlatform []).drop 18
      <:+ history oddPlatform [] :=
    ⟨(history oddPlatform []).take 17, by decide⟩
  have hawake := hall _ _ hread List.nil_suffix _ rfl (by decide)
  exact absurd hawake (by decide)
