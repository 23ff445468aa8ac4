import XePCI.CommandStream

/-!
# Values that look like errors

The accessors report a refused access in the value they return: `0xDEADBEEF`
for a null mapping and `0xBAD0FFFF` for an offset out of range. On a mapping,
and at the offsets the driver uses, no access is refused, so whatever the
callers see is what the hardware holds; but they cannot tell, and a register
that holds one of the two values passes for a failure.

Each of the four callers is wrong exactly then (`verdicts_iff`): the probe
and the information about the GGTT for `PGTBL_CTL`, the command stream for
the head, the tail and the control register of its ring, and a guard for its
acknowledgment – where it matters most, since both values are odd and so
acknowledge the request.
-/

open ForcewakeGuard (IsErrorValue)

variable {P : Platform} {s : Machine} {m : UInt64}

/-! ## The GGTT -/

namespace XeGGTT

theorem run_safeRead_pgtblCtl (hm : m ≠ 0) :
    (safeRead m XeHW.pgtblCtl).run (exec P) s = s.readDword P .ggttSafeRead XeHW.pgtblCtl :=
  run_checkedRead P s .ggttSafeRead hm (by decide)

/-- **The probe fails exactly if `PGTBL_CTL` holds an error value.** -/
theorem run_probe_fst_iff (hm : m ≠ 0) :
    ((probe m).run (exec P) s).1 = true ↔ ¬IsErrorValue (P.hw s.hist XeHW.pgtblCtl) := by
  unfold probe
  rw [if_neg hm, Prog.run_bind, run_safeRead_pgtblCtl hm]
  split
  · rename_i herr
    exact ⟨fun h => absurd h Bool.false_ne_true, fun h => absurd herr h⟩
  · rename_i herr
    refine ⟨fun _ => herr, fun _ => ?_⟩
    -- the other reads do not matter
    rw [Prog.run_bind, Prog.run_bind]
    split
    · rw [Prog.run_bind, Prog.run_bind]
      rfl
    · rfl

/-- So does `getInfo`. -/
theorem run_getInfo_fst_iff (hm : m ≠ 0) :
    ((getInfo m).run (exec P) s).1.isValid = true
      ↔ ¬IsErrorValue (P.hw s.hist XeHW.pgtblCtl) := by
  unfold getInfo
  rw [if_neg hm, Prog.run_bind, run_safeRead_pgtblCtl hm]
  split
  · rename_i herr
    exact ⟨fun h => absurd h Bool.false_ne_true, fun h => absurd herr h⟩
  · rename_i herr
    exact ⟨fun _ => herr, fun _ => rfl⟩

end XeGGTT

/-! ## The ring -/

namespace XeCommandStream

/-- The head, the tail and the control register of the ring, as they are read
one after another after a history. -/
def ringValues (P : Platform) (hist : List MmioEvent) : List UInt32 :=
  let head := P.hw hist XeHW.rcs0RingHead
  let hist := .read .csSafeRd XeHW.rcs0RingHead head :: hist
  let tail := P.hw hist XeHW.rcs0RingTail
  let hist := .read .csSafeRd XeHW.rcs0RingTail tail :: hist
  [head, tail, P.hw hist XeHW.rcs0RingCtl]

/-- **The exit says that an access was refused.** -/
def Rcs0Exit.RefusedAccess : Rcs0Exit → Prop
  | nullMmio | badOffsets | nullDuringRead | outOfRange => True
  | disabled | completed _ _ => False

instance : DecidablePred Rcs0Exit.RefusedAccess
  | .nullMmio | .badOffsets | .nullDuringRead | .outOfRange => isTrue trivial
  | .disabled | .completed _ _ => isFalse id

theorem run_safeRd (hm : m ≠ 0) {off : UInt32} (hoff : ¬kMaxSafeMmioOffset < off) :
    (safeRd m off).run (exec P) s = s.readDword P .csSafeRd off :=
  run_checkedRead P s .csSafeRd hm hoff

/-- The registers that are read under the guard after a history: the last two
only if none of the first three holds an error value. -/
def rcs0Offs (P : Platform) (hist : List MmioEvent) : List UInt32 :=
  [XeHW.rcs0RingHead, XeHW.rcs0RingTail, XeHW.rcs0RingCtl]
    ++ if ∃ v ∈ ringValues P hist, IsErrorValue v then [] else [XeHW.rcs0MiMode, XeHW.gfxMode]

/-- The source asks for the null mapping's value first, and for the other one
if it finds none. -/
theorem exists_isErrorValue_iff (head tail ctl : UInt32) :
    (∃ v ∈ [head, tail, ctl], IsErrorValue v)
      ↔ (head = kSentinelNullMmio ∨ tail = kSentinelNullMmio ∨ ctl = kSentinelNullMmio)
        ∨ ¬(head = kSentinelNullMmio ∨ tail = kSentinelNullMmio ∨ ctl = kSentinelNullMmio)
          ∧ (head = kSentinelOutOfRange ∨ tail = kSentinelOutOfRange
            ∨ ctl = kSentinelOutOfRange) := by
  rw [or_and_left, and_iff_right (Classical.em _)]
  simp only [List.exists_mem_cons_iff, List.not_mem_nil, false_and, exists_false, or_false]
  unfold IsErrorValue
  rw [@or_or_or_comm (tail = _), @or_or_or_comm (head = _)]

/-- **What is read under the guard**, and when it is taken for a refused
access: exactly if one of the three values is an error value. -/
theorem run_readRcs0 (hm : m ≠ 0) :
    ∃ exit, (readRcs0 m).run (exec P) s
        = (exit, s.readDwords P .csSafeRd (rcs0Offs P s.hist))
      ∧ (exit.RefusedAccess ↔ ∃ v ∈ ringValues P s.hist, IsErrorValue v) := by
  have hread (off : UInt32) (hoff : ¬kMaxSafeMmioOffset < off) (t : Machine) :
      (safeRd m off).run (exec P) t = t.readDword P .csSafeRd off := run_safeRd hm hoff
  have hvalues : (∃ v ∈ ringValues P s.hist, IsErrorValue v) ↔ _ :=
    exists_isErrorValue_iff (s.readDword P .csSafeRd XeHW.rcs0RingHead).1
      ((s.readDword P .csSafeRd XeHW.rcs0RingHead).2.readDword P .csSafeRd XeHW.rcs0RingTail).1
      (((s.readDword P .csSafeRd XeHW.rcs0RingHead).2.readDword P .csSafeRd
        XeHW.rcs0RingTail).2.readDword P .csSafeRd XeHW.rcs0RingCtl).1
  unfold readRcs0 rcs0Offs
  rw [Prog.run_bind, hread _ (by decide), Prog.run_bind, hread _ (by decide), Prog.run_bind,
    hread _ (by decide)]
  simp only [List.cons_append, List.nil_append, Machine.readDwords_cons]
  by_cases herr : ∃ v ∈ ringValues P s.hist, IsErrorValue v
  · rw [if_pos herr]
    rcases hvalues.mp herr with hnull | ⟨hnull, hrange⟩
    · rw [if_pos hnull]
      exact ⟨_, rfl, iff_of_true trivial herr⟩
    · rw [if_neg hnull, if_pos hrange]
      exact ⟨_, rfl, iff_of_true trivial herr⟩
  · have hnull := fun h => herr (hvalues.mpr (Or.inl h))
    have hrange := fun h => herr (hvalues.mpr (Or.inr ⟨hnull, h⟩))
    rw [if_neg herr, if_neg hnull, if_neg hrange, if_pos (by decide), Prog.run_bind,
      hread _ (by decide), Prog.run_bind, hread _ (by decide)]
    exact ⟨_, rfl, iff_of_false id herr⟩

/-- **`logRcs0State` reports a refused access exactly if** the command stream
is on and one of the three registers, read once the guard is constructed,
holds an error value. -/
theorem run_logRcs0State_fst_iff (hm : m ≠ 0) :
    ((logRcs0State m).run (exec P) s).1.RefusedAccess
      ↔ (s.gXeBoot.disableCommandStream || s.gXeBoot.strictSafe) = false
        ∧ ∃ v ∈ ringValues P ((ForcewakeGuard.make m).run (exec P) s).2.hist, IsErrorValue v := by
  unfold logRcs0State
  rw [if_neg hm, Prog.run_bind, Prog.run_perform, exec_loadBoot]
  split
  · rename_i hoff
    exact iff_of_false id fun h => absurd (h.1.symm.trans hoff) Bool.false_ne_true
  · rename_i hon
    obtain ⟨exit, hread, hexit⟩ := run_readRcs0 (P := P)
      (s := ((ForcewakeGuard.make m).run (exec P) s).2) hm
    unfold ForcewakeGuard.scope
    rw [if_neg (by decide), ← hexit, Prog.run_bind, Prog.run_bind, Prog.run_bind, hread]
    exact (and_iff_right (Bool.eq_false_iff.mpr hon)).symm

end XeCommandStream

/-! ## The guard -/

namespace ForcewakeGuard

/-- **`acquire` misses an acknowledgment exactly if** the first odd value it
reads is an error value. -/
theorem run_acquire_fst_iff (hm : m ≠ 0) :
    ((∃ k < 50, acksAfter P (requested s).hist k &&& 1 ≠ 0) →
        ((acquire m).run (exec P) s).1.acquired = true)
      ↔ ∀ k < 50, (∀ j < k, acksAfter P (requested s).hist j &&& 1 = 0) →
        ¬IsErrorValue (acksAfter P (requested s).hist k) := by
  obtain ⟨k, b, hlast, hb, hpolls⟩ := run_poll_polls P hm 49 (requested s)
  rw [run_acquire P s hm, hpolls]
  show (_ → b = true) ↔ _
  rw [hb]
  constructor
  · intro hacquired i hi heven herr
    -- the loop ends at the first odd value, and that is this one
    obtain rfl := hlast.eq_of_odd hi heven herr.odd
    exact (hacquired ⟨i, hi, herr.odd⟩).2 herr
  · intro hgenuine hexists
    exact ⟨hlast.odd_of_exists hexists, hgenuine k hlast.lt hlast.even⟩

end ForcewakeGuard

/-- **Error verdicts come from rejected accesses exactly if no register that
is looked at holds an error value**: `PGTBL_CTL` for the probe and for
`getInfo`; one of the three registers of the ring, where the command stream
is on, for `logRcs0State`; and for a guard its first odd acknowledgment. -/
theorem verdicts_iff (P : Platform) (s : Machine) {m : UInt64} (hm : m ≠ 0) :
    (((XeGGTT.probe m).run (exec P) s).1 = true ↔ ¬IsErrorValue (P.hw s.hist XeHW.pgtblCtl))
      ∧ (((XeGGTT.getInfo m).run (exec P) s).1.isValid = true
        ↔ ¬IsErrorValue (P.hw s.hist XeHW.pgtblCtl))
      ∧ (((XeCommandStream.logRcs0State m).run (exec P) s).1.RefusedAccess
        ↔ (s.gXeBoot.disableCommandStream || s.gXeBoot.strictSafe) = false
          ∧ ∃ v ∈ XeCommandStream.ringValues P ((ForcewakeGuard.make m).run (exec P) s).2.hist,
            IsErrorValue v)
      ∧ (((∃ k < 50, ForcewakeGuard.acksAfter P (ForcewakeGuard.requested s).hist k &&& 1 ≠ 0) →
          ((ForcewakeGuard.acquire m).run (exec P) s).1.acquired = true)
        ↔ ∀ k < 50,
          (∀ j < k, ForcewakeGuard.acksAfter P (ForcewakeGuard.requested s).hist j &&& 1 = 0) →
            ¬IsErrorValue (ForcewakeGuard.acksAfter P (ForcewakeGuard.requested s).hist k)) :=
  ⟨XeGGTT.run_probe_fst_iff hm, XeGGTT.run_getInfo_fst_iff hm,
    XeCommandStream.run_logRcs0State_fst_iff hm, ForcewakeGuard.run_acquire_fst_iff hm⟩

/-- A device on which every register reads as `1`. -/
def onesPlatform : Platform := Platform.ideal.withHw fun _ _ => 1

/-- It passes every test: the probe succeeds, the GGTT is valid, no access of the
command stream was refused, and a guard is acquired. -/
theorem verdicts_iff_ones :
    ((XeGGTT.probe 0x1000).run (exec onesPlatform) .fresh).1 = true
      ∧ ((XeGGTT.getInfo 0x1000).run (exec onesPlatform) .fresh).1.isValid = true
      ∧ ¬((XeCommandStream.logRcs0State 0x1000).run (exec onesPlatform) .fresh).1.RefusedAccess
      ∧ ((ForcewakeGuard.acquire 0x1000).run (exec onesPlatform) .fresh).1.acquired = true := by
  obtain ⟨hprobe, hinfo, hring, hacquire⟩ :=
    verdicts_iff onesPlatform .fresh (by decide : (0x1000 : UInt64) ≠ 0)
  refine ⟨hprobe.mpr (by decide), hinfo.mpr (by decide), fun h => ?_, hacquire.mpr ?_ ?_⟩
  · exact absurd (hring.mp h).2 (by decide)
  · -- the first acknowledgment is odd already
    intro k _ heven
    cases k with
    | zero => decide
    | succ k => exact absurd (heven 0 (Nat.succ_pos k)) (by decide)
  · exact ⟨0, by decide, by decide⟩

/-- **A device that holds `0xDEADBEEF` everywhere.** On a mapping, the probe
fails, the GGTT is not valid, the command stream reports a null mapping, and
a guard is not acquired although its first acknowledgment is odd. -/
theorem deadbeef_is_no_error :
    ¬(((XeGGTT.probe 0x1000).run
          (exec (Platform.ideal.withHw fun _ _ => 0xDEADBEEF)) .fresh).1 = true
      ∨ ((XeGGTT.getInfo 0x1000).run
          (exec (Platform.ideal.withHw fun _ _ => 0xDEADBEEF)) .fresh).1.isValid = true
      ∨ ¬((XeCommandStream.logRcs0State 0x1000).run
          (exec (Platform.ideal.withHw fun _ _ => 0xDEADBEEF)) .fresh).1.RefusedAccess
      ∨ ((ForcewakeGuard.acquire 0x1000).run
          (exec (Platform.ideal.withHw fun _ _ => 0xDEADBEEF)) .fresh).1.acquired = true) := by
  decide
