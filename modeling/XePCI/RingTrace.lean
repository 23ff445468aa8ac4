import XePCI.Footprint
import XePCI.Verdicts

/-!
# The accesses of `logRcs0State`

The one function that holds a forcewake guard while it reads does the same
thing at the BAR whatever the hardware answers, but for three choices: how
often the guard polls, whether the last two registers are read, and whether
the guard is released. Each is made by the values read before it, and none
depends on which of its exits the function takes – the guard is destroyed on
all of them.

`logRcs0State_trace` says so for every device: the request; the polls, up to
the first one that is answered with an odd value, and 50 at most; the
registers of the ring; and the release, last of all, exactly if the guard
was acknowledged.
-/

open ForcewakeGuard (IsErrorValue LastPoll acksAfter pollEvents requested)

variable {P : Platform} {s : Machine} {m : UInt64}

theorem accesses_append (es hist : List MmioEvent) :
    accesses (es ++ hist) = accesses es ++ accesses hist :=
  List.filter_append es hist

/-- Reads are accesses. -/
theorem accesses_of_reads {es : List MmioEvent}
    (h : ∀ e ∈ es, ∃ path off val, e = .read path off val) : accesses es = es := by
  refine List.filter_eq_self.mpr fun e he => ?_
  obtain ⟨path, off, val, rfl⟩ := h e he
  rfl

/-- **The construction of a guard** that is not switched off: the request, the
polls, and what they conclude. -/
theorem ForcewakeGuard.run_make_polls (hm : m ≠ 0)
    (hon : (s.gXeBoot.disableForcewake || s.gXeBoot.strictSafe) = false) :
    ∃ k b, LastPoll (acksAfter P (requested s).hist) 50 k
      ∧ (b = true ↔ acksAfter P (requested s).hist k &&& 1 ≠ 0
        ∧ ¬IsErrorValue (acksAfter P (requested s).hist k))
      ∧ (make m).run (exec P) s = (⟨m, b⟩, { s with
          hist := .guardOutcome b
            :: ((pollEvents (acksAfter P (requested s).hist) (k + 1)).reverse
              ++ (requested s).hist) }) := by
  obtain ⟨k, b, hlast, hb, hpolls⟩ := run_poll_polls P hm 49 (requested s)
  refine ⟨k, b, hlast, hb, ?_⟩
  rw [run_make_of_enabled P s hm hon, run_acquire P s hm, hpolls]
  rfl

namespace XeCommandStream

/-- What `logRcs0State` adds to the history that the construction of its guard
leaves. -/
theorem hist_logRcs0State (hm : m ≠ 0)
    (hon : (s.gXeBoot.disableCommandStream || s.gXeBoot.strictSafe) = false) {b : Bool}
    {t : Machine} (hmake : (ForcewakeGuard.make m).run (exec P) s = (⟨m, b⟩, t)) :
    ((logRcs0State m).run (exec P) s).2.hist
      = (if b then [.write .guardRdWr XeHW.forcewakeReq forcewakeClear] else [])
        ++ ((P.reads .csSafeRd t.hist (rcs0Offs P t.hist)).reverse ++ t.hist) := by
  obtain ⟨exit, hread, -⟩ := run_readRcs0 (P := P) (s := t) hm
  unfold logRcs0State ForcewakeGuard.scope
  rw [if_neg hm, Prog.run_bind, Prog.run_perform, exec_loadBoot,
    if_neg (Bool.eq_false_iff.mp hon), if_neg (by decide), Prog.run_bind, hmake, Prog.run_bind,
    hread, Prog.run_bind]
  show ((ForcewakeGuard.destroy ⟨m, b⟩).run (exec P) _).2.hist = _
  rw [ForcewakeGuard.run_destroy P _ hm]
  cases b <;> rfl

/-- **The accesses of `logRcs0State`**, in the order they are made, if neither
the command stream nor forcewake is switched off. -/
theorem logRcs0State_trace (P : Platform) (s : Machine) {m : UInt64} (hm : m ≠ 0)
    (hcs : s.gXeBoot.disableCommandStream = false) (hfw : s.gXeBoot.disableForcewake = false)
    (hstrict : s.gXeBoot.strictSafe = false) :
    ∃ k, LastPoll (acksAfter P (requested s).hist) 50 k
      ∧ (accesses ((logRcs0State m).run (exec P) s).2.hist).reverse
        = (accesses s.hist).reverse
          ++ [.write .guardRdWr XeHW.forcewakeReq 0x00010001]
          ++ pollEvents (acksAfter P (requested s).hist) (k + 1)
          ++ P.reads .csSafeRd ((ForcewakeGuard.make m).run (exec P) s).2.hist
            (rcs0Offs P ((ForcewakeGuard.make m).run (exec P) s).2.hist)
          ++ if acksAfter P (requested s).hist k &&& 1 ≠ 0
                ∧ ¬IsErrorValue (acksAfter P (requested s).hist k)
              then [.write .guardRdWr XeHW.forcewakeReq 0x00010000] else [] := by
  obtain ⟨k, b, hlast, hb, hmake⟩ := ForcewakeGuard.run_make_polls (P := P) (s := s) hm
    (by rw [hfw, hstrict]; rfl)
  refine ⟨k, hlast, ?_⟩
  rw [hist_logRcs0State hm (by rw [hcs, hstrict]; rfl) hmake, hmake]
  have hring (hist : List MmioEvent) (offs : List UInt32) :
      accesses (P.reads .csSafeRd hist offs).reverse = (P.reads .csSafeRd hist offs).reverse :=
    accesses_of_reads fun e he =>
      ⟨.csSafeRd, Platform.eq_read_of_mem_reads (List.mem_reverse.mp he)⟩
  have hpolls : accesses (pollEvents (acksAfter P (requested s).hist) (k + 1)).reverse
      = (pollEvents (acksAfter P (requested s).hist) (k + 1)).reverse := by
    refine accesses_of_reads fun e he => ?_
    obtain ⟨j, -, rfl⟩ := List.mem_map.mp (List.mem_reverse.mp he)
    exact ⟨_, _, _, rfl⟩
  -- of what the construction adds, the outcome is no access
  have hmade : accesses (.guardOutcome b
        :: ((pollEvents (acksAfter P (requested s).hist) (k + 1)).reverse ++ (requested s).hist))
      = (pollEvents (acksAfter P (requested s).hist) (k + 1)).reverse
        ++ .write .guardRdWr XeHW.forcewakeReq 0x00010001 :: accesses s.hist := by
    show accesses (_ ++ _) = _
    rw [accesses_append, hpolls]
    rfl
  rw [accesses_append, accesses_append, hring, hmade]
  simp only [List.reverse_append, List.reverse_cons, List.reverse_reverse, List.append_assoc]
  cases b with
  | true =>
    rw [if_pos (hb.mp rfl)]
    rfl
  | false =>
    rw [if_neg fun hacked => Bool.false_ne_true (hb.mpr hacked)]
    rfl

/-- On a device that reads as `1` everywhere: one poll, all five registers,
and the release. -/
theorem logRcs0State_trace_ones :
    (accesses ((logRcs0State 0x1000).run (exec (Platform.ideal.withHw fun _ _ => 1))
        .fresh).2.hist).reverse
      = [.write .guardRdWr XeHW.forcewakeReq 0x00010001, .read .guardRdWr XeHW.forcewakeAck 1,
        .read .csSafeRd XeHW.rcs0RingHead 1, .read .csSafeRd XeHW.rcs0RingTail 1,
        .read .csSafeRd XeHW.rcs0RingCtl 1, .read .csSafeRd XeHW.rcs0MiMode 1,
        .read .csSafeRd XeHW.gfxMode 1, .write .guardRdWr XeHW.forcewakeReq 0x00010000] := by
  obtain ⟨k, hlast, htrace⟩ := logRcs0State_trace (Platform.ideal.withHw fun _ _ => 1) .fresh
    (m := 0x1000) (by decide) rfl rfl rfl
  have hk : k = 0 := Nat.eq_zero_of_not_pos fun hpos => absurd (hlast.even 0 hpos) (by decide)
  subst hk
  exact htrace.trans (by decide)

end XeCommandStream
