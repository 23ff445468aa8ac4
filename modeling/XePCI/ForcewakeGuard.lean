import XePCI.Machine

/-!
# The forcewake guard

`ForcewakeGuard` is an RAII guard: its constructor asks the power
controller to keep the GT awake and polls for the acknowledgment, its
destructor withdraws the request. The guard's two fields are the mapping
it was given and whether it was acknowledged.

A scope that holds a guard is `ForcewakeGuard.scope`: construct, run the
body, destruct – which is what the C++ scope does on every one of its
exits.

The request register is not read by the driver. Its value is a function of
what was written to it (`forcewakeReqAfter`), under the rule the source's
comment states: the upper half of a written value selects the bits that
the lower half replaces. Whether a guard's life leaves that register as it
found it depends on the whole sequence of acknowledgments:
`balanced_iff` is the exact answer. The destructor releases only what
`acquire` saw acknowledged, so a request that is answered late, never, or
with a value `acquire` takes for a failed read stays asserted.
-/

/-- The guard's fields. -/
structure ForcewakeGuard where
  /-- The mapping, `m`. -/
  m : UInt64
  /-- Whether `acquire` was acknowledged. -/
  acquired : Bool
  deriving DecidableEq, Repr

namespace ForcewakeGuard

/-- `ForcewakeGuard::rd`. -/
def rd : UInt64 → UInt32 → Kext UInt32 := checkedRead .guardRdWr

/-- `ForcewakeGuard::wr`. -/
def wr (m : UInt64) (off v : UInt32) : Kext Unit := do
  if m = 0 then return ()
  if kMaxSafeMmioOffset < off then return ()
  req (.mmioWrite .guardRdWr m off v)

/-- Whether `acquire` takes an acknowledgment value for a failed read. -/
def IsErrorValue (ack : UInt32) : Prop :=
  ack = kSentinelNullMmio ∨ ack = kSentinelOutOfRange

instance : DecidablePred IsErrorValue :=
  fun _ => inferInstanceAs (Decidable (_ ∨ _))

/-- The polling loop of `acquire`, with the iterations that are left:
whether it ends with `acquired` set. -/
def poll (m : UInt64) : ℕ → Kext Bool
  | 0 => return false
  | n + 1 => do
    let ack ← rd m XeHW.forcewakeAck
    if IsErrorValue ack then return false
    if ack &&& 1 ≠ 0 then return true
    poll m n

/-- `ForcewakeGuard::acquire`: write the request, then poll at most 50
times. -/
def acquire (m : UInt64) : Kext ForcewakeGuard := do
  wr m XeHW.forcewakeReq forcewakeSet
  let acquired ← poll m 50
  req (.guardOutcome acquired)
  return ⟨m, acquired⟩

/-- The constructor. -/
def make (mmio : UInt64) : Kext ForcewakeGuard := do
  if mmio = 0 then return ⟨mmio, false⟩
  let gXeBoot ← req .loadBoot
  if gXeBoot.disableForcewake || gXeBoot.strictSafe then return ⟨mmio, false⟩
  if kMaxSafeMmioOffset < XeHW.forcewakeReq ∨ kMaxSafeMmioOffset < XeHW.forcewakeAck then
    return ⟨mmio, false⟩
  acquire mmio

/-- `ForcewakeGuard::release`. -/
def release (fw : ForcewakeGuard) : Kext Unit := do
  if fw.m = 0 then return ()
  wr fw.m XeHW.forcewakeReq forcewakeClear

/-- The destructor. -/
def destroy (fw : ForcewakeGuard) : Kext Unit := do
  if fw.acquired ∧ fw.m ≠ 0 then fw.release

/-- **A scope that holds a guard**: whichever way the body ends, the guard
is destroyed after it. -/
def scope {α : Type} (mmio : UInt64) (body : ForcewakeGuard → Kext α) : Kext α := do
  let fw ← make mmio
  let a ← body fw
  fw.destroy
  return a

/-- A guard's life with nothing in between: construct, destruct. -/
def lifetime (mmio : UInt64) : Kext Unit := do
  let fw ← make mmio
  fw.destroy

end ForcewakeGuard

/-! ## The request register -/

/-- A write to a register whose upper half is a mask: the bits selected by
`v >> 16` are replaced by those of `v & 0xFFFF`. -/
def maskedWrite (r v : UInt32) : UInt32 :=
  (r &&& ~~~(v >>> 16)) ||| ((v &&& (0xFFFF : UInt32)) &&& (v >>> 16))

/-- **The value of `FORCEWAKE_REQ`** after a history, from its initial
value. -/
def forcewakeReqAfter (r₀ : UInt32) : List MmioEvent → UInt32
  | [] => r₀
  | .write _ off v :: hist =>
    if off = XeHW.forcewakeReq then maskedWrite (forcewakeReqAfter r₀ hist) v
    else forcewakeReqAfter r₀ hist
  | .read _ _ _ :: hist | .guardOutcome _ :: hist => forcewakeReqAfter r₀ hist

/-- The request of a guard sets bit 0 and keeps the others. -/
theorem maskedWrite_set (r : UInt32) :
    maskedWrite r forcewakeSet = (r &&& ~~~1) ||| 1 := by
  unfold maskedWrite
  rw [show forcewakeSet >>> 16 = 1 by decide,
    show forcewakeSet &&& (0xFFFF : UInt32) &&& 1 = 1 by decide]

/-- The release of a guard clears bit 0 and keeps the others. -/
theorem maskedWrite_clear (r : UInt32) :
    maskedWrite r forcewakeClear = r &&& ~~~1 := by
  unfold maskedWrite
  rw [show forcewakeClear >>> 16 = 1 by decide,
    show forcewakeClear &&& (0xFFFF : UInt32) &&& 1 = 0 by decide, UInt32.or_zero]

/-- Conjunction distributes over disjunction, bit by bit. -/
theorem UInt32.or_and_distrib (x y z : UInt32) : (x ||| y) &&& z = x &&& z ||| y &&& z := by
  refine UInt32.toBitVec_inj.mp ?_
  simp only [UInt32.toBitVec_and, UInt32.toBitVec_or]
  exact BitVec.and_or_distrib_right

/-- A cleared bit 0 reads as `0`. -/
theorem and_not_one_and_one (r : UInt32) : r &&& ~~~1 &&& 1 = 0 := by
  rw [UInt32.and_assoc, show (~~~1 : UInt32) &&& 1 = 0 by decide, UInt32.and_zero]

/-- A set bit 0 reads as `1`. -/
theorem set_one_and_one (r : UInt32) : (r &&& ~~~1 ||| 1) &&& 1 = 1 := by
  rw [UInt32.or_and_distrib, and_not_one_and_one, UInt32.and_self, UInt32.zero_or]

/-- Clearing bit 0 twice is clearing it once. -/
theorem and_not_one_idem (r : UInt32) : r &&& ~~~1 &&& ~~~1 = r &&& ~~~1 := by
  rw [UInt32.and_assoc, UInt32.and_self]

/-- Setting bit 0 leaves the other bits. -/
theorem set_one_and_not_one (r : UInt32) :
    (r &&& ~~~1 ||| 1) &&& ~~~1 = r &&& ~~~1 := by
  rw [UInt32.or_and_distrib, and_not_one_idem, show (1 : UInt32) &&& ~~~1 = 0 by decide,
    UInt32.or_zero]

/-- A poll's read does not write the request register. -/
theorem forcewakeReqAfter_polls (r₀ : UInt32) {es : List MmioEvent}
    (h : ∀ e ∈ es, ∃ v, e = .read .guardRdWr XeHW.forcewakeAck v)
    (hist : List MmioEvent) :
    forcewakeReqAfter r₀ (es ++ hist) = forcewakeReqAfter r₀ hist := by
  induction es with
  | nil => rfl
  | cons e es ih =>
    obtain ⟨v, rfl⟩ := h e List.mem_cons_self
    exact ih (fun e' he' => h e' (List.mem_cons_of_mem _ he'))

/-! ## The acknowledgments a guard sees -/

/-- Whether an event is a guard's poll of `FORCEWAKE_ACK`. -/
def MmioEvent.isPoll : MmioEvent → Bool
  | .read .guardRdWr off _ => off == XeHW.forcewakeAck
  | _ => false

/-- The platform whose hardware answers the `n`-th poll with `acks n`. -/
def Platform.withAcks (P : Platform) (acks : ℕ → UInt32) : Platform :=
  { P with
    hw := fun hist off =>
      if off = XeHW.forcewakeAck then acks (hist.countP MmioEvent.isPoll)
      else P.hw hist off }

namespace ForcewakeGuard

/-- The first odd answer comes within the first `n` polls, and it is not
one of the values taken for a failed read. -/
def AckedWithin (acks : ℕ → UInt32) (n : ℕ) : Prop :=
  ∃ k < n, (∀ j < k, acks j &&& 1 = 0) ∧ acks k &&& 1 ≠ 0 ∧ ¬IsErrorValue (acks k)

/-- **A history leaves no request behind**: bit 0 of `FORCEWAKE_REQ` ends
clear, or was not asked for, and the other bits end as they were. -/
def LeavesNoRequest (r₀ : UInt32) (hist : List MmioEvent) : Prop :=
  (forcewakeReqAfter r₀ hist &&& 1 = 0
      ∨ .write .guardRdWr XeHW.forcewakeReq forcewakeSet ∉ hist)
    ∧ forcewakeReqAfter r₀ hist &&& ~~~1 = r₀ &&& ~~~1

instance (r₀ : UInt32) (hist : List MmioEvent) : Decidable (LeavesNoRequest r₀ hist) :=
  inferInstanceAs (Decidable ((_ ∨ _) ∧ _))

section Run

variable (P : Platform) (s : Machine) {m : UInt64}

/-- A poll's read goes through: the offset is in the accessor's range. -/
theorem run_rd_ack (hm : m ≠ 0) :
    (rd m XeHW.forcewakeAck).run (exec P) s = s.readDword P .guardRdWr XeHW.forcewakeAck :=
  run_checkedRead P s .guardRdWr hm (by decide)

/-- A request is written: the offset is in the accessor's range. -/
theorem run_wr_req (hm : m ≠ 0) (v : UInt32) :
    (wr m XeHW.forcewakeReq v).run (exec P) s
      = ((), { s with hist := .write .guardRdWr XeHW.forcewakeReq v :: s.hist }) := by
  unfold wr
  rw [if_neg hm, if_neg (by decide)]
  exact Prog.run_perform _ _ _

/-- One iteration of the polling loop. -/
theorem run_poll_succ (hm : m ≠ 0) (n : ℕ) :
    (poll m (n + 1)).run (exec P) s
      = if IsErrorValue (s.readDword P .guardRdWr XeHW.forcewakeAck).1 then
          (false, (s.readDword P .guardRdWr XeHW.forcewakeAck).2)
        else if (s.readDword P .guardRdWr XeHW.forcewakeAck).1 &&& 1 ≠ 0 then
          (true, (s.readDword P .guardRdWr XeHW.forcewakeAck).2)
        else (poll m n).run (exec P) (s.readDword P .guardRdWr XeHW.forcewakeAck).2 := by
  rw [poll, Prog.run_bind, run_rd_ack P s hm, Prog.run_ite, Prog.run_ite]
  rfl

end Run

/-- Both error values are odd, so a poll that sees one has seen its first
odd answer. -/
theorem IsErrorValue.odd {ack : UInt32} (h : IsErrorValue ack) : ack &&& 1 ≠ 0 := by
  rcases h with rfl | rfl <;> decide

/-- The answers a polling loop is going to get after a history, poll by
poll, if it does not end. -/
def acksAfter (P : Platform) : List MmioEvent → ℕ → UInt32
  | hist, 0 => P.hw hist XeHW.forcewakeAck
  | hist, k + 1 =>
    acksAfter P (.read .guardRdWr XeHW.forcewakeAck (P.hw hist XeHW.forcewakeAck) :: hist) k

section Polls

variable {P : Platform} {s : Machine} {m : UInt64}

/-- An odd answer ends the loop, acknowledged or, taken for an error, not. -/
theorem run_poll_of_odd (hm : m ≠ 0) (n : ℕ) (hodd : acksAfter P s.hist 0 &&& 1 ≠ 0) :
    (poll m (n + 1)).run (exec P) s
      = (decide ¬IsErrorValue (acksAfter P s.hist 0),
          (s.readDword P .guardRdWr XeHW.forcewakeAck).2) := by
  rw [run_poll_succ P s hm]
  by_cases herr : IsErrorValue (acksAfter P s.hist 0)
  · rw [decide_eq_false (not_not.mpr herr)]
    exact if_pos herr
  · rw [decide_eq_true herr]
    exact (if_neg herr).trans (if_pos hodd)

/-- An even one does not. -/
theorem run_poll_of_even (hm : m ≠ 0) (n : ℕ) (heven : acksAfter P s.hist 0 &&& 1 = 0) :
    (poll m (n + 1)).run (exec P) s
      = (poll m n).run (exec P) (s.readDword P .guardRdWr XeHW.forcewakeAck).2 := by
  have herr : ¬IsErrorValue (acksAfter P s.hist 0) := fun h => h.odd heven
  rw [run_poll_succ P s hm]
  exact (if_neg herr).trans (if_neg (not_not.mpr heven))

end Polls

/-- **The `k`-th of `n` polls is the last**: those before it are answered
with even values, and it is answered with an odd one or there is none after
it. -/
structure LastPoll (acks : ℕ → UInt32) (n k : ℕ) : Prop where
  lt : k < n
  even : ∀ j < k, acks j &&& 1 = 0
  ends : acks k &&& 1 ≠ 0 ∨ k + 1 = n

/-- An odd first answer ends the polling at once. -/
theorem LastPoll.zero {acks : ℕ → UInt32} (n : ℕ) (hodd : acks 0 &&& 1 ≠ 0) :
    LastPoll acks (n + 1) 0 :=
  ⟨Nat.succ_pos n, fun j hj => absurd hj (Nat.not_lt_zero j), Or.inl hodd⟩

/-- After an even one the others decide. -/
theorem LastPoll.succ {acks : ℕ → UInt32} {n k : ℕ} (heven : acks 0 &&& 1 = 0)
    (h : LastPoll (fun j => acks (j + 1)) n k) : LastPoll acks (n + 1) (k + 1) := by
  refine ⟨Nat.succ_lt_succ h.lt, fun j hj => ?_, h.ends.imp_right (congrArg Nat.succ)⟩
  cases j with
  | zero => exact heven
  | succ j => exact h.even j (Nat.lt_of_succ_lt_succ hj)

/-- The first odd answer ends the polling. -/
theorem LastPoll.eq_of_odd {acks : ℕ → UInt32} {n k i : ℕ} (h : LastPoll acks n k) (hi : i < n)
    (heven : ∀ j < i, acks j &&& 1 = 0) (hodd : acks i &&& 1 ≠ 0) : i = k := by
  rcases Nat.lt_trichotomy i k with hlt | heq | hlt
  · exact absurd (h.even i hlt) hodd
  · exact heq
  · rcases h.ends with hodd' | hlast
    · exact absurd (heven k hlt) hodd'
    · omega

/-- If any answer is odd, the last one is. -/
theorem LastPoll.odd_of_exists {acks : ℕ → UInt32} {n k : ℕ} (h : LastPoll acks n k)
    (hodd : ∃ i < n, acks i &&& 1 ≠ 0) : acks k &&& 1 ≠ 0 := by
  obtain ⟨i, hi, hne⟩ := hodd
  rcases h.ends with hk | hlast
  · exact hk
  · rcases Nat.lt_or_eq_of_le (Nat.le_of_lt_succ (hlast ▸ hi)) with hlt | rfl
    · exact absurd (h.even i hlt) hne
    · exact hne

/-- The last poll decides. -/
theorem LastPoll.ackedWithin_iff {acks : ℕ → UInt32} {n k : ℕ} (h : LastPoll acks n k) :
    AckedWithin acks n ↔ acks k &&& 1 ≠ 0 ∧ ¬IsErrorValue (acks k) := by
  constructor
  · rintro ⟨i, hi, heven, hodd, herr⟩
    obtain rfl := h.eq_of_odd hi heven hodd
    exact ⟨hodd, herr⟩
  · rintro ⟨hodd, herr⟩
    exact ⟨k, h.lt, h.even, hodd, herr⟩

/-- The first `k` polls, oldest first. -/
def pollEvents (acks : ℕ → UInt32) (k : ℕ) : List MmioEvent :=
  (List.range k).map fun j => .read .guardRdWr XeHW.forcewakeAck (acks j)

theorem pollEvents_succ (acks : ℕ → UInt32) (k : ℕ) :
    pollEvents acks (k + 1)
      = .read .guardRdWr XeHW.forcewakeAck (acks 0) :: pollEvents (fun j => acks (j + 1)) k := by
  unfold pollEvents
  rw [List.range_succ_eq_map, List.map_cons, List.map_map]
  rfl

/-- **What the polling loop does**: it polls up to and with its last poll,
concludes from that, and changes nothing else. By induction on the
iterations that are left. -/
theorem run_poll_polls (P : Platform) {m : UInt64} (hm : m ≠ 0) (n : ℕ) (s : Machine) :
    ∃ k b, LastPoll (acksAfter P s.hist) (n + 1) k
      ∧ (b = true ↔ acksAfter P s.hist k &&& 1 ≠ 0 ∧ ¬IsErrorValue (acksAfter P s.hist k))
      ∧ (poll m (n + 1)).run (exec P) s = (b, { s with
          hist := (pollEvents (acksAfter P s.hist) (k + 1)).reverse ++ s.hist }) := by
  induction n generalizing s with
  | zero =>
    by_cases hodd : acksAfter P s.hist 0 &&& 1 ≠ 0
    · refine ⟨0, _, .zero 0 hodd, ?_, run_poll_of_odd hm 0 hodd⟩
      rw [decide_eq_true_iff, and_iff_right hodd]
    · refine ⟨0, _, ⟨Nat.one_pos, fun j hj => absurd hj (Nat.not_lt_zero j), Or.inr rfl⟩, ?_,
        run_poll_of_even hm 0 (not_not.mp hodd)⟩
      exact iff_of_false Bool.false_ne_true fun h => hodd h.1
  | succ n ih =>
    by_cases hodd : acksAfter P s.hist 0 &&& 1 ≠ 0
    · refine ⟨0, _, .zero (n + 1) hodd, ?_, run_poll_of_odd hm (n + 1) hodd⟩
      rw [decide_eq_true_iff, and_iff_right hodd]
    · have heven := not_not.mp hodd
      obtain ⟨k, b, hlast, hb, hrun⟩ := ih (s.readDword P .guardRdWr XeHW.forcewakeAck).2
      refine ⟨k + 1, b, .succ heven hlast, hb, ?_⟩
      rw [run_poll_of_even hm (n + 1) heven, hrun, pollEvents_succ (acksAfter P s.hist),
        List.reverse_cons, List.append_assoc]
      rfl

/-- **What the polling loop concludes**, from the answers to come: it is
acknowledged exactly if the first odd one of its `n` polls is not an error
value. -/
theorem run_poll_fst_iff (P : Platform) {m : UInt64} (hm : m ≠ 0) (n : ℕ) (s : Machine) :
    ((poll m n).run (exec P) s).1 = true ↔ AckedWithin (acksAfter P s.hist) n := by
  cases n with
  | zero =>
    exact iff_of_false Bool.false_ne_true fun ⟨k, hk, _⟩ => Nat.not_lt_zero k hk
  | succ n =>
    obtain ⟨k, b, hlast, hb, hrun⟩ := run_poll_polls P hm n s
    rw [hrun, hlast.ackedWithin_iff]
    exact hb

/-- Whatever it sees, it adds nothing but reads of `FORCEWAKE_ACK`. -/
theorem run_poll_snd (P : Platform) (s : Machine) {m : UInt64} (hm : m ≠ 0) (n : ℕ) :
    ∃ es : List MmioEvent, (∀ e ∈ es, ∃ v, e = .read .guardRdWr XeHW.forcewakeAck v)
      ∧ ((poll m n).run (exec P) s).2 = { s with hist := es ++ s.hist } := by
  cases n with
  | zero => exact ⟨[], List.forall_mem_nil _, rfl⟩
  | succ n =>
    obtain ⟨k, b, -, -, hrun⟩ := run_poll_polls P hm n s
    refine ⟨_, fun e he => ?_, congrArg Prod.snd hrun⟩
    obtain ⟨j, -, rfl⟩ := List.mem_map.mp (List.mem_reverse.mp he)
    exact ⟨_, rfl⟩

/-- With the acknowledgments given by their number. -/
theorem acksAfter_withAcks (P : Platform) (acks : ℕ → UInt32) (hist : List MmioEvent) :
    acksAfter (P.withAcks acks) hist = fun j => acks (hist.countP MmioEvent.isPoll + j) := by
  funext j
  induction j generalizing hist with
  | zero => simp only [acksAfter, Platform.withAcks, if_true, Nat.add_zero]
  | succ j ih =>
    rw [acksAfter, ih, List.countP_cons_of_pos rfl]
    simp only [Nat.add_assoc, Nat.add_comm 1]

theorem run_poll_fst (P : Platform) (acks : ℕ → UInt32) {m : UInt64} (hm : m ≠ 0)
    (n : ℕ) (s : Machine) :
    ((poll m n).run (exec (P.withAcks acks)) s).1 = true
      ↔ AckedWithin (fun j => acks (s.hist.countP MmioEvent.isPoll + j)) n := by
  rw [run_poll_fst_iff _ hm, acksAfter_withAcks]

/-! ## What a guard's life leaves behind -/

section Lifetime

variable (P : Platform) (s : Machine) {m : UInt64}

/-- Switched off by the flags, a guard does nothing. -/
theorem run_make_of_disabled (hm : m ≠ 0)
    (h : (s.gXeBoot.disableForcewake || s.gXeBoot.strictSafe) = true) :
    (make m).run (exec P) s = (⟨m, false⟩, s) := by
  unfold make
  rw [if_neg hm, Prog.run_bind, Prog.run_perform, exec_loadBoot, if_pos h]
  rfl

/-- Otherwise it asks and polls. -/
theorem run_make_of_enabled (hm : m ≠ 0)
    (h : (s.gXeBoot.disableForcewake || s.gXeBoot.strictSafe) = false) :
    (make m).run (exec P) s = (acquire m).run (exec P) s := by
  unfold make
  rw [if_neg hm, Prog.run_bind, Prog.run_perform, exec_loadBoot,
    if_neg (by rw [h]; exact Bool.false_ne_true), if_neg (by decide)]

/-- The machine on which the polling starts. -/
def requested (s : Machine) : Machine :=
  { s with hist := .write .guardRdWr XeHW.forcewakeReq forcewakeSet :: s.hist }

/-- `acquire` ends with what the polls concluded. -/
theorem run_acquire (hm : m ≠ 0) :
    (acquire m).run (exec P) s
      = (⟨m, ((poll m 50).run (exec P) (requested s)).1⟩,
          { ((poll m 50).run (exec P) (requested s)).2 with
            hist := .guardOutcome ((poll m 50).run (exec P) (requested s)).1
              :: ((poll m 50).run (exec P) (requested s)).2.hist }) := by
  unfold acquire
  rw [Prog.run_bind, run_wr_req P s hm, Prog.run_bind, Prog.run_bind]
  rfl

/-- The destructor writes the release if the guard was acknowledged, and
nothing otherwise. -/
theorem run_destroy (hm : m ≠ 0) (b : Bool) :
    ((destroy ⟨m, b⟩).run (exec P) s).2.hist
      = if b then .write .guardRdWr XeHW.forcewakeReq forcewakeClear :: s.hist
        else s.hist := by
  unfold destroy release
  cases b with
  | true =>
    rw [if_pos ⟨rfl, hm⟩, if_pos rfl, if_neg hm, run_wr_req P s hm]
  | false =>
    rw [if_neg (fun h => Bool.false_ne_true h.1), if_neg Bool.false_ne_true]
    rfl

/-- **The request register after a guard's life**, if the guard is not
switched off: as it was found but for bit 0, which is clear exactly if the
guard was acknowledged. -/
theorem reqAfter_lifetime (r₀ : UInt32) (hm : m ≠ 0)
    (h : (s.gXeBoot.disableForcewake || s.gXeBoot.strictSafe) = false) :
    forcewakeReqAfter r₀ ((lifetime m).run (exec P) s).2.hist
      = if ((poll m 50).run (exec P) (requested s)).1 = true
          then forcewakeReqAfter r₀ s.hist &&& ~~~1
          else (forcewakeReqAfter r₀ s.hist &&& ~~~1) ||| 1 := by
  obtain ⟨es, hes, hpoll⟩ := run_poll_snd P (requested s) hm 50
  have hset : forcewakeReqAfter r₀ ((poll m 50).run (exec P) (requested s)).2.hist
      = (forcewakeReqAfter r₀ s.hist &&& ~~~1) ||| 1 := by
    rw [hpoll, forcewakeReqAfter_polls r₀ hes, ← maskedWrite_set]
    rfl
  unfold lifetime
  rw [Prog.run_bind, run_make_of_enabled P s hm h, run_acquire P s hm, run_destroy P _ hm]
  split
  · rw [forcewakeReqAfter, if_pos rfl, maskedWrite_clear, forcewakeReqAfter, hset,
      set_one_and_not_one]
  · rw [forcewakeReqAfter, hset]

/-- A guard that is not switched off asks. -/
theorem request_mem_lifetime (hm : m ≠ 0)
    (h : (s.gXeBoot.disableForcewake || s.gXeBoot.strictSafe) = false) :
    .write .guardRdWr XeHW.forcewakeReq forcewakeSet
      ∈ ((lifetime m).run (exec P) s).2.hist := by
  obtain ⟨es, -, hpoll⟩ := run_poll_snd P (requested s) hm 50
  have hmem : MmioEvent.write .guardRdWr XeHW.forcewakeReq forcewakeSet
      ∈ ((poll m 50).run (exec P) (requested s)).2.hist := by
    rw [hpoll]
    exact List.mem_append_right es List.mem_cons_self
  unfold lifetime
  rw [Prog.run_bind, run_make_of_enabled P s hm h, run_acquire P s hm, run_destroy P _ hm]
  split
  · exact List.mem_cons_of_mem _ (List.mem_cons_of_mem _ hmem)
  · exact List.mem_cons_of_mem _ hmem

end Lifetime

/-- **When a guard's life is balanced.** From any value of the request
register and on any acknowledgments, constructing and destroying a guard
leaves no request behind exactly if the guard is switched off by the boot
flags or the first odd answer of its 50 polls comes and is not taken for a
failed read. -/
theorem balanced_iff (P : Platform) (acks : ℕ → UInt32) (s : Machine) (r₀ : UInt32)
    {m : UInt64} (hm : m ≠ 0) :
    LeavesNoRequest r₀
        ((lifetime m).run (exec (P.withAcks acks)) { s with hist := [] }).2.hist
      ↔ s.gXeBoot.disableForcewake = true ∨ s.gXeBoot.strictSafe = true
        ∨ AckedWithin acks 50 := by
  set s₀ : Machine := { s with hist := [] } with hs₀
  by_cases hoff : (s₀.gXeBoot.disableForcewake || s₀.gXeBoot.strictSafe) = true
  · -- switched off: nothing was asked for
    have hrun : ((lifetime m).run (exec (P.withAcks acks)) s₀).2.hist = [] := by
      unfold lifetime
      rw [Prog.run_bind, run_make_of_disabled _ _ hm hoff, run_destroy _ _ hm]
      rfl
    rw [hrun]
    rw [Bool.or_eq_true] at hoff
    refine ⟨fun _ => hoff.elim Or.inl (fun h => Or.inr (Or.inl h)), fun _ => ?_⟩
    exact ⟨Or.inr List.not_mem_nil, rfl⟩
  · have hon : (s₀.gXeBoot.disableForcewake || s₀.gXeBoot.strictSafe) = false := by
      simpa using hoff
    have hacked := run_poll_fst P acks hm 50 (requested s₀)
    have hreq := reqAfter_lifetime (P.withAcks acks) s₀ r₀ hm hon
    have hmem := request_mem_lifetime (P.withAcks acks) s₀ hm hon
    have hflags : s.gXeBoot.disableForcewake = false ∧ s.gXeBoot.strictSafe = false := by
      simpa using hon
    rw [hflags.1, hflags.2]
    simp only [Bool.false_eq_true, false_or]
    -- the guard asked, so only a release can clear the bit
    have hcount : (requested s₀).hist.countP MmioEvent.isPoll = 0 := rfl
    simp only [hcount, Nat.zero_add] at hacked
    rw [← hacked]
    unfold LeavesNoRequest
    rw [hreq]
    constructor
    · rintro ⟨hbit | hno, -⟩
      · by_contra hnot
        rw [if_neg hnot, set_one_and_one] at hbit
        exact absurd hbit (by decide)
      · exact absurd hmem hno
    · intro h
      rw [if_pos h]
      exact ⟨Or.inl (and_not_one_and_one _), and_not_one_idem _⟩

/-- A guard that is acknowledged at its second poll gives its request back. -/
theorem balanced_iff_second_poll :
    LeavesNoRequest 4 ((lifetime 4096).run
      (exec (Platform.ideal.withAcks (fun n => if n = 1 then 1 else 0)))
      { Machine.fresh with hist := [] }).2.hist :=
  (balanced_iff .ideal (fun n => if n = 1 then 1 else 0) .fresh 4 (by decide)).mpr
    (Or.inr (Or.inr ⟨1, by decide, by decide, by decide, by decide⟩))

/-- **A request that is never answered is never withdrawn**: after 50
polls that read `0` the guard gives up, and bit 0 stays set for good. -/
theorem timeout_leaves_request :
    ¬LeavesNoRequest 0 ((lifetime 4096).run (exec (Platform.ideal.withAcks (fun _ => 0)))
      { Machine.fresh with hist := [] }).2.hist := by
  decide

end ForcewakeGuard
