import XePCI.AbstractService
import XePCI.UnmapRaces

/-!
# Registers read while the service goes down

A call that reads registers tests the pointer once, and then reads eight
registers through `readReg`, which tests it again every time. Nothing keeps a
shutdown from clearing the pointer in between; what does the caller get? A
success, always: the registers that were read before, as the device answered
them and in this order, and the null sentinel for each of the others. There
is one cut and nothing is mixed, since the pointer, once cleared, stays null.

Between the release of the mapping and the clearing of the pointer there is a
moment at which a register would be read through a mapping that is gone. The
two are therefore taken to be one step of the shutdown (`UnmapsAtOnce`), as a
test of the pointer and the access after it are one of the call.

The call is followed on its own (`ReadPhase`), among calls and shutdowns of
which all it has to know is that they never set the pointer and leave the
length of the BAR alone (`KextOp.unwires`).
-/

open XeService

/-! ## What the others may do -/

/-- Whether a request leaves the length of the BAR alone and sets the pointer
to null, if it sets it at all. -/
def KextOp.unwires : KextOp → Bool
  | setBar0Length _ => false
  | setMmio p => p == 0
  | _ => true

/-- Such a request leaves a null pointer null, and adds to the history at
most. -/
theorem exec_unwires (P : Platform) {o : KextOp} (h : o.unwires = true) (s : Machine) :
    (exec P o s).2.bar0Length = s.bar0Length ∧ (s.mmio = 0 → (exec P o s).2.mmio = 0)
      ∧ s.hist <:+ (exec P o s).2.hist := by
  have hhist : s.hist <:+ (exec P o s).2.hist := hist_suffix_run P (req o) s
  cases hwiring : o.keepsWiring with
  | true =>
    have hkept := exec_wiring P hwiring s
    simp only [Prod.mk.injEq] at hkept
    exact ⟨hkept.2.2, hkept.2.1.trans, hhist⟩
  | false =>
    cases o with
    | setBar0 map => exact ⟨rfl, id, hhist⟩
    | setMmio p => exact ⟨rfl, fun _ => eq_of_beq h, hhist⟩
    | setBar0Length length => exact absurd h Bool.false_ne_true
    | _ => exact absurd hwiring.symm Bool.false_ne_true

/-- The program only issues such requests. -/
def Unwires {α : Type} (p : Kext α) : Prop := p.Issues (fun o => o.unwires = true)

theorem unwires_call (c : Call) : Unwires c.prog :=
  (issues_call c).imp fun o ho => by
    cases o <;> first | rfl | exact absurd ho Bool.false_ne_true

theorem unwires_stop : Unwires stop :=
  issues_stop.imp fun o ho => by
    cases o <;> first | rfl | exact ho

theorem unwires_clientThread (w : Option Call) : Unwires (clientThread w) := by
  cases w with
  | some c => exact (unwires_call c).map some
  | none => exact unwires_stop.map _

/-! ## The call that reads -/

/-- How far a call that reads registers has come. -/
inductive ReadPhase where
  /-- It has not tested the pointer yet. -/
  | before
  /-- The pointer was null. -/
  | refused
  /-- It has read these registers. -/
  | reading (out : List (UInt32 × UInt32))

/-- The phase after a request and its answer. -/
def ReadPhase.next : ReadPhase → (o : KextOp) → o.Resp → ReadPhase
  | before, .getMmio, m => if m = 0 then refused else reading []
  | reading out, .readRegSafe off, val => reading (out ++ [(off, val)])
  | φ, _, _ => φ

/-- **The monitor of a reading call**: it tests the pointer, and then reads
registers that lie below the fixed limit of `readReg`. -/
def readMonitor : Monitor KextOp KextOp.Resp ReadPhase where
  allows φ
    | .getMmio => φ = .before
    | .readRegSafe off => φ ≠ .before ∧ ¬kMaxSafeMmioOffset < off
    | _ => False
  admits _ _ _ := True
  next := ReadPhase.next

/-- The registers are read one after another, by induction on them. -/
theorem obeys_read_mapM {offs : List UInt32} (hsafe : ∀ off ∈ offs, ¬kMaxSafeMmioOffset < off)
    (out : List (UInt32 × UInt32)) :
    Prog.Obeys readMonitor (.reading out) (offs.mapM readReg)
      (fun φ vals => φ = .reading (out ++ offs.zip vals) ∧ vals.length = offs.length) := by
  induction offs generalizing out with
  | nil => exact ⟨congrArg ReadPhase.reading (List.append_nil out).symm, rfl⟩
  | cons off offs ih =>
    rw [List.mapM_cons]
    refine .perform_bind ⟨fun h => (nomatch h), hsafe off List.mem_cons_self⟩ fun val _ => ?_
    rw [Prog.obeys_bind]
    refine (ih (fun off' hoff' => hsafe off' (List.mem_cons_of_mem off hoff')) _).mono ?_
    rintro φ vals ⟨rfl, hlen⟩
    refine ⟨?_, congrArg Nat.succ hlen⟩
    rw [List.zip_cons_cons, List.append_assoc]
    rfl

theorem obeys_read_readList {offs : List UInt32}
    (hsafe : ∀ off ∈ offs, ¬kMaxSafeMmioOffset < off) :
    Prog.Obeys readMonitor .before (readList offs)
      (fun φ r => r = (.notReady, []) ∧ φ = .refused
        ∨ ∃ vals, r = (.success, vals) ∧ φ = .reading (offs.zip vals)
          ∧ vals.length = offs.length) := by
  unfold readList
  refine .perform_bind rfl fun m _ => ?_
  split
  · rename_i hm
    exact Or.inl ⟨rfl, if_pos hm⟩
  · rename_i hm
    rw [show readMonitor.next .before .getMmio m = .reading [] from if_neg hm, Prog.obeys_bind]
    refine (obeys_read_mapM hsafe []).mono ?_
    rintro φ vals ⟨rfl, hlen⟩
    exact Or.inr ⟨vals, rfl, rfl, hlen⟩

/-! ## What it has read -/

/-- The registers among those read that lie in a BAR of length `L`, as the
accesses they were. -/
def deviceReads (L : UInt64) (out : List (UInt32 × UInt32)) : List MmioEvent :=
  (out.filter fun p => L = 0 ∨ p.1.toUInt64 < L).map fun p => .read .readReg p.1 p.2

/-- **The registers are as the device answered them**, in the order in which
they were read; those past the end of the BAR are the sentinel. -/
structure Snapshot (L : UInt64) (hist : List MmioEvent) (out : List (UInt32 × UInt32)) :
    Prop where
  pastEnd : ∀ p ∈ out, ReadsAs L p.1 p.2
  device : (deviceReads L out).Sublist hist.reverse

section Snapshot

variable {L : UInt64} {hist : List MmioEvent} {out : List (UInt32 × UInt32)}

theorem Snapshot.nil : Snapshot L hist [] := ⟨List.forall_mem_nil _, List.nil_sublist _⟩

theorem Snapshot.mono (h : Snapshot L hist out) {hist' : List MmioEvent} (hhist : hist <:+ hist') :
    Snapshot L hist' out :=
  ⟨h.pastEnd, h.device.trans (List.reverse_prefix.mpr hhist).sublist⟩

/-- One more register, answered by the device. -/
theorem Snapshot.read (h : Snapshot L hist out) {off val : UInt32}
    (hoff : L = 0 ∨ off.toUInt64 < L) :
    Snapshot L (.read .readReg off val :: hist) (out ++ [(off, val)]) := by
  constructor
  · rw [List.forall_mem_append]
    refine ⟨h.pastEnd, List.forall_mem_singleton.mpr fun hL hle => ?_⟩
    exact absurd (hoff.resolve_left hL) (UInt64.not_lt.mpr hle)
  · have hone : deviceReads L [(off, val)] = [.read .readReg off val] := by
      simp [deviceReads, hoff]
    have happ : deviceReads L (out ++ [(off, val)])
        = deviceReads L out ++ [.read .readReg off val] := by
      rw [← hone]
      simp only [deviceReads, List.filter_append, List.map_append]
    rw [happ, List.reverse_cons]
    exact h.device.append_right _

/-- One more register, past the end of the BAR. -/
theorem Snapshot.skip (h : Snapshot L hist out) {off : UInt32} (hL : L ≠ 0)
    (hoff : L ≤ off.toUInt64) : Snapshot L hist (out ++ [(off, kSentinelOutOfRange)]) := by
  constructor
  · rw [List.forall_mem_append]
    exact ⟨h.pastEnd, List.forall_mem_singleton.mpr fun _ _ => rfl⟩
  · have happ : deviceReads L (out ++ [(off, kSentinelOutOfRange)]) = deviceReads L out := by
      have hnot : ¬(L = 0 ∨ off.toUInt64 < L) :=
        not_or.mpr ⟨hL, UInt64.not_lt.mpr hoff⟩
      simp [deviceReads, List.filter_append, hnot]
    rw [happ]
    exact h.device

end Snapshot

/-- The registers read are a snapshot followed by null sentinels, and there
are such only if the pointer is null by now. -/
def CutOff (L : UInt64) (s : Machine) (out : List (UInt32 × UInt32)) : Prop :=
  ∃ (real : List (UInt32 × UInt32)) (lost : List UInt32),
    out = real ++ lost.map (fun off => (off, kSentinelNullMmio))
      ∧ Snapshot L s.hist real ∧ (lost ≠ [] → s.mmio = 0)

/-- What a reading call has seen of the machine. -/
def ReadPhase.Seen (L : UInt64) (s : Machine) : ReadPhase → Prop
  | before => True
  | refused => s.mmio = 0
  | reading out => CutOff L s out

/-- **What a reading call knows** of the machine: the length of the BAR, and
what it has seen. -/
def ReadPhase.Knows (L : UInt64) (φ : ReadPhase) (s : Machine) : Prop :=
  s.bar0Length = L ∧ φ.Seen L s

section Steps

variable {L : UInt64} {s : Machine} {φ : ReadPhase} {o : KextOp}

/-- What the others do it goes on knowing. -/
theorem ReadPhase.Knows.others (P : Platform) (ho : o.unwires = true) (h : φ.Knows L s) :
    φ.Knows L (exec P o s).2 := by
  obtain ⟨hL, h⟩ := h
  obtain ⟨hlength, hnull, hhist⟩ := exec_unwires P ho s
  refine ⟨hlength.trans hL, ?_⟩
  cases φ with
  | before => trivial
  | refused => exact hnull h
  | reading out =>
    obtain ⟨real, lost, hout, hreal, hlost⟩ := h
    exact ⟨real, lost, hout, hreal.mono hhist, fun hne => hnull (hlost hne)⟩

/-- One more register: it is lost if the pointer is null, and otherwise none
was lost before. -/
theorem CutOff.readReg {P : Platform} {out : List (UInt32 × UInt32)}
    (h : CutOff s.bar0Length s out) {off : UInt32} (hoff : ¬kMaxSafeMmioOffset < off) :
    CutOff s.bar0Length (exec P (.readRegSafe off) s).2
      (out ++ [(off, (exec P (.readRegSafe off) s).1)]) := by
  obtain ⟨real, lost, rfl, hreal, hlost⟩ := h
  rw [exec_readRegSafe, Machine.readRegSafe]
  by_cases hnull : s.mmio = 0
  · rw [if_pos hnull]
    refine ⟨real, lost ++ [off], ?_, hreal, fun _ => hnull⟩
    rw [List.map_append, List.append_assoc]
    rfl
  · obtain rfl : lost = [] := Decidable.not_not.mp fun hne => hnull (hlost hne)
    rw [if_neg hnull, if_neg hoff, List.map_nil, List.append_nil]
    by_cases hpast : 0 < s.bar0Length ∧ s.bar0Length ≤ off.toUInt64
    · rw [if_pos hpast]
      exact ⟨_, [], (List.append_nil _).symm,
        hreal.skip (UInt64.pos_iff_ne_zero.mp hpast.1) hpast.2, fun h => absurd rfl h⟩
    · rw [if_neg hpast]
      have hin : s.bar0Length = 0 ∨ off.toUInt64 < s.bar0Length :=
        (Decidable.em (s.bar0Length = 0)).imp_right fun hL =>
          UInt64.not_le.mp fun hle => hpast ⟨UInt64.pos_iff_ne_zero.mpr hL, hle⟩
      exact ⟨_, [], (List.append_nil _).symm, hreal.read hin, fun h => absurd rfl h⟩

theorem unwires_of_allows (ho : readMonitor.allows φ o) : o.unwires = true := by
  cases o with
  | getMmio => rfl
  | readRegSafe off => rfl
  | _ => exact ho.elim

/-- A request of its own it learns the answer of. -/
theorem ReadPhase.Knows.own (P : Platform) (ho : readMonitor.allows φ o) (h : φ.Knows L s) :
    (readMonitor.next φ o (exec P o s).1).Knows L (exec P o s).2 := by
  obtain ⟨hL, hseen⟩ := h
  refine ⟨(exec_unwires P (unwires_of_allows ho) s).1.trans hL, ?_⟩
  subst hL
  cases o with
  | getMmio =>
    obtain rfl : φ = .before := ho
    show ReadPhase.Seen s.bar0Length s (if s.mmio = 0 then .refused else .reading [])
    split
    · assumption
    · exact ⟨[], [], rfl, .nil, fun h => absurd rfl h⟩
  | readRegSafe off =>
    cases φ with
    | before => exact absurd rfl ho.1
    | refused => exact (exec_unwires P rfl s).2.1 hseen
    | reading out => exact CutOff.readReg hseen ho.2
  | _ => exact ho.elim

end Steps

/-! ## In every interleaving -/

/-- A call that asks for registers reads a list of eight. -/
theorem Call.prog_of_read {c : Call} {offs : List UInt32} (h : c.request = .read offs) :
    offs.length = 8 ∧ (∀ off ∈ offs, ¬kMaxSafeMmioOffset < off)
      ∧ reply <$> c.prog
        = Reply.of (fun out => (out.take 8).map UInt32.toUInt64) <$> readList offs := by
  cases c.asks with
  | read offs' hr hlen hsafe hp =>
    obtain rfl : offs' = offs := Request.read.inj (hr.symm.trans h)
    exact ⟨hlen, hsafe, hp⟩
  | refused kr hkr hr hp => exact Request.noConfusion (hr.symm.trans h)
  | createBuffer bytes hr hp => exact Request.noConfusion (hr.symm.trans h)
  | submit hr hp => exact Request.noConfusion (hr.symm.trans h)
  | wait timeoutMs hr hp => exact Request.noConfusion (hr.symm.trans h)

/-- What a reading call knows when it returns. -/
def ReadPhase.Returns (offs : List UInt32) (φ : ReadPhase) (o : Reply) : Prop :=
  o = (.notReady, []) ∧ φ = .refused
    ∨ ∃ vals : List UInt32, o = (.success, vals.map UInt32.toUInt64)
      ∧ φ = .reading (offs.zip vals) ∧ vals.length = offs.length

theorem obeys_read_call {c : Call} {offs : List UInt32} (h : c.request = .read offs) :
    Prog.Obeys readMonitor .before c.prog (fun φ r => φ.Returns offs (reply r)) := by
  obtain ⟨hlen, hsafe, hp⟩ := c.prog_of_read h
  refine (Prog.obeys_map readMonitor .before c.prog reply (ReadPhase.Returns offs)).mp ?_
  rw [hp, Prog.obeys_map]
  refine (obeys_read_readList hsafe).mono ?_
  rintro φ r (⟨rfl, hφ⟩ | ⟨vals, rfl, hφ, hvals⟩)
  · exact Or.inl ⟨rfl, hφ⟩
  · refine Or.inr ⟨vals, ?_, hφ, hvals⟩
    rw [Reply.of_success, List.take_of_length_le (hvals.trans hlen).le]

/-- A call that reads eight registers, and a shutdown. -/
def readAndStop (b : Bool) : Option Call := if b then none else some (.reading 3)

/-- The call reads three registers, the shutdown runs, and the call goes on. -/
def stopAfterThree : List Bool :=
  List.replicate 4 false ++ List.replicate 12 true ++ List.replicate 5 false
