import XePCI.SafeModes

/-!
# Forcewake guards that overlap

There is one request bit and no count of the guards that rely on it. Two
submissions that overlap both set it, and whichever guard is destroyed
first clears it under the other.

The clients' calls are the threads of a pool. Each has a guard of its own,
whose phase is read off the thread's own requests (`guardPhase`), while the
bit is a function of the whole history. A guard that has asked and has not
been released or given up relies on the bit; so the condition is that a
release is written only when no other guard relies on it
(`ReleasesAlone`), and then the bit is set whenever a guard is awake
(`request_held`). Without the condition it is not:
`release_under_other_guard`.
-/

section Pool

variable {ι α : Type} [DecidableEq ι]

/-- The phase the guard of thread `i` is in. -/
def guardPhase (i : ι) : List (ι × (o : KextOp) × o.Resp) → GuardPhase
  | [] => .idle
  | (j, ⟨o, _⟩) :: log => if j = i then (guardPhase i log).next o else guardPhase i log

/-- Whether a request is the release of a guard. -/
def KextOp.isGuardRelease : KextOp → Bool
  | .mmioWrite .guardRdWr _ off val => off == XeHW.forcewakeReq && val == forcewakeClear
  | _ => false

/-- **A guard is released only while no other relies on the request.** -/
def ReleasesAlone (c : KextPool α ι) (i : ι) : Prop :=
  (c.thread i).next?.any KextOp.isGuardRelease = true →
    ∀ j, j ≠ i → guardPhase j c.log = .idle

instance [Fintype ι] (c : KextPool α ι) (i : ι) :
    Decidable (ReleasesAlone c i) :=
  inferInstanceAs (Decidable (_ → ∀ j, j ≠ i → _))

/-- Bit 0 of `FORCEWAKE_REQ` is set after a history. -/
def Requested (r₀ : UInt32) (hist : List MmioEvent) : Prop :=
  forcewakeReqAfter r₀ hist &&& 1 = 1

instance (r₀ : UInt32) (hist : List MmioEvent) : Decidable (Requested r₀ hist) :=
  inferInstanceAs (Decidable (_ = _))

/-- **Every acquired guard has its request**: while a guard has `acquired`
set and was not released, bit 0 of `FORCEWAKE_REQ` is set. -/
def RequestHeld (r₀ : UInt32) (c : KextPool α ι) : Prop :=
  ∀ i, guardPhase i c.log = .awake → Requested r₀ c.shared.hist

/-! ## What the requests of a guard do to the bit -/

/-- The writes are those of a guard. -/
def GuardWrites (φ : GuardPhase) (t : Touch) : Prop := t.written ≠ none → (φ, t) ∈ guardTouches

instance (φ : GuardPhase) (t : Touch) : Decidable (GuardWrites φ t) :=
  inferInstanceAs (Decidable (_ → _))

/-- A call writes what a guard writes, and nothing else. -/
theorem touches_guardWrites (g : XeBootFlags) (c : Call) :
    ∀ p ∈ c.touches g false, GuardWrites p.1 p.2 := by
  have hring : ∀ g, ∀ p ∈ rcs0Touches g false, GuardWrites p.1 p.2 := by decide
  exact forall_mem_touches.mpr ⟨hring g, fun off _ h => absurd rfl h⟩

/-- The monitor of a call: only a guard writes. -/
abbrev callMonitor (g : XeBootFlags) (m : UInt64) : Monitor KextOp KextOp.Resp GuardPhase :=
  footprint g m (fun _ => True) GuardWrites

theorem obeys_callMonitor (g : XeBootFlags) (m : UInt64) (c : Call) :
    Prog.Obeys (callMonitor g m) .idle c.prog (fun φ _ => φ = .idle) :=
  Prog.Obeys.mono (@obeys_call g m _ GuardWrites false (fun h => nomatch h) c
    fun _ => touches_guardWrites g c) fun _ _ hφ => hφ.1

/-- The guard of a thread is in the phase the monitor sees. -/
theorem phases_callMonitor (g : XeBootFlags) (m : UInt64) (c : KextPool α ι) (i : ι) :
    c.phases (callMonitor g m) .idle i = guardPhase i c.log :=
  Monitor.phase_eq (callMonitor g m) guardPhase (fun _ => rfl) (fun _ _ _ _ _ => rfl) i c.log

/-- A guard's request sets the bit. -/
theorem requested_of_set (r₀ : UInt32) (hist : List MmioEvent) :
    Requested r₀ (.write .guardRdWr XeHW.forcewakeReq forcewakeSet :: hist) := by
  unfold Requested
  rw [forcewakeReqAfter, if_pos rfl, maskedWrite_set, set_one_and_one]

/-- **What one request of a call does to the bit**: a guard that relies on
it afterwards has it, and only a release can take it away. -/
theorem exec_requested {P : Platform} {g : XeBootFlags} {m : UInt64} {φ : GuardPhase} {o : KextOp}
    (ho : (callMonitor g m).allows φ o) {r₀ : UInt32} {s : Machine}
    (hs : φ ≠ .idle → Requested r₀ s.hist) :
    (φ.next o ≠ .idle → Requested r₀ (exec P o s).2.hist)
      ∧ (o.isGuardRelease = true
        ∨ (Requested r₀ s.hist → Requested r₀ (exec P o s).2.hist)) := by
  obtain ⟨-, hwrites, houtcome⟩ := ho
  cases o with
  | mmioWrite path m' off val =>
    have hmem := hwrites _ rfl (Option.some_ne_none val)
    simp only [guardTouches, List.mem_cons, Prod.mk.injEq, Touch.mk.injEq, Option.some.injEq,
      List.not_mem_nil, or_false, reduceCtorEq, and_false, false_or] at hmem
    -- the request of a guard, or its release
    rcases hmem with ⟨-, rfl, rfl, rfl⟩ | ⟨-, rfl, rfl, rfl⟩
    · exact ⟨fun _ => requested_of_set r₀ s.hist, Or.inr fun _ => requested_of_set r₀ s.hist⟩
    · exact ⟨fun hne => absurd rfl hne, Or.inl rfl⟩
  | mmioRead path m' off =>
    refine ⟨fun hne => hs fun hidle => hne ?_, Or.inr fun h => h⟩
    rw [hidle]
    cases path <;> rfl
  | guardOutcome b =>
    have hawake : Requested r₀ s.hist := hs (houtcome b rfl ▸ by decide)
    exact ⟨fun _ => hawake, Or.inr fun h => h⟩
  | readRegSafe off =>
    rcases readRegSafe_cases P s off with ⟨v, hrun⟩ | ⟨-, hrun⟩ <;> rw [hrun] <;>
      exact ⟨hs, Or.inr fun h => h⟩
  | _ =>
    rw [exec_hist_of_quiet P rfl s]
    exact ⟨hs, Or.inr fun h => h⟩

/-! ## The pool of calls -/

/-- The clients' calls, before any of them has begun. -/
def callPool (s₀ : Machine) (calls : ι → Call) :
    KextPool (IOReturn × Option IOExternalMethodArguments) ι :=
  .start s₀ fun i => (calls i).prog

/-- **What holds of all guards together**: the setup is the given one, and
a guard that relies on the request has it. -/
def Relied (g : XeBootFlags) (m : UInt64) (r₀ : UInt32) (s : Machine) (φs : ι → GuardPhase) :
    Prop :=
  (s.gXeBoot = g ∧ s.mmio = m) ∧ ∀ i, φs i ≠ .idle → Requested r₀ s.hist

/-- One conforming step keeps the requests that are relied on. -/
theorem Relied.step {P : Platform} {g : XeBootFlags} {m : UInt64} {r₀ : UInt32}
    {c : KextPool α ι} {i : ι} {o : KextOp} {k : o.Resp → Kext α}
    (hi : c.thread i = .request o k)
    (h : Relied g m r₀ c.shared (c.phases (callMonitor g m) .idle)) (hG : ReleasesAlone c i)
    (ho : (callMonitor g m).allows (c.phases (callMonitor g m) .idle i) o) :
    o.Answers g m (fun _ => True) (c.phases (callMonitor g m) .idle i) (exec P o c.shared).1
      ∧ Relied g m r₀ (exec P o c.shared).2 (Function.update (c.phases (callMonitor g m) .idle) i
          ((c.phases (callMonitor g m) .idle i).next o)) := by
  obtain ⟨⟨rfl, rfl⟩, hbit⟩ := h
  obtain ⟨hboot, hmmio, -⟩ := exec_setup P ho.1 c.shared
  obtain ⟨hself, hkeeps⟩ := exec_requested (P := P) ho (hbit i)
  refine ⟨exec_answers_true P o c.shared _, ⟨hboot, hmmio⟩,
    (Function.forall_update_iff _ fun _ φ => φ ≠ GuardPhase.idle →
      Requested r₀ (exec P o c.shared).2.hist).mpr ⟨hself, fun j hji hj => ?_⟩⟩
  rcases hkeeps with hrelease | hkeep
  · -- the only request that takes the bit away is made alone
    have hidle := hG (by rw [hi]; exact hrelease) j hji
    rw [phases_callMonitor] at hj
    exact absurd hidle hj
  · exact hkeep (hbit j hj)

/-- **Overlapping guards.** In every interleaving of any number of clients'
calls – submissions among them – in which a guard is released only while no
other relies on the request, every acquired guard has its request. -/
theorem request_held (P : Platform) (s₀ : Machine) (r₀ : UInt32) (calls : ι → Call)
    (sched : List ι) (h : Pool.Along (exec P) ReleasesAlone (callPool s₀ calls) sched) :
    RequestHeld r₀ ((callPool s₀ calls).runs (exec P) sched) := by
  have hstart : (callPool s₀ calls).Obedient (callMonitor s₀.gXeBoot s₀.mmio) .idle
      (fun φ _ => φ = .idle) :=
    Pool.obedient_start fun i => obeys_callMonitor _ _ (calls i)
  have hrelied : Relied s₀.gXeBoot s₀.mmio r₀ s₀ fun _ : ι => .idle :=
    ⟨⟨rfl, rfl⟩, fun _ hne => absurd rfl hne⟩
  obtain ⟨-, -, hbit⟩ := h.phases (R := Relied s₀.gXeBoot s₀.mmio r₀)
    (fun c i o k hi _ hR hG ho => hR.step hi hG ho) hstart hrelied
  intro i hawake
  refine hbit i ?_
  rw [phases_callMonitor, hawake]
  decide

end Pool

/-- Two submissions one after the other: the second one's guard is awake
after its first 12 requests. -/
theorem request_held_inTurn :
    guardPhase true ((callPool oddPlatform.started fun _ : Bool => .submitting).runs
        (exec oddPlatform) (List.replicate 19 false ++ List.replicate 12 true)).log = .awake
      ∧ Requested 0 ((callPool oddPlatform.started fun _ : Bool => .submitting).runs
        (exec oddPlatform) (List.replicate 19 false ++ List.replicate 12 true)).shared.hist := by
  have hawake : guardPhase true ((callPool oddPlatform.started fun _ : Bool => .submitting).runs
      (exec oddPlatform) (List.replicate 19 false ++ List.replicate 12 true)).log = .awake := by
    decide
  exact ⟨hawake, request_held oddPlatform _ 0 _ _ (by decide) true hawake⟩

/-- **A release under another guard.** Both submissions have their guards
acknowledged, then the first one reads its registers and is done: the
second one's guard is awake, and the request is withdrawn. -/
theorem release_under_other_guard :
    ¬RequestHeld 0 ((callPool oddPlatform.started fun _ : Bool => .submitting).runs
      (exec oddPlatform)
      (List.replicate 12 false ++ List.replicate 12 true ++ List.replicate 6 false)) :=
  fun h => absurd (h true (by decide)) (by decide)
