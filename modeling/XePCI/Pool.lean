import Mathlib.Logic.Function.Basic
import XePCI.Prog

/-!
# Interleavings of programs that share a state

A pool is a family of programs over one shared state. A schedule names,
step by step, the thread that moves next; that thread's one pending
request is answered from the shared state, and the other threads stay
where they are. Every schedule is an interleaving and every interleaving
is a schedule, so a statement about all interleavings is a statement
about all lists of thread names.

The pool records what was done and by whom in `log`, newest first. A
monitor read along one thread's entries gives the phase that thread is
in (`Monitor.phase`), and threads that obey the monitor to begin with
obey it from their current phase ever after (`Pool.Obedient.step`).
One thread may be followed on its own, if what the others ask for leaves
what it relies on (`Pool.among`). A run that only has to be considered
under a condition on its steps is one `Pool.Along` that condition;
`Pool.Along.runs` is the induction.
-/

variable {Op : Type} {Resp : Op → Type} {S Φ α ι : Type}

/-- **A pool of threads** over one shared state, with the record of what
each thread has done, newest first. -/
structure Pool (Op : Type) (Resp : Op → Type) (S α ι : Type) where
  /-- The state the threads share. -/
  shared : S
  /-- What is left of each thread. -/
  thread : ι → Prog Op Resp α
  /-- The requests answered so far, with the thread and the answer. -/
  log : List (ι × (o : Op) × Resp o)

/-- The phase the thread `i` is in, read along its own entries of a log. -/
def Monitor.phase [DecidableEq ι] (M : Monitor Op Resp Φ) (φ₀ : Φ) (i : ι) :
    List (ι × (o : Op) × Resp o) → Φ
  | [] => φ₀
  | (j, ⟨o, r⟩) :: log =>
    if j = i then M.next (M.phase φ₀ i log) o r else M.phase φ₀ i log

/-- A reading of the log that starts and moves as the monitor does is the
monitor's. -/
theorem Monitor.phase_eq [DecidableEq ι] (M : Monitor Op Resp Φ)
    (read : ι → List (ι × (o : Op) × Resp o) → Φ) {φ₀ : Φ} (hnil : ∀ i, read i [] = φ₀)
    (hcons : ∀ i j o r log, read i ((j, ⟨o, r⟩) :: log)
      = if j = i then M.next (read i log) o r else read i log)
    (i : ι) (log : List (ι × (o : Op) × Resp o)) : M.phase φ₀ i log = read i log := by
  induction log with
  | nil => exact (hnil i).symm
  | cons e log ih =>
    obtain ⟨j, o, r⟩ := e
    rw [hcons, Monitor.phase, ih]

namespace Pool

/-- The pool of the given programs, before any of them has moved. -/
def start (s : S) (p : ι → Prog Op Resp α) : Pool Op Resp S α ι := ⟨s, p, []⟩

variable [DecidableEq ι] (exec : (o : Op) → S → Resp o × S)

/-- **One step of the thread `i`**: its pending request is answered. A
thread that has returned does not move. -/
def step (c : Pool Op Resp S α ι) (i : ι) : Pool Op Resp S α ι :=
  match c.thread i with
  | .ret _ => c
  | .request o k =>
    { shared := (exec o c.shared).2
      thread := Function.update c.thread i (k (exec o c.shared).1)
      log := (i, ⟨o, (exec o c.shared).1⟩) :: c.log }

/-- The pool after a schedule. -/
def runs (c : Pool Op Resp S α ι) (sched : List ι) : Pool Op Resp S α ι :=
  sched.foldl (step exec) c

theorem step_of_ret {c : Pool Op Resp S α ι} {i : ι} {a : α}
    (h : c.thread i = .ret a) : c.step exec i = c := by
  unfold step
  rw [h]

theorem step_of_request {c : Pool Op Resp S α ι} {i : ι} {o : Op}
    {k : Resp o → Prog Op Resp α} (h : c.thread i = .request o k) :
    c.step exec i
      = { shared := (exec o c.shared).2
          thread := Function.update c.thread i (k (exec o c.shared).1)
          log := (i, ⟨o, (exec o c.shared).1⟩) :: c.log } := by
  unfold step
  rw [h]

theorem shared_step {c : Pool Op Resp S α ι} {i : ι} {o : Op}
    (h : (c.thread i).next? = some o) : (c.step exec i).shared = (exec o c.shared).2 := by
  cases hi : c.thread i with
  | ret a =>
    rw [hi] at h
    exact nomatch h
  | request o' k =>
    rw [hi] at h
    obtain rfl : o' = o := Option.some.inj h
    rw [step_of_request exec hi]

/-! ## Runs under a condition on their steps -/

/-- **Every step of the schedule meets the condition `G`**, read at the
pool it is taken from and the thread that takes it. -/
def Along (G : Pool Op Resp S α ι → ι → Prop) :
    Pool Op Resp S α ι → List ι → Prop
  | _, [] => True
  | c, i :: sched => G c i ∧ Along G (c.step exec i) sched

variable {exec}

/-- **The induction over a schedule**: what a conforming step keeps, a
conforming run keeps. -/
theorem Along.runs {G : Pool Op Resp S α ι → ι → Prop}
    {J : Pool Op Resp S α ι → Prop}
    (hstep : ∀ c i, J c → G c i → J (c.step exec i))
    {c : Pool Op Resp S α ι} {sched : List ι} (hG : Along exec G c sched)
    (hc : J c) : J (c.runs exec sched) := by
  induction sched generalizing c with
  | nil => exact hc
  | cons i sched ih => exact ih hG.2 (hstep c i hc hG.1)

/-- What a condition and an invariant of it imply holds at every step. -/
theorem Along.imp {G H : Pool Op Resp S α ι → ι → Prop} {J : Pool Op Resp S α ι → Prop}
    (hstep : ∀ c i, J c → G c i → J (c.step exec i)) (hH : ∀ c i, J c → G c i → H c i)
    {c : Pool Op Resp S α ι} {sched : List ι} (hG : Along exec G c sched) (hc : J c) :
    Along exec H c sched := by
  induction sched generalizing c with
  | nil => trivial
  | cons i sched ih => exact ⟨hH c i hc hG.1, ih hG.2 (hstep c i hc hG.1)⟩

/-- Every schedule conforms to a condition that always holds. -/
theorem along_of_forall {G : Pool Op Resp S α ι → ι → Prop} (hG : ∀ c i, G c i)
    (c : Pool Op Resp S α ι) (sched : List ι) : Along exec G c sched := by
  induction sched generalizing c with
  | nil => trivial
  | cons i sched ih => exact ⟨hG c i, ih _⟩

/-- A conforming run is one up to any moment, and from there on. -/
theorem along_append {G : Pool Op Resp S α ι → ι → Prop} {c : Pool Op Resp S α ι}
    {pre post : List ι} :
    Along exec G c (pre ++ post) ↔ Along exec G c pre ∧ Along exec G (c.runs exec pre) post := by
  induction pre generalizing c with
  | nil => exact ⟨fun h => ⟨trivial, h⟩, And.right⟩
  | cons i pre ih => exact (and_congr_right fun _ => ih).trans (and_assoc).symm

theorem runs_append (c : Pool Op Resp S α ι) (pre post : List ι) :
    c.runs exec (pre ++ post) = (c.runs exec pre).runs exec post :=
  List.foldl_append

/-- A condition that can be checked at every step can be checked along a
schedule. -/
instance decidableAlong (G : Pool Op Resp S α ι → ι → Prop) [∀ c i, Decidable (G c i)] :
    ∀ (c : Pool Op Resp S α ι) (sched : List ι), Decidable (Along exec G c sched)
  | _, [] => isTrue trivial
  | c, i :: sched =>
    have := decidableAlong G (c.step exec i) sched
    inferInstanceAs (Decidable (G c i ∧ Along exec G (c.step exec i) sched))

/-! ## Threads that obey a monitor -/

/-- Every thread obeys the monitor from the phase it has reached. -/
def Obedient (M : Monitor Op Resp Φ) (φ₀ : Φ) (Q : Φ → α → Prop)
    (c : Pool Op Resp S α ι) : Prop :=
  ∀ i, Prog.Obeys M (M.phase φ₀ i c.log) (c.thread i) Q

/-- Threads that obey the monitor at the start are an obedient pool. -/
theorem obedient_start {M : Monitor Op Resp Φ} {φ₀ : Φ} {Q : Φ → α → Prop}
    {s : S} {p : ι → Prog Op Resp α} (h : ∀ i, Prog.Obeys M φ₀ (p i) Q) :
    (start s p).Obedient M φ₀ Q := h

/-- **Obedience is kept by a step**, provided the answer the step gets is
one the monitor admits. -/
theorem Obedient.step {M : Monitor Op Resp Φ} {φ₀ : Φ} {Q : Φ → α → Prop}
    {c : Pool Op Resp S α ι} (h : c.Obedient M φ₀ Q) (i : ι)
    (hadm : ∀ o k, c.thread i = .request o k →
      M.admits (M.phase φ₀ i c.log) o (exec o c.shared).1) :
    (c.step exec i).Obedient M φ₀ Q := by
  cases hi : c.thread i with
  | ret a => rwa [step_of_ret exec hi]
  | request o k =>
    rw [step_of_request exec hi]
    intro j
    have hi' := h i
    rw [hi] at hi'
    by_cases hj : i = j
    · subst hj
      simp only [Monitor.phase, if_true, Function.update_self]
      exact hi'.2 _ (hadm o k hi)
    · simp only [Monitor.phase, if_neg hj, Function.update_of_ne (Ne.symm hj)]
      exact h j

/-- The phases the threads are in. -/
def phases (M : Monitor Op Resp Φ) (φ₀ : Φ) (c : Pool Op Resp S α ι) (i : ι) : Φ :=
  M.phase φ₀ i c.log

/-- A step moves the phase of its own thread. -/
theorem phases_step (M : Monitor Op Resp Φ) (φ₀ : Φ) {c : Pool Op Resp S α ι} {i : ι} {o : Op}
    {k : Resp o → Prog Op Resp α} (h : c.thread i = .request o k) :
    (c.step exec i).phases M φ₀
      = Function.update (c.phases M φ₀) i (M.next (c.phases M φ₀ i) o (exec o c.shared).1) := by
  rw [step_of_request exec h]
  funext j
  show (if i = j then M.next (M.phase φ₀ j c.log) o _ else M.phase φ₀ j c.log) = _
  by_cases hj : i = j
  · subst hj
    rw [if_pos rfl, Function.update_self]
    rfl
  · rw [if_neg hj, Function.update_of_ne (Ne.symm hj)]
    rfl

/-- What an obedient thread is about to do is allowed. -/
theorem Obedient.allows {M : Monitor Op Resp Φ} {φ : Φ} {Q : Φ → α → Prop}
    {c : Pool Op Resp S α ι} (h : c.Obedient M φ Q) {i : ι} {o : Op}
    (hi : (c.thread i).next? = some o) : M.allows (c.phases M φ i) o := by
  have hobeys := h i
  cases hthread : c.thread i with
  | ret a =>
    rw [hthread] at hi
    exact nomatch hi
  | request o' k =>
    rw [hthread] at hi hobeys
    obtain rfl : o' = o := Option.some.inj hi
    exact hobeys.1

section Invariant

variable {M : Monitor Op Resp Φ} {φ : Φ} {Q : Φ → α → Prop}
  {G : Pool Op Resp S α ι → ι → Prop} {R : S → (ι → Φ) → Prop}
  (hstep : ∀ (c : Pool Op Resp S α ι) i o k, c.thread i = .request o k →
    c.Obedient M φ Q → R c.shared (c.phases M φ) → G c i →
    M.allows (c.phases M φ i) o →
      M.admits (c.phases M φ i) o (exec o c.shared).1
        ∧ R (exec o c.shared).2 (Function.update (c.phases M φ) i
            (M.next (c.phases M φ i) o (exec o c.shared).1)))

include hstep

/-- One conforming step of threads that obey a monitor. -/
theorem Obedient.step_phases {c : Pool Op Resp S α ι} {i : ι}
    (hc : c.Obedient M φ Q ∧ R c.shared (c.phases M φ)) (hG : G c i) :
    (c.step exec i).Obedient M φ Q
      ∧ R (c.step exec i).shared ((c.step exec i).phases M φ) := by
  obtain ⟨hc, hR⟩ := hc
  cases hi : c.thread i with
  | ret a =>
    rw [step_of_ret exec hi]
    exact ⟨hc, hR⟩
  | request o k =>
    have hallows : M.allows (c.phases M φ i) o := hc.allows (by rw [hi]; rfl)
    obtain ⟨hadmits, hR'⟩ := hstep c i o k hi hc hR hG hallows
    refine ⟨hc.step i fun o' k' h' => ?_, ?_⟩
    · rw [hi] at h'
      cases h'
      exact hadmits
    · rw [phases_step M φ hi, step_of_request exec hi]
      exact hR'

/-- **From a monitor to an invariant of every interleaving.** Let `R` relate
the shared state to the phases of the threads. If a conforming step that a
thread's phase allows gets an admitted answer and carries `R` along, then so
does every conforming run of threads that obey the monitor. -/
theorem Along.phases {c : Pool Op Resp S α ι} {sched : List ι} (hG : Along exec G c sched)
    (hc : c.Obedient M φ Q) (hR : R c.shared (c.phases M φ)) :
    (c.runs exec sched).Obedient M φ Q
      ∧ R (c.runs exec sched).shared ((c.runs exec sched).phases M φ) :=
  hG.runs (J := fun c => c.Obedient M φ Q ∧ R c.shared (c.phases M φ))
    (fun _ _ hc hG => Obedient.step_phases hstep hc hG) ⟨hc, hR⟩

end Invariant

/-! ## One thread among others -/

/-- **What one thread can rely on.** Let `R` relate the phase of the thread
`i` to the shared state. If the thread's own steps carry `R` along, and the
requests in `A` leave it as it is, then among threads that only issue those
`i` obeys its monitor to the end. -/
theorem among {M : Monitor Op Resp Φ} {Q : Φ → α → Prop} {A : Op → Prop} {R : Φ → S → Prop}
    {i : ι}
    (hown : ∀ φ o s, M.allows φ o → R φ s →
      M.admits φ o (exec o s).1 ∧ R (M.next φ o (exec o s).1) (exec o s).2)
    (hothers : ∀ φ o s, A o → R φ s → R φ (exec o s).2)
    {c : Pool Op Resp S α ι} {φ : Φ} (hi : Prog.Obeys M φ (c.thread i) Q)
    (hA : ∀ j, j ≠ i → (c.thread j).Issues A) (hR : R φ c.shared) (sched : List ι) :
    ∃ φ', Prog.Obeys M φ' ((c.runs exec sched).thread i) Q
      ∧ R φ' (c.runs exec sched).shared := by
  induction sched generalizing c φ with
  | nil => exact ⟨φ, hi, hR⟩
  | cons j sched ih =>
    show ∃ φ', Prog.Obeys M φ' (((c.step exec j).runs exec sched).thread i) Q
      ∧ R φ' ((c.step exec j).runs exec sched).shared
    cases hj : c.thread j with
    | ret a =>
      rw [step_of_ret exec hj]
      exact ih hi hA hR
    | request o k =>
      rw [step_of_request exec hj]
      by_cases hij : j = i
      · subst hij
        rw [hj] at hi
        obtain ⟨hadmits, hR'⟩ := hown φ o c.shared hi.1 hR
        refine ih ?_ (fun j' hj' => ?_) hR'
        · show Prog.Obeys M _ (Function.update c.thread j _ j) Q
          rw [Function.update_self]
          exact hi.2 _ hadmits
        · show Prog.Issues A (Function.update c.thread j _ j')
          rw [Function.update_of_ne hj']
          exact hA j' hj'
      · have hissues := hA j hij
        rw [hj] at hissues
        refine ih ?_ (fun j' hj' => ?_) (hothers φ o c.shared hissues.1 hR)
        · show Prog.Obeys M φ (Function.update c.thread j _ i) Q
          rw [Function.update_of_ne (Ne.symm hij)]
          exact hi
        · show Prog.Issues A (Function.update c.thread j _ j')
          by_cases hjj : j' = j
          · subst hjj
            rw [Function.update_self]
            exact hissues.2 _ trivial
          · rw [Function.update_of_ne hjj]
            exact hA j' hj'

end Pool
