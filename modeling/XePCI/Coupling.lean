import XePCI.Pool

/-!
# Two runs side by side

A statement about what a program's surroundings can learn, or can bring
about, compares two runs: of one program in two environments, or of two
programs that differ in a place nobody looks at. This module has the two
ways to compare them.

In **lockstep**. A coupling says which request of the first program goes
with which of the second, and what is then known of the two answers
(`Coupling`). Programs that keep to it (`Prog.Coupled`) make as many
requests, in the same order. So they can be compared not only run by run
but step by step, and the comparison survives any interleaving with others
that are coupled as well (`Pool.coupled_runs`).

**Run by run**, where one of the two makes more requests than the other.
Then the comparison is of the whole runs (`Prog.Agree`), and it composes as
the runs do. Coupled programs agree (`Prog.Coupled.agree`).
-/

variable {Op : Type} {Resp : Op → Type} {S S' α β γ δ ι : Type}

/-- **A coupling**: the pairs of requests that go together, each with the
relation that is known to hold between their answers. -/
abbrev Coupling (Op : Type) (Resp : Op → Type) : Type :=
  (o o' : Op) → (Resp o → Resp o' → Prop) → Prop

namespace Prog

/-! ## In lockstep -/

/-- **The programs are coupled**: request by request, whatever related
answers they get, and they return related values. -/
def Coupled (C : Coupling Op Resp) (Q : α → β → Prop) :
    Prog Op Resp α → Prog Op Resp β → Prop
  | ret a, ret b => Q a b
  | request o k, request o' k' =>
    ∃ A, C o o' A ∧ ∀ r r', A r r' → Coupled C Q (k r) (k' r')
  | ret _, request _ _ => False
  | request _ _, ret _ => False

variable {C : Coupling Op Resp} {Q : α → β → Prop}

theorem coupled_ret {a : α} {b : β} (h : Q a b) :
    Coupled C Q (ret a : Prog Op Resp α) (ret b : Prog Op Resp β) := h

theorem coupled_perform {o o' : Op} {A : Resp o → Resp o' → Prop} (h : C o o' A) :
    Coupled C A (perform o : Prog Op Resp (Resp o)) (perform o') :=
  ⟨A, h, fun _ _ hr => hr⟩

/-- Both programs take the same branch. -/
theorem Coupled.ite {c c' : Prop} [Decidable c] [Decidable c'] (hc : c ↔ c')
    {p q : Prog Op Resp α} {p' q' : Prog Op Resp β} (hp : c → Coupled C Q p p')
    (hq : ¬c → Coupled C Q q q') :
    Coupled C Q (if c then p else q) (if c' then p' else q') := by
  by_cases h : c
  · rw [if_pos h, if_pos (hc.mp h)]
    exact hp h
  · rw [if_neg h, if_neg (mt hc.mpr h)]
    exact hq h

/-- Coupled programs in sequence are coupled. -/
theorem Coupled.bind {Q' : γ → δ → Prop} {p : Prog Op Resp α} {p' : Prog Op Resp β}
    {f : α → Prog Op Resp γ} {f' : β → Prog Op Resp δ} (h : Coupled C Q p p')
    (hf : ∀ a b, Q a b → Coupled C Q' (f a) (f' b)) :
    Coupled C Q' (p >>= f) (p' >>= f') := by
  induction p generalizing p' with
  | ret a =>
    cases p' with
    | ret b => exact hf a b h
    | request o' k' => exact h.elim
  | request o k ih =>
    cases p' with
    | ret b => exact h.elim
    | request o' k' =>
      obtain ⟨A, hC, hk⟩ := h
      exact ⟨A, hC, fun r r' hr => ih r (hk r r' hr)⟩

theorem Coupled.imp {Q' : α → β → Prop} {p : Prog Op Resp α} {p' : Prog Op Resp β}
    (h : Coupled C Q p p') (hQ : ∀ a b, Q a b → Q' a b) : Coupled C Q' p p' := by
  have hbind := h.bind fun a b hab => coupled_ret (C := C) (hQ a b hab)
  simpa only [← Prog.pure_eq_ret, bind_pure] using hbind

theorem Coupled.map {Q' : γ → δ → Prop} {p : Prog Op Resp α} {p' : Prog Op Resp β}
    {f : α → γ} {f' : β → δ} (h : Coupled C Q p p') (hf : ∀ a b, Q a b → Q' (f a) (f' b)) :
    Coupled C Q' (f <$> p) (f' <$> p') := by
  rw [← bind_pure_comp, ← bind_pure_comp]
  exact h.bind fun a b hab => coupled_ret (hf a b hab)

theorem Coupled.map_eq (f : α → β) {p p' : Prog Op Resp α} (h : Coupled C Eq p p') :
    Coupled C Eq (f <$> p) (f <$> p') :=
  h.map fun _ _ => congrArg f

/-- Coupled programs, one after another along a list. -/
theorem Coupled.mapM {l : List γ} {f : γ → Prog Op Resp α} {f' : γ → Prog Op Resp β}
    (h : ∀ c ∈ l, Coupled C Q (f c) (f' c)) :
    Coupled C (List.Forall₂ Q) (l.mapM f) (l.mapM f') := by
  induction l with
  | nil => exact coupled_ret .nil
  | cons c l ih =>
    rw [List.mapM_cons, List.mapM_cons]
    refine (h c List.mem_cons_self).bind fun a b hab => ?_
    refine (ih fun c' hc' => h c' (List.mem_cons_of_mem c hc')).bind fun as bs hs => ?_
    exact coupled_ret (.cons hab hs)

/-- Programs that are coupled to return the same have returned the same. -/
theorem Coupled.result? {p p' : Prog Op Resp α} (h : Coupled C Eq p p') :
    p.result? = p'.result? := by
  cases p with
  | ret a =>
    cases p' with
    | ret b => exact congrArg some h
    | request o' k' => exact h.elim
  | request o k =>
    cases p' with
    | ret b => exact h.elim
    | request o' k' => rfl

/-- A program whose requests all go with themselves, with equal answers, is
coupled with itself. -/
theorem Issues.coupled {B : Op → Prop} (hB : ∀ o, B o → C o o Eq) {p : Prog Op Resp α}
    (h : Issues B p) : Coupled C Eq p p := by
  induction p with
  | ret a => exact rfl
  | request o k ih =>
    refine ⟨Eq, hB o h.1, fun r r' hr => ?_⟩
    subst hr
    exact ih r (h.2 r trivial)

/-! ## Run by run -/

/-- **The programs agree** under two handlers: from states related by `R`
they return values related by `Q` and end in states related by `R`. -/
def Agree (exec : (o : Op) → S → Resp o × S) (exec' : (o : Op) → S' → Resp o × S')
    (R : S → S' → Prop) (Q : α → β → Prop) (p : Prog Op Resp α) (p' : Prog Op Resp β) : Prop :=
  ∀ s s', R s s' → Q (run exec p s).1 (run exec' p' s').1
    ∧ R (run exec p s).2 (run exec' p' s').2

variable {exec : (o : Op) → S → Resp o × S} {exec' : (o : Op) → S' → Resp o × S'}
  {R : S → S' → Prop}

theorem agree_ret {a : α} {b : β} (h : Q a b) :
    Agree exec exec' R Q (ret a : Prog Op Resp α) (ret b : Prog Op Resp β) :=
  fun _ _ hs => ⟨h, hs⟩

theorem Agree.bind {Q' : γ → δ → Prop} {p : Prog Op Resp α} {p' : Prog Op Resp β}
    {f : α → Prog Op Resp γ} {f' : β → Prog Op Resp δ} (h : Agree exec exec' R Q p p')
    (hf : ∀ a b, Q a b → Agree exec exec' R Q' (f a) (f' b)) :
    Agree exec exec' R Q' (p >>= f) (p' >>= f') := by
  intro s s' hs
  obtain ⟨hQ, hR⟩ := h s s' hs
  rw [run_bind, run_bind]
  exact hf _ _ hQ _ _ hR

theorem Agree.map {Q' : γ → δ → Prop} {p : Prog Op Resp α} {p' : Prog Op Resp β}
    {f : α → γ} {f' : β → δ} (h : Agree exec exec' R Q p p')
    (hf : ∀ a b, Q a b → Q' (f a) (f' b)) :
    Agree exec exec' R Q' (f <$> p) (f' <$> p') := by
  rw [← bind_pure_comp, ← bind_pure_comp]
  exact h.bind fun a b hab => agree_ret (hf a b hab)

/-- Programs that agree, one after another along a list; what is known of
the results may depend on the place in the list. -/
theorem Agree.mapM {Q : γ → α → β → Prop} {l : List γ} {f : γ → Prog Op Resp α}
    {f' : γ → Prog Op Resp β} (h : ∀ c ∈ l, Agree exec exec' R (Q c) (f c) (f' c)) :
    Agree exec exec' R (fun as bs => List.Forall₂ (fun c ab => Q c ab.1 ab.2) l (as.zip bs)
      ∧ as.length = bs.length) (l.mapM f) (l.mapM f') := by
  induction l with
  | nil => exact agree_ret ⟨.nil, rfl⟩
  | cons c l ih =>
    rw [List.mapM_cons, List.mapM_cons]
    refine (h c List.mem_cons_self).bind fun a b hab => ?_
    refine (ih fun c' hc' => h c' (List.mem_cons_of_mem c hc')).bind fun as bs hs => ?_
    exact agree_ret ⟨.cons hab hs.1, congrArg (· + 1) hs.2⟩

/-- **Coupled programs agree**, if each pair of requests of the coupling gets
related answers from related states and leaves them related. -/
theorem Coupled.agree
    (hstep : ∀ o o' A s s', C o o' A → R s s' →
      A (exec o s).1 (exec' o' s').1 ∧ R (exec o s).2 (exec' o' s').2)
    {p : Prog Op Resp α} {p' : Prog Op Resp β} (h : Coupled C Q p p') :
    Agree exec exec' R Q p p' := by
  induction p generalizing p' with
  | ret a =>
    cases p' with
    | ret b => exact agree_ret h
    | request o' k' => exact h.elim
  | request o k ih =>
    cases p' with
    | ret b => exact h.elim
    | request o' k' =>
      obtain ⟨A, hC, hk⟩ := h
      intro s s' hs
      obtain ⟨hA, hR⟩ := hstep o o' A s s' hC hs
      exact ih _ (hk _ _ hA) _ _ hR

end Prog

/-! ## Interleavings -/

namespace Pool

variable [DecidableEq ι] {C : Coupling Op Resp} {Q : α → β → Prop}
  {exec : (o : Op) → S → Resp o × S} {exec' : (o : Op) → S' → Resp o × S'} {R : S → S' → Prop}

/-- **The pools are coupled**: thread by thread, over related states. -/
structure Coupled (C : Coupling Op Resp) (R : S → S' → Prop) (Q : α → β → Prop)
    (c : Pool Op Resp S α ι) (c' : Pool Op Resp S' β ι) : Prop where
  shared : R c.shared c'.shared
  threads : ∀ i, Prog.Coupled C Q (c.thread i) (c'.thread i)

/-- A step of a thread keeps them so. -/
theorem Coupled.step
    (hstep : ∀ o o' A s s', C o o' A → R s s' →
      A (exec o s).1 (exec' o' s').1 ∧ R (exec o s).2 (exec' o' s').2)
    {c : Pool Op Resp S α ι} {c' : Pool Op Resp S' β ι} (h : Coupled C R Q c c') (i : ι) :
    Coupled C R Q (c.step exec i) (c'.step exec' i) := by
  have hi := h.threads i
  cases hp : c.thread i with
  | ret a =>
    rw [hp] at hi
    cases hp' : c'.thread i with
    | ret b =>
      rw [step_of_ret exec hp, step_of_ret exec' hp']
      exact h
    | request o' k' =>
      rw [hp'] at hi
      exact hi.elim
  | request o k =>
    rw [hp] at hi
    cases hp' : c'.thread i with
    | ret b =>
      rw [hp'] at hi
      exact hi.elim
    | request o' k' =>
      rw [hp'] at hi
      obtain ⟨A, hC, hk⟩ := hi
      obtain ⟨hA, hR⟩ := hstep o o' A c.shared c'.shared hC h.shared
      rw [step_of_request exec hp, step_of_request exec' hp']
      refine ⟨hR, fun j => ?_⟩
      by_cases hj : j = i
      · subst hj
        simp only [Function.update_self]
        exact hk _ _ hA
      · simp only [Function.update_of_ne hj]
        exact h.threads j

/-- **So does every schedule**: by induction on it. -/
theorem coupled_runs
    (hstep : ∀ o o' A s s', C o o' A → R s s' →
      A (exec o s).1 (exec' o' s').1 ∧ R (exec o s).2 (exec' o' s').2)
    {c : Pool Op Resp S α ι} {c' : Pool Op Resp S' β ι} (h : Coupled C R Q c c')
    (sched : List ι) : Coupled C R Q (c.runs exec sched) (c'.runs exec' sched) := by
  induction sched generalizing c c' with
  | nil => exact h
  | cons i sched ih => exact ih (h.step hstep i)

end Pool
