import Mathlib.Algebra.BigOperators.Group.Finset.Piecewise
import Mathlib.Algebra.GroupWithZero.Nat
import XePCI.Pool

/-!
# Budgets

A program has a budget if the requests it makes weigh no more than that
together, whatever it is answered. It is a monitor once more, whose phase is
what is left (`Monitor.budget`), so a budget can be counted under a
condition on the answers, and composes as programs do.

Two things follow from a budget. What every request adds to a quantity of
the state by its weight at most, a run adds by its budget at most, and an
interleaving by the budgets of its threads (`Prog.Within.run`,
`Pool.Budgeted.sum_budgets`). And if every request weighs one, a thread has returned
after as many steps of its own as its budget, whatever the others do
(`Pool.Budgeted.returned`).
-/

variable {Op : Type} {Resp : Op → Type} {S α β ι : Type}

/-- **The monitor of a budget**: the requests in `B` may be made while there
is enough left, and are answered as `A` says. -/
def Monitor.budget (B : Op → Prop) (A : (o : Op) → Resp o → Prop) (w : Op → ℕ) :
    Monitor Op Resp ℕ where
  allows n o := B o ∧ w o ≤ n
  admits _ := A
  next n o _ := n - w o

namespace Prog

/-- **The program is within the budget `n`.** -/
def Within (B : Op → Prop) (A : (o : Op) → Resp o → Prop) (w : Op → ℕ) (n : ℕ)
    (p : Prog Op Resp α) : Prop :=
  Obeys (Monitor.budget B A w) n p (fun _ _ => True)

variable {B : Op → Prop} {A : (o : Op) → Resp o → Prop} {w : Op → ℕ} {n m : ℕ}

theorem within_ret (n : ℕ) (a : α) : Within B A w n (ret a : Prog Op Resp α) := trivial

theorem within_perform {o : Op} (ho : B o) (h : w o ≤ n) :
    Within B A w n (perform o : Prog Op Resp (Resp o)) :=
  ⟨⟨ho, h⟩, fun _ _ => trivial⟩

/-- A program that begins with a request. -/
theorem within_perform_bind {o : Op} (ho : B o) {f : Resp o → Prog Op Resp β}
    (h : ∀ r, A o r → Within B A w n (f r)) : Within B A w (n + w o) (perform o >>= f) := by
  refine .perform_bind ⟨ho, Nat.le_add_left _ _⟩ fun r hr => ?_
  show Within B A w (n + w o - w o) (f r)
  rw [Nat.add_sub_cancel]
  exact h r hr

theorem Within.mono {p : Prog Op Resp α} (h : Within B A w n p) (hnm : n ≤ m) :
    Within B A w m p := by
  induction p generalizing n m with
  | ret a => trivial
  | request o k ih =>
    obtain ⟨⟨ho, hle⟩, hk⟩ := h
    exact ⟨⟨ho, hle.trans hnm⟩, fun r hr => ih r (hk r hr) (Nat.sub_le_sub_right hnm _)⟩

/-- What the first program has left over the second need not use. -/
theorem Within.bind {p : Prog Op Resp α} {f : α → Prog Op Resp β} (hp : Within B A w n p)
    (hf : ∀ a, Within B A w m (f a)) : Within B A w (n + m) (p >>= f) := by
  induction p generalizing n with
  | ret a => exact (hf a).mono (Nat.le_add_left m n)
  | request o k ih =>
    obtain ⟨⟨ho, hle⟩, hk⟩ := hp
    refine ⟨⟨ho, hle.trans (Nat.le_add_right _ _)⟩, fun r hr => ?_⟩
    show Within B A w (n + m - w o) (k r >>= f)
    rw [Nat.sub_add_comm hle]
    exact ih r (hk r hr)

theorem Within.map {p : Prog Op Resp α} (f : α → β) (h : Within B A w n p) :
    Within B A w n (f <$> p) := by
  rw [← bind_pure_comp]
  exact h.bind (m := 0) fun _ => within_ret 0 _

/-- The budgets of programs that run one after another add up. -/
theorem Within.mapM {l : List α} {f : α → Prog Op Resp β} {b : α → ℕ}
    (h : ∀ a ∈ l, Within B A w (b a) (f a)) : Within B A w (l.map b).sum (l.mapM f) := by
  induction l with
  | nil => exact within_ret _ _
  | cons a l ih =>
    rw [List.mapM_cons, List.map_cons, List.sum_cons]
    refine (h a List.mem_cons_self).bind fun _ => ?_
    exact (ih fun a' ha' => h a' (List.mem_cons_of_mem a ha')).bind (m := 0) fun _ => within_ret 0 _

/-- A program that only makes requests of no weight needs no budget. -/
theorem Issues.within {D : Op → Prop} (hD : ∀ o, D o → B o ∧ w o = 0) {p : Prog Op Resp α}
    (h : Issues D p) : Within B A w 0 p := by
  refine (h.obeys fun o ho => ?_).mono fun _ _ _ => trivial
  obtain ⟨hB, hw⟩ := hD o ho
  exact ⟨⟨hB, hw.le⟩, fun _ => Nat.zero_sub _⟩

/-- **From a budget to a bound on every run**: let `μ` grow by the weight of
a request at most. -/
theorem Within.run {exec : (o : Op) → S → Resp o × S} {I : S → Prop} {μ : S → ℕ}
    (hstep : ∀ o s, B o → I s →
      (A o (exec o s).1 ∧ I (exec o s).2) ∧ μ (exec o s).2 ≤ μ s + w o)
    {p : Prog Op Resp α} (h : Within B A w n p) {s : S} (hs : I s) :
    I (Prog.run exec p s).2 ∧ μ (Prog.run exec p s).2 ≤ μ s + n := by
  obtain ⟨k, ⟨hI, hμ⟩, -⟩ := Obeys.run (R := fun k t => I t ∧ μ t + k ≤ μ s + n)
    (fun k o t ho ht => by
      obtain ⟨⟨hA, hI⟩, hμ⟩ := hstep o t ho.1 ht.1
      refine ⟨hA, hI, ?_⟩
      show _ + (k - w o) ≤ _
      have hle : w o ≤ k := ho.2
      omega) h ⟨hs, le_rfl⟩
  exact ⟨hI, by omega⟩

end Prog

/-! ## Interleavings -/

namespace Pool

open Prog

variable [DecidableEq ι] {exec : (o : Op) → S → Resp o × S} {B : Op → Prop}
  {A : (o : Op) → Resp o → Prop} {w : Op → ℕ} {I : S → Prop}

/-- **Every thread is within what is left of its budget**, and the shared
state is one in which requests are answered as `A` says. -/
structure Budgeted (B : Op → Prop) (A : (o : Op) → Resp o → Prop) (w : Op → ℕ) (I : S → Prop)
    (b : ι → ℕ) (c : Pool Op Resp S α ι) : Prop where
  threads : ∀ i, Within B A w (b i) (c.thread i)
  shared : I c.shared

variable {b : ι → ℕ} {c : Pool Op Resp S α ι}

/-- A step is paid for by the thread that takes it. -/
theorem Budgeted.step
    (hstep : ∀ o s, B o → I s → A o (exec o s).1 ∧ I (exec o s).2)
    (h : c.Budgeted B A w I b) {i : ι} {o : Op} {k : Resp o → Prog Op Resp α}
    (hi : c.thread i = .request o k) :
    B o ∧ w o ≤ b i ∧ (c.step exec i).Budgeted B A w I (Function.update b i (b i - w o)) := by
  have hwithin := h.threads i
  rw [hi] at hwithin
  obtain ⟨⟨ho, hle⟩, hk⟩ := hwithin
  obtain ⟨hA, hI⟩ := hstep o c.shared ho h.shared
  refine ⟨ho, hle, ?_⟩
  rw [step_of_request exec hi]
  refine ⟨fun j => ?_, hI⟩
  by_cases hj : j = i
  · subst hj
    simp only [Function.update_self]
    exact hk _ hA
  · simp only [Function.update_of_ne hj]
    exact h.threads j

/-- **An interleaving adds no more than the budgets of its threads**: by
induction on the schedule, with what is left to each. -/
theorem Budgeted.sum_budgets [Fintype ι] {μ : S → ℕ}
    (hstep : ∀ o s, B o → I s →
      (A o (exec o s).1 ∧ I (exec o s).2) ∧ μ (exec o s).2 ≤ μ s + w o)
    (h : c.Budgeted B A w I b) (sched : List ι) :
    μ (c.runs exec sched).shared ≤ μ c.shared + ∑ i, b i := by
  induction sched generalizing c b with
  | nil => exact Nat.le_add_right _ _
  | cons i sched ih =>
    show μ ((c.step exec i).runs exec sched).shared ≤ _
    cases hi : c.thread i with
    | ret a =>
      rw [step_of_ret exec hi]
      exact ih h
    | request o k =>
      obtain ⟨ho, hle, hnext⟩ := h.step (fun o s ho hs => (hstep o s ho hs).1) hi
      have hrest := ih hnext
      have hsum : ∑ j, Function.update b i (b i - w o) j + w o = ∑ j, b j := by
        rw [Finset.sum_update_of_mem (Finset.mem_univ i),
          ← Finset.add_sum_erase _ b (Finset.mem_univ i), Finset.sdiff_singleton_eq_erase]
        omega
      have hμ := (hstep o c.shared ho h.shared).2
      have hshared : (c.step exec i).shared = (exec o c.shared).2 := by
        rw [step_of_request exec hi]
      rw [hshared] at hrest
      omega

/-- **A thread returns after as many steps of its own as its budget**, if
every request weighs something, and whatever steps the others take in
between. -/
theorem Budgeted.returned
    (hstep : ∀ o s, B o → I s → A o (exec o s).1 ∧ I (exec o s).2)
    (hw : ∀ o, 1 ≤ w o) (h : c.Budgeted B A w I b) {i : ι} {sched : List ι}
    (hn : b i ≤ sched.count i) : ((c.runs exec sched).thread i).result?.isSome = true := by
  induction sched generalizing c b with
  | nil =>
    show (c.thread i).result?.isSome = true
    cases hi : c.thread i with
    | ret a => rfl
    | request o k =>
      have hle := (h.step hstep hi).2.1
      have hpos := hw o
      rw [List.count_nil] at hn
      omega
  | cons j sched ih =>
    show (((c.step exec j).runs exec sched).thread i).result?.isSome = true
    cases hj : c.thread j with
    | ret a =>
      rw [step_of_ret exec hj]
      by_cases hij : j = i
      · -- it has returned, and needs no budget any more
        subst hij
        have hret : c.Budgeted B A w I (Function.update b j 0) := by
          refine ⟨fun k => ?_, h.shared⟩
          by_cases hk : k = j
          · subst hk
            rw [hj]
            exact within_ret _ a
          · rw [Function.update_of_ne hk]
            exact h.threads k
        exact ih hret (by rw [Function.update_self]; exact Nat.zero_le _)
      · rw [List.count_cons_of_ne hij] at hn
        exact ih h hn
    | request o k =>
      obtain ⟨-, hle, hnext⟩ := h.step hstep hj
      have hpos := hw o
      refine ih hnext ?_
      by_cases hij : j = i
      · subst hij
        rw [List.count_cons_self] at hn
        rw [Function.update_self]
        omega
      · rw [List.count_cons_of_ne hij] at hn
        rw [Function.update_of_ne (Ne.symm hij)]
        exact hn

end Pool
