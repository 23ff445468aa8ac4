import Mathlib.Logic.Basic
import Mathlib.Data.List.Basic

/-!
# Programs over a signature of requests

A program that talks to an environment is a tree: it has returned, or it
issues one request and continues on the answer. `Prog Op Resp α` is that
tree, over a signature `Op` of requests whose answers have the types
`Resp`. The tree knows nothing of the environment, so one program has
several meanings: `Prog.run` gives the sequential one, under a handler
`exec` that answers a request and moves a state, and a pool of programs
sharing one state gives the interleaved one. Each request is one atomic
step in both.

What a program *may* issue is said by a **monitor**: an automaton over
the requests and their answers, with the requests it allows in each phase
and the answers it may count on. `Prog.Obeys` reads a program against a
monitor as a weakest precondition, one request at a time, so that it
computes through `bind` (`Prog.obeys_bind`); and `Prog.Obeys.run` is the
rule that turns a monitor into an invariant of every run, from what one
request of the monitor does to the state.
-/

variable {Op : Type} {Resp : Op → Type} {S Φ α β : Type}

/-- **A program over a signature**: a value, or a request with what
follows on its answer. -/
inductive Prog (Op : Type) (Resp : Op → Type) (α : Type) : Type where
  /-- The program has returned. -/
  | ret (a : α)
  /-- The program issues `o` and continues with the answer. -/
  | request (o : Op) (k : Resp o → Prog Op Resp α)

namespace Prog

/-- Sequencing: the second program takes over where the first returns. -/
protected def bind : Prog Op Resp α → (α → Prog Op Resp β) → Prog Op Resp β
  | ret a, f => f a
  | request o k, f => request o (fun r => (k r).bind f)

instance : Monad (Prog Op Resp) where
  pure := ret
  bind := Prog.bind

/-- The program that issues one request and returns its answer. -/
def perform (o : Op) : Prog Op Resp (Resp o) := request o ret

@[simp] theorem pure_eq_ret (a : α) : (pure a : Prog Op Resp α) = ret a := rfl

instance : LawfulMonad (Prog Op Resp) := LawfulMonad.mk' _
  (fun p => by
    induction p with
    | ret a => rfl
    | request o k ih => exact congrArg (request o) (funext ih))
  (fun _ _ => rfl)
  (fun p f g => by
    induction p with
    | ret a => rfl
    | request o k ih => exact congrArg (request o) (funext ih))

/-- The value a program has returned, if it has. -/
def result? : Prog Op Resp α → Option α
  | ret a => some a
  | request _ _ => none

theorem eq_ret_of_result? {p : Prog Op Resp α} {a : α} (h : p.result? = some a) : p = ret a := by
  cases p with
  | ret b => exact congrArg ret (Option.some.inj h)
  | request o k => exact nomatch h

/-- The request a program is about to issue, if it has not returned. -/
def next? : Prog Op Resp α → Option Op
  | ret _ => none
  | request o _ => some o

/-! ## The sequential meaning -/

section Run

variable (exec : (o : Op) → S → Resp o × S)

/-- **The sequential run** under a handler: every request is answered from
the current state and moves it. -/
def run : Prog Op Resp α → S → α × S
  | ret a, s => (a, s)
  | request o k, s => run (k (exec o s).1) (exec o s).2

@[simp] theorem run_ret (a : α) (s : S) :
    run exec (ret a : Prog Op Resp α) s = (a, s) := by rfl

@[simp] theorem run_perform (o : Op) (s : S) :
    run exec (perform o) s = exec o s := by rfl

/-- A run of two programs in sequence is the second run where the first
one ended. -/
@[simp] theorem run_bind (p : Prog Op Resp α) (f : α → Prog Op Resp β) (s : S) :
    run exec (p >>= f) s = run exec (f (run exec p s).1) (run exec p s).2 := by
  induction p generalizing s with
  | ret a => rfl
  | request o k ih => exact ih _ _

@[simp] theorem run_map (p : Prog Op Resp α) (f : α → β) (s : S) :
    run exec (f <$> p) s = (f (run exec p s).1, (run exec p s).2) := by
  rw [← bind_pure_comp, run_bind]
  rfl

@[simp] theorem run_ite (c : Prop) [Decidable c] (p q : Prog Op Resp α) (s : S) :
    run exec (if c then p else q) s
      = if c then run exec p s else run exec q s := by
  split <;> rfl

/-- A list of programs has as many results. -/
theorem length_run_mapM (f : α → Prog Op Resp β) (l : List α) (s : S) :
    (run exec (l.mapM f) s).1.length = l.length := by
  induction l generalizing s with
  | nil => rfl
  | cons a l ih =>
    rw [List.mapM_cons, run_bind, run_bind]
    exact congrArg (· + 1) (ih _)

/-- **What every request keeps, every run keeps**: a reflexive and
transitive relation that holds across one request holds across a run. -/
theorem run_rel {R : S → S → Prop} (hrefl : ∀ s, R s s)
    (htrans : ∀ {s t u}, R s t → R t u → R s u)
    (hstep : ∀ o s, R s (exec o s).2) (p : Prog Op Resp α) (s : S) :
    R s (run exec p s).2 := by
  induction p generalizing s with
  | ret a => exact hrefl s
  | request o k ih => exact htrans (hstep o s) (ih _ _)

end Run

/-! ## Programs for requests -/

section Subst

variable {Op' : Type} {Resp' : Op' → Type} (h : (o : Op) → Prog Op' Resp' (Resp o))

/-- **The program with a program in the place of each request.** -/
def subst : Prog Op Resp α → Prog Op' Resp' α
  | ret a => ret a
  | request o k => h o >>= fun r => (k r).subst

@[simp] theorem subst_perform (o : Op) : (perform o).subst h = h o := bind_pure (h o)

@[simp] theorem subst_bind (p : Prog Op Resp α) (f : α → Prog Op Resp β) :
    (p >>= f).subst h = p.subst h >>= fun a => (f a).subst h := by
  induction p with
  | ret a => rfl
  | request o k ih =>
    show (h o >>= fun r => (k r >>= f).subst h) = (h o >>= fun r => (k r).subst h) >>= _
    rw [bind_assoc]
    exact bind_congr ih

@[simp] theorem subst_map (p : Prog Op Resp α) (f : α → β) :
    (f <$> p).subst h = f <$> p.subst h := by
  rw [← bind_pure_comp, ← bind_pure_comp, subst_bind]
  rfl

end Subst

end Prog

/-! ## Monitors -/

/-- **A monitor**: the phases a program goes through, the requests each
phase allows, the answers it may count on there, and the phase an answer
leads to. -/
structure Monitor (Op : Type) (Resp : Op → Type) (Φ : Type) where
  /-- The requests allowed in a phase. -/
  allows : Φ → Op → Prop
  /-- The answers a request is known to get in a phase. -/
  admits : Φ → (o : Op) → Resp o → Prop
  /-- The phase after a request and its answer. -/
  next : Φ → (o : Op) → Resp o → Φ

namespace Prog

variable (M : Monitor Op Resp Φ)

/-- **The program obeys the monitor** from the phase `φ` and ends in a
phase and with a value that satisfy `Q`: whatever admitted answers it
gets, it only issues allowed requests. -/
def Obeys : Φ → Prog Op Resp α → (Φ → α → Prop) → Prop
  | φ, ret a, Q => Q φ a
  | φ, request o k, Q =>
    M.allows φ o ∧ ∀ r, M.admits φ o r → Obeys (M.next φ o r) (k r) Q

/-- Obeying composes through sequencing: the first program ends where the
second may start. -/
@[simp] theorem obeys_bind (φ : Φ) (p : Prog Op Resp α)
    (f : α → Prog Op Resp β) (Q : Φ → β → Prop) :
    Obeys M φ (p >>= f) Q ↔ Obeys M φ p (fun φ' a => Obeys M φ' (f a) Q) := by
  induction p generalizing φ with
  | ret a => exact Iff.rfl
  | request o k ih =>
    exact and_congr_right fun _ => forall_congr' fun r =>
      imp_congr_right fun _ => ih r _

/-- A program that begins with a request. -/
theorem Obeys.perform_bind {M : Monitor Op Resp Φ} {φ : Φ} {o : Op} {f : Resp o → Prog Op Resp β}
    {Q : Φ → β → Prop} (ho : M.allows φ o)
    (h : ∀ r, M.admits φ o r → Obeys M (M.next φ o r) (f r) Q) :
    Obeys M φ (perform o >>= f) Q :=
  ⟨ho, h⟩

@[simp] theorem obeys_map (φ : Φ) (p : Prog Op Resp α) (f : α → β) (Q : Φ → β → Prop) :
    Obeys M φ (f <$> p) Q ↔ Obeys M φ p (fun φ' a => Q φ' (f a)) := by
  rw [← bind_pure_comp, obeys_bind]
  exact Iff.rfl

variable {M}

/-- A weaker final condition is obeyed all the more. -/
theorem Obeys.mono {φ : Φ} {p : Prog Op Resp α} {Q Q' : Φ → α → Prop}
    (h : Obeys M φ p Q) (hQ : ∀ φ' a, Q φ' a → Q' φ' a) : Obeys M φ p Q' := by
  induction p generalizing φ with
  | ret a => exact hQ φ a h
  | request o k ih => exact ⟨h.1, fun r hr => ih r (h.2 r hr)⟩

/-- **From a monitor to an invariant of every run.** If each request the
monitor allows gets an admitted answer and carries the relation `R`
between phase and state along, then a run of an obedient program ends in
a state related to a final phase that satisfies `Q`. -/
theorem Obeys.run {exec : (o : Op) → S → Resp o × S} {R : Φ → S → Prop}
    (hstep : ∀ φ o s, M.allows φ o → R φ s →
      M.admits φ o (exec o s).1 ∧ R (M.next φ o (exec o s).1) (exec o s).2)
    {φ : Φ} {p : Prog Op Resp α} {Q : Φ → α → Prop} (h : Obeys M φ p Q)
    {s : S} (hs : R φ s) :
    ∃ φ', R φ' (Prog.run exec p s).2 ∧ Q φ' (Prog.run exec p s).1 := by
  induction p generalizing φ s with
  | ret a => exact ⟨φ, hs, h⟩
  | request o k ih =>
    obtain ⟨hr, hs'⟩ := hstep φ o s h.1 hs
    exact ih _ (h.2 _ hr) hs'

/-- **Two runs of one program.** If an allowed request gets the same answer
from two related states, an admitted one, and leaves them related, then an
obedient program returns the same from related states and leaves them
related. -/
theorem Obeys.run₂ {exec : (o : Op) → S → Resp o × S} {R : Φ → S → S → Prop}
    (hstep : ∀ φ o s s', M.allows φ o → R φ s s' →
      (exec o s').1 = (exec o s).1 ∧ M.admits φ o (exec o s).1
        ∧ R (M.next φ o (exec o s).1) (exec o s).2 (exec o s').2)
    {φ : Φ} {p : Prog Op Resp α} {Q : Φ → α → Prop} (h : Obeys M φ p Q)
    {s s' : S} (hs : R φ s s') :
    (Prog.run exec p s').1 = (Prog.run exec p s).1
      ∧ ∃ φ', R φ' (Prog.run exec p s).2 (Prog.run exec p s').2 ∧ Q φ' (Prog.run exec p s).1 := by
  induction p generalizing φ s s' with
  | ret a => exact ⟨rfl, φ, hs, h⟩
  | request o k ih =>
    obtain ⟨hanswer, hadmits, hs'⟩ := hstep φ o s s' h.1 hs
    rw [Prog.run, Prog.run, hanswer]
    exact ih _ (h.2 _ hadmits) hs'

/-- **What obedience says about a list of programs** run one after another:
if each of them comes back to the phase it started from, so does the list,
and the results are related to the programs one by one. -/
theorem Obeys.mapM {φ : Φ} {l : List α} {f : α → Prog Op Resp β}
    {R : α → β → Prop} (h : ∀ a ∈ l, Obeys M φ (f a) (fun φ' b => φ' = φ ∧ R a b)) :
    Obeys M φ (l.mapM f) (fun φ' bs => φ' = φ ∧ List.Forall₂ R l bs) := by
  induction l with
  | nil => exact ⟨rfl, .nil⟩
  | cons a l ih =>
    rw [List.mapM_cons, obeys_bind]
    refine (h a List.mem_cons_self).mono ?_
    rintro φ' b ⟨rfl, hb⟩
    rw [obeys_bind]
    refine (ih (fun a' ha' => h a' (List.mem_cons_of_mem a ha'))).mono ?_
    rintro φ' bs ⟨rfl, hbs⟩
    exact ⟨rfl, .cons hb hbs⟩

end Prog

/-! ## Frames -/

/-- The monitor that allows the requests in `A`, has no phases and counts
on nothing. -/
def Monitor.only (A : Op → Prop) : Monitor Op Resp Unit where
  allows _ o := A o
  admits _ _ _ := True
  next _ _ _ := ()

namespace Prog

/-- **The program only issues requests in `A`**, whatever it is answered. -/
def Issues (A : Op → Prop) (p : Prog Op Resp α) : Prop :=
  Obeys (Monitor.only A) () p (fun _ _ => True)

variable {A : Op → Prop}

theorem issues_ret (a : α) : Issues A (ret a : Prog Op Resp α) := trivial

theorem issues_perform {o : Op} (h : A o) :
    Issues A (perform o : Prog Op Resp (Resp o)) :=
  ⟨h, fun _ _ => trivial⟩

theorem Issues.imp {B : Op → Prop} {p : Prog Op Resp α} (h : Issues A p)
    (hAB : ∀ o, A o → B o) : Issues B p := by
  induction p with
  | ret a => trivial
  | request o k ih => exact ⟨hAB o h.1, fun r _ => ih r (h.2 r trivial)⟩

theorem Issues.bind {p : Prog Op Resp α} {f : α → Prog Op Resp β} (hp : Issues A p)
    (hf : ∀ a, Issues A (f a)) : Issues A (p >>= f) := by
  unfold Issues
  rw [obeys_bind]
  exact hp.mono fun _ a _ => hf a

theorem Issues.map {p : Prog Op Resp α} (f : α → β) (hp : Issues A p) : Issues A (f <$> p) := by
  rw [← bind_pure_comp]
  exact hp.bind fun _ => issues_ret _

theorem Issues.mapM {l : List α} {f : α → Prog Op Resp β} (h : ∀ a ∈ l, Issues A (f a)) :
    Issues A (l.mapM f) := by
  refine (Obeys.mapM (R := fun _ _ => True) fun a ha => ?_).mono fun _ _ _ => trivial
  exact (h a ha).mono fun _ _ _ => ⟨rfl, trivial⟩

/-- **From requests to a monitor**: if a phase allows the requests in `A` and
they do not leave it, a program that only issues them obeys the monitor in
that phase. -/
theorem Issues.obeys {M : Monitor Op Resp Φ} {φ : Φ}
    (hA : ∀ o, A o → M.allows φ o ∧ ∀ r, M.next φ o r = φ) {p : Prog Op Resp α}
    (h : Issues A p) : Obeys M φ p (fun φ' _ => φ' = φ) := by
  induction p with
  | ret a => rfl
  | request o k ih =>
    refine ⟨(hA o h.1).1, fun r _ => ?_⟩
    rw [(hA o h.1).2 r]
    exact ih r (h.2 r trivial)

/-- **The frame rule**: a program that only issues requests in `A` leaves
alone whatever every request in `A` leaves alone. -/
theorem Issues.run_frame {exec : (o : Op) → S → Resp o × S} {X : Type} {f : S → X}
    (hf : ∀ o s, A o → f (exec o s).2 = f s) {p : Prog Op Resp α} (h : Issues A p) (s : S) :
    f (Prog.run exec p s).2 = f s := by
  obtain ⟨_, hrun, -⟩ := Obeys.run (R := fun _ t => f t = f s)
    (fun _ o t ho ht => ⟨trivial, (hf o t ho).trans ht⟩) h rfl
  exact hrun

end Prog
