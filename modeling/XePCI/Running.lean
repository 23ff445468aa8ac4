import XePCI.Prog

/-!
# A program among other parties

A device does not wait for the program that drives it: between two requests
of the program it may move by itself, any number of times. `Running` is a
program on its way, with the state it shares with its surroundings; a
schedule says, move by move, whether the program makes its next request or
the surroundings make one of their moves. The delay of a device is then a
matter of the schedule, and a statement about every schedule is one about
every delay.

The program is still held to its monitor, since the surroundings change the
answers it gets and not the program. So a relation between phase and state
that the requests of each phase and the moves of the surroundings carry
along holds in every state that is reached (`Running.Along.obeys`).
-/

variable {Op : Type} {Resp : Op → Type} {S Φ α E : Type}

/-- **A program on its way**: the shared state, and what is left of it. -/
structure Running (Op : Type) (Resp : Op → Type) (S α : Type) where
  /-- The state the program shares with its surroundings. -/
  state : S
  /-- What is left of the program. -/
  prog : Prog Op Resp α

namespace Running

variable (exec : (o : Op) → S → Resp o × S) (env : E → S → S)

/-- **One move**: of the program, if it has not returned, or of the
surroundings. -/
def step (c : Running Op Resp S α) : Option E → Running Op Resp S α
  | none =>
    match c.prog with
    | .ret _ => c
    | .request o k => ⟨(exec o c.state).2, k (exec o c.state).1⟩
  | some e => ⟨env e c.state, c.prog⟩

/-- The program after a schedule. -/
def runs (c : Running Op Resp S α) (sched : List (Option E)) : Running Op Resp S α :=
  sched.foldl (step exec env) c

/-- **Every move of the schedule meets the condition `G`**, read where it is
made. -/
def Along (G : Running Op Resp S α → Option E → Prop) :
    Running Op Resp S α → List (Option E) → Prop
  | _, [] => True
  | c, e :: sched => G c e ∧ Along G (c.step exec env e) sched

variable {exec env}

/-- A condition that can be checked at every move can be checked along a
schedule. -/
instance decidableAlong (G : Running Op Resp S α → Option E → Prop)
    [∀ c e, Decidable (G c e)] :
    ∀ (c : Running Op Resp S α) (sched : List (Option E)), Decidable (Along exec env G c sched)
  | _, [] => isTrue trivial
  | c, e :: sched =>
    have := decidableAlong G (c.step exec env e) sched
    inferInstanceAs (Decidable (G c e ∧ Along exec env G (c.step exec env e) sched))

/-- **From a monitor to an invariant among the surroundings.** If a
conforming request that a phase allows gets an admitted answer and carries
`R` along, and every move of the surroundings does in every phase, then so
does every conforming schedule. -/
theorem Along.obeys {M : Monitor Op Resp Φ} {Q : Φ → α → Prop}
    {G : Running Op Resp S α → Option E → Prop} {R : Φ → S → Prop}
    (hstep : ∀ (c : Running Op Resp S α) φ o k, c.prog = .request o k → M.allows φ o →
      R φ c.state → G c none →
        M.admits φ o (exec o c.state).1
          ∧ R (M.next φ o (exec o c.state).1) (exec o c.state).2)
    (henv : ∀ φ e s, R φ s → R φ (env e s))
    {c : Running Op Resp S α} {sched : List (Option E)} (hG : Along exec env G c sched) {φ : Φ}
    (hc : Prog.Obeys M φ c.prog Q) (hR : R φ c.state) :
    ∃ φ', Prog.Obeys M φ' (c.runs exec env sched).prog Q
      ∧ R φ' (c.runs exec env sched).state := by
  induction sched generalizing c φ with
  | nil => exact ⟨φ, hc, hR⟩
  | cons e sched ih =>
    obtain ⟨hnow, hlater⟩ := hG
    cases e with
    | some e => exact ih hlater hc (henv φ e c.state hR)
    | none =>
      obtain ⟨s, p⟩ := c
      cases p with
      | ret a => exact ih hlater hc hR
      | request o k =>
        obtain ⟨hadmits, hR'⟩ := hstep _ φ o k rfl hc.1 hR hnow
        exact ih hlater (hc.2 _ hadmits) hR'

end Running
