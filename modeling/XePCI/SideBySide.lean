import XePCI.Prog

/-!
# Two machines side by side

A program may use two machines that know nothing of each other: its requests
are of one kind or of the other, and each is answered by its own machine
(`Prog.both`). A program of one of them is one of both (`Prog.inl`,
`Prog.inr`).

What is known of the machines apart is known of them together. A phase is a
pair of phases, and a request moves the one it belongs to
(`Monitor.beside`); a program that obeys one of the monitors obeys both, with
the other phase where it is (`Prog.Obeys.inl`, `Prog.Obeys.inr`). The monitor
of both may ask that the second machine is at rest while the first is used.
-/

variable {Op₁ Op₂ : Type} {Resp₁ : Op₁ → Type} {Resp₂ : Op₂ → Type} {S₁ S₂ Φ₁ Φ₂ α : Type}

namespace Prog

/-- A program of the first machine. -/
def inl : Prog Op₁ Resp₁ α → Prog (Op₁ ⊕ Op₂) (Sum.elim Resp₁ Resp₂) α
  | ret a => ret a
  | request o k => request (.inl o) fun r => (k r).inl

/-- A program of the second machine. -/
def inr : Prog Op₂ Resp₂ α → Prog (Op₁ ⊕ Op₂) (Sum.elim Resp₁ Resp₂) α
  | ret a => ret a
  | request o k => request (.inr o) fun r => (k r).inr

theorem inr_map {β : Type} (f : α → β) (p : Prog Op₂ Resp₂ α) :
    ((f <$> p).inr : Prog (Op₁ ⊕ Op₂) (Sum.elim Resp₁ Resp₂) β) = f <$> p.inr := by
  induction p with
  | ret a => rfl
  | request o k ih => exact congrArg (request (Sum.inr o)) (funext ih)

/-- **Each request is answered by its own machine.** -/
def both (exec₁ : (o : Op₁) → S₁ → Resp₁ o × S₁) (exec₂ : (o : Op₂) → S₂ → Resp₂ o × S₂) :
    (o : Op₁ ⊕ Op₂) → S₁ × S₂ → Sum.elim Resp₁ Resp₂ o × (S₁ × S₂)
  | .inl o, s => ((exec₁ o s.1).1, (exec₁ o s.1).2, s.2)
  | .inr o, s => ((exec₂ o s.2).1, s.1, (exec₂ o s.2).2)

section Run

variable {exec₁ : (o : Op₁) → S₁ → Resp₁ o × S₁} {exec₂ : (o : Op₂) → S₂ → Resp₂ o × S₂}

theorem run_inl (p : Prog Op₁ Resp₁ α) (s : S₁ × S₂) :
    p.inl.run (both exec₁ exec₂) s = ((p.run exec₁ s.1).1, (p.run exec₁ s.1).2, s.2) := by
  induction p generalizing s with
  | ret a => rfl
  | request o k ih => exact ih ..

theorem run_inr (p : Prog Op₂ Resp₂ α) (s : S₁ × S₂) :
    p.inr.run (both exec₁ exec₂) s = ((p.run exec₂ s.2).1, s.1, (p.run exec₂ s.2).2) := by
  induction p generalizing s with
  | ret a => rfl
  | request o k ih => exact ih ..

end Run

end Prog

/-- **The monitors of two machines together**, the second of which is at rest
while the first is used. -/
def Monitor.beside (M₁ : Monitor Op₁ Resp₁ Φ₁) (M₂ : Monitor Op₂ Resp₂ Φ₂) (rest : Φ₂ → Prop) :
    Monitor (Op₁ ⊕ Op₂) (Sum.elim Resp₁ Resp₂) (Φ₁ × Φ₂) where
  allows φ o :=
    match o with
    | .inl o => M₁.allows φ.1 o ∧ rest φ.2
    | .inr o => M₂.allows φ.2 o
  admits φ o r :=
    match o, r with
    | .inl o, r => M₁.admits φ.1 o r
    | .inr o, r => M₂.admits φ.2 o r
  next φ o r :=
    match o, r with
    | .inl o, r => (M₁.next φ.1 o r, φ.2)
    | .inr o, r => (φ.1, M₂.next φ.2 o r)

namespace Prog

variable {M₁ : Monitor Op₁ Resp₁ Φ₁} {M₂ : Monitor Op₂ Resp₂ Φ₂} {rest : Φ₂ → Prop}
variable {φ₁ : Φ₁} {φ₂ : Φ₂} {Q : Φ₁ × Φ₂ → α → Prop}

/-- A program of the first machine leaves the phase of the second. -/
theorem Obeys.inl {p : Prog Op₁ Resp₁ α} (hrest : rest φ₂)
    (h : Obeys M₁ φ₁ p fun φ a => Q (φ, φ₂) a) :
    Obeys (M₁.beside M₂ rest) (φ₁, φ₂) p.inl Q := by
  induction p generalizing φ₁ with
  | ret a => exact h
  | request o k ih => exact ⟨⟨h.1, hrest⟩, fun r hr => ih r (h.2 r hr)⟩

/-- A program of the second machine leaves the phase of the first. -/
theorem Obeys.inr {p : Prog Op₂ Resp₂ α} (h : Obeys M₂ φ₂ p fun φ a => Q (φ₁, φ) a) :
    Obeys (M₁.beside M₂ rest) (φ₁, φ₂) p.inr Q := by
  induction p generalizing φ₂ with
  | ret a => exact h
  | request o k ih => exact ⟨h.1, fun r hr => ih r (h.2 r hr)⟩

end Prog
