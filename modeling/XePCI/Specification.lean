import Mathlib.Data.List.Induction
import Mathlib.Data.List.Nodup
import XePCI.Pool

/-!
# What programs are for

A specification says which reply an event may get in an abstract state, and
what becomes of the state (`Spec`). It is a relation: what the specification
leaves open, an implementation may decide. This module has the three ways in
which programs are measured against one.

**One after another.** If every program that serves an event makes a step of
the specification, a list of them makes a run of it (`Spec.run_of_steps`).

**The other way round.** That a specification is not too generous is shown by
playing its runs back: if the surroundings can be made to play each step,
they can be made to play a whole run (`Spec.exists_script`). What the
surroundings have to do is a list of answers to be given from some position
on (`Serves`).

**Side by side.** Programs whose steps are interleaved are linearizable if
each takes effect at one moment of its own, so that their replies are those
of a run of the specification in the order of these moments
(`Pool.Linearization`). A program that does not change the abstract state
can take effect when it returns; one that does takes effect at the step that
changes it, when its reply may not be known to it yet. `Pool.linearizable`
is the rule: it asks for an invariant that knows, beside the phases of the
threads, the replies they are bound to.
-/

variable {Op : Type} {Resp : Op → Type} {S Φ α ι σ ε ω : Type}

/-- **A specification** of events and their replies, over an abstract
state. -/
structure Spec (σ ε ω : Type) where
  /-- The event may be replied to so, and the state become the second. -/
  step : σ → ε → ω → σ → Prop

namespace Spec

/-- The runs of a specification. -/
inductive Run (A : Spec σ ε ω) : σ → List (ε × ω) → σ → Prop
  | nil (v : σ) : Run A v [] v
  | cons {v v' v'' : σ} {e : ε} {o : ω} {tr : List (ε × ω)} (h : A.step v e o v')
      (htr : Run A v' tr v'') : Run A v ((e, o) :: tr) v''

/-- The specification of events that stand for others. -/
def comap {κ : Type} (A : Spec σ ε ω) (g : κ → ε) : Spec σ κ ω :=
  ⟨fun v k o v' => A.step v (g k) o v'⟩

variable {A : Spec σ ε ω}

/-- A run may go on for a step. -/
theorem Run.snoc {v v' v'' : σ} {tr : List (ε × ω)} {e : ε} {o : ω} (h : A.Run v tr v')
    (hstep : A.step v' e o v'') : A.Run v (tr ++ [(e, o)]) v'' := by
  induction h with
  | nil v => exact .cons hstep (.nil v'')
  | cons hfirst _ ih => exact .cons hfirst (ih hstep)

/-! ## One after another -/

section Sequence

variable {exec : (o : Op) → S → Resp o × S} {f : ε → Prog Op Resp ω}

/-- The events with the replies their programs give, one after another. -/
def trace (exec : (o : Op) → S → Resp o × S) (f : ε → Prog Op Resp ω) (es : List ε) (s : S) :
    List (ε × ω) :=
  es.zip ((es.mapM f).run exec s).1

theorem run_mapM_cons (e : ε) (es : List ε) (s : S) :
    ((e :: es).mapM f).run exec s
      = (((f e).run exec s).1 :: ((es.mapM f).run exec ((f e).run exec s).2).1,
        ((es.mapM f).run exec ((f e).run exec s).2).2) := by
  rw [List.mapM_cons, Prog.run_bind, Prog.run_bind]
  rfl

/-- **What every program does, a list of programs does**: let `R` relate the
states to the abstract ones. -/
theorem run_of_steps {R : S → σ → Prop}
    (hstep : ∀ e s v, R s v →
      ∃ v', A.step v e ((f e).run exec s).1 v' ∧ R ((f e).run exec s).2 v')
    (es : List ε) {s : S} {v : σ} (hs : R s v) :
    ∃ v', A.Run v (trace exec f es s) v' ∧ R ((es.mapM f).run exec s).2 v' := by
  induction es generalizing s v with
  | nil => exact ⟨v, .nil v, hs⟩
  | cons e es ih =>
    obtain ⟨v₁, hfirst, hs₁⟩ := hstep e s v hs
    obtain ⟨v₂, hrest, hs₂⟩ := ih hs₁
    refine ⟨v₂, ?_, ?_⟩
    · unfold trace
      rw [run_mapM_cons]
      exact .cons hfirst hrest
    · rw [run_mapM_cons]
      exact hs₂

/-- **A run is played back** by surroundings `env` that follow a script: if
every step of the specification has one, so has every run, put together from
those of its steps. -/
theorem exists_script {E χ : Type} [Append χ] [Inhabited χ]
    {exec : E → (o : Op) → S → Resp o × S} {R : S → σ → Prop} {Follows : E → S → χ → Prop}
    (hstep : ∀ {v e o v'}, A.step v e o v' → ∃ x : χ, ∀ env s y, R s v →
      Follows env s (x ++ y) → ((f e).run (exec env) s).1 = o
        ∧ R ((f e).run (exec env) s).2 v' ∧ Follows env ((f e).run (exec env) s).2 y)
    {v v' : σ} {tr : List (ε × ω)} (h : A.Run v tr v') :
    ∃ x : χ, ∀ env s, R s v → Follows env s x →
      (((tr.map Prod.fst).mapM f).run (exec env) s).1 = tr.map Prod.snd := by
  induction h with
  | nil v => exact ⟨default, fun _ _ _ _ => rfl⟩
  | cons hfirst _ ih =>
    obtain ⟨x, hx⟩ := hstep hfirst
    obtain ⟨y, hy⟩ := ih
    refine ⟨x ++ y, fun env s hs hfollows => ?_⟩
    obtain ⟨hreply, hs', hfollows'⟩ := hx env s y hs hfollows
    rw [List.map_cons, run_mapM_cons, hy env _ hs' hfollows', hreply]
    rfl

end Sequence

end Spec

/-! ## Answers to be given -/

/-- The function gives the answers of the list, from the position `n` on. -/
def Serves (f : ℕ → α) (n : ℕ) (l : List α) : Prop :=
  ∀ i a, l[i]? = some a → f (n + i) = a

theorem serves_cons {f : ℕ → α} {n : ℕ} {a : α} {l : List α} :
    Serves f n (a :: l) ↔ f n = a ∧ Serves f (n + 1) l := by
  constructor
  · intro h
    refine ⟨h 0 a rfl, fun i b hb => ?_⟩
    rw [Nat.add_assoc, Nat.add_comm 1 i]
    exact h (i + 1) b hb
  · rintro ⟨ha, h⟩ (_ | i) b hb
    · exact ha.trans (Option.some.inj hb)
    · rw [← Nat.add_comm 1 i, ← Nat.add_assoc]
      exact h i b hb

/-- Any answers can be given. -/
theorem exists_serves [Inhabited α] (n : ℕ) (l : List α) : ∃ f, Serves f n l :=
  ⟨fun k => (l[k - n]?).getD default, fun i a h => by
    show (l[n + i - n]?).getD default = a
    rw [Nat.add_sub_cancel_left, h]
    rfl⟩

/-! ## Side by side -/

/-- The moment at which a thread takes effect, and the reply it then is bound
to. -/
structure Commit (ι ω : Type) where
  /-- The position in the schedule. -/
  time : ℕ
  /-- The thread. -/
  thread : ι
  /-- Its reply. -/
  reply : ω

namespace Pool

variable [DecidableEq ι] (A : Spec σ ε ω) (exec : (o : Op) → S → Resp o × S)
variable (event : ι → ε) (reply : α → ω)

/-- **A linearization** of a schedule: every thread takes effect once at most,
at a step of its own, the replies in the order of these steps are a run of the
specification, and a thread that has returned at some moment took effect
before that moment, with the reply that it returned. -/
structure Linearization (c : Pool Op Resp S α ι) (v : σ) (sched : List ι)
    (commits : List (Commit ι ω)) : Prop where
  ordered : commits.Pairwise fun k k' => k.time < k'.time
  ownStep : ∀ k ∈ commits, sched[k.time]? = some k.thread
  once : (commits.map Commit.thread).Nodup
  legal : ∃ v', A.Run v (commits.map fun k => (event k.thread, k.reply)) v'
  returned : ∀ n i a, i ∈ sched.take n →
    ((c.runs exec (sched.take n)).thread i).result? = some a →
      ∃ k ∈ commits, k.time < n ∧ k.thread = i ∧ k.reply = reply a

variable {A exec event reply}

section Rule

variable {M : Monitor Op Resp Φ} {Q : ι → Φ → α → Prop} {view : S → σ}
variable {R : S → (ι → Φ) → (ι → Option ω) → Prop} {G : Pool Op Resp S α ι → ι → Prop}

variable (A exec event reply) in
/-- **How threads take effect.** The relation `R` is between the shared state,
the phases of the threads and the replies they are bound to. A step leaves
the abstract state alone, or its thread takes effect there and is bound; and
a thread that returns without being bound could take effect there and then,
with nothing changed. -/
structure TakesEffect (M : Monitor Op Resp Φ) (Q : ι → Φ → α → Prop) (view : S → σ)
    (R : S → (ι → Φ) → (ι → Option ω) → Prop) (G : Pool Op Resp S α ι → ι → Prop) : Prop where
  step : ∀ (c : Pool Op Resp S α ι) i o k φs bound, c.thread i = .request o k →
    (∀ j, Prog.Obeys M (φs j) (c.thread j) (Q j)) → R c.shared φs bound → G c i →
    M.allows (φs i) o →
      M.admits (φs i) o (exec o c.shared).1
        ∧ (view (exec o c.shared).2 = view c.shared
            ∧ R (exec o c.shared).2
              (Function.update φs i (M.next (φs i) o (exec o c.shared).1)) bound
          ∨ bound i = none ∧ ∃ x, A.step (view c.shared) (event i) x (view (exec o c.shared).2)
            ∧ R (exec o c.shared).2
              (Function.update φs i (M.next (φs i) o (exec o c.shared).1))
              (Function.update bound i (some x)))
  ret : ∀ i a s φs bound, R s φs bound → Q i (φs i) a →
    (∀ x, bound i = some x → x = reply a)
      ∧ (bound i = none → A.step (view s) (event i) (reply a) (view s))

variable (A event reply M Q view R) in
/-- What is known after a part of the schedule. -/
structure Linearizing (v : σ) (c : Pool Op Resp S α ι) (commits : List (Commit ι ω))
    (φs : ι → Φ) (bound : ι → Option ω) : Prop where
  inv : R c.shared φs bound
  obeys : ∀ i, Prog.Obeys M (φs i) (c.thread i) (Q i)
  legal : A.Run v (commits.map fun k => (event k.thread, k.reply)) (view c.shared)
  once : (commits.map Commit.thread).Nodup
  /-- A thread that is bound took effect. -/
  committed : ∀ i x, bound i = some x → ∃ k ∈ commits, k.thread = i ∧ k.reply = x
  /-- A thread that took effect is bound or has returned. -/
  known : ∀ k ∈ commits, bound k.thread = some k.reply
    ∨ bound k.thread = none ∧ ∃ a, c.thread k.thread = .ret a ∧ k.reply = reply a

variable {v : σ} {c : Pool Op Resp S α ι} {commits : List (Commit ι ω)} {φs : ι → Φ}
variable {bound : ι → Option ω} {i : ι}

/-- A step leaves the other threads where they are. -/
theorem thread_step_of_ne {j : ι} (hj : j ≠ i) : (c.step exec i).thread j = c.thread j := by
  cases hi : c.thread i with
  | ret a => rw [step_of_ret exec hi]
  | request o k =>
    rw [step_of_request exec hi]
    exact Function.update_of_ne hj ..

omit [DecidableEq ι] in
/-- A thread that has not taken effect may. -/
theorem nodup_snoc (h : (commits.map Commit.thread).Nodup) (hi : ∀ k ∈ commits, k.thread ≠ i)
    (t : ℕ) (x : ω) : ((commits ++ [Commit.mk t i x]).map Commit.thread).Nodup := by
  rw [List.map_append, List.map_singleton, List.nodup_append]
  refine ⟨h, List.nodup_singleton i, fun j hj j' hj' => ?_⟩
  obtain ⟨k, hk, rfl⟩ := List.mem_map.mp hj
  rw [List.mem_singleton.mp hj']
  exact hi k hk

/-- **A thread that has returned takes effect**, unless it did before. -/
theorem Linearizing.ret
    (h : Linearizing A event reply M Q view R v c commits φs bound)
    (hE : TakesEffect A exec event reply M Q view R G) {a : α} (hi : c.thread i = .ret a) (t : ℕ) :
    ∃ commits', Linearizing A event reply M Q view R v c commits' φs bound
      ∧ (commits' = commits ∨ (∀ k ∈ commits, k.thread ≠ i)
        ∧ ∃ x, commits' = commits ++ [Commit.mk t i x])
      ∧ ∃ k ∈ commits', k.thread = i ∧ k.reply = reply a := by
  have hQ := h.obeys i
  rw [hi] at hQ
  obtain ⟨hbound, hstep⟩ := hE.ret i a _ _ _ h.inv hQ
  by_cases hdone : ∃ k ∈ commits, k.thread = i
  · obtain ⟨k, hk, rfl⟩ := hdone
    refine ⟨commits, h, Or.inl rfl, k, hk, rfl, ?_⟩
    rcases h.known k hk with hsome | ⟨-, a', ha', hreply⟩
    · exact hbound _ hsome
    · rw [hi] at ha'
      cases ha'
      exact hreply
  · have hnew : ∀ k ∈ commits, k.thread ≠ i := fun k hk hki => hdone ⟨k, hk, hki⟩
    have hb : bound i = none := by
      cases hb : bound i with
      | none => rfl
      | some x =>
        obtain ⟨k, hk, hki, -⟩ := h.committed i x hb
        exact absurd hki (hnew k hk)
    refine ⟨commits ++ [Commit.mk t i (reply a)], ⟨h.inv, h.obeys, ?_, nodup_snoc h.once hnew t _,
      fun j x hj => ?_, fun k hk => ?_⟩, Or.inr ⟨hnew, _, rfl⟩, _,
      List.mem_append_right _ (List.mem_singleton_self _), rfl, rfl⟩
    · rw [List.map_append]
      exact h.legal.snoc (hstep hb)
    · obtain ⟨k, hk, hkj⟩ := h.committed j x hj
      exact ⟨k, List.mem_append_left _ hk, hkj⟩
    · rcases List.mem_append.mp hk with hk | hk
      · exact h.known k hk
      · obtain rfl := List.mem_singleton.mp hk
        exact Or.inr ⟨hb, a, hi, rfl⟩

/-- **A request of a thread** leaves the abstract state alone, or the thread
takes effect. -/
theorem Linearizing.request
    (h : Linearizing A event reply M Q view R v c commits φs bound)
    (hE : TakesEffect A exec event reply M Q view R G) (hG : G c i) {o : Op}
    {k : Resp o → Prog Op Resp α} (hi : c.thread i = .request o k) (t : ℕ) :
    ∃ commits' φs' bound',
      Linearizing A event reply M Q view R v (c.step exec i) commits' φs' bound'
        ∧ (commits' = commits ∨ (∃ x, bound' i = some x) ∧ (∀ k ∈ commits, k.thread ≠ i)
          ∧ ∃ x, commits' = commits ++ [Commit.mk t i x]) := by
  have hobeys := h.obeys i
  rw [hi] at hobeys
  obtain ⟨hadmits, hcase⟩ := hE.step c i o k φs bound hi h.obeys h.inv hG hobeys.1
  have hobeys' : ∀ j, Prog.Obeys M
      (Function.update φs i (M.next (φs i) o (exec o c.shared).1) j)
      ((c.step exec i).thread j) (Q j) := by
    rw [step_of_request exec hi]
    intro j
    by_cases hj : j = i
    · subst hj
      show Prog.Obeys M _ (Function.update c.thread j _ j) _
      rw [Function.update_self, Function.update_self]
      exact hobeys.2 _ hadmits
    · show Prog.Obeys M _ (Function.update c.thread i _ j) _
      rw [Function.update_of_ne hj, Function.update_of_ne hj]
      exact h.obeys j
  -- a thread that took effect and has returned is another one
  have hknown : ∀ k ∈ commits, bound k.thread = some k.reply
      ∨ k.thread ≠ i ∧ bound k.thread = none
        ∧ ∃ a, (c.step exec i).thread k.thread = .ret a ∧ k.reply = reply a := by
    intro k hk
    rcases h.known k hk with hsome | ⟨hnone, a, ha, hreply⟩
    · exact Or.inl hsome
    · have hki : k.thread ≠ i := fun hki => by
        rw [hki, hi] at ha
        exact nomatch ha
      refine Or.inr ⟨hki, hnone, a, ?_, hreply⟩
      rw [step_of_request exec hi]
      exact (Function.update_of_ne hki ..).trans ha
  have hshared : (c.step exec i).shared = (exec o c.shared).2 := by
    rw [step_of_request exec hi]
  rcases hcase with ⟨hview, hR⟩ | ⟨hb, x, hstep, hR⟩
  · refine ⟨commits, _, bound, ⟨hshared ▸ hR, hobeys', ?_, h.once, h.committed,
      fun k hk => (hknown k hk).imp_right And.right⟩, Or.inl rfl⟩
    rw [hshared, hview]
    exact h.legal
  · have hnew : ∀ k ∈ commits, k.thread ≠ i := fun k hk hki => by
      rcases hknown k hk with hsome | ⟨hne, -⟩
      · rw [hki] at hsome
        exact nomatch hb.symm.trans hsome
      · exact hne hki
    refine ⟨commits ++ [Commit.mk t i x], _, Function.update bound i (some x),
      ⟨hshared ▸ hR, hobeys', ?_, nodup_snoc h.once hnew t x, fun j y hj => ?_, fun k hk => ?_⟩,
      Or.inr ⟨⟨x, Function.update_self ..⟩, hnew, x, rfl⟩⟩
    · rw [List.map_append, hshared]
      exact h.legal.snoc hstep
    · by_cases hji : j = i
      · subst hji
        rw [Function.update_self] at hj
        exact ⟨_, List.mem_append_right _ (List.mem_singleton_self _), rfl, Option.some.inj hj⟩
      · rw [Function.update_of_ne hji] at hj
        obtain ⟨k, hk, hkj⟩ := h.committed j y hj
        exact ⟨k, List.mem_append_left _ hk, hkj⟩
    · rcases List.mem_append.mp hk with hk | hk
      · rw [Function.update_of_ne (hnew k hk)]
        exact (hknown k hk).imp_right And.right
      · obtain rfl := List.mem_singleton.mp hk
        exact Or.inl (Function.update_self ..)

/-- **A step of a thread**: the thread takes effect there or it does not, and
if it has returned then it has. -/
theorem Linearizing.step
    (h : Linearizing A event reply M Q view R v c commits φs bound)
    (hE : TakesEffect A exec event reply M Q view R G) (hG : G c i) (t : ℕ) :
    ∃ commits' φs' bound',
      Linearizing A event reply M Q view R v (c.step exec i) commits' φs' bound'
        ∧ (commits' = commits ∨ ∃ x, commits' = commits ++ [Commit.mk t i x])
        ∧ ∀ a, (c.step exec i).thread i = .ret a →
          ∃ k ∈ commits', k.thread = i ∧ k.reply = reply a := by
  cases hi : c.thread i with
  | ret a =>
    obtain ⟨commits', h', hgrow, hk⟩ := h.ret hE hi t
    rw [step_of_ret exec hi]
    refine ⟨commits', φs, bound, h', hgrow.imp_right And.right, fun a' ha' => ?_⟩
    rw [hi] at ha'
    cases ha'
    exact hk
  | request o k =>
    obtain ⟨commits', φs', bound', h', hgrow⟩ := h.request hE hG hi t
    cases hi' : (c.step exec i).thread i with
    | request o' k' =>
      exact ⟨commits', φs', bound', h', hgrow.imp_right fun hg => hg.2.2, fun a ha => (nomatch ha)⟩
    | ret a =>
      obtain ⟨commits'', h'', hgrow', hk⟩ := h'.ret hE hi' t
      refine ⟨commits'', φs', bound', h'', ?_, fun a' ha' => ?_⟩
      · rcases hgrow' with rfl | ⟨hnew, x, rfl⟩
        · exact hgrow.imp_right fun hg => hg.2.2
        · rcases hgrow with rfl | ⟨⟨y, hy⟩, -⟩
          · exact Or.inr ⟨x, rfl⟩
          · -- a thread that took effect at this step is bound
            obtain ⟨k', hk', hki, -⟩ := h'.committed i y hy
            exact absurd hki (hnew k' hk')
      · cases ha'
        exact hk

/-- **A schedule that is one step longer**: the thread of that step takes
effect there or nobody does, and if it has returned then it has. -/
theorem Linearization.snoc {sched : List ι} {commits' : List (Commit ι ω)}
    (h : Linearization A exec event reply c v sched commits)
    (hgrow : commits' = commits ∨ ∃ x, commits' = commits ++ [Commit.mk sched.length i x])
    (honce : (commits'.map Commit.thread).Nodup)
    (hlegal : ∃ v', A.Run v (commits'.map fun k => (event k.thread, k.reply)) v')
    (hret : ∀ a, (c.runs exec (sched ++ [i])).thread i = .ret a →
      ∃ k ∈ commits', k.thread = i ∧ k.reply = reply a) :
    Linearization A exec event reply c v (sched ++ [i]) commits' := by
  have htime : ∀ k ∈ commits, k.time < sched.length := fun k hk =>
    (List.getElem?_eq_some_iff.mp (h.ownStep k hk)).1
  have hsub : ∀ k ∈ commits, k ∈ commits' := fun k hk => by
    rcases hgrow with rfl | ⟨x, rfl⟩
    · exact hk
    · exact List.mem_append_left _ hk
  have hmem : ∀ k ∈ commits', k ∈ commits ∨ k.time = sched.length ∧ k.thread = i := fun k hk => by
    rcases hgrow with rfl | ⟨x, rfl⟩
    · exact Or.inl hk
    · refine (List.mem_append.mp hk).imp_right fun hk => ?_
      rw [List.mem_singleton.mp hk]
      exact ⟨rfl, rfl⟩
  refine ⟨?_, fun k hk => ?_, honce, hlegal, fun n j a hj ha => ?_⟩
  · rcases hgrow with rfl | ⟨x, rfl⟩
    · exact h.ordered
    · refine List.pairwise_append.mpr ⟨h.ordered, List.pairwise_singleton _ _, ?_⟩
      intro k hk k' hk'
      rw [List.mem_singleton.mp hk']
      exact htime k hk
  · rcases hmem k hk with hk | ⟨htime', hthread⟩
    · rw [List.getElem?_append_left (htime k hk)]
      exact h.ownStep k hk
    · rw [htime', hthread]
      exact List.getElem?_concat_length
  · by_cases hn : n ≤ sched.length
    · rw [List.take_append_of_le_length hn] at hj ha
      obtain ⟨k, hk, hkn⟩ := h.returned n j a hj ha
      exact ⟨k, hsub k hk, hkn⟩
    · replace hn := Nat.lt_of_not_le hn
      rw [List.take_of_length_le (Nat.le_trans (Nat.le_of_eq List.length_append) hn)] at hj ha
      have hbefore : ∀ k ∈ commits', k.time < n := fun k hk => by
        rcases hmem k hk with hk | ⟨htime', -⟩
        · exact Nat.lt_trans (htime k hk) hn
        · exact htime' ▸ hn
      by_cases hji : j = i
      · subst hji
        obtain ⟨k, hk, hkj⟩ := hret a (Prog.eq_ret_of_result? ha)
        exact ⟨k, hk, hbefore k hk, hkj⟩
      · -- a thread that did not take the step had returned before it
        rw [runs_append, show (c.runs exec sched).runs exec [i] = (c.runs exec sched).step exec i
          from rfl, thread_step_of_ne hji] at ha
        have hj : j ∈ sched := (List.mem_append.mp hj).resolve_right fun hj =>
          hji (List.mem_singleton.mp hj)
        obtain ⟨k, hk, -, hkj⟩ := h.returned sched.length j a
          (by rwa [List.take_length]) (by rwa [List.take_length])
        exact ⟨k, hsub k hk, hbefore k (hsub k hk), hkj⟩

/-- **Threads that take effect are linearizable**: by induction on the
schedule, from its end. -/
theorem linearizable (hE : TakesEffect A exec event reply M Q view R G) {s : S}
    {p : ι → Prog Op Resp α} {φ : Φ} (hp : ∀ i, Prog.Obeys M φ (p i) (Q i))
    (hs : R s (fun _ => φ) fun _ => none) {sched : List ι}
    (hG : Along exec G (start s p) sched) :
    ∃ commits, Linearization A exec event reply (start s p) (view s) sched commits := by
  suffices hind : ∃ commits φs bound,
      Linearization A exec event reply (start s p) (view s) sched commits
        ∧ Linearizing A event reply M Q view R (view s) ((start s p).runs exec sched)
          commits φs bound by
    obtain ⟨commits, -, -, hlin, -⟩ := hind
    exact ⟨commits, hlin⟩
  induction sched using List.reverseRecOn with
  | nil =>
    refine ⟨[], _, _, ⟨.nil, nofun, List.nodup_nil, ⟨_, .nil _⟩, fun n j a hj => ?_⟩,
      ⟨hs, hp, .nil _, List.nodup_nil, nofun, nofun⟩⟩
    rw [List.take_nil] at hj
    exact absurd hj List.not_mem_nil
  | append_singleton sched i ih =>
    obtain ⟨hG, hGi, -⟩ := along_append.mp hG
    obtain ⟨commits, φs, bound, hlin, hinv⟩ := ih hG
    obtain ⟨commits', φs', bound', hinv', hgrow, hret⟩ := hinv.step hE hGi sched.length
    have hruns : (start s p).runs exec (sched ++ [i])
        = ((start s p).runs exec sched).step exec i := runs_append ..
    rw [← hruns] at hinv' hret
    exact ⟨commits', φs', bound', hlin.snoc hgrow hinv'.once ⟨_, hinv'.legal⟩ hret, hinv'⟩

end Rule

end Pool
