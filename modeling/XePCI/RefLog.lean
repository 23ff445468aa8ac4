import Mathlib.Data.List.Basic
import Mathlib.Tactic.SplitIfs

/-!
# Reference counts, read off a log

Objects with a reference count are created with one reference, and freed
when the last one is dropped. The count is not stored here: it is a
function of what was done to the object, so the log of retains, releases
and uses is the whole state and a count can be asked for at any point of
the past. Logs are newest first.

Two facts about a log are what a memory-safety argument wants.
`RefEvent.Live`: nothing is done to an object whose count is `0`.
`RefEvent.drops`: how often an object's count fell to `0`.
-/

variable {ι : Type} [DecidableEq ι]

/-- What can be done to a reference-counted object. -/
inductive RefEvent (ι : Type) where
  /-- The object is created, with one reference. -/
  | alloc (x : ι)
  /-- A reference is added. -/
  | retain (x : ι)
  /-- A reference is dropped. -/
  | release (x : ι)
  /-- The object is read or written through a reference. -/
  | use (x : ι)
  deriving DecidableEq, Repr

namespace RefEvent

/-- The object an event is about. -/
def obj : RefEvent ι → ι
  | alloc x | retain x | release x | use x => x

/-- The count of its object after an event, from the count before. -/
def after : RefEvent ι → ℕ → ℕ
  | alloc _, _ => 1
  | retain _, n => n + 1
  | release _, n => n - 1
  | use _, n => n

/-- **The reference count** of an object after a log. -/
def count (x : ι) : List (RefEvent ι) → ℕ
  | [] => 0
  | e :: log => if e.obj = x then e.after (count x log) else count x log

/-- Whether an event needs its object alive: all but a creation do. -/
def needsLive : RefEvent ι → Bool
  | alloc _ => false
  | _ => true

/-- **Nothing touches an object that has no reference left.** -/
def Live : List (RefEvent ι) → Prop
  | [] => True
  | e :: log => (e.needsLive = true → 0 < count e.obj log) ∧ Live log

/-- How often the count of an object fell to `0`. -/
def drops (x : ι) : List (RefEvent ι) → ℕ
  | [] => 0
  | e :: log =>
    (if 0 < count x log ∧ count x (e :: log) = 0 then 1 else 0) + drops x log

theorem count_cons (x : ι) (e : RefEvent ι) (log : List (RefEvent ι)) :
    count x (e :: log)
      = if e.obj = x then e.after (count x log) else count x log := rfl

theorem count_cons_of_eq {x : ι} {e : RefEvent ι} (h : e.obj = x) (log : List (RefEvent ι)) :
    count x (e :: log) = e.after (count x log) :=
  if_pos h

/-! ## One object's own log

The events about one object decide its count, when it falls to `0` and
whether it was touched afterwards. So a log of many objects is read one
object at a time. -/

/-- The part of a log that is about one object. -/
def about (x : ι) (log : List (RefEvent ι)) : List (RefEvent ι) :=
  log.filter fun e => e.obj = x

theorem about_append (x : ι) (es log : List (RefEvent ι)) :
    about x (es ++ log) = about x es ++ about x log :=
  List.filter_append _ _

theorem about_cons_of_eq {x : ι} {e : RefEvent ι} (h : e.obj = x) (log : List (RefEvent ι)) :
    about x (e :: log) = e :: about x log :=
  List.filter_cons_of_pos (decide_eq_true h)

theorem about_cons_of_ne {x : ι} {e : RefEvent ι} (h : e.obj ≠ x) (log : List (RefEvent ι)) :
    about x (e :: log) = about x log :=
  List.filter_cons_of_neg (fun he => h (of_decide_eq_true he))

theorem about_eq_self {x : ι} {es : List (RefEvent ι)} (h : ∀ e ∈ es, e.obj = x) :
    about x es = es :=
  List.filter_eq_self.mpr fun e he => decide_eq_true (h e he)

theorem about_eq_nil {x : ι} {es : List (RefEvent ι)} (h : ∀ e ∈ es, e.obj ≠ x) :
    about x es = [] :=
  List.filter_eq_nil_iff.mpr fun e he hx => h e he (of_decide_eq_true hx)

theorem about_reverse (x : ι) (log : List (RefEvent ι)) :
    about x log.reverse = (about x log).reverse :=
  List.filter_reverse

/-- Events about one object are that object's. -/
theorem about_append_of_obj {y : ι} {es : List (RefEvent ι)} (h : ∀ e ∈ es, e.obj = y) (x : ι)
    (log : List (RefEvent ι)) :
    about x (es ++ log) = if x = y then es ++ about x log else about x log := by
  rw [about_append]
  by_cases hx : x = y
  · rw [if_pos hx, about_eq_self (fun e he => (h e he).trans hx.symm)]
  · rw [if_neg hx, about_eq_nil (fun e he hobj => hx (hobj.symm.trans (h e he))),
      List.nil_append]

theorem count_about (x : ι) (log : List (RefEvent ι)) : count x (about x log) = count x log := by
  induction log with
  | nil => rfl
  | cons e log ih =>
    by_cases h : e.obj = x
    · rw [about_cons_of_eq h, count_cons, count_cons, ih]
    · rw [about_cons_of_ne h, ih, count_cons, if_neg h]

theorem drops_about (x : ι) (log : List (RefEvent ι)) : drops x (about x log) = drops x log := by
  induction log with
  | nil => rfl
  | cons e log ih =>
    by_cases h : e.obj = x
    · rw [about_cons_of_eq h, drops, drops, ih, count_cons, count_cons, count_about]
    · rw [about_cons_of_ne h, ih, drops, count_cons, if_neg h, if_neg (fun hc => by omega),
        Nat.zero_add]

/-- **A log touches nothing dead exactly if no object's own log does.** -/
theorem live_iff_about (log : List (RefEvent ι)) : Live log ↔ ∀ x, Live (about x log) := by
  induction log with
  | nil => exact ⟨fun _ _ => trivial, fun _ => trivial⟩
  | cons e log ih =>
    constructor
    · rintro ⟨he, hlog⟩ x
      by_cases h : e.obj = x
      · subst h
        rw [about_cons_of_eq rfl]
        exact ⟨fun hneeds => (count_about _ log).symm ▸ he hneeds, ih.mp hlog _⟩
      · rw [about_cons_of_ne h]
        exact ih.mp hlog x
    · intro hall
      have hself : Live (e :: about e.obj log) := about_cons_of_eq rfl log ▸ hall e.obj
      refine ⟨fun hneeds => count_about _ log ▸ hself.1 hneeds, ih.mpr fun x => ?_⟩
      by_cases h : e.obj = x
      · exact h ▸ hself.2
      · exact about_cons_of_ne h log ▸ hall x

/-- A pass over distinct objects does to each of them what it does to it,
and nothing else. -/
theorem about_flatMap {f : ι → List (RefEvent ι)} (hf : ∀ y, ∀ e ∈ f y, e.obj = y)
    {l : List ι} (hl : l.Nodup) (x : ι) :
    about x (l.flatMap f) = if x ∈ l then f x else [] := by
  induction l with
  | nil => rfl
  | cons y l ih =>
    obtain ⟨hy, hl⟩ := List.nodup_cons.mp hl
    rw [List.flatMap_cons, about_append, ih hl]
    by_cases h : x = y
    · subst h
      rw [about_eq_self (hf x), if_neg hy, if_pos List.mem_cons_self, List.append_nil]
    · have hne : ∀ e ∈ f y, e.obj ≠ x := fun e he hx => h (hx.symm.trans (hf y e he))
      rw [about_eq_nil hne, List.nil_append]
      simp only [List.mem_cons, h, false_or]

/-- **The object was freed**: it has no reference left, lost its last one
once, and was not touched after. -/
structure Freed (x : ι) (log : List (RefEvent ι)) : Prop where
  count_eq : count x log = 0
  drops_eq : drops x log = 1
  live : Live log

/-! ## Uses

A use changes no count. -/

theorem count_uses (x y : ι) (n : ℕ) (log : List (RefEvent ι)) :
    count x (List.replicate n (use y) ++ log) = count x log := by
  induction n with
  | zero => rfl
  | succ n ih =>
    rw [List.replicate_succ, List.cons_append, count_cons, ih]
    exact ite_self _

theorem drops_uses (x y : ι) (n : ℕ) (log : List (RefEvent ι)) :
    drops x (List.replicate n (use y) ++ log) = drops x log := by
  induction n with
  | zero => rfl
  | succ n ih =>
    rw [List.replicate_succ, List.cons_append, drops, ← List.cons_append,
      ← List.replicate_succ, count_uses, count_uses, if_neg (fun hc => by omega),
      Nat.zero_add, ih]

theorem live_uses {y : ι} (n : ℕ) {log : List (RefEvent ι)} (hy : 0 < count y log)
    (h : Live log) : Live (List.replicate n (use y) ++ log) := by
  induction n with
  | zero => exact h
  | succ n ih =>
    refine ⟨fun _ => ?_, ih⟩
    show 0 < count y (List.replicate n (use y) ++ log)
    rwa [count_uses]

/-- An object that was created, used and released was freed. -/
theorem freed_transient (x : ι) (n : ℕ) :
    Freed x (release x :: (List.replicate n (use x) ++ [alloc x])) := by
  have halloc : count x [alloc x] = 1 := count_cons_of_eq rfl []
  have hone : count x (List.replicate n (use x) ++ [alloc x]) = 1 := by
    rw [count_uses, halloc]
  have hzero : count x (release x :: (List.replicate n (use x) ++ [alloc x])) = 0 := by
    rw [count_cons_of_eq (show (release x).obj = x from rfl), hone]
    rfl
  have hlive : Live (List.replicate n (use x) ++ [alloc x]) :=
    live_uses n (halloc ▸ Nat.one_pos) ⟨fun h => Bool.noConfusion h, trivial⟩
  refine ⟨hzero, ?_, fun _ => ?_, hlive⟩
  · rw [drops, hone, hzero, drops_uses, drops, halloc]
    rfl
  · show 0 < count x (List.replicate n (use x) ++ [alloc x])
    rw [hone]
    exact Nat.one_pos

end RefEvent
