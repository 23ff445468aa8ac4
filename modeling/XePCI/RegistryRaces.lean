import XePCI.RegistryProtocol

/-!
# References while calls and shutdowns overlap

The references balance when calls and shutdowns come one after another. They
need not, and a shutdown that sweeps over the registry while a creation is
on its way releases a descriptor the creation still uses, or misses one.

What is needed for them to balance all the same is said at two requests
(`Gate`): nobody looks for the registry while a shutdown is sweeping it, and
a shutdown starts to sweep when nobody else is inside. Creations may overlap
with each other, and submissions with everything. Every request is taken to
be atomic, those of the array among them. Then, in every interleaving, no
descriptor is touched that was freed, nobody asks anything of a registry that
is gone, and when all have returned every descriptor has its two references
as a member or was freed, once (`references_balance_concurrently`). Without
the gate a creation can be left with a freed descriptor:
`creation_uses_freed`.

The invariant keeps beside the log what has become of each descriptor
(`Fate`), and says of each thread, by its phase, what it relies on
(`RegistryPhase.Placed`).
-/

open XeService

/-! ## The fate of a descriptor -/

/-- What has become of a descriptor. -/
inductive Fate where
  /-- It was not created. -/
  | unborn
  /-- The thread that created it has the one reference. -/
  | owned
  /-- It is a member of the registry: the creator's reference and the
  array's. -/
  | kept
  /-- A shutdown has dropped the creator's. -/
  | swept
  /-- It was freed. -/
  | freed
  deriving DecidableEq

namespace Fate

/-- How many references are left. -/
def refs : Fate → ℕ
  | unborn | freed => 0
  | owned | swept => 1
  | kept => 2

/-- How often the last one was dropped. -/
def drops : Fate → ℕ
  | freed => 1
  | _ => 0

/-- **What an event does to the fate of its object.** -/
inductive Moves : RefEvent ObjId → Fate → Fate → Prop
  | alloc (md : ObjId) : Moves (.alloc md) unborn owned
  | retain (md : ObjId) : Moves (.retain md) owned kept
  | undo (md : ObjId) : Moves (.release md) owned freed
  | sweep (md : ObjId) : Moves (.release md) kept swept
  | drop (md : ObjId) : Moves (.release md) swept freed
  | use (md : ObjId) {f : Fate} (hf : 0 < f.refs) : Moves (.use md) f f

end Fate

/-- **The log has led to these fates**, and touched nothing dead. -/
structure Ledger (fate : ObjId → Fate) (log : List (RefEvent ObjId)) : Prop where
  live : RefEvent.Live log
  refs : ∀ md, RefEvent.count md log = (fate md).refs
  drops : ∀ md, RefEvent.drops md log = (fate md).drops

section Ledger

variable {fate : ObjId → Fate} {log : List (RefEvent ObjId)}

/-- One more event moves the fate of one object. -/
theorem Ledger.step (h : Ledger fate log) {e : RefEvent ObjId} {f : Fate}
    (he : Fate.Moves e (fate e.obj) f) : Ledger (Function.update fate e.obj f) (e :: log) := by
  have hrefs := h.refs e.obj
  have hdrops := h.drops e.obj
  generalize hf : fate e.obj = f₀ at he hrefs hdrops
  have hself : (e.needsLive = true → 0 < f₀.refs) ∧ e.after f₀.refs = f.refs
      ∧ (if 0 < f₀.refs ∧ f.refs = 0 then 1 else 0) + f₀.drops = f.drops := by
    cases he with
    | alloc md => exact ⟨fun h => (nomatch h), rfl, rfl⟩
    | use md hf' =>
      refine ⟨fun _ => hf', rfl, ?_⟩
      rw [if_neg (by omega), Nat.zero_add]
    | retain md | undo md | sweep md | drop md => exact ⟨fun _ => by decide, rfl, rfl⟩
  refine ⟨⟨fun hneeds => hrefs ▸ hself.1 hneeds, h.live⟩, fun md => ?_, fun md => ?_⟩
  · by_cases hmd : e.obj = md
    · subst hmd
      rw [Function.update_self, RefEvent.count_cons_of_eq rfl, hrefs, hself.2.1]
    · rw [Function.update_of_ne (Ne.symm hmd), RefEvent.count_cons, if_neg hmd, h.refs]
  · by_cases hmd : e.obj = md
    · subst hmd
      rw [Function.update_self, RefEvent.drops, RefEvent.count_cons_of_eq rfl, hrefs, hself.2.1,
        hdrops, hself.2.2]
    · rw [Function.update_of_ne (Ne.symm hmd), RefEvent.drops, RefEvent.count_cons, if_neg hmd,
        if_neg (by omega), Nat.zero_add, h.drops]

/-- A use moves nothing. -/
theorem Ledger.use (h : Ledger fate log) {md : ObjId} (hmd : 0 < (fate md).refs) :
    Ledger fate (.use md :: log) := by
  have hstep := h.step (e := .use md) (.use md hmd)
  rwa [show (RefEvent.use md).obj = md from rfl, Function.update_eq_self] at hstep

/-- Releasing what is left of descriptors that were swept frees them: by
induction on the list of them. -/
theorem Ledger.dropAll (h : Ledger fate log) {l : List ObjId} (hl : l.Nodup)
    (hswept : ∀ md ∈ l, fate md = .swept) :
    Ledger (fun md => if md ∈ l then .freed else fate md) (l.map .release ++ log) := by
  induction l with
  | nil => simpa using h
  | cons x l ih =>
    obtain ⟨hx, hl⟩ := List.nodup_cons.mp hl
    have hrest := ih hl fun md hmd => hswept md (List.mem_cons_of_mem x hmd)
    have hstep := hrest.step (e := .release x) (f := .freed) (by
      show Fate.Moves (.release x) (if x ∈ l then .freed else fate x) .freed
      rw [if_neg hx, hswept x List.mem_cons_self]
      exact .drop x)
    have hfate : (fun md => if md ∈ x :: l then Fate.freed else fate md)
        = Function.update (fun md => if md ∈ l then Fate.freed else fate md) x .freed := by
      funext md
      by_cases hmd : md = x
      · subst hmd
        rw [Function.update_self, if_pos List.mem_cons_self]
      · rw [Function.update_of_ne hmd]
        simp only [List.mem_cons, hmd, false_or]
    rw [hfate]
    exact hstep

end Ledger

/-! ## What a thread relies on -/

namespace RegistryPhase

/-- Whether a thread is at the registry. -/
def isInside : RegistryPhase → Bool
  | idle | batch _ => false
  | _ => true

/-- Whether a thread is a shutdown that has begun to sweep. -/
def isSweeping : RegistryPhase → Bool
  | sweeping _ _ | picked _ _ _ | dropped => true
  | _ => false

theorem isInside_of_isSweeping {φ : RegistryPhase} (h : φ.isSweeping = true) :
    φ.isInside = true := by
  cases φ <;> first | rfl | exact absurd h Bool.false_ne_true

/-- The first `k` members of a list were swept. -/
def SweptTo (k : ℕ) (l : List ObjId) (fate : ObjId → Fate) : Prop :=
  ∀ j md, l[j]? = some md → fate md = if j < k then .swept else .kept

/-- **What a thread relies on**, by its phase. -/
def Placed (o : Objects) (fate : ObjId → Fate) : RegistryPhase → Prop
  | idle | batch _ => True
  | inside | holding _ => o.registry.isSome = true
  | entered md => o.registry.isSome = true ∧ md ∈ o.members
  | sweeping k n => ∃ a, o.registry = some a ∧ a.objs.length = n ∧ k ≤ n ∧ SweptTo k a.objs fate
  | picked k n md => ∃ a, o.registry = some a ∧ a.objs.length = n ∧ a.objs[k]? = some md
      ∧ SweptTo k a.objs fate
  | dropped => o.registry.isSome = true ∧ ∀ md ∈ o.members, fate md = .freed

theorem Placed.of_registry_eq {o o' : Objects} {fate : ObjId → Fate} {φ : RegistryPhase}
    (h : φ.Placed o fate) (hreg : o'.registry = o.registry) : φ.Placed o' fate := by
  cases φ with
  | idle | batch _ => trivial
  | _ => simpa only [Placed, Objects.members, hreg] using h

/-- Whoever is not at the registry relies on nothing. -/
theorem placed_of_outside {φ : RegistryPhase} (h : φ.isInside = false) (o : Objects)
    (fate : ObjId → Fate) : φ.Placed o fate := by
  cases φ <;> trivial

end RegistryPhase

/-- **The accounts are in order**: the fates are those the log says, a
descriptor is owned by exactly one thread, the members are kept unless a
shutdown is sweeping them, and it does so alone. -/
structure Accounts {ι : Type} (o : Objects) (φs : ι → RegistryPhase) (fate : ObjId → Fate) :
    Prop where
  ledger : Ledger fate o.log
  unborn : ∀ md, fate md = .unborn ↔ o.created ≤ md
  owner : ∀ i md, (φs i).owned? = some md → fate md = .owned
  owners : ∀ i j md, (φs i).owned? = some md → (φs j).owned? = some md → i = j
  owned : ∀ md, fate md = .owned → ∃ i, (φs i).owned? = some md
  nodup : o.members.Nodup
  member : ∀ md, fate md = .kept ∨ fate md = .swept → md ∈ o.members
  resting : (∀ i, (φs i).isSweeping = false) → ∀ md ∈ o.members, fate md = .kept
  alone : ∀ i j, (φs i).isSweeping = true → (φs j).isInside = true → i = j
  placed : ∀ i, (φs i).Placed o fate

namespace Accounts

variable {ι : Type} {o o' : Objects} {φs : ι → RegistryPhase} {fate : ObjId → Fate}

/-- What can have become of a member. -/
theorem fate_member (h : Accounts o φs fate) {md : ObjId} (hmd : md ∈ o.members) :
    fate md = .kept ∨ fate md = .swept ∨ fate md = .freed := by
  by_cases hsweep : ∀ i, (φs i).isSweeping = false
  · exact Or.inl (h.resting hsweep md hmd)
  · obtain ⟨i, hi⟩ := not_forall.mp hsweep
    have hplaced := h.placed i
    -- the fates of the members as the sweep has left them
    have hswept : ∀ {k : ℕ} {a : OSArray}, o.registry = some a →
        RegistryPhase.SweptTo k a.objs fate → fate md = .kept ∨ fate md = .swept := by
      intro k a ha hto
      rw [Objects.members, ha] at hmd
      obtain ⟨j, hj⟩ := List.mem_iff_getElem?.mp hmd
      rw [hto j md hj]
      split
      · exact Or.inr rfl
      · exact Or.inl rfl
    cases hφ : φs i with
    | sweeping k n =>
      rw [hφ] at hplaced
      obtain ⟨a, ha, -, -, hto⟩ := hplaced
      exact (hswept ha hto).imp id Or.inl
    | picked k n x =>
      rw [hφ] at hplaced
      obtain ⟨a, ha, -, -, hto⟩ := hplaced
      exact (hswept ha hto).imp id Or.inl
    | dropped =>
      rw [hφ] at hplaced
      exact Or.inr (Or.inr (hplaced.2 md hmd))
    | _ =>
      rw [hφ] at hi
      exact absurd rfl hi

/-- What is owned is no member. -/
theorem not_member_of_owned (h : Accounts o φs fate) {md : ObjId} (hmd : fate md = .owned) :
    md ∉ o.members := fun hmem => by
  rcases h.fate_member hmem with hf | hf | hf <;> rw [hmd] at hf <;> exact nomatch hf

/-- What was not created is no member. -/
theorem not_member_of_unborn (h : Accounts o φs fate) {md : ObjId} (hmd : o.created ≤ md) :
    md ∉ o.members := fun hmem => by
  rcases h.fate_member hmem with hf | hf | hf <;>
    rw [(h.unborn md).mpr hmd] at hf <;> exact nomatch hf

/-- Nobody sweeps while another is inside. -/
theorem no_sweep (h : Accounts o φs fate) {i : ι} (hi : (φs i).isInside = true)
    (hi' : (φs i).isSweeping = false) (j : ι) : (φs j).isSweeping = false := by
  by_contra hj
  have hj := Bool.not_eq_false _ ▸ hj
  have hij := h.alone j i hj hi
  subst hij
  rw [hi'] at hj
  exact nomatch hj

/-- Everybody else is outside while a shutdown sweeps. -/
theorem outside (h : Accounts o φs fate) {i : ι} (hi : (φs i).isSweeping = true) {j : ι}
    (hj : j ≠ i) : (φs j).isInside = false := by
  by_contra hin
  exact hj (h.alone i j hi (Bool.not_eq_false _ ▸ hin)).symm

variable [DecidableEq ι] {fate' : ObjId → Fate} {i : ι} {φ : RegistryPhase} {md : ObjId}

/-- **One thread moves.** What has to be known of the thread's new phase and
of the new objects; the other threads stay where they are. -/
theorem update (h : Accounts o φs fate) (hledger : Ledger fate' o'.log)
    (hunborn : ∀ md, fate' md = .unborn ↔ o'.created ≤ md)
    (hmine : ∀ md, φ.owned? = some md →
      fate' md = .owned ∧ (fate md = .owned → (φs i).owned? = some md))
    (htheirs : ∀ md, fate md = .owned → (φs i).owned? ≠ some md → fate' md = .owned)
    (howned : ∀ md, fate' md = .owned →
      φ.owned? = some md ∨ fate md = .owned ∧ (φs i).owned? ≠ some md)
    (hnodup : o'.members.Nodup)
    (hmember : ∀ md, fate' md = .kept ∨ fate' md = .swept → md ∈ o'.members)
    (hresting : φ.isSweeping = false → (∀ j, j ≠ i → (φs j).isSweeping = false) →
      ∀ md ∈ o'.members, fate' md = .kept)
    (hsweep : φ.isSweeping = true → ∀ j, j ≠ i → (φs j).isInside = false)
    (hinside : φ.isInside = true → ∀ j, j ≠ i → (φs j).isSweeping = false)
    (hplaced : φ.Placed o' fate')
    (hplaced' : ∀ j, j ≠ i → (φs j).Placed o fate → (φs j).Placed o' fate') :
    Accounts o' (Function.update φs i φ) fate' := by
  have hself : Function.update φs i φ i = φ := Function.update_self ..
  have hother : ∀ {j}, j ≠ i → Function.update φs i φ j = φs j :=
    fun hj => Function.update_of_ne hj ..
  -- another thread does not own what the thread `i` owned
  have hnot : ∀ {j md}, j ≠ i → (φs j).owned? = some md → (φs i).owned? ≠ some md :=
    fun hj hown hi => hj (h.owners _ _ _ hown hi)
  refine ⟨hledger, hunborn, fun j md hj => ?_, fun j k md hj hk => ?_, fun md hmd => ?_, hnodup,
    hmember, fun hrest => ?_, fun j k hj hk => ?_, fun j => ?_⟩
  · by_cases hji : j = i
    · rw [hji, hself] at hj
      exact (hmine md hj).1
    · rw [hother hji] at hj
      exact htheirs md (h.owner j md hj) (hnot hji hj)
  · by_cases hji : j = i <;> by_cases hki : k = i
    · rw [hji, hki]
    · rw [hji, hself] at hj
      rw [hother hki] at hk
      exact absurd ((hmine md hj).2 (h.owner k md hk)) (hnot hki hk)
    · rw [hki, hself] at hk
      rw [hother hji] at hj
      exact absurd ((hmine md hk).2 (h.owner j md hj)) (hnot hji hj)
    · rw [hother hji] at hj
      rw [hother hki] at hk
      exact h.owners j k md hj hk
  · rcases howned md hmd with hi | ⟨hown, hi⟩
    · exact ⟨i, (congrArg RegistryPhase.owned? hself).trans hi⟩
    · obtain ⟨j, hj⟩ := h.owned md hown
      have hji : j ≠ i := fun hji => hi (hji ▸ hj)
      exact ⟨j, hother hji ▸ hj⟩
  · exact hresting (hself ▸ hrest i) fun j hj => hother hj ▸ hrest j
  · by_cases hji : j = i <;> by_cases hki : k = i
    · rw [hji, hki]
    · rw [hji, hself] at hj
      rw [hother hki, hsweep hj k hki] at hk
      exact nomatch hk
    · rw [hki, hself] at hk
      rw [hother hji, hinside hk j hji] at hj
      exact nomatch hj
    · rw [hother hji] at hj
      rw [hother hki] at hk
      exact h.alone j k hj hk
  · by_cases hj : j = i
    · rw [hj, hself]
      exact hplaced
    · rw [hother hj]
      exact hplaced' j hj (h.placed j)

/-- A step that leaves the fates alone: the thread moves on with the
descriptor it owned, and may be inside, or sweep, if the others let it. -/
theorem move (h : Accounts o φs fate) (hreg : o'.registry = o.registry)
    (hcreated : o'.created = o.created) (hledger : Ledger fate o'.log)
    (howned : φ.owned? = (φs i).owned?) (hplaced : φ.Placed o fate)
    (hstay : (φs i).isSweeping = true → φ.isSweeping = true)
    (hsweep : φ.isSweeping = true → ∀ j, j ≠ i → (φs j).isInside = false)
    (hinside : φ.isInside = true → ∀ j, j ≠ i → (φs j).isSweeping = false) :
    Accounts o' (Function.update φs i φ) fate := by
  have hmembers : o'.members = o.members := by rw [Objects.members, hreg, Objects.members]
  refine h.update hledger (hcreated ▸ h.unborn)
    (fun md hmd => ⟨h.owner i md (howned ▸ hmd), fun _ => howned ▸ hmd⟩) (fun md hmd _ => hmd)
    (fun md hmd => ?_) (hmembers ▸ h.nodup) (fun md hmd => hmembers ▸ h.member md hmd) ?_
    hsweep hinside (hplaced.of_registry_eq hreg) fun j _ hj => hj.of_registry_eq hreg
  · by_cases hi : (φs i).owned? = some md
    · exact Or.inl (howned.trans hi)
    · exact Or.inr ⟨hmd, hi⟩
  · intro hφ hothers md hmd
    refine h.resting (fun j => ?_) md (hmembers ▸ hmd)
    by_cases hj : j = i
    · rw [hj]
      by_contra hsw
      rw [hstay (Bool.not_eq_false _ ▸ hsw)] at hφ
      exact nomatch hφ
    · exact hothers j hj

/-! ### Descriptors come and go -/

/-- What the others rely on does not change with the fate of what is no
member. -/
theorem placed_update (hmd : md ∉ o.members) (f : Fate) {φ : RegistryPhase}
    (h : φ.Placed o fate) : φ.Placed o (Function.update fate md f) := by
  have hne : ∀ x ∈ o.members, Function.update fate md f x = fate x :=
    fun x hx => Function.update_of_ne (fun hxmd : x = md => hmd (hxmd ▸ hx)) ..
  have hswept : ∀ {k : ℕ} {a : OSArray}, o.registry = some a →
      RegistryPhase.SweptTo k a.objs fate →
      RegistryPhase.SweptTo k a.objs (Function.update fate md f) := by
    intro k a ha hto j x hj
    rw [hne x (by rw [Objects.members, ha]; exact List.mem_of_getElem? hj)]
    exact hto j x hj
  cases φ with
  | sweeping k n =>
    obtain ⟨a, ha, hn, hk, hto⟩ := h
    exact ⟨a, ha, hn, hk, hswept ha hto⟩
  | picked k n x =>
    obtain ⟨a, ha, hn, hx, hto⟩ := h
    exact ⟨a, ha, hn, hx, hswept ha hto⟩
  | dropped => exact ⟨h.1, fun x hx => (hne x hx).trans (h.2 x hx)⟩
  | _ => exact h

/-- A thread that owns nothing creates a descriptor. -/
theorem alloc (h : Accounts o φs fate) (hnone : (φs i).owned? = none)
    (hrest : (φs i).isSweeping = false) (hown : φ.owned? = some o.created)
    (hin : φ.isInside = (φs i).isInside) (hrest' : φ.isSweeping = false)
    (hplaced : φ.Placed o fate) :
    Accounts o.alloc (Function.update φs i φ) (Function.update fate o.created .owned) := by
  have hborn : fate o.created = .unborn := (h.unborn _).mpr le_rfl
  have hnot := h.not_member_of_unborn le_rfl
  have hne : ∀ {md}, fate md ≠ .unborn → md ≠ o.created := fun hmd heq => hmd (heq ▸ hborn)
  have hfate : ∀ {md}, md ≠ o.created → Function.update fate o.created .owned md = fate md :=
    fun hmd => Function.update_of_ne hmd ..
  refine h.update (h.ledger.step (e := .alloc o.created) (hborn ▸ .alloc _)) (fun md => ?_)
    (fun md hmd => ?_) (fun md hmd _ => ?_) (fun md hmd => ?_) h.nodup (fun md hmd => ?_)
    (fun _ hothers md hmd => ?_) (fun hsw => ?_) (fun hins j hj => ?_)
    (placed_update hnot _ hplaced) fun j _ hj => placed_update hnot _ hj
  · by_cases hmd : md = o.created
    · subst hmd
      rw [Function.update_self]
      exact iff_of_false (by decide) (Nat.not_succ_le_self _)
    · rw [hfate hmd, h.unborn]
      exact ⟨fun hle => Nat.lt_of_le_of_ne hle (Ne.symm hmd), Nat.le_of_succ_le⟩
  · obtain rfl : o.created = md := Option.some.inj (hown.symm.trans hmd)
    exact ⟨Function.update_self .., fun hf => nomatch hborn.symm.trans hf⟩
  · rw [hfate (hne (by rw [hmd]; decide))]
    exact hmd
  · by_cases hmd' : md = o.created
    · exact Or.inl (hmd' ▸ hown)
    · rw [hfate hmd'] at hmd
      exact Or.inr ⟨hmd, by rw [hnone]; exact nofun⟩
  · by_cases hmd' : md = o.created
    · rw [hmd', Function.update_self] at hmd
      exact absurd hmd (by decide)
    · rw [hfate hmd'] at hmd
      exact h.member md hmd
  · rw [hfate fun heq => hnot (heq ▸ hmd)]
    refine h.resting (fun j => ?_) md hmd
    by_cases hj : j = i
    · exact hj ▸ hrest
    · exact hothers j hj
  · rw [hrest'] at hsw
    exact nomatch hsw
  · exact h.no_sweep (hin ▸ hins) hrest j

/-- A thread releases the descriptor it owns, and is idle. -/
theorem release (h : Accounts o φs fate) (hown : (φs i).owned? = some md) :
    Accounts (o.logged (.release md)) (Function.update φs i .idle)
      (Function.update fate md .freed) := by
  have hmd := h.owner i md hown
  have hnot := h.not_member_of_owned hmd
  have hfate : ∀ {x}, x ≠ md → Function.update fate md .freed x = fate x :=
    fun hx => Function.update_of_ne hx ..
  have hrest : (φs i).isSweeping = false := by
    cases hφ : φs i <;> rw [hφ] at hown <;> first | rfl | exact nomatch hown
  refine h.update (h.ledger.step (e := .release md) (f := .freed) (hmd ▸ .undo md)) (fun x => ?_)
    (fun x hx => nomatch hx) (fun x hx hi => ?_) (fun x hx => ?_) h.nodup (fun x hx => ?_)
    (fun _ hothers x hx => ?_) (fun hsw => nomatch hsw) (fun hin => nomatch hin) trivial
    fun j _ hj => placed_update hnot _ hj
  · by_cases hx : x = md
    · subst hx
      rw [Function.update_self]
      exact iff_of_false (by decide) fun hle => nomatch ((h.unborn x).mpr hle).symm.trans hmd
    · rw [hfate hx, h.unborn]
      rfl
  · rw [hfate fun hxmd : x = md => hi (hxmd ▸ hown)]
    exact hx
  · by_cases hxmd : x = md
    · rw [hxmd, Function.update_self] at hx
      exact nomatch hx
    · rw [hfate hxmd] at hx
      exact Or.inr ⟨hx, fun hi => hxmd (Option.some.inj (hi.symm.trans hown))⟩
  · by_cases hxmd : x = md
    · rw [hxmd, Function.update_self] at hx
      exact absurd hx (by decide)
    · rw [hfate hxmd] at hx
      exact h.member x hx
  · rw [hfate fun hxmd => hnot (hxmd ▸ hx)]
    refine h.resting (fun j => ?_) x hx
    by_cases hj : j = i
    · exact hj ▸ hrest
    · exact hothers j hj

/-- A creation enters its descriptor. Whoever else is inside relies on the
registry being there and on its own members. -/
theorem enter (h : Accounts o φs fate) (hφ : φs i = .holding md) {a a' : OSArray}
    (ha : o.registry = some a) (hpush : a.push? md = some a') :
    Accounts { o.logged (.retain md) with registry := some a' }
      (Function.update φs i (.entered md)) (Function.update fate md .kept) := by
  have hmd := h.owner i md (hφ ▸ rfl)
  have hnot := h.not_member_of_owned hmd
  have hfate : ∀ {x}, x ≠ md → Function.update fate md .kept x = fate x :=
    fun hx => Function.update_of_ne hx ..
  have hsweep := h.no_sweep (i := i) (hφ ▸ rfl) (hφ ▸ rfl)
  have hmembers : Objects.members { o.logged (.retain md) with registry := some a' }
      = o.members ++ [md] := by
    show a'.objs = o.registry.elim [] OSArray.objs ++ [md]
    rw [ha]
    exact OSArray.objs_of_push hpush
  refine h.update (h.ledger.step (e := .retain md) (f := .kept) (hmd ▸ .retain md)) (fun x => ?_)
    (fun x hx => nomatch hx) (fun x hx hi => ?_) (fun x hx => ?_) ?_ (fun x hx => ?_)
    (fun _ _ x hx => ?_) (fun hsw => nomatch hsw) (fun _ j _ => hsweep j) ⟨rfl, ?_⟩ fun j _ hj => ?_
  · by_cases hx : x = md
    · subst hx
      rw [Function.update_self]
      exact iff_of_false (by decide) fun hle => nomatch ((h.unborn x).mpr hle).symm.trans hmd
    · rw [hfate hx, h.unborn]
      rfl
  · rw [hfate fun hxmd : x = md => hi (by rw [hφ, hxmd]; rfl)]
    exact hx
  · by_cases hxmd : x = md
    · rw [hxmd, Function.update_self] at hx
      exact nomatch hx
    · rw [hfate hxmd] at hx
      refine Or.inr ⟨hx, fun hi => hxmd ?_⟩
      rw [hφ] at hi
      exact (Option.some.inj hi).symm
  · rw [hmembers]
    exact List.nodup_append_comm.mp (List.nodup_cons.mpr ⟨hnot, h.nodup⟩)
  · rw [hmembers, List.mem_append, List.mem_singleton]
    by_cases hxmd : x = md
    · exact Or.inr hxmd
    · rw [hfate hxmd] at hx
      exact Or.inl (h.member x hx)
  · rw [hmembers, List.mem_append, List.mem_singleton] at hx
    rcases hx with hx | rfl
    · rw [hfate fun hxmd : x = md => hnot (hxmd ▸ hx)]
      exact h.resting hsweep x hx
    · exact Function.update_self ..
  · rw [hmembers]
    exact List.mem_append_right _ (List.mem_singleton_self md)
  · have hj' := hsweep j
    cases hφj : φs j with
    | idle | batch x => trivial
    | inside | holding x => exact rfl
    | entered x =>
      rw [hφj] at hj
      refine ⟨rfl, ?_⟩
      rw [hmembers]
      exact List.mem_append_left _ hj.2
    | sweeping k n | picked k n x | dropped =>
      rw [hφj] at hj'
      exact nomatch hj'

/-! ### A shutdown sweeps -/

/-- A shutdown drops the creator's reference of the member it looks at. -/
theorem sweepOne (h : Accounts o φs fate) {k n : ℕ} (hφ : φs i = .picked k n md) :
    Accounts (o.logged (.release md)) (Function.update φs i (.sweeping (k + 1) n))
      (Function.update fate md .swept) := by
  have hplaced := h.placed i
  rw [hφ] at hplaced
  obtain ⟨a, ha, hn, hk, hto⟩ := hplaced
  have hmd : fate md = .kept := by
    rw [hto k md hk, if_neg (Nat.lt_irrefl k)]
  have hmem : ∀ {x : ObjId} {j : ℕ}, a.objs[j]? = some x → x ∈ o.members := by
    intro x j hj
    rw [Objects.members, ha]
    exact List.mem_of_getElem? hj
  have hfate : ∀ {x}, x ≠ md → Function.update fate md .swept x = fate x :=
    fun hx => Function.update_of_ne hx ..
  have hout : ∀ j, j ≠ i → (φs j).isInside = false := fun j hj => h.outside (hφ ▸ rfl) hj
  refine h.update (h.ledger.step (e := .release md) (f := .swept) (hmd ▸ .sweep md)) (fun x => ?_)
    (fun x hx => nomatch hx) (fun x hx hi => ?_) (fun x hx => ?_) h.nodup (fun x hx => ?_)
    (fun hsw => nomatch hsw) (fun _ => hout) (fun _ j hj => ?_) ⟨a, ha, hn, ?_, fun j x hj => ?_⟩
    fun j hj _ => RegistryPhase.placed_of_outside (hout j hj) _ _
  · by_cases hx : x = md
    · subst hx
      rw [Function.update_self]
      exact iff_of_false (by decide) fun hle => nomatch ((h.unborn x).mpr hle).symm.trans hmd
    · rw [hfate hx, h.unborn]
      rfl
  · rw [hfate fun hxmd : x = md => nomatch (hxmd ▸ hx).symm.trans hmd]
    exact hx
  · by_cases hxmd : x = md
    · rw [hxmd, Function.update_self] at hx
      exact nomatch hx
    · rw [hfate hxmd] at hx
      exact Or.inr ⟨hx, by rw [hφ]; exact nofun⟩
  · by_cases hxmd : x = md
    · exact hmem (hxmd ▸ hk)
    · rw [hfate hxmd] at hx
      exact h.member x hx
  · by_contra hsw
    have hin := RegistryPhase.isInside_of_isSweeping (Bool.not_eq_false _ ▸ hsw)
    rw [hout j hj] at hin
    exact nomatch hin
  · exact hn ▸ (List.getElem?_eq_some_iff.mp hk).1
  · -- a member occurs once, so the next to be swept is the one at `k`
    have hnodup : a.objs.Nodup := by
      have hnodup := h.nodup
      rwa [Objects.members, ha] at hnodup
    by_cases hxmd : x = md
    · have hjk : j = k := (List.getElem?_inj (List.getElem?_eq_some_iff.mp hj).1 hnodup).mp
        (hj.trans (hxmd ▸ hk.symm))
      rw [hxmd, Function.update_self, hjk, if_pos (Nat.lt_succ_self k)]
    · have hjk : j ≠ k := fun hjk => hxmd (Option.some.inj (hj.symm.trans (hjk ▸ hk)))
      rw [hfate hxmd, hto j x hj]
      exact if_congr (by omega) rfl rfl

/-- It releases the array, and with it the last reference of every member. -/
theorem dropArray (h : Accounts o φs fate) {n : ℕ} (hφ : φs i = .sweeping n n) :
    Accounts { o with log := (o.members.map .release).reverse ++ o.log }
      (Function.update φs i .dropped) (fun md => if md ∈ o.members then .freed else fate md) := by
  have hplaced := h.placed i
  rw [hφ] at hplaced
  obtain ⟨a, ha, hn, -, hto⟩ := hplaced
  have hswept : ∀ md ∈ o.members, fate md = .swept := by
    intro md hmd
    rw [Objects.members, ha] at hmd
    obtain ⟨j, hj⟩ := List.mem_iff_getElem?.mp hmd
    rw [hto j md hj, if_pos (hn ▸ (List.getElem?_eq_some_iff.mp hj).1)]
  have hout : ∀ j, j ≠ i → (φs j).isInside = false := fun j hj => h.outside (hφ ▸ rfl) hj
  have hledger := h.ledger.dropAll (List.nodup_reverse.mpr h.nodup)
    fun md hmd => hswept md (List.mem_reverse.mp hmd)
  rw [List.map_reverse] at hledger
  simp only [List.mem_reverse] at hledger
  refine h.update hledger (fun x => ?_) (fun x hx => nomatch hx) (fun x hx _ => ?_) (fun x hx => ?_)
    h.nodup (fun x hx => ?_) (fun hsw => nomatch hsw) (fun _ => hout) (fun _ j hj => ?_)
    ⟨ha ▸ rfl, fun x hx => if_pos hx⟩ fun j hj _ => RegistryPhase.placed_of_outside (hout j hj) _ _
  · by_cases hx : x ∈ o.members
    · rw [if_pos hx]
      exact iff_of_false (by decide) fun hle => h.not_member_of_unborn hle hx
    · rw [if_neg hx, h.unborn]
  · rw [if_neg (h.not_member_of_owned hx)]
    exact hx
  · by_cases hxm : x ∈ o.members
    · rw [if_pos hxm] at hx
      exact nomatch hx
    · rw [if_neg hxm] at hx
      exact Or.inr ⟨hx, by rw [hφ]; exact nofun⟩
  · by_cases hxm : x ∈ o.members
    · exact hxm
    · rw [if_neg hxm] at hx
      exact absurd (h.member x hx) hxm
  · by_contra hsw
    have hin := RegistryPhase.isInside_of_isSweeping (Bool.not_eq_false _ ▸ hsw)
    rw [hout j hj] at hin
    exact nomatch hin

/-- It clears the field: there are no members any more, and there is nothing
left of those there were. -/
theorem clear (h : Accounts o φs fate) (hφ : φs i = .dropped) :
    Accounts { o with registry := none } (Function.update φs i .idle) fate := by
  have hplaced := h.placed i
  rw [hφ] at hplaced
  have hout : ∀ j, j ≠ i → (φs j).isInside = false := fun j hj => h.outside (hφ ▸ rfl) hj
  have hgone : ∀ x, ¬(fate x = .kept ∨ fate x = .swept) := fun x hx => by
    rw [hplaced.2 x (h.member x hx)] at hx
    exact absurd hx (by decide)
  exact h.update h.ledger h.unborn (fun x hx => nomatch hx) (fun x hx _ => hx)
    (fun x hx => Or.inr ⟨hx, by rw [hφ]; exact nofun⟩) List.nodup_nil
    (fun x hx => absurd hx (hgone x)) (fun _ _ x hx => nomatch hx) (fun hsw => nomatch hsw)
    (fun hin => nomatch hin) trivial
    fun j hj _ => RegistryPhase.placed_of_outside (hout j hj) _ _

end Accounts

/-! ## One request -/

/-- **The gate.** Nobody looks for the registry while a shutdown is sweeping
it, and a shutdown starts to sweep when nobody else is inside. -/
def Gate {ι : Type} (φs : ι → RegistryPhase) (i : ι) : KextOp → Prop
  | .hasBoList => ∀ j, (φs j).isSweeping = false
  | .getCount => φs i = .inside → ∀ j, j ≠ i → (φs j).isInside = false
  | _ => True

instance {ι : Type} [Fintype ι] [DecidableEq ι] (φs : ι → RegistryPhase) (i : ι) (o : KextOp) :
    Decidable (Gate φs i o) := by
  cases o <;> unfold Gate <;> infer_instance

section Step

variable {ι : Type} [DecidableEq ι] {φs : ι → RegistryPhase} {fate : ObjId → Fate} {i : ι}

theorem KextOp.keepsObjects_of_offRegistry {o : KextOp} (h : o.offRegistry = true) :
    o.keepsObjects = true := by
  cases o <;> first | rfl | exact absurd h Bool.false_ne_true

/-- A thread that uses a descriptor with a reference to it stays or goes
idle, with what it owned. -/
theorem Accounts.use {o : Objects} (h : Accounts o φs fate) {md : ObjId}
    (hmd : 0 < (fate md).refs) {φ : RegistryPhase} (howned : φ.owned? = (φs i).owned?)
    (hin : φ.isInside = false) (hrest : (φs i).isSweeping = false) :
    Accounts (o.logged (.use md)) (Function.update φs i φ) fate := by
  refine h.move rfl rfl (h.ledger.use hmd) howned (RegistryPhase.placed_of_outside hin _ _)
    (fun hsw => ?_) (fun hsw => ?_) fun hins => ?_
  · rw [hrest] at hsw
    exact nomatch hsw
  · have hins := RegistryPhase.isInside_of_isSweeping hsw
    rw [hin] at hins
    exact nomatch hins
  · rw [hin] at hins
    exact nomatch hins

/-- A thread that is not sweeping leaves the registry as it found it. -/
theorem Accounts.leave {o : Objects} (h : Accounts o φs fate) (hnone : (φs i).owned? = none)
    (hrest : (φs i).isSweeping = false) : Accounts o (Function.update φs i .idle) fate := by
  refine h.move rfl rfl h.ledger hnone.symm trivial (fun hsw => ?_) (fun hsw => nomatch hsw)
    fun hin => nomatch hin
  rw [hrest] at hsw
  exact nomatch hsw

/-- A shutdown begins to sweep the members it has counted, all of which are
kept, when nobody else is inside. -/
theorem Accounts.beginSweep (P : Platform) {s : Machine} (h : Accounts s.objects φs fate)
    (hφ : φs i = .inside) (halone : ∀ j, j ≠ i → (φs j).isInside = false) :
    Accounts (exec P .getCount s).2.objects
      (Function.update φs i (.sweeping 0 (exec P .getCount s).1.toNat)) fate := by
  have hplaced := h.placed i
  rw [hφ] at hplaced
  obtain ⟨a, ha⟩ := Option.isSome_iff_exists.mp hplaced
  have hlist : s.boList = some a := ha
  have hrest := h.no_sweep (i := i) (hφ ▸ rfl) (hφ ▸ rfl)
  rw [exec_getCount, hlist]
  refine h.move rfl rfl h.ledger (hφ ▸ rfl) ⟨a, ha, a.toNat_getCount.symm, Nat.zero_le _, ?_⟩
    (fun _ => rfl) (fun _ => halone) fun _ j _ => hrest j
  intro j md hj
  rw [if_neg (Nat.not_lt_zero j)]
  refine h.resting hrest md ?_
  rw [Objects.members, ha]
  exact List.mem_of_getElem? hj

/-- It looks at the next member, which is kept. -/
theorem Accounts.pick (P : Platform) {s : Machine} (h : Accounts s.objects φs fate) {k n : ℕ}
    (hφ : φs i = .sweeping k n) (hk : k < n) :
    Accounts (exec P (.getObject (UInt32.ofNat k)) s).2.objects
      (Function.update φs i (RegistryPhase.next (.sweeping k n) (.getObject (UInt32.ofNat k))
        (exec P (.getObject (UInt32.ofNat k)) s).1)) fate := by
  have hplaced := h.placed i
  rw [hφ] at hplaced
  obtain ⟨a, ha, hn, -, hto⟩ := hplaced
  have hlt : k < a.objs.length := hn ▸ hk
  have hlist : s.boList = some a := ha
  have hidx : (UInt32.ofNat k).toNat = k := UInt32.toNat_ofNat_of_lt (hlt.trans a.count_lt)
  have hget : exec P (.getObject (UInt32.ofNat k)) s
      = (some a.objs[k], { s with objLog := .use a.objs[k] :: s.objLog }) := by
    rw [exec_getObject, Machine.getObject, hlist, Option.bind_some, hidx,
      List.getElem?_eq_getElem hlt]
  rw [hget]
  have hmd : fate a.objs[k] = .kept := by
    rw [hto k _ (List.getElem?_eq_getElem hlt), if_neg (Nat.lt_irrefl k)]
  have hnone : (φs i).owned? = none := by rw [hφ]; rfl
  have hout : ∀ j, j ≠ i → (φs j).isInside = false := fun j hj => h.outside (hφ ▸ rfl) hj
  refine h.move rfl rfl (h.ledger.use (by rw [hmd]; decide)) hnone.symm
    ⟨a, ha, hn, List.getElem?_eq_getElem hlt, hto⟩ (fun _ => rfl) (fun _ => hout) fun _ j hj => ?_
  by_contra hsw
  have hin := RegistryPhase.isInside_of_isSweeping (Bool.not_eq_false _ ▸ hsw)
  rw [hout j hj] at hin
  exact absurd hin Bool.false_ne_true

/-- **A request that the phase allows and the gate lets through keeps the
accounts in order.** -/
theorem Accounts.request (P : Platform) {s : Machine} {o : KextOp} (h : Accounts s.objects φs fate)
    (ho : (φs i).Allows o) (hgate : Gate φs i o) :
    ∃ fate', Accounts (exec P o s).2.objects
      (Function.update φs i ((φs i).next o (exec P o s).1)) fate' := by
  have hplaced := h.placed i
  generalize hφ : φs i = φ at ho hplaced ⊢
  have howned := (congrArg RegistryPhase.owned? hφ).symm
  have hinside := (congrArg RegistryPhase.isInside hφ).symm
  cases ho with
  | other ho =>
    rw [φ.next_of_offRegistry ho, ← hφ, Function.update_eq_self,
      exec_objects P (KextOp.keepsObjects_of_offRegistry ho)]
    exact ⟨fate, h⟩
  | look =>
    refine ⟨fate, ?_⟩
    rw [exec_hasBoList]
    cases hlist : s.boList with
    | none => exact h.leave (hφ ▸ rfl) (hφ ▸ rfl)
    | some a =>
      refine h.move rfl rfl h.ledger howned ?_ (fun hsw => ?_) (fun hsw => ?_)
        fun _ j _ => hgate j
      · show s.boList.isSome = true
        rw [hlist]
        rfl
      · rw [hφ] at hsw
        exact absurd hsw Bool.false_ne_true
      · exact absurd hsw Bool.false_ne_true
  | allocBatch =>
    rcases hrun : exec P (.withOptions 4096) s with ⟨md, s'⟩
    obtain ⟨-, ⟨rfl, hobj⟩ | ⟨rfl, hobj⟩⟩ := exec_withOptions_cases hrun
    · rw [hobj]
      exact ⟨fate, h.leave (hφ ▸ rfl) (hφ ▸ rfl)⟩
    · rw [hobj]
      exact ⟨_, h.alloc (hφ ▸ rfl) (hφ ▸ rfl) rfl hinside rfl trivial⟩
  | alloc capacity =>
    rcases hrun : exec P (.withOptions capacity) s with ⟨md, s'⟩
    obtain ⟨-, ⟨rfl, hobj⟩ | ⟨rfl, hobj⟩⟩ := exec_withOptions_cases hrun
    · rw [hobj]
      exact ⟨fate, h.leave (hφ ▸ rfl) (hφ ▸ rfl)⟩
    · rw [hobj]
      exact ⟨_, h.alloc (hφ ▸ rfl) (hφ ▸ rfl) rfl hinside rfl hplaced⟩
  | batchAddress md | batchLength md =>
    have hlive : 0 < (fate md).refs := by
      rw [h.owner i md (hφ ▸ rfl)]
      decide
    exact ⟨fate, h.use hlive howned rfl (hφ ▸ rfl)⟩
  | writeBatch md =>
    have hlive : 0 < (fate md).refs := by
      rw [h.owner i md (hφ ▸ rfl)]
      decide
    have hobj : (exec P (.writeCmds md noopBatch) s).2.objects
        = s.objects.logged (.use md) := by
      rw [exec_writeCmds]
      simp [Machine.objects, Objects.logged]
    rw [hobj]
    exact ⟨fate, h.use hlive howned rfl (hφ ▸ rfl)⟩
  | releaseBatch md | undo md => exact ⟨_, h.release (hφ ▸ rfl)⟩
  | enter md =>
    rcases hrun : exec P (.setObject md) s with ⟨added, s'⟩
    obtain ⟨-, ⟨rfl, hobj⟩ | ⟨rfl, a, a', ha, hpush, -, hobj⟩⟩ := exec_setObject_cases hrun
    · refine ⟨fate, ?_⟩
      rw [hobj]
      show Accounts s.objects (Function.update φs i (.holding md)) fate
      rw [← hφ, Function.update_eq_self]
      exact h
    · rw [hobj]
      exact ⟨_, h.enter hφ ha hpush⟩
  | count md =>
    refine ⟨fate, ?_⟩
    show Accounts s.objects (Function.update φs i (.entered md)) fate
    rw [← hφ, Function.update_eq_self]
    exact h
  | address md =>
    have hlive : 0 < (fate md).refs := by
      rw [h.resting (h.no_sweep (i := i) (hφ ▸ rfl) (hφ ▸ rfl)) md hplaced.2]
      decide
    exact ⟨fate, h.use hlive howned rfl (hφ ▸ rfl)⟩
  | sweep => exact ⟨fate, h.beginSweep P hφ (hgate hφ)⟩
  | pick hk => exact ⟨fate, h.pick P hφ hk⟩
  | drop k n md => exact ⟨_, h.sweepOne hφ⟩
  | dropArray n => exact ⟨_, h.dropArray hφ⟩
  | clear => exact ⟨fate, h.clear hφ⟩

end Step

/-! ## Every interleaving -/

/-- References that are in order, while nobody is at the registry. -/
theorem Objects.Orderly.accounts {o : Objects} (ho : o.Orderly) (ι : Type) :
    Accounts o (fun _ : ι => .idle) (fun md =>
      if o.created ≤ md then .unborn else if md ∈ o.members then .kept else .freed) := by
  have hmem : ∀ md ∈ o.members, ¬o.created ≤ md := fun md hmd => Nat.not_le.mpr (ho.created md hmd)
  refine ⟨⟨ho.live, fun md => ?_, fun md => ?_⟩, fun md => ?_, fun _ _ h => (nomatch h),
    fun _ _ _ h => (nomatch h), fun md hmd => ?_, ho.nodup, fun md hmd => ?_, fun _ md hmd => ?_,
    fun _ _ h => (nomatch h), fun _ => trivial⟩
  · rw [← RefEvent.count_about]
    split_ifs with hle hmd
    · rw [ho.unborn md hle]
      rfl
    · rw [ho.kept md hmd, Objects.count_kept]
      rfl
    · exact (ho.freed md (Nat.lt_of_not_le hle) hmd).count_eq
  · rw [← RefEvent.drops_about]
    split_ifs with hle hmd
    · rw [ho.unborn md hle]
      rfl
    · rw [ho.kept md hmd]
      simp [RefEvent.drops, RefEvent.count_cons, RefEvent.obj, RefEvent.after, Fate.drops]
    · exact (ho.freed md (Nat.lt_of_not_le hle) hmd).drops_eq
  · split_ifs with hle hmd
    · exact iff_of_true rfl hle
    · exact iff_of_false (by decide) hle
    · exact iff_of_false (by decide) hle
  · split_ifs at hmd
  · split_ifs at hmd with hle hin
    · exact absurd hmd (by decide)
    · exact hin
    · exact absurd hmd (by decide)
  · rw [if_neg (hmem md hmd), if_pos hmd]

/-- Whether a request is made of the registry itself. -/
def KextOp.asksRegistry : KextOp → Bool
  | setObject _ | getCount | getObject _ | releaseArray => true
  | _ => false

/-- A thread that asks something of the registry relies on it being there. -/
theorem RegistryPhase.Placed.registry {φ : RegistryPhase} {o : KextOp} (ho : φ.Allows o)
    (hasks : o.asksRegistry = true) {ob : Objects} {fate : ObjId → Fate} (h : φ.Placed ob fate) :
    ob.registry.isSome = true := by
  cases ho with
  | other ho =>
    cases o <;> first
      | exact absurd ho Bool.false_ne_true
      | exact absurd hasks Bool.false_ne_true
  | enter md | sweep => exact h
  | count md => exact h.1
  | pick hk =>
    obtain ⟨a, ha, -⟩ := h
    exact ha ▸ rfl
  | dropArray n =>
    obtain ⟨a, ha, -⟩ := h
    exact ha ▸ rfl
  | _ => exact absurd hasks Bool.false_ne_true

section Pool

variable {ι α : Type} [DecidableEq ι]

/-- The next request of the thread passes the gate. -/
def PassesGate (c : KextPool α ι) (i : ι) : Prop :=
  match (c.thread i).next? with
  | some o => Gate (c.phases registryMonitor .idle) i o
  | none => True

instance [Fintype ι] (c : KextPool α ι) (i : ι) : Decidable (PassesGate c i) := by
  unfold PassesGate
  split <;> infer_instance

/-- **The invariant of the pool**: its threads obey the monitor, and the
accounts are in order. -/
def KeepsAccounts (c : KextPool α ι) : Prop :=
  c.Obedient registryMonitor .idle (fun φ _ => φ = .idle)
    ∧ ∃ fate, Accounts c.shared.objects (c.phases registryMonitor .idle) fate

theorem keepsAccounts_start {s₀ : Machine} (hs₀ : s₀.objects.Orderly) (work : ι → Option Call) :
    KeepsAccounts (servicePool s₀ work) :=
  ⟨obedient_servicePool s₀ work, _, hs₀.accounts ι⟩

section KeepsAccounts

variable {c : KextPool α ι} {i : ι} {o : KextOp}

/-- **A step that passes the gate keeps it.** -/
theorem KeepsAccounts.step (h : KeepsAccounts c) (P : Platform) (hG : PassesGate c i) :
    KeepsAccounts (c.step (exec P) i) := by
  refine Pool.Obedient.step_phases (G := PassesGate)
    (R := fun s φs => ∃ fate, Accounts s.objects φs fate)
    (fun c i o k hi _ ⟨fate, h⟩ hG ho => ⟨trivial, h.request P ho ?_⟩) h hG
  unfold PassesGate at hG
  rw [hi] at hG
  exact hG

/-- Nothing was touched that was freed. -/
theorem KeepsAccounts.live (h : KeepsAccounts c) : RefEvent.Live c.shared.objLog :=
  h.2.elim fun _ haccounts => haccounts.ledger.live

/-- A registry that is asked something is there. -/
theorem KeepsAccounts.registry (h : KeepsAccounts c) (hi : (c.thread i).next? = some o)
    (hasks : o.asksRegistry = true) : c.shared.boList.isSome = true := by
  obtain ⟨hobedient, fate, haccounts⟩ := h
  exact (haccounts.placed i).registry (hobedient.allows hi) hasks

end KeepsAccounts

/-- **References balance while calls and shutdowns overlap**, provided each
step passes the gate: a call of `setObject` and one of `getCount` are a step
each. At every moment nothing was touched that was freed, and nobody is about
to ask anything of a registry that is gone. When all have returned, the
members have their two references, and every other descriptor was freed,
once. -/
theorem references_balance_concurrently (P : Platform) {s₀ : Machine} (hs₀ : s₀.objects.Orderly)
    (work : ι → Option Call) {sched : List ι}
    (hgate : Pool.Along (exec P) PassesGate (servicePool s₀ work) sched) :
    let c := (servicePool s₀ work).runs (exec P) sched
    RefEvent.Live c.shared.objLog
      ∧ (∀ i o, (c.thread i).next? = some o → o.asksRegistry = true →
          c.shared.boList.isSome = true)
      ∧ ((∀ i, (c.thread i).result?.isSome = true) → ∀ md < c.shared.buffers.length,
          if md ∈ c.shared.objects.members then
            RefEvent.count md c.shared.objLog = 2 ∧ RefEvent.drops md c.shared.objLog = 0
          else RefEvent.count md c.shared.objLog = 0 ∧ RefEvent.drops md c.shared.objLog = 1) := by
  intro c
  have hkeeps : KeepsAccounts c := hgate.runs (fun _ _ hc hG => KeepsAccounts.step hc P hG)
    (keepsAccounts_start hs₀ work)
  refine ⟨hkeeps.live, fun i o ho hasks => hkeeps.registry ho hasks, fun hreturned md hmd => ?_⟩
  obtain ⟨hobedient, fate, haccounts⟩ := hkeeps
  -- everybody is idle: nobody owns a descriptor, and nobody is sweeping
  have hidle : ∀ i, c.phases registryMonitor .idle i = .idle := by
    intro i
    have hobeys := hobedient i
    obtain ⟨a, ha⟩ := Option.isSome_iff_exists.mp (hreturned i)
    rw [Prog.eq_ret_of_result? ha] at hobeys
    exact hobeys
  have hkept := haccounts.resting fun i => by rw [hidle]; rfl
  have hrefs : RefEvent.count md c.shared.objLog = (fate md).refs := haccounts.ledger.refs md
  have hdrops : RefEvent.drops md c.shared.objLog = (fate md).drops := haccounts.ledger.drops md
  rw [hrefs, hdrops]
  split_ifs with hmem
  · rw [hkept md hmem]
    exact ⟨rfl, rfl⟩
  · cases hf : fate md with
    | unborn => exact absurd ((haccounts.unborn md).mp hf) (Nat.not_le.mpr hmd)
    | owned =>
      obtain ⟨i, hi⟩ := haccounts.owned md hf
      rw [hidle] at hi
      exact nomatch hi
    | kept => exact absurd (haccounts.member md (Or.inl hf)) hmem
    | swept => exact absurd (haccounts.member md (Or.inr hf)) hmem
    | freed => exact ⟨rfl, rfl⟩

end Pool

/-! ## With and without the gate -/

/-- Two creations and a shutdown. -/
def creationsAndStop : Fin 3 → Option Call
  | 0 => some (.creating 1)
  | 1 => some (.creating 4097)
  | 2 => none

/-- The two creations overlap; the shutdown comes after them. -/
theorem references_balance_concurrently_overlap :
    RefEvent.Live ((servicePool Platform.ideal.started creationsAndStop).runs (exec Platform.ideal)
      ([0, 1, 0, 1, 0, 1, 1, 0, 1, 0] ++ List.replicate 16 2)).shared.objLog :=
  (references_balance_concurrently Platform.ideal (started_orderly _) creationsAndStop
    (by decide)).1

/-- A creation enters its descriptor, a shutdown sweeps, and the creation
fetches the address of a descriptor that was freed. -/
theorem creation_uses_freed :
    ¬RefEvent.Live ((servicePool Platform.ideal.started creationsAndStop).runs
      (exec Platform.ideal) ([0, 0, 0] ++ List.replicate 16 2 ++ [0, 0])).shared.objLog := by
  intro h
  have huse := h.1 rfl
  revert huse
  decide
