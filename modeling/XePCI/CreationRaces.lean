import XePCI.BufferObjects

/-!
# Creations that overlap

`ucCreateBuffer` enters its descriptor in the registry and then reads the
registry's count, and nothing keeps another client's call from entering its
own in between. Then the first call returns the second one's cookie.

The calls are the threads of a pool over one machine, and every request is
one step; in particular `OSArray::setObject`, which appends if it succeeds,
and `OSArray::getCount` are taken to be atomic. A creation goes through
phases (`CreatePhase`), and only one of them is delicate: between its
`setObject` and its `getCount`. The invariant is that the descriptor of a
creation in that phase is the last member. It breaks exactly where another
creation appends, so the condition under which all is well is that nobody
appends while somebody else is about to read the count (`AppendsAlone`):
`concurrent_cookies_sound`. It does not hold of every interleaving:
`two_clients_one_cookie`. What does is weaker: a cookie never lies outside
the registry, nor before the descriptor of its own call
(`cookies_in_range`).
-/

open XeService

/-- Where a creation is. -/
inductive CreatePhase where
  /-- It has no descriptor, or gave it back. -/
  | idle
  /-- It has a descriptor. -/
  | holding (md : ObjId)
  /-- The descriptor is in the registry. -/
  | added (md : ObjId)
  /-- The count was read after that. -/
  | counted (md : ObjId) (count : UInt32)

namespace CreatePhase

/-- The descriptor of a creation. -/
def held? : CreatePhase → Option ObjId
  | idle => none
  | holding md | added md | counted md _ => some md

/-- A phase that keeps the descriptor. -/
theorem held?_elim (φ : CreatePhase) {f : ObjId → CreatePhase}
    (hf : ∀ md, (f md).held? = some md) : (φ.held?.elim idle f).held? = φ.held? := by
  cases φ.held? with
  | none => rfl
  | some md => exact hf md

/-- The phase after a request and its answer. -/
def next (φ : CreatePhase) : (o : KextOp) → o.Resp → CreatePhase
  | .withOptions _, md => md.elim idle holding
  | .setObject _, true => φ.held?.elim idle added
  | .setObject _, false => idle
  | .getCount, count => φ.held?.elim idle fun md => counted md count
  | _, _ => φ

/-- The requests a creation makes, by its phase. -/
inductive Allows : CreatePhase → KextOp → Prop
  | hasBoList : Allows idle .hasBoList
  | withOptions (n : UInt32) : Allows idle (.withOptions n)
  | setObject (md : ObjId) : Allows (holding md) (.setObject md)
  | release (md : ObjId) : Allows idle (.release md)
  | getCount (md : ObjId) : Allows (added md) .getCount
  | getBytesNoCopy (md : ObjId) (n : UInt32) : Allows (counted md n) (.getBytesNoCopy md)

/-- How a creation ends: without a descriptor, or with the count it read for
its cookie. -/
def Ends (φ : CreatePhase) (r : IOReturn × UInt64) : Prop :=
  φ = idle ∧ r.1 ≠ .success
    ∨ ∃ md n, φ = counted md n ∧ r = (.success, n.toUInt64)

/-- The monitor of a creation. -/
def monitor : Monitor KextOp KextOp.Resp CreatePhase where
  allows := Allows
  admits _ _ _ := True
  next := next

/-- **`ucCreateBuffer` goes through the phases.** -/
theorem obeys_ucCreateBuffer (bytes : UInt32) :
    Prog.Obeys monitor idle (ucCreateBuffer bytes) Ends := by
  refine ⟨.hasBoList, fun ready _ => ?_⟩
  cases ready with
  | false => exact Or.inl ⟨rfl, by decide⟩
  | true =>
    refine ⟨.withOptions _, fun md _ => ?_⟩
    cases md with
    | none => exact Or.inl ⟨rfl, by decide⟩
    | some md =>
      refine ⟨.setObject md, fun added _ => ?_⟩
      cases added with
      | false => exact ⟨.release md, fun _ _ => Or.inl ⟨rfl, by decide⟩⟩
      | true =>
        refine ⟨.getCount md, fun count _ => ?_⟩
        exact ⟨.getBytesNoCopy md count, fun _ _ => Or.inr ⟨md, count, rfl, rfl⟩⟩

/-! ## Where the descriptor of a creation is -/

/-- **What a phase says about the registry**: the descriptor of a creation
that has entered it is the last member until the count was read, and the
member of that number from then on. -/
def Placed (o : Objects) : CreatePhase → Prop
  | idle => True
  | holding md => md < o.created
  | added md => md < o.created ∧ o.members.getLast? = some md
  | counted md n => md < o.created ∧ n ≠ 0 ∧ o.members[n.toNat - 1]? = some md

theorem Placed.lt_created {o : Objects} {φ : CreatePhase} (h : Placed o φ) {md : ObjId}
    (hmd : φ.held? = some md) : md < o.created := by
  cases φ with
  | idle => exact nomatch hmd
  | holding md => cases hmd; exact h
  | added md => cases hmd; exact h.1
  | counted md n => cases hmd; exact h.1

/-- The place is kept where nothing is appended. -/
theorem Placed.of_members_eq {o o' : Objects} {φ : CreatePhase} (h : Placed o φ)
    (hcreated : o.created ≤ o'.created) (hmembers : o'.members = o.members) : Placed o' φ := by
  cases φ with
  | idle => trivial
  | holding md => exact Nat.lt_of_lt_of_le h hcreated
  | added md => exact ⟨Nat.lt_of_lt_of_le h.1 hcreated, hmembers ▸ h.2⟩
  | counted md n => exact ⟨Nat.lt_of_lt_of_le h.1 hcreated, h.2.1, hmembers ▸ h.2.2⟩

/-- Where something is appended, it is kept outside the delicate phase. -/
theorem Placed.of_members_append {o o' : Objects} {φ : CreatePhase} (h : Placed o φ)
    (hcreated : o.created ≤ o'.created) {x : ObjId} (hmembers : o'.members = o.members ++ [x])
    (hφ : ∀ md, φ ≠ added md) : Placed o' φ := by
  cases φ with
  | idle => trivial
  | holding md => exact Nat.lt_of_lt_of_le h hcreated
  | added md => exact absurd rfl (hφ md)
  | counted md n =>
    obtain ⟨hlt, hn, hget⟩ := h
    refine ⟨Nat.lt_of_lt_of_le hlt hcreated, hn, ?_⟩
    obtain ⟨hbound, -⟩ := List.getElem?_eq_some_iff.mp hget
    rw [hmembers, List.getElem?_append_left hbound, hget]

end CreatePhase

/-- Whether a request appends to the registry. -/
def KextOp.appends (P : Platform) (s : Machine) : KextOp → Bool
  | .setObject md => (s.setObject P md).1
  | _ => false

/-- Whether a request reads the registry's count. -/
def KextOp.isGetCount : KextOp → Bool
  | .getCount => true
  | _ => false

namespace CreatePhase

/-- **What one request of a creation does to the registry**: no other
descriptor than a new one becomes the creation's own, and only a `setObject`
that succeeds changes the members, by its own descriptor at the end. -/
theorem exec_members (P : Platform) {φ : CreatePhase} {o : KextOp} (ho : Allows φ o)
    (s : Machine) :
    s.objects.created ≤ (exec P o s).2.objects.created
      ∧ (∀ md, (φ.next o (exec P o s).1).held? = some md →
          φ.held? = some md ∨ md = s.objects.created ∧ md < (exec P o s).2.objects.created)
      ∧ ((exec P o s).2.objects.members = s.objects.members
          ∧ (∀ md, φ.next o (exec P o s).1 = added md → φ = added md)
        ∨ o.appends P s = true ∧ ∃ md, φ = holding md
          ∧ φ.next o (exec P o s).1 = added md
          ∧ (exec P o s).2.objects.members = s.objects.members ++ [md]) := by
  cases ho with
  | hasBoList | release md =>
    exact ⟨Nat.le_refl _, fun _ hmd => Or.inl hmd, Or.inl ⟨rfl, fun _ h => h⟩⟩
  | getCount md | getBytesNoCopy md n =>
    exact ⟨Nat.le_refl _, fun _ hmd => Or.inl hmd, Or.inl ⟨rfl, fun _ h => (nomatch h)⟩⟩
  | withOptions n =>
    rcases halloc : exec P (.withOptions n) s with ⟨md, s'⟩
    obtain ⟨-, ⟨rfl, hobj⟩ | ⟨rfl, hobj⟩⟩ := exec_withOptions_cases halloc
    · exact ⟨Nat.le_of_eq (congrArg Objects.created hobj.symm), fun _ hmd => (nomatch hmd),
        Or.inl ⟨congrArg Objects.members hobj, fun _ h => (nomatch h)⟩⟩
    · have hcreated : s'.objects.created = s.objects.created + 1 := by rw [hobj]; rfl
      have hmembers : s'.objects.members = s.objects.members := by rw [hobj]; rfl
      refine ⟨Nat.le.intro hcreated.symm, fun md hmd => Or.inr ?_,
        Or.inl ⟨hmembers, fun _ h => (nomatch h)⟩⟩
      obtain rfl : s.objects.created = md := Option.some.inj hmd
      exact ⟨rfl, hcreated ▸ Nat.lt_succ_self _⟩
  | setObject md =>
    rcases hadd : exec P (.setObject md) s with ⟨added, s'⟩
    obtain ⟨-, ⟨rfl, hobj⟩ | ⟨rfl, a, a', ha, hpush, -, hobj⟩⟩ := exec_setObject_cases hadd
    · exact ⟨Nat.le_of_eq (congrArg Objects.created hobj.symm), fun _ hmd => (nomatch hmd),
        Or.inl ⟨congrArg Objects.members hobj, fun _ h => (nomatch h)⟩⟩
    · have hcreated : s'.objects.created = s.objects.created := by rw [hobj]; rfl
      have hmembers : s'.objects.members = s.objects.members ++ [md] := by
        rw [congrArg Objects.members hobj, Objects.members, Objects.members]
        show a'.objs = s.boList.elim [] OSArray.objs ++ [md]
        rw [ha]
        exact OSArray.objs_of_push hpush
      exact ⟨hcreated.ge, fun _ hmd => Or.inl hmd,
        Or.inr ⟨congrArg Prod.fst hadd, md, rfl, rfl, hmembers⟩⟩

/-- The count of a registry is the number of its members. -/
theorem toNat_count (s : Machine) :
    (s.boList.elim 0 OSArray.getCount).toNat = s.objects.members.length := by
  unfold Objects.members
  show _ = (s.boList.elim [] OSArray.objs).length
  cases s.boList with
  | none => rfl
  | some a => exact a.toNat_getCount

/-- **What one request of a creation does**: its own descriptor is placed
again, no other descriptor than a new one becomes its own, and only a
`setObject` that succeeds changes the members, by one at the end. -/
theorem exec_placed (P : Platform) {φ : CreatePhase} {o : KextOp} (ho : Allows φ o) {s : Machine}
    (h : Placed s.objects φ) :
    Placed (exec P o s).2.objects (φ.next o (exec P o s).1)
      ∧ s.objects.created ≤ (exec P o s).2.objects.created
      ∧ (∀ md, (φ.next o (exec P o s).1).held? = some md →
          φ.held? = some md ∨ md = s.objects.created)
      ∧ ((exec P o s).2.objects.members = s.objects.members
        ∨ o.appends P s = true
          ∧ ∃ x, (exec P o s).2.objects.members = s.objects.members ++ [x]) := by
  obtain ⟨hcreated, hheld, hmembers⟩ := exec_members P ho s
  refine ⟨?_, hcreated, fun md hmd => (hheld md hmd).imp_right And.left,
    hmembers.imp And.left fun ⟨happends, md, _, _, happend⟩ => ⟨happends, md, happend⟩⟩
  cases ho with
  | hasBoList | release md | getBytesNoCopy md n => exact h
  | withOptions n =>
    rcases halloc : exec P (.withOptions n) s with ⟨md, s'⟩
    rw [halloc] at hheld
    cases md with
    | none => trivial
    | some md =>
      rcases hheld md rfl with hnone | ⟨-, hlt⟩
      · exact nomatch hnone
      · exact hlt
  | setObject md =>
    rcases hadd : exec P (.setObject md) s with ⟨added, s'⟩
    rw [hadd] at hcreated hmembers
    cases added with
    | false => trivial
    | true =>
      rcases hmembers with ⟨-, hsame⟩ | ⟨-, x, hφ, -, happend⟩
      · exact nomatch hsame md rfl
      · obtain rfl : md = x := holding.inj hφ
        refine ⟨Nat.lt_of_lt_of_le h hcreated, ?_⟩
        rw [happend]
        exact List.getLast?_concat
  | getCount md =>
    -- the descriptor is still the last member, so its position is the count
    obtain ⟨hlt, hlast⟩ := h
    have hne : s.objects.members ≠ [] := fun hnil => by
      rw [hnil] at hlast
      exact nomatch hlast
    refine ⟨hlt, fun hzero => ?_, ?_⟩
    · have hlength : s.objects.members.length = 0 :=
        (toNat_count s).symm.trans (congrArg UInt32.toNat hzero)
      exact hne (List.length_eq_zero_iff.mp hlength)
    · show s.objects.members[(s.boList.elim 0 OSArray.getCount).toNat - 1]? = some md
      rw [toNat_count, ← List.getLast?_eq_getElem?, hlast]

end CreatePhase

/-! ## The pool of creations -/

section Pool

variable {ι : Type} [DecidableEq ι]

/-- The clients' creations, before any of them has begun. -/
def creationPool (s₀ : Machine) (bytes : ι → UInt32) : KextPool (IOReturn × UInt64) ι :=
  .start s₀ fun i => ucCreateBuffer (bytes i)

/-- The descriptor the call `i` got from its allocation. -/
def allocated (i : ι) : List (ι × (o : KextOp) × o.Resp) → Option ObjId
  | [] => none
  | (j, ⟨.withOptions _, md⟩) :: log => if j = i then md else allocated i log
  | _ :: log => allocated i log

/-- **Nobody appends while another is about to read the count.** -/
def AppendsAlone (P : Platform) (c : KextPool (IOReturn × UInt64) ι) (i : ι) : Prop :=
  (c.thread i).next?.any (KextOp.appends P c.shared) = true →
    ∀ j, j ≠ i → (c.thread j).next?.any KextOp.isGetCount = false

instance [Fintype ι] (P : Platform) (c : KextPool (IOReturn × UInt64) ι) (i : ι) :
    Decidable (AppendsAlone P c i) :=
  inferInstanceAs (Decidable (_ → ∀ j, j ≠ i → _))

/-- The descriptor of a creation is the one it got from its allocation: by
induction on the log. -/
theorem allocated_of_held {i : ι} {log : List (ι × (o : KextOp) × o.Resp)} {md : ObjId}
    (h : (CreatePhase.monitor.phase .idle i log).held? = some md) :
    allocated i log = some md := by
  have hnone : none ≠ some md := (Option.some_ne_none md).symm
  induction log with
  | nil => exact absurd h hnone
  | cons e log ih =>
    obtain ⟨j, o, r⟩ := e
    rw [Monitor.phase] at h
    by_cases hj : j = i
    · rw [if_pos hj] at h
      cases o with
      | withOptions n =>
        rw [allocated, if_pos hj]
        cases r with
        | none => exact absurd h hnone
        | some md' => exact h
      | setObject _ =>
        cases r with
        | false => exact absurd h hnone
        | true => exact ih ((CreatePhase.held?_elim _ fun _ => rfl).symm.trans h)
      | getCount => exact ih ((CreatePhase.held?_elim _ fun _ => rfl).symm.trans h)
      | _ => exact ih h
    · rw [if_neg hj] at h
      cases o with
      | withOptions n =>
        rw [allocated, if_neg hj]
        exact ih h
      | _ => exact ih h

/-- In the delicate phase the next request is `getCount`. -/
theorem not_added {c : KextPool (IOReturn × UInt64) ι}
    (hc : c.Obedient CreatePhase.monitor .idle CreatePhase.Ends) {j : ι}
    (hj : (c.thread j).next?.any KextOp.isGetCount = false) (md : ObjId) :
    c.phases CreatePhase.monitor .idle j ≠ .added md := by
  intro hphase
  have hobeys : Prog.Obeys CreatePhase.monitor (.added md) (c.thread j) CreatePhase.Ends :=
    hphase ▸ hc j
  cases hthread : c.thread j with
  | ret a =>
    rw [hthread] at hobeys
    rcases hobeys with ⟨h, -⟩ | ⟨_, _, h, -⟩ <;> exact nomatch h
  | request o k =>
    rw [hthread] at hobeys hj
    obtain ⟨ho, -⟩ := hobeys
    cases ho
    exact nomatch hj

/-- No two creations come to have the same descriptor, where one of them moves
on with what it had or with a new one. -/
theorem CreatePhase.held_injective_update {φs : ι → CreatePhase} {i : ι} {φ : CreatePhase}
    {created : ℕ} (hinj : ∀ i j md, (φs i).held? = some md → (φs j).held? = some md → i = j)
    (hlt : ∀ j md, (φs j).held? = some md → md < created)
    (hheld : ∀ md, φ.held? = some md → (φs i).held? = some md ∨ md = created) (j j' : ι)
    (md : ObjId) (hj : (Function.update φs i φ j).held? = some md)
    (hj' : (Function.update φs i φ j').held? = some md) : j = j' := by
  -- what the moving thread holds now, no other thread holds
  have hnew : ∀ j, j ≠ i → φ.held? = some md → (φs j).held? ≠ some md := by
    intro j hj hmd hother
    rcases hheld md hmd with hold | rfl
    · exact hj (hinj j i md hother hold)
    · exact absurd (hlt j md hother) (Nat.lt_irrefl _)
  by_cases hji : j = i <;> by_cases hji' : j' = i
  · exact hji.trans hji'.symm
  · subst hji
    rw [Function.update_self] at hj
    rw [Function.update_of_ne hji'] at hj'
    exact absurd hj' (hnew j' hji' hj)
  · subst hji'
    rw [Function.update_self] at hj'
    rw [Function.update_of_ne hji] at hj
    exact absurd hj (hnew j hji hj')
  · rw [Function.update_of_ne hji] at hj
    rw [Function.update_of_ne hji'] at hj'
    exact hinj j j' md hj hj'

/-- **What holds of all creations together**: each descriptor is where its
phase says, and no two creations have the same one. -/
def Apart (s : Machine) (φs : ι → CreatePhase) : Prop :=
  (∀ i, (φs i).Placed s.objects)
    ∧ ∀ i j md, (φs i).held? = some md → (φs j).held? = some md → i = j

/-- One conforming step keeps the creations apart. -/
theorem Apart.step {P : Platform} {c : KextPool (IOReturn × UInt64) ι} {i : ι} {o : KextOp}
    {k : o.Resp → Kext (IOReturn × UInt64)} (hi : c.thread i = .request o k)
    (hc : c.Obedient CreatePhase.monitor .idle CreatePhase.Ends)
    (h : Apart c.shared (c.phases CreatePhase.monitor .idle)) (hG : AppendsAlone P c i)
    (ho : CreatePhase.Allows (c.phases CreatePhase.monitor .idle i) o) :
    Apart (exec P o c.shared).2 (Function.update (c.phases CreatePhase.monitor .idle) i
      ((c.phases CreatePhase.monitor .idle i).next o (exec P o c.shared).1)) := by
  obtain ⟨hplaced, hinj⟩ := h
  obtain ⟨hself, hcreated, hheld, hmembers⟩ := CreatePhase.exec_placed P ho (hplaced i)
  refine ⟨(Function.forall_update_iff _ fun _ => CreatePhase.Placed _).mpr
    ⟨hself, fun j hji => ?_⟩,
    CreatePhase.held_injective_update hinj (fun j _ => (hplaced j).lt_created) hheld⟩
  -- another thread's descriptor keeps its place, for an append is made alone
  rcases hmembers with heq | ⟨happends, x, hx⟩
  · exact (hplaced j).of_members_eq hcreated heq
  · have halone := hG (by rw [hi]; exact happends) j hji
    exact (hplaced j).of_members_append hcreated hx (not_added hc halone)

/-- **The cookies are sound**: those of the calls that succeeded are
distinct, and `boFromCookie` finds under each the descriptor its call
allocated. -/
def CookiesSound (P : Platform) (c : KextPool (IOReturn × UInt64) ι) : Prop :=
  (∀ i j cookie cookie', i ≠ j → (c.thread i).result? = some (.success, cookie) →
      (c.thread j).result? = some (.success, cookie') → cookie ≠ cookie')
    ∧ ∀ i cookie, (c.thread i).result? = some (.success, cookie) →
      ∃ md, allocated i c.log = some md
        ∧ ((boFromCookie cookie).run (exec P) c.shared).1 = some md

/-- A creation that has succeeded is found under its cookie. -/
theorem found_of_ended {P : Platform} {s : Machine} {φ : CreatePhase} {cookie : UInt64}
    (hends : φ.Ends (.success, cookie)) (hplaced : φ.Placed s.objects) :
    ∃ md, φ.held? = some md ∧ ((boFromCookie cookie).run (exec P) s).1 = some md := by
  rcases hends with ⟨-, hfail⟩ | ⟨md, n, rfl, heq⟩
  · exact absurd rfl hfail
  obtain ⟨-, hn, hget⟩ := hplaced
  obtain rfl : cookie = n.toUInt64 := congrArg Prod.snd heq
  have hzero : n.toUInt64 ≠ 0 := fun hzero => hn (UInt32.toNat_inj.mp
    ((UInt32.toNat_toUInt64 n).symm.trans (congrArg UInt64.toNat hzero)))
  refine ⟨md, rfl, ?_⟩
  rw [run_boFromCookie, if_neg hzero, UInt32.toNat_toUInt64]
  exact hget

/-- **Cookies of overlapping creations.** In every interleaving of any
number of `ucCreateBuffer` calls in which nobody appends to the registry
while another is about to read its count, the cookies are sound. -/
theorem concurrent_cookies_sound (P : Platform) (s₀ : Machine) (bytes : ι → UInt32)
    (sched : List ι) (h : Pool.Along (exec P) (AppendsAlone P) (creationPool s₀ bytes) sched) :
    CookiesSound P ((creationPool s₀ bytes).runs (exec P) sched) := by
  have hstart : (creationPool s₀ bytes).Obedient CreatePhase.monitor .idle CreatePhase.Ends :=
    Pool.obedient_start fun i => CreatePhase.obeys_ucCreateBuffer (bytes i)
  have happart : Apart s₀ fun _ : ι => CreatePhase.idle :=
    ⟨fun _ => trivial, fun _ _ _ hmd => (nomatch hmd)⟩
  obtain ⟨hobeys, hplaced, hinj⟩ := h.phases (R := Apart)
    (fun c i o k hi hc hR hG ho => ⟨trivial, hR.step hi hc hG ho⟩) hstart happart
  generalize (creationPool s₀ bytes).runs (exec P) sched = c at hobeys hplaced hinj ⊢
  have hfound : ∀ i cookie, (c.thread i).result? = some (.success, cookie) →
      ∃ md, (c.phases CreatePhase.monitor .idle i).held? = some md
        ∧ ((boFromCookie cookie).run (exec P) c.shared).1 = some md := by
    intro i cookie hret
    have hends := hobeys i
    rw [Prog.eq_ret_of_result? hret] at hends
    exact found_of_ended hends (hplaced i)
  refine ⟨fun i j cookie cookie' hij hi hj hcookie => ?_, fun i cookie hi => ?_⟩
  · obtain ⟨md, hmd, hrun⟩ := hfound i cookie hi
    obtain ⟨md', hmd', hrun'⟩ := hfound j cookie' hj
    subst hcookie
    obtain rfl : md = md' := Option.some.inj (hrun.symm.trans hrun')
    exact hij (hinj i j md hmd hmd')
  · obtain ⟨md, hmd, hrun⟩ := hfound i cookie hi
    exact ⟨md, allocated_of_held hmd, hrun⟩

/-! ## Without the condition -/

/-- **What is left of it in any interleaving**: the descriptor of a creation
that has entered it is a member, and among the first members the count it
has read. -/
def CreatePhase.Ranked (o : Objects) : CreatePhase → Prop
  | idle => True
  | holding md => md < o.created
  | added md => md < o.created ∧ md ∈ o.members
  | counted md n => md < o.created ∧ n.toNat ≤ o.members.length ∧ md ∈ o.members.take n.toNat

theorem CreatePhase.Ranked.lt_created {o : Objects} {φ : CreatePhase} (h : φ.Ranked o) {md : ObjId}
    (hmd : φ.held? = some md) : md < o.created := by
  cases φ with
  | idle => exact nomatch hmd
  | holding md => cases hmd; exact h
  | added md => cases hmd; exact h.1
  | counted md n => cases hmd; exact h.1

/-- The registry may grow. -/
theorem CreatePhase.Ranked.of_append {o o' : Objects} {φ : CreatePhase} (h : φ.Ranked o)
    (hcreated : o.created ≤ o'.created) {l : List ObjId} (hmembers : o'.members = o.members ++ l) :
    φ.Ranked o' := by
  cases φ with
  | idle => trivial
  | holding md => exact Nat.lt_of_lt_of_le h hcreated
  | added md =>
    exact ⟨Nat.lt_of_lt_of_le h.1 hcreated, hmembers ▸ List.mem_append_left l h.2⟩
  | counted md n =>
    obtain ⟨hlt, hle, htake⟩ := h
    refine ⟨Nat.lt_of_lt_of_le hlt hcreated, ?_, ?_⟩
    · rw [hmembers, List.length_append]
      omega
    · rw [hmembers, List.take_append_of_le_length hle]
      exact htake

/-- A request of a creation ranks its own descriptor again. -/
theorem CreatePhase.exec_ranked (P : Platform) {φ : CreatePhase} {o : KextOp} (ho : Allows φ o)
    {s : Machine} (h : φ.Ranked s.objects) :
    (φ.next o (exec P o s).1).Ranked (exec P o s).2.objects := by
  obtain ⟨hcreated, hheld, hmembers⟩ := exec_members P ho s
  cases ho with
  | hasBoList | release md | getBytesNoCopy md n => exact h
  | withOptions n =>
    rcases halloc : exec P (.withOptions n) s with ⟨md, s'⟩
    rw [halloc] at hheld
    cases md with
    | none => trivial
    | some md =>
      rcases hheld md rfl with hnone | ⟨-, hlt⟩
      · exact nomatch hnone
      · exact hlt
  | setObject md =>
    rcases hadd : exec P (.setObject md) s with ⟨added, s'⟩
    rw [hadd] at hcreated hmembers
    cases added with
    | false => trivial
    | true =>
      rcases hmembers with ⟨-, hsame⟩ | ⟨-, x, hφ, -, happend⟩
      · exact nomatch hsame md rfl
      · obtain rfl : md = x := holding.inj hφ
        refine ⟨Nat.lt_of_lt_of_le h hcreated, ?_⟩
        rw [happend]
        exact List.mem_append_right _ (List.mem_singleton_self md)
  | getCount md =>
    -- every member is among the first so many
    show md < s.objects.created
      ∧ (s.boList.elim 0 OSArray.getCount).toNat ≤ s.objects.members.length
      ∧ md ∈ s.objects.members.take (s.boList.elim 0 OSArray.getCount).toNat
    rw [toNat_count, List.take_length]
    exact ⟨h.1, le_rfl, h.2⟩

/-- **Cookies in any interleaving.** Whatever the order of the steps of any
number of `ucCreateBuffer` calls – `setObject` and `getCount` are one each –,
the cookie of a call that succeeded is at most the count of the registry, the
descriptor the call allocated is one of the first `cookie` members, and it is
no other call's. -/
theorem cookies_in_range (P : Platform) (s₀ : Machine) (bytes : ι → UInt32) (sched : List ι) :
    let c := (creationPool s₀ bytes).runs (exec P) sched
    (∀ i cookie, (c.thread i).result? = some (.success, cookie) →
        ∃ md, allocated i c.log = some md
          ∧ cookie.toNat ≤ c.shared.objects.members.length
          ∧ md ∈ c.shared.objects.members.take cookie.toNat)
      ∧ ∀ i j cookie cookie', i ≠ j → (c.thread i).result? = some (.success, cookie) →
        (c.thread j).result? = some (.success, cookie') →
          allocated i c.log ≠ allocated j c.log := by
  intro c
  have hfree : Pool.Along (exec P) (fun _ _ => True) (creationPool s₀ bytes) sched :=
    Pool.along_of_forall (fun _ _ => trivial) _ _
  obtain ⟨hobeys, hranked, hinj⟩ := hfree.phases (M := CreatePhase.monitor) (φ := .idle)
    (Q := CreatePhase.Ends)
    (R := fun s φs => (∀ i, (φs i).Ranked s.objects)
      ∧ ∀ i j md, (φs i).held? = some md → (φs j).held? = some md → i = j)
    (fun c i o k _ _ ⟨hranked, hinj⟩ _ ho => by
      obtain ⟨hcreated, hheld, hmembers⟩ := CreatePhase.exec_members P ho c.shared
      refine ⟨trivial, (Function.forall_update_iff _ fun _ => CreatePhase.Ranked _).mpr
        ⟨CreatePhase.exec_ranked P ho (hranked i), fun j _ => ?_⟩,
        CreatePhase.held_injective_update hinj (fun j _ => (hranked j).lt_created)
          fun md hmd => (hheld md hmd).imp_right And.left⟩
      rcases hmembers with ⟨heq, -⟩ | ⟨-, x, -, -, hx⟩
      · exact (hranked j).of_append hcreated (heq.trans (List.append_nil _).symm)
      · exact (hranked j).of_append hcreated hx)
    (Pool.obedient_start fun i => CreatePhase.obeys_ucCreateBuffer (bytes i))
    ⟨fun _ => trivial, fun _ _ _ hmd => (nomatch hmd)⟩
  -- a call that has succeeded has read its cookie
  have hcounted : ∀ i cookie, (c.thread i).result? = some (.success, cookie) →
      ∃ md n, c.phases CreatePhase.monitor .idle i = .counted md n ∧ cookie = n.toUInt64 := by
    intro i cookie hret
    have hends := hobeys i
    rw [Prog.eq_ret_of_result? hret] at hends
    rcases hends with ⟨-, hfail⟩ | ⟨md, n, hφ, heq⟩
    · exact absurd rfl hfail
    · exact ⟨md, n, hφ, congrArg Prod.snd heq⟩
  have hheld : ∀ i {md n}, c.phases CreatePhase.monitor .idle i = .counted md n →
      (c.phases CreatePhase.monitor .idle i).held? = some md := fun i md n hφ => by
    rw [hφ]
    rfl
  refine ⟨fun i cookie hi => ?_, fun i j cookie cookie' hij hi hj heq => ?_⟩
  · obtain ⟨md, n, hφ, rfl⟩ := hcounted i cookie hi
    have hrank := hranked i
    rw [show Pool.phases _ _ _ i = _ from hφ] at hrank
    rw [UInt32.toNat_toUInt64]
    exact ⟨md, allocated_of_held (hheld i hφ), hrank.2⟩
  · obtain ⟨md, n, hφ, -⟩ := hcounted i cookie hi
    obtain ⟨md', n', hφ', -⟩ := hcounted j cookie' hj
    rw [allocated_of_held (hheld i hφ), allocated_of_held (hheld j hφ')] at heq
    obtain rfl : md = md' := Option.some.inj heq
    exact hij (hinj i j md (hheld i hφ) (hheld j hφ'))

end Pool

/-- Two creations one after the other. -/
theorem concurrent_cookies_sound_inTurn :
    CookiesSound .ideal ((creationPool Platform.ideal.started fun _ : Bool => 4096).runs
      (exec .ideal) [false, false, false, false, false, true, true, true, true, true]) :=
  concurrent_cookies_sound .ideal _ _ _ (by decide)

/-- **Two clients get one cookie.** Both calls append before either reads
the count, so both read `2`. -/
theorem two_clients_one_cookie :
    ¬CookiesSound .ideal ((creationPool Platform.ideal.started fun _ : Bool => 4096).runs
      (exec .ideal) [false, false, false, true, true, true, false, false, true, true]) :=
  fun h => h.1 false true 2 2 (by decide) (by decide) (by decide) rfl

/-- Of the two that get one cookie, the first is still among the first two
members. -/
theorem cookies_in_range_overlap :
    let c := (creationPool Platform.ideal.started fun _ : Bool => 4096).runs (exec .ideal)
      [false, false, false, true, true, true, false, false, true, true]
    (c.thread false).result? = some (.success, 2)
      ∧ ∃ md, allocated false c.log = some md ∧ (2 : UInt64).toNat ≤ c.shared.objects.members.length
        ∧ md ∈ c.shared.objects.members.take (2 : UInt64).toNat :=
  ⟨by decide, (cookies_in_range .ideal _ _ _).1 false 2 (by decide)⟩
