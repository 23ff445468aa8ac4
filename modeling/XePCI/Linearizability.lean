import XePCI.AbstractService
import XePCI.CreationRaces
import XePCI.GuardRaces

/-!
# Calls of several clients

Nothing in the driver keeps the calls of different clients apart. Are they
replied to as if something did? For the most part they are: a call that reads
registers, or submits, or waits, changes nothing a client can see, so it may
be taken to happen when it returns. A creation happens when it enters its
descriptor – but it only learns its cookie later, from the count of the
registry, and by then another creation may have entered its own.

So calls are linearizable, against the specification of the service, in every
interleaving in which nobody enters a descriptor while another is about to
read the count (`calls_linearizable`); and they are not in every one
(`creations_not_linearizable`). `OSArray::setObject`, which appends if it
succeeds, and `OSArray::getCount` are taken to be atomic: each is one step.
-/

open XeService

section Calls

variable {ι : Type} [DecidableEq ι]

/-- **Nobody enters a descriptor while another is about to read the count.** -/
def EntersInTurn {α : Type} (P : Platform) (c : KextPool α ι) (i : ι) : Prop :=
  (c.thread i).next?.any (KextOp.appends P c.shared) = true →
    ∀ j, j ≠ i → (c.thread j).next?.any KextOp.isGetCount = false

instance {α : Type} [Fintype ι] (P : Platform) (c : KextPool α ι) (i : ι) :
    Decidable (EntersInTurn P c i) :=
  inferInstanceAs (Decidable (_ → ∀ j, j ≠ i → _))

namespace ServePhase

/-- **What a call is bound to**, by its phase: the cookie of the descriptor it
has entered, which is the last one until the call has read the count. -/
def Bound (v : View) : ServePhase → Option Reply → Prop
  | appended, b =>
    ∃ n, v.count = some n ∧ n < UInt32.size ∧ b = some (.success, [UInt64.ofNat n])
  | counted n, b => b = some (.success, [n.toUInt64])
  | _, b => b = none

theorem bound_of_pending {φ : ServePhase} (h : φ.pending = true) {v : View} {b : Option Reply} :
    φ.Bound v b ↔ b = none := by
  cases φ <;> first | rfl | exact absurd h Bool.false_ne_true

/-- Only the phase in which the count is to be read knows of the view. -/
theorem Bound.of_ne_appended {φ : ServePhase} (h : φ ≠ appended) {v v' : View} {b : Option Reply}
    (hb : φ.Bound v b) : φ.Bound v' b := by
  cases φ <;> first | exact hb | exact absurd rfl h

variable {v : View} {r : Request} {P : Platform} {s : Machine} {o : KextOp} {φ : ServePhase}

/-- A call that has read the count is a creation: by induction on what is left
of it. -/
theorem request_of_counted {n : UInt32} {p : Kext (IOReturn × Option IOExternalMethodArguments)}
    (h : Prog.Obeys (monitor v) (counted n) p fun φ a => Ends v r φ (reply a)) :
    r = .createBuffer := by
  induction p with
  | ret a =>
    rcases h with ⟨hidle, -⟩ | ⟨-, -, hr, -⟩
    · exact nomatch hidle
    · exact hr
  | request o k ih =>
    obtain ⟨ho, hk⟩ := h
    cases ho with
    | address md n => exact ih (0 : UInt64) (hk 0 trivial)

/-- A call that has entered its descriptor asks for the count next, and is a
creation. -/
theorem next_of_appended {p : Kext (IOReturn × Option IOExternalMethodArguments)}
    (h : Prog.Obeys (monitor v) appended p fun φ a => Ends v r φ (reply a)) :
    p.next?.any KextOp.isGetCount = true ∧ r = .createBuffer := by
  cases p with
  | ret a =>
    rcases h with ⟨hidle, -⟩ | ⟨n, happended, -⟩
    · exact nomatch hidle
    · exact nomatch happended
  | request o k =>
    obtain ⟨ho, hk⟩ := h
    cases ho with
    | count => exact ⟨rfl, request_of_counted (hk (0 : UInt32) trivial)⟩

/-- A descriptor is entered by a request that appends. -/
theorem appends_of_next (ho : Allows φ o) (hφ : φ.pending = true)
    (hnext : φ.next o (exec P o s).1 = appended) : o.appends P s = true := by
  cases ho with
  | enter md =>
    by_contra hnot
    have hfalse : (exec P (.setObject md) s).1 = false := Bool.eq_false_iff.mpr hnot
    rw [hfalse] at hnext
    exact nomatch hnext
  | look ho =>
    rw [next_of_probes ho] at hnext
    exact nomatch hnext
  | lookBatch md ho =>
    rw [next_of_probes ho] at hnext
    exact nomatch hnext
  | hasBoList =>
    rw [exec_hasBoList] at hnext
    revert hnext
    show (if s.boList.isSome then inside else idle) = appended → _
    split_ifs <;> exact fun h => nomatch h
  | allocBatch | alloc capacity =>
    revert hnext
    generalize (exec P _ s).1 = md
    cases md <;> exact fun h => nomatch h
  | count | address md n => exact absurd hφ Bool.false_ne_true
  | _ => exact nomatch hnext

end ServePhase

/-- **What is known while calls overlap**: the view has changed in the number
of buffers at most, every call has what it relies on, and it is bound to what
its phase says. -/
structure Overlapping {ι : Type} (v₀ : View) (s : Machine) (φs : ι → ServePhase)
    (bound : ι → Option Reply) : Prop where
  mode : v₀.SameMode s.view
  fits : ∀ i, (φs i).Fits s
  bound : ∀ i, (φs i).Bound s.view (bound i)

/-- **One request of one of the calls**, if nobody is about to read the count
where it enters a descriptor: the view is left alone, or the call is bound to
its cookie. -/
theorem Overlapping.request {v₀ : View} {s : Machine} {φs : ι → ServePhase}
    {bound : ι → Option Reply} (h : Overlapping v₀ s φs bound) (P : Platform) {i : ι} {o : KextOp}
    (ho : (φs i).Allows o)
    (hturn : o.appends P s = true → ∀ j, j ≠ i → φs j ≠ .appended) :
    ServePhase.Admits v₀ (φs i) o (exec P o s).1
      ∧ ((exec P o s).2.view = s.view
          ∧ Overlapping v₀ (exec P o s).2
            (Function.update φs i ((φs i).next o (exec P o s).1)) bound
        ∨ bound i = none ∧ (φs i).next o (exec P o s).1 = .appended
          ∧ ∃ x, View.Step s.view .createBuffer x (exec P o s).2.view
            ∧ Overlapping v₀ (exec P o s).2
              (Function.update φs i ((φs i).next o (exec P o s).1))
              (Function.update bound i (some x))) := by
  obtain ⟨hmode, hfits, hbound⟩ := h
  obtain ⟨hadmits, hfits', hmoves⟩ := ServePhase.exec_moves P ho hmode (hfits i)
  have hmode' := hmode.trans hmoves.sameMode
  have hfits'' : ∀ j, (Function.update φs i ((φs i).next o (exec P o s).1) j).Fits
      (exec P o s).2 :=
    (Function.forall_update_iff _ fun _ (φ : ServePhase) => φ.Fits _).mpr
      ⟨hfits', fun j _ => (hfits j).request P ho⟩
  refine ⟨hadmits, ?_⟩
  have hall : ∀ {v : View} {b : ι → Option Reply} {φ : ServePhase}, φ.Bound v (b i) →
      (∀ j, j ≠ i → (φs j).Bound v (b j)) → ∀ j, (Function.update φs i φ j).Bound v (b j) :=
    fun {v b φ} hself hothers =>
      (Function.forall_update_iff _ fun j (φ : ServePhase) => φ.Bound v (b j)).mpr
        ⟨hself, hothers⟩
  rcases hmoves.cases with ⟨hview, hphase⟩ | ⟨n, hn, hsize, hview, hφ, hφ'⟩
    | ⟨n, hn, hsize, hview, hpending, hφ'⟩
  · -- nothing a client can see has happened
    refine Or.inl ⟨hview, hmode', hfits'', ?_⟩
    rw [hview]
    refine hall ?_ fun j _ => hbound j
    rcases hphase with ⟨hpending, hpending'⟩ | ⟨n, hφ, hφ'⟩
    · exact (ServePhase.bound_of_pending hpending').mpr
        ((ServePhase.bound_of_pending hpending).mp (hbound i))
    · rw [hφ'.trans hφ.symm]
      exact hbound i
  · -- the count is that of the descriptor
    refine Or.inl ⟨hview, hmode', hfits'', ?_⟩
    rw [hview]
    refine hall ?_ fun j _ => hbound j
    have hself := hbound i
    rw [hφ] at hself
    obtain ⟨n', hn', -, hb⟩ := hself
    obtain rfl := Option.some.inj (hn.symm.trans hn')
    have hcookie : (UInt32.ofNat n).toUInt64 = UInt64.ofNat n := UInt32.toUInt64_ofNat' hsize
    rw [hφ', hb, ← hcookie]
    rfl
  · -- a descriptor is entered, and nobody is about to read the count
    have hothers := hturn (ServePhase.appends_of_next ho hpending hφ')
    refine Or.inr ⟨(ServePhase.bound_of_pending hpending).mp (hbound i), hφ',
      (.success, [UInt64.ofNat (n + 1)]), ?_, hmode', hfits'', ?_⟩
    · rw [hview]
      exact .created hn hsize
    · rw [hview]
      refine hall ?_ fun j hj => ?_
      · rw [hφ', Function.update_self]
        exact ⟨n + 1, rfl, hsize, rfl⟩
      · rw [Function.update_of_ne hj]
        exact (hbound j).of_ne_appended (hothers j hj)

omit [DecidableEq ι] in
/-- Before any call has begun. -/
theorem overlapping_idle (s₀ : Machine) :
    Overlapping s₀.view s₀ (fun _ : ι => ServePhase.idle) fun _ => none :=
  ⟨.refl _, fun _ => trivial, fun _ => rfl⟩

/-- **Calls take effect**: a creation when it enters its descriptor, any other
call when it returns. -/
theorem calls_takeEffect (P : Platform) (s₀ : Machine) (work : ι → Call) :
    Pool.TakesEffect serviceSpec (exec P) (fun i => (work i).request) reply
      (ServePhase.monitor s₀.view)
      (fun i φ a => ServePhase.Ends s₀.view (work i).request φ (reply a)) Machine.view
      (Overlapping s₀.view) (EntersInTurn P) where
  step c i o k φs bound hi hobeys hR hgate ho := by
    -- a call that has entered its descriptor is about to read the count
    have hturn : o.appends P c.shared = true → ∀ j, j ≠ i → φs j ≠ .appended := by
      intro happends j hj hφj
      have hjobeys := hobeys j
      rw [hφj] at hjobeys
      have hcount := (ServePhase.next_of_appended hjobeys).1
      rw [hgate (by rw [hi]; exact happends) j hj] at hcount
      exact nomatch hcount
    obtain ⟨hadmits, hcase⟩ := hR.request P ho hturn
    refine ⟨hadmits, hcase.imp_right ?_⟩
    rintro ⟨hb, hnext, x, hstep, hR'⟩
    have hi' := hobeys i
    rw [hi] at hi'
    have hrest := hi'.2 _ hadmits
    rw [show (ServePhase.monitor s₀.view).next (φs i) o _ = _ from hnext] at hrest
    refine ⟨hb, x, ?_, hR'⟩
    rw [(ServePhase.next_of_appended hrest).2]
    exact hstep
  ret i a s φs bound hR hends := by
    have hb := hR.bound i
    rcases hends with ⟨hidle, hanswers⟩ | ⟨n, hφ, -, hreply⟩
    · rw [hidle] at hb
      rw [show bound i = _ from hb]
      exact ⟨fun _ h => (nomatch h), fun _ => .answer (hanswers.of_sameMode hR.mode)⟩
    · rw [hφ] at hb
      rw [show bound i = _ from hb, hreply]
      exact ⟨fun _ h => (Option.some.inj h).symm, fun h => (nomatch h)⟩

/-- **Calls are linearizable.** In every interleaving of any calls, with
`setObject` and `getCount` as single steps, in which nobody enters a
descriptor while another is about to read the count, each call takes effect at
one of its own steps, so that the replies in the order of these steps are a run
of the specification. -/
theorem calls_linearizable (P : Platform) (s₀ : Machine) (work : ι → Call) (sched : List ι)
    (h : Pool.Along (exec P) (EntersInTurn P) (callPool s₀ work) sched) :
    ∃ commits, Pool.Linearization serviceSpec (exec P) (fun i => (work i).request) reply
      (callPool s₀ work) s₀.view sched commits :=
  Pool.linearizable (calls_takeEffect P s₀ work)
    (fun i => ServePhase.obeys_call s₀.view (work i)) (overlapping_idle s₀) h

end Calls

/-- Two creations whose steps alternate: the second one enters its descriptor
when the first has read the count. -/
theorem calls_linearizable_overlap :
    ∃ commits, Pool.Linearization serviceSpec (exec .ideal)
      (fun _ : Bool => (Call.creating 1).request) reply
      (callPool Platform.ideal.started fun _ : Bool => Call.creating 1)
      Platform.ideal.started.view
      [false, true, false, true, false, false, true, true, false, true] commits :=
  calls_linearizable .ideal _ _ _ (by decide)

/-- A creation that is the first to take effect gets the first free cookie. -/
theorem cookie_of_first {n : ℕ} {v v' : View} (hv : v.count = some n) {cookie : UInt64}
    {tr : List (Request × Reply)}
    (h : serviceSpec.Run v ((.createBuffer, (.success, [cookie])) :: tr) v') :
    cookie = UInt64.ofNat (n + 1) := by
  cases h with
  | cons hstep _ =>
    have hreply : (IOReturn.success, [cookie])
        = (IOReturn.success, [UInt64.ofNat (v.count.getD 0 + 1)]) :=
      View.Step.reply_createBuffer hstep
    rw [hv] at hreply
    exact List.head_eq_of_cons_eq (congrArg Prod.snd hreply)

/-- **Two creations that are not linearizable**: both enter their descriptors
before either reads the count, and both get the second cookie. -/
theorem creations_not_linearizable :
    ¬∃ commits, Pool.Linearization serviceSpec (exec .ideal)
      (fun _ : Bool => (Call.creating 1).request) reply
      (callPool Platform.ideal.started fun _ : Bool => Call.creating 1)
      Platform.ideal.started.view
      [false, false, false, true, true, true, false, false, true, true] commits := by
  rintro ⟨commits, h⟩
  have hboth : ∀ b : Bool, ((((callPool Platform.ideal.started fun _ : Bool =>
      Call.creating 1).runs (exec .ideal)
        [false, false, false, true, true, true, false, false, true, true]).thread b).result?).map
          reply = some (.success, [2]) := by decide
  have hmoved : ∀ b : Bool,
      b ∈ [false, false, false, true, true, true, false, false, true, true].take 10 := by decide
  have hcommit : ∀ b : Bool, ∃ k ∈ commits, k.thread = b ∧ k.reply = (.success, [2]) := by
    intro b
    obtain ⟨a, ha, hreply⟩ := Option.map_eq_some_iff.mp (hboth b)
    obtain ⟨k, hk, -, hkb, hka⟩ := h.returned 10 b a (hmoved b) ha
    exact ⟨k, hk, hkb, hka.trans hreply⟩
  obtain ⟨v', hlegal⟩ := h.legal
  cases hcommits : commits with
  | nil =>
    obtain ⟨k, hk, -⟩ := hcommit false
    rw [hcommits] at hk
    exact nomatch hk
  | cons k₀ rest =>
    -- the first to take effect got the second cookie
    have hfirst : k₀.reply = (.success, [2]) := by
      obtain ⟨k, hk, hkb, hreply⟩ := hcommit k₀.thread
      have hk₀ : k₀ ∈ commits := hcommits ▸ List.mem_cons_self
      rw [← List.inj_on_of_nodup_map h.once hk hk₀ hkb]
      exact hreply
    rw [hcommits, List.map_cons, hfirst] at hlegal
    have hcookie := cookie_of_first (n := 0) (by decide) hlegal
    exact absurd hcookie (by decide)
