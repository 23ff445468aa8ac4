import XePCI.Objects

/-!
# References and cookies

Two things are promised about the buffer objects over a whole run.

The references balance: whatever a run creates it frees, once, and touches
no more after that. The registry holds two references per member, the
creator's and the array's, and `stop` drops both. The invariant says what
the log of each single descriptor looks like (`Objects.Orderly`): a member
was created, retained and looked at; anything else that was created was
freed. Each move of the objects keeps it, so a run does.

And the cookies are positions: the registry only grows, by the descriptor
of a creation that succeeds, so the `k`-th such creation is found under `k`
ever after, and nothing is found under any other number
(`cookies_dense`). What the 32-bit index of the array makes of a 64-bit
cookie is `run_boFromCookie`.
-/

open XeService

/-! ## References -/

namespace Objects

/-- **The references are in order.** -/
structure Orderly (o : Objects) : Prop where
  nodup : o.members.Nodup
  created : o.Created
  /-- A member was created, retained by the registry and looked at. -/
  kept : ∀ md ∈ o.members, RefEvent.about md o.log = [.use md, .retain md, .alloc md]
  /-- What is not a member was freed. -/
  freed : ∀ md < o.created, md ∉ o.members → RefEvent.Freed md (RefEvent.about md o.log)
  /-- Nothing was done to what was not created. -/
  unborn : ∀ md, o.created ≤ md → RefEvent.about md o.log = []

/-- A member has two references. -/
theorem count_kept (md : ObjId) :
    RefEvent.count md [RefEvent.use md, RefEvent.retain md, RefEvent.alloc md] = 2 := by
  simp only [RefEvent.count_cons, RefEvent.obj, RefEvent.after, if_true]

theorem live_kept (md : ObjId) :
    RefEvent.Live [RefEvent.use md, RefEvent.retain md, RefEvent.alloc md] := by
  simp [RefEvent.Live, RefEvent.count_cons, RefEvent.obj, RefEvent.after, RefEvent.needsLive]

/-- A member that `stop` looks at and releases, and the array releases, is
freed. -/
theorem freed_dismantled (md : ObjId) :
    RefEvent.Freed md [RefEvent.release md, RefEvent.release md, RefEvent.use md,
      RefEvent.use md, RefEvent.retain md, RefEvent.alloc md] := by
  constructor <;>
    simp [RefEvent.Live, RefEvent.drops, RefEvent.count_cons, RefEvent.obj, RefEvent.after,
      RefEvent.needsLive]

theorem Orderly.count_member {o : Objects} (ho : o.Orderly) {md : ObjId} (hmd : md ∈ o.members) :
    RefEvent.count md o.log = 2 := by
  rw [← RefEvent.count_about, ho.kept md hmd, count_kept]

/-- Nothing is touched after it was freed. -/
theorem Orderly.live {o : Objects} (ho : o.Orderly) : RefEvent.Live o.log := by
  refine (RefEvent.live_iff_about o.log).mpr fun md => ?_
  by_cases hcreated : o.created ≤ md
  · rw [ho.unborn md hcreated]
    trivial
  · by_cases hmd : md ∈ o.members
    · rw [ho.kept md hmd]
      exact live_kept md
    · exact (ho.freed md (Nat.lt_of_not_le hcreated) hmd).live

/-- What is done to a descriptor that is registered. -/
theorem about_register (o : Objects) (a : OSArray) (md : ObjId) :
    RefEvent.about md (o.register a).log
      = if md = o.created then
          [RefEvent.use o.created, RefEvent.retain o.created, RefEvent.alloc o.created]
          ++ RefEvent.about md o.log
        else RefEvent.about md o.log := by
  rw [← RefEvent.about_append_of_obj]
  · rfl
  · intro e he
    simp only [List.mem_cons, List.not_mem_nil, or_false] at he
    rcases he with rfl | rfl | rfl <;> rfl

/-- What is done to a descriptor when the registry is dismantled. -/
theorem about_dismantle {o : Objects} (h : o.members.Nodup) (md : ObjId) :
    RefEvent.about md o.dismantle.log
      = (if md ∈ o.members then
          [RefEvent.release md, RefEvent.release md, RefEvent.use md] else [])
        ++ RefEvent.about md o.log := by
  have hrelease : ∀ y : ObjId, ∀ e ∈ [RefEvent.release y], e.obj = y := by
    intro y e he
    rw [List.mem_singleton.mp he]
    rfl
  have hsweep : ∀ y : ObjId, ∀ e ∈ [RefEvent.use y, RefEvent.release y], e.obj = y := by
    intro y e he
    rcases List.mem_pair.mp he with rfl | rfl <;> rfl
  unfold members at h ⊢
  unfold dismantle
  cases hreg : o.registry with
  | none => simp
  | some a =>
    -- in both sweeps a member that occurs once is met once
    rw [hreg, Option.elim_some] at h
    rw [RefEvent.about_append, RefEvent.about_append, RefEvent.about_reverse,
      RefEvent.about_reverse, List.map_eq_flatMap, RefEvent.about_flatMap hrelease h,
      RefEvent.about_flatMap hsweep h]
    by_cases hmd : md ∈ a.objs <;> simp [hmd]

/-- **The moves of a call keep the references in order.** -/
theorem Orderly.step {o o' : Objects} (ho : o.Orderly) (h : o.Step o') : o'.Orderly := by
  have hne : ∀ md ∈ o.members, md ≠ o.created := fun md hmd => (ho.created md hmd).ne
  cases h with
  | same => exact ho
  | transient n =>
    refine ⟨ho.nodup, ho.created.step (.transient n), fun md hmd => ?_, fun md hlt hmd => ?_,
      fun md hle => ?_⟩
    · rw [about_transient, if_neg (hne md hmd)]
      exact ho.kept md hmd
    · -- what was freed just now, or before
      rw [about_transient]
      by_cases hnew : md = o.created
      · subst hnew
        rw [if_pos rfl, ho.unborn _ (Nat.le_refl _), List.append_nil]
        exact RefEvent.freed_transient _ n
      · rw [if_neg hnew]
        exact ho.freed md (Nat.lt_of_le_of_ne (Nat.le_of_lt_succ hlt) hnew) hmd
    · rw [about_transient, if_neg (Nat.ne_of_gt hle)]
      exact ho.unborn md (Nat.le_of_succ_le hle)
  | register a a' ha hpush =>
    have hmembers := members_register ha hpush
    refine ⟨?_, ho.created.step (.register a a' ha hpush), fun md hmd => ?_,
      fun md hlt hmd => ?_, fun md hle => ?_⟩
    · rw [hmembers]
      exact List.nodup_append_comm.mp (List.nodup_cons.mpr
        ⟨fun hmd => hne _ hmd rfl, ho.nodup⟩)
    · rw [about_register]
      rw [hmembers, List.mem_append, List.mem_singleton] at hmd
      rcases hmd with hmd | rfl
      · rw [if_neg (hne md hmd)]
        exact ho.kept md hmd
      · rw [if_pos rfl, ho.unborn _ (Nat.le_refl _), List.append_nil]
    · rw [hmembers, List.mem_append, List.mem_singleton, not_or] at hmd
      rw [about_register, if_neg hmd.2]
      exact ho.freed md (Nat.lt_of_le_of_ne (Nat.le_of_lt_succ hlt) hmd.2) hmd.1
    · rw [about_register, if_neg (Nat.ne_of_gt hle)]
      exact ho.unborn md (Nat.le_of_succ_le hle)

/-- **So does the move of `stop`**: what was a member was freed. -/
theorem Orderly.dismantle {o : Objects} (ho : o.Orderly) : o.dismantle.Orderly := by
  have hmembers := o.members_dismantle
  have hcreated := o.created_dismantle
  have habout := about_dismantle ho.nodup
  have hnone : ∀ md, md ∉ o.dismantle.members := fun md => hmembers ▸ List.not_mem_nil
  refine ⟨hmembers ▸ List.nodup_nil, fun md hmd => absurd hmd (hnone md),
    fun md hmd => absurd hmd (hnone md), fun md hlt _ => ?_, fun md hle => ?_⟩
  · rw [habout]
    by_cases hmd : md ∈ o.members
    · rw [if_pos hmd, ho.kept md hmd]
      exact freed_dismantled md
    · rw [if_neg hmd]
      exact ho.freed md (hcreated ▸ hlt) hmd
  · have hmd : md ∉ o.members := fun hmd =>
      Nat.not_lt.mpr (hcreated ▸ hle) (ho.created md hmd)
    rw [habout, if_neg hmd]
    exact ho.unborn md (hcreated ▸ hle)

/-- Without members, everything created was freed. -/
theorem Orderly.freed_all {o : Objects} (ho : o.Orderly) (h : o.members = []) {md : ObjId}
    (hmd : md < o.created) : RefEvent.count md o.log = 0 ∧ RefEvent.drops md o.log = 1 := by
  obtain ⟨hcount, hdrops, -⟩ := ho.freed md hmd (h ▸ List.not_mem_nil)
  rw [RefEvent.count_about] at hcount
  rw [RefEvent.drops_about] at hdrops
  exact ⟨hcount, hdrops⟩

end Objects

/-! ## Runs -/

/-- `start` begins with no objects, whether or not it succeeds. -/
theorem started_objects (P : Platform) :
    P.started.objects.members = [] ∧ P.started.objects.created = 0
      ∧ P.started.objects.log = [] := by
  have hinit : P.initialized.objects = Machine.fresh.objects := by
    rw [initialized_eq]
    rfl
  unfold Platform.started
  rcases objects_start P P.initialized with h | h <;> rw [h, hinit]
  · exact ⟨rfl, rfl, rfl⟩
  · cases P.withCapacityOk <;> exact ⟨rfl, rfl, rfl⟩

theorem started_orderly (P : Platform) : P.started.objects.Orderly := by
  obtain ⟨hmembers, hcreated, hlog⟩ := started_objects P
  have hnone : ∀ md, md ∉ P.started.objects.members := fun md => hmembers ▸ List.not_mem_nil
  refine ⟨hmembers ▸ List.nodup_nil, fun md hmd => absurd hmd (hnone md),
    fun md hmd => absurd hmd (hnone md), fun md hlt _ => ?_, fun md _ => ?_⟩
  · exact absurd (hcreated ▸ hlt) (Nat.not_lt_zero md)
  · rw [hlog]
    rfl

/-- A call of one of the two methods that create descriptors. -/
inductive BufferOp where
  /-- `ucCreateBuffer`. -/
  | createBuffer (bytes : UInt32)
  /-- `ucSubmitNoop`. -/
  | submitNoop

/-- The machine after such a call. -/
def Machine.afterOp (P : Platform) (s : Machine) : BufferOp → Machine
  | .createBuffer bytes => ((ucCreateBuffer bytes).run (exec P) s).2
  | .submitNoop => (ucSubmitNoop.run (exec P) s).2

/-- The machine after `start` and a run of such calls. -/
def Platform.buffered (P : Platform) (ops : List BufferOp) : Machine :=
  ops.foldl (Machine.afterOp P) P.started

/-- The machine after so many `stop`s. -/
def Machine.stopped (P : Platform) : ℕ → Machine → Machine
  | 0, s => s
  | n + 1, s => Machine.stopped P n (stop.run (exec P) s).2

theorem objects_afterOp (P : Platform) (s : Machine) (op : BufferOp) :
    s.objects.Step (s.afterOp P op).objects := by
  cases op with
  | createBuffer bytes => exact objects_ucCreateBuffer P bytes s
  | submitNoop => exact objects_ucSubmitNoop P s

/-- The references are in order before `stop`: by induction on the calls,
from any orderly state. -/
theorem buffered_orderly (P : Platform) (ops : List BufferOp) :
    (P.buffered ops).objects.Orderly := by
  suffices h : ∀ s : Machine, s.objects.Orderly →
      (ops.foldl (Machine.afterOp P) s).objects.Orderly from h _ (started_orderly P)
  induction ops with
  | nil => exact fun _ hs => hs
  | cons op ops ih => exact fun s hs => ih _ (hs.step (objects_afterOp P s op))

/-- They are in order after it, and the registry is gone. A `stop` that
finds no registry does nothing more. -/
theorem stopped_orderly (P : Platform) (n : ℕ) {s : Machine} (hs : s.objects.Orderly) :
    (s.stopped P (n + 1)).objects.Orderly ∧ (s.stopped P (n + 1)).objects.members = [] := by
  have hstop := objects_stop P s
  have hdismantled : (stop.run (exec P) s).2.objects.Orderly := hstop ▸ hs.dismantle
  induction n generalizing s with
  | zero => exact ⟨hdismantled, (congrArg Objects.members hstop).trans s.objects.members_dismantle⟩
  | succ n ih => exact ih hdismantled (objects_stop P _) (objects_stop P _ ▸ hdismantled.dismantle)

/-- **The references balance over every run.** After `start` – whatever it
returned –, any calls that create descriptors, with any outcomes of the
allocations and of the additions to the registry, and one `stop` or more,
every descriptor ever created has no reference left, lost its last one
exactly once, and nothing was done to it after that; before `stop`, every
registered descriptor is referenced. -/
theorem references_balance (P : Platform) (ops : List BufferOp) (n : ℕ) :
    (∀ md ∈ (P.buffered ops).objects.members,
        1 ≤ RefEvent.count md (P.buffered ops).objLog)
      ∧ (∀ md < ((P.buffered ops).stopped P (n + 1)).buffers.length,
          RefEvent.count md ((P.buffered ops).stopped P (n + 1)).objLog = 0
          ∧ RefEvent.drops md ((P.buffered ops).stopped P (n + 1)).objLog = 1)
      ∧ RefEvent.Live ((P.buffered ops).stopped P (n + 1)).objLog := by
  have hbefore := buffered_orderly P ops
  obtain ⟨hafter, hnone⟩ := stopped_orderly P n hbefore
  refine ⟨fun md hmd => ?_, fun md hmd => hafter.freed_all hnone hmd, hafter.live⟩
  have htwo : RefEvent.count md (P.buffered ops).objLog = 2 := hbefore.count_member hmd
  omega

example : (Platform.ideal.buffered [.createBuffer 1, .submitNoop, .createBuffer 5]).objects.members
    = [0, 2] := by decide

/-! ## Cookies -/

/-- **What is found under a cookie**: nothing under `0`, and otherwise the
member at the cookie's position. The index is narrowed to 32 bits after it
was compared with the count, so it is not changed by that. -/
theorem run_boFromCookie (P : Platform) (s : Machine) (cookie : UInt64) :
    ((boFromCookie cookie).run (exec P) s).1
      = if cookie = 0 then none else s.objects.members[cookie.toNat - 1]? := by
  unfold boFromCookie Objects.members
  by_cases hzero : cookie = 0
  · rw [if_pos hzero, if_pos hzero]
    rfl
  rw [if_neg hzero, if_neg hzero, Prog.run_bind, Prog.run_perform, exec_hasBoList]
  show _ = (s.boList.elim [] OSArray.objs)[cookie.toNat - 1]?
  cases hs : s.boList with
  | none => rfl
  | some a =>
    have hpos : 0 < cookie.toNat := Nat.pos_of_ne_zero fun h => hzero (UInt64.toNat_inj.mp h)
    have hidx : (cookie - 1).toNat = cookie.toNat - 1 :=
      UInt64.toNat_sub_of_le _ _ (UInt64.le_iff_toNat_le.mpr hpos)
    have hle : a.getCount.toUInt64 ≤ cookie - 1 ↔ a.objs.length ≤ cookie.toNat - 1 := by
      rw [UInt64.le_iff_toNat_le, UInt32.toNat_toUInt64, a.toNat_getCount, hidx]
    dsimp only [Option.isSome_some, Option.elim_some]
    rw [if_neg (show ¬(!true) = true from Bool.false_ne_true), Prog.run_bind, Prog.run_perform,
      exec_getCount, hs]
    show ((if a.getCount.toUInt64 ≤ cookie - 1 then return none
      else req (.getObject (cookie - 1).toUInt32) : Kext (Option ObjId)).run (exec P) s).1 = _
    by_cases hcount : a.objs.length ≤ cookie.toNat - 1
    · rw [if_pos (hle.mpr hcount), List.getElem?_eq_none hcount]
      rfl
    · -- an index below the count is below `2 ^ 32`, so narrowing keeps it
      have hlt : cookie.toNat - 1 < a.objs.length := Nat.lt_of_not_le hcount
      have hnarrow : (cookie - 1).toUInt32.toNat = cookie.toNat - 1 := by
        rw [UInt64.toNat_toUInt32, hidx]
        exact Nat.mod_eq_of_lt (Nat.lt_trans hlt a.count_lt)
      rw [if_neg (fun h => hcount (hle.mp h)), Prog.run_perform, exec_getObject,
        Machine.getObject, hs, Option.bind_some, hnarrow, List.getElem?_eq_getElem hlt]

/-- The call created a buffer: it is a `kMethodCreateBuffer`, and succeeded. -/
def Call.Creates (c : Call) (kr : IOReturn) : Prop :=
  c.selector = XeUserClient.kMethodCreateBuffer ∧ kr = .success

instance (c : Call) (kr : IOReturn) : Decidable (c.Creates kr) :=
  inferInstanceAs (Decidable (_ ∧ _))

/-- How many of the calls created a buffer, by what they returned. -/
def creations (calls : List Call)
    (rs : List (IOReturn × Option IOExternalMethodArguments)) : ℕ :=
  (calls.zip rs).countP fun p => p.1.Creates p.2.1

/-- **What a call does to the registry**: one that creates a buffer adds the
descriptor and returns the new number of members, and another adds
nothing. -/
theorem run_call_members {P : Platform} {s s' : Machine} {c : Call}
    {r : IOReturn × Option IOExternalMethodArguments} (h : c.prog.run (exec P) s = (r, s')) :
    (¬c.Creates r.1 ∧ s'.objects.members = s.objects.members)
      ∨ (c.Creates r.1 ∧ s'.objects.members = s.objects.members ++ [s.buffers.length]
        ∧ s'.buffers.length = s.buffers.length + 1
        ∧ ∃ a, r.2 = some a ∧ (a.scalarOutput 0).toNat = s'.objects.members.length) := by
  have hother : ∀ {k inCount outCount a}, c.Accepted k inCount outCount a →
      k ≠ XeUserClient.kMethodCreateBuffer → ¬c.Creates r.1 :=
    fun hc hk hcreates => hk (hc.selector.symm.trans hcreates.1)
  have hsame : s.objects.Undone s'.objects → s'.objects.members = s.objects.members :=
    fun hundone => congrArg (fun reg => reg.elim [] OSArray.objs) hundone.registry
  cases c.way with
  | refused kr hkr hp =>
    rw [hp] at h
    cases h
    exact Or.inl ⟨fun hcreates => hkr hcreates.2, rfl⟩
  | createBuffer a hc bytes hp =>
    rcases hrun : (ucCreateBuffer bytes).run (exec P) s with ⟨q, t⟩
    rw [hp, Prog.run_map, hrun] at h
    cases h
    obtain ⟨-, ⟨hfail, hundone⟩ | ⟨b, b', hb, hpush, rfl, hobj⟩⟩ := run_ucCreateBuffer hrun
    · exact Or.inl ⟨fun hcreates => hfail hcreates.2, hsame hundone⟩
    · have hmembers := Objects.members_register (o := s.objects) hb hpush
      refine Or.inr ⟨⟨hc.selector, rfl⟩, hobj ▸ hmembers, congrArg Objects.created hobj,
        XeUserClient.cookieOut a (.success, b'.getCount.toUInt64), rfl, ?_⟩
      rw [(XeUserClient.cookieOut_success a hc.outputs _).1, UInt32.toNat_toUInt64,
        b'.toNat_getCount, hobj]
      rfl
  | submit a hc hp =>
    rcases hrun : ucSubmitNoop.run (exec P) s with ⟨kr, t⟩
    rw [hp, Prog.run_map, hrun] at h
    cases h
    exact Or.inl ⟨hother hc (by decide), hsame (run_ucSubmitNoop hrun).1⟩
  | wait a hc timeoutMs hp =>
    rw [hp] at h
    cases h
    exact Or.inl ⟨hother hc (by decide), rfl⟩
  | readList a k hk hc out hout hp =>
    rcases hrun : (readList (XeUserClient.regsOf k)).run (exec P) s with ⟨q, t⟩
    rw [hp, Prog.run_map, hrun] at h
    cases h
    refine Or.inl ⟨hother hc ?_, hsame (Or.inl (run_readList hrun).1)⟩
    rcases hk with rfl | rfl | rfl <;> decide

/-- **What the calls of a run do to the registry**: it grows by as many
members as were created. By induction on the calls. -/
theorem members_serve (P : Platform) (calls : List Call) (s : Machine) :
    s.objects.members <+: ((serve calls).run (exec P) s).2.objects.members
      ∧ ((serve calls).run (exec P) s).2.objects.members.length
        = s.objects.members.length + creations calls ((serve calls).run (exec P) s).1 := by
  induction calls generalizing s with
  | nil => exact ⟨List.prefix_refl _, rfl⟩
  | cons c calls ih =>
    rcases hrun : c.prog.run (exec P) s with ⟨r, s'⟩
    obtain ⟨hgrows, hlength⟩ := ih s'
    rw [run_serve_cons, hrun, creations, List.zip_cons_cons, List.countP_cons, ← creations]
    dsimp only
    rw [hlength]
    rcases run_call_members hrun with ⟨hnot, hmembers⟩ | ⟨hcreates, hmembers, -, -⟩
    · rw [hmembers] at hgrows ⊢
      refine ⟨hgrows, ?_⟩
      simp [hnot]
    · rw [hmembers] at hgrows ⊢
      refine ⟨(List.prefix_append _ _).trans hgrows, ?_⟩
      simp [hcreates]
      omega

/-- What the calls after `start` returned, and the machine after them. -/
def Platform.served (P : Platform) (calls : List Call) :
    List (IOReturn × Option IOExternalMethodArguments) × Machine :=
  (serve calls).run (exec P) P.started

/-- After `start` the registry has as many members as were created. -/
theorem length_members_served (P : Platform) (calls : List Call) :
    (P.served calls).2.objects.members.length = creations calls (P.served calls).1 := by
  obtain ⟨hempty, -⟩ := started_objects P
  have hlength := (members_serve P calls P.started).2
  rw [hempty] at hlength
  exact hlength.trans (Nat.zero_add _)

/-- **Cookies are stable, dense and unforgeable.** After `start`, in any run
of calls, a creation that succeeds as the `k`-th one returns the cookie `k`,
having created one descriptor, and at the end of the run `boFromCookie`
finds that descriptor under it; and it finds nothing under a cookie exactly
if the cookie is `0` or exceeds the number of creations that succeeded. -/
theorem cookies_dense (P : Platform) (calls : List Call) :
    (∀ pre c post, calls = pre ++ c :: post →
      c.Creates (c.prog.run (exec P) (P.served pre).2).1.1 →
        (c.prog.run (exec P) (P.served pre).2).2.buffers.length
          = (P.served pre).2.buffers.length + 1
        ∧ ∃ a, (c.prog.run (exec P) (P.served pre).2).1.2 = some a
          ∧ (a.scalarOutput 0).toNat = creations pre (P.served pre).1 + 1
          ∧ ((boFromCookie (a.scalarOutput 0)).run (exec P) (P.served calls).2).1
            = some (P.served pre).2.buffers.length)
      ∧ ∀ cookie : UInt64,
        ((boFromCookie cookie).run (exec P) (P.served calls).2).1 = none
          ↔ cookie = 0 ∨ creations calls (P.served calls).1 < cookie.toNat := by
  constructor
  · rintro pre c post rfl hcreates
    have hpre := length_members_served P pre
    rcases hrun : c.prog.run (exec P) (P.served pre).2 with ⟨r, s'⟩
    rw [hrun] at hcreates
    rcases run_call_members hrun with ⟨hnot, -⟩ | ⟨-, hmembers, hbuffers, a, ha, hcookie⟩
    · exact absurd hcreates hnot
    have hk : (a.scalarOutput 0).toNat = creations pre (P.served pre).1 + 1 := by
      rw [hcookie, hmembers, List.length_append, hpre]
      rfl
    refine ⟨hbuffers, a, ha, hk, ?_⟩
    -- the calls that follow only append, so the position is kept
    have hend : (P.served (pre ++ c :: post)).2 = ((serve post).run (exec P) s').2 := by
      unfold Platform.served
      rw [run_serve_append, run_serve_cons]
      exact congrArg (fun q => ((serve post).run (exec P) q.2).2) hrun
    obtain ⟨rest, hrest⟩ := (members_serve P post s').1
    rw [run_boFromCookie, if_neg, hend, ← hrest, hmembers, hk, Nat.add_sub_cancel, ← hpre]
    · simp
    · intro hzero
      rw [hzero] at hk
      exact absurd hk (Nat.succ_ne_zero _).symm
  · intro cookie
    rw [run_boFromCookie, ← length_members_served]
    by_cases hzero : cookie = 0
    · rw [if_pos hzero]
      exact ⟨fun _ => Or.inl hzero, fun _ => rfl⟩
    · have hpos : cookie.toNat ≠ 0 := fun h => hzero (UInt64.toNat_inj.mp h)
      rw [if_neg hzero, List.getElem?_eq_none_iff]
      simp only [hzero, false_or]
      omega

/-- The second of two creations has the cookie 2, and what is found under it is
the second descriptor. -/
theorem cookies_dense_two :
    creations [.creating 1] (Platform.ideal.served [.creating 1]).1 = 1
      ∧ ∃ a, ((Call.creating 1).prog.run (exec .ideal)
            (Platform.ideal.served [.creating 1]).2).1.2 = some a
        ∧ (a.scalarOutput 0).toNat
          = creations [.creating 1] (Platform.ideal.served [.creating 1]).1 + 1
        ∧ ((boFromCookie (a.scalarOutput 0)).run (exec .ideal)
            (Platform.ideal.served [.creating 1, .creating 1]).2).1
          = some (Platform.ideal.served [.creating 1]).2.buffers.length :=
  ⟨by decide, ((cookies_dense .ideal [.creating 1, .creating 1]).1 [.creating 1] (.creating 1) []
    rfl (by decide)).2⟩
