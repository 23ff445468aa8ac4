import XePCI.RegistryProtocol
import XePCI.SafeModes

/-!
# What is written to buffers

The one function that writes to a buffer is `submitNoop`, and it writes to
the descriptor it is given. So whether it can write to a client's buffer is
a question of who gives it what, and in an interleaving of who owns what. A
submission creates its own descriptor, of one page, and it stays its own: it
is not in the registry, and nobody else has it.

Hence in every interleaving of calls and shutdowns – orderly or not – the
buffers in the registry are as they were created, and what is written
anywhere is the batch of no-ops, to a page (`client_buffers_untouched`).
-/

open XeService

section Isolated

variable {ι : Type}

/-- **The buffers are isolated**: whatever a thread owns is its own and not
in the registry, a batch has a page, and only a batch was written to. -/
structure Isolated (s : Machine) (φs : ι → RegistryPhase) : Prop where
  member : ∀ md ∈ s.objects.members, md < s.buffers.length
  batch : ∀ i md, φs i = .batch md →
    (s.buffers[md]?).map Buffer.length = some 4096 ∧ md ∉ s.objects.members
  holding : ∀ i md, φs i = .holding md → (s.buffers[md]?).map Buffer.cmds = some []
  apart : ∀ i j md, φs i = .batch md → φs j ≠ .holding md
  clean : ∀ md ∈ s.objects.members, (s.buffers[md]?).map Buffer.cmds = some []
  written : ∀ b ∈ s.buffers, b.cmds = [] ∨ b.cmds = noopBatch ∧ b.length = 4096

variable [DecidableEq ι] {s s' : Machine} {φs : ι → RegistryPhase} {i : ι} {φ : RegistryPhase}

theorem lt_length_of_map {β : Type} {l : List Buffer} {md : ℕ} {f : Buffer → β} {b : β}
    (h : (l[md]?).map f = some b) : md < l.length := by
  obtain ⟨x, hx, -⟩ := Option.map_eq_some_iff.mp h
  exact (List.getElem?_eq_some_iff.mp hx).1

/-- A step that touches no buffer and adds no member, by a thread that keeps
what it has or gives it up. -/
theorem Isolated.relax (h : Isolated s φs) (hbuffers : s'.buffers = s.buffers)
    (hmembers : ∀ md ∈ s'.objects.members, md ∈ s.objects.members)
    (hbatch : ∀ md, φ = .batch md → φs i = .batch md)
    (hholding : ∀ md, φ = .holding md → φs i = .holding md) :
    Isolated s' (Function.update φs i φ) := by
  -- what a thread has now it had before
  have hbatch' : ∀ j md, Function.update φs i φ j = .batch md → φs j = .batch md := by
    intro j md hj
    by_cases hji : j = i
    · rw [hji, Function.update_self] at hj
      exact hji ▸ hbatch md hj
    · rwa [Function.update_of_ne hji] at hj
  have hholding' : ∀ j md, Function.update φs i φ j = .holding md → φs j = .holding md := by
    intro j md hj
    by_cases hji : j = i
    · rw [hji, Function.update_self] at hj
      exact hji ▸ hholding md hj
    · rwa [Function.update_of_ne hji] at hj
  refine ⟨fun md hmd => ?_, fun j md hj => ?_, fun j md hj => ?_, fun j k md hj hk => ?_,
    fun md hmd => ?_, ?_⟩
  · rw [hbuffers]
    exact h.member md (hmembers md hmd)
  · obtain ⟨hpage, hnot⟩ := h.batch j md (hbatch' j md hj)
    exact ⟨hbuffers ▸ hpage, fun hmd => hnot (hmembers md hmd)⟩
  · rw [hbuffers]
    exact h.holding j md (hholding' j md hj)
  · exact h.apart j k md (hbatch' j md hj) (hholding' k md hk)
  · rw [hbuffers]
    exact h.clean md (hmembers md hmd)
  · rw [hbuffers]
    exact h.written

/-- A thread that has a new descriptor has it to itself. -/
theorem Isolated.alloc (h : Isolated s φs) {length : UInt64}
    (hbuffers : s'.buffers = s.buffers ++ [⟨length, []⟩])
    (hmembers : s'.objects.members = s.objects.members)
    (hφ : φ = .batch s.buffers.length ∧ length = 4096 ∨ φ = .holding s.buffers.length) :
    Isolated s' (Function.update φs i φ) := by
  have hlen : s'.buffers.length = s.buffers.length + 1 := by
    rw [hbuffers, List.length_append]
    rfl
  have hold : ∀ {md}, md < s.buffers.length → s'.buffers[md]? = s.buffers[md]? := fun hmd => by
    rw [hbuffers, List.getElem?_append_left hmd]
  have hnew : s'.buffers[s.buffers.length]? = some ⟨length, []⟩ := by
    rw [hbuffers, List.getElem?_append_right le_rfl, Nat.sub_self]
    rfl
  have hnot : s.buffers.length ∉ s.objects.members :=
    fun hmd => Nat.lt_irrefl _ (h.member _ hmd)
  refine ⟨fun md hmd => ?_, fun j md hj => ?_, fun j md hj => ?_, fun j k md hj hk => ?_,
    fun md hmd => ?_, fun b hb => ?_⟩
  · rw [hmembers] at hmd
    exact hlen ▸ Nat.lt_succ_of_lt (h.member md hmd)
  · rw [hmembers]
    by_cases hji : j = i
    · rw [hji, Function.update_self] at hj
      rcases hφ with ⟨hφ, hpage⟩ | hφ
      · obtain rfl : s.buffers.length = md := RegistryPhase.batch.inj (hφ.symm.trans hj)
        rw [hnew, hpage]
        exact ⟨rfl, hnot⟩
      · exact nomatch hφ.symm.trans hj
    · rw [Function.update_of_ne hji] at hj
      obtain ⟨hpage, hnot'⟩ := h.batch j md hj
      rw [hold (lt_length_of_map hpage)]
      exact ⟨hpage, hnot'⟩
  · by_cases hji : j = i
    · rw [hji, Function.update_self] at hj
      rcases hφ with ⟨hφ, -⟩ | hφ
      · exact nomatch hφ.symm.trans hj
      · obtain rfl : s.buffers.length = md := RegistryPhase.holding.inj (hφ.symm.trans hj)
        rw [hnew]
        rfl
    · rw [Function.update_of_ne hji] at hj
      have hclean := h.holding j md hj
      rw [hold (lt_length_of_map hclean)]
      exact hclean
  · -- the new descriptor is nobody else's
    by_cases hji : j = i <;> by_cases hki : k = i
    · exact nomatch (hji ▸ hj).symm.trans (hki ▸ hk)
    · rw [hji, Function.update_self] at hj
      rw [Function.update_of_ne hki] at hk
      have hlt := lt_length_of_map (h.holding k md hk)
      rcases hφ with ⟨hφ, -⟩ | hφ
      · obtain rfl : s.buffers.length = md := RegistryPhase.batch.inj (hφ.symm.trans hj)
        exact Nat.lt_irrefl _ hlt
      · exact nomatch hφ.symm.trans hj
    · rw [hki, Function.update_self] at hk
      rw [Function.update_of_ne hji] at hj
      have hlt := lt_length_of_map (h.batch j md hj).1
      rcases hφ with ⟨hφ, -⟩ | hφ
      · exact nomatch hφ.symm.trans hk
      · obtain rfl : s.buffers.length = md := RegistryPhase.holding.inj (hφ.symm.trans hk)
        exact Nat.lt_irrefl _ hlt
    · rw [Function.update_of_ne hji] at hj
      rw [Function.update_of_ne hki] at hk
      exact h.apart j k md hj hk
  · rw [hmembers] at hmd
    rw [hold (h.member md hmd)]
    exact h.clean md hmd
  · rw [hbuffers, List.mem_append, List.mem_singleton] at hb
    rcases hb with hb | rfl
    · exact h.written b hb
    · exact Or.inl rfl

/-- A creation enters a descriptor that nothing was written to. -/
theorem Isolated.enter (h : Isolated s φs) {md : ObjId} (hφ : φs i = .holding md)
    (hbuffers : s'.buffers = s.buffers)
    (hmembers : s'.objects.members = s.objects.members ++ [md]) :
    Isolated s' (Function.update φs i (.entered md)) := by
  have hmd := h.holding i md hφ
  have hother : ∀ {j φ}, Function.update φs i (.entered md) j = φ → φ ≠ .entered md → φs j = φ := by
    intro j φ hj hne
    by_cases hji : j = i
    · rw [hji, Function.update_self] at hj
      exact absurd hj.symm hne
    · rwa [Function.update_of_ne hji] at hj
  refine ⟨fun x hx => ?_, fun j x hj => ?_, fun j x hj => ?_, fun j k x hj hk => ?_,
    fun x hx => ?_, hbuffers ▸ h.written⟩
  · rw [hmembers, List.mem_append, List.mem_singleton] at hx
    rw [hbuffers]
    rcases hx with hx | rfl
    · exact h.member x hx
    · exact lt_length_of_map hmd
  · have hj := hother hj nofun
    obtain ⟨hpage, hnot⟩ := h.batch j x hj
    rw [hbuffers, hmembers, List.mem_append, List.mem_singleton]
    refine ⟨hpage, fun hx => hx.elim hnot fun hxmd => ?_⟩
    exact h.apart j i x hj (hxmd ▸ hφ)
  · rw [hbuffers]
    exact h.holding j x (hother hj nofun)
  · exact h.apart j k x (hother hj nofun) (hother hk nofun)
  · rw [hmembers, List.mem_append, List.mem_singleton] at hx
    rw [hbuffers]
    rcases hx with hx | rfl
    · exact h.clean x hx
    · exact hmd

omit [DecidableEq ι] in
/-- A submission writes its batch: to a page that is no member, and that
nobody is about to enter. -/
theorem Isolated.write (h : Isolated s φs) {md : ObjId} (hφ : φs i = .batch md)
    (hbuffers : s'.buffers = s.buffers.modify md fun b => { b with cmds := noopBatch })
    (hmembers : s'.objects.members = s.objects.members) : Isolated s' φs := by
  obtain ⟨hpage, hnot⟩ := h.batch i md hφ
  have hget : ∀ x : ℕ, s'.buffers[x]?
      = (s.buffers[x]?).map fun b => if md = x then { b with cmds := noopBatch } else b := by
    intro x
    rw [hbuffers, List.getElem?_modify]
    rfl
  have hother : ∀ {x : ℕ}, x ≠ md → s'.buffers[x]? = s.buffers[x]? := fun hx => by
    simp only [hget, if_neg (Ne.symm hx), Option.map_id']
  refine ⟨fun x hx => ?_, fun j x hj => ?_, fun j x hj => ?_, h.apart, fun x hx => ?_,
    fun b hb => ?_⟩
  · rw [hbuffers, List.length_modify]
    exact h.member x (hmembers ▸ hx)
  · obtain ⟨hpage', hnot'⟩ := h.batch j x hj
    refine ⟨?_, hmembers ▸ hnot'⟩
    rw [hget]
    cases hb : s.buffers[x]? with
    | none =>
      rw [hb] at hpage'
      exact hpage'
    | some b =>
      rw [hb] at hpage'
      dsimp only [Option.map_some] at hpage' ⊢
      split <;> exact hpage'
  · rw [hother fun hx : x = md => h.apart i j md hφ (hx ▸ hj)]
    exact h.holding j x hj
  · rw [hmembers] at hx
    rw [hother fun hxmd : x = md => hnot (hxmd ▸ hx)]
    exact h.clean x hx
  · obtain ⟨k, hk⟩ := List.mem_iff_getElem?.mp hb
    rw [hget] at hk
    obtain ⟨b', hb', rfl⟩ := Option.map_eq_some_iff.mp hk
    by_cases hmd : md = k
    · subst hmd
      rw [hb'] at hpage
      rw [if_pos rfl]
      exact Or.inr ⟨rfl, Option.some.inj hpage⟩
    · rw [if_neg hmd]
      exact h.written b' (List.mem_of_getElem? hb')

/-! ## One request -/

/-- Whether a request leaves the buffers alone. -/
def KextOp.keepsBuffers : KextOp → Bool
  | withOptions _ | writeCmds _ _ => false
  | _ => true

theorem exec_buffers (P : Platform) {o : KextOp} (h : o.keepsBuffers = true) (s : Machine) :
    (exec P o s).2.buffers = s.buffers := by
  cases o with
  | setObject md => rw [setObject_eq]
  | getObject i => rw [getObject_eq]
  | readRegSafe off => rw [readRegSafe_eq]
  | _ => first | rfl | exact absurd h Bool.false_ne_true

/-- **A request that the phase allows keeps the buffers isolated.** -/
theorem Isolated.request (P : Platform) {o : KextOp} (h : Isolated s φs)
    (ho : (φs i).Allows o) :
    Isolated (exec P o s).2 (Function.update φs i ((φs i).next o (exec P o s).1)) := by
  generalize hφ : φs i = φ at ho ⊢
  -- the thread keeps what it has, or gives it up
  have hkeep {s' : Machine} (hbuffers : s'.buffers = s.buffers)
      (hmembers : ∀ md ∈ s'.objects.members, md ∈ s.objects.members) :
      Isolated s' (Function.update φs i φ) :=
    h.relax hbuffers hmembers (fun _ hb => hφ.trans hb) fun _ hh => hφ.trans hh
  have hgive {s' : Machine} {φ' : RegistryPhase} (hbuffers : s'.buffers = s.buffers)
      (hmembers : ∀ md ∈ s'.objects.members, md ∈ s.objects.members) (hnone : φ'.owned? = none) :
      Isolated s' (Function.update φs i φ') :=
    h.relax hbuffers hmembers
      (fun md heq => absurd (hnone.symm.trans (congrArg _ heq)) (Option.some_ne_none md).symm)
      fun md heq => absurd (hnone.symm.trans (congrArg _ heq)) (Option.some_ne_none md).symm
  cases ho with
  | other ho =>
    have hobj := exec_objects P (o := o) (by
      cases o <;> first | rfl | exact absurd ho Bool.false_ne_true) s
    rw [φ.next_of_offRegistry ho]
    exact hkeep (exec_buffers P (by
      cases o <;> first | rfl | exact absurd ho Bool.false_ne_true) s)
      (fun _ hmd => congrArg Objects.members hobj ▸ hmd)
  | look =>
    rw [exec_hasBoList]
    cases s.boList with
    | none => exact hgive rfl (fun _ hmd => hmd) rfl
    | some a => exact hgive rfl (fun _ hmd => hmd) rfl
  | allocBatch =>
    rcases withOptions_cases P s 4096 with hrun | hrun
    · rw [hrun]
      exact hgive rfl (fun _ hmd => hmd) rfl
    · rw [hrun]
      exact h.alloc rfl rfl (Or.inl ⟨rfl, rfl⟩)
  | alloc capacity =>
    rcases withOptions_cases P s capacity with hrun | hrun
    · rw [hrun]
      exact hgive rfl (fun _ hmd => hmd) rfl
    · rw [hrun]
      exact h.alloc rfl rfl (Or.inr rfl)
  | enter md =>
    rcases setObject_cases P s md with hrun | ⟨a, a', ha, hpush, hrun⟩
    · rw [hrun]
      exact hkeep rfl (fun _ hmd => hmd)
    · rw [hrun]
      refine h.enter hφ rfl ?_
      show a'.objs = s.boList.elim [] OSArray.objs ++ [md]
      rw [ha]
      exact OSArray.objs_of_push hpush
  | writeBatch md =>
    show Isolated _ (Function.update φs i (.batch md))
    rw [← hφ, Function.update_eq_self]
    exact h.write hφ rfl rfl
  | batchAddress md | batchLength md => exact hkeep rfl (fun _ hmd => hmd)
  | releaseBatch md | undo md | address md | sweep | drop k n md | dropArray n =>
    exact hgive rfl (fun _ hmd => hmd) rfl
  | count md => exact hkeep rfl (fun _ hmd => hmd)
  | @pick k n hk =>
    rw [getObject_eq]
    cases s.boList.bind fun a => a.objs[(UInt32.ofNat k).toNat]? with
    | none => exact hgive rfl (fun _ hmd => hmd) rfl
    | some md => exact hgive rfl (fun _ hmd => hmd) rfl
  | clear => exact hgive rfl (fun _ hmd => absurd hmd List.not_mem_nil) rfl

end Isolated

/-! ## Every interleaving -/

/-- **No client's buffer is ever written to.** In every interleaving of calls
and shutdowns, and at every moment of it, the buffers in the registry are as
they were created; and a buffer that was written to holds the batch of
no-ops and is a page. -/
theorem client_buffers_untouched {ι : Type} [DecidableEq ι] (P : Platform)
    (work : ι → Option Call) (sched : List ι) :
    let s := ((servicePool P.started work).runs (exec P) sched).shared
    (∀ md ∈ s.objects.members, (s.buffers[md]?).map Buffer.cmds = some [])
      ∧ ∀ b ∈ s.buffers, b.cmds = [] ∨ b.cmds = noopBatch ∧ b.length = 4096 := by
  intro s
  obtain ⟨hmembers, hcreated, -⟩ := started_objects P
  have hnone : ∀ md, md ∉ P.started.objects.members := fun md => hmembers ▸ List.not_mem_nil
  have hbuffers : P.started.buffers = [] := List.length_eq_zero_iff.mp hcreated
  have hstart : Isolated P.started (fun _ : ι => RegistryPhase.idle) := by
    refine ⟨fun md hmd => absurd hmd (hnone md), fun _ _ h => (nomatch h), fun _ _ h => (nomatch h),
      fun _ _ _ h => (nomatch h), fun md hmd => absurd hmd (hnone md), fun b hb => ?_⟩
    rw [hbuffers] at hb
    exact nomatch hb
  have hfree : Pool.Along (exec P) (fun _ _ => True) (servicePool P.started work) sched :=
    Pool.along_of_forall (fun _ _ => trivial) _ _
  obtain ⟨-, hend⟩ := hfree.phases (M := registryMonitor) (φ := .idle)
    (Q := fun φ _ => φ = .idle) (R := Isolated)
    (fun _ _ _ _ _ _ h _ ho => ⟨trivial, h.request P ho⟩) (obedient_servicePool _ work) hstart
  exact ⟨hend.clean, hend.written⟩

/-- A creation and a submission that overlap. -/
theorem client_buffers_untouched_overlap :
    let s := ((servicePool Platform.ideal.started fun b : Bool =>
      some (if b then Call.creating 1 else Call.submitting)).runs (exec .ideal)
        [false, true, false, true, true, false, false, false, false, false]).shared
    0 ∉ s.objects.members ∧ 1 ∈ s.objects.members
      ∧ (s.buffers[1]?).map Buffer.cmds = some [] :=
  ⟨by decide, by decide, (client_buffers_untouched .ideal _ _).1 1 (by decide)⟩
