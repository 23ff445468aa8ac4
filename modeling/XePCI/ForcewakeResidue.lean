import XePCI.GuardRaces

/-!
# The request that is left behind

A guard that is acknowledged withdraws its request; one that gives up does
not, and nothing in the driver ever looks back. So what is in `FORCEWAKE_REQ`
at the end is a matter of the whole run.

Over one life of the driver it is the last guard that decides, and it decides
for good or for ill (`session_request_residue`): acknowledged, it leaves bit
0 clear, whatever the guards before it left there and even if it was set when
the driver came; having given up, it leaves it set. The other bits are never
touched.

When calls overlap there is no last guard. A release can come between the
request of another guard and its end. Still, what was asked for is withdrawn
once everybody is done, if nobody gave up (`request_withdrawn`): the write
that comes last is a release, since whoever asks releases later.

Both are read off one account of what a request does to a guard and to the
history (`GuardMove`).
-/

open XeService

/-! ## The moves of a guard -/

/-- **What a request does to a guard and to the history.** -/
inductive GuardMove (h h' : List MmioEvent) : GuardPhase → GuardPhase → Prop
  | ask (hh : h' = .write .guardRdWr XeHW.forcewakeReq forcewakeSet :: h) :
      GuardMove h h' .idle .asking
  | release (hh : h' = .write .guardRdWr XeHW.forcewakeReq forcewakeClear :: h) :
      GuardMove h h' .awake .idle
  | settle (b : Bool) (hh : h' = .guardOutcome b :: h) : GuardMove h h' .polling (.ofAcquired b)
  | look {φ φ' : GuardPhase} (hh : h' = h ∨ ∃ path off val, h' = .read path off val :: h)
      (hφ : φ' = φ ∨ φ = .asking ∧ φ' = .polling) : GuardMove h h' φ φ'

/-- A request of a call or of bring-up is one of them. -/
theorem exec_guardMove {P : Platform} {g : XeBootFlags} {m : UInt64} {φ : GuardPhase} {o : KextOp}
    (ho : (callMonitor g m).allows φ o) (s : Machine) :
    GuardMove s.hist (exec P o s).2.hist φ (φ.next o) := by
  obtain ⟨-, hwrites, houtcome⟩ := ho
  cases o with
  | mmioWrite path m' off val =>
    have hmem := hwrites _ rfl (Option.some_ne_none val)
    simp only [guardTouches, List.mem_cons, Prod.mk.injEq, Touch.mk.injEq, Option.some.injEq,
      List.not_mem_nil, or_false, reduceCtorEq, and_false, false_or] at hmem
    rcases hmem with ⟨rfl, rfl, rfl, rfl⟩ | ⟨rfl, rfl, rfl, rfl⟩
    · exact .ask rfl
    · exact .release rfl
  | mmioRead path m' off =>
    refine .look (Or.inr ⟨path, off, _, rfl⟩) ?_
    cases path with
    | guardRdWr => cases φ <;> first | exact Or.inl rfl | exact Or.inr ⟨rfl, rfl⟩
    | _ => exact Or.inl rfl
  | guardOutcome b =>
    obtain rfl : φ = .polling := houtcome b rfl
    exact .settle b rfl
  | readRegSafe off =>
    refine .look ?_ (Or.inl rfl)
    rcases readRegSafe_cases P s off with ⟨v, hrun⟩ | ⟨-, hrun⟩
    · rw [hrun]
      exact Or.inl rfl
    · rw [hrun]
      exact Or.inr ⟨_, _, _, rfl⟩
  | _ => exact .look (Or.inl (exec_hist_of_quiet P rfl s)) (Or.inl rfl)

/-- The request register after a read is what it was. -/
theorem forcewakeReqAfter_look (r₀ : UInt32) {h h' : List MmioEvent}
    (hh : h' = h ∨ ∃ path off val, h' = .read path off val :: h) :
    forcewakeReqAfter r₀ h' = forcewakeReqAfter r₀ h := by
  rcases hh with rfl | ⟨path, off, val, rfl⟩ <;> rfl

theorem forcewakeReqAfter_set (r₀ : UInt32) (h : List MmioEvent) :
    forcewakeReqAfter r₀ (.write .guardRdWr XeHW.forcewakeReq forcewakeSet :: h)
      = forcewakeReqAfter r₀ h &&& ~~~1 ||| 1 := by
  rw [forcewakeReqAfter, if_pos rfl, maskedWrite_set]

theorem forcewakeReqAfter_clear (r₀ : UInt32) (h : List MmioEvent) :
    forcewakeReqAfter r₀ (.write .guardRdWr XeHW.forcewakeReq forcewakeClear :: h)
      = forcewakeReqAfter r₀ h &&& ~~~1 := by
  rw [forcewakeReqAfter, if_pos rfl, maskedWrite_clear]

/-! ## One guard after another -/

/-- How the last guard of a history ended, if there was one. -/
def lastOutcome : List MmioEvent → Option Bool
  | [] => none
  | .guardOutcome acquired :: _ => some acquired
  | .read _ _ _ :: hist | .write _ _ _ :: hist => lastOutcome hist

/-- What the last guard leaves in the request register. -/
def residue (r₀ : UInt32) : Option Bool → UInt32
  | none => r₀
  | some true => r₀ &&& ~~~1
  | some false => r₀ &&& ~~~1 ||| 1

/-- Whatever it leaves there, the other bits are as they were. -/
theorem residue_and_not_one (r₀ : UInt32) (last : Option Bool) :
    residue r₀ last &&& ~~~1 = r₀ &&& ~~~1 := by
  cases last with
  | none => rfl
  | some b =>
    cases b with
    | true => exact and_not_one_idem r₀
    | false => exact set_one_and_not_one r₀

/-- **The request register in the phases of a guard**, for guards that come
one after another. -/
structure Residue (r₀ : UInt32) (φ : GuardPhase) (hist : List MmioEvent) : Prop where
  idle : φ = .idle → forcewakeReqAfter r₀ hist = residue r₀ (lastOutcome hist)
  busy : φ ≠ .idle → forcewakeReqAfter r₀ hist = r₀ &&& ~~~1 ||| 1
  awake : φ = .awake → lastOutcome hist = some true

/-- A move of the guard keeps it. -/
theorem Residue.move {r₀ : UInt32} {φ φ' : GuardPhase} {h h' : List MmioEvent}
    (hs : Residue r₀ φ h) (hmove : GuardMove h h' φ φ') : Residue r₀ φ' h' := by
  cases hmove with
  | ask hh =>
    subst hh
    refine ⟨fun hφ => (nomatch hφ), fun _ => ?_, fun hφ => (nomatch hφ)⟩
    rw [forcewakeReqAfter_set, hs.idle rfl, residue_and_not_one]
  | release hh =>
    subst hh
    refine ⟨fun _ => ?_, fun hφ => absurd rfl hφ, fun hφ => (nomatch hφ)⟩
    rw [forcewakeReqAfter_clear, hs.busy (by decide), set_one_and_not_one, lastOutcome,
      hs.awake rfl]
    rfl
  | settle b hh =>
    subst hh
    have hset := hs.busy (by decide)
    cases b with
    | true => exact ⟨fun hφ => (nomatch hφ), fun _ => hset, fun _ => rfl⟩
    | false => exact ⟨fun _ => hset, fun hφ => absurd rfl hφ, fun hφ => (nomatch hφ)⟩
  | look hh hφ =>
    have hlast : lastOutcome h' = lastOutcome h := by
      rcases hh with rfl | ⟨path, off, val, rfl⟩ <;> rfl
    have hreq := forcewakeReqAfter_look r₀ hh
    rcases hφ with rfl | ⟨rfl, rfl⟩
    · exact ⟨fun h => hreq.trans (hlast ▸ hs.idle h), fun h => hreq.trans (hs.busy h),
        fun h => hlast.trans (hs.awake h)⟩
    · exact ⟨fun hφ => (nomatch hφ), fun _ => hreq.trans (hs.busy (by decide)),
        fun hφ => (nomatch hφ)⟩

/-- So a program whose only writes are those of its guards keeps it. -/
theorem Prog.Obeys.residue {α : Type} {P : Platform} {r₀ : UInt32} {s : Machine} {p : Kext α}
    {φ : GuardPhase} {Q : GuardPhase → α → Prop}
    (h : Prog.Obeys (callMonitor s.gXeBoot s.mmio) φ p Q) (hs : Residue r₀ φ s.hist) :
    ∃ φ', Residue r₀ φ' (p.run (exec P) s).2.hist ∧ Q φ' (p.run (exec P) s).1 := by
  have hstep : ∀ (φ : GuardPhase) (o : KextOp) (t : Machine),
      (callMonitor s.gXeBoot s.mmio).allows φ o →
        (t.gXeBoot = s.gXeBoot ∧ t.mmio = s.mmio) ∧ Residue r₀ φ t.hist →
          (callMonitor s.gXeBoot s.mmio).admits φ o (exec P o t).1
            ∧ ((exec P o t).2.gXeBoot = s.gXeBoot ∧ (exec P o t).2.mmio = s.mmio)
              ∧ Residue r₀ (φ.next o) (exec P o t).2.hist := by
    intro φ o t ho ⟨⟨hboot, hmmio⟩, ht⟩
    obtain ⟨hboot', hmmio', -⟩ := exec_setup P ho.1 t
    have hanswers := exec_answers_true P o t φ
    rw [hboot, hmmio] at hanswers
    exact ⟨hanswers, ⟨hboot'.trans hboot, hmmio'.trans hmmio⟩, ht.move (exec_guardMove ho t)⟩
  obtain ⟨φ', ⟨-, hres⟩, hQ⟩ := h.run hstep ⟨⟨rfl, rfl⟩, hs⟩
  exact ⟨φ', hres, hQ⟩

/-- Bring-up has no guard. -/
theorem residue_started (P : Platform) (r₀ : UInt32) : Residue r₀ .idle P.started.hist := by
  have hnil : Residue r₀ .idle [] :=
    ⟨fun _ => rfl, fun hφ => absurd rfl hφ, fun hφ => (nomatch hφ)⟩
  have hinit : P.initialized.mmio = 0 ∧ P.initialized.hist = [] := by
    rw [initialized_eq]
    exact ⟨rfl, rfl⟩
  unfold Platform.started
  cases hmap : P.mapped with
  | none =>
    rw [run_start_of_unmapped hmap hinit.1, (run_mapBar0_of_unmapped hmap hinit.1).2.2.1, hinit.2]
    exact hnil
  | some map =>
    have hreads : ∀ g, ∀ p ∈ startTouches g, GuardWrites p.1 p.2 := by decide
    rw [run_start_of_mapped hmap]
    obtain ⟨φ, hres, rfl⟩ := Prog.Obeys.residue (P := P)
      (s := P.initialized.withMapping map) (obeys_bringUp (hreads _))
      (show Residue r₀ .idle P.initialized.hist from hinit.2 ▸ hnil)
    exact hres

/-- **The last guard decides what is left.** At the end of every session the
request register is what it was found to be, if no guard was ever
constructed; with bit 0 clear, if the last guard was acknowledged; and with
bit 0 set, if it gave up. -/
theorem session_request_residue (P : Platform) (calls : List Call) (r₀ : UInt32) :
    forcewakeReqAfter r₀ (history P calls) = residue r₀ (lastOutcome (history P calls)) := by
  have hserve := @obeys_serve P.started.gXeBoot P.started.mmio (fun _ => True) GuardWrites false
    (fun h => nomatch h) calls (fun _ c _ => touches_guardWrites _ c)
  obtain ⟨φ, hres, hφ, -⟩ := Prog.Obeys.residue (P := P) hserve (residue_started P r₀)
  rw [history_eq]
  exact hres.idle hφ

/-! ## Guards that overlap -/

/-- Since the history was `h₀`, a guard has given up. -/
def GaveUp (h₀ h : List MmioEvent) : Prop := ∃ es, h = es ++ h₀ ∧ .guardOutcome false ∈ es

/-- **What was asked for since the history was `h₀` is withdrawn**, unless a
guard has given up or is not done: the register is what it was or has bit 0
clear. -/
structure Withdrawn {ι : Type} (r₀ : UInt32) (h₀ h : List MmioEvent) (φs : ι → GuardPhase) :
    Prop where
  grown : h₀ <:+ h
  others : forcewakeReqAfter r₀ h &&& ~~~1 = forcewakeReqAfter r₀ h₀ &&& ~~~1
  bit : GaveUp h₀ h ∨ (∃ i, φs i ≠ .idle)
    ∨ forcewakeReqAfter r₀ h = forcewakeReqAfter r₀ h₀
    ∨ forcewakeReqAfter r₀ h = forcewakeReqAfter r₀ h₀ &&& ~~~1

section Overlap

variable {ι : Type} [DecidableEq ι] {r₀ : UInt32} {h₀ h h' : List MmioEvent}

theorem GaveUp.cons (hgave : GaveUp h₀ h) (e : MmioEvent) : GaveUp h₀ (e :: h) := by
  obtain ⟨es, rfl, hmem⟩ := hgave
  exact ⟨e :: es, rfl, List.mem_cons_of_mem e hmem⟩

/-- A thread that is busy after its move is one that is. -/
theorem exists_busy_update {φs : ι → GuardPhase} {i : ι} {φ' : GuardPhase} (hφ : φ' ≠ .idle) :
    ∃ j, Function.update φs i φ' j ≠ .idle :=
  ⟨i, by rwa [Function.update_self]⟩

/-- A move of one thread's guard keeps what was asked for accounted for. -/
theorem Withdrawn.move {φs : ι → GuardPhase} {i : ι} {φ' : GuardPhase}
    (hs : Withdrawn r₀ h₀ h φs) (hmove : GuardMove h h' (φs i) φ') :
    Withdrawn r₀ h₀ h' (Function.update φs i φ') := by
  obtain ⟨hgrown, hothers, hbit⟩ := hs
  generalize hφ : φs i = φ at hmove
  cases hmove with
  | ask hh =>
    subst hh
    refine ⟨hgrown.trans (List.suffix_cons _ h), ?_, Or.inr (Or.inl (exists_busy_update ?_))⟩
    · rw [forcewakeReqAfter_set, set_one_and_not_one, hothers]
    · decide
  | release hh =>
    subst hh
    refine ⟨hgrown.trans (List.suffix_cons _ h), ?_, Or.inr (Or.inr (Or.inr ?_))⟩
    · rw [forcewakeReqAfter_clear, and_not_one_idem, hothers]
    · rw [forcewakeReqAfter_clear, hothers]
  | settle b hh =>
    subst hh
    refine ⟨hgrown.trans (List.suffix_cons _ h), hothers, ?_⟩
    cases b with
    | true => exact Or.inr (Or.inl (exists_busy_update (by decide)))
    | false =>
      obtain ⟨es, rfl⟩ := hgrown
      exact Or.inl ⟨_ :: es, rfl, List.mem_cons_self⟩
  | look hh hφ' =>
    have hreq := forcewakeReqAfter_look r₀ hh
    have hsuffix : h <:+ h' := by
      rcases hh with rfl | ⟨path, off, val, rfl⟩
      · exact List.suffix_refl _
      · exact List.suffix_cons _ _
    refine ⟨hgrown.trans hsuffix, by rw [hreq, hothers], ?_⟩
    rw [hreq]
    refine hbit.imp (fun hgave => ?_) (Or.imp_left ?_)
    · rcases hh with rfl | ⟨path, off, val, rfl⟩
      · exact hgave
      · exact hgave.cons _
    · rintro ⟨j, hj⟩
      by_cases hji : j = i
      · subst hji
        refine exists_busy_update ?_
        rcases hφ' with rfl | ⟨-, rfl⟩
        · rwa [hφ] at hj
        · decide
      · exact ⟨j, by rwa [Function.update_of_ne hji]⟩

/-- **Requests are withdrawn in the end.** In every interleaving of any calls
that have all returned, the request register has its other bits as they were;
and it is what it was, or has bit 0 clear, unless a guard has given up. -/
theorem request_withdrawn (P : Platform) (s₀ : Machine) (r₀ : UInt32) (calls : ι → Call)
    (sched : List ι)
    (hdone : ∀ i, (((callPool s₀ calls).runs (exec P) sched).thread i).result?.isSome = true) :
    forcewakeReqAfter r₀ ((callPool s₀ calls).runs (exec P) sched).shared.hist &&& ~~~1
        = forcewakeReqAfter r₀ s₀.hist &&& ~~~1
      ∧ (GaveUp s₀.hist ((callPool s₀ calls).runs (exec P) sched).shared.hist
        ∨ forcewakeReqAfter r₀ ((callPool s₀ calls).runs (exec P) sched).shared.hist
          = forcewakeReqAfter r₀ s₀.hist
        ∨ forcewakeReqAfter r₀ ((callPool s₀ calls).runs (exec P) sched).shared.hist
          = forcewakeReqAfter r₀ s₀.hist &&& ~~~1) := by
  have hstart : (callPool s₀ calls).Obedient (callMonitor s₀.gXeBoot s₀.mmio) .idle
      (fun φ _ => φ = .idle) :=
    Pool.obedient_start fun i => obeys_callMonitor _ _ (calls i)
  have hfree : Withdrawn r₀ s₀.hist s₀.hist (fun _ : ι => GuardPhase.idle) :=
    ⟨List.suffix_refl _, rfl, Or.inr (Or.inr (Or.inl rfl))⟩
  have halong : Pool.Along (exec P) (fun _ _ => True) (callPool s₀ calls) sched :=
    Pool.along_of_forall (fun _ _ => trivial) _ sched
  obtain ⟨hobedient, -, hwithdrawn⟩ := halong.phases
    (R := fun (s : Machine) φs => (s.gXeBoot = s₀.gXeBoot ∧ s.mmio = s₀.mmio)
      ∧ Withdrawn r₀ s₀.hist s.hist φs)
    (fun c i o k hi _ hR _ ho => by
      obtain ⟨⟨hboot, hmmio⟩, hR⟩ := hR
      obtain ⟨hboot', hmmio', -⟩ := exec_setup P ho.1 c.shared
      have hanswers := exec_answers_true P o c.shared
        (c.phases (callMonitor s₀.gXeBoot s₀.mmio) .idle i)
      rw [hboot, hmmio] at hanswers
      exact ⟨hanswers, ⟨hboot'.trans hboot, hmmio'.trans hmmio⟩,
        hR.move (exec_guardMove ho c.shared)⟩)
    hstart ⟨⟨rfl, rfl⟩, hfree⟩
  refine ⟨hwithdrawn.others, hwithdrawn.bit.imp_right fun h => h.resolve_left ?_⟩
  -- who has returned has no guard any more
  rintro ⟨i, hi⟩
  obtain ⟨a, ha⟩ := Option.isSome_iff_exists.mp (hdone i)
  have hobeys := hobedient i
  rw [Prog.eq_ret_of_result? ha] at hobeys
  exact hi hobeys

end Overlap

/-- Two submissions: when the first withdraws the request, the second one's
guard has been acknowledged. -/
def overlappingGuards : KextPool (IOReturn × Option IOExternalMethodArguments) Bool :=
  (callPool oddPlatform.started fun _ => .submitting).runs (exec oddPlatform)
    (List.replicate 12 false ++ List.replicate 12 true ++ List.replicate 8 false
      ++ List.replicate 8 true)

/-- The request is withdrawn all the same, when both have returned. -/
theorem request_withdrawn_overlap :
    (∀ i, (overlappingGuards.thread i).result?.isSome = true)
      ∧ (GaveUp oddPlatform.started.hist overlappingGuards.shared.hist
        ∨ forcewakeReqAfter 5 overlappingGuards.shared.hist
          = forcewakeReqAfter 5 oddPlatform.started.hist
        ∨ forcewakeReqAfter 5 overlappingGuards.shared.hist
          = forcewakeReqAfter 5 oddPlatform.started.hist &&& ~~~1) := by
  have hdone : ∀ i, (overlappingGuards.thread i).result?.isSome = true := by decide
  exact ⟨hdone, (request_withdrawn oddPlatform _ 5 _ _ hdone).2⟩
