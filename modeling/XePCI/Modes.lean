import XePCI.BootGrammar
import XePCI.Lives
import XePCI.SafeModes

/-!
# What the boot flags allow

The boot flags are there to keep the driver from touching things. Under given
flags there is a list of what it touches, in bring-up and in any calls
(`XeBootFlags.touches`), and the list is exact (`touches_exact`): whatever is
on it is touched on some platform with these flags, and nothing else is on
any.

More flags mean a shorter list (`touches_anti`). The flags are global and only
ever added to, so what an earlier instance of the service was forbidden is
forbidden to every later one, even if the boot argument says otherwise by
then (`restrictions_persist`).
-/

open XeService

namespace XeBootFlags

/-- **What the driver can touch** under its flags. -/
def touches (g : XeBootFlags) : List Touch :=
  (startTouches g ++ rcs0Touches g false).map Prod.snd
    ++ [3, 4, 5].flatMap fun k => (XeUserClient.regsOf k).map fun off => { path := .readReg, off }

theorem touches_of_start {g : XeBootFlags} {p : GuardPhase × Touch} (h : p ∈ startTouches g) :
    p.2 ∈ g.touches :=
  List.mem_append_left _ (List.mem_map_of_mem (List.mem_append_left _ h))

theorem touches_of_rcs0 {g : XeBootFlags} {p : GuardPhase × Touch} (h : p ∈ rcs0Touches g false) :
    p.2 ∈ g.touches :=
  List.mem_append_left _ (List.mem_map_of_mem (List.mem_append_right _ h))

/-- The registers of a call are on the list in every mode. -/
theorem touches_of_regs (g : XeBootFlags) {c : Call} {off : UInt32} (h : off ∈ c.regs) :
    { path := .readReg, off } ∈ g.touches := by
  have hregs : off ∈ XeUserClient.regsOf c.selector := by
    unfold Call.regs at h
    split at h
    · exact absurd h List.not_mem_nil
    · split at h
      · exact h
      · exact absurd h List.not_mem_nil
  have hselector : c.selector ∈ [3, 4, 5] := by
    unfold XeUserClient.regsOf at hregs
    split_ifs at hregs with h3 h4 h5
    · exact h3 ▸ by decide
    · exact h4 ▸ by decide
    · exact h5 ▸ by decide
    · exact absurd hregs List.not_mem_nil
  exact List.mem_append_right _
    (List.mem_flatMap.mpr ⟨c.selector, hselector, List.mem_map_of_mem hregs⟩)

theorem touches_of_call {g : XeBootFlags} {c : Call} {p : GuardPhase × Touch}
    (h : p ∈ c.touches g false) : p.2 ∈ g.touches := by
  rcases List.mem_append.mp h with h | h
  · exact touches_of_rcs0 h
  · obtain ⟨off, hoff, rfl⟩ := List.mem_map.mp h
    exact touches_of_regs g hoff

/-! ## The list is exact -/

instance (g : XeBootFlags) : Decidable g.StrictImplied := inferInstanceAs (Decidable (_ → _))

/-- The characters of a boot argument that names the given flags. -/
def spell (g : XeBootFlags) : List UInt8 :=
  (if g.verbose then tokenVerbose ++ [44] else [])
    ++ (if g.disableForcewake then tokenNoforcewake ++ [44] else [])
    ++ (if g.disableCommandStream then tokenNocs ++ [44] else [])
    ++ (if g.strictSafe then tokenStrictsafe else [])

/-- A platform with the given flags, whose device acknowledges every request
at once. -/
def modePlatform (g : XeBootFlags) : Platform :=
  { oddPlatform with
    bootArg := some ⟨g.spell, (by decide : ∀ g : XeBootFlags, 0 ∉ g.spell) g,
      (by decide : ∀ g : XeBootFlags, g.spell.length ≤ 127) g⟩ }

theorem flags_modePlatform {g : XeBootFlags} (hg : g.StrictImplied) :
    (modePlatform g).flags = g := by
  have hnamed : ∀ g : XeBootFlags, g.StrictImplied → named g.spell = g := by decide +kernel
  rw [flags_eq]
  show (parse _ {}).getD {} = g
  rw [parse_eq, Option.getD_some, empty_or]
  exact hnamed g hg

/-- One submission and one call of each kind that reads registers. -/
def eachCall : List Call := [.submitting, .reading 3, .reading 4, .reading 5]

/-- They touch everything on the list. -/
theorem touched_modePlatform : ∀ g : XeBootFlags, g.StrictImplied →
    (g.touches.all fun t =>
      (history (modePlatform g) eachCall).any fun e => e.touch? == some t) = true := by
  decide +kernel

end XeBootFlags

/-- **The list of a mode is exact.** An access is on the list of the flags of
a platform exactly if it happens in some session on some platform with these
flags. -/
theorem touches_exact (P : Platform) (t : Touch) :
    t ∈ P.flags.touches
      ↔ ∃ P' calls, P'.flags = P.flags ∧ ∃ e ∈ history P' calls, e.touch? = some t := by
  constructor
  · intro ht
    have htouched := XeBootFlags.touched_modePlatform P.flags (strictImplied_flags P)
    obtain ⟨e, he, hte⟩ := List.any_eq_true.mp (List.all_eq_true.mp htouched t ht)
    exact ⟨_, _, XeBootFlags.flags_modePlatform (strictImplied_flags P), e, he, eq_of_beq hte⟩
  · rintro ⟨P', calls, hflags, e, he, hte⟩
    rw [← hflags]
    obtain ⟨-, -, ht, -⟩ := history_all (X := (· ∈ P'.flags.touches))
      (fun _ => XeBootFlags.touches_of_start) (fun _ => XeBootFlags.touches_of_rcs0)
      (fun _ _ _ => XeBootFlags.touches_of_regs _) he hte
    exact ht

/-! ## More flags, fewer accesses -/

namespace XeBootFlags

variable {g g' : XeBootFlags}

/-- A flag that the larger flags do not have, the smaller ones do not have. -/
theorem clear_of_le (h : g ≤ g') (flag : XeBootFlags → Bool)
    (hflag : ∀ g g', flag (or g g') = (flag g || flag g')) (hclear : flag g' = false) :
    flag g = false := by
  have hor : g.or g' = g' := sup_eq_right.mpr h
  rw [← hor, hflag, Bool.or_eq_false_iff] at hclear
  exact hclear.1

theorem startTouches_anti (h : g ≤ g') : startTouches g' ⊆ startTouches g := by
  unfold startTouches
  cases hstrict : g'.strictSafe with
  | true =>
    rw [if_pos rfl, List.append_nil]
    exact List.subset_append_left _ _
  | false =>
    rw [clear_of_le h strictSafe (fun _ _ => rfl) hstrict]
    exact List.Subset.refl _

theorem rcs0Touches_anti (h : g ≤ g') : rcs0Touches g' false ⊆ rcs0Touches g false := by
  unfold rcs0Touches
  cases hring : g'.disableCommandStream || g'.strictSafe with
  | true => exact List.nil_subset _
  | false =>
    obtain ⟨hstream, hstrict⟩ := Bool.or_eq_false_iff.mp hring
    rw [clear_of_le h disableCommandStream (fun _ _ => rfl) hstream,
      clear_of_le h strictSafe (fun _ _ => rfl) hstrict]
    cases hforcewake : g'.disableForcewake with
    | true =>
      cases g.disableForcewake with
      | true => exact List.Subset.refl _
      | false => exact List.subset_append_right _ _
    | false =>
      rw [clear_of_le h disableForcewake (fun _ _ => rfl) hforcewake]
      exact List.Subset.refl _

theorem touches_anti (h : g ≤ g') : g'.touches ⊆ g.touches := by
  refine List.append_subset.mpr ⟨?_, List.subset_append_right _ _⟩
  refine List.Subset.trans (List.map_subset _ ?_) (List.subset_append_left _ _)
  exact List.append_subset.mpr
    ⟨List.Subset.trans (startTouches_anti h) (List.subset_append_left _ _),
      List.Subset.trans (rcs0Touches_anti h) (List.subset_append_right _ _)⟩

end XeBootFlags

/-! ## From life to life -/

/-- **Since the history was `h₀`** only what the flags `g` allow was touched. -/
def TouchedSince (g : XeBootFlags) (h₀ h : List MmioEvent) : Prop :=
  ∃ es, h = es ++ h₀ ∧ ∀ e ∈ es, ∀ t, e.touch? = some t → t ∈ g.touches

theorem TouchedSince.refl (g : XeBootFlags) (h : List MmioEvent) : TouchedSince g h h :=
  ⟨[], rfl, List.forall_mem_nil _⟩

theorem TouchedSince.trans {g g' : XeBootFlags} {h h' h'' : List MmioEvent}
    (hh : TouchedSince g h h') (hh' : TouchedSince g' h' h'') (hg : g ≤ g') :
    TouchedSince g h h'' := by
  obtain ⟨es, rfl, hes⟩ := hh
  obtain ⟨es', rfl, hes'⟩ := hh'
  refine ⟨es' ++ es, (List.append_assoc ..).symm, List.forall_mem_append.mpr ⟨?_, hes⟩⟩
  exact fun e he t ht => XeBootFlags.touches_anti hg (hes' e he t ht)

/-- What the monitor of the accesses has seen is what was touched. -/
theorem Machine.Within.touchedSince {g : XeBootFlags} {m L : UInt64} {h₀ : List MmioEvent}
    {φ : GuardPhase} {s : Machine} (hs : s.Within g m L (fun _ t => t ∈ g.touches) h₀ φ)
    (hsuffix : h₀ <:+ s.hist) : TouchedSince g h₀ s.hist := by
  obtain ⟨es, hes⟩ := hsuffix
  refine ⟨es, hes.symm, fun e he t ht => ?_⟩
  obtain ⟨after, before, rfl⟩ := List.append_of_mem he
  refine hs.allowed e (before ++ h₀) ⟨after, ?_⟩ (List.suffix_append _ _) t ht
  rw [← hes, List.append_assoc]
  rfl

/-- Parsing adds flags. -/
theorem Platform.le_parsed (P : Platform) (g : XeBootFlags) : g ≤ P.parsed g := by
  unfold Platform.parsed
  cases P.bootArg with
  | none => exact le_refl g
  | some buf =>
    rw [Option.elim_some, XeBootFlags.parse_eq, Option.getD_some]
    exact le_sup_left

/-- **One more life touches what its flags allow**, and leaves no guard. -/
theorem touchedSince_live {s : Machine} (hs : GuardPhase.of s.hist = .idle) (l : Life) :
    GuardPhase.of (s.live l).hist = .idle ∧ s.gXeBoot ≤ (s.live l).gXeBoot
      ∧ TouchedSince (s.live l).gXeBoot s.hist (s.live l).hist := by
  have hflags : (s.live l).gXeBoot = (s.inited l.platform).gXeBoot :=
    congrArg Account.flags (account_live s l)
  have hle : s.gXeBoot ≤ (s.inited l.platform).gXeBoot := by
    show s.gXeBoot ≤ if l.platform.superInit then l.platform.parsed s.gXeBoot else s.gXeBoot
    split
    · exact l.platform.le_parsed _
    · exact le_refl _
  rw [hflags]
  suffices GuardPhase.of (s.live l).hist = .idle
      ∧ TouchedSince (s.inited l.platform).gXeBoot s.hist (s.live l).hist from
    ⟨this.1, hle, this.2⟩
  have hsame : GuardPhase.of (s.inited l.platform).hist = .idle
      ∧ TouchedSince (s.inited l.platform).gXeBoot s.hist (s.inited l.platform).hist :=
    ⟨hs, .refl _ _⟩
  rw [Machine.live_eq]
  split
  swap
  · exact hsame
  cases hmap : l.platform.mapped with
  | none =>
    rw [run_start_of_unmapped hmap rfl]
    obtain ⟨hfalse, -, hhist, -⟩ :=
      run_mapBar0_of_unmapped hmap (s := s.inited l.platform) rfl
    rw [hfalse, if_neg Bool.false_ne_true, hhist]
    exact hsame
  | some map =>
    set P := l.platform
    set g := (s.inited P).gXeBoot
    have hself := ((s.inited P).withMapping map).within_self fun _ t => t ∈ g.touches
    rw [show GuardPhase.of ((s.inited P).withMapping map).hist = .idle from hs] at hself
    rw [run_start_of_mapped hmap]
    obtain ⟨φ, hstarted, rfl⟩ := (obeys_bringUp fun _ => XeBootFlags.touches_of_start).within
      P.firstPoll_true hself
    have hserve := @obeys_serve g map.virtualAddress (fun _ => True) (fun _ t => t ∈ g.touches)
      false (fun h => nomatch h) l.calls (fun _ c _ p hp => XeBootFlags.touches_of_call hp)
    obtain ⟨φ, hserved, rfl, -⟩ := hserve.within P.firstPoll_true hstarted
    have hgrown : s.hist <:+ (bringUp.run (exec P) ((s.inited P).withMapping map)).2.hist :=
      hist_suffix_run P bringUp ((s.inited P).withMapping map)
    split
    · rw [hist_stop]
      exact ⟨hserved.phase, hserved.touchedSince (hgrown.trans (hist_suffix_run P _ _))⟩
    · exact ⟨hstarted.phase, hstarted.touchedSince hgrown⟩

/-- So do any lives: by induction on them, the last one first. -/
theorem touchedSince_lives {s : Machine} (hs : GuardPhase.of s.hist = .idle) (ls : List Life) :
    GuardPhase.of (s.lives ls).hist = .idle ∧ s.gXeBoot ≤ (s.lives ls).gXeBoot
      ∧ TouchedSince s.gXeBoot s.hist (s.lives ls).hist := by
  induction ls using List.reverseRecOn with
  | nil => exact ⟨hs, le_refl _, .refl _ _⟩
  | append_singleton ls l ih =>
    obtain ⟨hidle, hle, htouched⟩ := ih
    obtain ⟨hidle', hle', htouched'⟩ := touchedSince_live hidle l
    rw [Machine.lives_append_singleton]
    exact ⟨hidle', hle.trans hle', htouched.trans htouched' (hle.trans hle')⟩

/-- **Restrictions persist.** After any lives, whatever is touched in later
ones is on the list of the flags there were by then – whatever the boot
arguments, the devices and the calls of the later lives. -/
theorem restrictions_persist (pre post : List Life) :
    ∃ es, (Machine.fresh.lives (pre ++ post)).hist = es ++ (Machine.fresh.lives pre).hist
      ∧ ∀ e ∈ es, ∀ t, e.touch? = some t → t ∈ (Machine.fresh.lives pre).gXeBoot.touches := by
  have happend : Machine.fresh.lives (pre ++ post) = (Machine.fresh.lives pre).lives post :=
    List.foldl_append
  obtain ⟨hidle, -, -⟩ := touchedSince_lives (s := Machine.fresh) rfl pre
  rw [happend]
  exact (touchedSince_lives hidle post).2.2
