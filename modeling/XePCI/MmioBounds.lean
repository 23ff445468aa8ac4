import XePCI.Session

/-!
# Accesses and the length of the BAR

`start` stores the length of BAR0 for bounds checking, rejects a length of
`0` and warns below 1 MiB. `readReg` checks the length; the raw reads of
`start` and the accessors of the three helper classes do not. So whether a
session stays inside the BAR depends on the length, and on what the boot
flags let it touch past `readReg`: `requiredLength` is the exact bound
(`history_inBar_iff`). Below it there is hardware on which the driver reads
past the end of the mapping.
-/

open XeService

/-- The end of the dword that the access `mmio[off >> 2]` is. -/
def Touch.stop (t : Touch) : ℕ := (t.off >>> 2).toNat * 4 + 4

/-- **An event lies inside the BAR**: if it is an access, then its four
bytes are below the length. -/
def MmioEvent.InBar (L : UInt64) (e : MmioEvent) : Prop :=
  ∀ t, e.touch? = some t → t.stop ≤ L.toNat

instance (L : UInt64) (e : MmioEvent) : Decidable (e.InBar L) :=
  match h : e.touch? with
  | none => isTrue fun t ht => nomatch h.symm.trans ht
  | some t =>
    if ht : t.stop ≤ L.toNat then
      isTrue fun t' ht' => by cases h.symm.trans ht'; exact ht
    else isFalse fun hall => ht (hall t h)

/-- **The length the unchecked accessors need**: in strict-safe mode the
last raw read of `start` is the last of them, otherwise it is the GGTT
probe's read of the first fence. -/
def requiredLength (g : XeBootFlags) : ℕ := if g.strictSafe then 0x104 else 0x100008

/-- A dword whose offset is below a length that is a multiple of 4 ends
within it. -/
theorem Touch.stop_le {t : Touch} {L : UInt64} (h4 : 4 ∣ L.toNat)
    (h : t.off.toUInt64 < L) : t.stop ≤ L.toNat := by
  have hlt : t.off.toNat < L.toNat := by
    have := UInt64.lt_iff_toNat_lt.mp h
    rwa [UInt32.toNat_toUInt64] at this
  have hshift : (t.off >>> 2).toNat = t.off.toNat / 4 := by
    rw [UInt32.toNat_shiftRight, Nat.shiftRight_eq_div_pow]
    rfl
  obtain ⟨k, hk⟩ := h4
  unfold Touch.stop
  rw [hshift]
  omega

/-- An access of a footprint is checked against the length, or ends within
the required one. -/
def Touch.Needs (n : ℕ) (t : Touch) : Prop := t.path = .readReg ∨ t.stop ≤ n

instance (n : ℕ) (t : Touch) : Decidable (t.Needs n) :=
  inferInstanceAs (Decidable (_ ∨ _))

/-- Bring-up and the calls need no more than the required length. -/
theorem startTouches_needs :
    ∀ g, ∀ p ∈ startTouches g, p.2.Needs (requiredLength g) := by
  decide

theorem rcs0Touches_needs :
    ∀ g, ∀ p ∈ rcs0Touches g false, p.2.Needs (requiredLength g) := by
  decide

/-- With the required length every access of every session is inside. -/
theorem history_inBar {P : Platform} (calls : List Call) {map : IOMemoryMap}
    (hbar : P.bar0 = some map) (h4 : 4 ∣ map.length.toNat)
    (h : P.mapped = none ∨ requiredLength P.flags ≤ map.length.toNat)
    {e : MmioEvent} (he : e ∈ history P calls) : e.InBar map.length := by
  intro t ht
  obtain ⟨map', hmap, hneeds, hbound⟩ := history_all (startTouches_needs P.flags)
    (rcs0Touches_needs P.flags) (fun _ _ _ _ => Or.inl rfl) he ht
  obtain ⟨-, -, hbar', -, -⟩ := mapped_eq_some hmap
  cases hbar.symm.trans hbar'
  rcases hneeds with hpath | hstop
  · exact Touch.stop_le h4 (hbound hpath)
  · rcases h with hnone | hreq
    · exact nomatch hnone.symm.trans hmap
    · exact Nat.le_trans hstop hreq

/-! ## The accesses that need it -/

/-- On hardware that reads as `0` the probe reaches the first fence. -/
theorem happened_probe_fence {P : Platform} (hhw : ∀ h off, P.hw h off = 0) {m : UInt64}
    (hm : m ≠ 0) (s : Machine) :
    Happened (· = .read .ggttSafeRead (XeHW.fenceEnd 0) 0) s
      ((XeGGTT.probe m).run (exec P) s).2 := by
  unfold XeGGTT.probe XeGGTT.safeRead
  rw [if_neg hm]
  refine .bind_right ?_
  rw [run_checkedRead P s _ hm (by decide),
    show (s.readDword P .ggttSafeRead XeHW.pgtblCtl).1 = 0 from hhw _ _, if_neg (by decide)]
  refine .bind_right (.bind_right ?_)
  rw [if_pos (by decide)]
  refine .bind_right (.bind_left (happened_checkedRead hm (by decide) _ ?_))
  rw [hhw]

/-- **When a session stays inside the BAR.** For every platform with a BAR
whose length is a multiple of 4, and all calls: every access is inside,
whatever the hardware answers, exactly if `start` fails before it has the
mapping – as it does on a length of `0` – or the length is at least the
required one. -/
theorem history_inBar_iff (P : Platform) (calls : List Call) {map : IOMemoryMap}
    (hbar : P.bar0 = some map) (h4 : 4 ∣ map.length.toNat) :
    (∀ hw, ∀ e ∈ history (P.withHw hw) calls, e.InBar map.length)
      ↔ P.mapped = none ∨ requiredLength P.flags ≤ map.length.toNat := by
  have hflags : ∀ hw, (P.withHw hw).flags = P.flags := fun hw => by
    rw [flags_eq, flags_eq]
    rfl
  constructor
  · intro hall
    cases hmap : P.mapped with
    | none => exact Or.inl rfl
    | some map' =>
      obtain ⟨-, -, hbar', -, -⟩ := mapped_eq_some hmap
      cases hbar.symm.trans hbar'
      refine Or.inr ?_
      have hmap₀ : (P.withHw fun _ _ => 0).mapped = some map := hmap
      unfold requiredLength
      cases hstrict : P.flags.strictSafe with
      | true =>
        obtain ⟨e, he, v, rfl⟩ := happened_started_sampler hmap₀
          (X := fun e => ∃ v, e = .read .startRaw 0x100 v)
          (show 0x100 ∈ samplerOffs by decide) (fun v => ⟨v, rfl⟩)
        exact hall _ _ ((started_suffix_history _ calls).subset he) _ rfl
      | false =>
        obtain ⟨-, -, -, -, hva⟩ := mapped_eq_some hmap
        obtain ⟨e, he, rfl⟩ := happened_started_probe hmap₀
          ((congrArg _ (hflags _)).trans hstrict)
          (happened_probe_fence (fun _ _ => rfl) hva)
        exact hall _ _ ((started_suffix_history _ calls).subset he) _ rfl
  · intro h hw e he
    rw [← hflags hw] at h
    exact history_inBar (P := P.withHw hw) calls hbar h4 h he

/-- A BAR that ends with the first fence is long enough. -/
theorem history_inBar_fence :
    4 ∣ (0x100008 : UInt64).toNat
      ∧ ∀ hw, ∀ e ∈ history ((Platform.ideal.withBar 0x100008).withHw hw) [],
        e.InBar 0x100008 :=
  have h4 : 4 ∣ (0x100008 : UInt64).toNat := by decide
  ⟨h4, (history_inBar_iff (Platform.ideal.withBar 0x100008) [] rfl h4).mpr
    (Or.inr (by decide))⟩

/-- **A BAR of 1 MiB is too short**, though `start` takes it without a
warning: the GGTT probe reads the first fence, right behind its end. -/
theorem fence_behind_bar :
    ¬∀ e ∈ history (Platform.ideal.withBar 0x100000) [], e.InBar 0x100000 := by
  decide
