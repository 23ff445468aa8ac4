import Mathlib.Order.Bounds.Basic
import XePCI.Objects
import XePCI.Xectl

/-!
# Requests of more than 32 bits

Three numbers come in as 64 bits and are used as 32: the size a client asks
`sCreateBuffer` for, the time it asks `sWait` to wait, and the size a user
asks `xectl` for. Each is narrowed first and clamped afterwards. The clamp
is what it should be – a default for `0`, and a limit for everything above
it –, but of a number of `2 ^ 32` or more it only gets to see the lower
half. Such a number is far above the limit, and passes as the limit only if
its lower half is not below it (`requests_saturated_iff`). Otherwise the
request is quietly made smaller: `wrapped_request`. The size is what
`ucCreateBuffer` is called with, the time is what `ucWait` logs, and the
size `xectl` asks for is the scalar of its call.

What is passed on is rounded up to whole pages in 32 bits. That would wrap
for the largest numbers, but the clamp lets none of them through: the size
handed to the allocator is exact for every request, and so is the one
`xectl` reports, whose own limit is below the driver's
(`buffer_sizes_exact`).
-/

open XeService IOExternalMethodArguments
open XeUserClient (createRequest createBytes waitRequest waitTimeoutMs cookieOut)

/-! ## The clamp -/

/-- **What a request is meant to become**: the default for `0`, otherwise
itself up to the limit. -/
def saturate (dflt limit r : ℕ) : ℕ := if r = 0 then dflt else min r limit

/-- The clamp of 32 bits is that. -/
theorem toNat_clamp {dflt limit : UInt32} (h : dflt ≤ limit) (v : UInt32) :
    (clamp dflt limit v).toNat = saturate dflt.toNat limit.toNat v.toNat := by
  have hle : dflt.toNat ≤ limit.toNat := h
  unfold clamp saturate
  by_cases hv : v = 0
  · subst hv
    rw [if_pos rfl]
    dsimp only
    rw [if_neg (UInt32.not_lt.mpr h), if_pos UInt32.toNat_zero]
  · have hne : v.toNat ≠ 0 := fun h0 => hv (UInt32.toNat_inj.mp h0)
    rw [if_neg hv, if_neg hne]
    dsimp only
    split
    · rename_i hlt
      exact (Nat.min_eq_right (Nat.le_of_lt hlt)).symm
    · rename_i hge
      exact (Nat.min_eq_left (UInt32.not_lt.mp hge)).symm

/-- **Narrowing keeps the request**, as far as the limit is concerned: the
number fits 32 bits, or what is left of it is not below the limit. -/
def Narrowable (limit : UInt32) (r : UInt64) : Prop :=
  r.toNat < UInt32.size ∨ limit.toNat ≤ r.toNat % UInt32.size

instance (limit : UInt32) (r : UInt64) : Decidable (Narrowable limit r) :=
  inferInstanceAs (Decidable (_ ∨ _))

/-- **The clamp of a narrowed number is the clamp of the number** exactly if
narrowing keeps it. -/
theorem toNat_clamp_narrowed_iff {dflt limit : UInt32} (h : dflt < limit) (r : UInt64) :
    (clamp dflt limit r.toUInt32).toNat = saturate dflt.toNat limit.toNat r.toNat
      ↔ Narrowable limit r := by
  have hlim : limit.toNat < UInt32.size := limit.toNat_lt
  have hlt : dflt.toNat < limit.toNat := h
  have hnarrow : r.toUInt32.toNat = r.toNat % UInt32.size := UInt64.toNat_toUInt32 r
  rw [toNat_clamp (UInt32.le_of_lt h), hnarrow]
  unfold saturate Narrowable
  by_cases hr : r.toNat < UInt32.size
  · rw [Nat.mod_eq_of_lt hr]
    exact ⟨fun _ => Or.inl hr, fun _ => rfl⟩
  · -- a number this large is meant to become the limit
    rw [if_neg (by omega : r.toNat ≠ 0), Nat.min_eq_right (by omega : limit.toNat ≤ r.toNat)]
    split <;> omega

/-! ## Whole pages -/

/-- Masking the lower 12 of 32 bits away is rounding down to a page. -/
theorem and_pageMask {x : ℕ} (hx : x < UInt32.size) : x &&& 0xFFFFF000 = x / 4096 * 4096 := by
  refine Nat.eq_of_testBit_eq fun i => ?_
  rw [show 0xFFFFF000 = (2 ^ 20 - 1) * 2 ^ 12 by decide, show 4096 = 2 ^ 12 by decide,
    Nat.testBit_and, Nat.testBit_mul_two_pow, Nat.testBit_mul_two_pow, Nat.testBit_div_two_pow,
    Nat.testBit_two_pow_sub_one]
  by_cases h12 : 12 ≤ i
  · by_cases h32 : i < 32
    · simp [h12, show i - 12 < 20 by omega, show i - 12 + 12 = i by omega]
    · have hpow : UInt32.size ≤ 2 ^ i :=
        Nat.pow_le_pow_right (n := 2) (by decide) (Nat.not_lt.mp h32)
      have hbit : x.testBit i = false := Nat.testBit_lt_two_pow (hx.trans_le hpow)
      simp [h12, hbit, show i - 12 + 12 = i by omega]
  · simp [h12]

/-- **The page-aligned size**: what was asked for, rounded up to whole
pages, where the addition does not overflow. -/
theorem toNat_pageAlign {bytes : UInt32} (h : bytes.toNat + 0xFFF < UInt32.size) :
    (pageAlign bytes).toNat = (bytes.toNat + 0xFFF) / 4096 * 4096 := by
  unfold pageAlign
  rw [UInt32.toNat_and, UInt32.toNat_add, show (0xFFF : UInt32).toNat = 0xFFF by decide,
    show (~~~(0xFFF : UInt32)).toNat = 0xFFFFF000 by decide, Nat.mod_eq_of_lt h, and_pageMask h]

/-- **A size rounded up to whole pages**, in 32 bits: the addition does not
overflow, and the size is the least multiple of a page from `bytes` on –
one page at least, and 64 MiB at most. -/
structure RoundedUp (bytes sz : UInt32) : Prop where
  noOverflow : bytes.toNat + 0xFFF < UInt32.size
  least : IsLeast {n | 4096 ∣ n ∧ bytes.toNat ≤ n} sz.toNat
  page_le : 4096 ≤ sz.toNat
  le_limit : sz.toNat ≤ 64 * 1024 * 1024

/-- The page-aligned size is rounded up, of a request within the limit. -/
theorem roundedUp_pageAlign {bytes : UInt32} (hpos : 0 < bytes.toNat)
    (hle : bytes.toNat ≤ 64 * 1024 * 1024) : RoundedUp bytes (pageAlign bytes) := by
  have hsize : 64 * 1024 * 1024 + 0xFFF < UInt32.size := by decide
  have hno : bytes.toNat + 0xFFF < UInt32.size := by omega
  have htoNat := toNat_pageAlign hno
  refine ⟨hno, ⟨⟨htoNat ▸ Nat.dvd_mul_left _ _, by omega⟩, ?_⟩, by omega, by omega⟩
  rintro n ⟨⟨q, rfl⟩, hn⟩
  omega

/-! ## What is passed on -/

/-- A clamped request is not `0` and not above the limit. -/
theorem clamp_bounds {dflt limit : UInt32} (hpos : 0 < dflt) (hle : dflt ≤ limit) (v : UInt32) :
    0 < (clamp dflt limit v).toNat ∧ (clamp dflt limit v).toNat ≤ limit.toNat := by
  have hpos' : 0 < dflt.toNat := hpos
  have hle' : dflt.toNat ≤ limit.toNat := hle
  rw [toNat_clamp hle]
  unfold saturate
  split <;> omega

/-- So what `sCreateBuffer` passes on is 1 byte at least and 64 MiB at most. -/
theorem createBytes_bounds (a : IOExternalMethodArguments) :
    0 < (createBytes a).toNat ∧ (createBytes a).toNat ≤ 64 * 1024 * 1024 := by
  unfold createBytes createRequest clampedInput
  split
  · exact clamp_bounds (by decide) (by decide) _
  · show 0 < (4096 : UInt32).toNat ∧ (4096 : UInt32).toNat ≤ 64 * 1024 * 1024
    decide

theorem roundedUp_createBytes (a : IOExternalMethodArguments) :
    RoundedUp (createBytes a) (pageAlign (createBytes a)) :=
  roundedUp_pageAlign (createBytes_bounds a).1 (createBytes_bounds a).2

section Passed

variable {a : IOExternalMethodArguments} (ha : a.scalarInputCount = 1)

include ha

theorem clampedInput_of_one (dflt limit : UInt32) :
    (a.clampedInput dflt limit).1 = clamp dflt limit (a.scalarInput 0).toUInt32 := by
  unfold clampedInput
  rw [if_pos (ha ▸ UInt32.le_refl 1)]
  rfl

theorem createBytes_saturated_iff :
    (createBytes a).toNat = saturate 4096 (64 * 1024 * 1024) (a.scalarInput 0).toNat
      ↔ Narrowable (64 * 1024 * 1024) (a.scalarInput 0) := by
  unfold createBytes createRequest
  rw [clampedInput_of_one ha]
  exact toNat_clamp_narrowed_iff (by decide) _

theorem waitTimeoutMs_saturated_iff :
    (waitTimeoutMs a).toNat = saturate 1000 60000 (a.scalarInput 0).toNat
      ↔ Narrowable 60000 (a.scalarInput 0) := by
  unfold waitTimeoutMs waitRequest
  rw [clampedInput_of_one ha]
  exact toNat_clamp_narrowed_iff (by decide) _

end Passed

theorem mkbufBytes_saturated_iff (N : UInt64) :
    (Xectl.mkbufBytes N.toUInt32).toNat = saturate 4096 (16 * 1024 * 1024) N.toNat
      ↔ Narrowable (16 * 1024 * 1024) N :=
  toNat_clamp_narrowed_iff (by decide) N

/-- More is granted for more, if neither request is changed by narrowing. A
request of `0` gets a page, and so does a request of `1`. -/
theorem pageAlign_createBytes_mono {a a' : IOExternalMethodArguments}
    (ha : a.scalarInputCount = 1) (ha' : a'.scalarInputCount = 1)
    (hn : Narrowable (64 * 1024 * 1024) (a.scalarInput 0))
    (hn' : Narrowable (64 * 1024 * 1024) (a'.scalarInput 0))
    (hle : a.scalarInput 0 ≤ a'.scalarInput 0) :
    (pageAlign (createBytes a)).toNat ≤ (pageAlign (createBytes a')).toNat := by
  have hle' : (a.scalarInput 0).toNat ≤ (a'.scalarInput 0).toNat := hle
  rw [toNat_pageAlign (roundedUp_createBytes a).noOverflow,
    toNat_pageAlign (roundedUp_createBytes a').noOverflow,
    (createBytes_saturated_iff ha).mpr hn, (createBytes_saturated_iff ha').mpr hn']
  unfold saturate
  split <;> split <;> omega

/-! ## The buffer that is created -/

/-- Nothing after the creation changes the buffers. -/
theorem buffers_addBuffer (P : Platform) (md : Option ObjId) (s : Machine) :
    ((addBuffer md).run (exec P) s).2.buffers = s.buffers := by
  have hkeeps : (addBuffer md).Issues fun o => ∀ s, (exec P o s).2.buffers = s.buffers := by
    cases md with
    | none => exact Prog.issues_ret _
    | some md =>
      refine Prog.Issues.bind (Prog.issues_perform fun s => ?_) fun added => ?_
      · rw [setObject_eq]
      · split
        · exact Prog.Issues.bind (Prog.issues_perform fun _ => rfl) fun _ => Prog.issues_ret _
        · refine Prog.Issues.bind (Prog.issues_perform fun _ => rfl) fun _ => ?_
          exact Prog.Issues.bind (Prog.issues_perform fun _ => rfl) fun _ => Prog.issues_ret _
  exact hkeeps.run_frame (fun _ s ho => ho s) s

/-- **A creation that succeeds has created one buffer**, of the page-aligned
size. -/
theorem buffers_ucCreateBuffer {P : Platform} {s : Machine} {bytes : UInt32}
    (h : ((ucCreateBuffer bytes).run (exec P) s).1.1 = .success) :
    ((ucCreateBuffer bytes).run (exec P) s).2.buffers
      = s.buffers ++ [⟨(pageAlign bytes).toUInt64, []⟩] := by
  rw [ucCreateBuffer_eq, Prog.run_bind, Prog.run_perform, exec_hasBoList] at h ⊢
  split at h
  · exact absurd h (by decide : IOReturn.notReady ≠ .success)
  rename_i hready
  rw [if_neg hready, Prog.run_bind, Prog.run_perform, buffers_addBuffer]
  rw [Prog.run_bind, Prog.run_perform] at h
  rcases withOptions_cases P s (pageAlign bytes) with hnone | hsome
  · rw [hnone] at h
    exact absurd h (by decide : IOReturn.noResources ≠ .success)
  · rw [hsome]

/-- **Requests are saturated, not wrapped, exactly if narrowing keeps
them**: the size `ucCreateBuffer` is called with, the time `ucWait` is called
with and logs, and the scalar of the one call of `xectl mkbuf`, which is also
the size it prints. A creation that succeeds creates one buffer; if narrowing
keeps the request, the buffer has at least the bytes that were asked for, up
to the limit, and more is granted for more. -/
theorem requests_saturated_iff (a a' : IOExternalMethodArguments)
    (ha : a.scalarInputCount = 1) (ha' : a'.scalarInputCount = 1) (N : UInt64) :
    (∀ c : Call, c.Accepted 0 1 1 a →
        c.prog = (fun r => (r.1, some (cookieOut a r))) <$> ucCreateBuffer (createBytes a))
      ∧ ((createBytes a).toNat = saturate 4096 (64 * 1024 * 1024) (a.scalarInput 0).toNat
        ↔ Narrowable (64 * 1024 * 1024) (a.scalarInput 0))
      ∧ (∀ c : Call, c.Accepted 2 1 0 a → ∃ timeoutMs,
        c.prog = (fun kr => (kr, some (waitRequest a).2)) <$> ucWait timeoutMs
          ∧ c.prog.next? = some (.logWait timeoutMs)
          ∧ (timeoutMs.toNat = saturate 1000 60000 (a.scalarInput 0).toNat
            ↔ Narrowable 60000 (a.scalarInput 0)))
      ∧ (∀ (κ : Type) (strtoul : String → UInt64) (argv0 bytes : String) (rest : List String),
        strtoul bytes = N →
          ∃ v : UInt64, (v.toNat = saturate 4096 (16 * 1024 * 1024) N.toNat
              ↔ Narrowable (16 * 1024 * 1024) N)
            ∧ ∃ k, Xectl.main strtoul ⟨true, true, true⟩ (argv0 :: "mkbuf" :: bytes :: rest)
                = .request .serviceOpen k
              ∧ ∀ c : Xectl.IoConnect κ, (k (.ok c)).next?
                = some (.connectCallMethod c XeUserClient.kMethodCreateBuffer [v] 1))
      ∧ (∀ (P : Platform) (s : Machine) (strtoul : String → UInt64) (l : Xectl.Lookup)
          (argv0 bytes : String) (rest : List String) (cookie : UInt64) (size : UInt32),
        strtoul bytes = N →
        ((Xectl.invoke strtoul l (argv0 :: "mkbuf" :: bytes :: rest)).run (exec P) s).1.2
          = .createdBuffer cookie size →
        (size.toNat = saturate 4096 (16 * 1024 * 1024) N.toNat
          ↔ Narrowable (16 * 1024 * 1024) N))
      ∧ (∀ (P : Platform) (s : Machine) (c : Call), c.Accepted 0 1 1 a →
        (c.prog.run (exec P) s).1.1 = .success →
          (c.prog.run (exec P) s).2.buffers
            = s.buffers ++ [⟨(pageAlign (createBytes a)).toUInt64, []⟩])
      ∧ (Narrowable (64 * 1024 * 1024) (a.scalarInput 0) →
        min (a.scalarInput 0).toNat (64 * 1024 * 1024) ≤ (pageAlign (createBytes a)).toNat)
      ∧ (Narrowable (64 * 1024 * 1024) (a.scalarInput 0) →
        Narrowable (64 * 1024 * 1024) (a'.scalarInput 0) → a.scalarInput 0 ≤ a'.scalarInput 0 →
          (pageAlign (createBytes a)).toNat ≤ (pageAlign (createBytes a')).toNat) := by
  refine ⟨fun c hc => hc.prog_createBuffer, createBytes_saturated_iff ha, fun c hc => ?_,
    fun κ strtoul argv0 bytes rest hN => ?_,
    fun P s strtoul l argv0 bytes rest cookie size hN h => ?_,
    fun P s c hc hok => ?_, fun hn => ?_, pageAlign_createBytes_mono ha ha'⟩
  · refine ⟨waitTimeoutMs a, hc.prog_wait, ?_, waitTimeoutMs_saturated_iff ha⟩
    rw [hc.prog_wait]
    rfl
  · refine ⟨(Xectl.mkbufBytes N.toUInt32).toUInt64, ?_,
      hN ▸ Xectl.main_mkbuf strtoul argv0 bytes rest⟩
    rw [UInt32.toNat_toUInt64]
    exact mkbufBytes_saturated_iff N
  · rw [(Xectl.run_invoke_mkbuf h).1, hN]
    exact mkbufBytes_saturated_iff N
  · rw [hc.prog_createBuffer, Prog.run_map] at hok ⊢
    exact buffers_ucCreateBuffer hok
  · refine le_trans ?_ (roundedUp_createBytes a).least.1.2
    rw [(createBytes_saturated_iff ha).mpr hn]
    unfold saturate
    split <;> omega

/-- The largest request that fits 32 bits gets 64 MiB. -/
theorem requests_saturated_iff_largest :
    (createBytes ⟨fun _ => 0xFFFFFFFF, 1, fun _ => 0, 1, [], []⟩).toNat
      = saturate 4096 (64 * 1024 * 1024) 0xFFFFFFFF :=
  (requests_saturated_iff ⟨fun _ => 0xFFFFFFFF, 1, fun _ => 0, 1, [], []⟩
    ⟨fun _ => 0xFFFFFFFF, 1, fun _ => 0, 1, [], []⟩ rfl rfl 0).2.1.mpr (by decide)

/-- **A wrapped request.** A creation of `2 ^ 32 + 1` bytes succeeds with a
buffer of one page; a wait of that many milliseconds is one of 1; and
`xectl` asks for 1 byte and reports a buffer of that size. -/
theorem wrapped_request :
    ¬((createBytes ⟨fun _ => 0x100000001, 1, fun _ => 0, 1, [], []⟩).toNat
        = saturate 4096 (64 * 1024 * 1024) 0x100000001)
      ∧ ((Call.creating 0x100000001).prog.run (exec .ideal) Platform.ideal.started).1.1 = .success
      ∧ ((Call.creating 0x100000001).prog.run (exec .ideal) Platform.ideal.started).2.buffers
        = [⟨4096, []⟩]
      ∧ (Xectl.connectCall ⟨true⟩ XeUserClient.kMethodWait [0x100000001] 0).prog.next?
        = some (.logWait 1)
      ∧ 1 ≠ saturate 1000 60000 0x100000001
      ∧ (∃ k, Xectl.main (fun _ => 0x100000001) ⟨true, true, true⟩
            ["xectl", "mkbuf", "4294967297"] = .request .serviceOpen k
          ∧ ∀ c : Xectl.IoConnect XeUserClient, (k (.ok c)).next?
            = some (.connectCallMethod c XeUserClient.kMethodCreateBuffer [1] 1))
      ∧ 1 ≠ saturate 4096 (16 * 1024 * 1024) 0x100000001
      ∧ ((Xectl.invoke (fun _ => 0x100000001) ⟨⟨true, true, true⟩, .ok ⟨1, ⟨true⟩⟩⟩
          ["xectl", "mkbuf", "4294967297"]).run (exec .ideal) Platform.ideal.started).1
        = (0, .createdBuffer 1 1) := by
  refine ⟨by decide, by decide, by decide, rfl, by decide, ?_, by decide, by decide⟩
  exact Xectl.main_mkbuf (fun _ => 0x100000001) "xectl" "4294967297" []

/-! ## The size handed to the allocator -/

/-- The size a request hands to the allocator, if it does, is in `A`. -/
def KextOp.Allocates (A : UInt32 → Prop) : KextOp → Prop
  | .withOptions sz => A sz
  | _ => True

/-- A creation hands on the size it is for. -/
theorem KextOp.Creates.allocates {sz : UInt32} {o : KextOp} (h : o.Creates sz) :
    o.Allocates (· = sz) := by
  cases o <;> trivial

/-- `sCreateBuffer` is refused, or it is `ucCreateBuffer` with the size it has
clamped. -/
theorem sCreateBuffer_cases (t : Option OSObject) (a : IOExternalMethodArguments) :
    (∃ kr, kr ≠ .success ∧ XeUserClient.sCreateBuffer t (some a) = return (kr, some a))
      ∨ XeUserClient.sCreateBuffer t (some a)
        = (fun r => (r.1, some (XeUserClient.cookieOut a r)))
          <$> ucCreateBuffer (createBytes a) := by
  cases t with
  | none => exact Or.inl ⟨.badArgument, by decide, rfl⟩
  | some t =>
    cases t with
    | other => exact Or.inl ⟨.badArgument, by decide, rfl⟩
    | userClient self =>
      cases hs : self.providerSvc with
      | false =>
        exact Or.inl ⟨.notReady, by decide, Call.function_of_noProvider hs List.mem_cons_self a⟩
      | true => exact Or.inr (XeUserClient.sCreateBuffer_eq a hs)

theorem issues_sCreateBuffer (t : Option OSObject) (a : IOExternalMethodArguments) :
    (XeUserClient.sCreateBuffer t (some a)).Issues
      (KextOp.Allocates (· = pageAlign (createBytes a))) := by
  rcases sCreateBuffer_cases t a with ⟨kr, -, hp⟩ | hp
  · rw [hp]
    exact Prog.issues_ret _
  · rw [hp]
    exact ((issues_ucCreateBuffer _).imp fun _ ho => ho.allocates).map _

theorem buffers_sCreateBuffer {P : Platform} {s : Machine} {t : Option OSObject}
    {a : IOExternalMethodArguments}
    (h : ((XeUserClient.sCreateBuffer t (some a)).run (exec P) s).1.1 = .success) :
    ((XeUserClient.sCreateBuffer t (some a)).run (exec P) s).2.buffers
      = s.buffers ++ [⟨(pageAlign (createBytes a)).toUInt64, []⟩] := by
  rcases sCreateBuffer_cases t a with ⟨kr, hkr, hp⟩ | hp
  · rw [hp] at h
    exact absurd h hkr
  · rw [hp, Prog.run_map] at h ⊢
    exact buffers_ucCreateBuffer h

/-! ## The size `xectl` prints -/

/-- A request within the bounds is not clamped. -/
theorem clamp_eq_self {dflt limit v : UInt32} (hpos : 0 < v.toNat) (hle : v ≤ limit) :
    clamp dflt limit v = v := by
  have hne : v ≠ 0 := fun h => absurd (h ▸ hpos) (by decide)
  unfold clamp
  rw [if_neg hne]
  dsimp only
  rw [if_neg (UInt32.not_lt.mpr hle)]

section Mkbuf

variable {P : Platform} {s : Machine} {c : XeUserClient} {n : UInt32}

theorem mkbufBytes_bounds (n : UInt32) :
    0 < (Xectl.mkbufBytes n).toNat ∧ (Xectl.mkbufBytes n).toNat ≤ 16 * 1024 * 1024 :=
  clamp_bounds (by decide) (by decide) n

theorem roundedUp_mkbufBytes (n : UInt32) :
    RoundedUp (Xectl.mkbufBytes n) (pageAlign (Xectl.mkbufBytes n)) :=
  roundedUp_pageAlign (mkbufBytes_bounds n).1 ((mkbufBytes_bounds n).2.trans (by decide))

/-- **The driver's clamp leaves the request of `xectl` as it is.** -/
theorem createBytes_mkbufCall {a : IOExternalMethodArguments}
    (ha : (Xectl.mkbufCall c n).args = some a) : createBytes a = Xectl.mkbufBytes n := by
  obtain rfl := Option.some.inj ha
  show clamp 4096 (64 * 1024 * 1024) (Xectl.mkbufBytes n).toUInt64.toUInt32 = _
  rw [UInt32.toUInt32_toUInt64]
  refine clamp_eq_self (mkbufBytes_bounds n).1 ?_
  exact UInt32.le_iff_toNat_le.mpr ((mkbufBytes_bounds n).2.trans (by decide))

/-- **The call of `cmd_mkbuf` is `sCreateBuffer`** on a request that is passed
on as it is: it has the counts of the entry. -/
theorem prog_mkbufCall (c : XeUserClient) (n : UInt32) :
    ∃ a, createBytes a = Xectl.mkbufBytes n
      ∧ (Xectl.mkbufCall c n).prog
        = XeUserClient.sCreateBuffer (some (.userClient c)) (some a) := by
  obtain ⟨a, ha⟩ : ∃ a, (Xectl.mkbufCall c n).args = some a := ⟨_, rfl⟩
  refine ⟨a, createBytes_mkbufCall ha, ?_⟩
  have hsel : (Xectl.mkbufCall c n).selector.toNat < XeUserClient.sMethods.length := by
    show (0 : UInt32).toNat < 6
    decide
  have hprog := Call.prog_of_counts (c := Xectl.mkbufCall c n) hsel rfl
  rw [← ha]
  exact hprog ⟨rfl, rfl⟩

/-- So it hands the allocator the size it prints, rounded up. -/
theorem issues_mkbufCall (c : XeUserClient) (n : UInt32) :
    (Xectl.mkbufCall c n).prog.Issues
      (KextOp.Allocates (· = pageAlign (Xectl.mkbufBytes n))) := by
  obtain ⟨a, hbytes, hp⟩ := prog_mkbufCall c n
  have hcall := issues_sCreateBuffer (some (.userClient c)) a
  rw [hbytes] at hcall
  rw [hp]
  exact hcall

/-- And if it succeeds, the buffer was created. -/
theorem buffers_mkbufCall (h : ((Xectl.mkbufCall c n).prog.run (exec P) s).1.1 = .success) :
    ((Xectl.mkbufCall c n).prog.run (exec P) s).2.buffers
      = s.buffers ++ [⟨(pageAlign (Xectl.mkbufBytes n)).toUInt64, []⟩] := by
  obtain ⟨a, hbytes, hp⟩ := prog_mkbufCall c n
  rw [hp] at h ⊢
  rw [← hbytes]
  exact buffers_sCreateBuffer h

end Mkbuf

/-- **Buffer sizes do not wrap.** Whatever a client asks `sCreateBuffer` for,
the size handed to the allocator is what was passed on, rounded up to whole
pages without an overflow, and is between one page and 64 MiB. The driver's
clamp leaves a request of `xectl` as it is, so that the size `xectl` hands
to the allocator is the one it prints, rounded up; and the buffer it reports
has that size. -/
theorem buffer_sizes_exact :
    (∀ (t : Option OSObject) (a : IOExternalMethodArguments),
        (XeUserClient.sCreateBuffer t (some a)).Issues
          (KextOp.Allocates (RoundedUp (createBytes a))))
      ∧ (∀ (c : XeUserClient) (N : UInt64) (a : IOExternalMethodArguments),
        (Xectl.connectCall c XeUserClient.kMethodCreateBuffer
            [(Xectl.mkbufBytes N.toUInt32).toUInt64] 1).args = some a →
          createBytes a = Xectl.mkbufBytes N.toUInt32)
      ∧ (∀ (strtoul : String → UInt64) (l : Xectl.Lookup) (argv0 bytes : String)
          (rest : List String),
        (Xectl.invoke strtoul l (argv0 :: "mkbuf" :: bytes :: rest)).Issues
          (KextOp.Allocates (RoundedUp (Xectl.mkbufBytes (strtoul bytes).toUInt32))))
      ∧ ∀ (P : Platform) (s : Machine) (strtoul : String → UInt64) (l : Xectl.Lookup)
          (argv0 bytes : String) (rest : List String) (cookie : UInt64) (size : UInt32),
        ((Xectl.invoke strtoul l (argv0 :: "mkbuf" :: bytes :: rest)).run (exec P) s).1.2
            = .createdBuffer cookie size →
          ∃ sz, RoundedUp size sz
            ∧ ((Xectl.invoke strtoul l (argv0 :: "mkbuf" :: bytes :: rest)).run
                (exec P) s).2.buffers
              = s.buffers ++ [⟨sz.toUInt64, []⟩] := by
  have hrounded {bytes : UInt32} (h : RoundedUp bytes (pageAlign bytes)) (o : KextOp)
      (ho : o.Allocates (· = pageAlign bytes)) : o.Allocates (RoundedUp bytes) := by
    cases o with
    | withOptions sz => exact ho ▸ h
    | _ => trivial
  refine ⟨fun t a => (issues_sCreateBuffer t a).imp (hrounded (roundedUp_createBytes a)),
    fun c N a ha => createBytes_mkbufCall ha, fun strtoul l argv0 bytes rest => ?_,
    fun P s strtoul l argv0 bytes rest cookie size h => ?_⟩
  · rw [Xectl.invoke_mkbuf]
    split
    · exact Prog.issues_ret _
    · exact ((issues_mkbufCall _ _).imp (hrounded (roundedUp_mkbufBytes _))).map _
  · obtain ⟨rfl, c, hok, hstate⟩ := Xectl.run_invoke_mkbuf h
    exact ⟨_, roundedUp_mkbufBytes _, hstate ▸ buffers_mkbufCall hok⟩

/-- `xectl mkbuf` of 5000 bytes is two pages. -/
theorem buffer_sizes_exact_twoPages :
    ∃ sz, RoundedUp 5000 sz
      ∧ ((Xectl.invoke (fun _ => 5000) ⟨⟨true, true, true⟩, .ok ⟨1, ⟨true⟩⟩⟩
          ["xectl", "mkbuf", "5000"]).run (exec .ideal) Platform.ideal.started).2.buffers
        = [⟨sz.toUInt64, []⟩] :=
  buffer_sizes_exact.2.2.2 .ideal Platform.ideal.started (fun _ => 5000)
    ⟨⟨true, true, true⟩, .ok ⟨1, ⟨true⟩⟩⟩ "xectl" "5000" [] 1 5000 (by decide)
