import XePCI.Lifecycle
import XePCI.Specification

/-!
# What the service is for

Seen from its clients the service is a small machine: there is a BAR of some
length to read, or there is none; there are so many buffers, or no registry
to enter any in; and submissions are taken, or they are not. `View` is that,
and `View.Step` says what a request may be replied to and what it changes.
It speaks of nothing else: of no register that is read on the way, no
descriptor, no reference, no forcewake.

The machine of the driver has a view (`Machine.view`), and every call makes a
step of it (`call_step`). The argument is made once for all, on one request
of a call at a time: `ServePhase` is how far a call has come, and
`ServePhase.exec` says what a request does to the view. It does nothing,
unless it enters a descriptor.

What a call is replied to is what its caller can see of it: the code and, if
it is a success, the scalars (`reply`).
-/

open XeService

/-! ## The specification -/

/-- **What is asked of the service.** -/
inductive Request where
  /-- Nothing: the call does not get as far as a method. -/
  | refused (kr : IOReturn)
  | createBuffer
  | submit
  | wait
  | read (offs : List UInt32)
  | stop
  deriving DecidableEq, Repr

/-- The code and, on success, the scalars that come back. -/
abbrev Reply := IOReturn × List UInt64

/-- **What a client can know of the service.** -/
structure View where
  /-- The length of the BAR, while there is one. -/
  length : Option UInt64
  /-- The number of buffers, while there is a registry. -/
  count : Option ℕ
  /-- Whether submissions are taken. -/
  stream : Bool
  deriving DecidableEq, Repr

/-- A register past the end of a BAR of length `L` reads as the sentinel; any
other one as anything. -/
def ReadsAs (L : UInt64) (off val : UInt32) : Prop :=
  L ≠ 0 → L ≤ off.toUInt64 → val = kSentinelOutOfRange

/-- **The replies that change nothing.** -/
inductive View.Answers (v : View) : Request → Reply → Prop
  | refused (kr : IOReturn) (hkr : kr ≠ .success) : Answers v (.refused kr) (kr, [])
  | noRegistry (h : v.count = none) : Answers v .createBuffer (.notReady, [])
  | notCreated (h : v.count.isSome = true) : Answers v .createBuffer (.noResources, [])
  | noStream (h : v.length = none ∨ v.stream = false) : Answers v .submit (.notReady, [])
  | noBatch (h : v.length.isSome = true) : Answers v .submit (.noResources, [])
  | noAddress (h : v.length.isSome = true) (hs : v.stream = true) :
      Answers v .submit (.noMemory, [])
  | submitted (h : v.length.isSome = true) (hs : v.stream = true) :
      Answers v .submit (.success, [])
  | waited : Answers v .wait (.success, [])
  | noBar (offs : List UInt32) (h : v.length = none) : Answers v (.read offs) (.notReady, [])
  | read {L : UInt64} (h : v.length = some L) {offs vals : List UInt32}
      (hvals : List.Forall₂ (ReadsAs L) offs vals) :
      Answers v (.read offs) (.success, vals.map UInt32.toUInt64)

/-- **What the service may do.** -/
inductive View.Step : View → Request → Reply → View → Prop
  | answer {v : View} {r : Request} {o : Reply} (h : v.Answers r o) : Step v r o v
  | created {v : View} {n : ℕ} (h : v.count = some n) (hn : n + 1 < UInt32.size) :
      Step v .createBuffer (.success, [UInt64.ofNat (n + 1)]) { v with count := some (n + 1) }
  | stopped (v : View) :
      Step v .stop (.success, []) { v with length := none, count := none }

/-- **The specification of the service.** -/
def serviceSpec : Spec View Request Reply := ⟨View.Step⟩

/-- The two views differ in the number of buffers at most. -/
structure View.SameMode (v v' : View) : Prop where
  length : v'.length = v.length
  stream : v'.stream = v.stream
  registry : v'.count.isSome = v.count.isSome

@[refl] theorem View.SameMode.refl (v : View) : v.SameMode v := ⟨rfl, rfl, rfl⟩

theorem View.SameMode.trans {v v' v'' : View} (h : v.SameMode v') (h' : v'.SameMode v'') :
    v.SameMode v'' :=
  ⟨h'.length.trans h.length, h'.stream.trans h.stream, h'.registry.trans h.registry⟩

/-- What changes nothing does not depend on the number of buffers. -/
theorem View.Answers.of_sameMode {v v' : View} {r : Request} {o : Reply} (h : v.Answers r o)
    (hv : v.SameMode v') : v'.Answers r o := by
  cases h with
  | refused kr hkr => exact .refused kr hkr
  | noRegistry h =>
    refine .noRegistry (Option.isSome_eq_false_iff.mp ?_ |> Option.isNone_iff_eq_none.mp)
    rw [hv.registry, h]
    rfl
  | notCreated h => exact .notCreated (hv.registry.trans h)
  | noStream h => exact .noStream (h.imp hv.length.trans hv.stream.trans)
  | noBatch h => exact .noBatch (hv.length ▸ h)
  | noAddress h hs => exact .noAddress (hv.length ▸ h) (hv.stream.trans hs)
  | submitted h hs => exact .submitted (hv.length ▸ h) (hv.stream.trans hs)
  | waited => exact .waited
  | noBar offs h => exact .noBar offs (hv.length.trans h)
  | read h hvals => exact .read (hv.length.trans h) hvals

/-- The view after a request, by the code of its reply. -/
def View.after (v : View) : Request → IOReturn → View
  | .stop, _ => { v with length := none, count := none }
  | .createBuffer, .success => { v with count := v.count.map (· + 1) }
  | _, _ => v

/-- The reply tells what becomes of the view. -/
theorem View.Step.eq_after {v v' : View} {r : Request} {o : Reply} (h : View.Step v r o v') :
    v' = v.after r o.1 := by
  cases h with
  | answer h => cases h <;> rfl
  | created hn _ =>
    show _ = { v with count := v.count.map (· + 1) }
    rw [hn]
    rfl
  | stopped => rfl

/-- The code of a creation tells its reply. -/
theorem View.Step.reply_createBuffer {v v' : View} {o : Reply}
    (h : View.Step v .createBuffer o v') :
    o = (o.1, if o.1 = .success then [UInt64.ofNat (v.count.getD 0 + 1)] else []) := by
  cases h with
  | answer h => cases h <;> rfl
  | created hcount _ =>
    rw [hcount]
    rfl

theorem View.Step.reply_refused {v v' : View} {o : Reply} {kr : IOReturn}
    (h : View.Step v (.refused kr) o v') : o = (kr, []) := by
  cases h with
  | answer h => cases h; rfl

theorem View.Step.reply_wait {v v' : View} {o : Reply} (h : View.Step v .wait o v') :
    o = (.success, []) := by
  cases h with
  | answer h => cases h; rfl

theorem View.Step.reply_stop {v v' : View} {o : Reply} (h : View.Step v .stop o v') :
    o = (.success, []) := by
  cases h with
  | answer h => exact nomatch h
  | stopped => rfl

/-! ## What a call asks for -/

/-- The scalars the entry of a selector takes and gives. -/
def Request.counts (selector : UInt32) : UInt32 × UInt32 :=
  if selector = XeUserClient.kMethodCreateBuffer then (1, 1)
  else if selector = XeUserClient.kMethodSubmit then (0, 0)
  else if selector = XeUserClient.kMethodWait then (1, 0)
  else (0, 8)

/-- What the entry of a selector asks for. -/
def Request.ofSelector (selector : UInt32) : Request :=
  if selector = XeUserClient.kMethodCreateBuffer then .createBuffer
  else if selector = XeUserClient.kMethodSubmit then .submit
  else if selector = XeUserClient.kMethodWait then .wait
  else .read (XeUserClient.regsOf selector)

/-- **What a call asks for.** -/
def Call.request (c : Call) : Request :=
  if 6 ≤ c.selector then .refused .unsupported
  else
    match c.args with
    | none => .refused .badArgument
    | some a =>
      if (a.scalarInputCount, a.scalarOutputCount) ≠ Request.counts c.selector then
        .refused .badArgument
      else if !c.client.providerSvc then .refused .notReady
      else .ofSelector c.selector

/-- The scalars of a record. -/
def IOExternalMethodArguments.outputs (a : IOExternalMethodArguments) : List UInt64 :=
  (List.range a.scalarOutputCount.toNat).map a.scalarOutput

/-- What the caller can see of what a call returns. -/
def reply : IOReturn × Option IOExternalMethodArguments → Reply
  | (.success, some a) => (.success, a.outputs)
  | (kr, _) => (kr, [])

/-- The reply with a result: its scalars are seen on success alone. -/
def Reply.of {α : Type} (f : α → List UInt64) (r : IOReturn × α) : Reply :=
  if r.1 = .success then (.success, f r.2) else (r.1, [])

theorem Reply.of_success {α : Type} (f : α → List UInt64) (a : α) :
    Reply.of f (.success, a) = (.success, f a) := if_pos rfl

theorem Reply.of_ne {α : Type} (f : α → List UInt64) {kr : IOReturn} (h : kr ≠ .success) (a : α) :
    Reply.of f (kr, a) = (kr, []) := if_neg h

theorem reply_of_ne {kr : IOReturn} (h : kr ≠ .success) (a : Option IOExternalMethodArguments) :
    reply (kr, a) = (kr, []) := by
  cases kr <;> first | rfl | exact absurd rfl h

/-- A record with no room for outputs has none. -/
theorem reply_of_noOutputs (kr : IOReturn) {a : IOExternalMethodArguments}
    (h : a.scalarOutputCount = 0) : reply (kr, some a) = (kr, []) := by
  by_cases hkr : kr = .success
  · subst hkr
    show (IOReturn.success, a.outputs) = _
    rw [IOExternalMethodArguments.outputs, h]
    rfl
  · exact reply_of_ne hkr _

namespace IOExternalMethodArguments

/-- The outputs that are copied are those of the temporary: by induction on
how many there are. -/
theorem scalarOutput_copyOut (a : IOExternalMethodArguments) (tmp : List UInt32) {n i : ℕ}
    (hi : i < n) : (a.copyOut tmp n).scalarOutput i = (tmp.getD i 0).toUInt64 := by
  unfold copyOut
  induction n with
  | zero => exact absurd hi (Nat.not_lt_zero i)
  | succ n ih =>
    rw [List.range_succ, List.foldl_append]
    show Function.update _ n _ i = _
    by_cases hin : i = n
    · rw [hin, Function.update_self]
    · rw [Function.update_of_ne hin]
      exact ih (Nat.lt_of_le_of_ne (Nat.le_of_lt_succ hi) hin)

theorem outputs_copyOut (a : IOExternalMethodArguments) (tmp : List UInt32) {n : ℕ}
    (hn : n ≤ tmp.length) (hsize : n < UInt32.size) :
    outputs { a.copyOut tmp n with scalarOutputCount := UInt32.ofNat n }
      = (tmp.take n).map UInt32.toUInt64 := by
  have hcount : (UInt32.ofNat n).toNat = n := UInt32.toNat_ofNat_of_lt hsize
  show (List.range (UInt32.ofNat n).toNat).map (a.copyOut tmp n).scalarOutput = _
  rw [hcount]
  refine List.ext_getElem ?_ fun i hi hi' => ?_
  · simp [hn]
  · have hin : i < n := by simpa using hi
    rw [List.getElem_map, List.getElem_map, List.getElem_range, scalarOutput_copyOut a tmp hin,
      List.getElem_take, List.getD_eq_getElem?_getD,
      List.getElem?_eq_getElem (hin.trans_le hn), Option.getD_some]

end IOExternalMethodArguments

namespace XeUserClient

/-- The reply of `sCreateBuffer` is the method's cookie. -/
theorem reply_cookieOut {a : IOExternalMethodArguments} (ha : a.scalarOutputCount = 1)
    (r : IOReturn × UInt64) :
    reply (r.1, some (cookieOut a r)) = Reply.of (fun cookie => [cookie]) r := by
  obtain ⟨kr, cookie⟩ := r
  by_cases hkr : kr = .success
  · subst hkr
    obtain ⟨hcookie, hcount⟩ := cookieOut_success a ha cookie
    rw [Reply.of_success]
    show (IOReturn.success, (cookieOut a (.success, cookie)).outputs) = _
    rw [IOExternalMethodArguments.outputs, hcount]
    show (IOReturn.success, [(cookieOut a (.success, cookie)).scalarOutput 0]) = _
    rw [hcookie]
  · rw [Reply.of_ne _ hkr]
    exact reply_of_ne hkr _

/-- The reply of an entry that reads registers is what the method read. -/
theorem reply_regsOut (a : IOExternalMethodArguments) (r : IOReturn × List UInt32) :
    reply (r.1, some (regsOut a 8 r))
      = Reply.of (fun out => (out.take 8).map UInt32.toUInt64) r := by
  obtain ⟨kr, out⟩ := r
  by_cases hkr : kr = .success
  · subst hkr
    rw [Reply.of_success, regsOut, if_pos rfl]
    have hmin : (if 8 < out.length then 8 else out.length) = min 8 out.length := by
      split_ifs <;> omega
    show (IOReturn.success, IOExternalMethodArguments.outputs
      { a.copyOut out (if 8 < out.length then 8 else out.length) with
        scalarOutputCount := UInt32.ofNat (if 8 < out.length then 8 else out.length) }) = _
    rw [hmin, IOExternalMethodArguments.outputs_copyOut a out (Nat.min_le_right ..)
      ((Nat.min_le_left ..).trans_lt (by decide)), ← List.take_eq_take_min]
  · rw [Reply.of_ne _ hkr]
    exact reply_of_ne hkr _

/-- The counts of the specification are those of the table. -/
theorem counts_eq {k : UInt32} (h : k.toNat < sMethods.length) :
    ((sMethods.get ⟨k.toNat, h⟩).checkScalarInputCount,
      (sMethods.get ⟨k.toNat, h⟩).checkScalarOutputCount) = Request.counts k := by
  rcases selector_cases h with rfl | rfl | rfl | rfl | rfl | rfl <;> rfl

end XeUserClient

/-- **A call is what it asks for**: refused with the code, or one method of
the service whose result is the reply. -/
inductive Call.Asks (c : Call) : Prop
  | refused (kr : IOReturn) (hkr : kr ≠ .success) (hr : c.request = .refused kr)
      (hp : c.prog = return (kr, c.args))
  | createBuffer (bytes : UInt32) (hr : c.request = .createBuffer)
      (hp : reply <$> c.prog = Reply.of (fun cookie => [cookie]) <$> ucCreateBuffer bytes)
  | submit (hr : c.request = .submit) (hp : reply <$> c.prog = (·, []) <$> ucSubmitNoop)
  | wait (timeoutMs : UInt32) (hr : c.request = .wait)
      (hp : reply <$> c.prog = (·, []) <$> ucWait timeoutMs)
  | read (offs : List UInt32) (hr : c.request = .read offs) (hlen : offs.length = 8)
      (hsafe : ∀ off ∈ offs, ¬kMaxSafeMmioOffset < off)
      (hp : reply <$> c.prog
        = Reply.of (fun out => (out.take 8).map UInt32.toUInt64) <$> readList offs)

/-- Offsets the wrappers let through, checked one by one. -/
theorem not_pastSafe_of_all {offs : List UInt32}
    (h : (offs.all fun off => off ≤ kMaxSafeMmioOffset) = true) :
    ∀ off ∈ offs, ¬kMaxSafeMmioOffset < off :=
  fun off hoff => UInt32.not_lt.mpr (of_decide_eq_true (List.all_eq_true.mp h off hoff))

open XeUserClient in
theorem Call.asks (c : Call) : c.Asks := by
  by_cases hsel : 6 ≤ c.selector
  · refine .refused .unsupported (by decide) (if_pos hsel) ?_
    unfold prog externalMethod
    exact dif_neg (Nat.not_lt.mpr (UInt32.le_iff_toNat_le.mp hsel))
  have h : c.selector.toNat < sMethods.length :=
    Nat.lt_of_not_le fun hle => hsel (UInt32.le_iff_toNat_le.mpr hle)
  cases ha : c.args with
  | none =>
    refine .refused .badArgument (by decide) ?_ ?_
    · unfold request
      rw [if_neg hsel, ha]
    · unfold prog externalMethod
      rw [dif_pos h, ha]
  | some a =>
    have hrequest : c.request
        = if (a.scalarInputCount, a.scalarOutputCount) ≠ Request.counts c.selector then
            .refused .badArgument
          else if !c.client.providerSvc then .refused .notReady
          else .ofSelector c.selector := by
      unfold request
      rw [if_neg hsel, ha]
    by_cases hcount : (a.scalarInputCount, a.scalarOutputCount) = Request.counts c.selector
    swap
    · refine .refused .badArgument (by decide) (hrequest.trans (if_pos hcount)) ?_
      refine prog_of_badCounts h ha fun hboth => hcount ?_
      rw [← counts_eq h, hboth.1, hboth.2]
    rw [if_neg (not_not.mpr hcount)] at hrequest
    rw [← counts_eq h, Prod.mk.injEq] at hcount
    cases hs : c.client.providerSvc with
    | false =>
      refine .refused .notReady (by decide) ?_ ?_
      · rw [hrequest, hs]
        rfl
      · rw [prog_of_counts h ha hcount, ha]
        exact function_of_noProvider hs (List.get_mem _ _) a
    | true =>
      rw [hs] at hrequest
      have haccepted : c.Accepted c.selector _ _ a := ⟨rfl, hs, ha, hcount.1, hcount.2⟩
      have hreads (k : UInt32) (hk : k = 3 ∨ k = 4 ∨ k = 5) (hc : c.Accepted k 0 8 a) : c.Asks := by
        refine .read (regsOf k) ?_ ?_ ?_ ?_
        · rw [hrequest, hc.selector]
          rcases hk with rfl | rfl | rfl <;> rfl
        · rcases hk with rfl | rfl | rfl <;> rfl
        · rcases hk with rfl | rfl | rfl <;> exact not_pastSafe_of_all rfl
        · rw [hc.prog_readList hk, Functor.map_map]
          exact congrArg (· <$> readList (regsOf k)) (funext (reply_regsOut a))
      obtain ⟨client, selector, args⟩ := c
      rcases selector_cases h with rfl | rfl | rfl | rfl | rfl | rfl
      · refine .createBuffer (createBytes a) hrequest ?_
        rw [haccepted.prog_createBuffer, Functor.map_map]
        exact congrArg (· <$> ucCreateBuffer _) (funext (reply_cookieOut haccepted.outputs))
      · refine .submit hrequest ?_
        rw [haccepted.prog_submit, Functor.map_map]
        exact congrArg (· <$> ucSubmitNoop)
          (funext fun kr => reply_of_noOutputs kr haccepted.outputs)
      · refine .wait (waitTimeoutMs a) hrequest ?_
        rw [haccepted.prog_wait, Functor.map_map]
        refine congrArg (· <$> ucWait _) (funext fun kr => reply_of_noOutputs kr ?_)
        exact (a.sameOutputs_clampedInput 1000 60000).2.trans haccepted.outputs
      · exact hreads 3 (by decide) haccepted
      · exact hreads 4 (by decide) haccepted
      · exact hreads 5 (by decide) haccepted

/-! ## The view of the machine -/

/-- **What a client can know of the machine.** -/
def Machine.view (s : Machine) : View where
  length := if s.mmio = 0 then none else some s.bar0Length
  count := s.boList.map fun a => a.objs.length
  stream := !(s.gXeBoot.disableCommandStream || s.gXeBoot.strictSafe)

theorem Machine.view_length_eq_none {s : Machine} : s.view.length = none ↔ s.mmio = 0 := by
  show (if s.mmio = 0 then none else some s.bar0Length) = none ↔ _
  by_cases h : s.mmio = 0
  · rw [if_pos h]
    exact iff_of_true rfl h
  · rw [if_neg h]
    exact iff_of_false (Option.some_ne_none _) h

theorem Machine.view_length_eq_some {s : Machine} {L : UInt64} :
    s.view.length = some L ↔ s.mmio ≠ 0 ∧ s.bar0Length = L := by
  show (if s.mmio = 0 then none else some s.bar0Length) = some L ↔ _
  by_cases h : s.mmio = 0
  · rw [if_pos h]
    exact iff_of_false (Option.some_ne_none L).symm fun h' => h'.1 h
  · rw [if_neg h, Option.some.injEq]
    exact (and_iff_right h).symm

theorem Machine.view_count_of_boList {s : Machine} {a : OSArray} (h : s.boList = some a) :
    s.view.count = some a.objs.length :=
  congrArg (Option.map fun a : OSArray => a.objs.length) h

/-- How far a call has come with the service. -/
inductive ServePhase where
  /-- It has asked for nothing that matters. -/
  | idle
  /-- A creation has found a registry. -/
  | inside
  /-- A submission has its batch. -/
  | batch (md : ObjId)
  /-- A creation has its descriptor. -/
  | holding (md : ObjId)
  /-- The descriptor was entered. -/
  | appended
  /-- The count was read after that. -/
  | counted (n : UInt32)
  deriving DecidableEq

namespace ServePhase

/-- Whether a call has not entered a descriptor. -/
def pending : ServePhase → Bool
  | appended | counted _ => false
  | _ => true

/-- The phase after a request and its answer. -/
def next (φ : ServePhase) : (o : KextOp) → o.Resp → ServePhase
  | .hasBoList, found => if found then inside else idle
  | .withOptions _, md =>
    match φ with
    | inside => md.elim idle holding
    | _ => md.elim idle batch
  | .setObject _, added => if added then appended else φ
  | .getCount, n => counted n
  | .release _, _ => idle
  | _, _ => φ

/-- **What a call may ask for**, by its phase. -/
inductive Allows : ServePhase → KextOp → Prop
  | look {o : KextOp} (ho : o.probes = true) : Allows idle o
  | hasBoList : Allows idle .hasBoList
  | allocBatch : Allows idle (.withOptions 4096)
  | lookBatch {o : KextOp} (md : ObjId) (ho : o.probes = true) : Allows (batch md) o
  | batchAddress (md : ObjId) : Allows (batch md) (.getBytesNoCopy md)
  | batchLength (md : ObjId) : Allows (batch md) (.getLength md)
  | writeBatch (md : ObjId) (cmds : List UInt32) : Allows (batch md) (.writeCmds md cmds)
  | releaseBatch (md : ObjId) : Allows (batch md) (.release md)
  | alloc (capacity : UInt32) : Allows inside (.withOptions capacity)
  | enter (md : ObjId) : Allows (holding md) (.setObject md)
  | undo (md : ObjId) : Allows (holding md) (.release md)
  | count : Allows appended .getCount
  | address (md : ObjId) (n : UInt32) : Allows (counted n) (.getBytesNoCopy md)

/-- The answers a call may count on where the view is `v` but for the number
of buffers. -/
def Admits (v : View) (φ : ServePhase) : (o : KextOp) → o.Resp → Prop
  | .getMmio, m => m = 0 ↔ v.length = none
  | .loadBoot, g => (g.disableCommandStream || g.strictSafe) = !v.stream
  | .hasBoList, found => found = v.count.isSome
  | .readRegSafe off, val => ∀ L, v.length = some L → ReadsAs L off val
  | .getLength md, n => φ = batch md → n = 4096
  | _, _ => True

/-- The monitor of a call. -/
def monitor (v : View) : Monitor KextOp KextOp.Resp ServePhase where
  allows := Allows
  admits := Admits v
  next := next

/-- **What a request does to the view**: nothing, unless it enters a
descriptor. -/
inductive Moves : ServePhase → View → ServePhase → View → Prop
  | quiet {φ φ' : ServePhase} (v : View) (h : φ.pending = true) (h' : φ'.pending = true) :
      Moves φ v φ' v
  | append (md : ObjId) {v : View} {n : ℕ} (h : v.count = some n) (hn : n + 1 < UInt32.size) :
      Moves (holding md) v appended { v with count := some (n + 1) }
  | count {v : View} {n : ℕ} (h : v.count = some n) (hn : n < UInt32.size) :
      Moves appended v (counted (UInt32.ofNat n)) v
  | counted (n : UInt32) (v : View) : Moves (counted n) v (counted n) v

/-- What a call relies on: a batch has a page, and a creation its registry. -/
def Fits (s : Machine) : ServePhase → Prop
  | batch md => (s.buffers[md]?).map Buffer.length = some 4096
  | inside | holding _ | appended => s.boList.isSome = true
  | idle | counted _ => True

theorem Moves.sameMode {φ φ' : ServePhase} {v v' : View} (h : Moves φ v φ' v') :
    v.SameMode v' := by
  cases h with
  | append md hn _ => exact ⟨rfl, rfl, hn ▸ rfl⟩
  | _ => rfl

/-- The view is left alone by a call that has entered nothing or has entered
before; or the call enters its descriptor. -/
theorem Moves.cases {φ φ' : ServePhase} {v v' : View} (h : Moves φ v φ' v') :
    (v' = v ∧ (φ.pending = true ∧ φ'.pending = true
        ∨ ∃ n, φ = ServePhase.counted n ∧ φ' = ServePhase.counted n))
      ∨ (∃ n, v.count = some n ∧ n < UInt32.size ∧ v' = v ∧ φ = appended
        ∧ φ' = ServePhase.counted (UInt32.ofNat n))
      ∨ ∃ n, v.count = some n ∧ n + 1 < UInt32.size ∧ v' = { v with count := some (n + 1) }
        ∧ φ.pending = true ∧ φ' = appended := by
  cases h with
  | quiet _ h h' => exact Or.inl ⟨rfl, Or.inl ⟨h, h'⟩⟩
  | append md h hn => exact Or.inr (Or.inr ⟨_, h, hn, rfl, rfl, rfl⟩)
  | count h hn => exact Or.inr (Or.inl ⟨_, h, hn, rfl, rfl, rfl⟩)
  | counted n _ => exact Or.inl ⟨rfl, Or.inr ⟨n, rfl, rfl⟩⟩

variable {P : Platform} {s : Machine} {φ : ServePhase} {o : KextOp} {v : View}

/-- A request that only looks at the device leaves the view alone. -/
theorem view_of_probes (ho : o.probes = true) : (exec P o s).2.view = s.view := by
  rw [Machine.eq_of_still (exec_still P ho s)]
  rfl

theorem fits_of_probes (ho : o.probes = true) (ψ : ServePhase) :
    ψ.Fits (exec P o s).2 ↔ ψ.Fits s := by
  rw [Machine.eq_of_still (exec_still P ho s)]
  rfl

/-- The phase is left by none of them. -/
theorem next_of_probes (ho : o.probes = true) (r : o.Resp) : φ.next o r = φ := by
  cases o <;> first | rfl | exact absurd ho Bool.false_ne_true

/-- What they are answered. -/
theorem admits_of_probes (ho : o.probes = true) (hv : v.SameMode s.view) :
    Admits v φ o (exec P o s).1 := by
  cases o with
  | loadBoot =>
    show _ = !v.stream
    rw [← hv.stream]
    exact (Bool.not_not _).symm
  | getMmio =>
    show s.mmio = 0 ↔ v.length = none
    rw [← hv.length]
    exact Machine.view_length_eq_none.symm
  | readRegSafe off =>
    intro L hL hpos hle
    obtain ⟨hmmio, rfl⟩ := Machine.view_length_eq_some.mp (hv.length.trans hL)
    rw [exec_readRegSafe, Machine.readRegSafe, if_neg hmmio]
    split_ifs with hoff hbar
    · rfl
    · rfl
    · exact absurd ⟨UInt64.pos_iff_ne_zero.mpr hpos, hle⟩ hbar
  | _ => trivial

/-- The length of a buffer does not change. -/
theorem length_modify (l : List Buffer) (md md' : ObjId) (cmds : List UInt32) :
    ((l.modify md' fun b => { b with cmds := cmds })[md]?).map Buffer.length
      = (l[md]?).map Buffer.length := by
  rw [List.getElem?_modify]
  cases l[md]? with
  | none => rfl
  | some b =>
    show some (Buffer.length (if md' = md then _ else b)) = some b.length
    split <;> rfl

/-- **One request of a call**: it is answered as the phase may count on, what
the phase relies on is kept, and the view moves as it may. -/
theorem exec_moves (P : Platform) {s : Machine} (ho : Allows φ o) (hv : v.SameMode s.view)
    (hfits : φ.Fits s) :
    Admits v φ o (exec P o s).1 ∧ (φ.next o (exec P o s).1).Fits (exec P o s).2
      ∧ Moves φ s.view (φ.next o (exec P o s).1) (exec P o s).2.view := by
  cases ho with
  | look ho | lookBatch md ho =>
    rw [next_of_probes ho, fits_of_probes ho, view_of_probes ho]
    exact ⟨admits_of_probes ho hv, hfits, .quiet _ rfl rfl⟩
  | hasBoList =>
    have hcount : s.view.count.isSome = s.boList.isSome := Option.isSome_map
    refine ⟨hcount.symm.trans hv.registry, ?_⟩
    rw [exec_hasBoList]
    dsimp only
    cases hlist : s.boList.isSome with
    | false => exact ⟨trivial, .quiet _ rfl rfl⟩
    | true => exact ⟨hlist, .quiet _ rfl rfl⟩
  | allocBatch =>
    refine ⟨trivial, ?_⟩
    rcases withOptions_cases P s 4096 with hrun | hrun
    · rw [hrun]
      exact ⟨trivial, .quiet _ rfl rfl⟩
    · rw [hrun]
      refine ⟨?_, .quiet _ rfl rfl⟩
      show ((s.buffers ++ [_])[s.buffers.length]?).map Buffer.length = _
      rw [List.getElem?_concat_length]
      rfl
  | alloc capacity =>
    refine ⟨trivial, ?_⟩
    rcases withOptions_cases P s capacity with hrun | hrun
    · rw [hrun]
      exact ⟨trivial, .quiet _ rfl rfl⟩
    · rw [hrun]
      exact ⟨hfits, .quiet _ rfl rfl⟩
  | batchAddress md => exact ⟨trivial, hfits, .quiet _ rfl rfl⟩
  | batchLength md =>
    refine ⟨fun _ => ?_, hfits, .quiet _ rfl rfl⟩
    obtain ⟨b, hb, hlen⟩ := Option.map_eq_some_iff.mp hfits
    rw [exec_getLength, hb]
    exact hlen
  | writeBatch md cmds => exact ⟨trivial, (length_modify ..).trans hfits, .quiet _ rfl rfl⟩
  | releaseBatch md | undo md => exact ⟨trivial, trivial, .quiet _ rfl rfl⟩
  | enter md =>
    refine ⟨trivial, ?_⟩
    rcases setObject_cases P s md with hrun | ⟨a, a', ha, hpush, hrun⟩
    · rw [hrun]
      exact ⟨hfits, .quiet _ rfl rfl⟩
    · rw [hrun]
      refine ⟨rfl, ?_⟩
      have hlen := OSArray.length_of_push hpush
      have hmove := Moves.append md (Machine.view_count_of_boList ha) (hlen ▸ a'.count_lt)
      rw [← hlen] at hmove
      exact hmove
  | count =>
    obtain ⟨a, ha⟩ := Option.isSome_iff_exists.mp hfits
    refine ⟨trivial, trivial, ?_⟩
    rw [exec_getCount, ha]
    exact .count (Machine.view_count_of_boList ha) a.count_lt
  | address md n => exact ⟨trivial, trivial, .counted n _⟩

/-- **What another call relies on** is kept as well. -/
theorem Fits.request {ψ : ServePhase} (h : ψ.Fits s) (P : Platform) (ho : Allows φ o) :
    ψ.Fits (exec P o s).2 := by
  -- the registry stays, and the lengths of the buffers there are
  have hkeep {s' : Machine} (hlist : s.boList.isSome = true → s'.boList.isSome = true)
      (hbuffers : ∀ md : ObjId, (s.buffers[md]?).map Buffer.length = some 4096 →
        (s'.buffers[md]?).map Buffer.length = some 4096) : ψ.Fits s' := by
    cases ψ with
    | batch md => exact hbuffers md h
    | inside | holding _ | appended => exact hlist h
    | idle | counted _ => trivial
  have halloc (capacity : UInt32) : ψ.Fits (exec P (.withOptions capacity) s).2 := by
    rcases withOptions_cases P s capacity with hrun | hrun
    · rw [hrun]
      exact hkeep id fun _ => id
    · rw [hrun]
      refine hkeep id fun md hmd => ?_
      obtain ⟨b, hb, -⟩ := Option.map_eq_some_iff.mp hmd
      rw [← hmd]
      exact congrArg _ (List.getElem?_append_left (List.getElem?_eq_some_iff.mp hb).1)
  cases ho with
  | look ho | lookBatch md ho => exact (fits_of_probes ho ψ).mpr h
  | allocBatch => exact halloc 4096
  | alloc capacity => exact halloc capacity
  | writeBatch md cmds => exact hkeep id fun md' hmd' => (length_modify ..).trans hmd'
  | enter md =>
    rcases setObject_cases P s md with hrun | ⟨a, a', -, -, hrun⟩
    · rw [hrun]
      exact hkeep id fun _ => id
    · rw [hrun]
      exact hkeep (fun _ => rfl) fun _ => id
  | _ => exact hkeep id fun _ => id

/-! ## Every call goes through the phases -/

/-- How a call ends: with a reply that changes nothing, or with the count it
read for its cookie. -/
def Ends (v : View) (r : Request) (φ : ServePhase) (o : Reply) : Prop :=
  φ = idle ∧ v.Answers r o
    ∨ ∃ n : UInt32, φ = counted n ∧ r = .createBuffer ∧ o = (.success, [n.toUInt64])

/-- A program that only looks at the device stays in its phase. -/
theorem obeys_of_probes (v : View) {α : Type} {p : Kext α} (h : Probes p) {φ : ServePhase}
    (hφ : ∀ {o : KextOp}, o.probes = true → Allows φ o) :
    Prog.Obeys (monitor v) φ p (fun φ' _ => φ' = φ) :=
  Prog.Issues.obeys (fun _ ho => ⟨hφ ho, next_of_probes ho⟩) h

theorem obeys_ucCreateBuffer (v : View) (bytes : UInt32) :
    Prog.Obeys (monitor v) idle (ucCreateBuffer bytes)
      (fun φ r => Ends v .createBuffer φ (Reply.of (fun cookie => [cookie]) r)) := by
  refine ⟨.hasBoList, fun found hfound => ?_⟩
  have hfound : found = v.count.isSome := hfound
  cases found with
  | false =>
    exact Or.inl ⟨rfl, .noRegistry (Option.isNone_iff_eq_none.mp
      (Option.isSome_eq_false_iff.mp hfound.symm))⟩
  | true =>
    have hfailed : v.Answers .createBuffer (.noResources, []) := .notCreated hfound.symm
    refine ⟨.alloc _, fun md _ => ?_⟩
    cases md with
    | none => exact Or.inl ⟨rfl, hfailed⟩
    | some md =>
      refine ⟨.enter md, fun added _ => ?_⟩
      cases added with
      | false => exact ⟨.undo md, fun _ _ => Or.inl ⟨rfl, hfailed⟩⟩
      | true => exact ⟨.count, fun n _ => ⟨.address md n, fun _ _ => Or.inr ⟨n, rfl, rfl, rfl⟩⟩⟩

/-- On a batch of its own, with a mapping. -/
theorem obeys_submitNoop {v : View} (hv : v.length.isSome = true) {m : UInt64} (hm : m ≠ 0)
    (md : ObjId) :
    Prog.Obeys (monitor v) (batch md) (XeCommandStream.submitNoop m (some md))
      (fun φ kr => φ = batch md ∧ v.Answers .submit (kr, [])) := by
  unfold XeCommandStream.submitNoop
  rw [if_neg hm]
  refine Prog.Obeys.perform_bind (.lookBatch md rfl) fun g hg => ?_
  have hg : (g.disableCommandStream || g.strictSafe) = !v.stream := hg
  by_cases hoff : (g.disableCommandStream || g.strictSafe) = true
  · rw [if_pos hoff]
    refine ⟨rfl, .noStream (Or.inr ?_)⟩
    rw [hoff] at hg
    exact (Bool.not_eq_eq_eq_not.mp hg.symm)
  rw [if_neg hoff]
  have hstream : v.stream = true := by
    rw [Bool.not_eq_true] at hoff
    rw [hoff] at hg
    exact (Bool.not_eq_eq_eq_not.mp hg.symm)
  refine Prog.Obeys.perform_bind (.batchAddress md) fun rawAddr _ => ?_
  by_cases haddr : rawAddr = 0
  · rw [if_pos haddr]
    exact ⟨rfl, .noAddress hv hstream⟩
  rw [if_neg haddr]
  refine Prog.Obeys.perform_bind (.batchLength md) fun n hn => ?_
  have hroom : ¬(4096 : UInt64) < 16 := by decide
  rw [show n = 4096 from hn rfl, if_neg hroom]
  refine Prog.Obeys.perform_bind (.writeBatch md _) fun _ _ => ?_
  rw [Prog.obeys_bind]
  refine (obeys_of_probes v (probes_logRcs0State m) (.lookBatch md)).mono fun φ _ hφ => ?_
  exact ⟨hφ, .submitted hv hstream⟩

theorem obeys_ucSubmitNoop (v : View) :
    Prog.Obeys (monitor v) idle ucSubmitNoop (fun φ kr => Ends v .submit φ (kr, [])) := by
  refine Prog.Obeys.perform_bind (.look rfl) fun m hm => ?_
  have hm : m = 0 ↔ v.length = none := hm
  by_cases hnull : m = 0
  · rw [if_pos hnull]
    exact Or.inl ⟨rfl, .noStream (Or.inl (hm.mp hnull))⟩
  rw [if_neg hnull]
  have hv : v.length.isSome = true := Option.isSome_iff_ne_none.mpr (hnull ∘ hm.mpr)
  refine Prog.Obeys.perform_bind .allocBatch fun md _ => ?_
  cases md with
  | none => exact Or.inl ⟨rfl, .noBatch hv⟩
  | some md =>
    refine Prog.Obeys.perform_bind (.lookBatch md rfl) fun m' hm' => ?_
    have hm' : m' = 0 ↔ v.length = none := hm'
    rw [Prog.obeys_bind]
    refine (obeys_submitNoop hv (fun h => hnull (hm.mpr (hm'.mp h))) md).mono ?_
    rintro φ kr ⟨rfl, hkr⟩
    exact Prog.Obeys.perform_bind (.releaseBatch md) fun _ _ => Or.inl ⟨rfl, hkr⟩

theorem obeys_readList (v : View) {offs : List UInt32} (hlen : offs.length = 8) :
    Prog.Obeys (monitor v) idle (readList offs) (fun φ r =>
      Ends v (.read offs) φ (Reply.of (fun out => (out.take 8).map UInt32.toUInt64) r)) := by
  refine Prog.Obeys.perform_bind (.look rfl) fun m hm => ?_
  have hm : m = 0 ↔ v.length = none := hm
  by_cases hnull : m = 0
  · rw [if_pos hnull]
    exact Or.inl ⟨rfl, .noBar offs (hm.mp hnull)⟩
  rw [if_neg hnull]
  obtain ⟨L, hL⟩ := Option.ne_none_iff_exists'.mp (hnull ∘ hm.mpr)
  have hreads : Prog.Obeys (monitor v) idle (offs.mapM readReg)
      (fun φ out => φ = idle ∧ List.Forall₂ (ReadsAs L) offs out) :=
    Prog.Obeys.mapM fun off _ => ⟨.look rfl, fun val hval => ⟨rfl, hval L hL⟩⟩
  rw [Prog.obeys_bind]
  refine hreads.mono ?_
  rintro φ out ⟨rfl, hout⟩
  refine Or.inl ⟨rfl, ?_⟩
  rw [Reply.of_success, List.take_of_length_le (hout.length_eq.symm.trans hlen).le]
  exact .read hL hout

/-- **Every call goes through the phases.** -/
theorem obeys_call (v : View) (c : Call) :
    Prog.Obeys (monitor v) idle c.prog (fun φ r => Ends v c.request φ (reply r)) := by
  rw [← Prog.obeys_map (monitor v) idle c.prog reply (fun φ o => Ends v c.request φ o)]
  cases c.asks with
  | refused kr hkr hr hp =>
    rw [hp, hr]
    refine Or.inl ⟨rfl, ?_⟩
    rw [reply_of_ne hkr]
    exact .refused kr hkr
  | createBuffer bytes hr hp =>
    rw [hp, hr, Prog.obeys_map]
    exact obeys_ucCreateBuffer v bytes
  | submit hr hp =>
    rw [hp, hr, Prog.obeys_map]
    exact obeys_ucSubmitNoop v
  | wait timeoutMs hr hp =>
    rw [hp, hr, Prog.obeys_map]
    exact Prog.Obeys.perform_bind (.look rfl) fun _ _ => Or.inl ⟨rfl, .waited⟩
  | read offs hr hlen _ hp =>
    rw [hp, hr, Prog.obeys_map]
    exact obeys_readList v hlen

/-! ## One after another -/

/-- What has become of the view `v` while a call went on alone, by its
phase. -/
def Since (v : View) : ServePhase → View → Prop
  | appended, v' =>
    ∃ n, v.count = some n ∧ n + 1 < UInt32.size ∧ v' = { v with count := some (n + 1) }
  | counted k, v' =>
    ∃ n, v.count = some n ∧ n + 1 < UInt32.size ∧ v' = { v with count := some (n + 1) }
      ∧ k = UInt32.ofNat (n + 1)
  | _, v' => v' = v

theorem since_of_pending {φ : ServePhase} (h : φ.pending = true) {v v' : View} :
    φ.Since v v' ↔ v' = v := by
  cases φ <;> first | rfl | exact absurd h Bool.false_ne_true

theorem Since.sameMode {φ : ServePhase} {v v' : View} (h : φ.Since v v') : v.SameMode v' := by
  cases φ with
  | appended =>
    obtain ⟨n, hn, -, rfl⟩ := h
    exact ⟨rfl, rfl, hn ▸ rfl⟩
  | counted k =>
    obtain ⟨n, hn, -, rfl, -⟩ := h
    exact ⟨rfl, rfl, hn ▸ rfl⟩
  | _ => exact h ▸ .refl v

theorem Since.moves {φ φ' : ServePhase} {v v' v'' : View} (h : φ.Since v v')
    (hmoves : Moves φ v' φ' v'') : φ'.Since v v'' := by
  cases hmoves with
  | quiet _ hφ hφ' => exact (since_of_pending hφ').mpr ((since_of_pending hφ).mp h)
  | append md hn hsize =>
    obtain rfl : v' = v := h
    exact ⟨_, hn, hsize, rfl⟩
  | count hn _ =>
    obtain ⟨n, hcount, hsize, rfl⟩ := h
    obtain rfl := Option.some.inj hn
    exact ⟨n, hcount, hsize, rfl, rfl⟩
  | counted k _ => exact h

end ServePhase

/-- **A call makes a step of the specification.** -/
theorem call_step (P : Platform) (c : Call) (s : Machine) :
    serviceSpec.step s.view c.request (reply (c.prog.run (exec P) s).1)
      (c.prog.run (exec P) s).2.view := by
  have hstep : ∀ (φ : ServePhase) (o : KextOp) (t : Machine), φ.Allows o →
      φ.Since s.view t.view ∧ φ.Fits t →
        ServePhase.Admits s.view φ o (exec P o t).1
          ∧ (φ.next o (exec P o t).1).Since s.view (exec P o t).2.view
          ∧ (φ.next o (exec P o t).1).Fits (exec P o t).2 := by
    intro φ o t ho ⟨hsince, hfits⟩
    obtain ⟨hadmits, hfits', hmoves⟩ := ServePhase.exec_moves P ho hsince.sameMode hfits
    exact ⟨hadmits, hsince.moves hmoves, hfits'⟩
  obtain ⟨φ, ⟨hsince, -⟩, hends⟩ := (ServePhase.obeys_call s.view c).run
    (R := fun φ t => φ.Since s.view t.view ∧ φ.Fits t) hstep ⟨rfl, trivial⟩
  rcases hends with ⟨rfl, hanswers⟩ | ⟨k, rfl, hr, ho⟩
  · rw [(ServePhase.since_of_pending rfl).mp hsince]
    exact .answer hanswers
  · obtain ⟨n, hn, hsize, hview, rfl⟩ := hsince
    have hcookie : (UInt32.ofNat (n + 1)).toUInt64 = UInt64.ofNat (n + 1) :=
      UInt32.toUInt64_ofNat' hsize
    rw [hview, hr, ho, hcookie]
    exact .created hn hsize

/-- What is asked by an event: a call, or a shutdown. -/
def eventRequest : Option Call → Request
  | some c => c.request
  | none => .stop

/-- The program of an event, with what it is replied to. -/
def eventProg : Option Call → Kext Reply
  | some c => reply <$> c.prog
  | none => (fun _ => (.success, [])) <$> stop

/-- What a shutdown leaves alone: the flags, what was allocated and entered so
far, and the history. -/
theorem frame_stop (P : Platform) (s : Machine) :
    let s' := (stop.run (exec P) s).2
    (s'.gXeBoot, s'.withOptionsCalls, s'.setObjectCalls, s'.buffers, s'.hist)
      = (s.gXeBoot, s.withOptionsCalls, s.setObjectCalls, s.buffers, s.hist) := by
  refine Prog.Issues.run_frame (f := fun t : Machine =>
    (t.gXeBoot, t.withOptionsCalls, t.setObjectCalls, t.buffers, t.hist)) ?_ issues_stop s
  intro o t ho
  cases o with
  | getObject i => rw [getObject_eq]
  | _ => first | rfl | exact absurd ho Bool.false_ne_true

/-- **Every event makes a step of the specification**, while the fields of the
service agree. -/
theorem event_step (P : Platform) (e : Option Call) {s : Machine} (hs : s.Wired) :
    serviceSpec.step s.view (eventRequest e) ((eventProg e).run (exec P) s).1
        ((eventProg e).run (exec P) s).2.view
      ∧ ((eventProg e).run (exec P) s).2.Wired := by
  cases e with
  | some c =>
    unfold eventProg
    rw [Prog.run_map]
    exact ⟨call_step P c s, hs.call P c⟩
  | none =>
    unfold eventProg
    rw [Prog.run_map]
    have hdown := hs.stop P
    have hboot : (stop.run (exec P) s).2.gXeBoot = s.gXeBoot := congrArg Prod.fst (frame_stop P s)
    have hview : (stop.run (exec P) s).2.view = { s.view with length := none, count := none } := by
      show View.mk (if (stop.run (exec P) s).2.mmio = 0 then none else _)
        ((stop.run (exec P) s).2.boList.map _) _ = _
      rw [if_pos hdown.mmio, hdown.boList, hboot]
      rfl
    refine ⟨?_, hdown.wired⟩
    rw [hview]
    exact .stopped s.view

/-- **The view after a `start`** that returned `ok`: a BAR that is mapped has a
length, and one that was mapped without success has no registry. -/
structure View.Started (ok : Bool) (v : View) : Prop where
  length : ∀ L, v.length = some L → L ≠ 0
  count : v.count = if ok then some 0 else none
  mapped : ok = true → v.length.isSome = true

/-- Before `start` nothing is mapped. -/
theorem initialized_down (P : Platform) : P.initialized.Down := by
  rw [initialized_eq]
  exact ⟨rfl, rfl, rfl⟩

theorem view_started (P : Platform) :
    View.Started (start.run (exec P) P.initialized).1 P.started.view := by
  have hdown := initialized_down P
  unfold Platform.started
  cases hmap : P.mapped with
  | none =>
    obtain ⟨pci, L, hrun⟩ := run_start_of_down_of_unmapped hmap hdown
    rw [hrun]
    refine ⟨fun L' hL' => ?_, ?_, fun h => nomatch h⟩
    · exact absurd hdown.mmio (Machine.view_length_eq_some.mp hL').1
    · show P.initialized.boList.map _ = none
      rw [hdown.boList]
      rfl
  | some map =>
    obtain ⟨-, -, -, hlen, hva⟩ := mapped_eq_some hmap
    obtain ⟨hist, hrun⟩ := run_start_eq_of_mapped hmap P.initialized
    rw [hrun]
    have hlength : (if map.virtualAddress = 0 then none else some map.length)
        = some map.length := if_neg hva
    refine ⟨fun L hL => ?_, ?_, fun _ => congrArg Option.isSome hlength⟩
    · have hL' := hlength.symm.trans hL
      exact Option.some.inj hL' ▸ hlen
    · cases P.withCapacityOk <;> rfl
