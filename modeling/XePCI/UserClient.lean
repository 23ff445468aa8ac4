import Mathlib.Logic.Function.Basic
import XePCI.Service

/-!
# The user client and the runs of the driver

`XeUserClient` is what user space talks to: `externalMethod` picks an entry
of a table by its selector, the base class compares the caller's scalar
counts with the entry's and calls its static handler, and the handler
calls a method of the service and copies the results out.

The caller's argument record is a pair of arrays with their counts. It
carries the record of the positions read and written, which nothing in the
driver sees.

The last section puts the parts together: `session` is one life of the
driver – `init`, `start`, the calls of its clients in the order they are
made, and `stop`.
-/

/-- **The argument record**, `IOExternalMethodArguments`, as far as the
driver uses it. -/
structure IOExternalMethodArguments where
  /-- The caller's input scalars. -/
  scalarInput : ℕ → UInt64
  /-- How many of them there are. -/
  scalarInputCount : UInt32
  /-- The caller's output scalars. -/
  scalarOutput : ℕ → UInt64
  /-- How many the caller has room for; on return, how many were filled. -/
  scalarOutputCount : UInt32
  /-- The input positions read so far. -/
  inputReads : List ℕ := []
  /-- The output positions written so far. -/
  outputWrites : List ℕ := []

namespace IOExternalMethodArguments

/-- `scalarInput[i]`. -/
def readInput (a : IOExternalMethodArguments) (i : ℕ) :
    UInt64 × IOExternalMethodArguments :=
  (a.scalarInput i, { a with inputReads := i :: a.inputReads })

/-- `scalarOutput[i] = v`. -/
def writeOutput (a : IOExternalMethodArguments) (i : ℕ) (v : UInt64) :
    IOExternalMethodArguments :=
  { a with
    scalarOutput := Function.update a.scalarOutput i v
    outputWrites := i :: a.outputWrites }

/-- The first `n` entries of a temporary, copied out. -/
def copyOut (a : IOExternalMethodArguments) (tmp : List UInt32) (n : ℕ) :
    IOExternalMethodArguments :=
  (List.range n).foldl (fun a i => a.writeOutput i (tmp.getD i 0).toUInt64) a

/-- The clamp of a 32-bit request: a default for `0`, a limit above. -/
def clamp (dflt limit v : UInt32) : UInt32 :=
  let v := if v = 0 then dflt else v
  if limit < v then limit else v

/-- The first input scalar, narrowed to 32 bits and then clamped; the
default where the caller passed none. -/
def clampedInput (a : IOExternalMethodArguments) (dflt limit : UInt32) :
    UInt32 × IOExternalMethodArguments :=
  if 1 ≤ a.scalarInputCount then
    (clamp dflt limit (a.readInput 0).1.toUInt32, (a.readInput 0).2)
  else (dflt, a)

/-- The outputs of the second record are those of the first. -/
def SameOutputs (a a' : IOExternalMethodArguments) : Prop :=
  a'.scalarOutput = a.scalarOutput ∧ a'.scalarOutputCount = a.scalarOutputCount

@[refl] theorem SameOutputs.refl (a : IOExternalMethodArguments) : a.SameOutputs a :=
  ⟨rfl, rfl⟩

/-- Reading the input leaves the outputs alone. -/
theorem sameOutputs_clampedInput (a : IOExternalMethodArguments) (dflt limit : UInt32) :
    a.SameOutputs (a.clampedInput dflt limit).2 := by
  unfold clampedInput
  split <;> exact ⟨rfl, rfl⟩

end IOExternalMethodArguments

/-- The user client's fields. -/
structure XeUserClient where
  /-- Whether `providerSvc` is set. -/
  providerSvc : Bool
  deriving DecidableEq, Repr

/-- What a handler may be given as its target. -/
inductive OSObject where
  /-- A user client of this driver. -/
  | userClient (self : XeUserClient)
  /-- Anything else. -/
  | other
  deriving DecidableEq, Repr

/-- `OSDynamicCast(XeUserClient, t)`. -/
def OSObject.asUserClient : OSObject → Option XeUserClient
  | userClient self => some self
  | other => none

/-- The type of the static handlers: the result, and the argument record
as the handler leaves it. -/
abbrev IOExternalMethodAction :=
  Option OSObject → Option IOExternalMethodArguments →
    Kext (IOReturn × Option IOExternalMethodArguments)

/-- An entry of the dispatch table. -/
structure IOExternalMethodDispatch where
  /-- The handler. -/
  function : IOExternalMethodAction
  /-- How many input scalars a call has. -/
  checkScalarInputCount : UInt32
  /-- How many output scalars a call has. -/
  checkScalarOutputCount : UInt32

/-- `IOUserClient::externalMethod`: the handler is called exactly if the
counts are the entry's. -/
def IOUserClient.externalMethod (d : IOExternalMethodDispatch) (t : Option OSObject)
    (a : IOExternalMethodArguments) : Kext (IOReturn × Option IOExternalMethodArguments) :=
  if a.scalarInputCount = d.checkScalarInputCount
      ∧ a.scalarOutputCount = d.checkScalarOutputCount then
    d.function t (some a)
  else return (.badArgument, some a)

namespace XeUserClient

open IOExternalMethodArguments

def kMethodCreateBuffer : UInt32 := 0
def kMethodSubmit : UInt32 := 1
def kMethodWait : UInt32 := 2
def kMethodReadReg : UInt32 := 3
def kMethodGetGTConfig : UInt32 := 4
def kMethodGetDisplayInfo : UInt32 := 5

/-! ## The static handlers -/

/-- What `sCreateBuffer` makes of its input: the size, and the record it was
read from. -/
def createRequest (a : IOExternalMethodArguments) : UInt32 × IOExternalMethodArguments :=
  a.clampedInput 4096 (64 * 1024 * 1024)

/-- What `sWait` makes of its input: the time, and the record it was read
from. -/
def waitRequest (a : IOExternalMethodArguments) : UInt32 × IOExternalMethodArguments :=
  a.clampedInput 1000 60000

/-- The size `sCreateBuffer` passes to `ucCreateBuffer`. -/
def createBytes (a : IOExternalMethodArguments) : UInt32 := (createRequest a).1

/-- The time `sWait` passes to `ucWait`. -/
def waitTimeoutMs (a : IOExternalMethodArguments) : UInt32 := (waitRequest a).1

/-- `XeUserClient::sCreateBuffer`. -/
def sCreateBuffer : IOExternalMethodAction := fun t a => do
  match t, a with
  | some t, some a =>
    match t.asUserClient with
    | none => return (.badArgument, some a)
    | some self =>
      if !self.providerSvc then return (.notReady, some a)
      let (bytes, a) := createRequest a
      let (kr, cookie) ← XeService.ucCreateBuffer bytes
      if kr = .success ∧ 1 ≤ a.scalarOutputCount then
        return (kr, some { a.writeOutput 0 cookie with scalarOutputCount := 1 })
      return (kr, some a)
  | _, a => return (.badArgument, a)

/-- `XeUserClient::sSubmit`. -/
def sSubmit : IOExternalMethodAction := fun t a => do
  match t with
  | none => return (.badArgument, a)
  | some t =>
    match t.asUserClient with
    | none => return (.notReady, a)
    | some self =>
      if !self.providerSvc then return (.notReady, a)
      let kr ← XeService.ucSubmitNoop
      return (kr, a)

/-- The frame the other handlers share: the target's and the record's
checks around a body. -/
def checked (body : IOExternalMethodArguments → Kext (IOReturn × IOExternalMethodArguments)) :
    IOExternalMethodAction := fun t a => do
  match t, a with
  | some t, some a =>
    match t.asUserClient with
    | none => return (.notReady, some a)
    | some self =>
      if !self.providerSvc then return (.notReady, some a)
      let (kr, a) ← body a
      return (kr, some a)
  | _, a => return (.badArgument, a)

/-- `XeUserClient::sWait`. -/
def sWait : IOExternalMethodAction := checked fun a => do
  let (timeoutMs, a) := waitRequest a
  let kr ← XeService.ucWait timeoutMs
  return (kr, a)

/-- `XeUserClient::sReadRegs`: the outputs are as many as were read, at
most the temporary's 8, whatever room the caller has. -/
def sReadRegs : IOExternalMethodAction := checked fun a => do
  let (kr, tmp) ← XeService.ucReadRegs 8
  if kr = .success then
    let outMax := if tmp.length < 8 then tmp.length else 8
    return (kr, { a.copyOut tmp outMax with scalarOutputCount := UInt32.ofNat outMax })
  return (kr, a)

/-- The body of the two handlers that return a record of registers: the
outputs are as many as the caller has room for. -/
def copyRecord (method : Kext (IOReturn × List UInt32)) (a : IOExternalMethodArguments) :
    Kext (IOReturn × IOExternalMethodArguments) := do
  let (kr, tmp) ← method
  if kr = .success then
    let outMax := if a.scalarOutputCount.toNat < tmp.length
      then a.scalarOutputCount.toNat else tmp.length
    return (kr, { a.copyOut tmp outMax with scalarOutputCount := UInt32.ofNat outMax })
  return (kr, a)

/-- `XeUserClient::sGetGTConfig`. -/
def sGetGTConfig : IOExternalMethodAction :=
  checked (copyRecord XeService.ucGetGTConfig)

/-- `XeUserClient::sGetDisplayInfo`. -/
def sGetDisplayInfo : IOExternalMethodAction :=
  checked (copyRecord XeService.ucGetDisplayInfo)

/-! ## The dispatcher -/

/-- **The dispatch table.** -/
def sMethods : List IOExternalMethodDispatch :=
  [⟨sCreateBuffer, 1, 1⟩, ⟨sSubmit, 0, 0⟩, ⟨sWait, 1, 0⟩, ⟨sReadRegs, 0, 8⟩,
    ⟨sGetGTConfig, 0, 8⟩, ⟨sGetDisplayInfo, 0, 8⟩]

/-- **`XeUserClient::externalMethod`.** The selector is compared with the
table's length before the table is indexed, and the record with null
before it is passed on. -/
def externalMethod (self : XeUserClient) (selector : UInt32)
    (args : Option IOExternalMethodArguments) :
    Kext (IOReturn × Option IOExternalMethodArguments) :=
  if h : selector.toNat < sMethods.length then
    match args with
    | none => return (.badArgument, none)
    | some a =>
      IOUserClient.externalMethod (sMethods.get ⟨selector.toNat, h⟩)
        (some (.userClient self)) a
  else return (.unsupported, args)

/-! ## Each handler is a method of the service and a record to fill

For a client that has its service. -/

section Handlers

variable {self : XeUserClient} (a : IOExternalMethodArguments)

/-- The record `sCreateBuffer` leaves, from the result of the method. -/
def cookieOut (a : IOExternalMethodArguments) (r : IOReturn × UInt64) :
    IOExternalMethodArguments :=
  if r.1 = .success ∧ 1 ≤ (createRequest a).2.scalarOutputCount then
    { (createRequest a).2.writeOutput 0 r.2 with scalarOutputCount := 1 }
  else (createRequest a).2

/-- The record a list of registers is copied to: `room` of them at most. -/
def regsOut (a : IOExternalMethodArguments) (room : ℕ) (r : IOReturn × List UInt32) :
    IOExternalMethodArguments :=
  if r.1 = .success then
    { a.copyOut r.2 (if room < r.2.length then room else r.2.length) with
      scalarOutputCount := UInt32.ofNat (if room < r.2.length then room else r.2.length) }
  else a

/-- No cookie is written unless the method succeeded. -/
theorem sameOutputs_cookieOut (r : IOReturn × UInt64) (hr : r.1 ≠ .success) :
    a.SameOutputs (cookieOut a r) := by
  unfold cookieOut
  rw [if_neg (fun h => hr h.1)]
  exact a.sameOutputs_clampedInput _ _

/-- The cookie of a method that succeeded is the one output. -/
theorem cookieOut_success (ha : a.scalarOutputCount = 1) (cookie : UInt64) :
    (cookieOut a (.success, cookie)).scalarOutput 0 = cookie
      ∧ (cookieOut a (.success, cookie)).scalarOutputCount = 1 := by
  have hroom : 1 ≤ (createRequest a).2.scalarOutputCount := by
    rw [createRequest, (a.sameOutputs_clampedInput _ _).2, ha]
    exact UInt32.le_refl 1
  unfold cookieOut
  rw [if_pos ⟨rfl, hroom⟩]
  refine ⟨?_, rfl⟩
  simp only [writeOutput, Function.update_self]

/-- No register is copied unless the method succeeded. -/
theorem sameOutputs_regsOut (room : ℕ) (r : IOReturn × List UInt32) (hr : r.1 ≠ .success) :
    a.SameOutputs (regsOut a room r) := by
  rw [regsOut, if_neg hr]

theorem sCreateBuffer_eq (hs : self.providerSvc = true) :
    sCreateBuffer (some (.userClient self)) (some a)
      = (fun r => (r.1, some (cookieOut a r)))
        <$> XeService.ucCreateBuffer (createBytes a) := by
  unfold sCreateBuffer cookieOut
  simp only [OSObject.asUserClient, hs, ← bind_pure_comp]
  refine bind_congr fun r => ?_
  split <;> rfl

theorem sSubmit_eq (hs : self.providerSvc = true) :
    sSubmit (some (.userClient self)) (some a)
      = (fun kr => (kr, some a)) <$> XeService.ucSubmitNoop := by
  unfold sSubmit
  simp only [OSObject.asUserClient, hs, ← bind_pure_comp]
  rfl

theorem checked_eq (body : IOExternalMethodArguments → Kext (IOReturn × IOExternalMethodArguments))
    (hs : self.providerSvc = true) :
    checked body (some (.userClient self)) (some a)
      = (fun r => (r.1, some r.2)) <$> body a := by
  unfold checked
  simp only [OSObject.asUserClient, hs, ← bind_pure_comp]
  rfl

theorem copyRecord_eq (method : Kext (IOReturn × List UInt32)) :
    copyRecord method a
      = (fun r => (r.1, regsOut a a.scalarOutputCount.toNat r)) <$> method := by
  unfold copyRecord regsOut
  simp only [← bind_pure_comp]
  refine bind_congr fun r => ?_
  obtain ⟨kr, tmp⟩ := r
  dsimp only
  split <;> rfl

theorem checked_copyRecord_eq (method : Kext (IOReturn × List UInt32))
    (hs : self.providerSvc = true) :
    checked (copyRecord method) (some (.userClient self)) (some a)
      = (fun r => (r.1, some (regsOut a a.scalarOutputCount.toNat r))) <$> method := by
  rw [checked_eq a _ hs, copyRecord_eq, Functor.map_map]

theorem sWait_eq (hs : self.providerSvc = true) :
    sWait (some (.userClient self)) (some a)
      = (fun kr => (kr, some (waitRequest a).2)) <$> XeService.ucWait (waitTimeoutMs a) := by
  unfold sWait
  rw [checked_eq a _ hs]
  rfl

theorem sReadRegs_eq (hs : self.providerSvc = true) :
    sReadRegs (some (.userClient self)) (some a)
      = (fun r => (r.1, some (regsOut a 8 r))) <$> XeService.ucReadRegs 8 := by
  unfold sReadRegs
  rw [checked_eq a _ hs]
  unfold regsOut
  simp only [← bind_pure_comp, bind_assoc]
  refine bind_congr fun r => ?_
  obtain ⟨kr, tmp⟩ := r
  dsimp only
  have : (if tmp.length < 8 then tmp.length else 8) = if 8 < tmp.length then 8 else tmp.length := by
    split_ifs <;> omega
  rw [this]
  split <;> rfl

end Handlers

/-- The selectors of the table. -/
theorem selector_cases {k : UInt32} (h : k.toNat < sMethods.length) :
    k = 0 ∨ k = 1 ∨ k = 2 ∨ k = 3 ∨ k = 4 ∨ k = 5 := by
  have h6 : k.toNat < 6 := h
  simp only [← UInt32.toNat_inj, UInt32.reduceToNat]
  omega

end XeUserClient

/-! ## Runs -/

/-- A call a client makes. -/
structure Call where
  /-- The client that makes it. -/
  client : XeUserClient
  /-- The selector. -/
  selector : UInt32
  /-- The argument record, or null. -/
  args : Option IOExternalMethodArguments

/-- The program of a call. -/
def Call.prog (c : Call) : Kext (IOReturn × Option IOExternalMethodArguments) :=
  c.client.externalMethod c.selector c.args

/-- **The call is accepted for the entry `k`** of the table: the client has
its service, the record is there, and its counts are the entry's. -/
structure Call.Accepted (c : Call) (k inCount outCount : UInt32)
    (a : IOExternalMethodArguments) : Prop where
  selector : c.selector = k
  providerSvc : c.client.providerSvc = true
  args : c.args = some a
  inputs : a.scalarInputCount = inCount
  outputs : a.scalarOutputCount = outCount

/-- The registers an entry of the table reads. -/
def XeUserClient.regsOf (k : UInt32) : List UInt32 :=
  if k = kMethodReadReg then XeService.kSafeOffs.take 8
  else if k = kMethodGetGTConfig then XeService.gtConfigRegs
  else if k = kMethodGetDisplayInfo then XeService.displayInfoRegs
  else []

/-- **The ways a call goes**: it is refused before a method of the service
is entered, or it is one method of the service and a record filled from
its result – with no output touched unless the result is a success. -/
inductive Call.Way (c : Call) : Prop
  | refused (kr : IOReturn) (hkr : kr ≠ .success) (hp : c.prog = return (kr, c.args))
  | createBuffer (a : IOExternalMethodArguments) (hc : c.Accepted 0 1 1 a) (bytes : UInt32)
      (hp : c.prog = (fun r => (r.1, some (XeUserClient.cookieOut a r)))
        <$> XeService.ucCreateBuffer bytes)
  | submit (a : IOExternalMethodArguments) (hc : c.Accepted 1 0 0 a)
      (hp : c.prog = (fun kr => (kr, some a)) <$> XeService.ucSubmitNoop)
  | wait (a : IOExternalMethodArguments) (hc : c.Accepted 2 1 0 a) (timeoutMs : UInt32)
      (hp : c.prog = (fun kr => (kr, some (XeUserClient.waitRequest a).2))
        <$> XeService.ucWait timeoutMs)
  | readList (a : IOExternalMethodArguments) (k : UInt32) (hk : k = 3 ∨ k = 4 ∨ k = 5)
      (hc : c.Accepted k 0 8 a) (out : IOReturn × List UInt32 → IOExternalMethodArguments)
      (hout : ∀ r, r.1 ≠ .success → a.SameOutputs (out r))
      (hp : c.prog
        = (fun r => (r.1, some (out r))) <$> XeService.readList (XeUserClient.regsOf k))

namespace Call

open XeUserClient

/-- A record that does not have the counts of its entry is refused. -/
theorem prog_of_badCounts {c : Call} {a : IOExternalMethodArguments}
    (h : c.selector.toNat < sMethods.length) (ha : c.args = some a)
    (hcount : ¬(a.scalarInputCount = (sMethods.get ⟨c.selector.toNat, h⟩).checkScalarInputCount
      ∧ a.scalarOutputCount = (sMethods.get ⟨c.selector.toNat, h⟩).checkScalarOutputCount)) :
    c.prog = return (.badArgument, c.args) := by
  unfold prog externalMethod IOUserClient.externalMethod
  rw [dif_pos h, ha]
  exact if_neg hcount

/-- Otherwise the entry's handler is entered. -/
theorem prog_of_counts {c : Call} {a : IOExternalMethodArguments}
    (h : c.selector.toNat < sMethods.length) (ha : c.args = some a)
    (hcount : a.scalarInputCount = (sMethods.get ⟨c.selector.toNat, h⟩).checkScalarInputCount
      ∧ a.scalarOutputCount = (sMethods.get ⟨c.selector.toNat, h⟩).checkScalarOutputCount) :
    c.prog = (sMethods.get ⟨c.selector.toNat, h⟩).function
      (some (.userClient c.client)) (some a) := by
  unfold prog externalMethod IOUserClient.externalMethod
  rw [dif_pos h, ha]
  exact if_pos hcount

/-- An accepted `kMethodCreateBuffer` is the method `ucCreateBuffer`. -/
theorem Accepted.prog_createBuffer {c : Call} {a : IOExternalMethodArguments}
    (hc : c.Accepted 0 1 1 a) :
    c.prog = (fun r => (r.1, some (cookieOut a r)))
      <$> XeService.ucCreateBuffer (createBytes a) := by
  obtain ⟨client, selector, args⟩ := c
  obtain ⟨rfl, hs, ha, hin, hout⟩ := hc
  exact (prog_of_counts (show (0 : UInt32).toNat < 6 by decide) ha ⟨hin, hout⟩).trans
    (sCreateBuffer_eq a hs)

/-- An accepted `kMethodSubmit` is the method `ucSubmitNoop`. -/
theorem Accepted.prog_submit {c : Call} {a : IOExternalMethodArguments}
    (hc : c.Accepted 1 0 0 a) :
    c.prog = (fun kr => (kr, some a)) <$> XeService.ucSubmitNoop := by
  obtain ⟨client, selector, args⟩ := c
  obtain ⟨rfl, hs, ha, hin, hout⟩ := hc
  exact (prog_of_counts (show (1 : UInt32).toNat < 6 by decide) ha ⟨hin, hout⟩).trans
    (sSubmit_eq a hs)

/-- An accepted `kMethodWait` is the method `ucWait`. -/
theorem Accepted.prog_wait {c : Call} {a : IOExternalMethodArguments}
    (hc : c.Accepted 2 1 0 a) :
    c.prog = (fun kr => (kr, some (waitRequest a).2)) <$> XeService.ucWait (waitTimeoutMs a) := by
  obtain ⟨client, selector, args⟩ := c
  obtain ⟨rfl, hs, ha, hin, hout⟩ := hc
  exact (prog_of_counts (show (2 : UInt32).toNat < 6 by decide) ha ⟨hin, hout⟩).trans
    (sWait_eq a hs)

/-- An accepted call of an entry that reads registers is `readList`, and the
caller has room for 8 of them. -/
theorem Accepted.prog_readList {c : Call} {a : IOExternalMethodArguments} {k : UInt32}
    (hk : k = 3 ∨ k = 4 ∨ k = 5) (hc : c.Accepted k 0 8 a) :
    c.prog = (fun r => (r.1, some (regsOut a 8 r))) <$> XeService.readList (regsOf k) := by
  have hroom : regsOut a 8 = regsOut a a.scalarOutputCount.toNat := by
    rw [hc.outputs]
    rfl
  obtain ⟨client, selector, args⟩ := c
  rcases hk with rfl | rfl | rfl <;> obtain ⟨rfl, hs, ha, hin, hout⟩ := hc
  · exact (prog_of_counts (show (3 : UInt32).toNat < 6 by decide) ha ⟨hin, hout⟩).trans
      (sReadRegs_eq a hs)
  · rw [hroom]
    exact (prog_of_counts (show (4 : UInt32).toNat < 6 by decide) ha ⟨hin, hout⟩).trans
      (checked_copyRecord_eq a _ hs)
  · rw [hroom]
    exact (prog_of_counts (show (5 : UInt32).toNat < 6 by decide) ha ⟨hin, hout⟩).trans
      (checked_copyRecord_eq a _ hs)

/-- Every entry refuses a client without its service. -/
theorem function_of_noProvider {self : XeUserClient} (hs : self.providerSvc = false)
    {d : IOExternalMethodDispatch} (hd : d ∈ sMethods) (a : IOExternalMethodArguments) :
    d.function (some (.userClient self)) (some a) = return (.notReady, some a) := by
  simp only [sMethods, List.mem_cons, List.not_mem_nil, or_false] at hd
  rcases hd with rfl | rfl | rfl | rfl | rfl | rfl
  all_goals
    simp only [sCreateBuffer, sSubmit, sWait, sReadRegs, sGetGTConfig, sGetDisplayInfo,
      checked, OSObject.asUserClient, hs, Bool.not_false, if_true]

/-- **Every call goes one of the ways.** -/
theorem way (c : Call) : c.Way := by
  by_cases h : c.selector.toNat < sMethods.length
  swap
  · refine .refused .unsupported (by decide) ?_
    unfold prog externalMethod
    exact dif_neg h
  cases ha : c.args with
  | none =>
    refine .refused .badArgument (by decide) ?_
    unfold prog externalMethod
    rw [dif_pos h, ha]
  | some a =>
    by_cases hcount : a.scalarInputCount
          = (sMethods.get ⟨c.selector.toNat, h⟩).checkScalarInputCount
        ∧ a.scalarOutputCount = (sMethods.get ⟨c.selector.toNat, h⟩).checkScalarOutputCount
    swap
    · exact .refused .badArgument (by decide) (prog_of_badCounts h ha hcount)
    have hprog := prog_of_counts h ha hcount
    cases hs : c.client.providerSvc with
    | false =>
      refine .refused .notReady (by decide) ?_
      rw [hprog, ha]
      exact function_of_noProvider hs (List.get_mem _ _) a
    | true =>
      have haccepted : c.Accepted c.selector _ _ a := ⟨rfl, hs, ha, hcount.1, hcount.2⟩
      have hreads (k : UInt32) (hk : k = 3 ∨ k = 4 ∨ k = 5) (hc : c.Accepted k 0 8 a) : c.Way :=
        .readList a k hk hc _ (sameOutputs_regsOut a 8) (hc.prog_readList hk)
      obtain ⟨client, selector, args⟩ := c
      rcases selector_cases h with rfl | rfl | rfl | rfl | rfl | rfl
      · exact .createBuffer a haccepted _ haccepted.prog_createBuffer
      · exact .submit a haccepted haccepted.prog_submit
      · exact .wait a haccepted _ haccepted.prog_wait
      · exact hreads 3 (by decide) haccepted
      · exact hreads 4 (by decide) haccepted
      · exact hreads 5 (by decide) haccepted

end Call

/-- The calls of the clients, one after another, with what each returned. -/
def serve (calls : List Call) :
    Kext (List (IOReturn × Option IOExternalMethodArguments)) :=
  calls.mapM Call.prog

/-- **One life of the driver**: `init`, `start`, the clients' calls and
`stop`. The calls are made whatever `start` returned. -/
def session (calls : List Call) :
    Kext (List (IOReturn × Option IOExternalMethodArguments)) := do
  let _ok ← XeService.init
  let _started ← XeService.start
  let results ← serve calls
  XeService.stop
  return results

/-- The boot flags a platform's boot argument sets. -/
def Platform.flags (P : Platform) : XeBootFlags :=
  (XeService.init.run (exec P) .fresh).2.gXeBoot
