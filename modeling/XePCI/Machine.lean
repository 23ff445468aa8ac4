import XePCI.Pool
import XePCI.RefLog
import XePCI.HwOffsets
import XePCI.BootArgs

/-!
# The machine the driver runs on

The driver is a program over the requests it makes of everything outside
its own control flow: the fields of its service object, the mapped BAR,
the kernel's objects and the PCI device. `KextOp` is that signature, `Kext`
the programs over it, and `exec` the handler that answers a request on a
`Machine`, given a `Platform` that decides what the driver cannot: what the
hardware answers, which allocations succeed, what the boot argument says.

Two logs make up most of the machine. `hist` is the history of the mapped
BAR – the dword reads and writes, with the accessor each went through, and
the moments at which a forcewake guard learns whether it was acknowledged –
and the device answers a read as a function of it, so that any device
whatsoever is one of these. `objLog` is what was done to the buffer
descriptors. Both are newest first.

A request is one step. For the calls on the registry and for `readRegSafe`
that is an assumption, which the results about several threads rest on:
`setObject`, `getCount` and `getObject` are each taken to be atomic, though
`OSArray` promises nothing to threads that share an array, and the checks of
`readRegSafe` are taken together with the access after them.

The driver calls through pointers that a shutdown clears. A call through the
null registry, or an access through a mapping that was given back, does not
return; the machine answers it all the same, with `false`, `0` or what the
hardware would say. What is said about threads that a shutdown may overtake is
therefore said of schedules in which this does not happen, or is about its not
happening.

The kernel's log is not modelled, but for the line in which `ucWait` names the
time it was given: the line is all there is to that method. Neither is the
delay between two polls.
-/

/-- The results the driver's methods return, `IOReturn`. -/
inductive IOReturn where
  | success
  | notReady
  | noResources
  | badArgument
  | unsupported
  | noMemory
  | noSpace
  deriving DecidableEq, Repr

/-- A buffer descriptor, by the order of its creation. -/
abbrev ObjId := ℕ

/-- A mapping of device memory, `IOMemoryMap`. -/
structure IOMemoryMap where
  /-- `getLength`. -/
  length : UInt64
  /-- `getVirtualAddress`; `0` is the null address. -/
  virtualAddress : UInt64
  deriving DecidableEq, Repr

/-- **An `OSArray` of descriptors.** Its count is an `unsigned int`, so an
array that would need more is not built: adding to it fails. -/
structure OSArray where
  /-- The members, in the order they were added. -/
  objs : List ObjId
  /-- The count fits its type. -/
  count_lt : objs.length < UInt32.size

/-- The array `withCapacity` creates. -/
def OSArray.empty : OSArray := ⟨[], by decide⟩

/-- The array with one more member, if its count can hold one more. -/
def OSArray.push? (a : OSArray) (x : ObjId) : Option OSArray :=
  if h : a.objs.length + 1 < UInt32.size then
    some ⟨a.objs ++ [x], by simpa using h⟩
  else none

theorem OSArray.objs_of_push {a a' : OSArray} {x : ObjId} (h : a.push? x = some a') :
    a'.objs = a.objs ++ [x] := by
  unfold push? at h
  split at h <;> cases h
  rfl

theorem OSArray.length_of_push {a a' : OSArray} {x : ObjId} (h : a.push? x = some a') :
    a'.objs.length = a.objs.length + 1 := by
  rw [objs_of_push h, List.length_append]
  rfl

/-- `getCount`. -/
def OSArray.getCount (a : OSArray) : UInt32 := UInt32.ofNat a.objs.length

/-- The count is not wrapped. -/
theorem OSArray.toNat_getCount (a : OSArray) : a.getCount.toNat = a.objs.length :=
  UInt32.toNat_ofNat_of_lt a.count_lt

/-- A buffer: the length it was created with and the dwords written to its
start. -/
structure Buffer where
  /-- `getLength`. -/
  length : UInt64
  /-- The dwords stored so far, from the start of the buffer. -/
  cmds : List UInt32
  deriving DecidableEq, Repr

/-- The accessor a dword access goes through. -/
inductive AccessPath where
  /-- `XeService::readReg`. -/
  | readReg
  /-- The `mmio[...]` reads in `XeService::start`. -/
  | startRaw
  /-- `XeGGTT::safeRead`. -/
  | ggttSafeRead
  /-- `safeRd` of `XeCommandStream.cpp`. -/
  | csSafeRd
  /-- `ForcewakeGuard::rd` and `ForcewakeGuard::wr`. -/
  | guardRdWr
  deriving DecidableEq, Repr

/-- What happens at the mapped BAR. -/
inductive MmioEvent where
  /-- A dword read at an offset, with what the hardware answered. -/
  | read (path : AccessPath) (off val : UInt32)
  /-- A dword write at an offset. -/
  | write (path : AccessPath) (off val : UInt32)
  /-- A guard's `acquire` ends, and `acquired` is what it says. -/
  | guardOutcome (acquired : Bool)
  deriving DecidableEq, Repr

/-- **What the driver cannot decide**: the outcomes of the calls it makes
and the answers of the hardware. -/
structure Platform where
  /-- `IOService::init`. -/
  superInit : Bool
  /-- The boot argument, if `PE_parse_boot_argn` finds one. -/
  bootArg : Option BootArg
  /-- `IOService::start`. -/
  superStart : Bool
  /-- Whether the provider is an `IOPCIDevice`. -/
  providerIsPci : Bool
  /-- `mapDeviceMemoryWithRegister`. -/
  bar0 : Option IOMemoryMap
  /-- Whether `OSArray::withCapacity` succeeds. -/
  withCapacityOk : Bool
  /-- What a dword read at an offset answers, after a history. -/
  hw : List MmioEvent → UInt32 → UInt32
  /-- Whether the `n`-th `IOBufferMemoryDescriptor::withOptions` succeeds. -/
  withOptionsOk : ℕ → Bool
  /-- `getBytesNoCopy` of a descriptor; `0` is the null address. -/
  bytesNoCopy : ObjId → UInt64
  /-- Whether the `n`-th `OSArray::setObject` finds room. -/
  setObjectOk : ℕ → Bool

/-- **The state of the driver and its surroundings.** -/
structure Machine where
  /-- The global boot flags. -/
  gXeBoot : XeBootFlags := {}
  /-- Whether the field `pci` is set. -/
  pci : Bool := false
  /-- The field `bar0`. -/
  bar0 : Option IOMemoryMap := none
  /-- The field `mmio`; `0` is null. -/
  mmio : UInt64 := 0
  /-- The field `bar0Length`. -/
  bar0Length : UInt64 := 0
  /-- The array the field `m_boList` points to. -/
  boList : Option OSArray := none
  /-- The memory-space bit of the PCI function. -/
  memoryEnable : Bool := false
  /-- The I/O-space bit of the PCI function. -/
  ioEnable : Bool := false
  /-- The bus-master bit of the PCI function. -/
  busMasterEnable : Bool := false
  /-- The references held on BAR0 mappings. -/
  bar0Refs : ℕ := 0
  /-- How many descriptor allocations were tried. -/
  withOptionsCalls : ℕ := 0
  /-- The buffers created, a descriptor being a position in this list. -/
  buffers : List Buffer := []
  /-- How many additions to an array were tried. -/
  setObjectCalls : ℕ := 0
  /-- What was done to the descriptors, newest first. -/
  objLog : List (RefEvent ObjId) := []
  /-- What was done at the mapped BAR, newest first. -/
  hist : List MmioEvent := []

/-- The machine before the driver is loaded. -/
def Machine.fresh : Machine := {}

/-- A platform on which nothing fails: a BAR of 16 MiB that reads as `0`
everywhere, and no boot argument. -/
def Platform.ideal : Platform where
  superInit := true
  bootArg := none
  superStart := true
  providerIsPci := true
  bar0 := some ⟨0x1000000, 0x1000⟩
  withCapacityOk := true
  hw := fun _ _ => 0
  withOptionsOk := fun _ => true
  bytesNoCopy := fun _ => 0x1000
  setObjectOk := fun _ => true

/-- The platform with other hardware. -/
def Platform.withHw (P : Platform) (hw : List MmioEvent → UInt32 → UInt32) : Platform :=
  { P with hw := hw }

/-- The platform with a BAR0 of another length. -/
def Platform.withBar (P : Platform) (L : UInt64) : Platform :=
  { P with bar0 := some ⟨L, 0x1000⟩ }

/-! ## Requests -/

/-- **The requests the driver makes.** -/
inductive KextOp where
  | superInit
  | peParseBootArgn
  | loadBoot
  | storeBoot (g : XeBootFlags)
  | superStart
  | castProvider
  | setPci (b : Bool)
  | hasPci
  | setMemoryEnable (b : Bool)
  | setIoEnable (b : Bool)
  | setBusMasterEnable (b : Bool)
  | mapBar0
  | releaseBar0
  | setBar0 (map : Option IOMemoryMap)
  | hasBar0
  | setBar0Length (n : UInt64)
  | setMmio (p : UInt64)
  | getMmio
  | withCapacity (n : UInt32)
  | setBoList (a : Option OSArray)
  | hasBoList
  | releaseArray
  | setObject (md : ObjId)
  | getCount
  | getObject (i : UInt32)
  | withOptions (capacity : UInt32)
  | release (md : ObjId)
  | getBytesNoCopy (md : ObjId)
  | getLength (md : ObjId)
  | writeCmds (md : ObjId) (cmds : List UInt32)
  | readRegSafe (off : UInt32)
  | mmioRead (path : AccessPath) (m : UInt64) (off : UInt32)
  | mmioWrite (path : AccessPath) (m : UInt64) (off val : UInt32)
  | guardOutcome (acquired : Bool)
  | logWait (timeoutMs : UInt32)

/-- The type of the answer to a request. -/
@[reducible] def KextOp.Resp : KextOp → Type
  | superInit | superStart | castProvider | hasPci | hasBar0 | hasBoList => Bool
  | peParseBootArgn => Option BootArg
  | loadBoot => XeBootFlags
  | mapBar0 => Option IOMemoryMap
  | getMmio => UInt64
  | withCapacity _ => Option OSArray
  | setObject _ => Bool
  | getCount => UInt32
  | getObject _ => Option ObjId
  | withOptions _ => Option ObjId
  | getBytesNoCopy _ | getLength _ => UInt64
  | readRegSafe _ | mmioRead _ _ _ => UInt32
  | storeBoot _ | setPci _ | setMemoryEnable _ | setIoEnable _
  | setBusMasterEnable _ | releaseBar0 | setBar0 _ | setBar0Length _ | setMmio _
  | setBoList _ | releaseArray | release _ | writeCmds _ _ | mmioWrite _ _ _ _
  | guardOutcome _ | logWait _ => Unit

/-- **The driver's programs.** -/
abbrev Kext : Type → Type := Prog KextOp KextOp.Resp

/-- A pool of driver programs on one machine. -/
abbrev KextPool (α ι : Type) : Type := Pool KextOp KextOp.Resp Machine α ι

/-! ## What a request does -/

namespace Machine

/-- A dword read of the mapping. -/
def readDword (P : Platform) (path : AccessPath) (off : UInt32) (s : Machine) :
    UInt32 × Machine :=
  (P.hw s.hist off, { s with hist := .read path off (P.hw s.hist off) :: s.hist })

/-- **`XeService::readRegSafe`**: the null check, the two range checks and
the access, which are taken to be one step. -/
def readRegSafe (P : Platform) (off : UInt32) (s : Machine) : UInt32 × Machine :=
  if s.mmio = 0 then (kSentinelNullMmio, s)
  else if kMaxSafeMmioOffset < off then (kSentinelOutOfRange, s)
  else if 0 < s.bar0Length ∧ s.bar0Length ≤ off.toUInt64 then (kSentinelOutOfRange, s)
  else s.readDword P .readReg off

/-- `IOBufferMemoryDescriptor::withOptions`: a descriptor with one
reference, if the allocation succeeds. -/
def withOptions (P : Platform) (capacity : UInt32) (s : Machine) :
    Option ObjId × Machine :=
  let s' := { s with withOptionsCalls := s.withOptionsCalls + 1 }
  if P.withOptionsOk s.withOptionsCalls then
    (some s.buffers.length,
      { s' with
        buffers := s.buffers ++ [⟨capacity.toUInt64, []⟩]
        objLog := .alloc s.buffers.length :: s.objLog })
  else (none, s')

/-- `OSArray::setObject` on the registry, taken to be one step: appended and
retained, or refused with nothing done. -/
def setObject (P : Platform) (md : ObjId) (s : Machine) : Bool × Machine :=
  let s' := { s with setObjectCalls := s.setObjectCalls + 1 }
  match s.boList.bind (fun a => a.push? md) with
  | some a =>
    if P.setObjectOk s.setObjectCalls then
      (true, { s' with boList := some a, objLog := .retain md :: s.objLog })
    else (false, s')
  | none => (false, s')

/-- `getObject` with the `OSDynamicCast` that follows it everywhere: the
cast looks at the member. -/
def getObject (i : UInt32) (s : Machine) : Option ObjId × Machine :=
  match s.boList.bind (fun a => a.objs[i.toNat]?) with
  | some md => (some md, { s with objLog := .use md :: s.objLog })
  | none => (none, s)

/-- The release of the registry's last reference: it releases each member
once. -/
def releaseArray (s : Machine) : Machine :=
  { s with
    objLog := ((s.boList.elim [] OSArray.objs).map RefEvent.release).reverse ++ s.objLog }

end Machine

/-- **The answer to a request, and what the request does to the machine.** -/
def exec (P : Platform) : (o : KextOp) → Machine → o.Resp × Machine
  | .superInit, s => (P.superInit, s)
  | .peParseBootArgn, s => (P.bootArg, s)
  | .loadBoot, s => (s.gXeBoot, s)
  | .storeBoot g, s => ((), { s with gXeBoot := g })
  | .superStart, s => (P.superStart, s)
  | .castProvider, s => (P.providerIsPci, s)
  | .setPci b, s => ((), { s with pci := b })
  | .hasPci, s => (s.pci, s)
  | .setMemoryEnable b, s => ((), { s with memoryEnable := b })
  | .setIoEnable b, s => ((), { s with ioEnable := b })
  | .setBusMasterEnable b, s => ((), { s with busMasterEnable := b })
  | .mapBar0, s =>
    (P.bar0, { s with bar0Refs := s.bar0Refs + if P.bar0.isSome then 1 else 0 })
  | .releaseBar0, s => ((), { s with bar0Refs := s.bar0Refs - 1 })
  | .setBar0 map, s => ((), { s with bar0 := map })
  | .hasBar0, s => (s.bar0.isSome, s)
  | .setBar0Length n, s => ((), { s with bar0Length := n })
  | .setMmio p, s => ((), { s with mmio := p })
  | .getMmio, s => (s.mmio, s)
  | .withCapacity _, s => (if P.withCapacityOk then some .empty else none, s)
  | .setBoList a, s => ((), { s with boList := a })
  | .hasBoList, s => (s.boList.isSome, s)
  | .releaseArray, s => ((), s.releaseArray)
  | .setObject md, s => s.setObject P md
  | .getCount, s => (s.boList.elim 0 OSArray.getCount, s)
  | .getObject i, s => s.getObject i
  | .withOptions capacity, s => s.withOptions P capacity
  | .release md, s => ((), { s with objLog := .release md :: s.objLog })
  | .getBytesNoCopy md, s => (P.bytesNoCopy md, { s with objLog := .use md :: s.objLog })
  | .getLength md, s =>
    ((s.buffers[md]?).elim 0 Buffer.length, { s with objLog := .use md :: s.objLog })
  | .writeCmds md cmds, s =>
    ((), { s with
      buffers := s.buffers.modify md (fun b => { b with cmds := cmds })
      objLog := .use md :: s.objLog })
  | .readRegSafe off, s => s.readRegSafe P off
  | .mmioRead path _ off, s => s.readDword P path off
  | .mmioWrite path _ off val, s => ((), { s with hist := .write path off val :: s.hist })
  | .guardOutcome acquired, s =>
    ((), { s with hist := .guardOutcome acquired :: s.hist })
  | .logWait _, s => ((), s)

/-! ## One equation per request

`exec` is never unfolded: programs are run by these. -/

section Exec

variable (P : Platform) (s : Machine)

@[simp] theorem exec_superInit : exec P .superInit s = (P.superInit, s) := by rfl

@[simp] theorem exec_peParseBootArgn :
    exec P .peParseBootArgn s = (P.bootArg, s) := by rfl

@[simp] theorem exec_loadBoot : exec P .loadBoot s = (s.gXeBoot, s) := by rfl

@[simp] theorem exec_storeBoot (g : XeBootFlags) :
    exec P (.storeBoot g) s = ((), { s with gXeBoot := g }) := by rfl

@[simp] theorem exec_superStart : exec P .superStart s = (P.superStart, s) := by rfl

@[simp] theorem exec_castProvider :
    exec P .castProvider s = (P.providerIsPci, s) := by rfl

@[simp] theorem exec_setPci (b : Bool) :
    exec P (.setPci b) s = ((), { s with pci := b }) := by rfl

@[simp] theorem exec_hasPci : exec P .hasPci s = (s.pci, s) := by rfl

@[simp] theorem exec_setMemoryEnable (b : Bool) :
    exec P (.setMemoryEnable b) s = ((), { s with memoryEnable := b }) := by rfl

@[simp] theorem exec_setIoEnable (b : Bool) :
    exec P (.setIoEnable b) s = ((), { s with ioEnable := b }) := by rfl

@[simp] theorem exec_setBusMasterEnable (b : Bool) :
    exec P (.setBusMasterEnable b) s
      = ((), { s with busMasterEnable := b }) := by rfl

@[simp] theorem exec_mapBar0 :
    exec P .mapBar0 s
      = (P.bar0, { s with bar0Refs := s.bar0Refs + if P.bar0.isSome then 1 else 0 }) := by rfl

@[simp] theorem exec_releaseBar0 :
    exec P .releaseBar0 s = ((), { s with bar0Refs := s.bar0Refs - 1 }) := by rfl

@[simp] theorem exec_setBar0 (map : Option IOMemoryMap) :
    exec P (.setBar0 map) s = ((), { s with bar0 := map }) := by rfl

@[simp] theorem exec_hasBar0 : exec P .hasBar0 s = (s.bar0.isSome, s) := by rfl

@[simp] theorem exec_setBar0Length (n : UInt64) :
    exec P (.setBar0Length n) s = ((), { s with bar0Length := n }) := by rfl

@[simp] theorem exec_setMmio (p : UInt64) :
    exec P (.setMmio p) s = ((), { s with mmio := p }) := by rfl

@[simp] theorem exec_getMmio : exec P .getMmio s = (s.mmio, s) := by rfl

@[simp] theorem exec_withCapacity (n : UInt32) :
    exec P (.withCapacity n) s
      = (if P.withCapacityOk then some .empty else none, s) := by rfl

@[simp] theorem exec_setBoList (a : Option OSArray) :
    exec P (.setBoList a) s = ((), { s with boList := a }) := by rfl

@[simp] theorem exec_hasBoList :
    exec P .hasBoList s = (s.boList.isSome, s) := by rfl

@[simp] theorem exec_releaseArray :
    exec P .releaseArray s = ((), s.releaseArray) := by rfl

@[simp] theorem exec_setObject (md : ObjId) :
    exec P (.setObject md) s = s.setObject P md := by rfl

@[simp] theorem exec_getCount :
    exec P .getCount s = (s.boList.elim 0 OSArray.getCount, s) := by rfl

@[simp] theorem exec_getObject (i : UInt32) :
    exec P (.getObject i) s = s.getObject i := by rfl

@[simp] theorem exec_withOptions (capacity : UInt32) :
    exec P (.withOptions capacity) s = s.withOptions P capacity := by rfl

@[simp] theorem exec_release (md : ObjId) :
    exec P (.release md) s
      = ((), { s with objLog := .release md :: s.objLog }) := by rfl

@[simp] theorem exec_getBytesNoCopy (md : ObjId) :
    exec P (.getBytesNoCopy md) s
      = (P.bytesNoCopy md, { s with objLog := .use md :: s.objLog }) := by rfl

@[simp] theorem exec_getLength (md : ObjId) :
    exec P (.getLength md) s
      = ((s.buffers[md]?).elim 0 Buffer.length, { s with objLog := .use md :: s.objLog }) := by rfl

@[simp] theorem exec_writeCmds (md : ObjId) (cmds : List UInt32) :
    exec P (.writeCmds md cmds) s
      = ((), { s with
        buffers := s.buffers.modify md (fun b => { b with cmds := cmds })
        objLog := .use md :: s.objLog }) := by rfl

@[simp] theorem exec_readRegSafe (off : UInt32) :
    exec P (.readRegSafe off) s = s.readRegSafe P off := by rfl

@[simp] theorem exec_mmioRead (path : AccessPath) (m : UInt64) (off : UInt32) :
    exec P (.mmioRead path m off) s = s.readDword P path off := by rfl

@[simp] theorem exec_mmioWrite (path : AccessPath) (m : UInt64) (off val : UInt32) :
    exec P (.mmioWrite path m off val) s
      = ((), { s with hist := .write path off val :: s.hist }) := by rfl

@[simp] theorem exec_guardOutcome (acquired : Bool) :
    exec P (.guardOutcome acquired) s
      = ((), { s with hist := .guardOutcome acquired :: s.hist }) := by rfl

@[simp] theorem exec_logWait (timeoutMs : UInt32) :
    exec P (.logWait timeoutMs) s = ((), s) := by rfl

end Exec

/-! ## The requests with several outcomes

As one change of the machine, whatever the outcome is, from which what they
leave alone can be read off; and the outcomes one by one. -/

section Outcomes

variable (P : Platform) (s : Machine)

/-- The registry with one more member, if it is there and finds room. -/
def Machine.entered (md : ObjId) : Option OSArray :=
  (s.boList.bind fun a => a.push? md).filter fun _ => P.setObjectOk s.setObjectCalls

theorem setObject_eq (md : ObjId) :
    exec P (.setObject md) s = ((s.entered P md).isSome,
      { s with
        setObjectCalls := s.setObjectCalls + 1
        boList := (s.entered P md).or s.boList
        objLog := if (s.entered P md).isSome then .retain md :: s.objLog else s.objLog }) := by
  rw [exec_setObject, Machine.setObject, Machine.entered]
  cases s.boList.bind fun a => a.push? md with
  | none => rfl
  | some a => cases P.setObjectOk s.setObjectCalls <;> rfl

theorem getObject_eq (i : UInt32) :
    exec P (.getObject i) s = (s.boList.bind fun a => a.objs[i.toNat]?,
      { s with
        objLog := ((s.boList.bind fun a => a.objs[i.toNat]?).map RefEvent.use).toList
          ++ s.objLog }) := by
  rw [exec_getObject, Machine.getObject]
  cases s.boList.bind fun a => a.objs[i.toNat]? <;> rfl

theorem withOptions_eq (capacity : UInt32) :
    exec P (.withOptions capacity) s
      = (if P.withOptionsOk s.withOptionsCalls then some s.buffers.length else none,
        { s with
          withOptionsCalls := s.withOptionsCalls + 1
          buffers := if P.withOptionsOk s.withOptionsCalls
            then s.buffers ++ [⟨capacity.toUInt64, []⟩] else s.buffers
          objLog := if P.withOptionsOk s.withOptionsCalls
            then .alloc s.buffers.length :: s.objLog else s.objLog }) := by
  rw [exec_withOptions, Machine.withOptions]
  split <;> rfl

/-- What `readRegSafe` returns instead of a register, if it does. -/
def Machine.sentinel (off : UInt32) : Option UInt32 :=
  if s.mmio = 0 then some kSentinelNullMmio
  else if kMaxSafeMmioOffset < off then some kSentinelOutOfRange
  else if 0 < s.bar0Length ∧ s.bar0Length ≤ off.toUInt64 then some kSentinelOutOfRange
  else none

theorem readRegSafe_eq (off : UInt32) :
    exec P (.readRegSafe off) s = ((s.sentinel off).getD (P.hw s.hist off),
      { s with
        hist := if (s.sentinel off).isSome then s.hist
          else .read .readReg off (P.hw s.hist off) :: s.hist }) := by
  rw [exec_readRegSafe, Machine.readRegSafe, Machine.sentinel]
  split
  · rfl
  · split
    · rfl
    · split <;> rfl

/-- A sentinel is returned and nothing happens, or the register is read. -/
theorem readRegSafe_cases (off : UInt32) :
    (∃ v, exec P (.readRegSafe off) s = (v, s))
      ∨ s.sentinel off = none ∧ exec P (.readRegSafe off) s = s.readDword P .readReg off := by
  rw [readRegSafe_eq]
  cases s.sentinel off with
  | none => exact Or.inr ⟨rfl, rfl⟩
  | some v => exact Or.inl ⟨v, rfl⟩

/-- A register that is read lies in the BAR. -/
theorem Machine.lt_length_of_sentinel {off : UInt32} (h : s.sentinel off = none)
    (hlen : s.bar0Length ≠ 0) : off.toUInt64 < s.bar0Length := by
  unfold sentinel at h
  split_ifs at h with _ _ hpast
  exact UInt64.not_le.mp fun hle => hpast ⟨UInt64.pos_iff_ne_zero.mpr hlen, hle⟩

/-- A descriptor is entered, or nothing happens. -/
theorem setObject_cases (md : ObjId) :
    exec P (.setObject md) s = (false, { s with setObjectCalls := s.setObjectCalls + 1 })
      ∨ ∃ a a', s.boList = some a ∧ a.push? md = some a'
        ∧ exec P (.setObject md) s = (true,
          { s with
            setObjectCalls := s.setObjectCalls + 1
            boList := some a'
            objLog := .retain md :: s.objLog }) := by
  rw [exec_setObject, Machine.setObject]
  split
  · rename_i a' hpush
    obtain ⟨a, ha, hpush⟩ := Option.bind_eq_some_iff.mp hpush
    split
    · exact Or.inr ⟨a, a', ha, hpush, rfl⟩
    · exact Or.inl rfl
  · exact Or.inl rfl

/-- An allocation fails, or gives a buffer of its own. -/
theorem withOptions_cases (capacity : UInt32) :
    exec P (.withOptions capacity) s
        = (none, { s with withOptionsCalls := s.withOptionsCalls + 1 })
      ∨ exec P (.withOptions capacity) s = (some s.buffers.length,
        { s with
          withOptionsCalls := s.withOptionsCalls + 1
          buffers := s.buffers ++ [⟨capacity.toUInt64, []⟩]
          objLog := .alloc s.buffers.length :: s.objLog }) := by
  rw [exec_withOptions, Machine.withOptions]
  split
  · exact Or.inr rfl
  · exact Or.inl rfl

end Outcomes

/-- The program that makes one request. -/
abbrev req (o : KextOp) : Kext o.Resp := Prog.perform o

/-- The body the three accessors outside `XeService` have in common: the
null check and the check against the largest safe offset, with no look at
the length of the BAR. -/
def checkedRead (path : AccessPath) (m : UInt64) (off : UInt32) : Kext UInt32 := do
  if m = 0 then return kSentinelNullMmio
  if kMaxSafeMmioOffset < off then return kSentinelOutOfRange
  req (.mmioRead path m off)

/-- On a mapping, an offset within the limit is read. -/
theorem run_checkedRead (P : Platform) (s : Machine) (path : AccessPath) {m : UInt64}
    (hm : m ≠ 0) {off : UInt32} (hoff : ¬kMaxSafeMmioOffset < off) :
    (checkedRead path m off).run (exec P) s = s.readDword P path off := by
  unfold checkedRead
  rw [if_neg hm, if_neg hoff]
  exact Prog.run_perform _ _ _

/-! ## Registers read one after another -/

/-- The reads of registers one after another, after a history, oldest
first: the hardware answers each in view of those before it. -/
def Platform.reads (P : Platform) (path : AccessPath) :
    List MmioEvent → List UInt32 → List MmioEvent
  | _, [] => []
  | hist, off :: offs =>
    .read path off (P.hw hist off) :: P.reads path (.read path off (P.hw hist off) :: hist) offs

/-- The machine after them. -/
def Machine.readDwords (P : Platform) (path : AccessPath) (offs : List UInt32) (s : Machine) :
    Machine :=
  { s with hist := (P.reads path s.hist offs).reverse ++ s.hist }

theorem Machine.readDwords_cons (P : Platform) (path : AccessPath) (off : UInt32)
    (offs : List UInt32) (s : Machine) :
    s.readDwords P path (off :: offs) = (s.readDword P path off).2.readDwords P path offs := by
  unfold readDwords
  rw [Platform.reads, List.reverse_cons, List.append_assoc]
  rfl

/-- They are reads. -/
theorem Platform.eq_read_of_mem_reads {P : Platform} {path : AccessPath} {offs : List UInt32}
    {hist : List MmioEvent} {e : MmioEvent} (h : e ∈ P.reads path hist offs) :
    ∃ off val, e = .read path off val := by
  induction offs generalizing hist with
  | nil => exact nomatch h
  | cons off offs ih =>
    rcases List.mem_cons.mp h with rfl | h
    · exact ⟨off, _, rfl⟩
    · exact ih h
