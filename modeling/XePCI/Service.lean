import XePCI.CommandStream

/-!
# The service object

`XeService` is the driver proper: it maps BAR0, samples and probes the
device in `start`, keeps the registry of buffer objects, serves the user
client's methods and takes everything down in `stop`.

`start` is one long function in the source. It is cut here at its own
numbered steps: `mapBar0` up to the mapping, and `bringUp` for the rest,
which is `sampleRegisters` and `probeGpu` for the two kinds of reads and
`makeRegistry` for the last step. The PCI configuration reads of step 4 only feed
the kernel's log and are left out, as is the registration of the service.
-/

namespace XeService

/-- `XeService::readReg`, which calls `readRegSafe`. -/
def readReg (off : UInt32) : Kext UInt32 := req (.readRegSafe off)

/-! ## Bring-up -/

/-- `XeParseBootArgs`: the flags of the boot argument, if there is one,
are added to those already set. -/
def xeParseBootArgs : Kext Unit := do
  match ← req .peParseBootArgn with
  | none => return ()
  | some buf =>
    let g ← req .loadBoot
    match g.parse buf with
    | none => return ()
    | some g' => req (.storeBoot g')

/-- `XeService::init`. -/
def init : Kext Bool := do
  let ok ← req .superInit
  if ok then
    xeParseBootArgs
    return true
  else
    return false

/-- The registers `logPowerState` reads. -/
def powerStateRegs : List UInt32 :=
  [XeHW.hswPwrWellCtl1, XeHW.hswPwrWellCtl2, XeHW.hswPwrWellCtl3, XeHW.hswPwrWellCtl4,
    XeHW.gen6RcState, XeHW.gen6RcControl, XeHW.gen6RpControl,
    XeHW.forcewakeAck, XeHW.gen6PmIntrMsk, XeHW.rc6ResidencyTime]

/-- `XeService::logPowerState`. -/
def logPowerState : Kext (List UInt32) := powerStateRegs.mapM readReg

/-- The registers `logDisplayState` reads. -/
def displayStateRegs : List UInt32 :=
  [XeHW.pipeAConf, XeHW.pipeDdiFuncCtlA, XeHW.ddiBufCtlA,
    XeHW.htotalA, XeHW.vtotalA, XeHW.pipeASrc,
    XeHW.dspaCntr, XeHW.dspaStride, XeHW.dspaSurf,
    XeHW.pchPpStatus, XeHW.pchPpControl, XeHW.blcPwmPchCtl1, XeHW.blcPwmPchCtl2]

/-- `XeService::logDisplayState`. -/
def logDisplayState : Kext (List UInt32) := displayStateRegs.mapM readReg

/-- Step 3 of `start`: enable the PCI function and map BAR0. Whether the
driver has a mapping afterwards. -/
def mapBar0 : Kext Bool := do
  let started ← req .superStart
  if !started then return false
  let dev ← req .castProvider
  req (.setPci dev)
  if !dev then return false
  req (.setMemoryEnable true)
  req (.setIoEnable true)
  req (.setBusMasterEnable true)
  let bar0 ← req .mapBar0
  req (.setBar0 bar0)
  match bar0 with
  | none => return false
  | some map =>
    req (.setBar0Length map.length)
    if map.length = 0 then
      req .releaseBar0
      req (.setBar0 none)
      return false
    req (.setMmio map.virtualAddress)
    if map.virtualAddress = 0 then
      req .releaseBar0
      req (.setBar0 none)
      return false
    return true

/-- The offsets `start` samples without an accessor. -/
def samplerOffs : List UInt32 := [0x0, 0x4, 0x10, 0x100]

/-- One read `mmio[off >> 2]` of `start`. -/
def readRaw (off : UInt32) : Kext UInt32 := do
  let mmio ← req .getMmio
  req (.mmioRead .startRaw mmio off)

/-- Step 5 of `start`: the raw reads. -/
def sampleRegisters : Kext (List UInt32) := samplerOffs.mapM readRaw

/-- Step 6 of `start`: the probes, skipped in strict-safe mode. -/
def probeGpu : Kext Unit := do
  let gXeBoot ← req .loadBoot
  if gXeBoot.strictSafe then return ()
  let _power ← logPowerState
  let mmio ← req .getMmio
  let _probed ← XeGGTT.probe mmio
  let _display ← logDisplayState
  return ()

/-- Step 7 of `start`: the registry of buffer objects. -/
def makeRegistry : Kext Bool := do
  let a ← req (.withCapacity 8)
  req (.setBoList a)
  return a.isSome

/-- Steps 5 to 7 of `start`, on a mapped BAR. -/
def bringUp : Kext Bool := do
  let _samples ← sampleRegisters
  probeGpu
  makeRegistry

/-- **`XeService::start`.** -/
def start : Kext Bool := do
  let mapped ← mapBar0
  if !mapped then return false
  bringUp

/-! ## Shutdown -/

/-- The loop of `stop` that drops the creator's reference of each member,
from index `i` on, with the members that are left. -/
def releaseMembers (i : ℕ) : ℕ → Kext Unit
  | 0 => return ()
  | n + 1 => do
    match ← req (.getObject (UInt32.ofNat i)) with
    | none => releaseMembers (i + 1) n
    | some md =>
      req (.release md)
      releaseMembers (i + 1) n

/-- The part of `stop` that takes the registry down. -/
def stopRegistry : Kext Unit := do
  let ready ← req .hasBoList
  if ready then
    let count ← req .getCount
    releaseMembers 0 count.toNat
    req .releaseArray
    req (.setBoList none)

/-- The part of `stop` that gives the mapping back. -/
def stopMapping : Kext Unit := do
  let mapped ← req .hasBar0
  if mapped then
    req .releaseBar0
    req (.setBar0 none)
    req (.setMmio 0)

/-- **`XeService::stop`.** -/
def stop : Kext Unit := do
  stopRegistry
  stopMapping
  let pci ← req .hasPci
  if pci then
    req (.setBusMasterEnable false)

/-! ## Methods of the user client -/

/-- `XeService::boFromCookie`. -/
def boFromCookie (cookie : UInt64) : Kext (Option ObjId) := do
  if cookie = 0 then return none
  let ready ← req .hasBoList
  if !ready then return none
  let idx := cookie - 1
  let count ← req .getCount
  if count.toUInt64 ≤ idx then return none
  req (.getObject idx.toUInt32)

/-- The page-aligned size of a request, in 32-bit arithmetic. -/
def pageAlign (bytes : UInt32) : UInt32 := (bytes + 0xFFF) &&& ~~~0xFFF

/-- **`XeService::ucCreateBuffer`**: the result and, on success, the
cookie. -/
def ucCreateBuffer (bytes : UInt32) : Kext (IOReturn × UInt64) := do
  let ready ← req .hasBoList
  if !ready then return (.notReady, 0)
  match ← req (.withOptions (pageAlign bytes)) with
  | none => return (.noResources, 0)
  | some md =>
    let added ← req (.setObject md)
    if !added then
      req (.release md)
      return (.noResources, 0)
    let count ← req .getCount
    let cookie := count.toUInt64
    let _vaddr ← req (.getBytesNoCopy md)
    return (.success, cookie)

/-- **`XeService::ucSubmitNoop`.** -/
def ucSubmitNoop : Kext IOReturn := do
  let mmio ← req .getMmio
  if mmio = 0 then return .notReady
  match ← req (.withOptions 4096) with
  | none => return .noResources
  | some md =>
    let m ← req .getMmio
    let kr ← XeCommandStream.submitNoop m (some md)
    req (.release md)
    return kr

/-- `XeService::ucWait`, a stub: the time is logged, and nothing is waited
for. -/
def ucWait (timeoutMs : UInt32) : Kext IOReturn := do
  req (.logWait timeoutMs)
  return .success

/-- The allow-list of `ucReadRegs`. -/
def kSafeOffs : List UInt32 :=
  [XeHW.deviceIdReg0, XeHW.deviceIdReg1, XeHW.deviceIdReg2, XeHW.deviceIdReg3,
    XeHW.deviceIdReg4, XeHW.deviceIdReg5, XeHW.gen6RpControl, XeHW.gen6RcState,
    XeHW.hswPwrWellCtl1, XeHW.hswPwrWellCtl2]

/-- A method that reads a list of registers, if there is a mapping. -/
def readList (offs : List UInt32) : Kext (IOReturn × List UInt32) := do
  let mmio ← req .getMmio
  if mmio = 0 then return (.notReady, [])
  let out ← offs.mapM readReg
  return (.success, out)

/-- `XeService::ucReadRegs`: at most `count` of the allow-list. -/
def ucReadRegs (count : UInt32) : Kext (IOReturn × List UInt32) :=
  readList (kSafeOffs.take count.toNat)

/-- The registers of `ucGetGTConfig`. -/
def gtConfigRegs : List UInt32 :=
  [XeHW.hswPwrWellCtl1, XeHW.hswPwrWellCtl2, XeHW.gen6RcState, XeHW.gen6RcControl,
    XeHW.gen6RpControl, XeHW.forcewakeAck, XeHW.gen6PmIntrMsk, XeHW.rc6ResidencyTime]

/-- `XeService::ucGetGTConfig`. -/
def ucGetGTConfig : Kext (IOReturn × List UInt32) := readList gtConfigRegs

/-- The registers of `ucGetDisplayInfo`. -/
def displayInfoRegs : List UInt32 :=
  [XeHW.pipeAConf, XeHW.pipeDdiFuncCtlA, XeHW.ddiBufCtlA, XeHW.dspaCntr,
    XeHW.htotalA, XeHW.vtotalA, XeHW.pipeASrc, XeHW.pchPpStatus]

/-- `XeService::ucGetDisplayInfo`. -/
def ucGetDisplayInfo : Kext (IOReturn × List UInt32) := readList displayInfoRegs

end XeService
