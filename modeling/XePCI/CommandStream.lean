import XePCI.ForcewakeGuard

/-!
# The GGTT probe and the command stream

The two helper classes that are handed a copy of the mapping and read
registers through accessors of their own: `XeGGTT`, which probes the page
table control and the first fence, and `XeCommandStream`, which prepares a
batch of no-ops and logs the state of the render ring under forcewake.
Neither accessor knows the length of the BAR.

What the source only writes to the kernel's log is returned here where it
tells which exit was taken (`Rcs0Exit`).
-/

namespace XeGGTT

/-- `XeGGTT::safeRead`. -/
def safeRead : UInt64 → UInt32 → Kext UInt32 := checkedRead .ggttSafeRead

/-- `XeGGTT::probe`. -/
def probe (mmio : UInt64) : Kext Bool := do
  if mmio = 0 then return false
  let pgtblCtl ← safeRead mmio XeHW.pgtblCtl
  if pgtblCtl = kSentinelNullMmio ∨ pgtblCtl = kSentinelOutOfRange then return false
  let _pwrWell1 ← safeRead mmio XeHW.hswPwrWellCtl1
  let _pwrWell2 ← safeRead mmio XeHW.hswPwrWellCtl2
  if XeHW.fenceStart 0 ≤ kMaxSafeMmioOffset ∧ XeHW.fenceEnd 0 ≤ kMaxSafeMmioOffset then
    let _fence0Start ← safeRead mmio (XeHW.fenceStart 0)
    let _fence0End ← safeRead mmio (XeHW.fenceEnd 0)
    return true
  else
    return true

/-- The record `getInfo` fills. -/
structure GGTTInfo where
  pgtblCtl : UInt32 := 0
  apertureSize : UInt32 := 0
  isValid : Bool := false
  deriving DecidableEq, Repr

/-- `XeGGTT::getInfo`. -/
def getInfo (mmio : UInt64) : Kext GGTTInfo := do
  if mmio = 0 then return {}
  let pgtblCtl ← safeRead mmio XeHW.pgtblCtl
  if pgtblCtl = kSentinelNullMmio ∨ pgtblCtl = kSentinelOutOfRange then
    return { pgtblCtl := pgtblCtl }
  return { pgtblCtl := pgtblCtl, apertureSize := XeHW.ggttApertureBytes, isValid := true }

/-- The record `getFence` fills. -/
structure FenceInfo where
  start : UInt32 := 0
  stop : UInt32 := 0
  active : Bool := false
  valid : Bool := false
  deriving DecidableEq, Repr

/-- `XeGGTT::getFence`. -/
def getFence (mmio : UInt64) (index : UInt32) : Kext FenceInfo := do
  if mmio = 0 then return {}
  if XeHW.fenceRegCount ≤ index then return {}
  if kMaxSafeMmioOffset < XeHW.fenceStart index ∨ kMaxSafeMmioOffset < XeHW.fenceEnd index then
    return {}
  let start ← safeRead mmio (XeHW.fenceStart index)
  let stop ← safeRead mmio (XeHW.fenceEnd index)
  return { start := start, stop := stop, active := start ≠ 0 || stop ≠ 0, valid := true }

end XeGGTT

namespace XeCommandStream

/-- `safeRd` of `XeCommandStream.cpp`. -/
def safeRd : UInt64 → UInt32 → Kext UInt32 := checkedRead .csSafeRd

/-- The exits of `logRcs0State`, each with a log line of its own. -/
inductive Rcs0Exit where
  /-- The mapping was null on entry. -/
  | nullMmio
  /-- Disabled by the boot flags. -/
  | disabled
  /-- A ring offset is beyond what the accessor lets through. -/
  | badOffsets
  /-- A ring register read as the null-mapping sentinel. -/
  | nullDuringRead
  /-- A ring register read as the out-of-range sentinel. -/
  | outOfRange
  /-- All was read; the decoded control register. -/
  | completed (ringEnabled : Bool) (ringSize : UInt32)
  deriving DecidableEq, Repr

/-- What `logRcs0State` reads while it holds the guard. -/
def readRcs0 (m : UInt64) : Kext Rcs0Exit := do
  let ringHead ← safeRd m XeHW.rcs0RingHead
  let ringTail ← safeRd m XeHW.rcs0RingTail
  let ringCtl ← safeRd m XeHW.rcs0RingCtl
  if ringHead = kSentinelNullMmio ∨ ringTail = kSentinelNullMmio
      ∨ ringCtl = kSentinelNullMmio then
    return .nullDuringRead
  if ringHead = kSentinelOutOfRange ∨ ringTail = kSentinelOutOfRange
      ∨ ringCtl = kSentinelOutOfRange then
    return .outOfRange
  if XeHW.rcs0MiMode ≤ kMaxSafeMmioOffset ∧ XeHW.gfxMode ≤ kMaxSafeMmioOffset then
    let _miMode ← safeRd m XeHW.rcs0MiMode
    let _gfxMode ← safeRd m XeHW.gfxMode
    return .completed (ringCtl &&& 1 != 0) ((ringCtl >>> 12) &&& 0x1FF)
  else
    return .completed (ringCtl &&& 1 != 0) ((ringCtl >>> 12) &&& 0x1FF)

/-- `XeCommandStream::logRcs0State`. -/
def logRcs0State (m : UInt64) : Kext Rcs0Exit := do
  if m = 0 then return .nullMmio
  let gXeBoot ← req .loadBoot
  if gXeBoot.disableCommandStream || gXeBoot.strictSafe then return .disabled
  if kMaxSafeMmioOffset < XeHW.rcs0RingHead ∨ kMaxSafeMmioOffset < XeHW.rcs0RingTail
      ∨ kMaxSafeMmioOffset < XeHW.rcs0RingCtl then
    return .badOffsets
  ForcewakeGuard.scope m (fun _ => readRcs0 m)

/-- `XeCommandStream::submitNoop`. -/
def submitNoop (m : UInt64) (bo : Option ObjId) : Kext IOReturn := do
  if m = 0 then return .notReady
  match bo with
  | none => return .badArgument
  | some md =>
    let gXeBoot ← req .loadBoot
    if gXeBoot.disableCommandStream || gXeBoot.strictSafe then return .notReady
    let rawAddr ← req (.getBytesNoCopy md)
    if rawAddr = 0 then return .noMemory
    let bufSize ← req (.getLength md)
    if bufSize < 16 then return .noSpace
    req (.writeCmds md [XeHW.miNoop, XeHW.miNoop, XeHW.miNoop, XeHW.miBatchBufferEnd])
    let _exit ← logRcs0State m
    return .success

end XeCommandStream
