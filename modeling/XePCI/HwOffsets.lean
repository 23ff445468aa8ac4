/-!
# Register offsets and constants of the device

The offsets of `xe_hw_offsets.hpp` that the driver reads or writes, under
its namespace `XeHW`, together with the two values the accessors answer a
rejected access with and the largest offset they let through. The header
lists many more registers; only those a modelled function touches are
here. All are byte offsets into BAR0, and an access to `off` is the dword
access `mmio[off >> 2]`.
-/

namespace XeHW

/-! ## Device identification -/

def deviceIdReg0 : UInt32 := 0x00000000
def deviceIdReg1 : UInt32 := 0x00000004
def deviceIdReg2 : UInt32 := 0x00000010
def deviceIdReg3 : UInt32 := 0x00000014
def deviceIdReg4 : UInt32 := 0x00000100
def deviceIdReg5 : UInt32 := 0x00000104

/-! ## Engine and ring registers -/

def rcs0Base : UInt32 := 0x00002000
def rcs0RingTail : UInt32 := rcs0Base + 0x30
def rcs0RingHead : UInt32 := rcs0Base + 0x34
def rcs0RingCtl : UInt32 := rcs0Base + 0x2C
def rcs0MiMode : UInt32 := rcs0Base + 0x9C
def gfxMode : UInt32 := 0x00002500
def pgtblCtl : UInt32 := 0x00002020

/-- The aperture size, from BAR2: 256 MiB. -/
def ggttApertureBytes : UInt32 := 256 * 1024 * 1024

def miNoop : UInt32 := 0x00000000
def miBatchBufferEnd : UInt32 := 0x0A000000

/-! ## Forcewake -/

def forcewakeReq : UInt32 := 0x000A188
def forcewakeAck : UInt32 := 0x000A18C

/-! ## Power management -/

def gen6RpControl : UInt32 := 0x0000A024
def gen6RcState : UInt32 := 0x0000A094
def gen6RcControl : UInt32 := 0x0000A090
def gen6PmIntrMsk : UInt32 := 0x0000A168
def hswPwrWellCtl1 : UInt32 := 0x00045400
def hswPwrWellCtl2 : UInt32 := 0x00045404
def hswPwrWellCtl3 : UInt32 := 0x00045408
def hswPwrWellCtl4 : UInt32 := 0x0004540C
def rc6ResidencyTime : UInt32 := 0x00138108

/-! ## Fences -/

def fenceRegBase : UInt32 := 0x00100000
def fenceRegCount : UInt32 := 32

/-- The start register of fence `n`. -/
def fenceStart (n : UInt32) : UInt32 := fenceRegBase + n * 8

/-- The end register of fence `n`. -/
def fenceEnd (n : UInt32) : UInt32 := fenceRegBase + n * 8 + 4

/-! ## Display pipe A -/

def pipeDdiFuncCtlA : UInt32 := 0x00060400
def ddiBufCtlA : UInt32 := 0x00064000
def htotalA : UInt32 := 0x00060000
def vtotalA : UInt32 := 0x0006000C
def pipeASrc : UInt32 := 0x0006001C
def pipeAConf : UInt32 := 0x00070008
def dspaCntr : UInt32 := 0x00070180
def dspaStride : UInt32 := 0x00070188
def dspaSurf : UInt32 := 0x0007019C
def blcPwmPchCtl1 : UInt32 := 0x000C8250
def blcPwmPchCtl2 : UInt32 := 0x000C8254
def pchPpStatus : UInt32 := 0x000C7200
def pchPpControl : UInt32 := 0x000C7204

end XeHW

/-- The largest offset an accessor lets through. `XeService.hpp`,
`ForcewakeGuard.hpp`, `XeGGTT.hpp` and `XeCommandStream.cpp` each declare
it under a name of their own (`kMaxSafeMMIOOffset`, `kForcewakeMaxOffset`,
`kGGTTMaxOffset`, `kCSMaxOffset`), with the same value. -/
def kMaxSafeMmioOffset : UInt32 := 0x00FFFFFF

/-- What an accessor answers where the mapping is null. -/
def kSentinelNullMmio : UInt32 := 0xDEADBEEF

/-- What an accessor answers where the offset is out of range. -/
def kSentinelOutOfRange : UInt32 := 0xBAD0FFFF

/-- The request that sets bit 0 of `FORCEWAKE_REQ`: the upper half is the
mask, the lower half the value. -/
def forcewakeSet : UInt32 := 0x00010001

/-- The request that clears bit 0 of `FORCEWAKE_REQ`. -/
def forcewakeClear : UInt32 := 0x00010000
