import Mathlib.Data.List.Induction
import XePCI.BufferObjects
import XePCI.Lifecycle

/-!
# One service after another

IOKit makes an instance of the service for a device it may drive, and another
one when the device is matched again. Each has a life of its own: `init`,
`probe`, `start`, and – only if `start` succeeded – the clients' calls and
`stop`. The fields of an instance die with it. The boot flags do not, which
are global, nor do the descriptors, the references to mappings and the bits
of the PCI function.

What is carried from life to life is an `Account`, and a life does to it what
its platform says and nothing else (`account_live`): no call, no register and
no earlier life has a part in it. Descriptors are never left over; a mapping
is, by every life that fails for want of a registry; and bus mastering stays
enabled if the last life that enabled it failed (`lives_account`).
-/

open XeService

/-! ## Lives -/

namespace XeService

/-- What a PCI function says it is. -/
structure PciId where
  vendor : UInt16
  device : UInt16

/-- `XeService::probe`: whether IOKit is handed the service, and the score. A
provider that is no PCI device is turned away. A PCI device is not, whatever
it says it is; the one that the driver knows gets a higher score. -/
def probe (dev : Option PciId) (superProbe : Bool) (score : Int32) : Bool × Int32 :=
  match dev with
  | none => (false, score)
  | some id =>
    (superProbe, if id.vendor = 0x8086 ∧ id.device = 0xA788 then score + 1000 else score)

end XeService

/-- **One life of the service**: its surroundings, the device it is probed
for, and the calls of its clients. -/
structure Life where
  platform : Platform
  /-- What the provider says it is, if it is a PCI device. -/
  id : PciId
  /-- `IOService::probe`. -/
  superProbe : Bool
  calls : List Call

namespace Life

/-- Whether `probe` hands the service to IOKit. -/
def found (l : Life) : Bool :=
  (probe (if l.platform.providerIsPci then some l.id else none) l.superProbe 0).1

/-- The life of an instance, as IOKit drives it. Clients come, and `stop` is
called, only after a `start` that succeeded. -/
def prog (l : Life) : Kext (List (IOReturn × Option IOExternalMethodArguments)) := do
  let ok ← XeService.init
  if !ok then return []
  if !l.found then return []
  let started ← XeService.start
  if !started then return []
  let results ← serve l.calls
  XeService.stop
  return results

/-- Whether the PCI function is enabled in this life. -/
def enables (l : Life) : Bool :=
  l.platform.superInit && l.found && l.platform.superStart && l.platform.providerIsPci

/-- Whether the service gets to run. -/
def runs (l : Life) : Bool :=
  l.enables && l.platform.mapped.isSome && l.platform.withCapacityOk

/-- Whether a mapping is left behind. -/
def leaks (l : Life) : Bool :=
  l.enables && l.platform.mapped.isSome && !l.platform.withCapacityOk

end Life

/-- **A new instance**: the fields are cleared, and nothing else is. -/
def Machine.newInstance (s : Machine) : Machine :=
  { s with pci := false, bar0 := none, mmio := 0, bar0Length := 0, boList := none }

/-- The machine after one more life. -/
def Machine.live (s : Machine) (l : Life) : Machine :=
  (l.prog.run (exec l.platform) s.newInstance).2

/-- The machine after one life after another. -/
def Machine.lives (s : Machine) (ls : List Life) : Machine := ls.foldl Machine.live s

/-- The instance after `init`. -/
def Machine.inited (s : Machine) (P : Platform) : Machine :=
  { s.newInstance with gXeBoot := if P.superInit then P.parsed s.gXeBoot else s.gXeBoot }

/-- **How far a life comes.** -/
theorem Machine.live_eq (s : Machine) (l : Life) :
    s.live l
      = if l.platform.superInit = true ∧ l.found = true then
          if (start.run (exec l.platform) (s.inited l.platform)).1 = true then
            (stop.run (exec l.platform) ((serve l.calls).run (exec l.platform)
              (start.run (exec l.platform) (s.inited l.platform)).2).2).2
          else (start.run (exec l.platform) (s.inited l.platform)).2
        else s.inited l.platform := by
  have hinit : init.run (exec l.platform) s.newInstance
      = (l.platform.superInit, s.inited l.platform) := run_init _ _
  unfold Machine.live Life.prog
  rw [Prog.run_bind, hinit]
  dsimp only
  rw [Prog.run_ite, Prog.run_ite, Prog.run_bind, Prog.run_ite, Prog.run_bind, Prog.run_bind]
  cases l.platform.superInit with
  | false => rfl
  | true =>
    cases l.found with
    | false => rfl
    | true => cases (start.run (exec l.platform) (s.inited l.platform)).1 <;> rfl

/-! ## What is carried from life to life -/

/-- **What outlives an instance**, but for descriptors and history. -/
structure Account where
  flags : XeBootFlags := {}
  /-- The references held on BAR0 mappings. -/
  bar0Refs : ℕ := 0
  memoryEnable : Bool := false
  ioEnable : Bool := false
  busMasterEnable : Bool := false

def Machine.account (s : Machine) : Account where
  flags := s.gXeBoot
  bar0Refs := s.bar0Refs
  memoryEnable := s.memoryEnable
  ioEnable := s.ioEnable
  busMasterEnable := s.busMasterEnable

/-- **What a life does to the account.** -/
def Account.live (a : Account) (l : Life) : Account where
  flags := if l.platform.superInit then l.platform.parsed a.flags else a.flags
  bar0Refs := a.bar0Refs + if l.leaks then 1 else 0
  memoryEnable := a.memoryEnable || l.enables
  ioEnable := a.ioEnable || l.enables
  busMasterEnable := if l.enables then !l.runs else a.busMasterEnable

/-- The machine but for its objects and its history. -/
def Machine.chassis (s : Machine) : Machine :=
  { s with
    boList := none, withOptionsCalls := 0, buffers := [], setObjectCalls := 0, objLog := []
    hist := [] }

/-- Whether a request leaves the chassis alone. -/
def KextOp.keepsChassis : KextOp → Bool
  | storeBoot _ | setPci _ | setMemoryEnable _ | setIoEnable _ | setBusMasterEnable _ | mapBar0
  | releaseBar0 | setBar0 _ | setBar0Length _ | setMmio _ => false
  | _ => true

theorem exec_chassis (P : Platform) {o : KextOp} (h : o.keepsChassis = true) (s : Machine) :
    (exec P o s).2.chassis = s.chassis := by
  cases o with
  | setObject md => rw [setObject_eq, Machine.chassis, Machine.chassis]
  | getObject i => rw [getObject_eq, Machine.chassis, Machine.chassis]
  | withOptions capacity => rw [withOptions_eq, Machine.chassis, Machine.chassis]
  | readRegSafe off => rw [readRegSafe_eq, Machine.chassis, Machine.chassis]
  | _ => first | rfl | exact absurd h Bool.false_ne_true

theorem Machine.of_chassis {s t : Machine} (h : t.chassis = s.chassis) :
    t.bar0 = s.bar0 ∧ t.pci = s.pci ∧ t.account = s.account := by
  have hbar0 := congrArg Machine.bar0 h
  have hpci := congrArg Machine.pci h
  have haccount := congrArg Machine.account h
  exact ⟨hbar0, hpci, haccount⟩

section Frames

variable (P : Platform)

theorem chassis_serve (calls : List Call) (s : Machine) :
    ((serve calls).run (exec P) s).2.chassis = s.chassis := by
  have hissues : (serve calls).Issues (fun o => o.keepsChassis = true) :=
    Prog.Issues.mapM fun c _ => (issues_call c).imp fun o ho => by
      cases o <;> first | rfl | exact absurd ho Bool.false_ne_true
  exact hissues.run_frame (fun _ s ho => exec_chassis P ho s) s

theorem chassis_stopRegistry (s : Machine) :
    (stopRegistry.run (exec P) s).2.chassis = s.chassis := by
  have hissues : stopRegistry.Issues (fun o => o.keepsChassis = true) :=
    issues_stopRegistry.imp fun o ho => by
      cases o <;> first | rfl | exact absurd ho Bool.false_ne_true
  exact hissues.run_frame (fun _ s ho => exec_chassis P ho s) s

/-- `stop` gives back the mapping and the bus, of a service that has them. -/
theorem account_stop {s : Machine} (hbar0 : s.bar0.isSome = true) (hpci : s.pci = true) :
    (stop.run (exec P) s).2.account
      = { s.account with bar0Refs := s.account.bar0Refs - 1, busMasterEnable := false } := by
  obtain ⟨hbar0', hpci', haccount⟩ := Machine.of_chassis (chassis_stopRegistry P s)
  unfold stop stopMapping
  rw [Prog.run_bind]
  generalize (stopRegistry.run (exec P) s).2 = t at hbar0' hpci' haccount
  obtain ⟨map, hmap⟩ := Option.isSome_iff_exists.mp hbar0
  rw [hmap] at hbar0'
  rw [hpci] at hpci'
  rw [← haccount]
  simp [hbar0', hpci', Machine.account]

end Frames

theorem Machine.inited_down (s : Machine) (P : Platform) : (s.inited P).Down := ⟨rfl, rfl, rfl⟩

/-- **A life does to the account what its platform says**, whatever the calls
and the device. -/
theorem account_live (s : Machine) (l : Life) : (s.live l).account = s.account.live l := by
  rw [Machine.live_eq]
  by_cases hfound : l.platform.superInit = true ∧ l.found = true
  · rw [if_pos hfound]
    cases hmap : l.platform.mapped with
    | none =>
      obtain ⟨pci, L, hrun⟩ := run_start_of_down_of_unmapped hmap (s.inited_down l.platform)
      rw [hrun, if_neg Bool.false_ne_true]
      have henables : l.enables = (l.platform.superStart && l.platform.providerIsPci) := by
        simp [Life.enables, hfound.1, hfound.2]
      rw [← henables]
      cases hcase : l.enables <;> simp [Machine.account, Account.live, Machine.inited,
        Machine.newInstance, Life.runs, Life.leaks, hmap, hcase]
    | some map =>
      obtain ⟨hstart, hpci, -⟩ := mapped_eq_some hmap
      obtain ⟨hist, hrun⟩ := run_start_eq_of_mapped hmap (s.inited l.platform)
      have henables : l.enables = true := by
        simp [Life.enables, hfound.1, hfound.2, hstart, hpci]
      rw [hrun]
      cases hok : l.platform.withCapacityOk with
      | false =>
        rw [if_neg Bool.false_ne_true]
        simp [Machine.account, Account.live, Machine.inited, Machine.newInstance,
          Machine.withMapping, Life.runs, Life.leaks, henables, hmap, hok]
      | true =>
        rw [if_pos rfl]
        obtain ⟨hbar0, hpci', haccount⟩ := Machine.of_chassis (chassis_serve l.platform l.calls
          { (s.inited l.platform).withMapping map with
            boList := if true = true then some .empty else none, hist := hist })
        rw [account_stop l.platform (hbar0 ▸ rfl) (hpci'.trans rfl), haccount]
        simp [Machine.account, Account.live, Machine.inited, Machine.newInstance,
          Machine.withMapping, Life.runs, Life.leaks, henables, hmap, hok]
  · have henables : l.enables = false := by
      unfold Life.enables
      rw [← Bool.and_eq_true] at hfound
      rw [Bool.eq_false_iff.mpr hfound, Bool.false_and, Bool.false_and]
    rw [if_neg hfound]
    simp [Machine.account, Account.live, Machine.inited, Machine.newInstance, Life.leaks, henables]

/-! ## The descriptors -/

/-- Whether the references are in order is decided by the members and by what
was done to them. -/
theorem Objects.Orderly.congr {o o' : Objects} (ho : o.Orderly) (hmembers : o'.members = o.members)
    (hcreated : o'.created = o.created) (hlog : o'.log = o.log) : o'.Orderly := by
  obtain ⟨hnodup, hborn, hkept, hfreed, hunborn⟩ := ho
  refine ⟨?_, ?_, ?_, ?_, ?_⟩
  · rwa [hmembers]
  · unfold Created
    rwa [hmembers, hcreated]
  · rwa [hmembers, hlog]
  · rwa [hmembers, hcreated, hlog]
  · rwa [hcreated, hlog]

/-- Every descriptor is accounted for, and none is registered. -/
structure Machine.Tidy (s : Machine) : Prop where
  orderly : s.objects.Orderly
  empty : s.objects.members = []

theorem orderly_serve (P : Platform) (calls : List Call) {s : Machine} (hs : s.objects.Orderly) :
    ((serve calls).run (exec P) s).2.objects.Orderly := by
  induction calls generalizing s with
  | nil => exact hs
  | cons c calls ih =>
    rw [run_serve_cons]
    exact ih (hs.step (objects_call P c s))

/-- **A life leaves no descriptor behind.** -/
theorem Machine.Tidy.live {s : Machine} (hs : s.Tidy) (l : Life) : (s.live l).Tidy := by
  have hinited : (s.inited l.platform).Tidy :=
    ⟨hs.orderly.congr (show [] = _ from hs.empty.symm) rfl rfl, rfl⟩
  have hstarted : (start.run (exec l.platform) (s.inited l.platform)).2.Tidy := by
    rcases objects_start l.platform (s.inited l.platform) with h | h
    · exact ⟨h ▸ hinited.orderly, h ▸ hinited.empty⟩
    · have hempty : (start.run (exec l.platform) (s.inited l.platform)).2.objects.members = [] := by
        rw [h]
        cases l.platform.withCapacityOk <;> rfl
      exact ⟨hinited.orderly.congr (hempty.trans hinited.empty.symm) (h ▸ rfl) (h ▸ rfl), hempty⟩
  rw [Machine.live_eq]
  split
  · split
    · have hserved := orderly_serve l.platform l.calls hstarted.orderly
      constructor
      · rw [objects_stop]
        exact hserved.dismantle
      · rw [objects_stop, Objects.members_dismantle]
    · exact hstarted
  · exact hinited

theorem Machine.tidy_fresh : Machine.fresh.Tidy := by
  refine ⟨⟨List.nodup_nil, List.forall_mem_nil _, List.forall_mem_nil _, fun md hmd => ?_,
    fun _ _ => rfl⟩, rfl⟩
  exact absurd hmd (Nat.not_lt_zero md)

/-! ## Any number of lives -/

theorem Machine.lives_append_singleton (s : Machine) (ls : List Life) (l : Life) :
    s.lives (ls ++ [l]) = (s.lives ls).live l := by
  unfold Machine.lives
  rw [List.foldl_append]
  rfl

/-- The account after any number of lives: by induction on them, the last one
first. -/
theorem account_lives (s : Machine) (ls : List Life) :
    (s.lives ls).bar0Refs = s.bar0Refs + ls.countP Life.leaks
      ∧ (s.lives ls).memoryEnable = (s.memoryEnable || ls.any Life.enables)
      ∧ (s.lives ls).ioEnable = (s.ioEnable || ls.any Life.enables)
      ∧ (s.lives ls).busMasterEnable
        = ((ls.filter Life.enables).getLast?).elim s.busMasterEnable (fun l => !l.runs) := by
  induction ls using List.reverseRecOn with
  | nil => exact ⟨rfl, (Bool.or_false _).symm, (Bool.or_false _).symm, rfl⟩
  | append_singleton ls l ih =>
    obtain ⟨hrefs, hmemory, hio, hbus⟩ := ih
    have hlive := account_live (s.lives ls) l
    rw [Machine.lives_append_singleton]
    refine ⟨(congrArg Account.bar0Refs hlive).trans ?_,
      (congrArg Account.memoryEnable hlive).trans ?_, (congrArg Account.ioEnable hlive).trans ?_,
      (congrArg Account.busMasterEnable hlive).trans ?_⟩
    · show (s.lives ls).bar0Refs + _ = _
      rw [hrefs, List.countP_append, List.countP_singleton, Nat.add_assoc]
    · show ((s.lives ls).memoryEnable || l.enables) = _
      rw [hmemory, List.any_append, List.any_cons, List.any_nil, Bool.or_false, Bool.or_assoc]
    · show ((s.lives ls).ioEnable || l.enables) = _
      rw [hio, List.any_append, List.any_cons, List.any_nil, Bool.or_false, Bool.or_assoc]
    · show (if l.enables then !l.runs else (s.lives ls).busMasterEnable) = _
      rw [hbus, List.filter_append]
      cases henables : l.enables with
      | true =>
        rw [List.filter_cons_of_pos henables, List.filter_nil, List.getLast?_concat, if_pos rfl]
        rfl
      | false =>
        rw [List.filter_cons_of_neg (Bool.eq_false_iff.mp henables), List.filter_nil,
          List.append_nil, if_neg Bool.false_ne_true]

theorem Machine.Tidy.lives {s : Machine} (hs : s.Tidy) (ls : List Life) : (s.lives ls).Tidy := by
  induction ls using List.reverseRecOn with
  | nil => exact hs
  | append_singleton ls l ih =>
    rw [Machine.lives_append_singleton]
    exact ih.live l

/-- **What any number of lives leave behind**, on a machine in any state in
which every descriptor is accounted for. One reference more to a mapping for
each life that got one and no registry; memory and I/O space enabled, if they
were or any life enabled them; bus mastering enabled, if the last life that
enabled it did not get to run, and as it was if none did. Every descriptor is
freed, once, and was not touched after. -/
theorem lives_account {s : Machine} (hs : s.Tidy) (ls : List Life) :
    (s.lives ls).bar0Refs = s.bar0Refs + ls.countP Life.leaks
      ∧ (s.lives ls).memoryEnable = (s.memoryEnable || ls.any Life.enables)
      ∧ (s.lives ls).ioEnable = (s.ioEnable || ls.any Life.enables)
      ∧ (s.lives ls).busMasterEnable
        = ((ls.filter Life.enables).getLast?).elim s.busMasterEnable (fun l => !l.runs)
      ∧ (∀ md < (s.lives ls).buffers.length,
          RefEvent.count md (s.lives ls).objLog = 0
            ∧ RefEvent.drops md (s.lives ls).objLog = 1)
      ∧ RefEvent.Live (s.lives ls).objLog := by
  obtain ⟨hrefs, hmemory, hio, hbus⟩ := account_lives s ls
  obtain ⟨horderly, hempty⟩ := hs.lives ls
  exact ⟨hrefs, hmemory, hio, hbus, fun md hmd => horderly.freed_all hempty hmd, horderly.live⟩

/-- A life on a platform that has no room for a registry. -/
def failingLife : Life where
  platform := { Platform.ideal with withCapacityOk := false }
  id := ⟨0x8086, 0xA788⟩
  superProbe := true
  calls := []

/-- Firmware has enabled the PCI function, and two lives fail: two references
are left, and bus mastering stays enabled. -/
theorem lives_account_failing :
    (enabledMachine.lives [failingLife, failingLife]).bar0Refs = 2
      ∧ (enabledMachine.lives [failingLife, failingLife]).busMasterEnable = true := by
  obtain ⟨hrefs, -, -, hbus, -⟩ := lives_account (s := enabledMachine)
    ⟨Machine.tidy_fresh.orderly, Machine.tidy_fresh.empty⟩ [failingLife, failingLife]
  exact ⟨hrefs, hbus⟩
