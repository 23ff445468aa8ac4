import XePCI.UserClient

/-!
# The command-line tool

`xectl` is the program users reach the driver with. It looks the service up,
opens a connection to it, makes one or two calls of the user client through
`IOConnectCallMethod`, prints a few lines about what came back and closes the
connection. Opening, calling and closing are what it asks IOKit for
(`ToolOp`), so `main` is one program over these, whatever is at the other end
of the connection. With a user client there, a call of a method is a call of
`externalMethod`, and the tool is a program of the driver's requests
(`invoke`).

The numbers a user types are read by `strtoul` into an `unsigned long` of 64
bits. `main` narrows the number to 32 bits before `cmd_mkbuf` gets to see
it, and only then is it clamped.
-/

namespace Xectl

/-- What the tool prints. -/
inductive Line where
  /-- The usage, with `argv[0]` in it. -/
  | usage (argv0 : Option String)
  | noMatchingDict
  | noServiceIterator
  | serviceNotFound
  | openFailed (kr : UInt32)
  | unknownCmd
  | connected (handle : UInt32)
  | regdumpFailed (kr : IOReturn)
  | readDwords (count : UInt32) (values : List UInt32)
  | submitFailed (kr : IOReturn)
  | waitFailed (kr : IOReturn)
  | noopCompleted
  | createBufferFailed (kr : IOReturn)
  | createdBuffer (cookie : UInt64) (size : UInt32)
  deriving DecidableEq, Repr

/-! ## What the tool asks for -/

/-- A connection: the number the tool has for it, and what is at the other
end. -/
structure IoConnect (κ : Type) where
  handle : UInt32
  client : κ

/-- **The requests of the tool.** -/
inductive ToolOp (κ : Type) where
  /-- `IOServiceOpen`. -/
  | serviceOpen
  /-- `IOConnectCallMethod` with scalars alone, and room for `outputCnt` of
  them. -/
  | connectCallMethod (c : IoConnect κ) (selector : UInt32) (input : List UInt64)
    (outputCnt : UInt32)
  /-- `IOServiceClose`. -/
  | serviceClose (c : IoConnect κ)

variable {κ : Type}

/-- The answers. -/
abbrev ToolOp.Resp : ToolOp κ → Type
  | serviceOpen => Except UInt32 (IoConnect κ)
  | connectCallMethod .. => IOReturn × Option IOExternalMethodArguments
  | serviceClose _ => Unit

/-- Programs of the tool. -/
abbrev Tool (κ α : Type) : Type := Prog (ToolOp κ) ToolOp.Resp α

/-- Asks for one thing. -/
abbrev iokit (o : ToolOp κ) : Tool κ o.Resp := Prog.perform o

/-- How far the tool gets with looking the service up: whether there is a
matching dictionary, an iterator and a service in it. -/
structure Matching where
  matchingDict : Bool
  iterator : Bool
  service : Bool

/-- The part of `open_connection` that looks the service up, or what it
prints before it exits. -/
def findService (q : Matching) : Except Line Unit :=
  if !q.matchingDict then .error .noMatchingDict
  else if !q.iterator then .error .noServiceIterator
  else if !q.service then .error .serviceNotFound
  else .ok ()

/-- `open_connection`, or what it prints before it exits. -/
def openConnection (q : Matching) : Tool κ (Except Line (IoConnect κ)) :=
  match findService q with
  | .error line => return .error line
  | .ok () => do
    let opened ← iokit .serviceOpen
    match opened with
    | .error kr => return .error (.openFailed kr)
    | .ok c => return .ok c

/-! ## The commands -/

/-- `cmd_info`. -/
def cmdInfo (c : IoConnect κ) : Tool κ Line := return .connected c.handle

/-- `cmd_regdump`. -/
def cmdRegdump (c : IoConnect κ) : Tool κ Line := do
  let (kr, args) ← iokit (.connectCallMethod c XeUserClient.kMethodReadReg [] 8)
  match kr, args with
  | .success, some a =>
    return .readDwords a.scalarOutputCount
      ((List.range a.scalarOutputCount.toNat).map fun i => (a.scalarOutput i).toUInt32)
  | kr, _ => return .regdumpFailed kr

/-- `cmd_noop`. -/
def cmdNoop (c : IoConnect κ) : Tool κ Line := do
  let (kr, _) ← iokit (.connectCallMethod c XeUserClient.kMethodSubmit [] 0)
  if kr ≠ .success then return .submitFailed kr
  let (kr, _) ← iokit (.connectCallMethod c XeUserClient.kMethodWait [1000] 0)
  if kr ≠ .success then return .waitFailed kr
  return .noopCompleted

/-- The size `cmd_mkbuf` asks the driver for: a default for `0`, and 16 MiB
at most. -/
def mkbufBytes (bytes : UInt32) : UInt32 :=
  IOExternalMethodArguments.clamp 4096 (16 * 1024 * 1024) bytes

/-- `cmd_mkbuf`. -/
def cmdMkbuf (c : IoConnect κ) (bytes : UInt32) : Tool κ Line := do
  let bytes := mkbufBytes bytes
  let (kr, args) ←
    iokit (.connectCallMethod c XeUserClient.kMethodCreateBuffer [bytes.toUInt64] 1)
  match kr, args with
  | .success, some a => return .createdBuffer (a.scalarOutput 0) bytes
  | kr, _ => return .createBufferFailed kr

/-- The command that `argv[1]` and what is after it stand for. -/
def runCmd (strtoul : String → UInt64) (c : IoConnect κ) (cmd : String) (args : List String) :
    Tool κ Line :=
  if cmd = "info" then cmdInfo c
  else if cmd = "regdump" then cmdRegdump c
  else if cmd = "noop" then cmdNoop c
  else if cmd = "mkbuf" then
    match args with
    | bytes :: _ => cmdMkbuf c (strtoul bytes).toUInt32
    | [] => return .unknownCmd
  else return .unknownCmd

/-- **`main`**, with its exit status and what it printed. -/
def main (strtoul : String → UInt64) (q : Matching) (argv : List String) :
    Tool κ (UInt32 × Line) :=
  match argv with
  | _ :: cmd :: args => do
    let conn ← openConnection q
    match conn with
    | .error line => return (1, line)
    | .ok c => do
      let line ← runCmd strtoul c cmd args
      iokit (.serviceClose c)
      return (0, line)
  | _ => return (1, .usage argv.head?)

/-! ## The tool on a user client -/

/-- The call the user client gets. -/
def connectCall (c : XeUserClient) (selector : UInt32) (input : List UInt64)
    (outputCnt : UInt32) : Call where
  client := c
  selector := selector
  args := some
    { scalarInput := fun i => input.getD i 0
      scalarInputCount := UInt32.ofNat input.length
      scalarOutput := fun _ => 0
      scalarOutputCount := outputCnt }

/-- What the tool gets from IOKit on its way to a connection: how far it gets
with looking the service up, and what `IOServiceOpen` returns. -/
structure Lookup where
  matching : Matching
  opened : Except UInt32 (IoConnect XeUserClient)

/-- What becomes of the requests of the tool: a call of a method is a call of
the user client. -/
def Lookup.answers (l : Lookup) : (o : ToolOp XeUserClient) → Kext o.Resp
  | .serviceOpen => return l.opened
  | .connectCallMethod c selector input outputCnt =>
    (connectCall c.client selector input outputCnt).prog
  | .serviceClose _ => return ()

theorem Lookup.answers_connectCallMethod (l : Lookup) (c : IoConnect XeUserClient)
    (selector : UInt32) (input : List UInt64) (outputCnt : UInt32) :
    l.answers (.connectCallMethod c selector input outputCnt)
      = (connectCall c.client selector input outputCnt).prog := rfl

/-- **The tool**, as a program of the driver's requests. -/
def invoke (strtoul : String → UInt64) (l : Lookup) (argv : List String) : Kext (UInt32 × Line) :=
  (main strtoul l.matching argv).subst l.answers

/-- The connection the tool gets, or what it prints before it exits. -/
def Lookup.connection (l : Lookup) : Except Line (IoConnect XeUserClient) :=
  match findService l.matching with
  | .error line => .error line
  | .ok () => l.opened.mapError .openFailed

theorem subst_openConnection (l : Lookup) :
    (openConnection l.matching).subst l.answers = return l.connection := by
  unfold openConnection Lookup.connection
  cases findService l.matching with
  | error line => rfl
  | ok =>
    dsimp only
    rw [Prog.subst_bind, Prog.subst_perform, show l.answers .serviceOpen = return l.opened from rfl,
      pure_bind]
    cases l.opened <;> rfl

/-- `xectl` is the command of its arguments, if there is a connection. -/
theorem invoke_cons (strtoul : String → UInt64) (l : Lookup) (argv0 cmd : String)
    (args : List String) :
    invoke strtoul l (argv0 :: cmd :: args)
      = match l.connection with
        | .error line => return (1, line)
        | .ok c => (fun line => (0, line)) <$> (runCmd strtoul c cmd args).subst l.answers := by
  unfold invoke main
  rw [Prog.subst_bind, subst_openConnection, pure_bind]
  cases l.connection with
  | error line => rfl
  | ok c =>
    dsimp only
    rw [Prog.subst_bind, ← bind_pure_comp]
    rfl

/-! ## What is printed -/

/-- What `cmd_regdump` prints about what came back. -/
def dumpLine : IOReturn × Option IOExternalMethodArguments → Line
  | (.success, some a) => .readDwords a.scalarOutputCount
    ((List.range a.scalarOutputCount.toNat).map fun i => (a.scalarOutput i).toUInt32)
  | (kr, _) => .regdumpFailed kr

theorem cmdRegdump_eq (c : IoConnect κ) :
    cmdRegdump c
      = dumpLine <$> iokit (.connectCallMethod c XeUserClient.kMethodReadReg [] 8) := by
  unfold cmdRegdump
  rw [← bind_pure_comp]
  refine bind_congr fun r => ?_
  obtain ⟨kr, args⟩ := r
  cases kr <;> cases args <;> rfl

/-- What `cmd_mkbuf` prints about what came back. -/
def mkbufLine (size : UInt32) : IOReturn × Option IOExternalMethodArguments → Line
  | (.success, some a) => .createdBuffer (a.scalarOutput 0) size
  | (kr, _) => .createBufferFailed kr

theorem cmdMkbuf_eq (c : IoConnect κ) (n : UInt32) :
    cmdMkbuf c n = mkbufLine (mkbufBytes n)
      <$> iokit (.connectCallMethod c XeUserClient.kMethodCreateBuffer
        [(mkbufBytes n).toUInt64] 1) := by
  unfold cmdMkbuf
  rw [← bind_pure_comp]
  refine bind_congr fun r => ?_
  obtain ⟨kr, args⟩ := r
  cases kr <;> cases args <;> rfl

theorem runCmd_mkbuf (strtoul : String → UInt64) (c : IoConnect κ) (bytes : String)
    (rest : List String) :
    runCmd strtoul c "mkbuf" (bytes :: rest) = cmdMkbuf c (strtoul bytes).toUInt32 := by
  unfold runCmd
  rw [if_neg (by decide), if_neg (by decide), if_neg (by decide), if_pos rfl]

/-- **What `xectl mkbuf` asks for**: a connection, and through it a buffer, of
the number that was narrowed first and clamped then. -/
theorem main_mkbuf (strtoul : String → UInt64) (argv0 bytes : String) (rest : List String) :
    ∃ k, main strtoul ⟨true, true, true⟩ (argv0 :: "mkbuf" :: bytes :: rest)
        = .request .serviceOpen k
      ∧ ∀ c : IoConnect κ, (k (.ok c)).next?
        = some (.connectCallMethod c XeUserClient.kMethodCreateBuffer
          [(mkbufBytes (strtoul bytes).toUInt32).toUInt64] 1) := by
  refine ⟨_, rfl, fun c => ?_⟩
  show (runCmd strtoul c "mkbuf" (bytes :: rest) >>= _).next? = _
  rw [runCmd_mkbuf]
  rfl

section Mkbuf

variable {P : Platform} {s : Machine} {cookie : UInt64} {size : UInt32}
variable {strtoul : String → UInt64} {l : Lookup} {argv0 bytes : String} {rest : List String}

/-- The call of `cmd_mkbuf`. -/
abbrev mkbufCall (c : XeUserClient) (n : UInt32) : Call :=
  connectCall c XeUserClient.kMethodCreateBuffer [(mkbufBytes n).toUInt64] 1

/-- A buffer is reported if the call succeeded, with the size that was asked
for. -/
theorem eq_of_mkbufLine {n : UInt32} {r : IOReturn × Option IOExternalMethodArguments}
    (h : mkbufLine n r = .createdBuffer cookie size) : r.1 = .success ∧ size = n := by
  unfold mkbufLine at h
  split at h
  · exact ⟨rfl, (Line.createdBuffer.inj h).2.symm⟩
  · exact nomatch h

/-- Without a connection no buffer is reported. -/
theorem connection_ne_createdBuffer : l.connection ≠ .error (.createdBuffer cookie size) := by
  unfold Lookup.connection findService
  split_ifs
  · exact fun h => nomatch h
  · exact fun h => nomatch h
  · exact fun h => nomatch h
  · cases l.opened <;> exact fun h => nomatch h

/-- `xectl mkbuf` is one call with the narrowed number, if there is a
connection. -/
theorem invoke_mkbuf :
    invoke strtoul l (argv0 :: "mkbuf" :: bytes :: rest)
      = match l.connection with
        | .error line => return (1, line)
        | .ok c => (fun r => (0, mkbufLine (mkbufBytes (strtoul bytes).toUInt32) r))
          <$> (mkbufCall c.client (strtoul bytes).toUInt32).prog := by
  rw [invoke_cons]
  cases l.connection with
  | error line => rfl
  | ok c =>
    dsimp only
    rw [runCmd_mkbuf, cmdMkbuf_eq, Prog.subst_map, Prog.subst_perform,
      Lookup.answers_connectCallMethod, ← comp_map]
    rfl

/-- **A buffer is reported by the call**, with the size that was asked for. -/
theorem run_invoke_mkbuf
    (h : ((invoke strtoul l (argv0 :: "mkbuf" :: bytes :: rest)).run (exec P) s).1.2
      = .createdBuffer cookie size) :
    size = mkbufBytes (strtoul bytes).toUInt32
      ∧ ∃ c, ((mkbufCall c (strtoul bytes).toUInt32).prog.run (exec P) s).1.1 = .success
        ∧ ((invoke strtoul l (argv0 :: "mkbuf" :: bytes :: rest)).run (exec P) s).2
          = ((mkbufCall c (strtoul bytes).toUInt32).prog.run (exec P) s).2 := by
  rw [invoke_mkbuf] at h ⊢
  cases hconn : l.connection with
  | error line =>
    rw [hconn] at h
    have hline : line = .createdBuffer cookie size := h
    exact absurd (hline ▸ hconn) connection_ne_createdBuffer
  | ok c =>
    rw [hconn] at h
    dsimp only at h ⊢
    rw [Prog.run_map] at h ⊢
    obtain ⟨hok, hsize⟩ := eq_of_mkbufLine h
    exact ⟨hsize, c.client, hok, rfl⟩

end Mkbuf

end Xectl
