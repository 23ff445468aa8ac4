import XePCI.Realizability
import XePCI.Xectl

/-!
# What users get to see

A user of `xectl` sees an exit status and lines, and other clients make calls
of their own between two invocations. The tool has a specification of the
same kind as the service, over the same view (`Prints`): a register dump is
eight values or a failure, a buffer that is reported has the number of
buffers as its cookie, and a NOOP that completed was a submission that was
taken – the wait after it cannot fail.

`transcripts_exact` is the whole way from the command line to the device:
what invocations print, with calls of other clients and shutdowns between
them, are exactly the runs of the two specifications side by side. The
argument is that a command is at most one call that matters, and a line that
can be read off its reply (`Command.Does`).

The tool is connected through a client whose service is set. `IOServiceOpen`
hands out no others.
-/

open XeService

/-! ## Two specifications side by side -/

/-- What a specification allows for some events and another one for the
others. -/
def Spec.sum {σ ε ω ε' ω' : Type} (A : Spec σ ε ω) (B : Spec σ ε' ω') :
    Spec σ (ε ⊕ ε') (ω ⊕ ω') where
  step v e o v' :=
    match e, o with
    | .inl e, .inl o => A.step v e o v'
    | .inr e, .inr o => B.step v e o v'
    | _, _ => False

namespace Xectl

/-! ## Invocations -/

/-- What the tool can be told to do. -/
inductive Command where
  | info (handle : UInt32)
  | regdump
  | noop
  | mkbuf (bytes : UInt32)
  | unknown
  deriving DecidableEq, Repr

/-- The command that a word and the words after it stand for, on a connection
with the given number. -/
def Command.ofArgs (strtoul : String → UInt64) (handle : UInt32) (cmd : String)
    (args : List String) : Command :=
  if cmd = "info" then .info handle
  else if cmd = "regdump" then .regdump
  else if cmd = "noop" then .noop
  else if cmd = "mkbuf" then
    args.head?.elim .unknown fun bytes => .mkbuf (strtoul bytes).toUInt32
  else .unknown

/-- The program of a command. -/
def Command.prog {κ : Type} (c : IoConnect κ) : Command → Tool κ Line
  | .info handle => return .connected handle
  | .regdump => cmdRegdump c
  | .noop => cmdNoop c
  | .mkbuf bytes => cmdMkbuf c bytes
  | .unknown => return .unknownCmd

theorem runCmd_eq {κ : Type} (strtoul : String → UInt64) (c : IoConnect κ) (cmd : String)
    (args : List String) :
    runCmd strtoul c cmd args = (Command.ofArgs strtoul c.handle cmd args).prog c := by
  unfold runCmd Command.ofArgs
  split_ifs
  · rfl
  · rfl
  · rfl
  · cases args <;> rfl
  · rfl

/-- **An invocation** of the tool. If it is connected, then through a client
that has its service. -/
structure Invocation where
  lookup : Lookup
  argv : List String
  ready : ∀ c, lookup.opened = .ok c → c.client.providerSvc = true

/-- What an invocation comes to: a command, or a line on the way to it. -/
def Invocation.command (strtoul : String → UInt64) (i : Invocation) : Except Line Command :=
  match i.argv with
  | _ :: cmd :: args => i.lookup.connection.map fun c => .ofArgs strtoul c.handle cmd args
  | argv => .error (.usage argv.head?)

/-- The program of a command, through a client that has its service. -/
def Command.served (l : Lookup) (handle : UInt32) (cmd : Command) : Kext Line :=
  (cmd.prog ⟨handle, ⟨true⟩⟩).subst l.answers

theorem ready_of_connection {i : Invocation} {c : IoConnect XeUserClient}
    (h : i.lookup.connection = .ok c) : c.client = ⟨true⟩ := by
  have hopened : i.lookup.opened = .ok c := by
    unfold Lookup.connection at h
    revert h
    cases findService i.lookup.matching with
    | error line => exact fun h => nomatch h
    | ok => cases i.lookup.opened <;> simp [Except.mapError]
  obtain ⟨handle, ⟨svc⟩⟩ := c
  exact congrArg XeUserClient.mk (i.ready _ hopened)

/-- The tool does the command of the invocation. -/
theorem invoke_eq (strtoul : String → UInt64) (i : Invocation) :
    ∃ handle, invoke strtoul i.lookup i.argv
      = match i.command strtoul with
        | .error line => return (1, line)
        | .ok cmd => (fun line => (0, line)) <$> cmd.served i.lookup handle := by
  unfold Invocation.command
  match i.argv with
  | [] | [_] => exact ⟨0, rfl⟩
  | argv0 :: cmd :: args =>
    rw [invoke_cons]
    dsimp only
    cases hconn : i.lookup.connection with
    | error line => exact ⟨0, rfl⟩
    | ok c =>
      refine ⟨c.handle, ?_⟩
      obtain ⟨handle, client⟩ := c
      obtain rfl : client = ⟨true⟩ := ready_of_connection hconn
      dsimp only
      rw [runCmd_eq]
      rfl

/-! ## What a command may print -/

/-- **The specification of the commands**: what each may print, by the view,
and what becomes of the view. -/
inductive Prints (v : View) : Command → Line → View → Prop
  | info (handle : UInt32) : Prints v (.info handle) (.connected handle) v
  | unknown : Prints v .unknown .unknownCmd v
  | noBar (h : v.length = none) : Prints v .regdump (.regdumpFailed .notReady) v
  | dump {L : UInt64} (h : v.length = some L) {vals : List UInt32}
      (hvals : List.Forall₂ (ReadsAs L) (kSafeOffs.take 8) vals) :
      Prints v .regdump (.readDwords 8 vals) v
  | noStream (h : v.length = none ∨ v.stream = false) : Prints v .noop (.submitFailed .notReady) v
  | noBatch (h : v.length.isSome = true) : Prints v .noop (.submitFailed .noResources) v
  | noAddress (h : v.length.isSome = true) (hs : v.stream = true) :
      Prints v .noop (.submitFailed .noMemory) v
  | completed (h : v.length.isSome = true) (hs : v.stream = true) :
      Prints v .noop .noopCompleted v
  | noRegistry (h : v.count = none) (bytes : UInt32) :
      Prints v (.mkbuf bytes) (.createBufferFailed .notReady) v
  | notCreated (h : v.count.isSome = true) (bytes : UInt32) :
      Prints v (.mkbuf bytes) (.createBufferFailed .noResources) v
  | created {n : ℕ} (h : v.count = some n) (hn : n + 1 < UInt32.size) (bytes : UInt32) :
      Prints v (.mkbuf bytes) (.createdBuffer (UInt64.ofNat (n + 1)) (mkbufBytes bytes))
        { v with count := some (n + 1) }

/-- **The specification of the tool**, with its exit status. -/
def toolSpec (strtoul : String → UInt64) : Spec View Invocation (UInt32 × Line) where
  step v i out v' :=
    match i.command strtoul with
    | .error line => out = (1, line) ∧ v' = v
    | .ok cmd => out.1 = 0 ∧ Prints v cmd out.2 v'

/-! ## Lines from replies -/

/-- What `cmd_regdump` prints, by the reply. -/
def regdumpLine : Reply → Line
  | (.success, vals) => .readDwords (UInt32.ofNat vals.length) (vals.map UInt64.toUInt32)
  | (kr, _) => .regdumpFailed kr

/-- What `cmd_noop` prints, by the reply to the submission. -/
def noopLine : Reply → Line
  | (.success, _) => .noopCompleted
  | (kr, _) => .submitFailed kr

/-- What `cmd_mkbuf` prints, by the reply. -/
def cookieLine (size : UInt32) : Reply → Line
  | (.success, vals) => .createdBuffer (vals.headD 0) size
  | (kr, _) => .createBufferFailed kr

section Served

variable (l : Lookup) (handle : UInt32)

/-- A dump prints as many values as the record says there are. -/
theorem served_regdump :
    Command.regdump.served l handle
      = regdumpLine
        <$> eventProg (some (connectCall ⟨true⟩ XeUserClient.kMethodReadReg [] 8)) := by
  show (cmdRegdump _).subst l.answers = regdumpLine <$> reply <$> Call.prog _
  rw [cmdRegdump_eq, Prog.subst_map, Prog.subst_perform, Lookup.answers_connectCallMethod,
    Call.Accepted.prog_readList (Or.inl rfl) ⟨rfl, rfl, rfl, rfl, rfl⟩]
  simp only [map_eq_pure_bind, bind_assoc, pure_bind]
  refine bind_congr fun r => ?_
  generalize XeUserClient.regsOut _ 8 r = a
  cases r.1 with
  | success =>
    show Prog.ret (Line.readDwords _ _) = Prog.ret (Line.readDwords _ _)
    simp [IOExternalMethodArguments.outputs, Function.comp_def]
  | _ => rfl

/-- The wait after a submission always succeeds, and does nothing. -/
theorem run_served_noop (P : Platform) (s : Machine) :
    (Command.noop.served l handle).run (exec P) s
      = (noopLine <$> eventProg (some (connectCall ⟨true⟩ XeUserClient.kMethodSubmit [] 0))).run
        (exec P) s := by
  show ((cmdNoop _).subst l.answers).run (exec P) s = (noopLine <$> reply <$> Call.prog _).run _ s
  unfold cmdNoop
  rw [Prog.subst_bind, Prog.subst_perform, Lookup.answers_connectCallMethod,
    Call.Accepted.prog_submit ⟨rfl, rfl, rfl, rfl, rfl⟩]
  simp only [map_eq_pure_bind, bind_assoc, pure_bind]
  rw [Prog.run_bind, Prog.run_bind]
  generalize (ucSubmitNoop).run (exec P) s = r
  obtain ⟨kr, s'⟩ := r
  cases kr <;> rfl

/-- The cookie that is printed is the one that was replied. -/
theorem served_mkbuf (n : UInt32) :
    (Command.mkbuf n).served l handle
      = cookieLine (mkbufBytes n) <$> eventProg (some (mkbufCall ⟨true⟩ n)) := by
  show (cmdMkbuf _ n).subst l.answers = cookieLine (mkbufBytes n) <$> reply <$> Call.prog _
  rw [cmdMkbuf_eq, Prog.subst_map, Prog.subst_perform, Lookup.answers_connectCallMethod,
    Call.Accepted.prog_createBuffer ⟨rfl, rfl, rfl, rfl, rfl⟩]
  simp only [map_eq_pure_bind, bind_assoc, pure_bind]
  refine bind_congr fun r => ?_
  rw [XeUserClient.reply_cookieOut rfl]
  obtain ⟨kr, cookie⟩ := r
  cases kr with
  | success =>
    rw [Reply.of_success]
    show Prog.ret (Line.createdBuffer _ _) = Prog.ret (Line.createdBuffer _ _)
    rw [(XeUserClient.cookieOut_success _ rfl cookie).1]
    rfl
  | _ => rfl

end Served

section Prints

variable {v v' : View} {line : Line}

/-- Eight offsets have eight values, which are narrowed to what they were. -/
theorem regdumpLine_of_read {L : UInt64} {vals : List UInt32}
    (hvals : List.Forall₂ (ReadsAs L) (kSafeOffs.take 8) vals) :
    regdumpLine (.success, vals.map UInt32.toUInt64) = .readDwords 8 vals := by
  show Line.readDwords (UInt32.ofNat (vals.map _).length) ((vals.map _).map _) = _
  rw [List.length_map, ← hvals.length_eq]
  refine congrArg₂ Line.readDwords rfl ?_
  simp [Function.comp_def]

/-- A dump is printed as the registers are replied. -/
theorem prints_regdump :
    Prints v .regdump line v'
      ↔ ∃ o, View.Step v (.read (kSafeOffs.take 8)) o v' ∧ line = regdumpLine o := by
  constructor
  · intro h
    cases h with
    | noBar hnone => exact ⟨_, .answer (.noBar _ hnone), rfl⟩
    | dump hL hvals => exact ⟨_, .answer (.read hL hvals), (regdumpLine_of_read hvals).symm⟩
  · rintro ⟨o, hstep, rfl⟩
    cases hstep with
    | answer h =>
      cases h with
      | noBar _ hnone => exact .noBar hnone
      | read hL hvals => exact (regdumpLine_of_read hvals).symm ▸ .dump hL hvals

/-- A NOOP is reported as the submission is replied to. -/
theorem prints_noop :
    Prints v .noop line v' ↔ ∃ o, View.Step v .submit o v' ∧ line = noopLine o := by
  constructor
  · intro h
    cases h with
    | noStream hnone => exact ⟨_, .answer (.noStream hnone), rfl⟩
    | noBatch hlen => exact ⟨_, .answer (.noBatch hlen), rfl⟩
    | noAddress hlen hs => exact ⟨_, .answer (.noAddress hlen hs), rfl⟩
    | completed hlen hs => exact ⟨_, .answer (.submitted hlen hs), rfl⟩
  · rintro ⟨o, hstep, rfl⟩
    cases hstep with
    | answer h =>
      cases h with
      | noStream hnone => exact .noStream hnone
      | noBatch hlen => exact .noBatch hlen
      | noAddress hlen hs => exact .noAddress hlen hs
      | submitted hlen hs => exact .completed hlen hs

/-- A buffer is reported as the creation is replied to. -/
theorem prints_mkbuf {bytes : UInt32} :
    Prints v (.mkbuf bytes) line v'
      ↔ ∃ o, View.Step v .createBuffer o v' ∧ line = cookieLine (mkbufBytes bytes) o := by
  constructor
  · intro h
    cases h with
    | noRegistry hnone => exact ⟨_, .answer (.noRegistry hnone), rfl⟩
    | notCreated hsome => exact ⟨_, .answer (.notCreated hsome), rfl⟩
    | created hcount hn => exact ⟨_, .created hcount hn, rfl⟩
  · rintro ⟨o, hstep, rfl⟩
    cases hstep with
    | answer h =>
      cases h with
      | noRegistry hnone => exact .noRegistry hnone bytes
      | notCreated hsome => exact .notCreated hsome bytes
    | created hcount hn => exact .created hcount hn bytes

end Prints

/-- **What a command does**: nothing to the service, or one call, and it
prints what the specification says. -/
inductive Command.Does (l : Lookup) (handle : UInt32) (cmd : Command) : Prop
  | nothing (line : Line) (hp : cmd.served l handle = return line)
      (hprints : ∀ v l v', Prints v cmd l v' ↔ l = line ∧ v' = v)
  | call (c : Call) (line : Reply → Line)
      (hp : ∀ P s, (cmd.served l handle).run (exec P) s
        = (line <$> eventProg (some c)).run (exec P) s)
      (hprints : ∀ v l v', Prints v cmd l v' ↔ ∃ o, View.Step v c.request o v' ∧ l = line o)

theorem Command.does (l : Lookup) (handle : UInt32) (cmd : Command) : cmd.Does l handle := by
  cases cmd with
  | info n =>
    refine .nothing (.connected n) rfl fun v l v' => ⟨fun h => ?_, ?_⟩
    · cases h
      exact ⟨rfl, rfl⟩
    · rintro ⟨rfl, rfl⟩
      exact .info n
  | unknown =>
    refine .nothing .unknownCmd rfl fun v l v' => ⟨fun h => ?_, ?_⟩
    · cases h
      exact ⟨rfl, rfl⟩
    · rintro ⟨rfl, rfl⟩
      exact .unknown
  | regdump =>
    exact .call _ _ (fun _ _ => by rw [served_regdump]) fun _ _ _ => prints_regdump
  | noop => exact .call _ _ (run_served_noop l handle) fun _ _ _ => prints_noop
  | mkbuf bytes =>
    exact .call _ _ (fun _ _ => by rw [served_mkbuf]) fun _ _ _ => prints_mkbuf

/-! ## From the command line to the device -/

section Commands

variable {cmd : Command} (l : Lookup) (handle : UInt32)

/-- **A command makes a step of its specification.** -/
theorem command_step (P : Platform) (cmd : Command) {s : Machine} (hs : s.Wired) :
    Prints s.view cmd ((cmd.served l handle).run (exec P) s).1
        ((cmd.served l handle).run (exec P) s).2.view
      ∧ ((cmd.served l handle).run (exec P) s).2.Wired := by
  cases cmd.does l handle with
  | nothing line hp hprints =>
    rw [hp]
    exact ⟨(hprints _ _ _).mpr ⟨rfl, rfl⟩, hs⟩
  | call c line hp hprints =>
    obtain ⟨hstep, hwired⟩ := event_step P (some c) hs
    rw [hp, Prog.run_map]
    exact ⟨(hprints _ _ _).mpr ⟨_, hstep, rfl⟩, hwired⟩

/-- **Every step of it can be played.** -/
theorem play_command {v v' : View} {line : Line} (h : Prints v cmd line v') :
    Plays (cmd.served l handle) v line v' := by
  cases cmd.does l handle with
  | nothing line' hp hprints =>
    obtain ⟨rfl, rfl⟩ := (hprints _ _ _).mp h
    rw [hp]
    exact plays_return ..
  | call c line' hp hprints =>
    obtain ⟨o, hstep, rfl⟩ := (hprints _ _ _).mp h
    unfold Plays
    simp only [hp]
    exact (play_event (e := some c) hstep).map line'

end Commands

/-- **An invocation makes a step of the tool's specification.** -/
theorem invocation_step (strtoul : String → UInt64) (P : Platform) (i : Invocation) {s : Machine}
    (hs : s.Wired) :
    (toolSpec strtoul).step s.view i ((invoke strtoul i.lookup i.argv).run (exec P) s).1
        ((invoke strtoul i.lookup i.argv).run (exec P) s).2.view
      ∧ ((invoke strtoul i.lookup i.argv).run (exec P) s).2.Wired := by
  obtain ⟨handle, hinvoke⟩ := invoke_eq strtoul i
  unfold toolSpec
  rw [hinvoke]
  dsimp only
  cases i.command strtoul with
  | error line => exact ⟨⟨rfl, rfl⟩, hs⟩
  | ok cmd =>
    obtain ⟨hstep, hwired⟩ := command_step i.lookup handle P cmd hs
    dsimp only
    rw [Prog.run_map]
    exact ⟨⟨rfl, hstep⟩, hwired⟩

theorem play_invocation {strtoul : String → UInt64} {i : Invocation} {v v' : View}
    {out : UInt32 × Line} (h : (toolSpec strtoul).step v i out v') :
    Plays (invoke strtoul i.lookup i.argv) v out v' := by
  obtain ⟨handle, hinvoke⟩ := invoke_eq strtoul i
  unfold toolSpec at h
  rw [hinvoke]
  dsimp only at h
  cases hcmd : i.command strtoul with
  | error line =>
    rw [hcmd] at h
    obtain ⟨rfl, rfl⟩ := h
    exact plays_return ..
  | ok cmd =>
    rw [hcmd] at h
    obtain ⟨hstatus, hprints⟩ := h
    rw [show out = (0, out.2) from Prod.ext hstatus rfl]
    exact (play_command i.lookup handle hprints).map _

/-- An event of a transcript: an invocation of the tool, or what else is done
to the service. -/
abbrev Event := Invocation ⊕ Option Call

/-- The program of an event. -/
def Event.prog (strtoul : String → UInt64) : Event → Kext ((UInt32 × Line) ⊕ Reply)
  | .inl i => .inl <$> invoke strtoul i.lookup i.argv
  | .inr e => .inr <$> eventProg e

/-- **The specification of transcripts**: the tool's and the service's. -/
def transcriptSpec (strtoul : String → UInt64) : Spec View Event ((UInt32 × Line) ⊕ Reply) :=
  (toolSpec strtoul).sum (serviceSpec.comap eventRequest)

theorem transcript_step (strtoul : String → UInt64) (P : Platform) (e : Event) {s : Machine}
    (hs : s.Wired) :
    (transcriptSpec strtoul).step s.view e ((Event.prog strtoul e).run (exec P) s).1
        ((Event.prog strtoul e).run (exec P) s).2.view
      ∧ ((Event.prog strtoul e).run (exec P) s).2.Wired := by
  cases e with
  | inl i =>
    unfold Event.prog
    rw [Prog.run_map]
    exact invocation_step strtoul P i hs
  | inr e =>
    unfold Event.prog
    rw [Prog.run_map]
    exact event_step P e hs

theorem play_transcript {strtoul : String → UInt64} {e : Event} {v v' : View}
    {o : (UInt32 × Line) ⊕ Reply} (h : (transcriptSpec strtoul).step v e o v') :
    Plays (Event.prog strtoul e) v o v' := by
  match e, o, h with
  | .inl i, .inl out, h => exact (play_invocation h).map _
  | .inr e, .inr o, h => exact (play_event h).map _
  | .inl _, .inr _, h | .inr _, .inl _, h => exact h.elim

/-- **From the command line to the device.** On some platform `start` returns
`ok`, and then the invocations of the tool print, and the calls and shutdowns
between them are replied to, as the transcript says, exactly if the transcript
is a run of the specifications from a view that such a `start` may leave. -/
theorem transcripts_exact (strtoul : String → UInt64) (ok : Bool)
    (tr : List (Event × ((UInt32 × Line) ⊕ Reply))) :
    (∃ P : Platform, (start.run (exec P) P.initialized).1 = ok
        ∧ (((tr.map Prod.fst).mapM (Event.prog strtoul)).run (exec P) P.started).1
          = tr.map Prod.snd)
      ↔ ∃ v v', View.Started ok v ∧ (transcriptSpec strtoul).Run v tr v' :=
  runs_exact (transcript_step strtoul) play_transcript ok tr

end Xectl
