import XePCI.Clients
import XePCI.Linearizability
import XePCI.SideBySide
import XePCI.Transcripts

/-!
# Tools side by side

Several users may run `xectl` at the same time. A process is `main`: it looks
the service up, opens a connection, makes its calls through the client it was
given – each of which first looks at the client's own fields – and closes the
connection again. So it uses two machines: IOKit's table of clients, and the
service (`Process.prog`). A process that runs alone does what the tool does
with the connection it gets (`run_process`).

Whatever else the processes do at the same time, what each of them prints is
what the specification of the tool allows at one moment while it ran, in the
order of these moments (`processes_linearizable`): as long as nobody enters a
descriptor while another is about to read the count, users cannot tell
whether they are alone. This takes entering a descriptor and reading the count
to be one step each, and nothing of how far a termination gets. A connection
may be refused at any time; one that is open has its service, because the
clients are accounted for (`Roster`), and so no command fails for want of it.
-/

open XeService

/-- The number IOKit has for a code. -/
def IOReturn.code : IOReturn → UInt32
  | success => 0
  | notReady => 0xe00002d8
  | noResources => 0xe00002be
  | badArgument => 0xe00002c2
  | unsupported => 0xe00002c7
  | noMemory => 0xe00002bd
  | noSpace => 0xe00002db

/-- Programs that use the table of clients and the service. -/
abbrev System (α : Type) : Type :=
  Prog (ClientOp ⊕ KextOp) (Sum.elim ClientOp.Resp KextOp.Resp) α

namespace Xectl

/-! ## Processes -/

/-- The client as a call finds it. -/
def providerOf (uc : ObjId) : System XeUserClient := do
  let svc ← (ask (.getProviderSvc uc)).inl
  return ⟨svc⟩

/-- **A process**: its task, how far it gets with looking the service up, the
number it has for its connection, and its arguments. -/
structure Process where
  task : ℕ
  matching : Matching
  handle : UInt32
  argv : List String

/-- What becomes of the requests of a process: the service is asked for a
client, a call of a method comes in through the client, and a connection is
closed by closing the client. -/
def Process.answers (w : Process) : (o : ToolOp ObjId) → System o.Resp
  | .serviceOpen => do
    let (kr, out) ← (XeService.newUserClient w.task).inl
    match out with
    | none => return .error kr.code
    | some uc => return .ok ⟨w.handle, uc⟩
  | .connectCallMethod c selector input outputCnt => do
    let client ← providerOf c.client
    (connectCall client selector input outputCnt).prog.inr
  | .serviceClose c => do
    let _ ← (XeUserClient.clientClose c.client).inl
    return ()

/-- **The program of a process.** -/
def Process.prog (strtoul : String → UInt64) (w : Process) : System (UInt32 × Line) :=
  (main strtoul w.matching w.argv).subst w.answers

/-- What a process comes to: a command, or a line on the way to it. -/
def Process.command (strtoul : String → UInt64) (w : Process) : Except Line Command :=
  match w.argv with
  | _ :: cmd :: args => (findService w.matching).map fun _ => .ofArgs strtoul w.handle cmd args
  | argv => .error (.usage argv.head?)

/-- A command through the client `uc`. -/
def Process.through (w : Process) (uc : ObjId) (cmd : Command) : System Line :=
  (cmd.prog ⟨w.handle, uc⟩).subst w.answers

/-- A command on a connection of its own. -/
def Process.session (w : Process) (cmd : Command) : System (UInt32 × Line) := do
  let (kr, out) ← (XeService.newUserClient w.task).inl
  match out with
  | none => return (1, .openFailed kr.code)
  | some uc =>
    let line ← w.through uc cmd
    let _ ← (XeUserClient.clientClose uc).inl
    return (0, line)

/-- **A process is its command** on a connection of its own, if it gets as far
as that. -/
theorem Process.prog_eq (strtoul : String → UInt64) (w : Process) :
    w.prog strtoul
      = match w.command strtoul with
        | .error line => return (1, line)
        | .ok cmd => w.session cmd := by
  unfold Process.prog Process.command
  match w.argv with
  | [] | [_] => rfl
  | argv0 :: cmd :: args =>
    unfold main openConnection
    cases findService w.matching with
    | error line => rfl
    | ok =>
      show Prog.subst w.answers ((iokit .serviceOpen >>= _) >>= _) = w.session (.ofArgs ..)
      rw [bind_assoc, Prog.subst_bind, Prog.subst_perform]
      unfold Process.session
      conv_lhs => unfold Process.answers
      dsimp only
      rw [bind_assoc]
      refine bind_congr fun r => ?_
      obtain ⟨kr, out⟩ := r
      cases out with
      | none => rfl
      | some uc =>
        show Prog.subst w.answers (runCmd strtoul ⟨w.handle, uc⟩ cmd args >>= _) = _
        rw [Prog.subst_bind, runCmd_eq]
        rfl

/-- A command that makes one call makes it through the client as it is
found. -/
theorem Process.through_call (w : Process) (l : Lookup) (uc : ObjId) (cmd : Command)
    {selector outputCnt : UInt32} {input : List UInt64}
    {line : IOReturn × Option IOExternalMethodArguments → Line}
    (h : ∀ {κ : Type} (c : IoConnect κ),
      cmd.prog c = line <$> iokit (.connectCallMethod c selector input outputCnt)) :
    w.through uc cmd
      = providerOf uc >>= fun client =>
        ((cmd.prog ⟨w.handle, client⟩).subst l.answers).inr := by
  unfold Process.through
  rw [h, Prog.subst_map, Prog.subst_perform]
  show line <$> (providerOf uc >>= _) = _
  rw [map_bind]
  refine bind_congr fun client => ?_
  rw [h, Prog.subst_map, Prog.subst_perform, Prog.inr_map]
  rfl

/-- **What a process may print.** The connection may be refused. -/
def processSpec (strtoul : String → UInt64) : Spec View Process (UInt32 × Line) where
  step v w out v' :=
    match w.command strtoul with
    | .error line => out = (1, line) ∧ v' = v
    | .ok cmd => out = (1, .openFailed IOReturn.noResources.code) ∧ v' = v
        ∨ out.1 = 0 ∧ Prints v cmd out.2 v'

section Spec

variable {strtoul : String → UInt64} {w : Process} {v v' : View} {out : UInt32 × Line}

theorem processSpec_of_error {line : Line} (h : w.command strtoul = .error line) :
    (processSpec strtoul).step v w out v' ↔ out = (1, line) ∧ v' = v := by
  unfold processSpec
  simp [h]

theorem processSpec_of_ok {cmd : Command} (h : w.command strtoul = .ok cmd) :
    (processSpec strtoul).step v w out v'
      ↔ out = (1, .openFailed IOReturn.noResources.code) ∧ v' = v
        ∨ out.1 = 0 ∧ Prints v cmd out.2 v' := by
  unfold processSpec
  simp [h]

end Spec

/-! ## How far a process has come -/

/-- The monitor of a process: the clients' and the service's, and a call that
has entered its descriptor goes on to read the count. -/
def systemMonitor (v : View) :
    Monitor (ClientOp ⊕ KextOp) (Sum.elim ClientOp.Resp KextOp.Resp)
      (ClientPhase × ServePhase) :=
  clientMonitor.beside (ServePhase.monitor v) (· ≠ .appended)

/-- How a command ends: with a line that says nothing has changed, or with the
count it read for its cookie. -/
def Command.Ends (v₀ : View) (cmd : Command) (ψ : ServePhase) (line : Line) : Prop :=
  ψ = .idle ∧ (∀ v, v₀.SameMode v → Prints v cmd line v)
    ∨ ∃ n bytes, ψ = .counted n ∧ cmd = .mkbuf bytes
      ∧ line = .createdBuffer n.toUInt64 (mkbufBytes bytes)

/-- How a process ends. -/
def Process.Ends (strtoul : String → UInt64) (v₀ : View) (w : Process)
    (φ : ClientPhase × ServePhase) (out : UInt32 × Line) : Prop :=
  match w.command strtoul with
  | .error line => φ.2 = .idle ∧ out = (1, line)
  | .ok cmd => φ.2 = .idle ∧ out = (1, .openFailed IOReturn.noResources.code)
      ∨ out.1 = 0 ∧ cmd.Ends v₀ φ.2 out.2

section Obeys

open Prog

variable {v₀ : View} {uc : ObjId} {cmd : Command} {ψ : ServePhase}

/-- A command whose call changes nothing ends as the call is replied to. -/
theorem Command.ends_of_answers {r : Request} {line : Reply → Line} {o : Reply}
    (hprints : ∀ {v l v'}, Prints v cmd l v' ↔ ∃ o, View.Step v r o v' ∧ l = line o)
    (hr : r ≠ .createBuffer) (h : ServePhase.Ends v₀ r ψ o) :
    ψ = .idle ∧ ∀ v, v₀.SameMode v → Prints v cmd (line o) v := by
  rcases h with ⟨hidle, hanswers⟩ | ⟨n, -, hcreate, -⟩
  · exact ⟨hidle, fun v hv => hprints.mpr ⟨o, .answer (hanswers.of_sameMode hv), rfl⟩⟩
  · exact absurd hcreate hr

theorem reply_fst (r : IOReturn × Option IOExternalMethodArguments) : (reply r).1 = r.1 := by
  obtain ⟨kr, args⟩ := r
  cases kr <;> cases args <;> rfl

theorem noopLine_reply (r : IOReturn × Option IOExternalMethodArguments) :
    noopLine (reply r) = if r.1 ≠ .success then .submitFailed r.1 else .noopCompleted := by
  obtain ⟨kr, args⟩ := r
  cases kr <;> cases args <;> rfl

/-- A client that is open has its service. -/
theorem obeys_providerOf {β : Type} {f : XeUserClient → System β}
    {Q : ClientPhase × ServePhase → β → Prop}
    (h : Obeys (systemMonitor v₀) (.opened uc, .idle) (f ⟨true⟩) Q) :
    Obeys (systemMonitor v₀) (.opened uc, .idle) (providerOf uc >>= f) Q := by
  refine ⟨⟨.look uc, fun h => nomatch h⟩, fun svc hsvc => ?_⟩
  obtain rfl : svc = true := hsvc
  exact h

/-- A call of a method goes through the phases of the call. -/
theorem obeys_connectCallMethod {β : Type} {w : Process} {selector : UInt32} {input : List UInt64}
    {outputCnt : UInt32} {f : IOReturn × Option IOExternalMethodArguments → System β}
    {Q : ClientPhase × ServePhase → β → Prop}
    (h : ∀ ψ r,
      ServePhase.Ends v₀ (connectCall ⟨true⟩ selector input outputCnt).request ψ (reply r) →
        Obeys (systemMonitor v₀) (.opened uc, ψ) (f r) Q) :
    Obeys (systemMonitor v₀) (.opened uc, .idle)
      (w.answers (.connectCallMethod ⟨w.handle, uc⟩ selector input outputCnt) >>= f) Q := by
  show Obeys _ _ ((providerOf uc >>= _) >>= f) Q
  rw [bind_assoc]
  exact obeys_providerOf ((obeys_bind ..).mpr
    (Obeys.inr ((ServePhase.obeys_call v₀ _).mono fun ψ r hends => h ψ r hends)))

/-- A command that makes one call, and prints a line about the reply, ends as
the call does. -/
theorem obeys_through_call {w : Process} {l : Lookup} {c : Call} {line : Reply → Line}
    (hthrough : w.through uc cmd = providerOf uc >>= fun client =>
      ((cmd.prog ⟨w.handle, client⟩).subst l.answers).inr)
    (hserved : cmd.served l w.handle = line <$> eventProg (some c))
    (h : ∀ ψ o, ServePhase.Ends v₀ c.request ψ o → cmd.Ends v₀ ψ (line o)) :
    Obeys (systemMonitor v₀) (.opened uc, .idle) (w.through uc cmd)
      (fun φ line => φ.1 = .opened uc ∧ cmd.Ends v₀ φ.2 line) := by
  rw [hthrough]
  refine obeys_providerOf (Obeys.inr ?_)
  show Obeys _ _ (cmd.served l w.handle) _
  rw [hserved, obeys_map]
  exact (obeys_map ..).mpr ((ServePhase.obeys_call v₀ c).mono fun ψ r hends => ⟨rfl, h ψ _ hends⟩)

/-- **A command goes through the phases** of its calls. -/
theorem obeys_through (v₀ : View) (w : Process) (uc : ObjId) (cmd : Command) :
    Obeys (systemMonitor v₀) (.opened uc, .idle) (w.through uc cmd)
      (fun φ line => φ.1 = .opened uc ∧ cmd.Ends v₀ φ.2 line) := by
  cases cmd with
  | info handle => exact ⟨rfl, Or.inl ⟨rfl, fun _ _ => .info handle⟩⟩
  | unknown => exact ⟨rfl, Or.inl ⟨rfl, fun _ _ => .unknown⟩⟩
  | regdump =>
    refine obeys_through_call (w.through_call ⟨w.matching, .error 0⟩ uc .regdump cmdRegdump_eq)
      (served_regdump ..) fun ψ o hends => ?_
    exact Or.inl (Command.ends_of_answers prints_regdump (by decide) hends)
  | noop =>
    show Obeys _ _ ((cmdNoop _).subst w.answers) _
    unfold cmdNoop
    rw [Prog.subst_bind, Prog.subst_perform]
    refine obeys_connectCallMethod fun ψ r hends => ?_
    obtain ⟨rfl, hprints⟩ := Command.ends_of_answers prints_noop (by decide) hends
    rw [noopLine_reply] at hprints
    obtain ⟨kr, args⟩ := r
    dsimp only at hprints ⊢
    by_cases hkr : kr ≠ .success
    · rw [if_pos hkr] at hprints ⊢
      exact ⟨rfl, Or.inl ⟨rfl, hprints⟩⟩
    · rw [if_neg hkr] at hprints ⊢
      rw [Prog.subst_bind, Prog.subst_perform]
      refine obeys_connectCallMethod fun ψ r hwait => ?_
      obtain ⟨rfl, hanswers⟩ | ⟨-, -, hcreate, -⟩ := hwait
      · -- the wait succeeds
        have hreply : reply r = (.success, []) := (View.Step.answer hanswers).reply_wait
        have hsuccess : r.1 = .success := (reply_fst r).symm.trans (congrArg Prod.fst hreply)
        obtain ⟨kr', args'⟩ := r
        obtain rfl : kr' = .success := hsuccess
        exact ⟨rfl, Or.inl ⟨rfl, hprints⟩⟩
      · exact nomatch hcreate
  | mkbuf bytes =>
    refine obeys_through_call
      (w.through_call ⟨w.matching, .error 0⟩ uc (.mkbuf bytes) (cmdMkbuf_eq · bytes))
      (served_mkbuf ..) fun ψ o hends => ?_
    rcases hends with ⟨hidle, hanswers⟩ | ⟨n, hφ, -, ho⟩
    · refine Or.inl ⟨hidle, fun v hv => prints_mkbuf.mpr ⟨_, .answer ?_, rfl⟩⟩
      exact hanswers.of_sameMode hv
    · rw [ho]
      exact Or.inr ⟨n, bytes, hφ, rfl, rfl⟩

theorem Command.Ends.ne_appended {line : Line} (h : cmd.Ends v₀ ψ line) : ψ ≠ .appended := by
  rintro rfl
  rcases h with ⟨hidle, -⟩ | ⟨n, bytes, hφ, -⟩
  · exact nomatch hidle
  · exact nomatch hφ

/-- **A process goes through the phases** of a connection and of its calls. -/
theorem obeys_process (strtoul : String → UInt64) (v₀ : View) (w : Process) :
    Obeys (systemMonitor v₀) (.begun, .idle) (w.prog strtoul) (w.Ends strtoul v₀) := by
  rw [w.prog_eq]
  unfold Process.Ends
  cases w.command strtoul with
  | error line => exact ⟨rfl, rfl⟩
  | ok cmd =>
    unfold Process.session
    refine (obeys_bind ..).mpr (Obeys.inl (by decide) ((obeys_newUserClient w.task).mono ?_))
    rintro φ r (⟨rfl, rfl⟩ | ⟨uc, rfl, rfl⟩)
    · exact Or.inl ⟨rfl, rfl⟩
    · refine (obeys_bind ..).mpr ((obeys_through v₀ w uc cmd).mono ?_)
      rintro ⟨φ, ψ⟩ line ⟨hφ, hends⟩
      obtain rfl : φ = .opened uc := hφ
      exact ⟨⟨.terminate uc, hends.ne_appended⟩, fun _ _ => Or.inr ⟨rfl, hends⟩⟩

variable {strtoul : String → UInt64} {w : Process} {φ : ClientPhase}

/-- Whatever is asked about clients has an answer. -/
theorem exists_admitted (φ : ClientPhase) (o : ClientOp) : ∃ r, clientMonitor.admits φ o r := by
  cases o with
  | osTypeAlloc => exact ⟨none, trivial⟩
  | getProviderSvc uc => exact ⟨true, rfl⟩
  | superInit _ | attach _ | superStart _ | castProvider => exact ⟨false, trivial⟩
  | setClientTask _ _ | setProviderSvc _ _ | detach _ | release _ | terminate _ =>
    exact ⟨(), trivial⟩

/-- A process that has read the count makes a buffer: by induction on what is
left of it. -/
theorem command_of_counted {n : UInt32} {p : System (UInt32 × Line)}
    (h : Obeys (systemMonitor v₀) (φ, .counted n) p (w.Ends strtoul v₀)) :
    ∃ bytes, w.command strtoul = .ok (.mkbuf bytes) := by
  induction p generalizing φ with
  | ret out =>
    replace h : w.Ends strtoul v₀ (φ, .counted n) out := h
    unfold Process.Ends at h
    cases hcmd : w.command strtoul with
    | error line =>
      rw [hcmd] at h
      exact nomatch h.1
    | ok cmd =>
      rw [hcmd] at h
      rcases h with ⟨hidle, -⟩ | ⟨-, ⟨hidle, -⟩ | ⟨n, bytes, -, rfl, -⟩⟩
      · exact nomatch hidle
      · exact nomatch hidle
      · exact ⟨bytes, rfl⟩
  | request o k ih =>
    cases o with
    | inl o =>
      obtain ⟨r, hr⟩ := exists_admitted φ o
      exact ih r (h.2 r hr)
    | inr o =>
      obtain ⟨ho, hk⟩ := h
      replace ho : ServePhase.Allows (.counted n) o := ho
      cases ho with
      | address md n => exact ih (0 : UInt64) (hk (0 : UInt64) trivial)

/-- A process that has entered its descriptor asks for the count next, and
makes a buffer. -/
theorem next_of_appended {p : System (UInt32 × Line)}
    (h : Obeys (systemMonitor v₀) (φ, .appended) p (w.Ends strtoul v₀)) :
    p.next? = some (.inr .getCount) ∧ ∃ bytes, w.command strtoul = .ok (.mkbuf bytes) := by
  cases p with
  | ret out =>
    replace h : w.Ends strtoul v₀ (φ, .appended) out := h
    unfold Process.Ends at h
    split at h
    · exact nomatch h.1
    · rcases h with ⟨hidle, -⟩ | ⟨-, hends⟩
      · exact nomatch hidle
      · exact absurd rfl hends.ne_appended
  | request o k =>
    cases o with
    | inl o => exact absurd rfl h.1.2
    | inr o =>
      obtain ⟨ho, hk⟩ := h
      replace ho : ServePhase.Allows .appended o := ho
      cases ho with
      | count => exact ⟨rfl, command_of_counted (hk (0 : UInt32) trivial)⟩

end Obeys

/-! ## A process that runs alone -/

section Alone

variable {K : ClientKit} {P : Platform} {t : ClientTable} {s : Machine} {uc : ObjId}

/-- A client that `newUserClient` hands out has its service. -/
theorem ready_of_newUserClient {fate : ObjId → Fate}
    (h : Roster K t (fun _ : Unit => .begun) fate) (task : ℕ) :
    let r := (XeService.newUserClient task).run K.exec t
    r.1 = (.noResources, none) ∨ ∃ uc, r.1 = (.success, some uc) ∧ r.2.ready uc = true := by
  have hstep : ∀ (φ : ClientPhase) (o : ClientOp) (t : ClientTable), clientMonitor.allows φ o →
      (∃ fate, Roster K t (fun _ : Unit => φ) fate) →
        clientMonitor.admits φ o (K.exec o t).1
          ∧ ∃ fate, Roster K (K.exec o t).2
            (fun _ : Unit => clientMonitor.next φ o (K.exec o t).1) fate := by
    rintro φ o t ho ⟨fate, hroster⟩
    obtain ⟨hadmits, fate', hroster'⟩ := hroster.exec (i := ()) ho
    refine ⟨hadmits, fate', ?_⟩
    rwa [show Function.update (fun _ : Unit => φ) () _ = fun _ => _ from
      funext fun _ => Function.update_self ..] at hroster'
  obtain ⟨φ, ⟨fate', hroster⟩, hends⟩ := (obeys_newUserClient task).run hstep ⟨fate, h⟩
  rcases hends with ⟨-, hr⟩ | ⟨uc, rfl, hr⟩
  · exact Or.inl hr
  · exact Or.inr ⟨uc, hr, hroster.ready () uc rfl⟩

theorem run_providerOf {β : Type} (hready : t.ready uc = true) (f : XeUserClient → System β) :
    (providerOf uc >>= f).run (Prog.both K.exec (exec P)) (t, s)
      = (f ⟨true⟩).run (Prog.both K.exec (exec P)) (t.logged (.use uc), s) := by
  show (f ⟨t.ready uc⟩).run _ (t.logged (.use uc), s) = _
  rw [hready]

theorem run_connectCallMethod {β : Type} (hready : t.ready uc = true) (w : Process)
    (selector : UInt32) (input : List UInt64) (outputCnt : UInt32)
    (f : IOReturn × Option IOExternalMethodArguments → System β) :
    let r := (connectCall ⟨true⟩ selector input outputCnt).prog.run (exec P) s
    (w.answers (.connectCallMethod ⟨w.handle, uc⟩ selector input outputCnt) >>= f).run
        (Prog.both K.exec (exec P)) (t, s)
      = (f r.1).run (Prog.both K.exec (exec P)) (t.logged (.use uc), r.2) := by
  show ((providerOf uc >>= _) >>= f).run _ _ = _
  rw [bind_assoc, run_providerOf hready, Prog.run_bind, Prog.run_inr]

/-- A command that finds its client ready is the command. -/
theorem run_through (hready : t.ready uc = true) (w : Process) (l : Lookup) (cmd : Command) :
    let r := (w.through uc cmd).run (Prog.both K.exec (exec P)) (t, s)
    (r.1, r.2.2) = (cmd.served l w.handle).run (exec P) s := by
  cases cmd with
  | info _ | unknown => rfl
  | regdump =>
    rw [w.through_call l uc .regdump cmdRegdump_eq, run_providerOf hready, Prog.run_inr]
    rfl
  | mkbuf bytes =>
    rw [w.through_call l uc (.mkbuf bytes) (cmdMkbuf_eq · bytes), run_providerOf hready,
      Prog.run_inr]
    rfl
  | noop =>
    have hready' : (t.logged (.use uc)).ready uc = true := hready
    unfold Process.through Command.served Command.prog cmdNoop
    dsimp only
    rw [Prog.subst_bind, Prog.subst_perform, run_connectCallMethod hready, Prog.subst_bind,
      Prog.subst_perform, Lookup.answers_connectCallMethod, Prog.run_bind]
    generalize (connectCall ⟨true⟩ XeUserClient.kMethodSubmit [] 0).prog.run (exec P) s = r
    obtain ⟨⟨kr, args⟩, s'⟩ := r
    dsimp only
    by_cases hkr : kr ≠ .success
    · rw [if_pos hkr, if_pos hkr]
      rfl
    · rw [if_neg hkr, if_neg hkr, Prog.subst_bind, Prog.subst_perform,
        run_connectCallMethod hready', Prog.subst_bind, Prog.subst_perform,
        Lookup.answers_connectCallMethod, Prog.run_bind]
      dsimp only
      split_ifs <;> rfl

/-- What the process finds on its way to the service. -/
def Process.lookup (w : Process) (opened : Except UInt32 XeUserClient) : Lookup :=
  ⟨w.matching, opened.map fun client => ⟨w.handle, client⟩⟩

/-- The tool with the connection a process gets. -/
theorem invoke_lookup (strtoul : String → UInt64) (w : Process)
    (opened : Except UInt32 XeUserClient) :
    invoke strtoul (w.lookup opened) w.argv
      = match w.command strtoul with
        | .error line => return (1, line)
        | .ok cmd =>
          match opened with
          | .error kr => return (1, .openFailed kr)
          | .ok c => (fun line => (0, line))
            <$> (cmd.prog ⟨w.handle, c⟩).subst (w.lookup opened).answers := by
  unfold Process.command
  match w.argv with
  | [] | [_] => rfl
  | argv0 :: cmd :: args =>
    rw [invoke_cons]
    unfold Lookup.connection
    dsimp only
    rw [show (w.lookup opened).matching = w.matching from rfl]
    cases findService w.matching with
    | error line => rfl
    | ok =>
      cases opened with
      | error kr => rfl
      | ok client =>
        show _ <$> (runCmd strtoul ⟨w.handle, client⟩ cmd args).subst _
          = _ <$> ((Command.ofArgs strtoul w.handle cmd args).prog ⟨w.handle, client⟩).subst _
        rw [runCmd_eq]

/-- **A process that runs alone** prints and does what the tool does with the
connection it gets, which is refused or has its service. -/
theorem run_process {fate : ObjId → Fate} (h : Roster K t (fun _ : Unit => .begun) fate)
    (strtoul : String → UInt64) (w : Process) :
    ∃ opened, (opened = .error IOReturn.noResources.code ∨ opened = .ok ⟨true⟩)
      ∧ let r := (w.prog strtoul).run (Prog.both K.exec (exec P)) (t, s)
        (r.1, r.2.2) = (invoke strtoul (w.lookup opened) w.argv).run (exec P) s := by
  rcases ready_of_newUserClient (K := K) h w.task with hr | ⟨uc, hr, hready⟩
  · refine ⟨.error IOReturn.noResources.code, Or.inl rfl, ?_⟩
    rw [invoke_lookup, w.prog_eq]
    cases w.command strtoul with
    | error line => rfl
    | ok cmd =>
      show ((Prog.run _ (w.session cmd) (t, s)).1, _) = _
      unfold Process.session
      rw [Prog.run_bind, Prog.run_inl, hr]
      rfl
  · refine ⟨.ok ⟨true⟩, Or.inr rfl, ?_⟩
    rw [invoke_lookup, w.prog_eq]
    cases w.command strtoul with
    | error line => rfl
    | ok cmd =>
      show ((Prog.run _ (w.session cmd) (t, s)).1, _) = _
      unfold Process.session
      rw [Prog.run_bind, Prog.run_inl, hr]
      dsimp only
      have hline := run_through (K := K) (P := P) (s := s) hready w (w.lookup (.ok ⟨true⟩)) cmd
      unfold Command.served at hline
      rw [Prog.run_bind, Prog.run_map, ← hline]
      rfl

end Alone

/-! ## Every interleaving of processes -/

section Processes

variable {ι : Type} [DecidableEq ι] (strtoul : String → UInt64)

/-- The size a process reports, if it reports a buffer. -/
def Process.size (w : Process) : UInt32 :=
  match w.command strtoul with
  | .ok (.mkbuf bytes) => mkbufBytes bytes
  | _ => 0

/-- What a process prints once a creation was replied to. -/
def Process.tells (w : Process) (o : Reply) : UInt32 × Line :=
  (0, cookieLine (w.size strtoul) o)

/-- **Nobody enters a descriptor while another is about to read the count.** -/
def TakeTurns (P : Platform)
    (c : Pool (ClientOp ⊕ KextOp) (Sum.elim ClientOp.Resp KextOp.Resp) (ClientTable × Machine)
      (UInt32 × Line) ι) (i : ι) : Prop :=
  (c.thread i).next?.any (Sum.elim (fun _ => false) (KextOp.appends P c.shared.2)) = true →
    ∀ j, j ≠ i → (c.thread j).next?.any (Sum.elim (fun _ => false) KextOp.isGetCount) = false

instance [Fintype ι] (P : Platform)
    (c : Pool (ClientOp ⊕ KextOp) (Sum.elim ClientOp.Resp KextOp.Resp) (ClientTable × Machine)
      (UInt32 × Line) ι) (i : ι) : Decidable (TakeTurns P c i) :=
  inferInstanceAs (Decidable (_ → ∀ j, j ≠ i → _))

/-- **Processes side by side**, on a service in the state `s₀`. -/
def processPool (s₀ : Machine) (work : ι → Process) :
    Pool (ClientOp ⊕ KextOp) (Sum.elim ClientOp.Resp KextOp.Resp) (ClientTable × Machine)
      (UInt32 × Line) ι :=
  .start ({}, s₀) fun i => (work i).prog strtoul

/-- **What is known while processes overlap**: the clients are accounted for,
the calls overlap as calls may, and a process is bound as its call is. -/
structure Sharing (K : ClientKit) (work : ι → Process) (v₀ : View) (s : ClientTable × Machine)
    (φs : ι → ClientPhase × ServePhase) (bound : ι → Option (UInt32 × Line)) : Prop where
  clients : ∃ fate, Roster K s.1 (Prod.fst ∘ φs) fate
  calls : ∃ replies, Overlapping v₀ s.2 (Prod.snd ∘ φs) replies
    ∧ bound = fun i => (replies i).map ((work i).tells strtoul)

section Sharing

variable {strtoul : String → UInt64} {K : ClientKit} {work : ι → Process} {v₀ : View}
variable {s : ClientTable × Machine}
variable {φs : ι → ClientPhase × ServePhase} {bound : ι → Option (UInt32 × Line)} {i : ι}

/-- A request about a client is none of the service's business. -/
theorem Sharing.client (h : Sharing strtoul K work v₀ s φs bound) {o : ClientOp}
    (ho : clientMonitor.allows (φs i).1 o) :
    clientMonitor.admits (φs i).1 o (K.exec o s.1).1
      ∧ Sharing strtoul K work v₀ ((K.exec o s.1).2, s.2)
        (Function.update φs i (clientMonitor.next (φs i).1 o (K.exec o s.1).1, (φs i).2))
        bound := by
  obtain ⟨⟨fate, hroster⟩, replies, hcalls, hbound⟩ := h
  obtain ⟨hadmits, hroster'⟩ := hroster.exec ho
  refine ⟨hadmits, ?_, replies, ?_, hbound⟩
  · rw [Function.comp_update]
    exact hroster'
  · rw [Function.comp_update]
    show Overlapping v₀ s.2 (Function.update (Prod.snd ∘ φs) i ((Prod.snd ∘ φs) i)) replies
    rwa [Function.update_eq_self]

/-- A request of a call is none of the clients'. -/
theorem Sharing.service (h : Sharing strtoul K work v₀ s φs bound) (P : Platform) {o : KextOp}
    (ho : (φs i).2.Allows o)
    (hturn : o.appends P s.2 = true → ∀ j, j ≠ i → (φs j).2 ≠ .appended) :
    ServePhase.Admits v₀ (φs i).2 o (exec P o s.2).1
      ∧ ((exec P o s.2).2.view = s.2.view
          ∧ Sharing strtoul K work v₀ (s.1, (exec P o s.2).2)
            (Function.update φs i ((φs i).1, (φs i).2.next o (exec P o s.2).1)) bound
        ∨ bound i = none ∧ (φs i).2.next o (exec P o s.2).1 = .appended
          ∧ ∃ x, View.Step s.2.view .createBuffer x (exec P o s.2).2.view
            ∧ Sharing strtoul K work v₀ (s.1, (exec P o s.2).2)
              (Function.update φs i ((φs i).1, (φs i).2.next o (exec P o s.2).1))
              (Function.update bound i (some ((work i).tells strtoul x)))) := by
  obtain ⟨hclients, replies, hcalls, rfl⟩ := h
  obtain ⟨hadmits, hcase⟩ := hcalls.request P ho hturn
  have hclients' (ψ : ServePhase) :
      ∃ fate, Roster K s.1 (Prod.fst ∘ Function.update φs i ((φs i).1, ψ)) fate := by
    rw [Function.comp_update]
    show ∃ fate, Roster K s.1 (Function.update (Prod.fst ∘ φs) i ((Prod.fst ∘ φs) i)) fate
    rwa [Function.update_eq_self]
  refine ⟨hadmits, ?_⟩
  rcases hcase with ⟨hview, hcalls'⟩ | ⟨hb, hnext, x, hstep, hcalls'⟩
  · refine Or.inl ⟨hview, hclients' _, replies, ?_, rfl⟩
    rw [Function.comp_update]
    exact hcalls'
  · refine Or.inr ⟨Option.map_eq_none_iff.mpr hb, hnext, x, hstep, hclients' _,
      Function.update replies i (some x), ?_, ?_⟩
    · rw [Function.comp_update]
      exact hcalls'
    · funext j
      by_cases hj : j = i
      · subst hj
        simp
      · simp [hj]

omit [DecidableEq ι] in
/-- A process that exits prints what it is bound to, or what changes
nothing. -/
theorem Sharing.exit (h : Sharing strtoul K work v₀ s φs bound) {out : UInt32 × Line}
    (hends : (work i).Ends strtoul v₀ (φs i) out) :
    (∀ x, bound i = some x → x = out)
      ∧ (bound i = none → (processSpec strtoul).step s.2.view (work i) out s.2.view) := by
  obtain ⟨-, replies, hcalls, rfl⟩ := h
  have hb : (φs i).2.Bound s.2.view (replies i) := hcalls.bound i
  -- a process that is not bound may print what changes nothing
  have hquiet (hφ : (φs i).2 = .idle)
      (hstep : (processSpec strtoul).step s.2.view (work i) out s.2.view) :
      (∀ x, (replies i).map ((work i).tells strtoul) = some x → x = out)
        ∧ ((replies i).map ((work i).tells strtoul) = none →
          (processSpec strtoul).step s.2.view (work i) out s.2.view) := by
    rw [hφ] at hb
    rw [show replies i = none from hb]
    exact ⟨fun _ hx => (nomatch hx), fun _ => hstep⟩
  unfold Process.Ends at hends
  cases hcmd : (work i).command strtoul with
  | error line =>
    rw [hcmd] at hends
    exact hquiet hends.1 ((processSpec_of_error hcmd).mpr ⟨hends.2, rfl⟩)
  | ok cmd =>
    rw [hcmd] at hends
    rcases hends with ⟨hφ, hout⟩ | ⟨hstatus, ⟨hφ, hprints⟩ | ⟨n, bytes, hφ, rfl, hline⟩⟩
    · exact hquiet hφ ((processSpec_of_ok hcmd).mpr (Or.inl ⟨hout, rfl⟩))
    · exact hquiet hφ ((processSpec_of_ok hcmd).mpr (Or.inr ⟨hstatus, hprints _ hcalls.mode⟩))
    · rw [hφ] at hb
      have htells : (work i).tells strtoul (.success, [n.toUInt64]) = out := by
        unfold Process.tells Process.size
        rw [hcmd]
        exact Prod.ext hstatus.symm hline.symm
      dsimp only
      rw [show replies i = _ from hb]
      refine ⟨fun x hx => ?_, fun h => (nomatch h)⟩
      rw [← Option.some.inj hx]
      exact htells

end Sharing

/-- **Processes take effect**: one that makes a buffer when its descriptor is
entered, any other when it exits. -/
theorem processes_takeEffect (K : ClientKit) (P : Platform) (s₀ : Machine) (work : ι → Process) :
    Pool.TakesEffect (processSpec strtoul) (Prog.both K.exec (exec P)) work id
      (systemMonitor s₀.view) (fun i => (work i).Ends strtoul s₀.view) (fun s => s.2.view)
      (Sharing strtoul K work s₀.view) (TakeTurns P) where
  step c i o k φs bound hi hobeys hR hgate ho := by
    cases o with
    | inl o =>
      obtain ⟨hadmits, hR'⟩ := hR.client ho.1
      exact ⟨hadmits, Or.inl ⟨rfl, hR'⟩⟩
    | inr o =>
      -- a process that has entered its descriptor is about to read the count
      have hturn : o.appends P c.shared.2 = true → ∀ j, j ≠ i → (φs j).2 ≠ .appended := by
        intro happends j hj hφj
        have hjobeys := hobeys j
        rw [show φs j = ((φs j).1, .appended) from Prod.ext rfl hφj] at hjobeys
        have hcount := hgate (by rw [hi]; exact happends) j hj
        rw [(next_of_appended hjobeys).1] at hcount
        exact nomatch hcount
      obtain ⟨hadmits, hcase⟩ := hR.service P ho hturn
      refine ⟨hadmits, hcase.imp_right ?_⟩
      rintro ⟨hb, hnext, x, hstep, hR'⟩
      have hiobeys := hobeys i
      rw [hi] at hiobeys
      have hrest := hiobeys.2 _ hadmits
      rw [show (systemMonitor s₀.view).next (φs i) (.inr o) _ = ((φs i).1, .appended) from
        Prod.ext rfl hnext] at hrest
      obtain ⟨-, bytes, hcmd⟩ := next_of_appended hrest
      have hsize : (work i).size strtoul = mkbufBytes bytes := by
        unfold Process.size
        rw [hcmd]
      refine ⟨hb, (work i).tells strtoul x, ?_, hR'⟩
      refine (processSpec_of_ok hcmd).mpr (Or.inr ⟨rfl, prints_mkbuf.mpr ⟨x, hstep, ?_⟩⟩)
      rw [← hsize]
      rfl
  ret i out s φs bound hR hends := hR.exit hends

end Processes

/-- IOKit lets everything succeed, and is done with a termination at once. -/
def idealKit : ClientKit :=
  ⟨fun _ => true, fun _ => true, fun _ => true, fun _ => true, true, fun _ => Fin.last 2⟩

/-- A user who asks for a buffer. -/
def mkbufProcess : Process := ⟨0, ⟨true, true, true⟩, 1, ["xectl", "mkbuf", "1"]⟩

/-- Two processes take turns, and the second enters its descriptor when the
first has read the count. -/
def mkbufTurns : List Bool :=
  (List.replicate 10 [false, true]).flatten ++ [false, false, true, false, true, true, false, true]

end Xectl
