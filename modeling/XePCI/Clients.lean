import XePCI.RegistryRaces

/-!
# Connections

Whoever opens the service gets a user client of its own. `XeCreateUserClient`
makes it in four steps, each of which can fail – the allocation,
`initWithTask`, `attach` and `start` – and has to undo what the steps before
it did. `newUserClient` hands the client out, calls come in through it, and
`clientClose` has it terminated.

Opening and closing have nothing to do with the registers or the buffers, so
they are programs over requests of their own (`ClientOp`), with a table of
clients as the state. IOKit's part is this: an allocated object has one
reference, `attach` adds the one of the registry plane and `detach` drops it.
`terminate` begins the destruction of the client and may return before it is
over. How many of the two references IOKit has dropped by then is up to IOKit
(`terminateDrops`).

In every interleaving of any number of connections, whatever fails and
however far terminations get, no client is touched after it was freed; a
client that was allocated is freed, unless one connection has it, which is
not over or has asked for its termination; and every call comes in through a
client that has its service (`clients_accounted`). So the check for the
service in the handlers is never what refuses a call.
-/

/-! ## What is asked for -/

/-- The fields of a user client. -/
structure ClientFields where
  /-- The task it was opened for. -/
  clientTask : Option ℕ := none
  /-- Whether `providerSvc` is set. -/
  providerSvc : Bool := false
  deriving DecidableEq, Repr

/-- **The requests of opening and closing.** -/
inductive ClientOp where
  /-- `OSTypeAlloc(XeUserClient)`. -/
  | osTypeAlloc
  /-- `super::init()`. -/
  | superInit (uc : ObjId)
  | setClientTask (uc : ObjId) (owningTask : ℕ)
  | attach (uc : ObjId)
  /-- `super::start(provider)`. -/
  | superStart (uc : ObjId)
  /-- `OSDynamicCast(XeService, provider)`, which may be null. -/
  | castProvider
  | setProviderSvc (uc : ObjId) (svc : Bool)
  | getProviderSvc (uc : ObjId)
  | detach (uc : ObjId)
  | release (uc : ObjId)
  | terminate (uc : ObjId)
  deriving DecidableEq

/-- The answers. -/
abbrev ClientOp.Resp : ClientOp → Type
  | osTypeAlloc => Option ObjId
  | superInit _ | attach _ | superStart _ | castProvider | getProviderSvc _ => Bool
  | setClientTask _ _ | setProviderSvc _ _ | detach _ | release _ | terminate _ => Unit

/-- Programs that open and close. -/
abbrev Clients (α : Type) : Type := Prog ClientOp ClientOp.Resp α

/-- Asks for one thing. -/
abbrev ask (o : ClientOp) : Clients o.Resp := Prog.perform o

/-- What IOKit makes of the requests: which allocations, initializations,
attachments and starts succeed, whether the provider is an `XeService`, and how
many of the two references to a client are dropped when `terminate` returns. -/
structure ClientKit where
  allocOk : ℕ → Bool
  initOk : ObjId → Bool
  attachOk : ObjId → Bool
  startOk : ObjId → Bool
  isXeService : Bool
  terminateDrops : ObjId → Fin 3

/-- **The user clients** so far, and what was done to them. -/
structure ClientTable where
  clients : List ClientFields := []
  /-- How many allocations were asked for. -/
  allocs : ℕ := 0
  /-- What was done to the clients, newest first. -/
  log : List (RefEvent ObjId) := []

namespace ClientTable

/-- One more event. -/
def logged (t : ClientTable) (e : RefEvent ObjId) : ClientTable := { t with log := e :: t.log }

/-- References to a client are dropped. -/
def released (t : ClientTable) (uc : ObjId) (n : ℕ) : ClientTable :=
  { t with log := List.replicate n (.release uc) ++ t.log }

/-- A field of a client is written. -/
def modify (t : ClientTable) (uc : ObjId) (f : ClientFields → ClientFields) : ClientTable :=
  { t with clients := t.clients.modify uc f }

/-- An allocation, which gives the next client or none. -/
def alloc (t : ClientTable) (ok : Bool) : Option ObjId × ClientTable :=
  if ok then
    (some t.clients.length,
      { clients := t.clients ++ [{}]
        allocs := t.allocs + 1
        log := .alloc t.clients.length :: t.log })
  else (none, { t with allocs := t.allocs + 1 })

/-- Whether a client has its service. -/
def ready (t : ClientTable) (uc : ObjId) : Bool :=
  (t.clients[uc]?).elim false ClientFields.providerSvc

/-- Writing to one client leaves the others as ready as they were. -/
theorem ready_modify_of_ne (t : ClientTable) (f : ClientFields → ClientFields) {uc x : ObjId}
    (h : x ≠ uc) : (t.modify uc f).ready x = t.ready x := by
  simp [ready, modify, h.symm]

/-- A client is ready once its service was set. -/
theorem ready_modify_providerSvc {t : ClientTable} {uc : ObjId} (h : uc < t.clients.length) :
    (t.modify uc fun c => { c with providerSvc := true }).ready uc = true := by
  simp [ready, modify, List.getElem?_eq_getElem h]

/-- An allocation leaves the clients before it as ready as they were. -/
theorem ready_alloc {t : ClientTable} {x : ObjId} (h : t.ready x = true) (ok : Bool) :
    (t.alloc ok).2.ready x = true := by
  have hx : x < t.clients.length := Nat.lt_of_not_le fun hle => by
    simp [ready, List.getElem?_eq_none hle] at h
  cases ok with
  | false => exact h
  | true =>
    show Option.elim ((t.clients ++ [_])[x]?) false _ = true
    rw [List.getElem?_append_left hx]
    exact h

end ClientTable

/-- **What a request does.** -/
def ClientKit.exec (K : ClientKit) : (o : ClientOp) → ClientTable → o.Resp × ClientTable
  | .osTypeAlloc, t => t.alloc (K.allocOk t.allocs)
  | .superInit uc, t => (K.initOk uc, t.logged (.use uc))
  | .setClientTask uc owningTask, t =>
    ((), (t.modify uc fun c => { c with clientTask := some owningTask }).logged (.use uc))
  | .attach uc, t =>
    (K.attachOk uc, t.logged (if K.attachOk uc then .retain uc else .use uc))
  | .superStart uc, t => (K.startOk uc, t.logged (.use uc))
  | .castProvider, t => (K.isXeService, t)
  | .setProviderSvc uc svc, t =>
    ((), (t.modify uc fun c => { c with providerSvc := svc }).logged (.use uc))
  | .getProviderSvc uc, t => (t.ready uc, t.logged (.use uc))
  | .detach uc, t => ((), t.logged (.release uc))
  | .release uc, t => ((), t.logged (.release uc))
  -- the registry's reference is dropped first, and then the one that was handed out
  | .terminate uc, t => ((), (t.logged (.use uc)).released uc (K.terminateDrops uc))

/-! ## Opening and closing -/

namespace XeUserClient

/-- `XeUserClient::initWithTask`. -/
def initWithTask (uc : ObjId) (owningTask : ℕ) : Clients Bool := do
  let inited ← ask (.superInit uc)
  if !inited then return false
  ask (.setClientTask uc owningTask)
  return true

/-- `XeUserClient::start`. -/
def start (uc : ObjId) : Clients Bool := do
  let started ← ask (.superStart uc)
  if !started then return false
  let svc ← ask .castProvider
  ask (.setProviderSvc uc svc)
  if !svc then return false
  return true

/-- `XeUserClient::clientClose`. -/
def clientClose (uc : ObjId) : Clients IOReturn := do
  ask (.terminate uc)
  return .success

end XeUserClient

/-- `XeCreateUserClient`. -/
def xeCreateUserClient (provider : Bool) (task : ℕ) : Clients (Option ObjId) := do
  if !provider then return none
  let uc ← ask .osTypeAlloc
  match uc with
  | none => return none
  | some uc =>
    let inited ← XeUserClient.initWithTask uc task
    if !inited then
      ask (.release uc)
      return none
    let attached ← ask (.attach uc)
    if !attached then
      ask (.release uc)
      return none
    let started ← XeUserClient.start uc
    if !started then
      ask (.detach uc)
      ask (.release uc)
      return none
    return some uc

/-- `XeService::newUserClient`, with what it leaves in `*out`. -/
def XeService.newUserClient (task : ℕ) : Clients (IOReturn × Option ObjId) := do
  let uc ← xeCreateUserClient true task
  match uc with
  | none => return (.noResources, none)
  | some uc => return (.success, some uc)

/-- What came of a connection: what opening it returned, and the calls that
were made through it. -/
structure Visit where
  kr : IOReturn
  calls : List Call

/-- **A connection**: opened for a task, used for some calls, each of which
finds the client's fields as they are, and closed. -/
def connection (task : ℕ) (calls : List (UInt32 × Option IOExternalMethodArguments)) :
    Clients Visit := do
  let (kr, out) ← XeService.newUserClient task
  match out with
  | none => return ⟨kr, []⟩
  | some uc =>
    let made ← calls.mapM fun p => do
      let svc ← ask (.getProviderSvc uc)
      return (⟨⟨svc⟩, p.1, p.2⟩ : Call)
    let _ ← XeUserClient.clientClose uc
    return ⟨kr, made⟩

/-! ## How far a connection has come -/

/-- How far a connection has come. -/
inductive ClientPhase where
  | begun
  /-- The client is allocated, and nobody else has it. -/
  | raw (uc : ObjId)
  /-- It is attached to the service. -/
  | linked (uc : ObjId)
  /-- It has its service as well. -/
  | opened (uc : ObjId)
  /-- It is detached again. -/
  | unlinked (uc : ObjId)
  /-- Its termination was asked for. -/
  | ended (uc : ObjId)
  /-- There is no client, or there is none any more. -/
  | closed
  deriving DecidableEq

namespace ClientPhase

/-- The client of a connection. -/
def client? : ClientPhase → Option ObjId
  | raw uc | linked uc | opened uc | unlinked uc | ended uc => some uc
  | begun | closed => none

/-- What becomes of a client that is kept, by how many of its two references
are dropped. -/
def fateAfter : Fin 3 → Fate
  | 0 => .kept
  | 1 => .swept
  | 2 => .freed

/-- What has become of the client by then. -/
def fate (K : ClientKit) : ClientPhase → Fate
  | begun => .unborn
  | raw _ => .owned
  | linked _ | opened _ => .kept
  | unlinked _ => .swept
  | ended uc => fateAfter (K.terminateDrops uc)
  | closed => .freed

variable {K : ClientKit} {φ : ClientPhase} {uc : ObjId}

theorem fate_ne_unborn (h : φ.client? = some uc) : φ.fate K ≠ .unborn := by
  have hafter : ∀ n, fateAfter n ≠ .unborn := by decide
  cases φ <;> simp [client?, fate, hafter] at h ⊢

/-- While a connection has a client, there are one or two references, until
its termination is asked for. Then there are as many as IOKit has left. -/
theorem refs_fate (h : φ.client? = some uc) :
    ((φ.fate K).refs = 1 ∨ (φ.fate K).refs = 2) ∧ (∀ uc, φ ≠ ended uc)
      ∨ φ = ended uc ∧ (φ.fate K).refs + K.terminateDrops uc = 2 := by
  have hafter : ∀ n : Fin 3, (fateAfter n).refs + n = 2 := by decide
  cases φ with
  | begun | closed => exact nomatch h
  | ended uc' =>
    obtain rfl := Option.some.inj h
    exact Or.inr ⟨rfl, hafter _⟩
  | raw _ | unlinked _ => exact Or.inl ⟨Or.inl rfl, fun _ h => nomatch h⟩
  | linked _ | opened _ => exact Or.inl ⟨Or.inr rfl, fun _ h => nomatch h⟩

/-- The phase after a request and its answer. -/
def next (φ : ClientPhase) : (o : ClientOp) → o.Resp → ClientPhase
  | .osTypeAlloc, uc => uc.elim closed raw
  | .attach uc, attached => if attached then linked uc else φ
  | .setProviderSvc uc svc, _ => if svc then opened uc else φ
  | .detach uc, _ => unlinked uc
  | .release _, _ => closed
  | .terminate uc, _ => ended uc
  | _, _ => φ

/-- **What a phase may do.** -/
inductive Allows : ClientPhase → ClientOp → Prop
  | alloc : Allows begun .osTypeAlloc
  | init (uc : ObjId) : Allows (raw uc) (.superInit uc)
  | setTask (uc : ObjId) (owningTask : ℕ) : Allows (raw uc) (.setClientTask uc owningTask)
  | attach (uc : ObjId) : Allows (raw uc) (.attach uc)
  | undo (uc : ObjId) : Allows (raw uc) (.release uc)
  | start (uc : ObjId) : Allows (linked uc) (.superStart uc)
  | cast (uc : ObjId) : Allows (linked uc) .castProvider
  | setProvider (uc : ObjId) (svc : Bool) : Allows (linked uc) (.setProviderSvc uc svc)
  | detach (uc : ObjId) : Allows (linked uc) (.detach uc)
  | drop (uc : ObjId) : Allows (unlinked uc) (.release uc)
  | look (uc : ObjId) : Allows (opened uc) (.getProviderSvc uc)
  | terminate (uc : ObjId) : Allows (opened uc) (.terminate uc)

end ClientPhase

/-- **The monitor of connections**: an open client has its service. -/
def clientMonitor : Monitor ClientOp ClientOp.Resp ClientPhase where
  allows := ClientPhase.Allows
  admits _ o r :=
    match o, r with
    | .getProviderSvc _, svc => svc = true
    | _, _ => True
  next := ClientPhase.next

/-- **How a connection may end**: it was opened, and every call came in
through a client that has its service; or it was refused, and there were
none. -/
inductive Visit.Served : Visit → Prop
  | opened {calls : List Call} (h : ∀ c ∈ calls, c.client.providerSvc = true) :
      Served ⟨.success, calls⟩
  | refused : Served ⟨.noResources, []⟩

section Obeys

open Prog

theorem obeys_initWithTask (uc : ObjId) (owningTask : ℕ) :
    Obeys clientMonitor (.raw uc) (XeUserClient.initWithTask uc owningTask)
      (fun φ _ => φ = .raw uc) := by
  refine .perform_bind (.init uc) fun inited _ => ?_
  cases inited with
  | false => exact rfl
  | true => exact .perform_bind (.setTask uc owningTask) fun _ _ => rfl

/-- A client that has started is open. -/
theorem obeys_clientStart (uc : ObjId) :
    Obeys clientMonitor (.linked uc) (XeUserClient.start uc)
      (fun φ started => φ = if started then .opened uc else .linked uc) := by
  refine .perform_bind (.start uc) fun started _ => ?_
  cases started with
  | false => exact rfl
  | true =>
    refine .perform_bind (.cast uc) fun svc _ => ?_
    refine .perform_bind (.setProvider uc svc) fun _ _ => ?_
    cases svc <;> exact rfl

/-- A client that is handed out is open, and none is left behind
otherwise. -/
theorem obeys_xeCreateUserClient (task : ℕ) :
    Obeys clientMonitor .begun (xeCreateUserClient true task)
      (fun φ uc => φ = uc.elim .closed .opened) := by
  refine .perform_bind .alloc fun uc _ => ?_
  cases uc with
  | none => exact rfl
  | some uc =>
    refine (obeys_bind ..).mpr ((obeys_initWithTask uc task).mono ?_)
    rintro φ inited rfl
    cases inited with
    | false => exact .perform_bind (.undo uc) fun _ _ => rfl
    | true =>
      refine .perform_bind (.attach uc) fun attached _ => ?_
      cases attached with
      | false => exact .perform_bind (.undo uc) fun _ _ => rfl
      | true =>
        refine (obeys_bind ..).mpr ((obeys_clientStart uc).mono ?_)
        rintro φ started rfl
        cases started with
        | false =>
          refine .perform_bind (.detach uc) fun _ _ => ?_
          exact .perform_bind (.drop uc) fun _ _ => rfl
        | true => exact rfl

/-- What `newUserClient` returns is a client that is open, or none. -/
theorem obeys_newUserClient (task : ℕ) :
    Obeys clientMonitor .begun (XeService.newUserClient task) (fun φ r =>
      φ = .closed ∧ r = (.noResources, none) ∨ ∃ uc, φ = .opened uc ∧ r = (.success, some uc)) := by
  unfold XeService.newUserClient
  refine (obeys_bind ..).mpr ((obeys_xeCreateUserClient task).mono ?_)
  rintro φ uc rfl
  cases uc with
  | none => exact Or.inl ⟨rfl, rfl⟩
  | some uc => exact Or.inr ⟨uc, rfl, rfl⟩

/-- **A connection obeys the monitor**, and has asked for the termination of
the client it was given. -/
theorem obeys_connection (task : ℕ)
    (calls : List (UInt32 × Option IOExternalMethodArguments)) :
    Obeys clientMonitor .begun (connection task calls)
      (fun φ v => (φ = .closed ∨ ∃ uc, φ = .ended uc) ∧ v.Served) := by
  unfold connection
  refine (obeys_bind ..).mpr ((obeys_newUserClient task).mono ?_)
  rintro φ r (⟨rfl, rfl⟩ | ⟨uc, rfl, rfl⟩)
  · exact ⟨Or.inl rfl, .refused⟩
  · refine (obeys_bind ..).mpr ?_
    refine (Obeys.mapM (R := fun _ (c : Call) => c.client.providerSvc = true) fun p _ => ?_).mono ?_
    · exact .perform_bind (.look uc) fun svc hsvc => ⟨rfl, hsvc⟩
    · rintro φ made ⟨rfl, hmade⟩
      have hready := hmade.flip.imp (S := fun (c : Call) _ => c.client.providerSvc = true ∧ True)
        fun _ _ h => ⟨h, trivial⟩
      refine .perform_bind (.terminate uc) fun _ _ => ⟨Or.inr ⟨uc, rfl⟩, .opened ?_⟩
      exact ((List.forall₂_and_left ..).mp hready).1

end Obeys

/-! ## Who has which client -/

/-- **The clients are accounted for**: each is what the phase of its one
connection says, and those that no connection has were freed. -/
structure Roster {ι : Type} (K : ClientKit) (t : ClientTable) (φs : ι → ClientPhase)
    (fate : ObjId → Fate) : Prop where
  ledger : Ledger fate t.log
  unborn : ∀ uc, fate uc = .unborn ↔ t.clients.length ≤ uc
  held : ∀ i uc, (φs i).client? = some uc → fate uc = (φs i).fate K
  owners : ∀ i j uc, (φs i).client? = some uc → (φs j).client? = some uc → i = j
  rest : ∀ uc, (∀ i, (φs i).client? ≠ some uc) → fate uc = .unborn ∨ fate uc = .freed
  ready : ∀ i uc, φs i = .opened uc → t.ready uc = true

namespace Roster

variable {ι : Type} {K : ClientKit} {t t' : ClientTable} {φs : ι → ClientPhase}
variable {fate : ObjId → Fate}

/-- The client of a connection was allocated. -/
theorem lt_length (h : Roster K t φs fate) {i : ι} {uc : ObjId} (hi : (φs i).client? = some uc) :
    uc < t.clients.length := by
  refine Nat.lt_of_not_le fun hle => ?_
  have hunborn := (h.unborn uc).mpr hle
  rw [h.held i uc hi] at hunborn
  exact ClientPhase.fate_ne_unborn hi hunborn

variable [DecidableEq ι] {i : ι} {φ : ClientPhase} {uc : ObjId}

/-- **One connection moves**, and with it at most the client `uc`, which it
has or has just got. It keeps the client, or it has freed it. -/
theorem update (h : Roster K t φs fate)
    (hledger : Ledger (Function.update fate uc (φ.fate K)) t'.log)
    (hunborn : ∀ x, Function.update fate uc (φ.fate K) x = .unborn ↔ t'.clients.length ≤ x)
    (hbefore : (φs i).client? = some uc ∨ (φs i).client? = none ∧ fate uc = .unborn)
    (hafter : φ.client? = some uc ∨ φ = .closed)
    (hready : φ = .opened uc → t'.ready uc = true)
    (hothers : ∀ x, x ≠ uc → t.ready x = true → t'.ready x = true) :
    Roster K t' (Function.update φs i φ) (Function.update fate uc (φ.fate K)) := by
  have hself : Function.update φs i φ i = φ := Function.update_self ..
  have hother : ∀ {j}, j ≠ i → Function.update φs i φ j = φs j :=
    fun hj => Function.update_of_ne hj ..
  -- nobody else has the client
  have halone : ∀ {j}, j ≠ i → (φs j).client? ≠ some uc := by
    intro j hj huc
    rcases hbefore with hi | ⟨-, hborn⟩
    · exact hj (h.owners j i uc huc hi)
    · exact absurd (h.lt_length huc) (Nat.not_lt.mpr ((h.unborn uc).mp hborn))
  have hclient : ∀ {x}, φ.client? = some x → x = uc := by
    intro x hx
    rcases hafter with huc | hclosed
    · exact Option.some.inj (hx.symm.trans huc)
    · rw [hclosed] at hx
      exact nomatch hx
  refine ⟨hledger, hunborn, fun j x hj => ?_, fun j k x hj hk => ?_, fun x hx => ?_,
    fun j x hj => ?_⟩
  · by_cases hji : j = i
    · subst hji
      rw [hself] at hj ⊢
      rw [hclient hj, Function.update_self]
    · rw [hother hji] at hj ⊢
      have hxu : x ≠ uc := fun hxu => halone hji (hxu ▸ hj)
      rw [Function.update_of_ne hxu]
      exact h.held j x hj
  · by_cases hji : j = i <;> by_cases hki : k = i
    · rw [hji, hki]
    · rw [hji, hself] at hj
      rw [hother hki, hclient hj] at hk
      exact absurd hk (halone hki)
    · rw [hki, hself] at hk
      rw [hother hji, hclient hk] at hj
      exact absurd hj (halone hji)
    · rw [hother hji] at hj
      rw [hother hki] at hk
      exact h.owners j k x hj hk
  · by_cases hxu : x = uc
    · subst hxu
      rw [Function.update_self]
      rcases hafter with huc | hclosed
      · exact absurd (congrArg ClientPhase.client? hself |>.trans huc) (hx i)
      · rw [hclosed]
        exact Or.inr rfl
    · rw [Function.update_of_ne hxu]
      refine h.rest x fun j hj => ?_
      by_cases hji : j = i
      · subst hji
        rcases hbefore with huc | ⟨hnone, -⟩
        · exact hxu (Option.some.inj (hj.symm.trans huc))
        · exact nomatch hj.symm.trans hnone
      · exact hx j (hother hji ▸ hj)
  · by_cases hji : j = i
    · subst hji
      rw [hself] at hj
      have hxu := hclient (congrArg ClientPhase.client? hj)
      rw [hxu] at hj ⊢
      exact hready hj
    · rw [hother hji] at hj
      have hx : (φs j).client? = some x := congrArg ClientPhase.client? hj
      exact hothers x (fun hxu => halone hji (hxu ▸ hx)) (h.ready j x hj)

/-- **One event** about the client of a connection, and what else the request
did to its fields. -/
theorem logged (h : Roster K t φs fate) {φ₀ : ClientPhase} (hφ : φs i = φ₀) {e : RefEvent ObjId}
    (hi : φ₀.client? = some e.obj) (hmoves : Fate.Moves e (φ₀.fate K) (φ.fate K))
    (hafter : φ.client? = some e.obj ∨ φ = .closed)
    (hopened : φ = .opened e.obj → t'.ready e.obj = true) (hlog : t'.log = t.log)
    (hlength : t'.clients.length = t.clients.length)
    (hothers : ∀ x, x ≠ e.obj → t.ready x = true → t'.ready x = true) :
    ∃ fate', Roster K (t'.logged e) (Function.update φs i φ) fate' := by
  subst hφ
  refine ⟨Function.update fate e.obj (φ.fate K), ?_⟩
  refine h.update ?_ (fun x => ?_) (Or.inl hi) hafter hopened hothers
  · show Ledger _ (e :: t'.log)
    rw [hlog]
    exact h.ledger.step (h.held i e.obj hi ▸ hmoves)
  · show _ ↔ t'.clients.length ≤ x
    rw [hlength]
    by_cases hx : x = e.obj
    · subst hx
      rw [Function.update_self]
      refine iff_of_false ?_ (Nat.not_le.mpr (h.lt_length hi))
      rcases hafter with huc | hclosed
      · exact ClientPhase.fate_ne_unborn huc
      · simp [hclosed, ClientPhase.fate]
    · rw [Function.update_of_ne hx]
      exact h.unborn x

/-- An event that leaves the fields alone. -/
theorem logged_only (h : Roster K t φs fate) {φ₀ : ClientPhase} (hφ : φs i = φ₀)
    {e : RefEvent ObjId} (hi : φ₀.client? = some e.obj)
    (hmoves : Fate.Moves e (φ₀.fate K) (φ.fate K))
    (hafter : φ.client? = some e.obj ∨ φ = .closed)
    (hopened : φ = .opened e.obj → t.ready e.obj = true) :
    ∃ fate', Roster K (t.logged e) (Function.update φs i φ) fate' :=
  h.logged hφ hi hmoves hafter hopened rfl rfl fun _ _ hx => hx

/-- A connection that has no client may give up. -/
theorem giveUp (h : Roster K t φs fate) (hi : (φs i).client? = none) :
    Roster K t (Function.update φs i .closed) fate := by
  have hclient : ∀ j, (Function.update φs i .closed j).client? = (φs j).client? := by
    intro j
    by_cases hj : j = i
    · rw [hj, Function.update_self, hi]
      rfl
    · rw [Function.update_of_ne hj]
  have hsame : ∀ j x, (Function.update φs i .closed j).client? = some x →
      Function.update φs i .closed j = φs j := by
    intro j x hj
    refine Function.update_of_ne (fun hji => ?_) ..
    rw [hclient, hji, hi] at hj
    exact nomatch hj
  refine ⟨h.ledger, h.unborn, fun j x hj => ?_, fun j k x hj hk => ?_, fun x hx => ?_,
    fun j x hj => ?_⟩
  · rw [hsame j x hj]
    exact h.held j x (hclient j ▸ hj)
  · exact h.owners j k x (hclient j ▸ hj) (hclient k ▸ hk)
  · exact h.rest x fun j => hclient j ▸ hx j
  · exact h.ready j x (hsame j x (congrArg ClientPhase.client? hj) ▸ hj)

/-- A connection that has no client gets one, or is refused. -/
theorem alloc (h : Roster K t φs fate) (hnone : (φs i).client? = none) (ok : Bool) :
    ∃ fate', Roster K (t.alloc ok).2 (Function.update φs i ((t.alloc ok).1.elim .closed .raw))
      fate' := by
  cases ok with
  | false =>
    obtain ⟨hledger, hunborn, hheld, howners, hrest, hready⟩ := h.giveUp hnone
    exact ⟨fate, hledger, hunborn, hheld, howners, hrest, hready⟩
  | true =>
    have hunborn : fate t.clients.length = .unborn := (h.unborn _).mpr le_rfl
    refine ⟨Function.update fate t.clients.length .owned, ?_⟩
    show Roster K _ (Function.update φs i (.raw t.clients.length)) _
    refine h.update ?_ (fun x => ?_) (Or.inr ⟨hnone, hunborn⟩) (Or.inl rfl) (fun h => nomatch h)
      fun x _ hx => ClientTable.ready_alloc hx true
    · exact h.ledger.step (e := .alloc _) (hunborn ▸ .alloc _)
    · have hlength : (t.alloc true).2.clients.length = t.clients.length + 1 :=
        List.length_append
      rw [hlength]
      by_cases hx : x = t.clients.length
      · subst hx
        simp [ClientPhase.fate]
      · rw [Function.update_of_ne hx, h.unborn]
        exact ⟨fun hle => Nat.lt_of_le_of_ne hle (Ne.symm hx), Nat.le_of_succ_le⟩

/-- A client that is open is terminated, as far as IOKit gets with it: the plane
lets go of the client first, and then the connection does. -/
theorem terminate (h : Roster K t φs fate) (hφ : φs i = .opened uc) :
    ∃ fate', Roster K ((t.logged (.use uc)).released uc (K.terminateDrops uc))
      (Function.update φs i (.ended uc)) fate' := by
  have hself {φ : ClientPhase} : Function.update φs i φ i = φ := Function.update_self ..
  have huse : Fate.Moves (.use uc) .kept .kept := .use uc Nat.two_pos
  obtain ⟨fate', hused⟩ := h.logged_only (φ := .linked uc) hφ rfl huse (Or.inl rfl)
    fun h => nomatch h
  match hdrops : K.terminateDrops uc with
  | 0 =>
    have hfate : (ClientPhase.ended uc).fate K = .kept := congrArg ClientPhase.fateAfter hdrops
    exact h.logged_only hφ rfl (hfate.symm ▸ huse) (Or.inl rfl) fun h => nomatch h
  | 1 =>
    have hfate : (ClientPhase.ended uc).fate K = .swept := congrArg ClientPhase.fateAfter hdrops
    rw [← Function.update_idem (f := φs) (v := ClientPhase.linked uc)]
    exact hused.logged_only hself rfl (hfate.symm ▸ .sweep uc) (Or.inl rfl) fun h => nomatch h
  | 2 =>
    have hfate : (ClientPhase.ended uc).fate K = .freed := congrArg ClientPhase.fateAfter hdrops
    obtain ⟨fate'', hswept⟩ := hused.logged_only (φ := .unlinked uc) hself rfl (.sweep uc)
      (Or.inl rfl) fun h => nomatch h
    rw [Function.update_idem] at hswept
    rw [← Function.update_idem (f := φs) (v := ClientPhase.unlinked uc)]
    exact hswept.logged_only hself rfl (hfate.symm ▸ .drop uc) (Or.inl rfl) fun h => nomatch h

/-- **A request that a connection may make** is answered as the monitor says,
and leaves the clients accounted for: by cases on the request. -/
theorem exec (h : Roster K t φs fate) {o : ClientOp}
    (ho : clientMonitor.allows (φs i) o) :
    clientMonitor.admits (φs i) o (K.exec o t).1
      ∧ ∃ fate', Roster K (K.exec o t).2
        (Function.update φs i (clientMonitor.next (φs i) o (K.exec o t).1)) fate' := by
  replace ho : (φs i).Allows o := ho
  generalize hφ : φs i = φ at ho
  cases ho with
  | alloc => exact ⟨trivial, h.alloc (congrArg ClientPhase.client? hφ) (K.allocOk t.allocs)⟩
  | init uc =>
    exact ⟨trivial, h.logged_only hφ rfl (.use uc Nat.one_pos) (Or.inl rfl) fun h => nomatch h⟩
  | setTask uc owningTask =>
    refine ⟨trivial, h.logged hφ rfl (.use uc Nat.one_pos) (Or.inl rfl) (fun h => nomatch h) rfl
      (List.length_modify ..) fun x hx hready => ?_⟩
    exact (ClientTable.ready_modify_of_ne t _ hx).trans hready
  | attach uc =>
    refine ⟨trivial, ?_⟩
    show ∃ fate', Roster K (t.logged (if K.attachOk uc then .retain uc else .use uc))
      (Function.update φs i (if K.attachOk uc then .linked uc else .raw uc)) fate'
    cases K.attachOk uc with
    | false => exact h.logged_only hφ rfl (.use uc Nat.one_pos) (Or.inl rfl) fun h => nomatch h
    | true => exact h.logged_only hφ rfl (.retain uc) (Or.inl rfl) fun h => nomatch h
  | undo uc =>
    exact ⟨trivial, h.logged_only hφ rfl (.undo uc) (Or.inr rfl) fun h => nomatch h⟩
  | start uc =>
    exact ⟨trivial, h.logged_only hφ rfl (.use uc Nat.two_pos) (Or.inl rfl) fun h => nomatch h⟩
  | cast uc =>
    refine ⟨trivial, fate, ?_⟩
    show Roster K t (Function.update φs i (.linked uc)) fate
    rwa [← hφ, Function.update_eq_self]
  | setProvider uc svc =>
    have huc : uc < t.clients.length := h.lt_length (congrArg ClientPhase.client? hφ)
    refine ⟨trivial, h.logged hφ rfl ?_ (Or.inl ?_) (fun hopened => ?_) rfl
      (List.length_modify ..) fun x hx hready => ?_⟩
    · cases svc <;> exact .use uc Nat.two_pos
    · cases svc <;> rfl
    · cases svc with
      | false => exact nomatch hopened
      | true => exact ClientTable.ready_modify_providerSvc huc
    · exact (ClientTable.ready_modify_of_ne t _ hx).trans hready
  | detach uc =>
    exact ⟨trivial, h.logged_only hφ rfl (.sweep uc) (Or.inl rfl) fun h => nomatch h⟩
  | drop uc =>
    exact ⟨trivial, h.logged_only hφ rfl (.drop uc) (Or.inr rfl) fun h => nomatch h⟩
  | look uc =>
    have hready := h.ready i uc hφ
    exact ⟨hready, h.logged_only hφ rfl (.use uc Nat.two_pos) (Or.inl rfl) fun _ => hready⟩
  | terminate uc => exact ⟨trivial, h.terminate hφ⟩

end Roster

/-! ## Every interleaving of connections -/

section Connections

variable {ι : Type}

/-- **Connections side by side**, each with the task it is opened for and the
calls that are made through it. -/
def connectionPool (work : ι → ℕ × List (UInt32 × Option IOExternalMethodArguments)) :
    Pool ClientOp ClientOp.Resp ClientTable Visit ι :=
  .start {} fun i => connection (work i).1 (work i).2

/-- Before anything is opened there are no clients. -/
theorem roster_nil (K : ClientKit) :
    Roster K {} (fun _ : ι => ClientPhase.begun) fun _ => .unborn where
  ledger := ⟨trivial, fun _ => rfl, fun _ => rfl⟩
  unborn uc := ⟨fun _ => Nat.zero_le uc, fun _ => rfl⟩
  held _ _ h := nomatch h
  owners _ _ _ h := nomatch h
  rest _ _ := Or.inl rfl
  ready _ _ h := nomatch h

/-- **No client is lost or used too long.** In every interleaving of any
number of connections, whatever fails on the way and however far terminations
get: nothing is done to a client that was freed; a client that was allocated
was freed, once, unless one connection has it – and that connection is not
over, and the client has one reference or two, or it is over, and there are the
references that IOKit has yet to drop; and a connection that is over was
refused, or opened and all of its calls came in through a client that has its
service. -/
theorem clients_accounted [DecidableEq ι] (K : ClientKit)
    (work : ι → ℕ × List (UInt32 × Option IOExternalMethodArguments)) (sched : List ι) :
    let c := (connectionPool work).runs K.exec sched
    let φs := c.phases clientMonitor .begun
    RefEvent.Live c.shared.log
      ∧ (∀ uc < c.shared.clients.length, RefEvent.Freed uc c.shared.log
        ∨ ∃ i, (φs i).client? = some uc ∧ (∀ j, (φs j).client? = some uc → j = i)
          ∧ ((c.thread i).result? = none
              ∧ (RefEvent.count uc c.shared.log = 1 ∨ RefEvent.count uc c.shared.log = 2)
            ∨ (c.thread i).result?.isSome = true ∧ φs i = .ended uc
              ∧ RefEvent.count uc c.shared.log + K.terminateDrops uc = 2))
      ∧ ∀ i v, (c.thread i).result? = some v → v.Served := by
  intro c φs
  have halong : Pool.Along K.exec (fun _ _ => True) (connectionPool work) sched :=
    Pool.along_of_forall (fun _ _ => trivial) _ _
  obtain ⟨hobeys, fate, hroster⟩ := halong.phases (R := fun t φs => ∃ fate, Roster K t φs fate)
    (fun c i o k _ _ ⟨fate, hroster⟩ _ ho => hroster.exec ho)
    (Pool.obedient_start fun i => obeys_connection (work i).1 (work i).2) ⟨_, roster_nil K⟩
  have hends : ∀ i v, (c.thread i).result? = some v →
      (φs i = .closed ∨ ∃ uc, φs i = .ended uc) ∧ v.Served := by
    intro i v hv
    have hrest : Prog.Obeys clientMonitor (φs i) (c.thread i) _ := hobeys i
    rw [Prog.eq_ret_of_result? hv] at hrest
    exact hrest
  refine ⟨hroster.ledger.live, fun uc huc => ?_, fun i v hv => (hends i v hv).2⟩
  by_cases hheld : ∃ i, (φs i).client? = some uc
  · obtain ⟨i, hi⟩ := hheld
    have hcount : RefEvent.count uc c.shared.log = ((φs i).fate K).refs := by
      rw [hroster.ledger.refs, hroster.held i uc hi]
    refine Or.inr ⟨i, hi, fun j hj => hroster.owners j i uc hj hi, ?_⟩
    rw [hcount]
    rcases ClientPhase.refs_fate (K := K) hi with ⟨hrefs, hne⟩ | ⟨hended, hrefs⟩
    · refine Or.inl ⟨Option.eq_none_iff_forall_ne_some.mpr fun v hv => ?_, hrefs⟩
      rcases (hends i v hv).1 with hclosed | ⟨uc', hended⟩
      · exact nomatch (congrArg ClientPhase.client? hclosed).symm.trans hi
      · exact hne uc' hended
    · -- a connection that has asked for the termination asks for nothing more
      refine Or.inr ⟨?_, hended, hrefs⟩
      have hrest : Prog.Obeys clientMonitor (φs i) (c.thread i) _ := hobeys i
      rw [hended] at hrest
      cases hp : c.thread i with
      | ret v => rfl
      | request o k =>
        rw [hp] at hrest
        exact nomatch hrest.1
  · have hfate : fate uc = .freed := (hroster.rest uc fun i hi => hheld ⟨i, hi⟩).resolve_left
      fun hunborn => Nat.not_lt.mpr ((hroster.unborn uc).mp hunborn) huc
    refine Or.inl ⟨?_, ?_, hroster.ledger.live⟩
    · rw [hroster.ledger.refs, hfate]
      rfl
    · rw [hroster.ledger.drops, hfate]
      rfl

end Connections
