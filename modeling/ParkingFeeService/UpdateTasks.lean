/-
**The tasks of the update service, cut at their await points.**

An install call, its background task, the container monitor, a removal and an offload cycle all
wait for podman commands; between two waits a task runs a straight piece of code that writes to the
adapter map and whose results it discards.  A task is therefore represented by the await point it
is blocked at, with the local variables it still needs, and `Task.resume` is the code from that
await point to the next one: the writes it makes, the await points that follow (its own and those
of the tasks it spawns), and the reply of the call if it ends there.

Podman is a parameter.  A command is issued when a task reaches its await point, is carried out at
some later moment, and its result is picked up at a later moment still, so that everything another
task does in between is accounted for.

Main definitions:

* `UpdateService.Cmd`, `UpdateService.Reply` — podman commands and their typed results;
* `UpdateService.Write`, `UpdateService.applyAll` — writes to the adapter map;
* `UpdateService.Task`, `UpdateService.Task.cmd`, `UpdateService.Task.resume` — the await points;
* `UpdateService.installAdapter`, `UpdateService.removeAdapter`,
  `UpdateService.runOffloadCycle` — the first pieces of the three entry points.

Main results:

* `UpdateService.stateAt_apply`, `UpdateService.sent_apply` — the effect of one write on the state
  of every adapter and on the events sent;
* `UpdateService.installAdapter_none`, `UpdateService.installAdapter_some`,
  `UpdateService.installAdapter_of_not_valid`, `UpdateService.mem_tasks_removeAdapter` — what the
  calls do before their first await point;
* `UpdateService.resume_installInspect_of_eq`, `UpdateService.resume_installInspect_of_ne`,
  `UpdateService.resume_monitorWait` — the turns that depend on more than success and failure.
-/

import ParkingFeeService.UpdateState

set_option relaxedAutoImplicit false
set_option autoImplicit false

namespace UpdateService

/-! ### Podman commands -/

/-- Error type for podman operations. -/
structure PodmanError where
  message : String
  deriving DecidableEq, Repr

/-- The podman commands the service runs. -/
inductive Cmd
  | pull (imageRef : String)
  | inspectDigest (imageRef : String)
  | run (adapterId imageRef : String)
  | stop (adapterId : String)
  | rm (adapterId : String)
  | rmi (imageRef : String)
  | wait (adapterId : String)
  deriving DecidableEq, Repr

/-- What a successful command returns: a digest, an exit code, or nothing. -/
abbrev Cmd.Out : Cmd → Type
  | .inspectDigest _ => String
  | .wait _ => ℤ
  | _ => Unit

/-- The result of a command. -/
abbrev Reply (c : Cmd) : Type := Except PodmanError c.Out

/-- A result before it is known to which command it belongs. -/
inductive Answer
  | done
  | digest (digest : String)
  | exited (code : ℤ)
  | failed (e : PodmanError)
  deriving DecidableEq, Repr

/-- The answer as a result of the command, if it is of the right kind. -/
def Answer.toReply : (c : Cmd) → Answer → Option (Reply c)
  | _, .failed e => some (.error e)
  | .inspectDigest _, .digest d => some (.ok d)
  | .wait _, .exited code => some (.ok code)
  | .pull _, .done => some (.ok ())
  | .run _ _, .done => some (.ok ())
  | .stop _, .done => some (.ok ())
  | .rm _, .done => some (.ok ())
  | .rmi _, .done => some (.ok ())
  | _, _ => none

/-! ### Writes to the adapter map -/

/-- A write to the adapter map whose result is discarded. -/
inductive Write
  | create (entry : AdapterEntry)
  | transition (adapterId : String) (newState : AdapterState) (errorMsg : Option String)
  | remove (adapterId : String)
  deriving DecidableEq, Repr

/-- The effect of a write. -/
def Write.apply (clk : Clock) (sm : StateManager) : Write → StateManager
  | .create entry => sm.createAdapter entry
  | .transition id st msg => sm.keepTransition clk id st msg
  | .remove id => sm.keepRemove id

/-- The effect of a list of writes, in order. -/
def applyAll (clk : Clock) (sm : StateManager) (ws : List Write) : StateManager :=
  ws.foldl (Write.apply clk) sm

@[simp] theorem applyAll_nil (clk : Clock) (sm : StateManager) : applyAll clk sm [] = sm := rfl

@[simp] theorem applyAll_cons (clk : Clock) (sm : StateManager) (w : Write) (ws : List Write) :
    applyAll clk sm (w :: ws) = applyAll clk (w.apply clk sm) ws := rfl

theorem applyAll_append (clk : Clock) (sm : StateManager) (ws ws' : List Write) :
    applyAll clk sm (ws ++ ws') = applyAll clk (applyAll clk sm ws) ws' := List.foldl_append ..

/-- The adapter a write is about. -/
def Write.target : Write → String
  | .create entry => entry.adapterId
  | .transition id _ _ => id
  | .remove id => id

/-- A write leaves the other adapters alone. -/
theorem getAdapter_apply_of_ne (clk : Clock) (sm : StateManager) {w : Write} {id : String}
    (h : id ≠ w.target) : (w.apply clk sm).getAdapter id = sm.getAdapter id := by
  cases w with
  | create entry => exact (sm.getAdapter_createAdapter entry id).trans (if_neg h)
  | transition id' st msg =>
      exact (StateManager.getAdapter_keepTransition clk sm id' st msg id).trans (if_neg h)
  | remove id' => exact (sm.getAdapter_keepRemove id' id).trans (if_neg h)

/-- The entry that a write is about. -/
theorem getAdapter_apply_target (clk : Clock) (sm : StateManager) (w : Write) :
    (w.apply clk sm).getAdapter w.target =
      match w with
      | .create entry => some entry
      | .transition id st msg => (sm.getAdapter id).map (AdapterEntry.enter clk st msg)
      | .remove _ => none := by
  cases w with
  | create entry => exact (sm.getAdapter_createAdapter entry _).trans (if_pos rfl)
  | transition id st msg =>
      exact (StateManager.getAdapter_keepTransition clk sm id st msg _).trans (if_pos rfl)
  | remove id => exact (sm.getAdapter_keepRemove id _).trans (if_pos rfl)

theorem getAdapter_applyAll_of_ne (clk : Clock) {ws : List Write} {id : String} :
    ∀ sm : StateManager, (∀ w ∈ ws, id ≠ w.target) →
      (applyAll clk sm ws).getAdapter id = sm.getAdapter id := by
  induction ws with
  | nil => intro sm _; rfl
  | cons w ws ih =>
      intro sm h
      rw [applyAll_cons, ih _ fun w' hw' => h w' (List.mem_cons_of_mem _ hw'),
        getAdapter_apply_of_ne clk sm (h w List.mem_cons_self)]

/-- The state of an adapter after a write. -/
theorem stateAt_apply (clk : Clock) (sm : StateManager) (w : Write) (id : String) :
    (w.apply clk sm).stateAt id =
      if id = w.target then
        match w with
        | .create entry => some entry.state
        | .transition _ st _ => (sm.stateAt id).map fun _ => st
        | .remove _ => none
      else sm.stateAt id := by
  simp only [StateManager.stateAt]
  split
  · next h =>
      subst h
      cases w with
      | create entry => simp [Write.apply, Write.target, StateManager.getAdapter_createAdapter]
      | transition id' st msg =>
          simp [Write.apply, Write.target, StateManager.getAdapter_keepTransition,
            Function.comp_def]
      | remove id' => simp [Write.apply, Write.target, StateManager.getAdapter_keepRemove]
  · next h => rw [getAdapter_apply_of_ne clk sm h]

@[simp] theorem stateAt_create (clk : Clock) (sm : StateManager) (e : AdapterEntry) (id : String) :
    ((Write.create e).apply clk sm).stateAt id =
      if id = e.adapterId then some e.state else sm.stateAt id := stateAt_apply clk sm _ id

@[simp] theorem stateAt_transition (clk : Clock) (sm : StateManager) (id' : String)
    (st : AdapterState) (msg : Option String) (id : String) :
    ((Write.transition id' st msg).apply clk sm).stateAt id =
      if id = id' then (sm.stateAt id).map (fun _ => st) else sm.stateAt id :=
  stateAt_apply clk sm _ id

@[simp] theorem stateAt_remove (clk : Clock) (sm : StateManager) (id' id : String) :
    ((Write.remove id').apply clk sm).stateAt id =
      if id = id' then none else sm.stateAt id := stateAt_apply clk sm _ id

/-- The events of a write: a transition of a known adapter emits one. -/
def Write.events (clk : Clock) (sm : StateManager) : Write → List AdapterStateEvent
  | .transition id st _ =>
      ((sm.stateAt id).map fun old => AdapterStateEvent.mk id old st clk.unixSecs).toList
  | _ => []

theorem sent_apply (clk : Clock) (sm : StateManager) (w : Write) :
    (w.apply clk sm).sent = sm.sent ++ w.events clk sm := by
  cases w with
  | create entry => simp [Write.apply, Write.events]
  | transition id st msg =>
      rw [Write.apply, StateManager.sent_keepTransition, Write.events, StateManager.stateAt,
        Option.map_map]
      rfl
  | remove id => simp [Write.apply, Write.events]

/-! ### Install jobs -/

/-- One accepted install call: its job id and the two arguments. -/
structure InstallJob where
  jobId : String
  imageRef : String
  checksumSha256 : String
  deriving DecidableEq, Repr

/-- The adapter the job installs. -/
def InstallJob.adapterId (job : InstallJob) : String := deriveAdapterId job.imageRef

/-- The entry an install call creates. -/
def InstallJob.entry (job : InstallJob) : AdapterEntry where
  adapterId := job.adapterId
  imageRef := job.imageRef
  checksumSha256 := job.checksumSha256
  state := .unknown
  jobId := job.jobId
  stoppedAt := none
  errorMessage := none

@[simp] theorem InstallJob.entry_adapterId (job : InstallJob) :
    job.entry.adapterId = job.adapterId := rfl

@[simp] theorem InstallJob.entry_state (job : InstallJob) : job.entry.state = .unknown := rfl

@[simp] theorem InstallJob.entry_jobId (job : InstallJob) : job.entry.jobId = job.jobId := rfl

/-- The call passes the validation of its arguments. -/
def InstallJob.Valid (job : InstallJob) : Prop := job.imageRef ≠ "" ∧ job.checksumSha256 ≠ ""

instance (job : InstallJob) : Decidable job.Valid :=
  inferInstanceAs (Decidable (job.imageRef ≠ "" ∧ job.checksumSha256 ≠ ""))

/-- Error returned from the synchronous part of an install call. -/
inductive InstallError
  | invalidArgument (msg : String)
  deriving DecidableEq, Repr

/-- Error returned from a removal. -/
inductive RemoveError
  | notFound (msg : String)
  | podmanFailed (msg : String)
  deriving DecidableEq, Repr

/-- The reply of an API call. -/
inductive Response
  | installed (jobId adapterId : String) (state : AdapterState)
  | installFailed (e : InstallError)
  | removed (adapterId : String)
  | removeFailed (e : RemoveError)
  deriving DecidableEq, Repr

/-! ### Await points -/

/-- A task blocked at one of its await points. -/
inductive Task
  /-- an install call stopping the running adapter -/
  | installStop (job : InstallJob) (running : AdapterEntry)
  /-- the background task pulling the image -/
  | installPull (job : InstallJob)
  /-- the background task reading the digest of the pulled image -/
  | installInspect (job : InstallJob)
  /-- the background task removing the image after a checksum mismatch -/
  | installRmi (job : InstallJob)
  /-- the background task starting the container -/
  | installRun (job : InstallJob)
  /-- the monitor of the container the job started -/
  | monitorWait (job : InstallJob)
  /-- a removal stopping the container -/
  | removeStop (adapterId : String) (adapter : AdapterEntry)
  /-- a removal deleting the container -/
  | removeRm (adapterId : String) (adapter : AdapterEntry)
  /-- a removal deleting the image -/
  | removeRmi (adapterId : String) (adapter : AdapterEntry)
  /-- an offload cycle deleting a container, with the candidates it has not come to yet -/
  | offloadRm (adapter : AdapterEntry) (rest : List AdapterEntry)
  /-- an offload cycle deleting an image -/
  | offloadRmi (adapter : AdapterEntry) (rest : List AdapterEntry)
  deriving DecidableEq, Repr

/-- The command a task waits for. -/
abbrev Task.cmd : Task → Cmd
  | .installStop _ running => .stop running.adapterId
  | .installPull job => .pull job.imageRef
  | .installInspect job => .inspectDigest job.imageRef
  | .installRmi job => .rmi job.imageRef
  | .installRun job => .run job.adapterId job.imageRef
  | .monitorWait job => .wait job.adapterId
  | .removeStop id _ => .stop id
  | .removeRm id _ => .rm id
  | .removeRmi _ adapter => .rmi adapter.imageRef
  | .offloadRm adapter _ => .rm adapter.adapterId
  | .offloadRmi adapter _ => .rmi adapter.imageRef

/-- The job whose background install task or container monitor the task is. -/
def Task.installJob : Task → Option InstallJob
  | .installPull job => some job
  | .installInspect job => some job
  | .installRmi job => some job
  | .installRun job => some job
  | .monitorWait job => some job
  | _ => none

/-- The job of an install call that has not created its entry yet. -/
def Task.calling : Task → Option InstallJob
  | .installStop job _ => some job
  | _ => none

/-- What a task does between two await points: its writes, the tasks that go on afterwards, the
job whose entry it created, and the reply of the call that ends with it. -/
structure Turn where
  writes : List Write := []
  tasks : List Task := []
  created : Option InstallJob := none
  response : Option Response := none

/-- The rest of an install call once the running adapter, if any, has been dealt with. -/
def installCreate (before : List Write) (job : InstallJob) : Turn where
  writes := before ++ [.create job.entry, .transition job.adapterId .downloading none]
  tasks := [.installPull job]
  created := some job
  response := some (.installed job.jobId job.adapterId .downloading)

/-- An install call up to its first await point.  `running` is the answer of
`get_running_adapter`. -/
def installAdapter (job : InstallJob) (running : Option AdapterEntry) : Turn :=
  if job.imageRef = "" then
    { response := some (.installFailed (.invalidArgument "image_ref is required")) }
  else if job.checksumSha256 = "" then
    { response := some (.installFailed (.invalidArgument "checksum_sha256 is required")) }
  else
    match running with
    | some r => { tasks := [.installStop job r] }
    | none => installCreate [] job

/-- A removal up to its first await point. -/
def removeAdapter (adapterId : String) : Option AdapterEntry → Turn
  | none => { response := some (.removeFailed (.notFound ("adapter not found: " ++ adapterId))) }
  | some adapter =>
      if adapter.state = .running then { tasks := [.removeStop adapterId adapter] }
      else { tasks := [.removeRm adapterId adapter] }

/-- An offload cycle from one candidate to the next, after the writes `before`. -/
def runOffloadCycle (before : List Write) : List AdapterEntry → Turn
  | [] => { writes := before }
  | adapter :: rest =>
      { writes := before ++ [.transition adapter.adapterId .offloading none]
        tasks := [.offloadRm adapter rest] }

/-- A cycle writes what is to be written before it goes on, and a state of the next candidate. -/
theorem forall_writes_runOffloadCycle {p : Write → Prop} {before : List Write}
    (hb : ∀ x ∈ before, p x) (hoff : ∀ id, p (.transition id .offloading none))
    (rest : List AdapterEntry) : ∀ x ∈ (runOffloadCycle before rest).writes, p x := by
  cases rest with
  | nil => exact hb
  | cons adapter rest =>
      intro x hx
      rcases List.mem_append.1 hx with hx | hx
      · exact hb x hx
      · rw [List.mem_singleton.1 hx]
        exact hoff adapter.adapterId

/-- A failed command of a removal. -/
def removeFail (adapterId : String) (e : PodmanError) : Turn where
  writes := [.transition adapterId .error (some e.message)]
  response := some (.removeFailed (.podmanFailed e.message))

/-- The code from an await point to the next one. -/
def Task.resume : (t : Task) → Reply t.cmd → Turn
  -- a failed stop marks the old adapter and the installation goes on all the same
  | .installStop job running, .ok () =>
      installCreate [.transition running.adapterId .stopped none] job
  | .installStop job running, .error e =>
      installCreate [.transition running.adapterId .error (some e.message)] job
  | .installPull job, .ok () => { tasks := [.installInspect job] }
  | .installPull job, .error e =>
      { writes := [.transition job.adapterId .error (some e.message)] }
  | .installInspect job, .ok digest =>
      if digest ≠ job.checksumSha256 then
        { writes := [.transition job.adapterId .error (some "checksum_mismatch")]
          tasks := [.installRmi job] }
      else
        { writes := [.transition job.adapterId .installing none]
          tasks := [.installRun job] }
  | .installInspect job, .error e =>
      { writes := [.transition job.adapterId .error (some e.message)] }
  -- whether the image could be removed is not looked at
  | .installRmi _, _ => {}
  | .installRun job, .ok () =>
      { writes := [.transition job.adapterId .running none]
        tasks := [.monitorWait job] }
  | .installRun job, .error e =>
      { writes := [.transition job.adapterId .error (some e.message)] }
  | .monitorWait job, .ok code =>
      if code = 0 then { writes := [.transition job.adapterId .stopped none] }
      else
        { writes := [.transition job.adapterId .error
            (some ("container exited with code " ++ toString code))] }
  | .monitorWait job, .error e =>
      { writes := [.transition job.adapterId .error (some e.message)] }
  | .removeStop id adapter, .ok () => { tasks := [.removeRm id adapter] }
  | .removeStop id _, .error e => removeFail id e
  -- the image is that of the entry read at the start of the call
  | .removeRm id adapter, .ok () => { tasks := [.removeRmi id adapter] }
  | .removeRm id _, .error e => removeFail id e
  | .removeRmi id _, .ok () => { writes := [.remove id], response := some (.removed id) }
  | .removeRmi id _, .error e => removeFail id e
  -- a failure ends the work on this candidate, not the cycle
  | .offloadRm adapter rest, .ok () => { tasks := [.offloadRmi adapter rest] }
  | .offloadRm adapter rest, .error e =>
      runOffloadCycle [.transition adapter.adapterId .error (some e.message)] rest
  | .offloadRmi adapter rest, .ok () => runOffloadCycle [.remove adapter.adapterId] rest
  | .offloadRmi adapter rest, .error e =>
      runOffloadCycle [.transition adapter.adapterId .error (some e.message)] rest

/-- The digest is the expected one. -/
theorem resume_installInspect_of_eq {job : InstallJob} {digest : String}
    (hd : digest = job.checksumSha256) :
    (Task.installInspect job).resume (.ok digest) =
      { writes := [.transition job.adapterId .installing none], tasks := [.installRun job] } := by
  simp [Task.resume, hd]

/-- The digest is another one. -/
theorem resume_installInspect_of_ne {job : InstallJob} {digest : String}
    (hd : digest ≠ job.checksumSha256) :
    (Task.installInspect job).resume (.ok digest) =
      { writes := [.transition job.adapterId .error (some "checksum_mismatch")]
        tasks := [.installRmi job] } := by
  simp [Task.resume, hd]

/-- What a monitor does when its container has exited, or could not be waited for. -/
theorem resume_monitorWait (job : InstallJob) (r : Reply (Task.monitorWait job).cmd) :
    ∃ st msg, (st = .stopped ∨ st = .error) ∧ (Task.monitorWait job).resume r =
      { writes := [.transition job.adapterId st msg] } := by
  cases r with
  | ok code =>
      by_cases hc : code = 0
      · exact ⟨.stopped, none, .inl rfl, by simp [Task.resume, hc]⟩
      · exact ⟨.error, _, .inr rfl, by simp only [Task.resume, hc, if_false]; rfl⟩
  | error e => exact ⟨.error, _, .inr rfl, rfl⟩

/-- A call that does not pass the validation only answers. -/
theorem installAdapter_of_not_valid {job : InstallJob} (running : Option AdapterEntry)
    (h : ¬ job.Valid) :
    (installAdapter job running).writes = [] ∧ (installAdapter job running).tasks = [] ∧
      (installAdapter job running).created = none := by
  simp only [installAdapter]
  by_cases himg : job.imageRef = ""
  · simp [himg]
  · have hsum : job.checksumSha256 = "" := by
      by_contra hsum
      exact h ⟨himg, hsum⟩
    simp [himg, hsum]

/-- A valid call that finds no adapter running goes on at once. -/
theorem installAdapter_none {job : InstallJob} (h : job.Valid) :
    installAdapter job none = installCreate [] job := by
  rw [installAdapter, if_neg h.1, if_neg h.2]

/-- A valid call that finds an adapter running stops it first. -/
theorem installAdapter_some {job : InstallJob} (h : job.Valid) (running : AdapterEntry) :
    installAdapter job (some running) = { tasks := [.installStop job running] } := by
  rw [installAdapter, if_neg h.1, if_neg h.2]

/-- A removal writes nothing before its first await point. -/
@[simp] theorem writes_removeAdapter (id : String) (e : Option AdapterEntry) :
    (removeAdapter id e).writes = [] := by
  cases e with
  | none => rfl
  | some e => by_cases he : e.state = .running <;> simp [removeAdapter, he]

@[simp] theorem created_removeAdapter (id : String) (e : Option AdapterEntry) :
    (removeAdapter id e).created = none := by
  cases e with
  | none => rfl
  | some e => by_cases he : e.state = .running <;> simp [removeAdapter, he]

/-- The first await point of a removal. -/
theorem mem_tasks_removeAdapter {id : String} {e : Option AdapterEntry} {t : Task}
    (h : t ∈ (removeAdapter id e).tasks) :
    ∃ adapter, t = .removeStop id adapter ∨ t = .removeRm id adapter := by
  cases e with
  | none => cases h
  | some e =>
      rw [removeAdapter] at h
      split at h
      · exact ⟨e, .inl (List.mem_singleton.1 h)⟩
      · exact ⟨e, .inr (List.mem_singleton.1 h)⟩

end UpdateService
