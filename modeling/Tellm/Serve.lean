/-
  SERVE: the `ollama serve` processes that the runtime starts.

  A worker whose endpoint does not answer starts one: a closure on a blocking thread spawns it, and the
  worker, once it is resumed with the child, registers it in `CHILD`.  What is registered is stopped when
  another takes its place, when `Runtime::run` ends, or by the guard behind that.  Aborting the worker
  drops its future at the await it is suspended at; the closure runs on, and its child, which nobody
  receives, is dropped without being killed.

  A process is known by the spawn it comes of.

  1. **The model**: the stages of an `ensure_ready` call, of a spawn, and of `Runtime::run`;
     `ServeState.step`.
  2. **`Owns`**: who will stop a process, or register it: the call that awaits it, the slot, or the
     runtime.  Each has at most one owner (`Custody`).
  3. **`Careful`**: no call is dropped while its spawn may leave a process, and no stop of a running process
     fails.  Then every process has an owner (`Covered`), and none is left when the runtime has returned.
  4. **`Orphan`**: a running process without an owner.  A step that is not careful leaves one, or a spawn that
     becomes one, and the run can go on to its end with it.
  5. **`serve_stopped_when`**: so careful runs are those that the runtime's promise holds of.

  Every call of the operating system may fail: the spawn, the poll for an exit, the kill, the wait.
  `ChildCalls` is what they answer, and `stopChild` is total over it: it succeeds or reports.  A process
  may also exit by itself at any time.

  Several calls of `ensure_ready` may be in progress, for several endpoints.  A lock lets one of them at a
  time past the first probe, but a call that is aborted gives up the lock while its closure still runs, so
  a second spawn may be under way before the first has come to anything.

  Custody is proved of all runs, careful or not: it is what makes "nobody will stop this process" a stable
  property, and from it every failure in `serve_stopped_when` is followed to a run that returns with the
  process still running.  A run is judged step by step, by the state that each step meets, so a careful
  run can be recognised while it goes on.
-/
import Tellm.Credentials
import Tellm.Lib.Runs
import Tellm.Lib.Custody

namespace Tellm.Ollama

open Runs Custodies

/-! ## Stopping a child -/

/-- What the calls on a child answer, in the order in which `stop_child` makes them.  A status is that of the
    process's exit. -/
structure ChildCalls where
  tryWait : Except String (Option String)
  /-- `terminate_child`: the method, or why there is none. -/
  terminate : Except String String
  /-- `wait_for_exit`: what `try_wait` answers until the deadline. -/
  polls : List (Except String (Option String))
  tryWaitAgain : Except String (Option String)
  kill : Except String Unit
  wait : Except String String

/-- `wait_for_exit`. -/
def waitForExit (pid : Nat) : List (Except String (Option String)) → Except String (Option String)
  | [] => .ok none
  | .error error :: _ => .error s!"could not inspect pid {pid}: {error}"
  | .ok (some status) :: _ => .ok (some status)
  | .ok none :: polls => waitForExit pid polls

/-- The end of `stop_child`: SIGKILL, unless the process has exited by now. -/
def killChild (pid : Nat) (calls : ChildCalls) (fallbackReason : String) : Except String String :=
  match calls.tryWaitAgain with
  | .error error => .error s!"could not inspect pid {pid}: {error}"
  | .ok (some status) =>
    .ok s!"stopped tellm-started `ollama serve` pid {pid} after {fallbackReason} with {status}"
  | .ok none =>
    match calls.kill with
    | .error error => .error s!"could not kill pid {pid} after {fallbackReason}: {error}"
    | .ok () =>
      match calls.wait with
      | .error error => .error s!"could not wait for pid {pid}: {error}"
      | .ok status =>
        .ok s!"stopped tellm-started `ollama serve` pid {pid} with SIGKILL after {fallbackReason}: {status}"

/-- `stop_child`. -/
def stopChild (pid : Nat) (calls : ChildCalls) : Except String String :=
  match calls.tryWait with
  | .error error => .error s!"could not inspect pid {pid}: {error}"
  | .ok (some status) => .ok s!"`ollama serve` pid {pid} already exited with {status}"
  | .ok none =>
    match calls.terminate with
    | .error error => killChild pid calls s!"failed graceful stop: {error}"
    | .ok method =>
      match waitForExit pid calls.polls with
      | .error error => .error error
      | .ok (some status) =>
        .ok s!"stopped tellm-started `ollama serve` pid {pid} after {method} with {status}"
      | .ok none => killChild pid calls s!"{method} timeout"

/-- SIGKILL reaches the process, or it has exited before. -/
inductive ChildCalls.Killable (calls : ChildCalls) : Prop
  | exited {status : String} : calls.tryWaitAgain = .ok (some status) → Killable calls
  | killed {status : String} :
      calls.tryWaitAgain = .ok none → calls.kill = .ok () → calls.wait = .ok status → Killable calls

/-- The process has exited, does so when it is asked to, or can be killed; no inspection up to there fails. -/
inductive ChildCalls.Stoppable (calls : ChildCalls) : Prop
  | exited {status : String} : calls.tryWait = .ok (some status) → Stoppable calls
  | terminated {method status : String} {before after : List (Except String (Option String))} :
      calls.tryWait = .ok none → calls.terminate = .ok method → (∀ poll ∈ before, poll = .ok none) →
      calls.polls = before ++ .ok (some status) :: after → Stoppable calls
  | timeout {method : String} : calls.tryWait = .ok none → calls.terminate = .ok method →
      (∀ poll ∈ calls.polls, poll = .ok none) → calls.Killable → Stoppable calls
  | unasked {error : String} : calls.tryWait = .ok none → calls.terminate = .error error → calls.Killable →
      Stoppable calls

/-- The wait times out if every poll finds the child running. -/
theorem waitForExit_eq_none {pid : Nat} :
    ∀ {polls : List (Except String (Option String))},
      waitForExit pid polls = .ok none ↔ ∀ poll ∈ polls, poll = .ok none
  | [] => ⟨nofun, fun _ => rfl⟩
  | .error error :: polls => ⟨nofun, fun h => nomatch h _ List.mem_cons_self⟩
  | .ok (some status) :: polls => ⟨nofun, fun h => nomatch h _ List.mem_cons_self⟩
  | .ok none :: polls => by
    rw [waitForExit, waitForExit_eq_none, List.forall_mem_cons]
    exact ⟨fun h => ⟨rfl, h⟩, fun h => h.2⟩

/-- It ends with a status if some poll finds one, and those before it find the child running. -/
theorem waitForExit_eq_some {pid : Nat} {status : String} :
    ∀ {polls : List (Except String (Option String))},
      waitForExit pid polls = .ok (some status) ↔
        ∃ before after, polls = before ++ .ok (some status) :: after ∧ ∀ poll ∈ before, poll = .ok none
  | [] => by
    refine ⟨nofun, ?_⟩
    rintro ⟨_ | ⟨poll, before⟩, after, h, -⟩ <;> cases h
  | .error error :: polls => by
    refine ⟨nofun, ?_⟩
    rintro ⟨_ | ⟨poll, before⟩, after, h, hbefore⟩
    · cases h
    · obtain ⟨rfl, -⟩ := List.cons.inj h
      cases hbefore _ List.mem_cons_self
  | .ok (some other) :: polls => by
    constructor
    · intro h
      cases h
      exact ⟨[], polls, rfl, nofun⟩
    · rintro ⟨_ | ⟨poll, before⟩, after, h, hbefore⟩
      · cases h
        rfl
      · obtain ⟨rfl, -⟩ := List.cons.inj h
        cases hbefore _ List.mem_cons_self
  -- only a poll that finds it running goes on to the next
  | .ok none :: polls => by
    rw [waitForExit, waitForExit_eq_some]
    constructor
    · rintro ⟨before, after, rfl, hbefore⟩
      exact ⟨.ok none :: before, after, rfl, List.forall_mem_cons.mpr ⟨rfl, hbefore⟩⟩
    · rintro ⟨_ | ⟨poll, before⟩, after, h, hbefore⟩
      · cases h
      · obtain ⟨-, rfl⟩ := List.cons.inj h
        exact ⟨before, after, rfl, (List.forall_mem_cons.mp hbefore).2⟩

/-- `kill_child` succeeds exactly where its calls can stop the child. -/
theorem killChild_ok_iff {pid : Nat} {calls : ChildCalls} {fallbackReason : String} :
    (∃ message, killChild pid calls fallbackReason = .ok message) ↔ calls.Killable := by
  constructor
  · rintro ⟨message, h⟩
    unfold killChild at h
    split at h
    · cases h
    · rename_i status hagain
      exact .exited hagain
    · rename_i hagain
      split at h
      · cases h
      · rename_i hkill
        split at h
        · cases h
        · rename_i status hwait
          exact .killed hagain hkill hwait
  · intro h
    unfold killChild
    cases h with
    | exited hagain =>
      rw [hagain]
      exact ⟨_, rfl⟩
    | killed hagain hkill hwait =>
      rw [hagain, hkill, hwait]
      exact ⟨_, rfl⟩

/-- **`stop_child`** has the process's exit status in its hands, unless a call that it needs fails. -/
theorem stopChild_ok_iff {pid : Nat} {calls : ChildCalls} :
    (∃ message, stopChild pid calls = .ok message) ↔ calls.Stoppable := by
  -- the four ways to an `Ok` of the source, in the order in which it tries them
  constructor
  · rintro ⟨message, h⟩
    unfold stopChild at h
    split at h
    · cases h
    · rename_i status htry
      exact .exited htry
    · rename_i htry
      split at h
      · rename_i error hterminate
        exact .unasked htry hterminate (killChild_ok_iff.mp ⟨message, h⟩)
      · rename_i method hterminate
        split at h
        · cases h
        · rename_i status hwait
          obtain ⟨before, after, hpolls, hbefore⟩ := waitForExit_eq_some.mp hwait
          exact .terminated htry hterminate hbefore hpolls
        · rename_i hwait
          exact .timeout htry hterminate (waitForExit_eq_none.mp hwait) (killChild_ok_iff.mp ⟨message, h⟩)
  · intro h
    unfold stopChild
    cases h with
    | exited htry =>
      rw [htry]
      exact ⟨_, rfl⟩
    | terminated htry hterminate hbefore hpolls =>
      rw [htry, hterminate]
      dsimp only
      rw [waitForExit_eq_some.mpr ⟨_, _, hpolls, hbefore⟩]
      exact ⟨_, rfl⟩
    | timeout htry hterminate hpolls hkillable =>
      rw [htry, hterminate]
      dsimp only
      rw [waitForExit_eq_none.mpr hpolls]
      exact killChild_ok_iff.mpr hkillable
    | unasked htry hterminate hkillable =>
      rw [htry, hterminate]
      exact killChild_ok_iff.mpr hkillable

/-! ## Spawns -/

/-- The closure that `start_serve` hands to `spawn_blocking`, and the process it spawns. -/
inductive Spawn
  | queued
  | failed (error : String)
  /-- The closure does not return. -/
  | joinFailed (error : String)
  | running
  | exited

/-- `stop_child` returns `Ok` with an exit status in its hands; else the process is as it was. -/
def Spawn.stop (self : Spawn) (stopped : Except String String) : Spawn :=
  match stopped with
  | .ok _ => .exited
  | .error _ => self

/-! ## Calls of `ensure_ready` -/

/-- `START_WAIT_SECS`: how long a started server is waited for. -/
def startWaitSecs : Nat := 15

/-- `tcp_connects`: whether its task joins, the name resolves, and each address accepts. -/
def tcpConnects (addr : String) (outcome : Except String (Except String (List Bool))) : Except String Bool :=
  match outcome with
  | .error error => .error s!"Ollama readiness check task failed: {error}"
  | .ok (.error error) => .error s!"invalid Ollama listen address {addr}: {error}"
  | .ok (.ok accepted) => .ok (accepted.any id)

/-- Where a call of `ensure_ready` stands. -/
inductive ReadyStage
  /-- The first `tcp_connects`. -/
  | probing
  | locking
  /-- The second `tcp_connects`; from here on the call holds `START_LOCK`. -/
  | reprobing
  /-- In `start_serve`, awaiting the spawn. -/
  | spawning (spawn : Nat)
  /-- In the loop that waits for the endpoint. -/
  | polling
  /-- Returned, or its future dropped (`none`). -/
  | done (result : Option (Except String Unit))

/-- A call of `ensure_ready`: the base URL it was given, and the address that this gives. -/
structure ReadyCall where
  baseUrl : String
  addr : String
  stage : ReadyStage

/-- The call has neither returned nor been dropped. -/
def ReadyCall.inProgress (self : ReadyCall) : Bool :=
  match self.stage with
  | .done _ => false
  | _ => true

/-! ## The runtime -/

/-- Where `Runtime::run` stands. -/
inductive RunStage
  /-- `get_me` and `persistence::spawn`. -/
  | starting
  | serving
  /-- In `stop_chat_workers`: the workers are aborted and joined. -/
  | joining
  /-- `stop_started` is next. -/
  | stopping
  /-- `stop_started` has taken the child, and awaits `unload_started_models`. -/
  | unloading (child : Nat)
  | terminating (child : Nat)
  /-- `CleanupGuard` is dropped next. -/
  | cleaning
  | returned

/-- The lock, the slot with tellm's own child, the calls, the processes that were spawned, and where the
    runtime is. -/
structure ServeState where
  /-- `START_LOCK`, by the call that holds it. -/
  startLock : Option Nat
  /-- `CHILD`. -/
  child : Option Nat
  calls : List ReadyCall
  spawns : List Spawn
  stage : RunStage

/-- What happens to a call, to a process, or in the runtime's own end. -/
inductive ServeEvent
  | started (result : Except String Unit)
  | call (baseUrl : String)
  /-- A `tcp_connects` of the call returns; `expired` is whether the deadline is over then. -/
  | probe (call : Nat) (outcome : Except String (Except String (List Bool))) (expired : Bool)
  | lock (call : Nat)
  /-- The closure runs. -/
  | run (spawn : Nat) (result : Except String (Except String Unit))
  /-- The call is resumed with what the closure returned; `stop` is what the child it replaces answers. -/
  | resume (call : Nat) (stop : ChildCalls)
  | abort (call : Nat)
  /-- The process exits by itself. -/
  | exit (spawn : Nat)
  | shutdown
  | joined
  | take
  | unloaded
  | terminate (stop : ChildCalls)
  | cleanup (stop : ChildCalls)

namespace ServeState

/-- Nothing is spawned, and the runtime is starting. -/
def start : ServeState := ⟨none, none, [], [], .starting⟩

/-- The call ends, and drops the guard of the lock if it has it. -/
def finish (self : ServeState) (i : Nat) (call : ReadyCall) (result : Option (Except String Unit)) :
    ServeState :=
  { self with
    calls := self.calls.set i { call with stage := .done result }
    startLock := if self.startLock = some i then none else self.startLock }

/-- The call goes on. -/
def moveTo (self : ServeState) (i : Nat) (call : ReadyCall) (stage : ReadyStage) : ServeState :=
  { self with calls := self.calls.set i { call with stage := stage } }

/-- A `tcp_connects` returns. -/
def probe (self : ServeState) (i : Nat) (call : ReadyCall) (connects : Except String Bool) (expired : Bool) :
    Option ServeState :=
  match call.stage, connects with
  | .probing, .ok true | .reprobing, .ok true | .polling, .ok true =>
    some (self.finish i call (some (.ok ())))
  | .probing, .error error | .reprobing, .error error | .polling, .error error =>
    some (self.finish i call (some (.error error)))
  | .probing, .ok false => some (self.moveTo i call .locking)
  | .reprobing, .ok false =>
    -- `start_serve` hands its closure to `spawn_blocking`
    some { self.moveTo i call (.spawning self.spawns.length) with spawns := self.spawns ++ [.queued] }
  | .polling, .ok false =>
    if expired then
      some (self.finish i call (some (.error
        (s!"local Ollama endpoint {call.baseUrl} did not become reachable after " ++ s!"{startWaitSecs}s"))))
    else some self
  | _, _ => none

/-- The stop of a process. -/
def stopSpawn (self : ServeState) (spawn : Nat) (stop : ChildCalls) : List Spawn :=
  match self.spawns[spawn]? with
  | none => self.spawns
  | some current => self.spawns.set spawn (current.stop (stopChild spawn stop))

/-- `*child() = Some(managed_child)`: the child that was there is dropped, which stops it. -/
def register (self : ServeState) (spawn : Nat) (stop : ChildCalls) : ServeState :=
  { self with
    child := some spawn
    spawns := match self.child with
      | none => self.spawns
      | some replaced => self.stopSpawn replaced stop }

/-- The rest of `start_serve`, once the closure has returned. -/
def resume (self : ServeState) (i : Nat) (call : ReadyCall) (stop : ChildCalls) : Option ServeState :=
  match call.stage with
  | .spawning spawn =>
    match self.spawns[spawn]? with
    | some (.failed error) => some (self.finish i call (some (.error
        ("local Ollama is not running and `ollama serve` could not be started: " ++ error))))
    | some (.joinFailed error) => some (self.finish i call (some (.error
        ("failed to start `ollama serve`: " ++ error))))
    | some .running | some .exited => some ((self.register spawn stop).moveTo i call .polling)
    | _ => none
  | _ => none

/-- A new call: for a base URL that is not local it returns at once. -/
def call (self : ServeState) (baseUrl : String) : ServeState :=
  let added : ReadyCall :=
    match localAddr baseUrl with
    | none => ⟨baseUrl, "", .done (some (.ok ()))⟩
    | some addr => ⟨baseUrl, addr, .probing⟩
  { self with calls := self.calls ++ [added] }

/-- One step, whoever makes it. -/
def step (self : ServeState) : ServeEvent → Option ServeState
  | .started result =>
    match self.stage, result with
    | .starting, .ok () => some { self with stage := .serving }
    | .starting, .error _ => some { self with stage := .cleaning }
    | _, _ => none
  | .call baseUrl =>
    match self.stage with
    | .serving | .joining => some (self.call baseUrl)
    | _ => none
  | .probe i outcome expired =>
    match self.calls[i]? with
    | none => none
    | some call => self.probe i call (tcpConnects call.addr outcome) expired
  | .lock i =>
    match self.calls[i]?, self.startLock with
    | some call, none =>
      match call.stage with
      | .locking => some { self.moveTo i call .reprobing with startLock := some i }
      | _ => none
    | _, _ => none
  | .run spawn result =>
    match self.spawns[spawn]? with
    | some .queued =>
      let next := match result with
        | .error error => .joinFailed error
        | .ok (.error error) => .failed error
        | .ok (.ok ()) => .running
      some { self with spawns := self.spawns.set spawn next }
    | _ => none
  | .resume i stop =>
    match self.calls[i]? with
    | none => none
    | some call => self.resume i call stop
  | .abort i =>
    match self.calls[i]? with
    | none => none
    | some call => if call.inProgress then some (self.finish i call none) else none
  | .exit spawn =>
    match self.spawns[spawn]? with
    | some .running => some { self with spawns := self.spawns.set spawn .exited }
    | _ => none
  | .shutdown =>
    match self.stage with
    | .serving => some { self with stage := .joining }
    | _ => none
  | .joined =>
    match self.stage with
    | .joining => if self.calls.any (·.inProgress) then none else some { self with stage := .stopping }
    | _ => none
  | .take =>
    match self.stage with
    | .stopping =>
      match self.child with
      | none => some { self with stage := .cleaning }
      | some child => some { self with child := none, stage := .unloading child }
    | _ => none
  | .unloaded =>
    match self.stage with
    | .unloading child => some { self with stage := .terminating child }
    | _ => none
  | .terminate stop =>
    match self.stage with
    | .terminating child => some { self with spawns := self.stopSpawn child stop, stage := .cleaning }
    | _ => none
  | .cleanup stop =>
    match self.stage with
    | .cleaning =>
      match self.child with
      | none => some { self with stage := .returned }
      | some child =>
        some { self with child := none, spawns := self.stopSpawn child stop, stage := .returned }
    | _ => none

end ServeState

/-- The managed server as a system. -/
def serveSys : Sys ServeState ServeEvent where
  step := ServeState.step

/-! ## What a step does -/

/-- The child that was taken is stopped. -/
theorem ServeState.step_terminate {s : ServeState} {child : Nat} (hstage : s.stage = .terminating child)
    (calls : ChildCalls) : s.step (.terminate calls) =
      some { s with spawns := s.stopSpawn child calls, stage := .cleaning } := by
  simp only [ServeState.step, hstage]

/-- A call may be in progress. -/
def RunStage.InService (self : RunStage) : Prop :=
  match self with
  | .serving | .joining => True
  | _ => False

/-- The slot may hold a child. -/
def RunStage.MayHold (self : RunStage) : Prop :=
  match self with
  | .serving | .joining | .stopping => True
  | _ => False

/-- The child that `stop_started` has taken. -/
def RunStage.hands (self : RunStage) : Option Nat :=
  match self with
  | .unloading child | .terminating child => some child
  | _ => none

/-- The call waits for its closure, which has spawned this process. -/
def ReadyCall.Awaits (self : ReadyCall) (spawn : Nat) : Prop := self.stage = .spawning spawn

/-- The process runs. -/
def Running (s : ServeState) (spawn : Nat) : Prop := s.spawns[spawn]? = some .running

/-- It is running, or may still be. -/
def Live (s : ServeState) (spawn : Nat) : Prop := s.spawns[spawn]? = some .queued ∨ Running s spawn

/-- No call is in progress. -/
def Quiet (s : ServeState) : Prop :=
  ∀ (i : Nat) (call : ReadyCall), s.calls[i]? = some call → call.inProgress = false

/-- What a step does to the calls, the spawns, the slot and the runtime. -/
inductive ServeSteps (s : ServeState) : ServeEvent → ServeState → Prop
  | idle {e} : ServeSteps s e s
  /-- A call that awaits no spawn goes on, and awaits none. -/
  | moved {e i call stage lock} : s.calls[i]? = some call → call.inProgress = true → (∀ c, ¬ call.Awaits c) →
      (∀ c, stage ≠ .spawning c) →
      ServeSteps s e { s with calls := s.calls.set i { call with stage := stage }, startLock := lock }
  | called {baseUrl added} : s.stage.InService → (∀ c, ¬ added.Awaits c) →
      ServeSteps s (.call baseUrl) { s with calls := s.calls ++ [added] }
  | handed {e i call} : s.calls[i]? = some call → call.stage = .reprobing →
      ServeSteps s e { s with
        calls := s.calls.set i { call with stage := .spawning s.spawns.length }
        spawns := s.spawns ++ [.queued] }
  | dropped {i call spawn result lock} : s.calls[i]? = some call → call.Awaits spawn →
      ServeSteps s (.abort i)
        { s with calls := s.calls.set i { call with stage := .done result }, startLock := lock }
  | unspawned {i call spawn stop result lock} : s.calls[i]? = some call → call.Awaits spawn → ¬ Live s spawn →
      ServeSteps s (.resume i stop)
        { s with calls := s.calls.set i { call with stage := .done result }, startLock := lock }
  | registered {i call spawn stop} : s.calls[i]? = some call → call.Awaits spawn →
      (s.spawns[spawn]? = some .running ∨ s.spawns[spawn]? = some .exited) →
      ServeSteps s (.resume i stop) ((s.register spawn stop).moveTo i call .polling)
  | ran {spawn result next} : s.spawns[spawn]? = some .queued → next ≠ .queued →
      ServeSteps s (.run spawn result) { s with spawns := s.spawns.set spawn next }
  | exited {spawn} :
      Running s spawn → ServeSteps s (.exit spawn) { s with spawns := s.spawns.set spawn .exited }
  /-- The runtime goes on, with nothing in its hands or with what it has. -/
  | staged {e stage} : stage.hands = s.stage.hands → (stage.InService ∨ ¬ s.stage.InService ∨ Quiet s) →
      (stage.MayHold ∨ ¬ s.stage.MayHold ∨ s.child = none) →
      ServeSteps s e { s with stage := stage }
  | taken {child} : s.stage = .stopping → s.child = some child →
      ServeSteps s .take { s with child := none, stage := .unloading child }
  | terminated {child stop} : s.stage = .terminating child →
      ServeSteps s (.terminate stop) { s with spawns := s.stopSpawn child stop, stage := .cleaning }
  | cleaned {child stop} : s.stage = .cleaning → s.child = some child →
      ServeSteps s (.cleanup stop)
        { s with child := none, spawns := s.stopSpawn child stop, stage := .returned }

/-- A call that is not at the spawn awaits none. -/
theorem not_awaits_of_stage {call : ReadyCall} {stage : ReadyStage} (h : call.stage = stage)
    (hstage : ∀ c, stage ≠ .spawning c) (c : Nat) : ¬ call.Awaits c := by
  rw [ReadyCall.Awaits, h]
  exact hstage c

/-- A call that is not done is in progress. -/
theorem inProgress_of_stage {call : ReadyCall} {stage : ReadyStage} (h : call.stage = stage)
    (hstage : ∀ result, stage ≠ .done result) : call.inProgress = true := by
  unfold ReadyCall.inProgress
  split
  · rename_i result hdone
    exact absurd (h.symm.trans hdone) (hstage result)
  · rfl

section

variable {s s' : ServeState} {e : ServeEvent}

/-- A probe of the endpoint, by `ensure_ready` or in its loop, is one of the steps listed. -/
theorem steps_of_probe {i : Nat} {call : ReadyCall} {connects : Except String Bool} {expired : Bool}
    (hcall : s.calls[i]? = some call) (h : s.probe i call connects expired = some s') :
    ServeSteps s e s' := by
  unfold ServeState.probe at h
  -- a probing, a reprobing or a polling call that ends, or goes on to wait for the lock
  have hmoved : ∀ {stage next : ReadyStage} {lock : Option Nat}, call.stage = stage →
      (∀ result, stage ≠ .done result) → (∀ c, stage ≠ .spawning c) → (∀ c, next ≠ .spawning c) →
      ServeSteps s e { s with calls := s.calls.set i { call with stage := next }, startLock := lock } :=
    fun hstage hprogress hawaits hnext =>
      .moved hcall (inProgress_of_stage hstage hprogress) (not_awaits_of_stage hstage hawaits) hnext
  split at h
  iterate 7
    · rename_i hstage
      cases h
      exact hmoved hstage nofun nofun nofun
  · rename_i hstage
    cases h
    exact .handed hcall hstage
  · rename_i hstage
    split at h
    · cases h
      exact hmoved hstage nofun nofun nofun
    · cases h
      exact .idle
  · cases h

/-- So is every other way on of a call. -/
theorem steps_of_resume {i : Nat} {call : ReadyCall} {stop : ChildCalls} (hcall : s.calls[i]? = some call)
    (h : s.resume i call stop = some s') : ServeSteps s (.resume i stop) s' := by
  unfold ServeState.resume at h
  split at h
  · rename_i spawn hstage
    have hnot : ∀ {status : Spawn}, s.spawns[spawn]? = some status → status ≠ .queued → status ≠ .running →
        ¬ Live s spawn := by
      rintro status hstatus hqueued hrunning (hlive | hlive)
      · exact hqueued (Option.some.inj (hstatus.symm.trans hlive))
      · exact hrunning (Option.some.inj (hstatus.symm.trans hlive))
    split at h
    · rename_i hstatus
      cases h
      exact .unspawned hcall hstage (hnot hstatus nofun nofun)
    · rename_i hstatus
      cases h
      exact .unspawned hcall hstage (hnot hstatus nofun nofun)
    · rename_i hstatus
      cases h
      exact .registered hcall hstage (Or.inl hstatus)
    · rename_i hstatus
      cases h
      exact .registered hcall hstage (Or.inr hstatus)
    · cases h
  · cases h

/-- A new call holds no lock, awaits no spawn and leaves the rest alone. -/
theorem steps_of_call (hservice : s.stage.InService) (baseUrl : String) :
    ServeSteps s (.call baseUrl) (s.call baseUrl) := by
  unfold ServeState.call
  cases localAddr baseUrl with
  | none => exact .called hservice nofun
  | some addr => exact .called hservice nofun

/-- An aborted call gives up its lock; the spawn that it awaits goes on without it. -/
theorem steps_of_abort {i : Nat} {call : ReadyCall} (hcall : s.calls[i]? = some call)
    (hprogress : call.inProgress = true) : ServeSteps s (.abort i) (s.finish i call none) := by
  cases hstage : call.stage with
  | spawning spawn => exact .dropped hcall hstage
  | probing | locking | reprobing | polling | done =>
    exact .moved hcall hprogress (not_awaits_of_stage hstage nofun) nofun

/-- A stage of the runtime that takes no process in hand and drops none is a step listed. -/
theorem steps_of_stage {before after : RunStage} (hstage : s.stage = before)
    (hhands : after.hands = before.hands) (hservice : after.InService ∨ ¬ before.InService ∨ Quiet s)
    (hholds : after.MayHold ∨ ¬ before.MayHold ∨ s.child = none) :
    ServeSteps s e { s with stage := after } := by
  subst hstage
  exact .staged hhands hservice hholds

/-- **What a step does**: one constructor for each thing that can happen, with what it asks of the state and
    what it changes in it. Every invariant is proved from these cases, and not from the step function. -/
theorem serveSteps_of_step (h : s.step e = some s') : ServeSteps s e s' := by
  unfold ServeState.step at h
  cases e with
  | started result =>
    dsimp only at h
    split at h
    · rename_i hstage
      cases h
      exact steps_of_stage hstage rfl (Or.inl trivial) (Or.inl trivial)
    · rename_i hstage
      cases h
      exact steps_of_stage hstage rfl (Or.inr (Or.inl id)) (Or.inr (Or.inl id))
    · cases h
  | call baseUrl =>
    dsimp only at h
    split at h
    · rename_i hstage
      cases h
      exact steps_of_call (by rw [hstage]; trivial) baseUrl
    · rename_i hstage
      cases h
      exact steps_of_call (by rw [hstage]; trivial) baseUrl
    · cases h
  | probe i outcome expired =>
    dsimp only at h
    split at h
    · cases h
    · rename_i call hcall
      exact steps_of_probe hcall h
  | lock i =>
    dsimp only at h
    split at h
    · rename_i call hcall _
      split at h
      · rename_i hstage
        cases h
        exact .moved hcall (inProgress_of_stage hstage nofun) (not_awaits_of_stage hstage nofun) nofun
      · cases h
    · cases h
  | run spawn result =>
    dsimp only at h
    split at h
    · rename_i hqueued
      cases h
      refine .ran hqueued ?_
      split <;> exact nofun
    · cases h
  | resume i stop =>
    dsimp only at h
    split at h
    · cases h
    · rename_i call hcall
      exact steps_of_resume hcall h
  | abort i =>
    dsimp only at h
    split at h
    · cases h
    · rename_i call hcall
      split at h
      · rename_i hprogress
        cases h
        exact steps_of_abort hcall hprogress
      · cases h
  | exit spawn =>
    dsimp only at h
    split at h
    · rename_i hrunning
      cases h
      exact .exited hrunning
    · cases h
  | shutdown =>
    dsimp only at h
    split at h
    · rename_i hstage
      cases h
      exact steps_of_stage hstage rfl (Or.inl trivial) (Or.inl trivial)
    · cases h
  | joined =>
    dsimp only at h
    split at h
    · rename_i hstage
      split at h
      · cases h
      · rename_i hany
        cases h
        refine steps_of_stage hstage rfl (Or.inr (Or.inr fun i call hcall => ?_)) (Or.inl trivial)
        rw [List.any_eq_true] at hany
        by_contra hprogress
        exact hany ⟨call, List.mem_of_getElem? hcall, by simpa using hprogress⟩
    · cases h
  | take =>
    dsimp only at h
    split at h
    · rename_i hstage
      split at h
      · rename_i hchild
        cases h
        exact steps_of_stage hstage rfl (Or.inr (Or.inl id)) (Or.inr (Or.inr hchild))
      · rename_i child hchild
        cases h
        exact .taken hstage hchild
    · cases h
  | unloaded =>
    dsimp only at h
    split at h
    · rename_i child hstage
      cases h
      exact steps_of_stage hstage rfl (Or.inr (Or.inl id)) (Or.inr (Or.inl id))
    · cases h
  | terminate stop =>
    dsimp only at h
    split at h
    · rename_i child hstage
      cases h
      exact .terminated hstage
    · cases h
  | cleanup stop =>
    dsimp only at h
    split at h
    · rename_i hstage
      split at h
      · rename_i hchild
        cases h
        exact steps_of_stage hstage rfl (Or.inr (Or.inl id)) (Or.inr (Or.inr hchild))
      · rename_i child hchild
        cases h
        exact .cleaned hstage hchild
    · cases h

/-! ## Custody -/

/-- Who will register a process or stop it. -/
inductive Owner
  | call (i : Nat)
  | slot
  | run
  deriving Inhabited

/-- Somebody has the process in hand: the call that spawned it, the slot, or the runtime that took it from
    there. -/
def Owns (s : ServeState) : Owner → Nat → Prop
  | .call i, spawn => ∃ call, s.calls[i]? = some call ∧ call.Awaits spawn
  | .slot, spawn => s.child = some spawn
  | .run, spawn => s.stage.hands = some spawn

/-- What a step of one call leaves to the owners. -/
theorem owns_of_set {i : Nat} {next : ReadyCall} {lock child : Option Nat} {spawns : List Spawn}
    {stage : RunStage} {o : Owner} {c : Nat} (h : Owns ⟨lock, child, s.calls.set i next, spawns, stage⟩ o c) :
    Owns ⟨lock, child, s.calls, spawns, stage⟩ o c ∨ (o = .call i ∧ next.Awaits c) := by
  cases o with
  | slot => exact Or.inl h
  | run => exact Or.inl h
  | call j =>
    obtain ⟨call, hcall, hawaits⟩ := h
    rcases getElem?_set_cases hcall with ⟨rfl, rfl⟩ | hcall
    · exact Or.inr ⟨rfl, hawaits⟩
    · exact Or.inl ⟨call, hcall, hawaits⟩

/-- A call keeps what it awaits, if it is not the one that goes on. -/
theorem owns_call_set {i j : Nat} {call next : ReadyCall} {lock child : Option Nat} {spawns : List Spawn}
    {stage : RunStage} {c : Nat} (hcall : s.calls[i]? = some call) (hnot : ¬ call.Awaits c)
    (ho : Owns s (.call j) c) : Owns ⟨lock, child, s.calls.set i next, spawns, stage⟩ (.call j) c := by
  obtain ⟨call', hcall', hawaits⟩ := ho
  have hne : i ≠ j := by
    rintro rfl
    cases hcall.symm.trans hcall'
    exact hnot hawaits
  exact ⟨call', (List.getElem?_set_ne hne).trans hcall', hawaits⟩

/-- What somebody owned, and not the call that moves on, is owned after the step as well. -/
theorem owns_set {i : Nat} {call next : ReadyCall} {lock : Option Nat} {spawns : List Spawn} {o : Owner}
    {c : Nat} (hcall : s.calls[i]? = some call) (hnot : ¬ call.Awaits c) (ho : Owns s o c) :
    Owns ⟨lock, s.child, s.calls.set i next, spawns, s.stage⟩ o c := by
  cases o with
  | slot => exact ho
  | run => exact ho
  | call j => exact owns_call_set hcall hnot ho

/-- Stopping a child makes no new one. -/
theorem length_stopSpawn (s : ServeState) (spawn : Nat) (stop : ChildCalls) :
    (s.stopSpawn spawn stop).length = s.spawns.length := by
  unfold ServeState.stopSpawn
  split
  · rfl
  · exact List.length_set

/-- Registering over an old child stops the old one. -/
theorem spawns_register {old : Nat} (h : s.child = some old) (spawn : Nat) (stop : ChildCalls) :
    (s.register spawn stop).spawns = s.stopSpawn old stop := by
  unfold ServeState.register
  rw [h]

/-- Registering makes no new child. -/
theorem length_register (s : ServeState) (spawn : Nat) (stop : ChildCalls) :
    (s.register spawn stop).spawns.length = s.spawns.length := by
  unfold ServeState.register
  dsimp only
  split
  · rfl
  · exact length_stopSpawn s _ stop

/-- Spawns are never forgotten. -/
theorem ServeSteps.length_le (h : ServeSteps s e s') : s.spawns.length ≤ s'.spawns.length := by
  cases h with
  | idle | moved | called | dropped | unspawned | staged | taken => exact Nat.le_refl _
  | handed =>
    show s.spawns.length ≤ (s.spawns ++ [Spawn.queued]).length
    rw [List.length_append]
    omega
  | ran | exited =>
    show s.spawns.length ≤ (s.spawns.set _ _).length
    rw [List.length_set]
  | @registered i call spawn stop => exact (length_register s spawn stop).ge
  | terminated | cleaned =>
    show s.spawns.length ≤ (s.stopSpawn _ _).length
    rw [length_stopSpawn]

/-- A stop leaves a spawn as it was, or has exited a process. -/
theorem getElem?_stopSpawn (s : ServeState) (spawn c : Nat) (stop : ChildCalls) :
    (s.stopSpawn spawn stop)[c]? = s.spawns[c]? ∨
      (c = spawn ∧ (s.stopSpawn spawn stop)[c]? = some .exited) := by
  unfold ServeState.stopSpawn
  split
  · exact Or.inl rfl
  · rename_i current hcurrent
    by_cases hne : spawn = c
    · subst hne
      rw [getElem?_set_self_of hcurrent, hcurrent]
      unfold Spawn.stop
      split
      · exact Or.inr ⟨rfl, rfl⟩
      · exact Or.inl rfl
    · exact Or.inl (List.getElem?_set_ne hne)

/-- A stop that succeeds. -/
theorem getElem?_stopSpawn_ok {spawn : Nat} {stop : ChildCalls} {message : String}
    (h : stopChild spawn stop = .ok message) : ∀ status, (s.stopSpawn spawn stop)[spawn]? = some status →
      status = .exited := by
  intro status hstatus
  unfold ServeState.stopSpawn at hstatus
  split at hstatus
  · rename_i hnone
    rw [hnone] at hstatus
    cases hstatus
  · rename_i current hcurrent
    rw [getElem?_set_self_of hcurrent, h] at hstatus
    exact (Option.some.inj hstatus).symm

/-- One that fails. -/
theorem getElem?_stopSpawn_error {spawn : Nat} {stop : ChildCalls} {error : String}
    (h : stopChild spawn stop = .error error) (c : Nat) : (s.stopSpawn spawn stop)[c]? = s.spawns[c]? := by
  unfold ServeState.stopSpawn
  split
  · rfl
  · rename_i current hcurrent
    rw [h]
    by_cases hne : spawn = c
    · subst hne
      rw [getElem?_set_self_of hcurrent, hcurrent]
      rfl
    · exact List.getElem?_set_ne hne

/-- **What a spawn was before the step**: the same, or new and awaited, or queued; else it has exited. -/
theorem ServeSteps.spawn (h : ServeSteps s e s') {c : Nat} {status : Spawn}
    (hstatus : s'.spawns[c]? = some status) :
    s.spawns[c]? = some status ∨ (c = s.spawns.length ∧ ∃ i, Owns s' (.call i) c) ∨
      (s.spawns[c]? = some .queued ∧ status ≠ .queued) ∨ status = .exited := by
  have hstop : ∀ {spawn stop}, (s.stopSpawn spawn stop)[c]? = some status →
      s.spawns[c]? = some status ∨ status = .exited := by
    intro spawn stop hstatus
    rcases getElem?_stopSpawn s spawn c stop with heq | ⟨-, heq⟩
    · exact Or.inl (heq.symm.trans hstatus)
    · exact Or.inr (Option.some.inj (hstatus.symm.trans heq))
  cases h with
  | idle | moved | called | dropped | unspawned | staged | taken => exact Or.inl hstatus
  | @handed e i call hcall =>
    rcases getElem?_concat_cases hstatus with ⟨rfl, rfl⟩ | hbefore
    · exact Or.inr (Or.inl ⟨rfl, i, _, getElem?_set_self_of hcall, rfl⟩)
    · exact Or.inl hbefore
  | @ran spawn result next hqueued hnext =>
    rcases getElem?_set_cases hstatus with ⟨rfl, rfl⟩ | hbefore
    · exact Or.inr (Or.inr (Or.inl ⟨hqueued, hnext⟩))
    · exact Or.inl hbefore
  | exited =>
    rcases getElem?_set_cases hstatus with ⟨-, rfl⟩ | hbefore
    · exact Or.inr (Or.inr (Or.inr rfl))
    · exact Or.inl hbefore
  | @registered i call spawn stop =>
    replace hstatus : (match s.child with
      | none => s.spawns
      | some replaced => s.stopSpawn replaced stop)[c]? = some status := hstatus
    split at hstatus
    · exact Or.inl hstatus
    · exact (hstop hstatus).imp_right fun h => Or.inr (Or.inr h)
  | terminated => exact (hstop hstatus).imp_right fun h => Or.inr (Or.inr h)
  | cleaned => exact (hstop hstatus).imp_right fun h => Or.inr (Or.inr h)

/-- Nothing is queued a second time. -/
theorem ServeSteps.queued (h : ServeSteps s e s') {c : Nat} (hlt : c < s.spawns.length)
    (hqueued : s'.spawns[c]? = some .queued) : s.spawns[c]? = some .queued := by
  rcases h.spawn hqueued with hsame | ⟨rfl, -⟩ | ⟨-, hne⟩ | heq
  · exact hsame
  · exact absurd hlt (Nat.lt_irrefl _)
  · exact absurd rfl hne
  · cases heq

/-- **How custody moves**: a call gets the spawn it hands over, the slot gets it from the call, and the
    runtime from the slot. -/
theorem ServeSteps.handsOver (h : ServeSteps s e s') :
    HandsOver Owns (fun c => c = s.spawns.length ∧ c < s'.spawns.length) s s' := by
  have hset : ∀ {i next lock}, (∀ c, ¬ ReadyCall.Awaits next c) → ∀ o c,
      Owns ⟨lock, s.child, s.calls.set i next, s.spawns, s.stage⟩ o c → Owns s o c := by
    intro i next lock hnext o c ho
    rcases owns_of_set ho with ho | ⟨-, hawaits⟩
    · exact ho
    · exact absurd hawaits (hnext c)
  -- three steps hand a child over: to a call, to the slot, to the runtime
  cases h with
  | idle => exact .of_old fun _ _ ho => ho
  | moved hcall hprogress hawaits hstage => exact .of_old (hset hstage)
  | dropped | unspawned => exact .of_old (hset nofun)
  | ran | exited => exact .of_old fun o c ho => ho
  | @called baseUrl added hservice hadded =>
    refine .of_old fun o c ho => ?_
    cases o with
    | slot => exact ho
    | run => exact ho
    | call j =>
      obtain ⟨call, hcall, hawaits⟩ := ho
      rcases getElem?_concat_cases hcall with ⟨-, rfl⟩ | hcall
      · exact absurd hawaits (hadded c)
      · exact ⟨call, hcall, hawaits⟩
  | @handed e i call hcall hstage =>
    refine ⟨.call i, fun o c ho => ?_⟩
    rcases owns_of_set ho with ho | ⟨rfl, hawaits⟩
    · exact Or.inl ho
    · have hc : c = s.spawns.length := by cases hawaits; rfl
      refine Or.inr ⟨rfl, Or.inl ⟨hc, ?_⟩⟩
      show c < (s.spawns ++ [Spawn.queued]).length
      rw [List.length_append, List.length_singleton]
      omega
  | @registered i call spawn stop hcall hawaits hspawned =>
    refine ⟨.slot, fun o c ho => ?_⟩
    cases o with
    | slot =>
      obtain rfl : spawn = c := Option.some.inj ho
      refine Or.inr ⟨rfl, Or.inr ⟨.call i, ⟨call, hcall, hawaits⟩, ?_⟩⟩
      rintro ⟨next, hnext, hstill⟩
      have hpolling := (getElem?_set_self_of hcall).symm.trans hnext
      cases hpolling
      cases hstill
    | run => exact Or.inl ho
    | call j =>
      rcases owns_of_set (s := s) ho with ho | ⟨-, hpolling⟩
      · exact Or.inl ho
      · cases hpolling
  | staged hhands =>
    refine .of_old fun o c ho => ?_
    cases o with
    | slot => exact ho
    | run => exact hhands.symm.trans ho
    | call j => exact ho
  | @taken child hstage hchild =>
    refine ⟨.run, fun o c ho => ?_⟩
    cases o with
    | slot => cases ho
    | run =>
      obtain rfl : child = c := Option.some.inj ho
      exact Or.inr ⟨rfl, Or.inr ⟨.slot, hchild, nofun⟩⟩
    | call j => exact Or.inl ho
  | terminated =>
    refine .of_old fun o c ho => ?_
    cases o with
    | slot => exact ho
    | run => cases ho
    | call j => exact ho
  | cleaned =>
    refine .of_old fun o c ho => ?_
    cases o with
    | slot => cases ho
    | run => cases ho
    | call j => exact ho

/-- Who owns what, in every run. -/
structure Custody (s : ServeState) : Prop where
  sole : Sole Owns s
  known : ∀ o c, Owns s o c → c < s.spawns.length
  /-- What is registered or in the runtime's hands has been spawned. -/
  held : ∀ o c, Owns s o c → (∀ i, o ≠ .call i) → s.spawns[c]? ≠ some .queued
  /-- Calls are in progress only while there are workers. -/
  quiet : ¬ s.stage.InService → Quiet s
  empty : ¬ s.stage.MayHold → s.child = none

/-- While the runtime is in service, the slot may hold a child. -/
theorem RunStage.InService.mayHold {stage : RunStage} (h : stage.InService) : stage.MayHold := by
  cases stage with
  | serving | joining => trivial
  | _ => exact h.elim

/-- Whoever is in progress is so while there are workers. -/
theorem Custody.inService (hc : Custody s) {i : Nat} {call : ReadyCall} (hcall : s.calls[i]? = some call)
    (hprogress : call.inProgress = true) : s.stage.InService := by
  by_contra hservice
  have hidle := hc.quiet hservice i call hcall
  rw [hprogress] at hidle
  cases hidle

/-- Once the runtime is out of service no call comes up again. -/
theorem Custody.quiet_step (hc : Custody s) (h : ServeSteps s e s') : ¬ s'.stage.InService → Quiet s' := by
  intro hservice
  have hawaits :
      ∀ {i call spawn}, s.calls[i]? = some call → ReadyCall.Awaits call spawn → s.stage.InService :=
    fun hcall hstage => hc.inService hcall (inProgress_of_stage hstage nofun)
  cases h with
  | idle | ran | exited => exact hc.quiet hservice
  | moved hcall hprogress => exact absurd (hc.inService hcall hprogress) hservice
  | called h => exact absurd h hservice
  | handed hcall hstage => exact absurd (hc.inService hcall (inProgress_of_stage hstage nofun)) hservice
  | dropped hcall hstage => exact absurd (hawaits hcall hstage) hservice
  | unspawned hcall hstage => exact absurd (hawaits hcall hstage) hservice
  | registered hcall hstage => exact absurd (hawaits hcall hstage) hservice
  | staged hhands hquiet =>
    rcases hquiet with h | h | h
    · exact absurd h hservice
    · exact hc.quiet h
    · exact h
  | taken hstage => exact hc.quiet (by rw [hstage]; exact id)
  | terminated hstage => exact hc.quiet (by rw [hstage]; exact id)
  | cleaned hstage => exact hc.quiet (by rw [hstage]; exact id)

/-- Once the slot has been emptied for good it stays empty. -/
theorem Custody.empty_step (hc : Custody s) (h : ServeSteps s e s') :
    ¬ s'.stage.MayHold → s'.child = none := by
  intro hhold
  cases h with
  | idle | moved | called | handed | dropped | unspawned | ran | exited => exact hc.empty hhold
  | registered hcall hstage =>
    exact absurd (hc.inService hcall (inProgress_of_stage hstage nofun)).mayHold hhold
  | staged hhands hquiet hholds =>
    rcases hholds with h | h | h
    · exact absurd h hhold
    · exact hc.empty h
    · exact h
  | taken => rfl
  | terminated hstage => exact hc.empty (by rw [hstage]; exact id)
  | cleaned => rfl

/-- What the slot or the runtime holds has been spawned: no step hands over a spawn that is still queued. -/
theorem Custody.held_step (hc : Custody s) (h : ServeSteps s e s') :
    ∀ o c, Owns s' o c → (∀ i, o ≠ .call i) → s'.spawns[c]? ≠ some .queued := by
  intro o c ho hcall hqueued
  -- nothing that was spawned is queued again
  have hold : ∀ o', (∀ i, o' ≠ .call i) → ¬ Owns s o' c := fun o' hcall' ho' =>
    hc.held o' c ho' hcall' (h.queued (hc.known o' c ho') hqueued)
  have hsame : s'.child = s.child ∨ s'.child = none → s'.stage.hands = s.stage.hands ∨ s'.stage.hands = none →
      False := by
    intro hchild hhands
    cases o with
    | slot =>
      rcases hchild with heq | heq
      · exact hold .slot nofun (heq.symm.trans ho)
      · cases heq.symm.trans ho
    | run =>
      rcases hhands with heq | heq
      · exact hold .run nofun (heq.symm.trans ho)
      · cases heq.symm.trans ho
    | call i => exact hcall i rfl
  cases h with
  | idle | moved | called | handed | dropped | unspawned | ran | exited =>
    exact hsame (Or.inl rfl) (Or.inl rfl)
  | staged hhands => exact hsame (Or.inl rfl) (Or.inl hhands)
  | terminated => exact hsame (Or.inl rfl) (Or.inr rfl)
  | cleaned => exact hsame (Or.inr rfl) (Or.inr rfl)
  | @registered i call spawn stop hcall' hawaits hspawned =>
    cases o with
    | slot =>
      obtain rfl : spawn = c := Option.some.inj ho
      have hregistered : ServeSteps s (.resume i stop) ((s.register spawn stop).moveTo i call .polling) :=
        .registered hcall' hawaits hspawned
      have hbefore := hregistered.queued (hc.known (.call i) spawn ⟨call, hcall', hawaits⟩) hqueued
      rcases hspawned with hspawned | hspawned <;> cases hspawned.symm.trans hbefore
    | run => exact hold .run nofun ho
    | call i => exact hcall i rfl
  | @taken child hstage hchild =>
    cases o with
    | slot => cases ho
    | run =>
      obtain rfl : child = c := Option.some.inj ho
      exact hold .slot nofun hchild
    | call i => exact hcall i rfl

/-- Every step keeps the custody. -/
theorem Custody.step (hc : Custody s) (h : ServeSteps s e s') : Custody s' := by
  have hover := h.handsOver
  refine ⟨hc.sole.step hover ?_, ?_, hc.held_step h, hc.quiet_step h, hc.empty_step h⟩
  · rintro c ⟨rfl, -⟩ o ho
    exact absurd (hc.known o _ ho) (Nat.lt_irrefl _)
  · intro o c ho
    obtain ⟨receiver, hreceiver⟩ := hover
    have hlength := h.length_le
    rcases hreceiver o c ho with ho | ⟨-, ⟨-, hlt⟩ | ⟨giver, hgiver, -⟩⟩
    · exact Nat.lt_of_lt_of_le (hc.known o c ho) hlength
    · exact hlt
    · exact Nat.lt_of_lt_of_le (hc.known giver c hgiver) hlength

/-- In every state of a run each process has at most one owner, and who may own what is as `Custody` says. -/
theorem custody_path {h : List (ServeState × ServeEvent)} (p : Path serveSys .start h s) : Custody s := by
  have hnobody : ∀ o c, ¬ Owns .start o c := by
    intro o c ho
    cases o with
    | slot => cases ho
    | run => cases ho
    | call i =>
      obtain ⟨call, hcall, -⟩ := ho
      cases hcall
  refine p.invariant ⟨fun o _ c ho => absurd ho (hnobody o c), fun o c ho => absurd ho (hnobody o c),
    fun o c ho => absurd ho (hnobody o c), fun _ i call hcall => ?_, fun _ => rfl⟩ fun s e s' hc hs =>
      hc.step (serveSteps_of_step hs)
  cases hcall

/-! ## Careful steps -/

/-- The step stops the process: as what is replaced in the slot, or as what the runtime has in its hands. -/
inductive Stops (s : ServeState) : ServeEvent → Nat → ChildCalls → Prop
  | replaced {i call spawn c stop} : s.calls[i]? = some call → call.Awaits spawn →
      (s.spawns[spawn]? = some .running ∨ s.spawns[spawn]? = some .exited) → s.child = some c →
      Stops s (.resume i stop) c stop
  | terminated {c stop} : s.stage = .terminating c → Stops s (.terminate stop) c stop
  | cleaned {c stop} : s.stage = .cleaning → s.child = some c → Stops s (.cleanup stop) c stop

/-- The step does not drop a call whose spawn is running or may still be, and does not fail to stop a running
    process. -/
structure Careful (x : ServeState × ServeEvent) : Prop where
  abort : ∀ i spawn, x.2 = .abort i → Owns x.1 (.call i) spawn → ¬ Live x.1 spawn
  stop : ∀ c stop, Stops x.1 x.2 c stop → Running x.1 c → stop.Stoppable

/-- No process comes to life without an owner. -/
theorem ServeSteps.live (h : ServeSteps s e s') {c : Nat} (hlive : Live s' c) :
    Live s c ∨ ∃ o, Owns s' o c := by
  have hstatus : ∀ {status : Spawn}, s'.spawns[c]? = some status → status ≠ .exited →
      (s.spawns[c]? = some status → Live s c) → Live s c ∨ ∃ o, Owns s' o c := by
    intro status hstatus hne hsame
    rcases h.spawn hstatus with hbefore | ⟨-, i, ho⟩ | ⟨hqueued, -⟩ | heq
    · exact Or.inl (hsame hbefore)
    · exact Or.inr ⟨.call i, ho⟩
    · exact Or.inl (Or.inl hqueued)
    · exact absurd heq hne
  rcases hlive with hqueued | hrunning
  · exact hstatus hqueued nofun Or.inl
  · exact hstatus hrunning nofun Or.inr

/-- **A careful stop** is for good: if the closure of the process has run, so that there is something to stop,
    the process is not live after the step. -/
theorem Careful.stopped (hcareful : Careful (s, e)) {c : Nat} {stop : ChildCalls} (hstops : Stops s e c stop)
    (hspawned : s.spawns[c]? ≠ some .queued) (hspawns : s'.spawns[c]? = (s.stopSpawn c stop)[c]?) :
    ¬ Live s' c := by
  intro hlive
  have hrunning : Running s c := by
    rcases getElem?_stopSpawn s c c stop with hsame | ⟨-, hexited⟩
    · rcases hlive with hqueued | hrunning
      · exact absurd (hsame.symm.trans (hspawns.symm.trans hqueued)) hspawned
      · exact hsame.symm.trans (hspawns.symm.trans hrunning)
    · rcases hlive with hlive | hlive <;> cases hexited.symm.trans (hspawns.symm.trans hlive)
  have hstoppable := hcareful.stop c stop hstops hrunning
  obtain ⟨message, hmessage⟩ : ∃ message, stopChild c stop = .ok message := stopChild_ok_iff.mpr hstoppable
  rcases hlive with hlive | hlive <;>
    cases getElem?_stopSpawn_ok hmessage _ (hspawns.symm.trans hlive)

/-- What a careful step takes from its owner gets another, or is not alive after it. -/
theorem ServeSteps.given (hc : Custody s) (h : ServeSteps s e s') (hcareful : Careful (s, e)) {o : Owner}
    {c : Nat} (ho : Owns s o c) (hlive : Live s' c) : ∃ o', Owns s' o' c := by
  have hstopped : ∀ {stop}, Stops s e c stop → (∀ i, o ≠ .call i) →
      s'.spawns[c]? = (s.stopSpawn c stop)[c]? → False :=
    fun hstops hcall hspawns => hcareful.stopped hstops (hc.held o c ho hcall) hspawns hlive
  cases h with
  | idle => exact ⟨o, ho⟩
  | ran | exited => exact ⟨o, ho⟩
  | moved hcall hprogress hawaits hstage => exact ⟨o, owns_set hcall (hawaits c) ho⟩
  | called =>
    refine ⟨o, ?_⟩
    cases o with
    | slot => exact ho
    | run => exact ho
    | call j =>
      obtain ⟨call, hcall, hawaits⟩ := ho
      exact ⟨call, getElem?_concat_of hcall, hawaits⟩
  | handed hcall hstage => exact ⟨o, owns_set hcall (not_awaits_of_stage hstage nofun c) ho⟩
  | @dropped i call spawn result lock hcall hawaits =>
    -- the call would take the process with it
    exact ⟨o, owns_set hcall (fun h => hcareful.abort i c rfl ⟨call, hcall, h⟩ hlive) ho⟩
  | @unspawned i call spawn stop result lock hcall hawaits hdead =>
    refine ⟨o, owns_set hcall (fun h => ?_) ho⟩
    cases hawaits.symm.trans h
    exact hdead hlive
  | @registered i call spawn stop hcall hawaits hspawned =>
    cases o with
    | slot =>
      have hspawns : (s.register spawn stop).spawns[c]? = (s.stopSpawn c stop)[c]? := by
        rw [spawns_register ho]
      exact (hstopped (.replaced hcall hawaits hspawned ho) nofun hspawns).elim
    | run => exact ⟨.run, ho⟩
    | call j =>
      by_cases h : call.Awaits c
      · -- it is what is registered
        cases hawaits.symm.trans h
        exact ⟨.slot, rfl⟩
      · exact ⟨.call j, owns_call_set hcall h ho⟩
  | staged hhands =>
    refine ⟨o, ?_⟩
    cases o with
    | slot => exact ho
    | run => exact hhands.trans ho
    | call j => exact ho
  | @taken child hstage hchild =>
    cases o with
    | slot => exact ⟨.run, hchild.symm.trans ho⟩
    | run => rw [Owns, hstage] at ho; cases ho
    | call j => exact ⟨.call j, ho⟩
  | @terminated child stop hstage =>
    cases o with
    | slot => exact ⟨.slot, ho⟩
    | run =>
      rw [Owns, hstage] at ho
      cases ho
      exact (hstopped (.terminated hstage) nofun rfl).elim
    | call j => exact ⟨.call j, ho⟩
  | @cleaned child stop hstage hchild =>
    cases o with
    | slot =>
      cases hchild.symm.trans ho
      exact (hstopped (.cleaned hstage hchild) nofun rfl).elim
    | run => rw [Owns, hstage] at ho; cases ho
    | call j => exact ⟨.call j, ho⟩

/-- In a run of careful steps every process, and every spawn that may become one, has an owner. -/
theorem covered_path {h : List (ServeState × ServeEvent)} (p : Path serveSys .start h s) :
    (∀ x ∈ h, Careful x) → Covered Owns Live s := by
  induction p with
  | start =>
    rintro - c (hlive | hlive) <;> cases hlive
  | @step h m s e p hs ih =>
    intro hall
    obtain ⟨hcareful, hbefore⟩ := List.forall_mem_cons.mp hall
    have hsteps := serveSteps_of_step hs
    exact (ih hbefore).step (fun c hlive => hsteps.live hlive)
      fun o c ho hlive => hsteps.given (custody_path p) hcareful ho hlive

/-- When the runtime has returned nobody owns anything. -/
theorem Custody.unowned_returned (hc : Custody s) (hreturned : s.stage = .returned) (c : Nat) :
    Unowned Owns s c := by
  intro o ho
  cases o with
  | slot => cases (hc.empty (by rw [hreturned]; exact id)).symm.trans ho
  | run =>
    rw [Owns, hreturned] at ho
    cases ho
  | call i =>
    obtain ⟨call, hcall, hawaits⟩ := ho
    have hidle := hc.quiet (by rw [hreturned]; exact id) i call hcall
    rw [inProgress_of_stage hawaits nofun] at hidle
    cases hidle

/-- The step puts one child into the slot where another was. -/
def Replaces (x : ServeState × ServeEvent) (s' : ServeState) (old new : Nat) : Prop :=
  x.1.step x.2 = some s' ∧ x.1.child = some old ∧ s'.child = some new ∧ old ≠ new

/-- What a careful step replaces in the slot is stopped. -/
theorem not_live_of_replaces (hc : Custody s) (hcareful : Careful (s, e)) {old new : Nat}
    (h : Replaces (s, e) s' old new) : ¬ Live s' old := by
  obtain ⟨hs, hold, hnew, hne⟩ := h
  replace hs := serveSteps_of_step hs
  have hsame : s'.child = s.child → False := fun hsame =>
    hne (Option.some.inj (hold.symm.trans (hsame.symm.trans hnew)))
  cases hs with
  | idle | moved | called | handed | dropped | unspawned | ran | exited | staged | terminated =>
    exact (hsame rfl).elim
  | taken | cleaned => cases hnew
  | @registered i call spawn stop hcall hawaits hspawned =>
    have hspawns : (s.register spawn stop).spawns[old]? = (s.stopSpawn old stop)[old]? := by
      rw [spawns_register hold]
    exact hcareful.stopped (.replaced hcall hawaits hspawned hold) (hc.held .slot old hold nofun) hspawns

/-! ## Orphans -/

/-- A running process that nobody will stop. -/
def Orphan (s : ServeState) (c : Nat) : Prop := Running s c ∧ Unowned Owns s c

/-- The process runs, and nobody will find it: it is not in the slot. -/
def Untracked (s : ServeState) (c : Nat) : Prop := Running s c ∧ s.child ≠ some c

/-- A process that nobody owns is never stopped. -/
theorem Orphan.step {c : Nat} (h : Orphan s c) (hs : ServeSteps s e s') (hexit : e ≠ .exit c) :
    Orphan s' c := by
  obtain ⟨hrunning, hunowned⟩ := h
  have hlt := lt_of_getElem? hrunning
  refine ⟨?_, unowned_step hunowned hs.handsOver fun hfresh => by omega⟩
  have hstop : ∀ {spawn stop}, (∃ o, Owns s o spawn) → (s.stopSpawn spawn stop)[c]? = some .running := by
    rintro spawn stop ⟨o, ho⟩
    rcases getElem?_stopSpawn s spawn c stop with hsame | ⟨rfl, -⟩
    · exact hsame.trans hrunning
    · exact absurd ho (hunowned o)
  -- only an owner stops a spawn, and nobody owns this one
  cases hs with
  | idle | moved | called | dropped | unspawned | staged | taken => exact hrunning
  | handed => exact getElem?_concat_of hrunning
  | @ran spawn result next hqueued =>
    have hne : spawn ≠ c := by
      rintro rfl
      cases hqueued.symm.trans hrunning
    exact (List.getElem?_set_ne hne).trans hrunning
  | @exited spawn =>
    have hne : spawn ≠ c := by
      rintro rfl
      exact hexit rfl
    exact (List.getElem?_set_ne hne).trans hrunning
  | @registered i call spawn stop =>
    show (match s.child with
      | none => s.spawns
      | some replaced => s.stopSpawn replaced stop)[c]? = some .running
    split
    · exact hrunning
    · rename_i replaced hchild
      exact hstop ⟨.slot, hchild⟩
  | terminated hstage => exact hstop ⟨.run, by rw [Owns, hstage]; rfl⟩
  | cleaned hstage hchild => exact hstop ⟨.slot, hchild⟩

/-- Some run from here returns with the process running and not registered. -/
def EndsUntracked (s : ServeState) (c : Nat) : Prop :=
  ∃ h s', Path serveSys s h s' ∧ s'.stage = .returned ∧ Untracked s' c

/-- A step that leads to such a state may be put in front. -/
theorem EndsUntracked.before {c : Nat} (hs : s.step e = some s') (h : EndsUntracked s' c) :
    EndsUntracked s c := by
  obtain ⟨h, s'', p, hreturned, huntracked⟩ := h
  exact ⟨h ++ [(s, e)], s'', (Path.step .start hs).append p, hreturned, huntracked⟩

/-- The answers of a child that exits when it is asked to. -/
def ChildCalls.graceful : ChildCalls :=
  ⟨.ok none, .ok "SIGTERM", [.ok (some "exit status: 0")], .ok none, .ok (), .ok "exit status: 0"⟩

section

variable {c : Nat}

/-- A step that is not the process's own exit. -/
theorem Orphan.go (h : Orphan s c) (hs : s.step e = some s') (hexit : e ≠ .exit c)
    (hnext : Orphan s' c → EndsUntracked s' c) : EndsUntracked s c :=
  .before hs (hnext (h.step (serveSteps_of_step hs) hexit))

/-- After the return, an orphan is untracked: nobody owns it, so the slot does not. -/
theorem Orphan.returned (h : Orphan s c) (hreturned : s.stage = .returned) : EndsUntracked s c :=
  ⟨[], s, .start, hreturned, h.1, h.2 .slot⟩

/-- From the cleanup the runtime can still return, and does nothing for an orphan. -/
theorem Orphan.cleaning (h : Orphan s c) (hstage : s.stage = .cleaning) : EndsUntracked s c := by
  cases hchild : s.child with
  | none =>
    have hs : s.step (.cleanup .graceful) = some { s with stage := .returned } := by
      simp only [ServeState.step, hstage, hchild]
    exact h.go hs nofun fun h => h.returned rfl
  | some child =>
    have hs : s.step (.cleanup .graceful) =
        some { s with child := none, spawns := s.stopSpawn child .graceful, stage := .returned } := by
      simp only [ServeState.step, hstage, hchild]
    exact h.go hs nofun fun h => h.returned rfl

/-- So it can from the stop of another child. -/
theorem Orphan.terminating (h : Orphan s c) {child : Nat} (hstage : s.stage = .terminating child) :
    EndsUntracked s c := by
  exact h.go (ServeState.step_terminate hstage .graceful) nofun fun h => h.cleaning rfl

/-- And from the unloading of the models, which comes before. -/
theorem Orphan.unloading (h : Orphan s c) {child : Nat} (hstage : s.stage = .unloading child) :
    EndsUntracked s c := by
  have hs : s.step .unloaded = some { s with stage := .terminating child } := by
    simp only [ServeState.step, hstage]
  exact h.go hs nofun fun h => h.terminating rfl

/-- And from the stop of the workers. -/
theorem Orphan.stopping (h : Orphan s c) (hstage : s.stage = .stopping) : EndsUntracked s c := by
  cases hchild : s.child with
  | none =>
    have hs : s.step .take = some { s with stage := .cleaning } := by
      simp only [ServeState.step, hstage, hchild]
    exact h.go hs nofun fun h => h.cleaning rfl
  | some child =>
    have hs : s.step .take = some { s with child := none, stage := .unloading child } := by
      simp only [ServeState.step, hstage, hchild]
    exact h.go hs nofun fun h => h.unloading rfl

/-- The first `s.calls.length - n` calls are over; the others are aborted one after the other. -/
theorem Orphan.joining_from : ∀ (n : Nat) {s : ServeState}, Orphan s c → s.stage = .joining →
    (∀ (i : Nat) (call : ReadyCall), s.calls[i]? = some call → i + n < s.calls.length →
    call.inProgress = false) →
    EndsUntracked s c
  | 0, s, h, hstage, hover => by
    have hany : s.calls.any (·.inProgress) = false := by
      rw [List.any_eq_false]
      intro call hmem
      obtain ⟨i, hcall⟩ := List.getElem?_of_mem hmem
      rw [hover i call hcall (lt_of_getElem? hcall)]
      exact Bool.false_ne_true
    have hs : s.step .joined = some { s with stage := .stopping } := by
      simp only [ServeState.step, hstage, hany, Bool.false_eq_true, if_false]
    exact h.go hs nofun fun h => h.stopping rfl
  | n + 1, s, h, hstage, hover => by
    -- the next call, if there is one, is at this place
    cases hcall : s.calls[s.calls.length - (n + 1)]? with
    | none =>
      refine h.joining_from n hstage fun i call hcall' hlt => ?_
      have hlength := List.getElem?_eq_none_iff.mp hcall
      have hi := lt_of_getElem? hcall'
      exact hover i call hcall' (by omega)
    | some call =>
      have hplace := lt_of_getElem? hcall
      cases hprogress : call.inProgress with
      | false =>
        refine h.joining_from n hstage fun i call' hcall' hlt => ?_
        by_cases hi : i = s.calls.length - (n + 1)
        · subst hi
          cases hcall.symm.trans hcall'
          exact hprogress
        · exact hover i call' hcall' (by omega)
      | true =>
        have hs : s.step (.abort (s.calls.length - (n + 1))) =
            some (s.finish (s.calls.length - (n + 1)) call none) := by
          simp only [ServeState.step, hcall, hprogress, if_true]
        refine h.go hs nofun fun h => h.joining_from n hstage fun i call' hcall' hlt => ?_
        have hlength : (s.finish (s.calls.length - (n + 1)) call none).calls.length = s.calls.length :=
          List.length_set
        rw [hlength] at hlt
        rcases getElem?_set_cases hcall' with ⟨-, rfl⟩ | hbefore
        · rfl
        · by_cases hi : i = s.calls.length - (n + 1)
          · subst hi
            cases (getElem?_set_self_of hcall).symm.trans hcall'
            rfl
          · exact hover i call' hbefore (by omega)

/-- And from the wait for them: the calls that are in progress are aborted one after the other. -/
theorem Orphan.joining (h : Orphan s c) (hstage : s.stage = .joining) : EndsUntracked s c :=
  h.joining_from s.calls.length hstage fun _ _ _ hlt => absurd hlt (by omega)

/-- And while the runtime is serving: an orphan is lost from the moment on at which it becomes one. -/
theorem Orphan.serving (h : Orphan s c) (hstage : s.stage = .serving) : EndsUntracked s c := by
  have hs : s.step .shutdown = some { s with stage := .joining } := by
    simp only [ServeState.step, hstage]
  exact h.go hs nofun fun h => h.joining rfl

/-- **A process that nobody owns outlives the run.** -/
theorem Orphan.ends (h : Orphan s c) : EndsUntracked s c := by
  cases hstage : s.stage with
  | starting =>
    have hs : s.step (.started (.ok ())) = some { s with stage := .serving } := by
      simp only [ServeState.step, hstage]
    exact h.go hs nofun fun h => h.serving rfl
  | serving => exact h.serving hstage
  | joining => exact h.joining hstage
  | stopping => exact h.stopping hstage
  | unloading child => exact h.unloading hstage
  | terminating child => exact h.terminating hstage
  | cleaning => exact h.cleaning hstage
  | returned => exact h.returned hstage

/-- A call dropped while its spawn is running, or may still be. -/
theorem ends_of_abort (hc : Custody s) {i : Nat} (hs : s.step (.abort i) = some s') (ho : Owns s (.call i) c)
    (hlive : Live s c) : EndsUntracked s' c := by
  obtain ⟨call, hcall, hawaits⟩ := ho
  have hprogress := inProgress_of_stage hawaits nofun
  simp only [ServeState.step, hcall, hprogress, if_true] at hs
  cases hs
  have hunowned : Unowned Owns (s.finish i call none) c := by
    intro o ho
    rcases owns_of_set (s := s) ho with hbefore | ⟨-, hdone⟩
    · -- the dropped call was the owner, and awaits nothing now
      have ho' : Owns s o c := hbefore
      obtain rfl := hc.sole o (.call i) c ho' ⟨call, hcall, hawaits⟩
      obtain ⟨next, hnext, hstill⟩ := ho
      cases (getElem?_set_self_of hcall).symm.trans hnext
      cases hstill
    · cases hdone
  rcases hlive with hqueued | hrunning
  · -- the closure runs on
    have hrun : (s.finish i call none).step (.run c (.ok (.ok ()))) =
        some { s.finish i call none with spawns := s.spawns.set c .running } := by
      have hspawn : (s.finish i call none).spawns[c]? = some .queued := hqueued
      simp only [ServeState.step, hspawn]
      rfl
    refine .before hrun (Orphan.ends ⟨getElem?_set_self_of hqueued, fun o ho => hunowned o ?_⟩)
    cases o <;> exact ho
  · exact Orphan.ends ⟨hrunning, hunowned⟩

/-- A running process whose stop fails. -/
theorem ends_of_stop (hc : Custody s) (hs : s.step e = some s') {stop : ChildCalls}
    (hstops : Stops s e c stop) (hrunning : Running s c) {error : String}
    (herror : stopChild c stop = .error error) : EndsUntracked s' c := by
  have hstill : (s.stopSpawn c stop)[c]? = some .running :=
    (getElem?_stopSpawn_error herror c).trans hrunning
  -- each of the three stops takes the child from its only owner, whatever becomes of it
  cases hstops with
  | @replaced i call spawn c stop hcall hawaits hspawned hchild =>
    have hsteps : s' = (s.register spawn stop).moveTo i call .polling := by
      have hstage : call.stage = .spawning spawn := hawaits
      rcases hspawned with hspawned | hspawned <;>
        · simp only [ServeState.step, hcall, ServeState.resume, hstage, hspawned] at hs
          exact (Option.some.inj hs).symm
    subst hsteps
    refine Orphan.ends ⟨?_, fun o ho => ?_⟩
    · show (s.register spawn stop).spawns[c]? = some .running
      rw [spawns_register hchild]
      exact hstill
    · -- the slot was its owner, and has the new child now
      cases o with
      | slot =>
        obtain rfl : spawn = c := Option.some.inj ho
        cases hc.sole (.call i) .slot spawn ⟨call, hcall, hawaits⟩ hchild
      | run => cases hc.sole .run .slot c ho hchild
      | call j =>
        rcases owns_of_set (s := s) ho with hbefore | ⟨-, hpolling⟩
        · cases hc.sole (.call j) .slot c hbefore hchild
        · cases hpolling
  | @terminated c stop hstage =>
    simp only [ServeState.step, hstage] at hs
    cases hs
    have hown : Owns s .run c := by rw [Owns, hstage]; rfl
    refine Orphan.ends ⟨hstill, fun o ho => ?_⟩
    cases o with
    | slot => cases hc.sole .slot .run c ho hown
    | run => cases ho
    | call j => cases hc.sole (.call j) .run c ho hown
  | @cleaned c stop hstage hchild =>
    simp only [ServeState.step, hstage, hchild] at hs
    cases hs
    refine Orphan.ends ⟨hstill, fun o ho => ?_⟩
    cases o with
    | slot => cases ho
    | run => cases ho
    | call j => cases hc.sole (.call j) .slot c ho hchild

/-- A step that is not careful. -/
theorem ends_of_not_careful (hc : Custody s) (hs : s.step e = some s') (h : ¬ Careful (s, e)) :
    ∃ c, EndsUntracked s' c := by
  by_contra hnone
  refine h ⟨fun i spawn habort ho hlive => ?_, fun c stop hstops hrunning => ?_⟩
  · obtain rfl : e = .abort i := habort
    exact hnone ⟨spawn, ends_of_abort hc hs ho hlive⟩
  · cases hstop : stopChild c stop with
    | ok message => exact stopChild_ok_iff.mp ⟨message, hstop⟩
    | error error => exact absurd ⟨c, ends_of_stop hc hs hstops hrunning hstop⟩ hnone

end

/-- **What is left of the processes**: at most one is registered at any time.  In a run of careful steps
    what is replaced in the slot is stopped, and none is running once the runtime has returned, nor will
    be; after any other step some run returns with one that is running and not registered. -/
theorem serve_stopped_when {h : List (ServeState × ServeEvent)} {s : ServeState}
    (p : Path serveSys .start h s) :
    (∀ c c', s.child = some c → s.child = some c' → c = c') ∧
    ((∀ x ∈ h, Careful x) →
      (∀ x ∈ h, ∀ s' old new, Replaces x s' old new → ¬ Live s' old) ∧
      (s.stage = .returned → ∀ c, ¬ Live s c)) ∧
    ∀ e s', s.step e = some s' → ¬ Careful (s, e) → ∃ c, EndsUntracked s' c := by
  have hc := custody_path p
  refine ⟨fun c c' hchild hchild' => Option.some.inj (hchild.symm.trans hchild'), fun hall => ⟨?_, ?_⟩,
    fun e s' hs hcareless => ends_of_not_careful hc hs hcareless⟩
  · rintro ⟨m, e⟩ hx s' old new hreplaces
    obtain ⟨newer, older, rfl⟩ := List.append_of_mem hx
    obtain ⟨-, hbefore, -, -⟩ := p.cut
    exact not_live_of_replaces (custody_path hbefore) (hall _ hx) hreplaces
  · intro hreturned c hlive
    obtain ⟨o, ho⟩ := covered_path p hall c hlive
    exact hc.unowned_returned hreturned c o ho

end

/-- The runtime serves, and a call to the endpoint has begun. -/
theorem path_called : ∃ h, Path serveSys .start h
    ⟨none, none, [⟨"http://localhost:11434/v1", "localhost:11434", .probing⟩], [], .serving⟩ ∧
    ∀ x ∈ h, Careful x := by
  have hlocal : localAddr "http://localhost:11434/v1" = some "localhost:11434" := by decide
  have hcalled : serveSys.step ⟨none, none, [], [], .serving⟩ (.call "http://localhost:11434/v1") =
      some ⟨none, none, [⟨"http://localhost:11434/v1", "localhost:11434", .probing⟩], [], .serving⟩ := by
    simp only [serveSys, ServeState.step, ServeState.call, hlocal]
    rfl
  refine ⟨_, (Path.start.step (e := .started (.ok ())) rfl).step hcalled, ?_⟩
  intro x hx
  simp only [List.mem_cons, List.not_mem_nil, or_false] at hx
  rcases hx with rfl | rfl <;> exact ⟨nofun, nofun⟩

/-- A call starts a process, and the runtime stops it. -/
theorem serve_stopped_when_stopped :
    ∃ (h : List (ServeState × ServeEvent)) (s : ServeState), Path serveSys .start h s ∧
      s.spawns = [.exited] ∧ s.stage = .returned ∧ ∀ c, ¬ Live s c := by
  obtain ⟨h, p, hcareful⟩ := path_called
  have q := p
    |>.step (e := .probe 0 (.ok (.ok [false])) false) rfl
    |>.step (e := .lock 0) rfl
    |>.step (e := .probe 0 (.ok (.ok [false])) false) rfl
    |>.step (e := .run 0 (.ok (.ok ()))) rfl
    |>.step (e := .resume 0 .graceful) rfl
    |>.step (e := .probe 0 (.ok (.ok [true])) false) rfl
    |>.step (e := .shutdown) rfl
    |>.step (e := .joined) rfl
    |>.step (e := .take) rfl
    |>.step (e := .unloaded) rfl
    |>.step (e := .terminate .graceful) rfl
    |>.step (e := .cleanup .graceful) rfl
  refine ⟨_, _, q, rfl, rfl, ((serve_stopped_when q).2.1 ?_).2 rfl⟩
  have hstoppable : ChildCalls.graceful.Stoppable :=
    @ChildCalls.Stoppable.terminated _ _ _ [] [] rfl rfl nofun rfl
  have hstep : ∀ {s : ServeState} {e : ServeEvent}, (∀ i, e ≠ .abort i) →
      (∀ c stop, Stops s e c stop → stop = .graceful) → Careful (s, e) := by
    intro s e habort hstops
    exact ⟨fun i _ he => absurd he (habort i), fun c stop h _ => hstops c stop h ▸ hstoppable⟩
  intro x hx
  simp only [List.mem_cons] at hx
  rcases hx with rfl | rfl | rfl | rfl | rfl | rfl | rfl | rfl | rfl | rfl | rfl | rfl | hx
  iterate 12 exact hstep nofun (by rintro c stop ⟨⟩ <;> rfl)
  exact hcareful x hx

/-- A worker is aborted while its spawn is queued. -/
theorem serve_stopped_not_always :
    ¬ ∀ (h : List (ServeState × ServeEvent)) (s : ServeState), Path serveSys .start h s →
      s.stage = .returned → ∀ c, ¬ Untracked s c := by
  intro hclaim
  obtain ⟨h, p, -⟩ := path_called
  have q := p
    |>.step (e := .probe 0 (.ok (.ok [false])) false) rfl
    |>.step (e := .lock 0) rfl
    |>.step (e := .probe 0 (.ok (.ok [false])) false) rfl
    |>.step (e := .shutdown) rfl
    |>.step (e := .abort 0) rfl
    |>.step (e := .run 0 (.ok (.ok ()))) rfl
    |>.step (e := .joined) rfl
    |>.step (e := .take) rfl
    |>.step (e := .cleanup .graceful) rfl
  exact hclaim _ _ q rfl 0 ⟨rfl, nofun⟩

end Tellm.Ollama
