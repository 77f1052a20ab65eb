/-
  DISPATCH: how one chat's messages reach its worker (`runtime.rs`).

  The poll loop hands a message to the chat's worker through a bounded channel.  A worker that has had
  nothing to do leaves its loop, and the next message finds the channel closed and starts another.  A
  registry tells a deny which worker to cancel.  Three parties act on this without a common lock: the
  poll loop, the workers of the chat (an old one may still be unwinding while a new one starts), and
  whoever denies or allows the chat.

  1. **The parties**: `Worker` with its channel, `Poll`, and the registry; `dispatchSys` lets them take
     steps in any order.  A worker's phases keep apart leaving the loop, the registry guard's drop and
     the receiver's drop.
  2. **`DispatchState.Inv`**: only the newest worker can have its receiver.  Everything else follows,
     because the poll loop starts a worker only after it has seen the last one's channel closed.
  3. **`conserves`**: what is accepted is handled, discarded, or held by the newest worker
     (`Tellm.Lib.Flow`).
  4. **`one_handler`**: one message at a time, in the order of acceptance, and a deny finds the worker.

  A worker is known by its place in the list of all workers.  Its id comes from a counter that wraps and
  that other chats draw from, so here it is arbitrary, and nothing relies on ids being different.

  The channel holds at most `chatQueueSize` messages, and `trySend` has the three answers of Tokio's
  `try_send`: taken, full, closed.  A message that finds the queue full is counted neither as accepted nor
  as lost here, since the source drops it with a notice to the chat (`Tellm.Shutdown` counts these).  One
  that finds the channel closed stays in the poll loop's hands while a new worker is spawned, registered
  and given it.

  A worker leaves its loop when it has been idle for long enough, when its channel is at an end, or when
  it finds itself cancelled or its chat not allowed any more, which it checks before it waits and again
  with a message in hand.  Behind each of these the registry guard is dropped and then the receiver, and
  other tasks may run in between; that is what lets a late message in (`Tellm.Delivery`).  An abort drops
  the future wherever it is.

  All of it is about one chat.  That the chats do not disturb each other, and that the maps keyed by chat
  amount to one such system each, is `Tellm.Chats`.
-/
import Tellm.Lib.Flow

namespace Tellm

open Runs

variable {M : Type}

/-- `CHAT_QUEUE_SIZE`. -/
def chatQueueSize : Nat := 32

/-! ## A worker -/

/-- Where a chat worker's task stands. -/
inductive WorkerPhase (M : Type)
  /-- Spawned, and not polled yet. -/
  | unstarted
  /-- At the check at the head of the loop. -/
  | top
  /-- In `timeout(receiver.recv())`. -/
  | waiting
  /-- A message is in hand, at the check after `recv`. -/
  | received (message : M)
  | handling (message : M)
  /-- Out of the loop; the registry guard is still to be dropped. -/
  | left
  /-- The registry guard has run; the receiver is still to be dropped. -/
  | unguarded
  /-- The receiver has been dropped. -/
  | dropped
  /-- The join handle says so. -/
  | finished

/-- A worker task, its flags, and its channel. -/
structure Worker (M : Type) where
  workerId : UInt64
  phase : WorkerPhase M := .unstarted
  cancelled : Bool := false
  aborted : Bool := false
  queue : List M := []

/-- What `try_send` answers. -/
inductive SendResult
  | ok
  | full
  | closed
  deriving DecidableEq

/-- What a worker's task does next, with what it finds. -/
inductive WorkerEvent
  | start
  | check (chatIsAllowed : Bool)
  | recv
  | idleTimeout
  | recvNone
  | handled
  | abort
  | dropGuard
  | dropReceiver
  | finish

namespace Worker

/-- The receiver has not been dropped. -/
def alive (w : Worker M) : Bool :=
  match w.phase with
  | .dropped => false
  | .finished => false
  | _ => true

/-- The registry guard is still to run, or still to be made.  A task that is aborted before its first
    poll never makes one. -/
def guardPending (w : Worker M) : Bool :=
  match w.phase with
  | .unguarded => false
  | .dropped => false
  | .finished => false
  | _ => true

/-- `try_send`.  A channel is closed once its receiver has been dropped. -/
def trySend (w : Worker M) : SendResult :=
  if !w.alive then .closed
  else if w.queue.length ≥ chatQueueSize then .full
  else .ok

/-- Neither check of the loop stops the worker. -/
def mayGoOn (w : Worker M) (chatIsAllowed : Bool) : Bool := !w.cancelled && chatIsAllowed

/-- One step of the worker's task; `connected` says whether a sender of its channel exists. -/
def step (w : Worker M) (connected : Bool) : WorkerEvent → Option (Worker M)
  | .start =>
    match w.phase with
    | .unstarted => some { w with phase := .top }
    | _ => none
  | .check chatIsAllowed =>
    match w.phase with
    | .top => some { w with phase := if w.mayGoOn chatIsAllowed then .waiting else .left }
    | .received message =>
      some { w with phase := if w.mayGoOn chatIsAllowed then .handling message else .left }
    | _ => none
  | .recv =>
    match w.phase, w.queue with
    | .waiting, message :: queue => some { w with phase := .received message, queue := queue }
    | _, _ => none
  | .idleTimeout =>
    -- `timeout` polls the receiver first: a queued message wins
    match w.phase, w.queue with
    | .waiting, [] => some { w with phase := .left }
    | _, _ => none
  | .recvNone =>
    match w.phase, w.queue, connected with
    | .waiting, [], false => some { w with phase := .left }
    | _, _, _ => none
  | .handled =>
    match w.phase with
    | .handling _ => some { w with phase := .top }
    | _ => none
  | .abort =>
    -- at an await point the task is dropped: its locals, then what it captured
    if w.aborted then
      match w.phase with
      | .unstarted => some { w with phase := .unguarded }
      | .top => some { w with phase := .left }
      | .waiting => some { w with phase := .left }
      | .received _ => some { w with phase := .left }
      | .handling _ => some { w with phase := .left }
      | _ => none
    else none
  | .dropGuard =>
    match w.phase with
    | .left => some { w with phase := .unguarded }
    | _ => none
  | .dropReceiver =>
    match w.phase with
    | .unguarded => some { w with phase := .dropped }
    | _ => none
  | .finish =>
    match w.phase with
    | .dropped => some { w with phase := .finished }
    | _ => none

/-- What the worker will still get to: the message in hand and the queue.  Nothing, once its receiver is
    gone. -/
def pending (w : Worker M) : List M :=
  match w.phase with
  | .received message => message :: w.queue
  | .dropped => []
  | .finished => []
  | _ => w.queue

/-- The messages on which the step starts `handle_allowed_message`. -/
def handles (w : Worker M) : WorkerEvent → List M
  | .check chatIsAllowed =>
    match w.phase with
    | .received message => if w.mayGoOn chatIsAllowed then [message] else []
    | _ => []
  | _ => []

/-- The messages that the step gives up. -/
def discards (w : Worker M) : WorkerEvent → List M
  | .check chatIsAllowed =>
    match w.phase with
    | .received message => if w.mayGoOn chatIsAllowed then [] else [message]
    | _ => []
  | .abort =>
    match w.phase with
    | .received message => [message]
    | _ => []
  | .dropReceiver => w.queue
  | _ => []

end Worker

/-! ## The poll loop and the registry -/

/-- Where the poll loop is, as far as the chat is concerned. -/
inductive Poll (M : Type)
  | idle
  /-- In `send_to_chat_worker`, with no dispatcher for the chat. -/
  | spawning (message : M)
  | registering (worker : Nat) (message : M)
  /-- In `send_to_chat_worker`, with a dispatcher. -/
  | sending (message : M)
  /-- The channel was closed. -/
  | respawning (message : M)
  | reregistering (worker : Nat) (message : M)
  | resending (worker : Nat) (message : M)
  | inserting (worker : Nat)
  /-- In `dispatchers.retain`, the dispatcher not to be kept. -/
  | removing (worker : Nat)

/-- The chat's workers, oldest first, and by their places: whose registration the registry holds, and
    whose sender the dispatcher. -/
structure DispatchState (M : Type) where
  workers : List (Worker M) := []
  registry : Option Nat := none
  dispatcher : Option Nat := none
  poll : Poll M := .idle

/-- A step of the poll loop at this chat, of one of its workers, or of who denies or allows it. -/
inductive DispatchEvent (M : Type)
  | handleUpdate (message : M)
  | spawnChatWorker (workerId : UInt64)
  | register
  | trySend
  | insertDispatcher
  | retain
  | removeRegistration
  | worker (i : Nat) (e : WorkerEvent)
  | cancelChatWorker (abort : Bool)
  | reactivateChatWorker

namespace DispatchState

/-- One worker is changed. -/
def update (s : DispatchState M) (i : Nat) (f : Worker M → Worker M) : DispatchState M :=
  { s with workers := s.workers.modify i f }

/-- What `try_send` to a worker comes to; one that is not there has closed its channel. -/
def sendResult (s : DispatchState M) (i : Nat) : SendResult :=
  (s.workers[i]?).elim .closed Worker.trySend

/-- A sender of the worker's channel exists. -/
def connected (s : DispatchState M) (i : Nat) : Bool :=
  s.dispatcher == some i ||
    match s.poll with
    | .registering worker _ => worker == i
    | .reregistering worker _ => worker == i
    | .resending worker _ => worker == i
    | .inserting worker => worker == i
    | _ => false

/-- `remove_worker_registration`, which is also what the registry guard does: by id. -/
def removeWorkerRegistration (s : DispatchState M) (i : Nat) : DispatchState M :=
  let workerId (i : Nat) := (s.workers[i]?).map (·.workerId)
  { s with registry := s.registry.filter fun registered => workerId registered != workerId i }

/-- `spawn_chat_worker`: one more worker, with an empty queue. -/
def spawnChatWorker (s : DispatchState M) (workerId : UInt64) : DispatchState M :=
  { s with workers := s.workers ++ [{ workerId := workerId }] }

/-- The message goes into the worker's queue. -/
def push (s : DispatchState M) (i : Nat) (message : M) : DispatchState M :=
  s.update i fun w => { w with queue := w.queue ++ [message] }

/-- One step of the chat's dispatch, whoever makes it. -/
def step (s : DispatchState M) : DispatchEvent M → Option (DispatchState M)
  | .handleUpdate message =>
    match s.poll, s.dispatcher with
    | .idle, none => some { s with poll := .spawning message }
    | .idle, some _ => some { s with poll := .sending message }
    | _, _ => none
  | .spawnChatWorker workerId =>
    match s.poll with
    | .spawning message =>
      some { s.spawnChatWorker workerId with poll := .registering s.workers.length message }
    | .respawning message =>
      some { s.spawnChatWorker workerId with poll := .reregistering s.workers.length message }
    | _ => none
  | .register =>
    match s.poll with
    | .registering worker message =>
      some { s with registry := some worker, dispatcher := some worker, poll := .sending message }
    | .reregistering worker message =>
      some { s with registry := some worker, poll := .resending worker message }
    | _ => none
  | .trySend =>
    match s.poll, s.dispatcher with
    | .sending message, some worker =>
      match s.sendResult worker with
      | .ok => some { s.push worker message with poll := .idle }
      | .full => some { s with poll := .idle }
      | .closed => some { s with poll := .respawning message }
    | .resending worker message, _ =>
      match s.sendResult worker with
      | .ok => some { s.push worker message with poll := .inserting worker }
      | _ => some { s with poll := .inserting worker }
    | _, _ => none
  | .insertDispatcher =>
    match s.poll with
    | .inserting worker => some { s with dispatcher := some worker, poll := .idle }
    | _ => none
  | .retain =>
    match s.poll, s.dispatcher with
    | .idle, some worker =>
      -- a dispatcher is kept unless its worker is finished or its sender closed
      match s.sendResult worker with
      | .closed => some { s with poll := .removing worker }
      | _ => some s
    | _, _ => none
  | .removeRegistration =>
    match s.poll with
    | .removing worker =>
      some { s.removeWorkerRegistration worker with dispatcher := none, poll := .idle }
    | _ => none
  | .worker i e =>
    match s.workers[i]? with
    | none => none
    | some w =>
      match w.step (s.connected i) e with
      | none => none
      | some w' =>
        match e with
        | .dropGuard => some ((s.update i fun _ => w').removeWorkerRegistration i)
        | _ => some (s.update i fun _ => w')
  | .cancelChatWorker abort =>
    match s.registry with
    | none => some s
    | some i => some (s.update i fun w => { w with cancelled := true, aborted := w.aborted || abort })
  | .reactivateChatWorker =>
    match s.registry with
    | none => some s
    | some i => some (s.update i fun w => { w with cancelled := false })

/-- What the newest worker will still get to. -/
def pending (s : DispatchState M) : List M := (s.workers.getLast?).elim [] Worker.pending

end DispatchState

/-- The dispatch of one chat as a system. -/
def dispatchSys : Sys (DispatchState M) (DispatchEvent M) := ⟨DispatchState.step⟩

/-- The steps so far, newest first. -/
abbrev DispatchHistory (M : Type) := List (DispatchState M × DispatchEvent M)

/-! ## What a step does with messages -/

/-- The channel the poll loop is about to send to, and the message. -/
def DispatchState.target (s : DispatchState M) : Option (Nat × M) :=
  match s.poll, s.dispatcher with
  | .sending message, some worker => some (worker, message)
  | .resending worker message, _ => some (worker, message)
  | _, _ => none

/-- The message for which the step's `try_send` returns `Ok`. -/
def accepts (x : DispatchState M × DispatchEvent M) : List M :=
  match x.2, x.1.target with
  | .trySend, some (worker, message) => if x.1.sendResult worker = .ok then [message] else []
  | _, _ => []

/-- The message that the step starts to handle. -/
def handles (x : DispatchState M × DispatchEvent M) : List M :=
  match x.2 with
  | .worker i e => (x.1.workers[i]?).elim [] (·.handles e)
  | _ => []

/-- The messages that the step gives up. -/
def discards (x : DispatchState M × DispatchEvent M) : List M :=
  match x.2 with
  | .worker i e => (x.1.workers[i]?).elim [] (·.discards e)
  | _ => []

/-- Every message accepted, and every message handled, oldest first. -/
def acceptedMessages (h : DispatchHistory M) : List M := log accepts h

/-- The messages on which a handler has been started, in order. -/
def handledMessages (h : DispatchHistory M) : List M := log handles h

/-- The step registers the worker. -/
def Registers (i : Nat) (x : DispatchState M × DispatchEvent M) : Prop :=
  match x.2, x.1.poll with
  | .register, .registering worker _ => worker = i
  | .register, .reregistering worker _ => worker = i
  | _, _ => False

/-! ## What a worker's step does -/

namespace Worker

variable {w w' : Worker M} {connected : Bool} {e : WorkerEvent}

/-- Everything a worker's step can do. -/
inductive Steps (w : Worker M) (connected : Bool) : WorkerEvent → Worker M → Prop
  | start (hphase : w.phase = .unstarted) : Steps w connected .start { w with phase := .top }
  | check {chatIsAllowed} (hphase : w.phase = .top) : Steps w connected (.check chatIsAllowed)
      { w with phase := if w.mayGoOn chatIsAllowed then .waiting else .left }
  | recheck {chatIsAllowed message} (hphase : w.phase = .received message) :
      Steps w connected (.check chatIsAllowed)
        { w with phase := if w.mayGoOn chatIsAllowed then .handling message else .left }
  | recv {message queue} (hphase : w.phase = .waiting) (hqueue : w.queue = message :: queue) :
      Steps w connected .recv { w with phase := .received message, queue := queue }
  | idleTimeout (hphase : w.phase = .waiting) (hqueue : w.queue = []) :
      Steps w connected .idleTimeout { w with phase := .left }
  | recvNone (hphase : w.phase = .waiting) (hqueue : w.queue = []) (hconnected : connected = false) :
      Steps w connected .recvNone { w with phase := .left }
  | handled {message} (hphase : w.phase = .handling message) :
      Steps w connected .handled { w with phase := .top }
  | abortUnstarted (haborted : w.aborted = true) (hphase : w.phase = .unstarted) :
      Steps w connected .abort { w with phase := .unguarded }
  | abort (haborted : w.aborted = true)
      (hphase : w.phase = .top ∨ w.phase = .waiting ∨ (∃ message, w.phase = .received message) ∨
        ∃ message, w.phase = .handling message) :
      Steps w connected .abort { w with phase := .left }
  | dropGuard (hphase : w.phase = .left) : Steps w connected .dropGuard { w with phase := .unguarded }
  | dropReceiver (hphase : w.phase = .unguarded) :
      Steps w connected .dropReceiver { w with phase := .dropped }
  | finish (hphase : w.phase = .dropped) : Steps w connected .finish { w with phase := .finished }

theorem steps_of_step (h : w.step connected e = some w') : Steps w connected e w' := by
  cases e with
  | start =>
    simp only [step] at h
    split at h
    · cases h
      exact .start ‹_›
    · cases h
  | check chatIsAllowed =>
    simp only [step] at h
    split at h
    · cases h
      exact .check ‹_›
    · cases h
      exact .recheck ‹_›
    · cases h
  | recv =>
    simp only [step] at h
    split at h
    · cases h
      exact .recv ‹_› ‹_›
    · cases h
  | idleTimeout =>
    simp only [step] at h
    split at h
    · cases h
      exact .idleTimeout ‹_› ‹_›
    · cases h
  | recvNone =>
    simp only [step] at h
    split at h
    · cases h
      exact .recvNone ‹_› ‹_› rfl
    · cases h
  | handled =>
    simp only [step] at h
    split at h
    · cases h
      exact .handled ‹_›
    · cases h
  | abort =>
    simp only [step] at h
    split at h
    · rename_i haborted
      split at h <;> cases h
      · exact .abortUnstarted haborted ‹_›
      · exact .abort haborted (Or.inl ‹_›)
      · exact .abort haborted (Or.inr (Or.inl ‹_›))
      · exact .abort haborted (Or.inr (Or.inr (Or.inl ⟨_, ‹_›⟩)))
      · exact .abort haborted (Or.inr (Or.inr (Or.inr ⟨_, ‹_›⟩)))
    · cases h
  | dropGuard =>
    simp only [step] at h
    split at h
    · cases h
      exact .dropGuard ‹_›
    · cases h
  | dropReceiver =>
    simp only [step] at h
    split at h
    · cases h
      exact .dropReceiver ‹_›
    · cases h
  | finish =>
    simp only [step] at h
    split at h
    · cases h
      exact .finish ‹_›
    · cases h

/-- A dropped receiver stays dropped. -/
theorem Steps.alive (h : Steps w connected e w') (ha : w'.alive = true) : w.alive = true := by
  cases h with
  | finish => cases ha
  | dropReceiver => cases ha
  | abort haborted hphase =>
    rcases hphase with hp | hp | ⟨message, hp⟩ | ⟨message, hp⟩ <;> simp only [Worker.alive, hp]
  | _ => simp only [Worker.alive, *]

/-- A guard that has run has run. -/
theorem Steps.guardPending (h : Steps w connected e w') (hg : w'.guardPending = true) :
    w.guardPending = true := by
  cases h with
  | finish => cases hg
  | dropReceiver => cases hg
  | dropGuard => cases hg
  | abortUnstarted => cases hg
  | abort haborted hphase =>
    rcases hphase with hp | hp | ⟨message, hp⟩ | ⟨message, hp⟩ <;>
      simp only [Worker.guardPending, hp]
  | _ => simp only [Worker.guardPending, *]

/-- A guard that is still to run has kept its receiver. -/
theorem alive_of_guardPending (hg : w.guardPending = true) : w.alive = true := by
  cases hphase : w.phase <;> simp_all only [Worker.guardPending, Worker.alive, Bool.false_eq_true]

/-- **The worker's own conservation law**: what was pending before the step is what the step handles, then
    what it discards, then what is pending after it, in this order. -/
theorem Steps.flow (h : Steps w connected e w') :
    w.pending = w.handles e ++ w.discards e ++ w'.pending := by
  cases h with
  | @check chatIsAllowed hphase =>
    simp only [pending, handles, discards, hphase]
    cases w.mayGoOn chatIsAllowed <;> rfl
  | @recheck chatIsAllowed message hphase =>
    simp only [pending, handles, discards, hphase]
    cases w.mayGoOn chatIsAllowed <;> rfl
  | abort haborted hphase =>
    rcases hphase with hp | hp | ⟨message, hp⟩ | ⟨message, hp⟩ <;>
      simp only [pending, handles, discards, hp] <;> rfl
  | recv hphase hqueue =>
    simp only [pending, handles, discards, hphase, hqueue]
    rfl
  | dropReceiver hphase =>
    simp only [pending, handles, discards, hphase]
    rw [List.nil_append, List.append_nil]
  | _ => simp [pending, handles, discards, *]

end Worker

/-! ## The invariant -/

namespace DispatchState

variable {s s' : DispatchState M} {i : Nat}

/-- No worker has its receiver. -/
def AllDropped (s : DispatchState M) : Prop :=
  ∀ (i : Nat) (w : Worker M), s.workers[i]? = some w → w.alive = false

/-- What the poll loop knows about the workers, by where it is. -/
def PollInv (s : DispatchState M) : Poll M → Prop
  | .idle => (s.dispatcher = none → s.AllDropped) ∧
      ∀ d, s.dispatcher = some d → d + 1 = s.workers.length
  | .spawning _ => s.AllDropped
  | .registering worker _ => worker + 1 = s.workers.length
  | .sending _ => ∃ d, s.dispatcher = some d ∧ d + 1 = s.workers.length
  | .respawning _ => s.AllDropped
  | .reregistering worker _ => worker + 1 = s.workers.length
  | .resending worker _ => worker + 1 = s.workers.length
  | .inserting worker => worker + 1 = s.workers.length
  | .removing _ => s.AllDropped

/-- **Only the newest worker can have its receiver**: a worker that is alive is the last one that was spawned,
    and the polling task stands where it may stand. Every step keeps both, so that no two workers of a chat
    read at once. -/
structure Inv (s : DispatchState M) : Prop where
  newest : ∀ (i : Nat) (w : Worker M), s.workers[i]? = some w → w.alive = true →
    i + 1 = s.workers.length
  poll : s.PollInv s.poll

theorem Inv.start : ({} : DispatchState M).Inv := by
  have hnone : ∀ i : Nat, ({} : DispatchState M).workers[i]? = none := fun _ => rfl
  refine ⟨fun i w hw => (by cases (hnone i).symm.trans hw), ?_, ?_⟩
  · intro _ i w hw
    cases (hnone i).symm.trans hw
  · intro d hd
    cases hd

@[simp] theorem length_update (i : Nat) (f : Worker M → Worker M) :
    (s.update i f).workers.length = s.workers.length := List.length_modify _ _ _

/-- An update of one worker, from any worker's point of view. -/
theorem getElem?_update {j : Nat} {f : Worker M → Worker M} {w' : Worker M}
    (hw : (s.update i f).workers[j]? = some w') :
    ∃ w, s.workers[j]? = some w ∧ w' = if i = j then f w else w := by
  rw [update, List.getElem?_modify] at hw
  cases hold : s.workers[j]? with
  | none =>
    rw [hold] at hw
    cases hw
  | some w =>
    rw [hold] at hw
    cases hw
    exact ⟨w, rfl, rfl⟩

/-- What the poll loop knows survives whatever brings no worker back to life. -/
theorem PollInv.kept {poll : Poll M} (hold : s.PollInv poll)
    (hdropped : s.AllDropped → s'.AllDropped) (hlength : s'.workers.length = s.workers.length)
    (hdispatcher : s'.dispatcher = s.dispatcher) : s'.PollInv poll := by
  cases poll with
  | idle =>
    refine ⟨fun hnone => hdropped (hold.1 (hdispatcher.symm.trans hnone)), ?_⟩
    intro d hd
    rw [hlength]
    exact hold.2 d (hdispatcher.symm.trans hd)
  | sending message =>
    obtain ⟨d, hd, hnewest⟩ := hold
    exact ⟨d, hdispatcher.trans hd, hnewest.trans hlength.symm⟩
  | spawning _ | respawning _ | removing _ => exact hdropped hold
  | registering worker _ | reregistering worker _ | resending worker _ | inserting worker =>
    show worker + 1 = s'.workers.length
    rw [hlength]
    exact hold

/-- The invariant is kept by whatever brings no worker back to life. -/
theorem Inv.kept (hi : s.Inv) (hlength : s'.workers.length = s.workers.length)
    (halive : ∀ (j : Nat) (w' : Worker M), s'.workers[j]? = some w' → w'.alive = true →
      ∃ w : Worker M, s.workers[j]? = some w ∧ w.alive = true)
    (hdispatcher : s'.dispatcher = s.dispatcher) (hpoll : s'.poll = s.poll) : s'.Inv := by
  have hdropped : s.AllDropped → s'.AllDropped := by
    intro hall j w' hw'
    rw [Bool.eq_false_iff]
    intro ha
    obtain ⟨w, hw, ha⟩ := halive j w' hw' ha
    cases (hall j w hw).symm.trans ha
  constructor
  · intro j w' hw' ha
    obtain ⟨w, hw, ha⟩ := halive j w' hw' ha
    rw [hlength]
    exact hi.newest j w hw ha
  · rw [hpoll]
    exact hi.poll.kept hdropped hlength hdispatcher

/-- An update that does not bring its worker back to life. -/
theorem Inv.update (hi : s.Inv) (i : Nat) {f : Worker M → Worker M}
    (halive : ∀ w, s.workers[i]? = some w → (f w).alive = true → w.alive = true) :
    (s.update i f).Inv := by
  refine hi.kept (length_update i f) (fun j w' hw' ha => ?_) rfl rfl
  obtain ⟨w, hw, rfl⟩ := getElem?_update hw'
  refine ⟨w, hw, ?_⟩
  split at ha
  · rename_i hij
    subst hij
    exact halive w hw ha
  · exact ha

/-- The registry is nobody's business here. -/
theorem Inv.registry (hi : s.Inv) (registry : Option Nat) :
    ({ s with registry := registry } : DispatchState M).Inv :=
  hi.kept rfl (fun _ w hw ha => ⟨w, hw, ha⟩) rfl rfl

/-- A channel that takes a message has its receiver. -/
theorem alive_of_send {w : Worker M} (hw : s.workers[i]? = some w) (hresult : s.sendResult i = .ok) :
    w.alive = true := by
  rw [sendResult, hw, Option.elim_some, Worker.trySend] at hresult
  by_contra ha
  rw [Bool.not_eq_true] at ha
  rw [ha] at hresult
  cases hresult

/-- A channel that is closed has lost it. -/
theorem dropped_of_closed {w : Worker M} (hw : s.workers[i]? = some w)
    (hclosed : s.sendResult i = .closed) : w.alive = false := by
  rw [sendResult, hw, Option.elim_some, Worker.trySend] at hclosed
  rw [Bool.eq_false_iff]
  intro ha
  rw [ha] at hclosed
  -- with its receiver it is full or open
  change (if w.queue.length ≥ chatQueueSize then SendResult.full else SendResult.ok) = .closed at hclosed
  split at hclosed <;> cases hclosed

/-- A channel that is closed was the newest worker's: none has its receiver. -/
theorem Inv.allDropped (hi : s.Inv) (hnewest : i + 1 = s.workers.length)
    (hclosed : s.sendResult i = .closed) : s.AllDropped := by
  intro j w hw
  rw [Bool.eq_false_iff]
  intro ha
  have hij : j = i := by
    have hj := hi.newest j w hw ha
    omega
  subst hij
  cases (dropped_of_closed hw hclosed).symm.trans ha

@[simp] theorem length_spawnChatWorker (s : DispatchState M) (workerId : UInt64) :
    (s.spawnChatWorker workerId).workers.length = s.workers.length + 1 := by
  rw [DispatchState.spawnChatWorker, List.length_append, List.length_singleton]

/-- A fresh worker is the newest, and the only one with its receiver. -/
theorem AllDropped.newest_spawn (hall : s.AllDropped) (workerId : UInt64) {j : Nat} {w : Worker M}
    (hw : (s.spawnChatWorker workerId).workers[j]? = some w) (ha : w.alive = true) :
    j + 1 = (s.spawnChatWorker workerId).workers.length := by
  rw [length_spawnChatWorker]
  rw [DispatchState.spawnChatWorker] at hw
  rcases getElem?_concat_cases hw with ⟨heq, -⟩ | hold
  · rw [heq]
  · -- an old worker
    cases (hall j w hold).symm.trans ha

/-- Everything a step of the dispatch can do. -/
inductive Steps (s : DispatchState M) : DispatchEvent M → DispatchState M → Prop
  | spawning {message} (hpoll : s.poll = .idle) (hdispatcher : s.dispatcher = none) :
      Steps s (.handleUpdate message) { s with poll := .spawning message }
  | sending {message worker} (hpoll : s.poll = .idle) (hdispatcher : s.dispatcher = some worker) :
      Steps s (.handleUpdate message) { s with poll := .sending message }
  | spawn {message workerId} (hpoll : s.poll = .spawning message) :
      Steps s (.spawnChatWorker workerId)
        { s.spawnChatWorker workerId with poll := .registering s.workers.length message }
  | respawn {message workerId} (hpoll : s.poll = .respawning message) :
      Steps s (.spawnChatWorker workerId)
        { s.spawnChatWorker workerId with poll := .reregistering s.workers.length message }
  | register {worker message} (hpoll : s.poll = .registering worker message) :
      Steps s .register
        { s with registry := some worker, dispatcher := some worker, poll := .sending message }
  | reregister {worker message} (hpoll : s.poll = .reregistering worker message) :
      Steps s .register { s with registry := some worker, poll := .resending worker message }
  | sent {worker message} (hpoll : s.poll = .sending message)
      (hdispatcher : s.dispatcher = some worker) (hresult : s.sendResult worker = .ok) :
      Steps s .trySend { s.push worker message with poll := .idle }
  | refused {worker message} (hpoll : s.poll = .sending message)
      (hdispatcher : s.dispatcher = some worker) (hresult : s.sendResult worker = .full) :
      Steps s .trySend { s with poll := .idle }
  | closed {worker message} (hpoll : s.poll = .sending message)
      (hdispatcher : s.dispatcher = some worker) (hresult : s.sendResult worker = .closed) :
      Steps s .trySend { s with poll := .respawning message }
  | resent {worker message} (hpoll : s.poll = .resending worker message)
      (hresult : s.sendResult worker = .ok) :
      Steps s .trySend { s.push worker message with poll := .inserting worker }
  | rejected {worker message} (hpoll : s.poll = .resending worker message)
      (hresult : s.sendResult worker ≠ .ok) :
      Steps s .trySend { s with poll := .inserting worker }
  | insert {worker} (hpoll : s.poll = .inserting worker) :
      Steps s .insertDispatcher { s with dispatcher := some worker, poll := .idle }
  | kept {worker} (hpoll : s.poll = .idle) (hdispatcher : s.dispatcher = some worker) :
      Steps s .retain s
  | remove {worker} (hpoll : s.poll = .idle) (hdispatcher : s.dispatcher = some worker)
      (hclosed : s.sendResult worker = .closed) :
      Steps s .retain { s with poll := .removing worker }
  | removed {worker} (hpoll : s.poll = .removing worker) :
      Steps s .removeRegistration
        { s.removeWorkerRegistration worker with dispatcher := none, poll := .idle }
  | worker {i : Nat} {e w w'} (hw : s.workers[i]? = some w) (hstep : w.Steps (s.connected i) e w')
      (hguard : e ≠ .dropGuard) : Steps s (.worker i e) (s.update i fun _ => w')
  | guard {i : Nat} {w w'} (hw : s.workers[i]? = some w) (hstep : w.Steps (s.connected i) .dropGuard w') :
      Steps s (.worker i .dropGuard) ((s.update i fun _ => w').removeWorkerRegistration i)
  | cancelNone {abort} (hregistry : s.registry = none) : Steps s (.cancelChatWorker abort) s
  | cancel {abort} {i : Nat} (hregistry : s.registry = some i) : Steps s (.cancelChatWorker abort)
      (s.update i fun w => { w with cancelled := true, aborted := w.aborted || abort })
  | reactivateNone (hregistry : s.registry = none) : Steps s .reactivateChatWorker s
  | reactivate {i : Nat} (hregistry : s.registry = some i) : Steps s .reactivateChatWorker
      (s.update i fun w => { w with cancelled := false })

theorem steps_of_step {e : DispatchEvent M} (h : s.step e = some s') : s.Steps e s' := by
  cases e with
  | handleUpdate message =>
    simp only [step] at h
    split at h
    · cases h
      exact .spawning ‹_› ‹_›
    · cases h
      exact .sending ‹_› ‹_›
    · cases h
  | spawnChatWorker workerId =>
    simp only [step] at h
    split at h
    · cases h
      exact .spawn ‹_›
    · cases h
      exact .respawn ‹_›
    · cases h
  | register =>
    simp only [step] at h
    split at h
    · cases h
      exact .register ‹_›
    · cases h
      exact .reregister ‹_›
    · cases h
  | trySend =>
    simp only [step] at h
    split at h
    · rename_i hpoll hdispatcher
      split at h <;> cases h
      · exact .sent hpoll hdispatcher ‹_›
      · exact .refused hpoll hdispatcher ‹_›
      · exact .closed hpoll hdispatcher ‹_›
    · rename_i hpoll
      split at h <;> cases h
      · exact .resent hpoll ‹_›
      · exact .rejected hpoll ‹_›
    · cases h
  | insertDispatcher =>
    simp only [step] at h
    split at h
    · cases h
      exact .insert ‹_›
    · cases h
  | retain =>
    simp only [step] at h
    split at h
    · rename_i hpoll hdispatcher
      split at h <;> cases h
      · exact .remove hpoll hdispatcher ‹_›
      · exact .kept hpoll hdispatcher
    · cases h
  | removeRegistration =>
    simp only [step] at h
    split at h
    · cases h
      exact .removed ‹_›
    · cases h
  | worker i e =>
    simp only [step] at h
    split at h
    · cases h
    · rename_i w hw
      split at h
      · cases h
      · rename_i w' hw'
        have hstep := Worker.steps_of_step hw'
        split at h <;> cases h
        · exact .guard hw hstep
        · rename_i hguard
          exact .worker hw hstep hguard
  | cancelChatWorker abort =>
    simp only [step] at h
    split at h <;> cases h
    · exact .cancelNone ‹_›
    · exact .cancel ‹_›
  | reactivateChatWorker =>
    simp only [step] at h
    split at h <;> cases h
    · exact .reactivateNone ‹_›
    · exact .reactivate ‹_›

/-- A send that is over leaves the dispatcher with the newest worker. -/
theorem idle_of_sending {workers : List (Worker M)} (hlength : workers.length = s.workers.length)
    (hsending : ∃ d, s.dispatcher = some d ∧ d + 1 = s.workers.length) :
    PollInv { s with workers := workers, poll := .idle } .idle := by
  obtain ⟨d, hd, hnewest⟩ := hsending
  refine ⟨fun hnone => (by cases hd.symm.trans hnone), ?_⟩
  intro d' hd'
  cases hd.symm.trans hd'
  rw [hnewest, hlength]

/-- The invariant is kept by every step. -/
theorem Inv.step {e : DispatchEvent M} (hi : s.Inv) (hs : s.Steps e s') : s'.Inv := by
  have hpoll' := hi.poll
  -- where the poll loop stands says which worker is the newest
  cases hs with
  | spawning hpoll hdispatcher =>
    rw [hpoll] at hpoll'
    exact ⟨hi.newest, hpoll'.1 hdispatcher⟩
  | @sending message worker hpoll hdispatcher =>
    rw [hpoll] at hpoll'
    exact ⟨hi.newest, worker, hdispatcher, hpoll'.2 worker hdispatcher⟩
  | @spawn message workerId hpoll =>
    rw [hpoll] at hpoll'
    refine ⟨fun j w hw ha => AllDropped.newest_spawn hpoll' workerId hw ha, ?_⟩
    show s.workers.length + 1 = (s.spawnChatWorker workerId).workers.length
    rw [length_spawnChatWorker]
  | @respawn message workerId hpoll =>
    rw [hpoll] at hpoll'
    refine ⟨fun j w hw ha => AllDropped.newest_spawn hpoll' workerId hw ha, ?_⟩
    show s.workers.length + 1 = (s.spawnChatWorker workerId).workers.length
    rw [length_spawnChatWorker]
  | @register worker message hpoll =>
    rw [hpoll] at hpoll'
    exact ⟨hi.newest, worker, rfl, hpoll'⟩
  | reregister hpoll =>
    rw [hpoll] at hpoll'
    exact ⟨hi.newest, hpoll'⟩
  | @sent worker message hpoll hdispatcher hresult =>
    rw [hpoll] at hpoll'
    have hpush : (s.push worker message).Inv := hi.update worker fun _ _ ha => ha
    have hlength : (s.push worker message).workers.length = s.workers.length := length_update _ _
    exact ⟨hpush.newest, idle_of_sending (s := s) hlength hpoll'⟩
  | refused hpoll hdispatcher hresult =>
    rw [hpoll] at hpoll'
    exact ⟨hi.newest, idle_of_sending rfl hpoll'⟩
  | closed hpoll hdispatcher hresult =>
    rw [hpoll] at hpoll'
    obtain ⟨d, hd, hnewest⟩ := hpoll'
    cases hdispatcher.symm.trans hd
    exact ⟨hi.newest, hi.allDropped hnewest hresult⟩
  | @resent worker message hpoll hresult =>
    rw [hpoll] at hpoll'
    have hpush : (s.push worker message).Inv := hi.update worker fun _ _ ha => ha
    refine ⟨hpush.newest, ?_⟩
    show worker + 1 = (s.push worker message).workers.length
    rw [push, length_update]
    exact hpoll'
  | rejected hpoll hresult =>
    rw [hpoll] at hpoll'
    exact ⟨hi.newest, hpoll'⟩
  | insert hpoll =>
    rw [hpoll] at hpoll'
    refine ⟨hi.newest, fun h => (by cases h), ?_⟩
    rintro d ⟨⟩
    exact hpoll'
  | kept => exact hi
  | remove hpoll hdispatcher hclosed =>
    rw [hpoll] at hpoll'
    exact ⟨hi.newest, hi.allDropped (hpoll'.2 _ hdispatcher) hclosed⟩
  | removed hpoll =>
    rw [hpoll] at hpoll'
    exact ⟨hi.newest, fun _ => hpoll', fun _ h => (by cases h)⟩
  | @worker i e w w' hw hstep hguard =>
    refine hi.update i fun v hv ha => ?_
    cases hw.symm.trans hv
    exact hstep.alive ha
  | @guard i w w' hw hstep =>
    have hupdate : (s.update i fun _ => w').Inv := by
      refine hi.update i fun v hv ha => ?_
      cases hw.symm.trans hv
      exact hstep.alive ha
    exact hupdate.registry _
  | cancelNone => exact hi
  | cancel => exact hi.update _ fun _ _ ha => ha
  | reactivateNone => exact hi
  | reactivate => exact hi.update _ fun _ _ ha => ha

/-! ### Messages -/

theorem pending_newest {w : Worker M} (hnewest : i + 1 = s.workers.length)
    (hw : s.workers[i]? = some w) : s.pending = w.pending := by
  have hlast : s.workers.getLast? = some w := by
    rw [List.getLast?_eq_getElem?, ← hnewest, Nat.add_sub_cancel]
    exact hw
  rw [pending, hlast, Option.elim_some]

theorem pending_dropped {w : Worker M} (ha : w.alive = false) : w.pending = [] := by
  cases hphase : w.phase <;> simp_all only [Worker.alive, Worker.pending, Bool.true_eq_false]

theorem AllDropped.pending (hall : s.AllDropped) : s.pending = [] := by
  rw [DispatchState.pending]
  cases hlast : s.workers.getLast? with
  | none => rfl
  | some w =>
    rw [List.getLast?_eq_getElem?] at hlast
    exact pending_dropped (hall _ w hlast)

theorem pending_congr (hworkers : s'.workers = s.workers) : s'.pending = s.pending := by
  rw [pending, pending, hworkers]

theorem pending_update_newest {w : Worker M} {f : Worker M → Worker M}
    (hnewest : i + 1 = s.workers.length) (hw : s.workers[i]? = some w) :
    (s.update i f).pending = (f w).pending := by
  refine pending_newest (i := i) ?_ ?_
  · rw [length_update]
    exact hnewest
  · rw [update, List.getElem?_modify, hw]
    exact congrArg some (if_pos rfl)

/-- An update that leaves alone what the worker will get to, or is not about the newest one. -/
theorem pending_update {f : Worker M → Worker M}
    (h : ∀ w, s.workers[i]? = some w → i + 1 = s.workers.length → (f w).pending = w.pending) :
    (s.update i f).pending = s.pending := by
  by_cases hnewest : i + 1 = s.workers.length
  · have hlt : i < s.workers.length := by omega
    have hw : s.workers[i]? = some s.workers[i] := List.getElem?_eq_getElem hlt
    rw [pending_update_newest hnewest hw, pending_newest hnewest hw]
    exact h _ hw hnewest
  · rw [pending, pending, List.getLast?_eq_getElem?, List.getLast?_eq_getElem?, length_update, update,
      List.getElem?_modify]
    cases hlast : s.workers[s.workers.length - 1]? with
    | none => rfl
    | some w =>
      have hother : i ≠ s.workers.length - 1 := by
        obtain ⟨hlt, -⟩ := List.getElem?_eq_some_iff.mp hlast
        omega
      show Worker.pending (if _ then _ else _) = _
      rw [if_neg hother]
      rfl

/-- A channel that takes a message is the newest worker's. -/
theorem Inv.pending_push (hi : s.Inv) {message : M} (hresult : s.sendResult i = .ok) :
    (s.push i message).pending = s.pending ++ [message] := by
  cases hw : s.workers[i]? with
  | none =>
    rw [sendResult, hw] at hresult
    cases hresult
  | some w =>
    have ha : w.alive = true := alive_of_send hw hresult
    have hnewest := hi.newest i w hw ha
    rw [push, pending_update_newest hnewest hw, pending_newest hnewest hw]
    cases hphase : w.phase <;>
      simp_all only [Worker.alive, Worker.pending, Bool.false_eq_true, List.cons_append]

theorem pending_spawnChatWorker (s : DispatchState M) (workerId : UInt64) :
    (s.spawnChatWorker workerId).pending = [] := by
  rw [pending, spawnChatWorker, List.getLast?_concat]
  rfl

/-- A worker's step: the newest worker's own law; the others have nothing left. -/
theorem Inv.flow_worker (hi : s.Inv) {w w' : Worker M} {connected : Bool} {e : WorkerEvent}
    (hw : s.workers[i]? = some w) (hstep : w.Steps connected e w') :
    s.pending = w.handles e ++ w.discards e ++ (s.update i fun _ => w').pending := by
  by_cases hnewest : i + 1 = s.workers.length
  · rw [pending_newest hnewest hw, pending_update_newest hnewest hw]
    exact hstep.flow
  · have ha : w.alive = false := by
      rw [Bool.eq_false_iff]
      exact fun ha => hnewest (hi.newest i w hw ha)
    have hnothing := hstep.flow
    rw [pending_dropped ha, eq_comm, List.append_eq_nil_iff, List.append_eq_nil_iff] at hnothing
    obtain ⟨⟨hhandles, hdiscards⟩, -⟩ := hnothing
    rw [hhandles, hdiscards, pending_update fun _ _ h => absurd h hnewest]
    rfl

/-- **What is accepted is handled, discarded, or held by the newest worker**, one step. -/
theorem Inv.flow {e : DispatchEvent M} (hi : s.Inv) (hs : s.Steps e s') :
    s.pending ++ accepts (s, e) = handles (s, e) ++ discards (s, e) ++ s'.pending := by
  -- most steps of the poll loop have nothing to do with messages
  have hquiet : s'.pending = s.pending → accepts (s, e) = [] → handles (s, e) = [] →
      discards (s, e) = [] →
      s.pending ++ accepts (s, e) = handles (s, e) ++ discards (s, e) ++ s'.pending := by
    intro hpending ha hh hd
    rw [ha, hh, hd, hpending, List.append_nil]
    rfl
  have hpoll' := hi.poll
  cases hs with
  | spawning => exact hquiet (pending_congr rfl) rfl rfl rfl
  | sending => exact hquiet (pending_congr rfl) rfl rfl rfl
  | @spawn message workerId hpoll =>
    rw [hpoll] at hpoll'
    rw [AllDropped.pending hpoll']
    exact (pending_spawnChatWorker s workerId).symm
  | @respawn message workerId hpoll =>
    rw [hpoll] at hpoll'
    rw [AllDropped.pending hpoll']
    exact (pending_spawnChatWorker s workerId).symm
  | register => exact hquiet (pending_congr rfl) rfl rfl rfl
  | reregister => exact hquiet (pending_congr rfl) rfl rfl rfl
  | @sent worker message hpoll hdispatcher hresult =>
    have haccepts : accepts (s, .trySend) = [message] := by
      simp only [accepts, target, hpoll, hdispatcher, hresult, if_true]
    rw [haccepts, ← hi.pending_push hresult]
    rfl
  | refused hpoll hdispatcher hresult =>
    refine hquiet (pending_congr rfl) ?_ rfl rfl
    simp [accepts, target, hpoll, hdispatcher, hresult]
  | closed hpoll hdispatcher hresult =>
    refine hquiet (pending_congr rfl) ?_ rfl rfl
    simp [accepts, target, hpoll, hdispatcher, hresult]
  | @resent worker message hpoll hresult =>
    have haccepts : accepts (s, .trySend) = [message] := by
      simp only [accepts, target, hpoll, hresult, if_true]
    rw [haccepts, ← hi.pending_push hresult]
    rfl
  | rejected hpoll hresult =>
    refine hquiet (pending_congr rfl) ?_ rfl rfl
    simp only [accepts, target, hpoll, if_neg hresult]
  | insert => exact hquiet (pending_congr rfl) rfl rfl rfl
  | kept => exact hquiet (pending_congr rfl) rfl rfl rfl
  | remove => exact hquiet (pending_congr rfl) rfl rfl rfl
  | removed => exact hquiet (pending_congr rfl) rfl rfl rfl
  | @worker i e w w' hw hstep hguard =>
    have hhandles : handles (s, .worker i e) = w.handles e := by simp only [handles, hw, Option.elim_some]
    have hdiscards : discards (s, .worker i e) = w.discards e := by
      simp only [discards, hw, Option.elim_some]
    rw [hhandles, hdiscards, ← hi.flow_worker hw hstep]
    exact List.append_nil _
  | @guard i w w' hw hstep =>
    have hhandles : handles (s, .worker i .dropGuard) = w.handles .dropGuard := by
      simp only [handles, hw, Option.elim_some]
    have hdiscards : discards (s, .worker i .dropGuard) = w.discards .dropGuard := by
      simp only [discards, hw, Option.elim_some]
    have hpending : ((s.update i fun _ => w').removeWorkerRegistration i).pending =
        (s.update i fun _ => w').pending := pending_congr rfl
    rw [hhandles, hdiscards, hpending, ← hi.flow_worker hw hstep]
    exact List.append_nil _
  | cancelNone => exact hquiet (pending_congr rfl) rfl rfl rfl
  | cancel => exact hquiet (pending_update fun _ _ _ => rfl) rfl rfl rfl
  | reactivateNone => exact hquiet (pending_congr rfl) rfl rfl rfl
  | reactivate => exact hquiet (pending_update fun _ _ _ => rfl) rfl rfl rfl

/-! ### The registry -/

/-- An update that leaves the guard of its worker alone, from any worker's point of view. -/
theorem guardPending_update {j : Nat} {f : Worker M → Worker M} {w' : Worker M}
    (hw' : (s.update j f).workers[i]? = some w') (hpending : w'.guardPending = true)
    (hf : ∀ w, s.workers[j]? = some w → (f w).guardPending = true → w.guardPending = true) :
    ∃ w : Worker M, s.workers[i]? = some w ∧ w.guardPending = true := by
  obtain ⟨w, hw, rfl⟩ := getElem?_update hw'
  refine ⟨w, hw, ?_⟩
  split at hpending
  · rename_i hji
    subst hji
    exact hf w hw hpending
  · exact hpending

/-- **A step leaves the registration of a worker whose guard is still to run alone**, unless it is the
    one that makes it. -/
theorem Inv.registry_step {e : DispatchEvent M} (hi : s.Inv) (hs : s.Steps e s') {w' : Worker M}
    (hw' : s'.workers[i]? = some w') (hpending : w'.guardPending = true)
    (hlt : i < s.workers.length) :
    (∃ w : Worker M, s.workers[i]? = some w ∧ w.guardPending = true) ∧
      (s'.registry = s.registry ∨ s'.registry = some i) := by
  have hpoll' := hi.poll
  -- whoever has its guard is the newest
  have hnewest : ∀ {j : Nat} {w : Worker M}, s.workers[j]? = some w → w.guardPending = true →
      j + 1 = s.workers.length := by
    intro j w hw hg
    exact hi.newest j w hw (Worker.alive_of_guardPending hg)
  have hself : ∀ {worker : Nat}, s.workers[i]? = some w' → worker + 1 = s.workers.length →
      worker = i := by
    intro worker hw hworker
    have h := hnewest hw hpending
    omega
  have hold : ∀ workerId, (s.spawnChatWorker workerId).workers[i]? = some w' →
      s.workers[i]? = some w' := by
    intro workerId hw
    rwa [spawnChatWorker, List.getElem?_append_left hlt] at hw
  cases hs with
  | spawn => exact ⟨⟨w', hold _ hw', hpending⟩, Or.inl rfl⟩
  | respawn => exact ⟨⟨w', hold _ hw', hpending⟩, Or.inl rfl⟩
  | @register worker message hpoll =>
    rw [hpoll] at hpoll'
    exact ⟨⟨w', hw', hpending⟩, Or.inr (congrArg some (hself hw' hpoll'))⟩
  | @reregister worker message hpoll =>
    rw [hpoll] at hpoll'
    exact ⟨⟨w', hw', hpending⟩, Or.inr (congrArg some (hself hw' hpoll'))⟩
  | sent => exact ⟨guardPending_update hw' hpending fun _ _ hg => hg, Or.inl rfl⟩
  | resent => exact ⟨guardPending_update hw' hpending fun _ _ hg => hg, Or.inl rfl⟩
  | removed hpoll =>
    -- the dispatcher's worker is gone, and so are all others
    rw [hpoll] at hpoll'
    have ha := Worker.alive_of_guardPending hpending
    cases (hpoll' i w' hw').symm.trans ha
  | @worker j e w v hw hstep hguard =>
    refine ⟨guardPending_update hw' hpending fun u hu hg => ?_, Or.inl rfl⟩
    cases hw.symm.trans hu
    exact hstep.guardPending hg
  | @guard j w v hw hstep =>
    -- the guard that runs is the newest worker's own
    have hfound := guardPending_update hw' hpending fun u hu hg => by
      cases hw.symm.trans hu
      exact hstep.guardPending hg
    have hown : i = j := by
      obtain ⟨u, hu, hg⟩ := hfound
      have h := hnewest hu hg
      have h' := hnewest hw (by
        cases hstep with
        | dropGuard hphase => simp only [Worker.guardPending, hphase])
      omega
    subst hown
    obtain ⟨u, hu, rfl⟩ := getElem?_update hw'
    rw [if_pos rfl] at hpending
    cases hstep
    cases hpending
  | cancel => exact ⟨guardPending_update hw' hpending fun _ _ hg => hg, Or.inl rfl⟩
  | reactivate => exact ⟨guardPending_update hw' hpending fun _ _ hg => hg, Or.inl rfl⟩
  | _ => exact ⟨⟨w', hw', hpending⟩, Or.inl rfl⟩

/-- No worker is ever forgotten. -/
theorem Steps.length_le {e : DispatchEvent M} (hs : s.Steps e s') :
    s.workers.length ≤ s'.workers.length := by
  cases hs <;> simp [spawnChatWorker, push, removeWorkerRegistration]

end DispatchState

/-! ## Every run -/

/-- No worker yet. -/
abbrev dispatchStart : DispatchState M := {}

section Run

variable {h : DispatchHistory M} {s : DispatchState M}

theorem DispatchState.Inv.run (p : Path dispatchSys dispatchStart h s) : s.Inv :=
  p.invariant Inv.start fun _ _ _ hi hs => hi.step (steps_of_step hs)

/-- **Conservation**, in every run. -/
theorem conserves : Conserves dispatchSys (dispatchStart : DispatchState M) DispatchState.pending
    accepts handles discards where
  start := rfl
  step _ _ _ _ p hs := (DispatchState.Inv.run p).flow (DispatchState.steps_of_step hs)

/-- A registration is the newest worker's. -/
theorem DispatchState.Inv.registers {s' : DispatchState M} {e : DispatchEvent M} {i : Nat}
    (hi : s.Inv) (hs : s.Steps e s') (hregisters : Registers i (s, e)) :
    i + 1 = s'.workers.length ∧ s'.registry = some i := by
  have hpoll' := hi.poll
  cases hs with
  | register hpoll =>
    simp only [Registers, hpoll] at hregisters
    subst hregisters
    rw [hpoll] at hpoll'
    exact ⟨hpoll', rfl⟩
  | reregister hpoll =>
    simp only [Registers, hpoll] at hregisters
    subst hregisters
    rw [hpoll] at hpoll'
    exact ⟨hpoll', rfl⟩
  | _ => exact False.elim hregisters

/-- A worker that has been registered, and whose guard is still to run, is the one in the registry. -/
theorem registered (p : Path dispatchSys dispatchStart h s) {i : Nat}
    (hregistered : ∃ x ∈ h, Registers i x) :
    i < s.workers.length ∧ ∀ w : Worker M, s.workers[i]? = some w → w.guardPending = true →
      s.registry = some i := by
  induction p with
  | start =>
    obtain ⟨x, hx, -⟩ := hregistered
    exact absurd hx List.not_mem_nil
  | @step h s s' e p hs ih =>
    have hi := DispatchState.Inv.run p
    have hsteps := DispatchState.steps_of_step hs
    obtain ⟨x, hx, hregisters⟩ := hregistered
    rcases List.mem_cons.mp hx with rfl | hx
    · obtain ⟨hnewest, hregistry⟩ := hi.registers hsteps hregisters
      exact ⟨by omega, fun _ _ _ => hregistry⟩
    · -- registered before: nothing else touches its registration
      obtain ⟨hlt, hfound⟩ := ih ⟨x, hx, hregisters⟩
      refine ⟨by have := hsteps.length_le; omega, ?_⟩
      intro w' hw' hpending
      obtain ⟨⟨w, hw, hg⟩, hsame | hself⟩ := hi.registry_step hsteps hw' hpending hlt
      · rw [hsame]
        exact hfound w hw hg
      · exact hself

/-- What a run of the dispatch guarantees. -/
structure OneHandler (h : DispatchHistory M) (s : DispatchState M) : Prop where
  /-- At most one worker is handling a message. -/
  atMostOne : ∀ (i j : Nat) (v w : Worker M) (m n : M), s.workers[i]? = some v →
    s.workers[j]? = some w → v.phase = .handling m → w.phase = .handling n → i = j
  /-- Messages are handled in the order in which they were accepted. -/
  inOrder : (handledMessages h).Sublist (acceptedMessages h)
  /-- A worker that has been registered, and whose guard is still to run, is the one in the registry,
      and a cancellation flags it. -/
  found : ∀ (i : Nat) (w : Worker M), (∃ x ∈ h, Registers i x) → s.workers[i]? = some w →
    w.guardPending = true → s.registry = some i ∧
      ∀ abort s', dispatchSys.step s (.cancelChatWorker abort) = some s' →
        ∃ w' : Worker M, s'.workers[i]? = some w' ∧ w'.cancelled = true
  /-- No step takes the registration away before that guard has run: no older worker's guard, and no
      cleanup. -/
  kept : ∀ (i : Nat) (w' : Worker M) e s', (∃ x ∈ h, Registers i x) →
    dispatchSys.step s e = some s' → s'.workers[i]? = some w' → w'.guardPending = true →
    s'.registry = some i

/-- **One ordered handler per chat, and a deny finds it**, in every interleaving of sends, worker steps,
    idle exits, aborts, `retain` passes and respawns. -/
theorem one_handler (p : Path dispatchSys dispatchStart h s) : OneHandler h s := by
  have hi := DispatchState.Inv.run p
  refine ⟨fun i j v w m n hv hw hm hn => ?_, ?_, fun i w hregistered hw hpending => ?_,
    fun i w' e s' hregistered hs hw' hpending => ?_⟩
  · have hv' := hi.newest i v hv (by simp only [Worker.alive, hm])
    have hw' := hi.newest j w hw (by simp only [Worker.alive, hn])
    omega
  · exact (List.sublist_append_left _ _).trans (conserves.inOrder p)
  · have hregistry := (registered p hregistered).2 w hw hpending
    refine ⟨hregistry, ?_⟩
    intro abort s' hs
    have hsteps : s.Steps (.cancelChatWorker abort) s' := DispatchState.steps_of_step hs
    cases hsteps with
    | cancelNone hnone => cases hregistry.symm.trans hnone
    | cancel hsome =>
      cases hregistry.symm.trans hsome
      refine ⟨{ w with cancelled := true, aborted := w.aborted || abort }, ?_, rfl⟩
      rw [DispatchState.update, List.getElem?_modify, hw]
      exact congrArg some (if_pos rfl)
  · obtain ⟨x, hx, hregisters⟩ := hregistered
    exact (registered (p.step hs) ⟨x, List.mem_cons_of_mem _ hx, hregisters⟩).2 w' hw' hpending

end Run

/-- A worker that idles out, and one that is spawned for the next message and is handling it. -/
theorem one_handler_respawned :
    ∃ (h : DispatchHistory String) (s : DispatchState String), Path dispatchSys dispatchStart h s ∧
      (s.workers[1]?).any (fun w => w.phase matches .handling "b") = true ∧ OneHandler h s := by
  have hrun : (dispatchSys.run (dispatchStart : DispatchState String)
      [.handleUpdate "a", .spawnChatWorker 4, .register, .trySend, .worker 0 .start,
        .worker 0 (.check true), .worker 0 .recv, .worker 0 (.check true), .worker 0 .handled,
        .worker 0 (.check true), .worker 0 .idleTimeout, .worker 0 .dropGuard,
        .worker 0 .dropReceiver, .handleUpdate "b", .trySend, .spawnChatWorker 9, .register, .trySend,
        .insertDispatcher, .worker 1 .start, .worker 1 (.check true), .worker 1 .recv,
        .worker 1 (.check true)]).any
      (fun s => (s.workers[1]?).any fun w => w.phase matches .handling "b") = true := by decide
  obtain ⟨h, s, p, hhandling⟩ := Sys.path_of_run_any _ hrun
  exact ⟨h, s, p, hhandling, one_handler p⟩

end Tellm
