/-
  CHATS: the dispatcher of all chats (`runtime.rs`), from the first update to the end of the shutdown.

  The poll loop of `Runtime::run` serves every chat: it finds or spawns the chat's worker, hands it the
  message, looks through its dispatchers after each round, and stops all workers at the end.  The registry,
  the dispatchers, the ids of the workers and the chats with a notice under way are shared by all chats.

  1. **The model**: `ChatsState`, with the maps as the source has them, and `ChatsState.step`.
  2. **`view`**: seen from one chat, a run is one of the chat's own dispatch (`dispatchSys`), followed by the
     three things that `stop_chat_workers` does to a worker.
  3. **What one chat keeps**, also through the stop: `DispatchState.Inv`, the conservation of its messages,
     and a registry that knows of no worker but the dispatcher's.
  4. **`chats_in_order`**: one message at a time and in order, in every chat at once.

  A worker is known by its chat and its place among the chat's workers.

  Everything that `Tellm.Dispatch` says of one chat holds in every chat at once, because the projection is
  a functional one: `ChatsState.chat` reads one chat's dispatch state off the maps, and a step of the
  whole is, for every chat, one step of that state or none (`follows`, from one lemma for each position of
  the loop).  `View.path` of `Tellm.Lib.Views` turns that into a statement about runs.

  Two things are shared and must not matter.  The ids come from one wrapping counter, so two workers may
  have one id; nothing looks a worker up by its id without the chat.  And the loop works on one chat at a
  time, so the other chats see it idle.

  When the updates end, or the runtime is told to shut down, the loop goes over all dispatchers and
  cancels, aborts and unregisters each worker, and then awaits their handles; these are the three further
  steps of a chat.
-/
import Tellm.Dispatch
import Tellm.Config
import Tellm.Lib.Views

namespace Tellm.Chats

open Runs

variable {M : Type}

/-! ## The dispatcher of all chats -/

/-- What `stop_chat_workers` does next to the worker it has come to. -/
inductive Stop
  | cancel
  | abort
  | remove

/-- Where the poll loop is. -/
inductive PollLoop (M : Type)
  /-- In `select!`, or between two updates. -/
  | idle
  /-- In `send_to_chat_worker`. -/
  | sending (chatId : Int) (poll : Poll M)
  /-- In `dispatchers.retain`, with the dispatchers that are still to be looked at. -/
  | retaining (rest : List (Int × Nat))
  /-- The dispatcher is not kept. -/
  | removing (chatId : Int) (worker : Nat) (rest : List (Int × Nat))
  /-- In the first loop of `stop_chat_workers`, with what is left of the dispatchers. -/
  | stopping (stop : Stop) (rest handles : List (Int × Nat))
  /-- In the second loop, with the handles that are still to be awaited. -/
  | joining (handles : List (Int × Nat))
  /-- `stop_chat_workers` has returned. -/
  | stopped

/-- The task that sends a queue-full notice. -/
inductive NoticePhase
  /-- Spawned, and not polled yet. -/
  | spawned
  /-- In `send_message`, with the guard. -/
  | sending
  /-- The guard has run. -/
  | ended
  deriving DecidableEq

/-- The task that tells a chat of its full queue. -/
structure Notice where
  chatId : Int
  phase : NoticePhase := .spawned

/-- What the poll loop and the tasks share, for all chats. -/
structure ChatsState (M : Type) where
  /-- The workers of each chat, oldest first. -/
  workers : Int → List (Worker M) := fun _ => []
  registry : BTreeMap Int Nat := ∅
  /-- As `stop_chat_workers` takes them, from when it has. -/
  dispatchers : BTreeMap Int Nat := ∅
  /-- `NEXT_CHAT_WORKER_ID`. -/
  nextWorkerId : UInt64 := 1
  poll : PollLoop M := .idle
  queueFullNotices : BTreeSet Int := ∅
  notices : List Notice := []

/-- An update, a round of `retain`, the shutdown, a step of what the loop is in, and what the other tasks
    do. -/
inductive ChatsEvent (M : Type)
  | handleUpdate (chatId : Int) (message : M)
  | retain
  | shutdown
  /-- The next step of what the poll loop is in. -/
  | poll
  | worker (chatId : Int) (i : Nat) (e : WorkerEvent)
  | cancelChatWorker (chatId : Int) (abort : Bool)
  | reactivateChatWorker (chatId : Int)
  | startNotice (n : Nat)
  | endNotice (n : Nat)

/-- What the loop is doing for one chat. -/
def PollLoop.of (poll : PollLoop M) (chatId : Int) : Poll M :=
  match poll with
  | .sending c p => if c = chatId then p else .idle
  | .removing c worker _ => if c = chatId then .removing worker else .idle
  | _ => .idle

/-- In `stop_chat_workers`, or after it. -/
def PollLoop.stops : PollLoop M → Bool
  | .stopping _ _ _ => true
  | .joining _ => true
  | .stopped => true
  | _ => false

namespace ChatsState

/-- One chat's share. -/
def chat (s : ChatsState M) (chatId : Int) : DispatchState M :=
  { workers := s.workers chatId
    registry := s.registry[chatId]?
    dispatcher := s.dispatchers[chatId]?
    poll := s.poll.of chatId }

/-- One worker of one chat is changed. -/
def update (s : ChatsState M) (chatId : Int) (i : Nat) (f : Worker M → Worker M) : ChatsState M :=
  { s with workers := Function.update s.workers chatId ((s.workers chatId).modify i f) }

/-- What `try_send` to a worker comes to; one that is not there has closed its channel. -/
def sendResult (s : ChatsState M) (chatId : Int) (i : Nat) : SendResult :=
  ((s.workers chatId)[i]?).elim .closed Worker.trySend

/-- A sender of the worker's channel exists.  `stop_chat_workers` drops one at the end of each round. -/
def connected (s : ChatsState M) (chatId : Int) (i : Nat) : Bool :=
  match s.poll with
  | .stopping _ rest _ => rest.contains (chatId, i)
  | .joining _ => false
  | .stopped => false
  | _ => (s.chat chatId).connected i

/-- `remove_worker_registration`, which is also what the registry guard does. -/
def removeWorkerRegistration (s : ChatsState M) (chatId : Int) (i : Nat) : ChatsState M :=
  let workerId (i : Nat) := ((s.workers chatId)[i]?).map (·.workerId)
  if (s.registry[chatId]?).any fun registered => workerId registered == workerId i then
    { s with registry := s.registry.erase chatId }
  else s

/-- `spawn_chat_worker`: the next id is taken, and a task with a channel of its own begins. -/
def spawnChatWorker (s : ChatsState M) (chatId : Int) : ChatsState M :=
  { s with
    workers := Function.update s.workers chatId (s.workers chatId ++ [{ workerId := s.nextWorkerId }])
    nextWorkerId := s.nextWorkerId + 1 }

/-- The worker's registration, by which a deny finds it. -/
def register (s : ChatsState M) (chatId : Int) (i : Nat) : ChatsState M :=
  { s with registry := s.registry.insert chatId i }

/-- `dispatchers.insert`. -/
def insertDispatcher (s : ChatsState M) (chatId : Int) (i : Nat) : ChatsState M :=
  { s with dispatchers := s.dispatchers.insert chatId i }

/-- The message goes into the worker's queue. -/
def push (s : ChatsState M) (chatId : Int) (i : Nat) (message : M) : ChatsState M :=
  s.update chatId i fun w => { w with queue := w.queue ++ [message] }

/-- `reserve_queue_full_notice`, and the task that is spawned when it says so. -/
def reserveQueueFullNotice (s : ChatsState M) (chatId : Int) : ChatsState M :=
  if chatId ∈ s.queueFullNotices then s
  else
    { s with
      queueFullNotices := s.queueFullNotices.insert chatId
      notices := s.notices ++ [{ chatId := chatId }] }

/-- The next step of `send_to_chat_worker`. -/
def sendStep (s : ChatsState M) (chatId : Int) : Poll M → Option (ChatsState M)
  | .spawning message =>
    some { s.spawnChatWorker chatId with
      poll := .sending chatId (.registering (s.workers chatId).length message) }
  | .registering worker message =>
    some { (s.register chatId worker).insertDispatcher chatId worker with
      poll := .sending chatId (.sending message) }
  | .sending message =>
    match s.dispatchers[chatId]? with
    | none => none
    | some worker =>
      match s.sendResult chatId worker with
      | .ok => some { s.push chatId worker message with poll := .idle }
      | .full => some { s.reserveQueueFullNotice chatId with poll := .idle }
      | .closed => some { s with poll := .sending chatId (.respawning message) }
  | .respawning message =>
    some { s.spawnChatWorker chatId with
      poll := .sending chatId (.reregistering (s.workers chatId).length message) }
  | .reregistering worker message =>
    some { s.register chatId worker with poll := .sending chatId (.resending worker message) }
  | .resending worker message =>
    match s.sendResult chatId worker with
    | .ok => some { s.push chatId worker message with poll := .sending chatId (.inserting worker) }
    | _ => some { s with poll := .sending chatId (.inserting worker) }
  | .inserting worker => some { s.insertDispatcher chatId worker with poll := .idle }
  | _ => none

/-- One of the three things that `stop_chat_workers` does to a worker. -/
def stopWorker (s : ChatsState M) (chatId : Int) (i : Nat) : Stop → ChatsState M
  | .cancel => s.update chatId i fun w => { w with cancelled := true }
  | .abort => s.update chatId i fun w => { w with aborted := true }
  | .remove => s.removeWorkerRegistration chatId i

/-- The worker's task has ended, so its handle can be awaited. -/
def hasFinished (s : ChatsState M) (chatId : Int) (i : Nat) : Bool :=
  ((s.workers chatId)[i]?).any fun w => w.phase matches .finished

/-- The next step of what the poll loop is in. -/
def pollStep (s : ChatsState M) : Option (ChatsState M) :=
  match s.poll with
  | .idle => none
  | .sending chatId poll => s.sendStep chatId poll
  | .retaining [] => some { s with poll := .idle }
  | .retaining ((chatId, worker) :: rest) =>
    match s.sendResult chatId worker with
    | .closed => some { s with poll := .removing chatId worker rest }
    | _ => some { s with poll := .retaining rest }
  | .removing chatId worker rest =>
    some { s.removeWorkerRegistration chatId worker with
      dispatchers := s.dispatchers.erase chatId, poll := .retaining rest }
  | .stopping .cancel ((chatId, worker) :: rest) handles =>
    some { s.stopWorker chatId worker .cancel with
      poll := .stopping .abort ((chatId, worker) :: rest) handles }
  | .stopping .abort ((chatId, worker) :: rest) handles =>
    some { s.stopWorker chatId worker .abort with
      poll := .stopping .remove ((chatId, worker) :: rest) handles }
  | .stopping .remove ((chatId, worker) :: rest) handles =>
    some { s.stopWorker chatId worker .remove with
      poll := .stopping .cancel rest (handles ++ [(chatId, worker)]) }
  | .stopping _ [] handles => some { s with poll := .joining handles }
  | .joining [] => some { s with poll := .stopped }
  | .joining ((chatId, worker) :: handles) =>
    if s.hasFinished chatId worker then some { s with poll := .joining handles } else none
  | .stopped => none

/-- One step of the whole dispatcher, whoever makes it. -/
def step (s : ChatsState M) : ChatsEvent M → Option (ChatsState M)
  | .handleUpdate chatId message =>
    match s.poll, s.dispatchers[chatId]? with
    | .idle, none => some { s with poll := .sending chatId (.spawning message) }
    | .idle, some _ => some { s with poll := .sending chatId (.sending message) }
    | _, _ => none
  | .retain =>
    match s.poll with
    | .idle => some { s with poll := .retaining s.dispatchers.toList }
    | _ => none
  | .shutdown =>
    match s.poll with
    | .idle => some { s with poll := .stopping .cancel s.dispatchers.toList [] }
    | _ => none
  | .poll => s.pollStep
  | .worker chatId i e =>
    match (s.workers chatId)[i]? with
    | none => none
    | some w =>
      match w.step (s.connected chatId i) e with
      | none => none
      | some w' =>
        match e with
        | .dropGuard => some ((s.update chatId i fun _ => w').removeWorkerRegistration chatId i)
        | _ => some (s.update chatId i fun _ => w')
  | .cancelChatWorker chatId abort =>
    match s.registry[chatId]? with
    | none => some s
    | some i =>
      some (s.update chatId i fun w => { w with cancelled := true, aborted := w.aborted || abort })
  | .reactivateChatWorker chatId =>
    match s.registry[chatId]? with
    | none => some s
    | some i => some (s.update chatId i fun w => { w with cancelled := false })
  | .startNotice n =>
    match s.notices[n]? with
    | some { chatId, phase := .spawned } =>
      some { s with notices := s.notices.set n { chatId := chatId, phase := .sending } }
    | _ => none
  | .endNotice n =>
    -- sent or not, the guard takes the chat out of the set
    match s.notices[n]? with
    | some { chatId, phase := .sending } =>
      some { s with
        notices := s.notices.set n { chatId := chatId, phase := .ended }
        queueFullNotices := s.queueFullNotices.erase chatId }
    | _ => none

end ChatsState

/-- The dispatcher as a system. -/
def chatsSys : Sys (ChatsState M) (ChatsEvent M) := ⟨ChatsState.step⟩

/-- No chat has been heard of. -/
abbrev chatsStart : ChatsState M := {}


/-! ## What a step does -/

namespace ChatsState

variable {s s' : ChatsState M}

/-- Everything a step of the dispatcher can do. -/
inductive Steps (s : ChatsState M) : ChatsEvent M → ChatsState M → Prop
  | spawning {chatId message} (hpoll : s.poll = .idle) (hdispatcher : s.dispatchers[chatId]? = none) :
      Steps s (.handleUpdate chatId message) { s with poll := .sending chatId (.spawning message) }
  | sending {chatId message worker} (hpoll : s.poll = .idle)
      (hdispatcher : s.dispatchers[chatId]? = some worker) :
      Steps s (.handleUpdate chatId message) { s with poll := .sending chatId (.sending message) }
  | spawn {chatId message} (hpoll : s.poll = .sending chatId (.spawning message)) :
      Steps s .poll { s.spawnChatWorker chatId with
        poll := .sending chatId (.registering (s.workers chatId).length message) }
  | register {chatId worker message} (hpoll : s.poll = .sending chatId (.registering worker message)) :
      Steps s .poll { (s.register chatId worker).insertDispatcher chatId worker with
        poll := .sending chatId (.sending message) }
  | sent {chatId message worker} (hpoll : s.poll = .sending chatId (.sending message))
      (hdispatcher : s.dispatchers[chatId]? = some worker) (hresult : s.sendResult chatId worker = .ok) :
      Steps s .poll { s.push chatId worker message with poll := .idle }
  | refused {chatId message worker} (hpoll : s.poll = .sending chatId (.sending message))
      (hdispatcher : s.dispatchers[chatId]? = some worker) (hresult : s.sendResult chatId worker = .full) :
      Steps s .poll { s.reserveQueueFullNotice chatId with poll := .idle }
  | closed {chatId message worker} (hpoll : s.poll = .sending chatId (.sending message))
      (hdispatcher : s.dispatchers[chatId]? = some worker)
      (hresult : s.sendResult chatId worker = .closed) :
      Steps s .poll { s with poll := .sending chatId (.respawning message) }
  | respawn {chatId message} (hpoll : s.poll = .sending chatId (.respawning message)) :
      Steps s .poll { s.spawnChatWorker chatId with
        poll := .sending chatId (.reregistering (s.workers chatId).length message) }
  | reregister {chatId worker message}
      (hpoll : s.poll = .sending chatId (.reregistering worker message)) :
      Steps s .poll { s.register chatId worker with poll := .sending chatId (.resending worker message) }
  | resent {chatId worker message} (hpoll : s.poll = .sending chatId (.resending worker message))
      (hresult : s.sendResult chatId worker = .ok) :
      Steps s .poll { s.push chatId worker message with poll := .sending chatId (.inserting worker) }
  | rejected {chatId worker message} (hpoll : s.poll = .sending chatId (.resending worker message))
      (hresult : s.sendResult chatId worker ≠ .ok) :
      Steps s .poll { s with poll := .sending chatId (.inserting worker) }
  | insert {chatId worker} (hpoll : s.poll = .sending chatId (.inserting worker)) :
      Steps s .poll { s.insertDispatcher chatId worker with poll := .idle }
  | retain (hpoll : s.poll = .idle) :
      Steps s .retain { s with poll := .retaining s.dispatchers.toList }
  | retained (hpoll : s.poll = .retaining []) : Steps s .poll { s with poll := .idle }
  | keep {chatId worker rest} (hpoll : s.poll = .retaining ((chatId, worker) :: rest))
      (hresult : s.sendResult chatId worker ≠ .closed) :
      Steps s .poll { s with poll := .retaining rest }
  | remove {chatId worker rest} (hpoll : s.poll = .retaining ((chatId, worker) :: rest))
      (hresult : s.sendResult chatId worker = .closed) :
      Steps s .poll { s with poll := .removing chatId worker rest }
  | removed {chatId worker rest} (hpoll : s.poll = .removing chatId worker rest) :
      Steps s .poll { s.removeWorkerRegistration chatId worker with
        dispatchers := s.dispatchers.erase chatId, poll := .retaining rest }
  | shutdown (hpoll : s.poll = .idle) :
      Steps s .shutdown { s with poll := .stopping .cancel s.dispatchers.toList [] }
  | stopCancel {chatId worker rest handles}
      (hpoll : s.poll = .stopping .cancel ((chatId, worker) :: rest) handles) :
      Steps s .poll { s.stopWorker chatId worker .cancel with
        poll := .stopping .abort ((chatId, worker) :: rest) handles }
  | stopAbort {chatId worker rest handles}
      (hpoll : s.poll = .stopping .abort ((chatId, worker) :: rest) handles) :
      Steps s .poll { s.stopWorker chatId worker .abort with
        poll := .stopping .remove ((chatId, worker) :: rest) handles }
  | stopRemove {chatId worker rest handles}
      (hpoll : s.poll = .stopping .remove ((chatId, worker) :: rest) handles) :
      Steps s .poll { s.stopWorker chatId worker .remove with
        poll := .stopping .cancel rest (handles ++ [(chatId, worker)]) }
  | join {stop handles} (hpoll : s.poll = .stopping stop [] handles) :
      Steps s .poll { s with poll := .joining handles }
  | joined {chatId worker handles} (hpoll : s.poll = .joining ((chatId, worker) :: handles))
      (hfinished : s.hasFinished chatId worker = true) : Steps s .poll { s with poll := .joining handles }
  | stopped (hpoll : s.poll = .joining []) : Steps s .poll { s with poll := .stopped }
  | worker {chatId i e w w'} (hw : (s.workers chatId)[i]? = some w)
      (hstep : w.step (s.connected chatId i) e = some w') (hguard : e ≠ .dropGuard) :
      Steps s (.worker chatId i e) (s.update chatId i fun _ => w')
  | guard {chatId i w w'} (hw : (s.workers chatId)[i]? = some w)
      (hstep : w.step (s.connected chatId i) .dropGuard = some w') :
      Steps s (.worker chatId i .dropGuard)
        ((s.update chatId i fun _ => w').removeWorkerRegistration chatId i)
  | cancelNone {chatId abort} (hregistry : s.registry[chatId]? = none) :
      Steps s (.cancelChatWorker chatId abort) s
  | cancel {chatId abort i} (hregistry : s.registry[chatId]? = some i) :
      Steps s (.cancelChatWorker chatId abort)
        (s.update chatId i fun w => { w with cancelled := true, aborted := w.aborted || abort })
  | reactivateNone {chatId} (hregistry : s.registry[chatId]? = none) :
      Steps s (.reactivateChatWorker chatId) s
  | reactivate {chatId i} (hregistry : s.registry[chatId]? = some i) :
      Steps s (.reactivateChatWorker chatId) (s.update chatId i fun w => { w with cancelled := false })
  | startNotice {n chatId} (hnotice : s.notices[n]? = some { chatId := chatId, phase := .spawned }) :
      Steps s (.startNotice n)
        { s with notices := s.notices.set n { chatId := chatId, phase := .sending } }
  | endNotice {n chatId} (hnotice : s.notices[n]? = some { chatId := chatId, phase := .sending }) :
      Steps s (.endNotice n)
        { s with
          notices := s.notices.set n { chatId := chatId, phase := .ended }
          queueFullNotices := s.queueFullNotices.erase chatId }

/-- A poll of the loop that is inside one chat's `try_send` moves as the table of steps says, whatever the
    channel answers. -/
theorem steps_of_sendStep {chatId : Int} {p : Poll M} (hpoll : s.poll = .sending chatId p)
    (h : s.sendStep chatId p = some s') : s.Steps .poll s' := by
  cases p with
  | spawning message =>
    cases h
    exact .spawn hpoll
  | registering worker message =>
    cases h
    exact .register hpoll
  | sending message =>
    simp only [sendStep] at h
    split at h
    · cases h
    · rename_i worker hdispatcher
      split at h <;> cases h
      · exact .sent hpoll hdispatcher ‹_›
      · exact .refused hpoll hdispatcher ‹_›
      · exact .closed hpoll hdispatcher ‹_›
  | respawning message =>
    cases h
    exact .respawn hpoll
  | reregistering worker message =>
    cases h
    exact .reregister hpoll
  | resending worker message =>
    simp only [sendStep] at h
    split at h <;> cases h
    · exact .resent hpoll ‹_›
    · exact .rejected hpoll ‹_›
  | inserting worker =>
    cases h
    exact .insert hpoll
  | idle => cases h
  | removing worker => cases h

/-- Every step of the polling loop, sending, retaining or stopping, is one of those the table lists under
    `poll`. -/
theorem steps_of_pollStep (h : s.pollStep = some s') : s.Steps .poll s' := by
  simp only [pollStep] at h
  split at h
  case h_1 => cases h
  case h_2 hpoll => exact steps_of_sendStep hpoll h
  case h_3 hpoll =>
    cases h
    exact .retained hpoll
  case h_4 hpoll =>
    split at h <;> cases h
    · exact .remove hpoll ‹_›
    · exact .keep hpoll ‹_›
  case h_5 hpoll =>
    cases h
    exact .removed hpoll
  case h_6 hpoll =>
    cases h
    exact .stopCancel hpoll
  case h_7 hpoll =>
    cases h
    exact .stopAbort hpoll
  case h_8 hpoll =>
    cases h
    exact .stopRemove hpoll
  case h_9 hpoll =>
    cases h
    exact .join hpoll
  case h_10 hpoll =>
    cases h
    exact .stopped hpoll
  case h_11 hpoll =>
    split at h
    · cases h
      exact .joined hpoll ‹_›
    · cases h
  case h_12 => cases h

/-- The step function of the whole system does nothing that the table of steps does not list; the lemmas below
    split on the table and not on the function. -/
theorem steps_of_step {e : ChatsEvent M} (h : s.step e = some s') : s.Steps e s' := by
  cases e with
  | handleUpdate chatId message =>
    simp only [step] at h
    split at h <;> cases h
    · exact .spawning ‹_› ‹_›
    · exact .sending ‹_› ‹_›
  | retain =>
    simp only [step] at h
    split at h <;> cases h
    exact .retain ‹_›
  | shutdown =>
    simp only [step] at h
    split at h <;> cases h
    exact .shutdown ‹_›
  | poll => exact steps_of_pollStep h
  | worker chatId i e =>
    simp only [step] at h
    split at h
    · cases h
    · rename_i w hw
      split at h
      · cases h
      · rename_i w' hstep
        split at h <;> cases h
        · exact .guard hw hstep
        · rename_i hguard
          exact .worker hw hstep hguard
  | cancelChatWorker chatId abort =>
    simp only [step] at h
    split at h <;> cases h
    · exact .cancelNone ‹_›
    · exact .cancel ‹_›
  | reactivateChatWorker chatId =>
    simp only [step] at h
    split at h <;> cases h
    · exact .reactivateNone ‹_›
    · exact .reactivate ‹_›
  | startNotice n =>
    simp only [step] at h
    split at h <;> cases h
    exact .startNotice ‹_›
  | endNotice n =>
    simp only [step] at h
    split at h <;> cases h
    exact .endNotice ‹_›

end ChatsState

/-! ## One chat's view -/

/-- What a step of the dispatcher is to one chat. -/
inductive ChatEvent (M : Type)
  | dispatch (e : DispatchEvent M)
  /-- A worker's step, once `stop_chat_workers` runs. -/
  | worker (connected : Bool) (i : Nat) (e : WorkerEvent)
  | stop (i : Nat) (stop : Stop)

/-- What each of the three steps of the stop does to a worker, seen from its chat. -/
def stopWorker (d : DispatchState M) (i : Nat) : Stop → DispatchState M
  | .cancel => d.update i fun w => { w with cancelled := true }
  | .abort => d.update i fun w => { w with aborted := true }
  | .remove => d.removeWorkerRegistration i

/-- A worker's step, with a given answer to whether its channel has a sender. -/
def workerStep (d : DispatchState M) (connected : Bool) (i : Nat) (e : WorkerEvent) :
    Option (DispatchState M) :=
  match d.workers[i]? with
  | none => none
  | some w =>
    match w.step connected e with
    | none => none
    | some w' =>
      match e with
      | .dropGuard => some ((d.update i fun _ => w').removeWorkerRegistration i)
      | _ => some (d.update i fun _ => w')

/-- One chat: its dispatch, and its part in the stop. -/
def chatSys : Sys (DispatchState M) (ChatEvent M) where
  step d
    | .dispatch e => d.step e
    | .worker connected i e => workerStep d connected i e
    | .stop i stop => some (stopWorker d i stop)

/-- What the step of `send_to_chat_worker` is to the chat it is about. -/
def sendEvent (workerId : UInt64) : Poll M → Option (ChatEvent M)
  | .spawning _ => some (.dispatch (.spawnChatWorker workerId))
  | .respawning _ => some (.dispatch (.spawnChatWorker workerId))
  | .registering _ _ => some (.dispatch .register)
  | .reregistering _ _ => some (.dispatch .register)
  | .sending _ => some (.dispatch .trySend)
  | .resending _ _ => some (.dispatch .trySend)
  | .inserting _ => some (.dispatch .insertDispatcher)
  | _ => none

/-- The chat that the poll loop's next step is about, and what the step is to it. -/
def ChatsState.pollEvent (s : ChatsState M) : Option (Int × ChatEvent M) :=
  match s.poll with
  | .sending chatId poll => (sendEvent s.nextWorkerId poll).map (chatId, ·)
  | .retaining ((chatId, _) :: _) => some (chatId, .dispatch .retain)
  | .removing chatId _ _ => some (chatId, .dispatch .removeRegistration)
  | .stopping stop ((chatId, worker) :: _) _ => some (chatId, .stop worker stop)
  | _ => none

/-- The same for any step. -/
def ChatsState.event (s : ChatsState M) : ChatsEvent M → Option (Int × ChatEvent M)
  | .handleUpdate chatId message => some (chatId, .dispatch (.handleUpdate message))
  | .poll => s.pollEvent
  | .worker chatId i e =>
    some (chatId, if s.poll.stops then .worker (s.connected chatId i) i e else .dispatch (.worker i e))
  | .cancelChatWorker chatId abort => some (chatId, .dispatch (.cancelChatWorker abort))
  | .reactivateChatWorker chatId => some (chatId, .dispatch .reactivateChatWorker)
  | _ => none

/-- A chat's own share of what happens to chats. -/
def share {α : Type} (chatId : Int) (x : Int × α) : Option α := if x.1 = chatId then some x.2 else none

/-- The dispatcher, as one chat sees it. -/
def view (chatId : Int) : View (ChatsState M) (ChatsEvent M) (DispatchState M) (ChatEvent M) where
  state s := s.chat chatId
  event x := (x.1.event x.2).bind (share chatId)

@[simp] theorem share_self {α : Type} (chatId : Int) (a : α) : share chatId (chatId, a) = some a := if_pos rfl

/-- An entry of another chat is no part of this chat's share. -/
theorem share_ne {α : Type} {c chatId : Int} (hc : c ≠ chatId) (a : α) : share chatId (c, a) = none :=
  if_neg hc

namespace ChatsState

variable {s s' : ChatsState M} {c chatId : Int} {i : Nat}

/-! ### Operations on one chat -/

@[simp] theorem chat_poll (poll : PollLoop M) :
    ({ s with poll := poll } : ChatsState M).chat chatId = { s.chat chatId with poll := poll.of chatId } :=
  rfl

@[simp] theorem chat_update (f : Worker M → Worker M) :
    (s.update chatId i f).chat chatId = (s.chat chatId).update i f := by
  simp only [chat, update, DispatchState.update, Function.update_self]

/-- Changing a worker of one chat leaves what another chat sees as it was. -/
theorem chat_update_ne (hc : c ≠ chatId) (f : Worker M → Worker M) :
    (s.update c i f).chat chatId = s.chat chatId := by
  simp only [chat, update, Function.update_of_ne (Ne.symm hc)]

@[simp] theorem chat_spawnChatWorker :
    (s.spawnChatWorker chatId).chat chatId = (s.chat chatId).spawnChatWorker s.nextWorkerId := by
  simp only [chat, spawnChatWorker, DispatchState.spawnChatWorker, Function.update_self]

/-- A worker spawned for one chat does not show in another. -/
theorem chat_spawnChatWorker_ne (hc : c ≠ chatId) : (s.spawnChatWorker c).chat chatId = s.chat chatId := by
  simp only [chat, spawnChatWorker, Function.update_of_ne (Ne.symm hc)]

@[simp] theorem chat_register :
    (s.register chatId i).chat chatId = { s.chat chatId with registry := some i } := by
  simp only [chat, register, Std.ExtTreeMap.getElem?_insert_self]

/-- The registry entry of one chat is none of another's. -/
theorem chat_register_ne (hc : c ≠ chatId) : (s.register c i).chat chatId = s.chat chatId := by
  simp only [chat, register, Std.ExtTreeMap.getElem?_insert, Int.compare_eq_eq, if_neg hc]

@[simp] theorem chat_insertDispatcher :
    (s.insertDispatcher chatId i).chat chatId = { s.chat chatId with dispatcher := some i } := by
  simp only [chat, insertDispatcher, Std.ExtTreeMap.getElem?_insert_self]

/-- The dispatcher kept for one chat is none of another's. -/
theorem chat_insertDispatcher_ne (hc : c ≠ chatId) :
    (s.insertDispatcher c i).chat chatId = s.chat chatId := by
  simp only [chat, insertDispatcher, Std.ExtTreeMap.getElem?_insert, Int.compare_eq_eq, if_neg hc]

/-- The guarded removal, which erases the registry entry only where it still names the worker, is the same
    guarded removal in the chat's own view. -/
@[simp] theorem chat_removeWorkerRegistration :
    (s.removeWorkerRegistration chatId i).chat chatId = (s.chat chatId).removeWorkerRegistration i := by
  simp only [removeWorkerRegistration, DispatchState.removeWorkerRegistration]
  cases hregistry : s.registry[chatId]? with
  | none => simp [chat, hregistry]
  | some registered =>
    by_cases hsame : ((s.workers chatId)[registered]?).map (·.workerId) =
        ((s.workers chatId)[i]?).map (·.workerId)
    · simp [chat, hregistry, hsame, Option.filter]
    · simp [chat, hregistry, hsame, Option.filter]

/-- A removal under one chat's id leaves another chat's registry entry alone. -/
theorem chat_removeWorkerRegistration_ne (hc : c ≠ chatId) :
    (s.removeWorkerRegistration c i).chat chatId = s.chat chatId := by
  simp only [removeWorkerRegistration]
  split
  · simp only [chat, Std.ExtTreeMap.getElem?_erase, Int.compare_eq_eq, if_neg hc]
  · rfl

/-- The set of chats with a notice under way is not part of what a chat's dispatch sees. -/
theorem chat_reserveQueueFullNotice : (s.reserveQueueFullNotice c).chat chatId = s.chat chatId := by
  simp only [reserveQueueFullNotice]
  split <;> rfl

end ChatsState

/-! ### The lists that the poll loop goes through -/

namespace ChatsState

variable {s s' : ChatsState M} {e : ChatsEvent M} {c chatId : Int} {worker : Nat}
  {rest handles : List (Int × Nat)}

/-- Entries of the dispatchers, of different chats. -/
def Listed (s : ChatsState M) (entries : List (Int × Nat)) : Prop :=
  entries.Pairwise (·.1 ≠ ·.1) ∧ ∀ x ∈ entries, s.dispatchers[x.1]? = some x.2

/-- What is still to be gone through is listed, and `stop_chat_workers` leaves none out. -/
def PollListed (s : ChatsState M) : PollLoop M → Prop
  | .retaining rest => s.Listed rest
  | .removing chatId worker rest => s.Listed ((chatId, worker) :: rest)
  | .stopping _ rest handles => s.Listed rest ∧
      ∀ c worker, s.dispatchers[c]? = some worker → (c, worker) ∈ rest ∨ (c, worker) ∈ handles
  | _ => True

/-- The dispatchers as the map lists them name every chat once and each with its own worker. -/
theorem listed_toList : s.Listed s.dispatchers.toList := by
  constructor
  · refine List.Pairwise.imp ?_ Std.ExtTreeMap.distinct_keys_toList
    intro a b hne heq
    exact hne (Int.compare_eq_eq.mpr heq)
  · intro x hx
    exact Std.ExtTreeMap.mem_toList_iff_getElem?_eq_some.mp hx

/-- What is left of such a listing after its first entry is one again. -/
theorem Listed.tail {x : Int × Nat} (hl : s.Listed (x :: rest)) : s.Listed rest :=
  ⟨(List.pairwise_cons.mp hl.1).2, fun y hy => hl.2 y (List.mem_cons_of_mem _ hy)⟩

/-- The first entry of a listing is the chat's dispatcher in the map. -/
theorem Listed.head {x : Int × Nat} (hl : s.Listed (x :: rest)) : s.dispatchers[x.1]? = some x.2 :=
  hl.2 x List.mem_cons_self

@[simp] theorem poll_removeWorkerRegistration :
    (s.removeWorkerRegistration chatId worker).poll = s.poll := by
  simp only [removeWorkerRegistration]
  split <;> rfl

@[simp] theorem dispatchers_removeWorkerRegistration :
    (s.removeWorkerRegistration chatId worker).dispatchers = s.dispatchers := by
  simp only [removeWorkerRegistration]
  split <;> rfl

@[simp] theorem dispatchers_stopWorker (stop : Stop) :
    (s.stopWorker chatId worker stop).dispatchers = s.dispatchers := by
  cases stop with
  | remove => exact dispatchers_removeWorkerRegistration
  | _ => rfl

/-- The listing a poll works through stays right under a step that leaves the dispatchers alone. -/
theorem PollListed.congr {poll : PollLoop M} (hl : s.PollListed poll)
    (hdispatchers : s'.dispatchers = s.dispatchers) : s'.PollListed poll := by
  cases poll <;> simp only [PollListed, Listed, hdispatchers] at hl ⊢ <;> exact hl

/-- The lists stay lists of dispatchers. -/
theorem PollListed.step (hl : s.PollListed s.poll) (hs : s.Steps e s') : s'.PollListed s'.poll := by
  cases hs with
  | retain => exact listed_toList
  | keep hpoll =>
    rw [hpoll] at hl
    exact Listed.tail hl
  | remove hpoll =>
    rw [hpoll] at hl
    exact hl
  | @removed c worker rest hpoll =>
    rw [hpoll] at hl
    refine ⟨(Listed.tail hl).1, fun x hx => ?_⟩
    -- no later entry is the removed chat's
    have hne : c ≠ x.1 := (List.pairwise_cons.mp hl.1).1 x hx
    show (s.dispatchers.erase c)[x.1]? = some x.2
    rw [Std.ExtTreeMap.getElem?_erase, if_neg fun h => hne (Int.compare_eq_eq.mp h)]
    exact (Listed.tail hl).2 x hx
  | shutdown =>
    refine ⟨listed_toList, fun c worker hworker => Or.inl ?_⟩
    exact Std.ExtTreeMap.mem_toList_iff_getElem?_eq_some.mpr hworker
  | stopCancel hpoll =>
    rw [hpoll] at hl
    exact hl
  | stopAbort hpoll =>
    rw [hpoll] at hl
    exact hl
  | @stopRemove c worker rest handles hpoll =>
    rw [hpoll] at hl
    have hnext : s.PollListed (.stopping .cancel rest (handles ++ [(c, worker)])) := by
      refine ⟨Listed.tail hl.1, fun c' w' hw' => ?_⟩
      rcases hl.2 c' w' hw' with hrest | hhandles
      · rcases List.mem_cons.mp hrest with heq | hrest
        · exact Or.inr (List.mem_append_right _ (heq ▸ List.mem_singleton_self _))
        · exact Or.inl hrest
      · exact Or.inr (List.mem_append_left _ hhandles)
    exact hnext.congr (dispatchers_stopWorker _)
  | worker => exact hl
  | guard =>
    rw [poll_removeWorkerRegistration]
    exact hl.congr dispatchers_removeWorkerRegistration
  | cancelNone => exact hl
  | cancel => exact hl
  | reactivateNone => exact hl
  | reactivate => exact hl
  | startNotice => exact hl
  | endNotice => exact hl
  | _ => trivial

/-! ### Every step is one chat's, or no chat's -/

/-- A step that is no event of any chat is followed by standing still, once the chat sees nothing of it. -/
theorem follows_none (hevent : s.event e = none) (hchat : s'.chat chatId = s.chat chatId) :
    (view chatId).Follows chatSys (s, e) s' := by
  rw [View.Follows, show (view chatId).event (s, e) = none by simp only [view, hevent, Option.bind_none]]
  exact hchat

/-- A step that is an event of chat `c` is followed, in the view of every chat: `c` takes the event as a step
    of its own dispatch, and the others see nothing. -/
theorem follows_some {ev : ChatEvent M} (hevent : s.event e = some (c, ev))
    (hself : chatSys.step (s.chat c) ev = some (s'.chat c))
    (hother : c ≠ chatId → s'.chat chatId = s.chat chatId) :
    (view chatId).Follows chatSys (s, e) s' := by
  rw [View.Follows]
  by_cases hc : c = chatId
  · subst hc
    rw [show (view c).event (s, e) = some ev by simp only [view, hevent, Option.bind_some, share_self]]
    exact hself
  · rw [show (view chatId).event (s, e) = none by
      simp only [view, hevent, Option.bind_some, share_ne hc]]
    exact hother hc

/-- The loop's next step is known by where the loop is. -/
theorem event_poll {poll : PollLoop M} (hpoll : s.poll = poll) :
    s.event .poll = ({ s with poll := poll } : ChatsState M).event .poll := by
  rw [← hpoll]

/-- A poll that sends to this chat is this chat's poll. -/
theorem of_sending (p : Poll M) : (PollLoop.sending chatId p).of chatId = p := if_pos rfl

/-- A poll that sends to another chat leaves this chat's loop idle. -/
theorem of_sending_ne (hc : c ≠ chatId) (p : Poll M) :
    (PollLoop.sending c p).of chatId = .idle := if_neg hc

/-- The poll loop moves on, and what it does is nothing to this chat. -/
theorem chat_poll_same {poll : PollLoop M} (hsame : poll.of chatId = s.poll.of chatId) :
    ({ s with poll := poll } : ChatsState M).chat chatId = s.chat chatId := by
  rw [chat_poll, hsame]
  rfl

end ChatsState

namespace ChatsState

variable {s s' : ChatsState M} {e : ChatsEvent M} {c chatId : Int} {i : Nat}

/-- A step of a worker other than its guard's drop is the same step in its chat's view, and touches that
    worker alone. -/
theorem workerStep_of_step {connected : Bool} {w w' : Worker M} {e : WorkerEvent}
    (hw : (s.workers c)[i]? = some w) (hstep : w.step connected e = some w') (hguard : e ≠ .dropGuard) :
    workerStep (s.chat c) connected i e = some ((s.chat c).update i fun _ => w') := by
  simp only [workerStep, show (s.chat c).workers[i]? = some w from hw, hstep]

/-- Outside `stop_chat_workers`, a chat's senders are those of its dispatch. -/
theorem connected_chat (hstops : s.poll.stops = false) :
    s.connected c i = (s.chat c).connected i := by
  cases hpoll : s.poll with
  | stopping _ _ _ => simp only [hpoll, PollLoop.stops, Bool.true_eq_false] at hstops
  | joining _ => simp only [hpoll, PollLoop.stops, Bool.true_eq_false] at hstops
  | stopped => simp only [hpoll, PollLoop.stops, Bool.true_eq_false] at hstops
  | _ => simp only [connected, hpoll]

/-- A worker's step is one of its chat's own system, before the stop and during it. -/
theorem chatSys_worker {e : WorkerEvent} {d : DispatchState M}
    (hstep : workerStep (s.chat c) (s.connected c i) i e = some d) :
    chatSys.step (s.chat c)
      (if s.poll.stops then .worker (s.connected c i) i e else .dispatch (.worker i e)) = some d := by
  cases hstops : s.poll.stops with
  | true => exact hstep
  | false =>
    rw [connected_chat hstops] at hstep
    exact hstep

@[simp] theorem chat_stopWorker (stop : Stop) :
    (s.stopWorker chatId i stop).chat chatId = Chats.stopWorker (s.chat chatId) i stop := by
  cases stop with
  | cancel => exact chat_update _
  | abort => exact chat_update _
  | remove => exact chat_removeWorkerRegistration

/-- Stopping a worker of one chat leaves another chat's view as it was. -/
theorem chat_stopWorker_ne (hc : c ≠ chatId) (stop : Stop) :
    (s.stopWorker c i stop).chat chatId = s.chat chatId := by
  cases stop with
  | cancel => exact chat_update_ne hc _
  | abort => exact chat_update_ne hc _
  | remove => exact chat_removeWorkerRegistration_ne hc

@[simp] theorem poll_stopWorker (stop : Stop) : (s.stopWorker chatId i stop).poll = s.poll := by
  cases stop with
  | remove => exact poll_removeWorkerRegistration
  | _ => rfl

/-- The stop of one listed worker is followed in every chat: the chat of the entry sees its own `stopWorker`,
    the others nothing. -/
theorem follows_stop {stop : Stop} {worker : Nat} {rest handles : List (Int × Nat)} {poll : PollLoop M}
    (hpoll : s.poll = .stopping stop ((c, worker) :: rest) handles)
    (hidle : ∀ chatId, poll.of chatId = .idle) :
    (view chatId).Follows chatSys (s, .poll) { s.stopWorker c worker stop with poll := poll } := by
  have hsame : ∀ chatId, poll.of chatId = (s.stopWorker c worker stop).poll.of chatId := by
    intro chatId
    rw [hidle, poll_stopWorker, hpoll]
    rfl
  have hevent : s.event .poll = some (c, .stop worker stop) := event_poll hpoll
  refine follows_some hevent ?_ fun hc => ?_
  · rw [chat_poll_same (hsame c), chat_stopWorker]
    rfl
  · rw [chat_poll_same (hsame chatId), chat_stopWorker_ne hc]

/-! The loop's steps by where it is: in `send_to_chat_worker`, or at a dispatcher in `retain`. -/

variable {message : M} {worker : Nat} {rest : List (Int × Nat)} {p q : Poll M} {next : PollLoop M}

/-- While the loop sends to chat `c`, the poll that `c` sees is the one the loop holds. -/
theorem poll_sending (hpoll : s.poll = .sending c p) : (s.chat c).poll = p :=
  (congrArg (PollLoop.of · c) hpoll).trans (of_sending p)

/-- A step in `send_to_chat_worker`.  To its chat it is what the chat's own system does, to the others
    nothing; the loop stays with the chat or is idle again. -/
theorem follows_sending {ev : ChatEvent M} {s₁ : ChatsState M} (hpoll : s.poll = .sending c p)
    (hsend : sendEvent s.nextWorkerId p = some ev) (hnext : ∀ other, c ≠ other → next.of other = .idle)
    (hself : chatSys.step (s.chat c) ev = some { s₁.chat c with poll := next.of c })
    (hother : ∀ other, c ≠ other → s₁.chat other = s.chat other) :
    (view chatId).Follows chatSys (s, .poll) { s₁ with poll := next } := by
  have hevent : s.event .poll = some (c, ev) :=
    (event_poll hpoll).trans (congrArg (Option.map (c, ·)) hsend)
  refine follows_some hevent hself fun hc => ?_
  have hsame : next.of chatId = s.poll.of chatId := by rw [hpoll, hnext chatId hc, of_sending_ne hc]
  rw [chat_poll, hother chatId hc, ← chat_poll]
  exact chat_poll_same hsame

/-- `spawn_chat_worker`, for a chat without a dispatcher and after a closed channel alike. -/
theorem follows_spawn (hpoll : s.poll = .sending c p)
    (hsend : sendEvent s.nextWorkerId p = some (.dispatch (.spawnChatWorker s.nextWorkerId)))
    (hstep : (s.chat c).step (.spawnChatWorker s.nextWorkerId) =
      some { (s.chat c).spawnChatWorker s.nextWorkerId with poll := q }) :
    (view chatId).Follows chatSys (s, .poll) { s.spawnChatWorker c with poll := .sending c q } := by
  refine follows_sending hpoll hsend (fun _ hc => of_sending_ne hc q) ?_ fun _ hc => chat_spawnChatWorker_ne hc
  rw [chat_spawnChatWorker, of_sending]
  exact hstep

/-- `try_send` that finds room: the first one, with the loop idle after it, and the one to a worker just
    spawned again. -/
theorem follows_push (hpoll : s.poll = .sending c p)
    (hsend : sendEvent s.nextWorkerId p = some (.dispatch .trySend))
    (hnext : ∀ other, c ≠ other → next.of other = .idle)
    (hstep : (s.chat c).step .trySend = some { (s.chat c).push worker message with poll := next.of c }) :
    (view chatId).Follows chatSys (s, .poll) { s.push c worker message with poll := next } := by
  refine follows_sending hpoll hsend hnext ?_ fun _ hc => chat_update_ne hc _
  rw [push, chat_update]
  exact hstep

/-- `retain` looks at a dispatcher and keeps it, or comes to remove it. -/
theorem follows_retaining (hpoll : s.poll = .retaining ((c, worker) :: rest))
    (hnext : ∀ other, c ≠ other → next.of other = .idle)
    (hstep : (s.chat c).step .retain = some (({ s with poll := next } : ChatsState M).chat c)) :
    (view chatId).Follows chatSys (s, .poll) { s with poll := next } := by
  have hevent : s.event .poll = some (c, .dispatch .retain) := event_poll hpoll
  refine follows_some hevent hstep fun hc => chat_poll_same ?_
  rw [hnext chatId hc, hpoll]
  rfl

/-- `retain` removes the registration, and the dispatcher. -/
theorem follows_removing (hpoll : s.poll = .removing c worker rest) :
    (view chatId).Follows chatSys (s, .poll) { s.removeWorkerRegistration c worker with
      dispatchers := s.dispatchers.erase c, poll := .retaining rest } := by
  have hevent : s.event .poll = some (c, .dispatch .removeRegistration) := event_poll hpoll
  have hremoving : (s.chat c).poll = .removing worker := by simp only [chat, hpoll, PollLoop.of, if_true]
  refine follows_some hevent ?_ fun hc => ?_
  · simp only [chatSys, DispatchState.step, hremoving, ← chat_removeWorkerRegistration]
    simp [chat, PollLoop.of]
  · have hother := chat_removeWorkerRegistration_ne (s := s) (i := worker) hc
    simp only [chat, DispatchState.mk.injEq] at hother ⊢
    refine ⟨hother.1, hother.2.1, ?_, ?_⟩
    · rw [Std.ExtTreeMap.getElem?_erase, if_neg fun h => hc (Int.compare_eq_eq.mp h)]
    · simp only [hpoll, PollLoop.of, if_neg hc]

/-- **Every step of the dispatcher is a step of one chat's own, or no chat's.** -/
theorem follows (hl : s.PollListed s.poll) (hs : s.Steps e s') :
    (view chatId).Follows chatSys (s, e) s' := by
  have hstays : ∀ (c : Int) (q : Poll M) other, c ≠ other → (PollLoop.sending c q).of other = .idle :=
    fun _ q _ hc => of_sending_ne hc q
  have hidle : ∀ (c : Int) other, c ≠ other → (PollLoop.idle : PollLoop M).of other = .idle :=
    fun _ _ _ => rfl
  cases hs with
  | @spawning c message hpoll hdispatcher =>
    refine follows_some rfl ?_ fun hc => chat_poll_same ?_
    · simp [chatSys, DispatchState.step, chat, hpoll, hdispatcher, PollLoop.of]
    · rw [of_sending_ne hc, hpoll]
      rfl
  | @sending c message worker hpoll hdispatcher =>
    refine follows_some rfl ?_ fun hc => chat_poll_same ?_
    · simp [chatSys, DispatchState.step, chat, hpoll, hdispatcher, PollLoop.of]
    · rw [of_sending_ne hc, hpoll]
      rfl
  | @spawn c message hpoll =>
    refine follows_spawn hpoll rfl ?_
    simp only [DispatchState.step, poll_sending hpoll]
    rfl
  | @register c worker message hpoll =>
    refine follows_sending hpoll rfl (hstays c _) ?_ fun other hc => ?_
    · rw [chat_insertDispatcher, chat_register, of_sending]
      simp only [chatSys, DispatchState.step, poll_sending hpoll]
    · rw [chat_insertDispatcher_ne hc, chat_register_ne hc]
  | @sent c message worker hpoll hdispatcher hresult =>
    refine follows_push hpoll rfl (hidle c) ?_
    simp only [DispatchState.step, poll_sending hpoll, show (s.chat c).dispatcher = some worker from hdispatcher,
      show (s.chat c).sendResult worker = .ok from hresult]
    rfl
  | @refused c message worker hpoll hdispatcher hresult =>
    refine follows_sending hpoll rfl (hidle c) ?_ fun _ _ => chat_reserveQueueFullNotice
    simp only [chatSys, DispatchState.step, poll_sending hpoll, chat_reserveQueueFullNotice,
      show (s.chat c).dispatcher = some worker from hdispatcher,
      show (s.chat c).sendResult worker = .full from hresult]
    rfl
  | @closed c message worker hpoll hdispatcher hresult =>
    refine follows_sending hpoll rfl (hstays c _) ?_ fun _ _ => rfl
    simp only [chatSys, DispatchState.step, poll_sending hpoll, of_sending,
      show (s.chat c).dispatcher = some worker from hdispatcher,
      show (s.chat c).sendResult worker = .closed from hresult]
  | @respawn c message hpoll =>
    refine follows_spawn hpoll rfl ?_
    simp only [DispatchState.step, poll_sending hpoll]
    rfl
  | @reregister c worker message hpoll =>
    refine follows_sending hpoll rfl (hstays c _) ?_ fun _ hc => chat_register_ne hc
    rw [chat_register, of_sending]
    simp only [chatSys, DispatchState.step, poll_sending hpoll]
  | @resent c worker message hpoll hresult =>
    refine follows_push hpoll rfl (hstays c _) ?_
    simp only [DispatchState.step, poll_sending hpoll, of_sending,
      show (s.chat c).sendResult worker = .ok from hresult]
  | @rejected c worker message hpoll hresult =>
    refine follows_sending hpoll rfl (hstays c _) ?_ fun _ _ => rfl
    simp only [chatSys, DispatchState.step, poll_sending hpoll, of_sending]
    split
    · exact absurd ‹_› hresult
    · rfl
  | @insert c worker hpoll =>
    refine follows_sending hpoll rfl (hidle c) ?_ fun _ hc => chat_insertDispatcher_ne hc
    rw [chat_insertDispatcher]
    simp only [chatSys, DispatchState.step, poll_sending hpoll]
    rfl
  | retain hpoll => exact follows_none rfl (chat_poll_same (by rw [hpoll]; rfl))
  | retained hpoll =>
    exact follows_none (event_poll hpoll) (chat_poll_same (by rw [hpoll]; rfl))
  | @keep c worker rest hpoll hresult =>
    rw [hpoll] at hl
    have hloop : (s.chat c).poll = .idle := congrArg (PollLoop.of · c) hpoll
    have hsame : (PollLoop.retaining rest).of c = s.poll.of c := hloop.symm
    refine follows_retaining hpoll (fun _ _ => rfl) ?_
    rw [chat_poll_same hsame]
    simp only [DispatchState.step, hloop, show (s.chat c).dispatcher = some worker from hl.head]
    split
    · exact absurd ‹_› hresult
    · rfl
  | @remove c worker rest hpoll hresult =>
    rw [hpoll] at hl
    have hloop : (s.chat c).poll = .idle := congrArg (PollLoop.of · c) hpoll
    refine follows_retaining hpoll (fun _ hc => if_neg hc) ?_
    simp only [DispatchState.step, hloop, show (s.chat c).dispatcher = some worker from hl.head,
      show (s.chat c).sendResult worker = .closed from hresult, chat_poll, PollLoop.of, if_true]
  | removed hpoll => exact follows_removing hpoll
  | shutdown hpoll => exact follows_none rfl (chat_poll_same (by rw [hpoll]; rfl))
  | stopCancel hpoll => exact follows_stop hpoll fun _ => rfl
  | stopAbort hpoll => exact follows_stop hpoll fun _ => rfl
  | stopRemove hpoll => exact follows_stop hpoll fun _ => rfl
  | join hpoll =>
    exact follows_none (event_poll hpoll) (chat_poll_same (by rw [hpoll]; rfl))
  | joined hpoll =>
    exact follows_none (event_poll hpoll) (chat_poll_same (by rw [hpoll]; rfl))
  | stopped hpoll =>
    exact follows_none (event_poll hpoll) (chat_poll_same (by rw [hpoll]; rfl))
  | @worker c i e w w' hw hstep hguard =>
    refine follows_some rfl (chatSys_worker ?_) fun hc => chat_update_ne hc _
    rw [chat_update]
    exact workerStep_of_step hw hstep hguard
  | @guard c i w w' hw hstep =>
    refine follows_some rfl (chatSys_worker ?_) fun hc => ?_
    · rw [chat_removeWorkerRegistration, chat_update]
      simp only [workerStep, show (s.chat c).workers[i]? = some w from hw, hstep]
    · rw [chat_removeWorkerRegistration_ne hc, chat_update_ne hc]
  | @cancelNone c abort hregistry =>
    refine follows_some rfl ?_ fun _ => rfl
    simp only [chatSys, DispatchState.step, show (s.chat c).registry = none from hregistry]
  | @cancel c abort i hregistry =>
    refine follows_some rfl ?_ fun hc => chat_update_ne hc _
    simp only [chatSys, DispatchState.step, show (s.chat c).registry = some i from hregistry, chat_update]
  | @reactivateNone c hregistry =>
    refine follows_some rfl ?_ fun _ => rfl
    simp only [chatSys, DispatchState.step, show (s.chat c).registry = none from hregistry]
  | @reactivate c i hregistry =>
    refine follows_some rfl ?_ fun hc => chat_update_ne hc _
    simp only [chatSys, DispatchState.step, show (s.chat c).registry = some i from hregistry, chat_update]
  | startNotice => exact follows_none rfl rfl
  | endNotice => exact follows_none rfl rfl

end ChatsState

/-! ## What one chat keeps -/

section Chat

variable {d d' : DispatchState M} {ev : ChatEvent M} {i : Nat}

/-- Everything a step of one chat's system can do. -/
inductive ChatSteps (d : DispatchState M) : ChatEvent M → DispatchState M → Prop
  | dispatch {e d'} (hs : d.Steps e d') : ChatSteps d (.dispatch e) d'
  | worker {connected} {i : Nat} {e w w'} (hw : d.workers[i]? = some w) (hstep : w.Steps connected e w')
      (hguard : e ≠ .dropGuard) : ChatSteps d (.worker connected i e) (d.update i fun _ => w')
  | guard {connected} {i : Nat} {w w'} (hw : d.workers[i]? = some w) (hstep : w.Steps connected .dropGuard w') :
      ChatSteps d (.worker connected i .dropGuard) ((d.update i fun _ => w').removeWorkerRegistration i)
  | cancel {i : Nat} : ChatSteps d (.stop i .cancel) (d.update i fun w => { w with cancelled := true })
  | abort {i : Nat} : ChatSteps d (.stop i .abort) (d.update i fun w => { w with aborted := true })
  | remove {i : Nat} : ChatSteps d (.stop i .remove) (d.removeWorkerRegistration i)

/-- The step function of one chat's dispatch, with the stop included, does nothing that its table does not
    list. -/
theorem chatSteps_of_step (h : chatSys.step d ev = some d') : ChatSteps d ev d' := by
  cases ev with
  | dispatch e => exact .dispatch (DispatchState.steps_of_step h)
  | worker connected i e =>
    simp only [chatSys, workerStep] at h
    split at h
    · cases h
    · rename_i w hw
      split at h
      · cases h
      · rename_i w' hw'
        have hstep := Worker.steps_of_step hw'
        split at h <;> cases h
        · exact .guard hw hstep
        · rename_i hguard
          exact .worker hw hstep hguard
  | stop i stop =>
    cases h
    cases stop with
    | cancel => exact .cancel
    | abort => exact .abort
    | remove => exact .remove

/-- Whom the registry may know of, by where the poll loop is. -/
def Registered (d : DispatchState M) : Poll M → Prop
  | .idle => ∀ i, d.registry = some i → d.dispatcher = some i
  | .sending _ => ∀ i, d.registry = some i → d.dispatcher = some i
  | .spawning _ => d.registry = none
  | .registering _ _ => d.registry = none
  | .respawning _ => True
  | .reregistering _ _ => True
  | .resending worker _ => ∀ i, d.registry = some i → i = worker
  | .inserting worker => ∀ i, d.registry = some i → i = worker
  | .removing worker => ∀ i, d.registry = some i → i = worker

/-- What one chat keeps at every time, through the stop too. -/
structure ChatInv (d : DispatchState M) : Prop where
  inv : d.Inv
  registered : Registered d d.poll

/-- A chat that nothing has arrived for satisfies the invariant. -/
theorem ChatInv.start : ChatInv ({} : DispatchState M) :=
  ⟨DispatchState.Inv.start, fun _ h => (by cases h)⟩

/-- A registry that knows of nobody else is as good. -/
theorem Registered.kept {poll : Poll M} (hr : Registered d poll)
    (hregistry : ∀ i, d'.registry = some i → d.registry = some i)
    (hdispatcher : d'.dispatcher = d.dispatcher) : Registered d' poll := by
  have hnone : d.registry = none → d'.registry = none := by
    intro hnone
    cases hregistry' : d'.registry with
    | none => rfl
    | some i => cases hnone.symm.trans (hregistry i hregistry')
  cases poll with
  | idle | sending _ => exact fun i hi => hdispatcher.trans (hr i (hregistry i hi))
  | spawning _ | registering _ _ => exact hnone hr
  | respawning _ | reregistering _ _ => trivial
  | resending _ _ | inserting _ | removing _ => exact fun i hi => hr i (hregistry i hi)

/-- Whoever is registered after a guarded removal was registered before it. -/
theorem registry_of_remove {j : Nat} (h : (d.removeWorkerRegistration i).registry = some j) :
    d.registry = some j := by
  simp only [DispatchState.removeWorkerRegistration, Option.filter_eq_some_iff] at h
  exact h.1

/-- Its own registration is gone. -/
theorem registry_remove_self (hr : ∀ j, d.registry = some j → j = i) :
    (d.removeWorkerRegistration i).registry = none := by
  cases hregistry : (d.removeWorkerRegistration i).registry with
  | none => rfl
  | some j =>
    simp only [DispatchState.removeWorkerRegistration, Option.filter_eq_some_iff] at hregistry
    obtain ⟨hj, hne⟩ := hregistry
    rw [hr j hj, bne_self_eq_false] at hne
    cases hne

/-- The registry stays with the dispatcher. -/
theorem Registered.step {e : DispatchEvent M} (hr : Registered d d.poll) (hs : d.Steps e d') :
    Registered d' d'.poll := by
  cases hs with
  | spawning hpoll hdispatcher =>
    rw [hpoll] at hr
    show d.registry = none
    cases hregistry : d.registry with
    | none => rfl
    | some i => cases hdispatcher.symm.trans (hr i hregistry)
  | sending hpoll =>
    rw [hpoll] at hr
    exact hr
  | spawn hpoll =>
    rw [hpoll] at hr
    exact hr
  | respawn => trivial
  | register =>
    rintro i ⟨⟩
    rfl
  | reregister =>
    rintro i ⟨⟩
    rfl
  | sent hpoll =>
    rw [hpoll] at hr
    exact hr
  | refused hpoll =>
    rw [hpoll] at hr
    exact hr
  | closed => trivial
  | resent hpoll =>
    rw [hpoll] at hr
    exact hr
  | rejected hpoll =>
    rw [hpoll] at hr
    exact hr
  | @insert worker hpoll =>
    rw [hpoll] at hr
    intro i hi
    exact congrArg some (hr i hi).symm
  | kept => exact hr
  | @remove worker hpoll hdispatcher =>
    rw [hpoll] at hr
    intro i hi
    exact (Option.some.inj (hdispatcher.symm.trans (hr i hi))).symm
  | removed hpoll =>
    rw [hpoll] at hr
    intro i hi
    cases (registry_remove_self hr).symm.trans hi
  | worker => exact hr.kept (fun _ h => h) rfl
  | @guard i w w' =>
    refine hr.kept (fun j hj => ?_) rfl
    have hold := registry_of_remove hj
    exact hold
  | cancelNone => exact hr
  | cancel => exact hr.kept (fun _ h => h) rfl
  | reactivateNone => exact hr
  | reactivate => exact hr.kept (fun _ h => h) rfl

/-- One chat's invariant is kept by its dispatch and by the stop. -/
theorem ChatInv.step (hi : ChatInv d) (hs : ChatSteps d ev d') : ChatInv d' := by
  have hkept : ∀ {i : Nat} {w w' : Worker M} {connected : Bool} {e : WorkerEvent},
      d.workers[i]? = some w → w.Steps connected e w' → (d.update i fun _ => w').Inv := by
    intro i w w' connected e hw hstep
    refine hi.inv.update i fun v hv ha => ?_
    cases hw.symm.trans hv
    exact hstep.alive ha
  cases hs with
  | dispatch hs => exact ⟨hi.inv.step hs, hi.registered.step hs⟩
  | worker hw hstep => exact ⟨hkept hw hstep, hi.registered⟩
  | guard hw hstep =>
    refine ⟨(hkept hw hstep).registry _, hi.registered.kept (fun j hj => ?_) rfl⟩
    have hold := registry_of_remove hj
    exact hold
  | cancel => exact ⟨hi.inv.update _ fun _ _ ha => ha, hi.registered⟩
  | abort => exact ⟨hi.inv.update _ fun _ _ ha => ha, hi.registered⟩
  | remove => exact ⟨hi.inv.registry _, hi.registered.kept (fun _ h => registry_of_remove h) rfl⟩

/-! ### Its messages -/

/-- The messages that a step takes into the chat's queue. -/
def chatAccepts (x : DispatchState M × ChatEvent M) : List M :=
  match x.2 with
  | .dispatch e => accepts (x.1, e)
  | _ => []

/-- Those on which a step starts the handler. -/
def chatHandles (x : DispatchState M × ChatEvent M) : List M :=
  match x.2 with
  | .dispatch e => handles (x.1, e)
  | .worker _ i e => (x.1.workers[i]?).elim [] (·.handles e)
  | .stop _ _ => []

/-- Those that a step gives up. -/
def chatDiscards (x : DispatchState M × ChatEvent M) : List M :=
  match x.2 with
  | .dispatch e => discards (x.1, e)
  | .worker _ i e => (x.1.workers[i]?).elim [] (·.discards e)
  | .stop _ _ => []

/-- The invariant of one chat's dispatch holds after every run of it, stops and aborts included. -/
theorem ChatInv.run {h : List (DispatchState M × ChatEvent M)}
    (p : Path chatSys ({} : DispatchState M) h d) : ChatInv d :=
  p.invariant ChatInv.start fun _ _ _ hi hs => hi.step (chatSteps_of_step hs)

/-- What is accepted is handled, discarded or held, one step, through the stop. -/
theorem ChatInv.flow (hi : ChatInv d) (hs : ChatSteps d ev d') :
    d.pending ++ chatAccepts (d, ev) = chatHandles (d, ev) ++ chatDiscards (d, ev) ++ d'.pending := by
  cases hs with
  | dispatch hs => exact hi.inv.flow hs
  | @worker connected i e w w' hw hstep hguard =>
    have hflow := hi.inv.flow_worker hw hstep
    simp only [chatAccepts, chatHandles, chatDiscards, hw, Option.elim_some, List.append_nil]
    exact hflow
  | @guard connected i w w' hw hstep =>
    have hflow := hi.inv.flow_worker hw hstep
    simp only [chatAccepts, chatHandles, chatDiscards, hw, Option.elim_some, List.append_nil]
    exact hflow
  | @cancel i =>
    have hsame : (d.update i fun w => { w with cancelled := true }).pending = d.pending :=
      DispatchState.pending_update fun _ _ _ => rfl
    rw [hsame]
    exact List.append_nil _
  | @abort i =>
    have hsame : (d.update i fun w => { w with aborted := true }).pending = d.pending :=
      DispatchState.pending_update fun _ _ _ => rfl
    rw [hsame]
    exact List.append_nil _
  | remove => exact List.append_nil _

/-- Over a run of one chat, what it took in is, in order, what its workers handled or discarded and what is
    still pending. -/
theorem chat_conserves : Conserves chatSys ({} : DispatchState M) DispatchState.pending
    chatAccepts chatHandles chatDiscards where
  start := rfl
  step _ _ _ _ p hs := (ChatInv.run p).flow (chatSteps_of_step hs)

end Chat

/-! ## All chats at once -/

/-- The steps so far, newest first, each with the state it met. -/
abbrev ChatsHistory (M : Type) := List (ChatsState M × ChatsEvent M)

/-- The messages for which the step's `try_send` returns `Ok`. -/
def accepts (x : ChatsState M × ChatsEvent M) : List (Int × M) :=
  match x.2, x.1.poll with
  | .poll, .sending chatId (.sending message) =>
    match x.1.dispatchers[chatId]? with
    | some worker => if x.1.sendResult chatId worker = .ok then [(chatId, message)] else []
    | none => []
  | .poll, .sending chatId (.resending worker message) =>
    if x.1.sendResult chatId worker = .ok then [(chatId, message)] else []
  | _, _ => []

/-- The message that the step starts to handle. -/
def handles (x : ChatsState M × ChatsEvent M) : List (Int × M) :=
  match x.2 with
  | .worker chatId i e => (((x.1.workers chatId)[i]?).elim [] (·.handles e)).map (chatId, ·)
  | _ => []

/-- The chat's own among the messages. -/
def ofChat (chatId : Int) (messages : List (Int × M)) : List M := messages.filterMap (share chatId)

/-- Of messages that are all tagged with this chat, the chat's part is all of them. -/
theorem ofChat_map (chatId : Int) (messages : List M) :
    ofChat chatId (messages.map (chatId, ·)) = messages := by
  rw [ofChat, List.filterMap_map, show (share chatId ∘ (chatId, ·)) = (some : M → Option M) from
    funext fun _ => share_self _ _, List.filterMap_some]

/-- Of messages that are all tagged with another chat, the chat's part is empty. -/
theorem ofChat_map_ne {c chatId : Int} (hc : c ≠ chatId) (messages : List M) :
    ofChat chatId (messages.map (c, ·)) = [] := by
  rw [ofChat, List.filterMap_map, List.filterMap_eq_nil_iff]
  exact fun _ _ => share_ne hc _

/-- The step registers the chat's worker. -/
def Registers (chatId : Int) (i : Nat) (x : ChatsState M × ChatsEvent M) : Prop :=
  match x.2, x.1.poll with
  | .poll, .sending c (.registering worker _) => c = chatId ∧ worker = i
  | .poll, .sending c (.reregistering worker _) => c = chatId ∧ worker = i
  | _, _ => False

section Run

variable {h : ChatsHistory M} {s : ChatsState M}

/-- In every state of a run, the listing that the loop works through agrees with the dispatchers. -/
theorem pollListed_run (p : Path chatsSys chatsStart h s) : s.PollListed s.poll := by
  refine p.invariant (I := fun s : ChatsState M => s.PollListed s.poll) ?_ fun _ _ _ hl hs => ?_
  · exact trivial
  · exact hl.step (ChatsState.steps_of_step hs)

/-- **A run of the dispatcher is, for each chat, a run of the chat's own system.** -/
theorem chat_run (p : Path chatsSys chatsStart h s) (chatId : Int) :
    Path chatSys ({} : DispatchState M) ((view chatId).history h) (s.chat chatId) := by
  have hstart : (view chatId).state (chatsStart : ChatsState M) = {} := by
    simp [view, ChatsState.chat, PollLoop.of]
  rw [← hstart]
  exact View.path (fun h s e s' q hs => ChatsState.follows (pollListed_run q)
    (ChatsState.steps_of_step hs)) p

/-- What the steps of the chats' own systems let through, chat by chat. -/
theorem log_view {f : DispatchState M × ChatEvent M → List M}
    {g : ChatsState M × ChatsEvent M → List (Int × M)}
    (hg : ∀ s e, g (s, e) = (s.event e).elim [] fun y => (f (s.chat y.1, y.2)).map (y.1, ·))
    (chatId : Int) : log f ((view chatId).history h) = ofChat chatId (log g h) := by
  refine View.log_history fun x => ?_
  obtain ⟨s, e⟩ := x
  rw [hg]
  show (View.see _ (s, e)).elim [] f = ofChat chatId _
  simp only [View.see, view]
  cases s.event e with
  | none => rfl
  | some y =>
    obtain ⟨c, ev⟩ := y
    rw [Option.elim_some, Option.bind_some]
    by_cases hc : c = chatId
    · subst hc
      rw [share_self, ofChat_map]
      rfl
    · rw [share_ne hc, ofChat_map_ne hc]
      rfl

/-- What a step of the whole system takes in is what the chat of its event takes in, under that chat's id. -/
theorem accepts_chat (s : ChatsState M) (e : ChatsEvent M) :
    accepts (s, e) = (s.event e).elim [] fun y => (chatAccepts (s.chat y.1, y.2)).map (y.1, ·) := by
  cases e with
  | poll =>
    cases hpoll : s.poll with
    | sending c p =>
      have hat : (s.chat c).poll = p :=
        (congrArg (PollLoop.of · c) hpoll).trans (ChatsState.of_sending p)
      cases p with
      | sending message =>
        simp only [accepts, hpoll, ChatsState.event, ChatsState.pollEvent, sendEvent, Option.map_some,
          Option.elim_some, chatAccepts, Tellm.accepts, DispatchState.target, hat,
          show (s.chat c).dispatcher = s.dispatchers[c]? from rfl]
        cases s.dispatchers[c]? with
        | none => rfl
        | some worker =>
          show (if s.sendResult c worker = .ok then _ else _) = _
          split
          · rename_i hok
            simp only [show (s.chat c).sendResult worker = .ok from hok, if_true, List.map_cons, List.map_nil]
          · rename_i hok
            simp only [show ¬ (s.chat c).sendResult worker = .ok from hok, if_false, List.map_nil]
      | resending worker message =>
        simp only [accepts, hpoll, ChatsState.event, ChatsState.pollEvent, sendEvent, Option.map_some,
          Option.elim_some, chatAccepts, Tellm.accepts, DispatchState.target, hat]
        show (if s.sendResult c worker = .ok then _ else _) = _
        split
        · rename_i hok
          simp only [show (s.chat c).sendResult worker = .ok from hok, if_true, List.map_cons, List.map_nil]
        · rename_i hok
          simp only [show ¬ (s.chat c).sendResult worker = .ok from hok, if_false, List.map_nil]
      | _ =>
        simp only [accepts, hpoll, ChatsState.event, ChatsState.pollEvent, sendEvent, Option.map_some,
          Option.map_none, Option.elim_some, Option.elim_none, chatAccepts, Tellm.accepts, List.map_nil]
    | retaining rest =>
      cases rest <;> simp [accepts, hpoll, ChatsState.event, ChatsState.pollEvent, chatAccepts, Tellm.accepts]
    | stopping stop rest handles =>
      cases rest <;> simp [accepts, hpoll, ChatsState.event, ChatsState.pollEvent, chatAccepts]
    | _ => simp [accepts, hpoll, ChatsState.event, ChatsState.pollEvent, chatAccepts, Tellm.accepts]
  | worker c i e =>
    simp only [accepts, ChatsState.event, Option.elim_some]
    split <;> rfl
  | _ => rfl

/-- What a step of the whole system handles is what the chat of its event handles, under that chat's id. -/
theorem handles_chat (s : ChatsState M) (e : ChatsEvent M) :
    handles (s, e) = (s.event e).elim [] fun y => (chatHandles (s.chat y.1, y.2)).map (y.1, ·) := by
  cases e with
  | poll =>
    cases hpoll : s.poll with
    | sending c p =>
      cases p <;> simp [handles, hpoll, ChatsState.event, ChatsState.pollEvent, sendEvent, chatHandles,
        Tellm.handles]
    | retaining rest =>
      cases rest <;> simp [handles, hpoll, ChatsState.event, ChatsState.pollEvent, chatHandles, Tellm.handles]
    | stopping stop rest handles =>
      cases rest <;> simp [Chats.handles, hpoll, ChatsState.event, ChatsState.pollEvent, chatHandles]
    | _ => simp [handles, hpoll, ChatsState.event, ChatsState.pollEvent, chatHandles, Tellm.handles]
  | worker c i e =>
    simp only [handles, ChatsState.event, Option.elim_some]
    split <;> rfl
  | _ => rfl

/-! ### Before the stop -/

/-- The stop is not left again. -/
theorem ChatsState.Steps.stops {s s' : ChatsState M} {e : ChatsEvent M} (hs : s.Steps e s')
    (hstops : s.poll.stops = true) : s'.poll.stops = true := by
  cases hs with
  | stopCancel => rfl
  | stopAbort => rfl
  | stopRemove => rfl
  | join => rfl
  | joined => rfl
  | stopped => rfl
  | worker => exact hstops
  | guard =>
    rw [poll_removeWorkerRegistration]
    exact hstops
  | cancelNone => exact hstops
  | cancel => exact hstops
  | reactivateNone => exact hstops
  | reactivate => exact hstops
  | startNotice => exact hstops
  | endNotice => exact hstops
  | _ hpoll =>
    rw [hpoll] at hstops
    cases hstops

/-- While the loop is not stopping workers, every event that a chat sees is one of the dispatch alone. -/
theorem event_dispatch {e : ChatsEvent M} {c : Int} {ev : ChatEvent M} (hstops : s.poll.stops = false)
    (hevent : s.event e = some (c, ev)) : ∃ e', ev = .dispatch e' := by
  cases e with
  | handleUpdate chatId message =>
    cases hevent
    exact ⟨_, rfl⟩
  | poll =>
    simp only [ChatsState.event, ChatsState.pollEvent] at hevent
    split at hevent
    · rename_i chatId p hpoll
      cases p <;> cases hevent <;> exact ⟨_, rfl⟩
    · cases hevent
      exact ⟨_, rfl⟩
    · cases hevent
      exact ⟨_, rfl⟩
    · rename_i hpoll
      rw [hpoll] at hstops
      cases hstops
    · cases hevent
  | worker chatId i e =>
    simp only [ChatsState.event, hstops] at hevent
    cases hevent
    exact ⟨_, rfl⟩
  | cancelChatWorker chatId abort =>
    cases hevent
    exact ⟨_, rfl⟩
  | reactivateChatWorker chatId =>
    cases hevent
    exact ⟨_, rfl⟩
  | _ => cases hevent

/-- Before the stop, a chat sees steps of its dispatch only. -/
theorem only_dispatch (p : Path chatsSys chatsStart h s) (chatId : Int) :
    s.poll.stops = false → ∀ y ∈ (view chatId).history h, ∃ e, y.2 = .dispatch e := by
  induction p with
  | start => exact fun _ y hy => absurd hy List.not_mem_nil
  | @step h s s' e p hs ih =>
    intro hstops' y hy
    have hstops : s.poll.stops = false := by
      rw [Bool.eq_false_iff]
      intro hstops
      cases hstops'.symm.trans ((ChatsState.steps_of_step hs).stops hstops)
    rw [View.history, List.filterMap_cons] at hy
    cases hsee : (view chatId).see (s, e) with
    | none =>
      rw [hsee] at hy
      exact ih hstops y hy
    | some z =>
      rw [hsee] at hy
      rcases List.mem_cons.mp hy with rfl | hy
      · obtain ⟨ev, hev, rfl⟩ := Option.map_eq_some_iff.mp hsee
        obtain ⟨⟨c, ev'⟩, hevent, hshare⟩ := Option.bind_eq_some_iff.mp hev
        obtain ⟨e', rfl⟩ := event_dispatch hstops hevent
        rw [share] at hshare
        split at hshare
        · exact ⟨e', (Option.some.inj hshare).symm⟩
        · cases hshare
      · exact ih hstops y hy

/-- The part of a chat's history that is its dispatch's. -/
def dispatches (h : List (DispatchState M × ChatEvent M)) : DispatchHistory M :=
  h.filterMap fun y =>
    match y.2 with
    | .dispatch e => some (y.1, e)
    | _ => none

/-- A run of one chat in which no worker is stopped is a run of the per-chat dispatch, with the same
    states. -/
theorem dispatch_run {d₀ d : DispatchState M} {h : List (DispatchState M × ChatEvent M)}
    (p : Path chatSys d₀ h d) :
    (∀ y ∈ h, ∃ e, y.2 = .dispatch e) → Path dispatchSys d₀ (dispatches h) d := by
  induction p with
  | start => exact fun _ => .start
  | @step h d d' ev p hs ih =>
    intro hall
    obtain ⟨e, rfl⟩ : ∃ e, ev = .dispatch e := hall _ List.mem_cons_self
    exact (ih fun y hy => hall y (List.mem_cons_of_mem _ hy)).step hs

/-- A registration is one in the chat's own dispatch. -/
theorem registers_dispatch {chatId : Int} {i : Nat} (hregisters : ∃ x ∈ h, Registers chatId i x) :
    ∃ y ∈ dispatches ((view chatId).history h), Tellm.Registers i y := by
  obtain ⟨⟨s, e⟩, hx, hregisters⟩ := hregisters
  rw [Registers] at hregisters
  have hmem : ∀ p : Poll M, s.poll = .sending chatId p →
      sendEvent s.nextWorkerId p = some (.dispatch .register) → e = .poll →
      (s.chat chatId, .register) ∈ dispatches ((view chatId).history h) := by
    rintro p hpoll hsend rfl
    refine List.mem_filterMap.mpr ⟨(s.chat chatId, .dispatch .register), ?_, rfl⟩
    refine View.mem_history.mpr ⟨_, hx, ?_⟩
    simp only [View.see, view, ChatsState.event, ChatsState.pollEvent, hpoll, hsend, Option.map_some,
      Option.bind_some, share_self]
  split at hregisters
  · rename_i c worker message he hpoll
    obtain ⟨rfl, rfl⟩ := hregisters
    refine ⟨_, hmem _ hpoll rfl he, ?_⟩
    simp only [Tellm.Registers, ChatsState.chat, show s.poll = _ from hpoll, ChatsState.of_sending]
  · rename_i c worker message he hpoll
    obtain ⟨rfl, rfl⟩ := hregisters
    refine ⟨_, hmem _ hpoll rfl he, ?_⟩
    simp only [Tellm.Registers, ChatsState.chat, show s.poll = _ from hpoll, ChatsState.of_sending]
  · exact hregisters.elim

/-! ### Full queues -/

/-- No channel holds more than it may. -/
def Bounded (d : DispatchState M) : Prop :=
  ∀ (i : Nat) (w : Worker M), d.workers[i]? = some w → w.queue.length ≤ chatQueueSize

/-- Replacing a worker by one whose queue respects the bound keeps the bound for all. -/
theorem Bounded.update {d : DispatchState M} {i : Nat} {f : Worker M → Worker M} (hb : Bounded d)
    (hf : ∀ w, d.workers[i]? = some w → (f w).queue.length ≤ chatQueueSize) : Bounded (d.update i f) := by
  intro j w' hw'
  obtain ⟨w, hw, rfl⟩ := DispatchState.getElem?_update hw'
  split
  · rename_i hij
    subst hij
    exact hf w hw
  · exact hb j w hw

/-- A message is put into a queue only where the send reports room, so the bound survives the push. -/
theorem Bounded.push {d : DispatchState M} {i : Nat} {message : M} (hb : Bounded d)
    (hresult : d.sendResult i = .ok) : Bounded (d.push i message) := by
  refine hb.update fun w hw => ?_
  rw [DispatchState.sendResult, hw, Option.elim_some, Worker.trySend] at hresult
  split at hresult
  · cases hresult
  · split at hresult
    · cases hresult
    · rw [List.length_append, List.length_singleton]
      omega

/-- A fresh worker starts with an empty queue. -/
theorem Bounded.spawn {d : DispatchState M} {workerId : UInt64} (hb : Bounded d) :
    Bounded (d.spawnChatWorker workerId) := by
  intro j w hw
  rcases getElem?_concat_cases hw with ⟨-, rfl⟩ | hold
  · exact Nat.zero_le _
  · exact hb j w hold

/-- No step of a worker makes its queue longer: only the dispatcher's send does. -/
theorem steps_queue {w w' : Worker M} {connected : Bool} {e : WorkerEvent} (hs : w.Steps connected e w') :
    w'.queue.length ≤ w.queue.length := by
  cases hs with
  | recv hphase hqueue =>
    rw [hqueue]
    exact Nat.le_succ _
  | _ => exact Nat.le_refl _

/-- A worker's own step keeps the bound, since it can only take from its queue. -/
theorem Bounded.worker {d : DispatchState M} {i : Nat} {w w' : Worker M} {connected : Bool} {e : WorkerEvent}
    (hb : Bounded d) (hw : d.workers[i]? = some w) (hs : w.Steps connected e w') :
    Bounded (d.update i fun _ => w') :=
  hb.update fun _ _ => (steps_queue hs).trans (hb i w hw)

/-- Every step of a chat's dispatch keeps every queue within the channel's capacity. -/
theorem Bounded.step {d d' : DispatchState M} {ev : ChatEvent M} (hb : Bounded d) (hs : ChatSteps d ev d') :
    Bounded d' := by
  cases hs with
  | dispatch hs =>
    cases hs with
    | spawn => exact hb.spawn
    | respawn => exact hb.spawn
    | sent hpoll hdispatcher hresult => exact hb.push hresult
    | resent hpoll hresult => exact hb.push hresult
    | worker hw hstep => exact hb.worker hw hstep
    | guard hw hstep => exact hb.worker hw hstep
    | cancel => exact hb.update fun w hw => hb _ w hw
    | reactivate => exact hb.update fun w hw => hb _ w hw
    | _ => exact hb
  | worker hw hstep => exact hb.worker hw hstep
  | guard hw hstep => exact hb.worker hw hstep
  | cancel => exact hb.update fun w hw => hb _ w hw
  | abort => exact hb.update fun w hw => hb _ w hw
  | remove => exact hb

/-- In every state of a run no queue of a chat holds more messages than the channel's capacity. -/
theorem bounded_run {d : DispatchState M} {h : List (DispatchState M × ChatEvent M)}
    (p : Path chatSys ({} : DispatchState M) h d) : Bounded d := by
  refine p.invariant (I := Bounded) ?_ fun _ _ _ hb hs => hb.step (chatSteps_of_step hs)
  intro i w hw
  cases (show ({} : DispatchState M).workers[i]? = none from rfl).symm.trans hw

/-! ### One handler for each chat -/

/-- What a run guarantees to every chat. -/
structure Served (h : ChatsHistory M) (s : ChatsState M) : Prop where
  /-- At most one of the chat's workers is handling a message. -/
  atMostOne : ∀ (c : Int) (i j : Nat) (v w : Worker M) (m n : M), (s.workers c)[i]? = some v →
    (s.workers c)[j]? = some w → v.phase = .handling m → w.phase = .handling n → i = j
  /-- The chat's messages are handled in the order in which they were accepted. -/
  inOrder : ∀ c, (ofChat c (log handles h)).Sublist (ofChat c (log accepts h))
  /-- No queue is longer than its channel. -/
  bounded : ∀ (c : Int) (i : Nat) (w : Worker M), (s.workers c)[i]? = some w →
    w.queue.length ≤ chatQueueSize
  /-- Until the stop, a deny finds the chat's worker, and it alone. -/
  found : ∀ (c : Int) (i : Nat) (w : Worker M), (∃ x ∈ h, Registers c i x) → s.poll.stops = false →
    (s.workers c)[i]? = some w → w.guardPending = true → s.registry[c]? = some i ∧
      ∀ abort s', chatsSys.step s (.cancelChatWorker c abort) = some s' →
        ((s'.workers c)[i]?).any (·.cancelled) = true ∧ ∀ c', c ≠ c' → s'.chat c' = s.chat c'

/-- **One ordered handler for every chat**, in every interleaving of the poll loop, all workers of all chats,
    and whoever denies or allows a chat, through the shutdown. -/
theorem chats_in_order (p : Path chatsSys chatsStart h s) : Served h s := by
  refine ⟨fun c i j v w m n hv hw hm hn => ?_, fun c => ?_, fun c i w hw => ?_,
    fun c i w hregisters hstops hw hpending => ?_⟩
  · have hi := (ChatInv.run (chat_run p c)).inv
    have hv' := hi.newest i v hv (by simp only [Worker.alive, hm])
    have hw' := hi.newest j w hw (by simp only [Worker.alive, hn])
    omega
  · rw [← log_view handles_chat, ← log_view accepts_chat]
    exact (List.sublist_append_left _ _).trans (chat_conserves.inOrder (chat_run p c))
  · exact bounded_run (chat_run p c) i w hw
  · have hrun := dispatch_run (chat_run p c) (only_dispatch p c hstops)
    have hregistry : s.registry[c]? = some i :=
      (registered hrun (registers_dispatch hregisters)).2 w hw hpending
    refine ⟨hregistry, fun abort s' hs => ?_⟩
    have hsteps : s.Steps (.cancelChatWorker c abort) s' := ChatsState.steps_of_step hs
    cases hsteps with
    | cancelNone hnone => cases hregistry.symm.trans hnone
    | cancel hsome =>
      cases hregistry.symm.trans hsome
      refine ⟨?_, fun c' hc => ChatsState.chat_update_ne hc _⟩
      show ((Function.update s.workers c _ c)[i]?).any _ = true
      simp only [Function.update_self, List.getElem?_modify, hw, if_true, Option.map_eq_map, Option.map_some,
        Option.any_some]

/-- A worker of one chat handles a message while another chat's is spawned. -/
theorem chats_in_order_two : ∃ (h : ChatsHistory String) (s : ChatsState String),
    Path chatsSys chatsStart h s ∧
      ((s.workers 7)[0]?).any (fun w => w.phase matches .handling "a") = true ∧ Served h s := by
  have hrun : (chatsSys.run (chatsStart : ChatsState String)
      [.handleUpdate 7 "a", .poll, .poll, .poll, .worker 7 0 .start, .handleUpdate (-3) "b", .poll,
        .worker 7 0 (.check true), .worker 7 0 .recv, .poll, .poll, .worker 7 0 (.check true),
        .retain]).any
      (fun s => ((s.workers 7)[0]?).any fun w => w.phase matches .handling "a") = true := by decide
  obtain ⟨h, s, p, hhandling⟩ := Sys.path_of_run_any _ hrun
  exact ⟨h, s, p, hhandling, chats_in_order p⟩

end Run

end Tellm.Chats
