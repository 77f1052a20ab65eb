/-
  ACCESS UNDER INTERLEAVING: the handlers as they really run, side by side.

  `Tellm.Handlers` runs each handler from start to end.  In the bot they run in different chat workers and
  in the poll loop, and share two locks: the config lock, held over an edit and its save, and the access
  lock, held for one call.  Only a deny nests the second in the first; an approval and a pairing take
  them one after the other, and what they do to live access can come late.

  A deny of another chat also ABORTS that chat's worker, and the worker may be in the middle of a handler
  of its own: its future is dropped where it is suspended, its locks are released, and whatever it had
  still to do to the other copy is never done.  Shutdown aborts every worker.

  1. **`accessRace`**: the handlers as tasks (`Tellm.Lib.Tasks`), one act per critical section; the place of
     a task is the worker that runs it, or the poll loop.  A handler run alone is the sequential one
     (`handler_is_solo_run`).
  2. **`lateGrant_outlives_deny`**: a chat is allowed, denied before the approval's live grant, and then
     granted: it stays live although the config has denied it.  **`abortedGrant_never_comes`** is the other
     way round: an aborted approval leaves a chat that the config allows and that is not live.
  3. **`OvertakenAt`** and **`CutShortAt`** say which steps come late in this sense, and which drops come too
     early; `access_agrees_when` that nothing else can go wrong: in a run without such a step, live access
     and config agree whenever nothing is in progress.  The invariant is `Excused`: they may disagree about
     a chat only while a grant or a pairing of it is pending, or a deny of it holds the config lock.

  A task's position is one of the points at which the source may be suspended or preempted: behind each
  `await`, and between the release of one lock and the taking of the other.  What happens under a lock is
  one act, so an act sees all of config and access and changes them at once.  `Acts` lists what an act can
  do, with its guards, and every invariant is proved by cases on it and never on the handlers.

  The invariant has three parts: the lock is held by the task that says so; a config that is being saved
  is the edit of the one its task would go back to; and where the two copies differ, somebody accounts for
  it.  The third is the one with content.  It is preserved by every act but those that `OvertakenAt`
  names, and by every drop but those that `CutShortAt` names, and for both there is a run in which it
  fails; that is the sense in which the two predicates are the whole story.

  Registering a worker and removing its registration are acts of their own, because a deny looks the
  worker up and cancels it between two of its other steps.  Message handling itself is not modelled here:
  of a worker, only the handlers that change access count.
-/
import Tellm.Restart
import Tellm.Lib.Tasks

namespace Tellm

open Runs Tasks

/-! ## The tasks -/

/-- What the handlers share: the config with the holder of its lock, live access, the registry of the
    workers by their chats, and the workers whose abort has been asked for. -/
structure AccessShared where
  config : Config
  configLock : Option Nat := none
  access : AccessControl
  workers : BTreeMap Int Nat := ∅
  aborted : List Nat := []

/-- How the save of the config turns out. -/
inductive SaveResult
  | ok
  | err
  deriving DecidableEq

/-- How a suspended task goes on: with what its save has returned, if it waits for one, or not at all. -/
inductive Resumed
  | resume (saved : SaveResult)
  | drop
  deriving DecidableEq

/-- A task's position: a handler that starts, or the step that comes next. -/
inductive AccessTask
  | handleMembershipChange (chatId : Int) (adder : Option Int) (now : AccessTime)
  | armRoom (chatId : Int) (now : AccessTime)
  | handleAllowChat (chatId : Int)
  | allowSaving (chatId : Int) (before : Config)
  | allowGrant (chatId : Int)
  | handleDenyChat (requesterChatId chatId : Int)
  | denyRevoke (requesterChatId chatId : Int) (before : Config) (result : DenyChatConfigResult)
  | denyCancel (requesterChatId chatId : Int) (before : Config) (result : DenyChatConfigResult)
      (wasAllowed : Bool)
  | denySaving (chatId : Int) (before : Config) (wasAllowed : Bool)
  | denyRestore (chatId : Int)
  | handlePairAttempt (chatId : Int) (code : String) (pairerUserId : Option Int) (now : AccessTime)
  | pairPersist (chatId : Int) (pairerUserId : Option Int)
  | pairSaving (chatId : Int) (pairerUserId : Option Int) (before : Config) (becameOwner : Bool)
  | pairRevoke (chatId : Int)
  | pairOwner (userId : Int)
  | spawnChatWorker (chatId : Int) (workerId : Nat)
  | removeWorkerRegistration (chatId : Int) (workerId : Nat)
  | stopChatWorkers (dispatchers : List (Int × Nat))

namespace AccessShared

/-- The registry part of `cancel_chat_worker`.  The cancellation flag that it also sets is read by the
    worker's loop, between two handlers. -/
def cancelChatWorker (s : AccessShared) (chatId : Int) (abort : Bool) : AccessShared :=
  { s with aborted := (if abort then (s.workers[chatId]?).toList else []) ++ s.aborted }

/-- `remove_worker_registration`, which the guard of a worker runs when the worker ends: only its own
    registration goes. -/
def removeWorkerRegistration (s : AccessShared) (chatId : Int) (workerId : Nat) : AccessShared :=
  if s.workers[chatId]? = some workerId then { s with workers := s.workers.erase chatId } else s

/-- What a dropped task holds is released. -/
def unlock (s : AccessShared) (holds : Bool) : AccessShared :=
  { s with configLock := if holds then none else s.configLock }

end AccessShared

namespace AccessTask

/-- Where a task begins: a handler, or a step of the dispatcher. -/
def entry : AccessTask → Bool
  | .handleMembershipChange _ _ _ => true
  | .handleAllowChat _ => true
  | .handleDenyChat _ _ => true
  | .handlePairAttempt _ _ _ _ => true
  | .spawnChatWorker _ _ => true
  | .removeWorkerRegistration _ _ => true
  | .stopChatWorkers _ => true
  | _ => false

/-- The positions inside the config lock. -/
def holds : AccessTask → Bool
  | .allowSaving _ _ => true
  | .denyRevoke _ _ _ _ => true
  | .denyCancel _ _ _ _ _ => true
  | .denySaving _ _ _ => true
  | .denyRestore _ => true
  | .pairSaving _ _ _ _ => true
  | _ => false

/-- The position is an await point.  Between the revocation and the abort there is none. -/
def suspended : AccessTask → Bool
  | .denyCancel _ _ _ _ _ => false
  | _ => true

/-- The position is not about who is allowed, but about the workers. -/
def registers : AccessTask → Bool
  | .spawnChatWorker _ _ => true
  | .removeWorkerRegistration _ _ => true
  | .stopChatWorkers _ => true
  | _ => false

/-- The config to go back to, while an edit is not saved. -/
def before : AccessTask → Option Config
  | .allowSaving _ before => some before
  | .denyRevoke _ _ before _ => some before
  | .denyCancel _ _ before _ _ => some before
  | .denySaving _ before _ => some before
  | .pairSaving _ _ before _ => some before
  | _ => none

/-- A live grant of the chat is pending. -/
def grants (chatId : Int) : AccessTask → Bool
  | .allowGrant d => d == chatId
  | _ => false

/-- A pairing of the chat has granted it, and is neither saved nor revoked yet. -/
def pairs (chatId : Int) : AccessTask → Bool
  | .pairPersist d _ => d == chatId
  | .pairSaving d _ _ _ => d == chatId
  | .pairRevoke d => d == chatId
  | _ => false

/-- A deny of the chat holds the config lock. -/
def denies (chatId : Int) : AccessTask → Bool
  | .denyRevoke _ d _ _ => d == chatId
  | .denyCancel _ d _ _ _ => d == chatId
  | .denySaving d _ _ => d == chatId
  | .denyRestore d => d == chatId
  | _ => false

/-- What a pairing does once it is saved. -/
def paired (pairerUserId : Option Int) (becameOwner : Bool) : Option AccessTask :=
  (pairerUserId.filter fun _ => becameOwner).map .pairOwner

/-- One critical section of the task that the worker `i` runs. -/
def resume (i : Nat) (t : AccessTask) (saved : SaveResult) (s : AccessShared) :
    Option (AccessShared × Option AccessTask) :=
  match t with
  | .handleMembershipChange chatId none now => some (s, some (.armRoom chatId now))
  | .handleMembershipChange chatId (some userId) now =>
    -- the owner check is a critical section of its own
    if s.configLock = none then
      if s.config.telegram.ownerUserIds.contains userId then
        some (s, some (.handleAllowChat chatId))
      else some (s, some (.armRoom chatId now))
    else none
  | .armRoom chatId now => some ({ s with access := (s.access.armRoom chatId now).1 }, none)
  | .handleAllowChat chatId =>
    if s.configLock = none then
      let (edited, changed) := allowChatInConfig s.config chatId
      if changed then
        some ({ s with config := edited, configLock := some i }, some (.allowSaving chatId s.config))
      else some ({ s with config := edited }, some (.allowGrant chatId))
    else none
  | .allowSaving chatId before =>
    match saved with
    | .ok => some ({ s with configLock := none }, some (.allowGrant chatId))
    | .err => some ({ s with config := before, configLock := none }, none)
  | .allowGrant chatId => some ({ s with access := s.access.allowChat chatId }, none)
  | .handleDenyChat requesterChatId chatId =>
    if s.configLock = none then
      let (edited, result) := denyChatInConfig s.config chatId
      some ({ s with config := edited, configLock := some i },
        some (.denyRevoke requesterChatId chatId s.config result))
    else none
  | .denyRevoke requesterChatId chatId before result =>
    some ({ s with access := s.access.denyChat chatId },
      some (.denyCancel requesterChatId chatId before result (s.access.isChatAllowed chatId)))
  | .denyCancel requesterChatId chatId before result wasAllowed =>
    let s := s.cancelChatWorker chatId (decide (chatId ≠ requesterChatId))
    if result.changed then some (s, some (.denySaving chatId before wasAllowed))
    else some ({ s with configLock := none }, none)
  | .denySaving chatId before wasAllowed =>
    match saved with
    | .ok => some ({ s with configLock := none }, none)
    | .err =>
      if wasAllowed then some ({ s with config := before }, some (.denyRestore chatId))
      else some ({ s with config := before, configLock := none }, none)
  | .denyRestore chatId =>
    some ({ s with access := s.access.allowChat chatId, configLock := none }, none)
  | .handlePairAttempt chatId code pairerUserId now =>
    let (access, attempt) := s.access.attemptPair chatId code now
    if attempt = .paired then
      some ({ s with access := access }, some (.pairPersist chatId pairerUserId))
    else some ({ s with access := access }, none)
  | .pairPersist chatId pairerUserId =>
    if s.configLock = none then
      let (edited, result) := pairChatInConfig s.config chatId pairerUserId
      if result.changed then
        some ({ s with config := edited, configLock := some i },
          some (.pairSaving chatId pairerUserId s.config result.becameOwner))
      else some ({ s with config := edited }, paired pairerUserId result.becameOwner)
    else none
  | .pairSaving chatId pairerUserId before becameOwner =>
    match saved with
    | .ok => some ({ s with configLock := none }, paired pairerUserId becameOwner)
    | .err => some ({ s with config := before, configLock := none }, some (.pairRevoke chatId))
  | .pairRevoke chatId => some ({ s with access := s.access.denyChat chatId }, none)
  | .pairOwner userId => some ({ s with access := s.access.addOwner userId }, none)
  | .spawnChatWorker chatId workerId =>
    some ({ s with workers := s.workers.insert chatId workerId }, none)
  | .removeWorkerRegistration chatId workerId =>
    some (s.removeWorkerRegistration chatId workerId, none)
  | .stopChatWorkers dispatchers =>
    some (dispatchers.foldl (fun s dispatcher =>
      ({ s with aborted := dispatcher.2 :: s.aborted }).removeWorkerRegistration dispatcher.1 dispatcher.2) s,
      none)

/-- What a suspended task does next.  Once the abort of its worker has been asked for it may be dropped
    instead: its guards are dropped with it, and the config stays as it is. -/
def act (i : Nat) (t : AccessTask) : Resumed → AccessShared → Option (AccessShared × Option AccessTask)
  | .resume saved, s => t.resume i saved s
  | .drop, s => if s.aborted.contains i && t.suspended then some (s.unlock t.holds, none) else none

end AccessTask

/-- The handlers and the dispatcher as a program over what they share. -/
def accessRace : Program AccessShared AccessTask Resumed := ⟨AccessTask.entry, AccessTask.act⟩

/-- The tasks in progress, with what they share. -/
abbrev AccessPool := Pool AccessShared AccessTask
/-- A task begins, goes on, or is dropped. -/
abbrev AccessMove := Move AccessTask Resumed

/-- The config's lock, with the positions that hold it. -/
def configLock : Lock AccessShared AccessTask := ⟨AccessShared.configLock, AccessTask.holds⟩

/-! ## Everything an act can do -/

/-- `Acts i s t saved s' next`: the task `i` at `t` acts in `s`; the shared state is then `s'` and the
    task's position `next`.  An edit that changes nothing leaves the config as it is. -/
inductive Acts (i : Nat) (s : AccessShared) :
    AccessTask → SaveResult → AccessShared → Option AccessTask → Prop
  | approve {chatId adder now saved} (hfree : s.configLock = none) :
      Acts i s (.handleMembershipChange chatId adder now) saved s (some (.handleAllowChat chatId))
  | arm {chatId adder now saved} :
      Acts i s (.handleMembershipChange chatId adder now) saved s (some (.armRoom chatId now))
  | armRoom {chatId now saved} :
      Acts i s (.armRoom chatId now) saved
        { s with access := (s.access.armRoom chatId now).1 } none
  | allowEdit {chatId saved} (hfree : s.configLock = none) :
      Acts i s (.handleAllowChat chatId) saved
        { s with config := (allowChatInConfig s.config chatId).1, configLock := some i }
        (some (.allowSaving chatId s.config))
  | allowKept {chatId saved} (hfree : s.configLock = none) (hallows : s.config.Allows chatId) :
      Acts i s (.handleAllowChat chatId) saved s (some (.allowGrant chatId))
  | allowSaved {chatId before} :
      Acts i s (.allowSaving chatId before) .ok { s with configLock := none }
        (some (.allowGrant chatId))
  | allowLost {chatId before} :
      Acts i s (.allowSaving chatId before) .err { s with config := before, configLock := none } none
  | grant {chatId saved} :
      Acts i s (.allowGrant chatId) saved { s with access := s.access.allowChat chatId } none
  | denyEdit {requesterChatId chatId saved} (hfree : s.configLock = none) :
      Acts i s (.handleDenyChat requesterChatId chatId) saved
        { s with config := (denyChatInConfig s.config chatId).1, configLock := some i }
        (some (.denyRevoke requesterChatId chatId s.config (denyChatInConfig s.config chatId).2))
  | revoke {requesterChatId chatId before result saved} :
      Acts i s (.denyRevoke requesterChatId chatId before result) saved
        { s with access := s.access.denyChat chatId }
        (some (.denyCancel requesterChatId chatId before result (s.access.isChatAllowed chatId)))
  | cancelSaving {requesterChatId chatId before result wasAllowed abort saved}
      (hchanged : result.changed = true) :
      Acts i s (.denyCancel requesterChatId chatId before result wasAllowed) saved
        (s.cancelChatWorker chatId abort) (some (.denySaving chatId before wasAllowed))
  | cancelDone {requesterChatId chatId before result wasAllowed abort saved}
      (hchanged : result.changed = false) :
      Acts i s (.denyCancel requesterChatId chatId before result wasAllowed) saved
        { s.cancelChatWorker chatId abort with configLock := none } none
  | denySaved {chatId before wasAllowed} :
      Acts i s (.denySaving chatId before wasAllowed) .ok { s with configLock := none } none
  | denyLost {chatId before} :
      Acts i s (.denySaving chatId before true) .err { s with config := before }
        (some (.denyRestore chatId))
  | denyLostUnallowed {chatId before} :
      Acts i s (.denySaving chatId before false) .err
        { s with config := before, configLock := none } none
  | restore {chatId saved} :
      Acts i s (.denyRestore chatId) saved
        { s with access := s.access.allowChat chatId, configLock := none } none
  | pairMatch {chatId code pairerUserId now saved}
      (hpaired : (s.access.attemptPair chatId code now).2 = .paired) :
      Acts i s (.handlePairAttempt chatId code pairerUserId now) saved
        { s with access := (s.access.attemptPair chatId code now).1 }
        (some (.pairPersist chatId pairerUserId))
  | pairMiss {chatId code pairerUserId now saved}
      (hmiss : (s.access.attemptPair chatId code now).2 ≠ .paired) :
      Acts i s (.handlePairAttempt chatId code pairerUserId now) saved
        { s with access := (s.access.attemptPair chatId code now).1 } none
  | pairEdit {chatId pairerUserId becameOwner saved} (hfree : s.configLock = none) :
      Acts i s (.pairPersist chatId pairerUserId) saved
        { s with
          config := (pairChatInConfig s.config chatId pairerUserId).1
          configLock := some i }
        (some (.pairSaving chatId pairerUserId s.config becameOwner))
  | pairKept {chatId pairerUserId becameOwner saved} (hfree : s.configLock = none)
      (hallows : s.config.Allows chatId) :
      Acts i s (.pairPersist chatId pairerUserId) saved s (AccessTask.paired pairerUserId becameOwner)
  | pairSaved {chatId pairerUserId before becameOwner} :
      Acts i s (.pairSaving chatId pairerUserId before becameOwner) .ok { s with configLock := none }
        (AccessTask.paired pairerUserId becameOwner)
  | pairLost {chatId pairerUserId before becameOwner} :
      Acts i s (.pairSaving chatId pairerUserId before becameOwner) .err
        { s with config := before, configLock := none } (some (.pairRevoke chatId))
  | pairRevoke {chatId saved} :
      Acts i s (.pairRevoke chatId) saved { s with access := s.access.denyChat chatId } none
  | pairOwner {userId saved} :
      Acts i s (.pairOwner userId) saved { s with access := s.access.addOwner userId } none
  /-- The registry of the workers has nothing to do with who is allowed. -/
  | workers {t saved s'} (hregisters : t.registers = true)
      (hframe : s'.config = s.config ∧ s'.configLock = s.configLock ∧ s'.access = s.access) :
      Acts i s t saved s' none

/-- A task that is only about to register its worker has no part in the access: it holds no lock, and denies,
    grants and pairs nothing. -/
theorem idle_of_registers {t : AccessTask} (h : t.registers = true) :
    t.holds = false ∧ ∀ d, t.denies d = false ∧ t.grants d = false ∧ t.pairs d = false := by
  cases t <;> first | exact ⟨rfl, fun _ => ⟨rfl, rfl, rfl⟩⟩ | cases h

/-- Removing a registration leaves config, config lock and live access alone. -/
theorem removeWorkerRegistration_frame (s : AccessShared) (chatId : Int) (workerId : Nat) :
    (s.removeWorkerRegistration chatId workerId).config = s.config ∧
      (s.removeWorkerRegistration chatId workerId).configLock = s.configLock ∧
      (s.removeWorkerRegistration chatId workerId).access = s.access := by
  unfold AccessShared.removeWorkerRegistration
  split <;> exact ⟨rfl, rfl, rfl⟩

/-- So does stopping all the workers of a revoked chat. -/
theorem stopChatWorkers_frame (dispatchers : List (Int × Nat)) (s : AccessShared) :
    let stopped := dispatchers.foldl (fun s dispatcher =>
      ({ s with aborted := dispatcher.2 :: s.aborted }).removeWorkerRegistration dispatcher.1 dispatcher.2) s
    stopped.config = s.config ∧ stopped.configLock = s.configLock ∧ stopped.access = s.access := by
  induction dispatchers generalizing s with
  | nil => exact ⟨rfl, rfl, rfl⟩
  | cons dispatcher dispatchers ih =>
    obtain ⟨hconfig, hlock, haccess⟩ := removeWorkerRegistration_frame
      { s with aborted := dispatcher.2 :: s.aborted } dispatcher.1 dispatcher.2
    obtain ⟨hconfig', hlock', haccess'⟩ := ih (({ s with
      aborted := dispatcher.2 :: s.aborted }).removeWorkerRegistration dispatcher.1 dispatcher.2)
    exact ⟨hconfig'.trans hconfig, hlock'.trans hlock, haccess'.trans haccess⟩

/-- Whatever a task does when it is resumed is one of the acts listed. -/
theorem acts_of_resume {i : Nat} {t : AccessTask} {saved : SaveResult} {s : AccessShared}
    {r : AccessShared × Option AccessTask} (h : t.resume i saved s = some r) :
    Acts i s t saved r.1 r.2 := by
  -- one case for each point at which a handler is suspended
  cases t with
  | handleMembershipChange chatId adder now =>
    cases adder with
    | none =>
      obtain rfl := Option.some.inj h
      exact .arm
    | some userId =>
      obtain ⟨hfree, h⟩ := Option.ite_none_right_eq_some.mp h
      split at h
      · obtain rfl := Option.some.inj h
        exact .approve hfree
      · obtain rfl := Option.some.inj h
        exact .arm
  | armRoom chatId now =>
    obtain rfl := Option.some.inj h
    exact .armRoom
  | handleAllowChat chatId =>
    simp only [AccessTask.resume] at h
    obtain ⟨hfree, h⟩ := Option.ite_none_right_eq_some.mp h
    split at h
    · obtain rfl := Option.some.inj h
      exact .allowEdit hfree
    · rename_i hchanged
      obtain ⟨hsame, hallows⟩ := allowChat_unchanged (Bool.eq_false_of_not_eq_true hchanged)
      obtain rfl := Option.some.inj h
      dsimp only
      rw [hsame]
      exact .allowKept hfree hallows
  | allowSaving chatId before =>
    cases saved with
    | ok =>
      obtain rfl := Option.some.inj h
      exact .allowSaved
    | err =>
      obtain rfl := Option.some.inj h
      exact .allowLost
  | allowGrant chatId =>
    obtain rfl := Option.some.inj h
    exact .grant
  | handleDenyChat requesterChatId chatId =>
    simp only [AccessTask.resume] at h
    obtain ⟨hfree, h⟩ := Option.ite_none_right_eq_some.mp h
    obtain rfl := Option.some.inj h
    exact .denyEdit hfree
  | denyRevoke requesterChatId chatId before result =>
    obtain rfl := Option.some.inj h
    exact .revoke
  | denyCancel requesterChatId chatId before result wasAllowed =>
    simp only [AccessTask.resume] at h
    split at h
    · rename_i hchanged
      obtain rfl := Option.some.inj h
      exact .cancelSaving hchanged
    · rename_i hchanged
      obtain rfl := Option.some.inj h
      exact .cancelDone (Bool.eq_false_of_not_eq_true hchanged)
  | denySaving chatId before wasAllowed =>
    cases saved with
    | ok =>
      obtain rfl := Option.some.inj h
      exact .denySaved
    | err =>
      cases wasAllowed with
      | true =>
        obtain rfl := Option.some.inj h
        exact .denyLost
      | false =>
        obtain rfl := Option.some.inj h
        exact .denyLostUnallowed
  | denyRestore chatId =>
    obtain rfl := Option.some.inj h
    exact .restore
  | handlePairAttempt chatId code pairerUserId now =>
    simp only [AccessTask.resume] at h
    split at h
    · rename_i hpaired
      obtain rfl := Option.some.inj h
      exact .pairMatch hpaired
    · rename_i hmiss
      obtain rfl := Option.some.inj h
      exact .pairMiss hmiss
  | pairPersist chatId pairerUserId =>
    simp only [AccessTask.resume] at h
    obtain ⟨hfree, h⟩ := Option.ite_none_right_eq_some.mp h
    split at h
    · obtain rfl := Option.some.inj h
      exact .pairEdit hfree
    · rename_i hchanged
      obtain ⟨hsame, hallows⟩ := pairChat_unchanged (Bool.eq_false_of_not_eq_true hchanged)
      obtain rfl := Option.some.inj h
      dsimp only
      rw [hsame]
      exact .pairKept hfree hallows
  | pairSaving chatId pairerUserId before becameOwner =>
    cases saved with
    | ok =>
      obtain rfl := Option.some.inj h
      exact .pairSaved
    | err =>
      obtain rfl := Option.some.inj h
      exact .pairLost
  | pairRevoke chatId =>
    obtain rfl := Option.some.inj h
    exact .pairRevoke
  | pairOwner userId =>
    obtain rfl := Option.some.inj h
    exact .pairOwner
  | spawnChatWorker chatId workerId =>
    obtain rfl := Option.some.inj h
    exact .workers rfl ⟨rfl, rfl, rfl⟩
  | removeWorkerRegistration chatId workerId =>
    obtain rfl := Option.some.inj h
    exact .workers rfl (removeWorkerRegistration_frame s chatId workerId)
  | stopChatWorkers dispatchers =>
    obtain rfl := Option.some.inj h
    exact .workers rfl (stopChatWorkers_frame dispatchers s)

/-- A task is dropped where it is suspended: it releases its lock and ends. -/
theorem dropped_of_act {i : Nat} {t : AccessTask} {s : AccessShared} {r : AccessShared × Option AccessTask}
    (h : t.act i .drop s = some r) : t.suspended = true ∧ r = (s.unlock t.holds, none) := by
  obtain ⟨hdrop, hr⟩ := Option.ite_none_right_eq_some.mp h
  exact ⟨(Bool.and_eq_true_iff.mp hdrop).2, (Option.some.inj hr).symm⟩

/-- Once a pairing is saved its task has nothing left to do but to add an owner. -/
theorem paired_eq_some {pairerUserId : Option Int} {becameOwner : Bool} {t : AccessTask}
    (h : AccessTask.paired pairerUserId becameOwner = some t) : ∃ userId, t = .pairOwner userId := by
  obtain ⟨userId, -, rfl⟩ := Option.map_eq_some_iff.mp h
  exact ⟨userId, rfl⟩

/-- What comes behind a pairing that is done concerns no chat's access. -/
theorem any_paired (pairerUserId : Option Int) (becameOwner : Bool) {f : AccessTask → Bool}
    (hf : ∀ userId, f (.pairOwner userId) = false) :
    (AccessTask.paired pairerUserId becameOwner).any f = false := by
  cases h : AccessTask.paired pairerUserId becameOwner with
  | none => rfl
  | some t =>
    obtain ⟨userId, rfl⟩ := paired_eq_some h
    exact hf userId

/-- A task takes the config lock only where it is free, and gives up no other task's. -/
theorem Acts.respects {i : Nat} {t : AccessTask} {saved : SaveResult} {s s' : AccessShared}
    {next : Option AccessTask} (h : Acts i s t saved s' next) :
    configLock.Respects i t s (s', next) := by
  cases h with
  | allowEdit hfree => exact Or.inr (Or.inl ⟨hfree, rfl, rfl, rfl⟩)
  | denyEdit hfree => exact Or.inr (Or.inl ⟨hfree, rfl, rfl, rfl⟩)
  | pairEdit hfree => exact Or.inr (Or.inl ⟨hfree, rfl, rfl, rfl⟩)
  | allowSaved => exact Or.inr (Or.inr ⟨rfl, rfl, rfl⟩)
  | allowLost => exact Or.inr (Or.inr ⟨rfl, rfl, rfl⟩)
  | cancelDone => exact Or.inr (Or.inr ⟨rfl, rfl, rfl⟩)
  | denySaved => exact Or.inr (Or.inr ⟨rfl, rfl, rfl⟩)
  | denyLostUnallowed => exact Or.inr (Or.inr ⟨rfl, rfl, rfl⟩)
  | restore => exact Or.inr (Or.inr ⟨rfl, rfl, rfl⟩)
  | pairSaved => exact Or.inr (Or.inr ⟨rfl, rfl, any_paired _ _ fun _ => rfl⟩)
  | pairLost => exact Or.inr (Or.inr ⟨rfl, rfl, rfl⟩)
  | pairKept => exact Or.inl ⟨rfl, any_paired _ _ fun _ => rfl⟩
  | workers hregisters hframe => exact Or.inl ⟨hframe.2.1, (idle_of_registers hregisters).1.symm⟩
  | _ => exact Or.inl ⟨rfl, rfl⟩

/-- A dropped task leaves the lock alone, or releases it. -/
theorem respects_unlock (i : Nat) (t : AccessTask) (s : AccessShared) :
    configLock.Respects i t s (s.unlock t.holds, none) := by
  cases hholds : t.holds with
  | true => exact Or.inr (Or.inr ⟨hholds, rfl, rfl⟩)
  | false => exact Or.inl ⟨rfl, hholds.symm⟩

/-- So the config lock is a lock, in the sense of the library, for these tasks. -/
theorem guards_configLock : configLock.Guards accessRace where
  entry t he := by cases t <;> first | rfl | cases he
  act i t c s r h := by
    cases c with
    | resume saved => exact (acts_of_resume h).respects
    | drop =>
      obtain ⟨-, rfl⟩ := dropped_of_act h
      exact respects_unlock i t s

/-! ## The committed config -/

/-- The config as it stands once the transaction that holds the lock, if any, is undone. -/
def committed (p : AccessPool) : Config :=
  (p.shared.configLock.bind fun i => (p.tasks[i]?).bind AccessTask.before).getD p.shared.config

/-- The committed config allows the chat. -/
def Committed (p : AccessPool) (chatId : Int) : Prop := (committed p).Allows chatId

/-- The chat is live-allowed. -/
def Live (p : AccessPool) (chatId : Int) : Prop := chatId ∈ p.shared.access.allowedChatIds

/-- With the lock free, the committed config is the config. -/
theorem committed_free {p : AccessPool} (h : p.shared.configLock = none) :
    committed p = p.shared.config := by
  rw [committed, h]
  rfl

/-- While a task holds the lock it is the config that the task would go back to. -/
theorem committed_held {p : AccessPool} {i : Nat} {t : AccessTask}
    (h : p.shared.configLock = some i) (ht : p.tasks[i]? = some t) :
    committed p = t.before.getD p.shared.config := by
  rw [committed, h, Option.bind_some, ht, Option.bind_some]

/-- A step outside the config lock commits nothing. -/
theorem committed_outside {p : AccessPool} {j : Nat} {t : AccessTask} {s' : AccessShared}
    {next : Option AccessTask} (ha : configLock.Agrees p) (ht : p.tasks[j]? = some t)
    (hout : t.holds = false) (hlock : s'.configLock = p.shared.configLock)
    (hconfig : s'.config = p.shared.config) : committed (p.put s' j next) = committed p := by
  rw [committed, committed, Pool.shared_put, hlock, hconfig]
  cases hheld : p.shared.configLock with
  | none => rfl
  | some i =>
    have hij : j ≠ i := by
      rintro rfl
      obtain ⟨u, hu, hholds⟩ := ha.2 j hheld
      cases ht.symm.trans hu
      cases hout.symm.trans hholds
    rw [Option.bind_some, Option.bind_some, Pool.tasks_put, if_neg hij]

/-! ## The invariant -/

/-- The config is the edit of the one to go back to, by the position of the task that edited it. -/
def Edited (config : Config) : AccessTask → Prop
  | .allowSaving chatId before => config = (allowChatInConfig before chatId).1
  | .denyRevoke _ chatId before result =>
    config = (denyChatInConfig before chatId).1 ∧ result = (denyChatInConfig before chatId).2
  | .denyCancel _ chatId before result _ =>
    config = (denyChatInConfig before chatId).1 ∧ result = (denyChatInConfig before chatId).2
  | .denySaving chatId before _ => config = (denyChatInConfig before chatId).1 ∧ before.Allows chatId
  | .denyRestore chatId => config.Allows chatId
  | .pairSaving chatId pairerUserId before _ =>
    config = (pairChatInConfig before chatId pairerUserId).1
  | _ => True

/-- A task outside the lock says nothing about the config. -/
theorem edited_of_not_holds {config : Config} {t : AccessTask} (ht : t.holds = false) :
    Edited config t := by
  cases t <;> first | exact trivial | cases ht

/-- Live access and config agree about the chat, but for an operation in progress: a deny that holds the
    lock, a grant to come, a pairing to be saved or revoked. -/
def Excused (p : AccessPool) (chatId : Int) : Prop :=
  InProgress p (AccessTask.denies chatId) ∨
  ((Committed p chatId → Live p chatId ∨ InProgress p (AccessTask.grants chatId)) ∧
    (Live p chatId → Committed p chatId ∨ InProgress p (AccessTask.pairs chatId)))

/-- What holds after every step that is not overtaken: the lock is held by who says so, an edit that is being
    saved is the config's own, and where the copies differ somebody accounts for it. -/
structure AccessInv (p : AccessPool) : Prop where
  lock : configLock.Agrees p
  edited : ∀ (i : Nat) (t : AccessTask), p.tasks[i]? = some t → Edited p.shared.config t
  excused : ∀ chatId, Excused p chatId

/-- The step comes too late: what it does to one copy, another operation has overtaken on the other,
    and nothing in progress makes up for it.

    - A live grant: the config no longer allows the chat.
    - A saved pairing: the chat is no longer live.
    - A revoked pairing: the config allows the chat by now.
    - A deny that is saved, or has nothing to save: the chat is live again.
    - A deny that is not saved and had found the chat not live: the chat is still not live. -/
def OvertakenAt (p : AccessPool) : AccessTask → SaveResult → Prop
  | .allowGrant chatId, _ =>
    ¬ InProgress p (AccessTask.denies chatId) ∧ ¬ Committed p chatId ∧
      ¬ InProgress p (AccessTask.pairs chatId)
  | .pairSaving chatId _ _ _, .ok => ¬ Live p chatId ∧ ¬ InProgress p (AccessTask.grants chatId)
  | .pairRevoke chatId, _ =>
    ¬ InProgress p (AccessTask.denies chatId) ∧ Committed p chatId ∧
      ¬ InProgress p (AccessTask.grants chatId)
  | .denyCancel _ chatId _ result _, _ =>
    result.changed = false ∧ Live p chatId ∧ ¬ InProgress p (AccessTask.pairs chatId)
  | .denySaving chatId _ _, .ok => Live p chatId ∧ ¬ InProgress p (AccessTask.pairs chatId)
  | .denySaving chatId _ false, .err =>
    ¬ Live p chatId ∧ ¬ InProgress p (AccessTask.grants chatId)
  | _, _ => False

/-- The abort of the task `i` comes too early: what the task has done to one copy it has not done to the
    other, and nothing else in progress makes up for it.

    - An approval or a pairing whose edit is not saved, or a deny that was not saved and is to be undone:
      the config allows the chat, which is not live.
    - An approval whose edit is saved: the same.
    - A deny before its revocation, or while its edit is saved: the config denies the chat, which is live.
    - A pairing before its edit, or before its revocation: the same. -/
def CutShortAt (p : AccessPool) (i : Nat) : AccessTask → Prop
  | .allowSaving chatId _ => ¬ Live p chatId ∧ ¬ InProgress p (AccessTask.grants chatId)
  | .pairSaving chatId _ _ _ => ¬ Live p chatId ∧ ¬ InProgress p (AccessTask.grants chatId)
  | .denyRestore chatId => ¬ Live p chatId ∧ ¬ InProgress p (AccessTask.grants chatId)
  | .allowGrant chatId =>
    ¬ InProgress p (AccessTask.denies chatId) ∧ Committed p chatId ∧ ¬ Live p chatId ∧
      ¬ Others p i (AccessTask.grants chatId)
  | .denyRevoke _ chatId _ _ => Live p chatId ∧ ¬ InProgress p (AccessTask.pairs chatId)
  | .denySaving chatId _ _ => Live p chatId ∧ ¬ InProgress p (AccessTask.pairs chatId)
  | .pairPersist chatId _ =>
    ¬ InProgress p (AccessTask.denies chatId) ∧ Live p chatId ∧ ¬ Committed p chatId ∧
      ¬ Others p i (AccessTask.pairs chatId)
  | .pairRevoke chatId =>
    ¬ InProgress p (AccessTask.denies chatId) ∧ Live p chatId ∧ ¬ Committed p chatId ∧
      ¬ Others p i (AccessTask.pairs chatId)
  | _ => False

/-- A step of the pool that comes too late, or a drop that comes too early. -/
def Overtaken (p : AccessPool) : AccessMove → Prop
  | .spawn _ _ => False
  | .act i (.resume saved) => ∃ t, p.tasks[i]? = some t ∧ OvertakenAt p t saved
  | .act i .drop => ∃ t, p.tasks[i]? = some t ∧ CutShortAt p i t

instance (p : AccessPool) (chatId : Int) : Decidable (Committed p chatId) :=
  inferInstanceAs (Decidable ((committed p).Allows chatId))

instance (p : AccessPool) (chatId : Int) : Decidable (Live p chatId) :=
  inferInstanceAs (Decidable (chatId ∈ p.shared.access.allowedChatIds))

instance (p : AccessPool) (t : AccessTask) (saved : SaveResult) : Decidable (OvertakenAt p t saved) := by
  unfold OvertakenAt
  split <;> infer_instance

instance (p : AccessPool) (i : Nat) (t : AccessTask) : Decidable (CutShortAt p i t) := by
  unfold CutShortAt
  split <;> infer_instance

/-- Whether a task that is there is at a position of some kind. -/
instance decidableTask (o : Option AccessTask) (P : AccessTask → Prop) [DecidablePred P] :
    Decidable (∃ t, o = some t ∧ P t) :=
  match o with
  | none => isFalse fun h => by obtain ⟨t, ht, -⟩ := h; cases ht
  | some t =>
    decidable_of_iff (P t) ⟨fun h => ⟨t, rfl, h⟩, fun ⟨_, ht, h⟩ => Option.some.inj ht ▸ h⟩

instance (p : AccessPool) (m : AccessMove) : Decidable (Overtaken p m) :=
  match m with
  | .spawn _ _ => inferInstanceAs (Decidable False)
  | .act i (.resume saved) =>
    inferInstanceAs (Decidable (∃ t, p.tasks[i]? = some t ∧ OvertakenAt p t saved))
  | .act i .drop => inferInstanceAs (Decidable (∃ t, p.tasks[i]? = some t ∧ CutShortAt p i t))

section Step

variable {p : AccessPool} {j : Nat} {t : AccessTask} {s' : AccessShared} {next : Option AccessTask}

/-- A deny of another task is still in progress after the step. -/
theorem Excused.of_others {chatId : Int} (h : Others p j (AccessTask.denies chatId)) :
    Excused (p.put s' j next) chatId :=
  Or.inl (inProgress_put.mpr (Or.inl h))

/-- A step that changes neither copy, and leaves the task excusing what it excused. -/
theorem Excused.same {chatId : Int} (h : Excused p chatId) (ht : p.tasks[j]? = some t)
    (hcommitted : Committed (p.put s' j next) chatId ↔ Committed p chatId)
    (hlive : chatId ∈ s'.access.allowedChatIds ↔ Live p chatId)
    (hdenies : next.any (AccessTask.denies chatId) = t.denies chatId)
    (hgrants : next.any (AccessTask.grants chatId) = t.grants chatId)
    (hpairs : next.any (AccessTask.pairs chatId) = t.pairs chatId) :
    Excused (p.put s' j next) chatId := by
  have hsame : ∀ f : AccessTask → Bool, next.any f = f t →
      (InProgress (p.put s' j next) f ↔ InProgress p f) := by
    intro f hf
    rw [inProgress_put, hf, inProgress_iff, ht, Option.any_some]
  have hlive' : Live (p.put s' j next) chatId ↔ Live p chatId := hlive
  rw [Excused, hcommitted, hlive', hsame _ hdenies, hsame _ hgrants, hsame _ hpairs]
  exact h

/-- What is in progress, when the acting task is not. -/
theorem others_of_inProgress {f : AccessTask → Bool} (ht : p.tasks[j]? = some t) (hf : f t = false)
    (h : InProgress p f) : Others p j f := by
  rw [inProgress_iff, ht, Option.any_some, hf] at h
  exact h.resolve_right Bool.false_ne_true

/-- The step keeps the positions' edits: the task that holds the lock is the only one with an edit. -/
theorem Acts.edited {saved : SaveResult} (hi : AccessInv p) (ht : p.tasks[j]? = some t)
    (h : Acts j p.shared t saved s' next) :
    ∀ (i : Nat) (u : AccessTask), (p.put s' j next).tasks[i]? = some u → Edited s'.config u := by
  have hold := hi.edited j t ht
  -- the acting task: its own edit
  have hself : ∀ u, next = some u → Edited s'.config u := by
    intro u hu
    cases h with
    | allowEdit hfree =>
      cases hu
      rfl
    | denyEdit hfree =>
      cases hu
      exact ⟨rfl, rfl⟩
    | revoke =>
      cases hu
      exact hold
    | cancelSaving hchanged =>
      cases hu
      refine ⟨hold.1, ?_⟩
      rw [hold.2] at hchanged
      exact (changed_denyChat _ _).mp hchanged
    | denyLost =>
      cases hu
      exact hold.2
    | pairEdit hfree =>
      cases hu
      rfl
    | pairKept =>
      obtain ⟨userId, rfl⟩ := paired_eq_some hu
      exact trivial
    | pairSaved =>
      obtain ⟨userId, rfl⟩ := paired_eq_some hu
      exact trivial
    | _ => cases hu <;> trivial
  intro i u hu
  rw [Pool.tasks_put] at hu
  split at hu
  · exact hself u hu
  · rename_i hij
    -- another task: it holds no lock, or the config has not changed
    cases hholds : u.holds with
    | false => exact edited_of_not_holds hholds
    | true =>
      have hheld := hi.lock.1 i u hu hholds
      have hconfig : s'.config = p.shared.config := by
        have hout : t.holds = false := by
          rw [Bool.eq_false_iff]
          exact fun hholds' => hij (hi.lock.unique ht hu hholds' hholds)
        cases h with
        | allowEdit hfree => cases hfree.symm.trans hheld
        | denyEdit hfree => cases hfree.symm.trans hheld
        | pairEdit hfree => cases hfree.symm.trans hheld
        | workers hregisters hframe => exact hframe.1
        | _ => first | rfl | cases hout
      rw [hconfig]
      exact hi.edited i u hu

/-- A step outside the lock does not change which chats the committed config allows. -/
theorem committed_outside_iff {chatId : Int} (hi : AccessInv p) (ht : p.tasks[j]? = some t)
    (hout : t.holds = false) (hlock : s'.configLock = p.shared.configLock)
    (hconfig : s'.config = p.shared.config) :
    Committed (p.put s' j next) chatId ↔ Committed p chatId := by
  rw [Committed, committed_outside hi.lock ht hout hlock hconfig, Committed]

/-- A step that takes the lock, or keeps it, commits what it would go back to. -/
theorem committed_inside {config : Config} {u : AccessTask} (hlock : s'.configLock = some j)
    (hbefore : u.before.getD s'.config = config) :
    committed (p.put s' j (some u)) = config := by
  have htask : (p.put s' j (some u)).tasks[j]? = some u := by
    rw [Pool.tasks_put, if_pos rfl]
  rw [committed_held hlock htask]
  exact hbefore

/-- A step that releases the lock commits the config. -/
theorem committed_released (hlock : s'.configLock = none) :
    committed (p.put s' j next) = s'.config :=
  committed_free hlock

/-- While a task holds the lock, what is committed is what it would go back to. -/
theorem committed_before {before : Config} (hi : AccessInv p) (ht : p.tasks[j]? = some t)
    (hholds : t.holds = true) (hbefore : t.before = some before) : committed p = before := by
  rw [committed_held (hi.lock.1 j t ht hholds) ht, hbefore]
  rfl

/-! ### One act of each kind

In each lemma `d` is the chat that the act is about; about any other chat nothing changes. -/

section Kinds

variable {d chatId : Int} {before : Config} {pairerUserId : Option Int} {becameOwner : Bool}

/-- A pairing code that is accepted makes the chat live, with the pairing to be saved as the excuse. -/
theorem excused_pairMatch (hi : AccessInv p) {code : String} {now : AccessTime}
    (ht : p.tasks[j]? = some (.handlePairAttempt d code pairerUserId now))
    (hpaired : (p.shared.access.attemptPair d code now).2 = .paired) :
    Excused (p.put { p.shared with access := (p.shared.access.attemptPair d code now).1 } j
      (some (.pairPersist d pairerUserId))) chatId := by
  have hmem := (AccessControl.attemptPair_live p.shared.access d code now).2.1 chatId
  rw [hpaired, and_iff_left rfl] at hmem
  by_cases hd : d = chatId
  · -- the chat is live, and its pairing is in progress
    subst hd
    refine Or.inr ⟨fun _ => Or.inl (hmem.mpr (Or.inl rfl)), fun _ => Or.inr ?_⟩
    exact inProgress_put.mpr (Or.inr (beq_self_eq_true d))
  · rw [or_iff_right hd] at hmem
    have hpairs : (d == chatId) = false := beq_eq_false_iff_ne.mpr hd
    exact (hi.excused chatId).same ht (committed_outside_iff hi ht rfl rfl rfl) hmem rfl rfl hpairs

/-- `/allow` of a chat that is in the config already goes on to the grant, which is the excuse. -/
theorem excused_allowKept (hi : AccessInv p) (ht : p.tasks[j]? = some (.handleAllowChat d))
    (hfree : p.shared.configLock = none) (hallows : p.shared.config.Allows d) :
    Excused (p.put p.shared j (some (.allowGrant d))) chatId := by
  have hcommitted : Committed (p.put p.shared j (some (.allowGrant d))) chatId ↔
      Committed p chatId := committed_outside_iff hi ht rfl rfl rfl
  by_cases hd : d = chatId
  · -- the config allows the chat, and its grant is pending
    subst hd
    refine Or.inr ⟨fun _ => Or.inr (inProgress_put.mpr (Or.inr (beq_self_eq_true d))), fun _ => ?_⟩
    rw [hcommitted, Committed, committed_free hfree]
    exact Or.inl hallows
  · have hgrants : (d == chatId) = false := beq_eq_false_iff_ne.mpr hd
    exact (hi.excused chatId).same ht hcommitted Iff.rfl rfl hgrants rfl

/-- So it does after its save: the config allows the chat now, and the grant is to come. -/
theorem excused_allowSaved (hi : AccessInv p) (ht : p.tasks[j]? = some (.allowSaving d before)) :
    Excused (p.put { p.shared with configLock := none } j (some (.allowGrant d))) chatId := by
  have hbefore : committed p = before := committed_held (hi.lock.1 j _ ht rfl) ht
  have hafter : Committed (p.put { p.shared with configLock := none } j
      (some (.allowGrant d))) chatId ↔ before.Allows chatId ∨ chatId = d := by
    rw [Committed, committed_released rfl, ← allows_allowChat]
    exact iff_of_eq (congrArg (Config.Allows · chatId) (hi.edited j _ ht))
  by_cases hd : d = chatId
  · -- the config allows the chat, and its grant is pending
    subst hd
    refine Or.inr ⟨fun _ => Or.inr (inProgress_put.mpr (Or.inr (beq_self_eq_true d))), fun _ => ?_⟩
    exact Or.inl (hafter.mpr (Or.inr rfl))
  · have hgrants : (d == chatId) = false := beq_eq_false_iff_ne.mpr hd
    refine (hi.excused chatId).same ht ?_ Iff.rfl rfl hgrants rfl
    rw [hafter, Committed, hbefore, or_iff_left fun h => hd h.symm]

/-- A grant that is not overtaken makes live a chat that the config allows. -/
theorem excused_grant (hi : AccessInv p) (ht : p.tasks[j]? = some (.allowGrant d))
    (hothers : ¬ Others p j (AccessTask.denies chatId))
    (hno : ¬ OvertakenAt p (.allowGrant d) .ok) :
    Excused (p.put { p.shared with access := p.shared.access.allowChat d } j none) chatId := by
  have hcommitted : Committed (p.put { p.shared with access := p.shared.access.allowChat d } j none)
      chatId ↔ Committed p chatId := committed_outside_iff hi ht rfl rfl rfl
  by_cases hd : d = chatId
  · -- not overtaken: the config allows the chat, or a pairing of it is in progress
    subst hd
    refine Or.inr ⟨fun _ => Or.inl (AccessControl.mem_allowChat.mpr (Or.inl rfl)), fun _ => ?_⟩
    rw [hcommitted]
    by_cases hc : Committed p d
    · exact Or.inl hc
    · refine Or.inr (inProgress_put.mpr (Or.inl ?_))
      by_contra hpairs
      exact hno ⟨fun h => hothers (others_of_inProgress ht rfl h), hc,
        fun h => hpairs (others_of_inProgress ht rfl h)⟩
  · have hgrants : (d == chatId) = false := beq_eq_false_iff_ne.mpr hd
    refine (hi.excused chatId).same ht hcommitted ?_ rfl hgrants.symm rfl
    rw [AccessControl.mem_allowChat, or_iff_right hd, Live]

/-- A deny goes on inside the lock: it would still go back to the same config, and changes live access
    about its own chat only. -/
theorem excused_denying (hi : AccessInv p) {u : AccessTask} (ht : p.tasks[j]? = some t)
    (hholds : t.holds = true) (hbefore : t.before = some before)
    (hlock : s'.configLock = p.shared.configLock) (hafter : u.before.getD s'.config = before)
    (hlive : d ≠ chatId → (chatId ∈ s'.access.allowedChatIds ↔ Live p chatId))
    (hdenies : u.denies chatId = (d == chatId)) (hsame : u.denies chatId = t.denies chatId)
    (hgrants : u.grants chatId = t.grants chatId) (hpairs : u.pairs chatId = t.pairs chatId) :
    Excused (p.put s' j (some u)) chatId := by
  by_cases hd : d = chatId
  · exact Or.inl (inProgress_put.mpr (Or.inr (hdenies.trans (beq_iff_eq.mpr hd))))
  · have hheld : s'.configLock = some j := hlock.trans (hi.lock.1 j t ht hholds)
    refine (hi.excused chatId).same ht ?_ (hlive hd) hsame hgrants hpairs
    rw [Committed, committed_inside hheld hafter, Committed, committed_before hi ht hholds hbefore]

/-- The lock is released with the chat allowed: it is live, or a grant of it is pending. -/
theorem excused_allowed (hi : AccessInv p) (ht : p.tasks[j]? = some t) (hlock : s'.configLock = none)
    (haccess : s'.access = p.shared.access)
    (hallows : s'.config.Allows chatId ↔ Committed p chatId ∨ chatId = d)
    (hother : d ≠ chatId → t.denies chatId = false ∧ t.grants chatId = false ∧ t.pairs chatId = false)
    (hnext : ∀ f, (∀ userId, f (.pairOwner userId) = false) → next.any f = false)
    (hgrants : t.grants d = false) (hno : ¬ (¬ Live p d ∧ ¬ InProgress p (AccessTask.grants d))) :
    Excused (p.put s' j next) chatId := by
  have hafter : Committed (p.put s' j next) chatId ↔ Committed p chatId ∨ chatId = d := by
    rw [Committed, committed_released hlock]
    exact hallows
  have hlive : chatId ∈ s'.access.allowedChatIds ↔ Live p chatId := by rw [haccess, Live]
  by_cases hd : d = chatId
  · subst hd
    refine Or.inr ⟨fun _ => ?_, fun _ => Or.inl (hafter.mpr (Or.inr rfl))⟩
    by_cases hl : Live p d
    · exact Or.inl (hlive.mpr hl)
    · refine Or.inr (inProgress_put.mpr (Or.inl ?_))
      by_contra hpending
      exact hno ⟨hl, fun h => hpending (others_of_inProgress ht hgrants h)⟩
  · obtain ⟨hd1, hd2, hd3⟩ := hother hd
    refine (hi.excused chatId).same ht ?_ hlive ((hnext _ fun _ => rfl).trans hd1.symm)
      ((hnext _ fun _ => rfl).trans hd2.symm) ((hnext _ fun _ => rfl).trans hd3.symm)
    rw [hafter, or_iff_left fun h => hd h.symm]

/-- The lock is released with the chat denied: it is not live, or a pairing of it is in progress. -/
theorem excused_denied (hi : AccessInv p) (ht : p.tasks[j]? = some t) (hlock : s'.configLock = none)
    (haccess : s'.access = p.shared.access)
    (hallows : s'.config.Allows chatId ↔ Committed p chatId ∧ chatId ≠ d)
    (hother : d ≠ chatId → t.denies chatId = false)
    (hidle : ∀ c, t.grants c = false ∧ t.pairs c = false)
    (hno : ¬ (Live p d ∧ ¬ InProgress p (AccessTask.pairs d))) :
    Excused (p.put s' j none) chatId := by
  have hafter : Committed (p.put s' j none) chatId ↔ Committed p chatId ∧ chatId ≠ d := by
    rw [Committed, committed_released hlock]
    exact hallows
  have hlive : chatId ∈ s'.access.allowedChatIds ↔ Live p chatId := by rw [haccess, Live]
  by_cases hd : d = chatId
  · subst hd
    refine Or.inr ⟨fun hc => absurd rfl (hafter.mp hc).2, fun hl => Or.inr ?_⟩
    by_contra hpairs
    refine hno ⟨hlive.mp hl, fun h => hpairs (inProgress_put.mpr (Or.inl ?_))⟩
    exact others_of_inProgress ht (hidle d).2 h
  · refine (hi.excused chatId).same ht ?_ hlive (hother hd).symm (hidle chatId).1.symm
      (hidle chatId).2.symm
    rw [hafter, and_iff_left fun h => hd h.symm]

/-- What an approval, a pairing and a deny have edited, while they hold the lock. -/
theorem allows_of_allowSaving (hi : AccessInv p) (ht : p.tasks[j]? = some (.allowSaving d before)) :
    p.shared.config.Allows chatId ↔ Committed p chatId ∨ chatId = d := by
  rw [Committed, committed_before hi ht rfl rfl, ← allows_allowChat]
  exact iff_of_eq (congrArg (Config.Allows · chatId) (hi.edited j _ ht))

/-- While a pairing is saved, the config allows its chat and those of the committed one. -/
theorem allows_of_pairSaving (hi : AccessInv p)
    (ht : p.tasks[j]? = some (.pairSaving d pairerUserId before becameOwner)) :
    p.shared.config.Allows chatId ↔ Committed p chatId ∨ chatId = d := by
  rw [Committed, committed_before hi ht rfl rfl, ← allows_pairChat before d pairerUserId]
  exact iff_of_eq (congrArg (Config.Allows · chatId) (hi.edited j _ ht))

/-- While a deny holds the lock, the config allows those of the committed one but its chat. -/
theorem allows_of_denying (hi : AccessInv p) (ht : p.tasks[j]? = some t) (hholds : t.holds = true)
    (hbefore : t.before = some before) (hedited : p.shared.config = (denyChatInConfig before d).1) :
    p.shared.config.Allows chatId ↔ Committed p chatId ∧ chatId ≠ d := by
  rw [Committed, committed_before hi ht hholds hbefore, ← allows_denyChat, ← hedited]

/-- A deny that is not saved puts back a config that allows the chat. -/
theorem allows_of_restored (hcommitted : committed p = before) (hallows : before.Allows d) :
    before.Allows chatId ↔ Committed p chatId ∨ chatId = d := by
  rw [Committed, hcommitted]
  refine ⟨Or.inl, ?_⟩
  rintro (h | rfl)
  · exact h
  · exact hallows

/-- A deny that is undone makes the chat live again, and goes back to a config that allows it. -/
theorem excused_restore (hi : AccessInv p) (ht : p.tasks[j]? = some (.denyRestore d)) :
    Excused (p.put { p.shared with access := p.shared.access.allowChat d, configLock := none } j none)
      chatId := by
  have hbefore : committed p = p.shared.config := committed_held (hi.lock.1 j _ ht rfl) ht
  have hafter : Committed (p.put { p.shared with
      access := p.shared.access.allowChat d, configLock := none } j none) chatId ↔
      p.shared.config.Allows chatId := by
    rw [Committed, committed_released rfl]
  by_cases hd : d = chatId
  · -- both copies allow the chat
    subst hd
    exact Or.inr ⟨fun _ => Or.inl (AccessControl.mem_allowChat.mpr (Or.inl rfl)),
      fun _ => Or.inl (hafter.mpr (hi.edited j _ ht))⟩
  · have hdenies : (d == chatId) = false := beq_eq_false_iff_ne.mpr hd
    refine (hi.excused chatId).same ht ?_ ?_ hdenies.symm rfl rfl
    · rw [hafter, Committed, hbefore]
    · rw [AccessControl.mem_allowChat, or_iff_right hd, Live]

/-- A pairing of a chat that is in the config already needs no save. -/
theorem excused_pairKept (hi : AccessInv p) (ht : p.tasks[j]? = some (.pairPersist d pairerUserId))
    (hothers : ¬ Others p j (AccessTask.denies chatId)) (hfree : p.shared.configLock = none)
    (hallows : p.shared.config.Allows d) :
    Excused (p.put p.shared j (AccessTask.paired pairerUserId becameOwner)) chatId := by
  have hcommitted : Committed (p.put p.shared j (AccessTask.paired pairerUserId becameOwner))
      chatId ↔ Committed p chatId := committed_outside_iff hi ht rfl rfl rfl
  by_cases hd : d = chatId
  · -- the config allows the chat already, so only the live side is in question
    subst hd
    have hc : Committed p d := by
      rw [Committed, committed_free hfree]
      exact hallows
    have hagrees := (hi.excused d).resolve_left fun h => hothers (others_of_inProgress ht rfl h)
    refine Or.inr ⟨fun _ => ?_, fun _ => Or.inl (hcommitted.mpr hc)⟩
    rcases hagrees.1 hc with hl | hgrants
    · exact Or.inl hl
    · exact Or.inr (inProgress_put.mpr (Or.inl (others_of_inProgress ht rfl hgrants)))
  · have hpairs : (d == chatId) = false := beq_eq_false_iff_ne.mpr hd
    exact (hi.excused chatId).same ht hcommitted Iff.rfl (any_paired _ _ fun _ => rfl)
      (any_paired _ _ fun _ => rfl) ((any_paired _ _ fun _ => rfl).trans hpairs.symm)

/-- A pairing that could not be saved is revoked; unless it is overtaken, the config does not allow the
    chat. -/
theorem excused_pairRevoke (hi : AccessInv p) (ht : p.tasks[j]? = some (.pairRevoke d))
    (hothers : ¬ Others p j (AccessTask.denies chatId))
    (hno : ¬ OvertakenAt p (.pairRevoke d) .ok) :
    Excused (p.put { p.shared with access := p.shared.access.denyChat d } j none) chatId := by
  have hcommitted : Committed (p.put { p.shared with access := p.shared.access.denyChat d } j none)
      chatId ↔ Committed p chatId := committed_outside_iff hi ht rfl rfl rfl
  by_cases hd : d = chatId
  · -- not overtaken: the config does not allow the chat, or a grant of it is pending
    subst hd
    refine Or.inr ⟨fun hc => Or.inr (inProgress_put.mpr (Or.inl ?_)), fun hl => ?_⟩
    · by_contra hgrants
      exact hno ⟨fun h => hothers (others_of_inProgress ht rfl h), hcommitted.mp hc,
        fun h => hgrants (others_of_inProgress ht rfl h)⟩
    · exact absurd rfl (AccessControl.mem_denyChat.mp hl).1
  · have hpairs : (d == chatId) = false := beq_eq_false_iff_ne.mpr hd
    refine (hi.excused chatId).same ht hcommitted ?_ rfl rfl hpairs.symm
    rw [AccessControl.mem_denyChat, and_iff_right hd, Live]

/-- An edit that takes the lock commits nothing yet. -/
theorem excused_edit (hi : AccessInv p) {config : Config} {u : AccessTask}
    (ht : p.tasks[j]? = some t) (hfree : p.shared.configLock = none)
    (hbefore : u.before = some p.shared.config) (hdenies : u.denies chatId = t.denies chatId)
    (hgrants : u.grants chatId = t.grants chatId) (hpairs : u.pairs chatId = t.pairs chatId) :
    Excused (p.put { p.shared with config := config, configLock := some j } j (some u)) chatId := by
  have hcommitted : committed (p.put { p.shared with config := config, configLock := some j } j
      (some u)) = committed p := by
    rw [committed_free hfree]
    exact committed_inside rfl (by rw [hbefore]; rfl)
  refine (hi.excused chatId).same ht ?_ Iff.rfl hdenies hgrants hpairs
  rw [Committed, hcommitted, Committed]

/-- An edit that is undone has committed nothing. -/
theorem excused_undo (hi : AccessInv p) {o : Option AccessTask} (ht : p.tasks[j]? = some t)
    (hholds : t.holds = true) (hbefore : t.before = some before)
    (hdenies : o.any (AccessTask.denies chatId) = t.denies chatId)
    (hgrants : o.any (AccessTask.grants chatId) = t.grants chatId)
    (hpairs : o.any (AccessTask.pairs chatId) = t.pairs chatId) :
    Excused (p.put { p.shared with config := before, configLock := none } j o) chatId := by
  have hcommitted : committed p = before := by
    rw [committed_held (hi.lock.1 j t ht hholds) ht, hbefore]
    rfl
  refine (hi.excused chatId).same ht ?_ Iff.rfl hdenies hgrants hpairs
  rw [Committed, committed_released rfl, Committed, hcommitted]

end Kinds

/-- **One act.**  Unless it is overtaken, it leaves live access and config excused about every chat. -/
theorem Acts.excused {saved : SaveResult} (hi : AccessInv p) (ht : p.tasks[j]? = some t)
    (h : Acts j p.shared t saved s' next) (hno : ¬ OvertakenAt p t saved) (chatId : Int) :
    Excused (p.put s' j next) chatId := by
  have hexc := hi.excused chatId
  -- a deny of another task keeps the excuse
  by_cases hothers : Others p j (AccessTask.denies chatId)
  · exact .of_others hothers
  cases h with
  | approve hfree =>
    exact hexc.same ht (committed_outside_iff hi ht rfl rfl rfl) Iff.rfl rfl rfl rfl
  | arm =>
    exact hexc.same ht (committed_outside_iff hi ht rfl rfl rfl) Iff.rfl rfl rfl rfl
  | @armRoom d now =>
    have hlive : chatId ∈ (p.shared.access.armRoom d now).1.allowedChatIds ↔ Live p chatId := by
      rw [(AccessControl.armRoom_frame p.shared.access d now).1, Live]
    exact hexc.same ht (committed_outside_iff hi ht rfl rfl rfl) hlive rfl rfl rfl
  | allowEdit hfree => exact excused_edit hi ht hfree rfl rfl rfl rfl
  | allowKept hfree hallows => exact excused_allowKept hi ht hfree hallows
  | allowSaved => exact excused_allowSaved hi ht
  | allowLost => exact excused_undo hi ht rfl rfl rfl rfl rfl
  | grant => exact excused_grant hi ht hothers hno
  | @denyEdit requesterChatId d saved hfree =>
    by_cases hd : d = chatId
    · exact Or.inl (inProgress_put.mpr (Or.inr (beq_iff_eq.mpr hd)))
    · exact excused_edit hi ht hfree rfl (beq_eq_false_iff_ne.mpr hd) rfl rfl
  | revoke =>
    refine excused_denying hi ht rfl rfl rfl rfl (fun hd => ?_) rfl rfl rfl rfl
    rw [AccessControl.mem_denyChat, and_iff_right hd, Live]
  | cancelSaving => exact excused_denying hi ht rfl rfl rfl rfl (fun _ => Iff.rfl) rfl rfl rfl rfl
  | cancelDone hchanged =>
    exact excused_denied hi ht rfl rfl (allows_of_denying hi ht rfl rfl (hi.edited j _ ht).1)
      (fun hd => beq_eq_false_iff_ne.mpr hd) (fun _ => ⟨rfl, rfl⟩) fun h => hno ⟨hchanged, h⟩
  | denySaved =>
    exact excused_denied hi ht rfl rfl (allows_of_denying hi ht rfl rfl (hi.edited j _ ht).1)
      (fun hd => beq_eq_false_iff_ne.mpr hd) (fun _ => ⟨rfl, rfl⟩) hno
  | denyLost => exact excused_denying hi ht rfl rfl rfl rfl (fun _ => Iff.rfl) rfl rfl rfl rfl
  | denyLostUnallowed =>
    exact excused_allowed hi ht rfl rfl
      (allows_of_restored (committed_before hi ht rfl rfl) (hi.edited j _ ht).2)
      (fun hd => ⟨beq_eq_false_iff_ne.mpr hd, rfl, rfl⟩) (fun _ _ => rfl) rfl hno
  | restore => exact excused_restore hi ht
  | pairMatch hpaired => exact excused_pairMatch hi ht hpaired
  | @pairMiss d code pairerUserId now saved hmiss =>
    have hlive : chatId ∈ (p.shared.access.attemptPair d code now).1.allowedChatIds ↔
        Live p chatId := by
      rw [(AccessControl.attemptPair_live p.shared.access d code now).2.1 chatId]
      exact ⟨fun hor => hor.resolve_left fun hand => hmiss hand.2, Or.inr⟩
    exact hexc.same ht (committed_outside_iff hi ht rfl rfl rfl) hlive rfl rfl rfl
  | pairEdit hfree => exact excused_edit hi ht hfree rfl rfl rfl rfl
  | pairKept hfree hallows => exact excused_pairKept hi ht hothers hfree hallows
  | pairSaved =>
    exact excused_allowed hi ht rfl rfl (allows_of_pairSaving hi ht)
      (fun hd => ⟨rfl, rfl, beq_eq_false_iff_ne.mpr hd⟩) (fun _ hf => any_paired _ _ hf) rfl hno
  | pairLost => exact excused_undo hi ht rfl rfl rfl rfl rfl
  | pairRevoke => exact excused_pairRevoke hi ht hothers hno
  | pairOwner =>
    exact hexc.same ht (committed_outside_iff hi ht rfl rfl rfl) Iff.rfl rfl rfl rfl
  | workers hregisters hframe =>
    have hidle := idle_of_registers hregisters
    have hlive : chatId ∈ s'.access.allowedChatIds ↔ Live p chatId := by rw [hframe.2.2, Live]
    exact hexc.same ht (committed_outside_iff hi ht hidle.1 hframe.2.1 hframe.1) hlive
      (hidle.2 chatId).1.symm (hidle.2 chatId).2.1.symm (hidle.2 chatId).2.2.symm

/-! ### A drop -/

/-- The last grant of the chat is dropped: the config does not allow it, or it is live already. -/
theorem excused_dropGrant {d chatId : Int} (hi : AccessInv p) (ht : p.tasks[j]? = some (.allowGrant d))
    (hothers : ¬ Others p j (AccessTask.denies chatId)) (hno : ¬ CutShortAt p j (.allowGrant d)) :
    Excused (p.put p.shared j none) chatId := by
  have hcommitted : Committed (p.put p.shared j none) chatId ↔ Committed p chatId :=
    committed_outside_iff hi ht rfl rfl rfl
  by_cases hd : d = chatId
  · subst hd
    have hagrees := (hi.excused d).resolve_left fun h => hothers (others_of_inProgress ht rfl h)
    refine Or.inr ⟨fun hc => ?_, fun hl => ?_⟩
    · by_cases hl : Live p d
      · exact Or.inl hl
      · refine Or.inr (inProgress_put.mpr (Or.inl ?_))
        by_contra hgrants
        exact hno ⟨fun h => hothers (others_of_inProgress ht rfl h), hcommitted.mp hc, hl, hgrants⟩
    · rcases hagrees.2 hl with hc | hpairs
      · exact Or.inl (hcommitted.mpr hc)
      · exact Or.inr (inProgress_put.mpr (Or.inl (others_of_inProgress ht rfl hpairs)))
  · have hgrants : (d == chatId) = false := beq_eq_false_iff_ne.mpr hd
    exact (hi.excused chatId).same ht hcommitted Iff.rfl rfl hgrants.symm rfl

/-- A pairing of the chat is dropped: the config allows it, or it is not live. -/
theorem excused_dropPair {d chatId : Int} (hi : AccessInv p) (ht : p.tasks[j]? = some t)
    (hholds : t.holds = false) (hdenies : ∀ c, t.denies c = false) (hgrants : ∀ c, t.grants c = false)
    (hpairs : ∀ c, t.pairs c = (d == c)) (hothers : ¬ Others p j (AccessTask.denies chatId))
    (hno : ¬ (¬ InProgress p (AccessTask.denies d) ∧ Live p d ∧ ¬ Committed p d ∧
      ¬ Others p j (AccessTask.pairs d))) :
    Excused (p.put p.shared j none) chatId := by
  have hcommitted : Committed (p.put p.shared j none) chatId ↔ Committed p chatId :=
    committed_outside_iff hi ht hholds rfl rfl
  by_cases hd : d = chatId
  · subst hd
    have hagrees := (hi.excused d).resolve_left fun h => hothers (others_of_inProgress ht (hdenies d) h)
    refine Or.inr ⟨fun hc => ?_, fun hl => ?_⟩
    · rcases hagrees.1 (hcommitted.mp hc) with hl | hpending
      · exact Or.inl hl
      · exact Or.inr (inProgress_put.mpr (Or.inl (others_of_inProgress ht (hgrants d) hpending)))
    · by_cases hc : Committed p d
      · exact Or.inl (hcommitted.mpr hc)
      · refine Or.inr (inProgress_put.mpr (Or.inl ?_))
        by_contra hpairs
        exact hno ⟨fun h => hothers (others_of_inProgress ht (hdenies d) h), hl, hc, hpairs⟩
  · exact (hi.excused chatId).same ht hcommitted Iff.rfl (hdenies chatId).symm (hgrants chatId).symm
      ((hpairs chatId).trans (beq_eq_false_iff_ne.mpr hd)).symm

/-- **One drop.**  Unless it comes too early, it leaves live access and config excused about every chat. -/
theorem excused_drop (hi : AccessInv p) (ht : p.tasks[j]? = some t) (hsuspended : t.suspended = true)
    (hno : ¬ CutShortAt p j t) (chatId : Int) :
    Excused (p.put (p.shared.unlock t.holds) j none) chatId := by
  by_cases hothers : Others p j (AccessTask.denies chatId)
  · exact .of_others hothers
  cases t with
  | allowSaving d before =>
    exact excused_allowed hi ht rfl rfl (allows_of_allowSaving hi ht) (fun _ => ⟨rfl, rfl, rfl⟩)
      (fun _ _ => rfl) rfl hno
  | pairSaving d pairerUserId before becameOwner =>
    exact excused_allowed hi ht rfl rfl (allows_of_pairSaving hi ht)
      (fun hd => ⟨rfl, rfl, beq_eq_false_iff_ne.mpr hd⟩) (fun _ _ => rfl) rfl hno
  | denyRestore d =>
    exact excused_allowed hi ht rfl rfl
      (allows_of_restored (committed_held (hi.lock.1 j _ ht rfl) ht) (hi.edited j _ ht))
      (fun hd => ⟨beq_eq_false_iff_ne.mpr hd, rfl, rfl⟩) (fun _ _ => rfl) rfl hno
  | denyRevoke requesterChatId d before result =>
    exact excused_denied hi ht rfl rfl (allows_of_denying hi ht rfl rfl (hi.edited j _ ht).1)
      (fun hd => beq_eq_false_iff_ne.mpr hd) (fun _ => ⟨rfl, rfl⟩) hno
  | denySaving d before wasAllowed =>
    exact excused_denied hi ht rfl rfl (allows_of_denying hi ht rfl rfl (hi.edited j _ ht).1)
      (fun hd => beq_eq_false_iff_ne.mpr hd) (fun _ => ⟨rfl, rfl⟩) hno
  | denyCancel => cases hsuspended
  | allowGrant d => exact excused_dropGrant hi ht hothers hno
  | pairPersist d pairerUserId =>
    exact excused_dropPair hi ht rfl (fun _ => rfl) (fun _ => rfl) (fun _ => rfl) hothers hno
  | pairRevoke d =>
    exact excused_dropPair hi ht rfl (fun _ => rfl) (fun _ => rfl) (fun _ => rfl) hothers hno
  | _ =>
    exact (hi.excused chatId).same ht (committed_outside_iff hi ht rfl rfl rfl) Iff.rfl rfl rfl rfl

/-- A drop leaves the positions' edits: only the dropped task had one, if it held the lock. -/
theorem edited_drop (hi : AccessInv p) (i : Nat) (u : AccessTask)
    (hu : (p.put (p.shared.unlock t.holds) j none).tasks[i]? = some u) : Edited p.shared.config u := by
  rw [Pool.tasks_put] at hu
  split at hu
  · cases hu
  · exact hi.edited i u hu

/-! ### The conditions are exact -/

section Exact

variable {d : Int}

/-- A deny in progress holds the lock. -/
theorem not_denies_of_free (hlock : configLock.Agrees (p.put s' j next)) (hfree : s'.configLock = none)
    (d : Int) : ¬ InProgress (p.put s' j next) (AccessTask.denies d) := by
  rintro ⟨i, u, hu, hd⟩
  have hholds : u.holds = true := by
    cases u <;> first | rfl | cases hd
  cases (hlock.1 i u hu hholds).symm.trans hfree

/-- What was not in progress before the act is not after it, unless the act makes it so. -/
theorem not_inProgress_put {f : AccessTask → Bool} (hno : ¬ Others p j f) (hnext : next.any f = false) :
    ¬ InProgress (p.put s' j next) f := by
  intro h
  rcases inProgress_put.mp h with h | h
  · exact hno h
  · cases hnext.symm.trans h

/-- The config allows the chat, it is not live, and nothing will make it so. -/
theorem not_excused_allowed (hdenies : ¬ InProgress (p.put s' j next) (AccessTask.denies d))
    (hc : Committed (p.put s' j next) d) (hl : d ∉ s'.access.allowedChatIds)
    (hgrants : ¬ Others p j (AccessTask.grants d)) (hnext : next.any (AccessTask.grants d) = false) :
    ¬ Excused (p.put s' j next) d := by
  rintro (h | ⟨h, -⟩)
  · exact hdenies h
  · rcases h hc with h | h
    · exact hl h
    · exact not_inProgress_put hgrants hnext h

/-- The config denies the chat, it is live, and nothing will change that. -/
theorem not_excused_denied (hdenies : ¬ InProgress (p.put s' j next) (AccessTask.denies d))
    (hc : ¬ Committed (p.put s' j next) d) (hl : d ∈ s'.access.allowedChatIds)
    (hpairs : ¬ Others p j (AccessTask.pairs d)) (hnext : next.any (AccessTask.pairs d) = false) :
    ¬ Excused (p.put s' j next) d := by
  rintro (h | ⟨-, h⟩)
  · exact hdenies h
  · rcases h hl with h | h
    · exact hc h
    · exact not_inProgress_put hpairs hnext h

/-- A released lock commits the config. -/
theorem committed_put_iff (hfree : s'.configLock = none) :
    Committed (p.put s' j next) d ↔ s'.config.Allows d := by
  rw [Committed, committed_released hfree]

/-- The config that a deny has edited does not allow the chat. -/
theorem not_committed_denied {before : Config} (hfree : s'.configLock = none)
    (hconfig : s'.config = p.shared.config) (hedited : p.shared.config = (denyChatInConfig before d).1) :
    ¬ Committed (p.put s' j next) d := by
  rw [committed_put_iff hfree, hconfig, hedited, allows_denyChat]
  exact fun h => h.2 rfl

/-- **An overtaken act** leaves live access and config at odds about its chat, without an excuse. -/
theorem Acts.not_excused {saved : SaveResult} (hi : AccessInv p) (ht : p.tasks[j]? = some t)
    (h : Acts j p.shared t saved s' next) (hlock : configLock.Agrees (p.put s' j next))
    (ho : OvertakenAt p t saved) : ∃ chatId, ¬ Excused (p.put s' j next) chatId := by
  have hothers : ∀ {f}, ¬ InProgress p f → ¬ Others p j f := fun hno h => hno h.inProgress
  cases h with
  | @grant d =>
    obtain ⟨hdenies, hc, hpairs⟩ := ho
    refine ⟨d, not_excused_denied (not_inProgress_put (hothers hdenies) rfl) (fun h => hc ?_)
      (AccessControl.mem_allowChat.mpr (Or.inl rfl)) (hothers hpairs) rfl⟩
    exact (committed_outside_iff hi ht rfl rfl rfl).mp h
  | @pairRevoke d =>
    obtain ⟨hdenies, hc, hgrants⟩ := ho
    refine ⟨d, not_excused_allowed (not_inProgress_put (hothers hdenies) rfl) ?_
      (fun h => absurd rfl (AccessControl.mem_denyChat.mp h).1) (hothers hgrants) rfl⟩
    exact (committed_outside_iff hi ht rfl rfl rfl).mpr hc
  | @pairSaved d =>
    refine ⟨d, not_excused_allowed (not_denies_of_free hlock rfl d) ?_ ho.1 (hothers ho.2)
      (any_paired _ _ fun _ => rfl)⟩
    exact (committed_put_iff rfl).mpr ((allows_of_pairSaving hi ht).mpr (Or.inr rfl))
  | @cancelDone _ d =>
    exact ⟨d, not_excused_denied (not_denies_of_free hlock rfl d)
      (not_committed_denied rfl rfl (hi.edited j _ ht).1) ho.2.1 (hothers ho.2.2) rfl⟩
  | cancelSaving hchanged => cases hchanged.symm.trans ho.1
  | @denySaved d =>
    exact ⟨d, not_excused_denied (not_denies_of_free hlock rfl d)
      (not_committed_denied rfl rfl (hi.edited j _ ht).1) ho.1 (hothers ho.2) rfl⟩
  | @denyLostUnallowed d =>
    refine ⟨d, not_excused_allowed (not_denies_of_free hlock rfl d) ?_ ho.1 (hothers ho.2) rfl⟩
    exact (committed_put_iff rfl).mpr (hi.edited j _ ht).2
  | workers hregisters => cases t <;> first | exact absurd ho id | cases hregisters
  | _ => exact absurd ho id

/-- **A drop that comes too early** does so too. -/
theorem not_excused_drop (hi : AccessInv p) (ht : p.tasks[j]? = some t)
    (hlock : configLock.Agrees (p.put (p.shared.unlock t.holds) j none)) (ho : CutShortAt p j t) :
    ∃ chatId, ¬ Excused (p.put (p.shared.unlock t.holds) j none) chatId := by
  have hothers : ∀ {f}, ¬ InProgress p f → ¬ Others p j f := fun hno h => hno h.inProgress
  cases t with
  | allowSaving d before =>
    refine ⟨d, not_excused_allowed (not_denies_of_free hlock rfl d) ?_ ho.1 (hothers ho.2) rfl⟩
    exact (committed_put_iff rfl).mpr ((allows_of_allowSaving hi ht).mpr (Or.inr rfl))
  | pairSaving d pairerUserId before becameOwner =>
    refine ⟨d, not_excused_allowed (not_denies_of_free hlock rfl d) ?_ ho.1 (hothers ho.2) rfl⟩
    exact (committed_put_iff rfl).mpr ((allows_of_pairSaving hi ht).mpr (Or.inr rfl))
  | denyRestore d =>
    refine ⟨d, not_excused_allowed (not_denies_of_free hlock rfl d) ?_ ho.1 (hothers ho.2) rfl⟩
    exact (committed_put_iff rfl).mpr (hi.edited j _ ht)
  | allowGrant d =>
    obtain ⟨hdenies, hc, hl, hgrants⟩ := ho
    refine ⟨d, not_excused_allowed (not_inProgress_put (hothers hdenies) rfl) ?_ hl hgrants rfl⟩
    exact (committed_outside_iff hi ht rfl rfl rfl).mpr hc
  | denyRevoke requesterChatId d before result =>
    exact ⟨d, not_excused_denied (not_denies_of_free hlock rfl d)
      (not_committed_denied rfl rfl (hi.edited j _ ht).1) ho.1 (hothers ho.2) rfl⟩
  | denySaving d before wasAllowed =>
    exact ⟨d, not_excused_denied (not_denies_of_free hlock rfl d)
      (not_committed_denied rfl rfl (hi.edited j _ ht).1) ho.1 (hothers ho.2) rfl⟩
  | pairPersist d pairerUserId =>
    obtain ⟨hdenies, hl, hc, hpairs⟩ := ho
    refine ⟨d, not_excused_denied (not_inProgress_put (hothers hdenies) rfl) (fun h => hc ?_) hl hpairs rfl⟩
    exact (committed_outside_iff hi ht rfl rfl rfl).mp h
  | pairRevoke d =>
    obtain ⟨hdenies, hl, hc, hpairs⟩ := ho
    refine ⟨d, not_excused_denied (not_inProgress_put (hothers hdenies) rfl) (fun h => hc ?_) hl hpairs rfl⟩
    exact (committed_outside_iff hi ht rfl rfl rfl).mp h
  | _ => exact absurd ho id

end Exact

end Step

/-! ## Every run -/

/-- The bot with no operation in progress, live access and config in agreement. -/
def InAgreement (s : AccessShared) : Prop :=
  s.configLock = none ∧ ∀ chatId, chatId ∈ s.access.allowedChatIds ↔ s.config.Allows chatId

/-- In agreement and with nothing in progress, the invariant holds. -/
theorem AccessInv.start {s : AccessShared} (h : InAgreement s) : AccessInv (.idle s) := by
  refine ⟨Lock.agrees_idle h.1, ?_, ?_⟩
  · intro i t ht
    rw [Pool.idle, Std.ExtTreeMap.getElem?_empty] at ht
    cases ht
  · intro chatId
    have hc : Committed (.idle s) chatId ↔ s.config.Allows chatId := by
      rw [Committed, committed_free h.1]
      exact Iff.rfl
    have hl : Live (.idle s) chatId ↔ s.config.Allows chatId := h.2 chatId
    refine Or.inr ⟨fun h' => Or.inl ?_, fun h' => Or.inl ?_⟩
    · exact hl.mpr (hc.mp h')
    · exact hc.mpr (hl.mp h')

/-- A task that starts changes nothing. -/
theorem AccessInv.spawn {p : AccessPool} {i : Nat} {t : AccessTask} (hi : AccessInv p)
    (he : accessRace.entry t = true) (hn : p.tasks[i]? = none)
    (hlock : configLock.Agrees (p.put p.shared i (some t))) :
    AccessInv (p.put p.shared i (some t)) := by
  have hout : t.holds = false := guards_configLock.entry t he
  -- the new task is in no predicate, and the others are where they were
  have hsame : ∀ f : AccessTask → Bool, f t = false →
      (InProgress (p.put p.shared i (some t)) f ↔ InProgress p f) := by
    intro f hf
    rw [inProgress_put, inProgress_iff, hn, Option.any_some, hf]
    rfl
  have hcommitted : committed (p.put p.shared i (some t)) = committed p := by
    rw [committed, committed, Pool.shared_put]
    cases hheld : p.shared.configLock with
    | none => rfl
    | some k =>
      obtain ⟨u, hu, -⟩ := hi.lock.2 k hheld
      -- the place was free, so it is not the holder of the lock
      have hik : i ≠ k := by
        rintro rfl
        cases hn.symm.trans hu
      rw [Option.bind_some, Option.bind_some, Pool.tasks_put, if_neg hik]
  refine ⟨hlock, ?_, ?_⟩
  · intro k u hu
    rw [Pool.tasks_put] at hu
    split at hu
    · cases hu
      exact edited_of_not_holds hout
    · exact hi.edited k u hu
  · intro chatId
    have hidle : t.denies chatId = false ∧ t.grants chatId = false ∧ t.pairs chatId = false := by
      cases t <;> first | exact ⟨rfl, rfl, rfl⟩ | cases he
    rw [Excused, Committed, hcommitted, hsame _ hidle.1, hsame _ hidle.2.1, hsame _ hidle.2.2]
    exact hi.excused chatId

/-- One step of the pool. -/
theorem AccessInv.step {p p' : AccessPool} {m : AccessMove} (hi : AccessInv p)
    (hno : ¬ Overtaken p m) (hs : accessRace.sys.step p m = some p') : AccessInv p' := by
  have hlock := hi.lock.step guards_configLock hs
  rcases step_cases hs with ⟨i, t, rfl, he, hn, rfl⟩ | ⟨i, c, t, r, rfl, ht, hr, rfl⟩
  · exact hi.spawn he hn hlock
  · cases c with
    | resume saved =>
      have hacts := acts_of_resume hr
      exact ⟨hlock, hacts.edited hi ht, hacts.excused hi ht fun ho => hno ⟨t, ht, ho⟩⟩
    | drop =>
      obtain ⟨hsuspended, rfl⟩ := dropped_of_act hr
      exact ⟨hlock, edited_drop hi, excused_drop hi ht hsuspended fun ho => hno ⟨t, ht, ho⟩⟩

/-- An overtaken step breaks it. -/
theorem overtaken_not_excused {p p' : AccessPool} {m : AccessMove} (hi : AccessInv p)
    (ho : Overtaken p m) (hs : accessRace.sys.step p m = some p') :
    ∃ chatId, ¬ Excused p' chatId := by
  have hlock := hi.lock.step guards_configLock hs
  rcases step_cases hs with ⟨i, t, rfl, -, -, -⟩ | ⟨i, c, t, r, rfl, ht, hr, rfl⟩
  · exact absurd ho id
  · cases c with
    | resume saved =>
      obtain ⟨u, hu, ho⟩ := ho
      cases ht.symm.trans hu
      exact (acts_of_resume hr).not_excused hi ht hlock ho
    | drop =>
      obtain ⟨u, hu, ho⟩ := ho
      cases ht.symm.trans hu
      obtain ⟨-, rfl⟩ := dropped_of_act hr
      exact not_excused_drop hi ht hlock ho

/-- No operation is in progress. -/
def NothingInProgress (p : AccessPool) : Prop := ∀ i : Nat, p.tasks[i]? = none

/-- **Live access and config agree** about every chat whenever no operation is in progress, in every
    run without an overtaken step, of any number of handlers on any chats, each save succeeding or
    failing. -/
theorem access_agrees_when {s : AccessShared} {h : List (AccessPool × AccessMove)} {p : AccessPool}
    (hs : InAgreement s) (hp : Path accessRace.sys (.idle s) h p)
    (hno : ∀ x ∈ h, ¬ Overtaken x.1 x.2) (hidle : NothingInProgress p) (chatId : Int) :
    chatId ∈ p.shared.access.allowedChatIds ↔ p.shared.config.Allows chatId := by
  have hi : AccessInv p := hp.invariant_of_forall (AccessInv.start hs)
    (fun _ _ _ hi hG hstep => hi.step hG hstep) hno
  have hnone : ∀ f, ¬ InProgress p f := by
    rintro f ⟨i, t, ht, -⟩
    cases (hidle i).symm.trans ht
  have hfree : p.shared.configLock = none := by
    cases hheld : p.shared.configLock with
    | none => rfl
    | some i =>
      obtain ⟨t, ht, -⟩ := hi.lock.2 i hheld
      cases (hidle i).symm.trans ht
  have hagrees := (hi.excused chatId).resolve_left (hnone _)
  rw [Committed, committed_free hfree] at hagrees
  constructor
  · intro hl
    exact (hagrees.2 hl).resolve_right (hnone _)
  · intro hc
    exact (hagrees.1 hc).resolve_right (hnone _)

/-- A bot that the chats 100 and 200 may use. -/
def AccessShared.start : AccessShared where
  config := ⟨"claude", ∅, { allowedChatIds := [100, 200] }⟩
  access := .new (.fromConfig ⟨"claude", ∅, { allowedChatIds := [100, 200] }⟩) (Stream'.const "123456")

/-- At the start the two copies agree. -/
theorem inAgreement_start : InAgreement .start := by
  refine ⟨rfl, ?_⟩
  intro chatId
  rw [← AccessControl.mem_effectiveAllowed]
  rfl

/-- Where there is no task, nothing is in progress. -/
theorem nothingInProgress_of_isEmpty {p : AccessPool} (h : p.tasks.isEmpty = true) : NothingInProgress p := by
  intro i
  rw [Std.ExtTreeMap.isEmpty_iff.mp h, Std.ExtTreeMap.getElem?_empty]

/-- The worker's task goes on; its save, if it waits for one, has succeeded. -/
def goOn (i : Nat) : AccessMove := .act i (.resume .ok)

/-- The move drops the task `i`. -/
def drops (i : Nat) : AccessMove → Bool
  | .act j .drop => j == i
  | _ => false

/-- A move that is recognised as a drop is the drop of that task. -/
theorem eq_of_drops {i : Nat} {m : AccessMove} (h : drops i m = true) : m = .act i .drop := by
  unfold drops at h
  split at h
  · rw [beq_iff_eq.mp h]
  · cases h

/-- The worker of chat 100 approves chat 7, and its grant falls into a deny of chat 100 from chat 200.  The
    deny aborts that worker, which is dropped at the start of its next handler. -/
theorem access_agrees_when_allowed :
    ∃ h p, Path accessRace.sys (.idle .start) h p ∧ NothingInProgress p ∧
      (∃ x ∈ h, x.2 = .act 1 .drop) ∧ 7 ∈ p.shared.access.allowedChatIds ∧ ¬ Live p 100 ∧
      (7 ∈ p.shared.access.allowedChatIds ↔ p.shared.config.Allows 7) := by
  have hrun : ((accessRace.sys.trace (.idle .start) [.spawn 0 (.spawnChatWorker 100 1), goOn 0,
      .spawn 1 (.handleAllowChat 7), goOn 1, .spawn 2 (.handleDenyChat 200 100), goOn 1, goOn 2, goOn 1, goOn 2,
      .spawn 1 (.handleAllowChat 8), goOn 2, .act 1 .drop, goOn 2]).any fun r =>
        decide (∀ x ∈ r.1, ¬ Overtaken x.1 x.2) && r.2.tasks.isEmpty &&
        r.1.any (fun x => drops 1 x.2) && decide (Live r.2 7) && !decide (Live r.2 100)) = true := by
    decide +kernel
  obtain ⟨h, p, hp, hend⟩ := Sys.path_of_trace_any _ hrun
  simp only [Bool.and_eq_true, decide_eq_true_iff, Bool.not_eq_true', decide_eq_false_iff_not] at hend
  obtain ⟨⟨⟨⟨hno, hidle⟩, hdropped⟩, hlive⟩, hdenied⟩ := hend
  have hidle := nothingInProgress_of_isEmpty hidle
  refine ⟨h, p, hp, hidle, ?_, hlive, hdenied, access_agrees_when inAgreement_start hp hno hidle 7⟩
  obtain ⟨x, hx, hdrop⟩ := List.any_eq_true.mp hdropped
  exact ⟨x, hx, eq_of_drops hdrop⟩

/-- **A late grant outlives a deny.**  An approval of chat 7 by the worker of chat 100 is saved; a deny of 7
    by the worker of chat 200 runs from start to end; then the approval's live grant runs.  Nothing is in
    progress, the config has denied the chat, and it is live. -/
theorem lateGrant_outlives_deny :
    InAgreement .start ∧ ∃ h p, Path accessRace.sys (.idle .start) h p ∧ NothingInProgress p ∧
      7 ∈ p.shared.access.allowedChatIds ∧ ¬ p.shared.config.Allows 7 := by
  refine ⟨inAgreement_start, ?_⟩
  have hrun : (accessRace.sys.run (.idle .start) [.spawn 1 (.handleAllowChat 7), goOn 1, goOn 1,
      .spawn 2 (.handleDenyChat 200 7), goOn 2, goOn 2, goOn 2, goOn 2, goOn 1]).any (fun p =>
        p.tasks.isEmpty && (p.shared.access.isChatAllowed 7 &&
        !decide (p.shared.config.Allows 7))) = true := by decide
  obtain ⟨h, p, hp, hend⟩ := Sys.path_of_run_any _ hrun
  simp only [Bool.and_eq_true, Bool.not_eq_true', decide_eq_false_iff_not] at hend
  obtain ⟨hidle, hlive, hdenied⟩ := hend
  exact ⟨h, p, hp, nothingInProgress_of_isEmpty hidle, Std.ExtTreeSet.mem_iff_contains.mpr hlive, hdenied⟩

/-- **An aborted grant never comes.**  An approval of chat 7 by the worker of chat 100 is saved; a deny of 100
    from chat 200 aborts that worker before its live grant.  The config allows chat 7, and it is not live. -/
theorem abortedGrant_never_comes :
    ∃ h p, Path accessRace.sys (.idle .start) h p ∧ NothingInProgress p ∧
      7 ∉ p.shared.access.allowedChatIds ∧ p.shared.config.Allows 7 := by
  have hrun : (accessRace.sys.run (.idle .start) [.spawn 0 (.spawnChatWorker 100 1), goOn 0,
      .spawn 1 (.handleAllowChat 7), goOn 1, goOn 1, .spawn 2 (.handleDenyChat 200 100), goOn 2, goOn 2, goOn 2,
      goOn 2, .act 1 .drop]).any (fun p => p.tasks.isEmpty && (!p.shared.access.isChatAllowed 7 &&
        decide (p.shared.config.Allows 7))) = true := by decide
  obtain ⟨h, p, hp, hend⟩ := Sys.path_of_run_any _ hrun
  simp only [Bool.and_eq_true, Bool.not_eq_true', decide_eq_true_iff] at hend
  obtain ⟨hidle, hlive, hallows⟩ := hend
  refine ⟨h, p, hp, nothingInProgress_of_isEmpty hidle, fun h => ?_, hallows⟩
  rw [AccessControl.isChatAllowed] at hlive
  exact absurd (Std.ExtTreeSet.mem_iff_contains.mp h) (by rw [hlive]; exact Bool.false_ne_true)

/-! ## A handler alone -/

/-- What the handlers share, with the config lock free. -/
def RuntimeHandles.shared (handles : RuntimeHandles) : AccessShared :=
  { config := handles.config, access := handles.access }

/-- The outcome of a save, without its error. -/
def SaveResult.of (saved : Result Unit) : SaveResult :=
  match saved with
  | .ok () => .ok
  | .error _ => .err

section Solo

variable (handles : RuntimeHandles)

/-- Run alone from start to end, the task of `/allow` does what the handler does. -/
theorem finishes_handleAllowChat (chatId : Int) (saved : Result Unit) :
    Finishes accessRace handles.shared (some (.handleAllowChat chatId))
      (handles.handleAllowChat chatId saved).1.shared := by
  unfold RuntimeHandles.handleAllowChat
  cases hedit : allowChatInConfig handles.config chatId with
  | mk edited changed =>
    cases changed with
    | true =>
      have henter : accessRace.act 0 (.handleAllowChat chatId) (.resume .ok) handles.shared =
          some (⟨edited, some 0, handles.access, ∅, []⟩, some (.allowSaving chatId handles.config)) := by
        simp [accessRace, AccessTask.act, AccessTask.resume, RuntimeHandles.shared, hedit]
      refine .act henter ?_
      cases saved with
      | ok u => exact .act (c := .resume .ok) rfl (.act (c := .resume .ok) rfl .done)
      | error error => exact .act (c := .resume .err) rfl .done
    | false =>
      have henter : accessRace.act 0 (.handleAllowChat chatId) (.resume .ok) handles.shared =
          some (⟨edited, none, handles.access, ∅, []⟩, some (.allowGrant chatId)) := by
        simp [accessRace, AccessTask.act, AccessTask.resume, RuntimeHandles.shared, hedit]
      exact .act henter (.act (c := .resume .ok) rfl .done)

/-- So does the task of `/deny`, the stop of the chat's worker included. -/
theorem finishes_handleDenyChat (requesterChatId chatId : Int) (saved : Result Unit) :
    Finishes accessRace handles.shared (some (.handleDenyChat requesterChatId chatId))
      (handles.handleDenyChat chatId saved).1.shared := by
  have henter : accessRace.act 0 (.handleDenyChat requesterChatId chatId) (.resume .ok) handles.shared =
      some (⟨(denyChatInConfig handles.config chatId).1, some 0, handles.access, ∅, []⟩,
        some (.denyRevoke requesterChatId chatId handles.config
          (denyChatInConfig handles.config chatId).2)) := rfl
  refine .act henter (.act (c := .resume .ok) rfl ?_)
  unfold RuntimeHandles.handleDenyChat
  -- the branches of the handler: an edit to save, saved or lost, or none
  cases hedit : denyChatInConfig handles.config chatId with
  | mk edited result =>
    -- there is no worker to abort
    have hcancel :
        (⟨edited, some 0, handles.access.denyChat chatId, ∅, []⟩ : AccessShared).cancelChatWorker chatId
          (decide (chatId ≠ requesterChatId)) =
        ⟨edited, some 0, handles.access.denyChat chatId, ∅, []⟩ := by
      simp [AccessShared.cancelChatWorker]
    cases hchanged : result.changed with
    | true =>
      have hsaving : accessRace.act 0 (.denyCancel requesterChatId chatId handles.config result
          (handles.access.isChatAllowed chatId)) (.resume .ok)
          ⟨edited, some 0, handles.access.denyChat chatId, ∅, []⟩ =
          some (⟨edited, some 0, handles.access.denyChat chatId, ∅, []⟩,
            some (.denySaving chatId handles.config (handles.access.isChatAllowed chatId))) := by
        simp only [accessRace, AccessTask.act, AccessTask.resume, hcancel, hchanged, if_true]
      refine .act hsaving ?_
      cases saved with
      | ok u =>
        simp only [hchanged]
        exact .act (c := .resume .ok) rfl .done
      | error error =>
        simp only [hchanged]
        cases hwas : handles.access.isChatAllowed chatId with
        | true => exact .act (c := .resume .err) rfl (.act (c := .resume .ok) rfl .done)
        | false => exact .act (c := .resume .err) rfl .done
    | false =>
      have hdone : accessRace.act 0 (.denyCancel requesterChatId chatId handles.config result
          (handles.access.isChatAllowed chatId)) (.resume .ok)
          ⟨edited, some 0, handles.access.denyChat chatId, ∅, []⟩ =
          some (⟨edited, none, handles.access.denyChat chatId, ∅, []⟩, none) := by
        simp only [accessRace, AccessTask.act, AccessTask.resume, hcancel, hchanged, Bool.false_eq_true,
          if_false]
      simp only [hchanged]
      exact .act hdone .done

/-- So does the task of a pairing attempt. -/
theorem finishes_handlePairAttempt (chatId : Int) (code : String) (pairerUserId : Option Int)
    (now : AccessTime) (saved : Result Unit) :
    Finishes accessRace handles.shared (some (.handlePairAttempt chatId code pairerUserId now))
      (handles.handlePairAttempt chatId code pairerUserId now saved).1.shared := by
  unfold RuntimeHandles.handlePairAttempt
  cases hattempt : handles.access.attemptPair chatId code now with
  | mk access attempt =>
    by_cases hpaired : attempt = .paired
    · subst hpaired
      have hmatch : accessRace.act 0 (.handlePairAttempt chatId code pairerUserId now) (.resume .ok)
          handles.shared =
          some (⟨handles.config, none, access, ∅, []⟩, some (.pairPersist chatId pairerUserId)) := by
        simp [accessRace, AccessTask.act, AccessTask.resume, RuntimeHandles.shared, hattempt]
      refine .act hmatch ?_
      -- whoever became an owner is added last
      have howner : ∀ (after : RuntimeHandles) (becameOwner : Bool),
          Finishes accessRace after.shared (AccessTask.paired pairerUserId becameOwner)
            (after.addPairedOwner pairerUserId becameOwner).shared := by
        intro after becameOwner
        unfold AccessTask.paired RuntimeHandles.addPairedOwner
        cases pairerUserId.filter fun _ => becameOwner with
        | none => exact .done
        | some userId => exact .act (c := .resume .ok) rfl .done
      dsimp only
      unfold RuntimeHandles.persistProvisionalPair RuntimeHandles.persistPairedChat
      cases hedit : pairChatInConfig handles.config chatId pairerUserId with
      | mk edited result =>
        cases hchanged : result.changed with
        | true =>
          have henter : accessRace.act 0 (.pairPersist chatId pairerUserId) (.resume .ok)
              ⟨handles.config, none, access, ∅, []⟩ = some (⟨edited, some 0, access, ∅, []⟩,
                some (.pairSaving chatId pairerUserId handles.config result.becameOwner)) := by
            simp [accessRace, AccessTask.act, AccessTask.resume, hedit, hchanged]
          refine .act henter ?_
          simp only [hchanged]
          cases saved with
          | ok u => exact .act (c := .resume .ok) rfl (howner ⟨edited, edited, access⟩ _)
          | error error => exact .act (c := .resume .err) rfl (.act (c := .resume .ok) rfl .done)
        | false =>
          have henter : accessRace.act 0 (.pairPersist chatId pairerUserId) (.resume .ok)
              ⟨handles.config, none, access, ∅, []⟩ = some (⟨edited, none, access, ∅, []⟩,
                AccessTask.paired pairerUserId result.becameOwner) := by
            simp [accessRace, AccessTask.act, AccessTask.resume, hedit, hchanged]
          simp only [hchanged]
          exact .act henter (howner ⟨edited, handles.configFile, access⟩ _)
    · have hmiss : accessRace.act 0 (.handlePairAttempt chatId code pairerUserId now) (.resume .ok)
          handles.shared = some (⟨handles.config, none, access, ∅, []⟩, none) := by
        simp [accessRace, AccessTask.act, AccessTask.resume, RuntimeHandles.shared, hattempt, hpaired]
      cases attempt with
      | paired => exact absurd rfl hpaired
      | _ => exact .act hmiss .done

/-- So does the task of a membership change, be it the owner's or another's. -/
theorem finishes_handleMembershipChange (chatId : Int) (adder : Option Int) (now : AccessTime)
    (saved : Result Unit) :
    Finishes accessRace handles.shared (some (.handleMembershipChange chatId adder now))
      (handles.handleMembershipChange chatId adder now saved).shared := by
  -- anybody but an owner arms the room
  have harm : Finishes accessRace handles.shared (some (.armRoom chatId now))
      ({ handles with access := (handles.access.armRoom chatId now).1 } : RuntimeHandles).shared :=
    .act (c := .resume .ok) rfl .done
  unfold RuntimeHandles.handleMembershipChange
  cases adder with
  | none => exact .act (c := .resume .ok) rfl harm
  | some userId =>
    cases howner : handles.config.telegram.ownerUserIds.contains userId with
    | true =>
      have hcheck : accessRace.act 0 (.handleMembershipChange chatId (some userId) now) (.resume .ok)
          handles.shared = some (handles.shared, some (.handleAllowChat chatId)) := by
        simp only [accessRace, AccessTask.act, AccessTask.resume, RuntimeHandles.shared, howner, if_true]
      refine .act hcheck ?_
      -- an owner's adding is an approval
      have hallow := finishes_handleAllowChat handles chatId saved
      unfold RuntimeHandles.handleAllowChat at hallow
      simp only [Option.any_some, howner, if_true]
      dsimp only at hallow
      split at hallow
      · exact hallow
      · exact hallow
    | false =>
      have hcheck : accessRace.act 0 (.handleMembershipChange chatId (some userId) now) (.resume .ok)
          handles.shared = some (handles.shared, some (.armRoom chatId now)) := by
        simp only [accessRace, AccessTask.act, AccessTask.resume, RuntimeHandles.shared, howner, if_true,
          Bool.false_eq_true, if_false]
      refine .act hcheck ?_
      simp only [Option.any_some, howner]
      exact harm

/-- What a handler that runs alone does. -/
def RuntimeHandles.alone (handles : RuntimeHandles) (saved : Result Unit) :
    AccessTask → RuntimeHandles
  | .handleMembershipChange chatId adder now =>
    handles.handleMembershipChange chatId adder now saved
  | .handleAllowChat chatId => (handles.handleAllowChat chatId saved).1
  | .handleDenyChat _ chatId => (handles.handleDenyChat chatId saved).1
  | .handlePairAttempt chatId code pairerUserId now =>
    (handles.handlePairAttempt chatId code pairerUserId now saved).1
  | _ => handles

/-- **The sequential handlers are runs of the tasks**: a handler that is started with nothing else in
    progress, and finishes before anything else starts, does what `Tellm.Handlers` says. -/
theorem handler_is_solo_run {t : AccessTask} (ht : t.entry = true) (hhandler : t.registers = false)
    (saved : Result Unit) :
    ∃ h, Path accessRace.sys (.idle handles.shared) h (.idle (handles.alone saved t).shared) := by
  refine Finishes.path_of_entry ?_ ht
  cases t with
  | handleMembershipChange chatId adder now =>
    exact finishes_handleMembershipChange handles chatId adder now saved
  | handleAllowChat chatId => exact finishes_handleAllowChat handles chatId saved
  | handleDenyChat requesterChatId chatId =>
    exact finishes_handleDenyChat handles requesterChatId chatId saved
  | handlePairAttempt chatId code pairerUserId now =>
    exact finishes_handlePairAttempt handles chatId code pairerUserId now saved
  | spawnChatWorker | removeWorkerRegistration | stopChatWorkers => cases hhandler
  | _ => cases ht

end Solo

end Tellm
