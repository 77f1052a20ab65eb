/-
  THE WRITER: `persistence.rs` as it runs, with its thread, its channel and callers that go away.

  `Tellm.Persistence` lets a write happen where its transaction stands.  In the bot the transaction sends
  its snapshot to a thread and waits for the reply, and the task may be aborted while it waits: its locks
  are released, its snapshot stays queued and is written later.

  1. **`writer`**: the calls as tasks (`Tellm.Lib.Tasks`), one act per stretch between two suspension points,
     except that taking a snapshot and sending it are two, since other threads may run in between.  A task
     that is suspended may be dropped.  The thread is a mailbox (`Tellm.Lib.Mailbox`).
  2. **`Acts`**: everything an act can do, once for all invariants.
  3. **Order** (`log_attempted_sublist`): a snapshot passes through two stages, from the transaction to the
     channel and from the channel to the thread, and each keeps the order (`Tellm.Lib.Flow`).
  4. **Removed rooms** (`Removed`): after a successful removal no snapshot in flight has the room.
  5. **`writes_ordered`**: the three together.

  The thread receives commands, attempts the write, and replies.  Nobody need be left to take the reply.
  After a `shutdown` it receives nothing more: it ends, what is still in its queue is answered with an
  error, and the channel is closed to whatever comes later.

  A task can be dropped only where the source suspends it, at the locks and at the reply.  It gives up its
  locks there, and what it has sent stays sent.  Which settings are left in memory when nobody is there to
  roll back is the subject of `Tellm.Abandoned`.

  The results are about the history of a run: `takenBy` is the sequence of snapshots as their transactions
  took them, `enqueued` as they entered the channel, `attempted` as the thread took them up, `written`
  those whose write succeeded.  Each file holds the last of these.  All of it is stated for both files at
  once, since the two differ only in the lock and in the kind of command.
-/
import Tellm.Persistence
import Tellm.Lib.Flow
import Tellm.Lib.Mailbox

namespace Tellm

open Runs Tasks Mailboxes

namespace Writer

/-! ## What the tasks share -/

/-- `PersistenceCommand`: what the persistence thread is asked for. -/
inductive PersistenceCommand
  | saveConfig (config : Config)
  | saveRooms (settings : BTreeMap Int RoomSettings)
  | shutdown
  deriving DecidableEq

/-- The files, each with a lock of its own around its transactions. -/
inductive SavedFile
  | config
  | rooms
  deriving DecidableEq

/-- The file that a command writes. -/
def PersistenceCommand.file : PersistenceCommand → Option SavedFile
  | .saveConfig _ => some .config
  | .saveRooms _ => some .rooms
  | .shutdown => none

/-- The thread: in its loop, past a `Shutdown`, ended. -/
inductive WriterThread
  | receiving
  | stopping
  | stopped
  deriving DecidableEq

/-- What the two files hold. -/
structure Disk where
  config : Config
  rooms : BTreeMap Int RoomSettings
  deriving DecidableEq

/-- The config and the rooms in memory, the locks' holders, the channel, the thread and the files. -/
structure Shared where
  config : Config
  rooms : RoomStates
  configLock : Option Nat := none
  roomMutations : Option Nat := none
  mailbox : Mailbox PersistenceCommand WriteResult := {}
  thread : WriterThread := .receiving
  disk : Disk

/-! ## The tasks -/

/-- A task's position. -/
inductive WriterTask
  | mutateRoom (chatId : Int) (f : RoomState → RoomState)
  | mutateLocked (chatId : Int) (f : RoomState → RoomState)
  | mutateTaken (chatId : Int) (before : Option RoomSettings) (settings : BTreeMap Int RoomSettings)
  | mutateSaving (chatId : Int) (before : Option RoomSettings) (ticket : Nat)
  | mutateFailed (chatId : Int) (before : Option RoomSettings)
  | removeRoom (chatId : Int)
  | removeLocked (chatId : Int)
  | removeTaken (chatId : Int) (settings : BTreeMap Int RoomSettings)
  | removeSaving (chatId : Int) (ticket : Nat)
  | saveConfig (edit : Config → Config)
  | configTaken (before config : Config)
  | configSaving (before : Config) (ticket : Nat)
  | shutdown
  | shutdownWaiting (ticket : Nat)
  | getOrDefault (chatId : Int)
  | room (chatId : Int) (op : RoomOp)
  | resetAllHistory

/-- A suspended task is resumed or dropped. -/
inductive Resume
  | resume
  | drop
  deriving DecidableEq

namespace WriterTask

/-- Where a task begins. -/
def entry : WriterTask → Bool
  | .mutateRoom _ _ => true
  | .removeRoom _ => true
  | .saveConfig _ => true
  | .shutdown => true
  | .getOrDefault _ => true
  | .room _ op => op.keepsSettings
  | .resetAllHistory => true
  | _ => false

/-- The task holds the lock of a file's transactions. -/
def holds : SavedFile → WriterTask → Bool
  | .rooms, .mutateLocked _ _ => true
  | .rooms, .mutateTaken _ _ _ => true
  | .rooms, .mutateSaving _ _ _ => true
  | .rooms, .mutateFailed _ _ => true
  | .rooms, .removeLocked _ => true
  | .rooms, .removeTaken _ _ => true
  | .rooms, .removeSaving _ _ => true
  | .config, .configTaken _ _ => true
  | .config, .configSaving _ _ => true
  | _, _ => false

/-- The snapshot that the task has taken and not sent yet.  There it is not suspended. -/
def taken : WriterTask → Option PersistenceCommand
  | .mutateTaken _ _ settings => some (.saveRooms settings)
  | .removeTaken _ settings => some (.saveRooms settings)
  | .configTaken _ config => some (.saveConfig config)
  | _ => none

/-- The snapshot that the task takes next. -/
def takes (t : WriterTask) (s : Shared) : Option PersistenceCommand :=
  match t with
  | .mutateLocked chatId f => some (.saveRooms (s.rooms.mutate chatId f).settings)
  | .removeLocked chatId => some (.saveRooms (s.rooms.remove chatId).settings)
  | .saveConfig edit => some (.saveConfig (edit s.config))
  | _ => none

/-- The command that the task sends next. -/
def sends : WriterTask → Option PersistenceCommand
  | .mutateTaken _ _ settings => some (.saveRooms settings)
  | .removeTaken _ settings => some (.saveRooms settings)
  | .configTaken _ config => some (.saveConfig config)
  | .shutdown => some .shutdown
  | _ => none

end WriterTask

/-- The guards of a task are dropped. -/
def Shared.unlock (s : Shared) (t : WriterTask) : Shared :=
  { s with
    configLock := if t.holds .config then none else s.configLock
    roomMutations := if t.holds .rooms then none else s.roomMutations }

namespace WriterTask

/-- What the task does next. -/
def resume (i : Nat) (t : WriterTask) (s : Shared) : Option (Shared × Option WriterTask) :=
  match t with
  | .mutateRoom chatId f =>
    if s.roomMutations = none then some ({ s with roomMutations := some i }, some (.mutateLocked chatId f))
    else none
  | .mutateLocked chatId f =>
    let before := (s.rooms.get chatId).map (·.settings)
    let rooms := s.rooms.mutate chatId f
    some ({ s with rooms := rooms }, some (.mutateTaken chatId before rooms.settings))
  | .mutateTaken chatId before settings =>
    match s.mailbox.post (.saveRooms settings) with
    | some mailbox =>
      some ({ s with mailbox := mailbox }, some (.mutateSaving chatId before s.mailbox.next))
    | none => some (s, some (.mutateFailed chatId before))
  | .mutateSaving chatId before ticket =>
    match s.mailbox.reply ticket with
    | none => none
    | some .ok => some ({ s with roomMutations := none }, none)
    | some .err => some (s, some (.mutateFailed chatId before))
  | .mutateFailed chatId before =>
    some ({ s with rooms := s.rooms.rollBack chatId before, roomMutations := none }, none)
  | .removeRoom chatId =>
    if s.roomMutations = none then some ({ s with roomMutations := some i }, some (.removeLocked chatId))
    else none
  | .removeLocked chatId =>
    let rooms := s.rooms.remove chatId
    some ({ s with rooms := rooms }, some (.removeTaken chatId rooms.settings))
  | .removeTaken chatId settings =>
    match s.mailbox.post (.saveRooms settings) with
    | some mailbox => some ({ s with mailbox := mailbox }, some (.removeSaving chatId s.mailbox.next))
    | none => some ({ s with roomMutations := none }, none)
  | .removeSaving _ ticket =>
    match s.mailbox.reply ticket with
    | none => none
    | some _ => some ({ s with roomMutations := none }, none)
  | .saveConfig edit =>
    if s.configLock = none then
      some ({ s with config := edit s.config, configLock := some i },
        some (.configTaken s.config (edit s.config)))
    else none
  | .configTaken before config =>
    match s.mailbox.post (.saveConfig config) with
    | some mailbox => some ({ s with mailbox := mailbox }, some (.configSaving before s.mailbox.next))
    | none => some ({ s with config := before, configLock := none }, none)
  | .configSaving before ticket =>
    match s.mailbox.reply ticket with
    | none => none
    | some .ok => some ({ s with configLock := none }, none)
    | some .err => some ({ s with config := before, configLock := none }, none)
  | .shutdown =>
    match s.mailbox.post .shutdown with
    | some mailbox => some ({ s with mailbox := mailbox }, some (.shutdownWaiting s.mailbox.next))
    | none => some (s, none)
  | .shutdownWaiting ticket =>
    match s.mailbox.reply ticket with
    | none => none
    | some _ => some (s, none)
  | .getOrDefault chatId => some ({ s with rooms := s.rooms.getOrDefault chatId }, none)
  | .room chatId op =>
    if op.keepsSettings then
      some ({ s with rooms := s.rooms.updateRoom chatId fun room => room.apply op }, none)
    else none
  | .resetAllHistory => some ({ s with rooms := s.rooms.resetAllHistory }, none)

/-- A task goes on, or is dropped at an await; a command that was sent is not taken back. -/
def act (i : Nat) (t : WriterTask) (c : Resume) (s : Shared) : Option (Shared × Option WriterTask) :=
  match c with
  | .resume => t.resume i s
  | .drop => if t.taken.isNone then some (s.unlock t, none) else none

end WriterTask

/-- The callers. -/
def callers : Program Shared WriterTask Resume := ⟨WriterTask.entry, WriterTask.act⟩

/-- The tasks in progress, with what they share. -/
abbrev WriterPool := Pool Shared WriterTask

/-! ## The thread -/

/-- The file after a write of it. -/
def Disk.write (disk : Disk) : PersistenceCommand → WriteResult → Disk
  | .saveConfig config, .ok => { disk with config := config }
  | .saveRooms settings, .ok => { disk with rooms := settings }
  | _, _ => disk

/-- The reply to a command; a `Shutdown` does not fail. -/
def answer (result : WriteResult) : PersistenceCommand → WriteResult
  | .shutdown => .ok
  | _ => result

/-- One pass of the thread's loop. -/
def Shared.receive (s : Shared) (result : WriteResult) : Option Shared :=
  if s.thread = .receiving then
    (s.mailbox.serve (answer result)).map fun (command, mailbox) =>
      { s with
        mailbox := mailbox
        disk := s.disk.write command result
        thread := if command = .shutdown then .stopping else .receiving }
  else none

/-- The thread ends: the channel is closed, and the commands still in it are lost. -/
def Shared.stop (s : Shared) : Option Shared :=
  if s.thread = .stopping then some { s with mailbox := s.mailbox.close .err, thread := .stopped } else none

/-- A task moves, the thread takes a command and carries it out, or it ends. -/
inductive WriterMove
  | task (m : Move WriterTask Resume)
  | receive (result : WriteResult)
  | stop

/-- The callers and the thread. -/
def writer : Sys WriterPool WriterMove where
  step p
    | .task m => callers.sys.step p m
    | .receive result => (p.shared.receive result).map fun s => ⟨s, p.tasks⟩
    | .stop => p.shared.stop.map fun s => ⟨s, p.tasks⟩

/-- The steps so far, newest first. -/
abbrev WriterRun := List (WriterPool × WriterMove)

/-! ## Everything an act can do -/

/-- `Acts i s t c s' next`: the task `i` at `t` is resumed, or dropped, in `s`; the shared state is then `s'`
    and the task's position `next`. -/
inductive Acts (i : Nat) (s : Shared) :
    WriterTask → Resume → Shared → Option WriterTask → Prop
  | drop {t} (htaken : t.taken = none) : Acts i s t .drop (s.unlock t) none
  | mutateLock {chatId f} (hfree : s.roomMutations = none) :
      Acts i s (.mutateRoom chatId f) .resume { s with roomMutations := some i }
        (some (.mutateLocked chatId f))
  | mutateTake {chatId f} :
      Acts i s (.mutateLocked chatId f) .resume { s with rooms := s.rooms.mutate chatId f }
        (some (.mutateTaken chatId ((s.rooms.get chatId).map (·.settings))
          (s.rooms.mutate chatId f).settings))
  | mutateSend {chatId before settings mailbox}
      (hpost : s.mailbox.post (.saveRooms settings) = some mailbox) :
      Acts i s (.mutateTaken chatId before settings) .resume { s with mailbox := mailbox }
        (some (.mutateSaving chatId before s.mailbox.next))
  | mutateUnsent {chatId before settings} (hclosed : s.mailbox.isOpen = false) :
      Acts i s (.mutateTaken chatId before settings) .resume s (some (.mutateFailed chatId before))
  | mutateOk {chatId before ticket} (hreply : s.mailbox.reply ticket = some .ok) :
      Acts i s (.mutateSaving chatId before ticket) .resume { s with roomMutations := none } none
  | mutateErr {chatId before ticket} (hreply : s.mailbox.reply ticket = some .err) :
      Acts i s (.mutateSaving chatId before ticket) .resume s (some (.mutateFailed chatId before))
  | rollBack {chatId before} :
      Acts i s (.mutateFailed chatId before) .resume
        { s with rooms := s.rooms.rollBack chatId before, roomMutations := none } none
  | removeLock {chatId} (hfree : s.roomMutations = none) :
      Acts i s (.removeRoom chatId) .resume { s with roomMutations := some i }
        (some (.removeLocked chatId))
  | removeTake {chatId} :
      Acts i s (.removeLocked chatId) .resume { s with rooms := s.rooms.remove chatId }
        (some (.removeTaken chatId (s.rooms.remove chatId).settings))
  | removeSend {chatId settings mailbox} (hpost : s.mailbox.post (.saveRooms settings) = some mailbox) :
      Acts i s (.removeTaken chatId settings) .resume { s with mailbox := mailbox }
        (some (.removeSaving chatId s.mailbox.next))
  | removeUnsent {chatId settings} (hclosed : s.mailbox.isOpen = false) :
      Acts i s (.removeTaken chatId settings) .resume { s with roomMutations := none } none
  | removeReturn {chatId ticket reply} (hreply : s.mailbox.reply ticket = some reply) :
      Acts i s (.removeSaving chatId ticket) .resume { s with roomMutations := none } none
  | configTake {edit} (hfree : s.configLock = none) :
      Acts i s (.saveConfig edit) .resume { s with config := edit s.config, configLock := some i }
        (some (.configTaken s.config (edit s.config)))
  | configSend {before config mailbox} (hpost : s.mailbox.post (.saveConfig config) = some mailbox) :
      Acts i s (.configTaken before config) .resume { s with mailbox := mailbox }
        (some (.configSaving before s.mailbox.next))
  | configUnsent {before config} (hclosed : s.mailbox.isOpen = false) :
      Acts i s (.configTaken before config) .resume { s with config := before, configLock := none } none
  | configReturn {before ticket reply config} (hreply : s.mailbox.reply ticket = some reply) :
      Acts i s (.configSaving before ticket) .resume { s with config := config, configLock := none } none
  | shutdownSend {mailbox} (hpost : s.mailbox.post .shutdown = some mailbox) :
      Acts i s .shutdown .resume { s with mailbox := mailbox } (some (.shutdownWaiting s.mailbox.next))
  | shutdownUnsent (hclosed : s.mailbox.isOpen = false) : Acts i s .shutdown .resume s none
  | shutdownReturn {ticket reply} (hreply : s.mailbox.reply ticket = some reply) :
      Acts i s (.shutdownWaiting ticket) .resume s none
  | other {t rooms} (hentry : t.entry = true) (htakes : t.takes s = none) (hsends : t.sends = none)
      (hpad : Padded s.rooms.settings rooms.settings) :
      Acts i s t .resume { s with rooms := rooms } none

/-- Whatever a task does when it is resumed or dropped is one of the acts listed. -/
theorem acts_of_act {i : Nat} {t : WriterTask} {c : Resume} {s : Shared}
    {r : Shared × Option WriterTask} (h : t.act i c s = some r) : Acts i s t c r.1 r.2 := by
  cases c with
  | drop =>
    obtain ⟨htaken, h⟩ := Option.ite_none_right_eq_some.mp h
    cases h
    exact .drop (Option.isNone_iff_eq_none.mp htaken)
  | resume =>
    change t.resume i s = some r at h
    cases t with
    | mutateRoom chatId f =>
      obtain ⟨hfree, h⟩ := Option.ite_none_right_eq_some.mp h
      cases h
      exact .mutateLock hfree
    | mutateLocked chatId f =>
      cases h
      exact .mutateTake
    | mutateTaken chatId before settings =>
      simp only [WriterTask.resume] at h
      split at h
      · rename_i hpost
        cases h
        exact .mutateSend hpost
      · rename_i hpost
        cases h
        exact .mutateUnsent (Mailbox.post_eq_none.mp hpost)
    | mutateSaving chatId before ticket =>
      simp only [WriterTask.resume] at h
      split at h
      · cases h
      · rename_i hreply
        cases h
        exact .mutateOk hreply
      · rename_i hreply
        cases h
        exact .mutateErr hreply
    | mutateFailed chatId before =>
      cases h
      exact .rollBack
    | removeRoom chatId =>
      obtain ⟨hfree, h⟩ := Option.ite_none_right_eq_some.mp h
      cases h
      exact .removeLock hfree
    | removeLocked chatId =>
      cases h
      exact .removeTake
    | removeTaken chatId settings =>
      simp only [WriterTask.resume] at h
      split at h
      · rename_i hpost
        cases h
        exact .removeSend hpost
      · rename_i hpost
        cases h
        exact .removeUnsent (Mailbox.post_eq_none.mp hpost)
    | removeSaving chatId ticket =>
      simp only [WriterTask.resume] at h
      split at h
      · cases h
      · rename_i hreply
        cases h
        exact .removeReturn hreply
    | saveConfig edit =>
      obtain ⟨hfree, h⟩ := Option.ite_none_right_eq_some.mp h
      cases h
      exact .configTake hfree
    | configTaken before config =>
      simp only [WriterTask.resume] at h
      split at h
      · rename_i hpost
        cases h
        exact .configSend hpost
      · rename_i hpost
        cases h
        exact .configUnsent (Mailbox.post_eq_none.mp hpost)
    | configSaving before ticket =>
      simp only [WriterTask.resume] at h
      split at h
      · cases h
      · rename_i hreply
        cases h
        exact .configReturn hreply
      · rename_i hreply
        cases h
        exact .configReturn hreply
    | shutdown =>
      simp only [WriterTask.resume] at h
      split at h
      · rename_i hpost
        cases h
        exact .shutdownSend hpost
      · rename_i hpost
        cases h
        exact .shutdownUnsent (Mailbox.post_eq_none.mp hpost)
    | shutdownWaiting ticket =>
      simp only [WriterTask.resume] at h
      split at h
      · cases h
      · rename_i hreply
        cases h
        exact .shutdownReturn hreply
    | getOrDefault chatId =>
      cases h
      exact .other rfl rfl rfl (padded_getOrDefault _ _)
    | room chatId op =>
      obtain ⟨hop, h⟩ := Option.ite_none_right_eq_some.mp h
      cases h
      refine .other hop rfl rfl ?_
      rw [settings_updateRoom fun room => RoomState.settings_apply hop]
      exact Padded.refl _
    | resetAllHistory =>
      cases h
      refine .other rfl rfl rfl ?_
      rw [settings_resetAllHistory]
      exact Padded.refl _

/-! ## The locks -/

/-- The lock under which a file is saved, by the task that holds it. -/
def Shared.holder (s : Shared) : SavedFile → Option Nat
  | .config => s.configLock
  | .rooms => s.roomMutations

/-- The lock around a file's transactions. -/
def lock (f : SavedFile) : Lock Shared WriterTask := ⟨fun s => s.holder f, WriterTask.holds f⟩

/-- A task at its entry holds no lock. -/
theorem WriterTask.holds_of_entry {t : WriterTask} (h : t.entry = true) (f : SavedFile) :
    t.holds f = false := by
  cases t <;> cases f <;> first | rfl | cases h

/-- A task takes a lock only where it is free, and gives up no other task's. -/
theorem Acts.respects {i : Nat} {t : WriterTask} {c : Resume} {s s' : Shared} {next : Option WriterTask}
    (h : Acts i s t c s' next) (f : SavedFile) : (lock f).Respects i t s (s', next) := by
  -- each lock is moved by the steps of its own file alone, hence the second split
  cases h with
  | drop htaken =>
    cases hholds : t.holds f with
    | true =>
      refine Or.inr (Or.inr ⟨hholds, ?_, rfl⟩)
      cases f <;> simp [lock, Shared.holder, Shared.unlock, hholds]
    | false =>
      refine Or.inl ⟨?_, hholds.symm⟩
      cases f <;> simp [lock, Shared.holder, Shared.unlock, hholds]
  | mutateLock hfree =>
    cases f with
    | rooms => exact Or.inr (Or.inl ⟨hfree, rfl, rfl, rfl⟩)
    | config => exact Or.inl ⟨rfl, rfl⟩
  | removeLock hfree =>
    cases f with
    | rooms => exact Or.inr (Or.inl ⟨hfree, rfl, rfl, rfl⟩)
    | config => exact Or.inl ⟨rfl, rfl⟩
  | configTake hfree =>
    cases f with
    | rooms => exact Or.inl ⟨rfl, rfl⟩
    | config => exact Or.inr (Or.inl ⟨hfree, rfl, rfl, rfl⟩)
  | mutateOk => cases f <;> first | exact Or.inr (Or.inr ⟨rfl, rfl, rfl⟩) | exact Or.inl ⟨rfl, rfl⟩
  | rollBack => cases f <;> first | exact Or.inr (Or.inr ⟨rfl, rfl, rfl⟩) | exact Or.inl ⟨rfl, rfl⟩
  | removeUnsent => cases f <;> first | exact Or.inr (Or.inr ⟨rfl, rfl, rfl⟩) | exact Or.inl ⟨rfl, rfl⟩
  | removeReturn => cases f <;> first | exact Or.inr (Or.inr ⟨rfl, rfl, rfl⟩) | exact Or.inl ⟨rfl, rfl⟩
  | configUnsent => cases f <;> first | exact Or.inr (Or.inr ⟨rfl, rfl, rfl⟩) | exact Or.inl ⟨rfl, rfl⟩
  | configReturn => cases f <;> first | exact Or.inr (Or.inr ⟨rfl, rfl, rfl⟩) | exact Or.inl ⟨rfl, rfl⟩
  | other hentry => exact Or.inl ⟨by cases f <;> rfl, (WriterTask.holds_of_entry hentry f).symm⟩
  | _ => cases f <;> exact Or.inl ⟨rfl, rfl⟩

/-- So each of the two mutation locks is a lock, in the sense of the library, for these tasks. -/
theorem guards_lock (f : SavedFile) : (lock f).Guards callers where
  entry _ h := WriterTask.holds_of_entry h f
  act _ _ _ _ _ h := (acts_of_act h).respects f

/-! ## Every step -/

/-- What a step is: a task starts, a task acts, the thread receives, or it ends. -/
theorem writer_cases {p p' : WriterPool} {m : WriterMove} (h : writer.step p m = some p') :
    (∃ i t, m = .task (.spawn i t) ∧ t.entry = true ∧ p.tasks[i]? = none ∧
      p' = p.put p.shared i (some t)) ∨
    (∃ i t c s' next, m = .task (.act i c) ∧ p.tasks[i]? = some t ∧ Acts i p.shared t c s' next ∧
      p' = p.put s' i next) ∨
    (∃ result command mailbox, m = .receive result ∧ p.shared.thread = .receiving ∧
      p.shared.mailbox.serve (answer result) = some (command, mailbox) ∧
      p' = ⟨{ p.shared with
        mailbox := mailbox
        disk := p.shared.disk.write command result
        thread := if command = .shutdown then .stopping else .receiving }, p.tasks⟩) ∨
    (m = .stop ∧ p.shared.thread = .stopping ∧
      p' = ⟨{ p.shared with mailbox := p.shared.mailbox.close .err, thread := .stopped }, p.tasks⟩) := by
  cases m with
  | task m =>
    rcases step_cases h with ⟨i, t, rfl, he, hn, rfl⟩ | ⟨i, c, t, r, rfl, ht, hr, rfl⟩
    · exact Or.inl ⟨i, t, rfl, he, hn, rfl⟩
    · exact Or.inr (Or.inl ⟨i, t, c, r.1, r.2, rfl, ht, acts_of_act hr, rfl⟩)
  | receive result =>
    obtain ⟨s', hs, rfl⟩ := Option.map_eq_some_iff.mp h
    obtain ⟨hthread, hs⟩ := Option.ite_none_right_eq_some.mp hs
    obtain ⟨⟨command, mailbox⟩, hserve, rfl⟩ := Option.map_eq_some_iff.mp hs
    exact Or.inr (Or.inr (Or.inl ⟨result, command, mailbox, rfl, hthread, hserve, rfl⟩))
  | stop =>
    obtain ⟨s', hs, rfl⟩ := Option.map_eq_some_iff.mp h
    obtain ⟨hthread, hs⟩ := Option.ite_none_right_eq_some.mp hs
    cases hs
    exact Or.inr (Or.inr (Or.inr ⟨rfl, hthread, rfl⟩))

/-- A bot that has just started: no task, an empty channel. -/
def started (config : Config) (rooms : RoomStates) (disk : Disk) : WriterPool :=
  .idle { config := config, rooms := rooms, disk := disk }

variable {config : Config} {rooms : RoomStates} {disk : Disk} {h : WriterRun} {p p' : WriterPool}

/-- In every state of a run the task that holds a lock is the one that the lock names. -/
theorem agrees_run (hp : Path writer (started config rooms disk) h p) (f : SavedFile) :
    (lock f).Agrees p := by
  refine hp.invariant (I := (lock f).Agrees) ?_ ?_
  · exact Lock.agrees_idle (by cases f <;> rfl)
  · intro p m p' ha hs
    rcases writer_cases hs with ⟨i, t, rfl, -⟩ | ⟨i, t, c, s', next, rfl, -⟩ | ⟨_, _, _, rfl, -, -, rfl⟩ |
      ⟨rfl, -, rfl⟩
    · exact ha.step (m := .spawn i t) (guards_lock f) hs
    · exact ha.step (m := .act i c) (guards_lock f) hs
    · cases f <;> exact ha
    · cases f <;> exact ha

/-! ## The order of the writes -/

/-- The snapshot that a step takes. -/
def takenBy (x : WriterPool × WriterMove) : List PersistenceCommand :=
  match x.2 with
  | .task (.act i .resume) => ((x.1.tasks[i]?).bind fun t => t.takes x.1.shared).toList
  | _ => []

/-- The command that a step puts into the channel. -/
def enqueued (x : WriterPool × WriterMove) : List PersistenceCommand :=
  match x.2 with
  | .task (.act i .resume) =>
    if x.1.shared.mailbox.isOpen then ((x.1.tasks[i]?).bind WriterTask.sends).toList else []
  | _ => []

/-- The command that a step cannot send any more. -/
def unsent (x : WriterPool × WriterMove) : List PersistenceCommand :=
  match x.2 with
  | .task (.act i .resume) =>
    if x.1.shared.mailbox.isOpen then [] else ((x.1.tasks[i]?).bind WriterTask.sends).toList
  | _ => []

/-- The command that the thread executes, whether its write succeeds or fails. -/
def attempted (x : WriterPool × WriterMove) : List PersistenceCommand :=
  match x.2 with
  | .receive _ => x.1.shared.mailbox.queue.head?.toList
  | _ => []

/-- The commands that are lost when the thread ends. -/
def lost (x : WriterPool × WriterMove) : List PersistenceCommand :=
  match x.2 with
  | .stop => x.1.shared.mailbox.queue
  | _ => []

/-- The commands that write a file. -/
def ofFile (f : SavedFile) (commands : List PersistenceCommand) : List PersistenceCommand :=
  commands.filter fun command => command.file = some f

/-- The commands of one file may be picked before the log is taken or after. -/
theorem log_ofFile (f : SavedFile) (g : WriterPool × WriterMove → List PersistenceCommand)
    (h : WriterRun) : log (fun x => ofFile f (g x)) h = ofFile f (log g h) := by
  rw [log, log, ofFile, List.filter_flatMap]
  rfl

/-- A task that is resumed puts its command into the channel if it is open, and nothing otherwise. -/
theorem enqueued_act {i : Nat} {t : WriterTask} (ht : p.tasks[i]? = some t) :
    enqueued (p, .task (.act i .resume)) =
      if p.shared.mailbox.isOpen then t.sends.toList else [] := by
  simp [enqueued, ht]

/-- What an act does outside memory: it may send a command, and nothing else. -/
theorem Acts.frame {i : Nat} {t : WriterTask} {c : Resume} {s' : Shared} {next : Option WriterTask}
    (ht : p.tasks[i]? = some t) (h : Acts i p.shared t c s' next) :
    s'.disk = p.shared.disk ∧ s'.thread = p.shared.thread ∧
      s'.mailbox.replies = p.shared.mailbox.replies ∧ s'.mailbox.isOpen = p.shared.mailbox.isOpen ∧
      s'.mailbox.queue = p.shared.mailbox.queue ++ enqueued (p, .task (.act i c)) := by
  have hpost : ∀ {command : PersistenceCommand} {mailbox : Mailbox PersistenceCommand WriteResult},
      t.sends = some command → c = .resume → p.shared.mailbox.post command = some mailbox →
      mailbox.replies = p.shared.mailbox.replies ∧ mailbox.isOpen = p.shared.mailbox.isOpen ∧
      mailbox.queue = p.shared.mailbox.queue ++ enqueued (p, .task (.act i c)) := by
    rintro command mailbox hsends rfl hpost
    obtain ⟨hopen, rfl⟩ := Mailbox.post_eq_some.mp hpost
    refine ⟨rfl, rfl, ?_⟩
    rw [enqueued_act ht, hopen, hsends]
    rfl
  -- nothing is put in by a task that is dropped, sends nothing, or finds the channel closed
  have hkeep : (c = .drop ∨ t.sends = none ∨ p.shared.mailbox.isOpen = false) →
      p.shared.mailbox.queue = p.shared.mailbox.queue ++ enqueued (p, .task (.act i c)) := by
    rintro (rfl | hsends | hclosed)
    · simp [enqueued]
    · cases c <;> simp [enqueued, ht, hsends]
    · cases c <;> simp [enqueued, hclosed]
  cases h with
  | mutateSend hp => exact ⟨rfl, rfl, hpost rfl rfl hp⟩
  | removeSend hp => exact ⟨rfl, rfl, hpost rfl rfl hp⟩
  | configSend hp => exact ⟨rfl, rfl, hpost rfl rfl hp⟩
  | shutdownSend hp => exact ⟨rfl, rfl, hpost rfl rfl hp⟩
  | drop => exact ⟨rfl, rfl, rfl, rfl, hkeep (Or.inl rfl)⟩
  | mutateUnsent hclosed => exact ⟨rfl, rfl, rfl, rfl, hkeep (Or.inr (Or.inr hclosed))⟩
  | removeUnsent hclosed => exact ⟨rfl, rfl, rfl, rfl, hkeep (Or.inr (Or.inr hclosed))⟩
  | configUnsent hclosed => exact ⟨rfl, rfl, rfl, rfl, hkeep (Or.inr (Or.inr hclosed))⟩
  | shutdownUnsent hclosed => exact ⟨rfl, rfl, rfl, rfl, hkeep (Or.inr (Or.inr hclosed))⟩
  | other _ _ hsends => exact ⟨rfl, rfl, rfl, rfl, hkeep (Or.inr (Or.inl hsends))⟩
  | _ => exact ⟨rfl, rfl, rfl, rfl, hkeep (Or.inr (Or.inl rfl))⟩

/-- The second stage: what is in the channel is what was put in and has not come out. -/
theorem conserves_queue : Conserves writer (started config rooms disk) (fun p => p.shared.mailbox.queue)
    enqueued attempted lost where
  start := rfl
  step h p m p' _ hs := by
    rcases writer_cases hs with ⟨i, t, rfl, -, -, rfl⟩ | ⟨i, t, c, s', next, rfl, ht, hacts, rfl⟩ |
      ⟨result, command, mailbox, rfl, -, hserve, rfl⟩ | ⟨rfl, -, rfl⟩
    · simp [enqueued, attempted, lost]
    · obtain ⟨-, -, -, -, hqueue⟩ := hacts.frame ht
      rw [Pool.shared_put, hqueue]
      rfl
    · obtain ⟨queue, hqueue, rfl⟩ := Mailbox.serve_eq_some.mp hserve
      simp [enqueued, attempted, lost, hqueue]
    · simp [enqueued, attempted, lost, Mailbox.close]

/-- The snapshot of a file that is taken and not sent yet: its lock's holder has it. -/
def taking (f : SavedFile) (p : WriterPool) : List PersistenceCommand :=
  ((p.shared.holder f).bind fun i => (p.tasks[i]?).bind WriterTask.taken).toList

/-- Who has taken a snapshot of a file holds its lock. -/
theorem ofFile_taken {f : SavedFile} {t : WriterTask} :
    ofFile f t.taken.toList = if t.holds f then t.taken.toList else [] := by
  cases t <;> cases f <;>
    simp [WriterTask.taken, WriterTask.holds, ofFile, PersistenceCommand.file]

/-- The command that a task sends is the snapshot that it has taken, file by file. -/
theorem ofFile_sends (f : SavedFile) (t : WriterTask) :
    ofFile f t.sends.toList = ofFile f t.taken.toList := by
  cases t <;> simp [WriterTask.taken, WriterTask.sends, ofFile, PersistenceCommand.file]

/-- What a task has taken and takes is what it sends, or cannot send, and what it has taken next. -/
theorem Acts.flow {i : Nat} {t : WriterTask} {s s' : Shared} {next : Option WriterTask}
    (h : Acts i s t .resume s' next) (f : SavedFile) :
    ofFile f t.taken.toList ++ ofFile f (t.takes s).toList =
      ofFile f t.sends.toList ++ ofFile f (next.bind WriterTask.taken).toList := by
  cases h with
  | other hentry htakes hsends =>
    rw [ofFile_sends, htakes]
    rfl
  | _ => simp [WriterTask.taken, WriterTask.takes, WriterTask.sends, ofFile, PersistenceCommand.file]

/-- The holder of a file's lock has its snapshot. -/
theorem taking_eq {f : SavedFile} {i : Nat} (hheld : p.shared.holder f = some i) :
    taking f p = ((p.tasks[i]?).bind WriterTask.taken).toList := by
  rw [taking, hheld]
  rfl

/-- With the lock free nobody has a snapshot taken and not sent. -/
theorem taking_free {f : SavedFile} (hfree : p.shared.holder f = none) : taking f p = [] := by
  rw [taking, hfree]
  rfl

/-- Behind the acting task's snapshots comes what another task has taken; and where another has, the
    acting task has none of this file. -/
theorem taking_put {f : SavedFile} {i : Nat} {t : WriterTask} {s' : Shared} {next : Option WriterTask}
    (ha : (lock f).Agrees p) (ht : p.tasks[i]? = some t)
    (hr : (lock f).Respects i t p.shared (s', next)) :
    (taking f p = ofFile f t.taken.toList ∧
      taking f (p.put s' i next) = ofFile f (next.bind WriterTask.taken).toList) ∨
    (t.holds f = false ∧ next.any (WriterTask.holds f) = false ∧
      taking f (p.put s' i next) = taking f p) := by
  have hnext : ofFile f (next.bind WriterTask.taken).toList =
      if next.any (WriterTask.holds f) then (next.bind WriterTask.taken).toList else [] := by
    cases next with
    | none => rfl
    | some u => exact ofFile_taken
  rw [hnext, ofFile_taken]
  -- the lock is as it was, or is taken by this step, or is freed by it
  rcases hr with ⟨hsame, hholds⟩ | ⟨hfree, htaken, hout, hin⟩ | ⟨hheld, hfreed, hout⟩
  · cases hh : t.holds f with
    | true =>
      have hheld : p.shared.holder f = some i := ha.1 i t ht hh
      refine Or.inl ⟨by rw [taking_eq hheld, ht]; rfl, ?_⟩
      have hin : next.any (WriterTask.holds f) = true := hholds.trans hh
      rw [hin, if_pos rfl, taking_eq (show s'.holder f = some i from hsame.trans hheld), Pool.tasks_put,
        if_pos rfl]
    | false =>
      refine Or.inr ⟨rfl, hholds.trans hh, ?_⟩
      have hsame' : (p.put s' i next).shared.holder f = p.shared.holder f := hsame
      cases hheld : p.shared.holder f with
      | none => rw [taking_free hheld, taking_free (hsame'.trans hheld)]
      | some j =>
        obtain ⟨u, hu, hhu⟩ := ha.2 j hheld
        have hne : i ≠ j := by
          rintro rfl
          cases ht.symm.trans hu
          exact Bool.false_ne_true (hh.symm.trans hhu)
        rw [taking_eq hheld, taking_eq (hsame'.trans hheld), Pool.tasks_put, if_neg hne]
  · refine Or.inl ⟨?_, ?_⟩
    · rw [show t.holds f = false from hout, if_neg Bool.false_ne_true, taking_free hfree]
    · rw [show next.any (WriterTask.holds f) = true from hin, if_pos rfl,
        taking_eq (show s'.holder f = some i from htaken), Pool.tasks_put, if_pos rfl]
  · refine Or.inl ⟨?_, ?_⟩
    · rw [show t.holds f = true from hheld, if_pos rfl, taking_eq (ha.1 i t ht hheld), ht]
      rfl
    · rw [show next.any (WriterTask.holds f) = false from hout, if_neg Bool.false_ne_true,
        taking_free (show s'.holder f = none from hfreed)]

/-- A task that starts has taken nothing. -/
theorem taking_spawn {f : SavedFile} {i : Nat} (t : WriterTask) (ha : (lock f).Agrees p)
    (hnone : p.tasks[i]? = none) : taking f (p.put p.shared i (some t)) = taking f p := by
  cases hheld : p.shared.holder f with
  | none => rw [taking_free hheld, taking_free (show (p.put _ _ _).shared.holder f = none from hheld)]
  | some j =>
    obtain ⟨u, hu, -⟩ := ha.2 j hheld
    have hne : i ≠ j := by
      rintro rfl
      cases hnone.symm.trans hu
    rw [taking_eq hheld, taking_eq (show (p.put _ _ _).shared.holder f = some j from hheld),
      Pool.tasks_put, if_neg hne]

/-- The first stage: a file's lock admits one snapshot at a time. -/
theorem conserves_taking (f : SavedFile) : Conserves writer (started config rooms disk) (taking f)
    (fun x => ofFile f (takenBy x)) (fun x => ofFile f (enqueued x)) fun x => ofFile f (unsent x) where
  start := by cases f <;> rfl
  step h p m p' hp hs := by
    have ha := agrees_run hp f
    rcases writer_cases hs with ⟨i, t, rfl, -, hnone, rfl⟩ | ⟨i, t, c, s', next, rfl, ht, hacts, rfl⟩ |
      ⟨result, command, mailbox, rfl, -, -, rfl⟩ | ⟨rfl, -, rfl⟩
    · exact (List.append_nil _).trans (taking_spawn t ha hnone).symm
    · cases c with
      | drop =>
        -- a task is dropped where it has taken nothing
        have hkeep : taking f (p.put s' i next) = taking f p := by
          rcases taking_put ha ht (hacts.respects f) with ⟨htaken, hnext⟩ | ⟨-, -, hkeep⟩
          · cases hacts with
            | drop hno => rw [htaken, hnext, hno]; rfl
          · exact hkeep
        exact (List.append_nil _).trans hkeep.symm
      | resume =>
        have hflow := hacts.flow f
        have htakes : takenBy (p, .task (.act i .resume)) = (t.takes p.shared).toList := by
          simp [takenBy, ht]
        have hsends : ofFile f (enqueued (p, .task (.act i .resume))) ++
            ofFile f (unsent (p, .task (.act i .resume))) = ofFile f t.sends.toList := by
          cases hopen : p.shared.mailbox.isOpen <;> simp [enqueued, unsent, ht, hopen, ofFile]
        rw [hsends, htakes]
        rcases taking_put ha ht (hacts.respects f) with ⟨htaken, hnext⟩ | ⟨hout, hout', hkeep⟩
        · rw [htaken, hnext]
          exact hflow
        · -- the task is in no transaction of this file
          have hnext : ofFile f (next.bind WriterTask.taken).toList = [] := by
            cases next with
            | none => rfl
            | some u =>
              rw [Option.bind_some, ofFile_taken, show u.holds f = false from hout',
                if_neg Bool.false_ne_true]
          have htaken : ofFile f t.taken.toList = [] := by
            rw [ofFile_taken, hout, if_neg Bool.false_ne_true]
          rw [ofFile_sends, htaken, hnext] at hflow
          rw [hkeep, ofFile_sends, htaken, show ofFile f (t.takes p.shared).toList = [] from hflow]
          exact List.append_nil _
    · exact (List.append_nil _).trans (by cases f <;> rfl)
    · exact (List.append_nil _).trans (by cases f <;> rfl)

/-- The writes of a file are attempted in the order in which its transactions took the snapshots. -/
theorem log_attempted_sublist (hp : Path writer (started config rooms disk) h p) (f : SavedFile) :
    (ofFile f (log attempted h)).Sublist (ofFile f (log takenBy h)) := by
  have hfirst := (conserves_taking f).inOrder hp
  rw [log_ofFile, log_ofFile] at hfirst
  calc (ofFile f (log attempted h)).Sublist (ofFile f (log attempted h ++ p.shared.mailbox.queue)) :=
        (List.sublist_append_left _ _).filter _
    _ |>.Sublist (ofFile f (log enqueued h)) := (conserves_queue.inOrder hp).filter _
    _ |>.Sublist (ofFile f (log takenBy h)) := (List.sublist_append_left _ _).trans hfirst

/-! ## What has been attempted -/

/-- The command whose write succeeds. -/
def written (x : WriterPool × WriterMove) : List PersistenceCommand :=
  match x.2 with
  | .receive .ok => x.1.shared.mailbox.queue.head?.toList
  | _ => []

/-- The config of a command that saves one. -/
def PersistenceCommand.config? : PersistenceCommand → Option Config
  | .saveConfig config => some config
  | _ => none

/-- The settings of a command that saves some. -/
def PersistenceCommand.settings? : PersistenceCommand → Option (BTreeMap Int RoomSettings)
  | .saveRooms settings => some settings
  | _ => none

/-- A write that fails leaves the file as it was: the temporary file is never renamed over it. -/
theorem Disk.write_err (disk : Disk) (command : PersistenceCommand) : disk.write command .err = disk := by
  cases command <;> rfl

/-- A write that succeeds puts the config there if it is one of the config. -/
theorem Disk.config_write (disk : Disk) (command : PersistenceCommand) :
    (disk.write command .ok).config = command.config?.getD disk.config := by
  cases command <;> rfl

/-- The same for the rooms. -/
theorem Disk.rooms_write (disk : Disk) (command : PersistenceCommand) :
    (disk.write command .ok).rooms = command.settings?.getD disk.rooms := by
  cases command <;> rfl

/-- The last of what is selected, with one more at the end. -/
theorem getLast?_filterMap_append {α β : Type} (g : α → Option β) (l : List α) (a : α) (d : β) :
    ((l ++ [a]).filterMap g).getLast?.getD d = (g a).getD ((l.filterMap g).getLast?.getD d) := by
  cases h : g a <;> simp [List.filterMap_append, h]

/-- What the history says about the channel, the replies and the files. -/
structure Served (disk : Disk) (h : WriterRun) (p : WriterPool) : Prop where
  count : (log enqueued h).length = p.shared.mailbox.next
  order : log attempted h <+: log enqueued h
  /-- Before the thread ends, what has not been attempted is in the channel. -/
  channel : p.shared.thread ≠ .stopped →
    p.shared.mailbox.isOpen = true ∧ log enqueued h = log attempted h ++ p.shared.mailbox.queue
  ended : p.shared.thread = .stopped → p.shared.mailbox.isOpen = false ∧ p.shared.mailbox.queue = []
  replied : ∀ ticket, p.shared.mailbox.reply ticket = some .ok → ticket < (log attempted h).length
  config : p.shared.disk.config =
    ((log written h).filterMap PersistenceCommand.config?).getLast?.getD disk.config
  rooms : p.shared.disk.rooms =
    ((log written h).filterMap PersistenceCommand.settings?).getLast?.getD disk.rooms

/-- Without the thread, only the channel grows. -/
theorem Served.task {m : Move WriterTask Resume} (hs : Served disk h p)
    (hdisk : p'.shared.disk = p.shared.disk) (hthread : p'.shared.thread = p.shared.thread)
    (hreplies : p'.shared.mailbox.replies = p.shared.mailbox.replies)
    (hopen : p'.shared.mailbox.isOpen = p.shared.mailbox.isOpen)
    (hqueue : p'.shared.mailbox.queue = p.shared.mailbox.queue ++ enqueued (p, .task m))
    (hclosed : p.shared.mailbox.isOpen = false → enqueued (p, .task m) = []) :
    Served disk ((p, .task m) :: h) p' where
  count := by
    rw [log_cons, List.length_append, hs.count, Mailbox.next, Mailbox.next, hreplies, hqueue,
      List.length_append, Nat.add_assoc]
  -- a task attempts no write
  order := by
    have hno : attempted (p, .task m) = [] := rfl
    rw [log_cons, log_cons, hno, List.append_nil]
    exact hs.order.trans (List.prefix_append _ _)
  channel hrun := by
    obtain ⟨hisOpen, hchannel⟩ := hs.channel (hthread ▸ hrun)
    rw [log_cons, log_cons, hchannel, hqueue, hopen]
    exact ⟨hisOpen, by simp [attempted]⟩
  ended hstop := by
    obtain ⟨hisClosed, hempty⟩ := hs.ended (hthread ▸ hstop)
    rw [hopen, hqueue, hempty, hclosed hisClosed]
    exact ⟨hisClosed, rfl⟩
  replied ticket hreply := by
    rw [Mailbox.reply, hreplies] at hreply
    rw [log_cons, List.length_append]
    exact Nat.lt_add_right _ (hs.replied ticket hreply)
  config := by
    rw [hdisk, hs.config, log_cons]
    simp [written]
  rooms := by
    rw [hdisk, hs.rooms, log_cons]
    simp [written]

/-- In every run the attempted commands are a prefix of those sent, the replies are for attempted ones, and
    each file shows the last of its commands that succeeded. -/
theorem served_run (hp : Path writer (started config rooms disk) h p) : Served disk h p := by
  induction hp with
  | start =>
    refine ⟨rfl, List.prefix_rfl, fun _ => ⟨rfl, rfl⟩, fun hstop => ?_, fun ticket hreply => ?_, rfl, rfl⟩
    · cases hstop
    · cases hreply
  | @step h p p' m hp hs ih =>
    rcases writer_cases hs with ⟨i, t, rfl, -, -, rfl⟩ | ⟨i, t, c, s', next, rfl, ht, hacts, rfl⟩ |
      ⟨result, command, mailbox, rfl, hthread, hserve, rfl⟩ | ⟨rfl, hthread, rfl⟩
    · exact ih.task rfl rfl rfl rfl (List.append_nil _).symm fun _ => rfl
    · obtain ⟨hdisk, hthread, hreplies, hopen, hqueue⟩ := hacts.frame ht
      refine ih.task hdisk hthread hreplies hopen hqueue ?_
      intro hclosed
      cases c <;> simp [enqueued, hclosed]
    · obtain ⟨queue, hqueue, rfl⟩ := Mailbox.serve_eq_some.mp hserve
      have hrun : p.shared.thread ≠ .stopped := by simp [hthread]
      obtain ⟨hopen, hchannel⟩ := ih.channel hrun
      have hhead : attempted (p, .receive result) = [command] := by simp [attempted, hqueue]
      have hlost : enqueued (p, .receive result) = [] := rfl
      have hchannel' : log enqueued ((p, .receive result) :: h) =
          log attempted ((p, .receive result) :: h) ++ queue := by
        rw [log_cons, log_cons, hhead, hlost, hchannel, hqueue]
        simp
      have hcount := ih.count
      refine ⟨?_, ⟨queue, hchannel'.symm⟩, fun _ => ⟨hopen, hchannel'⟩, ?_, ?_, ?_, ?_⟩
      · rw [log_cons, hlost, List.append_nil, hcount, Mailbox.next, Mailbox.next, hqueue]
        simp only [List.length_append, List.length_cons, List.length_nil]
        omega
      · intro hstop
        exfalso
        revert hstop
        dsimp only
        split <;> simp
      · intro ticket hreply
        -- a reply is the reply to one of the commands that have been attempted
        have hticket : ticket < (p.shared.mailbox.replies ++ [answer result command]).length :=
          (List.getElem?_eq_some_iff.mp hreply).1
        have hlength : (log attempted h).length = p.shared.mailbox.replies.length := by
          have heq := congrArg List.length hchannel
          rw [List.length_append, hcount, Mailbox.next] at heq
          omega
        rw [List.length_append] at hticket
        rw [log_cons, hhead, List.length_append, hlength]
        exact hticket
      · cases result with
        | err =>
          have hwritten : written (p, .receive .err) = [] := rfl
          rw [log_cons, hwritten, List.append_nil]
          exact (congrArg Disk.config (p.shared.disk.write_err command)).trans ih.config
        | ok =>
          have hwritten : written (p, .receive .ok) = [command] := hhead
          rw [log_cons, hwritten, getLast?_filterMap_append, ← ih.config]
          exact p.shared.disk.config_write command
      · cases result with
        | err =>
          have hwritten : written (p, .receive .err) = [] := rfl
          rw [log_cons, hwritten, List.append_nil]
          exact (congrArg Disk.rooms (p.shared.disk.write_err command)).trans ih.rooms
        | ok =>
          have hwritten : written (p, .receive .ok) = [command] := hhead
          rw [log_cons, hwritten, getLast?_filterMap_append, ← ih.rooms]
          exact p.shared.disk.rooms_write command
    · have hlog : ∀ f : WriterPool × WriterMove → List PersistenceCommand, f (p, .stop) = [] →
          log f ((p, .stop) :: h) = log f h := by
        intro f hf
        rw [log_cons, hf, List.append_nil]
      refine ⟨?_, ?_, fun hrun => absurd rfl hrun, fun _ => ⟨rfl, rfl⟩, ?_, ?_, ?_⟩
      · rw [hlog enqueued rfl, ih.count]
        simp [Mailbox.next, Mailbox.close]
      · rw [hlog enqueued rfl, hlog attempted rfl]
        exact ih.order
      · intro ticket hreply
        rw [hlog attempted rfl]
        refine ih.replied ticket ?_
        -- the commands that are lost are not answered `ok`
        by_cases hticket : ticket < p.shared.mailbox.replies.length
        · exact (List.getElem?_append_left hticket).symm.trans hreply
        · exfalso
          have hlost := (List.getElem?_append_right (Nat.le_of_not_lt hticket)).symm.trans hreply
          rw [List.getElem?_map] at hlost
          obtain ⟨command, -, hne⟩ := Option.map_eq_some_iff.mp hlost
          cases hne
      · rw [hlog written rfl]
        exact ih.config
      · rw [hlog written rfl]
        exact ih.rooms

/-! ## Shutdown -/

/-- The call of `shutdown` in the task `i` has sent its command under the ticket; `older` is the history
    before. -/
def ShutdownSent (i ticket : Nat) (h older : WriterRun) : Prop :=
  ∃ newer q, h = newer ++ (q, .task (.act i .resume)) :: older ∧ q.tasks[i]? = some .shutdown ∧
    q.shared.mailbox.next = ticket

/-- That a shutdown was sent stays true. -/
theorem ShutdownSent.cons {i ticket : Nat} {older : WriterRun} (hs : ShutdownSent i ticket h older)
    (x : WriterPool × WriterMove) : ShutdownSent i ticket (x :: h) older := by
  obtain ⟨newer, q, rfl, hq⟩ := hs
  exact ⟨x :: newer, q, rfl, hq⟩

/-- A shutdown that waits has sent its command, and waits under that ticket. -/
theorem shutdownSent_run (hp : Path writer (started config rooms disk) h p) :
    ∀ i ticket, p.tasks[i]? = some (.shutdownWaiting ticket) → ∃ older, ShutdownSent i ticket h older := by
  induction hp with
  | start =>
    intro i ticket hi
    rw [started, Pool.idle, Std.ExtTreeMap.getElem?_empty] at hi
    cases hi
  | @step h p p' m hp hs ih =>
    have hkeep : ∀ i ticket, p.tasks[i]? = some (.shutdownWaiting ticket) →
        ∃ older, ShutdownSent i ticket ((p, m) :: h) older := by
      intro i ticket hi
      obtain ⟨older, hsent⟩ := ih i ticket hi
      exact ⟨older, hsent.cons _⟩
    -- only a task that sends its shutdown comes to wait for the reply
    rcases writer_cases hs with ⟨j, t, rfl, hentry, -, rfl⟩ | ⟨j, t, c, s', next, rfl, ht, hacts, rfl⟩ |
      ⟨result, command, mailbox, rfl, -, -, rfl⟩ | ⟨rfl, -, rfl⟩
    · intro i ticket hi
      rw [Pool.tasks_put] at hi
      split at hi
      · cases hi
        cases hentry
      · exact hkeep i ticket hi
    · intro i ticket hi
      rw [Pool.tasks_put] at hi
      split at hi
      · rename_i hij
        subst hij
        subst hi
        cases hacts with
        | shutdownSend hpost => exact ⟨h, [], p, rfl, ht, rfl⟩
      · exact hkeep i ticket hi
    · exact hkeep
    · exact hkeep

/-- The log of a run in two parts is that of one and then of the other. -/
theorem log_append {f : WriterPool × WriterMove → List PersistenceCommand} (newer older : WriterRun) :
    log f (newer ++ older) = log f older ++ log f newer := by
  simp [log]

/-- What was put into the channel before an acknowledged `Shutdown` has been attempted. -/
theorem attempted_of_shutdown (hp : Path writer (started config rooms disk) h p) {i ticket : Nat}
    (hi : p.tasks[i]? = some (.shutdownWaiting ticket))
    (hreply : p.shared.mailbox.reply ticket = some .ok) :
    ∃ older, ShutdownSent i ticket h older ∧ log enqueued older <+: log attempted h := by
  obtain ⟨older, newer, q, rfl, hq, rfl⟩ := shutdownSent_run hp i ticket hi
  obtain ⟨q', hbefore, -, -⟩ := hp.cut
  have hserved := served_run hp
  refine ⟨older, ⟨newer, q, rfl, hq, rfl⟩, ?_⟩
  refine List.prefix_of_prefix_length_le ?_ hserved.order ?_
  · rw [log_append, log_cons, List.append_assoc]
    exact List.prefix_append _ _
  · rw [(served_run hbefore).count]
    exact Nat.le_of_lt (hserved.replied _ hreply)

/-! ## Removed rooms -/

/-- The command is a snapshot of the rooms. -/
def PersistenceCommand.isRooms (command : PersistenceCommand) : Bool := decide (command.file = some .rooms)

/-- The command does not bring the chat's room back. -/
def Lacks (chatId : Int) (command : PersistenceCommand) : Prop :=
  ∀ settings, command = .saveRooms settings → settings[chatId]? = none

/-- The step is the return of a `remove_room` of the chat with `Ok`. -/
def RemovedOk (chatId : Int) (x : WriterPool × WriterMove) : Prop :=
  ∃ i ticket, x.2 = .task (.act i .resume) ∧ x.1.tasks[i]? = some (.removeSaving chatId ticket) ∧
    x.1.shared.mailbox.reply ticket = some .ok

/-- The step finds no room of the chat in memory. -/
def Absent (chatId : Int) (x : WriterPool × WriterMove) : Prop := x.1.shared.rooms.get chatId = none

/-- While a removal waits, its snapshot lacks the room and is the last one in the channel; once it is
    answered, no snapshot is in the channel, and if the answer is `Ok` the file lacks the room. -/
def RemovePosition (s : Shared) : WriterTask → Prop
  | .removeTaken chatId settings => settings[chatId]? = none
  | .removeSaving chatId ticket =>
    (∃ before settings, Mailbox.Pending PersistenceCommand.isRooms s.mailbox ticket before
      (.saveRooms settings) ∧ settings[chatId]? = none) ∨
    ((∀ command ∈ s.mailbox.queue, command.isRooms = false) ∧ (s.mailbox.reply ticket).isSome = true ∧
      (s.mailbox.reply ticket = some .ok → s.disk.rooms[chatId]? = none))
  | _ => True

/-- What a run keeps: the positions of the removals, and that nothing brings a removed room back. -/
structure Removed (h : WriterRun) (p : WriterPool) : Prop where
  position : ∀ (i : Nat) (t : WriterTask), p.tasks[i]? = some t → RemovePosition p.shared t
  gone : ∀ chatId, Since (Absent chatId) (RemovedOk chatId) h → p.shared.rooms.get chatId = none →
    p.shared.disk.rooms[chatId]? = none ∧ (∀ command ∈ p.shared.mailbox.queue, Lacks chatId command) ∧
      ∀ (i : Nat) (t : WriterTask) (command : PersistenceCommand), p.tasks[i]? = some t →
        t.taken = some command → Lacks chatId command

/-- Behind the back of a removal only commands of another kind are sent. -/
theorem RemovePosition.frame {s s' : Shared} {t : WriterTask} {others : List PersistenceCommand}
    (hpos : RemovePosition s t) (hdisk : s'.disk = s.disk)
    (hreplies : s'.mailbox.replies = s.mailbox.replies)
    (hqueue : s'.mailbox.queue = s.mailbox.queue ++ others)
    (hothers : t.holds .rooms = true → ∀ command ∈ others, command.isRooms = false) :
    RemovePosition s' t := by
  cases t with
  | removeTaken chatId settings => exact hpos
  | removeSaving chatId ticket =>
    have hother := hothers rfl
    have hreply : s'.mailbox.reply ticket = s.mailbox.reply ticket := by
      rw [Mailbox.reply, hreplies, Mailbox.reply]
    rcases hpos with ⟨before, settings, hpending, hlacks⟩ | ⟨hnone, hsome, hok⟩
    · exact Or.inl ⟨before, settings, hpending.append hqueue hreplies hother, hlacks⟩
    · refine Or.inr ⟨?_, hreply ▸ hsome, fun h => hdisk ▸ hok (hreply ▸ h)⟩
      intro command hmem
      rw [hqueue] at hmem
      exact (List.mem_append.mp hmem).elim (hnone command) (hother command)
  | _ => trivial

/-- Only who holds the rooms' lock sends snapshots of the rooms. -/
theorem isRooms_of_enqueued {i : Nat} {t : WriterTask} {c : Resume} {command : PersistenceCommand}
    (ht : p.tasks[i]? = some t) (hmem : command ∈ enqueued (p, .task (.act i c)))
    (hout : t.holds .rooms = false) : command.isRooms = false := by
  have hsends : t.sends = some command := by
    cases c with
    | drop => cases hmem
    | resume =>
      rw [enqueued_act ht] at hmem
      split at hmem
      · exact Option.mem_toList.mp hmem
      · cases hmem
  have hnone : ofFile .rooms t.sends.toList = [] := by
    rw [ofFile_sends, ofFile_taken, hout, if_neg Bool.false_ne_true]
  rw [hsends] at hnone
  simpa [ofFile, PersistenceCommand.isRooms] using hnone

/-- What is sent has been taken, or is a `Shutdown`. -/
theorem taken_of_sends {t : WriterTask} {command : PersistenceCommand} (h : t.sends = some command) :
    t.taken = some command ∨ command = .shutdown := by
  cases t <;> cases h <;> first | exact Or.inl rfl | exact Or.inr rfl

/-- A command of another kind brings no room back. -/
theorem lacks_of_not_isRooms {command : PersistenceCommand} (h : command.isRooms = false) (chatId : Int) :
    Lacks chatId command := by
  rintro settings rfl
  cases h

/-- A write does not bring back a room that its snapshot lacks. -/
theorem Lacks.write {chatId : Int} {command : PersistenceCommand} (h : Lacks chatId command) {disk : Disk}
    (hdisk : disk.rooms[chatId]? = none) (result : WriteResult) :
    (disk.write command result).rooms[chatId]? = none := by
  cases result with
  | err => rw [Disk.write_err]; exact hdisk
  | ok =>
    rw [Disk.rooms_write]
    cases command with
    | saveRooms settings => exact h settings rfl
    | saveConfig config => exact hdisk
    | shutdown => exact hdisk

/-- A snapshot of the rooms is one of the rooms in memory. -/
theorem Acts.taken_settings {i : Nat} {t u : WriterTask} {c : Resume} {s s' : Shared}
    (h : Acts i s t c s' (some u)) {settings : BTreeMap Int RoomSettings}
    (hu : u.taken = some (.saveRooms settings)) : settings = s'.rooms.settings := by
  cases h <;> cases hu <;> rfl

/-- The thread brings a removal forward, and answers it with the truth. -/
theorem RemovePosition.receive {s : Shared} {t : WriterTask} {result : WriteResult}
    {command : PersistenceCommand} {mailbox : Mailbox PersistenceCommand WriteResult}
    {thread : WriterThread} (hpos : RemovePosition s t)
    (hserve : s.mailbox.serve (answer result) = some (command, mailbox)) :
    RemovePosition { s with
      mailbox := mailbox, disk := s.disk.write command result, thread := thread } t := by
  cases t with
  | removeTaken chatId settings => exact hpos
  | removeSaving chatId ticket =>
    rcases hpos with ⟨before, settings, hpending, hlacks⟩ | ⟨hnone, hsome, hok⟩
    · rcases hpending.serve hserve with ⟨rest, -, hrest⟩ | ⟨-, rfl, -, hreply, hempty⟩
      · exact Or.inl ⟨rest, settings, hrest, hlacks⟩
      · refine Or.inr ⟨hempty, Option.isSome_iff_exists.mpr ⟨_, hreply⟩, ?_⟩
        intro hok
        obtain rfl : result = .ok := Option.some.inj (hreply.symm.trans hok)
        exact hlacks
    · obtain ⟨reply, hreply⟩ := Option.isSome_iff_exists.mp hsome
      have hreply' := Mailbox.reply_serve hreply hserve
      obtain ⟨queue, hqueue, rfl⟩ := Mailbox.serve_eq_some.mp hserve
      refine Or.inr ⟨fun b hb => hnone b (hqueue ▸ List.mem_cons_of_mem _ hb),
        Option.isSome_iff_exists.mpr ⟨_, hreply'⟩, ?_⟩
      intro hok'
      have hdisk := hok (hreply.trans (hreply'.symm.trans hok'))
      exact (lacks_of_not_isRooms (hnone command (hqueue ▸ List.mem_cons_self)) chatId).write hdisk result
  | _ => trivial

/-- When the thread ends with all its commands refused, a removal that waits gets an error, so nothing is
    claimed of the file. -/
theorem RemovePosition.close {s : Shared} {t : WriterTask} {thread : WriterThread}
    (hpos : RemovePosition s t) :
    RemovePosition { s with mailbox := s.mailbox.close .err, thread := thread } t := by
  cases t with
  | removeTaken chatId settings => exact hpos
  | removeSaving chatId ticket =>
    rcases hpos with ⟨before, settings, hpending, -⟩ | ⟨-, hsome, hok⟩
    · have hreply := hpending.close .err
      refine Or.inr ⟨fun _ h => absurd h List.not_mem_nil, Option.isSome_iff_exists.mpr ⟨_, hreply⟩, ?_⟩
      intro hok
      cases hreply.symm.trans hok
    · obtain ⟨reply, hreply⟩ := Option.isSome_iff_exists.mp hsome
      have hreply' := Mailbox.reply_close hreply .err
      refine Or.inr ⟨fun _ h => absurd h List.not_mem_nil, Option.isSome_iff_exists.mpr ⟨_, hreply'⟩, ?_⟩
      exact fun hok' => hok (hreply.trans (hreply'.symm.trans hok'))
  | _ => trivial

/-- The position that an act leads to. -/
theorem Acts.removePosition {i : Nat} {t u : WriterTask} {c : Resume} {s s' : Shared}
    (h : Acts i s t c s' (some u)) (hpos : RemovePosition s t) : RemovePosition s' u := by
  cases h with
  | removeTake => simp [RemovePosition]
  | removeSend hpost => exact Or.inl ⟨_, _, .post hpost, hpos⟩
  | _ => trivial

/-- At the return of a removal that succeeded, no snapshot is in flight and the file lacks the room. -/
theorem Removed.returned {chatId : Int} {m : WriterMove} (hr : Removed h p)
    (ha : (lock .rooms).Agrees p) (hok : RemovedOk chatId (p, m)) :
    p.shared.disk.rooms[chatId]? = none ∧ (∀ command ∈ p.shared.mailbox.queue, Lacks chatId command) ∧
      ∀ (i : Nat) (t : WriterTask) (command : PersistenceCommand), p.tasks[i]? = some t →
        t.taken = some command → Lacks chatId command := by
  obtain ⟨i, ticket, -, hi, hreply⟩ := hok
  rcases hr.position i _ hi with ⟨before, settings, hpending, -⟩ | ⟨hnone, -, hdisk⟩
  · cases hpending.reply_eq_none.symm.trans hreply
  · refine ⟨hdisk hreply, fun command hmem => lacks_of_not_isRooms (hnone command hmem) chatId, ?_⟩
    intro j u command hj htaken
    by_cases hholds : u.holds .rooms = true
    · -- the lock's holder is the removal, which has taken nothing
      obtain rfl : j = i := ha.unique hj hi hholds rfl
      cases hj.symm.trans hi
      cases htaken
    · rintro settings rfl
      have hfile := ofFile_taken (f := .rooms) (t := u)
      rw [if_neg hholds, htaken] at hfile
      cases hfile

/-- A task at its entry has taken no snapshot. -/
theorem WriterTask.taken_of_entry {t : WriterTask} (h : t.entry = true) : t.taken = none := by
  cases t <;> first | rfl | cases h

/-- A task that starts brings nothing back. -/
theorem Removed.spawn {i : Nat} {t : WriterTask} (hr : Removed h p) (hentry : t.entry = true) :
    Removed ((p, .task (.spawn i t)) :: h) (p.put p.shared i (some t)) := by
  have htask : ∀ {j : Nat} {u : WriterTask}, (p.put p.shared i (some t)).tasks[j]? = some u →
      u.entry = true ∨ p.tasks[j]? = some u := by
    intro j u hu
    rw [Pool.tasks_put] at hu
    split at hu
    · cases hu
      exact Or.inl hentry
    · exact Or.inr hu
  refine ⟨?_, ?_⟩
  · intro j u hu
    rcases htask hu with hu | hu
    · cases u <;> first | exact trivial | cases hu
    · exact hr.position j u hu
  · intro chatId hsince habsent
    rcases since_cons.mp hsince with ⟨_, _, hm, -⟩ | ⟨hbefore, hsince⟩
    · cases hm
    · obtain ⟨hdisk, hqueue, htaken⟩ := hr.gone chatId hsince hbefore
      refine ⟨hdisk, hqueue, ?_⟩
      intro j u command hu hcommand
      rcases htask hu with hu | hu
      · cases (WriterTask.taken_of_entry hu).symm.trans hcommand
      · exact htaken j u command hu hcommand

/-- An act of a task keeps what is said of the removals: a new snapshot is taken of rooms in memory, from
    which the removed one is gone. -/
theorem Removed.act {i : Nat} {t : WriterTask} {c : Resume} {s' : Shared} {next : Option WriterTask}
    (hr : Removed h p) (ha : (lock .rooms).Agrees p) (ht : p.tasks[i]? = some t)
    (hacts : Acts i p.shared t c s' next) :
    Removed ((p, .task (.act i c)) :: h) (p.put s' i next) := by
  obtain ⟨hdisk, -, hreplies, -, hqueue⟩ := hacts.frame ht
  refine ⟨?_, ?_⟩
  · intro j u hu
    rw [Pool.tasks_put] at hu
    split at hu
    · rename_i hij
      subst hij
      subst hu
      exact hacts.removePosition (hr.position i t ht)
    · rename_i hij
      refine (hr.position j u hu).frame hdisk hreplies hqueue ?_
      intro hholds command hmem
      refine isRooms_of_enqueued ht hmem ?_
      rw [Bool.eq_false_iff]
      intro hholds'
      exact hij (ha.unique ht hu hholds' hholds)
  · intro chatId hsince habsent
    have hbefore : p.shared.disk.rooms[chatId]? = none ∧
        (∀ command ∈ p.shared.mailbox.queue, Lacks chatId command) ∧
        ∀ (i : Nat) (t : WriterTask) (command : PersistenceCommand), p.tasks[i]? = some t →
          t.taken = some command → Lacks chatId command := by
      -- the removal returned in this step, or the room has been absent since before it
      rcases since_cons.mp hsince with hok | ⟨hbefore, hsince⟩
      · exact hr.returned ha hok
      · exact hr.gone chatId hsince hbefore
    obtain ⟨hfile, hin, htaken⟩ := hbefore
    refine ⟨?_, ?_, ?_⟩
    · rw [Pool.shared_put, hdisk]
      exact hfile
    · intro command hmem
      rw [Pool.shared_put, hqueue] at hmem
      rcases List.mem_append.mp hmem with hmem | hmem
      · exact hin command hmem
      · -- what is sent was taken before
        cases c with
        | drop => cases hmem
        | resume =>
          rw [enqueued_act ht] at hmem
          split at hmem
          · rcases taken_of_sends (Option.mem_toList.mp hmem) with hcommand | rfl
            · exact htaken i t command ht hcommand
            · rintro settings ⟨⟩
          · cases hmem
    · intro j u command hu hcommand
      rw [Pool.tasks_put] at hu
      split at hu
      · subst hu
        rintro settings rfl
        rw [hacts.taken_settings hcommand, RoomStates.getElem?_settings]
        show (s'.rooms.get chatId).map _ = none
        rw [show s'.rooms.get chatId = none from habsent]
        rfl
      · exact htaken j u command hu hcommand

/-- In every state of a run the removals are where `Removed` says, and no removed room has come back. -/
theorem removed_run (hp : Path writer (started config rooms disk) h p) : Removed h p := by
  induction hp with
  | start =>
    refine ⟨?_, ?_⟩
    · intro i t ht
      rw [started, Pool.idle, Std.ExtTreeMap.getElem?_empty] at ht
      cases ht
    · rintro chatId ⟨newer, x, older, heq, -⟩
      cases newer <;> cases heq
  | @step h p p' m hp hs ih =>
    have ha := agrees_run hp .rooms
    -- a spawn, a step of a task, a served command, or the end of the thread
    rcases writer_cases hs with ⟨i, t, rfl, hentry, -, rfl⟩ | ⟨i, t, c, s', next, rfl, ht, hacts, rfl⟩ |
      ⟨result, command, mailbox, rfl, -, hserve, rfl⟩ | ⟨rfl, -, rfl⟩
    · exact ih.spawn hentry
    · exact ih.act ha ht hacts
    · refine ⟨fun i t ht => (ih.position i t ht).receive hserve, ?_⟩
      intro chatId hsince habsent
      rcases since_cons.mp hsince with ⟨_, _, hm, -⟩ | ⟨hbefore, hsince⟩
      · cases hm
      · obtain ⟨hdisk, hqueue, htaken⟩ := ih.gone chatId hsince hbefore
        obtain ⟨queue, hhead, rfl⟩ := Mailbox.serve_eq_some.mp hserve
        refine ⟨(hqueue command (hhead ▸ List.mem_cons_self)).write hdisk result, ?_, htaken⟩
        intro b hb
        exact hqueue b (hhead ▸ List.mem_cons_of_mem _ hb)
    · refine ⟨fun i t ht => (ih.position i t ht).close, ?_⟩
      intro chatId hsince habsent
      rcases since_cons.mp hsince with ⟨_, _, hm, -⟩ | ⟨hbefore, hsince⟩
      · cases hm
      · obtain ⟨hdisk, -, htaken⟩ := ih.gone chatId hsince hbefore
        exact ⟨hdisk, fun _ h => absurd h List.not_mem_nil, htaken⟩

/-! ## The three together -/

/-- **Writes are ordered.**  In every run of any number of room mutations, room removals, config
    transactions and shutdowns, each dropped wherever it is suspended, every write succeeding or failing:
    (1) the writes of each file are attempted in the order in which its transactions took the snapshots;
    (2) once a removal of a chat's room has returned `Ok`, and while the room is not in memory again, the
    rooms file has no entry for it; (3) when `shutdown` is about to return `Ok`, every command that was
    sent before its own has been attempted; and (4) commands are attempted in the order in which they were
    sent, and each file holds the last snapshot whose write succeeded. -/
theorem writes_ordered (hp : Path writer (started config rooms disk) h p) :
    (∀ f, (ofFile f (log attempted h)).Sublist (ofFile f (log takenBy h))) ∧
    (∀ chatId, Since (Absent chatId) (RemovedOk chatId) h → p.shared.rooms.get chatId = none →
      p.shared.disk.rooms[chatId]? = none) ∧
    (∀ (i ticket : Nat), p.tasks[i]? = some (.shutdownWaiting ticket) →
      p.shared.mailbox.reply ticket = some .ok →
      ∃ older, ShutdownSent i ticket h older ∧ log enqueued older <+: log attempted h) ∧
    log attempted h <+: log enqueued h ∧
    p.shared.disk.config = ((log written h).filterMap PersistenceCommand.config?).getLast?.getD disk.config ∧
    p.shared.disk.rooms = ((log written h).filterMap PersistenceCommand.settings?).getLast?.getD
        disk.rooms := by
  have hserved := served_run hp
  refine ⟨log_attempted_sublist hp, ?_, ?_, hserved.order, hserved.config, hserved.rooms⟩
  · intro chatId hsince habsent
    exact ((removed_run hp).gone chatId hsince habsent).1
  · intro i ticket hi hreply
    exact attempted_of_shutdown hp hi hreply

/-- The task waits for the removal of the chat's room, under the ticket. -/
def WriterTask.removing (chatId : Int) (ticket : Nat) : WriterTask → Bool
  | .removeSaving c k => c == chatId && k == ticket
  | _ => false

/-- A mutation is aborted while its write is queued; the room is removed, and its old snapshot is written
    before the new one. -/
theorem writes_ordered_aborted :
    ∃ h p, Path writer (started ⟨"claude", ∅, {}⟩ {} ⟨⟨"claude", ∅, {}⟩, ∅⟩) h p ∧
      Since (Absent 7) (RemovedOk 7) h ∧ p.shared.disk.rooms[(7 : Int)]? = none := by
  have hrun : (writer.run (started ⟨"claude", ∅, {}⟩ {} ⟨⟨"claude", ∅, {}⟩, ∅⟩)
      [.task (.spawn 0 (.mutateRoom 7 RoomState.resetHistory)), .task (.act 0 .resume),
        .task (.act 0 .resume), .task (.act 0 .resume), .task (.act 0 .drop),
        .task (.spawn 1 (.removeRoom 7)), .task (.act 1 .resume), .task (.act 1 .resume),
        .task (.act 1 .resume), .receive .ok, .receive .ok]).any
      (fun p => (p.tasks[1]?).any (WriterTask.removing 7 1) && p.shared.mailbox.reply 1 == some .ok &&
        (p.shared.rooms.get 7).isNone) = true := by decide
  obtain ⟨h, p, hp, hstate⟩ := Sys.path_of_run_any _ hrun
  rw [Bool.and_eq_true, Bool.and_eq_true, beq_iff_eq, Option.isNone_iff_eq_none] at hstate
  obtain ⟨⟨htask, hreply⟩, habsent⟩ := hstate
  have hremoving : p.tasks[1]? = some (.removeSaving 7 1) := by
    obtain ⟨t, ht, hremoving⟩ := (Option.any_eq_true _ _).mp htask
    cases t with
    | removeSaving chatId ticket =>
      simp only [WriterTask.removing, Bool.and_eq_true, beq_iff_eq] at hremoving
      rw [ht, hremoving.1, hremoving.2]
    | _ => cases hremoving
  -- the removal returns
  have hstep : writer.step p (.task (.act 1 .resume)) =
      some (p.put { p.shared with roomMutations := none } 1 none) := by
    simp [writer, callers, Program.sys, hremoving, WriterTask.act, WriterTask.resume, hreply]
  have hsince : Since (Absent 7) (RemovedOk 7) ((p, .task (.act 1 .resume)) :: h) :=
    since_cons.mpr (Or.inl ⟨1, 1, rfl, hremoving, hreply⟩)
  exact ⟨_, _, .step hp hstep, hsince, (writes_ordered (.step hp hstep)).2.1 7 hsince habsent⟩

end Writer

end Tellm
