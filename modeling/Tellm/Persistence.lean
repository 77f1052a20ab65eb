/-
  PERSISTENCE: `persistence.rs`, the transactions on room settings.

  Memory is what the bot uses, the file is what survives it.  Only settings are durable.  `mutate_room`
  changes a room, takes a snapshot of all settings and writes it, and puts the old settings back when
  the write fails; `remove_room` does the same without putting anything back.  Both hold the transaction
  lock from start to end, but release the room map while the write is pending, so turns, resets and new
  rooms of other tasks come in between.

  1. **`persistence`**: the two transactions and everything else that touches the rooms, as tasks
     (`Tellm.Lib.Tasks`), one act per critical section.
  2. **`Padded m m'`**: `m'` is `m`, with default settings for some chats that `m` lacks.  Memory and file
     agree when memory is a padding of the file; and whatever another task does pads.
  3. **`Position`**: what holds while a transaction is at each of its positions.  `Inv` is that for every
     task, and the lock.
  4. **`rooms_durable`**: memory and file agree between transactions, and a failed mutation is undone.

  A write succeeds or fails, whole; that rooms.toml is replaced at once is `Tellm.Atomic`'s subject.  The
  caller is not dropped here while its write is pending.  What happens then, with a thread and a channel
  between the transaction and the file, is `Tellm.Writer` and `Tellm.Abandoned`.

  The rooms that a failed mutation restores are not the ones that it found: turns and resets of other
  tasks have come in between, and new rooms with default settings.  `RolledBack` therefore speaks of
  settings, and of the histories as they were when the write failed.  A room that the mutation made is
  removed again, with whatever history it has by then, as in the source.

  A failed `remove_room` restores nothing, by design: memory has lost the room and the file has it until
  the next successful write, which writes the whole of memory.  So agreement is claimed for runs in which
  no removal has failed since (`Clean`), and the padding argument does the rest.
-/
import Tellm.Rooms
import Tellm.Lib.Tasks

namespace Tellm

open Runs Tasks

/-! ## The critical sections -/

namespace RoomStates

/-- The mutation of `mutate_room`. -/
def mutate (self : RoomStates) (chatId : Int) (f : RoomState → RoomState) : RoomStates :=
  (self.getOrDefault chatId).updateRoom chatId f

/-- The rollback of `mutate_room`: the settings of a room that existed, or the room that did not. -/
def rollBack (self : RoomStates) (chatId : Int) : Option RoomSettings → RoomStates
  | some before => self.updateRoom chatId fun room => { room with settings := before }
  | none => self.remove chatId

end RoomStates

/-! ## The tasks -/

/-- How a write to rooms.toml turns out. -/
inductive WriteResult
  | ok
  | err
  deriving DecidableEq

/-- What the tasks share: the rooms, `rooms.toml`, and the transaction lock's holder. -/
structure RoomStore where
  rooms : RoomStates
  file : BTreeMap Int RoomSettings
  roomMutations : Option Nat := none

/-- A task's position. -/
inductive RoomTask
  | mutateRoom (chatId : Int) (f : RoomState → RoomState)
  | mutateLocked (chatId : Int) (f : RoomState → RoomState)
  | mutateSaving (chatId : Int) (before : Option RoomSettings) (settings : BTreeMap Int RoomSettings)
  | mutateFailed (chatId : Int) (before : Option RoomSettings)
  | mutateSaved
  | removeRoom (chatId : Int)
  | removeLocked (chatId : Int)
  | removeSaving (settings : BTreeMap Int RoomSettings)
  | removeReturning
  | getOrDefault (chatId : Int)
  | room (chatId : Int) (op : RoomOp)
  | resetAllHistory

/-- The operation leaves the room's settings alone.  Settings change in `mutate_room` only. -/
def RoomOp.keepsSettings : RoomOp → Bool
  | .setSettings _ => false
  | .resetRoomModelContext => false
  | _ => true

/-- A transaction starts by waiting for the lock; a turn's step or a reset is one act. -/
def RoomTask.entry : RoomTask → Bool
  | .mutateRoom _ _ => true
  | .removeRoom _ => true
  | .getOrDefault _ => true
  | .room _ op => op.keepsSettings
  | .resetAllHistory => true
  | _ => false

/-- The tasks that hold `room_mutations`. -/
def RoomTask.holds : RoomTask → Bool
  | .mutateLocked _ _ => true
  | .mutateSaving _ _ _ => true
  | .mutateFailed _ _ => true
  | .mutateSaved => true
  | .removeLocked _ => true
  | .removeSaving _ => true
  | .removeReturning => true
  | _ => false

/-- The task waits for the file to be written. -/
def RoomTask.writes : RoomTask → Bool
  | .mutateSaving _ _ _ => true
  | .removeSaving _ => true
  | _ => false

/-- The task is about to mutate its room. -/
def RoomTask.mutates : RoomTask → Bool
  | .mutateLocked _ _ => true
  | _ => false

/-- One step of a task, from one lock or write to the next. -/
def RoomTask.act (i : Nat) (t : RoomTask) (result : WriteResult) (s : RoomStore) :
    Option (RoomStore × Option RoomTask) :=
  match t with
  | .mutateRoom chatId f =>
    if s.roomMutations = none then some ({ s with roomMutations := some i }, some (.mutateLocked chatId f))
    else none
  | .mutateLocked chatId f =>
    let before := (s.rooms.get chatId).map (·.settings)
    let rooms := s.rooms.mutate chatId f
    some ({ s with rooms := rooms }, some (.mutateSaving chatId before rooms.settings))
  | .mutateSaving chatId before settings =>
    match result with
    | .ok => some ({ s with file := settings }, some .mutateSaved)
    | .err => some (s, some (.mutateFailed chatId before))
  | .mutateFailed chatId before =>
    some ({ s with rooms := s.rooms.rollBack chatId before, roomMutations := none }, none)
  | .mutateSaved => some ({ s with roomMutations := none }, none)
  | .removeRoom chatId =>
    if s.roomMutations = none then some ({ s with roomMutations := some i }, some (.removeLocked chatId))
    else none
  | .removeLocked chatId =>
    let rooms := s.rooms.remove chatId
    some ({ s with rooms := rooms }, some (.removeSaving rooms.settings))
  | .removeSaving settings =>
    match result with
    | .ok => some ({ s with file := settings }, some .removeReturning)
    | .err => some (s, some .removeReturning)
  | .removeReturning => some ({ s with roomMutations := none }, none)
  | .getOrDefault chatId => some ({ s with rooms := s.rooms.getOrDefault chatId }, none)
  | .room chatId op =>
    if op.keepsSettings then
      some ({ s with rooms := s.rooms.updateRoom chatId fun room => room.apply op }, none)
    else none
  | .resetAllHistory => some ({ s with rooms := s.rooms.resetAllHistory }, none)

/-- The tasks as a program over the rooms and their file. -/
def persistence : Program RoomStore RoomTask WriteResult := ⟨RoomTask.entry, RoomTask.act⟩

/-- The tasks in progress, with what they share. -/
abbrev RoomPool := Pool RoomStore RoomTask
/-- The steps so far, newest first. -/
abbrev RoomRun := List (RoomPool × Move RoomTask WriteResult)

/-- The transaction lock. -/
def transactionLock : Lock RoomStore RoomTask := ⟨RoomStore.roomMutations, RoomTask.holds⟩

theorem RoomTask.respects {i : Nat} {t : RoomTask} {result : WriteResult} {s : RoomStore}
    {r : RoomStore × Option RoomTask} (hact : t.act i result s = some r) :
    transactionLock.Respects i t s r := by
  -- the two entries take the lock, the three returns give it back, the rest leaves it alone
  cases t with
  | mutateRoom chatId f =>
    obtain ⟨hfree, hr⟩ := Option.ite_none_right_eq_some.mp hact
    cases hr
    exact Or.inr (Or.inl ⟨hfree, rfl, rfl, rfl⟩)
  | removeRoom chatId =>
    obtain ⟨hfree, hr⟩ := Option.ite_none_right_eq_some.mp hact
    cases hr
    exact Or.inr (Or.inl ⟨hfree, rfl, rfl, rfl⟩)
  | room chatId op =>
    obtain ⟨-, hr⟩ := Option.ite_none_right_eq_some.mp hact
    cases hr
    exact Or.inl ⟨rfl, rfl⟩
  | mutateSaving chatId before settings =>
    cases result <;> cases hact <;> exact Or.inl ⟨rfl, rfl⟩
  | removeSaving settings =>
    cases result <;> cases hact <;> exact Or.inl ⟨rfl, rfl⟩
  | mutateLocked chatId f =>
    cases hact
    exact Or.inl ⟨rfl, rfl⟩
  | removeLocked chatId =>
    cases hact
    exact Or.inl ⟨rfl, rfl⟩
  | mutateFailed chatId before =>
    cases hact
    exact Or.inr (Or.inr ⟨rfl, rfl, rfl⟩)
  | mutateSaved =>
    cases hact
    exact Or.inr (Or.inr ⟨rfl, rfl, rfl⟩)
  | removeReturning =>
    cases hact
    exact Or.inr (Or.inr ⟨rfl, rfl, rfl⟩)
  | getOrDefault chatId =>
    cases hact
    exact Or.inl ⟨rfl, rfl⟩
  | resetAllHistory =>
    cases hact
    exact Or.inl ⟨rfl, rfl⟩

theorem guards_transactionLock : transactionLock.Guards persistence where
  entry t he := by cases t <;> first | rfl | cases he
  act _ _ _ _ _ h := RoomTask.respects h

/-! ## Paddings -/

/-- `m'` is `m`, with default settings for some chats that `m` lacks. -/
def Padded (m m' : BTreeMap Int RoomSettings) : Prop :=
  ∀ d : Int, m'[d]? = m[d]? ∨ (m[d]? = none ∧ m'[d]? = some ({} : RoomSettings))

/-- The same at one chat. -/
def PaddedAt (d : Int) (m m' : BTreeMap Int RoomSettings) : Prop :=
  m'[d]? = m[d]? ∨ (m[d]? = none ∧ m'[d]? = some ({} : RoomSettings))

namespace PaddedAt

variable {d : Int} {a b c : BTreeMap Int RoomSettings} {rooms : RoomStates}

theorem trans (hab : PaddedAt d a b) (hbc : PaddedAt d b c) : PaddedAt d a c := by
  rcases hab with h1 | ⟨h1, h2⟩
  · rcases hbc with h3 | ⟨h3, h4⟩
    · exact Or.inl (h3.trans h1)
    · exact Or.inr ⟨h1 ▸ h3, h4⟩
  · rcases hbc with h3 | ⟨h3, -⟩
    · exact Or.inr ⟨h1, h3.trans h2⟩
    · cases h3.symm.trans h2

/-- Memory has the settings of the file. -/
theorem memory (h : PaddedAt d a rooms.settings) {room : RoomState} (hroom : rooms.get d = some room) :
    room.settings = (a[d]?).getD {} := by
  unfold PaddedAt at h
  rw [RoomStates.getElem?_settings, hroom, Option.map_some] at h
  rcases h with h | ⟨hno, h⟩
  · rw [← h]
    rfl
  · rw [hno]
    exact Option.some.inj h

/-- And the file lacks what memory lacks. -/
theorem file (h : PaddedAt d a rooms.settings) (hnone : rooms.get d = none) : a[d]? = none := by
  unfold PaddedAt at h
  rw [RoomStates.getElem?_settings, hnone, Option.map_none] at h
  rcases h with h | ⟨hno, -⟩
  · exact h.symm
  · exact hno

end PaddedAt

theorem Padded.refl (m : BTreeMap Int RoomSettings) : Padded m m := fun _ => Or.inl rfl

theorem Padded.trans {a b c : BTreeMap Int RoomSettings} (hab : Padded a b) (hbc : Padded b c) :
    Padded a c := fun d => PaddedAt.trans (hab d) (hbc d)

/-- The rollback of `mutate_room`, on the settings. -/
def undo (chatId : Int) (before : Option RoomSettings) (settings : BTreeMap Int RoomSettings) :
    BTreeMap Int RoomSettings :=
  settings.alter chatId fun _ => before

@[simp] theorem getElem?_undo (chatId d : Int) (before : Option RoomSettings)
    (settings : BTreeMap Int RoomSettings) :
    (undo chatId before settings)[d]? = if chatId = d then before else settings[d]? := by
  simp [undo, Std.ExtTreeMap.getElem?_alter]

/-- Rolling back commutes with a padding that has nothing to pad at the chat itself. -/
theorem Padded.undo {m m' : BTreeMap Int RoomSettings} (h : Padded m m') (chatId : Int)
    (before : Option RoomSettings) : Padded (undo chatId before m) (undo chatId before m') := by
  intro d
  rw [getElem?_undo, getElem?_undo]
  split
  · exact Or.inl rfl
  · exact h d

/-- The rollback of the rooms is the rollback of their settings, once the room exists. -/
theorem settings_rollBack {rooms : RoomStates} {chatId : Int} {before : Option RoomSettings}
    (hmem : (rooms.get chatId).isSome = true) :
    (rooms.rollBack chatId before).settings = undo chatId before rooms.settings := by
  obtain ⟨room, hroom⟩ := Option.isSome_iff_exists.mp hmem
  refine Std.ExtTreeMap.ext_getElem? fun d => ?_
  rw [getElem?_undo]
  cases before <;> by_cases hd : chatId = d <;> simp [RoomStates.rollBack, hd]
  subst hd
  simp [hroom]

/-- The mutation of `mutate_room` changes the settings of its own room only, so rolling it back leaves
    the settings from before. -/
theorem undo_mutate (rooms : RoomStates) (chatId : Int) (f : RoomState → RoomState) :
    undo chatId ((rooms.get chatId).map (·.settings)) (rooms.mutate chatId f).settings =
      rooms.settings := by
  refine Std.ExtTreeMap.ext_getElem? fun d => ?_
  by_cases hd : chatId = d
  · subst hd
    simp
  · simp [RoomStates.mutate, hd]

/-- What a task outside the transactions does to the rooms. -/
theorem padded_getOrDefault (rooms : RoomStates) (chatId : Int) :
    Padded rooms.settings (rooms.getOrDefault chatId).settings := by
  intro d
  simp only [RoomStates.getElem?_settings, RoomStates.get_getOrDefault]
  split
  · rename_i hd
    subst hd
    cases rooms.get chatId with
    | none => exact Or.inr ⟨rfl, rfl⟩
    | some room => exact Or.inl rfl
  · exact Or.inl rfl

/-- An operation that keeps the settings. -/
theorem RoomState.settings_apply {self : RoomState} {op : RoomOp} (h : op.keepsSettings = true) :
    (self.apply op).settings = self.settings := by
  cases op with
  | beginTurn wireFormat =>
    simp only [apply, beginTurn]
    split <;> rfl
  | appendTurn wireFormat turnItems =>
    simp only [apply, appendTurn]
    split <;> rfl
  | appendTurnIfGeneration expected wireFormat turnItems =>
    simp only [apply, appendTurnIfGeneration, appendTurn]
    split
    · rfl
    · split <;> rfl
  | restoreFailedTurn expected rollback =>
    simp only [apply, restoreFailedTurn]
    split
    · rfl
    · cases rollback <;> rfl
  | resetHistory => rfl
  | resetRoomModelContext => cases h
  | setSettings settings => cases h

theorem settings_updateRoom {rooms : RoomStates} {chatId : Int} {f : RoomState → RoomState}
    (hf : ∀ room, (f room).settings = room.settings) :
    (rooms.updateRoom chatId f).settings = rooms.settings := by
  refine Std.ExtTreeMap.ext_getElem? fun d => ?_
  simp only [RoomStates.getElem?_settings, RoomStates.get_updateRoom]
  split
  · rename_i hd
    subst hd
    cases rooms.get chatId with
    | none => rfl
    | some room => exact congrArg some (hf room)
  · rfl

theorem settings_resetAllHistory (rooms : RoomStates) :
    rooms.resetAllHistory.settings = rooms.settings := by
  refine Std.ExtTreeMap.ext_getElem? fun d => ?_
  simp only [RoomStates.getElem?_settings, RoomStates.get_resetAllHistory]
  cases rooms.get d <;> rfl

/-! ## What the history says -/

/-- The entry is a successful write of the file. -/
def Wrote (x : RoomPool × Move RoomTask WriteResult) : Prop :=
  ∃ i, x.2 = .act i .ok ∧
    ((∃ chatId before settings, x.1.tasks[i]? = some (.mutateSaving chatId before settings)) ∨
      ∃ settings, x.1.tasks[i]? = some (.removeSaving settings))

/-- The entry is the failed write of a `remove_room`. -/
def RemoveFailed (x : RoomPool × Move RoomTask WriteResult) : Prop :=
  ∃ i settings, x.2 = .act i .err ∧ x.1.tasks[i]? = some (.removeSaving settings)

/-- Every `remove_room` since the last successful write succeeded. -/
def Clean (h : RoomRun) : Prop := ¬ Since (fun y => ¬ Wrote y) RemoveFailed h

/-- The entry is the critical section of the task `i`'s `mutate_room` of the chat, which finds the
    rooms `rooms` and remembers `before`. -/
def Mutates (i : Nat) (chatId : Int) (before : Option RoomSettings) (rooms : RoomStates)
    (x : RoomPool × Move RoomTask WriteResult) : Prop :=
  ∃ f result, x.2 = .act i result ∧ x.1.tasks[i]? = some (.mutateLocked chatId f) ∧
    x.1.shared.rooms = rooms ∧ before = (rooms.get chatId).map (·.settings)

/-- The entry is not such a critical section, of any chat. -/
def NotMutates (i : Nat) (y : RoomPool × Move RoomTask WriteResult) : Prop :=
  ∀ chatId before rooms, ¬ Mutates i chatId before rooms y

/-- The `mutate_room` that the task `i` is in found the rooms `rooms`. -/
def MutatedFrom (i : Nat) (chatId : Int) (before : Option RoomSettings) (rooms : RoomStates)
    (h : RoomRun) : Prop :=
  Since (NotMutates i) (Mutates i chatId before rooms) h

theorem clean_cons {x : RoomPool × Move RoomTask WriteResult} {h : RoomRun} :
    Clean (x :: h) ↔ ¬ RemoveFailed x ∧ (Wrote x ∨ Clean h) := by
  rw [Clean, since_cons, Clean]
  tauto

/-- A step whose task is not at a write is neither. -/
theorem not_wrote_of_position {p : RoomPool} {i : Nat} {t : RoomTask} (result : WriteResult)
    (ht : p.tasks[i]? = some t) (hw : t.writes = false) :
    ¬ Wrote (p, .act i result) ∧ ¬ RemoveFailed (p, .act i result) := by
  refine ⟨?_, ?_⟩
  · rintro ⟨j, hj, hpos⟩
    cases hj
    rcases hpos with ⟨chatId, before, settings, hpos⟩ | ⟨settings, hpos⟩
    · cases ht.symm.trans hpos
      cases hw
    · cases ht.symm.trans hpos
      cases hw
  · rintro ⟨j, settings, hj, hpos⟩
    cases hj
    cases ht.symm.trans hpos
    cases hw

theorem not_wrote_spawn (p : RoomPool) (i : Nat) (t : RoomTask) :
    ¬ Wrote (p, .spawn i t) ∧ ¬ RemoveFailed (p, .spawn i t) := by
  refine ⟨?_, ?_⟩
  · rintro ⟨j, hj, -⟩
    cases hj
  · rintro ⟨j, settings, hj, -⟩
    cases hj

/-! ## The invariant -/

/-- What holds while the task `i` is at a position inside a transaction. -/
def Position (h : RoomRun) (i : Nat) (s : RoomStore) : RoomTask → Prop
  | .mutateLocked _ _ => Clean h → Padded s.file s.rooms.settings
  | .mutateSaving chatId before settings =>
    (s.rooms.get chatId).isSome = true ∧ Padded settings s.rooms.settings ∧
    (Clean h → Padded s.file (undo chatId before s.rooms.settings)) ∧
    ∃ rooms, MutatedFrom i chatId before rooms h ∧
      Padded rooms.settings (undo chatId before s.rooms.settings)
  | .mutateFailed chatId before =>
    (s.rooms.get chatId).isSome = true ∧
    (Clean h → Padded s.file (undo chatId before s.rooms.settings)) ∧
    ∃ rooms, MutatedFrom i chatId before rooms h ∧
      Padded rooms.settings (undo chatId before s.rooms.settings)
  | .mutateSaved => Clean h → Padded s.file s.rooms.settings
  | .removeLocked _ => Clean h → Padded s.file s.rooms.settings
  | .removeSaving settings => Padded settings s.rooms.settings
  | .removeReturning => Clean h → Padded s.file s.rooms.settings
  | _ => True

/-- A position outside the transactions asks for nothing. -/
theorem position_of_not_holds {h : RoomRun} {i : Nat} {s : RoomStore} {t : RoomTask}
    (ht : t.holds = false) : Position h i s t := by
  cases t <;> first | exact trivial | cases ht

/-- The rooms may be padded behind a transaction's back. -/
theorem Position.pad {h : RoomRun} {i : Nat} {s s' : RoomStore} {t : RoomTask}
    {x : RoomPool × Move RoomTask WriteResult} (hp : Position h i s t) (hfile : s'.file = s.file)
    (hpad : Padded s.rooms.settings s'.rooms.settings) (hclean : Clean (x :: h) → Clean h)
    (hother : NotMutates i x) : Position (x :: h) i s' t := by
  -- a room that exists is not padded, so it still exists
  have hmem : ∀ {chatId}, (s.rooms.get chatId).isSome = true →
      (s'.rooms.get chatId).isSome = true := by
    intro chatId hsome
    have hd := hpad chatId
    simp only [RoomStates.getElem?_settings] at hd
    rcases hd with hd | ⟨-, hd⟩
    · rw [← Option.isSome_map (f := RoomState.settings), hd, Option.isSome_map, hsome]
    · rw [← Option.isSome_map (f := RoomState.settings), hd]
      rfl
  have hsync : (Clean h → Padded s.file s.rooms.settings) →
      Clean (x :: h) → Padded s'.file s'.rooms.settings := by
    intro hq hc
    rw [hfile]
    exact (hq (hclean hc)).trans hpad
  have hundo : ∀ {chatId before}, (Clean h → Padded s.file (undo chatId before s.rooms.settings)) →
      Clean (x :: h) → Padded s'.file (undo chatId before s'.rooms.settings) := by
    intro chatId before hq hc
    rw [hfile]
    exact (hq (hclean hc)).trans (hpad.undo chatId before)
  have hfrom : ∀ {chatId before},
      (∃ rooms, MutatedFrom i chatId before rooms h ∧
        Padded rooms.settings (undo chatId before s.rooms.settings)) →
      ∃ rooms, MutatedFrom i chatId before rooms (x :: h) ∧
        Padded rooms.settings (undo chatId before s'.rooms.settings) := by
    rintro chatId before ⟨rooms, hm, hr⟩
    exact ⟨rooms, since_cons.mpr (Or.inr ⟨hother, hm⟩), hr.trans (hpad.undo chatId before)⟩
  cases t with
  | mutateLocked chatId f => exact hsync hp
  | mutateSaving chatId before settings =>
    obtain ⟨h1, h2, h3, h4⟩ := hp
    exact ⟨hmem h1, h2.trans hpad, hundo h3, hfrom h4⟩
  | mutateFailed chatId before =>
    obtain ⟨h1, h2, h3⟩ := hp
    exact ⟨hmem h1, hundo h2, hfrom h3⟩
  | mutateSaved => exact hsync hp
  | removeLocked chatId => exact hsync hp
  | removeSaving settings => exact Padded.trans hp hpad
  | removeReturning => exact hsync hp
  | _ => trivial

/-- The invariant of a run: the lock, what holds while it is free, and every task's position. -/
structure Inv (h : RoomRun) (p : RoomPool) : Prop where
  lock : transactionLock.Agrees p
  free : p.shared.roomMutations = none → Clean h → Padded p.shared.file p.shared.rooms.settings
  position : ∀ i t, p.tasks[i]? = some t → Position h i p.shared t

namespace Inv

variable {h : RoomRun} {p : RoomPool} {j : Nat} {s' : RoomStore} {o : Option RoomTask}
  {m : Move RoomTask WriteResult}

/-- A step outside the transactions: it pads the rooms and writes nothing. -/
theorem quiet (hi : Inv h p) (hlock : transactionLock.Agrees (p.put s' j o))
    (hshared : s'.roomMutations = p.shared.roomMutations ∧ s'.file = p.shared.file)
    (hpad : Padded p.shared.rooms.settings s'.rooms.settings)
    (hwrites : ¬ Wrote (p, m) ∧ ¬ RemoveFailed (p, m)) (hother : ∀ i, NotMutates i (p, m))
    (hout : ∀ u, o = some u → u.holds = false) : Inv ((p, m) :: h) (p.put s' j o) := by
  have hclean : Clean ((p, m) :: h) → Clean h := fun hc =>
    (clean_cons.mp hc).2.resolve_left hwrites.1
  refine ⟨hlock, ?_, ?_⟩
  · intro hfree hc
    rw [Pool.shared_put] at hfree ⊢
    rw [hshared.1] at hfree
    rw [hshared.2]
    exact (hi.free hfree (hclean hc)).trans hpad
  · intro i t ht
    rw [Pool.tasks_put] at ht
    split at ht
    · exact position_of_not_holds (hout t ht)
    · exact (hi.position i t ht).pad hshared.2 hpad hclean (hother i)

/-- A step of the transaction that holds the lock, or takes it: no other task is in one. -/
theorem active (hlock : transactionLock.Agrees (p.put s' j o))
    (hothers : ∀ i t, i ≠ j → p.tasks[i]? = some t → t.holds = false)
    (hfree : s'.roomMutations = none → Clean ((p, m) :: h) → Padded s'.file s'.rooms.settings)
    (hpos : ∀ u, o = some u → Position ((p, m) :: h) j s' u) :
    Inv ((p, m) :: h) (p.put s' j o) := by
  refine ⟨hlock, hfree, ?_⟩
  intro i t ht
  rw [Pool.tasks_put] at ht
  split at ht
  · rename_i hij
    subst hij
    exact hpos t ht
  · rename_i hij
    exact position_of_not_holds (hothers i t (fun h' => hij h'.symm) ht)

/-- A transaction takes the free lock. -/
theorem taken {u : RoomTask} (hi : Inv h p) (hlock : transactionLock.Agrees (p.put s' j (some u)))
    (hfree : p.shared.roomMutations = none) (hheld : s'.roomMutations = some j)
    (hpos : Position ((p, m) :: h) j s' u) : Inv ((p, m) :: h) (p.put s' j (some u)) := by
  refine active hlock (fun i t _ ht => hi.lock.not_holds hfree ht) ?_ ?_
  · intro hfree'
    cases hheld.symm.trans hfree'
  · rintro _ ⟨⟩
    exact hpos

/-- The task that is in a transaction is the only one. -/
theorem alone {t : RoomTask} (hi : Inv h p) (ht : p.tasks[j]? = some t) (hholds : t.holds = true) :
    ∀ i u, i ≠ j → p.tasks[i]? = some u → u.holds = false := by
  intro i u hij hu
  rw [Bool.eq_false_iff]
  intro hholds'
  exact hij (hi.lock.unique hu ht hholds' hholds)

/-- A transaction goes on. -/
theorem inside {t u : RoomTask} (hi : Inv h p)
    (hlock : transactionLock.Agrees (p.put s' j (some u))) (ht : p.tasks[j]? = some t)
    (hholds : t.holds = true) (hsame : s'.roomMutations = p.shared.roomMutations)
    (hpos : Position ((p, m) :: h) j s' u) : Inv ((p, m) :: h) (p.put s' j (some u)) := by
  refine active hlock (hi.alone ht hholds) ?_ ?_
  · intro hfree
    have hheld : p.shared.roomMutations = some j := hi.lock.1 j t ht hholds
    rw [hsame] at hfree
    cases hheld.symm.trans hfree
  · rintro _ ⟨⟩
    exact hpos

/-- A transaction releases the lock. -/
theorem released {t : RoomTask} (hi : Inv h p) (hlock : transactionLock.Agrees (p.put s' j none))
    (ht : p.tasks[j]? = some t) (hholds : t.holds = true)
    (hsync : Clean ((p, m) :: h) → Padded s'.file s'.rooms.settings) :
    Inv ((p, m) :: h) (p.put s' j none) := by
  refine active hlock (hi.alone ht hholds) (fun _ => hsync) ?_
  intro u hu
  cases hu

end Inv

/-- A step whose task is not at a write leaves a history as clean as it was. -/
theorem clean_of_position {h : RoomRun} {p : RoomPool} {i : Nat} {t : RoomTask} {result : WriteResult}
    (ht : p.tasks[i]? = some t) (hw : t.writes = false) (hc : Clean ((p, .act i result) :: h)) :
    Clean h :=
  (clean_cons.mp hc).2.resolve_left (not_wrote_of_position result ht hw).1

/-- One act keeps the invariant. -/
theorem Inv.act {h : RoomRun} {p : RoomPool} {j : Nat} {result : WriteResult} {t : RoomTask}
    {r : RoomStore × Option RoomTask} (hi : Inv h p) (ht : p.tasks[j]? = some t)
    (hr : t.act j result p.shared = some r) (hlock : transactionLock.Agrees (p.put r.1 j r.2)) :
    Inv ((p, .act j result) :: h) (p.put r.1 j r.2) := by
  have hpos := hi.position j t ht
  have hother : t.mutates = false → ∀ i, NotMutates i (p, .act j result) := by
    rintro hne i chatId before rooms ⟨f, result', hj, hm, -⟩
    cases hj
    cases ht.symm.trans hm
    cases hne
  cases t with
  | mutateRoom chatId f =>
    obtain ⟨hfree, hr⟩ := Option.ite_none_right_eq_some.mp hr
    cases hr
    exact hi.taken hlock hfree rfl fun hc => hi.free hfree (clean_of_position ht rfl hc)
  | removeRoom chatId =>
    obtain ⟨hfree, hr⟩ := Option.ite_none_right_eq_some.mp hr
    cases hr
    exact hi.taken hlock hfree rfl fun hc => hi.free hfree (clean_of_position ht rfl hc)
  | mutateLocked chatId f =>
    cases hr
    refine hi.inside hlock ht rfl rfl ⟨by simp [RoomStates.mutate], Padded.refl _, ?_, ?_⟩
    · intro hc
      rw [undo_mutate]
      exact hpos (clean_of_position ht rfl hc)
    · -- the rooms it found are the rooms to go back to
      refine ⟨p.shared.rooms, since_cons.mpr (Or.inl ⟨f, result, rfl, ht, rfl, rfl⟩), ?_⟩
      rw [undo_mutate]
      exact Padded.refl _
  | mutateSaving chatId before settings =>
    obtain ⟨hmem, hpad, hundo, rooms, hfrom, hrooms⟩ := hpos
    cases result with
    | ok =>
      cases hr
      exact hi.inside hlock ht rfl rfl fun _ => hpad
    | err =>
      cases hr
      refine hi.inside hlock ht rfl rfl ⟨hmem, fun hc => hundo ?_, rooms, ?_, hrooms⟩
      · -- the write failed, so the last one is still an earlier one
        refine (clean_cons.mp hc).2.resolve_left ?_
        rintro ⟨i, hij, -⟩
        cases hij
      · exact since_cons.mpr (Or.inr ⟨hother rfl j, hfrom⟩)
  | mutateFailed chatId before =>
    obtain ⟨hmem, hundo, -⟩ := hpos
    cases hr
    refine hi.released hlock ht rfl fun hc => ?_
    show Padded p.shared.file (p.shared.rooms.rollBack chatId before).settings
    rw [settings_rollBack hmem]
    exact hundo (clean_of_position ht rfl hc)
  | mutateSaved =>
    cases hr
    exact hi.released hlock ht rfl fun hc => hpos (clean_of_position ht rfl hc)
  | removeLocked chatId =>
    cases hr
    exact hi.inside hlock ht rfl rfl (Padded.refl _)
  | removeSaving settings =>
    cases result with
    | ok =>
      cases hr
      exact hi.inside hlock ht rfl rfl fun _ => hpos
    | err =>
      -- from here on the history is not clean
      cases hr
      refine hi.inside hlock ht rfl rfl fun hc => ?_
      exact absurd ⟨j, settings, rfl, ht⟩ (clean_cons.mp hc).1
  | removeReturning =>
    cases hr
    exact hi.released hlock ht rfl fun hc => hpos (clean_of_position ht rfl hc)
  | getOrDefault chatId =>
    have hno := not_wrote_of_position result ht rfl
    cases hr
    refine hi.quiet hlock ⟨rfl, rfl⟩ (padded_getOrDefault _ _) hno (hother rfl) ?_
    intro u hu
    cases hu
  | room chatId op =>
    have hno := not_wrote_of_position result ht rfl
    obtain ⟨hop, hr⟩ := Option.ite_none_right_eq_some.mp hr
    cases hr
    refine hi.quiet hlock ⟨rfl, rfl⟩ ?_ hno (hother rfl) ?_
    · show Padded p.shared.rooms.settings
        (p.shared.rooms.updateRoom chatId fun room => room.apply op).settings
      rw [settings_updateRoom fun room => RoomState.settings_apply hop]
      exact Padded.refl _
    · intro u hu
      cases hu
  | resetAllHistory =>
    have hno := not_wrote_of_position result ht rfl
    cases hr
    refine hi.quiet hlock ⟨rfl, rfl⟩ ?_ hno (hother rfl) ?_
    · show Padded p.shared.rooms.settings p.shared.rooms.resetAllHistory.settings
      rw [settings_resetAllHistory]
      exact Padded.refl _
    · intro u hu
      cases hu

/-! ## Every run -/

/-- A bot that has just loaded `rooms.toml`. -/
def loaded (file : BTreeMap Int RoomSettings) : RoomPool := ⟨⟨.fromSettings file, file, none⟩, ∅⟩

theorem Inv.start (file : BTreeMap Int RoomSettings) : Inv [] (loaded file) := by
  have hempty : ∀ i, (loaded file).tasks[i]? = none := fun _ => Std.ExtTreeMap.getElem?_empty
  refine ⟨⟨?_, ?_⟩, ?_, ?_⟩
  · intro i t ht
    cases (hempty i).symm.trans ht
  · intro i hi
    cases hi
  · intro _ _ d
    left
    show (RoomStates.fromSettings file).settings[d]? = file[d]?
    rw [RoomStates.getElem?_settings, RoomStates.get_fromSettings, Option.map_map]
    exact Option.map_id'
  · intro i t ht
    cases (hempty i).symm.trans ht

/-- The invariant holds in every run. -/
theorem Inv.run {file : BTreeMap Int RoomSettings} {h : RoomRun} {p : RoomPool}
    (hp : Path persistence.sys (loaded file) h p) : Inv h p := by
  induction hp with
  | start => exact Inv.start file
  | @step h p p' m _ hs ih =>
    have hlock := ih.lock.step guards_transactionLock hs
    rcases step_cases hs with ⟨i, t, rfl, he, hn, rfl⟩ | ⟨i, result, t, r, rfl, ht, hr, rfl⟩
    · refine ih.quiet hlock ⟨rfl, rfl⟩ (Padded.refl _) (not_wrote_spawn p i t) ?_ ?_
      · rintro j chatId before rooms ⟨f, result, hm, -⟩
        cases hm
      · rintro _ ⟨⟩
        exact guards_transactionLock.entry t he
    · exact ih.act ht hr hlock

/-- No `mutate_room` or `remove_room` is past its lock. -/
def NoTransaction (p : RoomPool) : Prop :=
  ∀ (i : Nat) (t : RoomTask), p.tasks[i]? = some t → t.holds = false

/-- Memory and file agree. -/
structure Durable (s : RoomStore) : Prop where
  memory : ∀ d room, s.rooms.get d = some room → room.settings = (s.file[d]?).getD {}
  file : ∀ d, s.rooms.get d = none → s.file[d]? = none

theorem durable_of_padded {s : RoomStore} (h : Padded s.file s.rooms.settings) : Durable s where
  memory d _ := PaddedAt.memory (h d)
  file d := PaddedAt.file (h d)

/-- A mutation of the chat's room, which found the rooms `found`, has been rolled back: `failed` are the
    rooms when its write had failed, `after` the rooms now. -/
structure RolledBack (chatId : Int) (found failed after : RoomStates) : Prop where
  /-- The chat's room has its settings back; if there was none, it is gone. -/
  own : (after.get chatId).map (·.settings) = (found.get chatId).map (·.settings)
  /-- The others have the settings they had; a room that another task created has the defaults. -/
  others : ∀ d, chatId ≠ d → (after.get d).map (·.settings) = (found.get d).map (·.settings) ∨
    (found.get d = none ∧ (after.get d).map (·.settings) = some {})
  /-- The rollback puts nothing into any history. -/
  history : ∀ d room, after.get d = some room →
    ∃ room', failed.get d = some room' ∧ room.history = room'.history

theorem history_rollBack {rooms : RoomStates} {chatId d : Int} {before : Option RoomSettings}
    {room : RoomState} (h : (rooms.rollBack chatId before).get d = some room) :
    ∃ room', rooms.get d = some room' ∧ room.history = room'.history := by
  cases before with
  | none =>
    rw [RoomStates.rollBack, RoomStates.get_remove] at h
    split at h
    · cases h
    · exact ⟨room, h, rfl⟩
  | some before =>
    rw [RoomStates.rollBack, RoomStates.get_updateRoom] at h
    split at h
    · rename_i hd
      subst hd
      obtain ⟨room', hroom', rfl⟩ := Option.map_eq_some_iff.mp h
      exact ⟨room', hroom', rfl⟩
    · exact ⟨room, h, rfl⟩

/-- **Room settings are durable.**  In every run of any number of transactions, interleaved with new
    rooms, turns and resets, every write succeeding or failing: (1) between transactions, if every
    `remove_room` since the last successful write succeeded, memory and file agree; (2) a `mutate_room`
    whose write failed is rolled back. -/
theorem rooms_durable {file : BTreeMap Int RoomSettings} {h : RoomRun} {p : RoomPool}
    (hp : Path persistence.sys (loaded file) h p) :
    (NoTransaction p → Clean h → Durable p.shared) ∧
    (∀ i chatId before result p', p.tasks[i]? = some (.mutateFailed chatId before) →
      persistence.sys.step p (.act i result) = some p' →
      ∃ found, MutatedFrom i chatId before found h ∧
        RolledBack chatId found p.shared.rooms p'.shared.rooms) := by
  have hi := Inv.run hp
  constructor
  · intro hno hc
    refine durable_of_padded (hi.free ?_ hc)
    cases hheld : p.shared.roomMutations with
    | none => rfl
    | some i =>
      obtain ⟨t, ht, hholds⟩ := hi.lock.2 i hheld
      cases (hno i t ht).symm.trans hholds
  · intro i chatId before result p' ht hs
    obtain ⟨t, r, ht', hr, rfl⟩ := step_act hs
    cases ht.symm.trans ht'
    have hact : RoomTask.act i (.mutateFailed chatId before) result p.shared = some r := hr
    cases hact
    obtain ⟨hmem, -, found, hfrom, hpad⟩ := hi.position i _ ht
    have hbefore : before = (found.get chatId).map (·.settings) := by
      obtain ⟨x, -, f, result', -, -, -, hb⟩ := hfrom.exists_mem
      exact hb
    -- the settings after the rollback, chat by chat
    have hafter : ∀ d, ((p.shared.rooms.rollBack chatId before).get d).map (·.settings) =
        (undo chatId before p.shared.rooms.settings)[d]? := by
      intro d
      rw [← settings_rollBack hmem, RoomStates.getElem?_settings]
    refine ⟨found, hfrom, ?_, ?_, fun d room hroom => history_rollBack hroom⟩
    · show ((p.shared.rooms.rollBack chatId before).get chatId).map (·.settings) = _
      rw [hafter, getElem?_undo, if_pos rfl, hbefore]
    · intro d hd
      show ((p.shared.rooms.rollBack chatId before).get d).map (·.settings) = _ ∨
        (_ ∧ ((p.shared.rooms.rollBack chatId before).get d).map (·.settings) = _)
      have hd' := hpad d
      rw [RoomStates.getElem?_settings] at hd'
      rw [hafter]
      rcases hd' with hd' | ⟨hnone, hd'⟩
      · exact Or.inl hd'
      · exact Or.inr ⟨Option.map_eq_none_iff.mp hnone, hd'⟩

/-- A mutation that creates a room and fails to write it: the run is one the theorem is about, and its
    next act is the rollback. -/
theorem rooms_durable_failed_write :
    ∃ h p, Path persistence.sys (loaded ∅) h p ∧
      (p.tasks[0]?).any (fun t => t matches .mutateFailed 7 none) = true ∧
      (NoTransaction p → Clean h → Durable p.shared) ∧
      (∀ i chatId before result p', p.tasks[i]? = some (.mutateFailed chatId before) →
        persistence.sys.step p (.act i result) = some p' →
        ∃ found, MutatedFrom i chatId before found h ∧
          RolledBack chatId found p.shared.rooms p'.shared.rooms) := by
  have hrun : (persistence.sys.run (loaded ∅)
      [.spawn 0 (.mutateRoom 7 RoomState.resetHistory), .act 0 .ok, .act 0 .ok, .act 0 .err]).any
      (fun p => (p.tasks[0]?).any fun t => t matches .mutateFailed 7 none) = true := by decide
  obtain ⟨h, p, hp, hfailed⟩ := Sys.path_of_run_any _ hrun
  exact ⟨h, p, hp, hfailed, rooms_durable hp⟩

end Tellm
