/-
  ROOMS: `rooms.rs`, the conversation state of each chat.

  A room keeps the provider's opaque items (`History`), the wire format they are in, and a GENERATION: a
  wrapping counter that moves whenever work in flight must no longer reach the room.  A turn begins by
  reading the generation; its result is committed, or its failure rolled back, only if the generation is
  still the one it read.

  * `History` carries the proof that its turns cover its items exactly, so the `drain` of a pruned turn
    never runs past the end.
  * A `&mut self` method returns the room after it together with its result.
  * `RoomOp.Invalidates` says which operations move the generation: `generation_apply` is the one lemma
    about the counter, `apply_of_not_invalidates` the one about what the others leave alone.

  The estimate of an item's size (`approxJsonBytes`) is here because pruning asks for it; it is compared
  with the real length in `Tellm.JsonSize`.  All sums saturate at `usize::MAX`, as in the source, so the
  limits are meaningful for histories of any size.

  What the rest of the development uses of a room are few facts: a commit appends one turn and prunes; a
  token that is accepted is the room's current generation; an operation either moves the generation or
  leaves history and format alone.  They are stated beside the definitions, and `Tellm.Generations`,
  `Tellm.Retained`, `Tellm.FailedTurn` and `Tellm.Replay` start from them.

  `RoomStates` is the map of all rooms.  A chat with settings in the file has a room from the start, any
  other gets one with the default settings when it is first asked for, and a room goes with `remove`.
-/
import Tellm.Config

namespace Tellm

/-! ## Opaque provider items -/

/-- `serde_json::Value`; a number is its text. -/
inductive Value
  | null
  | bool (value : Bool)
  | number (value : String)
  | string (value : String)
  | array (values : List Value)
  | object (values : List (String × Value))

/-- `usize::MAX`. -/
def usizeMax : Nat := 18446744073709551615

/-- `usize::saturating_add`. -/
def saturatingAdd (left right : Nat) : Nat := min (left + right) usizeMax

mutual

/-- `approx_json_bytes`. -/
def approxJsonBytes : Value → Nat
  | .null => 4
  | .bool value => value.toNat + 4
  | .number value => value.utf8ByteSize
  | .string value => saturatingAdd value.utf8ByteSize 2
  | .array values => approxArrayBytes values 2
  | .object values => approxObjectBytes values 2

/-- Its fold over an array. -/
def approxArrayBytes : List Value → Nat → Nat
  | [], total => total
  | value :: values, total =>
    approxArrayBytes values (saturatingAdd total (saturatingAdd (approxJsonBytes value) 1))

/-- Its fold over an object. -/
def approxObjectBytes : List (String × Value) → Nat → Nat
  | [], total => total
  | (key, value) :: values, total =>
    approxObjectBytes values (saturatingAdd (saturatingAdd total (saturatingAdd key.utf8ByteSize 3))
      (saturatingAdd (approxJsonBytes value) 1))

end

/-! ## History -/

/-- `MAX_HISTORY_TURNS`. -/
def maxHistoryTurns : Nat := 32
/-- `MAX_HISTORY_BYTES`, of the items as they are serialised. -/
def maxHistoryBytes : Nat := 4 * 1024 * 1024

/-- `HistoryTurn`: how many items of the history one turn has, and about how long they are. -/
structure HistoryTurn where
  itemCount : Nat
  approxBytes : Nat
  deriving DecidableEq

/-- `history_bytes`. -/
def historyBytes (turns : List HistoryTurn) : Nat :=
  turns.foldl (fun total turn => saturatingAdd total turn.approxBytes) 0

/-- The items of a room (`history`) and the turns they came in (`history_turns`), oldest first. -/
structure History where
  items : List Value
  turns : List HistoryTurn
  covers : (turns.map (·.itemCount)).sum = items.length

namespace History

/-- A history without a turn. -/
def empty : History := ⟨[], [], rfl⟩

/-- The pruning loop of `push_turn`: whole turns go, oldest first, until both limits are met. -/
def prune : (turns : List HistoryTurn) → (items : List Value) →
    (turns.map (·.itemCount)).sum = items.length → History
  | [], items, covers => ⟨items, [], covers⟩
  | oldest :: turns, items, covers =>
    if (oldest :: turns).length > maxHistoryTurns ∨ historyBytes (oldest :: turns) > maxHistoryBytes
    then
      prune turns (items.drop oldest.itemCount) (by
        rw [List.map_cons, List.sum_cons] at covers
        rw [List.length_drop]
        omega)
    else ⟨items, oldest :: turns, covers⟩

/-- `push_turn`. -/
def pushTurn (self : History) (turnItems : List Value) : History :=
  let turn : HistoryTurn := ⟨turnItems.length,
    turnItems.foldl (fun total value => saturatingAdd total (approxJsonBytes value)) 0⟩
  prune (self.turns ++ [turn]) (self.items ++ turnItems) (by
    rw [List.map_append, List.sum_append, List.length_append, self.covers]
    rfl)

/-- Pruning keeps a suffix of the items. -/
theorem prune_suffix : ∀ (turns : List HistoryTurn) (items : List Value)
    (covers : (turns.map (·.itemCount)).sum = items.length), (prune turns items covers).items <:+ items
  | [], _, _ => List.suffix_refl _
  | oldest :: turns, items, covers => by
    rw [prune]
    split
    · exact (prune_suffix turns _ _).trans (List.drop_suffix _ _)
    · exact List.suffix_refl _

/-- What pruning leaves is within both limits. -/
theorem prune_bounded : ∀ (turns : List HistoryTurn) (items : List Value)
    (covers : (turns.map (·.itemCount)).sum = items.length),
    (prune turns items covers).turns.length ≤ maxHistoryTurns ∧
      historyBytes (prune turns items covers).turns ≤ maxHistoryBytes
  | [], _, _ => ⟨Nat.zero_le _, Nat.zero_le _⟩
  | oldest :: turns, items, covers => by
    rw [prune]
    split
    · exact prune_bounded turns _ _
    · rename_i h
      rw [not_or] at h
      exact ⟨Nat.le_of_not_lt h.1, Nat.le_of_not_lt h.2⟩

/-- An item of a pushed history was there before or is new. -/
theorem mem_pushTurn {self : History} {turnItems : List Value} {item : Value}
    (h : item ∈ (self.pushTurn turnItems).items) : item ∈ self.items ∨ item ∈ turnItems :=
  List.mem_append.mp ((prune_suffix _ _ _).subset h)

end History

/-! ## One room -/

/-- `ChatMode`: whether the turns of a room build on each other. -/
inductive ChatMode
  | chat
  | message
  deriving DecidableEq

/-- `RoomSettings`: what a room keeps in rooms.toml. -/
structure RoomSettings where
  modelKey : Option String := none
  mode : ChatMode := .chat
  role : Option String := none
  thinking : Option ThinkingLevel := none
  webSearch : Bool := false
  imageGeneration : Bool := false
  deriving DecidableEq

/-- `RoomState`: the settings, and the history of the wire format it was built in.  The generation counts what
    has invalidated it. -/
structure RoomState where
  settings : RoomSettings
  wireFormat : Option WireFormat
  history : History
  generation : UInt64

/-- `HistoryReset`: whether the start of a turn has dropped the history, for the notice to the chat. -/
inductive HistoryReset
  | none
  | wireFormatChanged (previous : Option WireFormat) (new : WireFormat)
  deriving DecidableEq

/-- `FailedTurnRollback`: what a turn that fails puts back, if nothing has come in between. -/
structure FailedTurnRollback where
  wireFormat : Option WireFormat
  history : History

/-- `TurnStart`: what `begin_turn` has done. -/
structure TurnStart where
  reset : HistoryReset
  rollback : Option FailedTurnRollback

/-- What `append_turn` does to the history, by the room's mode. -/
def History.commit (self : History) (mode : ChatMode) (turnItems : List Value) : History :=
  match mode with
  | .chat => self.pushTurn turnItems
  | .message => History.empty.pushTurn turnItems

theorem History.mem_commit {self : History} {mode : ChatMode} {turnItems : List Value} {item : Value}
    (h : item ∈ (self.commit mode turnItems).items) : item ∈ self.items ∨ item ∈ turnItems := by
  cases mode with
  | chat => exact mem_pushTurn h
  | message =>
    rcases mem_pushTurn h with h | h
    · exact absurd h List.not_mem_nil
    · exact Or.inr h

namespace RoomState

/-- `RoomState::new`: a room begins with the generation 0, also one that was removed before. -/
def new (settings : RoomSettings) : RoomState := ⟨settings, none, .empty, 0⟩

/-- `invalidate_history`. -/
def invalidateHistory (self : RoomState) : RoomState :=
  { self with history := .empty, generation := self.generation + 1 }

/-- `begin_turn`: a turn in another wire format than the history's drops the history, and is given what to put
    back if it fails. -/
def beginTurn (self : RoomState) (wireFormat : WireFormat) : RoomState × TurnStart :=
  if self.wireFormat ≠ some wireFormat then
    ({ self with
        wireFormat := some wireFormat
        history := .empty
        generation := self.generation + 1 },
      ⟨.wireFormatChanged self.wireFormat wireFormat, some ⟨self.wireFormat, self.history⟩⟩)
  else (self, ⟨.none, none⟩)

/-- `append_turn`: the items of a turn are committed; a history of another wire format is dropped first. -/
def appendTurn (self : RoomState) (wireFormat : WireFormat) (turnItems : List Value) : RoomState :=
  let self :=
    if self.wireFormat ≠ some wireFormat then
      { self with wireFormat := some wireFormat }.invalidateHistory
    else self
  { self with history := self.history.commit self.settings.mode turnItems }

/-- `reset_history`, of `/new`. -/
def resetHistory (self : RoomState) : RoomState := self.invalidateHistory

/-- `append_turn_if_generation`: the commit of a turn that began under a generation, and whether it was
    accepted. -/
def appendTurnIfGeneration (self : RoomState) (expectedGeneration : UInt64)
    (wireFormat : WireFormat) (turnItems : List Value) : RoomState × Bool :=
  if self.generation ≠ expectedGeneration then (self, false)
  else (self.appendTurn wireFormat turnItems, true)

/-- `restore_failed_turn`: the rollback of a turn that began under a generation, and whether it was
    accepted. -/
def restoreFailedTurn (self : RoomState) (expectedGeneration : UInt64)
    (rollback : Option FailedTurnRollback) : RoomState × Bool :=
  if self.generation ≠ expectedGeneration then (self, false)
  else
    match rollback with
    | none => (self, true)
    | some rollback =>
      ({ self with
          wireFormat := rollback.wireFormat
          history := rollback.history
          generation := self.generation + 1 }, true)

/-- `reset_room_model_context` of the runtime, which also assigns `wire_format`. -/
def resetRoomModelContext (self : RoomState) : RoomState :=
  { self with settings := { self.settings with thinking := none }, wireFormat := none }.resetHistory

end RoomState

/-- An operation on one room.  The settings are public, so anything may be assigned to them. -/
inductive RoomOp
  | beginTurn (wireFormat : WireFormat)
  | appendTurn (wireFormat : WireFormat) (turnItems : List Value)
  | appendTurnIfGeneration (expectedGeneration : UInt64) (wireFormat : WireFormat)
      (turnItems : List Value)
  | restoreFailedTurn (expectedGeneration : UInt64) (rollback : Option FailedTurnRollback)
  | resetHistory
  | resetRoomModelContext
  | setSettings (settings : RoomSettings)

/-- The room after an operation; what an operation answers is left out. -/
def RoomState.apply (self : RoomState) : RoomOp → RoomState
  | .beginTurn wireFormat => (self.beginTurn wireFormat).1
  | .appendTurn wireFormat turnItems => self.appendTurn wireFormat turnItems
  | .appendTurnIfGeneration expected wireFormat turnItems =>
    (self.appendTurnIfGeneration expected wireFormat turnItems).1
  | .restoreFailedTurn expected rollback => (self.restoreFailedTurn expected rollback).1
  | .resetHistory => self.resetHistory
  | .resetRoomModelContext => self.resetRoomModelContext
  | .setSettings settings => { self with settings := settings }

/-- The operation invalidates the work in flight: it resets the room, changes its wire format, or
    consumes a rollback token. -/
def RoomState.Invalidates (self : RoomState) : RoomOp → Prop
  | .beginTurn wireFormat => self.wireFormat ≠ some wireFormat
  | .appendTurn wireFormat _ => self.wireFormat ≠ some wireFormat
  | .appendTurnIfGeneration expected wireFormat _ =>
    self.generation = expected ∧ self.wireFormat ≠ some wireFormat
  | .restoreFailedTurn expected rollback => self.generation = expected ∧ rollback.isSome = true
  | .resetHistory => True
  | .resetRoomModelContext => True
  | .setSettings _ => False

instance (self : RoomState) : (op : RoomOp) → Decidable (self.Invalidates op)
  | .beginTurn wireFormat => inferInstanceAs (Decidable (self.wireFormat ≠ some wireFormat))
  | .appendTurn wireFormat _ => inferInstanceAs (Decidable (self.wireFormat ≠ some wireFormat))
  | .appendTurnIfGeneration expected wireFormat _ =>
    inferInstanceAs (Decidable (self.generation = expected ∧ self.wireFormat ≠ some wireFormat))
  | .restoreFailedTurn expected rollback =>
    inferInstanceAs (Decidable (self.generation = expected ∧ rollback.isSome = true))
  | .resetHistory => inferInstanceAs (Decidable True)
  | .resetRoomModelContext => inferInstanceAs (Decidable True)
  | .setSettings _ => inferInstanceAs (Decidable False)

/-- The operation commits a turn to the history. -/
def RoomState.commits (self : RoomState) : RoomOp → Option (List Value)
  | .appendTurn _ turnItems => some turnItems
  | .appendTurnIfGeneration expected _ turnItems =>
    if self.generation = expected then some turnItems else none
  | _ => none

/-! ## What each operation does -/

namespace RoomState

variable {self : RoomState}

/-- A begun turn runs in its own wire format. -/
theorem wireFormat_beginTurn (self : RoomState) (wireFormat : WireFormat) :
    (self.beginTurn wireFormat).1.wireFormat = some wireFormat := by
  unfold beginTurn
  split
  · rfl
  · rename_i h
    exact not_not.mp h

/-- Beginning a turn in the room's own wire format changes nothing. -/
theorem beginTurn_same {wireFormat : WireFormat} (h : self.wireFormat = some wireFormat) :
    self.beginTurn wireFormat = (self, ⟨.none, none⟩) := by
  rw [beginTurn, if_neg (not_not.mpr h)]

theorem appendTurn_same {wireFormat : WireFormat} {turnItems : List Value}
    (h : self.wireFormat = some wireFormat) :
    self.appendTurn wireFormat turnItems =
      { self with history := self.history.commit self.settings.mode turnItems } := by
  simp only [appendTurn, if_neg (not_not.mpr h)]

/-- A commit is accepted exactly when the generation is the expected one. -/
theorem appendTurnIfGeneration_accepted {expected : UInt64} {wireFormat : WireFormat}
    {turnItems : List Value} :
    (self.appendTurnIfGeneration expected wireFormat turnItems).2 = true ↔
      self.generation = expected := by
  unfold appendTurnIfGeneration
  split
  · rename_i h
    exact ⟨fun h' => (by cases h'), fun h' => absurd h' h⟩
  · rename_i h
    exact ⟨fun _ => not_not.mp h, fun _ => rfl⟩

/-- So is a rollback. -/
theorem restoreFailedTurn_accepted {expected : UInt64} {rollback : Option FailedTurnRollback} :
    (self.restoreFailedTurn expected rollback).2 = true ↔ self.generation = expected := by
  unfold restoreFailedTurn
  split
  · rename_i h
    exact ⟨fun h' => (by cases h'), fun h' => absurd h' h⟩
  · rename_i h
    refine ⟨fun _ => not_not.mp h, ?_⟩
    intro _
    cases rollback <;> rfl

/-- A rejected call changes nothing. -/
theorem appendTurnIfGeneration_rejected {expected : UInt64} {wireFormat : WireFormat}
    {turnItems : List Value} (h : self.generation ≠ expected) :
    self.appendTurnIfGeneration expected wireFormat turnItems = (self, false) := by
  rw [appendTurnIfGeneration, if_pos h]

theorem restoreFailedTurn_rejected {expected : UInt64} {rollback : Option FailedTurnRollback}
    (h : self.generation ≠ expected) : self.restoreFailedTurn expected rollback = (self, false) := by
  unfold restoreFailedTurn
  exact if_pos h

/-- **The counter.**  The generation moves by one when the operation invalidates, and not otherwise. -/
theorem generation_apply (self : RoomState) (op : RoomOp) :
    (self.apply op).generation = self.generation + if self.Invalidates op then 1 else 0 := by
  cases op with
  | beginTurn wireFormat =>
    by_cases hw : self.wireFormat = some wireFormat <;> simp [apply, beginTurn, Invalidates, hw]
  | appendTurn wireFormat turnItems =>
    by_cases hw : self.wireFormat = some wireFormat <;>
      simp [apply, appendTurn, invalidateHistory, Invalidates, hw]
  | appendTurnIfGeneration expected wireFormat turnItems =>
    simp only [apply, appendTurnIfGeneration, Invalidates]
    by_cases hg : self.generation = expected
    · by_cases hw : self.wireFormat = some wireFormat
      · simp [hg, hw, appendTurn]
      · simp [hg, hw, appendTurn, invalidateHistory]
    · simp [hg]
  | restoreFailedTurn expected rollback =>
    simp only [apply, restoreFailedTurn, Invalidates]
    by_cases hg : self.generation = expected
    · cases rollback <;> simp [hg]
    · simp [hg]
  | resetHistory => simp [apply, resetHistory, invalidateHistory, Invalidates]
  | resetRoomModelContext =>
    simp [apply, resetRoomModelContext, resetHistory, invalidateHistory, Invalidates]
  | setSettings settings => simp [apply, Invalidates]

/-- **Everything else.**  An operation that does not invalidate keeps the wire format, and changes the
    history only by committing a turn. -/
theorem apply_of_not_invalidates {op : RoomOp} (h : ¬ self.Invalidates op) :
    (self.apply op).wireFormat = self.wireFormat ∧
    (self.apply op).history = (self.commits op).elim self.history
      (self.history.commit self.settings.mode) := by
  -- what is left of each operation once it does not invalidate
  cases op with
  | beginTurn wireFormat =>
    rw [apply, beginTurn_same (not_not.mp h)]
    exact ⟨rfl, rfl⟩
  | appendTurn wireFormat turnItems =>
    rw [apply, appendTurn_same (not_not.mp h)]
    exact ⟨rfl, rfl⟩
  | appendTurnIfGeneration expected wireFormat turnItems =>
    by_cases hg : self.generation = expected
    · have hw : self.wireFormat = some wireFormat := by
        by_contra hw
        exact h ⟨hg, hw⟩
      rw [apply, appendTurnIfGeneration, if_neg (not_not.mpr hg), appendTurn_same hw, commits,
        if_pos hg]
      exact ⟨rfl, rfl⟩
    · rw [apply, appendTurnIfGeneration_rejected hg, commits, if_neg hg]
      exact ⟨rfl, rfl⟩
  | restoreFailedTurn expected rollback =>
    by_cases hg : self.generation = expected
    · have hr : rollback = none := by
        rw [← Option.not_isSome_iff_eq_none]
        exact fun hr => h ⟨hg, hr⟩
      subst hr
      simp [apply, restoreFailedTurn, commits, hg]
    · rw [apply, restoreFailedTurn_rejected hg]
      exact ⟨rfl, rfl⟩
  | resetHistory => exact absurd trivial h
  | resetRoomModelContext => exact absurd trivial h
  | setSettings settings => exact ⟨rfl, rfl⟩

end RoomState

/-! ## All rooms -/

/-- `RoomStates`: the rooms by chat id. -/
structure RoomStates where
  rooms : BTreeMap Int RoomState := ∅

namespace RoomStates

/-- `RoomStates::from_settings`: at the start every room has the settings of the file and no history. -/
def fromSettings (settings : BTreeMap Int RoomSettings) : RoomStates :=
  ⟨settings.map fun _ settings => .new settings⟩

/-- `get_or_default`, as the state in which the room exists; the room itself is `get` of it. -/
def getOrDefault (self : RoomStates) (chatId : Int) : RoomStates :=
  ⟨self.rooms.alter chatId fun room => some (room.getD (.new {}))⟩

/-- `get`. -/
def get (self : RoomStates) (chatId : Int) : Option RoomState := self.rooms[chatId]?

/-- `get_mut` followed by an update of the room, if there is one. -/
def updateRoom (self : RoomStates) (chatId : Int) (f : RoomState → RoomState) : RoomStates :=
  ⟨self.rooms.modify chatId f⟩

/-- `settings`: what of the rooms is saved. -/
def settings (self : RoomStates) : BTreeMap Int RoomSettings :=
  self.rooms.map fun _ room => room.settings

/-- `reset_all_history`, of `reset` at the terminal. -/
def resetAllHistory (self : RoomStates) : RoomStates :=
  ⟨self.rooms.map fun _ room => room.resetHistory⟩

/-- `remove`: the room of a chat that is denied; its next one begins afresh. -/
def remove (self : RoomStates) (chatId : Int) : RoomStates := ⟨self.rooms.erase chatId⟩

variable (self : RoomStates) (chatId d : Int)

@[simp] theorem get_fromSettings (settings : BTreeMap Int RoomSettings) :
    (fromSettings settings).get d = (settings[d]?).map .new := by
  simp [get, fromSettings, Std.ExtTreeMap.getElem?_map]

@[simp] theorem get_getOrDefault :
    (self.getOrDefault chatId).get d =
      if chatId = d then some ((self.get chatId).getD (.new {})) else self.get d := by
  simp [get, getOrDefault, Std.ExtTreeMap.getElem?_alter]

@[simp] theorem get_updateRoom (f : RoomState → RoomState) :
    (self.updateRoom chatId f).get d =
      if chatId = d then (self.get chatId).map f else self.get d := by
  simp [get, updateRoom, Std.ExtTreeMap.getElem?_modify]

@[simp] theorem get_resetAllHistory :
    self.resetAllHistory.get d = (self.get d).map RoomState.resetHistory := by
  simp [get, resetAllHistory, Std.ExtTreeMap.getElem?_map]

@[simp] theorem get_remove :
    (self.remove chatId).get d = if chatId = d then none else self.get d := by
  simp [get, remove, Std.ExtTreeMap.getElem?_erase]

@[simp] theorem getElem?_settings :
    self.settings[d]? = (self.get d).map RoomState.settings := by
  simp [get, settings, Std.ExtTreeMap.getElem?_map]

/-- Two states with the same rooms are equal. -/
theorem ext_get {a b : RoomStates} (h : ∀ d, a.get d = b.get d) : a = b := by
  obtain ⟨a⟩ := a
  obtain ⟨b⟩ := b
  exact congrArg RoomStates.mk (Std.ExtTreeMap.ext_getElem? h)

end RoomStates

end Tellm
