/-
  A FAILED TURN leaves no trace.

  A turn in another wire format takes the history out of the room when it begins, and its failure puts it
  back.  What remains is the generation, which has moved twice.  So the room is compared with the one in
  which the turn never began: equal but for a constant between the generations, and no operation can tell.

  1. **`Session`**: a room and the turns prepared in it, and the operations that come later.  A commit or a
     failure shows what its turn was given.
  2. **`Shifted`**: two sessions whose generations, the room's and the turns', differ by the same number.
     Every operation keeps it, and shows the same in both (`Shifted.step`).
  3. **`failedTurn_invisible`**: where a turn has failed, the two sessions start so.

  Comparing the room with itself before the turn would be wrong in one point and right in all others: the
  generation is a different number.  So the comparison is one of two runs from the two states, with the
  same later operations in both, whatever they are: settings, resets, other turns with their commits and
  failures, in any order and number.  Turns that are prepared later read generations that differ by the
  same constant, and show them again later, so each is accepted in both runs or in neither.

  The shift is taken in `UInt64`, so the wrap of the counter needs no side condition.

  Settings may change while the turn is in flight, and then they stay: a failure puts back history and
  wire format only.  `changeSettings` stands for any number of such changes.
-/
import Tellm.ModelTurn
import Tellm.Lib.Runs

namespace Tellm

/-! ## Later turns -/

/-- A room, and the requests of the turns begun since, oldest first. -/
structure Session where
  room : RoomState
  turns : List PreparedChatRequest

/-- What happens to a room: a turn is prepared, committed or given up, or the history is reset. -/
inductive SessionOp
  | prepare (modelConfig : ModelConfig) (input : List ContentPart)
  | commit (turn : Nat) (turnItems : List Value)
  | fail (turn : Nat)
  | resetHistory
  | resetRoomModelContext
  | setSettings (settings : RoomSettings)

/-- What an operation reports. -/
inductive SessionReport
  | prepared (request : ChatRequest) (reset : HistoryReset) (notice : Option String)
  | decided (accepted : Bool)
  | nothing

/-- What can be seen of an operation: its report, and what it leaves in the room but for the generation. -/
structure SessionView where
  report : SessionReport
  settings : RoomSettings
  wireFormat : Option WireFormat
  history : History

namespace Session

/-- The session, and the operation's report. -/
def step (self : Session) : SessionOp → Session × SessionReport
  | .prepare modelConfig input =>
    let (room, prepared) := prepareChatRequest self.room modelConfig input
    (⟨room, self.turns ++ [prepared]⟩,
      .prepared prepared.request (self.room.beginTurn modelConfig.wireFormat).2.reset prepared.resetNotice)
  | .commit turn turnItems =>
    match self.turns[turn]? with
    | some prepared =>
      let (room, accepted) := self.room.appendTurnIfGeneration prepared.generation
        prepared.modelConfig.wireFormat turnItems
      (⟨room, self.turns⟩, .decided accepted)
    | none => (self, .nothing)
  | .fail turn =>
    match self.turns[turn]? with
    | some prepared =>
      let (room, accepted) := self.room.restoreFailedTurn prepared.generation prepared.rollback
      (⟨room, self.turns⟩, .decided accepted)
    | none => (self, .nothing)
  | .resetHistory => (⟨self.room.resetHistory, self.turns⟩, .nothing)
  | .resetRoomModelContext => (⟨self.room.resetRoomModelContext, self.turns⟩, .nothing)
  | .setSettings settings => (⟨{ self.room with settings := settings }, self.turns⟩, .nothing)

/-- What of a room can be seen from outside: the settings, the wire format and the history, but not the
    generation. -/
def view (self : Session) (report : SessionReport) : SessionView :=
  ⟨report, self.room.settings, self.room.wireFormat, self.room.history⟩

/-- What can be seen of a run, operation after operation. -/
def views (self : Session) : List SessionOp → List SessionView
  | [] => []
  | op :: ops =>
    let (after, report) := self.step op
    after.view report :: after.views ops

end Session

/-! ## Shifted generations -/

/-- The rooms are equal but for their generations, which differ by `shift`. -/
structure RoomState.Shifted (shift : UInt64) (room other : RoomState) : Prop where
  settings : room.settings = other.settings
  wireFormat : room.wireFormat = other.wireFormat
  history : room.history = other.history
  generation : room.generation = other.generation + shift

/-- The request of the same turn, with another generation. -/
def PreparedChatRequest.shift (shift : UInt64) (self : PreparedChatRequest) : PreparedChatRequest :=
  { self with generation := self.generation + shift }

/-- Two sessions that differ by a constant in the generations, in the room and in the turns that began under
    them. -/
structure Session.Shifted (shift : UInt64) (session other : Session) : Prop where
  room : session.room.Shifted shift other.room
  turns : session.turns = other.turns.map (PreparedChatRequest.shift shift)

section

variable {shift : UInt64} {self other : RoomState}

theorem shift_succ (generation shift : UInt64) : generation + shift + 1 = generation + 1 + shift := by
  rw [UInt64.add_assoc, UInt64.add_comm shift, ← UInt64.add_assoc]

theorem RoomState.Shifted.beginTurn (h : self.Shifted shift other) (wireFormat : WireFormat) :
    (self.beginTurn wireFormat).1.Shifted shift (other.beginTurn wireFormat).1 ∧
    (self.beginTurn wireFormat).2 = (other.beginTurn wireFormat).2 := by
  unfold RoomState.beginTurn
  rw [h.wireFormat, h.history, h.generation]
  split
  · exact ⟨⟨h.settings, rfl, rfl, shift_succ _ _⟩, rfl⟩
  · exact ⟨h, rfl⟩

theorem RoomState.Shifted.invalidateHistory (h : self.Shifted shift other) :
    self.invalidateHistory.Shifted shift other.invalidateHistory := by
  refine ⟨h.settings, h.wireFormat, rfl, ?_⟩
  show self.generation + 1 = other.generation + 1 + shift
  rw [h.generation, shift_succ]

theorem RoomState.Shifted.appendTurn (h : self.Shifted shift other) (wireFormat : WireFormat)
    (turnItems : List Value) :
    (self.appendTurn wireFormat turnItems).Shifted shift (other.appendTurn wireFormat turnItems) := by
  unfold RoomState.appendTurn
  rw [h.wireFormat]
  dsimp only
  split
  · refine ⟨h.settings, rfl, ?_, ?_⟩
    · show History.empty.commit self.settings.mode turnItems =
        History.empty.commit other.settings.mode turnItems
      rw [h.settings]
    · show self.generation + 1 = other.generation + 1 + shift
      rw [h.generation, shift_succ]
  · refine ⟨h.settings, h.wireFormat, ?_, h.generation⟩
    show self.history.commit self.settings.mode turnItems = other.history.commit other.settings.mode turnItems
    rw [h.settings, h.history]

/-- Both rooms are at the generation of their own token, or neither is. -/
theorem RoomState.Shifted.generation_iff (h : self.Shifted shift other) (expected : UInt64) :
    self.generation ≠ expected + shift ↔ other.generation ≠ expected := by
  rw [h.generation, ne_eq, UInt64.add_left_inj]

theorem RoomState.Shifted.appendTurnIfGeneration (h : self.Shifted shift other) (expected : UInt64)
    (wireFormat : WireFormat) (turnItems : List Value) :
    (self.appendTurnIfGeneration (expected + shift) wireFormat turnItems).1.Shifted shift
      (other.appendTurnIfGeneration expected wireFormat turnItems).1 ∧
    (self.appendTurnIfGeneration (expected + shift) wireFormat turnItems).2 =
      (other.appendTurnIfGeneration expected wireFormat turnItems).2 := by
  unfold RoomState.appendTurnIfGeneration
  simp only [h.generation_iff expected]
  split
  · exact ⟨h, rfl⟩
  · exact ⟨h.appendTurn wireFormat turnItems, rfl⟩

theorem RoomState.Shifted.restoreFailedTurn (h : self.Shifted shift other) (expected : UInt64)
    (rollback : Option FailedTurnRollback) :
    (self.restoreFailedTurn (expected + shift) rollback).1.Shifted shift
    (other.restoreFailedTurn expected rollback).1 ∧
    (self.restoreFailedTurn (expected + shift) rollback).2 =
    (other.restoreFailedTurn expected rollback).2 := by
  unfold RoomState.restoreFailedTurn
  simp only [h.generation_iff expected]
  split
  · exact ⟨h, rfl⟩
  · cases rollback with
    | none => exact ⟨h, rfl⟩
    | some rollback =>
      refine ⟨⟨h.settings, rfl, rfl, ?_⟩, rfl⟩
      show self.generation + 1 = other.generation + 1 + shift
      rw [h.generation, shift_succ]

theorem RoomState.Shifted.resetRoomModelContext (h : self.Shifted shift other) :
    self.resetRoomModelContext.Shifted shift other.resetRoomModelContext := by
  refine ⟨?_, rfl, rfl, ?_⟩
  · show { self.settings with thinking := none } = { other.settings with thinking := none }
    rw [h.settings]
  · show self.generation + 1 = other.generation + 1 + shift
    rw [h.generation, shift_succ]

theorem RoomState.Shifted.prepareChatRequest (h : self.Shifted shift other) (modelConfig : ModelConfig)
    (input : List ContentPart) :
    (Tellm.prepareChatRequest self modelConfig input).1.Shifted shift
      (Tellm.prepareChatRequest other modelConfig input).1 ∧
    (Tellm.prepareChatRequest self modelConfig input).2 =
      (Tellm.prepareChatRequest other modelConfig input).2.shift shift := by
  obtain ⟨hroom, hstart⟩ := h.beginTurn modelConfig.wireFormat
  refine ⟨hroom, ?_⟩
  unfold Tellm.prepareChatRequest chatRequestFromRoom PreparedChatRequest.shift
  dsimp only
  rw [hroom.settings, hroom.history, hroom.generation, hstart]

end

/-- **One operation**: two sessions that differ by a shift of their generations alone still do so after it,
    and the operation reports the same of both. -/
theorem Session.Shifted.step {shift : UInt64} {self other : Session} (h : self.Shifted shift other)
    (op : SessionOp) :
    (self.step op).1.Shifted shift (other.step op).1 ∧ (self.step op).2 = (other.step op).2 := by
  -- a turn is known by its place, so the two sessions decide on the same one
  cases op with
  | prepare modelConfig input =>
    obtain ⟨hroom, hprepared⟩ := h.room.prepareChatRequest modelConfig input
    obtain ⟨-, hstart⟩ := h.room.beginTurn modelConfig.wireFormat
    unfold Session.step
    dsimp only
    refine ⟨⟨hroom, ?_⟩, ?_⟩
    · rw [h.turns, hprepared, List.map_append, List.map_singleton]
    · rw [hprepared, hstart]
      rfl
  | commit turn turnItems =>
    unfold Session.step
    dsimp only
    rw [h.turns, List.getElem?_map]
    cases other.turns[turn]? with
    | none => exact ⟨h, rfl⟩
    | some prepared =>
      obtain ⟨hroom, haccepted⟩ := h.room.appendTurnIfGeneration prepared.generation
        prepared.modelConfig.wireFormat turnItems
      exact ⟨⟨hroom, rfl⟩, congrArg SessionReport.decided haccepted⟩
  | fail turn =>
    unfold Session.step
    dsimp only
    rw [h.turns, List.getElem?_map]
    cases other.turns[turn]? with
    | none => exact ⟨h, rfl⟩
    | some prepared =>
      obtain ⟨hroom, haccepted⟩ := h.room.restoreFailedTurn prepared.generation prepared.rollback
      exact ⟨⟨hroom, rfl⟩, congrArg SessionReport.decided haccepted⟩
  | resetHistory => exact ⟨⟨h.room.invalidateHistory, h.turns⟩, rfl⟩
  | resetRoomModelContext => exact ⟨⟨h.room.resetRoomModelContext, h.turns⟩, rfl⟩
  | setSettings settings =>
    exact ⟨⟨⟨rfl, h.room.wireFormat, h.room.history, h.room.generation⟩, h.turns⟩, rfl⟩

/-- **Every run**: whatever operations follow, what can be seen of two sessions that are shifted against each
    other is the same after each of them. -/
theorem Session.Shifted.views_eq {shift : UInt64} {self other : Session} (h : self.Shifted shift other)
    (ops : List SessionOp) : self.views ops = other.views ops := by
  induction ops generalizing self other with
  | nil => rfl
  | cons op ops ih =>
    obtain ⟨hstep, hreport⟩ := h.step op
    unfold Session.views
    dsimp only
    rw [ih hstep, hreport, Session.view, Session.view, hstep.room.settings, hstep.room.wireFormat,
      hstep.room.history]

/-! ## The failed turn -/

/-- The settings are changed, once for each of the list. -/
def RoomState.changeSettings (self : RoomState) (changes : List RoomSettings) : RoomState :=
  changes.foldl (fun room settings => room.apply (.setSettings settings)) self

theorem changeSettings_eq (self : RoomState) (changes : List RoomSettings) :
    self.changeSettings changes = { self with settings := changes.getLastD self.settings } := by
  induction changes generalizing self with
  | nil => rfl
  | cons settings changes ih =>
    show ({ self with settings := settings } : RoomState).changeSettings changes = _
    rw [ih, List.getLastD_cons]

/-- **A failed turn is invisible.**  Its failure is accepted, and puts back history, turns and wire
    format; the settings changed meanwhile stay; and whatever comes later shows the same as if the turn
    had never begun. -/
theorem failedTurn_invisible (room : RoomState) (modelConfig : ModelConfig) (input : List ContentPart)
    (changes : List RoomSettings) :
    let (begun, prepared) := prepareChatRequest room modelConfig input
    let (failed, accepted) :=
      (begun.changeSettings changes).restoreFailedTurn prepared.generation prepared.rollback
    let never := room.changeSettings changes
    accepted = true ∧ failed.history = room.history ∧ failed.wireFormat = room.wireFormat ∧
    failed.settings = never.settings ∧
    ∀ ops, Session.views ⟨failed, []⟩ ops = Session.views ⟨never, []⟩ ops := by
  dsimp only [prepareChatRequest]
  rw [changeSettings_eq, changeSettings_eq, settings_beginTurn]
  by_cases hwire : room.wireFormat = some modelConfig.wireFormat
  · rw [RoomState.beginTurn_same hwire, RoomState.restoreFailedTurn, if_neg (not_not.mpr rfl)]
    exact ⟨rfl, rfl, rfl, rfl, fun _ => rfl⟩
  · have hbegin : room.beginTurn modelConfig.wireFormat =
        (⟨room.settings, some modelConfig.wireFormat, .empty, room.generation + 1⟩,
          ⟨.wireFormatChanged room.wireFormat modelConfig.wireFormat,
          some ⟨room.wireFormat, room.history⟩⟩) := by
      rw [RoomState.beginTurn, if_pos hwire]
    rw [hbegin, RoomState.restoreFailedTurn, if_neg (not_not.mpr rfl)]
    refine ⟨rfl, rfl, rfl, rfl, ?_⟩
    refine @Session.Shifted.views_eq 2 _ _ ⟨⟨rfl, rfl, rfl, ?_⟩, rfl⟩
    show room.generation + 1 + 1 = room.generation + 2
    rw [UInt64.add_assoc]
    rfl

end Tellm
