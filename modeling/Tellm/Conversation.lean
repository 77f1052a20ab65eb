/-
  CONVERSATIONS: the opaque-history rule over all four providers and over any number of turns.

  A provider replays what it is given (`Verbatim`); the room gives it what it has kept.  Put together: in
  a room that is never reset and never pruned, every request of the next turn carries the items of all
  the turns so far, in order and unmodified, before its own user item.

  1. **`Provider`**: the four wire formats under one `chat` (`verbatim_chat`).
  2. **`takeTurn`**: a turn of a room from its beginning to its commit or its rollback.
  3. **`repliedItems`**: the items of the turns that a history of the room holds; `items_run` says that the
     room's history is exactly these.

  The statement is about the JSON that a provider is sent: `WireContract` says, for each wire format,
  where in the request's JSON the conversation is and which part of a response's JSON are the items to
  keep, and neither uses the client's own code for that.  The system item is stated from the room's role.

  A turn that fails, or whose result comes too late, adds nothing; a turn in another wire format takes the
  history out first, and gives it back if it fails.  What a conversation survives is `KeepsConversation`:
  turns in its own wire format, failed ones among them, whose items fit the room without pruning, and
  changes of settings that leave the room in chat mode.  `repliedItems` lists what such a run has
  committed, read off its history.
-/
import Tellm.Anthropic
import Tellm.Responses
import Tellm.Compat
import Tellm.Gemini

namespace Tellm

open Runs

/-- The client of a wire format. -/
inductive Provider
  | anthropic (client : Anthropic)
  | responses (client : Responses)
  | compat (client : Compat)
  | gemini (client : Gemini)

namespace Provider

/-- The wire format that the client speaks. -/
def wireFormat : Provider → WireFormat
  | .anthropic _ => .anthropic
  | .responses _ => .responses
  | .compat _ => .compat
  | .gemini _ => .gemini

/-- `Provider::chat`; `outcomes i` is what its `i`-th request meets. -/
def chat (self : Provider) (request : ChatRequest) (outcomes : Nat → HttpOutcome) : Call :=
  match self with
  | .anthropic client => client.chat request outcomes
  | .responses client => client.chat request outcomes
  | .compat client => client.chat request outcomes
  | .gemini client => client.chat request outcomes

/-- What the client's requests and its history have to look like. -/
def contract : Provider → WireContract
  | .anthropic _ => Anthropic.contract
  | .responses client => Responses.contract client.isXaiRequest
  | .compat _ => Compat.contract
  | .gemini _ => Gemini.contract

/-- Every provider replays its history verbatim. -/
theorem verbatim_chat (self : Provider) (request : ChatRequest) (outcomes : Nat → HttpOutcome) :
    ∃ userItem, Verbatim self.contract request outcomes userItem (self.chat request outcomes) := by
  cases self with
  | anthropic client => exact ⟨_, client.verbatim_chat request outcomes⟩
  | responses client => exact ⟨_, client.verbatim_chat request outcomes⟩
  | compat client => exact ⟨_, client.verbatim_chat request outcomes⟩
  | gemini client => exact client.verbatim_chat request outcomes

end Provider

/-! ## Turns of one room -/

/-- What a turn of a room is given. -/
structure TurnInput where
  provider : Provider
  modelConfig : ModelConfig
  input : List ContentPart
  outcomes : Nat → HttpOutcome

/-- The request that the turn builds, and its call. -/
def RoomState.turnCall (self : RoomState) (turn : TurnInput) : Call :=
  turn.provider.chat (prepareChatRequest self turn.modelConfig turn.input).2.request turn.outcomes

/-- A turn that nothing disturbs: begun, answered, and committed or rolled back. -/
def RoomState.takeTurn (self : RoomState) (turn : TurnInput) : RoomState :=
  let (room, prepared) := prepareChatRequest self turn.modelConfig turn.input
  match (self.turnCall turn).outcome with
  | .returned (.ok response) =>
    (room.appendTurnIfGeneration prepared.generation turn.modelConfig.wireFormat response.turnItems).1
  | _ => (room.restoreFailedTurn prepared.generation prepared.rollback).1

/-- A turn of the room, or new settings for it. -/
inductive RoomEvent
  | turn (turn : TurnInput)
  | settings (settings : RoomSettings)

/-- A room's turns, with changes of its settings between them. -/
def conversationSys : Sys RoomState RoomEvent where
  step room
    | .turn turn => some (room.takeTurn turn)
    | .settings settings => some { room with settings := settings }

/-- The events so far, newest first, each with the room it met. -/
abbrev ConversationHistory := List (RoomState × RoomEvent)

/-- The items that a call leaves to be committed. -/
def CallOutcome.turnItems : CallOutcome → List Value
  | .returned (.ok response) => response.turnItems
  | _ => []

/-- The items that a step committed. -/
def turnItems (room : RoomState) : RoomEvent → List Value
  | .turn turn => (room.turnCall turn).outcome.turnItems
  | .settings _ => []

/-- The items of all the turns so far, oldest first. -/
def repliedItems : ConversationHistory → List Value
  | [] => []
  | y :: h => repliedItems h ++ turnItems y.1 y.2

/-- The history has room for a turn. -/
def History.Fits (self : History) (turnItems : List Value) : Prop :=
  self.turns.length + 1 ≤ maxHistoryTurns ∧
    historyBytes (self.turns ++ [⟨turnItems.length,
      turnItems.foldl (fun total value => saturatingAdd total (approxJsonBytes value)) 0⟩]) ≤
      maxHistoryBytes

/-- Pushing a turn that fits prunes nothing. -/
theorem History.items_pushTurn {self : History} {turnItems : List Value} (h : self.Fits turnItems) :
    (self.pushTurn turnItems).items = self.items ++ turnItems := by
  have hprune : ∀ (turns : List HistoryTurn) (items : List Value)
      (covers : (turns.map (·.itemCount)).sum = items.length), turns.length ≤ maxHistoryTurns →
      historyBytes turns ≤ maxHistoryBytes → (prune turns items covers).items = items := by
    intro turns items covers hlength hbytes
    cases turns with
    | nil => rfl
    | cons oldest turns =>
      rw [prune, if_neg]
      rw [not_or]
      exact ⟨Nat.not_lt.mpr hlength, Nat.not_lt.mpr hbytes⟩
  refine hprune _ _ _ ?_ h.2
  rw [List.length_append, List.length_singleton]
  exact h.1

/-- A step without reset or pruning, in a room of the wire format: the room stays in chat mode, a turn
    speaks the wire format, and what it commits fits. -/
def KeepsConversation (wireFormat : WireFormat) (room : RoomState) : RoomEvent → Prop
  | .turn turn => turn.modelConfig.wireFormat = wireFormat ∧
      (room.beginTurn wireFormat).1.history.Fits (turnItems room (.turn turn))
  | .settings settings => settings.mode = .chat

/-- The room holds exactly the items, in the wire format; a room that holds none may have none yet. -/
structure Holds (format : WireFormat) (held : List Value) (room : RoomState) : Prop where
  mode : room.settings.mode = .chat
  items : room.history.items = held
  wireFormat : room.wireFormat = some format ∨ held = []

variable {wireFormat : WireFormat} {items : List Value} {room : RoomState} {turn : TurnInput}

theorem Holds.items_beginTurn (h : Holds wireFormat items room) :
    (room.beginTurn wireFormat).1.history.items = items := by
  unfold RoomState.beginTurn
  split
  · rename_i hne
    exact (h.wireFormat.resolve_left hne).symm
  · exact h.items

/-- The turn's request replays what the room holds. -/
theorem Holds.request_history (h : Holds wireFormat items room)
    (hwire : turn.modelConfig.wireFormat = wireFormat) :
    (prepareChatRequest room turn.modelConfig turn.input).2.request.history = items := by
  subst hwire
  show (chatRequestFromRoom (room.beginTurn _).1 turn.modelConfig turn.input).history = items
  unfold chatRequestFromRoom
  simp only [settings_beginTurn, h.mode]
  exact h.items_beginTurn

/-- One step: a turn that is answered adds its items, any other leaves the room as it was. -/
theorem Holds.step (h : Holds wireFormat items room) {event : RoomEvent} {room' : RoomState}
    (hevent : KeepsConversation wireFormat room event)
    (hstep : conversationSys.step room event = some room') :
    Holds wireFormat (items ++ turnItems room event) room' := by
  cases event with
  | settings settings =>
    cases hstep
    exact ⟨hevent, by rw [turnItems, List.append_nil]; exact h.items, by
      rw [turnItems, List.append_nil]; exact h.wireFormat⟩
  | turn turn =>
    cases hstep
    obtain ⟨rfl, hfits⟩ := hevent
    have hmode : (room.beginTurn turn.modelConfig.wireFormat).1.settings.mode = .chat := by
      rw [settings_beginTurn]
      exact h.mode
    have hwire := RoomState.wireFormat_beginTurn room turn.modelConfig.wireFormat
    rw [turnItems] at hfits ⊢
    unfold RoomState.takeTurn
    dsimp only [prepareChatRequest]
    -- Nothing came between: the turn's generation is still the room's.
    have hfailed : Holds turn.modelConfig.wireFormat (items ++ [])
        ((room.beginTurn turn.modelConfig.wireFormat).1.restoreFailedTurn
          (room.beginTurn turn.modelConfig.wireFormat).1.generation
          (room.beginTurn turn.modelConfig.wireFormat).2.rollback).1 := by
      unfold RoomState.restoreFailedTurn
      rw [List.append_nil, if_neg (not_not.mpr rfl)]
      by_cases hsame : room.wireFormat = some turn.modelConfig.wireFormat
      · rw [RoomState.beginTurn_same hsame]
        exact h
      · simp only [RoomState.beginTurn, if_pos hsame]
        exact ⟨h.mode, h.items, h.wireFormat⟩
    cases houtcome : (room.turnCall turn).outcome with
    | unreachable => exact hfailed
    | returned result =>
      cases result with
      | error error => exact hfailed
      | ok response =>
        rw [houtcome] at hfits
        show Holds _ _ ((room.beginTurn turn.modelConfig.wireFormat).1.appendTurnIfGeneration
          (room.beginTurn turn.modelConfig.wireFormat).1.generation turn.modelConfig.wireFormat
            response.turnItems).1
        rw [RoomState.appendTurnIfGeneration, if_neg (not_not.mpr rfl),
          RoomState.appendTurn_same hwire, hmode]
        refine ⟨hmode, ?_, Or.inl hwire⟩
        exact (History.items_pushTurn hfits).trans (congrArg (· ++ _) h.items_beginTurn)

/-- **A conversation without reset or pruning**: the room's history is the items of its turns. -/
theorem items_run {start : RoomState} {h : ConversationHistory}
    (p : Path conversationSys start h room) (hstart : Holds wireFormat [] start) :
    (∀ y ∈ h, KeepsConversation wireFormat y.1 y.2) → Holds wireFormat (repliedItems h) room := by
  induction p with
  | start => exact fun _ => hstart
  | step p hstep ih =>
    intro hall
    have hheld := ih fun y hy => hall y (List.mem_cons_of_mem _ hy)
    exact hheld.step (hall _ List.mem_cons_self) hstep

/-- **Verbatim stateless replay.**  Every call of every provider replays its history verbatim; and after
    any turns of a room without reset or pruning, the next turn's calls carry the items of all the
    earlier turns before their user item. -/
theorem verbatim_replay :
    (∀ (provider : Provider) request outcomes, ∃ userItem,
      Verbatim provider.contract request outcomes userItem (provider.chat request outcomes)) ∧
    (∀ (wireFormat : WireFormat) (settings : RoomSettings) (h : ConversationHistory)
      (room : RoomState), settings.mode = .chat → Path conversationSys (.new settings) h room →
      (∀ y ∈ h, KeepsConversation wireFormat y.1 y.2) →
      ∀ turn : TurnInput, turn.modelConfig.wireFormat = wireFormat → ∃ userItem,
        ∀ i (hi : i < (room.turnCall turn).sent.length),
          turn.provider.contract.conversation (room.turnCall turn).sent[i] =
            some (turn.provider.contract.systemItems
                (prepareChatRequest room turn.modelConfig turn.input).2.request ++
              repliedItems h ++ [userItem] ++
              turn.provider.contract.itemsReceived turn.outcomes i)) := by
  refine ⟨Provider.verbatim_chat, ?_⟩
  intro wireFormat settings h room hmode p hall turn hwire
  have hheld := items_run p ⟨hmode, rfl, Or.inr rfl⟩ hall
  obtain ⟨userItem, hverbatim⟩ := turn.provider.verbatim_chat
    (prepareChatRequest room turn.modelConfig turn.input).2.request turn.outcomes
  refine ⟨userItem, fun i hi => ?_⟩
  have hsent := hverbatim.sent i hi
  rw [hheld.request_history hwire] at hsent
  exact hsent

/-- A greeting to a model of xAI, and the answer it gets. -/
def greeting : TurnInput where
  provider := .responses (.new "key" (some "https://api.x.ai/v1"))
  modelConfig := { wireFormat := .responses, modelName := "grok-4.5" }
  input := [.text "hi"]
  outcomes _ := .ok ⟨200, .ok (.json [("output", .array [.json [("type", .string "message"),
    ("content", .array [.json [("type", .string "output_text"), ("text", .string "hello")]])]])])⟩

/-- What the greeting and its answer are on the wire, after the role that the room has. -/
def greetingItems : List Value :=
  [.object [("content", .array [.object [("text", .string "Be brief."), ("type", .string "input_text")]]),
      ("role", .string "system")],
    .object [("content", .array [.object [("text", .string "hi"), ("type", .string "input_text")]]),
      ("role", .string "user")],
    .object [("content", .array [.object [("text", .string "hello"), ("type", .string "output_text")]]),
      ("type", .string "message")]]

/-- The second turn of a room with a role carries the role, the two items of the first turn, and its own. -/
theorem verbatim_replay_greeting :
    let start : RoomState := .new { role := some "Be brief." }
    let room := start.takeTurn greeting
    repliedItems [(start, .turn greeting)] = greetingItems.drop 1 ∧
    (room.turnCall greeting).sent.map greeting.provider.contract.conversation =
      [some (greetingItems ++ [greetingItems[1]])] ∧
    ∃ userItem, ∀ i (hi : i < (room.turnCall greeting).sent.length),
      greeting.provider.contract.conversation (room.turnCall greeting).sent[i] =
        some (greeting.provider.contract.systemItems
            (prepareChatRequest room greeting.modelConfig greeting.input).2.request ++
          repliedItems [(start, .turn greeting)] ++ [userItem] ++
          greeting.provider.contract.itemsReceived greeting.outcomes i) := by
  refine ⟨by with_unfolding_all rfl, by with_unfolding_all rfl, ?_⟩
  refine verbatim_replay.2 .responses { role := some "Be brief." } _ _ rfl (.step .start rfl) ?_ greeting rfl
  intro y hy
  obtain rfl := List.mem_singleton.mp hy
  exact ⟨rfl, by decide +kernel, by decide +kernel⟩

end Tellm
