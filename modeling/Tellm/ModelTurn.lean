/-
  MODEL TURNS: `model_turn.rs` and the part of `runtime.rs` that builds a turn's request.

  A turn reads everything it needs in one critical section: the effective model (the chat's pin, else
  the room's choice, else the default), the room's role and settings, and the history in the model's
  wire format.  What it has read is a `PreparedChatRequest`; the room is not locked while the provider
  answers.

  1. **`prepareChatRequest`**: a turn begins in the room, and the request is read off it.
  2. **`buildChatRequest`**: the same in the rooms, with the model the config and the room select.
  3. `buildChatRequest_ok` is the one lemma about them: what a request that was built says about the
     room it was built from.

  The text of a request's parts is what the user sent, with the files already downloaded; the download is
  not modelled.  When a room comes from another wire format, the turn drops the history and brings a
  notice that says so (`resetNotice`), with the texts of the source.

  `selectedModelKey` decides which model a chat gets: the one that is pinned to the chat in the config, or
  else the one that its room has chosen, or else the default.  Validation and dispatch look at the model's
  own configuration and are in `Tellm.Validate` and `Tellm.Credentials`.

  An error is returned where that key names no model of the config.  Then no turn has begun in the room,
  so there is nothing to roll back.
-/
import Tellm.Handlers
import Tellm.Persistence

namespace Tellm

/-- One part of a user turn. -/
inductive ContentPart
  | text (text : String)
  | image (mediaType : String) (base64 : String)
  | document (mediaType : String) (base64 : String) (name : Option String)
  deriving DecidableEq

/-- The unified, provider-agnostic request. -/
structure ChatRequest where
  model : String
  system : Option String
  history : List Value
  input : List ContentPart
  thinking : ThinkingLevel
  webSearch : Bool
  imageGeneration : Bool

/-- `PreparedChatRequest`: a turn that has begun, with all it needs once the locks are released. -/
structure PreparedChatRequest where
  modelConfig : ModelConfig
  request : ChatRequest
  rollback : Option FailedTurnRollback
  generation : UInt64
  resetNotice : Option String

/-! ## The request -/

/-- The derived `Debug` of a wire format. -/
def WireFormat.debug : WireFormat → String
  | .anthropic => "Anthropic"
  | .responses => "Responses"
  | .compat => "Compat"
  | .gemini => "Gemini"

/-- The notice to the chat when its history was dropped for another wire format. -/
def resetNotice : HistoryReset → Option String
  | .wireFormatChanged (some previous) new =>
    if previous ≠ new then
      let (old, next) := (previous.debug, new.debug)
      some s!"Provider wire format changed from {old} to {next}; chat history reset."
    else none
  | .wireFormatChanged none _ => none
  | .none => none

/-- `chat_request_from_room`: the request of a turn; in message mode it goes without the history. -/
def chatRequestFromRoom (room : RoomState) (modelConfig : ModelConfig) (input : List ContentPart) :
    ChatRequest where
  model := modelConfig.modelName
  system := room.settings.role
  history :=
    match room.settings.mode with
    | .chat => room.history.items
    | .message => []
  input := input
  thinking := room.settings.thinking.getD modelConfig.thinking
  webSearch := room.settings.webSearch
  imageGeneration := room.settings.imageGeneration

/-- `prepare_chat_request`: the room with the turn begun, and the request. -/
def prepareChatRequest (room : RoomState) (modelConfig : ModelConfig) (input : List ContentPart) :
    RoomState × PreparedChatRequest :=
  let (room, start) := room.beginTurn modelConfig.wireFormat
  (room,
    { modelConfig := modelConfig
      request := chatRequestFromRoom room modelConfig input
      rollback := start.rollback
      generation := room.generation
      resetNotice := resetNotice start.reset })

/-! ## The model -/

/-- `selected_model_key`: the pin comes before the room's choice, and that before the default. -/
def selectedModelKey (config : Config) (room : RoomState) (chatId : Int) : String :=
  ((pinnedModelKey config chatId).or room.settings.modelKey).getD config.defaultModel

/-- The chat's room, as `get_or_default` finds it. -/
def RoomStates.room (self : RoomStates) (chatId : Int) : RoomState :=
  (self.get chatId).getD (.new {})

/-- `build_chat_request`, for a chat that is allowed. -/
def buildChatRequest (config : Config) (rooms : RoomStates) (chatId : Int)
    (input : List ContentPart) : RoomStates × Result PreparedChatRequest :=
  let room := rooms.room chatId
  let rooms := rooms.getOrDefault chatId
  let modelKey := selectedModelKey config room chatId
  match config.models[modelKey]? with
  | none => (rooms, .error s!"configured model \"{modelKey}\" was not found")
  | some modelConfig =>
    let (room, prepared) := prepareChatRequest room modelConfig input
    (rooms.updateRoom chatId fun _ => room, .ok prepared)

/-! ## What a request says -/

/-- The selection reads the settings only. -/
theorem selectedModelKey_congr {config : Config} {room room' : RoomState} {chatId : Int}
    (h : room.settings.modelKey = room'.settings.modelKey) :
    selectedModelKey config room chatId = selectedModelKey config room' chatId := by
  rw [selectedModelKey, selectedModelKey, h]

theorem settings_beginTurn (room : RoomState) (wireFormat : WireFormat) :
    (room.beginTurn wireFormat).1.settings = room.settings := by
  unfold RoomState.beginTurn
  split
  · rfl
  · rfl

/-- A request's history is read off the room: all of it, or nothing in message mode. -/
theorem mem_history_request {room : RoomState} {modelConfig : ModelConfig}
    {input : List ContentPart} {item : Value}
    (h : item ∈ (chatRequestFromRoom room modelConfig input).history) :
    item ∈ room.history.items := by
  unfold chatRequestFromRoom at h
  dsimp only at h
  split at h
  · exact h
  · exact absurd h List.not_mem_nil

/-- Setting a room that `get_or_default` has found. -/
@[simp] theorem room_mutate (rooms : RoomStates) (chatId : Int) (f : RoomState → RoomState) :
    (rooms.mutate chatId f).room chatId = f (rooms.room chatId) := by
  rw [RoomStates.room, RoomStates.mutate, RoomStates.get_updateRoom, if_pos rfl,
    RoomStates.get_getOrDefault, if_pos rfl]
  rfl

/-- **A request that was built** names its model by the selected key, and is read off the room in which
    its turn has begun. -/
theorem buildChatRequest_ok {config : Config} {rooms rooms' : RoomStates} {chatId : Int}
    {input : List ContentPart} {prepared : PreparedChatRequest}
    (h : buildChatRequest config rooms chatId input = (rooms', .ok prepared)) :
    config.models[selectedModelKey config (rooms.room chatId) chatId]? = some prepared.modelConfig ∧
    prepared = (prepareChatRequest (rooms.room chatId) prepared.modelConfig input).2 ∧
    rooms'.room chatId = ((rooms.room chatId).beginTurn prepared.modelConfig.wireFormat).1 := by
  unfold buildChatRequest at h
  dsimp only at h
  split at h
  · cases (Prod.mk.inj h).2
  · rename_i modelConfig hmodel
    obtain ⟨rfl, hprepared⟩ := Prod.mk.inj h
    obtain rfl := Except.ok.inj hprepared
    refine ⟨hmodel, rfl, ?_⟩
    exact room_mutate rooms chatId fun _ => (prepareChatRequest (rooms.room chatId) modelConfig input).1

/-- One that cannot be built leaves the rooms alone, but for creating the chat's. -/
theorem buildChatRequest_error {config : Config} {rooms rooms' : RoomStates} {chatId : Int}
    {input : List ContentPart} {error : String}
    (h : buildChatRequest config rooms chatId input = (rooms', .error error)) :
    rooms' = rooms.getOrDefault chatId := by
  unfold buildChatRequest at h
  dsimp only at h
  split at h
  · exact (Prod.mk.inj h).1.symm
  · cases (Prod.mk.inj h).2

end Tellm
