/-
  REPLAY: which items a model turn sends back to its provider.

  A room's history is opaque: it must go back to the model, and under the system role, that produced it.
  No field records either.  What keeps the history homogeneous is that every command that changes the
  effective model or the role also resets the room, in a transaction of its own that may fail, and that
  a chat's worker takes one message at a time.  Only the terminal may reset at any point.

  1. **`chatSys`**: one chat's worker, its position between two suspension points explicit, with every
     save succeeding or failing.
  2. **`Sourced`**: every item of the room comes from a turn under the model, wire format and role that
     the room selects now, with no reset since.  It may fail only between the config commit of a pin and
     the room's reset (`SourcedAt`).
  3. **`history_sourced`**: whatever request is built, its history is.

  The commands are those that touch a room or the pins: the model and the role with their resets, the
  settings without one, an explicit reset.  All but the last are transactions whose save may fail, and
  then the old settings come back; the history, if it was cleared, does not.  That is what makes the
  invariant hold: a failed switch leaves the old model with an empty history, of which everything is true.

  `SourcedItem` is a statement about the run's history: some earlier step committed a turn that brought
  this item, under this key, format and role, and no step since was a reset of the room.  The state has no
  field for any of it.

  The worker's positions matter because a pin is two transactions, one on the config and one on the room.
  Between the two the room's items may belong to the model that was pinned before, and no request is built
  there, since the worker is busy.
-/
import Tellm.ModelTurn
import Tellm.Lib.Runs

namespace Tellm

open Runs

/-! ## The commands -/

/-- The actions of `handle_command` that change a room or its effective model. -/
inductive RoomAction
  | resetHistory
  | setMode (mode : ChatMode)
  | setModel (modelKey : String)
  | pinModel (modelKey : String)
  | unpinModel
  | setRole (role : Option String)
  | setReasoning (thinking : Option ThinkingLevel)
  | setWebSearch (enabled : Bool)
  | setImageGeneration (enabled : Bool)
  deriving DecidableEq

namespace RoomAction

/-- What the action does to the room. -/
def mutate : RoomAction → RoomState → RoomState
  | .resetHistory, room => room.resetHistory
  | .setMode mode, room =>
    let room := { room with settings := { room.settings with mode := mode } }
    if mode = .message then room.resetHistory else room
  | .setModel modelKey, room =>
    { room with settings := { room.settings with modelKey := some modelKey } }.resetRoomModelContext
  | .pinModel _, room => room.resetRoomModelContext
  | .unpinModel, room => room.resetRoomModelContext
  | .setRole role, room =>
    { room with settings := { room.settings with role := role } }.resetHistory
  | .setReasoning thinking, room =>
    { room with settings := { room.settings with thinking := thinking } }
  | .setWebSearch enabled, room =>
    { room with settings := { room.settings with webSearch := enabled } }
  | .setImageGeneration enabled, room =>
    { room with settings := { room.settings with imageGeneration := enabled } }

/-- The action resets the room. -/
def resets : RoomAction → Bool
  | .setMode mode => mode = .message
  | .setReasoning _ => false
  | .setWebSearch _ => false
  | .setImageGeneration _ => false
  | _ => true

end RoomAction

/-! ## One chat's worker -/

/-- Where the chat's worker is: waiting for a message, or at a suspension point of handling one. -/
inductive ChatWorker
  | idle
  /-- In the config lock, waiting for the config to be saved. -/
  | configSaving (before : Config) (action : RoomAction)
  /-- Waiting for the transaction lock of `mutate_room`. -/
  | mutating (action : RoomAction)
  /-- In `mutate_room`, waiting for the rooms to be saved. -/
  | roomSaving (before : Option RoomSettings)
  /-- Waiting for the provider, the model having been selected by its key. -/
  | awaitingProvider (modelKey : String) (prepared : PreparedChatRequest)

/-- The config, the rooms, and what the chat's worker is doing. -/
structure ChatState where
  config : Config
  rooms : RoomStates
  worker : ChatWorker

/-- A step of the worker, or what another task does to the chat's room. -/
inductive ChatEvent
  | handleCommand (action : RoomAction)
  | saveConfig (result : WriteResult)
  | mutateRoom
  | saveRooms (result : WriteResult)
  | handleModelMessage (input : List ContentPart)
  | respond (canReply : Bool) (turnItems : List Value)
  | fail
  | terminalReset

namespace ChatState

/-- `handle_command` up to its first suspension point.  The room exists: `route_command` has read it. -/
def handleCommand (s : ChatState) (chatId : Int) (action : RoomAction) : ChatState :=
  let s := { s with rooms := s.rooms.getOrDefault chatId }
  match action with
  | .resetHistory => { s with rooms := s.rooms.mutate chatId action.mutate }
  | .pinModel modelKey =>
    { s with
      config := pinModelInConfig s.config modelKey chatId
      worker := .configSaving s.config action }
  | .unpinModel =>
    let (edited, wasPinned) := unpinModelInConfig s.config chatId
    -- a room that is not pinned is told so
    if wasPinned then { s with config := edited, worker := .configSaving s.config action }
    else { s with config := edited }
  | _ => { s with worker := .mutating action }

/-- `handle_model_message` up to the provider call. -/
def handleModelMessage (s : ChatState) (chatId : Int) (input : List ContentPart) : ChatState :=
  match buildChatRequest s.config s.rooms chatId input with
  | (rooms, .error _) => { s with rooms := rooms }
  | (rooms, .ok prepared) =>
    { s with
      rooms := rooms
      worker := .awaitingProvider (selectedModelKey s.config (s.rooms.room chatId) chatId) prepared }

/-- One step, whoever makes it. -/
def step (chatId : Int) (s : ChatState) : ChatEvent → Option ChatState
  | .handleCommand action =>
    match s.worker with
    | .idle => some (s.handleCommand chatId action)
    | _ => none
  | .saveConfig result =>
    match s.worker, result with
    | .configSaving _ action, .ok => some { s with worker := .mutating action }
    | .configSaving before _, .err => some { s with config := before, worker := .idle }
    | _, _ => none
  | .mutateRoom =>
    match s.worker with
    | .mutating action =>
      some { s with
        rooms := s.rooms.mutate chatId action.mutate
        worker := .roomSaving ((s.rooms.get chatId).map (·.settings)) }
    | _ => none
  | .saveRooms result =>
    match s.worker, result with
    | .roomSaving _, .ok => some { s with worker := .idle }
    | .roomSaving before, .err =>
      some { s with rooms := s.rooms.rollBack chatId before, worker := .idle }
    | _, _ => none
  | .handleModelMessage input =>
    match s.worker with
    | .idle => some (s.handleModelMessage chatId input)
    | _ => none
  | .respond canReply turnItems =>
    match s.worker with
    | .awaitingProvider _ prepared =>
      if canReply then
        some { s with
          rooms := s.rooms.updateRoom chatId fun room => (room.appendTurnIfGeneration
            prepared.generation prepared.modelConfig.wireFormat turnItems).1
          worker := .idle }
      else some { s with worker := .idle }
    | _ => none
  | .fail =>
    match s.worker with
    | .awaitingProvider _ prepared =>
      some { s with
        rooms := s.rooms.updateRoom chatId fun room =>
          (room.restoreFailedTurn prepared.generation prepared.rollback).1
        worker := .idle }
    | _ => none
  | .terminalReset => some { s with rooms := s.rooms.resetAllHistory }

/-- A bot that has just loaded its files. -/
def start (config : Config) (file : BTreeMap Int RoomSettings) : ChatState :=
  ⟨config, .fromSettings file, .idle⟩

end ChatState

/-- A chat as a system. -/
def chatSys (chatId : Int) : Sys ChatState ChatEvent := ⟨ChatState.step chatId⟩

/-- The steps so far, newest first. -/
abbrev ChatHistory := List (ChatState × ChatEvent)

/-! ## What the history says -/

/-- The step resets the chat's room. -/
def Resets : ChatState × ChatEvent → Prop
  | (_, .terminalReset) => True
  | (_, .handleCommand action) => action = .resetHistory
  | (s, .mutateRoom) => ∃ action, s.worker = .mutating action ∧ action.resets = true
  | _ => False

/-- The step commits a turn that brought the item, under this model key, wire format and role. -/
def Commits (chatId : Int) (item : Value) (modelKey : String) (wireFormat : WireFormat)
    (system : Option String) (x : ChatState × ChatEvent) : Prop :=
  ∃ prepared turnItems room, x.2 = .respond true turnItems ∧
    x.1.worker = .awaitingProvider modelKey prepared ∧ x.1.rooms.get chatId = some room ∧
    (room.appendTurnIfGeneration prepared.generation prepared.modelConfig.wireFormat
      turnItems).2 = true ∧
    item ∈ turnItems ∧ prepared.modelConfig.wireFormat = wireFormat ∧
    prepared.request.system = system

/-- The item comes from a turn under this model key, wire format and role, and no reset has followed. -/
def SourcedItem (chatId : Int) (h : ChatHistory) (item : Value) (modelKey : String)
    (wireFormat : WireFormat) (system : Option String) : Prop :=
  Since (fun y => ¬ Resets y) (Commits chatId item modelKey wireFormat system) h

/-- Every item of the room comes from a turn under the model, the wire format and the role that the room
    has now, and no reset has followed. -/
def Sourced (chatId : Int) (h : ChatHistory) (config : Config) (room : RoomState) : Prop :=
  ∀ item ∈ room.history.items, ∃ model : ModelConfig,
    config.models[selectedModelKey config room chatId]? = some model ∧
    room.wireFormat = some model.wireFormat ∧
    SourcedItem chatId h item (selectedModelKey config room chatId) model.wireFormat
      room.settings.role

/-- What holds at each position of the worker, `room` being the chat's. -/
def SourcedAt (chatId : Int) (h : ChatHistory) (config : Config) (room : RoomState) :
    ChatWorker → Prop
  | .idle => Sourced chatId h config room
  | .configSaving before action => action.resets = true ∧ Sourced chatId h before room
  -- after the commit of a pin the room may still be another model's, until it is reset
  | .mutating action => action.resets = true ∨ Sourced chatId h config room
  | .roomSaving before =>
    Sourced chatId h config room ∧ (room.history.items ≠ [] → ∀ settings, before = some settings →
      settings.modelKey = room.settings.modelKey ∧ settings.role = room.settings.role)
  | .awaitingProvider modelKey prepared =>
    Sourced chatId h config room ∧ modelKey = selectedModelKey config room chatId ∧
    config.models[modelKey]? = some prepared.modelConfig ∧
    room.wireFormat = some prepared.modelConfig.wireFormat ∧
    prepared.request.system = room.settings.role ∧
    ∀ rollback, prepared.rollback = some rollback → rollback.history.items = []

/-! ## One step -/

section Step

variable {chatId : Int} {h : ChatHistory} {config : Config} {room : RoomState} {s : ChatState}

theorem sourced_of_empty (hempty : room.history.items = []) : Sourced chatId h config room := by
  intro item hitem
  rw [hempty] at hitem
  exact absurd hitem List.not_mem_nil

/-- What is sourced stays sourced while no reset happens, in a room with no more items and the same
    model, wire format and role. -/
theorem Sourced.keep {room' : RoomState} {x : ChatState × ChatEvent}
    (hsourced : Sourced chatId h config room) (hx : ¬ Resets x)
    (hitems : ∀ item ∈ room'.history.items, item ∈ room.history.items)
    (hwire : room'.wireFormat = room.wireFormat)
    (hmodel : room'.settings.modelKey = room.settings.modelKey)
    (hrole : room'.settings.role = room.settings.role) :
    Sourced chatId (x :: h) config room' := by
  intro item hitem
  obtain ⟨model, hm, hw, hsince⟩ := hsourced item (hitems item hitem)
  rw [selectedModelKey_congr hmodel, hwire, hrole]
  exact ⟨model, hm, hw, since_cons.mpr (Or.inr ⟨hx, hsince⟩)⟩

/-- A step that leaves the room alone. -/
theorem Sourced.cons {x : ChatState × ChatEvent} (hsourced : Sourced chatId h config room)
    (hx : ¬ Resets x) : Sourced chatId (x :: h) config room :=
  hsourced.keep hx (fun _ hitem => hitem) rfl rfl rfl

/-! ### The room -/

@[simp] theorem room_getOrDefault (rooms : RoomStates) :
    (rooms.getOrDefault chatId).room chatId = rooms.room chatId := by
  rw [RoomStates.room, RoomStates.get_getOrDefault, if_pos rfl]
  rfl

/-- A reset of all rooms, from the chat's own room. -/
theorem room_resetAllHistory (rooms : RoomStates) (chatId : Int) :
    (rooms.resetAllHistory.room chatId).history.items = [] ∧
    (rooms.resetAllHistory.room chatId).settings = (rooms.room chatId).settings ∧
    (rooms.resetAllHistory.room chatId).wireFormat = (rooms.room chatId).wireFormat := by
  rw [RoomStates.room, RoomStates.room, RoomStates.get_resetAllHistory]
  cases rooms.get chatId with
  | none => exact ⟨rfl, rfl, rfl⟩
  | some room => exact ⟨rfl, rfl, rfl⟩

/-- An update by `get_mut`: the room if there is one, and nothing otherwise. -/
theorem room_updateRoom (rooms : RoomStates) (chatId : Int) (f : RoomState → RoomState) :
    ((rooms.updateRoom chatId f).room chatId).history.items = [] ∨
    ∃ room, rooms.get chatId = some room ∧ rooms.room chatId = room ∧
      (rooms.updateRoom chatId f).room chatId = f room := by
  rw [RoomStates.room, RoomStates.room, RoomStates.get_updateRoom, if_pos rfl]
  cases rooms.get chatId with
  | none => exact Or.inl rfl
  | some room => exact Or.inr ⟨room, rfl, rfl, rfl⟩

/-- An action that resets leaves nothing in the history. -/
theorem items_mutate {action : RoomAction} (hresets : action.resets = true) (room : RoomState) :
    (action.mutate room).history.items = [] := by
  cases action with
  | setMode mode =>
    have hmode : mode = .message := of_decide_eq_true hresets
    rw [RoomAction.mutate, if_pos hmode]
    rfl
  | setReasoning thinking => cases hresets
  | setWebSearch enabled => cases hresets
  | setImageGeneration enabled => cases hresets
  | _ => rfl

/-- One that does not keeps what makes the room's items sourced. -/
theorem mutate_of_not_resets {action : RoomAction} (hresets : action.resets = false)
    (room : RoomState) :
    (action.mutate room).history = room.history ∧
    (action.mutate room).wireFormat = room.wireFormat ∧
    (action.mutate room).settings.modelKey = room.settings.modelKey ∧
    (action.mutate room).settings.role = room.settings.role := by
  cases action with
  | setMode mode =>
    have hmode : mode ≠ .message := of_decide_eq_false hresets
    rw [RoomAction.mutate, if_neg hmode]
    exact ⟨rfl, rfl, rfl, rfl⟩
  | setReasoning thinking => exact ⟨rfl, rfl, rfl, rfl⟩
  | setWebSearch enabled => exact ⟨rfl, rfl, rfl, rfl⟩
  | setImageGeneration enabled => exact ⟨rfl, rfl, rfl, rfl⟩
  | _ => cases hresets

/-- The rollback of a mutation gives the room its settings back, or removes it. -/
theorem room_rollBack (rooms : RoomStates) (before : Option RoomSettings) :
    ((rooms.rollBack chatId before).room chatId).history.items = [] ∨
    ∃ settings, before = some settings ∧
      (rooms.rollBack chatId before).room chatId =
        { rooms.room chatId with settings := settings } := by
  cases before with
  | none =>
    left
    rw [RoomStates.room, RoomStates.rollBack, RoomStates.get_remove, if_pos rfl]
    rfl
  | some settings =>
    rw [RoomStates.room, RoomStates.room, RoomStates.rollBack, RoomStates.get_updateRoom, if_pos rfl]
    cases rooms.get chatId with
    | none => exact Or.inl rfl
    | some room => exact Or.inr ⟨settings, rfl, rfl⟩

/-- The invariant: what holds where the worker is. -/
def ChatState.Inv (chatId : Int) (h : ChatHistory) (s : ChatState) : Prop :=
  SourcedAt chatId h s.config (s.rooms.room chatId) s.worker

/-! ### One event of each kind -/

theorem inv_handleCommand (action : RoomAction)
    (hsourced : Sourced chatId h s.config (s.rooms.room chatId)) (hidle : s.worker = .idle) :
    (s.handleCommand chatId action).Inv chatId ((s, .handleCommand action) :: h) := by
  have hroom : (s.rooms.getOrDefault chatId).room chatId = s.rooms.room chatId :=
    room_getOrDefault s.rooms
  -- every action but `/new` leaves the room alone for now
  have hkeep : action ≠ .resetHistory → Sourced chatId ((s, .handleCommand action) :: h) s.config
      ((s.rooms.getOrDefault chatId).room chatId) := by
    intro hne
    rw [hroom]
    exact hsourced.cons hne
  cases action with
  | resetHistory =>
    show SourcedAt chatId _ s.config (((s.rooms.getOrDefault chatId).mutate chatId
      (RoomAction.mutate .resetHistory)).room chatId) s.worker
    rw [hidle, room_mutate]
    exact sourced_of_empty (items_mutate rfl _)
  | pinModel modelKey => exact ⟨rfl, hkeep fun h => (by cases h)⟩
  | unpinModel =>
    cases hpinned : (unpinModelInConfig s.config chatId).2 with
    | true =>
      have hcommand : s.handleCommand chatId .unpinModel =
          { s with
            config := (unpinModelInConfig s.config chatId).1
            rooms := s.rooms.getOrDefault chatId
            worker := .configSaving s.config .unpinModel } := by
        simp only [ChatState.handleCommand, hpinned, if_true]
      rw [hcommand]
      exact ⟨rfl, hkeep fun h => (by cases h)⟩
    | false =>
      -- a chat that is not pinned keeps its config
      have hcommand : s.handleCommand chatId .unpinModel =
          { s with rooms := s.rooms.getOrDefault chatId } := by
        simp only [ChatState.handleCommand, hpinned, unpinModel_unchanged hpinned]
        rfl
      rw [hcommand]
      show SourcedAt chatId _ s.config _ s.worker
      rw [hidle]
      exact hkeep fun h => by cases h
  | setMode mode => exact Or.inr (hkeep fun h => by cases h)
  | setModel modelKey => exact Or.inr (hkeep fun h => by cases h)
  | setRole role => exact Or.inr (hkeep fun h => by cases h)
  | setReasoning thinking => exact Or.inr (hkeep fun h => by cases h)
  | setWebSearch enabled => exact Or.inr (hkeep fun h => by cases h)
  | setImageGeneration enabled => exact Or.inr (hkeep fun h => by cases h)

theorem inv_mutateRoom {action : RoomAction} (hworker : s.worker = .mutating action)
    (hi : s.Inv chatId h) :
    SourcedAt chatId ((s, .mutateRoom) :: h) s.config ((s.rooms.mutate chatId action.mutate).room chatId)
      (.roomSaving ((s.rooms.get chatId).map (·.settings))) := by
  rw [room_mutate]
  cases hresets : action.resets with
  | true =>
    have hempty := items_mutate hresets (s.rooms.room chatId)
    exact ⟨sourced_of_empty hempty, fun hne => absurd hempty hne⟩
  | false =>
    obtain ⟨hhistory, hwire, hmodel, hrole⟩ := mutate_of_not_resets hresets (s.rooms.room chatId)
    have hsourced : Sourced chatId h s.config (s.rooms.room chatId) := by
      have hpos : SourcedAt chatId h s.config (s.rooms.room chatId) s.worker := hi
      rw [hworker] at hpos
      exact hpos.resolve_left (Bool.eq_false_iff.mp hresets)
    have hx : ¬ Resets (s, ChatEvent.mutateRoom) := by
      rintro ⟨action', haction', hresets'⟩
      cases hworker.symm.trans haction'
      cases hresets.symm.trans hresets'
    refine ⟨hsourced.keep hx ?_ hwire hmodel hrole, fun _ settings hbefore => ?_⟩
    · intro item hitem
      rwa [hhistory] at hitem
    · -- the settings to go back to are those of the room before
      obtain ⟨room, hroom, rfl⟩ := Option.map_eq_some_iff.mp hbefore
      have hfound : s.rooms.room chatId = room := by
        rw [RoomStates.room, hroom, Option.getD_some]
      rw [hmodel, hrole, hfound]
      exact ⟨rfl, rfl⟩

theorem inv_rollBack {before : Option RoomSettings} (hworker : s.worker = .roomSaving before)
    (hi : s.Inv chatId h) :
    Sourced chatId ((s, .saveRooms .err) :: h) s.config ((s.rooms.rollBack chatId before).room chatId) := by
  have hpos : SourcedAt chatId h s.config (s.rooms.room chatId) s.worker := hi
  rw [hworker] at hpos
  obtain ⟨hsourced, hbefore⟩ := hpos
  rcases room_rollBack s.rooms before with hempty | ⟨settings, hsome, hroom⟩
  · exact sourced_of_empty hempty
  · by_cases hempty : (s.rooms.room chatId).history.items = []
    · refine sourced_of_empty ?_
      rw [hroom]
      exact hempty
    · -- the settings that come back select the same model and role
      obtain ⟨hmodel, hrole⟩ := hbefore hempty settings hsome
      rw [hroom]
      exact hsourced.keep (fun h => h) (fun _ hitem => hitem) rfl hmodel hrole

/-- Beginning a turn in another wire format finds nothing sourced: there is nothing to lose, and nothing
    to put back. -/
theorem beginTurn_sourced {modelConfig : ModelConfig} (hsourced : Sourced chatId h config room)
    (hmodel : config.models[selectedModelKey config room chatId]? = some modelConfig) :
    (∀ item ∈ (room.beginTurn modelConfig.wireFormat).1.history.items,
      item ∈ room.history.items ∧
        (room.beginTurn modelConfig.wireFormat).1.wireFormat = room.wireFormat) ∧
    ∀ rollback, (room.beginTurn modelConfig.wireFormat).2.rollback = some rollback →
      rollback.history.items = [] := by
  by_cases hwire : room.wireFormat = some modelConfig.wireFormat
  · rw [RoomState.beginTurn_same hwire]
    exact ⟨fun _ hitem => ⟨hitem, rfl⟩, fun _ hsome => (by cases hsome)⟩
  · rw [RoomState.beginTurn, if_pos hwire]
    refine ⟨fun item hitem => absurd hitem List.not_mem_nil, ?_⟩
    rintro rollback ⟨⟩
    refine List.eq_nil_iff_forall_not_mem.mpr fun item hitem => ?_
    obtain ⟨model, hm, hw, -⟩ := hsourced item hitem
    cases hmodel.symm.trans hm
    exact hwire hw

theorem inv_handleModelMessage (input : List ContentPart)
    (hsourced : Sourced chatId h s.config (s.rooms.room chatId)) (hidle : s.worker = .idle) :
    (s.handleModelMessage chatId input).Inv chatId ((s, .handleModelMessage input) :: h) := by
  unfold ChatState.handleModelMessage
  -- a request that is refused leaves the room as it was, one that is built begins a turn in it
  cases hbuild : buildChatRequest s.config s.rooms chatId input with
  | mk rooms result =>
    cases result with
    | error error =>
      show SourcedAt chatId _ s.config (rooms.room chatId) s.worker
      rw [hidle, buildChatRequest_error hbuild, room_getOrDefault]
      exact hsourced.cons fun h => h
    | ok prepared =>
      obtain ⟨hmodel, hprepared, hroom⟩ := buildChatRequest_ok hbuild
      have hsettings := settings_beginTurn (s.rooms.room chatId) prepared.modelConfig.wireFormat
      have hkey : selectedModelKey s.config (rooms.room chatId) chatId =
          selectedModelKey s.config (s.rooms.room chatId) chatId := by
        rw [hroom]
        exact selectedModelKey_congr (congrArg RoomSettings.modelKey hsettings)
      have hwire : (rooms.room chatId).wireFormat = some prepared.modelConfig.wireFormat := by
        rw [hroom]
        exact RoomState.wireFormat_beginTurn _ _
      have hsystem : prepared.request.system = (rooms.room chatId).settings.role := by
        rw [hroom, hprepared]
        rfl
      obtain ⟨hitems, hrollback⟩ := beginTurn_sourced hsourced hmodel
      rw [← hroom] at hitems
      refine ⟨?_, hkey.symm, hmodel, hwire, hsystem, ?_⟩
      · intro item hitem
        obtain ⟨hitem, hwire'⟩ := hitems item hitem
        have hkept := (hsourced.cons (x := (s, .handleModelMessage input)) fun h => h) item hitem
        rwa [← hkey, ← hwire', ← hsettings, ← hroom] at hkept
      · intro rollback hsome
        rw [hprepared] at hsome
        exact hrollback rollback hsome

/-- A commit that is accepted appends to what is sourced, and is the source of its own items. -/
theorem inv_respond {modelKey : String} {prepared : PreparedChatRequest} (turnItems : List Value)
    (hworker : s.worker = .awaitingProvider modelKey prepared) (hi : s.Inv chatId h) :
    Sourced chatId ((s, .respond true turnItems) :: h) s.config
      ((s.rooms.updateRoom chatId fun room => (room.appendTurnIfGeneration prepared.generation
        prepared.modelConfig.wireFormat turnItems).1).room chatId) := by
  have hpos : SourcedAt chatId h s.config (s.rooms.room chatId) s.worker := hi
  rw [hworker] at hpos
  obtain ⟨hsourced, hkey, hmodel, hwire, hsystem, -⟩ := hpos
  have hkept := hsourced.cons (x := (s, .respond true turnItems)) fun h => h
  rcases room_updateRoom s.rooms chatId fun room =>
    (room.appendTurnIfGeneration prepared.generation prepared.modelConfig.wireFormat turnItems).1
    with hempty | ⟨room, hget, hfound, hroom⟩
  · exact sourced_of_empty hempty
  · rw [hfound] at hkey hwire hsystem hkept
    rw [hroom]
    -- a reply to a room that was reset meanwhile is not committed
    by_cases hgeneration : room.generation = prepared.generation
    · rw [RoomState.appendTurnIfGeneration, if_neg (not_not.mpr hgeneration),
        RoomState.appendTurn_same hwire]
      intro item hitem
      rcases History.mem_commit hitem with hold | hnew
      · exact hkept item hold
      · have hkey' : selectedModelKey s.config { room with
            history := room.history.commit room.settings.mode turnItems } chatId = modelKey := by
          rw [hkey]
          exact selectedModelKey_congr rfl
        rw [hkey']
        refine ⟨prepared.modelConfig, hmodel, hwire, since_cons.mpr (Or.inl ?_)⟩
        exact ⟨prepared, turnItems, room, rfl, hworker, hget,
          RoomState.appendTurnIfGeneration_accepted.mpr hgeneration, hnew, rfl, hsystem⟩
    · rw [RoomState.appendTurnIfGeneration_rejected hgeneration]
      exact hkept

/-- A rollback puts nothing back. -/
theorem inv_fail {modelKey : String} {prepared : PreparedChatRequest}
    (hworker : s.worker = .awaitingProvider modelKey prepared) (hi : s.Inv chatId h) :
    Sourced chatId ((s, .fail) :: h) s.config
      ((s.rooms.updateRoom chatId fun room =>
        (room.restoreFailedTurn prepared.generation prepared.rollback).1).room chatId) := by
  have hpos : SourcedAt chatId h s.config (s.rooms.room chatId) s.worker := hi
  rw [hworker] at hpos
  obtain ⟨hsourced, -, -, -, -, hrollback⟩ := hpos
  have hkept := hsourced.cons (x := (s, .fail)) fun h => h
  rcases room_updateRoom s.rooms chatId fun room =>
    (room.restoreFailedTurn prepared.generation prepared.rollback).1
    with hempty | ⟨room, -, hfound, hroom⟩
  · exact sourced_of_empty hempty
  · rw [hfound] at hkept
    rw [hroom]
    by_cases hgeneration : room.generation = prepared.generation
    · simp only [RoomState.restoreFailedTurn, if_neg (not_not.mpr hgeneration)]
      cases hprepared : prepared.rollback with
      | none => exact hkept
      | some rollback => exact sourced_of_empty (hrollback rollback hprepared)
    · rw [RoomState.restoreFailedTurn_rejected hgeneration]
      exact hkept

/-- The terminal's reset, wherever the worker is. -/
theorem inv_terminalReset (hi : s.Inv chatId h) :
    ChatState.Inv chatId ((s, .terminalReset) :: h)
      { s with rooms := s.rooms.resetAllHistory } := by
  obtain ⟨hempty, hsettings, hwire⟩ := room_resetAllHistory s.rooms chatId
  have hpos : SourcedAt chatId h s.config (s.rooms.room chatId) s.worker := hi
  show SourcedAt chatId _ s.config (s.rooms.resetAllHistory.room chatId) s.worker
  have hsourced : ∀ config, Sourced chatId ((s, .terminalReset) :: h) config
      (s.rooms.resetAllHistory.room chatId) := fun _ => sourced_of_empty hempty
  cases hworker : s.worker with
  | idle => exact hsourced s.config
  | configSaving before action =>
    rw [hworker] at hpos
    exact ⟨hpos.1, hsourced before⟩
  | mutating action => exact Or.inr (hsourced s.config)
  | roomSaving before => exact ⟨hsourced s.config, fun hne => absurd hempty hne⟩
  | awaitingProvider modelKey prepared =>
    rw [hworker] at hpos
    obtain ⟨-, hkey, hmodel, hw, hsystem, hrollback⟩ := hpos
    refine ⟨hsourced s.config, ?_, hmodel, hwire.trans hw, ?_, hrollback⟩
    · rw [hkey]
      exact selectedModelKey_congr (congrArg RoomSettings.modelKey hsettings.symm)
    · rw [hsystem, hsettings]

/-- **One step** keeps the invariant: by cases on the event. Where the history grows, at a commit that is
    accepted, the turn itself is the source of its items. -/
theorem ChatState.Inv.step {s' : ChatState} {e : ChatEvent} (hi : s.Inv chatId h)
    (hs : s.step chatId e = some s') : s'.Inv chatId ((s, e) :: h) := by
  have hpos : SourcedAt chatId h s.config (s.rooms.room chatId) s.worker := hi
  -- each action is taken in one position of the worker, which says what is held in flight
  cases e with
  | handleCommand action =>
    simp only [ChatState.step] at hs
    split at hs
    · rename_i hworker
      obtain rfl := Option.some.inj hs
      rw [hworker] at hpos
      exact inv_handleCommand action hpos hworker
    · cases hs
  | saveConfig result =>
    simp only [ChatState.step] at hs
    split at hs
    · -- saved: the room is still to be reset
      rename_i hworker
      obtain rfl := Option.some.inj hs
      rw [hworker] at hpos
      exact Or.inl hpos.1
    · rename_i hworker
      obtain rfl := Option.some.inj hs
      rw [hworker] at hpos
      exact hpos.2.cons fun h => h
    · cases hs
  | mutateRoom =>
    simp only [ChatState.step] at hs
    split at hs
    · rename_i hworker
      obtain rfl := Option.some.inj hs
      exact inv_mutateRoom hworker hi
    · cases hs
  | saveRooms result =>
    simp only [ChatState.step] at hs
    split at hs
    · rename_i hworker
      obtain rfl := Option.some.inj hs
      rw [hworker] at hpos
      exact hpos.1.cons fun h => h
    · rename_i hworker
      obtain rfl := Option.some.inj hs
      exact inv_rollBack hworker hi
    · cases hs
  | handleModelMessage input =>
    simp only [ChatState.step] at hs
    split at hs
    · rename_i hworker
      obtain rfl := Option.some.inj hs
      rw [hworker] at hpos
      exact inv_handleModelMessage input hpos hworker
    · cases hs
  | respond canReply turnItems =>
    simp only [ChatState.step] at hs
    split at hs
    · rename_i hworker
      split at hs
      · rename_i hreply
        subst hreply
        obtain rfl := Option.some.inj hs
        exact inv_respond turnItems hworker hi
      · obtain rfl := Option.some.inj hs
        rw [hworker] at hpos
        exact hpos.1.cons fun h => h
    · cases hs
  | fail =>
    simp only [ChatState.step] at hs
    split at hs
    · rename_i hworker
      obtain rfl := Option.some.inj hs
      exact inv_fail hworker hi
    · cases hs
  | terminalReset =>
    obtain rfl := Option.some.inj hs
    exact inv_terminalReset hi

end Step

/-! ## Every run -/

/-- The invariant holds in every run. -/
theorem ChatState.Inv.run {chatId : Int} {config : Config} {file : BTreeMap Int RoomSettings}
    {h : ChatHistory} {s : ChatState} (p : Path (chatSys chatId) (.start config file) h s) :
    s.Inv chatId h := by
  induction p with
  | start =>
    refine sourced_of_empty ?_
    rw [RoomStates.room, ChatState.start, RoomStates.get_fromSettings]
    cases file[chatId]? <;> rfl
  | step _ hs ih => exact ih.step hs

/-- **Opaque history is replayed only under the model and role that produced it.**  In every run of a
    chat's commands and turns, with terminal resets at any point and every save succeeding or failing:
    whenever the worker builds a request, each item of its history was brought by an earlier committed
    turn that ran under the same selected model key, wire format and role, and no reset has followed. -/
theorem history_sourced {chatId : Int} {config : Config} {file : BTreeMap Int RoomSettings}
    {h : ChatHistory} {s : ChatState} {input : List ContentPart} {rooms : RoomStates}
    {prepared : PreparedChatRequest} (p : Path (chatSys chatId) (.start config file) h s)
    (hidle : s.worker = .idle)
    (hbuild : buildChatRequest s.config s.rooms chatId input = (rooms, .ok prepared)) :
    ∀ item ∈ prepared.request.history,
      SourcedItem chatId h item (selectedModelKey s.config (s.rooms.room chatId) chatId)
        prepared.modelConfig.wireFormat prepared.request.system := by
  have hsourced : Sourced chatId h s.config (s.rooms.room chatId) := by
    have hi : SourcedAt chatId h s.config (s.rooms.room chatId) s.worker := ChatState.Inv.run p
    rwa [hidle] at hi
  obtain ⟨hmodel, hprepared, -⟩ := buildChatRequest_ok hbuild
  have hsystem : prepared.request.system = (s.rooms.room chatId).settings.role := by
    rw [hprepared]
    exact congrArg RoomSettings.role (settings_beginTurn _ _)
  intro item hitem
  -- the request's history is the begun room's, and that is the room's
  have hbegun : item ∈ ((s.rooms.room chatId).beginTurn
      prepared.modelConfig.wireFormat).1.history.items := by
    rw [hprepared] at hitem
    exact mem_history_request hitem
  obtain ⟨hroom, -⟩ := (beginTurn_sourced hsourced hmodel).1 item hbegun
  obtain ⟨model, hm, -, hsince⟩ := hsourced item hroom
  cases hmodel.symm.trans hm
  rw [hsystem]
  exact hsince

/-- One model, which is the default. -/
def claudeOnly : Config where
  defaultModel := "claude"
  models := (∅ : BTreeMap String ModelConfig).insert "claude"
    { wireFormat := .anthropic, modelName := "claude-opus-5" }

/-- A model switch that cannot be saved: the room keeps its old model but not its history, and what is
    replayed is what came after. -/
theorem history_sourced_failed_switch :
    ∃ h s rooms prepared, Path (chatSys 7) (.start claudeOnly ∅) h s ∧ s.worker = .idle ∧
      buildChatRequest s.config s.rooms 7 [] = (rooms, .ok prepared) ∧
      prepared.request.history = [.string "new"] ∧
      ∀ item ∈ prepared.request.history,
        SourcedItem 7 h item (selectedModelKey s.config (s.rooms.room 7) 7)
          prepared.modelConfig.wireFormat prepared.request.system := by
  have hrun : ((chatSys 7).run (.start claudeOnly ∅) [.handleModelMessage [],
      .respond true [.string "old"], .handleCommand (.setModel "gpt"), .mutateRoom, .saveRooms .err,
      .handleModelMessage [], .respond true [.string "new"]]).map (fun s =>
        (s.worker, (buildChatRequest s.config s.rooms 7 []).2.toOption.map (·.request.history))) =
      some (.idle, some [.string "new"]) := rfl
  obtain ⟨s, hs, hend⟩ := Option.map_eq_some_iff.mp hrun
  obtain ⟨h, hp⟩ := Sys.path_of_run _ hs
  obtain ⟨hidle, hrequest⟩ := Prod.mk.inj hend
  cases hbuild : buildChatRequest s.config s.rooms 7 [] with
  | mk rooms result =>
    rw [hbuild] at hrequest
    obtain ⟨prepared, hprepared, hhistory⟩ := Option.map_eq_some_iff.mp hrequest
    cases result with
    | error error => cases hprepared
    | ok _ =>
      cases hprepared
      exact ⟨h, s, rooms, prepared, hp, hidle, hbuild, hhistory, history_sourced hp hidle hbuild⟩

end Tellm
