/-
  COMMANDS: `commands.rs`, from the text of a message to the action it asks for, and `route_command` of
  the runtime, which gives the resolver its context.

  Fourteen commands, each with a router of its own.  Who may do what is not decided in one place: every
  privileged router asks the owner gate itself, some of them below `/model`, before the pinned room's
  refusal.

  1. **`parse`** and **`resolve`**, router by router, as the source has them; **`routeCommand`**.
  2. **The gate** (`privileged_routes`): an action that is privileged was asked for by a fresh owner.  One
     lemma a router.
  3. **Round trips** (`addressable_iff`): which model keys their own commands reach.

  A command is the first word of the message, with or without the bot's name behind it; a name that is
  another bot's makes the message none of this bot's commands.  Each router takes the arguments and the
  context, and returns an action, a text to answer with, or a refusal.  Texts and usage lines are the
  source's.

  The context (`CommandContext`) has what the routers read: the room's settings, the model keys in the
  config's order, the pin, the capabilities of the selected model, and what the access control says of the
  sender.  `commandContext` builds it as `route_command` does, and `routeCommand` puts that in front: a
  chat that is not allowed is not answered at all.

  `privileged_routes` is about every text, so it says nothing about how a command is spelled; the proof
  goes router by router and uses of each only that a privileged action lies behind `ownerGate`.
  `addressable_iff` is about the keyboard of `/model`: a button sends a text, and the text must come back
  as the key.  Two kinds of keys do not, a subcommand's name and a key that differs from an earlier one by
  the case of its letters.
-/
import Tellm.Conversation
import Tellm.Validate

namespace Tellm

open Text

/-- The commands that the parser knows.  Any other name after a slash is a message for the model. -/
inductive KnownCommand
  | new
  | id
  | mode
  | model
  | role
  | reasoning
  | webSearch
  | imageGeneration
  | allow
  | deny
  | pair
  | ollama
  | shutdown
  | help
  deriving DecidableEq

/-- What the room's effective model can honor. -/
structure RoomCapabilities where
  webSearch : Bool
  imageGeneration : Bool
  modelKey : String
  endpoint : String
  deriving DecidableEq

/-- `RoomCapabilities::permissive`: of a model that the config does not have, nothing is ruled out here. -/
def RoomCapabilities.permissive : RoomCapabilities := ⟨true, true, "", ""⟩

/-- `CommandContext`: what the routers may look at.  The router itself holds no lock. -/
structure CommandContext where
  settings : RoomSettings
  defaultModel : String
  modelKeys : BTreeSet String
  pinnedModelKey : Option String
  modelThinking : ThinkingLevel
  privilegedAccess : PrivilegedAccess
  capabilities : RoomCapabilities

/-- `CommandReject`: why a command is refused, with what its reply quotes. -/
inductive CommandReject
  | missingPairingCode
  | unknownMode (value : String)
  | unknownModel (value : String) (available : List String)
  | unknownReasoning (value : String)
  | unknownBoolean (value : String)
  | missingChatId (command : KnownCommand)
  | invalidChatId (value : String)
  | unknownOllamaAction (value : Option String)
  | pinnedModel (modelKey : String)
  | ownerNotAllowed
  | ownerStale
  | shutdownNotOwner
  | shutdownStale
  | capabilityUnsupported (feature modelKey endpoint : String)
  deriving DecidableEq

/-- `CommandAction`: what a command comes to, for `handle_command` to carry out. -/
inductive CommandAction
  | resetHistory
  | showChatId
  | showMode (current : ChatMode)
  | setMode (mode : ChatMode)
  | showModel (selected : Option String) (effective : String) (pinned : Option String)
      (available : List String)
  | setModel (modelKey : String)
  | pinModel (modelKey : String)
  | unpinModel
  | showModelCatalog
  | addModel (presetKey : String)
  | showRole (current : Option String)
  | setRole (role : Option String)
  | showReasoning (overrideLevel : Option ThinkingLevel) (modelDefault : ThinkingLevel)
  | setReasoning (thinking : Option ThinkingLevel)
  | showWebSearch (enabled : Bool)
  | setWebSearch (enabled : Bool)
  | showImageGeneration (enabled : Bool)
  | setImageGeneration (enabled : Bool)
  | allowChat (chatId : Int)
  | denyChat (chatId : Int)
  | pair (code : String)
  | unloadOllama
  | shutdown
  | help (pinnedModelKey : Option String)
  | reject (reason : CommandReject)
  deriving DecidableEq

/-- `ParsedRoute`: a text before it is looked at in its context. -/
inductive ParsedRoute
  | command (command : KnownCommand) (args : List Char)
  | userMessage
  | ignore
  deriving DecidableEq

/-- `Route`: where a text goes. -/
inductive Route
  | command (action : CommandAction)
  | userMessage
  | ignore
  deriving DecidableEq

namespace Commands

/-! ## Parsing -/

/-- What `parse_command` takes apart: the name after the slash, the rest of the text, and whether a bot is
    named that is another one. -/
structure ParsedCommand where
  name : List Char
  args : List Char
  forOtherBot : Bool

/-- `parse_command`: the first word, if it begins with a slash.  What follows an `@` in it is a bot's name. -/
def parseCommand (text : List Char) (botUsername : Option String) : Option ParsedCommand :=
  let text := trimStart text
  let token := text.takeWhile (!isWhitespace ·)
  let args := trim (text.dropWhile (!isWhitespace ·))
  match token with
  | '/' :: command =>
    if command.isEmpty then none
    else
      let (name, target) :=
        match splitOnce command '@' with
        | none => (command, none)
        | some (name, target) => (name, some target)
      if name.isEmpty then none
      else
        let forOtherBot :=
          match target, botUsername with
          | some target, some botUsername => !eqIgnoreAsciiCase (String.ofList target) botUsername
          | _, _ => false
        some ⟨name, args, forOtherBot⟩
  | _ => none

/-- `parse_known_command`, in any case. -/
def parseKnownCommand (name : List Char) : Option KnownCommand :=
  match toAsciiLowercase (String.ofList name) with
  | "new" => some .new
  | "id" => some .id
  | "mode" => some .mode
  | "model" => some .model
  | "role" => some .role
  | "reasoning" => some .reasoning
  | "websearch" => some .webSearch
  | "imagegen" => some .imageGeneration
  | "allow" => some .allow
  | "deny" => some .deny
  | "pair" => some .pair
  | "ollama" => some .ollama
  | "shutdown" => some .shutdown
  | "help" => some .help
  | _ => none

/-- `commands::parse`: an unknown name is a message for the model, and a command for another bot nothing at
    all. -/
def parse (text : List Char) (botUsername : Option String) : ParsedRoute :=
  match parseCommand text botUsername with
  | none => .userMessage
  | some parsed =>
    if parsed.forOtherBot then .ignore
    else
      match parseKnownCommand parsed.name with
      | none => .userMessage
      | some command => .command command parsed.args

/-- `parse_thinking_setting`: a level, or one of the words that take the room's own level back. -/
def parseThinkingSetting (value : String) : Option (Option ThinkingLevel) :=
  match toAsciiLowercase value with
  | "default" => some none
  | "model" => some none
  | "reset" => some none
  | "off" => some (some .off)
  | "low" => some (some .low)
  | "medium" => some (some .medium)
  | "high" => some (some .high)
  | "max" => some (some .max)
  | _ => none

/-- `parse_bool`: the words for on and for off, in any case. -/
def parseBool (value : String) : Option Bool :=
  if ["on", "true", "yes", "enable", "enabled"].contains (toAsciiLowercase value) then some true
  else if ["off", "false", "no", "disable", "disabled"].contains (toAsciiLowercase value) then some false
  else none

/-- The first word of the arguments. -/
def firstArg (args : List Char) : Option String := (splitWhitespace args).head?.map String.ofList

/-- `args.split_whitespace().nth(1)`. -/
def secondArg (args : List Char) : Option String := (splitWhitespace args)[1]?.map String.ofList

/-- `available_models`: the keys that a refusal lists, in the order of the set. -/
def availableModels (modelKeys : BTreeSet String) : List String := modelKeys.toList

/-! ## The routers -/

/-- `route_mode`: without a word it shows the mode, with one it sets it. -/
def routeMode (args : List Char) (settings : RoomSettings) : CommandAction :=
  match firstArg args with
  | none => .showMode settings.mode
  | some value =>
    match toAsciiLowercase value with
    | "chat" => .setMode .chat
    | "message" => .setMode .message
    | _ => .reject (.unknownMode value)

/-- The owner gate of `/allow`, `/deny`, `/ollama` and `/model pin|unpin|add`: the rejection, if any. -/
def ownerGate : PrivilegedAccess → Option CommandAction
  | .notOwner => some (.reject .ownerNotAllowed)
  | .stale => some (.reject .ownerStale)
  | .allowed => none

/-- The branch `/model pin`.  The gate comes before the key is looked at; without a key it pins the model the
    chat uses. -/
def routeModelPin (args : List Char) (context : CommandContext) : CommandAction :=
  match ownerGate context.privilegedAccess with
  | some reject => reject
  | none =>
    let keyArg := (((secondArg args).or context.pinnedModelKey).or context.settings.modelKey).getD
      context.defaultModel
    if keyArg ∈ context.modelKeys then .pinModel keyArg
    else .reject (.unknownModel keyArg (availableModels context.modelKeys))

/-- `route_model`.  The subcommands come before the keys, in any case; a key is looked up as it is written,
    and then without regard to case. -/
def routeModel (args : List Char) (context : CommandContext) : CommandAction :=
  match firstArg args with
  | none =>
    .showModel context.settings.modelKey
      ((context.pinnedModelKey.or context.settings.modelKey).getD context.defaultModel)
      context.pinnedModelKey (availableModels context.modelKeys)
  | some value =>
    -- The owner's subcommands work in pinned rooms too, so they come before the pinned room's refusal.
    match toAsciiLowercase value with
    | "pin" => routeModelPin args context
    | "unpin" => (ownerGate context.privilegedAccess).getD .unpinModel
    | "add" =>
      match ownerGate context.privilegedAccess with
      | some reject => reject
      | none =>
        match secondArg args with
        | some presetKey => .addModel presetKey
        | none => .showModelCatalog
    | _ =>
      match context.pinnedModelKey with
      | some modelKey => .reject (.pinnedModel modelKey)
      | none =>
        if value ∈ context.modelKeys then .setModel value
        else .reject (.unknownModel value (availableModels context.modelKeys))

/-- `route_role`: the whole rest of the text is the role, but for the words that take it away. -/
def routeRole (args : List Char) (settings : RoomSettings) : CommandAction :=
  let args := String.ofList (trim args)
  if args.isEmpty then .showRole settings.role
  else if ["clear", "off", "none", "reset"].contains (toAsciiLowercase args) then .setRole none
  else .setRole (some args)

/-- `route_reasoning`: without a word it shows the level and where it comes from. -/
def routeReasoning (args : List Char) (settings : RoomSettings) (modelDefault : ThinkingLevel) :
    CommandAction :=
  match firstArg args with
  | none => .showReasoning settings.thinking modelDefault
  | some value =>
    match parseThinkingSetting value with
    | some thinking => .setReasoning thinking
    | none => .reject (.unknownReasoning value)

/-- `/websearch` and `/imagegen`: a toggle that is refused ON where the model cannot honor it. -/
def routeToggle (args : List Char) (current supported : Bool) (feature : String)
    (capabilities : RoomCapabilities) (show' set' : Bool → CommandAction) : CommandAction :=
  let gate := fun enabled =>
    if enabled && !supported then
      .reject (.capabilityUnsupported feature capabilities.modelKey capabilities.endpoint)
    else set' enabled
  match firstArg args with
  | none => gate (!current)
  | some value =>
    if toAsciiLowercase value = "status" then show' current
    else
      match parseBool value with
      | some enabled => gate enabled
      | none => .reject (.unknownBoolean value)

/-- `route_web_search`: the toggle, with the words of this feature. -/
def routeWebSearch (args : List Char) (settings : RoomSettings) (capabilities : RoomCapabilities) :
    CommandAction :=
  routeToggle args settings.webSearch capabilities.webSearch "Web search" capabilities .showWebSearch
    .setWebSearch

/-- `route_image_generation`: the toggle, with the words of this feature. -/
def routeImageGeneration (args : List Char) (settings : RoomSettings)
    (capabilities : RoomCapabilities) : CommandAction :=
  routeToggle args settings.imageGeneration capabilities.imageGeneration "Image generation"
    capabilities .showImageGeneration .setImageGeneration

/-- `/allow` and `/deny`, which differ in the action only. -/
def routeChatApproval (command : KnownCommand) (action : Int → CommandAction) (args : List Char)
    (access : PrivilegedAccess) : CommandAction :=
  match ownerGate access with
  | some reject => reject
  | none =>
    match (splitWhitespace args).head? with
    | none => .reject (.missingChatId command)
    | some value =>
      match parseI64 value with
      | none => .reject (.invalidChatId (String.ofList value))
      | some chatId => action chatId

/-- `route_pair`: the first word is the code, compared later and in another place. -/
def routePair (args : List Char) : CommandAction :=
  match firstArg args with
  | some code => .pair code
  | none => .reject .missingPairingCode

/-- `route_ollama`: the gate, and then the one subcommand. -/
def routeOllama (args : List Char) (access : PrivilegedAccess) : CommandAction :=
  match ownerGate access with
  | some reject => reject
  | none =>
    if (firstArg args).any (eqIgnoreAsciiCase · "unload") then .unloadOllama
    else .reject (.unknownOllamaAction (firstArg args))

/-- `route_shutdown`: the gate with its own two refusals. -/
def routeShutdown : PrivilegedAccess → CommandAction
  | .allowed => .shutdown
  | .notOwner => .reject .shutdownNotOwner
  | .stale => .reject .shutdownStale

/-- `resolve`: each command to its router, with what that one needs of the context. -/
def resolve (command : KnownCommand) (args : List Char) (context : CommandContext) : CommandAction :=
  match command with
  | .new => .resetHistory
  | .id => .showChatId
  | .mode => routeMode args context.settings
  | .model => routeModel args context
  | .role => routeRole args context.settings
  | .reasoning => routeReasoning args context.settings context.modelThinking
  | .webSearch => routeWebSearch args context.settings context.capabilities
  | .imageGeneration => routeImageGeneration args context.settings context.capabilities
  | .allow => routeChatApproval .allow .allowChat args context.privilegedAccess
  | .deny => routeChatApproval .deny .denyChat args context.privilegedAccess
  | .pair => routePair args
  | .ollama => routeOllama args context.privilegedAccess
  | .shutdown => routeShutdown context.privilegedAccess
  | .help => .help context.pinnedModelKey

/-- `parse`, then `resolve`. -/
def route (text : String) (botUsername : Option String) (context : CommandContext) : Route :=
  match parse text.toList botUsername with
  | .command command args => .command (resolve command args context)
  | .userMessage => .userMessage
  | .ignore => .ignore

end Commands

/-! ## The runtime's context -/

/-- `room_capabilities`. -/
def roomCapabilities (config : Config) (room : RoomState) (chatId : Int) : RoomCapabilities :=
  let modelKey := selectedModelKey config room chatId
  match config.models[modelKey]? with
  | none => .permissive
  | some model =>
    match model.wireFormat with
    | .anthropic => ⟨true, false, modelKey, "Anthropic Messages"⟩
    | .responses =>
      if Responses.isXaiEndpoint model.baseUrl model.modelName then
        ⟨true, false, modelKey, "xAI Responses"⟩
      else if Responses.isMetaModelApiEndpoint model.baseUrl model.modelName then
        ⟨true, false, modelKey, "Meta Model API Responses"⟩
      else ⟨true, true, modelKey, "OpenAI Responses"⟩
    | .compat => ⟨false, false, modelKey, "chat-completions endpoint"⟩
    | .gemini =>
      ⟨true, Gemini.isImageGenerationModel model.modelName, modelKey, "Gemini Interactions"⟩

/-- `u64::try_from(message_date).unwrap_or_default()`. -/
def messageUnixSeconds (messageDate : Int) : Nat := messageDate.toNat

/-- `config.models.keys().cloned().collect()`. -/
def modelKeySet (config : Config) : BTreeSet String := .ofList (config.models.toList.map (·.1)) compare

/-- The context that `route_command` builds. -/
def commandContext (handles : RuntimeHandles) (room : RoomState) (chatId : Int)
    (senderUserId : Option Int) (messageDate : Int) (now : AccessTime) : CommandContext where
  settings := room.settings
  defaultModel := handles.config.defaultModel
  modelKeys := modelKeySet handles.config
  pinnedModelKey := pinnedModelKey handles.config chatId
  modelThinking :=
    (handles.config.models[selectedModelKey handles.config room chatId]?.map (·.thinking)).getD default
  privilegedAccess :=
    handles.access.checkPrivileged senderUserId (messageUnixSeconds messageDate) now
  capabilities := roomCapabilities handles.config room chatId

/-- `route_command`. -/
def routeCommand (handles : RuntimeHandles) (room : RoomState) (chatId : Int) (text : String)
    (botUsername : Option String) (senderUserId : Option Int) (messageDate : Int) (now : AccessTime) :
    Result Route :=
  if !handles.access.isChatAllowed chatId then .error "chat access was revoked"
  else
    .ok (Commands.route text botUsername
      (commandContext handles room chatId senderUserId messageDate now))

/-! ## The gate -/

/-- The actions that only an owner may ask for. -/
def CommandAction.isPrivileged : CommandAction → Bool
  | .allowChat _ => true
  | .denyChat _ => true
  | .pinModel _ => true
  | .unpinModel => true
  | .addModel _ => true
  | .showModelCatalog => true
  | .unloadOllama => true
  | .shutdown => true
  | _ => false

namespace Commands

variable {args : List Char} {context : CommandContext} {access : PrivilegedAccess}

/-- The gate lets through who is allowed; its rejections are not privileged. -/
theorem ownerGate_cases (access : PrivilegedAccess) :
    (access = .allowed ∧ ownerGate access = none) ∨
      ∃ reject, ownerGate access = some reject ∧ reject.isPrivileged = false := by
  cases access with
  | allowed => exact Or.inl ⟨rfl, rfl⟩
  | notOwner => exact Or.inr ⟨_, rfl, rfl⟩
  | stale => exact Or.inr ⟨_, rfl, rfl⟩

theorem routeMode_isPrivileged (settings : RoomSettings) :
    (routeMode args settings).isPrivileged = false := by
  unfold routeMode
  split
  · rfl
  · split <;> rfl

theorem routeRole_isPrivileged (settings : RoomSettings) :
    (routeRole args settings).isPrivileged = false := by
  unfold routeRole
  dsimp only
  split
  · rfl
  · split <;> rfl

theorem routeReasoning_isPrivileged (settings : RoomSettings) (modelDefault : ThinkingLevel) :
    (routeReasoning args settings modelDefault).isPrivileged = false := by
  unfold routeReasoning
  split
  · rfl
  · split <;> rfl

/-- A toggle is as privileged as its two actions. -/
theorem routeToggle_isPrivileged {current supported : Bool} {feature : String}
    {capabilities : RoomCapabilities} {show' set' : Bool → CommandAction}
    (hshow : ∀ enabled, (show' enabled).isPrivileged = false)
    (hset : ∀ enabled, (set' enabled).isPrivileged = false) :
    (routeToggle args current supported feature capabilities show' set').isPrivileged = false := by
  have hgate : ∀ enabled : Bool, (if enabled && !supported then
      CommandAction.reject (.capabilityUnsupported feature capabilities.modelKey capabilities.endpoint)
      else set' enabled).isPrivileged = false := by
    intro enabled
    split
    · rfl
    · exact hset enabled
  unfold routeToggle
  dsimp only
  split
  · exact hgate _
  · split
    · exact hshow _
    · split
      · exact hgate _
      · rfl

theorem routePair_isPrivileged : (routePair args).isPrivileged = false := by
  unfold routePair
  split <;> rfl

theorem routeChatApproval_isPrivileged {command : KnownCommand} {action : Int → CommandAction}
    (h : (routeChatApproval command action args access).isPrivileged = true) : access = .allowed := by
  unfold routeChatApproval at h
  rcases ownerGate_cases access with ⟨hallowed, -⟩ | ⟨reject, hgate, hreject⟩
  · exact hallowed
  · rw [hgate] at h
    exact absurd h (Bool.eq_false_iff.mp hreject)

theorem routeOllama_isPrivileged (h : (routeOllama args access).isPrivileged = true) :
    access = .allowed := by
  unfold routeOllama at h
  rcases ownerGate_cases access with ⟨hallowed, -⟩ | ⟨reject, hgate, hreject⟩
  · exact hallowed
  · rw [hgate] at h
    exact absurd h (Bool.eq_false_iff.mp hreject)

theorem routeShutdown_isPrivileged (h : (routeShutdown access).isPrivileged = true) :
    access = .allowed := by
  cases access with
  | allowed => rfl
  | notOwner => cases h
  | stale => cases h

/-- `/model` reaches a privileged action below `pin`, `unpin` and `add` only, each behind the gate. -/
theorem routeModel_isPrivileged (h : (routeModel args context).isPrivileged = true) :
    context.privilegedAccess = .allowed := by
  rcases ownerGate_cases context.privilegedAccess with ⟨hallowed, -⟩ | ⟨reject, hgate, hreject⟩
  · exact hallowed
  · exfalso
    have hno := Bool.eq_false_iff.mp hreject
    unfold routeModel routeModelPin at h
    rw [hgate] at h
    split at h
    · cases h
    · split at h
      · exact hno h
      · exact hno h
      · exact hno h
      · split at h
        · cases h
        · split at h <;> cases h

/-- **The gate**: whatever command resolves to a privileged action, the access check has passed. -/
theorem resolve_isPrivileged {command : KnownCommand}
    (h : (resolve command args context).isPrivileged = true) :
    context.privilegedAccess = .allowed := by
  cases command with
  | new => cases h
  | id => cases h
  | mode => exact absurd h (Bool.eq_false_iff.mp (routeMode_isPrivileged _))
  | model => exact routeModel_isPrivileged h
  | role => exact absurd h (Bool.eq_false_iff.mp (routeRole_isPrivileged _))
  | reasoning => exact absurd h (Bool.eq_false_iff.mp (routeReasoning_isPrivileged _ _))
  | webSearch =>
    exact absurd h (Bool.eq_false_iff.mp (routeToggle_isPrivileged (fun _ => rfl) fun _ => rfl))
  | imageGeneration =>
    exact absurd h (Bool.eq_false_iff.mp (routeToggle_isPrivileged (fun _ => rfl) fun _ => rfl))
  | allow => exact routeChatApproval_isPrivileged h
  | deny => exact routeChatApproval_isPrivileged h
  | pair => exact absurd h (Bool.eq_false_iff.mp routePair_isPrivileged)
  | ollama => exact routeOllama_isPrivileged h
  | shutdown => exact routeShutdown_isPrivileged h
  | help => cases h

theorem route_eq_command {text : String} {botUsername : Option String} {action : CommandAction}
    (h : route text botUsername context = .command action) :
    ∃ command args, parse text.toList botUsername = .command command args ∧
      resolve command args context = action := by
  unfold route at h
  split at h
  · rename_i command args hparse
    exact ⟨command, args, hparse, Route.command.inj h⟩
  · cases h
  · cases h

/-- The whole route: a privileged action needs the access. -/
theorem route_isPrivileged {text : String} {botUsername : Option String} {action : CommandAction}
    (hroute : route text botUsername context = .command action) (hprivileged : action.isPrivileged = true) :
    context.privilegedAccess = .allowed := by
  obtain ⟨command, args, -, rfl⟩ := route_eq_command hroute
  exact resolve_isPrivileged hprivileged

end Commands

/-- A registered owner whose message is a minute old at most. -/
structure FreshOwner (access : AccessControl) (senderUserId : Option Int) (messageUnixSeconds : Nat)
    (now : AccessTime) : Prop where
  owner : ∃ userId, senderUserId = some userId ∧ userId ∈ access.ownerUserIds
  fresh : now.seconds - messageUnixSeconds ≤ 60

/-- What the access check lets through. -/
theorem checkPrivileged_eq_allowed {access : AccessControl} {senderUserId : Option Int}
    {messageUnixSeconds : Nat} {now : AccessTime} :
    access.checkPrivileged senderUserId messageUnixSeconds now = .allowed ↔
      FreshOwner access senderUserId messageUnixSeconds now := by
  unfold AccessControl.checkPrivileged
  constructor
  · intro h
    split at h
    · cases h
    · rename_i howner
      split at h
      · cases h
      · rename_i hfresh
        rw [Bool.not_eq_true, Bool.not_eq_false'] at howner
        obtain ⟨userId, hsender, hmem⟩ := Option.any_eq_true _ _ |>.mp howner
        exact ⟨⟨userId, hsender, Std.ExtTreeSet.mem_iff_contains.mpr hmem⟩, Nat.le_of_not_lt hfresh⟩
  · rintro ⟨⟨userId, rfl, hmem⟩, hfresh⟩
    have hcontains : access.ownerUserIds.contains userId = true := Std.ExtTreeSet.mem_iff_contains.mp hmem
    have hstale : ¬ now.seconds - messageUnixSeconds > privilegedCommandStaleAfter :=
      Nat.not_lt.mpr hfresh
    rw [if_neg (by simp [hcontains]), if_neg hstale]

/-- **Privileged routes.**  For every text, bot name, sender, message date and clock, and whatever
    settings, models, pin and capabilities are in the context that `route_command` builds: a privileged
    action was asked for by a registered owner, in a message that is a minute old at most. -/
theorem privileged_routes (text : String) (botUsername : Option String) (access : AccessControl)
    (senderUserId : Option Int) (messageDate : Int) (now : AccessTime) (context : CommandContext)
    (hcontext : context.privilegedAccess =
      access.checkPrivileged senderUserId (messageUnixSeconds messageDate) now)
    (action : CommandAction) (hroute : Commands.route text botUsername context = .command action)
    (hprivileged : action.isPrivileged = true) :
    FreshOwner access senderUserId (messageUnixSeconds messageDate) now := by
  have hallowed := Commands.route_isPrivileged hroute hprivileged
  rw [hcontext] at hallowed
  exact checkPrivileged_eq_allowed.mp hallowed

theorem commandContext_privilegedAccess (handles : RuntimeHandles) (room : RoomState) (chatId : Int)
    (senderUserId : Option Int) (messageDate : Int) (now : AccessTime) :
    (commandContext handles room chatId senderUserId messageDate now).privilegedAccess =
      handles.access.checkPrivileged senderUserId (messageUnixSeconds messageDate) now := rfl

/-- The owner's `/shutdown`, in the context that `route_command` builds. -/
theorem privileged_routes_shutdown :
    FreshOwner (.new (.fromConfig ⟨"claude", ∅, ⟨[7], [42]⟩⟩) (Stream'.const "123456")) (some 42)
      (messageUnixSeconds 1000) ⟨1030, by decide⟩ :=
  privileged_routes "/shutdown" none _ (some 42) 1000 ⟨1030, by decide⟩
    (commandContext (.start ⟨"claude", ∅, ⟨[7], [42]⟩⟩ (Stream'.const "123456")) (.new {}) 7 (some 42)
      1000 ⟨1030, by decide⟩)
    (commandContext_privilegedAccess ..) .shutdown (by decide +kernel) rfl

/-- `route_command` answers an allowed chat only, and gives a privileged action to a registered owner only. -/
theorem routeCommand_isPrivileged {handles : RuntimeHandles} {room : RoomState} {chatId : Int} {text : String}
    {botUsername : Option String} {senderUserId : Option Int} {messageDate : Int} {now : AccessTime}
    {action : CommandAction}
    (hroute : routeCommand handles room chatId text botUsername senderUserId messageDate now =
      .ok (.command action)) (hprivileged : action.isPrivileged = true) :
    handles.access.isChatAllowed chatId = true ∧
      FreshOwner handles.access senderUserId (messageUnixSeconds messageDate) now := by
  unfold routeCommand at hroute
  split at hroute
  · cases hroute
  · rename_i hallowed
    rw [Bool.not_eq_true, Bool.not_eq_false'] at hallowed
    have hcheck := Commands.route_isPrivileged (Except.ok.inj hroute) hprivileged
    rw [commandContext_privilegedAccess] at hcheck
    exact ⟨hallowed, checkPrivileged_eq_allowed.mp hcheck⟩

/-! ## Round trips -/

/-- `slice::chunks(2)`. -/
def chunksOfTwo {α : Type} : List α → List (List α)
  | [] => []
  | [a] => [[a]]
  | a :: b :: rest => [a, b] :: chunksOfTwo rest

theorem flatten_chunksOfTwo {α : Type} : ∀ l : List α, (chunksOfTwo l).flatten = l
  | [] => rfl
  | [_] => rfl
  | a :: b :: rest => by rw [chunksOfTwo, List.flatten_cons, flatten_chunksOfTwo rest]; rfl

/-- The keyboard of `send_model_picker`: rows of two buttons, each of which sends a command. -/
def modelPickerKeyboard (modelKeys : List String) : List (List String) :=
  (chunksOfTwo modelKeys).map fun row => row.map fun key => "/model " ++ key

/-- The lines of `model_picker_fallback_text`, where no keyboard can be sent. -/
def modelPickerFallbackLines (modelKeys : List String) : List String :=
  modelKeys.map fun key => "- /model " ++ key

/-- A key that `/model` takes for a subcommand. -/
def isModelSubcommand (key : String) : Bool := ["pin", "unpin", "add"].contains (toAsciiLowercase key)

theorem mem_modelKeySet {config : Config} {key : String} :
    key ∈ modelKeySet config ↔ key ∈ config.models := by
  rw [modelKeySet, Std.ExtTreeSet.mem_ofList, List.contains_iff_mem, Std.ExtTreeMap.map_fst_toList_eq_keys,
    Std.ExtTreeMap.mem_keys]

/-- Each key has its button, and each button its key. -/
theorem flatten_modelPickerKeyboard (modelKeys : List String) :
    (modelPickerKeyboard modelKeys).flatten = modelKeys.map fun key => "/model " ++ key := by
  rw [modelPickerKeyboard, ← List.map_flatten, flatten_chunksOfTwo]

/-- In a list in ascending order, `find` finds the least. -/
theorem find?_eq_some_of_pairwise {l : List String} (hl : l.Pairwise fun a b => compare a b = .lt)
    {p : String → Bool} {key : String} :
    l.find? p = some key ↔
      key ∈ l ∧ p key = true ∧ ∀ other ∈ l, compare other key = .lt → p other = false := by
  rw [List.find?_eq_some_iff_append]
  constructor
  · rintro ⟨hp, before, after, rfl, hbefore⟩
    refine ⟨by simp, hp, ?_⟩
    intro other hmem hlt
    rcases List.mem_append.mp hmem with h | h
    · simpa using hbefore other h
    · -- At `key` or behind it, nothing is below it.
      exfalso
      rw [List.pairwise_append, List.pairwise_cons] at hl
      rcases List.mem_cons.mp h with rfl | h
      · exact Std.OrientedCmp.not_lt_of_lt hlt hlt
      · exact Std.OrientedCmp.not_lt_of_lt hlt (hl.2.1.1 other h)
  · rintro ⟨hmem, hp, hleast⟩
    obtain ⟨before, after, rfl⟩ := List.append_of_mem hmem
    refine ⟨hp, before, after, rfl, ?_⟩
    intro other h
    rw [List.pairwise_append] at hl
    simp [hleast other (List.mem_append_left _ h) (hl.2.2 other h key (List.mem_cons_self))]

/-- Which key `/model add` takes for which argument. -/
theorem configuredModelKey_eq_some {config : Config} {key : String} :
    configuredModelKey config key = some key ↔ key ∈ config.models ∧
      ∀ other ∈ config.models, compare other key = .lt → eqIgnoreAsciiCase other key = false := by
  rw [configuredModelKey, Std.ExtTreeMap.map_fst_toList_eq_keys,
    find?_eq_some_of_pairwise Std.ExtTreeMap.ordered_keys]
  simp only [Std.ExtTreeMap.mem_keys]
  have hrefl : eqIgnoreAsciiCase key key = true := beq_self_eq_true _
  rw [hrefl]
  simp

namespace Commands

/-- `/model`, and what is left of a text that starts with a letter and ends with a token. -/
theorem parse_model {botUsername : Option String} {first : Char} {rest token : List Char}
    (hfirst : isWhitespace first = false) (htoken : IsToken token)
    (hsplit : ∃ before, first :: rest = before ++ token) :
    parse ("/model ".toList ++ first :: rest) botUsername = .command .model (first :: rest) := by
  have htrim : trim (' ' :: first :: rest) = first :: rest := by
    obtain ⟨before, hbefore⟩ := hsplit
    rw [trim, trimStart_space (by decide), trimStart_of_head hfirst, hbefore,
      trimEnd_append_token before htoken]
  have htake : ("/model ".toList ++ first :: rest).takeWhile (!isWhitespace ·) = "/model".toList := by
    simp [isWhitespace]
  have hdrop : ("/model ".toList ++ first :: rest).dropWhile (!isWhitespace ·) = ' ' :: first :: rest := by
    simp [isWhitespace]
  have hstart : trimStart ("/model ".toList ++ first :: rest) = "/model ".toList ++ first :: rest :=
    trimStart_of_head (by decide)
  have hcommand : parseCommand ("/model ".toList ++ first :: rest) botUsername =
      some ⟨"model".toList, first :: rest, false⟩ := by
    unfold parseCommand
    dsimp only
    rw [hstart, htake, hdrop, htrim]
    rfl
  have hlower : toAsciiLowercase (String.ofList "model".toList) = "model" := toAsciiLowercase_eq (by decide)
  have hknown : parseKnownCommand "model".toList = some .model := by
    rw [parseKnownCommand, hlower]
    rfl
  simp only [parse, hcommand, hknown, Bool.false_eq_true, if_false]

variable {handles : RuntimeHandles} {room : RoomState} {chatId : Int} {botUsername : Option String}
  {key : String}

theorem firstArg_of_token (hkey : IsToken key.toList) : firstArg key.toList = some key := by
  rw [firstArg, splitWhitespace_of_token hkey]
  simp

/-- In a room without a pin, a key selects its model unless it names a subcommand. -/
theorem routeModel_key (hkey : IsToken key.toList) (hmem : key ∈ context.modelKeys)
    (hpin : context.pinnedModelKey = none) :
    routeModel key.toList context = .setModel key ↔ isModelSubcommand key = false := by
  -- the owner gate either stops the route or opens the pin route, which selects nothing
  have hpinRoute : routeModelPin key.toList context ≠ .setModel key := by
    unfold routeModelPin ownerGate
    intro h
    split at h
    · rename_i hgate
      split at hgate <;> cases hgate <;> cases h
    · dsimp only at h
      split at h <;> cases h
  unfold routeModel isModelSubcommand
  rw [firstArg_of_token hkey]
  dsimp only
  split
  · rename_i hlower
    simp [hlower, hpinRoute]
  · rename_i hlower
    cases context.privilegedAccess <;> simp [hlower, ownerGate]
  · rename_i hlower
    cases context.privilegedAccess with
    | allowed => cases secondArg key.toList <;> simp [hlower, ownerGate]
    | notOwner => simp [hlower, ownerGate]
    | stale => simp [hlower, ownerGate]
  · -- no subcommand: the key is looked up
    rename_i hpin' hunpin hadd
    refine iff_of_true (by simp [hpin, hmem]) ?_
    simp only [List.contains_cons, List.contains_nil, Bool.or_false, Bool.or_eq_false_iff,
      beq_eq_false_iff_ne]
    exact ⟨hpin', hunpin, hadd⟩

/-- The two words of a subcommand. -/
theorem splitWhitespace_subcommand {word : String} (hword : IsToken word.toList)
    (hkey : IsToken key.toList) :
    splitWhitespace (word.toList ++ ' ' :: key.toList) = [word.toList, key.toList] := by
  rw [splitWhitespace_token_append hword (by decide), splitWhitespace_of_token hkey]

theorem routeModel_pin (hkey : IsToken key.toList) (hmem : key ∈ context.modelKeys)
    (howner : context.privilegedAccess = .allowed) :
    routeModel ("pin".toList ++ ' ' :: key.toList) context = .pinModel key := by
  have hword : IsToken "pin".toList := ⟨by decide, by simp [isWhitespace]⟩
  have hlower : toAsciiLowercase "pin" = "pin" := toAsciiLowercase_eq (by decide)
  unfold routeModel routeModelPin firstArg secondArg
  rw [splitWhitespace_subcommand hword hkey, howner]
  simp [hlower, ownerGate, hmem]

theorem routeModel_add (hkey : IsToken key.toList) (howner : context.privilegedAccess = .allowed) :
    routeModel ("add".toList ++ ' ' :: key.toList) context = .addModel key := by
  have hword : IsToken "add".toList := ⟨by decide, by simp [isWhitespace]⟩
  have hlower : toAsciiLowercase "add" = "add" := toAsciiLowercase_eq (by decide)
  unfold routeModel firstArg secondArg
  rw [splitWhitespace_subcommand hword hkey, howner]
  simp [hlower, ownerGate]

/-- `/model` routes its arguments. -/
theorem route_model {text : String} {first : Char} {rest : List Char} (hfirst : isWhitespace first = false)
    (hkey : IsToken key.toList) (hsplit : ∃ before, first :: rest = before ++ key.toList)
    (htext : text.toList = "/model ".toList ++ first :: rest) :
    route text botUsername context = .command (routeModel (first :: rest) context) := by
  rw [route, htext, parse_model hfirst hkey hsplit]
  rfl

/-- What each of the three commands that name a key resolves to, in a room without a pin. -/
theorem route_model_key (hkey : IsToken key.toList) :
    route ("/model " ++ key) botUsername context = .command (routeModel key.toList context) := by
  obtain ⟨first, rest, hlist⟩ := List.exists_cons_of_ne_nil hkey.ne_nil
  rw [route_model (hkey.noSpace first (by simp [hlist])) hkey ⟨[], hlist.symm⟩
    (by rw [String.toList_append, hlist]), hlist]

theorem route_model_pin (hkey : IsToken key.toList) :
    route ("/model pin " ++ key) botUsername context =
      .command (routeModel ("pin".toList ++ ' ' :: key.toList) context) :=
  route_model (by decide) hkey ⟨"pin ".toList, rfl⟩ (by rw [String.toList_append]; rfl)

theorem route_model_add (hkey : IsToken key.toList) :
    route ("/model add " ++ key) botUsername context =
      .command (routeModel ("add".toList ++ ' ' :: key.toList) context) :=
  route_model (by decide) hkey ⟨"add ".toList, rfl⟩ (by rw [String.toList_append]; rfl)

end Commands

/-- A model key reaches its own commands: it has its button, the button selects it, `/model pin` pins it,
    and `/model add` stores the secret that its own model names. -/
structure Addressable (handles : RuntimeHandles) (botUsername : Option String) (context : CommandContext)
    (key : String) : Prop where
  button : "/model " ++ key ∈ (modelPickerKeyboard (Commands.availableModels context.modelKeys)).flatten
  line : "- /model " ++ key ∈ modelPickerFallbackLines (Commands.availableModels context.modelKeys)
  set : Commands.route ("/model " ++ key) botUsername context = .command (.setModel key)
  pin : Commands.route ("/model pin " ++ key) botUsername context = .command (.pinModel key)
  add : Commands.route ("/model add " ++ key) botUsername context = .command (.addModel key)
  configured : configuredModelKey handles.config key = some key

/-- **Which keys are addressable.**  In a config that the validator accepts, for a fresh owner in a room
    without a pin: exactly the keys that `/model` does not take for a subcommand and that no earlier key
    equals up to ASCII case. -/
theorem addressable_iff {parse : UrlParser} {handles : RuntimeHandles} {room : RoomState} {chatId : Int}
    {botUsername : Option String} {senderUserId : Option Int} {messageDate : Int} {now : AccessTime}
    {key : String} (hvalid : handles.config.validate parse = .ok ()) (hkey : key ∈ handles.config.models)
    (hpin : pinnedModelKey handles.config chatId = none)
    (howner : FreshOwner handles.access senderUserId (messageUnixSeconds messageDate) now) :
    Addressable handles botUsername
        (commandContext handles room chatId senderUserId messageDate now) key ↔
      isModelSubcommand key = false ∧
        ∀ other ∈ handles.config.models, compare other key = .lt → eqIgnoreAsciiCase other key = false := by
  have htoken : IsToken key.toList := by
    obtain ⟨model, hmodel⟩ := Std.ExtTreeMap.mem_iff_isSome_getElem?.mp hkey |> Option.isSome_iff_exists.mp
    exact ((validate_iff.mp hvalid).models key model hmodel).key
  have hmem : key ∈ (commandContext handles room chatId senderUserId messageDate now).modelKeys :=
    mem_modelKeySet.mpr hkey
  have hallowed := checkPrivileged_eq_allowed.mpr howner
  rw [← Commands.routeModel_key htoken hmem hpin]
  constructor
  · intro h
    have hset := h.set
    rw [Commands.route_model_key htoken] at hset
    exact ⟨Route.command.inj hset, (configuredModelKey_eq_some.mp h.configured).2⟩
  · rintro ⟨hset, hleast⟩
    refine ⟨?_, ?_, ?_, ?_, ?_, ?_⟩
    · rw [flatten_modelPickerKeyboard]
      exact List.mem_map_of_mem (Std.ExtTreeSet.mem_toList.mpr hmem)
    · exact List.mem_map_of_mem (Std.ExtTreeSet.mem_toList.mpr hmem)
    · rw [Commands.route_model_key htoken, hset]
    · rw [Commands.route_model_pin htoken, Commands.routeModel_pin htoken hmem hallowed]
    · rw [Commands.route_model_add htoken, Commands.routeModel_add htoken hallowed]
    · exact configuredModelKey_eq_some.mpr ⟨hkey, hleast⟩

/-- A config whose second model is called `add`. -/
def addNamedConfig : Config :=
  ⟨"claude", ((∅ : BTreeMap String ModelConfig).insert "claude"
    { wireFormat := .anthropic, modelName := "claude-opus-5",
      apiKeySecret := some "anthropic_api_key" }).insert "add"
    { wireFormat := .anthropic, modelName := "claude-haiku-5",
      apiKeySecret := some "anthropic_api_key" }, ⟨[7], [42]⟩⟩

theorem freshOwner_addNamedConfig :
    FreshOwner (RuntimeHandles.start addNamedConfig (Stream'.const "123456")).access (some 42)
      (messageUnixSeconds 1000) ⟨1030, by decide⟩ :=
  checkPrivileged_eq_allowed.mp (by decide)

/-- The first key of that config is addressable. -/
theorem addressable_iff_claude :
    Addressable (.start addNamedConfig (Stream'.const "123456")) none
        (commandContext (.start addNamedConfig (Stream'.const "123456")) (.new {}) 7 (some 42) 1000
          ⟨1030, by decide⟩) "claude" ↔
      isModelSubcommand "claude" = false ∧ ∀ other ∈ addNamedConfig.models,
        compare other "claude" = .lt → eqIgnoreAsciiCase other "claude" = false :=
  @addressable_iff (fun _ => .error "") _ _ _ _ _ _ _ _ (by decide) (by decide)
    (by decide) freshOwner_addNamedConfig

/-- The second is not: its button sends `/model add`, which shows the catalog. -/
theorem subcommand_not_addressable :
    ¬ ∀ (parse : UrlParser) (handles : RuntimeHandles) (room : RoomState) (chatId : Int)
        (botUsername : Option String) (senderUserId : Option Int) (messageDate : Int) (now : AccessTime)
        (key : String), handles.config.validate parse = .ok () → key ∈ handles.config.models →
      pinnedModelKey handles.config chatId = none →
      FreshOwner handles.access senderUserId (messageUnixSeconds messageDate) now →
      Addressable handles botUsername
        (commandContext handles room chatId senderUserId messageDate now) key := by
  intro h
  have hset := (h (fun _ => .error "") (.start addNamedConfig (Stream'.const "123456")) (.new {}) 7 none
    (some 42) 1000 ⟨1030, by decide⟩ "add" (by decide) (by decide) (by decide)
    freshOwner_addNamedConfig).set
  have hcatalog : Commands.route ("/model " ++ "add") none
      (commandContext (.start addNamedConfig (Stream'.const "123456")) (.new {}) 7 (some 42) 1000
        ⟨1030, by decide⟩) = .command .showModelCatalog := by decide +kernel
  rw [hcatalog] at hset
  cases hset

end Tellm
