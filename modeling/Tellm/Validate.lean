/-
  VALIDATION: `Config::validate`, and why no config the bot saves can fail it.

  The validator runs at start and in the wizard; the running bot edits its config without ever calling
  it.  It is a conjunction over all models at once, with one state that goes from model to model (the
  chats pinned so far), and it collects its problems instead of returning at the first.

  1. **`Config.validate`**, with its texts, over a parameter for `url::Url::parse`.
  2. **`Valid`**: what the validator accepts, as a predicate (`validate_iff`): every model is well formed
     by itself, and no chat is pinned twice.
  3. **The edits keep it** (`Valid.*`), and so does every operation of the running bot
     (`valid_toSave`, `valid_run`).

  `url::Url::parse` is a parameter; the validator asks it for the scheme, the host, the port and the
  userinfo, and the model has these four.  Where a preset's URL is concerned, `PresetUrls` says what the
  parser makes of it.  The problems are collected in the order of the source, model by model in the order
  of the keys, with their texts; a config is accepted exactly if there are none.

  `Valid` is the same as a predicate, with the two conditions that concern one model (`ValidModel`) and
  the one that concerns all (`Config.pins` has no chat twice).  The running bot pins a chat by taking it
  off every other model first, adds a model from the presets only, and otherwise leaves the models alone;
  so every edit keeps `Valid`, and `saved_configs_valid` is the induction over the operations, failing
  saves among them.
-/
import Tellm.Restart
import Tellm.ModelTurn
import Tellm.Secrets
import Tellm.Text

namespace Tellm

open Runs

/-! ## URLs -/

/-- `url::Host`; an IPv4 address is its four octets, an IPv6 address its value. -/
inductive Host
  | domain (name : String)
  | ipv4 (octets : Fin 256 × Fin 256 × Fin 256 × Fin 256)
  | ipv6 (address : Nat)
  deriving DecidableEq

/-- The components of a `url::Url` that the program looks at. -/
structure Url where
  scheme : String
  username : String := ""
  password : Option String := none
  host : Option Host
  deriving DecidableEq

/-- `url::Url::parse`. -/
abbrev UrlParser := String → Except String Url

/-- No embedded credentials. -/
def Url.NoUserinfo (url : Url) : Prop := url.username = "" ∧ url.password = none

instance (url : Url) : Decidable url.NoUserinfo := inferInstanceAs (Decidable (_ ∧ _))

/-- `is_loopback_http_url`. -/
def isLoopbackHttpUrl (value : Url) : Bool :=
  value.scheme == "http" &&
    match value.host with
    | some (.domain host) => eqIgnoreAsciiCase host "localhost"
    | some (.ipv4 octets) => octets.1 == 127
    | some (.ipv6 address) => address == 1
    | none => false

/-! ## The validator -/

/-- `value.trim().is_empty()`. -/
def isBlank (value : String) : Bool := (Text.trim value.toList).isEmpty

/-- `ConfigError`: all that is wrong with a config, not the first of it. -/
inductive ConfigError
  | invalid (problems : List String)
  deriving DecidableEq

/-- `if condition { problems.push(problem) }`. -/
def problemIf (condition : Bool) (problem : String) : List String := if condition then [problem] else []

/-- The base URL, once it is not empty: parsed, or a problem. -/
def parseBaseUrl (parse : UrlParser) (key : String) (baseUrl : Option String) :
    Option Url × List String :=
  match baseUrl with
  | none => (none, [])
  | some baseUrl =>
    if isBlank baseUrl then (none, [s!"model \"{key}\": base_url must not be empty"])
    else
      match parse baseUrl with
      | .ok url => (some url, [])
      | .error error =>
        (none, [s!"model \"{key}\": base_url is not a valid absolute URL: {error}"])

/-- `has_secret`, false for a rejected name too. -/
def hasSecret (key : String) (apiKeySecret : Option String) : Bool × List String :=
  match apiKeySecret with
  | none => (false, [])
  | some secretName =>
    if isBlank secretName then (false, [s!"model \"{key}\": api_key_secret must not be empty"])
    else if Secrets.isReservedName secretName then
      (false, [s!"model \"{key}\": api_key_secret uses a reserved internal prefix"])
    else (true, [])

/-- What is wrong with a parsed base URL. -/
def baseUrlProblems (key : String) (model : ModelConfig) (hasSecret : Bool) (baseUrl : Url) :
    List String :=
  problemIf (baseUrl.username != "" || baseUrl.password.isSome)
    s!"model \"{key}\": base_url must not contain embedded credentials" ++
  if baseUrl.scheme = "https" then []
  else if hasSecret then [s!"model \"{key}\": credential-bearing base_url must use https://"]
  else
    problemIf (model.wireFormat != .compat || baseUrl.scheme != "http" ||
        (!isLoopbackHttpUrl baseUrl && !model.allowInsecureHttp))
      (s!"model \"{key}\": base_url must use https:// unless it is a keyless loopback compat " ++
        "endpoint or allow_insecure_http = true explicitly permits keyless compat HTTP")

/-- The problems of one model by itself. -/
def modelProblems (parse : UrlParser) (key : String) (model : ModelConfig) : List String :=
  let (parsedBaseUrl, urlProblems) := parseBaseUrl parse key model.baseUrl
  let (hasSecret, secretProblems) := hasSecret key model.apiKeySecret
  (if isBlank key then ["model key must not be empty"]
    else problemIf (key.toList.any Text.isWhitespace)
      (s!"model \"{key}\": key must not contain whitespace because /model commands use one token")) ++
  problemIf (isBlank model.modelName) s!"model \"{key}\": model_name must not be empty" ++
  problemIf (model.wireFormat == .compat && model.baseUrl.isNone)
    (s!"model \"{key}\": wire_format \"compat\" requires base_url (there is no default compat " ++
      "endpoint)") ++
  urlProblems ++ secretProblems ++
  problemIf (model.wireFormat != .compat && !hasSecret && model.apiKeySecret.isNone)
    s!"model \"{key}\": wire_format \"{model.wireFormat.debug}\" requires api_key_secret" ++
  (parsedBaseUrl.map (baseUrlProblems key model hasSecret)).getD []

/-- A chat that is pinned already is a problem. -/
def pinProblem (key : String) (chatId : Int) (pinned : BTreeMap Int String) : List String :=
  match pinned[chatId]? with
  | some previous =>
    [s!"chat_id {chatId} is pinned to both \"{previous}\" and \"{key}\" — a room can be pinned to " ++
      "at most one model"]
  | none => []

/-- The loop over the pins of one model, with the chats pinned so far. -/
def pinProblems (key : String) : List Int → BTreeMap Int String → List String × BTreeMap Int String
  | [], pinned => ([], pinned)
  | chatId :: chatIds, pinned =>
    let (problems, pinned') := pinProblems key chatIds (pinned.insert chatId key)
    (pinProblem key chatId pinned ++ problems, pinned')

/-- The loop over the models. -/
def modelsProblems (parse : UrlParser) : List (String × ModelConfig) → BTreeMap Int String → List String
  | [], _ => []
  | (key, model) :: models, pinned =>
    let (problems, pinned) := pinProblems key model.telegramChatIds pinned
    modelProblems parse key model ++ problems ++ modelsProblems parse models pinned

/-- What `validate` collects: of the default model, and then of each model in the order of the keys. -/
def Config.problems (parse : UrlParser) (config : Config) : List String :=
  problemIf (!config.models.contains config.defaultModel)
    s!"default_model \"{config.defaultModel}\" is not defined under [models]" ++
  modelsProblems parse config.models.toList ∅

/-- `Config::validate`. -/
def Config.validate (parse : UrlParser) (config : Config) : Except ConfigError Unit :=
  if (config.problems parse).isEmpty then .ok () else .error (.invalid (config.problems parse))

/-! ## What it accepts -/

/-- The base URL may carry the model's requests. -/
def AllowedBaseUrl (model : ModelConfig) (url : Url) : Prop :=
  url.NoUserinfo ∧ (url.scheme = "https" ∨
    (model.apiKeySecret = none ∧ model.wireFormat = .compat ∧ url.scheme = "http" ∧
      (isLoopbackHttpUrl url = true ∨ model.allowInsecureHttp = true)))

/-- A model that is well formed by itself. -/
structure ValidModel (parse : UrlParser) (key : String) (model : ModelConfig) : Prop where
  key : Text.IsToken key.toList
  modelName : isBlank model.modelName = false
  compat : model.wireFormat = .compat → model.baseUrl ≠ none
  secret : ∀ secretName, model.apiKeySecret = some secretName →
    isBlank secretName = false ∧ Secrets.isReservedName secretName = false
  keyed : model.wireFormat ≠ .compat → model.apiKeySecret ≠ none
  baseUrl : ∀ baseUrl, model.baseUrl = some baseUrl → isBlank baseUrl = false ∧
    ∃ url, parse baseUrl = .ok url ∧ AllowedBaseUrl model url

/-- The chats that are pinned, model by model. -/
def Config.pins (config : Config) : List Int :=
  config.models.toList.flatMap fun entry => entry.2.telegramChatIds

/-- What the validator accepts. -/
structure Valid (parse : UrlParser) (config : Config) : Prop where
  defaultModel : config.defaultModel ∈ config.models
  models : ∀ key model, config.models[key]? = some model → ValidModel parse key model
  pins : config.pins.Nodup

@[simp] theorem problemIf_eq_nil {condition : Bool} {problem : String} :
    problemIf condition problem = [] ↔ condition = false := by
  cases condition <;> simp [problemIf]

theorem isBlank_iff {value : String} :
    isBlank value = true ↔ ∀ c ∈ value.toList, Text.isWhitespace c = true := by
  rw [isBlank, List.isEmpty_iff, Text.trim_eq_nil]

variable {parse : UrlParser} {key : String} {model : ModelConfig} {config : Config}

/-- The two tests on a key. -/
theorem isToken_iff : Text.IsToken key.toList ↔
    isBlank key = false ∧ key.toList.any Text.isWhitespace = false := by
  constructor
  · intro h
    refine ⟨Bool.eq_false_iff.mpr ?_, List.any_eq_false.mpr fun c hc => by simp [h.noSpace c hc]⟩
    rw [ne_eq, isBlank_iff]
    intro hall
    obtain ⟨c, hc⟩ := List.exists_mem_of_ne_nil _ h.ne_nil
    exact Bool.false_ne_true ((h.noSpace c hc).symm.trans (hall c hc))
  · rintro ⟨hblank, hspace⟩
    refine ⟨?_, fun c hc => Bool.eq_false_iff.mpr (List.any_eq_false.mp hspace c hc)⟩
    intro hnil
    exact Bool.eq_false_iff.mp hblank (isBlank_iff.mpr (by simp [hnil]))

theorem keyProblems_eq_nil {blank space : String} :
    (if isBlank key then [blank] else problemIf (key.toList.any Text.isWhitespace) space) = [] ↔
      Text.IsToken key.toList := by
  rw [isToken_iff]
  cases isBlank key <;> simp

/-- The names that the validator lets through. -/
def AllowedSecret (apiKeySecret : Option String) : Prop :=
  ∀ secretName, apiKeySecret = some secretName →
    isBlank secretName = false ∧ Secrets.isReservedName secretName = false

theorem hasSecret_problems {apiKeySecret : Option String} :
    (hasSecret key apiKeySecret).2 = [] ↔ AllowedSecret apiKeySecret := by
  cases apiKeySecret with
  | none => simp [hasSecret, AllowedSecret]
  | some secretName =>
    cases hblank : isBlank secretName <;> cases hreserved : Secrets.isReservedName secretName <;>
      simp [hasSecret, AllowedSecret, hblank, hreserved]

/-- With an allowed name, there is a secret exactly when one is named. -/
theorem hasSecret_eq_isSome {apiKeySecret : Option String} (h : AllowedSecret apiKeySecret) :
    (hasSecret key apiKeySecret).1 = apiKeySecret.isSome := by
  cases apiKeySecret with
  | none => rfl
  | some secretName =>
    obtain ⟨hblank, hreserved⟩ := h secretName rfl
    simp [hasSecret, hblank, hreserved]

/-- Without a problem about it, the base URL is parsed exactly when there is one. -/
theorem parseBaseUrl_eq {baseUrl : Option String} :
    (parseBaseUrl parse key baseUrl).2 = [] ↔
      (baseUrl = none ∧ (parseBaseUrl parse key baseUrl).1 = none) ∨
      ∃ text url, baseUrl = some text ∧ isBlank text = false ∧ parse text = .ok url ∧
        (parseBaseUrl parse key baseUrl).1 = some url := by
  cases baseUrl with
  | none => simp [parseBaseUrl]
  | some text =>
    cases hblank : isBlank text <;> cases hparse : parse text <;>
      simp [parseBaseUrl, hblank, hparse]

theorem baseUrlProblems_eq_nil {url : Url} :
    baseUrlProblems key model model.apiKeySecret.isSome url = [] ↔ AllowedBaseUrl model url := by
  have huserinfo : (url.username != "" || url.password.isSome) = false ↔ url.NoUserinfo := by
    rw [Url.NoUserinfo, Bool.or_eq_false_iff, bne_eq_false_iff_eq, Option.isSome_eq_false_iff,
      Option.isNone_iff_eq_none]
  rw [baseUrlProblems, List.append_eq_nil_iff, problemIf_eq_nil, huserinfo, AllowedBaseUrl]
  refine and_congr Iff.rfl ?_
  by_cases hhttps : url.scheme = "https"
  · simp [hhttps]
  · rw [if_neg hhttps]
    cases hsecret : model.apiKeySecret with
    | some secretName => simp [hhttps]
    | none =>
      simp only [Option.isSome_none, Bool.false_eq_true, if_false, problemIf_eq_nil, hhttps, false_or,
        true_and, Bool.or_eq_false_iff, bne_eq_false_iff_eq, Bool.and_eq_false_iff, Bool.not_eq_false']
      exact and_assoc

/-- A model without problems is well formed, and the other way round. -/
theorem modelProblems_eq_nil : modelProblems parse key model = [] ↔ ValidModel parse key model := by
  unfold modelProblems
  simp only [List.append_eq_nil_iff, keyProblems_eq_nil, problemIf_eq_nil, hasSecret_problems,
    parseBaseUrl_eq]
  constructor
  · rintro ⟨⟨⟨⟨⟨⟨hkey, hname⟩, hcompat⟩, hurl⟩, hsecret⟩, hkeyed⟩, hbase⟩
    rw [hasSecret_eq_isSome hsecret] at hkeyed hbase
    refine ⟨hkey, hname, ?_, hsecret, ?_, ?_⟩
    · intro h hnone
      simp [h, hnone] at hcompat
    · intro h hnone
      simp [h, hnone] at hkeyed
    · intro text htext
      -- the checks of a base URL run only on one that is parsed, which a blank or malformed one is not
      rcases hurl with ⟨hnone, -⟩ | ⟨text', url, htext', hblank, hparse, hparsed⟩
      · rw [hnone] at htext
        cases htext
      · obtain rfl := Option.some.inj (htext.symm.trans htext')
        rw [hparsed] at hbase
        exact ⟨hblank, url, hparse, baseUrlProblems_eq_nil.mp hbase⟩
  · intro h
    rw [hasSecret_eq_isSome h.secret]
    refine ⟨⟨⟨⟨⟨⟨h.key, h.modelName⟩, ?_⟩, ?_⟩, h.secret⟩, ?_⟩, ?_⟩
    · cases hurl : model.baseUrl with
      | none =>
        have hne : model.wireFormat ≠ .compat := fun hc => h.compat hc hurl
        simp [hne]
      | some text => simp
    · cases hurl : model.baseUrl with
      | none => exact Or.inl ⟨rfl, rfl⟩
      | some text =>
        obtain ⟨hblank, url, hparse, -⟩ := h.baseUrl text hurl
        exact Or.inr ⟨text, url, rfl, hblank, hparse, by simp [parseBaseUrl, hblank, hparse]⟩
    · cases hsecret : model.apiKeySecret with
      | none =>
        have hcompat : model.wireFormat = .compat := by
          by_contra hne
          exact h.keyed hne hsecret
        simp [hcompat]
      | some secretName => simp
    · cases hurl : model.baseUrl with
      | none => rfl
      | some text =>
        obtain ⟨hblank, url, hparse, hallowed⟩ := h.baseUrl text hurl
        have hparsed : (parseBaseUrl parse key (some text)).1 = some url := by
          simp [parseBaseUrl, hblank, hparse]
        rw [hparsed]
        exact baseUrlProblems_eq_nil.mpr hallowed

/-! ## The pins -/

theorem pinProblem_eq_nil {chatId : Int} {pinned : BTreeMap Int String} :
    pinProblem key chatId pinned = [] ↔ chatId ∉ pinned := by
  rw [pinProblem, ← Std.ExtTreeMap.isSome_getElem?_iff_mem]
  cases pinned[chatId]? <;> simp

/-- No problem: the chats are distinct, and none was pinned before. -/
theorem pinProblems_eq_nil {chatIds : List Int} {pinned : BTreeMap Int String} :
    (pinProblems key chatIds pinned).1 = [] ↔ chatIds.Nodup ∧ ∀ c ∈ chatIds, c ∉ pinned := by
  induction chatIds generalizing pinned with
  | nil => simp [pinProblems]
  | cons chatId chatIds ih =>
    rw [pinProblems]
    dsimp only
    rw [List.append_eq_nil_iff, pinProblem_eq_nil, ih, List.nodup_cons]
    simp only [Std.ExtTreeMap.mem_insert, compare_eq_iff_eq, not_or, List.forall_mem_cons]
    constructor
    · rintro ⟨hfirst, hnodup, hrest⟩
      exact ⟨⟨fun hmem => (hrest _ hmem).1 rfl, hnodup⟩, hfirst, fun c hc => (hrest c hc).2⟩
    · rintro ⟨⟨hfresh, hnodup⟩, hfirst, hrest⟩
      refine ⟨hfirst, hnodup, fun c hc => ⟨?_, hrest c hc⟩⟩
      rintro rfl
      exact hfresh hc

theorem mem_pinProblems {chatIds : List Int} {pinned : BTreeMap Int String} {c : Int} :
    c ∈ (pinProblems key chatIds pinned).2 ↔ c ∈ pinned ∨ c ∈ chatIds := by
  induction chatIds generalizing pinned with
  | nil => simp [pinProblems]
  | cons chatId chatIds ih =>
    rw [pinProblems]
    dsimp only
    rw [ih, Std.ExtTreeMap.mem_insert, compare_eq_iff_eq, List.mem_cons]
    tauto

/-- No problem in any model: each is well formed, and the pins are distinct over all of them. -/
theorem modelsProblems_eq_nil {models : List (String × ModelConfig)} {pinned : BTreeMap Int String} :
    modelsProblems parse models pinned = [] ↔
      (∀ entry ∈ models, ValidModel parse entry.1 entry.2) ∧
      (models.flatMap fun entry => entry.2.telegramChatIds).Nodup ∧
      ∀ c ∈ models.flatMap fun entry => entry.2.telegramChatIds, c ∉ pinned := by
  induction models generalizing pinned with
  | nil => simp [modelsProblems]
  | cons entry models ih =>
    obtain ⟨key, model⟩ := entry
    rw [modelsProblems]
    dsimp only
    rw [List.append_eq_nil_iff, List.append_eq_nil_iff, modelProblems_eq_nil, pinProblems_eq_nil, ih,
      List.flatMap_cons, List.nodup_append']
    simp only [mem_pinProblems, not_or, List.forall_mem_cons, List.mem_append]
    constructor
    · rintro ⟨⟨hmodel, hnodup, hfresh⟩, hmodels, hrest, hall⟩
      refine ⟨⟨hmodel, hmodels⟩, ⟨hnodup, hrest, ?_⟩, ?_⟩
      · intro c hc hc'
        exact (hall c hc').2 hc
      · rintro c (hc | hc)
        · exact hfresh c hc
        · exact (hall c hc).1
    · rintro ⟨⟨hmodel, hmodels⟩, ⟨hnodup, hrest, hdisjoint⟩, hall⟩
      refine ⟨⟨hmodel, hnodup, fun c hc => hall c (Or.inl hc)⟩, hmodels, hrest, ?_⟩
      intro c hc
      exact ⟨hall c (Or.inr hc), fun hc' => hdisjoint hc' hc⟩

/-- **The validator, specified**: it accepts exactly the valid configs, where `Valid` says by fields what
    `validate` checks one after the other, up to its first error. -/
theorem validate_iff : config.validate parse = .ok () ↔ Valid parse config := by
  have hempty : config.validate parse = .ok () ↔ config.problems parse = [] := by
    rw [Config.validate]
    cases config.problems parse <;> simp
  rw [hempty, Config.problems, List.append_eq_nil_iff, problemIf_eq_nil, modelsProblems_eq_nil]
  constructor
  · rintro ⟨hdefault, hmodels, hpins, -⟩
    refine ⟨?_, ?_, hpins⟩
    · rw [Bool.not_eq_false'] at hdefault
      exact Std.ExtTreeMap.mem_iff_contains.mpr hdefault
    · intro key model hkey
      exact hmodels (key, model) (Std.ExtTreeMap.mem_toList_iff_getElem?_eq_some.mpr hkey)
  · intro h
    refine ⟨?_, ?_, h.pins, fun c _ => Std.ExtTreeMap.not_mem_empty⟩
    · rw [Bool.not_eq_false']
      exact Std.ExtTreeMap.mem_iff_contains.mp h.defaultModel
    · intro entry hentry
      exact h.models _ _ (Std.ExtTreeMap.mem_toList_iff_getElem?_eq_some.mp hentry)

/-! ## The edits keep it -/

/-- The pins, model by model: distinct within one, disjoint between two. -/
theorem pins_nodup_iff : config.pins.Nodup ↔
    (∀ (key : String) (model : ModelConfig), config.models[key]? = some model → model.telegramChatIds.Nodup) ∧
    ∀ (key key' : String) (model model' : ModelConfig), key ≠ key' → config.models[key]? = some model →
      config.models[key']? = some model' → ∀ c ∈ model.telegramChatIds, c ∉ model'.telegramChatIds := by
  rw [Config.pins, List.nodup_flatMap]
  refine and_congr ?_ ?_
  · constructor
    · intro h key model hkey
      exact h (key, model) (Std.ExtTreeMap.mem_toList_iff_getElem?_eq_some.mpr hkey)
    · intro h entry hentry
      exact h _ _ (Std.ExtTreeMap.mem_toList_iff_getElem?_eq_some.mp hentry)
  · have hkeys := Std.ExtTreeMap.distinct_keys_toList (t := config.models)
    constructor
    · intro h key key' model model' hne hkey hkey' c hc hc'
      have hsymm : Std.Symm (Function.onFun List.Disjoint
          fun entry : String × ModelConfig => entry.2.telegramChatIds) :=
        ⟨fun _ _ hdisjoint => List.Disjoint.symm hdisjoint⟩
      have hdisjoint := h.forall
        (Std.ExtTreeMap.mem_toList_iff_getElem?_eq_some.mpr hkey)
        (Std.ExtTreeMap.mem_toList_iff_getElem?_eq_some.mpr hkey')
        (fun heq => hne (congrArg Prod.fst heq))
      exact hdisjoint hc hc'
    · intro h
      refine hkeys.imp_of_mem ?_
      intro entry entry' hentry hentry' hne c hc hc'
      exact h entry.1 entry'.1 entry.2 entry'.2 (fun heq => hne (compare_eq_iff_eq.mpr heq))
        (Std.ExtTreeMap.mem_toList_iff_getElem?_eq_some.mp hentry)
        (Std.ExtTreeMap.mem_toList_iff_getElem?_eq_some.mp hentry') c hc hc'

/-- A model's pins do not matter to it. -/
theorem ValidModel.withPins (h : ValidModel parse key model) (chatIds : List Int) :
    ValidModel parse key { model with telegramChatIds := chatIds } :=
  ⟨h.key, h.modelName, h.compat, h.secret, h.keyed, h.baseUrl⟩

namespace Valid

variable {chatId : Int}

/-- The allowlist and the owners do not matter. -/
theorem withTelegram (h : Valid parse config) (telegram : TelegramConfig) :
    Valid parse { config with telegram := telegram } :=
  ⟨h.defaultModel, h.models, h.pins⟩

theorem allowChat (h : Valid parse config) : Valid parse (allowChatInConfig config chatId).1 := by
  unfold allowChatInConfig
  split
  · exact h
  · exact h.withTelegram _

theorem pairChat (h : Valid parse config) (pairerUserId : Option Int) :
    Valid parse (pairChatInConfig config chatId pairerUserId).1 := by
  unfold pairChatInConfig
  dsimp only
  split
  · exact h.allowChat
  · split
    · exact h.allowChat
    · exact h.allowChat.withTelegram _

/-- Unpinning a chat everywhere takes elements out of lists. -/
theorem releasePins (h : Valid parse config) (chatId : Int) : Valid parse (config.releasePins chatId) := by
  have hmodels :
    ∀ {key : String} {model' : ModelConfig}, (config.releasePins chatId).models[key]? = some model' →
      ∃ model : ModelConfig, config.models[key]? = some model ∧ model.release chatId = model' := by
    intro key model' hkey
    simpa only [Config.releasePins, Std.ExtTreeMap.getElem?_map, Option.map_eq_some_iff] using hkey
  refine ⟨?_, ?_, pins_nodup_iff.mpr ⟨?_, ?_⟩⟩
  · exact Std.ExtTreeMap.mem_map.mpr h.defaultModel
  · intro key model' hkey
    obtain ⟨model, hmodel, rfl⟩ := hmodels hkey
    exact (h.models key model hmodel).withPins _
  · intro key model' hkey
    obtain ⟨model, hmodel, rfl⟩ := hmodels hkey
    exact ((pins_nodup_iff.mp h.pins).1 key model hmodel).filter _
  · intro key key' model model' hne hkey hkey' c hc hc'
    obtain ⟨m, hm, rfl⟩ := hmodels hkey
    obtain ⟨m', hm', rfl⟩ := hmodels hkey'
    exact (pins_nodup_iff.mp h.pins).2 key key' m m' hne hm hm' c
      (ModelConfig.mem_release.mp hc).1 (ModelConfig.mem_release.mp hc').1

theorem denyChat (h : Valid parse config) : Valid parse (denyChatInConfig config chatId).1 :=
  (h.releasePins chatId).withTelegram _

theorem unpinModel (h : Valid parse config) : Valid parse (unpinModelInConfig config chatId).1 := by
  unfold unpinModelInConfig
  dsimp only
  split
  · exact (h.releasePins chatId).withTelegram _
  · exact h.releasePins chatId

/-- After unpinning it everywhere, the chat can be pinned once. -/
theorem pinModel (h : Valid parse config) (modelKey : String) :
    Valid parse (pinModelInConfig config modelKey chatId) := by
  have hreleased := h.releasePins chatId
  have hfree : ∀ (key : String) (model : ModelConfig), (config.releasePins chatId).models[key]? = some model →
      chatId ∉ model.telegramChatIds := by
    intro key model hkey hmem
    exact (Config.pinned_releasePins.mp ⟨key, model, hkey, hmem⟩).2 rfl
  -- the pins of the chat are released first, so the one model that gets it again has it once
  have hmodels : ∀ {key : String} {model' : ModelConfig},
      (pinModelInConfig config modelKey chatId).models[key]? = some model' →
        ∃ model : ModelConfig, (config.releasePins chatId).models[key]? = some model ∧
          (model' = model ∨ (key = modelKey ∧
            model' = { model with telegramChatIds := model.telegramChatIds ++ [chatId] })) := by
    intro key model' hkey
    simp only [pinModelInConfig, Std.ExtTreeMap.getElem?_modify] at hkey
    split at hkey
    · rename_i heq
      obtain rfl := compare_eq_iff_eq.mp heq
      obtain ⟨model, hmodel, rfl⟩ := Option.map_eq_some_iff.mp hkey
      exact ⟨model, hmodel, Or.inr ⟨rfl, rfl⟩⟩
    · exact ⟨model', hkey, Or.inl rfl⟩
  refine ⟨?_, ?_, pins_nodup_iff.mpr ⟨?_, ?_⟩⟩
  · exact Std.ExtTreeMap.mem_modify.mpr hreleased.defaultModel
  · intro key model' hkey
    obtain ⟨model, hmodel, rfl | ⟨-, rfl⟩⟩ := hmodels hkey
    · exact hreleased.models key _ hmodel
    · exact (hreleased.models key model hmodel).withPins _
  · intro key model' hkey
    obtain ⟨model, hmodel, rfl | ⟨-, rfl⟩⟩ := hmodels hkey
    · exact (pins_nodup_iff.mp hreleased.pins).1 key _ hmodel
    · have hnodup := (pins_nodup_iff.mp hreleased.pins).1 key model hmodel
      exact List.concat_eq_append ▸ hnodup.concat (hfree key model hmodel)
  · intro key key' model model' hne hkey hkey' c hc hc'
    have hdisjoint := (pins_nodup_iff.mp hreleased.pins).2
    obtain ⟨m, hm, rfl | ⟨rfl, rfl⟩⟩ := hmodels hkey
    · obtain ⟨m', hm', rfl | ⟨-, rfl⟩⟩ := hmodels hkey'
      · exact hdisjoint key key' _ _ hne hm hm' c hc hc'
      · rcases List.mem_append.mp hc' with hc' | hc'
        · exact hdisjoint key key' _ m' hne hm hm' c hc hc'
        · exact hfree key _ hm (List.mem_singleton.mp hc' ▸ hc)
    · obtain ⟨m', hm', rfl | ⟨rfl, -⟩⟩ := hmodels hkey'
      · rcases List.mem_append.mp hc with hc | hc
        · exact hdisjoint key key' m _ hne hm hm' c hc hc'
        · exact hfree key' _ hm' (List.mem_singleton.mp hc ▸ hc')
      · exact hne rfl

/-- A new model that is well formed and has no pins. -/
theorem insertModel (h : Valid parse config) {newKey : String} {newModel : ModelConfig}
    (hnew : ValidModel parse newKey newModel) (hpins : newModel.telegramChatIds = []) :
    Valid parse { config with models := config.models.insert newKey newModel } := by
  -- each model is the new one, or was there before
  have hmodels : ∀ {key : String} {model' : ModelConfig},
      (config.models.insert newKey newModel)[key]? = some model' →
        (key = newKey ∧ model' = newModel) ∨ config.models[key]? = some model' := by
    intro key model' hkey
    rw [Std.ExtTreeMap.getElem?_insert] at hkey
    split at hkey
    · rename_i heq
      exact Or.inl ⟨(compare_eq_iff_eq.mp heq).symm, (Option.some.inj hkey).symm⟩
    · exact Or.inr hkey
  have hnone : ∀ c, c ∉ newModel.telegramChatIds := by
    intro c
    rw [hpins]
    exact List.not_mem_nil
  refine ⟨?_, ?_, pins_nodup_iff.mpr ⟨?_, ?_⟩⟩
  · exact Std.ExtTreeMap.mem_insert.mpr (Or.inr h.defaultModel)
  · intro key model' hkey
    rcases hmodels hkey with ⟨rfl, rfl⟩ | hkey
    · exact hnew
    · exact h.models key model' hkey
  · intro key model' hkey
    rcases hmodels hkey with ⟨rfl, rfl⟩ | hkey
    · rw [hpins]
      exact List.nodup_nil
    · exact (pins_nodup_iff.mp h.pins).1 key model' hkey
  · intro key key' model model' hne hkey hkey' c hc hc'
    rcases hmodels hkey with ⟨rfl, rfl⟩ | hkey
    · exact hnone c hc
    · rcases hmodels hkey' with ⟨rfl, rfl⟩ | hkey'
      · exact hnone c hc'
      · exact (pins_nodup_iff.mp h.pins).2 key key' model model' hne hkey hkey' c hc hc'

end Valid

/-! ## What the running bot saves -/

/-- `some` edited config, if the edit changed something. -/
def changedConfig (edited : Config) (changed : Bool) : Option Config :=
  if changed then some edited else none

/-- The config that an operation hands to `save_config`, if it calls it. -/
def RuntimeHandles.toSave (self : RuntimeHandles) : HandlerOp → Option Config
  | .allowChat targetChatId =>
    changedConfig (allowChatInConfig self.config targetChatId).1
      (allowChatInConfig self.config targetChatId).2
  | .denyChat targetChatId =>
    changedConfig (denyChatInConfig self.config targetChatId).1
      (denyChatInConfig self.config targetChatId).2.changed
  | .pairAttempt chatId code pairerUserId now =>
    if (self.access.attemptPair chatId code now).2 = .paired then
      changedConfig (pairChatInConfig self.config chatId pairerUserId).1
        (pairChatInConfig self.config chatId pairerUserId).2.changed
    else none
  | .membershipChange chatId adder _ =>
    if (adder.any fun userId => self.config.telegram.ownerUserIds.contains userId) then
      changedConfig (allowChatInConfig self.config chatId).1 (allowChatInConfig self.config chatId).2
    else none
  | .pinModel chatId modelKey =>
    if self.access.isChatAllowed chatId ∧ modelKey ∈ self.config.models then
      some (pinModelInConfig self.config modelKey chatId)
    else none
  | .unpinModel chatId =>
    if self.access.isChatAllowed chatId then
      changedConfig (unpinModelInConfig self.config chatId).1 (unpinModelInConfig self.config chatId).2
    else none
  | .addModel chatId presetKey =>
    if self.access.isChatAllowed chatId ∧ configuredModelKey self.config presetKey = none then
      (presetByKey presetKey).bind fun preset =>
        if preset.key ∈ self.config.models then none
        else some { self.config with
          models := self.config.models.insert preset.key (modelConfigFromPreset preset) }
    else none

/-- Config and file after an operation that saves `toSave`, if anything. -/
structure Saves (before after : RuntimeHandles) (toSave : Option Config) (saved : Result Unit) :
    Prop where
  ok : saved = .ok () → after.config = toSave.getD before.config ∧
    after.configFile = toSave.getD before.configFile
  error : ∀ error, saved = .error error → after.config = before.config ∧
    after.configFile = before.configFile

variable {self after : RuntimeHandles} {saved : Result Unit} {toSave : Option Config}

/-- Nothing is saved, and nothing changes. -/
theorem Saves.none (hconfig : after.config = self.config) (hfile : after.configFile = self.configFile) :
    Saves self after .none saved :=
  ⟨fun _ => ⟨hconfig, hfile⟩, fun _ _ => ⟨hconfig, hfile⟩⟩

/-- The config transaction saves the edited config if it changed. -/
theorem saves_editConfig (self : RuntimeHandles) (edited : Config) (changed : Bool)
    (hsame : changed = false → edited = self.config) (saved : Result Unit) :
    Saves self (self.editConfig edited changed saved).1 (changedConfig edited changed) saved := by
  rcases self.editConfig_cases hsame saved with
    ⟨error, rfl, rfl, he⟩ | ⟨rfl, rfl, he⟩ | ⟨rfl, -, he⟩
  · rw [he]
    exact ⟨by simp, fun _ _ => ⟨rfl, rfl⟩⟩
  · rw [he]
    exact ⟨fun _ => ⟨rfl, rfl⟩, by simp⟩
  · rw [he]
    exact .none rfl rfl

/-- An operation in which the transaction is followed by what touches neither config nor file. -/
theorem Saves.congr (h : Saves self after toSave saved) {before' after' : RuntimeHandles}
    (hbefore : before'.config = self.config ∧ before'.configFile = self.configFile)
    (hafter : after'.config = after.config ∧ after'.configFile = after.configFile) :
    Saves before' after' toSave saved := by
  constructor
  · rw [hbefore.1, hbefore.2, hafter.1, hafter.2]
    exact h.ok
  · rw [hbefore.1, hbefore.2, hafter.1, hafter.2]
    exact h.error

theorem saves_persistPairedChat (self : RuntimeHandles) (chatId : Int) (pairerUserId : Option Int)
    (saved : Result Unit) : Saves self (self.persistPairedChat chatId pairerUserId saved).1
      (changedConfig (pairChatInConfig self.config chatId pairerUserId).1
        (pairChatInConfig self.config chatId pairerUserId).2.changed) saved := by
  have hk := saves_editConfig self (pairChatInConfig self.config chatId pairerUserId).1 _
    (fun h => (pairChat_unchanged h).1) saved
  unfold RuntimeHandles.persistPairedChat
  dsimp only
  split <;> rename_i he <;> rw [he] at hk <;> exact hk

theorem saves_persistProvisionalPair (self : RuntimeHandles) (chatId : Int)
    (pairerUserId : Option Int) (saved : Result Unit) :
    Saves self (self.persistProvisionalPair chatId pairerUserId saved).1
      (changedConfig (pairChatInConfig self.config chatId pairerUserId).1
        (pairChatInConfig self.config chatId pairerUserId).2.changed) saved := by
  have hk := saves_persistPairedChat self chatId pairerUserId saved
  unfold RuntimeHandles.persistProvisionalPair
  split
  · rename_i he
    rw [he] at hk
    exact hk
  · rename_i he
    rw [he] at hk
    exact hk.congr ⟨rfl, rfl⟩ ⟨rfl, rfl⟩

theorem addPairedOwner_frame (self : RuntimeHandles) (pairerUserId : Option Int) (becameOwner : Bool) :
    (self.addPairedOwner pairerUserId becameOwner).config = self.config ∧
      (self.addPairedOwner pairerUserId becameOwner).configFile = self.configFile := by
  unfold RuntimeHandles.addPairedOwner
  split
  · exact ⟨rfl, rfl⟩
  · exact ⟨rfl, rfl⟩

theorem saves_handlePairAttempt (self : RuntimeHandles) (chatId : Int) (code : String)
    (pairerUserId : Option Int) (now : AccessTime) (saved : Result Unit) :
    Saves self (self.handlePairAttempt chatId code pairerUserId now saved).1
      (self.toSave (.pairAttempt chatId code pairerUserId now)) saved := by
  rw [RuntimeHandles.toSave]
  unfold RuntimeHandles.handlePairAttempt
  obtain ⟨access, attempt⟩ := self.access.attemptPair chatId code now
  dsimp only
  by_cases hpaired : attempt = .paired
  · subst hpaired
    have hk := saves_persistProvisionalPair { self with access := access } chatId pairerUserId saved
    rw [if_pos rfl]
    dsimp only
    split
    · rename_i he
      rw [he] at hk
      exact hk.congr ⟨rfl, rfl⟩ ⟨rfl, rfl⟩
    · rename_i he
      rw [he] at hk
      exact hk.congr ⟨rfl, rfl⟩ (addPairedOwner_frame _ _ _)
  · rw [if_neg hpaired]
    split
    · exact absurd rfl hpaired
    · exact .none rfl rfl

/-- **What an operation saves** is `toSave`. -/
theorem saves_apply (self : RuntimeHandles) (op : HandlerOp) (saved : Result Unit) :
    Saves self (self.apply saved op) (self.toSave op) saved := by
  -- an operation that is let through is an edit of the config, the others save nothing
  cases op with
  | allowChat targetChatId =>
    have hk := saves_editConfig self (allowChatInConfig self.config targetChatId).1 _
      (fun h => (allowChat_unchanged h).1) saved
    unfold RuntimeHandles.apply RuntimeHandles.handleAllowChat
    dsimp only
    split <;> rename_i he <;> rw [he] at hk <;> exact hk.congr ⟨rfl, rfl⟩ ⟨rfl, rfl⟩
  | denyChat targetChatId =>
    have hk := saves_editConfig { self with access := self.access.denyChat targetChatId }
      (denyChatInConfig self.config targetChatId).1 _ denyChat_unchanged saved
    unfold RuntimeHandles.apply RuntimeHandles.handleDenyChat
    dsimp only
    split <;> rename_i he <;> rw [he] at hk <;> exact hk.congr ⟨rfl, rfl⟩ ⟨rfl, rfl⟩
  | pairAttempt chatId code pairerUserId now =>
    exact saves_handlePairAttempt self chatId code pairerUserId now saved
  | membershipChange chatId adder now =>
    have hk := saves_editConfig self (allowChatInConfig self.config chatId).1 _
      (fun h => (allowChat_unchanged h).1) saved
    unfold RuntimeHandles.apply RuntimeHandles.handleMembershipChange RuntimeHandles.toSave
    dsimp only
    split
    · split <;> rename_i he <;> rw [he] at hk <;> exact hk.congr ⟨rfl, rfl⟩ ⟨rfl, rfl⟩
    · exact .none rfl rfl
  | pinModel chatId modelKey =>
    have hk := saves_editConfig self (pinModelInConfig self.config modelKey chatId) true
      (by simp) saved
    unfold RuntimeHandles.apply RuntimeHandles.handlePinModel RuntimeHandles.toSave
    dsimp only
    by_cases hallowed : self.access.isChatAllowed chatId = true
    · by_cases hkey : modelKey ∈ self.config.models
      · rw [if_neg (by simp [hallowed]), if_neg (not_not.mpr hkey), if_pos ⟨hallowed, hkey⟩]
        split <;> rename_i he <;> rw [he] at hk <;> exact hk
      · rw [if_neg (by simp [hallowed]), if_pos hkey, if_neg (by simp [hkey])]
        exact .none rfl rfl
    · rw [if_pos (by simpa using hallowed), if_neg (by simp [hallowed])]
      exact .none rfl rfl
  | unpinModel chatId =>
    have hk := saves_editConfig self (unpinModelInConfig self.config chatId).1 _ unpinModel_unchanged saved
    unfold RuntimeHandles.apply RuntimeHandles.handleUnpinModel RuntimeHandles.toSave
    dsimp only
    by_cases hallowed : self.access.isChatAllowed chatId = true
    · rw [if_neg (by simp [hallowed]), if_pos hallowed]
      split <;> rename_i he <;> rw [he] at hk <;> exact hk
    · rw [if_pos (by simpa using hallowed), if_neg hallowed]
      exact .none rfl rfl
  | addModel chatId presetKey =>
    unfold RuntimeHandles.apply RuntimeHandles.handleAddModel RuntimeHandles.toSave
    dsimp only
    by_cases hallowed : self.access.isChatAllowed chatId = true
    · rw [if_neg (by simp [hallowed])]
      cases hconfigured : configuredModelKey self.config presetKey with
      | some key =>
        rw [if_neg (by simp)]
        exact .none rfl rfl
      | none =>
        rw [if_pos ⟨hallowed, rfl⟩]
        cases hpreset : presetByKey presetKey with
        | none => exact .none rfl rfl
        | some preset =>
          have hk := saves_editConfig self { self.config with
            models := self.config.models.insert preset.key (modelConfigFromPreset preset) } true
            (by simp) saved
          dsimp only [Option.bind_some]
          by_cases hkey : preset.key ∈ self.config.models
          · rw [if_pos hkey, if_pos hkey]
            exact .none rfl rfl
          · rw [if_neg hkey, if_neg hkey]
            split <;> rename_i he <;> rw [he] at hk <;> exact hk
    · rw [if_pos (by simpa using hallowed), if_neg (by simp [hallowed])]
      exact .none rfl rfl

/-! ## No operation saves an invalid config -/

/-- The base URLs of the presets are well-formed `https` URLs. -/
def PresetUrls (parse : UrlParser) : Prop :=
  ∀ preset ∈ providerPresets, ∀ baseUrl, preset.baseUrl = some baseUrl →
    ∃ url, parse baseUrl = .ok url ∧ url.scheme = "https" ∧ url.NoUserinfo

/-- A preset makes a well-formed model under its own key. -/
theorem validModel_preset (hurls : PresetUrls parse) {preset : ProviderPreset}
    (h : preset ∈ providerPresets) : ValidModel parse preset.key (modelConfigFromPreset preset) := by
  have hkeys : ∀ preset ∈ providerPresets, isBlank preset.key = false ∧
      preset.key.toList.any Text.isWhitespace = false := by decide
  have hnames : ∀ preset ∈ providerPresets, isBlank preset.modelName = false ∧
      preset.wireFormat ≠ .compat := by decide
  have hsecrets : ∀ preset ∈ providerPresets, isBlank preset.apiKeySecret = false ∧
      Secrets.isReservedName preset.apiKeySecret = false := by decide
  have hblank : ∀ preset ∈ providerPresets, preset.baseUrl.any isBlank = false := by decide
  refine ⟨isToken_iff.mpr (hkeys preset h), (hnames preset h).1, ?_, ?_, ?_, ?_⟩
  · intro hcompat
    exact absurd hcompat (hnames preset h).2
  · intro secretName hsecret
    obtain rfl := Option.some.inj hsecret
    exact hsecrets preset h
  · intro _ hnone
    cases hnone
  · intro baseUrl hbase
    obtain ⟨url, hparse, hscheme, huserinfo⟩ := hurls preset h baseUrl hbase
    refine ⟨?_, url, hparse, huserinfo, Or.inl hscheme⟩
    have hnot := hblank preset h
    rw [show preset.baseUrl = some baseUrl from hbase] at hnot
    exact hnot

theorem changedConfig_eq_some {edited saved : Config} {changed : Bool}
    (h : changedConfig edited changed = some saved) : edited = saved := by
  cases changed with
  | true => exact Option.some.inj h
  | false => cases h

/-- What is handed to `save_config` is valid when the config was. -/
theorem valid_toSave (hurls : PresetUrls parse) (h : Valid parse self.config) {op : HandlerOp}
    {edited : Config} (hsave : self.toSave op = some edited) : Valid parse edited := by
  -- what is saved, by the edit that made it
  cases op with
  | allowChat targetChatId => exact changedConfig_eq_some hsave ▸ h.allowChat
  | denyChat targetChatId => exact changedConfig_eq_some hsave ▸ h.denyChat
  | pairAttempt chatId code pairerUserId now =>
    rw [RuntimeHandles.toSave] at hsave
    split at hsave
    · exact changedConfig_eq_some hsave ▸ h.pairChat pairerUserId
    · cases hsave
  | membershipChange chatId adder now =>
    rw [RuntimeHandles.toSave] at hsave
    split at hsave
    · exact changedConfig_eq_some hsave ▸ h.allowChat
    · cases hsave
  | pinModel chatId modelKey =>
    rw [RuntimeHandles.toSave] at hsave
    split at hsave
    · exact Option.some.inj hsave ▸ h.pinModel modelKey
    · cases hsave
  | unpinModel chatId =>
    rw [RuntimeHandles.toSave] at hsave
    split at hsave
    · exact changedConfig_eq_some hsave ▸ h.unpinModel
    · cases hsave
  | addModel chatId presetKey =>
    rw [RuntimeHandles.toSave] at hsave
    split at hsave
    · obtain ⟨preset, hpreset, hsave⟩ := Option.bind_eq_some_iff.mp hsave
      split at hsave
      · cases hsave
      · have hmem : preset ∈ providerPresets := List.mem_of_find?_eq_some hpreset
        exact Option.some.inj hsave ▸ h.insertModel (validModel_preset hurls hmem) rfl
    · cases hsave

/-- One operation keeps the config in memory valid. -/
theorem valid_apply (hurls : PresetUrls parse) (h : Valid parse self.config) (op : HandlerOp)
    (saved : Result Unit) : Valid parse (self.apply saved op).config := by
  have hsaves := saves_apply self op saved
  cases saved with
  | error error => exact (hsaves.error error rfl).1 ▸ h
  | ok u =>
    rw [(hsaves.ok rfl).1]
    cases hsave : self.toSave op with
    | none => exact h
    | some edited => exact valid_toSave hurls h hsave

/-- Every run of operations does. -/
theorem valid_run (hurls : PresetUrls parse) {codeGenerator : Stream' String} {h : HandlerHistory}
    (p : Path handlerSys (.start config codeGenerator) h self) (hconfig : Valid parse config) :
    Valid parse self.config := by
  refine p.invariant (I := fun s => Valid parse s.config) hconfig ?_
  intro s e s' hs hstep
  cases hstep
  exact valid_apply hurls hs e.1 e.2

/-- **Saved configs are valid.**  From a config that the validator accepts, over any sequence of the
    operations that change it, each with its save succeeding or failing: whatever config the next one
    hands to `save_config` is accepted by the validator, and lists each chat at most once over all
    models.  `toSave` is what is handed: it is the file after a save that succeeds, and without it
    nothing is written. -/
theorem saved_configs_valid (hurls : PresetUrls parse) (hconfig : config.validate parse = .ok ())
    {codeGenerator : Stream' String} {h : HandlerHistory}
    (p : Path handlerSys (.start config codeGenerator) h self) (op : HandlerOp) :
    (∀ edited, self.toSave op = some edited → edited.validate parse = .ok () ∧
      ∀ chatId, edited.pins.count chatId ≤ 1) ∧
    ∀ saved, Saves self (self.apply saved op) (self.toSave op) saved := by
  refine ⟨?_, saves_apply self op⟩
  intro edited hsave
  have hvalid := valid_toSave hurls (valid_run hurls p (validate_iff.mp hconfig)) hsave
  exact ⟨validate_iff.mpr hvalid, fun chatId => List.nodup_iff_count_le_one.mp hvalid.pins chatId⟩

/-- `url::Url::parse` on the base URLs of the presets. -/
def parsePresetUrl : UrlParser := fun url =>
  if url = "https://api.x.ai/v1" then
    .ok { scheme := "https", host := some (.domain "api.x.ai") }
  else if url = "https://api.meta.ai/v1" then
    .ok { scheme := "https", host := some (.domain "api.meta.ai") }
  else .error "relative URL without a base"

theorem presetUrls_parsePresetUrl : PresetUrls parsePresetUrl := by
  have hbase : ∀ preset ∈ providerPresets, preset.baseUrl = none ∨
      preset.baseUrl = some "https://api.x.ai/v1" ∨ preset.baseUrl = some "https://api.meta.ai/v1" := by
    decide
  intro preset hpreset baseUrl hsome
  rcases hbase preset hpreset with h | h | h
  · rw [h] at hsome
    cases hsome
  · obtain rfl := Option.some.inj (hsome.symm.trans h)
    exact ⟨_, rfl, rfl, rfl, rfl⟩
  · obtain rfl := Option.some.inj (hsome.symm.trans h)
    exact ⟨_, rfl, rfl, rfl, rfl⟩

/-- An owner-approved chat pins itself; a preset is added, which could not be saved at first. -/
theorem saved_configs_valid_add :
    let config : Config := ⟨"claude", (∅ : BTreeMap String ModelConfig).insert "claude"
      { wireFormat := .anthropic, modelName := "claude-opus-5",
        apiKeySecret := some "anthropic_api_key" }, ⟨[7], [42]⟩⟩
    let handles := ((RuntimeHandles.start config (Stream'.const "123456")).apply (.ok ())
      (.pinModel 7 "claude")).apply (.error "disk full") (.addModel 7 "xai")
    ∃ edited, handles.toSave (.addModel 7 "xai") = some edited ∧ "xai" ∈ edited.models ∧
      edited.pins = [7] ∧ edited.validate parsePresetUrl = .ok () ∧
      ∀ chatId, edited.pins.count chatId ≤ 1 := by
  intro config handles
  have hsaves : (handles.toSave (.addModel 7 "xai")).any (fun edited =>
      decide ("xai" ∈ edited.models ∧ edited.pins = [7])) = true := by
    decide +kernel
  obtain ⟨edited, hedited, hpins⟩ := Option.any_eq_true _ _ |>.mp hsaves
  obtain ⟨hadded, hpins⟩ := of_decide_eq_true hpins
  refine ⟨edited, hedited, hadded, hpins, ?_⟩
  exact (saved_configs_valid presetUrls_parsePresetUrl (by decide)
    (.step (.step .start (rfl : handlerSys.step _ (.pinModel 7 "claude", .ok ()) = _))
      (rfl : handlerSys.step _ (.addModel 7 "xai", .error "disk full") = _)) (.addModel 7 "xai")).1 edited
    hedited

end Tellm
