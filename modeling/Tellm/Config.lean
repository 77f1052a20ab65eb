/-
  The CONFIGURATION: `tellm_config::Config`, and the edits the running bot makes to it.

  A chat may use the bot when it is on the allowlist or pinned to a model; both live in the config, as
  plain vectors, so a chat may be allowed twice over.  `Config.Allows` says which chats the config
  allows.  Each edit below is the body that one handler runs under the config lock, between its
  `config.clone()` and its save; beside each edit stands the one lemma that its callers use, which says
  what the edit does to `Allows` and to the owners.

  `BTreeMap`/`BTreeSet` are Lean's extensional ordered map and set: same lookups, same iteration order,
  and two maps with the same entries are equal.

  What the edits have in common is that they report whether they changed anything: an `/allow` of a chat
  that is allowed already is not saved.  The report is exact for the config's purposes (`*_unchanged`): if
  nothing is reported, config and edited config are equal.

  A pin counts as access.  Denying a chat therefore takes it off the allowlist and off every pin, and
  unpinning a chat puts it on the allowlist, so that nobody loses access by it.  `allows_*` says for each
  edit which chats are allowed afterwards, and that is all that the modules about access use.

  Loading and saving the file is `Tellm.Saved`, the validator `Tellm.Validate`.
-/
import Mathlib

namespace Tellm

/-- `std::collections::BTreeMap`. -/
abbrev BTreeMap (κ ν : Type) [Ord κ] := Std.ExtTreeMap κ ν compare

/-- `std::collections::BTreeSet`. -/
abbrev BTreeSet (κ : Type) [Ord κ] := Std.ExtTreeSet κ compare

/-- Which wire format a configured model speaks. -/
inductive WireFormat
  | anthropic
  | responses
  | compat
  | gemini
  deriving DecidableEq

/-- Unified reasoning depth. -/
inductive ThinkingLevel
  | off
  | low
  | medium
  | high
  | max
  deriving DecidableEq

instance : Inhabited ThinkingLevel := ⟨.medium⟩

/-- One configured model. -/
structure ModelConfig where
  wireFormat : WireFormat
  modelName : String
  baseUrl : Option String := none
  allowInsecureHttp : Bool := false
  apiKeySecret : Option String := none
  telegramChatIds : List Int := []
  thinking : ThinkingLevel := default
  deriving DecidableEq

/-- `TelegramConfig`: the allowlist and the owners. -/
structure TelegramConfig where
  allowedChatIds : List Int := []
  ownerUserIds : List Int := []
  deriving DecidableEq

/-- `Config`: what config.toml holds. -/
structure Config where
  defaultModel : String
  models : BTreeMap String ModelConfig
  telegram : TelegramConfig := {}
  deriving DecidableEq

namespace Config

/-- Some model's `telegram_chat_ids` lists the chat. -/
def Pinned (config : Config) (chatId : Int) : Prop :=
  ∃ (key : String) (model : ModelConfig), config.models[key]? = some model ∧
    chatId ∈ model.telegramChatIds

/-- The config allows the chat: by its allowlist or by a pin. -/
def Allows (config : Config) (chatId : Int) : Prop :=
  chatId ∈ config.telegram.allowedChatIds ∨ config.Pinned chatId

end Config

/-! ## Which model a chat uses -/

/-- `pinned_model_key`: the first model, in key order, that lists the chat. -/
def pinnedModelKey (config : Config) (chatId : Int) : Option String :=
  (config.models.toList.find? fun e => e.2.telegramChatIds.contains chatId).map (·.1)

theorem pinnedModelKey_eq_none {config : Config} {chatId : Int} :
    pinnedModelKey config chatId = none ↔ ¬ config.Pinned chatId := by
  simp only [pinnedModelKey, Option.map_eq_none_iff, List.find?_eq_none, List.contains_iff_mem]
  constructor
  · rintro h ⟨key, model, hk, hc⟩
    exact h (key, model) (Std.ExtTreeMap.mem_toList_iff_getElem?_eq_some.mpr hk) hc
  · intro h e he hc
    exact h ⟨e.1, e.2, Std.ExtTreeMap.mem_toList_iff_getElem?_eq_some.mp he, hc⟩

instance (config : Config) (chatId : Int) : Decidable (config.Allows chatId) :=
  decidable_of_iff
    (chatId ∈ config.telegram.allowedChatIds ∨ ¬ pinnedModelKey config chatId = none)
    (or_congr Iff.rfl (not_iff_comm.mp pinnedModelKey_eq_none.symm))

/-! ## The edits -/

/-- `allow_chat_in_config`: the config after, and whether it changed. -/
def allowChatInConfig (config : Config) (chatId : Int) : Config × Bool :=
  if chatId ∈ config.telegram.allowedChatIds then (config, false)
  else ({ config with telegram := { config.telegram with
    allowedChatIds := config.telegram.allowedChatIds ++ [chatId] } }, true)

/-- `model.telegram_chat_ids.retain(|pinned| *pinned != chat_id)` on one model. -/
def ModelConfig.release (model : ModelConfig) (chatId : Int) : ModelConfig :=
  { model with telegramChatIds := model.telegramChatIds.filter (· != chatId) }

/-- The loop `for model in config.models.values_mut()` around it. -/
def Config.releasePins (config : Config) (chatId : Int) : Config :=
  { config with models := config.models.map fun _ model => model.release chatId }

/-- The keys of the models whose pin list that loop shortens, in key order. -/
def Config.releasedKeys (config : Config) (chatId : Int) : List String :=
  (config.models.toList.filter fun e =>
    (e.2.release chatId).telegramChatIds.length != e.2.telegramChatIds.length).map (·.1)

/-- `DenyChatConfigResult`: what a deny has taken out of the config. -/
structure DenyChatConfigResult where
  allowedRemoved : Bool
  removedModelPins : List String
  deriving DecidableEq

/-- There is something to save. -/
def DenyChatConfigResult.changed (result : DenyChatConfigResult) : Bool :=
  result.allowedRemoved || !result.removedModelPins.isEmpty

/-- `deny_chat_in_config`: off the allowlist and off every pin list. -/
def denyChatInConfig (config : Config) (chatId : Int) : Config × DenyChatConfigResult :=
  let beforeAllowed := config.telegram.allowedChatIds.length
  let allowed := config.telegram.allowedChatIds.filter (· != chatId)
  ({ config.releasePins chatId with
      telegram := { config.telegram with allowedChatIds := allowed } },
    ⟨allowed.length != beforeAllowed, config.releasedKeys chatId⟩)

/-- The edit of `/model pin`: off every pin list, then onto `model_key`'s. -/
def pinModelInConfig (config : Config) (modelKey : String) (chatId : Int) : Config :=
  let released := config.releasePins chatId
  { released with models := released.models.modify modelKey fun model =>
      { model with telegramChatIds := model.telegramChatIds ++ [chatId] } }

/-- The edit of `/model unpin`, and `was_pinned`.  A chat allowed only by its pin goes onto the
    allowlist. -/
def unpinModelInConfig (config : Config) (chatId : Int) : Config × Bool :=
  let wasPinned := !(config.releasedKeys chatId).isEmpty
  let released := config.releasePins chatId
  if wasPinned && !config.telegram.allowedChatIds.contains chatId then
    ({ released with telegram := { released.telegram with
      allowedChatIds := released.telegram.allowedChatIds ++ [chatId] } }, wasPinned)
  else (released, wasPinned)

/-- `PairedChatResult`: what a pairing has put into the config. -/
structure PairedChatResult where
  changed : Bool
  becameOwner : Bool
  deriving DecidableEq

/-- The edit of `persist_paired_chat`: onto the allowlist, and the pairing user becomes an owner. -/
def pairChatInConfig (config : Config) (chatId : Int) (pairerUserId : Option Int) :
    Config × PairedChatResult :=
  let (config, changed) := allowChatInConfig config chatId
  match pairerUserId with
  | none => (config, ⟨changed, false⟩)
  | some userId =>
    if userId ∈ config.telegram.ownerUserIds then (config, ⟨changed, false⟩)
    else ({ config with telegram := { config.telegram with
      ownerUserIds := config.telegram.ownerUserIds ++ [userId] } }, ⟨true, true⟩)

/-! ## What the edits do -/

theorem ModelConfig.mem_release {model : ModelConfig} {chatId d : Int} :
    d ∈ (model.release chatId).telegramChatIds ↔ d ∈ model.telegramChatIds ∧ d ≠ chatId := by
  simp [ModelConfig.release, List.mem_filter]

/-- `retain` that keeps the length has removed nothing. -/
theorem filter_ne_length {l : List Int} {a : Int} :
    (l.filter (· != a)).length = l.length ↔ a ∉ l := by
  rw [List.length_filter_eq_length_iff]
  constructor
  · intro h ha
    simpa using h a ha
  · intro ha b hb
    simpa using fun hba : b = a => ha (hba ▸ hb)

theorem filter_ne_of_not_mem {l : List Int} {a : Int} (h : a ∉ l) : l.filter (· != a) = l :=
  List.filter_eq_self.mpr fun b hb => by simpa using fun hba : b = a => h (hba ▸ hb)

theorem Config.pinned_releasePins {config : Config} {chatId d : Int} :
    (config.releasePins chatId).Pinned d ↔ config.Pinned d ∧ d ≠ chatId := by
  simp only [Config.Pinned, Config.releasePins, Std.ExtTreeMap.getElem?_map,
    Option.map_eq_some_iff]
  constructor
  · rintro ⟨key, _, ⟨model, hk, rfl⟩, hd⟩
    obtain ⟨hd, hne⟩ := ModelConfig.mem_release.mp hd
    exact ⟨⟨key, model, hk, hd⟩, hne⟩
  · rintro ⟨⟨key, model, hk, hd⟩, hne⟩
    exact ⟨key, model.release chatId, ⟨model, hk, rfl⟩, ModelConfig.mem_release.mpr ⟨hd, hne⟩⟩

/-- Some pin list is shortened exactly when the chat is pinned. -/
theorem Config.releasedKeys_eq_nil {config : Config} {chatId : Int} :
    config.releasedKeys chatId = [] ↔ ¬ config.Pinned chatId := by
  have hone : ∀ e ∈ config.models.toList, ((e.2.release chatId).telegramChatIds.length !=
      e.2.telegramChatIds.length) = true ↔ chatId ∈ e.2.telegramChatIds := by
    intro e _
    rw [bne_iff_ne, ne_eq, ModelConfig.release, filter_ne_length, not_not]
  simp only [Config.releasedKeys, List.map_eq_nil_iff, List.filter_eq_nil_iff]
  constructor
  · rintro h ⟨key, model, hk, hc⟩
    have he : (key, model) ∈ config.models.toList :=
      Std.ExtTreeMap.mem_toList_iff_getElem?_eq_some.mpr hk
    exact h _ he ((hone _ he).mpr hc)
  · intro h e he hlen
    exact h ⟨e.1, e.2, Std.ExtTreeMap.mem_toList_iff_getElem?_eq_some.mp he, (hone e he).mp hlen⟩

/-- Releasing a chat that no model pins changes nothing. -/
theorem Config.releasePins_eq_self {config : Config} {chatId : Int} (h : ¬ config.Pinned chatId) :
    config.releasePins chatId = config := by
  have hmodels : (config.models.map fun _ model => model.release chatId) = config.models := by
    refine Std.ExtTreeMap.ext_getElem? fun key => ?_
    rw [Std.ExtTreeMap.getElem?_map]
    cases hk : config.models[key]? with
    | none => rfl
    | some model =>
      have hc : chatId ∉ model.telegramChatIds := fun hc => h ⟨key, model, hk, hc⟩
      rw [Option.map_some, ModelConfig.release, filter_ne_of_not_mem hc]
  rw [Config.releasePins, hmodels]

theorem allows_allowChat (config : Config) (chatId d : Int) :
    (allowChatInConfig config chatId).1.Allows d ↔ config.Allows d ∨ d = chatId := by
  unfold allowChatInConfig
  split
  · rename_i h
    refine ⟨Or.inl, ?_⟩
    rintro (hd | rfl)
    · exact hd
    · exact Or.inl h
  · simp only [Config.Allows, Config.Pinned, List.mem_append, List.mem_singleton]
    exact or_right_comm

/-- Nothing changed means nothing was edited. -/
theorem allowChat_unchanged {config : Config} {chatId : Int}
    (h : (allowChatInConfig config chatId).2 = false) :
    (allowChatInConfig config chatId).1 = config ∧ config.Allows chatId := by
  unfold allowChatInConfig at h ⊢
  split at h
  · rename_i hm
    rw [if_pos hm]
    exact ⟨rfl, Or.inl hm⟩
  · cases h

@[simp] theorem ownerUserIds_allowChat (config : Config) (chatId : Int) :
    (allowChatInConfig config chatId).1.telegram.ownerUserIds = config.telegram.ownerUserIds := by
  unfold allowChatInConfig
  split <;> rfl

theorem allows_denyChat (config : Config) (chatId d : Int) :
    (denyChatInConfig config chatId).1.Allows d ↔ config.Allows d ∧ d ≠ chatId := by
  have hpin : (denyChatInConfig config chatId).1.Pinned d ↔ config.Pinned d ∧ d ≠ chatId :=
    Config.pinned_releasePins
  have hmem : d ∈ (denyChatInConfig config chatId).1.telegram.allowedChatIds ↔
      d ∈ config.telegram.allowedChatIds ∧ d ≠ chatId := by
    simp [denyChatInConfig, List.mem_filter]
  rw [Config.Allows, Config.Allows, hpin, hmem]
  tauto

/-- A deny changes the config exactly when the config allowed the chat. -/
theorem changed_denyChat (config : Config) (chatId : Int) :
    (denyChatInConfig config chatId).2.changed = true ↔ config.Allows chatId := by
  have hpins : (!(config.releasedKeys chatId).isEmpty) = true ↔ config.Pinned chatId := by
    rw [Bool.not_eq_true', List.isEmpty_eq_false_iff, ne_eq, Config.releasedKeys_eq_nil, not_not]
  have hlist : ((config.telegram.allowedChatIds.filter (· != chatId)).length !=
      config.telegram.allowedChatIds.length) = true ↔ chatId ∈ config.telegram.allowedChatIds := by
    rw [bne_iff_ne, ne_eq, filter_ne_length, not_not]
  simp only [denyChatInConfig, DenyChatConfigResult.changed, Bool.or_eq_true, hpins, hlist,
    Config.Allows]

theorem denyChat_unchanged {config : Config} {chatId : Int}
    (h : (denyChatInConfig config chatId).2.changed = false) :
    (denyChatInConfig config chatId).1 = config := by
  have hno : ¬ config.Allows chatId := by
    rw [← changed_denyChat, h]
    exact Bool.false_ne_true
  have hpin : ¬ config.Pinned chatId := fun hp => hno (Or.inr hp)
  have hmem : chatId ∉ config.telegram.allowedChatIds := fun hm => hno (Or.inl hm)
  simp only [denyChatInConfig, Config.releasePins_eq_self hpin, filter_ne_of_not_mem hmem]

@[simp] theorem ownerUserIds_denyChat (config : Config) (chatId : Int) :
    (denyChatInConfig config chatId).1.telegram.ownerUserIds = config.telegram.ownerUserIds := rfl

/-- Pinning to a configured model moves the chat's pin and touches nobody else's. -/
theorem allows_pinModel {config : Config} {modelKey : String} (hkey : modelKey ∈ config.models)
    (chatId d : Int) :
    (pinModelInConfig config modelKey chatId).Allows d ↔ config.Allows d ∨ d = chatId := by
  -- what the edit leaves at each key
  have hget : ∀ key : String, (pinModelInConfig config modelKey chatId).models[key]? =
      if modelKey = key then (config.models[modelKey]?).map fun m =>
        { m.release chatId with telegramChatIds := (m.release chatId).telegramChatIds ++ [chatId] }
      else (config.models[key]?).map fun m => m.release chatId := by
    intro key
    simp only [pinModelInConfig, Config.releasePins, Std.ExtTreeMap.getElem?_modify,
      Std.ExtTreeMap.getElem?_map, compare_eq_iff_eq, Option.map_map]
    rfl
  have hpin : (pinModelInConfig config modelKey chatId).Pinned d ↔
      (config.Pinned d ∧ d ≠ chatId) ∨ d = chatId := by
    simp only [Config.Pinned, hget]
    constructor
    · rintro ⟨key, _, hk, hd⟩
      split at hk
      · obtain ⟨m, hm, rfl⟩ := Option.map_eq_some_iff.mp hk
        rcases List.mem_append.mp hd with hd | hd
        · obtain ⟨hd, hne⟩ := ModelConfig.mem_release.mp hd
          exact Or.inl ⟨⟨modelKey, m, hm, hd⟩, hne⟩
        · exact Or.inr (List.mem_singleton.mp hd)
      · obtain ⟨m, hm, rfl⟩ := Option.map_eq_some_iff.mp hk
        obtain ⟨hd, hne⟩ := ModelConfig.mem_release.mp hd
        exact Or.inl ⟨⟨key, m, hm, hd⟩, hne⟩
    · rintro (⟨⟨key, m, hm, hd⟩, hne⟩ | rfl)
      · by_cases hkk : modelKey = key
        · subst hkk
          refine ⟨modelKey, _, by rw [if_pos rfl, hm]; rfl, ?_⟩
          exact List.mem_append_left _ (ModelConfig.mem_release.mpr ⟨hd, hne⟩)
        · refine ⟨key, _, by rw [if_neg hkk, hm]; rfl, ?_⟩
          exact ModelConfig.mem_release.mpr ⟨hd, hne⟩
      · obtain ⟨m, hm⟩ := Option.isSome_iff_exists.mp (Std.ExtTreeMap.mem_iff_isSome_getElem?.mp hkey)
        refine ⟨modelKey, _, by rw [if_pos rfl, hm]; rfl, ?_⟩
        exact List.mem_append_right _ (List.mem_singleton_self _)
  have hmem : (pinModelInConfig config modelKey chatId).telegram = config.telegram := rfl
  rw [Config.Allows, Config.Allows, hpin, hmem]
  tauto

/-- Unpinning changes nobody's access, and changes nothing at all when there was no pin. -/
theorem allows_unpinModel (config : Config) (chatId d : Int) :
    (unpinModelInConfig config chatId).1.Allows d ↔ config.Allows d := by
  by_cases hp : config.Pinned chatId
  · have hwas : (!(config.releasedKeys chatId).isEmpty) = true := by
      rw [Bool.not_eq_true', List.isEmpty_eq_false_iff, ne_eq, Config.releasedKeys_eq_nil, not_not]
      exact hp
    have hrel : (config.releasePins chatId).Pinned d ↔ config.Pinned d ∧ d ≠ chatId :=
      Config.pinned_releasePins
    have hsame : d = chatId → config.Pinned d := by rintro rfl; exact hp
    -- an allowed chat keeps its access, another one is put on the list
    by_cases hm : chatId ∈ config.telegram.allowedChatIds
    · have hedit : (unpinModelInConfig config chatId).1 = config.releasePins chatId := by
        simp [unpinModelInConfig, hm]
      have htel : (config.releasePins chatId).telegram = config.telegram := rfl
      have hlist : d = chatId → d ∈ config.telegram.allowedChatIds := by rintro rfl; exact hm
      rw [hedit, Config.Allows, Config.Allows, hrel, htel]
      tauto
    · have hedit : (unpinModelInConfig config chatId).1 = { config.releasePins chatId with
          telegram := { config.telegram with
            allowedChatIds := config.telegram.allowedChatIds ++ [chatId] } } := by
        simp only [unpinModelInConfig, hwas, Bool.true_and, List.contains_eq_mem, hm, decide_false,
          Bool.not_false, if_true]
        rfl
      have hpin : (unpinModelInConfig config chatId).1.Pinned d ↔ config.Pinned d ∧ d ≠ chatId := by
        rw [hedit]
        exact hrel
      rw [Config.Allows, hpin, hedit, Config.Allows]
      simp only [List.mem_append, List.mem_singleton]
      tauto
  · have hwas : (!(config.releasedKeys chatId).isEmpty) = false := by
      rw [Config.releasedKeys_eq_nil.mpr hp]
      rfl
    rw [unpinModelInConfig, hwas, Config.releasePins_eq_self hp]
    rfl

theorem unpinModel_unchanged {config : Config} {chatId : Int}
    (h : (unpinModelInConfig config chatId).2 = false) :
    (unpinModelInConfig config chatId).1 = config := by
  have hwas : (!(config.releasedKeys chatId).isEmpty) = false := by
    unfold unpinModelInConfig at h
    dsimp only at h
    split at h <;> exact h
  have hp : ¬ config.Pinned chatId := by
    rw [← Config.releasedKeys_eq_nil, ← List.isEmpty_iff]
    simpa using hwas
  rw [unpinModelInConfig, hwas, Config.releasePins_eq_self hp]
  rfl

@[simp] theorem ownerUserIds_unpinModel (config : Config) (chatId : Int) :
    (unpinModelInConfig config chatId).1.telegram.ownerUserIds = config.telegram.ownerUserIds := by
  unfold unpinModelInConfig
  dsimp only
  split <;> rfl

/-- A configured key in place of an absent one adds a model that pins nobody. -/
theorem allows_insert {config : Config} {key : String} {model : ModelConfig}
    (hkey : key ∉ config.models) (hpins : model.telegramChatIds = []) (d : Int) :
    ({ config with models := config.models.insert key model } : Config).Allows d ↔
      config.Allows d := by
  have hnone : config.models[key]? = none := Std.ExtTreeMap.getElem?_eq_none hkey
  have hpin : ({ config with models := config.models.insert key model } : Config).Pinned d ↔
      config.Pinned d := by
    simp only [Config.Pinned, Std.ExtTreeMap.getElem?_insert, compare_eq_iff_eq]
    constructor
    · rintro ⟨k, m, hk, hd⟩
      split at hk
      · cases hk
        rw [hpins] at hd
        exact absurd hd List.not_mem_nil
      · exact ⟨k, m, hk, hd⟩
    · rintro ⟨k, m, hk, hd⟩
      refine ⟨k, m, ?_, hd⟩
      rw [if_neg]
      · exact hk
      · rintro rfl
        rw [hnone] at hk
        cases hk
  rw [Config.Allows, Config.Allows, hpin]

theorem allows_pairChat (config : Config) (chatId : Int) (pairerUserId : Option Int) (d : Int) :
    (pairChatInConfig config chatId pairerUserId).1.Allows d ↔ config.Allows d ∨ d = chatId := by
  rw [← allows_allowChat]
  unfold pairChatInConfig
  cases pairerUserId with
  | none => exact Iff.rfl
  | some userId =>
    dsimp only
    split <;> exact Iff.rfl

/-- A pairing that changes nothing found the chat on the allowlist and its user among the owners. -/
theorem pairChat_unchanged {config : Config} {chatId : Int} {pairerUserId : Option Int}
    (h : (pairChatInConfig config chatId pairerUserId).2.changed = false) :
    (pairChatInConfig config chatId pairerUserId).1 = config ∧ config.Allows chatId := by
  unfold pairChatInConfig at h ⊢
  cases pairerUserId with
  | none => exact allowChat_unchanged h
  | some userId =>
    dsimp only at h ⊢
    split at h
    · rename_i ho
      rw [if_pos ho]
      exact allowChat_unchanged h
    · cases h

/-- The pairing user becomes an owner in the config exactly when it was not one. -/
theorem ownerUserIds_pairChat (config : Config) (chatId : Int) (pairerUserId : Option Int) :
    (pairChatInConfig config chatId pairerUserId).1.telegram.ownerUserIds =
      config.telegram.ownerUserIds ++
        if (pairChatInConfig config chatId pairerUserId).2.becameOwner then pairerUserId.toList
        else [] := by
  unfold pairChatInConfig
  cases pairerUserId with
  | none => simp
  | some userId =>
    dsimp only
    split <;> simp

end Tellm
