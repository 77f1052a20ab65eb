/-
  THE HANDLERS that change who may use the bot: `runtime.rs`, each run from start to end.

  Two copies of the allowlist exist: the config (in memory and in `config.toml`), and the live access
  control.  Seven operations keep them together, each by hand: what is edited first, and what is undone
  when the save fails, differs from one to the next.

  1. **`editConfig`**: the config transaction they all contain.  Edit a copy, save it if it changed, put
     the old config back if the save failed.
  2. **The handlers**, under the source's names and in its order.  Each takes the outcome of its
     `save_config`.  Replies, logs, workers and rooms are left out here; a handler's `Err` is kept.
  3. **`InSync`**: live access is the config's, and the config is the file's.  Each handler keeps it, and
     with a failing save changes nothing of it (`keeps_*`).

  The order of steps inside a handler is the source's, also where it matters: `handle_deny_chat` revokes
  first and restores when the save fails; `handle_allow_chat` saves first and grants afterwards; a pairing
  is granted by the gate itself, before anything is saved, and revoked when the save fails.  The owner of
  an unowned bot is added to both copies, or to neither.

  `Keeps` states what one handler owes, for a save of either outcome: with a save that succeeds the two
  copies and the file agree afterwards; with one that fails, config, file and the live sets are what they
  were.  The lemmas `keeps_*` establish it handler by handler, each from the one lemma about its edit in
  `Tellm.Config` and from `editConfig_cases`.  They are what `Tellm.Restart` composes.

  Seven handlers change access or the pins: allow, deny, pair, a membership change, pin, unpin, and the
  addition of a model.
-/
import Tellm.Access

namespace Tellm

/-- The part of the shared handles that the operations below touch, and `config.toml`. -/
structure RuntimeHandles where
  config : Config
  configFile : Config
  access : AccessControl

/-- `Result<T, String>`. -/
abbrev Result (α : Type) := Except String α

/-! ## Presets -/

/-- `ProviderPreset`: a model that can be added by its key alone. -/
structure ProviderPreset where
  key : String
  label : String
  wireFormat : WireFormat
  modelName : String
  baseUrl : Option String
  apiKeySecret : String

/-- `PROVIDER_PRESETS`. -/
def providerPresets : List ProviderPreset :=
  [⟨"anthropic", "Anthropic Claude Opus 5", .anthropic, "claude-opus-5", none, "anthropic_api_key"⟩,
    ⟨"openai", "OpenAI GPT-5.6 Sol", .responses, "gpt-5.6-sol", none, "openai_api_key"⟩,
    ⟨"xai", "xAI Grok 4.5", .responses, "grok-4.5", some "https://api.x.ai/v1", "xai_api_key"⟩,
    ⟨"meta", "Meta Muse Spark 1.1", .responses, "muse-spark-1.1", some "https://api.meta.ai/v1",
      "meta_model_api_key"⟩,
    ⟨"gemini", "Google Gemini 3.6 Flash", .gemini, "gemini-3.6-flash", none, "gemini_api_key"⟩]

/-- `str::eq_ignore_ascii_case`. -/
def eqIgnoreAsciiCase (left right : String) : Bool := left.toLower == right.toLower

/-- `preset_by_key`, in any case. -/
def presetByKey (key : String) : Option ProviderPreset :=
  providerPresets.find? fun preset => eqIgnoreAsciiCase preset.key key

/-- `model_config_from_preset`: the preset's model, pinned to no chat. -/
def modelConfigFromPreset (preset : ProviderPreset) : ModelConfig where
  wireFormat := preset.wireFormat
  modelName := preset.modelName
  baseUrl := preset.baseUrl
  allowInsecureHttp := false
  apiKeySecret := some preset.apiKeySecret
  telegramChatIds := []
  thinking := default

/-- `configured_model_key`. -/
def configuredModelKey (config : Config) (requested : String) : Option String :=
  (config.models.toList.map (·.1)).find? fun key => eqIgnoreAsciiCase key requested

namespace RuntimeHandles

/-! ## The config transaction -/

/-- Under the config lock: `edited` is the config after the edit, `changed` whether it is saved, and
    `saved` the outcome of that save. -/
def editConfig (self : RuntimeHandles) (edited : Config) (changed : Bool) (saved : Result Unit) :
    RuntimeHandles × Result Unit :=
  if changed then
    match saved with
    | .ok () => ({ self with config := edited, configFile := edited }, .ok ())
    | .error error => (self, .error error)
  else ({ self with config := edited }, .ok ())

/-! ## The handlers -/

/-- `handle_allow_chat`: the edit of the config and, once that is saved, the live grant. -/
def handleAllowChat (self : RuntimeHandles) (targetChatId : Int) (saved : Result Unit) :
    RuntimeHandles × Result Unit :=
  let (edited, changed) := allowChatInConfig self.config targetChatId
  match self.editConfig edited changed saved with
  | (self, .error error) =>
    (self, .error s!"failed to persist allowed chat {targetChatId}: {error}")
  | (self, .ok ()) => ({ self with access := self.access.allowChat targetChatId }, .ok ())

/-- Access is revoked before the save, and given back if the save fails. -/
def handleDenyChat (self : RuntimeHandles) (targetChatId : Int) (saved : Result Unit) :
    RuntimeHandles × Result Unit :=
  let (edited, result) := denyChatInConfig self.config targetChatId
  let wasAllowed := self.access.isChatAllowed targetChatId
  let self := { self with access := self.access.denyChat targetChatId }
  match self.editConfig edited result.changed saved with
  | (self, .error error) =>
    ({ self with access := if wasAllowed then self.access.allowChat targetChatId else self.access },
      .error s!"failed to persist denied chat {targetChatId}: {error}")
  | (self, .ok ()) => (self, .ok ())

/-- `persist_paired_chat`: whether the pairing user became an owner. -/
def persistPairedChat (self : RuntimeHandles) (chatId : Int) (pairerUserId : Option Int)
    (saved : Result Unit) : RuntimeHandles × Result Bool :=
  let (edited, result) := pairChatInConfig self.config chatId pairerUserId
  match self.editConfig edited result.changed saved with
  | (self, .error error) => (self, .error error)
  | (self, .ok ()) => (self, .ok result.becameOwner)

/-- `persist_provisional_pair`: the grant of a matching code is revoked when it cannot be saved. -/
def persistProvisionalPair (self : RuntimeHandles) (chatId : Int) (pairerUserId : Option Int)
    (saved : Result Unit) : RuntimeHandles × Result Bool :=
  match self.persistPairedChat chatId pairerUserId saved with
  | (self, .ok becameOwner) => (self, .ok becameOwner)
  | (self, .error error) =>
    ({ self with access := self.access.denyChat chatId },
      .error s!"pairing matched but could not be persisted; access was revoked: {error}")

/-- `apply to the live access set too`: the owner a pairing has recorded. -/
def addPairedOwner (self : RuntimeHandles) (pairerUserId : Option Int) (becameOwner : Bool) :
    RuntimeHandles :=
  match pairerUserId.filter fun _ => becameOwner with
  | some userId => { self with access := self.access.addOwner userId }
  | none => self

/-- `handle_pair_attempt`: the attempt, and where it pairs, the edit of the config; a save that fails takes
    the access back. -/
def handlePairAttempt (self : RuntimeHandles) (chatId : Int) (code : String)
    (pairerUserId : Option Int) (now : AccessTime) (saved : Result Unit) :
    RuntimeHandles × Result Unit :=
  let (access, attempt) := self.access.attemptPair chatId code now
  let self := { self with access := access }
  match attempt with
  | .paired =>
    match self.persistProvisionalPair chatId pairerUserId saved with
    | (self, .error error) => (self, .error error)
    | (self, .ok becameOwner) => (self.addPairedOwner pairerUserId becameOwner, .ok ())
  | _ => (self, .ok ())

/-- `handle_membership_change`, for the bot's being added to a chat: an owner's adding approves the
    chat, anybody else's arms it. -/
def handleMembershipChange (self : RuntimeHandles) (chatId : Int) (adder : Option Int)
    (now : AccessTime) (saved : Result Unit) : RuntimeHandles :=
  let trustedAdder := adder.any fun userId => self.config.telegram.ownerUserIds.contains userId
  if trustedAdder then
    let (edited, changed) := allowChatInConfig self.config chatId
    match self.editConfig edited changed saved with
    | (self, .error _) => self
    | (self, .ok ()) => { self with access := self.access.allowChat chatId }
  else { self with access := (self.access.armRoom chatId now).1 }

/-- `/model pin KEY` from the chat: routed (an unknown key is rejected), then executed. -/
def handlePinModel (self : RuntimeHandles) (chatId : Int) (modelKey : String) (saved : Result Unit) :
    RuntimeHandles × Result Unit :=
  if !self.access.isChatAllowed chatId then (self, .error "chat access was revoked")
  else if modelKey ∉ self.config.models then (self, .ok ())
  else
    match self.editConfig (pinModelInConfig self.config modelKey chatId) true saved with
    | (self, .error error) => (self, .error s!"failed to persist model pin: {error}")
    | (self, .ok ()) => (self, .ok ())

/-- `/model unpin`. -/
def handleUnpinModel (self : RuntimeHandles) (chatId : Int) (saved : Result Unit) :
    RuntimeHandles × Result Unit :=
  if !self.access.isChatAllowed chatId then (self, .error "chat access was revoked")
  else
    let (edited, wasPinned) := unpinModelInConfig self.config chatId
    match self.editConfig edited wasPinned saved with
    | (self, .error error) => (self, .error s!"failed to persist model unpin: {error}")
    | (self, .ok ()) => (self, .ok ())

/-- `/model add PRESET`.  A configured key, or an unknown one, goes to the dialogue about its secret,
    which leaves the config alone. -/
def handleAddModel (self : RuntimeHandles) (chatId : Int) (presetKey : String) (saved : Result Unit) :
    RuntimeHandles × Result Unit :=
  if !self.access.isChatAllowed chatId then (self, .error "chat access was revoked")
  else
    match configuredModelKey self.config presetKey with
    | some _ => (self, .ok ())
    | none =>
      match presetByKey presetKey with
      | none => (self, .ok ())
      | some preset =>
        if preset.key ∈ self.config.models then (self, .ok ())
        else
          let edited := { self.config with
            models := self.config.models.insert preset.key (modelConfigFromPreset preset) }
          match self.editConfig edited true saved with
          | (self, .error error) => (self, .error s!"failed to persist added model: {error}")
          | (self, .ok ()) => (self, .ok ())

/-! ## Live access is the config's -/

/-- Live access and config agree, and so do config and file. -/
structure InSync (handles : RuntimeHandles) : Prop where
  allowed : ∀ d, d ∈ handles.access.allowedChatIds ↔ handles.config.Allows d
  owners : ∀ u, u ∈ handles.access.ownerUserIds ↔ u ∈ handles.config.telegram.ownerUserIds
  saved : handles.config = handles.configFile

/-- Nothing that a restart would forget, and nothing that it would bring back, has changed. -/
structure Unchanged (before after : RuntimeHandles) : Prop where
  config : after.config = before.config
  configFile : after.configFile = before.configFile
  allowed : after.access.allowedChatIds = before.access.allowedChatIds
  owners : after.access.ownerUserIds = before.access.ownerUserIds

theorem Unchanged.refl (self : RuntimeHandles) : Unchanged self self := ⟨rfl, rfl, rfl, rfl⟩

variable {self after : RuntimeHandles}

/-- What changes neither the config nor the live sets keeps them in sync. -/
theorem Unchanged.inSync (h : Unchanged self after) (hs : InSync self) : InSync after := by
  refine ⟨?_, ?_, ?_⟩
  · intro d
    rw [h.allowed, h.config]
    exact hs.allowed d
  · intro u
    rw [h.owners, h.config]
    exact hs.owners u
  · rw [h.config, h.configFile]
    exact hs.saved

/-- Everything a config transaction can do, when an edit that changes nothing edits nothing. -/
theorem editConfig_cases (self : RuntimeHandles) {edited : Config} {changed : Bool}
    (hsame : changed = false → edited = self.config) (saved : Result Unit) :
    (∃ error, saved = .error error ∧ changed = true ∧
      self.editConfig edited changed saved = (self, .error error)) ∨
    (saved = .ok () ∧ changed = true ∧
      self.editConfig edited changed saved =
        ({ self with config := edited, configFile := edited }, .ok ())) ∨
    (changed = false ∧ edited = self.config ∧
      self.editConfig edited changed saved = (self, .ok ())) := by
  cases changed with
  | true =>
    cases saved with
    | ok u => exact Or.inr (Or.inl ⟨rfl, rfl, rfl⟩)
    | error error => exact Or.inl ⟨error, rfl, rfl, rfl⟩
  | false =>
    refine Or.inr (Or.inr ⟨rfl, hsame rfl, ?_⟩)
    rw [hsame rfl]
    rfl

/-- What a handler owes: it keeps the sync, and with a failing save it changes nothing. -/
structure Keeps (before after : RuntimeHandles) (saved : Result Unit) : Prop where
  inSync : InSync after
  unchanged : ∀ error, saved = .error error → Unchanged before after

/-- Changing nothing is enough. -/
theorem keeps_of_unchanged {saved : Result Unit} (hs : InSync self) (h : Unchanged self after) :
    Keeps self after saved :=
  ⟨h.inSync hs, fun _ _ => h⟩

/-- A successful edit of the config, with the live sets following it. -/
theorem keeps_of_saved {edited : Config} {access : AccessControl}
    (hallowed : ∀ d, d ∈ access.allowedChatIds ↔ edited.Allows d)
    (howners : ∀ u, u ∈ access.ownerUserIds ↔ u ∈ edited.telegram.ownerUserIds) :
    Keeps self ⟨edited, edited, access⟩ (.ok ()) :=
  ⟨⟨hallowed, howners, rfl⟩, fun _ h => (by cases h)⟩

/-- Allowing a chat that is allowed, or denying one that is not, changes no live set. -/
theorem allowedChatIds_allowChat_of_mem {access : AccessControl} {chatId : Int}
    (h : chatId ∈ access.allowedChatIds) :
    (access.allowChat chatId).allowedChatIds = access.allowedChatIds := by
  refine Std.ExtTreeSet.ext_mem fun d => ?_
  rw [AccessControl.mem_allowChat]
  refine ⟨?_, Or.inr⟩
  rintro (rfl | hd)
  · exact h
  · exact hd

theorem allowedChatIds_denyChat_of_not_mem {access : AccessControl} {chatId : Int}
    (h : chatId ∉ access.allowedChatIds) :
    (access.denyChat chatId).allowedChatIds = access.allowedChatIds := by
  refine Std.ExtTreeSet.ext_mem fun d => ?_
  rw [AccessControl.mem_denyChat]
  refine ⟨And.right, fun hd => ⟨?_, hd⟩⟩
  rintro rfl
  exact h hd

/-- Denying and allowing again gives the live set back. -/
theorem allowedChatIds_allowChat_denyChat {access : AccessControl} {chatId : Int}
    (h : chatId ∈ access.allowedChatIds) :
    ((access.denyChat chatId).allowChat chatId).allowedChatIds = access.allowedChatIds := by
  refine Std.ExtTreeSet.ext_mem fun d => ?_
  rw [AccessControl.mem_allowChat, AccessControl.mem_denyChat]
  constructor
  · rintro (rfl | ⟨-, hd⟩)
    · exact h
    · exact hd
  · intro hd
    by_cases hcd : chatId = d
    · exact Or.inl hcd
    · exact Or.inr ⟨hcd, hd⟩

/-- Both handlers that approve a chat: the config first, the live set after. -/
theorem keeps_allow (hs : InSync self) (chatId : Int) (saved : Result Unit) :
    (∃ error, saved = .error error ∧ self.editConfig (allowChatInConfig self.config chatId).1
        (allowChatInConfig self.config chatId).2 saved = (self, .error error)) ∨
    (∃ edited, self.editConfig (allowChatInConfig self.config chatId).1
        (allowChatInConfig self.config chatId).2 saved = (edited, .ok ()) ∧
      Keeps self { edited with access := edited.access.allowChat chatId } saved) := by
  rcases self.editConfig_cases (fun h => (allowChat_unchanged h).1) saved with
    ⟨error, hsave, -, he⟩ | ⟨rfl, -, he⟩ | ⟨hchanged, -, he⟩
  · exact Or.inl ⟨error, hsave, he⟩
  · refine Or.inr ⟨_, he, keeps_of_saved (fun d => ?_) (fun u => ?_)⟩
    · rw [AccessControl.mem_allowChat, allows_allowChat, hs.allowed, or_comm, eq_comm]
    · rw [ownerUserIds_allowChat]
      exact hs.owners u
  · refine Or.inr ⟨_, he, keeps_of_unchanged hs ⟨rfl, rfl, ?_, rfl⟩⟩
    exact allowedChatIds_allowChat_of_mem ((hs.allowed chatId).mpr (allowChat_unchanged hchanged).2)

theorem keeps_handleAllowChat (hs : InSync self) (targetChatId : Int) (saved : Result Unit) :
    Keeps self (self.handleAllowChat targetChatId saved).1 saved := by
  unfold handleAllowChat
  rcases keeps_allow hs targetChatId saved with ⟨error, -, he⟩ | ⟨edited, he, hk⟩
  · simp only [he]
    exact keeps_of_unchanged hs (.refl self)
  · simp only [he]
    exact hk

theorem keeps_handleMembershipChange (hs : InSync self) (chatId : Int) (adder : Option Int)
    (now : AccessTime) (saved : Result Unit) :
    Keeps self (self.handleMembershipChange chatId adder now saved) saved := by
  unfold handleMembershipChange
  dsimp only
  split
  · rcases keeps_allow hs chatId saved with ⟨error, -, he⟩ | ⟨edited, he, hk⟩
    · simp only [he]
      exact keeps_of_unchanged hs (.refl self)
    · simp only [he]
      exact hk
  · obtain ⟨ha, ho, -⟩ := AccessControl.armRoom_frame self.access chatId now
    exact keeps_of_unchanged hs ⟨rfl, rfl, ha, ho⟩

theorem keeps_handleDenyChat (hs : InSync self) (targetChatId : Int) (saved : Result Unit) :
    Keeps self (self.handleDenyChat targetChatId saved).1 saved := by
  have hsame : (denyChatInConfig self.config targetChatId).2.changed = false →
      (denyChatInConfig self.config targetChatId).1 = self.config := denyChat_unchanged
  unfold handleDenyChat
  rcases ({ self with access := self.access.denyChat targetChatId } :
      RuntimeHandles).editConfig_cases hsame saved with
    ⟨error, rfl, hchanged, he⟩ | ⟨rfl, -, he⟩ | ⟨hchanged, -, he⟩
  · -- the save failed: the chat was allowed, and is again
    have hallowed : targetChatId ∈ self.access.allowedChatIds :=
      (hs.allowed targetChatId).mpr ((changed_denyChat _ _).mp hchanged)
    have hwas : self.access.isChatAllowed targetChatId = true :=
      Std.ExtTreeSet.mem_iff_contains.mp hallowed
    simp only [he, hwas, if_true]
    exact keeps_of_unchanged hs ⟨rfl, rfl, allowedChatIds_allowChat_denyChat hallowed, rfl⟩
  · simp only [he]
    refine keeps_of_saved (fun d => ?_) (fun u => ?_)
    · rw [AccessControl.mem_denyChat, allows_denyChat, hs.allowed, and_comm, ne_comm]
    · rw [ownerUserIds_denyChat]
      exact hs.owners u
  · -- the config did not allow the chat, so neither did the live set
    have hnot : targetChatId ∉ self.access.allowedChatIds := by
      rw [hs.allowed, ← changed_denyChat, hchanged]
      exact Bool.false_ne_true
    simp only [he]
    exact keeps_of_unchanged hs ⟨rfl, rfl, allowedChatIds_denyChat_of_not_mem hnot, rfl⟩

/-- Adding the paired owner changes the live owners only, and as the edit changes the config's. -/
theorem addPairedOwner_spec (handles : RuntimeHandles) (config : Config) (chatId : Int)
    (pairerUserId : Option Int)
    (h : ∀ u, u ∈ handles.access.ownerUserIds ↔ u ∈ config.telegram.ownerUserIds) :
    let result := pairChatInConfig config chatId pairerUserId
    ∃ access, handles.addPairedOwner pairerUserId result.2.becameOwner = { handles with access := access } ∧
      access.allowedChatIds = handles.access.allowedChatIds ∧
      ∀ u, u ∈ access.ownerUserIds ↔ u ∈ result.1.telegram.ownerUserIds := by
  intro result
  have howners := ownerUserIds_pairChat config chatId pairerUserId
  unfold addPairedOwner
  cases pairerUserId with
  | none =>
    refine ⟨handles.access, rfl, rfl, ?_⟩
    intro u
    rw [howners, h]
    simp
  | some userId =>
    cases hb : result.2.becameOwner with
    | false =>
      refine ⟨handles.access, rfl, rfl, ?_⟩
      intro u
      rw [howners, hb, h]
      simp
    | true =>
      refine ⟨handles.access.addOwner userId, rfl, rfl, ?_⟩
      intro u
      rw [howners, hb, AccessControl.mem_addOwner, h]
      simp [or_comm, eq_comm]

/-- A matched pairing, saved or revoked: `access` is the live access with the chat's grant. -/
theorem keeps_paired (hs : InSync self) {access : AccessControl} {chatId : Int}
    (hnot : chatId ∉ self.access.allowedChatIds)
    (hmem : ∀ d, d ∈ access.allowedChatIds ↔ chatId = d ∨ d ∈ self.access.allowedChatIds)
    (howners : access.ownerUserIds = self.access.ownerUserIds) (pairerUserId : Option Int)
    (saved : Result Unit) :
    (∃ after error, ({ self with access := access } : RuntimeHandles).persistProvisionalPair chatId
        pairerUserId saved = (after, .error error) ∧ Keeps self after saved) ∨
    (∃ after becameOwner, ({ self with access := access } : RuntimeHandles).persistProvisionalPair chatId
        pairerUserId saved = (after, .ok becameOwner) ∧
      Keeps self (after.addPairedOwner pairerUserId becameOwner) saved) := by
  have hnotAllowed : ¬ self.config.Allows chatId := fun h => hnot ((hs.allowed chatId).mpr h)
  have hsame : (pairChatInConfig self.config chatId pairerUserId).2.changed = false →
      (pairChatInConfig self.config chatId pairerUserId).1 = self.config :=
    fun h => (pairChat_unchanged h).1
  rcases ({ self with access := access } : RuntimeHandles).editConfig_cases hsame saved with
    ⟨error, rfl, -, he⟩ | ⟨rfl, -, he⟩ | ⟨hchanged, -, -⟩
  · -- revoked: the chat was not allowed before, and is not now
    left
    simp only [persistProvisionalPair, persistPairedChat, he]
    refine ⟨_, _, rfl, keeps_of_unchanged hs ⟨rfl, rfl, Std.ExtTreeSet.ext_mem fun d => ?_, howners⟩⟩
    rw [AccessControl.mem_denyChat, hmem d]
    constructor
    · rintro ⟨hne, rfl | hd⟩
      · exact absurd rfl hne
      · exact hd
    · intro hd
      refine ⟨?_, Or.inr hd⟩
      rintro rfl
      exact hnot hd
  · right
    simp only [persistProvisionalPair, persistPairedChat, he]
    refine ⟨_, _, rfl, ?_⟩
    obtain ⟨access', haccess, hallowed, howners'⟩ := addPairedOwner_spec
      ⟨(pairChatInConfig self.config chatId pairerUserId).1,
        (pairChatInConfig self.config chatId pairerUserId).1, access⟩ self.config chatId pairerUserId
      (fun u => by rw [howners]; exact hs.owners u)
    rw [haccess]
    -- saved: memory has the chat by the match, the config by the edit
    refine keeps_of_saved (fun d => ?_) howners'
    rw [hallowed, allows_pairChat, hmem d, hs.allowed, or_comm, eq_comm]
  · -- a pairing of a chat that the config does not allow changes the config
    exact absurd (pairChat_unchanged hchanged).2 hnotAllowed

theorem keeps_handlePairAttempt (hs : InSync self) (chatId : Int) (code : String)
    (pairerUserId : Option Int) (now : AccessTime) (saved : Result Unit) :
    Keeps self (self.handlePairAttempt chatId code pairerUserId now saved).1 saved := by
  obtain ⟨howners, hmem, hnot⟩ := AccessControl.attemptPair_live self.access chatId code now
  unfold handlePairAttempt
  by_cases hp : (self.access.attemptPair chatId code now).2 = .paired
  · have hmem' : ∀ d, d ∈ (self.access.attemptPair chatId code now).1.allowedChatIds ↔
        chatId = d ∨ d ∈ self.access.allowedChatIds := by
      intro d
      rw [hmem d, and_iff_left hp]
    simp only [hp]
    rcases keeps_paired hs (hnot hp) hmem' howners pairerUserId saved with
      ⟨after, error, he, hk⟩ | ⟨after, becameOwner, he, hk⟩
    · simp only [he]
      exact hk
    · simp only [he]
      exact hk
  · have hsame : Unchanged self
        { self with access := (self.access.attemptPair chatId code now).1 } := by
      refine ⟨rfl, rfl, Std.ExtTreeSet.ext_mem fun d => ?_, howners⟩
      rw [hmem d]
      exact ⟨fun h => h.resolve_left fun h' => hp h'.2, Or.inr⟩
    split
    rename_i access attempt heq
    rw [heq] at hsame hp
    split
    · exact absurd rfl hp
    · exact keeps_of_unchanged hs hsame

/-- The three commands on models: only a live-allowed chat's reaches the config. -/
theorem keeps_edit (hs : InSync self) (edited : Config) (changed : Bool) (saved : Result Unit)
    (hsame : changed = false → edited = self.config)
    (hallows : ∀ d, edited.Allows d ↔ self.config.Allows d)
    (howners : edited.telegram.ownerUserIds = self.config.telegram.ownerUserIds) :
    Keeps self (self.editConfig edited changed saved).1 saved := by
  rcases self.editConfig_cases hsame saved with ⟨error, -, -, he⟩ | ⟨rfl, -, he⟩ | ⟨-, -, he⟩
  · rw [he]
    exact keeps_of_unchanged hs (.refl self)
  · rw [he]
    refine keeps_of_saved (fun d => ?_) (fun u => ?_)
    · rw [hallows d]
      exact hs.allowed d
    · rw [howners]
      exact hs.owners u
  · rw [he]
    exact keeps_of_unchanged hs (.refl self)

theorem keeps_handlePinModel (hs : InSync self) (chatId : Int) (modelKey : String)
    (saved : Result Unit) : Keeps self (self.handlePinModel chatId modelKey saved).1 saved := by
  unfold handlePinModel
  split
  · exact keeps_of_unchanged hs (.refl self)
  · rename_i hchat
    split
    · exact keeps_of_unchanged hs (.refl self)
    · rename_i hkey
      rw [not_not] at hkey
      -- the chat that pins itself is allowed already
      have hallowed : self.config.Allows chatId := by
        rw [← hs.allowed, Std.ExtTreeSet.mem_iff_contains]
        simpa [AccessControl.isChatAllowed] using hchat
      have hallows : ∀ d, (pinModelInConfig self.config modelKey chatId).Allows d ↔
          self.config.Allows d := by
        intro d
        rw [allows_pinModel hkey]
        exact ⟨fun h => h.elim id fun hd => hd ▸ hallowed, Or.inl⟩
      have hk := keeps_edit hs (pinModelInConfig self.config modelKey chatId) true saved
        (fun h => by cases h) hallows rfl
      split <;> rename_i he <;> rw [he] at hk <;> exact hk

theorem keeps_handleUnpinModel (hs : InSync self) (chatId : Int) (saved : Result Unit) :
    Keeps self (self.handleUnpinModel chatId saved).1 saved := by
  unfold handleUnpinModel
  split
  · exact keeps_of_unchanged hs (.refl self)
  · have hk := keeps_edit hs (unpinModelInConfig self.config chatId).1
      (unpinModelInConfig self.config chatId).2 saved unpinModel_unchanged
      (allows_unpinModel self.config chatId) (ownerUserIds_unpinModel self.config chatId)
    dsimp only
    split <;> rename_i he <;> rw [he] at hk <;> exact hk

theorem keeps_handleAddModel (hs : InSync self) (chatId : Int) (presetKey : String)
    (saved : Result Unit) : Keeps self (self.handleAddModel chatId presetKey saved).1 saved := by
  unfold handleAddModel
  split
  · exact keeps_of_unchanged hs (.refl self)
  · split
    · exact keeps_of_unchanged hs (.refl self)
    · split
      · exact keeps_of_unchanged hs (.refl self)
      · rename_i preset _
        split
        · exact keeps_of_unchanged hs (.refl self)
        · rename_i hkey
          have hpins : (modelConfigFromPreset preset).telegramChatIds = [] := rfl
          have hk := keeps_edit hs _ true saved (fun h => by cases h) (allows_insert hkey hpins) rfl
          dsimp only
          split <;> rename_i he <;> rw [he] at hk <;> exact hk

end RuntimeHandles

end Tellm
