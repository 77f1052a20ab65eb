/-
  CAPABILITIES: the gate at the toggle and the backstop at the provider.

  `/websearch on` and `/imagegen on` look at the model's configuration, a request meets the provider's own
  check.  The two look at different strings: the gate at the base URL as it is configured, the backstop at
  one that has a default put in and its trailing slashes taken off.  What they look for has no slash and
  is in no default.

  1. **`strContains_trim`**: trailing slashes make no difference to what is contained.  `hasPrefix_eq_get`
     reads the prefix test as the source has it, a slice by bytes.
  2. **`providerChat`**: the call that a dispatch comes to (`dispatchProvider_cases`).
  3. **`refusedLocally_iff`**: for each wire format, what is refused before anything is sent.

  The four providers refuse by four different tests: Anthropic draws no images, xAI and Meta behind the
  Responses format draw none, a compat endpoint does neither search nor images, and Gemini draws with its
  image models only.  `refusedLocally_iff` states each from the provider's code, and then once more in
  terms of what the gate computes from the config.

  A request of text is assumed (`TextOnly`), because a part of another kind may be refused for its own
  sake.  The case folding of the tests is ASCII's, as in the source.

  The result has a third member, what the user sees: switching the toggle on is rejected exactly when the
  provider would refuse, whatever the model, its base URL and its name.
-/
import Tellm.Commands
import Tellm.Credentials
import Tellm.Lib.Offsets

namespace Tellm

open Text Substitutions Offsets

/-! ## What is contained -/

theorem strContains_iff (value part : String) :
    strContains value part = true ↔ part.toList <:+: value.toList := by
  rw [strContains, List.any_eq_true]
  constructor
  · rintro ⟨tail, hmem, hstart⟩
    exact (List.isPrefixOf_iff_prefix.mp hstart).isInfix.trans ((List.mem_tails _ _).mp hmem).isInfix
  · intro h
    obtain ⟨tail, hstart, htail⟩ := List.infix_iff_prefix_suffix.mp h
    exact ⟨tail, (List.mem_tails _ _).mpr htail, List.isPrefixOf_iff_prefix.mpr hstart⟩

/-- What comes before the slashes at the end. -/
theorem trimTrailingSlash_append (value : String) : ∃ slashes : List Char, (∀ c ∈ slashes, c = '/') ∧
    value.toList = (trimTrailingSlash value).toList ++ slashes := by
  refine ⟨(value.toList.reverse.takeWhile (· == '/')).reverse, ?_, ?_⟩
  · intro c hc
    have hslash := List.mem_takeWhile_imp (List.mem_reverse.mp hc)
    exact eq_of_beq hslash
  · rw [trimTrailingSlash, String.toList_ofList, ← List.reverse_append, List.takeWhile_append_dropWhile,
      List.reverse_reverse]

theorem infix_append_slashes {part text slashes : List Char} (hpart : '/' ∉ part) (hne : part ≠ [])
    (hslashes : ∀ c ∈ slashes, c = '/') (h : part <:+: text ++ slashes) : part <:+: text := by
  cases slashes with
  | nil => rwa [List.append_nil] at h
  | cons c slashes =>
    obtain rfl := hslashes c List.mem_cons_self
    refine (infix_append_cons hpart h).resolve_right fun hinside => ?_
    obtain ⟨d, part, rfl⟩ := List.exists_cons_of_ne_nil hne
    have hd := hslashes d (List.mem_cons_of_mem _ (hinside.subset List.mem_cons_self))
    exact hpart (hd ▸ List.mem_cons_self)

/-- **Trailing slashes** do not matter. -/
theorem strContains_trim (value : String) {part : String} (hpart : '/' ∉ part.toList)
    (hne : part.toList ≠ []) :
    strContains (trimTrailingSlash value) part = strContains value part := by
  obtain ⟨slashes, hslashes, heq⟩ := trimTrailingSlash_append value
  rw [Bool.eq_iff_iff, strContains_iff, strContains_iff, heq]
  exact ⟨fun h => h.trans (List.prefix_append _ _).isInfix, infix_append_slashes hpart hne hslashes⟩

/-! ## The prefix -/

/-- ASCII: a byte for each character. -/
def IsAscii (text : List Char) : Prop := ∀ c ∈ text, c.val ≤ 127

theorem byteCount_ascii {text : List Char} (h : IsAscii text) : byteCount text = text.length := by
  induction text with
  | nil => rfl
  | cons c text ih =>
    obtain ⟨hc, htext⟩ := List.forall_mem_cons.mp h
    rw [byteCount_cons, ih htext, Char.utf8Size_eq_one_iff.mpr hc, List.length_cons, Nat.add_comm]

theorem ascii_of_toLower {c : Char} (h : c.toLower.val ≤ 127) : c.val ≤ 127 := by
  unfold Char.toLower at h
  split at h
  · rename_i hupper
    have hz : 'Z'.val ≤ 127 := by decide
    exact UInt32.le_trans hupper.2 hz
  · exact h

theorem eqIgnoreAsciiCase_iff (left right : String) :
    eqIgnoreAsciiCase left right = true ↔ left.toList.map Char.toLower = right.toList.map Char.toLower := by
  have hlower : ∀ text : String, text.toLower.toList = text.toList.map Char.toLower := fun text => by
    rw [String.toLower, String.toList_map]
  rw [eqIgnoreAsciiCase, beq_iff_eq, ← String.toList_inj, hlower, hlower]

/-- What is ASCII but for its case is ASCII, and as long. -/
theorem ascii_of_eqIgnoreAsciiCase {left right : String} (hright : IsAscii (right.toList.map Char.toLower))
    (h : eqIgnoreAsciiCase left right = true) :
    IsAscii left.toList ∧ left.toList.length = right.toList.length := by
  rw [eqIgnoreAsciiCase_iff] at h
  refine ⟨fun c hc => ascii_of_toLower (hright _ ?_), ?_⟩
  · rw [← h]
    exact List.mem_map_of_mem hc
  · have hlength := congrArg List.length h
    rwa [List.length_map, List.length_map] at hlength

/-- **The prefix test**, as the source has it. -/
theorem hasPrefix_eq_get (modelName : String) {start : String}
    (hstart : IsAscii (start.toList.map Char.toLower)) :
    Responses.hasPrefixIgnoreAsciiCase modelName start =
      (getTo start.toList.length modelName.toList).any fun part =>
      eqIgnoreAsciiCase (String.ofList part) start := by
  rw [Responses.hasPrefixIgnoreAsciiCase, Bool.eq_iff_iff, Option.any_eq_true]
  constructor
  · intro h
    obtain ⟨hascii, hlength⟩ := ascii_of_eqIgnoreAsciiCase hstart h
    rw [String.toList_ofList] at hascii hlength
    refine ⟨modelName.toList.take start.toList.length, ?_, h⟩
    have hget :=
      getTo_append (modelName.toList.take start.toList.length) (modelName.toList.drop start.toList.length)
    rwa [List.take_append_drop, byteCount_ascii hascii, hlength] at hget
  · rintro ⟨part, hget, h⟩
    obtain ⟨hpre, hcount⟩ := getTo_eq_some hget
    obtain ⟨-, hlength⟩ := ascii_of_eqIgnoreAsciiCase hstart h
    rw [String.toList_ofList] at hlength
    rw [List.prefix_iff_eq_take.mp hpre, hlength] at h
    exact h

/-! ## The call -/

/-- The call of the client that `dispatch_provider` makes, if it makes one. -/
def providerChat (model : ModelConfig) (apiKey : String) (request : ChatRequest)
    (outcomes : Nat → HttpOutcome) :
    Option Call :=
  match model.wireFormat with
  | .anthropic => some ((Anthropic.new apiKey model.baseUrl).chat request outcomes)
  | .responses => some ((Responses.new apiKey model.baseUrl).chat request outcomes)
  | .compat => model.baseUrl.map fun baseUrl => (Compat.new apiKey baseUrl).chat request outcomes
  | .gemini => some ((Gemini.new apiKey model.baseUrl).chat request outcomes)

theorem dispatchKeyed_cases (world : DispatchWorld) (model : ModelConfig) (chat : String → Call) :
    (∃ error, dispatchKeyed world model chat = .fail [] error) ∨
      ∃ apiKey, dispatchKeyed world model chat = (chat apiKey).dispatched [] := by
  unfold dispatchKeyed
  split
  · exact Or.inl ⟨_, rfl⟩
  · exact Or.inr ⟨_, rfl⟩

/-- **A dispatch** fails before it has a client, or comes to the client's call. -/
theorem dispatchProvider_cases (world : DispatchWorld) (model : ModelConfig) (request : ChatRequest) :
    (∃ sent error, dispatchProvider world model request = .fail sent error) ∨
      ∃ apiKey call sent, providerChat model apiKey request world.outcomes = some call ∧
        dispatchProvider world model request = call.dispatched sent := by
  unfold dispatchProvider providerChat
  cases model.wireFormat with
  | anthropic =>
    rcases dispatchKeyed_cases world model fun apiKey =>
      (Anthropic.new apiKey model.baseUrl).chat request world.outcomes with ⟨error, h⟩ | ⟨apiKey, h⟩
    · exact Or.inl ⟨[], error, h⟩
    · exact Or.inr ⟨apiKey, _, [], rfl, h⟩
  | responses =>
    rcases dispatchKeyed_cases world model fun apiKey =>
      (Responses.new apiKey model.baseUrl).chat request world.outcomes with ⟨error, h⟩ | ⟨apiKey, h⟩
    · exact Or.inl ⟨[], error, h⟩
    · exact Or.inr ⟨apiKey, _, [], rfl, h⟩
  | gemini =>
    rcases dispatchKeyed_cases world model fun apiKey =>
      (Gemini.new apiKey model.baseUrl).chat request world.outcomes with ⟨error, h⟩ | ⟨apiKey, h⟩
    · exact Or.inl ⟨[], error, h⟩
    · exact Or.inr ⟨apiKey, _, [], rfl, h⟩
  | compat =>
    -- what the compat branch checks before it has a client
    dsimp only
    unfold dispatchCompat
    cases model.baseUrl with
    | none => exact Or.inl ⟨_, _, rfl⟩
    | some baseUrl =>
      dsimp only
      split
      · exact Or.inl ⟨_, _, rfl⟩
      · split
        · exact Or.inl ⟨_, _, rfl⟩
        · split
          · exact Or.inl ⟨_, _, rfl⟩
          · exact Or.inr ⟨_, _, _, rfl, rfl⟩

/-- The call is refused before anything is sent. -/
def RefusedLocally (call : Call) : Prop :=
  call.sent = [] ∧ ∃ feature, call.outcome = .returned (.error (.unsupported feature))

theorem refusedLocally_fail (feature : String) : RefusedLocally (.fail (.unsupported feature)) :=
  ⟨rfl, feature, rfl⟩

/-- Text only. -/
def TextOnly (request : ChatRequest) : Prop := ∀ part ∈ request.input, ∃ text, part = .text text

theorem not_refusedLocally {call : Call} (h : call.sent ≠ []) : ¬ RefusedLocally call :=
  fun hrefused => h hrefused.1

namespace Anthropic

/-- The loop sends, if it runs at all. -/
theorem sent_pauseTurnLoop (self : Anthropic) (request : ChatRequest) (outcomes : Nat → HttpOutcome)
    (continuations : List Nat) (messages assistantMessages : List Value) (textParts : List String)
    (sent : List HttpRequest) (h : sent ≠ [] ∨ continuations ≠ []) :
    (self.pauseTurnLoop request outcomes continuations messages assistantMessages textParts sent).sent ≠
    [] := by
  induction continuations generalizing messages assistantMessages textParts sent with
  | nil => exact h.resolve_right fun hne => hne rfl
  | cons continuation continuations ih =>
    have hsent : ∀ httpRequest : HttpRequest, sent ++ [httpRequest] ≠ [] := fun _ => List.concat_ne_nil _ _
    rw [pauseTurnLoop]
    dsimp only
    split
    · exact hsent _
    · split
      · exact hsent _
      · split
        · split
          · exact hsent _
          · exact ih _ _ _ _ (Or.inl (hsent _))
        · exact hsent _

theorem refusedLocally_iff (self : Anthropic) (request : ChatRequest) (outcomes : Nat → HttpOutcome) :
    RefusedLocally (self.chat request outcomes) ↔ request.imageGeneration = true := by
  rw [chat]
  split
  · rename_i himage
    exact iff_of_true (refusedLocally_fail _) himage
  · rename_i himage
    refine iff_of_false
      (not_refusedLocally (sent_pauseTurnLoop self request outcomes _ _ _ _ _ (Or.inr ?_))) himage
    exact List.cons_ne_nil _ _

end Anthropic

namespace Responses

theorem isXaiRequest_new (apiKey : String) (baseUrl : Option String) (request : ChatRequest) :
    (new apiKey baseUrl).isXaiRequest request = isXaiEndpoint baseUrl request.model := by
  unfold isXaiRequest isXaiEndpoint new
  rw [Option.any_some, strContains_trim _ (by decide) (by decide)]
  cases baseUrl with
  | none =>
    have hdefault : strContains openaiBaseUrl "api.x.ai" = false := by decide
    rw [Option.getD_none, hdefault, Option.any_none]
  | some baseUrl => rw [Option.getD_some, Option.any_some]

theorem isMetaModelApiRequest_new (apiKey : String) (baseUrl : Option String) (request : ChatRequest) :
    (new apiKey baseUrl).isMetaModelApiRequest request = isMetaModelApiEndpoint baseUrl request.model := by
  unfold isMetaModelApiRequest isMetaModelApiEndpoint new
  rw [Option.any_some, strContains_trim _ (by decide) (by decide)]
  cases baseUrl with
  | none =>
    have hdefault : strContains openaiBaseUrl "api.meta.ai" = false := by decide
    rw [Option.getD_none, hdefault, Option.any_none]
  | some baseUrl => rw [Option.getD_some, Option.any_some]

/-- **The gate and the backstop** recognize the same endpoints: the client refuses a request for an image
    before it sends anything exactly when the base URL and the model name are those of a server for which the
    capabilities leave images out. -/
theorem refusedLocally_iff (apiKey : String) (baseUrl : Option String) (request : ChatRequest)
    (outcomes : Nat → HttpOutcome) : RefusedLocally ((new apiKey baseUrl).chat request outcomes) ↔
      request.imageGeneration = true ∧
        (isXaiEndpoint baseUrl request.model = true ∨
        isMetaModelApiEndpoint baseUrl request.model = true) := by
  rw [chat, isXaiRequest_new, isMetaModelApiRequest_new]
  dsimp only
  split
  · rename_i hxai
    rw [Bool.and_eq_true] at hxai
    exact iff_of_true (refusedLocally_fail _) ⟨hxai.2, Or.inl hxai.1⟩
  · rename_i hxai
    rw [Bool.and_eq_true] at hxai
    split
    · rename_i hmeta
      rw [Bool.and_eq_true] at hmeta
      exact iff_of_true (refusedLocally_fail _) ⟨hmeta.2, Or.inr hmeta.1⟩
    · rename_i hmeta
      rw [Bool.and_eq_true] at hmeta
      refine iff_of_false (not_refusedLocally (List.cons_ne_nil _ _)) ?_
      rintro ⟨himage, hx | hm⟩
      · exact hxai ⟨hx, himage⟩
      · exact hmeta ⟨hm, himage⟩

end Responses

namespace Compat

theorem refusedLocally_iff (self : Compat) {request : ChatRequest} (htext : TextOnly request)
    (outcomes : Nat → HttpOutcome) : RefusedLocally (self.chat request outcomes) ↔
      request.webSearch = true ∨ request.imageGeneration = true := by
  have hdocument : ¬ request.input.any isDocument = true := by
    intro hany
    obtain ⟨part, hmem, hpart⟩ := List.any_eq_true.mp hany
    obtain ⟨text, rfl⟩ := htext part hmem
    cases hpart
  rw [chat, validateSupported]
  by_cases hweb : request.webSearch = true
  · rw [if_pos hweb]
    exact iff_of_true (refusedLocally_fail _) (Or.inl hweb)
  · rw [if_neg hweb]
    by_cases himage : request.imageGeneration = true
    · rw [if_pos himage]
      exact iff_of_true (refusedLocally_fail _) (Or.inr himage)
    · rw [if_neg himage, if_neg hdocument]
      exact iff_of_false (not_refusedLocally (List.cons_ne_nil _ _)) (not_or.mpr ⟨hweb, himage⟩)

end Compat

namespace Gemini

/-- Text is always taken. -/
theorem userInputStep_text {input : List ContentPart} (htext : ∀ part ∈ input, ∃ text, part = .text text) :
    ∃ userStep, userInputStep input = .ok userStep := by
  have hparts : ∃ blocks, contentParts input = .ok blocks := by
    induction input with
    | nil => exact ⟨[], rfl⟩
    | cons part input ih =>
      obtain ⟨⟨text, rfl⟩, hinput⟩ := List.forall_mem_cons.mp htext
      obtain ⟨blocks, hblocks⟩ := ih hinput
      rw [contentParts, hblocks]
      exact ⟨_, rfl⟩
  obtain ⟨blocks, hblocks⟩ := hparts
  rw [userInputStep, hblocks]
  exact ⟨_, rfl⟩

theorem refusedLocally_iff (self : Gemini) {request : ChatRequest} (htext : TextOnly request)
    (outcomes : Nat → HttpOutcome) : RefusedLocally (self.chat request outcomes) ↔
      request.imageGeneration = true ∧ isImageGenerationModel request.model = false := by
  obtain ⟨userStep, hstep⟩ := userInputStep_text htext
  rw [chat, hstep]
  dsimp only
  unfold requestBody
  dsimp only
  by_cases himage : request.imageGeneration = true
  · rw [if_pos himage]
    cases hmodel : isImageGenerationModel request.model with
    | false => exact iff_of_true (refusedLocally_fail _) ⟨himage, rfl⟩
    | true =>
      refine iff_of_false (not_refusedLocally (List.cons_ne_nil _ _)) ?_
      rintro ⟨-, hfalse⟩
      cases hfalse
  · rw [if_neg himage]
    exact iff_of_false (not_refusedLocally (List.cons_ne_nil _ _)) fun h => himage h.1

end Gemini

/-! ## The gate -/

/-- Switching the toggle on is refused exactly where the capability is not supported. -/
theorem routeToggle_on (current supported : Bool) (feature : String) (capabilities : RoomCapabilities)
    {show' set' : Bool → CommandAction} (hset : ∀ enabled reason, set' enabled ≠ .reject reason) :
    (∃ reason, Commands.routeToggle "on".toList current supported feature capabilities show' set' =
      .reject reason) ↔
      supported = false := by
  have hfirst : Commands.firstArg "on".toList = some "on" := by decide
  have hlower : toAsciiLowercase "on" = "on" := toAsciiLowercase_eq (by decide)
  have hstatus : ¬ toAsciiLowercase "on" = "status" := by
    rw [hlower]
    decide
  have hbool : Commands.parseBool "on" = some true := by
    rw [Commands.parseBool, hlower]
    rfl
  unfold Commands.routeToggle
  rw [hfirst]
  dsimp only
  rw [if_neg hstatus, hbool]
  dsimp only
  cases supported with
  | false => exact iff_of_true ⟨_, rfl⟩ rfl
  | true => exact iff_of_false (fun ⟨reason, h⟩ => hset true reason h) (fun h => by cases h)

/-- What the provider refuses is what the capabilities leave out. -/
theorem refusedLocally_iff {config : Config} {room : RoomState} {chatId : Int} {model : ModelConfig}
    (hmodel : config.models[selectedModelKey config room chatId]? = some model) {request : ChatRequest}
    (hname : request.model = model.modelName) (htext : TextOnly request) {apiKey : String}
    {outcomes : Nat → HttpOutcome} {call : Call}
    (hcall : providerChat model apiKey request outcomes = some call) :
    RefusedLocally call ↔
      (request.imageGeneration = true ∧ (roomCapabilities config room chatId).imageGeneration = false) ∨
        (request.webSearch = true ∧ (roomCapabilities config room chatId).webSearch = false) := by
  unfold roomCapabilities
  dsimp only
  rw [hmodel]
  dsimp only
  unfold providerChat at hcall
  -- each provider refuses by its own test; the gate's is the same, on another string
  cases hwire : model.wireFormat with
  | anthropic =>
    rw [hwire] at hcall
    obtain rfl := Option.some.inj hcall
    rw [Anthropic.refusedLocally_iff]
    simp
  | responses =>
    rw [hwire] at hcall
    obtain rfl := Option.some.inj hcall
    rw [Responses.refusedLocally_iff, hname]
    dsimp only
    split
    · rename_i hxai
      simp [hxai]
    · rename_i hxai
      split
      · rename_i hmeta
        simp [hmeta]
      · rename_i hmeta
        simp [hxai, hmeta]
  | compat =>
    rw [hwire] at hcall
    obtain ⟨baseUrl, -, rfl⟩ := Option.map_eq_some_iff.mp hcall
    rw [Compat.refusedLocally_iff _ htext]
    simp [or_comm]
  | gemini =>
    rw [hwire] at hcall
    obtain rfl := Option.some.inj hcall
    rw [Gemini.refusedLocally_iff _ htext, hname]
    simp

/-- **The gate and the backstop agree**, for a request of text with just one of the two; and the gate is what
    switching the toggle on meets. -/
theorem capabilities_agree {config : Config} {room : RoomState} {chatId : Int} {model : ModelConfig}
    (hmodel : config.models[selectedModelKey config room chatId]? = some model) {request : ChatRequest}
    (hname : request.model = model.modelName) (htext : TextOnly request) {apiKey : String}
    {outcomes : Nat → HttpOutcome} {call : Call}
    (hcall : providerChat model apiKey request outcomes = some call) :
    let capabilities := roomCapabilities config room chatId
    (request.imageGeneration = true → request.webSearch = false →
      (RefusedLocally call ↔ capabilities.imageGeneration = false) ∧
        ((∃ reason, Commands.routeImageGeneration "on".toList room.settings capabilities = .reject reason) ↔
          RefusedLocally call)) ∧
    (request.webSearch = true → request.imageGeneration = false →
      (RefusedLocally call ↔ capabilities.webSearch = false) ∧
        ((∃ reason, Commands.routeWebSearch "on".toList room.settings capabilities = .reject reason) ↔
          RefusedLocally call)) := by
  have hrefused := refusedLocally_iff hmodel hname htext hcall
  constructor
  · intro himage hweb
    have hiff : RefusedLocally call ↔ (roomCapabilities config room chatId).imageGeneration = false := by
      rw [hrefused, himage, hweb]
      simp
    exact ⟨hiff, (routeToggle_on _ _ _ _ fun _ _ h => by cases h).trans hiff.symm⟩
  · intro hweb himage
    have hiff : RefusedLocally call ↔ (roomCapabilities config room chatId).webSearch = false := by
      rw [hrefused, himage, hweb]
      simp
    exact ⟨hiff, (routeToggle_on _ _ _ _ fun _ _ h => by cases h).trans hiff.symm⟩

/-- A model of xAI at an endpoint with trailing slashes. -/
def grokModel : ModelConfig where
  wireFormat := .responses
  modelName := "grok-4"
  baseUrl := some "https://api.x.ai/v1//"

/-- A config with one model, of xAI. -/
def grokConfig : Config := ⟨"grok", (∅ : BTreeMap String ModelConfig).insert "grok" grokModel, {}⟩

/-- A request for an image, which that endpoint refuses. -/
def drawRequest : ChatRequest := ⟨"grok-4", none, [], [.text "draw a cat"], default, false, true⟩

theorem capabilities_agree_grok :
    RefusedLocally ((Responses.new "key" grokModel.baseUrl).chat drawRequest fun _ => .error "refused") ∧
      ∃ reason, Commands.routeImageGeneration "on".toList {} (roomCapabilities grokConfig (.new {}) 7) =
        .reject reason := by
  have hpin : pinnedModelKey grokConfig 7 = none := by
    rw [pinnedModelKey_eq_none]
    rintro ⟨key, model, hkey, hmem⟩
    rw [grokConfig, Std.ExtTreeMap.getElem?_insert, Std.ExtTreeMap.getElem?_empty] at hkey
    split at hkey
    · obtain rfl := Option.some.inj hkey
      cases hmem
    · cases hkey
  have hmodel : grokConfig.models[selectedModelKey grokConfig (.new {}) 7]? = some grokModel := by
    rw [selectedModelKey, hpin]
    exact Std.ExtTreeMap.getElem?_insert_self
  have htext : TextOnly drawRequest := fun part hmem => ⟨"draw a cat", List.mem_singleton.mp hmem⟩
  have hgate : (roomCapabilities grokConfig (.new {}) 7).imageGeneration = false := by
    have hxai : Responses.isXaiEndpoint grokModel.baseUrl grokModel.modelName = true := by decide
    rw [roomCapabilities, hmodel]
    show (if Responses.isXaiEndpoint grokModel.baseUrl grokModel.modelName = true then _ else _ :
      RoomCapabilities).imageGeneration = false
    rw [if_pos hxai]
  have hcall : providerChat grokModel "key" drawRequest (fun _ => .error "refused") =
      some ((Responses.new "key" grokModel.baseUrl).chat drawRequest fun _ => .error "refused") := rfl
  obtain ⟨hiff, hrefused⟩ := (capabilities_agree hmodel rfl htext hcall).1 rfl rfl
  exact ⟨hiff.mpr hgate, hrefused.mpr (hiff.mpr hgate)⟩

end Tellm
