/-
  GEMINI: `tellm-gemini`, `POST /v1beta/interactions`.

  One request a call.  The encoder itself may refuse, a part whose media type Gemini does not take or a
  model that draws no images, and then nothing is sent; a response that asks for a follow-up is refused
  after it has come.

  The steps of an interaction are the items: the user's step, then those of the answer, thoughts and tool
  calls included, each as it came.  A status other than `completed` ends the call with an error that
  quotes it, as Rust's `{:?}` does.

  Images are asked for by the model and not by a tool, so the switch for images is refused for every other
  model.  Media types are checked part by part, before the body is built.
-/
import Tellm.Provider

namespace Tellm

/-- The client of the `gemini` wire format. -/
structure Gemini where
  baseUrl : String
  apiKey : String

namespace Gemini

/-- `DEFAULT_BASE_URL`. -/
def defaultBaseUrl : String := "https://generativelanguage.googleapis.com"

/-- `Gemini::new`: the base URL that is configured or the default, without the slashes at its end. -/
def new (apiKey : String) (baseUrl : Option String) : Gemini :=
  ⟨trimTrailingSlash (baseUrl.getD defaultBaseUrl), apiKey⟩

/-- `is_image_generation_model`: told by the model's name, in any case.  Only these models are asked for
    images. -/
def isImageGenerationModel (modelName : String) : Bool := strContains modelName.toLower "-image"

/-! ## The encoder -/

/-- The image types that the Interactions API takes. -/
def isSupportedImage (mediaType : String) : Bool :=
  ["image/png", "image/jpeg", "image/webp", "image/heic", "image/heif", "image/gif", "image/bmp",
    "image/tiff"].contains mediaType

/-- The document types that it takes. -/
def isSupportedDocument (mediaType : String) : Bool :=
  ["application/pdf", "text/csv"].contains mediaType

/-- `content_part`: a part of the user's message as a content of the API.  A media type that the API does not
    take is refused here, and the error names it. -/
def contentPart : ContentPart → Except ProviderError Value
  | .text text => .ok (.json [("type", .string "text"), ("text", .string text)])
  | .image mediaType base64 =>
    if !isSupportedImage mediaType then
      .error (.unsupported s!"Gemini Interactions does not support image media type {mediaType}")
    else
      .ok (.json [("type", .string "image"), ("data", .string base64), ("mime_type", .string mediaType)])
  | .document mediaType base64 _ =>
    if !isSupportedDocument mediaType then
      .error (.unsupported s!"Gemini Interactions does not support document media type {mediaType}")
    else
      .ok (.json [("type", .string "document"), ("data", .string base64),
        ("mime_type", .string mediaType)])

/-- `collect::<Result<Vec<_>, _>>`: the blocks, or the first error. -/
def contentParts : List ContentPart → Except ProviderError (List Value)
  | [] => .ok []
  | part :: parts =>
    match contentPart part with
    | .error error => .error error
    | .ok block => (contentParts parts).map (block :: ·)

/-- `user_input_step`: the user's message as a step; the first part that is refused fails it. -/
def userInputStep (input : List ContentPart) : Except ProviderError Value :=
  (contentParts input).map fun content =>
    .json [("type", .string "user_input"), ("content", .array content)]

/-- `thinking_level`: how a thinking level is spelled here; for off none is sent at all. -/
def thinkingLevel : ThinkingLevel → Option String
  | .off => none
  | .low => some "low"
  | .medium => some "medium"
  | .high => some "high"
  | .max => some "high"

/-- `request_body`: the model, the steps so far with the user's, the system text in a field of its own, and
    what the request turns on.  Image generation fails here when the model is not one for images. -/
def requestBody (request : ChatRequest) (userStep : Value) : Except ProviderError Value :=
  let body := Fields.of [("model", .string request.model),
    ("input", .array (request.history ++ [userStep])), ("store", .bool false), ("stream", .bool false)]
  let body :=
    match request.system with
    | some system =>
      if system.isEmpty then body else Fields.insert "system_instruction" (.string system) body
    | none => body
  let body :=
    match thinkingLevel request.thinking with
    | some thinking =>
      Fields.insert "generation_config" (.json [("thinking_level", .string thinking)]) body
    | none => body
  let body :=
    if request.webSearch then
      Fields.insert "tools" (.array [.json [("type", .string "google_search"),
        ("search_types", .array [.string "web_search"])]]) body
    else body
  if request.imageGeneration then
    if !isImageGenerationModel request.model then
      .error (.unsupported ("Gemini image generation requires an image-capable model such as " ++
        s!"gemini-3.1-flash-image, not {request.model}"))
    else .ok (.object (Fields.insert "response_format" (.json [("type", .string "image")]) body))
  else .ok (.object body)

/-- The request of `send_request`. -/
def httpRequest (self : Gemini) (body : Value) : HttpRequest where
  url := s!"{self.baseUrl}/v1beta/interactions"
  headers := [("x-goog-api-key", self.apiKey)]
  body := body

/-! ## The extractor -/

/-- The content blocks of the steps that are model output. -/
def outputBlocks (steps : List Value) : List Value :=
  (steps.filter fun step => (step.get "type").bind Value.asStr == some "model_output").flatMap
    fun step => ((step.get "content").bind Value.asArray).getD []

/-- `extract_text`: the text contents of the model's steps, one behind the other. -/
def extractText (steps : List Value) : String :=
  String.join (((outputBlocks steps).filter fun content =>
    (content.get "type").bind Value.asStr == some "text").filterMap
      fun content => (content.get "text").bind Value.asStr)

/-- `extract_images`: the image contents, which are PNG where the response does not say. -/
def extractImages (steps : List Value) : List GeneratedImage :=
  ((outputBlocks steps).filter fun content =>
    (content.get "type").bind Value.asStr == some "image").filterMap fun content =>
      ((content.get "data").bind Value.asStr).map fun base64 =>
        ⟨((content.get "mime_type").bind Value.asStr).getD "image/png", base64⟩

/-- `api_error_message`: what the body of an error response says, under `error.message` or `message`. -/
def apiErrorMessage (body : Value) : String :=
  ((((body.get "error").bind (·.get "message")).bind Value.asStr).or
    ((body.get "message").bind Value.asStr)).getD "unknown Gemini API error"

/-- The steps of a response; a body without them counts as empty. -/
def responseSteps (responseBody : Value) : List Value :=
  ((responseBody.get "steps").bind Value.asArray).getD []

/-! ## The call -/

/-- The end of `chat`, once the request has met its outcome. -/
def finish (userStep : Value) (outcome : HttpOutcome) : Except ProviderError ChatResponse :=
  match receive apiErrorMessage outcome with
  | .error error => .error error
  | .ok responseBody =>
    let steps := responseSteps responseBody
    let status := (responseBody.get "status").bind Value.asStr
    match status.filter (· != "completed") with
    | some status =>
      .error (.unsupported (s!"Gemini interaction status Some({strDebug status}) requires unsupported " ++
        "follow-up handling"))
    | none => .ok
      { text := extractText steps
        images := extractImages steps
        turnItems := userStep :: steps }

/-- `Gemini::chat`: the input is made into a step and the request into a body, each of which may fail before
    anything is sent; then there is one request. -/
def chat (self : Gemini) (request : ChatRequest) (outcomes : Nat → HttpOutcome) : Call :=
  match userInputStep request.input with
  | .error error => .fail error
  | .ok userStep =>
    match requestBody request userStep with
    | .error error => .fail error
    | .ok body => ⟨[self.httpRequest body], .returned (finish userStep (outcomes 0))⟩

/-! ## Verbatim replay -/

/-- A block shows a part of the input: its text, or its media type and its data. -/
def Shows : ContentPart → Value → Prop
  | .text text, block =>
    block.get "type" = some (.string "text") ∧ block.get "text" = some (.string text)
  | .image mediaType base64, block =>
    block.get "type" = some (.string "image") ∧ block.get "data" = some (.string base64) ∧
      block.get "mime_type" = some (.string mediaType)
  | .document mediaType base64 _, block =>
    block.get "type" = some (.string "document") ∧ block.get "data" = some (.string base64) ∧
      block.get "mime_type" = some (.string mediaType)

/-- The conversation is the request's `input`, and the items of a response are its `steps`. -/
def contract : WireContract where
  conversation httpRequest := (httpRequest.body.get "input").bind Value.asArray
  systemItems _ := []
  Represents input userItem := userItem.get "type" = some (.string "user_input") ∧
    ∃ blocks, userItem.get "content" = some (.array blocks) ∧ List.Forall₂ Shows input blocks
  responseItems body := arrayAt body "steps"
  Paused _ := False
  maxRequests := 1

/-- What a part is encoded to shows it; what is refused is unsupported. -/
theorem contentPart_cases (part : ContentPart) :
    (∃ feature, contentPart part = .error (.unsupported feature)) ∨
      ∃ block, contentPart part = .ok block ∧ Shows part block := by
  cases part with
  | text text => exact Or.inr ⟨_, rfl, by simp [Shows]⟩
  | image mediaType base64 =>
    rw [contentPart]
    split
    · exact Or.inl ⟨_, rfl⟩
    · exact Or.inr ⟨_, rfl, by simp [Shows]⟩
  | document mediaType base64 name =>
    rw [contentPart]
    split
    · exact Or.inl ⟨_, rfl⟩
    · exact Or.inr ⟨_, rfl, by simp [Shows]⟩

theorem contentParts_cases (parts : List ContentPart) :
    (∃ feature, contentParts parts = .error (.unsupported feature)) ∨
      ∃ blocks, contentParts parts = .ok blocks ∧ List.Forall₂ Shows parts blocks := by
  induction parts with
  | nil => exact Or.inr ⟨[], rfl, .nil⟩
  | cons part parts ih =>
    rw [contentParts]
    rcases contentPart_cases part with ⟨feature, hpart⟩ | ⟨block, hpart, hshows⟩
    · rw [hpart]
      exact Or.inl ⟨feature, rfl⟩
    · rw [hpart]
      rcases ih with ⟨feature, hparts⟩ | ⟨blocks, hparts, hall⟩
      · rw [hparts]
        exact Or.inl ⟨feature, rfl⟩
      · rw [hparts]
        exact Or.inr ⟨block :: blocks, rfl, .cons hshows hall⟩

/-- The user's step shows the input, or the call is refused as unsupported. -/
theorem userInputStep_cases (input : List ContentPart) :
    (∃ feature, userInputStep input = .error (.unsupported feature)) ∨
      ∃ userStep, userInputStep input = .ok userStep ∧ contract.Represents input userStep := by
  rw [userInputStep]
  rcases contentParts_cases input with ⟨feature, h⟩ | ⟨blocks, h, hall⟩
  · rw [h]
    exact Or.inl ⟨feature, rfl⟩
  · rw [h]
    exact Or.inr ⟨_, rfl, by simp, blocks, by simp, hall⟩

/-- A body that was built carries the conversation. -/
theorem requestBody_cases (self : Gemini) (request : ChatRequest) (userStep : Value) :
    (∃ feature, requestBody request userStep = .error (.unsupported feature)) ∨
      ∃ body, requestBody request userStep = .ok body ∧
        contract.conversation (self.httpRequest body) = some (request.history ++ [userStep]) := by
  have hinput : ∀ {body}, body.get "input" = some (Value.array (request.history ++ [userStep])) →
      contract.conversation (self.httpRequest body) = some (request.history ++ [userStep]) := by
    intro body h
    show (body.get "input").bind Value.asArray = _
    rw [h]
    rfl
  unfold requestBody
  dsimp only
  split
  · split
    · exact Or.inl ⟨_, rfl⟩
    · refine Or.inr ⟨_, rfl, hinput ?_⟩
      cases request.system <;> cases thinkingLevel request.thinking <;> cases request.webSearch <;>
        dsimp only <;> split_ifs <;> simp
  · refine Or.inr ⟨_, rfl, hinput ?_⟩
    cases request.system <;> cases thinkingLevel request.thinking <;> cases request.webSearch <;>
      dsimp only <;> split_ifs <;> simp

theorem finish_ok {userStep : Value} {outcome : HttpOutcome} {response : ChatResponse}
    (h : finish userStep outcome = .ok response) :
    ∃ body, received outcome = some body ∧ response.turnItems = userStep :: arrayAt body "steps" := by
  unfold finish at h
  cases hreceive : receive apiErrorMessage outcome with
  | error error =>
    rw [hreceive] at h
    cases h
  | ok body =>
    rw [hreceive] at h
    dsimp only at h
    split at h
    · cases h
    · cases h
      exact ⟨body, receive_eq_ok.mp hreceive, congrArg _ (asArray_eq_arrayAt body "steps")⟩

/-- **Gemini replays verbatim**: its one request carries the stored history and then the step of the user, and
    the turn that is to be stored is that step and then the steps of the response, unmodified and in their
    order. An input that cannot be encoded is refused, so the step of the user is some value here and not a
    function of the input. -/
theorem verbatim_chat (self : Gemini) (request : ChatRequest) (outcomes : Nat → HttpOutcome) :
    ∃ userItem, Verbatim contract request outcomes userItem (self.chat request outcomes) := by
  unfold chat
  rcases userInputStep_cases request.input with ⟨feature, h⟩ | ⟨userStep, h, hshows⟩
  · rw [h]
    exact ⟨.null, .fail _ _⟩
  · rw [h]
    dsimp only
    refine ⟨userStep, ?_⟩
    rcases requestBody_cases self request userStep with ⟨feature, hbody⟩ | ⟨body, hbody, hconversation⟩
    · rw [hbody]
      exact .fail _ _
    · rw [hbody]
      exact .single hconversation (fun response h => finish_ok h) hshows (le_refl 1)

end Gemini

end Tellm
