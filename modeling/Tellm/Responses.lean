/-
  RESPONSES: `tellm-openai`, `POST /v1/responses`, for OpenAI, xAI and the Meta Model API.

  One request a call.  xAI takes the system prompt as an input item before the history, the others as a
  field of its own; `isXaiEndpoint` decides, from the base URL and the model name.

  The encoder builds the body field by field, in the order of the source: the tools for web search and
  images, the reasoning effort, the instructions where they are a field.  Input parts become blocks of
  text, images and files.

  The extractor walks the output array: texts are put together, images collected, and the array itself,
  whole, is what goes back on the next turn.  A refusal among its blocks ends the call with an error, and
  nothing of the response is kept.

  `verbatim_chat` shows that the call meets the contract, for xAI and for the others.  The contract names
  the JSON path of the output and of the input and is independent of the two functions.
-/
import Tellm.Provider

namespace Tellm

/-- The client of the `responses` wire format: where it posts to, and the key of its bearer token. -/
structure Responses where
  baseUrl : String
  apiKey : String

namespace Responses

/-- `OPENAI_BASE_URL`: where the requests go unless the model's config names another place. -/
def openaiBaseUrl : String := "https://api.openai.com/v1"

/-- `Responses::new`: the base URL that is configured, or OpenAI's, without the slashes at its end. -/
def new (apiKey : String) (baseUrl : Option String) : Responses :=
  ⟨trimTrailingSlash (baseUrl.getD openaiBaseUrl), apiKey⟩

/-! ## Which endpoint -/

/-- `model_name.get(..n)` compared with an ASCII prefix of `n` bytes. -/
def hasPrefixIgnoreAsciiCase (modelName start : String) : Bool :=
  eqIgnoreAsciiCase (String.ofList (modelName.toList.take start.toList.length)) start

/-- `is_xai_endpoint`: told by the host in the base URL, or else by the model's name.  The gate of the router
    asks it of the URL as it is configured, the client of its own. -/
def isXaiEndpoint (baseUrl : Option String) (modelName : String) : Bool :=
  (baseUrl.any fun url => strContains url "api.x.ai") || hasPrefixIgnoreAsciiCase modelName "grok-"

/-- `is_meta_model_api_endpoint`: the same for Meta's endpoint and its models. -/
def isMetaModelApiEndpoint (baseUrl : Option String) (modelName : String) : Bool :=
  (baseUrl.any fun url => strContains url "api.meta.ai") ||
    hasPrefixIgnoreAsciiCase modelName "muse-spark"

/-- `is_xai_request`: the client's own look at the endpoint, with the default put in. -/
def isXaiRequest (self : Responses) (request : ChatRequest) : Bool :=
  isXaiEndpoint (some self.baseUrl) request.model

/-- `is_meta_model_api_request`. -/
def isMetaModelApiRequest (self : Responses) (request : ChatRequest) : Bool :=
  isMetaModelApiEndpoint (some self.baseUrl) request.model

/-! ## The encoder -/

/-- `content_part_to_responses`: a part of the user's message as an `input_text`, `input_image` or
    `input_file` block. -/
def contentPartToResponses : ContentPart → Value
  | .text text => .json [("type", .string "input_text"), ("text", .string text)]
  | .image mediaType base64 =>
    .json [("type", .string "input_image"), ("image_url", .string (dataUrl mediaType base64))]
  | .document mediaType base64 name =>
    .json [("type", .string "input_file"), ("filename", .string (name.getD "document")),
      ("file_data", .string (dataUrl mediaType base64))]

/-- `content_parts_to_responses`: block by block, in the order of the message. -/
def contentPartsToResponses (parts : List ContentPart) : List Value :=
  parts.map contentPartToResponses

/-- The user's message of this turn, which is the last item of the input and the first of the turn's items. -/
def userMessage (parts : List ContentPart) : Value :=
  .json [("role", .string "user"), ("content", .array (contentPartsToResponses parts))]

/-- `supports_max_effort`: the models whose strongest effort is spelled `max`. -/
def supportsMaxEffort (modelName : String) : Bool := "gpt-5.6".toList.isPrefixOf modelName.toList

/-- `responses_effort`: how a thinking level is spelled here; for off no effort is sent at all. -/
def responsesEffort (thinking : ThinkingLevel) (modelName : String) (isXai : Bool) : Option String :=
  match thinking with
  | .off => none
  | .low => some "low"
  | .medium => some "medium"
  | .high => some "high"
  | .max =>
    if isXai then some "high"
    else if supportsMaxEffort modelName then some "max"
    else some "xhigh"

/-- `tools`: the provider's own web search, which is two tools at xAI, and the image generation tool. -/
def tools (request : ChatRequest) (isXai : Bool) : List Value :=
  (if request.webSearch then
    if isXai then [.json [("type", .string "web_search")], .json [("type", .string "x_search")]]
    else [.json [("type", .string "web_search")]]
  else []) ++
  (if request.imageGeneration then [.json [("type", .string "image_generation")]] else [])

/-- The system prompt as an input item, where it is one. -/
def systemItems (request : ChatRequest) (isXai : Bool) : List Value :=
  match request.system with
  | some system =>
    if isXai then
      [.json [("role", .string "system"),
        ("content", .array [.json [("type", .string "input_text"), ("text", .string system)]])]]
    else []
  | none => []

/-- `request_body`: the model, the input (system item, history, user message), and what the request turns on.
    Nothing is stored at the provider, so the history goes with every request. -/
def requestBody (request : ChatRequest) (userMessage : Value) (isXai : Bool) : Value :=
  let input := systemItems request isXai ++ request.history ++ [userMessage]
  let body := Fields.of [("model", .string request.model), ("input", .array input),
    ("store", .bool false)]
  let body :=
    match request.system with
    | some system => if isXai then body else Fields.insert "instructions" (.string system) body
    | none => body
  let body :=
    match responsesEffort request.thinking request.model isXai with
    | some effort =>
      Fields.insert "include" (.array [.string "reasoning.encrypted_content"])
        (Fields.insert "reasoning" (.json [("effort", .string effort)]) body)
    | none => body
  if (tools request isXai).isEmpty then .object body
  else .object (Fields.insert "tools" (.array (tools request isXai)) body)

/-- The request of `send_request`; `bearer_auth` writes the `authorization` header. -/
def httpRequest (self : Responses) (body : Value) : HttpRequest where
  url := s!"{self.baseUrl}/responses"
  headers := [("authorization", s!"Bearer {self.apiKey}")]
  body := body

/-! ## The extractor -/

/-- The content blocks of the output's messages. -/
def messageBlocks (output : List Value) : List Value :=
  ((output.filter fun item => (item.get "type").bind Value.asStr == some "message").filterMap
    fun item => (item.get "content").bind Value.asArray).flatten

/-- `extract_text`: the `output_text` blocks of all messages in the output, one behind the other. -/
def extractText (output : List Value) : String :=
  String.join (((messageBlocks output).filter fun block =>
    (block.get "type").bind Value.asStr == some "output_text").filterMap
      fun block => (block.get "text").bind Value.asStr)

/-- `extract_refusal`: the first `refusal` block, which makes an error of the response. -/
def extractRefusal (output : List Value) : Option String :=
  ((messageBlocks output).find? fun block =>
    (block.get "type").bind Value.asStr == some "refusal").bind
      fun block => (block.get "refusal").bind Value.asStr

/-- `extract_images`: the results of the image generation calls, which are always PNG. -/
def extractImages (output : List Value) : List GeneratedImage :=
  ((output.filter fun item =>
    (item.get "type").bind Value.asStr == some "image_generation_call").filterMap
      fun item => (item.get "result").bind Value.asStr).map fun base64 => ⟨"image/png", base64⟩

/-- `api_error_message`: what the body of an error response says, under `error.message` or `message`. -/
def apiErrorMessage (value : Value) : String :=
  (((value.pointer ["error", "message"]).or (value.get "message")).bind Value.asStr).getD
    "unknown OpenAI Responses API error"

/-- The output of a response; a body without one counts as empty. -/
def responseOutput (responseBody : Value) : List Value :=
  ((responseBody.get "output").bind Value.asArray).getD []

/-! ## The call -/

/-- The end of `chat`, once the request has met its outcome. -/
def finish (userMessage : Value) (outcome : HttpOutcome) : Except ProviderError ChatResponse :=
  match receive apiErrorMessage outcome with
  | .error error => .error error
  | .ok responseBody =>
    let output := responseOutput responseBody
    match extractRefusal output with
    | some refusal => .error (.refusal refusal)
    | none => .ok
      { text := extractText output
        images := extractImages output
        turnItems := userMessage :: output }

/-- `Responses::chat`.  What the endpoint cannot do is refused before anything is sent; after that there is
    one request, and its answer is an error, a refusal, or text and images with the turn's items. -/
def chat (self : Responses) (request : ChatRequest) (outcomes : Nat → HttpOutcome) : Call :=
  let isXai := self.isXaiRequest request
  let isMeta := self.isMetaModelApiRequest request
  if isXai && request.imageGeneration then
    .fail (.unsupported "xAI Responses does not support OpenAI image_generation")
  else if isMeta && request.imageGeneration then
    .fail (.unsupported
      "Meta Model API Responses supports image understanding, not image_generation")
  else
    let userMessage := userMessage request.input
    let body := requestBody request userMessage isXai
    ⟨[self.httpRequest body], .returned (finish userMessage (outcomes 0))⟩

/-! ## Verbatim replay -/

/-- A block shows a part of the input: its text, or its data URL. -/
def Shows : ContentPart → Value → Prop
  | .text text, block =>
    block.get "type" = some (.string "input_text") ∧ block.get "text" = some (.string text)
  | .image mediaType base64, block =>
    block.get "type" = some (.string "input_image") ∧
      block.get "image_url" = some (.string (dataUrl mediaType base64))
  | .document mediaType base64 name, block =>
    block.get "type" = some (.string "input_file") ∧
      block.get "filename" = some (.string (name.getD "document")) ∧
      block.get "file_data" = some (.string (dataUrl mediaType base64))

/-- The conversation is the request's `input`, and the items of a response are its `output`.  To xAI the
    system prompt goes as an item of its own. -/
def contract (isXai : ChatRequest → Bool) : WireContract where
  conversation httpRequest := (httpRequest.body.get "input").bind Value.asArray
  systemItems request :=
    match request.system, isXai request with
    | some system, true =>
      [.object [("content", .array [.object [("text", .string system), ("type", .string "input_text")]]),
        ("role", .string "system")]]
    | _, _ => []
  Represents input userItem := userItem.get "role" = some (.string "user") ∧
    ∃ blocks, userItem.get "content" = some (.array blocks) ∧ List.Forall₂ Shows input blocks
  responseItems body := arrayAt body "output"
  Paused _ := False
  maxRequests := 1

theorem shows_contentPartToResponses (part : ContentPart) : Shows part (contentPartToResponses part) := by
  cases part with
  | text text => simp [Shows, contentPartToResponses]
  | image mediaType base64 => simp [Shows, contentPartToResponses]
  | document mediaType base64 name => simp [Shows, contentPartToResponses]

theorem represents_userMessage (isXai : ChatRequest → Bool) (input : List ContentPart) :
    (contract isXai).Represents input (userMessage input) := by
  refine ⟨by simp [userMessage], _, by simp [userMessage]; rfl, ?_⟩
  rw [contentPartsToResponses, List.forall₂_map_right_iff]
  exact List.forall₂_same.mpr fun part _ => shows_contentPartToResponses part

/-- The items that the encoder puts before the history are those of the contract. -/
theorem systemItems_eq (request : ChatRequest) (isXai : ChatRequest → Bool) :
    systemItems request (isXai request) = (contract isXai).systemItems request := by
  cases hsystem : request.system with
  | none => simp only [systemItems, contract, hsystem]
  | some system =>
    cases hxai : isXai request with
    | false => simp only [systemItems, contract, hsystem, hxai, Bool.false_eq_true, if_false]
    | true =>
      have hrole : compare "content" "role" = .lt := by decide
      have htype : compare "text" "type" = .lt := by decide
      simp only [systemItems, contract, hsystem, hxai, if_true, Value.json_pair hrole,
        Value.json_pair htype]

theorem conversation_requestBody (self : Responses) (request : ChatRequest) (userMessage : Value)
    (isXai : ChatRequest → Bool) :
    (contract isXai).conversation
        (self.httpRequest (requestBody request userMessage (isXai request))) =
      some ((contract isXai).systemItems request ++ request.history ++ [userMessage]) := by
  have hinput : (requestBody request userMessage (isXai request)).get "input" =
      some (.array (systemItems request (isXai request) ++ request.history ++ [userMessage])) := by
    unfold requestBody
    cases request.system <;> cases isXai request <;>
      cases responsesEffort request.thinking request.model _ <;> dsimp only <;> split <;> simp
  show ((requestBody request userMessage (isXai request)).get "input").bind Value.asArray = _
  rw [hinput, systemItems_eq]
  rfl

theorem finish_ok {userMessage : Value} {outcome : HttpOutcome} {response : ChatResponse}
    (h : finish userMessage outcome = .ok response) :
    ∃ body, received outcome = some body ∧
      response.turnItems = userMessage :: arrayAt body "output" := by
  unfold finish at h
  cases hreceive : receive apiErrorMessage outcome with
  | error error =>
    rw [hreceive] at h
    cases h
  | ok body =>
    rw [hreceive] at h
    dsimp only at h
    split at h
    · cases h
    · cases h
      exact ⟨body, receive_eq_ok.mp hreceive, congrArg _ (asArray_eq_arrayAt body "output")⟩

/-- **Responses replays verbatim**: its one request carries the stored history and then the message of the
    user, and the turn that is to be stored is that message and then the output items of the response,
    unmodified and in their order. The system prompt is an item of its own for xAI alone. -/
theorem verbatim_chat (self : Responses) (request : ChatRequest) (outcomes : Nat → HttpOutcome) :
    Verbatim (contract self.isXaiRequest) request outcomes (userMessage request.input)
      (self.chat request outcomes) := by
  unfold chat
  dsimp only
  split
  · exact .fail _ _
  · split
    · exact .fail _ _
    · exact .single (conversation_requestBody self request _ self.isXaiRequest)
        (fun response h => finish_ok h) (represents_userMessage _ _) (le_refl 1)

end Responses

end Tellm
