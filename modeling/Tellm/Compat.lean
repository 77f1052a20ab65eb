/-
  COMPAT: `tellm-compat`, `POST /chat/completions`, the dialect of everybody else's endpoint.

  One request a call, and two encodings of the user's input: a text that is all text becomes ONE string,
  anything else an array of blocks.  The array drops documents, so a request with one must be refused
  before; `validateSupported` does, and `represents_userMessage` needs it.

  An endpoint of this dialect may need no key, and may be reached by HTTP where the config allows it; both
  are decided elsewhere (`Tellm.Credentials`).  Here the request is built and the answer read: the message
  of the first choice is kept whole, with whatever fields the endpoint has added, and its content is the
  text that is shown.

  The system prompt is a message of its own before the history, as the role of the room gives it.  A
  refusal in the message, or a choice that a content filter has ended, ends the call with an error, and
  nothing of it is kept.
-/
import Tellm.Provider
import Tellm.Text

namespace Tellm

/-- The client of the `compat` wire format.  A local server needs no key. -/
structure Compat where
  chatCompletionsUrl : String
  apiKey : Option String

namespace Compat

/-- `chat_completions_url`. -/
def chatCompletionsUrlOf (baseUrl : String) : String := trimTrailingSlash baseUrl ++ "/chat/completions"

/-- An API key of white space only is no key. -/
def new (apiKey baseUrl : String) : Compat :=
  ⟨chatCompletionsUrlOf baseUrl,
    if (Text.trim apiKey.toList).isEmpty then none else some apiKey⟩

/-! ## The encoder -/

/-- `matches!(part, ContentPart::Document { .. })`. -/
def isDocument : ContentPart → Bool
  | .document .. => true
  | _ => false

/-- `validate_supported`: chat completions have neither tool and take no documents, so a request that needs one
    of them is refused. -/
def validateSupported (request : ChatRequest) : Except ProviderError Unit :=
  if request.webSearch then
    .error (.unsupported "chat completions compat does not support provider-native web search")
  else if request.imageGeneration then
    .error (.unsupported "chat completions compat does not support image generation")
  else if request.input.any isDocument then
    .error (.unsupported "chat completions compat does not support documents")
  else .ok ()

/-- The text of a text part. -/
def partText : ContentPart → Option String
  | .text text => some text
  | _ => none

/-- The block of a part; a document has none. -/
def partBlock : ContentPart → Option Value
  | .text text => some (.json [("type", .string "text"), ("text", .string text)])
  | .image mediaType base64 =>
    some (.json [("type", .string "image_url"),
      ("image_url", .json [("url", .string (dataUrl mediaType base64))])])
  | .document .. => none

/-- `content_parts_to_chat`: a message of texts only is one string, as older servers want it; any other is a
    list of blocks. -/
def contentPartsToChat (parts : List ContentPart) : Value :=
  if parts.all fun part => (partText part).isSome then
    .string (String.join (parts.filterMap partText))
  else .array (parts.filterMap partBlock)

/-- The user's message of this turn, which begins the turn's items. -/
def userMessage (parts : List ContentPart) : Value :=
  .json [("role", .string "user"), ("content", contentPartsToChat parts)]

/-- `reasoning_effort`: how a thinking level is spelled here; for off no effort is sent at all. -/
def reasoningEffort : ThinkingLevel → Option String
  | .off => none
  | .low => some "low"
  | .medium => some "medium"
  | .high => some "high"
  | .max => some "high"

/-- The system prompt as a message. -/
def systemItems (request : ChatRequest) : List Value :=
  match request.system with
  | some system => [.json [("role", .string "system"), ("content", .string system)]]
  | none => []

/-- `request_body`: the model, the messages (system message, history, user message), and the effort. -/
def requestBody (request : ChatRequest) (userMessage : Value) : Value :=
  let messages := systemItems request ++ request.history ++ [userMessage]
  let body := Fields.of [("model", .string request.model), ("messages", .array messages),
    ("stream", .bool false)]
  match reasoningEffort request.thinking with
  | some effort => .object (Fields.insert "reasoning_effort" (.string effort) body)
  | none => .object body

/-- The request of `send_request`: the key only where there is one. -/
def httpRequest (self : Compat) (body : Value) : HttpRequest where
  url := self.chatCompletionsUrl
  headers :=
    match self.apiKey with
    | some apiKey => [("authorization", s!"Bearer {apiKey}")]
    | none => []
  body := body

/-! ## The extractor -/

/-- `extract_text`: the content of the message, which is a string or a list of parts. -/
def extractText (message : Value) : String :=
  match message.get "content" with
  | some (.string text) => text
  | some (.array parts) =>
    String.join ((parts.filter fun part => (part.get "type").bind Value.asStr == some "text").filterMap
      fun part => (part.get "text").bind Value.asStr)
  | _ => ""

/-- `api_error_message`: what the body of an error response says, under `error.message` or `message`. -/
def apiErrorMessage (value : Value) : String :=
  (((value.pointer ["error", "message"]).or (value.get "message")).bind Value.asStr).getD
    "unknown chat completions API error"

/-- The first choice; `Null` where there is none. -/
def responseChoice (responseBody : Value) : Value :=
  (((responseBody.get "choices").bind Value.asArray).bind List.head?).getD .null

/-- The assistant's message, as the first choice has it; a response without one counts as an empty message. -/
def responseMessage (responseBody : Value) : Value :=
  ((responseChoice responseBody).get "message").getD
    (.json [("role", .string "assistant"), ("content", .null)])

/-! ## The call -/

/-- The end of `chat`, once the request has met its outcome. -/
def finish (userMessage : Value) (outcome : HttpOutcome) : Except ProviderError ChatResponse :=
  match receive apiErrorMessage outcome with
  | .error error => .error error
  | .ok responseBody =>
    let choice := responseChoice responseBody
    let message := responseMessage responseBody
    match (message.get "refusal").bind Value.asStr with
    | some refusal => .error (.refusal refusal)
    | none =>
      if (choice.get "finish_reason").bind Value.asStr = some "content_filter" then
        .error (.refusal "response blocked by content filter")
      else .ok
        { text := extractText message
          images := []
          turnItems := [userMessage, message] }

/-- `Compat::chat`: what chat completions cannot do is refused before anything is sent; then there is one
    request. -/
def chat (self : Compat) (request : ChatRequest) (outcomes : Nat → HttpOutcome) : Call :=
  match validateSupported request with
  | .error error => .fail error
  | .ok () =>
    let userMessage := userMessage request.input
    let body := requestBody request userMessage
    ⟨[self.httpRequest body], .returned (finish userMessage (outcomes 0))⟩

/-! ## Verbatim replay -/

/-- A block shows a part of the input: its text, or its data URL. -/
def Shows : ContentPart → Value → Prop
  | .text text, block =>
    block.get "type" = some (.string "text") ∧ block.get "text" = some (.string text)
  | .image mediaType base64, block =>
    block.get "type" = some (.string "image_url") ∧
      block.pointer ["image_url", "url"] = some (.string (dataUrl mediaType base64))
  | .document .., _ => False

/-- The content of a user message: the blocks of its parts, or the texts of its parts joined. -/
def ShowsAll (input : List ContentPart) (content : Value) : Prop :=
  (∃ blocks, content = .array blocks ∧ List.Forall₂ Shows input blocks) ∨
    ∃ texts, content = .string (String.join texts) ∧ input = texts.map .text

/-- The message of the first choice; an answer without one counts as an empty message. -/
def firstMessage (body : Value) : Value :=
  match arrayAt body "choices" with
  | [] => .object [("content", .null), ("role", .string "assistant")]
  | choice :: _ =>
    match choice.get "message" with
    | some message => message
    | none => .object [("content", .null), ("role", .string "assistant")]

/-- The conversation is the request's `messages`, the system prompt the first of them; the item of a response
    is its first choice's message. -/
def contract : WireContract where
  conversation httpRequest := (httpRequest.body.get "messages").bind Value.asArray
  systemItems request :=
    match request.system with
    | some system => [.object [("content", .string system), ("role", .string "system")]]
    | none => []
  Represents input userItem := userItem.get "role" = some (.string "user") ∧
    ∃ content, userItem.get "content" = some content ∧ ShowsAll input content
  responseItems body := [firstMessage body]
  Paused _ := False
  maxRequests := 1

/-- Of a request without documents, every part has its block. -/
theorem forall₂_partBlock {parts : List ContentPart}
    (h : ∀ part ∈ parts, ∀ mediaType base64 name, part ≠ .document mediaType base64 name) :
    List.Forall₂ Shows parts (parts.filterMap partBlock) := by
  induction parts with
  | nil => exact .nil
  | cons part parts ih =>
    have ih := ih fun part hpart => h part (List.mem_cons_of_mem _ hpart)
    cases part with
    | text text => exact .cons (by simp [Shows]) ih
    | image mediaType base64 => exact .cons (by simp [Shows, Value.pointer]) ih
    | document mediaType base64 name => exact absurd rfl (h _ List.mem_cons_self mediaType base64 name)

/-- Parts that are all text are the texts they are joined from. -/
theorem map_text_filterMap {parts : List ContentPart}
    (h : parts.all (fun part => (partText part).isSome) = true) :
    parts = (parts.filterMap partText).map .text := by
  induction parts with
  | nil => rfl
  | cons part parts ih =>
    rw [List.all_cons, Bool.and_eq_true] at h
    cases part with
    | text text =>
      have htext : partText (.text text) = some text := rfl
      rw [List.filterMap_cons_some htext, List.map_cons, ← ih h.2]
    | image mediaType base64 => cases h.1
    | document mediaType base64 name => cases h.1

theorem represents_userMessage {request : ChatRequest} (h : validateSupported request = .ok ()) :
    contract.Represents request.input (userMessage request.input) := by
  refine ⟨by simp [userMessage], contentPartsToChat request.input, by simp [userMessage], ?_⟩
  rw [contentPartsToChat]
  split
  · rename_i hall
    exact Or.inr ⟨_, rfl, map_text_filterMap hall⟩
  · refine Or.inl ⟨_, rfl, forall₂_partBlock ?_⟩
    rintro part hpart mediaType base64 name rfl
    have hany : request.input.any isDocument = true := List.any_eq_true.mpr ⟨_, hpart, rfl⟩
    unfold validateSupported at h
    rw [hany] at h
    simp only [if_true] at h
    split at h
    · cases h
    · split at h
      · cases h
      · cases h

theorem systemItems_eq (request : ChatRequest) : systemItems request = contract.systemItems request := by
  cases hsystem : request.system with
  | none => simp only [systemItems, contract, hsystem]
  | some system =>
    have hrole : compare "content" "role" = .lt := by decide
    simp only [systemItems, contract, hsystem, Value.json_pair hrole]

/-- The extractor takes the message that the contract names. -/
theorem responseMessage_eq (body : Value) : responseMessage body = firstMessage body := by
  have hchoices := asArray_eq_arrayAt body "choices"
  unfold responseMessage responseChoice firstMessage
  rw [← hchoices]
  cases (body.get "choices").bind Value.asArray with
  | none => rfl
  | some choices =>
    cases choices with
    | nil => rfl
    | cons choice choices =>
      have hrole : compare "content" "role" = .lt := by decide
      show (choice.get "message").getD (Value.json _) = _
      rw [Value.json_pair hrole]
      cases hmessage : choice.get "message" <;> simp [hmessage]

theorem conversation_requestBody (self : Compat) (request : ChatRequest) (userMessage : Value) :
    contract.conversation (self.httpRequest (requestBody request userMessage)) =
      some (contract.systemItems request ++ request.history ++ [userMessage]) := by
  have hmessages : (requestBody request userMessage).get "messages" =
      some (.array (systemItems request ++ request.history ++ [userMessage])) := by
    unfold requestBody
    cases reasoningEffort request.thinking <;> simp
  show ((requestBody request userMessage).get "messages").bind Value.asArray = _
  rw [hmessages, systemItems_eq]
  rfl

theorem finish_ok {userMessage : Value} {outcome : HttpOutcome} {response : ChatResponse}
    (h : finish userMessage outcome = .ok response) :
    ∃ body, received outcome = some body ∧ response.turnItems = [userMessage, firstMessage body] := by
  unfold finish at h
  cases hreceive : receive apiErrorMessage outcome with
  | error error =>
    rw [hreceive] at h
    cases h
  | ok body =>
    rw [hreceive] at h
    dsimp only at h
    split at h
    · cases h
    · split at h
      · cases h
      · cases h
        exact ⟨body, receive_eq_ok.mp hreceive, congrArg _ (congrArg (List.cons · []) (responseMessage_eq body))⟩

/-- What is refused is refused as unsupported. -/
theorem validateSupported_error {request : ChatRequest} {error : ProviderError}
    (h : validateSupported request = .error error) : ∃ feature, error = .unsupported feature := by
  unfold validateSupported at h
  split at h
  · exact ⟨_, (Except.error.inj h).symm⟩
  · split at h
    · exact ⟨_, (Except.error.inj h).symm⟩
    · split at h
      · exact ⟨_, (Except.error.inj h).symm⟩
      · cases h

/-- **Compat replays verbatim**: its one request carries the system prompt, the history as it is stored and
    the message of the user, and the turn that is to be stored is that message and then the one of the
    response, unmodified. -/
theorem verbatim_chat (self : Compat) (request : ChatRequest) (outcomes : Nat → HttpOutcome) :
    Verbatim contract request outcomes (userMessage request.input) (self.chat request outcomes) := by
  unfold chat
  split
  · rename_i error herror
    obtain ⟨feature, rfl⟩ := validateSupported_error herror
    exact .fail _ _
  · rename_i hok
    exact .single (conversation_requestBody self request _) (fun response h => finish_ok h)
      (represents_userMessage hok) (le_refl 1)

end Compat

end Tellm
