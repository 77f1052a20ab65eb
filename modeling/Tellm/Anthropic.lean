/-
  ANTHROPIC MESSAGES: `tellm-anthropic`, `POST /v1/messages`.

  The only call that may send more than one request: a response that stops with `pause_turn` is echoed
  back as an assistant message and the request is sent again, five times at most.  Two lists grow along
  the loop, the messages of the next request and the assistant messages of the turn.

  1. **The encoder and the extractor**, as the source writes them.
  2. **`pauseTurnLoop`**: the loop, over the iterator `0..=MAX_PAUSE_TURN_CONTINUATIONS`.
  3. **`LoopInv`**: both lists are read off the responses so far; one pass keeps it or ends the call
     (`verbatim_pauseTurnLoop`).

  A response's content is kept as it came, also the blocks that the program does not know, such as those
  of server tools; the text that is shown is what the text blocks say.  The assistant message that is sent
  back is made of exactly that content.

  The loop's bound is an iterator, so the code behind it is reached by nothing; `returns` of `Verbatim`
  says so.  The drawing of images is refused before anything is sent.
-/
import Tellm.Provider

namespace Tellm

/-- The client of the `anthropic` wire format. -/
structure Anthropic where
  baseUrl : String
  apiKey : String

namespace Anthropic

/-- `DEFAULT_BASE_URL`. -/
def defaultBaseUrl : String := "https://api.anthropic.com"
/-- `API_VERSION`, which every request names in a header. -/
def apiVersion : String := "2023-06-01"
/-- `WEB_SEARCH_TOOL_TYPE`: the tool as this version of the API calls it. -/
def webSearchToolType : String := "web_search_20260318"
/-- `WEB_SEARCH_MAX_USES`: how often one turn may search. -/
def webSearchMaxUses : Nat := 5
/-- `DEFAULT_MAX_TOKENS`: the API asks for a limit with each request. -/
def defaultMaxTokens : Nat := 16000
/-- `MAX_PAUSE_TURN_CONTINUATIONS`: how many times a paused turn is asked to go on before the client
    gives up. -/
def maxPauseTurnContinuations : Nat := 5

/-- `Anthropic::new`: the base URL that is configured or the default, without the slashes at its end. -/
def new (apiKey : String) (baseUrl : Option String) : Anthropic :=
  ⟨trimTrailingSlash (baseUrl.getD defaultBaseUrl), apiKey⟩

/-! ## The encoder -/

/-- `content_part_to_anthropic`: a part of the user's message as a `text`, `image` or `document` block. -/
def contentPartToAnthropic : ContentPart → Value
  | .text text => .json [("type", .string "text"), ("text", .string text)]
  | .image mediaType base64 =>
    .json [("type", .string "image"),
      ("source", .json [("type", .string "base64"), ("media_type", .string mediaType),
        ("data", .string base64)])]
  | .document mediaType base64 _ =>
    .json [("type", .string "document"),
      ("source", .json [("type", .string "base64"), ("media_type", .string mediaType),
        ("data", .string base64)])]

/-- `content_parts_to_anthropic`: block by block, in the order of the message. -/
def contentPartsToAnthropic (parts : List ContentPart) : List Value :=
  parts.map contentPartToAnthropic

/-- `anthropic_effort`: how a thinking level is spelled here; for off no effort is sent at all. -/
def anthropicEffort : ThinkingLevel → Option String
  | .off => none
  | .low => some "low"
  | .medium => some "medium"
  | .high => some "high"
  | .max => some "max"

/-- The user's message of this turn, which begins the turn's items. -/
def userMessage (request : ChatRequest) : Value :=
  .json [("role", .string "user"), ("content", .array (contentPartsToAnthropic request.input))]

/-- `request_body`: the model, the limit, the messages so far, the system text in a field of its own, and what
    the request turns on. -/
def requestBody (request : ChatRequest) (messages : List Value) : Value :=
  let body := Fields.of [("model", .string request.model),
    ("max_tokens", .number (toString defaultMaxTokens)), ("messages", .array messages)]
  let body :=
    match request.system with
    | none => body
    | some system =>
      Fields.insert "system" (.array [.json [("type", .string "text"), ("text", .string system),
        ("cache_control", .json [("type", .string "ephemeral")])]]) body
  let body :=
    if request.webSearch then
      Fields.insert "tools" (.array [.json [("type", .string webSearchToolType),
        ("name", .string "web_search"), ("allowed_callers", .array [.string "direct"]),
        ("max_uses", .number (toString webSearchMaxUses))]]) body
    else body
  match anthropicEffort request.thinking with
  | none => .object body
  | some effort =>
    .object (Fields.insert "output_config" (.json [("effort", .string effort)])
      (Fields.insert "thinking" (.json [("type", .string "adaptive")]) body))

/-- The request of `send_request`. -/
def httpRequest (self : Anthropic) (body : Value) : HttpRequest where
  url := s!"{self.baseUrl}/v1/messages"
  headers := [("x-api-key", self.apiKey), ("anthropic-version", apiVersion)]
  body := body

/-! ## The extractor -/

/-- `extract_text`: the text blocks of the content, one behind the other. -/
def extractText (content : List Value) : String :=
  String.join ((content.filter fun block => (block.get "type").bind Value.asStr == some "text").filterMap
    fun block => (block.get "text").bind Value.asStr)

/-- `api_error_message`: what the body of an error response says, under `error.message` or `message`. -/
def apiErrorMessage (value : Value) : String :=
  (((value.pointer ["error", "message"]).or (value.get "message")).bind Value.asStr).getD
    "unknown Anthropic API error"

/-- `refusal_message`: why the model declined, as far as the body says. -/
def refusalMessage (value : Value) : String :=
  (((value.pointer ["stop_details", "explanation"]).or
    (value.pointer ["stop_details", "category"])).bind Value.asStr).getD "request declined"

/-- The `stop_reason` of a response; a body without one has none of those that the loop looks for. -/
def stopReason (responseBody : Value) : String :=
  ((responseBody.get "stop_reason").bind Value.asStr).getD ""

/-- The content of a response; a body without one counts as empty. -/
def responseContent (responseBody : Value) : List Value :=
  ((responseBody.get "content").bind Value.asArray).getD []

/-- A response as a message of the history: its content, unchanged, in the role of the assistant. -/
def assistantMessage (responseBody : Value) : Value :=
  .json [("role", .string "assistant"), ("content", .array (responseContent responseBody))]

/-! ## The call -/

/-- The loop over the continuations that are left.  `sent` is what has gone out so far. -/
def pauseTurnLoop (self : Anthropic) (request : ChatRequest) (outcomes : Nat → HttpOutcome) :
    List Nat → (messages assistantMessages : List Value) → (textParts : List String) →
      (sent : List HttpRequest) → Call
  | [], _, _, _, sent => ⟨sent, .unreachable⟩
  | continuation :: continuations, messages, assistantMessages, textParts, sent =>
    let sent := sent ++ [self.httpRequest (requestBody request messages)]
    match receive apiErrorMessage (outcomes continuation) with
    | .error error => ⟨sent, .returned (.error error)⟩
    | .ok responseBody =>
      let text := extractText (responseContent responseBody)
      if stopReason responseBody = "refusal" then
        ⟨sent, .returned (.error (.refusal
          (if text.isEmpty then refusalMessage responseBody else text)))⟩
      else
        let assistantMessage := assistantMessage responseBody
        let textParts := if text.isEmpty then textParts else textParts ++ [text]
        if stopReason responseBody = "pause_turn" then
          if continuation = maxPauseTurnContinuations then
            ⟨sent, .returned
              (.error (.api 200 "Anthropic pause_turn continuation limit exceeded"))⟩
          else
            self.pauseTurnLoop request outcomes continuations (messages ++ [assistantMessage])
              (assistantMessages ++ [assistantMessage]) textParts sent
        else
          ⟨sent, .returned (.ok
            { text := String.join textParts
              images := []
              turnItems := userMessage request :: (assistantMessages ++ [assistantMessage]) })⟩

/-- `Anthropic::chat`.  Image generation is refused before anything is sent; everything else is the loop over
    a turn and its continuations. -/
def chat (self : Anthropic) (request : ChatRequest) (outcomes : Nat → HttpOutcome) : Call :=
  if request.imageGeneration then
    .fail (.unsupported "Anthropic Messages does not support image generation")
  else
    self.pauseTurnLoop request outcomes (List.range (maxPauseTurnContinuations + 1))
      (request.history ++ [userMessage request]) [] [] []

/-! ## Verbatim replay -/

/-- A block shows a part of the input: its text, or its media type and its data. -/
def Shows : ContentPart → Value → Prop
  | .text text, block =>
    block.get "type" = some (.string "text") ∧ block.get "text" = some (.string text)
  | .image mediaType base64, block =>
    block.get "type" = some (.string "image") ∧
      block.pointer ["source", "media_type"] = some (.string mediaType) ∧
      block.pointer ["source", "data"] = some (.string base64)
  | .document mediaType base64 _, block =>
    block.get "type" = some (.string "document") ∧
      block.pointer ["source", "media_type"] = some (.string mediaType) ∧
      block.pointer ["source", "data"] = some (.string base64)

/-- A response as an assistant message: its `content` blocks, whatever they are. -/
def assistantItem (body : Value) : Value :=
  .object [("content", .array (arrayAt body "content")), ("role", .string "assistant")]

/-- The conversation is the request's `messages`.  The system prompt is a field of its own; a paused response
    is continued. -/
def contract : WireContract where
  conversation httpRequest := (httpRequest.body.get "messages").bind Value.asArray
  systemItems _ := []
  Represents input userItem := userItem.get "role" = some (.string "user") ∧
    ∃ blocks, userItem.get "content" = some (.array blocks) ∧ List.Forall₂ Shows input blocks
  responseItems body := [assistantItem body]
  Paused body := body.get "stop_reason" = some (.string "pause_turn")
  maxRequests := maxPauseTurnContinuations + 1

variable {self : Anthropic} {request : ChatRequest} {outcomes : Nat → HttpOutcome}

theorem shows_contentPartToAnthropic (part : ContentPart) : Shows part (contentPartToAnthropic part) := by
  cases part with
  | text text => simp [Shows, contentPartToAnthropic]
  | image mediaType base64 => simp [Shows, contentPartToAnthropic, Value.pointer]
  | document mediaType base64 name => simp [Shows, contentPartToAnthropic, Value.pointer]

/-- The loop's assistant message is the contract's item. -/
theorem assistantMessage_eq (body : Value) : assistantMessage body = assistantItem body := by
  have hcontent : responseContent body = arrayAt body "content" := asArray_eq_arrayAt body "content"
  have hrole : compare "content" "role" = .lt := by decide
  rw [assistantMessage, hcontent, Value.json_pair hrole, assistantItem]

/-- A response whose stop reason reads `pause_turn` says so. -/
theorem paused_of_stopReason {body : Value} (h : stopReason body = "pause_turn") : contract.Paused body := by
  show body.get "stop_reason" = some (.string "pause_turn")
  unfold stopReason at h
  cases hreason : body.get "stop_reason" with
  | none => simp [hreason] at h
  | some value =>
    rw [hreason] at h
    cases value with
    | string reason => exact congrArg (fun s => some (Value.string s)) h
    | _ => simp [Value.asStr] at h

theorem represents_userMessage : contract.Represents request.input (userMessage request) := by
  refine ⟨by simp [userMessage], _, by simp [userMessage]; rfl, ?_⟩
  rw [contentPartsToAnthropic, List.forall₂_map_right_iff]
  exact List.forall₂_same.mpr fun part _ => shows_contentPartToAnthropic part

theorem conversation_requestBody (messages : List Value) :
    contract.conversation (self.httpRequest (requestBody request messages)) = some messages := by
  have hmessages : (requestBody request messages).get "messages" = some (.array messages) := by
    unfold requestBody
    cases request.system <;> cases request.webSearch <;> cases anthropicEffort request.thinking <;>
      simp
  show ((requestBody request messages).get "messages").bind Value.asArray = some messages
  rw [hmessages]
  rfl

/-- Before the `k`-th pass: the two lists and the requests so far are read off the first `k` responses,
    every one of them paused. -/
structure LoopInv (request : ChatRequest) (outcomes : Nat → HttpOutcome) (k : Nat)
    (messages assistantMessages : List Value) (sent : List HttpRequest) : Prop where
  messages : messages = request.history ++ [userMessage request] ++ contract.itemsReceived outcomes k
  assistantMessages : assistantMessages = contract.itemsReceived outcomes k
  length : sent.length = k
  sent : ∀ i (hi : i < sent.length), contract.conversation sent[i] =
    some (request.history ++ [userMessage request] ++ contract.itemsReceived outcomes i)
  paused : ∀ i < k, ∃ body, received (outcomes i) = some body ∧ contract.Paused body

theorem loopInv_start : LoopInv request outcomes 0 (request.history ++ [userMessage request]) [] [] where
  messages := (List.append_nil _).symm
  assistantMessages := rfl
  length := rfl
  sent i hi := absurd hi (Nat.not_lt_zero i)
  paused i hi := absurd hi (Nat.not_lt_zero i)

variable {k : Nat} {messages assistantMessages : List Value} {sent : List HttpRequest}

/-- The request of a pass carries the messages. -/
theorem LoopInv.sent_snoc (inv : LoopInv request outcomes k messages assistantMessages sent) :
    ∀ i (hi : i < (sent ++ [self.httpRequest (requestBody request messages)]).length),
      contract.conversation (sent ++ [self.httpRequest (requestBody request messages)])[i] =
        some (request.history ++ [userMessage request] ++ contract.itemsReceived outcomes i) := by
  intro i hi
  by_cases hlt : i < sent.length
  · rw [List.getElem_append_left hlt]
    exact inv.sent i hlt
  · obtain rfl : i = sent.length := by
      rw [List.length_append, List.length_singleton] at hi
      omega
    rw [List.getElem_concat_length rfl, conversation_requestBody, inv.messages, inv.length]

/-- A paused response moves the loop on. -/
theorem LoopInv.continue (inv : LoopInv request outcomes k messages assistantMessages sent)
    {body : Value} (hbody : received (outcomes k) = some body) (hpause : stopReason body = "pause_turn") :
    LoopInv request outcomes (k + 1) (messages ++ [assistantMessage body])
      (assistantMessages ++ [assistantMessage body])
      (sent ++ [self.httpRequest (requestBody request messages)]) := by
  have hitems : contract.itemsReceived outcomes (k + 1) =
      contract.itemsReceived outcomes k ++ [assistantMessage body] := by
    rw [contract.itemsReceived_succ, hbody, assistantMessage_eq]
    rfl
  refine ⟨?_, ?_, ?_, inv.sent_snoc, ?_⟩
  · rw [hitems, ← List.append_assoc, ← inv.messages]
  · rw [hitems, ← inv.assistantMessages]
  · rw [List.length_append, inv.length, List.length_singleton]
  · intro i hi
    rcases Nat.lt_succ_iff_lt_or_eq.mp hi with hi | rfl
    · exact inv.paused i hi
    · exact ⟨body, hbody, paused_of_stopReason hpause⟩

/-- A pass that ends the call with an error, or with a turn made of the responses so far. -/
theorem LoopInv.verbatim (inv : LoopInv request outcomes k messages assistantMessages sent)
    (hk : k ≤ maxPauseTurnContinuations) {result : Except ProviderError ChatResponse}
    (hok : ∀ response, result = .ok response →
      response.turnItems = userMessage request :: contract.itemsReceived outcomes (k + 1)) :
    Verbatim contract request outcomes (userMessage request)
      ⟨sent ++ [self.httpRequest (requestBody request messages)], .returned result⟩ := by
  have hlength : (sent ++ [self.httpRequest (requestBody request messages)]).length = k + 1 := by
    rw [List.length_append, inv.length, List.length_singleton]
  refine ⟨inv.sent_snoc, ?_, ?_, Or.inl represents_userMessage, ?_, by simp⟩
  · intro i hi
    exact inv.paused i (by rw [hlength] at hi; omega)
  · intro response h
    refine ⟨by simp, ?_⟩
    rw [hlength]
    exact hok response (CallOutcome.returned.inj h)
  · rw [hlength]
    exact Nat.succ_le_succ hk

/-- **The loop**: from the `k`-th pass on, with the passes that are left, the call is verbatim. -/
theorem verbatim_pauseTurnLoop (continuations : List Nat) :
    ∀ {k : Nat} {messages assistantMessages : List Value} {textParts : List String}
      {sent : List HttpRequest},
    continuations = List.range' k (maxPauseTurnContinuations + 1 - k) → k ≤ maxPauseTurnContinuations →
    LoopInv request outcomes k messages assistantMessages sent →
    Verbatim contract request outcomes (userMessage request)
      (self.pauseTurnLoop request outcomes continuations messages assistantMessages textParts sent) := by
  -- on the passes left; `LoopInv` says what the transcript is at the pass that comes
  induction continuations with
  | nil =>
    intro k messages assistantMessages textParts sent hrange hk
    have hlength := congrArg List.length hrange
    rw [List.length_range', List.length_nil] at hlength
    omega
  | cons continuation continuations ih =>
    intro k messages assistantMessages textParts sent hrange hk inv
    obtain ⟨n, hn⟩ : ∃ n, maxPauseTurnContinuations + 1 - k = n + 1 :=
      ⟨maxPauseTurnContinuations - k, by omega⟩
    rw [hn, List.range'_succ] at hrange
    obtain ⟨rfl, hrest⟩ := List.cons.inj hrange
    rw [pauseTurnLoop]
    cases hreceive : receive apiErrorMessage (outcomes continuation) with
    | error error => exact inv.verbatim hk (by simp)
    | ok body =>
      have hbody := receive_eq_ok.mp hreceive
      dsimp only
      by_cases hrefusal : stopReason body = "refusal"
      · rw [if_pos hrefusal]
        exact inv.verbatim hk (by simp)
      · rw [if_neg hrefusal]
        by_cases hpause : stopReason body = "pause_turn"
        · rw [if_pos hpause]
          by_cases hlast : continuation = maxPauseTurnContinuations
          · rw [if_pos hlast]
            exact inv.verbatim hk (by simp)
          · rw [if_neg hlast]
            refine ih ?_ (by omega) (inv.continue hbody hpause)
            rw [hrest]
            congr 1
            omega
        · -- the answer is the last one
          rw [if_neg hpause]
          refine inv.verbatim hk ?_
          intro response hresponse
          obtain rfl := Except.ok.inj hresponse
          dsimp only
          rw [contract.itemsReceived_succ, hbody, inv.assistantMessages, assistantMessage_eq]
          rfl

/-- **Anthropic replays verbatim**: the loop sends six requests at most and never runs out. -/
theorem verbatim_chat (self : Anthropic) (request : ChatRequest) (outcomes : Nat → HttpOutcome) :
    Verbatim contract request outcomes (userMessage request) (self.chat request outcomes) := by
  unfold chat
  split
  · exact .fail _ _
  · refine verbatim_pauseTurnLoop _ ?_ (Nat.zero_le _) loopInv_start
    rw [List.range_eq_range']
    rfl

end Anthropic

end Tellm
