/-
  PROVIDERS: what the four wire formats share, and the contract that all four owe the runtime.

  A provider's history is opaque: its items go back VERBATIM on later turns.  Each wire format has an
  encoder and an extractor of its own (`Tellm.Anthropic`, `Tellm.Responses`, `Tellm.Compat`,
  `Tellm.Gemini`); what they have in common is here.

  1. **JSON**: the part of `serde_json` they use.  An object is a `BTreeMap`, so a field list in key order.
  2. **HTTP**: a request as it is sent, and what comes back; `receive` is the end of every `send_request`.
  3. **`Call`**: what one `Provider::chat` sent and how it ended.
  4. **`WireContract`, `Verbatim`**: the opaque-history rule.  A wire format says where it puts the
     conversation, what it puts before the history, which items a response brings and when it shows a part
     of the input; `Verbatim` is what the runtime relies on.  A contract reads the JSON that goes over the
     wire and writes its items out, so it shares no encoder and no extractor with the client.

  `receive` is where the four clients agree: a request that fails, a body that cannot be read as JSON, and
  a status that is not a success each end the call with an error, the last with the message that the
  client finds in the body.  A call is described by what it sent, in order, and by how it ended; `outcomes
  i` is what its i-th request meets, so the server is arbitrary.

  `Verbatim` has six clauses.  Every request's conversation is the system's items, the history, one user
  item, and what the responses so far brought; a call goes on only if a response asks for it; the items of
  a turn are the user's and those received; the user item shows the input, or the call is refused before
  anything is sent; there are at most so many requests; and the loop's last line, which the source marks
  as unreachable, is never reached.
-/
import Tellm.ModelTurn

namespace Tellm

/-! ## JSON -/

/-- `serde_json::Map`: a `BTreeMap`, its entries in key order. -/
abbrev Fields := List (String × Value)

/-- `Map::insert`, which is also `body[key] = value`. -/
def Fields.insert (key : String) (value : Value) : Fields → Fields
  | [] => [(key, value)]
  | (other, otherValue) :: fields =>
    match compare key other with
    | .lt => (key, value) :: (other, otherValue) :: fields
    | .eq => (key, value) :: fields
    | .gt => (other, otherValue) :: Fields.insert key value fields

/-- `json!({ … })`: its entries inserted one by one. -/
def Fields.of (entries : List (String × Value)) : Fields :=
  entries.foldl (fun fields entry => Fields.insert entry.1 entry.2 fields) []

namespace Value

/-- `serde_json::Value::get` with a string: the field of an object, and nothing of any other value. -/
def get (self : Value) (key : String) : Option Value :=
  match self with
  | .object fields => fields.lookup key
  | _ => none

/-- `serde_json::Value::as_str`. -/
def asStr : Value → Option String
  | .string value => some value
  | _ => none

/-- `serde_json::Value::as_array`. -/
def asArray : Value → Option (List Value)
  | .array values => some values
  | _ => none

/-- `Value::pointer`, for reference tokens that are no array index. -/
def pointer (self : Value) (tokens : List String) : Option Value :=
  tokens.foldl (fun value token => value.bind (·.get token)) (some self)

/-- `json!({ … })` as a value. -/
def json (entries : List (String × Value)) : Value := .object (Fields.of entries)

end Value

@[simp] theorem Fields.lookup_cons (field : String × Value) (fields : Fields) (key : String) :
    List.lookup key (field :: fields) =
      if key = field.1 then some field.2 else fields.lookup key := by
  rw [List.lookup]
  split <;> simp_all

@[simp] theorem Fields.lookup_insert (key other : String) (value : Value) (fields : Fields) :
    (Fields.insert key value fields).lookup other =
      if other = key then some value else fields.lookup other := by
  induction fields with
  | nil => exact Fields.lookup_cons _ _ _
  | cons field fields ih =>
    obtain ⟨k, v⟩ := field
    rw [Fields.insert]
    cases hc : compare key k with
    | lt => exact Fields.lookup_cons _ _ _
    | eq =>
      obtain rfl := compare_eq_iff_eq.mp hc
      by_cases ho : other = key <;> simp [ho]
    | gt =>
      have hne : k ≠ key := by
        rintro rfl
        rw [compare_eq_iff_eq.mpr rfl] at hc
        cases hc
      show List.lookup other ((k, v) :: Fields.insert key value fields) = _
      rw [Fields.lookup_cons, Fields.lookup_cons, ih]
      by_cases ho : other = k
      · subst ho
        simp [hne]
      · simp [ho]

/-- A field of an object literal. -/
@[simp] theorem Fields.lookup_of (entries : List (String × Value)) (key : String) :
    (Fields.of entries).lookup key = entries.reverse.lookup key := by
  induction entries using List.reverseRecOn with
  | nil => rfl
  | append_singleton entries entry ih =>
    rw [Fields.of, List.foldl_append, List.reverse_append]
    show (Fields.insert entry.1 entry.2 (Fields.of entries)).lookup key =
      (entry :: entries.reverse).lookup key
    rw [Fields.lookup_insert, Fields.lookup_cons, ih]

@[simp] theorem Value.get_object (fields : Fields) (key : String) :
    (Value.object fields).get key = fields.lookup key := rfl

@[simp] theorem Value.get_json (entries : List (String × Value)) (key : String) :
    (Value.json entries).get key = entries.reverse.lookup key := Fields.lookup_of entries key

/-- A literal of two entries, its second key the smaller one, as it stands in the map. -/
theorem Value.json_pair {a b : String} (h : compare b a = .lt) (x y : Value) :
    Value.json [(a, x), (b, y)] = .object [(b, y), (a, x)] := by
  simp only [Value.json, Fields.of, List.foldl_cons, List.foldl_nil, Fields.insert, h]

/-! ## HTTP -/

/-- A `POST` with a JSON body. -/
structure HttpRequest where
  url : String
  headers : List (String × String)
  body : Value

/-- What the server answered; a body that is no JSON is an error of the client library. -/
structure HttpResponse where
  status : Nat
  body : Except String Value

/-- The outcome of sending a request: an answer, or none. -/
abbrev HttpOutcome := Except String HttpResponse

/-- `ProviderError`: the exchange failed, the provider answered with an error or declined, or the request is
    one that the endpoint has no way to serve. -/
inductive ProviderError
  | http (error : String)
  | api (status : Nat) (message : String)
  | refusal (message : String)
  | unsupported (feature : String)
  deriving DecidableEq

/-- `GeneratedImage`: its type, and its bytes as the provider encoded them. -/
structure GeneratedImage where
  mediaType : String
  base64 : String
  deriving DecidableEq

/-- `ChatResponse`: what the chat is shown, and the items that the room's history keeps of the turn, in the
    provider's own format. -/
structure ChatResponse where
  text : String
  images : List GeneratedImage
  turnItems : List Value

/-- The body that a successful answer brings. -/
def HttpResponse.success (response : HttpResponse) : Option Value :=
  if 200 ≤ response.status ∧ response.status < 300 then response.body.toOption else none

/-- `send_request` from `.send()` on.  The four differ in how they read an error body. -/
def receive (apiErrorMessage : Value → String) (outcome : HttpOutcome) : Except ProviderError Value :=
  match outcome with
  | .error error => .error (.http error)
  | .ok response =>
    match response.body with
    | .error error => .error (.http error)
    | .ok body =>
      if 200 ≤ response.status ∧ response.status < 300 then .ok body
      else .error (.api response.status (apiErrorMessage body))

/-- The body that an outcome brings to the caller. -/
def received (outcome : HttpOutcome) : Option Value :=
  outcome.toOption.bind HttpResponse.success

theorem receive_eq_ok {apiErrorMessage : Value → String} {outcome : HttpOutcome} {body : Value} :
    receive apiErrorMessage outcome = .ok body ↔ received outcome = some body := by
  unfold receive received HttpResponse.success
  cases outcome with
  | error error => simp [Except.toOption]
  | ok response =>
    cases hbody : response.body with
    | error error => simp [Except.toOption, hbody]
    | ok value =>
      by_cases hstatus : 200 ≤ response.status ∧ response.status < 300 <;>
        simp [Except.toOption, hbody, hstatus]

/-- `trim_trailing_slash`. -/
def trimTrailingSlash (value : String) : String :=
  String.ofList (value.toList.reverse.dropWhile (· == '/')).reverse

/-- `char::escape_debug` inside a string.  Beyond Latin-1 Rust asks the Unicode tables which characters
    print; here all of them do. -/
def escapeDebug (c : Char) : List Char :=
  if c = '\x00' then ['\\', '0']
  else if c = '\t' then ['\\', 't']
  else if c = '\r' then ['\\', 'r']
  else if c = '\n' then ['\\', 'n']
  else if c = '"' then ['\\', '"']
  else if c = '\\' then ['\\', '\\']
  else if c.toNat < 32 ∨ (127 ≤ c.toNat ∧ c.toNat ≤ 160) ∨ c.toNat = 173 then
    ['\\', 'u', '\x7b'] ++ Nat.toDigits 16 c.toNat ++ ['\x7d']
  else [c]

/-- Rust's `{:?}` of a string. -/
def strDebug (text : String) : String := "\"" ++ String.ofList (text.toList.flatMap escapeDebug) ++ "\""

/-- `str::contains`. -/
def strContains (value part : String) : Bool := value.toList.tails.any part.toList.isPrefixOf

/-- `data_url`. -/
def dataUrl (mediaType base64 : String) : String := s!"data:{mediaType};base64,{base64}"

/-! ## A call -/

/-- How a call ends: it returns, or reaches an `unreachable!`. -/
inductive CallOutcome
  | returned (result : Except ProviderError ChatResponse)
  | unreachable

/-- One `Provider::chat`: the requests it sent, in order, and how it ended. -/
structure Call where
  sent : List HttpRequest
  outcome : CallOutcome

/-- A call that fails before it sends anything. -/
def Call.fail (error : ProviderError) : Call := ⟨[], .returned (.error error)⟩

/-! ## The opaque-history rule -/

/-- The array under a key of a body; a body without one brings nothing. -/
def arrayAt (body : Value) (key : String) : List Value :=
  match body with
  | .object fields =>
    match fields.lookup key with
    | some (.array values) => values
    | _ => []
  | _ => []

/-- What the clients compute with `get` and `as_array`. -/
theorem asArray_eq_arrayAt (body : Value) (key : String) :
    ((body.get key).bind Value.asArray).getD [] = arrayAt body key := by
  cases body with
  | object fields =>
    rw [Value.get_object]
    cases hfield : fields.lookup key with
    | none => simp [arrayAt, hfield]
    | some value => cases value <;> simp [arrayAt, hfield, Value.asArray]
  | _ => rfl

/-- What a wire format makes of a conversation, in terms of the JSON on the wire. -/
structure WireContract where
  /-- The conversation array of a request. -/
  conversation : HttpRequest → Option (List Value)
  /-- The items before the history, from the request's system prompt. -/
  systemItems : ChatRequest → List Value
  /-- The user item shows the parts of the input, in order. -/
  Represents : List ContentPart → Value → Prop
  /-- The items of a response, from its body. -/
  responseItems : Value → List Value
  /-- The response asks to be continued. -/
  Paused : Value → Prop
  maxRequests : Nat

/-- The items of the first `n` responses of a call, in order. -/
def WireContract.itemsReceived (contract : WireContract) (outcomes : Nat → HttpOutcome) (n : Nat) :
    List Value :=
  (List.range n).flatMap fun i => ((received (outcomes i)).map contract.responseItems).getD []

/-- The call replays its history verbatim.  `outcomes i` is what its `i`-th request meets. -/
structure Verbatim (contract : WireContract) (request : ChatRequest) (outcomes : Nat → HttpOutcome)
    (userItem : Value) (call : Call) : Prop where
  sent : ∀ i (hi : i < call.sent.length), contract.conversation call.sent[i] =
    some (contract.systemItems request ++ request.history ++ [userItem] ++
      contract.itemsReceived outcomes i)
  continued : ∀ i, i + 1 < call.sent.length →
    ∃ body, received (outcomes i) = some body ∧ contract.Paused body
  turnItems : ∀ response, call.outcome = .returned (.ok response) →
    call.sent ≠ [] ∧
      response.turnItems = userItem :: contract.itemsReceived outcomes call.sent.length
  input : contract.Represents request.input userItem ∨
    ∃ feature, call = .fail (.unsupported feature)
  bounded : call.sent.length ≤ contract.maxRequests
  returns : call.outcome ≠ .unreachable

namespace WireContract

variable {contract : WireContract} {outcomes : Nat → HttpOutcome}

@[simp] theorem itemsReceived_zero : contract.itemsReceived outcomes 0 = [] := rfl

theorem itemsReceived_succ (n : Nat) :
    contract.itemsReceived outcomes (n + 1) = contract.itemsReceived outcomes n ++
      ((received (outcomes n)).map contract.responseItems).getD [] := by
  simp [itemsReceived, List.range_succ]

end WireContract

/-- A call that fails before sending is verbatim, whatever its user item would have been. -/
theorem Verbatim.fail {contract : WireContract} {request : ChatRequest}
    {outcomes : Nat → HttpOutcome} (userItem : Value) (feature : String) :
    Verbatim contract request outcomes userItem (.fail (.unsupported feature)) where
  sent i hi := absurd hi (Nat.not_lt_zero i)
  continued i hi := absurd hi (Nat.not_lt_zero _)
  turnItems response h := by cases h
  input := Or.inr ⟨feature, rfl⟩
  bounded := Nat.zero_le _
  returns h := by cases h

/-- A call of one request. -/
theorem Verbatim.single {contract : WireContract} {request : ChatRequest}
    {outcomes : Nat → HttpOutcome} {userItem : Value} {httpRequest : HttpRequest}
    {result : Except ProviderError ChatResponse}
    (hsent : contract.conversation httpRequest =
      some (contract.systemItems request ++ request.history ++ [userItem]))
    (hok : ∀ response, result = .ok response → ∃ body, received (outcomes 0) = some body ∧
      response.turnItems = userItem :: contract.responseItems body)
    (hinput : contract.Represents request.input userItem) (hmax : 1 ≤ contract.maxRequests) :
    Verbatim contract request outcomes userItem ⟨[httpRequest], .returned result⟩ where
  sent i hi := by
    obtain rfl : i = 0 := Nat.lt_one_iff.mp hi
    rw [contract.itemsReceived_zero, List.append_nil]
    exact hsent
  continued i hi := absurd hi (by simp)
  turnItems response h := by
    cases h
    obtain ⟨body, hbody, hitems⟩ := hok response rfl
    refine ⟨List.cons_ne_nil _ _, ?_⟩
    rw [hitems]
    simp [contract.itemsReceived_succ, hbody]
  input := Or.inl hinput
  bounded := hmax
  returns h := by cases h


end Tellm
