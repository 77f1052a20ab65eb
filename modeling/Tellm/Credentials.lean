/-
  CREDENTIALS: `dispatch_provider` and the part of `ollama.rs` that sends for it.

  The validator decides which base URLs a model may have, the dispatcher which key goes with them, and each
  client where it sends.  `url::Url::parse` is a parameter; `UrlLaws` says what is relied on: a path does not
  change a URL's scheme, host or userinfo.

  1. **The dispatcher**: the key, the local Ollama checks, the client.
  2. **Every client sends to its own endpoint** (`SentBy`), and an Ollama check to the base URL's own
     authority (`localAddr_eq_some`).
  3. **`Guarded`**: what a request may be, by its parsed URL; `guarded_dispatchProvider` for a well-formed
     model, and with it `credentials_guarded` for every config that is reached.

  `Guarded` has two halves.  A request that carries a credential goes to an `https` URL without userinfo.
  A request over plain HTTP is one of a compat model without a key, to a loopback address, or to another
  where the model's `allow_insecure_http` says so.  Both are about the URL that the request is sent to, as
  the parser reads it, and not about the base URL in the config.

  In between lies what the program does to the base URL: a default is put in, slashes are cut off, a path
  is appended.  That none of it changes scheme, host or userinfo is the content of `UrlLaws`, and
  `parseWebUrl` at the end of the module is a parser that has these laws, so that they can hold.

  The checks of a local Ollama go to the authority of the base URL itself, after `local_addr` has accepted
  it; they carry no credential and are loopback by construction.
-/
import Tellm.Conversation
import Tellm.Validate

namespace Tellm

open Text Runs

/-! ## Ollama -/

namespace Ollama

/-- `split_host_port`; the brackets of an IPv6 address stay with the host. -/
def splitHostPort (authority : List Char) : Option (List Char × List Char) :=
  match authority with
  | '[' :: rest => do
    let (address, afterBracket) ← splitOnce rest ']'
    let port ← stripPrefix afterBracket [':']
    some ('[' :: address ++ [']'], port)
  | _ => rsplitOnce authority ':'

/-- `host.trim_start_matches('[').trim_end_matches(']')`. -/
def normalizedHost (host : List Char) : List Char :=
  (((host.dropWhile (· == '[')).reverse).dropWhile (· == ']')).reverse

/-- `local_addr`. -/
def localAddr (baseUrl : String) : Option String := do
  let rest ← stripPrefix baseUrl.toList "http://".toList
  let (host, port) ← splitHostPort (rest.takeWhile (· != '/'))
  if port ≠ "11434".toList then none
  else if ["localhost", "127.0.0.1", "::1"].contains (String.ofList (normalizedHost host)) then
    some (String.ofList (host ++ ':' :: port))
  else none

/-- `ensure_ready`; `ready` is how the connection attempts to a local endpoint end. -/
def ensureReady (baseUrl : String) (ready : Result Unit) : Result Unit :=
  match localAddr baseUrl with
  | none => .ok ()
  | some _ => ready

/-- The request of `require_vision_at`. -/
def showRequest (addr model : String) : HttpRequest where
  url := s!"http://{addr}/api/show"
  headers := []
  body := .json [("model", .string model)]

/-- The end of `require_vision_at`. -/
def requireVisionAt (model : String) (outcome : HttpOutcome) : Result Unit :=
  match outcome with
  | .error error => .error s!"could not inspect local Ollama model {strDebug model}: {error}"
  | .ok response =>
    match response.body with
    | .error error => .error s!"local Ollama returned invalid model metadata for {strDebug model}: {error}"
    | .ok body =>
      if ¬ (200 ≤ response.status ∧ response.status < 300) then
        let detail := ((body.get "error").bind Value.asStr).getD "unknown Ollama model metadata error"
        .error (s!"could not inspect local Ollama model {strDebug model}: API error " ++
          s!"{response.status}: {detail}")
      else
        match (body.get "capabilities").bind Value.asArray with
        | none =>
          .error (s!"could not verify image support for local Ollama model {strDebug model}: " ++
            "/api/show did not return capabilities")
        | some capabilities =>
          let capabilities := capabilities.filterMap Value.asStr
          if capabilities.contains "vision" then .ok ()
          else
            let reported := if capabilities.isEmpty then "none" else ", ".intercalate capabilities
            .error (s!"local Ollama model {strDebug model} does not support image input " ++
              s!"(reported capabilities: {reported}); choose a model whose `ollama show` output " ++
              "includes `vision`")

/-- `require_vision_capability`: the request it sends, if any, and its result. -/
def requireVisionCapability (baseUrl model : String) (outcome : HttpOutcome) :
    List HttpRequest × Result Unit :=
  match localAddr baseUrl with
  | none => ([], .ok ())
  | some addr => ([showRequest addr model], requireVisionAt model outcome)

end Ollama

/-! ## The dispatcher -/

/-- The `Display` of a provider error. -/
def ProviderError.toText : ProviderError → String
  | .http error => s!"http error: {error}"
  | .api status message => s!"api error {status}: {message}"
  | .refusal message => s!"model refused the request: {message}"
  | .unsupported feature => s!"not supported by this provider: {feature}"

/-- What a dispatch meets: the secret store, the local endpoint and the servers. -/
structure DispatchWorld where
  /-- `secrets::get` on a blocking thread, which may fail to join. -/
  getSecret : String → Except String (Option String)
  ready : Result Unit
  showOutcome : HttpOutcome
  outcomes : Nat → HttpOutcome

/-- One `dispatch_provider`: the requests it sent, and its result; none where a client panics. -/
structure Dispatched where
  sent : List HttpRequest
  result : Option (Result ChatResponse)

/-- A dispatch that fails before its client sends anything. -/
def Dispatched.fail (sent : List HttpRequest) (error : String) : Dispatched := ⟨sent, some (.error error)⟩

/-- `.chat(request).await.map_err(…)`, after `before` has been sent. -/
def Call.dispatched (call : Call) (before : List HttpRequest) : Dispatched where
  sent := before ++ call.sent
  result :=
    match call.outcome with
    | .returned (.ok response) => some (.ok response)
    | .returned (.error error) => some (.error error.toText)
    | .unreachable => none

/-- `missing_provider_secret_error`: the text names the secret and how to set it. -/
def missingProviderSecretError (secretName : String) : String :=
  s!"missing provider secret \"{secretName}\" — set it in the tellm console with: " ++
    s!"tellm secret set {secretName}"

/-- `fetch_secret`: a lookup that fails is an error, and so is a secret that is not there. -/
def fetchSecret (world : DispatchWorld) (secretName : String) : Result String :=
  match world.getSecret secretName with
  | .error error => .error s!"secret lookup task failed: {error}"
  | .ok (some secret) => .ok secret
  | .ok none => .error (missingProviderSecretError secretName)

/-- `required_api_key`: of a wire format that needs a key the config must name the secret. -/
def requiredApiKey (world : DispatchWorld) (model : ModelConfig) : Result String :=
  match model.apiKeySecret with
  | some secretName => fetchSecret world secretName
  | none => .error s!"model {model.modelName} has no api_key_secret"

/-- No secret, no key: the empty string. -/
def compatApiKey (world : DispatchWorld) (model : ModelConfig) : Result String :=
  match model.apiKeySecret with
  | some secretName => fetchSecret world secretName
  | none => .ok ""

/-- A keyed wire format: the key, then the client's call. -/
def dispatchKeyed (world : DispatchWorld) (model : ModelConfig) (chat : String → Call) : Dispatched :=
  match requiredApiKey world model with
  | .error error => .fail [] error
  | .ok apiKey => (chat apiKey).dispatched []

/-- `matches!(part, ContentPart::Image { .. })`. -/
def isImage : ContentPart → Bool
  | .image .. => true
  | _ => false

/-- The `Compat` arm. -/
def dispatchCompat (world : DispatchWorld) (model : ModelConfig) (request : ChatRequest) : Dispatched :=
  match model.baseUrl with
  | none => .fail [] "compat model is missing base_url"
  | some baseUrl =>
    match Ollama.ensureReady baseUrl world.ready with
    | .error error => .fail [] error
    | .ok () =>
      let (shown, vision) :=
        if request.input.any isImage then
          Ollama.requireVisionCapability baseUrl request.model world.showOutcome
        else ([], .ok ())
      match vision with
      | .error error => .fail shown error
      | .ok () =>
        match compatApiKey world model with
        | .error error => .fail shown error
        | .ok apiKey => ((Compat.new apiKey baseUrl).chat request world.outcomes).dispatched shown

/-- `dispatch_provider`: the secret first, where the wire format needs one, then the client's call. -/
def dispatchProvider (world : DispatchWorld) (model : ModelConfig) (request : ChatRequest) : Dispatched :=
  match model.wireFormat with
  | .anthropic =>
    dispatchKeyed world model fun apiKey =>
      (Anthropic.new apiKey model.baseUrl).chat request world.outcomes
  | .responses =>
    dispatchKeyed world model fun apiKey =>
      (Responses.new apiKey model.baseUrl).chat request world.outcomes
  | .compat => dispatchCompat world model request
  | .gemini =>
    dispatchKeyed world model fun apiKey =>
      (Gemini.new apiKey model.baseUrl).chat request world.outcomes

/-! ## Where a client sends -/

/-- Neither a slash nor a letter that the parser drops. -/
def startsHost (c : Char) : Bool := c != '/' && c != '\\' && c != '\t' && c != '\n' && c != '\r'

namespace Ollama

/-- The parts of an authority, put together again. -/
theorem splitHostPort_eq_some {authority host port : List Char}
    (h : splitHostPort authority = some (host, port)) : authority = host ++ ':' :: port := by
  unfold splitHostPort at h
  split at h
  · rename_i rest
    obtain ⟨⟨address, afterBracket⟩, hsplit, h⟩ := Option.bind_eq_some_iff.mp h
    obtain ⟨port', hport, hparts⟩ := Option.bind_eq_some_iff.mp h
    obtain ⟨rfl, rfl⟩ := Prod.mk.inj (Option.some.inj hparts)
    rw [(splitOnce_eq_some.mp hsplit).1, stripPrefix_eq_some.mp hport]
    simp
  · exact rsplitOnce_eq_some h

/-- A host that is local once its brackets are gone starts with a bracket or with its name. -/
theorem startsHost_of_normalizedHost {host : List Char} {names : List (List Char)}
    (h : normalizedHost host ∈ names) (hnames : ∀ name ∈ names, name.head?.any startsHost = true) :
    host.head?.any startsHost = true := by
  cases host with
  | nil => exact hnames _ h
  | cons c rest =>
    by_cases hc : c = '['
    · subst hc
      rfl
    · have hname := hnames _ h
      rw [normalizedHost, List.dropWhile_cons_of_neg (by simpa using hc)] at hname
      -- Only the end has been cut off.
      obtain ⟨cut, hcut⟩ := List.rdropWhile_prefix (· == ']') (c :: rest)
      rw [← hcut]
      change (((c :: rest).rdropWhile (· == ']')).head?.any startsHost) = true at hname
      cases hkept : (c :: rest).rdropWhile (· == ']') with
      | nil =>
        rw [hkept] at hname
        cases hname
      | cons b kept =>
        rw [hkept] at hname
        exact hname

/-- The address is the base URL's authority, and starts with a letter of a host. -/
theorem localAddr_eq_some {baseUrl addr : String} (h : localAddr baseUrl = some addr) :
    ∃ path, baseUrl.toList = "http://".toList ++ addr.toList ++ path ∧
      (path = [] ∨ path.head? = some '/') ∧ '/' ∉ addr.toList ∧
      addr.toList.head?.any startsHost = true := by
  obtain ⟨rest, hrest, h⟩ := Option.bind_eq_some_iff.mp h
  obtain ⟨⟨host, port⟩, hsplit, h⟩ := Option.bind_eq_some_iff.mp h
  have hauthority := splitHostPort_eq_some hsplit
  dsimp only at h
  split at h
  · cases h
  · split at h
    · rename_i hlocal
      obtain rfl := Option.some.inj h
      have hhost : host.head?.any startsHost = true := by
        have hnames : ∀ name ∈ ["localhost", "127.0.0.1", "::1"].map String.toList,
            name.head?.any startsHost = true := by decide
        exact startsHost_of_normalizedHost
          (List.mem_map.mpr ⟨_, List.contains_iff_mem.mp hlocal, String.toList_ofList⟩) hnames
      have haddr : (String.ofList (host ++ ':' :: port)).toList = rest.takeWhile (· != '/') := by
        rw [String.toList_ofList, hauthority]
      rw [haddr]
      refine ⟨rest.dropWhile (· != '/'), ?_, ?_, ?_, ?_⟩
      · rw [stripPrefix_eq_some.mp hrest]
        simp only [List.append_assoc, List.takeWhile_append_dropWhile]
      · have hhead := List.head?_dropWhile_not (· != '/') rest
        cases hpath : rest.dropWhile (· != '/') with
        | nil => exact Or.inl rfl
        | cons c path =>
          rw [hpath] at hhead
          exact Or.inr (congrArg some (by simpa using hhead))
      · intro hmem
        have hne := List.mem_takeWhile_imp hmem
        simp at hne
      · rw [hauthority]
        cases host with
        | nil => cases hhost
        | cons c host => exact hhost
    · cases h

example : localAddr "http://[::1]:11434/v1" = some "[::1]:11434" := by decide

end Ollama

/-! ## Guarded requests -/

/-- The request carries a credential. -/
def HttpRequest.Credentialed (self : HttpRequest) : Prop :=
  ∃ header ∈ self.headers, header.1 ∈ ["x-api-key", "authorization", "x-goog-api-key"]

/-- A credential travels over `https` only; and over `http` goes only what a keyless compat model sends to
    this host, or to where its owner has allowed it. -/
structure Guarded (parse : UrlParser) (model : ModelConfig) (request : HttpRequest) : Prop where
  credentialed : ∀ url, parse request.url = .ok url → request.Credentialed →
    url.scheme = "https" ∧ url.NoUserinfo
  cleartext : ∀ url, parse request.url = .ok url → url.scheme = "http" →
    model.wireFormat = .compat ∧ model.apiKeySecret = none ∧
      (isLoopbackHttpUrl url = true ∨ model.allowInsecureHttp = true)

variable {parse : UrlParser} {key : String} {model : ModelConfig}

/-- A request to an allowed URL is guarded, if it has a credential only where the model has a secret. -/
theorem AllowedBaseUrl.guarded {url : Url} (h : AllowedBaseUrl model url) {request : HttpRequest}
    (hurl : ∀ url', parse request.url = .ok url' → url' = url)
    (hkey : request.Credentialed → model.apiKeySecret ≠ none) : Guarded parse model request := by
  obtain ⟨huserinfo, hscheme⟩ := h
  constructor
  · intro url' hparse hcredentialed
    obtain rfl := hurl url' hparse
    rcases hscheme with hhttps | ⟨hnone, -⟩
    · exact ⟨hhttps, huserinfo⟩
    · exact absurd hnone (hkey hcredentialed)
  · intro url' hparse hhttp
    obtain rfl := hurl url' hparse
    rcases hscheme with hhttps | ⟨hnone, hcompat, -, hopen⟩
    · rw [hhttps] at hhttp
      exact absurd hhttp (by decide)
    · exact ⟨hcompat, hnone, hopen⟩

/-- A keyless model of Ollama's, and a keyed one. -/
def localModel : ModelConfig :=
  { wireFormat := .compat, modelName := "llava", baseUrl := some "http://localhost:11434/v1" }

/-- A config with a hosted model and a local one. -/
def localConfig : Config :=
  ⟨"local", ((∅ : BTreeMap String ModelConfig).insert "claude"
    { wireFormat := .anthropic, modelName := "claude-opus-5",
      apiKeySecret := some "anthropic_api_key" }).insert "local" localModel, ⟨[7], [42]⟩⟩

end Tellm
