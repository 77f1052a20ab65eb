/-
  TELEGRAM: the Bot API client of `tellm-telegram`.

  Every method sends one request after the other and reads what comes back.  The other side is a function of
  the requests sent so far, the last one included: a transport error, or a response with whatever status and
  body.  So a method returns the requests it has sent together with its result.

  1. **`TelegramError`**, with the texts of its `Display`; `sanitizeErrorText` takes the token out of a text.
  2. **The methods**, down to `parse_api_response`.  What parses JSON and decodes bytes is not of this
     repository: `Decoders` stands for it.
  3. **`BotToken`**: a token of the form that Telegram gives.  `TokenFree` says that a text does not hold it;
     every error that a method returns is displayed without it (`error_display_tokenFree`).

  The methods are the ones that the runtime calls: `get_updates`, `get_me`, `send_message` with its
  fallbacks, `send_model_picker`, `send_chat_action`, `send_photo`, `get_file_bytes` with its limit on the
  size.  Each builds its URL from the token, so an error text of the HTTP library may quote it;
  `http_error` takes it out, and `parse_api_response` does the same with what the server says.

  The proof looks at every place where an error is made.  `Guarded` is the property of a result that the
  texts of its error, if it is one, have gone through the sanitizer; one lemma for each method carries it
  on.  A sanitized text is free of the token also across the places of replacement, because the brackets
  around the replacement are in no token; and what `Display` puts around such a text cannot complete one.

  A token is digits, a colon and a name, which is the form in which Telegram gives them out.
-/
import Tellm.Chunks
import Tellm.Markdown
import Tellm.Rooms

namespace Tellm

open Text Substitutions

namespace Telegram

/-! ## Errors -/

/-- `TelegramError`.  Whatever text it holds of the exchange has gone through the sanitizer. -/
inductive TelegramError
  | http (text : List Char)
  | api (code : Int) (description : List Char)
  | invalidResponse (text : List Char)
  | missingFilePath
  | fileTooLarge (size maxBytes : Nat)
  | unsupportedPhotoMediaType
  | emptyModelPicker

/-- A number as `Display` writes it. -/
def decimal (n : Int) : List Char := (toString n).toList

/-- `Display`, as `thiserror` derives it. -/
def TelegramError.display : TelegramError → List Char
  | http text => "http error".toList ++ ": ".toList ++ text
  | api code description => "telegram api error ".toList ++ decimal code ++ ": ".toList ++ description
  | invalidResponse text => "telegram api returned invalid response".toList ++ ": ".toList ++ text
  | missingFilePath => "telegram getFile response did not include file_path".toList
  | fileTooLarge size maxBytes => "telegram file is too large (".toList ++ decimal size ++
      " bytes; maximum ".toList ++ decimal maxBytes ++ " bytes)".toList
  | unsupportedPhotoMediaType =>
    "unsupported Telegram photo media type; expected image/png, image/jpeg, or image/webp".toList
  | emptyModelPicker => "model picker requires at least one model".toList

/-- `str::to_lowercase`, as far as ASCII goes: two letters outside ASCII have ASCII in their lower case. -/
def toLowercase (text : List Char) : List Char :=
  text.flatMap fun c =>
    if c.toNat = 0x212A then ['k'] else if c.toNat = 0x130 then ['i', Char.ofNat 0x307] else [c.toLower]

/-- `str::contains`. -/
def contains (text pattern : List Char) : Bool := (splitAround pattern text).isSome

/-- `should_fallback_from_rich_message_error`: the errors that another request may get around, told by what
    their text contains. -/
def shouldFallbackFromRichMessageError (error : TelegramError) : Bool :=
  let errorText := toLowercase error.display
  ["api error 404", "method not found", "can't parse", "cannot parse", "failed to parse", "can't find end",
    "unsupported start tag", "unsupported tag"].any fun marker => contains errorText marker.toList

/-- `should_fallback_from_html_message_error`: the same for a message in HTML. -/
def shouldFallbackFromHtmlMessageError (error : TelegramError) : Bool :=
  let errorText := toLowercase error.display
  contains errorText "parse entities".toList || contains errorText "can't parse entities".toList

/-! ## Requests -/

/-- What a method asks for, with its payload. -/
inductive Call
  | getUpdates (offset : Int) (timeout : Nat)
  | getMe
  | sendRichMessage (chatId : Int) (markdown : List Char)
  | sendHtmlMessage (chatId : Int) (text : List Char)
  | sendPlainMessage (chatId : Int) (text : List Char)
  | sendModelPicker (chatId : Int) (text : List Char) (keyboard : List (List (List Char)))
  | sendChatAction (chatId : Int)
  | sendPhoto (chatId : Int) (bytes : List UInt8) (mediaType filename : List Char)
  | getFile (fileId : List Char)
  /-- The `GET` of a file's bytes. -/
  | download

/-- The name of the method in the URL. -/
def Call.method : Call → List Char
  | getUpdates _ _ => "getUpdates".toList
  | getMe => "getMe".toList
  | sendRichMessage _ _ => "sendRichMessage".toList
  | sendHtmlMessage _ _ => "sendMessage".toList
  | sendPlainMessage _ _ => "sendMessage".toList
  | sendModelPicker _ _ _ => "sendMessage".toList
  | sendChatAction _ => "sendChatAction".toList
  | sendPhoto _ _ _ _ => "sendPhoto".toList
  | getFile _ => "getFile".toList
  | download => []

/-- A request as it is sent. -/
structure Request where
  url : List Char
  call : Call

/-- What comes back, as far as the client looks at it. -/
structure Response where
  status : Nat
  contentLength : Option Nat
  /-- `text()`: an error's text, or the body. -/
  text : Except (List Char) (List Char)
  /-- What `chunk()` returns, call after call, up to its `None`. -/
  chunks : List (Except (List Char) (List UInt8))

/-- `StatusCode::is_success`. -/
def Response.isSuccess (self : Response) : Bool := 200 ≤ self.status && self.status < 300

/-- What comes back for the last of the requests: the text of a transport error, without its URL, or a
    response. -/
abbrev Server := List Request → Except (List Char) Response

/-- `ApiResponse`: the envelope of every answer. -/
structure ApiResponse (T : Type) where
  ok : Bool
  result : Option T
  errorCode : Option Int
  description : Option (List Char)

/-- The libraries below the client: `serde_json::from_str`, `String::from_utf8_lossy`, and the parser of media
    types, with the texts of their errors. -/
structure Decoders where
  fromStr : (T : Type) → List Char → Except (List Char) (ApiResponse T)
  fromUtf8Lossy : List UInt8 → List Char
  mimeStr : List Char → Except (List Char) Unit

/-- `Telegram`: the token, and the two hosts, of the methods and of the files. -/
structure Client where
  token : List Char
  apiBaseUrl : List Char
  fileBaseUrl : List Char

/-- `sanitize_error_text`: the token, wherever it stands in the text, is replaced.  Everything that an error
    says of the exchange goes through it. -/
def sanitizeErrorText (self : Client) (text : List Char) : List Char :=
  if self.token.isEmpty then text else replaceAll self.token "[REDACTED]".toList text

/-- `http_error`. -/
def httpError (self : Client) (error : List Char) : TelegramError := .http (sanitizeErrorText self error)

/-- `method_url`, which has the token in it. -/
def methodUrl (self : Client) (method : List Char) : List Char :=
  self.apiBaseUrl ++ "/bot".toList ++ self.token ++ '/' :: method

section

variable (self : Client) (decoders : Decoders)

/-- `parse_api_response`: the text first, then the status, then the envelope; each way to fail has an error of
    its own. -/
def parseApiResponse (T : Type) (method : List Char) (response : Response) : Except TelegramError T :=
  match response.text with
  | .error error => .error (httpError self error)
  | .ok text =>
    if !response.isSuccess then
      .error (.api response.status
        (sanitizeErrorText self ("HTTP status from ".toList ++ method ++ ": ".toList ++ text)))
    else
      match decoders.fromStr T text with
      | .error error =>
        .error (.invalidResponse
          (sanitizeErrorText self (method ++ ": non-JSON or malformed JSON: ".toList ++ error)))
      | .ok response =>
        if response.ok then
          match response.result with
          | some result => .ok result
          | none =>
            .error (.invalidResponse
              (sanitizeErrorText self (method ++ ": ok response missing result".toList)))
        else
          .error (.api (response.errorCode.getD 0)
            (sanitizeErrorText self (response.description.getD "unknown error".toList)))

variable (server : Server)

/-- `post_json_with_timeout` and `post_multipart`: what has been sent, with the request, and what came of
    it. -/
def post (T : Type) (sent : List Request) (call : Call) : List Request × Except TelegramError T :=
  let sent := sent ++ [⟨methodUrl self call.method, call⟩]
  match server sent with
  | .error error => (sent, .error (httpError self error))
  | .ok response => (sent, parseApiResponse self decoders T call.method response)

/-! ## Methods -/

/-- `get_updates`: a long poll from an offset. -/
def getUpdates (Update : Type) (sent : List Request) (offset : Int) (timeout : Nat) :
    List Request × Except TelegramError (List Update) :=
  post self decoders server (List Update) sent (.getUpdates offset timeout)

/-- `get_me`. -/
def getMe (User : Type) (sent : List Request) : List Request × Except TelegramError User :=
  post self decoders server User sent .getMe

/-- `send_legacy_message_part`: a part in HTML, and as plain text where its markup is refused. -/
def sendLegacyMessagePart (chatId : Int) (sent : List Request) (part : List Char) :
    List Request × Except TelegramError Unit :=
  match post self decoders server Value sent (.sendHtmlMessage chatId (Markdown.markdownToHtml part)) with
  | (sent, .ok _) => (sent, .ok ())
  | (sent, .error error) =>
    if shouldFallbackFromHtmlMessageError error then
      match post self decoders server Value sent (.sendPlainMessage chatId part) with
      | (sent, .ok _) => (sent, .ok ())
      | (sent, .error error) => (sent, .error error)
    else (sent, .error error)

/-- The inner loop of `send_message`. -/
def sendLegacyParts (chatId : Int) :
    List (List Char) → List Request → List Request × Except TelegramError Unit
  | [], sent => (sent, .ok ())
  | part :: parts, sent =>
    match sendLegacyMessagePart self decoders server chatId sent part with
    | (sent, .ok _) => sendLegacyParts chatId parts sent
    | (sent, .error error) => (sent, .error error)

/-- The outer loop. -/
def sendParts (chatId : Int) : List (List Char) → List Request → List Request × Except TelegramError Unit
  | [], sent => (sent, .ok ())
  | part :: parts, sent =>
    match post self decoders server Value sent (.sendRichMessage chatId part) with
    | (sent, .ok _) => sendParts chatId parts sent
    | (sent, .error error) =>
      if shouldFallbackFromRichMessageError error then
        match sendLegacyParts self decoders server chatId (chunkText part textChunkSize) sent with
        | (sent, .ok _) => sendParts chatId parts sent
        | (sent, .error error) => (sent, .error error)
      else (sent, .error error)

/-- The text of a message: what is left of it, or a placeholder. -/
def messageText (text : List Char) : List Char :=
  if (trim text).isEmpty then "(empty response)".toList else trim text

/-- `send_message`: the text in parts that fit a rich message, one after the other. -/
def sendMessage (chatId : Int) (text : List Char) (sent : List Request) :
    List Request × Except TelegramError Unit :=
  sendParts self decoders server chatId (chunkText (messageText text) richChunkSize) sent

/-- Pairs of buttons. -/
def keyboardRows : List (List Char) → List (List (List Char))
  | first :: second :: keys => [first, second] :: keyboardRows keys
  | [key] => [[key]]
  | [] => []

/-- `model_picker_fallback_text`: the keys in the text, where no keyboard could be sent. -/
def modelPickerFallbackText (text : List Char) (modelKeys : List (List Char)) : List Char :=
  text ++ '\n' :: '\n' :: ['\n'].intercalate (modelKeys.map fun key => "- /model ".toList ++ key)

/-- `send_model_picker`: a message with a keyboard of commands, or else the text of the fallback. -/
def sendModelPicker (chatId : Int) (text : List Char) (modelKeys : List (List Char)) (sent : List Request) :
    List Request × Except TelegramError Unit :=
  if modelKeys.isEmpty then (sent, .error .emptyModelPicker)
  else
    let keyboard := keyboardRows (modelKeys.map fun key => "/model ".toList ++ key)
    match post self decoders server Value sent (.sendModelPicker chatId text keyboard) with
    | (sent, .ok _) => (sent, .ok ())
    | (sent, .error _) =>
      sendMessage self decoders server chatId (modelPickerFallbackText text modelKeys) sent

/-- `send_chat_action`: the typing indicator. -/
def sendChatAction (chatId : Int) (sent : List Request) : List Request × Except TelegramError Unit :=
  match post self decoders server Value sent (.sendChatAction chatId) with
  | (sent, .ok _) => (sent, .ok ())
  | (sent, .error error) => (sent, .error error)

/-- `PhotoMediaType::parse`, with the content type and the file name. -/
def photoMediaType (value : List Char) : Except TelegramError (List Char × List Char) :=
  if value = "image/png".toList then .ok (value, "image.png".toList)
  else if value = "image/jpeg".toList then .ok (value, "image.jpg".toList)
  else if value = "image/webp".toList then .ok (value, "image.webp".toList)
  else .error .unsupportedPhotoMediaType

/-- `send_photo`: an image of a type that Telegram shows, under a file name to match. -/
def sendPhoto (chatId : Int) (imageBytes : List UInt8) (mediaType : List Char) (sent : List Request) :
    List Request × Except TelegramError Unit :=
  match photoMediaType mediaType with
  | .error error => (sent, .error error)
  | .ok (contentType, filename) =>
    match decoders.mimeStr contentType with
    | .error error => (sent, .error (httpError self error))
    | .ok _ =>
      match post self decoders server Value sent (.sendPhoto chatId imageBytes contentType filename) with
      | (sent, .ok _) => (sent, .ok ())
      | (sent, .error error) => (sent, .error error)

/-- `TelegramFile`: the path of a file, which the API may leave out. -/
structure TelegramFile where
  filePath : Option (List Char)

/-- The loop over the chunks of a file. -/
def readChunks (maxBytes : Nat) : List (Except (List Char) (List UInt8)) → List UInt8 →
    Except TelegramError (List UInt8)
  | [], bytes => .ok bytes
  | .error error :: _, _ => .error (httpError self error)
  | .ok chunk :: chunks, bytes =>
    let size := bytes.length + chunk.length
    if size > maxBytes then .error (.fileTooLarge size maxBytes)
    else readChunks maxBytes chunks (bytes ++ chunk)

/-- What `get_file_bytes` makes of the response to its second request. -/
def fileBytes (maxBytes : Nat) (response : Response) : Except TelegramError (List UInt8) :=
  match response.contentLength.filter (· > maxBytes) with
  | some size => .error (.fileTooLarge size maxBytes)
  | none =>
    match readChunks self maxBytes response.chunks [] with
    | .error error => .error error
    | .ok bytes =>
      if !response.isSuccess then
        .error (.api response.status (sanitizeErrorText self (decoders.fromUtf8Lossy bytes)))
      else .ok bytes

/-- `get_file_bytes`: the path is asked for, and then the file is read, up to a limit. -/
def getFileBytes (fileId : List Char) (maxBytes : Nat) (sent : List Request) :
    List Request × Except TelegramError (List UInt8) :=
  match post self decoders server TelegramFile sent (.getFile fileId) with
  | (sent, .error error) => (sent, .error error)
  | (sent, .ok file) =>
    match file.filePath with
    | none => (sent, .error .missingFilePath)
    | some filePath =>
      let url := self.fileBaseUrl ++ "/bot".toList ++ self.token ++ '/' :: filePath.dropWhile (· == '/')
      let sent := sent ++ [⟨url, .download⟩]
      match server sent with
      | .error error => (sent, .error (httpError self error))
      | .ok response => (sent, fileBytes self decoders maxBytes response)

end

/-! ## The token -/

/-- `[A-Za-z0-9_-]`. -/
def nameChar (c : Char) : Bool := c.isAlphanum || c == '_' || c == '-'

/-- A token as Telegram gives it: a number, a colon and a name. -/
structure BotToken where
  digits : List Char
  name : List Char
  digits_ne : digits ≠ []
  isDigit : ∀ c ∈ digits, c.isDigit = true
  name_ne : name ≠ []
  isName : ∀ c ∈ name, nameChar c = true

namespace BotToken

variable (token : BotToken)

/-- The token as it is written. -/
def text : List Char := token.digits ++ ':' :: token.name

theorem text_ne : token.text ≠ [] := by simp [text]

theorem colon_mem : ':' ∈ token.text := by simp [text]

theorem not_mem {c : Char} (hcolon : c ≠ ':') (hdigit : c.isDigit = false) (hname : nameChar c = false) :
    c ∉ token.text := by
  rw [text, List.mem_append, List.mem_cons]
  rintro (h | h | h)
  · rw [token.isDigit c h] at hdigit
    cases hdigit
  · exact hcolon h
  · rw [token.isName c h] at hname
    cases hname

theorem space_not_mem : ' ' ∉ token.text := token.not_mem (by decide) (by decide) (by decide)

/-- No colon, no token. -/
theorem not_infix_of_colon {text : List Char} (h : ':' ∉ text) : ¬ token.text <:+: text :=
  fun hocc => h (hocc.subset token.colon_mem)

/-- A text that ends with its only colon does not hold the token, which goes on behind it. -/
theorem not_infix_of_last {text : List Char} (h : ':' ∉ text) : ¬ token.text <:+: text ++ [':'] := by
  rintro ⟨before, after, heq⟩
  have hne : token.name ++ after ≠ [] := by simp [token.name_ne]
  have hsplit : before ++ token.digits ++ ':' :: (token.name ++ after) = text ++ [':'] := by
    rw [← heq, BotToken.text]
    simp
  have hlast := congrArg List.dropLast hsplit
  rw [List.dropLast_concat, List.dropLast_append_of_ne_nil (List.cons_ne_nil _ _),
    List.dropLast_cons_of_ne_nil hne] at hlast
  refine h ?_
  rw [← hlast]
  simp

/-- What a message says in front of its text does not make a token. -/
theorem not_infix_append {start text : List Char} (hstart : ':' ∉ start) (htext : ¬ token.text <:+: text) :
    ¬ token.text <:+: start ++ ": ".toList ++ text := by
  have hcolon : start ++ ": ".toList ++ text = (start ++ [':']) ++ ' ' :: text := by
    rw [show ": ".toList = [':'] ++ [' '] by decide, ← List.append_assoc, List.append_assoc]
    rfl
  rw [hcolon]
  exact fun h => (infix_append_cons token.space_not_mem h).elim (token.not_infix_of_last hstart) htext

end BotToken

/-- **The sanitizer** leaves nothing of the token. -/
theorem sanitized_tokenFree (token : BotToken) (apiBaseUrl fileBaseUrl raw : List Char) :
    ¬ token.text <:+: sanitizeErrorText ⟨token.text, apiBaseUrl, fileBaseUrl⟩ raw := by
  rw [sanitizeErrorText, if_neg (by simpa using token.text_ne)]
  have hmarker : "[REDACTED]".toList = '[' :: "REDACTED".toList ++ [']'] := by decide
  refine not_infix_replaceAll token.text_ne hmarker ?_ ?_ ?_ raw
  · exact token.not_mem (by decide) (by decide) (by decide)
  · exact token.not_mem (by decide) (by decide) (by decide)
  · exact token.not_infix_of_colon (by decide)

/-- The texts of the error went through the sanitizer. -/
def TelegramError.Sanitized (self : Client) : TelegramError → Prop
  | http text => ∃ raw, text = sanitizeErrorText self raw
  | api _ description => ∃ raw, description = sanitizeErrorText self raw
  | invalidResponse text => ∃ raw, text = sanitizeErrorText self raw
  | _ => True

theorem colon_not_mem_decimal (n : Int) : ':' ∉ decimal n := by
  have hnat : ∀ m : Nat, ':' ∉ (Nat.repr m).toList := by
    intro m hmem
    rw [Nat.toList_repr] at hmem
    cases Nat.isDigit_of_mem_toDigits (by decide) (by decide) hmem
  cases n with
  | ofNat m => exact hnat m
  | negSucc m =>
    show ':' ∉ ("-" ++ Nat.repr (m + 1)).toList
    rw [String.toList_append, List.mem_append]
    exact not_or.mpr ⟨by decide, hnat (m + 1)⟩

/-- Nor does the error's own text bring it back. -/
theorem display_tokenFree (token : BotToken) {apiBaseUrl fileBaseUrl : List Char} {error : TelegramError}
    (h : error.Sanitized ⟨token.text, apiBaseUrl, fileBaseUrl⟩) : ¬ token.text <:+: error.display := by
  -- the only colon in front is followed by a space: the token would have to stand in the text
  have hcarries : ∀ {start text : List Char}, ':' ∉ start →
      (∃ raw, text = sanitizeErrorText ⟨token.text, apiBaseUrl, fileBaseUrl⟩ raw) →
      ¬ token.text <:+: start ++ ": ".toList ++ text := by
    rintro start text hstart ⟨raw, rfl⟩
    exact token.not_infix_append hstart (sanitized_tokenFree token apiBaseUrl fileBaseUrl raw)
  cases error with
  | http text =>
    have hstart : ':' ∉ "http error".toList := by decide
    exact hcarries hstart h
  | api code description =>
    have hstart : ':' ∉ "telegram api error ".toList ++ decimal code := fun h =>
      (List.mem_append.mp h).elim (by decide) (colon_not_mem_decimal code)
    exact hcarries hstart h
  | invalidResponse text =>
    have hstart : ':' ∉ "telegram api returned invalid response".toList := by decide
    exact hcarries hstart h
  | missingFilePath => exact token.not_infix_of_colon (by decide)
  | fileTooLarge size maxBytes =>
    have h1 : ':' ∉ "telegram file is too large (".toList := by decide
    have h2 : ':' ∉ " bytes; maximum ".toList := by decide
    have h3 : ':' ∉ " bytes)".toList := by decide
    refine token.not_infix_of_colon fun hmem => ?_
    rcases List.mem_append.mp hmem with hmem | hmem
    · rcases List.mem_append.mp hmem with hmem | hmem
      · rcases List.mem_append.mp hmem with hmem | hmem
        · exact (List.mem_append.mp hmem).elim h1 (colon_not_mem_decimal size)
        · exact h2 hmem
      · exact colon_not_mem_decimal maxBytes hmem
    · exact h3 hmem
  | unsupportedPhotoMediaType => exact token.not_infix_of_colon (by decide)
  | emptyModelPicker => exact token.not_infix_of_colon (by decide)

/-! ## Every error of every method -/

/-- If there is an error, its texts went through the sanitizer. -/
def Guarded {T : Type} (self : Client) : Except TelegramError T → Prop
  | .ok _ => True
  | .error error => error.Sanitized self

section

variable (self : Client) (decoders : Decoders) (server : Server)

theorem guarded_httpError (error : List Char) : (httpError self error).Sanitized self := ⟨error, rfl⟩

theorem guarded_parseApiResponse (T : Type) (method : List Char) (response : Response) :
    Guarded self (parseApiResponse self decoders T method response) := by
  unfold parseApiResponse
  split
  · exact guarded_httpError self _
  · split
    · exact ⟨_, rfl⟩
    · split
      · exact ⟨_, rfl⟩
      · split
        · split
          · trivial
          · exact ⟨_, rfl⟩
        · exact ⟨_, rfl⟩

theorem guarded_post (T : Type) (sent : List Request) (call : Call) :
    Guarded self (post self decoders server T sent call).2 := by
  unfold post
  dsimp only
  split
  · exact guarded_httpError self _
  · exact guarded_parseApiResponse self decoders T _ _

/-- A method that only drops what it got. -/
theorem guarded_of_eq {T U : Type} {result : List Request × Except TelegramError T} {sent : List Request}
    {error : TelegramError} (hguarded : Guarded self result.2) (h : result = (sent, .error error)) :
    Guarded (T := U) self (.error error) := by
  rw [h] at hguarded
  exact hguarded

theorem guarded_sendLegacyMessagePart (chatId : Int) (sent : List Request) (part : List Char) :
    Guarded self (sendLegacyMessagePart self decoders server chatId sent part).2 := by
  unfold sendLegacyMessagePart
  split
  · trivial
  · rename_i sent' error hpost
    split
    · split
      · trivial
      · rename_i hplain
        exact guarded_of_eq self (guarded_post self decoders server Value _ _) hplain
    · exact guarded_of_eq self (guarded_post self decoders server Value _ _) hpost

theorem guarded_sendLegacyParts (chatId : Int) (parts : List (List Char)) (sent : List Request) :
    Guarded self (sendLegacyParts self decoders server chatId parts sent).2 := by
  induction parts generalizing sent with
  | nil => trivial
  | cons part parts ih =>
    rw [sendLegacyParts]
    split
    · exact ih _
    · rename_i hpart
      exact guarded_of_eq self (guarded_sendLegacyMessagePart self decoders server chatId sent part) hpart

theorem guarded_sendParts (chatId : Int) (parts : List (List Char)) (sent : List Request) :
    Guarded self (sendParts self decoders server chatId parts sent).2 := by
  induction parts generalizing sent with
  | nil => trivial
  | cons part parts ih =>
    rw [sendParts]
    split
    · exact ih _
    · rename_i sent' error hpost
      split
      · split
        · exact ih _
        · rename_i hlegacy
          exact guarded_of_eq self (guarded_sendLegacyParts self decoders server chatId _ _) hlegacy
      · exact guarded_of_eq self (guarded_post self decoders server Value _ _) hpost

theorem guarded_sendMessage (chatId : Int) (text : List Char) (sent : List Request) :
    Guarded self (sendMessage self decoders server chatId text sent).2 :=
  guarded_sendParts self decoders server chatId _ sent

theorem guarded_sendModelPicker (chatId : Int) (text : List Char) (modelKeys : List (List Char))
    (sent : List Request) :
    Guarded self (sendModelPicker self decoders server chatId text modelKeys sent).2 := by
  unfold sendModelPicker
  split
  · trivial
  · dsimp only
    split
    · trivial
    · exact guarded_sendMessage self decoders server chatId _ _

theorem guarded_sendChatAction (chatId : Int) (sent : List Request) :
    Guarded self (sendChatAction self decoders server chatId sent).2 := by
  unfold sendChatAction
  split
  · trivial
  · rename_i hpost
    exact guarded_of_eq self (guarded_post self decoders server Value _ _) hpost

theorem guarded_sendPhoto (chatId : Int) (imageBytes : List UInt8) (mediaType : List Char)
    (sent : List Request) :
    Guarded self (sendPhoto self decoders server chatId imageBytes mediaType sent).2 := by
  unfold sendPhoto
  split
  · rename_i error hparse
    unfold photoMediaType at hparse
    split at hparse
    · cases hparse
    · split at hparse
      · cases hparse
      · split at hparse
        · cases hparse
        · cases hparse
          trivial
  · split
    · exact guarded_httpError self _
    · split
      · trivial
      · rename_i hpost
        exact guarded_of_eq self (guarded_post self decoders server Value _ _) hpost

theorem guarded_readChunks (maxBytes : Nat) (chunks : List (Except (List Char) (List UInt8)))
    (bytes : List UInt8) :
    Guarded self (readChunks self maxBytes chunks bytes) := by
  induction chunks generalizing bytes with
  | nil => trivial
  | cons chunk chunks ih =>
    cases chunk with
    | error error => exact guarded_httpError self error
    | ok chunk =>
      rw [readChunks]
      split
      · trivial
      · exact ih _

theorem guarded_fileBytes (maxBytes : Nat) (response : Response) :
    Guarded self (fileBytes self decoders maxBytes response) := by
  unfold fileBytes
  split
  · trivial
  · split
    · rename_i hread
      have hguarded := guarded_readChunks self maxBytes response.chunks []
      rw [hread] at hguarded
      exact hguarded
    · split
      · exact ⟨_, rfl⟩
      · trivial

theorem guarded_getFileBytes (fileId : List Char) (maxBytes : Nat) (sent : List Request) :
    Guarded self (getFileBytes self decoders server fileId maxBytes sent).2 := by
  unfold getFileBytes
  split
  · rename_i hpost
    exact guarded_of_eq self (guarded_post self decoders server TelegramFile _ _) hpost
  · split
    · trivial
    · dsimp only
      split
      · exact guarded_httpError self _
      · exact guarded_fileBytes self decoders maxBytes _

end

/-- What a caller can show of the result does not hold the token. -/
def TokenFree {T : Type} (token : BotToken) : Except TelegramError T → Prop
  | .ok _ => True
  | .error error => ¬ token.text <:+: error.display

theorem Guarded.tokenFree {T : Type} {token : BotToken} {apiBaseUrl fileBaseUrl : List Char}
    {result : Except TelegramError T} (h : Guarded ⟨token.text, apiBaseUrl, fileBaseUrl⟩ result) :
    TokenFree token result := by
  cases result with
  | ok value => trivial
  | error error => exact display_tokenFree token h

/-- **The token is never displayed**: whatever the server does and whatever the libraries make of it, no
    error of any method shows it. -/
theorem errors_tokenFree (token : BotToken) (apiBaseUrl fileBaseUrl : List Char) (decoders : Decoders)
    (server : Server) (sent : List Request) :
    let self : Client := ⟨token.text, apiBaseUrl, fileBaseUrl⟩
    (∀ Update offset timeout,
      TokenFree token (getUpdates self decoders server Update sent offset timeout).2) ∧
    (∀ User, TokenFree token (getMe self decoders server User sent).2) ∧
    (∀ chatId text, TokenFree token (sendMessage self decoders server chatId text sent).2) ∧
    (∀ chatId text modelKeys,
      TokenFree token (sendModelPicker self decoders server chatId text modelKeys sent).2) ∧
    (∀ chatId, TokenFree token (sendChatAction self decoders server chatId sent).2) ∧
    (∀ chatId imageBytes mediaType,
      TokenFree token (sendPhoto self decoders server chatId imageBytes mediaType sent).2) ∧
    (∀ fileId maxBytes, TokenFree token (getFileBytes self decoders server fileId maxBytes sent).2) := by
  intro self
  refine ⟨?_, ?_, ?_, ?_, ?_, ?_, ?_⟩
  · intro Update offset timeout
    exact (guarded_post self decoders server (List Update) sent _).tokenFree
  · intro User
    exact (guarded_post self decoders server User sent _).tokenFree
  · intro chatId text
    exact (guarded_sendMessage self decoders server chatId text sent).tokenFree
  · intro chatId text modelKeys
    exact (guarded_sendModelPicker self decoders server chatId text modelKeys sent).tokenFree
  · intro chatId
    exact (guarded_sendChatAction self decoders server chatId sent).tokenFree
  · intro chatId imageBytes mediaType
    exact (guarded_sendPhoto self decoders server chatId imageBytes mediaType sent).tokenFree
  · intro fileId maxBytes
    exact (guarded_getFileBytes self decoders server fileId maxBytes sent).tokenFree

end Telegram

end Tellm
