/-
  DELIVERED: what a chat gets to see of a reply.

  `send_message` sends a text in parts, and a part that is refused for its markup in smaller ones, first as
  HTML and then as they are.  `send_response` sends the text of a response and then its images.  Each stops
  at the first request that fails for another reason.

  1. **`accepted`**: which of the requests the server has taken; `Delivery` says what one of them shows.
  2. **`Delivers`**: what has been taken shows the text, or a proper beginning of it when there is an error.
     It composes: a part after a part (`Delivers.append`), a part in its own parts (`Delivers.retry`).
  3. **`delivers_sendMessage`** and **`delivers_sendResponse`**: whatever the server answers, the chat sees
     all of the reply once and in order, or a proper beginning of it and the caller an error.

  The server is the one of `Tellm.Telegram`, a function of the requests so far; it may answer each with
  success, with a refusal, with something unreadable, or not at all.  What the chat has seen is what the
  client read as accepted: a request that was carried out and whose answer was lost is not counted, since
  nobody in the program can know of it.

  `Delivery` is what an accepted request puts on the screen, a text as HTML, a text as it is, or an
  image.  `SeenWith` says what a list of them amounts to for a reply: its parts in order, trimmed at the
  ends where Telegram trims, each part once.

  That a part is not shown twice is the point of the fallback: the HTML of a part is refused as a whole
  before the part is sent again in smaller pieces, and a request that failed for another reason ends the
  reply.
-/
import Tellm.Sending
import Tellm.Provider

namespace Tellm

open Text Chunks

/-! ## The response of a provider -/

/-- The `base64` library: `decode`, with the texts of its errors. -/
abbrev Base64Decode := List Char → Except (List Char) (List UInt8)

namespace Telegram

section

variable (self : Client) (decoders : Decoders) (server : Server) (decode : Base64Decode)

/-- `decode_image`. -/
def decodeImage (image : GeneratedImage) : Except (List Char) (List Char × List UInt8) :=
  match decode image.base64.toList with
  | .error error => .error ("generated image was not valid base64: ".toList ++ error)
  | .ok bytes => .ok (image.mediaType.toList, bytes)

/-- The loop over the images of `send_response`. -/
def sendImages (chatId : Int) :
    List GeneratedImage → List Request → List Request × Except (List Char) Unit
  | [], sent => (sent, .ok ())
  | image :: images, sent =>
    match decodeImage decode image with
    | .error error => (sent, .error error)
    | .ok (mediaType, bytes) =>
      match sendPhoto self decoders server chatId bytes mediaType sent with
      | (sent, .ok _) => sendImages chatId images sent
      | (sent, .error error) => (sent, .error error.display)

/-- The text of a response is sent, unless it is blank and there are images. -/
def sendsText (response : ChatResponse) : Bool :=
  !(trim response.text.toList).isEmpty || response.images.isEmpty

/-- `send_response`: the text, if there is any or nothing else, and then the images. -/
def sendResponse (chatId : Int) (response : ChatResponse) (sent : List Request) :
    List Request × Except (List Char) Unit :=
  if sendsText response then
    match sendMessage self decoders server chatId response.text.toList sent with
    | (sent, .ok _) => sendImages self decoders server decode chatId response.images sent
    | (sent, .error error) => (sent, .error error.display)
  else sendImages self decoders server decode chatId response.images sent

/-! ## What has been taken -/

/-- The server takes the call, after what has been sent: the client reads its answer as ok.  A message that
    the chat shows although the answer was lost, or could not be read, is not taken in this sense. -/
def takes (sent : List Request) (call : Call) : Bool :=
  match (post self decoders server Value sent call).2 with
  | .ok _ => true
  | .error _ => false

/-- Those of the requests after `sent` that the server has taken, in order. -/
def accepted : List Request → List Request → List Call
  | _, [] => []
  | sent, request :: rest =>
    (if takes self decoders server sent request.call then [request.call] else []) ++
      accepted (sent ++ [request]) rest

end

/-- A message as the chat sees it, and where it is from. -/
inductive Delivery
  | rich (text : List Char)
  /-- Converted to HTML. -/
  | html (text : List Char)
  | plain (text : List Char)

namespace Delivery

/-- The request that makes the delivery. -/
def call (chatId : Int) : Delivery → Call
  | rich text => .sendRichMessage chatId text
  | html text => .sendHtmlMessage chatId (Markdown.markdownToHtml text)
  | plain text => .sendPlainMessage chatId text

/-- The part of the text that it shows. -/
def text : Delivery → List Char
  | rich text => text
  | html text => text
  | plain text => text

/-- It is not longer than Telegram allows. -/
def Fits : Delivery → Prop
  | rich text => text.length ≤ richChunkSize.1
  | html text => text.length ≤ textChunkSize.1
  | plain text => text.length ≤ textChunkSize.1

end Delivery

/-- What the deliveries show, one after the other. -/
def shown (deliveries : List Delivery) : List Char := (deliveries.map Delivery.text).flatten

section

variable {client : Client} {decoders : Decoders} {server : Server} {chatId : Int}

theorem accepted_append (sent first rest : List Request) :
    accepted client decoders server sent (first ++ rest) =
      accepted client decoders server sent first ++ accepted client decoders server (sent ++ first) rest := by
  induction first generalizing sent with
  | nil => simp [accepted]
  | cons request first ih => simp [accepted, ih]

/-- All of the text is seen; or, with an error, a proper beginning of it. -/
def ShownWith {ε : Type} (result : Except ε Unit) (seen text : List Char) : Prop :=
  match result with
  | .ok _ => seen = text
  | .error _ => ∃ missing, missing ≠ [] ∧ seen ++ missing = text

variable (client decoders server chatId) in
/-- What the server has taken beyond `sent` shows the text; when there is an error, a proper beginning. -/
structure Delivers {ε : Type} (sent sent' : List Request) (text : List Char) (result : Except ε Unit) :
    Prop where
  shows : ∃ rest deliveries, sent' = sent ++ rest ∧
    accepted client decoders server sent rest = deliveries.map (Delivery.call chatId) ∧
    (∀ delivery ∈ deliveries, delivery.Fits) ∧ ShownWith result (shown deliveries) text

variable {ε : Type} {sent m sent' : List Request} {text text' : List Char} {result : Except ε Unit}

theorem Delivers.refl (sent : List Request) :
    Delivers client decoders server chatId sent sent [] (.ok () : Except ε Unit) := by
  refine ⟨[], [], ?_, rfl, fun _ h => absurd h List.not_mem_nil, rfl⟩
  rw [List.append_nil]

theorem shown_append (first rest : List Delivery) : shown (first ++ rest) = shown first ++ shown rest := by
  rw [shown, List.map_append, List.flatten_append]
  rfl

/-- One part after the other. -/
theorem Delivers.append (hfirst : Delivers client decoders server chatId sent m text (.ok () : Except ε Unit))
    (hrest : Delivers client decoders server chatId m sent' text' result) :
    Delivers client decoders server chatId sent sent' (text ++ text') result := by
  obtain ⟨first, before, rfl, hbefore, hfits, hshown⟩ := hfirst.shows
  obtain ⟨rest, after, rfl, hafter, hfits', hshows⟩ := hrest.shows
  refine ⟨first ++ rest, before ++ after, List.append_assoc _ _ _, ?_, ?_, ?_⟩
  · rw [accepted_append, hbefore, hafter, List.map_append]
  · intro delivery hmem
    rcases List.mem_append.mp hmem with hmem | hmem
    · exact hfits delivery hmem
    · exact hfits' delivery hmem
  · rw [shown_append, show shown before = text from hshown]
    cases result with
    | ok _ => exact congrArg (text ++ ·) hshows
    | error _ =>
      obtain ⟨missing, hne, rfl⟩ := hshows
      exact ⟨missing, hne, List.append_assoc _ _ _⟩

/-- A part fails, and what comes after it is not sent. -/
theorem Delivers.stop {error : ε}
    (hfirst : Delivers client decoders server chatId sent sent' text (.error error)) (later : List Char) :
    Delivers client decoders server chatId sent sent' (text ++ later) (.error error : Except ε Unit) := by
  obtain ⟨rest, deliveries, hsent, haccepted, hfits, missing, hne, rfl⟩ := hfirst.shows
  refine ⟨rest, deliveries, hsent, haccepted, hfits, missing ++ later, ?_, (List.append_assoc _ _ _).symm⟩
  exact List.append_ne_nil_of_left_ne_nil hne later

theorem takes_eq {sent sent' : List Request} {call : Call} {result : Except TelegramError Value}
    (hpost : post client decoders server Value sent call = (sent', result)) :
    sent' = sent ++ [⟨methodUrl client call.method, call⟩] ∧
      (takes client decoders server sent call = true ↔ ∃ value, result = .ok value) := by
  constructor
  · rw [← sent_post client decoders server (T := Value) sent call, hpost]
  · rw [takes, hpost]
    cases result with
    | ok value => exact iff_of_true rfl ⟨value, rfl⟩
    | error error => exact iff_of_false Bool.false_ne_true fun ⟨_, h⟩ => (by cases h)

/-- A request that is taken shows its part. -/
theorem delivers_taken (delivery : Delivery) {value : Value} (hfits : delivery.Fits)
    (hpost : post client decoders server Value sent (delivery.call chatId) = (sent', .ok value)) :
    Delivers client decoders server chatId sent sent' delivery.text (.ok () : Except ε Unit) := by
  obtain ⟨rfl, htakes⟩ := takes_eq hpost
  refine ⟨_, [delivery], rfl, ?_, ?_, List.append_nil _⟩
  · rw [accepted, if_pos (htakes.mpr ⟨value, rfl⟩)]
    rfl
  · intro d hd
    rw [List.mem_singleton.mp hd]
    exact hfits

/-- A request that is not taken shows nothing; what follows counts from before it. -/
theorem Delivers.retry {call : Call} {error : TelegramError}
    (hpost : post client decoders server Value sent call = (m, .error error))
    (hrest : Delivers client decoders server chatId m sent' text result) :
    Delivers client decoders server chatId sent sent' text result := by
  obtain ⟨rfl, htakes⟩ := takes_eq hpost
  obtain ⟨rest, deliveries, rfl, haccepted, hfits, hshows⟩ := hrest.shows
  refine ⟨_ :: rest, deliveries, (List.append_cons sent _ rest).symm, ?_, hfits, hshows⟩
  have hnot : takes client decoders server sent call ≠ true := by
    intro h
    obtain ⟨_, h⟩ := htakes.mp h
    cases h
  rw [accepted, if_neg hnot, List.nil_append]
  exact haccepted

theorem delivers_nothing {error : ε} (hne : text ≠ []) :
    Delivers client decoders server chatId sent sent text (.error error : Except ε Unit) := by
  refine ⟨[], [], ?_, rfl, fun _ h => absurd h List.not_mem_nil, text, hne, rfl⟩
  rw [List.append_nil]

/-! ## A message -/

variable (client decoders server chatId)

theorem delivers_sendLegacyMessagePart {part : List Char} (hne : part ≠ [])
    (hfits : part.length ≤ textChunkSize.1) (sent : List Request) :
    Delivers client decoders server chatId sent (sendLegacyMessagePart client decoders server chatId sent part).1
      part (sendLegacyMessagePart client decoders server chatId sent part).2 := by
  unfold sendLegacyMessagePart
  split
  · rename_i value hhtml
    exact delivers_taken (.html part) hfits hhtml
  · rename_i error hhtml
    split
    · split
      · rename_i value hplain
        exact (delivers_taken (.plain part) hfits hplain).retry hhtml
      · rename_i error' hplain
        exact ((delivers_nothing hne).retry hplain).retry hhtml
    · exact (delivers_nothing hne).retry hhtml

theorem delivers_sendLegacyParts (parts : List (List Char))
    (hparts : ∀ part ∈ parts, part ≠ [] ∧ part.length ≤ textChunkSize.1) (sent : List Request) :
    Delivers client decoders server chatId sent (sendLegacyParts client decoders server chatId parts sent).1
      parts.flatten (sendLegacyParts client decoders server chatId parts sent).2 := by
  induction parts generalizing sent with
  | nil => exact .refl sent
  | cons part parts ih =>
    obtain ⟨⟨hne, hfits⟩, htail⟩ := List.forall_mem_cons.mp hparts
    have hfirst := delivers_sendLegacyMessagePart client decoders server chatId hne hfits sent
    rw [sendLegacyParts, List.flatten_cons]
    split
    · rename_i m _ hresult
      rw [hresult] at hfirst
      exact hfirst.append (ih htail m)
    · rename_i m error hresult
      rw [hresult] at hfirst
      exact hfirst.stop _

/-- What a part that is cut again shows is what it would have shown whole. -/
theorem delivers_sendParts (parts : List (List Char))
    (hparts : ∀ part ∈ parts, part ≠ [] ∧ part.length ≤ richChunkSize.1) (sent : List Request) :
    Delivers client decoders server chatId sent (sendParts client decoders server chatId parts sent).1
      parts.flatten (sendParts client decoders server chatId parts sent).2 := by
  induction parts generalizing sent with
  | nil => exact .refl sent
  | cons part parts ih =>
    obtain ⟨⟨hne, hfits⟩, htail⟩ := List.forall_mem_cons.mp hparts
    rw [sendParts, List.flatten_cons]
    split
    · rename_i m value hrich
      have hfirst : Delivers client decoders server chatId sent m part (.ok () : Except TelegramError Unit) :=
        delivers_taken (.rich part) hfits hrich
      exact hfirst.append (ih htail m)
    · rename_i m error hrich
      split
      · have hsmaller : ∀ legacy ∈ chunkText part textChunkSize,
            legacy ≠ [] ∧ legacy.length ≤ textChunkSize.1 := by
          intro legacy hlegacy
          obtain ⟨hle, hchunk⟩ := (chunking part textChunkSize).bounded legacy hlegacy
          exact ⟨hchunk hne, hle⟩
        have hlegacy := delivers_sendLegacyParts client decoders server chatId
          (chunkText part textChunkSize) hsmaller m
        rw [(chunking part textChunkSize).lossless] at hlegacy
        split
        · rename_i m' _ hresult
          rw [hresult] at hlegacy
          exact (hlegacy.retry hrich).append (ih htail m')
        · rename_i m' error' hresult
          rw [hresult] at hlegacy
          exact (hlegacy.retry hrich).stop _
      · exact ((delivers_nothing hne).retry hrich).stop _

/-- **`send_message` shows all of its text or fails**, whatever the server answers to which of its requests:
    what has been taken, in order, shows the text once if it returns `Ok`, and a proper beginning of it if it
    returns an error. -/
theorem delivers_sendMessage (text : List Char) (sent : List Request) :
    Delivers client decoders server chatId sent (sendMessage client decoders server chatId text sent).1
      (messageText text) (sendMessage client decoders server chatId text sent).2 := by
  have hchunking := chunking (messageText text) richChunkSize
  have hparts : ∀ part ∈ chunkText (messageText text) richChunkSize,
      part ≠ [] ∧ part.length ≤ richChunkSize.1 := by
    intro part hpart
    obtain ⟨hle, hne⟩ := hchunking.bounded part hpart
    exact ⟨hne (messageText_ne text), hle⟩
  have hdelivers := delivers_sendParts client decoders server chatId
    (chunkText (messageText text) richChunkSize) hparts sent
  rw [hchunking.lossless] at hdelivers
  exact hdelivers

/-! ## A response -/

variable (decode : Base64Decode)

/-- The request that shows an image, if it can be shown. -/
def photoCall (image : GeneratedImage) : Option Call :=
  match decodeImage decode image with
  | .error _ => none
  | .ok (mediaType, bytes) =>
    match photoMediaType mediaType with
    | .error _ => none
    | .ok (contentType, filename) => some (.sendPhoto chatId bytes contentType filename)

/-- All of the images are seen, in order; or, with an error, those before one of them. -/
def SeenWith {ε : Type} (result : Except ε Unit) (photos : List Call) (images : List GeneratedImage) : Prop :=
  match result with
  | .ok _ => images.map (photoCall chatId decode) = photos.map some
  | .error _ => ∃ before image after, images = before ++ image :: after ∧
      before.map (photoCall chatId decode) = photos.map some

variable {chatId decode} in
theorem SeenWith.cons {ε : Type} {result : Except ε Unit} {photos : List Call} {images : List GeneratedImage}
    {image : GeneratedImage} {photo : Call} (hphoto : photoCall chatId decode image = some photo)
    (hseen : SeenWith chatId decode result photos images) :
    SeenWith chatId decode result (photo :: photos) (image :: images) := by
  cases result with
  | ok _ =>
    show _ :: _ = _ :: _
    rw [hphoto]
    exact congrArg _ hseen
  | error _ =>
    obtain ⟨before, failed, after, rfl, hbefore⟩ := hseen
    refine ⟨image :: before, failed, after, rfl, ?_⟩
    rw [List.map_cons, List.map_cons, hphoto, hbefore]

theorem SeenWith.first {ε : Type} (error : ε) (image : GeneratedImage) (images : List GeneratedImage) :
    SeenWith chatId decode (.error error : Except ε Unit) [] (image :: images) :=
  ⟨[], image, images, rfl, rfl⟩

/-- A photo that is sent is the image's, and is taken. -/
theorem sendPhoto_cases {image : GeneratedImage} {mediaType : List Char} {bytes : List UInt8}
    (hdecode : decodeImage decode image = .ok (mediaType, bytes)) (sent : List Request) :
    (∃ photo, photoCall chatId decode image = some photo ∧
      takes client decoders server sent photo = true ∧
      sendPhoto client decoders server chatId bytes mediaType sent =
        (sent ++ [⟨methodUrl client photo.method, photo⟩], .ok ())) ∨
    ∃ rest error, sendPhoto client decoders server chatId bytes mediaType sent = (sent ++ rest, .error error) ∧
      accepted client decoders server sent rest = [] := by
  have hnothing : ∀ error, ∃ rest error', (sent, (.error error : Except TelegramError Unit)) =
      (sent ++ rest, .error error') ∧ accepted client decoders server sent rest = [] :=
    fun error => ⟨[], error, by rw [List.append_nil], rfl⟩
  unfold sendPhoto
  split
  · exact Or.inr (hnothing _)
  · rename_i contentType filename hmedia
    split
    · exact Or.inr (hnothing _)
    · split
      · rename_i m value hpost
        obtain ⟨rfl, htakes⟩ := takes_eq hpost
        refine Or.inl ⟨.sendPhoto chatId bytes contentType filename, ?_, htakes.mpr ⟨value, rfl⟩, rfl⟩
        simp only [photoCall, hdecode, hmedia]
      · rename_i m error hpost
        obtain ⟨rfl, htakes⟩ := takes_eq hpost
        refine Or.inr ⟨_, error, rfl, ?_⟩
        rw [accepted, if_neg fun h => ?_]
        · rfl
        · obtain ⟨_, h⟩ := htakes.mp h
          cases h

theorem delivers_sendImages (images : List GeneratedImage) (sent : List Request) :
    ∃ rest photos,
      (sendImages client decoders server decode chatId images sent).1 = sent ++ rest ∧
      accepted client decoders server sent rest = photos ∧
      SeenWith chatId decode (sendImages client decoders server decode chatId images sent).2 photos images := by
  induction images generalizing sent with
  | nil => exact ⟨[], [], (List.append_nil _).symm, rfl, rfl⟩
  | cons image images ih =>
    rw [sendImages]
    split
    · exact ⟨[], [], (List.append_nil _).symm, rfl, .first ..⟩
    · rename_i mediaType bytes hdecode
      rcases sendPhoto_cases client decoders server chatId decode hdecode sent with
        ⟨photo, hphoto, htakes, heq⟩ | ⟨rest, error, heq, haccepted⟩
      · rw [heq]
        obtain ⟨rest, photos, hsent, haccepted, hseen⟩ := ih (sent ++ [⟨methodUrl client photo.method, photo⟩])
        refine ⟨⟨methodUrl client photo.method, photo⟩ :: rest, photo :: photos, ?_, ?_, hseen.cons hphoto⟩
        · exact hsent.trans (List.append_cons sent _ rest).symm
        · rw [accepted, if_pos htakes, haccepted]
          rfl
      · rw [heq]
        exact ⟨rest, [], rfl, haccepted, .first ..⟩

/-- What a response is to show as text. -/
def responseText (response : ChatResponse) : List Char :=
  if sendsText response then messageText response.text.toList else []

/-- What the chat has seen of a response: all of it, in order, each message once; or, with an error, its text
    cut short and no image, or its text and some of its images. -/
inductive Seen (deliveries : List Delivery) (photos : List Call) (response : ChatResponse) :
    Except (List Char) Unit → Prop
  | all : shown deliveries = responseText response →
      response.images.map (photoCall chatId decode) = photos.map some → Seen deliveries photos response (.ok ())
  | cut {error missing} : missing ≠ [] → shown deliveries ++ missing = responseText response → photos = [] →
      Seen deliveries photos response (.error error)
  | some {error before image after} : shown deliveries = responseText response →
      response.images = before ++ image :: after →
      before.map (photoCall chatId decode) = photos.map Option.some →
      Seen deliveries photos response (.error error)

/-- **`send_response` has all of the response taken or fails**, whatever the server answers: the messages it
    has taken (`takes`), in order, are the text, once, and then the images; and with an error, a proper
    beginning of that. -/
theorem delivers_sendResponse (response : ChatResponse) (sent : List Request) :
    ∃ rest deliveries photos,
      (sendResponse client decoders server decode chatId response sent).1 = sent ++ rest ∧
      accepted client decoders server sent rest = deliveries.map (Delivery.call chatId) ++ photos ∧
      (∀ delivery ∈ deliveries, delivery.Fits) ∧
      Seen chatId decode deliveries photos response
        (sendResponse client decoders server decode chatId response sent).2 := by
  have himages : ∀ (before : List Request) (deliveries : List Delivery) (m : List Request),
      m = sent ++ before →
      accepted client decoders server sent before = deliveries.map (Delivery.call chatId) →
      (∀ delivery ∈ deliveries, delivery.Fits) → shown deliveries = responseText response →
      ∃ rest deliveries photos,
        (sendImages client decoders server decode chatId response.images m).1 = sent ++ rest ∧
        accepted client decoders server sent rest = deliveries.map (Delivery.call chatId) ++ photos ∧
        (∀ delivery ∈ deliveries, delivery.Fits) ∧
        Seen chatId decode deliveries photos response
          (sendImages client decoders server decode chatId response.images m).2 := by
    rintro before deliveries m rfl hbefore hfits hshown
    obtain ⟨rest, photos, hsent, haccepted, hseen⟩ :=
      delivers_sendImages client decoders server chatId decode response.images (sent ++ before)
    refine ⟨before ++ rest, deliveries, photos, ?_, ?_, hfits, ?_⟩
    · rw [hsent, List.append_assoc]
    · rw [accepted_append, hbefore, haccepted]
    · cases hresult : (sendImages client decoders server decode chatId response.images (sent ++ before)).2 with
      | ok value =>
        rw [hresult] at hseen
        exact .all hshown hseen
      | error error =>
        rw [hresult] at hseen
        obtain ⟨done, failed, after, himages, hdone⟩ := hseen
        exact .some hshown himages hdone
  rw [sendResponse]
  split
  · rename_i hsends
    have hdelivers := delivers_sendMessage client decoders server chatId response.text.toList sent
    have htext : responseText response = messageText response.text.toList := by rw [responseText, if_pos hsends]
    split
    · rename_i m _ hresult
      rw [hresult] at hdelivers
      obtain ⟨before, deliveries, hm, hbefore, hfits, hshown⟩ := hdelivers.shows
      exact himages before deliveries m hm hbefore hfits (Eq.trans hshown htext.symm)
    · rename_i m error hresult
      rw [hresult] at hdelivers
      obtain ⟨before, deliveries, hm, hbefore, hfits, missing, hne, hshown⟩ := hdelivers.shows
      refine ⟨before, deliveries, [], hm, ?_, hfits, .cut hne (hshown.trans htext.symm) rfl⟩
      rw [hbefore, List.append_nil]
  · rename_i hsends
    refine himages [] [] sent (List.append_nil _).symm rfl (fun _ h => absurd h List.not_mem_nil) ?_
    rw [responseText, if_neg hsends]
    rfl

end

end Telegram

end Tellm
