/-
  SENDING: what `send_message` submits.

  The whole text is trimmed, and a placeholder stands for an empty one.  Its chunks are not: a chunk may
  be white space only, and is submitted all the same.

  1. **`StartsBlank`**: the white space at the head of a text reaches the end of the chunk there
     (`visible_iff`).  `ChunkStart` says where chunks start.
  2. **`sent_sendMessage`**: every request is about a chunk, or about a chunk of a chunk.
  3. **`unparsed`**: a server that takes nothing but plain text.  Under it all of them are submitted
     (`sendMessage_unparsed`).
  4. **`neverBlank_iff`**: no blank message, exactly when no chunk starts blank.

  A server that refuses every form of markup makes the client go through all of its fallbacks, so it sees
  every request that any server can see.  That is why a statement about all servers needs one only for its
  hard direction.

  A chunk is blank if it has white space only, and that is a matter of where it starts and of the chunk
  size: the white space at its head must reach its end.  `NoneStartsBlank` asks this of the chunks of the
  whole text and of the smaller chunks of each chunk, in terms of the code's own chunking.

  The failing input has a line, and then more white space than a chunk has room for; the trimming of the
  whole text does not reach it.
-/
import Tellm.Telegram

namespace Tellm

open Text Chunks Substitutions

namespace Telegram

/-! ## Blank chunks -/

/-- The text has a character that is not white space. -/
def Visible (text : List Char) : Prop := ∃ c ∈ text, isWhitespace c = false

/-- How much white space there is at the head of a text. -/
def white (text : List Char) : Nat := (text.takeWhile isWhitespace).length

/-- The white space at the head of the text is all of it, or all of its window, or holds a newline behind its
    first character while the rest of the window holds none. -/
def StartsBlank (chunkSize : ChunkSize) (text : List Char) : Prop :=
  white text = text.length ∨ chunkSize.1 ≤ white text ∨
    (chunkSize.1 < text.length ∧ (∃ split, 0 < split ∧ split < white text ∧ text[split]? = some '\n') ∧
      ∀ idx, white text ≤ idx → idx < chunkSize.1 → text[idx]? ≠ some '\n')

/-- A chunk of the text starts at the head of `rest`, which goes on to the end of the text. -/
inductive ChunkStart (chunkSize : ChunkSize) (text : List Char) : List Char → Prop
  | first : text ≠ [] → ChunkStart chunkSize text text
  | next {rest : List Char} : ChunkStart chunkSize text rest → rest.drop (cut chunkSize rest) ≠ [] →
      ChunkStart chunkSize text (rest.drop (cut chunkSize rest))

theorem white_le (text : List Char) : white text ≤ text.length := (List.takeWhile_sublist _).length_le

theorem visible_take_iff (text : List Char) {n : Nat} (h : n ≤ text.length) :
    Visible (text.take n) ↔ white text < n := by
  induction text generalizing n with
  | nil =>
    rw [List.length_nil, Nat.le_zero] at h
    subst h
    exact ⟨fun ⟨c, hc, _⟩ => absurd hc List.not_mem_nil, fun h => absurd h (Nat.not_lt_zero _)⟩
  | cons c text ih =>
    cases n with
    | zero => exact ⟨fun ⟨c, hc, _⟩ => absurd hc List.not_mem_nil, fun h => absurd h (Nat.not_lt_zero _)⟩
    | succ n =>
      have ih := ih (Nat.le_of_succ_le_succ h)
      cases hspace : isWhitespace c with
      | false =>
        have hwhite : white (c :: text) = 0 := by rw [white, List.takeWhile_cons, hspace]; rfl
        rw [hwhite, List.take_succ_cons]
        exact ⟨fun _ => Nat.succ_pos n, fun _ => ⟨c, List.mem_cons_self, hspace⟩⟩
      | true =>
        have hwhite : white (c :: text) = white text + 1 := by rw [white, List.takeWhile_cons, hspace]; rfl
        rw [hwhite, List.take_succ_cons, Nat.add_lt_add_iff_right, ← ih]
        constructor
        · rintro ⟨d, hd, hvisible⟩
          rcases List.mem_cons.mp hd with rfl | hd
          · rw [hspace] at hvisible
            cases hvisible
          · exact ⟨d, hd, hvisible⟩
        · rintro ⟨d, hd, hvisible⟩
          exact ⟨d, List.mem_cons_of_mem c hd, hvisible⟩

/-- **A chunk is blank** exactly when it starts so: the first chunk of a text has something to show unless all
    that the cut takes of the text is white space. -/
theorem visible_iff (chunkSize : ChunkSize) {text : List Char} (hne : text ≠ []) :
    Visible (text.take (cut chunkSize text)) ↔ ¬ StartsBlank chunkSize text := by
  have hpos := List.length_pos_iff.mpr hne
  have hwhite := white_le text
  rw [visible_take_iff text (cut_bounds chunkSize hne).2.1, ← Nat.not_le, not_iff_not]
  rcases cut_cases chunkSize text with
    ⟨hlength, hcut⟩ | ⟨hlength, ⟨split, h1, h2, hcut, hnewline, hlast⟩ | ⟨hcut, hnone⟩⟩
  · rw [hcut]
    constructor
    · exact fun h => Or.inl (Nat.le_antisymm hwhite h)
    · rintro (h | h | ⟨h, -⟩) <;> omega
  · rw [hcut]
    constructor
    · exact fun h => Or.inr (Or.inr ⟨hlength, ⟨split, h1, h, hnewline⟩, fun idx hidx => hlast idx (by omega)⟩)
    · rintro (h | h | ⟨-, -, hafter⟩)
      · omega
      · omega
      · -- the last newline of the window is not behind the white space
        exact Nat.lt_of_not_le fun hle => hafter split hle h2 hnewline
  · rw [hcut]
    constructor
    · exact fun h => Or.inr (Or.inl h)
    · rintro (h | h | ⟨-, ⟨split, h1, h2, hnewline⟩, -⟩)
      · omega
      · exact h
      · have hout : ¬ split < chunkSize.1 := fun hlt => hnone split h1 hlt hnewline
        omega

/-- The chunks, by the places where they start. -/
theorem mem_chunkFrom {chunkSize : ChunkSize} {text : List Char} {chunk : List Char} :
    chunk ∈ chunkFrom text chunkSize 0 ↔
      ∃ rest, ChunkStart chunkSize text rest ∧ chunk = rest.take (cut chunkSize rest) := by
  constructor
  · have hfrom : ∀ rest : List Char, (rest ≠ [] → ChunkStart chunkSize text rest) →
        chunk ∈ chunkFrom rest chunkSize 0 →
        ∃ rest, ChunkStart chunkSize text rest ∧ chunk = rest.take (cut chunkSize rest) := by
      intro rest
      induction rest using chunks_induction chunkSize with
      | nil =>
        intro _ hmem
        rw [chunkFrom_eq, if_pos rfl] at hmem
        exact absurd hmem List.not_mem_nil
      | chunk rest hne ih =>
        intro hstart hmem
        rw [chunkFrom_eq, if_neg hne] at hmem
        rcases List.mem_cons.mp hmem with rfl | hmem
        · exact ⟨rest, hstart hne, rfl⟩
        · exact ih (fun hdrop => (hstart hne).next hdrop) hmem
    exact hfrom text ChunkStart.first
  · rintro ⟨rest, hstart, rfl⟩
    -- what follows a start is what is left to chunk there
    have hafter : rest ≠ [] ∧ ∀ chunk ∈ chunkFrom rest chunkSize 0, chunk ∈ chunkFrom text chunkSize 0 := by
      induction hstart with
      | first hne => exact ⟨hne, fun _ h => h⟩
      | @next rest _ hdrop ih =>
        refine ⟨hdrop, fun chunk hmem => ih.2 chunk ?_⟩
        rw [chunkFrom_eq, if_neg ih.1]
        exact List.mem_cons_of_mem _ hmem
    refine hafter.2 _ ?_
    rw [chunkFrom_eq, if_neg hafter.1]
    exact List.mem_cons_self

theorem ChunkStart.ne_nil {chunkSize : ChunkSize} {text rest : List Char}
    (h : ChunkStart chunkSize text rest) :
    rest ≠ [] := by
  cases h with
  | first hne => exact hne
  | next _ hdrop => exact hdrop

theorem chunkText_eq_chunkFrom (chunkSize : ChunkSize) {text : List Char} (hne : text ≠ []) :
    chunkText text chunkSize = chunkFrom text chunkSize 0 := by
  rw [chunkText]
  split
  · rename_i hlength
    have hcut : cut chunkSize text = text.length := by
      rcases cut_cases chunkSize text with ⟨-, hcut⟩ | ⟨hlt, -⟩
      · exact hcut
      · omega
    rw [chunkFrom_eq, if_neg hne, hcut, List.take_length, List.drop_length, chunkFrom_eq, if_pos rfl]
  · rfl

/-- No chunk is blank, exactly when none starts blank. -/
theorem visible_chunks_iff (chunkSize : ChunkSize) {text : List Char} (hne : text ≠ []) :
    (∀ chunk ∈ chunkText text chunkSize, Visible chunk) ↔
      ∀ rest, ChunkStart chunkSize text rest → ¬ StartsBlank chunkSize rest := by
  rw [chunkText_eq_chunkFrom chunkSize hne]
  constructor
  · intro hvisible rest hstart
    exact (visible_iff chunkSize hstart.ne_nil).mp (hvisible _ (mem_chunkFrom.mpr ⟨rest, hstart, rfl⟩))
  · intro hblank chunk hmem
    obtain ⟨rest, hstart, rfl⟩ := mem_chunkFrom.mp hmem
    exact (visible_iff chunkSize hstart.ne_nil).mpr (hblank rest hstart)

theorem messageText_ne (text : List Char) : messageText text ≠ [] := by
  unfold messageText
  split
  · decide
  · rename_i h
    exact fun hnil => h (by rw [hnil]; rfl)

/-! ## What is submitted -/

section

variable (client : Client) (decoders : Decoders) (server : Server) (chatId : Int)

theorem sent_post {T : Type} (sent : List Request) (call : Call) :
    (post client decoders server T sent call).1 = sent ++ [⟨methodUrl client call.method, call⟩] := by
  unfold post
  dsimp only
  split <;> rfl

/-- A request that `send_message` makes: for a part of the message, or for a part of a part, with its
    markup or without. -/
inductive Call.About (chatId : Int) (parts : List (List Char)) : Call → Prop
  | rich {part : List Char} : part ∈ parts → Call.About chatId parts (.sendRichMessage chatId part)
  | html {part legacy : List Char} : part ∈ parts → legacy ∈ chunkText part textChunkSize →
      Call.About chatId parts (.sendHtmlMessage chatId (Markdown.markdownToHtml legacy))
  | plain {part legacy : List Char} : part ∈ parts → legacy ∈ chunkText part textChunkSize →
      Call.About chatId parts (.sendPlainMessage chatId legacy)

/-- All that was sent beyond `sent` is about the parts. -/
def OnlyAbout (chatId : Int) (parts : List (List Char)) (sent sent' : List Request) : Prop :=
  ∀ request ∈ sent', request ∈ sent ∨ request.call.About chatId parts

variable {client decoders server chatId}

theorem OnlyAbout.refl (parts : List (List Char)) (sent : List Request) : OnlyAbout chatId parts sent sent :=
  fun _ hmem => Or.inl hmem

theorem OnlyAbout.trans {parts : List (List Char)} {sent sent' sent'' : List Request}
    (h : OnlyAbout chatId parts sent sent') (h' : OnlyAbout chatId parts sent' sent'') :
    OnlyAbout chatId parts sent sent'' := by
  intro request hmem
  rcases h' request hmem with hmem | habout
  · exact h request hmem
  · exact Or.inr habout

theorem onlyAbout_post {T : Type} {parts : List (List Char)} {sent sent' : List Request} {call : Call}
    {result : Except TelegramError T} (habout : call.About chatId parts)
    (hpost : post client decoders server T sent call = (sent', result)) :
    OnlyAbout chatId parts sent sent' := by
  have hsent := sent_post client decoders server (T := T) sent call
  rw [hpost] at hsent
  dsimp only at hsent
  intro request hmem
  rw [hsent] at hmem
  rcases List.mem_append.mp hmem with hmem | hmem
  · exact Or.inl hmem
  · rw [List.mem_singleton.mp hmem]
    exact Or.inr habout

variable (client decoders server chatId)

theorem sent_sendLegacyMessagePart {parts : List (List Char)} {part legacy : List Char} (hpart : part ∈ parts)
    (hlegacy : legacy ∈ chunkText part textChunkSize) (sent : List Request) :
    OnlyAbout chatId parts sent (sendLegacyMessagePart client decoders server chatId sent legacy).1 := by
  unfold sendLegacyMessagePart
  split
  · rename_i hhtml
    exact onlyAbout_post (.html hpart hlegacy) hhtml
  · rename_i hhtml
    have hfirst := onlyAbout_post (.html hpart hlegacy) hhtml
    split
    · split
      · rename_i hplain
        exact hfirst.trans (onlyAbout_post (.plain hpart hlegacy) hplain)
      · rename_i hplain
        exact hfirst.trans (onlyAbout_post (.plain hpart hlegacy) hplain)
    · exact hfirst

theorem sent_sendLegacyParts {parts : List (List Char)} {part : List Char} (hpart : part ∈ parts)
    (legacyParts : List (List Char)) (hlegacy : ∀ legacy ∈ legacyParts, legacy ∈ chunkText part textChunkSize)
    (sent : List Request) :
    OnlyAbout chatId parts sent (sendLegacyParts client decoders server chatId legacyParts sent).1 := by
  induction legacyParts generalizing sent with
  | nil => exact OnlyAbout.refl parts sent
  | cons legacy legacyParts ih =>
    obtain ⟨hhead, htail⟩ := List.forall_mem_cons.mp hlegacy
    have hfirst := sent_sendLegacyMessagePart client decoders server chatId hpart hhead sent
    rw [sendLegacyParts]
    split
    · rename_i hresult
      rw [hresult] at hfirst
      exact hfirst.trans (ih htail _)
    · rename_i hresult
      rw [hresult] at hfirst
      exact hfirst

theorem sent_sendParts (all parts : List (List Char)) (hparts : ∀ part ∈ parts, part ∈ all)
    (sent : List Request) :
    OnlyAbout chatId all sent (sendParts client decoders server chatId parts sent).1 := by
  induction parts generalizing sent with
  | nil => exact OnlyAbout.refl all sent
  | cons part parts ih =>
    obtain ⟨hhead, htail⟩ := List.forall_mem_cons.mp hparts
    rw [sendParts]
    split
    · rename_i hrich
      exact (onlyAbout_post (.rich hhead) hrich).trans (ih htail _)
    · rename_i sent' error hrich
      have hfirst := onlyAbout_post (.rich hhead) hrich
      split
      · have hsecond := sent_sendLegacyParts client decoders server chatId hhead
          (chunkText part textChunkSize) (fun _ h => h) sent'
        split
        · rename_i hresult
          rw [hresult] at hsecond
          exact (hfirst.trans hsecond).trans (ih htail _)
        · rename_i hresult
          rw [hresult] at hsecond
          exact hfirst.trans hsecond
      · exact hfirst

/-- **Every request** of `send_message` is about its chunks: it carries one of them, or a part of one, to the
    chat that the message is for, whatever the server answers in between. -/
theorem sent_sendMessage (text : List Char) :
    ∀ request ∈ (sendMessage client decoders server chatId text []).1,
    request.call.About chatId (chunkText (messageText text) richChunkSize) := by
  intro request hmem
  have honly := sent_sendParts client decoders server chatId (chunkText (messageText text) richChunkSize)
    (chunkText (messageText text) richChunkSize) (fun _ h => h) []
  exact (honly request hmem).resolve_left List.not_mem_nil

end

/-! ## The server that takes plain text only -/

/-- Plain text is accepted, and nothing else can be parsed. -/
def unparsed : Server := fun sent =>
  match sent.getLast? with
  | some ⟨_, .sendPlainMessage _ _⟩ => .ok ⟨200, none, .ok "accepted".toList, []⟩
  | _ => .ok ⟨400, none, .ok "can't parse entities".toList, []⟩

/-- A client whose token does not occur in what is parsed. -/
def client : Client := ⟨"1:a".toList, [], []⟩

section

variable {decoders : Decoders} {chatId : Int}

/-- The request is the last thing sent. -/
theorem post_eq {self : Client} {server : Server} {T : Type} {sent : List Request} {call : Call}
    {response : Response} (h : server (sent ++ [⟨methodUrl self call.method, call⟩]) = .ok response) :
    post self decoders server T sent call = (sent ++ [⟨methodUrl self call.method, call⟩],
      parseApiResponse self decoders T call.method response) := by
  unfold post
  dsimp only
  rw [h]

/-- What is returned for what could not be parsed. -/
def unparsedError (method : List Char) : TelegramError :=
  .api 400 ("HTTP status from ".toList ++ method ++ ": ".toList ++ "can't parse entities".toList)

theorem parse_unparsed {T : Type} {method : List Char} (h : splitAround client.token
      ("HTTP status from ".toList ++ method ++ ": ".toList ++ "can't parse entities".toList) = none) :
    parseApiResponse client decoders T method ⟨400, none, .ok "can't parse entities".toList, []⟩ =
      .error (unparsedError method) := by
  have hsuccess : (!Response.isSuccess ⟨400, none, .ok "can't parse entities".toList, []⟩) = true := rfl
  have hempty : ¬ client.token.isEmpty = true := by decide
  unfold parseApiResponse
  dsimp only
  rw [if_pos hsuccess, sanitizeErrorText, if_neg hempty, replaceAll_eq_self (by decide) h]
  rfl

variable (decoders chatId)

theorem rich_unparsed (sent : List Request) (part : List Char) :
    post client decoders unparsed Value sent (.sendRichMessage chatId part) =
      (sent ++ [⟨methodUrl client "sendRichMessage".toList, .sendRichMessage chatId part⟩],
        .error (unparsedError "sendRichMessage".toList)) ∧
    shouldFallbackFromRichMessageError (unparsedError "sendRichMessage".toList) = true := by
  have hserver :
    unparsed (sent ++ [⟨methodUrl client "sendRichMessage".toList, .sendRichMessage chatId part⟩]) =
      .ok ⟨400, none, .ok "can't parse entities".toList, []⟩ := by
    rw [unparsed, List.getLast?_concat]
  have hkeep :
    splitAround client.token ("HTTP status from ".toList ++ "sendRichMessage".toList ++ ": ".toList ++
      "can't parse entities".toList) = none := by decide
  exact ⟨(post_eq hserver).trans (congrArg _ (parse_unparsed hkeep)), by decide⟩

theorem html_unparsed (sent : List Request) (text : List Char) :
    post client decoders unparsed Value sent (.sendHtmlMessage chatId text) =
      (sent ++ [⟨methodUrl client "sendMessage".toList, .sendHtmlMessage chatId text⟩],
        .error (unparsedError "sendMessage".toList)) ∧
    shouldFallbackFromHtmlMessageError (unparsedError "sendMessage".toList) = true := by
  have hserver : unparsed (sent ++ [⟨methodUrl client "sendMessage".toList, .sendHtmlMessage chatId text⟩]) =
      .ok ⟨400, none, .ok "can't parse entities".toList, []⟩ := by
    rw [unparsed, List.getLast?_concat]
  have hkeep : splitAround client.token ("HTTP status from ".toList ++ "sendMessage".toList ++ ": ".toList ++
      "can't parse entities".toList) = none := by decide
  exact ⟨(post_eq hserver).trans (congrArg _ (parse_unparsed hkeep)), by decide⟩

variable {decoders}

/-- The decoder reads the answer to plain text. -/
def ReadsOk (decoders : Decoders) : Prop :=
  ∃ value, decoders.fromStr Value "accepted".toList = .ok ⟨true, some value, none, none⟩

theorem plain_unparsed (hreads : ReadsOk decoders) (sent : List Request) (text : List Char) :
    ∃ value, post client decoders unparsed Value sent (.sendPlainMessage chatId text) =
      (sent ++ [⟨methodUrl client "sendMessage".toList, .sendPlainMessage chatId text⟩], .ok value) := by
  obtain ⟨value, hvalue⟩ := hreads
  have hserver : unparsed (sent ++ [⟨methodUrl client "sendMessage".toList, .sendPlainMessage chatId text⟩]) =
      .ok ⟨200, none, .ok "accepted".toList, []⟩ := by
    rw [unparsed, List.getLast?_concat]
  refine ⟨value, ?_⟩
  rw [post_eq hserver]
  unfold parseApiResponse
  dsimp only
  rw [hvalue]
  rfl

/-- A part of a part is submitted twice, the second time as it is. -/
theorem sendLegacyMessagePart_unparsed (hreads : ReadsOk decoders) (sent : List Request) (part : List Char) :
    sendLegacyMessagePart client decoders unparsed chatId sent part =
      (sent ++ [⟨methodUrl client "sendMessage".toList,
      .sendHtmlMessage chatId (Markdown.markdownToHtml part)⟩] ++
        [⟨methodUrl client "sendMessage".toList, .sendPlainMessage chatId part⟩], .ok ()) := by
  obtain ⟨hhtml, hfallback⟩ := html_unparsed decoders chatId sent (Markdown.markdownToHtml part)
  obtain ⟨value, hplain⟩ := plain_unparsed chatId hreads
    (sent ++ [⟨methodUrl client "sendMessage".toList,
      .sendHtmlMessage chatId (Markdown.markdownToHtml part)⟩]) part
  unfold sendLegacyMessagePart
  rw [hhtml]
  dsimp only
  rw [if_pos hfallback, hplain]

/-- The text is submitted as plain text. -/
def SentPlain (chatId : Int) (sent : List Request) (text : List Char) : Prop :=
  ∃ request ∈ sent, request.call = .sendPlainMessage chatId text

/-- The text is submitted as markdown. -/
def SentRich (chatId : Int) (sent : List Request) (text : List Char) : Prop :=
  ∃ request ∈ sent, request.call = .sendRichMessage chatId text

theorem sendLegacyParts_unparsed (hreads : ReadsOk decoders) (parts : List (List Char))
    (sent : List Request) :
    ∃ sent', sendLegacyParts client decoders unparsed chatId parts sent = (sent', .ok ()) ∧
      sent <+: sent' ∧ ∀ part ∈ parts, SentPlain chatId sent' part := by
  induction parts generalizing sent with
  | nil => exact ⟨sent, rfl, List.prefix_rfl, fun _ h => absurd h List.not_mem_nil⟩
  | cons part parts ih =>
    rw [sendLegacyParts, sendLegacyMessagePart_unparsed chatId hreads]
    dsimp only
    obtain ⟨sent', hsent, hstart, hparts⟩ := ih (sent ++
      [⟨methodUrl client "sendMessage".toList, .sendHtmlMessage chatId (Markdown.markdownToHtml part)⟩] ++
        [⟨methodUrl client "sendMessage".toList, .sendPlainMessage chatId part⟩])
    refine ⟨sent', hsent, ?_, List.forall_mem_cons.mpr ⟨?_, hparts⟩⟩
    · rw [List.append_assoc] at hstart
      exact (List.prefix_append _ _).trans hstart
    · exact ⟨⟨methodUrl client "sendMessage".toList, .sendPlainMessage chatId part⟩,
        hstart.subset (List.mem_append_right _ List.mem_cons_self), rfl⟩

theorem sendParts_unparsed (hreads : ReadsOk decoders) (parts : List (List Char)) (sent : List Request) :
    ∃ sent', sendParts client decoders unparsed chatId parts sent = (sent', .ok ()) ∧ sent <+: sent' ∧
      ∀ part ∈ parts, SentRich chatId sent' part ∧
        ∀ legacy ∈ chunkText part textChunkSize, SentPlain chatId sent' legacy := by
  induction parts generalizing sent with
  | nil => exact ⟨sent, rfl, List.prefix_rfl, fun _ h => absurd h List.not_mem_nil⟩
  | cons part parts ih =>
    obtain ⟨hrich, hfallback⟩ := rich_unparsed decoders chatId sent part
    obtain ⟨sent1, hlegacy, hstart1, hplain⟩ := sendLegacyParts_unparsed chatId hreads
      (chunkText part textChunkSize)
      (sent ++ [⟨methodUrl client "sendRichMessage".toList, .sendRichMessage chatId part⟩])
    obtain ⟨sent2, hsent, hstart2, hparts⟩ := ih sent1
    have hstart := hstart1.trans hstart2
    refine ⟨sent2, ?_, (List.prefix_append _ _).trans hstart, List.forall_mem_cons.mpr ⟨⟨?_, ?_⟩, hparts⟩⟩
    · rw [sendParts, hrich]
      dsimp only
      rw [if_pos hfallback, hlegacy]
      exact hsent
    · exact ⟨⟨methodUrl client "sendRichMessage".toList, .sendRichMessage chatId part⟩,
        hstart.subset (List.mem_append_right _ List.mem_cons_self), rfl⟩
    · intro legacy hmem
      obtain ⟨request, hrequest, hcall⟩ := hplain legacy hmem
      exact ⟨request, hstart2.subset hrequest, hcall⟩

/-- **All chunks are submitted** to a server that cannot parse any of them: each as the rich message that it
    is, and then each part of it as plain text. -/
theorem sendMessage_unparsed (hreads : ReadsOk decoders) (text : List Char) :
    ∀ part ∈ chunkText (messageText text) richChunkSize,
      SentRich chatId (sendMessage client decoders unparsed chatId text []).1 part ∧
      ∀ legacy ∈ chunkText part textChunkSize,
        SentPlain chatId (sendMessage client decoders unparsed chatId text []).1 legacy := by
  obtain ⟨sent, hsent, -, hparts⟩ := sendParts_unparsed chatId hreads
    (chunkText (messageText text) richChunkSize) []
  rw [sendMessage, hsent]
  exact hparts

end

/-- A decoder that accepts everything. -/
noncomputable def lenient : Decoders where
  fromStr T _ := open Classical in
    if h : Nonempty T then .ok ⟨true, some h.some, none, none⟩ else .error []
  fromUtf8Lossy _ := []
  mimeStr _ := .ok ()

theorem lenient_readsOk : ReadsOk lenient := ⟨_, dif_pos ⟨.null⟩⟩

/-! ## Blank messages -/

/-- The markdown of a rich message, or the text of a plain one, is visible. -/
def Call.Visible : Call → Prop
  | sendRichMessage _ markdown => Telegram.Visible markdown
  | sendPlainMessage _ text => Telegram.Visible text
  | _ => True

/-- Neither a chunk of the message nor a chunk of a chunk starts blank. -/
def NoneStartsBlank (text : List Char) : Prop :=
  (∀ rest, ChunkStart richChunkSize (messageText text) rest → ¬ StartsBlank richChunkSize rest) ∧
  ∀ part ∈ chunkText (messageText text) richChunkSize, ∀ rest, ChunkStart textChunkSize part rest →
    ¬ StartsBlank textChunkSize rest

/-- **No blank message**, whatever comes back, exactly when no chunk starts blank. -/
theorem neverBlank_iff (text : List Char) :
    (∀ client decoders server chatId, ∀ request ∈ (sendMessage client decoders server chatId text []).1,
      request.call.Visible) ↔ NoneStartsBlank text := by
  have hne := messageText_ne text
  have hparts : ∀ part ∈ chunkText (messageText text) richChunkSize, part ≠ [] := fun part hmem =>
    ((chunking (messageText text) richChunkSize).bounded part hmem).2 hne
  -- a server that parses nothing makes the client send every chunk both ways
  constructor
  · intro hvisible
    have hsent := sendMessage_unparsed 0 lenient_readsOk text
    have hvisible := hvisible client lenient unparsed 0
    constructor
    · rw [← visible_chunks_iff richChunkSize hne]
      intro part hmem
      obtain ⟨request, hrequest, hcall⟩ := (hsent part hmem).1
      have hpart := hvisible request hrequest
      rw [hcall] at hpart
      exact hpart
    · intro part hmem
      rw [← visible_chunks_iff textChunkSize (hparts part hmem)]
      intro legacy hlegacy
      obtain ⟨request, hrequest, hcall⟩ := (hsent part hmem).2 legacy hlegacy
      have hpart := hvisible request hrequest
      rw [hcall] at hpart
      exact hpart
  · rintro ⟨hrich, hlegacy⟩ client decoders server chatId request hrequest
    have habout := sent_sendMessage client decoders server chatId text request hrequest
    cases hcall : request.call with
    | sendRichMessage chatId' markdown =>
      rw [hcall] at habout
      cases habout with
      | rich hpart => exact (visible_chunks_iff richChunkSize hne).mpr hrich _ hpart
    | sendPlainMessage chatId' text' =>
      rw [hcall] at habout
      cases habout with
      | plain hpart hmem =>
        exact (visible_chunks_iff textChunkSize (hparts _ hpart)).mpr (hlegacy _ hpart) _ hmem
    | _ => trivial

/-- A line, and a word that spaces push out of sight. -/
def spaced (n : Nat) : List Char := 'a' :: '\n' :: (List.replicate n ' ' ++ ['b'])

theorem messageText_spaced (n : Nat) : messageText (spaced n) = spaced n := by
  have hend : IsToken ['b'] := ⟨List.cons_ne_nil _ _, fun c hc => by rw [List.mem_singleton.mp hc]; decide⟩
  have htrim : trim (spaced n) = spaced n := by
    rw [trim, spaced, trimStart_of_head (by decide)]
    exact trimEnd_append_token ('a' :: '\n' :: List.replicate n ' ') hend
  rw [messageText, htrim]
  rfl

theorem white_replicate (n : Nat) : white (List.replicate n ' ' ++ ['b']) = n := by
  have hspaces : ∀ c ∈ List.replicate n ' ', isWhitespace c = true := by
    intro c hc
    rw [List.eq_of_mem_replicate hc]
    decide
  rw [white, List.takeWhile_append_of_pos hspaces, List.takeWhile_cons_of_neg (by decide), List.append_nil,
    List.length_replicate]

/-- The only newline ends the first chunk. -/
theorem cut_spaced {chunkSize : ChunkSize} {n : Nat} (hsize : 1 < chunkSize.1) (hn : chunkSize.1 ≤ n) :
    cut chunkSize (spaced n) = 2 := by
  have hlength : (spaced n).length = n + 3 := by simp [spaced]
  have honly : ∀ idx, 1 < idx → (spaced n)[idx]? ≠ some '\n' := by
    intro idx hidx heq
    obtain ⟨idx, rfl⟩ := Nat.exists_eq_add_of_le hidx
    rw [spaced, Nat.add_comm, List.getElem?_cons_succ, List.getElem?_cons_succ] at heq
    rcases List.mem_append.mp (List.mem_of_getElem? heq) with hmem | hmem
    · exact absurd (List.eq_of_mem_replicate hmem) (by decide)
    · exact absurd (List.mem_singleton.mp hmem) (by decide)
  rcases cut_cases chunkSize (spaced n) with ⟨hle, -⟩ | ⟨-, ⟨split, hpos, -, hcut, hnewline, -⟩ | ⟨-, hnone⟩⟩
  · omega
  · have hsplit : split = 1 := by
      by_contra hne
      exact honly split (by omega) hnewline
    rw [hcut, hsplit]
  · exact absurd rfl (hnone 1 Nat.zero_lt_one hsize)

/-- The second chunk has spaces only, and is submitted. -/
theorem blank_submitted : ∃ request ∈ (sendMessage client lenient unparsed 0 (spaced 32000) []).1,
    ¬ request.call.Visible := by
  have hne : spaced 32000 ≠ [] := List.cons_ne_nil _ _
  have hsecond : ∀ n, List.replicate n ' ' ++ ['b'] ≠ [] := fun n => List.concat_ne_nil _ _
  have hdrop :
      (spaced 32000).drop (cut richChunkSize (spaced 32000)) = List.replicate 32000 ' ' ++ ['b'] := by
    have hcut : cut richChunkSize (spaced 32000) = 2 := cut_spaced (by decide) (Nat.le_refl 32000)
    rw [hcut]
    rfl
  have hstart : ChunkStart richChunkSize (spaced 32000) (List.replicate 32000 ' ' ++ ['b']) := by
    rw [← hdrop]
    refine (ChunkStart.first hne).next ?_
    rw [hdrop]
    exact hsecond 32000
  have hblank : StartsBlank richChunkSize (List.replicate 32000 ' ' ++ ['b']) :=
    Or.inr (Or.inl (Nat.le_of_eq (white_replicate 32000).symm))
  obtain ⟨request, hrequest, hcall⟩ := (sendMessage_unparsed 0 lenient_readsOk (spaced 32000)
    ((List.replicate 32000 ' ' ++ ['b']).take (cut richChunkSize (List.replicate 32000 ' ' ++ ['b']))) (by
      rw [messageText_spaced, chunkText_eq_chunkFrom _ hne]
      exact mem_chunkFrom.mpr ⟨_, hstart, rfl⟩)).1
  refine ⟨request, hrequest, ?_⟩
  rw [hcall]
  exact fun hvisible => (visible_iff richChunkSize hstart.ne_nil).mp hvisible hblank

end Telegram

end Tellm
