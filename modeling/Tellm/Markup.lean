/-
  MARKUP: the renderer's passes over a text that tells its own tags apart.

  `markdown_to_html` cuts, moves and splices plain characters; which `<` of its output comes from a tag it
  has put in, and which `@@` from a placeholder, cannot be seen there.  Here a text is made of characters
  and WORDS: an entity, a tag, a placeholder is one symbol.  The passes are the renderer's, and what they
  see of a word is nothing.

  1. **`Word`** and the passes: `escapeHtml`, `renderLine`, `linkStep`, `delimiterStep`, and all of them,
     `rewrite`.
  2. **`Marked.spell_rewrite`**: to write the words out and to run the renderer's passes, or the other way
     round, is the same.  No pass looks for anything that begins in a word or runs into one
     (`Word.untouched`).

  A word is written as a fixed text, and `written` puts all of them out.  The passes on symbols are copies
  of the renderer's passes, line for line, with letters compared where the renderer compares characters;
  the theorem for each says that it commutes with `written`.

  What makes it go through is a list of characters that occur in no word, the ones the passes look for
  (`stops`), and for the delimiters of two characters that none of the words has one inside or can share
  one with its neighbours.  The words that exist before the links are `Compact`, without white space,
  which the headings and the links need; the tags of a link have a space, and come after.

  Nothing here is about what the output means; `Tellm.Injection`, `Tellm.Outline` and `Tellm.Fenced` read
  it off.
-/
import Tellm.MarkdownStages
import Tellm.Lib.Spelling

namespace Tellm

open Text Substitutions Spellings

/-! ## Words -/

/-- What `escape_html` writes. -/
inductive Entity
  | amp
  | lt
  | gt
  | quot
  | apos
  deriving DecidableEq

/-- The entity as it stands in the text. -/
def Entity.text : Entity → List Char
  | .amp => "&amp;".toList
  | .lt => "&lt;".toList
  | .gt => "&gt;".toList
  | .quot => "&quot;".toList
  | .apos => "&#x27;".toList

/-- The tags that the renderer writes, but for the link's. -/
inductive Tag
  | b
  | code
  | pre
  deriving DecidableEq

/-- The name of the tag. -/
def Tag.name : Tag → List Char
  | .b => ['b']
  | .code => "code".toList
  | .pre => "pre".toList

/-- The scheme of a link's URL. -/
def schemeText (secure : Bool) : List Char := if secure then Markdown.https else Markdown.http

/-- What the renderer puts in: an entity, a tag, or the place of a fenced block.  A link is opened up to
    the scheme of its URL. -/
inductive Word
  | entity (kind : Entity)
  | openTag (tag : Tag)
  | closeTag (tag : Tag)
  | openLink (secure : Bool)
  | endUrl
  | closeLink
  | block (idx : Nat)
  deriving DecidableEq

/-- The word as it stands in the text. -/
def Word.text : Word → List Char
  | .entity kind => kind.text
  | .openTag tag => '<' :: tag.name ++ ['>']
  | .closeTag tag => '<' :: '/' :: tag.name ++ ['>']
  | .openLink secure => "<a href=\"".toList ++ schemeText secure
  | .endUrl => "\">".toList
  | .closeLink => "</a>".toList
  | .block idx => Markdown.placeholder idx

/-- A letter of the text, or a word that a stage has put into it. -/
abbrev Symbol := Char ⊕ Word

namespace Marked

/-- The characters of a text. -/
def letters (text : List Char) : List Symbol := text.map .inl

/-- What a text of symbols stands for. -/
def written (text : List Symbol) : List Char := spell Word.text text

/-! ## The passes -/

/-- `escape_html`, of one letter. -/
def escapeSymbol : Symbol → Symbol
  | .inl '&' => .inr (.entity .amp)
  | .inl '<' => .inr (.entity .lt)
  | .inl '>' => .inr (.entity .gt)
  | .inl '"' => .inr (.entity .quot)
  | .inl '\'' => .inr (.entity .apos)
  | a => a

/-- `escape_html`: the words for the letters that HTML takes for its own. -/
def escapeHtml (text : List Symbol) : List Symbol := text.map escapeSymbol

/-- White space is a letter; no word is. -/
def isWhitespace : Symbol → Bool := onLetter Text.isWhitespace

/-- `str::trim`, which stops at a word. -/
def trim (text : List Symbol) : List Symbol := (text.dropWhile isWhitespace).rdropWhile isWhitespace

/-- Up to so many blanks in front are skipped; a line of fewer letters is none. -/
def skipIndent : Nat → List Symbol → Option (List Symbol)
  | 0, line => some line
  | _ + 1, [] => none
  | n + 1, a :: rest => if isWhitespace a then skipIndent n rest else some (a :: rest)

/-- What is behind the hashes, if white space parts it from them. -/
def headingText (afterHashes : List Symbol) : Option (List Symbol) :=
  match (afterHashes.takeWhile isWhitespace).getLast? with
  | none => none
  | some lastWhitespace =>
    let heading := afterHashes.dropWhile isWhitespace
    if heading.isEmpty then some [lastWhitespace] else some heading

/-- `markdown_heading`, on symbols. -/
def markdownHeading (line : List Symbol) : Option (List Symbol) :=
  match skipIndent 3 line with
  | none => none
  | some indented =>
    let hashes := (indented.take 6).takeWhile (onLetter (· == '#'))
    if hashes.isEmpty then none else headingText (indented.drop hashes.length)

/-- A text between the two words of a tag. -/
def tagged (tag : Tag) (text : List Symbol) : List Symbol :=
  .inr (.openTag tag) :: text ++ [.inr (.closeTag tag)]

/-- A line, which is a heading or stays. -/
def renderLine (line : List Symbol) : List Symbol :=
  match markdownHeading line with
  | some heading => tagged .b (trim heading)
  | none => line

/-- The lines rendered one by one. -/
def withHeadings (text : List Symbol) : List Symbol :=
  [.inl '\n'].intercalate ((text.splitOn (.inl '\n')).map renderLine)

/-- A link: its label, the scheme of its URL, and the rest of that. -/
structure Link where
  label : List Symbol
  secure : Bool
  url : List Symbol
  deriving DecidableEq

/-- The scheme of a URL: whether it is `https`, and what follows it. -/
def scheme (url : List Symbol) : Option (Bool × List Symbol) :=
  match dropPattern (letters Markdown.http) url with
  | some rest => some (false, rest)
  | none => (dropPattern (letters Markdown.https) url).map fun rest => (true, rest)

/-- The link at the head of a text. -/
def linkStep : Step Symbol Link := fun text =>
  (dropPattern [.inl '['] text).bind fun labelStart =>
  (splitAround [.inl ']'] labelStart).bind fun (label, afterLabel) =>
  (dropPattern [.inl '('] afterLabel).bind fun urlStart =>
  (splitAround [.inl ')'] urlStart).bind fun (url, after) =>
  (scheme url).bind fun (secure, rest) =>
    if label.isEmpty || url.any isWhitespace then none else some (⟨label, secure, rest⟩, after)

/-- A link: its words, with the URL in the first half and the label between the halves. -/
def renderLink (link : Link) : List Symbol :=
  .inr (.openLink link.secure) :: link.url ++ .inr .endUrl :: link.label ++ [.inr .closeLink]

/-- `replace_links`, on symbols. -/
def replaceLinks : List Symbol → List Symbol := substitute linkStep renderLink

/-- The content that a delimiter opens, up to the next one on the line. -/
def closeAt (delimiter : List Char) (content : List Symbol) : Option (List Symbol × List Symbol) :=
  (splitAround (letters delimiter) content).bind fun parts =>
    if parts.1.isEmpty || parts.1.contains (.inl '\n') then none else some parts

/-- What stands at a delimiter: a body that it closes, or none and the rest. -/
def delimiterStep (delimiter : List Char) : Step Symbol (Option (List Symbol)) := fun text =>
  (dropPattern (letters delimiter) text).map fun content =>
    match closeAt delimiter content with
    | some (body, after) => (some body, after)
    | none => (none, content)

/-- A delimiter that closes is a pair of tags; one that does not is itself. -/
def renderOpening (delimiter : List Char) (tag : Tag) : Option (List Symbol) → List Symbol
  | some body => tagged tag body
  | none => letters delimiter

/-- `replace_delimited`, on symbols. -/
def replaceDelimited (delimiter : List Char) (tag : Tag) : List Symbol → List Symbol :=
  substitute (delimiterStep delimiter) (renderOpening delimiter tag)

/-- All the passes. -/
def rewrite (text : List Symbol) : List Symbol :=
  let transformed := withHeadings (escapeHtml text)
  let transformed := replaceLinks transformed
  let transformed := replaceDelimited ['*', '*'] .b transformed
  let transformed := replaceDelimited ['_', '_'] .b transformed
  replaceDelimited [Markdown.tick] .code transformed

end Marked

namespace Markdown

/-- The renderer's passes between the capture of the blocks and their return. -/
def rewrite (text : List Char) : List Char :=
  let transformed := ['\n'].intercalate (((escapeHtml text).splitOn '\n').map renderLine)
  let transformed := replaceLinks transformed
  let transformed := replaceDelimited transformed asterisks ['b']
  let transformed := replaceDelimited transformed underscores ['b']
  replaceDelimited transformed backtick "code".toList

/-- The renderer is the capture of the blocks, the passes on what is left, and the restoring of the blocks. -/
theorem markdownToHtml_rewrite (text : List Char) (hne : text ≠ []) : markdownToHtml text =
    restoreBlocks (captureFencedBlocks text).2 (rewrite (captureFencedBlocks text).1) := by
  rw [markdownToHtml, if_neg (by simpa using hne)]
  rfl

end Markdown

/-! ## What the passes see of a word -/

/-- What the passes look for, but for the underscores. -/
def Marked.stops : List Char := ['\n', '[', ']', '(', ')', '*', Markdown.tick]

namespace Word

open Markdown (placeholder mem_placeholder placeholder_isChain placeholder_eq tick)

/-- A placeholder begins with a mark. -/
theorem placeholder_cons (idx : Nat) :
    placeholder idx = '@' :: ("@TG_CODEBLOCK_".toList ++ Nat.toDigits 10 idx ++ "@@".toList) := by
  have hcons : "@@TG_CODEBLOCK_".toList = '@' :: "@TG_CODEBLOCK_".toList := by decide
  rw [placeholder_eq, hcons, List.cons_append, List.cons_append]

/-- Every word begins with one of four characters, by which the passes' searches see it. -/
theorem text_head (w : Word) : ∃ c rest, w.text = c :: rest ∧ c ∈ ['&', '<', '"', '@'] := by
  cases w with
  | entity kind => cases kind <;> exact ⟨_, _, rfl, by decide⟩
  | openTag tag => exact ⟨_, _, rfl, by decide⟩
  | closeTag tag => exact ⟨_, _, rfl, by decide⟩
  | openLink secure => exact ⟨'<', _, rfl, by decide⟩
  | endUrl => exact ⟨_, _, rfl, by decide⟩
  | closeLink => exact ⟨_, _, rfl, by decide⟩
  | block idx => exact ⟨'@', _, placeholder_cons idx, by simp⟩

/-- No word is written as nothing. -/
theorem text_ne_nil (w : Word) : w.text ≠ [] := by
  obtain ⟨c, rest, h, -⟩ := w.text_head
  rw [h]
  exact List.cons_ne_nil c rest

/-- No word has a character that the passes look for. -/
theorem stop_not_mem (w : Word) {c : Char} (h : c ∈ Marked.stops) : c ∉ w.text := by
  have hall : ∀ text : List Char, (text.all fun d => !Marked.stops.contains d) = true → c ∉ text := by
    intro text htext hc
    have hno := List.all_eq_true.mp htext c hc
    simp [h] at hno
  cases w with
  | entity kind => cases kind <;> exact hall _ (by decide)
  | openTag tag => cases tag <;> exact hall _ (by decide)
  | closeTag tag => cases tag <;> exact hall _ (by decide)
  | openLink secure => cases secure <;> exact hall _ (by decide)
  | endUrl => exact hall _ (by decide)
  | closeLink => exact hall _ (by decide)
  | block idx =>
    intro hc
    have hstops : ∀ d ∈ Marked.stops, d ≠ '@' ∧ d ≠ '_' ∧ d.isAlphanum = false := by
      simp [Marked.stops, Markdown.tick]
    obtain ⟨h1, h2, h3⟩ := hstops c h
    rcases mem_placeholder hc with hc | hc | hc
    · exact h1 hc
    · exact h2 hc
    · rw [h3] at hc
      cases hc

/-- Only in a placeholder are there underscores. -/
theorem underscore_mem {w : Word} (h : '_' ∈ w.text) : ∃ idx, w = .block idx := by
  cases w with
  | entity kind => cases kind <;> exact absurd h (by decide)
  | openTag tag => cases tag <;> exact absurd h (by decide)
  | closeTag tag => cases tag <;> exact absurd h (by decide)
  | openLink secure => cases secure <;> exact absurd h (by decide)
  | endUrl => exact absurd h (by decide)
  | closeLink => exact absurd h (by decide)
  | block idx => exact ⟨idx, rfl⟩

/-- **No pattern of these** begins in a word or runs into one. -/
theorem untouched (w : Word) {pattern : List Char} (hne : pattern ≠ [])
    (hstops : ∀ c ∈ pattern, c ∈ Marked.stops) :
    Untouched pattern w.text := by
  obtain ⟨c, rest, hcons, -⟩ := w.text_head
  have hhead : w.text.head? = some c := by rw [hcons]; rfl
  refine untouched_of_head hhead (fun hc => ?_) fun d hd => ?_
  · exact w.stop_not_mem (hstops c hc) (hcons ▸ List.mem_cons_self)
  · obtain ⟨p, more, rfl⟩ := List.exists_cons_of_ne_nil hne
    refine ⟨p, more, rfl, ?_⟩
    rintro rfl
    exact w.stop_not_mem (hstops d List.mem_cons_self) hd

/-- The underscores of a placeholder stand alone, and not at its end. -/
theorem untouched_underscores (w : Word) : Untouched ['_', '_'] w.text := by
  obtain ⟨c, rest, hcons, hc⟩ := w.text_head
  have hhead : w.text.head? = some c := by rw [hcons]; rfl
  have hheads : ∀ c ∈ ['&', '<', '"', '@'], c ∉ ['_', '_'] := by simp
  -- only a placeholder has underscores; none of them stand next to each other or at its end
  by_cases hmem : '_' ∈ w.text
  · obtain ⟨idx, rfl⟩ := underscore_mem hmem
    refine ⟨?_, ?_⟩
    · intro text more
      have hdrop := dropPattern_append_cons (hheads c hc) text (rest ++ more)
      simpa only [hcons, List.append_assoc, List.cons_append] using hdrop
    · intro start hstart hne more
      rw [dropPattern_eq_none]
      rintro ⟨after, hafter⟩
      obtain ⟨before, hbefore⟩ := hstart
      have hchain := placeholder_isChain idx
      rw [show placeholder idx = before ++ start from hbefore.symm, List.isChain_append] at hchain
      cases start with
      | nil => exact hne rfl
      | cons a start =>
        obtain rfl := (List.cons.inj hafter).1
        cases start with
        | nil =>
          have hlast : (placeholder idx).getLast? = some '@' := by
            rw [placeholder_eq, List.getLast?_append]
            rfl
          rw [show placeholder idx = before ++ ['_'] from hbefore.symm, List.getLast?_append] at hlast
          cases hlast
        | cons b start =>
          obtain rfl := (List.cons.inj (List.cons.inj hafter).2).1
          have hpair := hchain.2.1
          rw [List.isChain_cons_cons] at hpair
          exact hpair.1 ⟨rfl, rfl⟩
  · refine untouched_of_head hhead (hheads c hc) fun d hd => ⟨'_', ['_'], rfl, ?_⟩
    rintro rfl
    exact hmem hd

end Word

namespace Marked

open Markdown (placeholder mem_placeholder tick)

/-! ## Escaping -/

/-- No white space in it, as in all that there is before the links. -/
def Compact (w : Word) : Prop := ∀ c ∈ w.text, Text.isWhitespace c = false

/-- The fenced blocks' places: the only words that the passes begin with. -/
def IsBlock (w : Word) : Prop := ∃ idx, w = .block idx

/-- That a word has no white space is a computation. -/
theorem compact_of_all {w : Word} (h : (w.text.all fun c => !Text.isWhitespace c) = true) : Compact w :=
  fun c hc => by simpa using List.all_eq_true.mp h c hc

/-- The entities are compact. -/
theorem compact_entity (kind : Entity) : Compact (.entity kind) := by
  cases kind <;> exact compact_of_all (by decide)

/-- So is the place of a block, whose placeholder is marks, letters and digits. -/
theorem compact_block (idx : Nat) : Compact (.block idx) := by
  intro c hc
  rw [Bool.eq_false_iff]
  intro hspace
  rcases mem_placeholder hc with rfl | rfl | h
  · cases hspace
  · cases hspace
  · rw [Markdown.isAlphanum_of_whitespace hspace] at h
    cases h

/-- A text of which no character is escaped is left as it is. -/
theorem escapeHtml_plain {text : List Char} (h : ∀ c ∈ text, Markdown.escapeChar c = [c]) :
    Markdown.escapeHtml text = text := by
  induction text with
  | nil => rfl
  | cons c text ih =>
    obtain ⟨hc, htext⟩ := List.forall_mem_cons.mp h
    rw [Markdown.escapeHtml, List.flatMap_cons, hc]
    exact congrArg (c :: ·) (ih htext)

/-- A character that is escaped is one of five. -/
theorem escapeChar_cases (c : Char) :
    (Markdown.escapeChar c = [c] ∧ escapeSymbol (.inl c) = .inl c ∧ c ∉ ['&', '<', '>', '"', '\'']) ∨
      ∃ kind : Entity, Markdown.escapeChar c = kind.text ∧ escapeSymbol (.inl c) = .inr (.entity kind) := by
  unfold Markdown.escapeChar
  split
  · exact Or.inr ⟨.amp, rfl, rfl⟩
  · exact Or.inr ⟨.lt, rfl, rfl⟩
  · exact Or.inr ⟨.gt, rfl, rfl⟩
  · exact Or.inr ⟨.quot, rfl, rfl⟩
  · exact Or.inr ⟨.apos, rfl, rfl⟩
  · rename_i h1 h2 h3 h4 h5
    refine Or.inl ⟨rfl, ?_, by simpa using ⟨h1, h2, h3, h4, h5⟩⟩
    unfold escapeSymbol
    split <;> simp_all

/-- So a placeholder gets through the escaping, and is found by the last loop. -/
theorem escapeHtml_placeholder (idx : Nat) : Markdown.escapeHtml (placeholder idx) = placeholder idx := by
  refine escapeHtml_plain fun c hc => ?_
  unfold Markdown.escapeChar
  split
  case h_6 => rfl
  all_goals
    rcases mem_placeholder hc with h | h | h
    · cases h
    · cases h
    · cases h

/-- **Escaping** leaves the places of the blocks alone. -/
theorem written_escapeHtml {text : List Symbol} (h : Within IsBlock text) :
    written (escapeHtml text) = Markdown.escapeHtml (written text) := by
  induction text with
  | nil => rfl
  | cons a text ih =>
    obtain ⟨ha, htext⟩ := within_cons.mp h
    rcases a with c | w
    · show written (escapeSymbol (.inl c) :: escapeHtml text) =
        Markdown.escapeChar c ++ Markdown.escapeHtml (written text)
      rw [← ih htext]
      obtain ⟨hchar, hsymbol, -⟩ | ⟨kind, hchar, hsymbol⟩ :=
        escapeChar_cases c <;> rw [hchar, hsymbol] <;> rfl
    · obtain ⟨idx, rfl⟩ := ha w rfl
      show placeholder idx ++ written (escapeHtml text) =
        Markdown.escapeHtml (placeholder idx ++ written text)
      rw [ih htext]
      show _ = (placeholder idx ++ written text).flatMap Markdown.escapeChar
      rw [List.flatMap_append]
      exact congrArg (· ++ _) (escapeHtml_placeholder idx).symm

/-- Behind the escaping all words are compact: places of blocks and entities. -/
theorem compact_escapeHtml {text : List Symbol} (h : Within IsBlock text) :
    Within Compact (escapeHtml text) := by
  intro w hw
  obtain ⟨a, ha, heq⟩ := List.mem_map.mp hw
  rcases a with c | v
  · obtain ⟨-, hsymbol, -⟩ | ⟨kind, -, hsymbol⟩ := escapeChar_cases c
    · rw [hsymbol] at heq
      cases heq
    · rw [hsymbol] at heq
      cases heq
      exact compact_entity kind
  · obtain ⟨idx, rfl⟩ := h v ha
    cases heq
    exact compact_block idx

/-! ## Headings -/

/-- A compact word begins with something visible. -/
theorem Compact.head {w : Word} (h : Compact w) :
    ∃ c rest, w.text = c :: rest ∧ Text.isWhitespace c = false := by
  obtain ⟨c, rest, hcons, -⟩ := w.text_head
  exact ⟨c, rest, hcons, h c (hcons ▸ List.mem_cons_self)⟩

/-- No word begins with a hash. -/
theorem hash_head (w : Word) : ∃ c rest, w.text = c :: rest ∧ (c == '#') = false := by
  obtain ⟨c, rest, hcons, hc⟩ := w.text_head
  refine ⟨c, rest, hcons, ?_⟩
  rw [beq_eq_false_iff_ne]
  rintro rfl
  simp at hc

/-- Only the empty text is written as nothing. -/
theorem written_eq_nil (text : List Symbol) : written text = [] ↔ text = [] := by
  have hwithin : Within (fun _ => True) text := fun _ _ => trivial
  exact spell_eq_nil (fun w _ => w.text_ne_nil) hwithin

/-- So the check for an empty text may be made on the symbols. -/
theorem isEmpty_written (text : List Symbol) : (written text).isEmpty = text.isEmpty := by
  rw [Bool.eq_iff_iff, List.isEmpty_iff, List.isEmpty_iff, written_eq_nil]

/-- Skipping the indent does the same on the symbols as on what they stand for, as no word has white space. -/
theorem written_skipIndent (n : Nat) {line : List Symbol} (h : Within Compact line) :
    Markdown.skipIndent n (written line) = (skipIndent n line).map written := by
  induction n generalizing line with
  | zero => rfl
  | succ n ih =>
    cases line with
    | nil => rfl
    | cons a line =>
      obtain ⟨ha, hline⟩ := within_cons.mp h
      rcases a with c | w
      · show (if Text.isWhitespace c = true then Markdown.skipIndent n (written line)
          else some (c :: written line)) =
          (if Text.isWhitespace c = true then skipIndent n line else some (.inl c :: line)).map written
        split
        · exact ih hline
        · rfl
      · obtain ⟨c, rest, hcons, hc⟩ := (ha w rfl).head
        have hwritten : written (.inr w :: line) = c :: (rest ++ written line) := by
          show w.text ++ written line = _
          rw [hcons]
          rfl
        show _ = some (written (.inr w :: line))
        rw [hwritten, Markdown.skipIndent, hc, if_neg Bool.false_ne_true]

/-- So does the search for the heading's text. -/
theorem written_headingText {text : List Symbol} (h : Within Compact text) :
    Markdown.headingText (written text) = (headingText text).map written := by
  have htake : (written text).takeWhile Text.isWhitespace = _ :=
    takeWhile_spell (fun w hw => Compact.head hw) h
  have hdrop : (written text).dropWhile Text.isWhitespace = written (text.dropWhile isWhitespace) :=
    dropWhile_spell (fun w hw => Compact.head hw) h
  have hspaces : ∀ a ∈ text.takeWhile (onLetter Text.isWhitespace), onLetter Text.isWhitespace a = true :=
    fun a ha => List.mem_takeWhile_imp ha
  obtain ⟨chars, hchars⟩ := letters_of_onLetter hspaces
  rw [hchars, spell_letters] at htake
  unfold Markdown.headingText headingText
  rw [htake, hdrop, isWhitespace, hchars, List.getLast?_map]
  cases chars.getLast? with
  | none => rfl
  | some c =>
    show (if (written (text.dropWhile isWhitespace)).isEmpty = true then _ else _) =
      (if (text.dropWhile isWhitespace).isEmpty = true then _ else _ : Option (List Symbol)).map written
    rw [isEmpty_written]
    split <;> rfl

/-- What is left behind the indent is symbols of the line. -/
theorem skipIndent_subset {n : Nat} {line indented : List Symbol} (h : skipIndent n line = some indented) :
    indented ⊆ line := by
  induction n generalizing line with
  | zero =>
    cases h
    exact List.Subset.refl _
  | succ n ih =>
    cases line with
    | nil => cases h
    | cons a line =>
      rw [skipIndent] at h
      split at h
      · exact List.subset_cons_of_subset a (ih h)
      · cases h
        exact List.Subset.refl _

/-- So is a heading's text. -/
theorem headingText_subset {text heading : List Symbol} (h : headingText text = some heading) :
    heading ⊆ text := by
  unfold headingText at h
  split at h
  · cases h
  · rename_i lastWhitespace hlast
    dsimp only at h
    split at h
    · cases h
      intro a ha
      rw [List.mem_singleton.mp ha]
      exact (List.takeWhile_sublist _).subset (List.mem_of_getLast? hlast)
    · cases h
      exact (List.dropWhile_suffix _).subset

/-- And so is the heading of a line. -/
theorem markdownHeading_subset {line heading : List Symbol} (h : markdownHeading line = some heading) :
    heading ⊆ line := by
  unfold markdownHeading at h
  split at h
  · cases h
  · rename_i indented hindent
    dsimp only at h
    split at h
    · cases h
    · exact List.Subset.trans (headingText_subset h)
        (List.Subset.trans (List.drop_sublist _ _).subset (skipIndent_subset hindent))

/-- **The heading of a line** is the same. -/
theorem written_markdownHeading {line : List Symbol} (h : Within Compact line) :
    Markdown.markdownHeading (written line) = (markdownHeading line).map written := by
  unfold Markdown.markdownHeading markdownHeading
  rw [written_skipIndent 3 h]
  cases hindent : skipIndent 3 line with
  | none => rfl
  | some indented =>
    have hindented : Within Compact indented := h.subset (skipIndent_subset hindent)
    obtain ⟨hlength, hdrop⟩ := takeWhile_take_spell (fun w _ => hash_head w) 6 hindented
    have hempty : (((written indented).take 6).takeWhile (· == '#')).isEmpty =
        ((indented.take 6).takeWhile (onLetter (· == '#'))).isEmpty := by
      rw [Bool.eq_iff_iff, List.isEmpty_iff_length_eq_zero, List.isEmpty_iff_length_eq_zero]
      exact hlength ▸ Iff.rfl
    show (if (((written indented).take 6).takeWhile (· == '#')).isEmpty = true then none
        else Markdown.headingText
          ((written indented).drop (((written indented).take 6).takeWhile (· == '#')).length)) =
      Option.map written (if ((indented.take 6).takeWhile (onLetter (· == '#'))).isEmpty = true then none
        else headingText (indented.drop ((indented.take 6).takeWhile (onLetter (· == '#'))).length))
    rw [hempty]
    split
    · rfl
    · have hbehind :
          Within Compact (indented.drop ((indented.take 6).takeWhile (onLetter (· == '#'))).length) :=
        hindented.subset (List.drop_sublist _ _).subset
      rw [← written_headingText hbehind]
      congr 1
      exact (congrArg (List.drop · _) hlength).trans hdrop

/-- Trimming does the same on the symbols, as compact words are no white space. -/
theorem written_trim {text : List Symbol} (h : Within Compact text) :
    Text.trim (written text) = written (trim text) := by
  have hback : ∀ {text : List Symbol}, Within Compact text →
      Text.trimEnd (written text) = written (text.rdropWhile isWhitespace) := by
    intro text h
    have hlast : ∀ w, Compact w → ∃ c rest, w.text.reverse = c :: rest ∧ Text.isWhitespace c = false := by
      intro w hw
      obtain ⟨c, rest, hcons⟩ := List.exists_cons_of_ne_nil (mt List.reverse_eq_nil_iff.mp w.text_ne_nil)
      exact ⟨c, rest, hcons, hw c (List.mem_reverse.mp (hcons ▸ List.mem_cons_self))⟩
    rw [Text.trimEnd, written, reverse_spell, dropWhile_spell hlast h.reverse, reverse_spell]
    simp only [List.reverse_reverse]
    rfl
  have hstart : Text.trimStart (written text) = written (text.dropWhile isWhitespace) :=
    dropWhile_spell (fun w hw => Compact.head hw) h
  rw [Text.trim, hstart, hback (h.subset (List.dropWhile_suffix _).subset)]
  rfl

/-- What stands for two texts in a row is what stands for each. -/
theorem written_append (text text' : List Symbol) : written (text ++ text') = written text ++ written text' :=
  spell_append

/-- A tagged text is written as the renderer's tag around what it stands for. -/
theorem written_tagged (tag : Tag) (text : List Symbol) :
    written (tagged tag text) = Markdown.tagged tag.name (written text) := by
  show ('<' :: tag.name ++ ['>']) ++ written (text ++ [.inr (.closeTag tag)]) = _
  rw [written_append]
  show _ ++ (_ ++ (('<' :: '/' :: tag.name ++ ['>']) ++ [])) = _
  rw [List.append_nil, Markdown.tagged]
  simp only [List.append_assoc, List.cons_append, List.nil_append]

/-- One line is rendered the same way on symbols and on characters. -/
theorem written_renderLine {line : List Symbol} (h : Within Compact line) :
    written (renderLine line) = Markdown.renderLine (written line) := by
  unfold renderLine Markdown.renderLine
  rw [written_markdownHeading h]
  cases hheading : markdownHeading line with
  | none => rfl
  | some heading =>
    have hwithin : Within Compact heading := h.subset (markdownHeading_subset hheading)
    show written (tagged .b (trim heading)) = Markdown.tagged ['b'] (Text.trim (written heading))
    rw [written_tagged, written_trim hwithin]
    rfl

/-- The tags of a heading have no white space. -/
theorem compact_b : Compact (.openTag .b) ∧ Compact (.closeTag .b) :=
  ⟨compact_of_all (by decide), compact_of_all (by decide)⟩

/-- So the words of a rendered line are compact as well. -/
theorem compact_renderLine {line : List Symbol} (h : Within Compact line) :
    Within Compact (renderLine line) := by
  unfold renderLine
  split
  · rename_i heading hheading
    have hsub : trim heading ⊆ line := List.Subset.trans (List.rdropWhile_prefix _ _).subset
      (List.Subset.trans (List.dropWhile_suffix _).subset (markdownHeading_subset hheading))
    refine within_append.mpr ⟨within_cons.mpr ⟨?_, h.subset hsub⟩, within_cons.mpr ⟨?_, within_nil⟩⟩
    · rintro w ⟨⟩
      exact compact_b.1
    · rintro w ⟨⟩
      exact compact_b.2
  · exact h

/-- The newline is among the characters that are in no word, so lines can be counted on the symbols. -/
theorem newline_stops : '\n' ∈ stops := List.mem_cons_self

/-- **Headings**, line by line. -/
theorem written_withHeadings {text : List Symbol} (h : Within Compact text) : written (withHeadings text) =
    ['\n'].intercalate (((written text).splitOn '\n').map Markdown.renderLine) := by
  have hlines : (written text).splitOn '\n' = (text.splitOn (.inl '\n')).map written :=
    lines_spell (fun w _ => w.stop_not_mem newline_stops) h
  rw [withHeadings, written, spell_intercalate, hlines, List.map_map, List.map_map]
  congr 1
  refine List.map_congr_left fun line hline => ?_
  exact written_renderLine (h.subset (mem_splitOn hline).2)

/-- All the words that the links are looked for among are compact. -/
theorem compact_withHeadings {text : List Symbol} (h : Within Compact text) :
    Within Compact (withHeadings text) := by
  have hlines : ∀ line ∈ text.splitOn (.inl '\n'), Within Compact line :=
    fun line hline => h.subset (mem_splitOn hline).2
  unfold withHeadings
  generalize text.splitOn (.inl '\n') = lines at hlines ⊢
  induction lines with
  | nil => exact within_nil
  | cons line lines ih =>
    obtain ⟨hline, hlines⟩ := List.forall_mem_cons.mp hlines
    cases lines with
    | nil =>
      rw [List.map_singleton, List.intercalate_singleton]
      exact compact_renderLine hline
    | cons next lines =>
      rw [List.map_cons, List.map_cons, List.intercalate_cons_cons, within_append, within_append]
      refine ⟨⟨compact_renderLine hline, ?_⟩, ih hlines⟩
      exact within_letters ['\n']

/-! ## Links -/

/-- No word before the links has the letter that a scheme starts with. -/
theorem Compact.no_h {w : Word} (h : Compact w) : 'h' ∉ w.text := by
  cases w with
  | entity kind => cases kind <;> decide
  | openTag tag => cases tag <;> decide
  | closeTag tag => cases tag <;> decide
  | openLink secure =>
    have hspace : ' ' ∈ (Word.openLink secure).text := by cases secure <;> decide
    cases h ' ' hspace
  | endUrl => decide
  | closeLink => decide
  | block idx =>
    intro hmem
    have hmem : 'h' ∈ placeholder idx := hmem
    rw [Markdown.placeholder_eq, List.mem_append, List.mem_append] at hmem
    rcases hmem with (hmem | hmem) | hmem
    · exact absurd hmem (by decide)
    · cases Nat.isDigit_of_mem_toDigits (by decide) (by decide) hmem
    · exact absurd hmem (by decide)

/-- The scheme is the same, and so is what follows it. -/
theorem written_scheme {url : List Symbol} (h : Within Compact url) :
    (dropPattern Markdown.http (written url) = (dropPattern (letters Markdown.http) url).map written) ∧
      (dropPattern Markdown.https (written url) =
      (dropPattern (letters Markdown.https) url).map written) := by
  have huntouched : ∀ start : List Char, start.head? = some 'h' →
      (['&', '<', '"', '@'].all fun c => !start.contains c) = true →
      Within (fun w => Untouched start w.text) url := by
    intro start hstart hheads w hw
    obtain ⟨c, rest, hcons, hc⟩ := w.text_head
    obtain ⟨more, rfl⟩ := List.head?_eq_some_iff.mp hstart
    have hc : c ∉ 'h' :: more := by simpa using List.all_eq_true.mp hheads c hc
    refine untouched_of_head (by rw [hcons]; rfl) hc fun d hd => ⟨'h', more, rfl, ?_⟩
    rintro rfl
    exact (h w hw).no_h hd
  exact ⟨dropPattern_spell (huntouched Markdown.http (by decide) (by decide)),
    dropPattern_spell (huntouched Markdown.https (by decide) (by decide))⟩

/-- A scheme that is found stands in letters at the front of the URL. -/
theorem scheme_eq_some {url rest : List Symbol} {secure : Bool} (h : scheme url = some (secure, rest)) :
    url = letters (schemeText secure) ++ rest := by
  unfold scheme at h
  split at h
  · rename_i rest' hdrop
    cases h
    exact dropPattern_eq_some.mp hdrop
  · obtain ⟨rest', hdrop, heq⟩ := Option.map_eq_some_iff.mp h
    cases heq
    exact dropPattern_eq_some.mp hdrop

/-- **What the renderer takes for a link**, by its scheme. -/
theorem isLink_written (label : List Symbol) {url : List Symbol} (h : Within Compact url) :
    Markdown.isLink (written label, written url) = true ↔
      ∃ parts, scheme url = some parts ∧ label.isEmpty = false ∧ url.any isWhitespace = false := by
  obtain ⟨hhttp, hhttps⟩ := written_scheme h
  have hany : (written url).any Text.isWhitespace = url.any isWhitespace :=
    any_spell (fun w hw c hc => hw c hc) h
  have hprefix :
      ∀ start : List Char, start.isPrefixOf (written url) = (dropPattern start (written url)).isSome := by
    intro start
    rw [dropPattern]
    split
    · rename_i hstart
      rw [hstart]
      rfl
    · rename_i hstart
      rw [Bool.eq_false_iff.mpr hstart]
      rfl
  -- a URL written out begins with a scheme exactly when it was read with one
  have hscheme : (scheme url).isSome =
      ((dropPattern Markdown.http (written url)).isSome ||
          (dropPattern Markdown.https (written url)).isSome) := by
    rw [hhttp, hhttps, scheme]
    cases dropPattern (letters Markdown.http) url with
    | some rest => rfl
    | none => rw [Option.isSome_map]; simp
  have hnonempty : (scheme url).isSome = true → url.isEmpty = false := by
    intro hsome
    obtain ⟨⟨secure, rest⟩, hparts⟩ := Option.isSome_iff_exists.mp hsome
    rw [scheme_eq_some hparts]
    cases secure <;> rfl
  rw [Markdown.isLink, isEmpty_written, isEmpty_written, hany, hprefix, hprefix, ← hscheme]
  simp only [Bool.and_eq_true, Bool.not_eq_true']
  constructor
  · rintro ⟨⟨⟨hlabel, -⟩, hsome⟩, hspace⟩
    obtain ⟨parts, hparts⟩ := Option.isSome_iff_exists.mp hsome
    exact ⟨parts, hparts, hlabel, hspace⟩
  · rintro ⟨parts, hparts, hlabel, hspace⟩
    have hsome := Option.isSome_iff_exists.mpr ⟨parts, hparts⟩
    exact ⟨⟨⟨hlabel, hnonempty hsome⟩, hsome⟩, hspace⟩

/-- A character that the passes look for is in no word. -/
theorem untouched_stop {c : Char} (h : c ∈ stops) (w : Word) : Untouched [c] w.text :=
  w.untouched (List.cons_ne_nil c []) fun _ hd => List.mem_singleton.mp hd ▸ h

/-- One of the characters that the passes look for, at the head. -/
theorem dropPattern_stop {c : Char} (h : c ∈ stops) (text : List Symbol) :
    dropPattern [c] (written text) = (dropPattern [.inl c] text).map written :=
  dropPattern_spell fun w _ => untouched_stop h w

/-- So the split at such a character is the same on symbols and on what they stand for. -/
theorem splitOnce_stop {c : Char} (h : c ∈ stops) (text : List Symbol) : splitOnce (written text) c =
    (splitAround [.inl c] text).map fun parts => (written parts.1, written parts.2) := by
  rw [← splitAround_char]
  exact splitAround_spell (List.cons_ne_nil c []) fun w _ => untouched_stop h w

/-- What a word stands for comes first. -/
theorem written_word (w : Word) (text : List Symbol) :
    written (.inr w :: text) = w.text ++ written text := rfl

/-- The renderer's link, written out. -/
theorem renderLink_eq (label url : List Char) : Markdown.renderLink (label, url) =
    "<a href=\"".toList ++ url ++ "\">".toList ++ label ++ "</a>".toList := rfl

/-- A link is written as the renderer's. -/
theorem written_link (link : Link) : written (renderLink link) =
    Markdown.renderLink (written link.label, schemeText link.secure ++ written link.url) := by
  have hopen : (Word.openLink link.secure).text = "<a href=\"".toList ++ schemeText link.secure := rfl
  have hend : Word.endUrl.text = "\">".toList := rfl
  have hclose : Word.closeLink.text = "</a>".toList := rfl
  have hnil : written [] = [] := rfl
  rw [renderLink, written_append, written_append, written_word, written_word, written_word, renderLink_eq,
    hopen, hend, hclose, hnil, List.append_nil]
  simp only [List.append_assoc]

/-- **The link at the head** of a text is the same. -/
theorem written_linkStep {text : List Symbol} (h : Within Compact text) :
    Markdown.linkStep Markdown.isLink (written text) = (linkStep text).map fun found =>
      ((written found.1.label, schemeText found.1.secure ++ written found.1.url), written found.2) := by
  unfold Markdown.linkStep linkStep Markdown.linkParts
  rw [dropPattern_stop (by decide)]
  -- each search finds the same on both sides, since no word holds what is looked for
  cases hopen : dropPattern [.inl '['] text with
  | none => rfl
  | some labelStart =>
    dsimp only [Option.map_some, Option.bind_some]
    rw [splitOnce_stop (by decide)]
    cases hlabel : splitAround [.inl ']'] labelStart with
    | none => rfl
    | some parts =>
      obtain ⟨label, afterLabel⟩ := parts
      dsimp only [Option.map_some, Option.bind_some]
      rw [stripPrefix, dropPattern_stop (by decide)]
      cases hparen : dropPattern [.inl '('] afterLabel with
      | none => rfl
      | some urlStart =>
        dsimp only [Option.map_some, Option.bind_some]
        rw [splitOnce_stop (by decide)]
        cases hurl : splitAround [.inl ')'] urlStart with
        | none => rfl
        | some parts =>
          obtain ⟨url, after⟩ := parts
          dsimp only [Option.map_some, Option.bind_some]
          have htext : text = letters ['['] ++ (label ++ letters [']'] ++ (letters ['('] ++
              (url ++ letters [')'] ++ after))) := by
            rw [dropPattern_eq_some.mp hopen, eq_of_splitAround hlabel, dropPattern_eq_some.mp hparen,
              eq_of_splitAround hurl]
            rfl
          have hcompact : Within Compact url := h.subset fun a ha => by simp [htext, ha]
          have hlink := isLink_written label hcompact
          cases hscheme : scheme url with
          | none =>
            rw [if_neg fun h => ?_]
            · rfl
            · obtain ⟨parts, hparts, -⟩ := hlink.mp h
              rw [hscheme] at hparts
              cases hparts
          | some parts =>
            obtain ⟨secure, rest⟩ := parts
            dsimp only [Option.bind_some]
            have hurlText : written url = schemeText secure ++ written rest := by
              rw [scheme_eq_some hscheme, written_append, letters, written, spell_letters]
            by_cases hwell : label.isEmpty = false ∧ url.any isWhitespace = false
            · rw [if_pos (hlink.mpr ⟨_, hscheme, hwell⟩), hwell.1, hwell.2, hurlText]
              rfl
            · have hnot : (label.isEmpty || url.any isWhitespace) = true := by
                rw [Bool.or_eq_true]
                by_contra hno
                obtain ⟨h1, h2⟩ := not_or.mp hno
                exact hwell ⟨Bool.eq_false_iff.mpr h1, Bool.eq_false_iff.mpr h2⟩
              rw [if_neg fun h => ?_, hnot]
              · rfl
              · obtain ⟨-, -, hlabel, hspace⟩ := hlink.mp h
                exact hwell ⟨hlabel, hspace⟩

/-- A link that is found, as what the text is made of. -/
theorem linkStep_eq_some {text after : List Symbol} {link : Link} (h : linkStep text = some (link, after)) :
    text = .inl '[' :: link.label ++ .inl ']' :: .inl '(' :: letters (schemeText link.secure) ++ link.url ++
      .inl ')' :: after := by
  obtain ⟨labelStart, hopen, h⟩ := Option.bind_eq_some_iff.mp h
  obtain ⟨⟨label, afterLabel⟩, hlabel, h⟩ := Option.bind_eq_some_iff.mp h
  obtain ⟨urlStart, hparen, h⟩ := Option.bind_eq_some_iff.mp h
  obtain ⟨⟨url, after'⟩, hurl, h⟩ := Option.bind_eq_some_iff.mp h
  obtain ⟨⟨secure, rest⟩, hscheme, h⟩ := Option.bind_eq_some_iff.mp h
  dsimp only at h hlabel hparen hurl hscheme
  split at h
  · cases h
  · cases h
    rw [dropPattern_eq_some.mp hopen, eq_of_splitAround hlabel, dropPattern_eq_some.mp hparen,
      eq_of_splitAround hurl, scheme_eq_some hscheme]
    simp

/-- Each link takes something off the text. -/
theorem consumes_linkStep : Consumes linkStep := by
  intro text link after h
  rw [linkStep_eq_some h]
  exact ⟨letters ['['] ++ link.label ++ letters [']', '('] ++ letters (schemeText link.secure) ++ link.url ++
    letters [')'], by simp [letters], by simp [letters]⟩

/-- **Links** are replaced alike. -/
theorem written_replaceLinks {text : List Symbol} (h : Within Compact text) :
    written (replaceLinks text) = Markdown.replaceLinks (written text) := by
  rw [Markdown.replaceLinks_eq]
  refine (substitute_spell (Markdown.consumes_linkStep _) consumes_linkStep ?_ ?_ ?_ text h).symm
  · intro w _ start hstart hne rest
    exact Markdown.linkStep_of_none ((untouched_stop (by decide) w).inside start hstart hne rest)
  · intro c rest hwithin hnone
    have hstep := written_linkStep hwithin
    rw [hnone] at hstep
    exact hstep
  · intro text link rest hwithin hsome
    have hstep := written_linkStep hwithin
    rw [hsome] at hstep
    exact ⟨_, hstep, (written_link link).symm⟩

/-! ## Delimiters -/

section

variable {delimiter : Markdown.Delimiter} {tag : Tag}

/-- A delimiter that no word is touched by, of one line. -/
structure Delimits (delimiter : Markdown.Delimiter) : Prop where
  line : '\n' ∉ delimiter.1
  untouched : ∀ w : Word, Untouched delimiter.1 w.text

/-- No word has an asterisk. -/
theorem delimits_asterisks : Delimits Markdown.asterisks where
  line := by decide
  untouched w := w.untouched Markdown.asterisks.2 fun c hc => by
    rcases List.mem_cons.mp hc with rfl | hc
    · decide
    · rw [List.mem_singleton.mp hc]
      decide

/-- No word has two underscores in a row: those of a placeholder stand single. -/
theorem delimits_underscores : Delimits Markdown.underscores where
  line := by decide
  untouched := Word.untouched_underscores

/-- No word has a tick. -/
theorem delimits_backtick : Delimits Markdown.backtick where
  line := by decide
  untouched := untouched_stop (by decide)

/-- A newline in what is written is one among the symbols. -/
theorem contains_newline (text : List Symbol) : '\n' ∈ written text ↔ text.contains (.inl '\n') = true := by
  rw [List.contains_iff_mem]
  have hwithin : Within (fun _ => True) text := fun _ _ => trivial
  exact mem_spell (fun w _ => w.stop_not_mem newline_stops) hwithin

/-- A pattern is at the front exactly if the first occurrence has nothing before it. -/
theorem isPrefixOf_isSome {α : Type} [DecidableEq α] {pattern text before after : List α}
    (h : splitAround pattern text = some (before, after)) :
    (dropPattern pattern text).isSome = before.isEmpty := by
  cases text with
  | nil =>
    obtain ⟨rest, hrest, heq⟩ := Option.map_eq_some_iff.mp h
    cases heq
    rw [hrest]
    rfl
  | cons c text =>
    cases hdrop : dropPattern pattern (c :: text) with
    | some rest =>
      rw [splitAround_of_some hdrop] at h
      cases h
      rfl
    | none =>
      rw [splitAround_cons hdrop] at h
      obtain ⟨parts, -, heq⟩ := Option.map_eq_some_iff.mp h
      cases heq
      rfl

/-- The closing delimiter is found the same way on symbols and on characters. -/
theorem written_closeAt (h : Delimits delimiter) (content : List Symbol) :
    Markdown.closeAt delimiter (written content) =
      (closeAt delimiter.1 content).map fun parts => (written parts.1, written parts.2) := by
  have hsplit : splitAround delimiter.1 (written content) =
      (splitAround (letters delimiter.1) content).map fun parts => (written parts.1, written parts.2) :=
    splitAround_spell delimiter.2 fun w _ => h.untouched w
  have hclose := Markdown.closeAt_eq h.line (written content)
  rw [Markdown.closeFirst, hsplit] at hclose
  rw [hclose, closeAt]
  cases hparts : splitAround (letters delimiter.1) content with
  | none =>
    split <;> rfl
  | some parts =>
    rw [hparts] at hsplit
    rw [isPrefixOf_isSome hsplit, isEmpty_written, Option.map_some, Option.bind_some, Option.bind_some]
    cases hempty : parts.1.isEmpty with
    | true => rfl
    | false =>
      rw [if_neg Bool.false_ne_true, Bool.false_or]
      by_cases hline : '\n' ∈ written parts.1
      · rw [if_pos hline, if_pos ((contains_newline _).mp hline)]
        rfl
      · rw [if_neg hline, if_neg fun h => hline ((contains_newline _).mpr h)]
        rfl

/-- What is found is a body, the delimiter in letters, and the rest. -/
theorem closeAt_eq_some {delimiter : List Char} {content body after : List Symbol}
    (h : closeAt delimiter content = some (body, after)) : content = body ++ letters delimiter ++ after := by
  obtain ⟨parts, hparts, h⟩ := Option.bind_eq_some_iff.mp h
  split at h
  · cases h
  · cases h
    exact eq_of_splitAround hparts

/-- What a delimiter does, by its end. -/
theorem delimiterStep_eq_some {delimiter : List Char} {text rest : List Symbol}
    {opening : Option (List Symbol)} (h : delimiterStep delimiter text = some (opening, rest)) :
    ∃ content, text = letters delimiter ++ content ∧
      (closeAt delimiter content = none ∧ opening = none ∧ rest = content ∨
        ∃ body, closeAt delimiter content = some (body, rest) ∧ opening = some body) := by
  obtain ⟨content, hcontent, heq⟩ := Option.map_eq_some_iff.mp h
  refine ⟨content, dropPattern_eq_some.mp hcontent, ?_⟩
  split at heq
  · rename_i body after hclose
    cases heq
    exact Or.inr ⟨body, hclose, rfl⟩
  · rename_i hclose
    cases heq
    exact Or.inl ⟨hclose, rfl, rfl⟩

/-- Each step takes at least the delimiter off the text. -/
theorem consumes_delimiterStep {delimiter : List Char} (hne : delimiter ≠ []) :
    Consumes (delimiterStep delimiter) := by
  have hne : letters delimiter ≠ [] := fun h => hne (List.map_eq_nil_iff.mp h)
  intro text opening rest h
  obtain ⟨content, rfl, ⟨-, -, rfl⟩ | ⟨body, hclose, -⟩⟩ := delimiterStep_eq_some h
  · exact ⟨letters delimiter, hne, rfl⟩
  · rw [closeAt_eq_some hclose]
    exact ⟨letters delimiter ++ body ++ letters delimiter, by simp [hne], by simp⟩

/-- **Delimiters** are replaced alike. -/
theorem written_replaceDelimited (h : Delimits delimiter) (tag : Tag) (text : List Symbol) :
    written (replaceDelimited delimiter.1 tag text) =
        Markdown.replaceDelimited (written text) delimiter tag.name := by
  have hcloser := Markdown.closer_closeAt h.line
  have hletters : written (letters delimiter.1) = delimiter.1 := spell_letters _
  have hdrop : ∀ text : List Symbol, dropPattern delimiter.1 (written text) =
      (dropPattern (letters delimiter.1) text).map written :=
      fun text => dropPattern_spell fun w _ => h.untouched w
  rw [Markdown.replaceDelimited_eq h.line]
  have hwithin : Within (fun _ => True) text := fun _ _ => trivial
  -- what is inside a word, what is copied and what is found, in this order
  refine (substitute_spell (Markdown.consumes_delimiterStep delimiter.2 hcloser)
    (consumes_delimiterStep delimiter.2)
    ?_ ?_ ?_ text hwithin).symm
  · intro w _ start hstart hne rest
    exact Markdown.delimiterStep_of_none ((h.untouched w).inside start hstart hne rest)
  · intro c rest _ hnone
    have hletter := hdrop (.inl c :: rest)
    rw [Option.map_eq_none_iff.mp hnone] at hletter
    exact Markdown.delimiterStep_of_none hletter
  · intro text opening rest _ hsome
    obtain ⟨content, rfl, ⟨hclose, rfl, rfl⟩ | ⟨body, hclose, rfl⟩⟩ := delimiterStep_eq_some hsome
    · have hnone : Markdown.closeAt delimiter (written rest) = none := by rw [written_closeAt h, hclose]; rfl
      refine ⟨(written rest, none), ?_, hletters.symm⟩
      show Markdown.delimiterStep _ _ (written (letters delimiter.1 ++ rest)) = _
      rw [written_append, hletters, Markdown.delimiterStep_unclosed hnone]
      rfl
    · have hclosed : Markdown.closeAt delimiter (written content) = some (written body, written rest) := by
        rw [written_closeAt h, hclose]
        rfl
      refine ⟨(written content, some (written body)), ?_, (written_tagged tag body).symm⟩
      show Markdown.delimiterStep _ _ (written (letters delimiter.1 ++ content)) = _
      rw [written_append, hletters, Markdown.delimiterStep_closed hclosed]
      rfl

end

/-! ## All of it -/

/-- **The passes** see nothing of the words: writing the words out comes before the passes or behind them. -/
theorem written_rewrite {text : List Symbol} (h : Within IsBlock text) :
    written (rewrite text) = Markdown.rewrite (written text) := by
  have hescaped := compact_escapeHtml h
  have hbacktick := @written_replaceDelimited Markdown.backtick delimits_backtick .code
  have hunderscores := @written_replaceDelimited Markdown.underscores delimits_underscores .b
  have hasterisks := @written_replaceDelimited Markdown.asterisks delimits_asterisks .b
  show written (replaceDelimited Markdown.backtick.1 .code (replaceDelimited Markdown.underscores.1 .b
    (replaceDelimited Markdown.asterisks.1 .b (replaceLinks (withHeadings (escapeHtml text)))))) = _
  rw [hbacktick, hunderscores, hasterisks, written_replaceLinks (compact_withHeadings hescaped),
    written_withHeadings hescaped, written_escapeHtml h]
  rfl

end Marked

end Tellm
