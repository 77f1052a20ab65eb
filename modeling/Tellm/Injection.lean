/-
  INJECTION: what of the renderer's output is markup.

  A model's answer is escaped once, and then cut, moved and spliced by five passes and the return of the
  blocks.  Whatever it says, a `<`, a `>` or a `"` of the output is the renderer's own, and an `&` begins
  an entity.

  1. **`Marked.markdownToHtml`**: all of the rendering over symbols.  The blocks' places are characters of
     the text again, so that a text that spells one has it replaced, as by `str::replace`;
     `written_markdownToHtml`.
  2. **`Marked.safe_markdownToHtml`**: every character of it that is not in a word is plain.
  3. **`markup_inserted`**: the same of the characters of the output, of which no text keeps the renderer.

  A property that newlines and the inserted words have, and that the letters of the text have after the
  escaping, is carried through every pass (`Carried`); being no special character is one.  The return of
  the blocks needs more care, since a placeholder may be spelled by the text: what is put in there is a
  block, and a block is safe by itself.

  The theorem is about the real output, characters with their positions.  `InWord` says that a character
  at a position stands in a word of the symbol text at the corresponding one; so a bracket or a quote is
  inside one of the renderer's tags, an ampersand is the first character of an entity, and an opening link
  tag is followed by one of the two schemes.

  That the renderer returns at all is part of the statement, by `Tellm.MarkdownOffsets`.
-/
import Tellm.Markup
import Tellm.MarkdownOffsets

namespace Tellm

open Text Substitutions Spellings

/-! ## The blocks -/

namespace Markdown

/-- A fence at the head of a text, and its block. -/
def fenceStep : Step Char (List Char) := fun text => (dropPattern fence text).bind fencedBlock

/-- The blocks that `capture_fenced_blocks` finds, as they are in the text. -/
def fencedBodies (text : List Char) : List (List Char) := found fenceStep text

/-- The text with its blocks numbered. -/
def numbered : Nat → List (Char ⊕ List Char) → List Symbol
  | _, [] => []
  | idx, .inl c :: rest => .inl c :: numbered idx rest
  | idx, .inr _ :: rest => .inr (.block idx) :: numbered (idx + 1) rest

/-- What is outside the fences, and the places of the blocks. -/
def outside (text : List Char) : List Symbol := numbered 0 (pieces fenceStep text)

/-- A captured block takes at least its fences off the text. -/
theorem consumes_fenceStep : Consumes fenceStep := by
  intro text block rest h
  refine consumes_fence text [block] rest ?_
  obtain ⟨afterOpen, hopen, hblock⟩ := Option.bind_eq_some_iff.mp h
  rw [step_fence, hopen, Option.bind_some, hblock]
  rfl

/-- The loop of the source that collects the blocks, read off the pieces: the places are numbered on from the
    blocks that are there already. -/
theorem captureFencedBlocks_pieces (rest : List (Char ⊕ List Char)) (fencedBlocks : List (List Char)) :
    Reference.captureFencedBlocks (rest.map (Sum.map id fun block => [block])) fencedBlocks =
      (Marked.written (numbered fencedBlocks.length rest),
        fencedBlocks ++ (rest.filterMap Sum.getRight?).map codeBlock) := by
  induction rest generalizing fencedBlocks with
  | nil =>
    show ([], fencedBlocks) = (Marked.written [], fencedBlocks ++ [])
    rw [List.append_nil]
    rfl
  | cons piece rest ih =>
    cases piece with
    | inl c =>
      show (c :: (Reference.captureFencedBlocks (rest.map _) fencedBlocks).1, _) = _
      rw [ih]
      rfl
    | inr block =>
      show (placeholder fencedBlocks.length ++ (Reference.captureFencedBlocks (rest.map _) _).1,
        (Reference.captureFencedBlocks (rest.map _) _).2) = _
      have hblock : "<pre><code>".toList ++
        Reference.escape (Reference.strip (· == '\n') (Reference.group [block] 1)) ++
          "</code></pre>".toList = codeBlock block := by
        rw [escape_eq]
        rfl
      rw [ih, hblock, List.length_append, List.length_singleton, List.append_assoc]
      rfl

/-- **What is captured**: the text outside the fences with a placeholder for each, and their blocks. -/
theorem captureFencedBlocks_eq (text : List Char) :
    captureFencedBlocks text = (Marked.written (outside text), (fencedBodies text).map codeBlock) := by
  have hstep : ∀ text, Reference.fenceRegex.step text = (fenceStep text).map fun m => ([m.1], m.2) := by
    intro text
    rw [step_fence, fenceStep]
    cases dropPattern fence text <;> rfl
  rw [← capture_eq, pieces_map (fun block => [block]) consumes_fenceStep hstep, captureFencedBlocks_pieces]
  rfl

end Markdown

namespace Marked

/-! ## All of the rendering -/

/-- A code block as it is put back, on symbols. -/
def codeBlock (body : List Char) : List Symbol :=
  tagged .pre (tagged .code (escapeHtml (letters (Markdown.trimNewlines body))))

/-- The last loop, over symbols. -/
def restoreBlocks (bodies : List (List Char)) (transformed : List Symbol) : List Symbol :=
  bodies.zipIdx.foldl
    (fun text body => replaceAll (letters (Markdown.placeholder body.2)) (codeBlock body.1) text)
    transformed

/-- `markdown_to_html`, on symbols. -/
def markdownToHtml (text : List Char) : List Symbol :=
  if text.isEmpty then []
  else restoreBlocks (Markdown.fencedBodies text) (rewrite (letters (Markdown.captureFencedBlocks text).1))

/-- Letters have no words at all, so no other than places. -/
theorem within_isBlock_letters (text : List Char) : Within IsBlock (letters text) := within_letters text

/-- The letters of a text stand for the text. -/
theorem written_letters (text : List Char) : written (letters text) = text := spell_letters text

/-- Two tags around a text, written out. -/
theorem tagged_tagged (outer inner text : List Char) : Markdown.tagged outer (Markdown.tagged inner text) =
    ('<' :: outer ++ '>' :: '<' :: inner ++ ['>']) ++ text ++
      ('<' :: '/' :: inner ++ '>' :: '<' :: '/' :: outer ++ ['>']) := by
  simp [Markdown.tagged]

/-- A block on symbols stands for the renderer's block. -/
theorem written_codeBlock (body : List Char) : written (codeBlock body) = Markdown.codeBlock body := by
  have hopen : '<' :: Tag.pre.name ++ '>' :: '<' :: Tag.code.name ++ ['>'] = "<pre><code>".toList := by decide
  have hclose : '<' :: '/' :: Tag.code.name ++ '>' :: '<' :: '/' :: Tag.pre.name ++ ['>'] =
      "</code></pre>".toList := by
    decide
  have hescaped : written (escapeHtml (letters (Markdown.trimNewlines body))) =
      Markdown.escapeHtml (Markdown.trimNewlines body) := by
    rw [written_escapeHtml (within_isBlock_letters _), written_letters]
  calc written (codeBlock body)
      = Markdown.tagged Tag.pre.name
          (Markdown.tagged Tag.code.name (Markdown.escapeHtml (Markdown.trimNewlines body))) := by
        rw [codeBlock, written_tagged, written_tagged, hescaped]
    _ = "<pre><code>".toList ++ Markdown.escapeHtml (Markdown.trimNewlines body) ++
        "</code></pre>".toList := by
        rw [tagged_tagged, hopen, hclose]

/-! ## What the passes carry on -/

/-- What holds of a newline and of all that the passes put in. -/
structure Carried (good : Symbol → Prop) : Prop where
  newline : good (.inl '\n')
  inserted : ∀ w, ¬ IsBlock w → good (.inr w)

section

variable {good : Symbol → Prop} {text : List Symbol}

/-- What a pass carries on is carried by the tags around it. -/
theorem Carried.tagged (hgood : Carried good) (tag : Tag) (h : ∀ a ∈ text, good a) :
    ∀ a ∈ tagged tag text, good a := by
  refine List.forall_mem_append.mpr ⟨List.forall_mem_cons.mpr ⟨hgood.inserted _ ?_, h⟩,
    List.forall_mem_cons.mpr ⟨hgood.inserted _ ?_, fun _ h => absurd h List.not_mem_nil⟩⟩
  · rintro ⟨idx, h⟩
    cases h
  · rintro ⟨idx, h⟩
    cases h

/-- Trimming puts nothing in. -/
theorem trim_subset (text : List Symbol) : trim text ⊆ text :=
  List.Subset.trans (List.rdropWhile_prefix _ _).subset (List.dropWhile_suffix _).subset

/-- A rendered line has symbols of the line, and tags. -/
theorem Carried.renderLine (hgood : Carried good) {line : List Symbol} (h : ∀ a ∈ line, good a) :
    ∀ a ∈ renderLine line, good a := by
  unfold Marked.renderLine
  split
  · rename_i heading hheading
    exact hgood.tagged .b fun a ha => h a (markdownHeading_subset hheading (trim_subset heading ha))
  · exact h

/-- So has the text with all its headings, with newlines between the lines. -/
theorem Carried.withHeadings (hgood : Carried good) (h : ∀ a ∈ text, good a) :
    ∀ a ∈ withHeadings text, good a := by
  have hlines : ∀ line ∈ text.splitOn (.inl '\n'), ∀ a ∈ line, good a :=
    fun line hline a ha => h a ((mem_splitOn hline).2 ha)
  unfold Marked.withHeadings
  generalize text.splitOn (.inl '\n') = lines at hlines ⊢
  induction lines with
  | nil => exact fun _ h => absurd h List.not_mem_nil
  | cons line lines ih =>
    obtain ⟨hline, hlines⟩ := List.forall_mem_cons.mp hlines
    cases lines with
    | nil =>
      rw [List.map_singleton, List.intercalate_singleton]
      exact hgood.renderLine hline
    | cons next lines =>
      rw [List.map_cons, List.map_cons, List.intercalate_cons_cons]
      refine List.forall_mem_append.mpr ⟨List.forall_mem_append.mpr ⟨hgood.renderLine hline, ?_⟩, ih hlines⟩
      exact List.forall_mem_singleton.mpr hgood.newline

/-- A link has symbols of the text, and the words that the pass puts in. -/
theorem Carried.replaceLinks (hgood : Carried good) (h : ∀ a ∈ text, good a) :
    ∀ a ∈ replaceLinks text, good a := by
  refine forall_mem_substitute consumes_linkStep ?_ text h
  intro text link rest htext hstep a ha
  rw [linkStep_eq_some hstep] at htext
  have hword : ∀ w : Word, (∀ idx, w ≠ .block idx) → good (.inr w) :=
    fun w hw => hgood.inserted w fun ⟨idx, h⟩ => hw idx h
  simp only [renderLink, List.mem_append, List.mem_cons, List.not_mem_nil, or_false] at ha
  rcases ha with ((rfl | ha) | rfl | ha) | rfl
  · exact hword _ fun idx h => by cases h
  · exact htext a (by simp [ha])
  · exact hword _ fun idx h => by cases h
  · exact htext a (by simp [ha])
  · exact hword _ fun idx h => by cases h

/-- So has what a delimiter encloses. -/
theorem Carried.replaceDelimited (hgood : Carried good) {delimiter : List Char} (hne : delimiter ≠ [])
    (tag : Tag) (h : ∀ a ∈ text, good a) : ∀ a ∈ replaceDelimited delimiter tag text, good a := by
  refine forall_mem_substitute (consumes_delimiterStep hne) ?_ text h
  intro text opening rest htext hstep
  obtain ⟨content, rfl, ⟨-, rfl, -⟩ | ⟨body, hclose, rfl⟩⟩ := delimiterStep_eq_some hstep
  · exact (List.forall_mem_append.mp htext).1
  · have hcontent := (List.forall_mem_append.mp htext).2
    rw [closeAt_eq_some hclose] at hcontent
    exact hgood.tagged tag (List.forall_mem_append.mp (List.forall_mem_append.mp hcontent).1).1

/-- **All the passes** carry it on, from the escaped text. -/
theorem Carried.rewrite (hgood : Carried good) (h : ∀ a ∈ escapeHtml text, good a) :
    ∀ a ∈ rewrite text, good a :=
  hgood.replaceDelimited (List.cons_ne_nil _ _) .code (hgood.replaceDelimited (List.cons_ne_nil _ _) .b
    (hgood.replaceDelimited (List.cons_ne_nil _ _) .b (hgood.replaceLinks (hgood.withHeadings h))))

end

/-! ## Plain characters -/

/-- A plain character, or a word that the renderer has put in. -/
def Safe : Symbol → Prop
  | .inl c => c ∉ ['&', '<', '>', '"', '\'']
  | .inr w => ¬ IsBlock w

/-- Being plain, or a word that was put in, is carried on by all passes. -/
theorem carried_safe : Carried Safe where
  newline := by
    show '\n' ∉ _
    decide
  inserted _ h := h

/-- Behind the escaping every symbol is safe: the five characters are words now. -/
theorem safe_escapeHtml (text : List Char) : ∀ a ∈ escapeHtml (letters text), Safe a := by
  intro a ha
  obtain ⟨b, hb, rfl⟩ := List.mem_map.mp ha
  obtain ⟨c, -, rfl⟩ := List.mem_map.mp hb
  obtain ⟨-, hsymbol, hplain⟩ | ⟨kind, -, hsymbol⟩ := escapeChar_cases c
  · rw [hsymbol]
    exact hplain
  · rw [hsymbol]
    rintro ⟨idx, h⟩
    cases h

/-- A block is safe, as its body is escaped before the tags are put around it. -/
theorem safe_codeBlock (body : List Char) : ∀ a ∈ codeBlock body, Safe a :=
  carried_safe.tagged .pre (carried_safe.tagged .code (safe_escapeHtml _))

/-- Each replacement of a placeholder takes its letters off the text. -/
theorem consumes_letters (idx : Nat) : Consumes (fun text : List Symbol =>
    (dropPattern (letters (Markdown.placeholder idx)) text).map fun rest => ((), rest)) :=
  consumes_dropPattern fun h => Markdown.placeholder_ne_nil idx (List.map_eq_nil_iff.mp h)

/-- Only in a placeholder is there an `@`. -/
theorem at_not_mem {w : Word} (hw : ¬ IsBlock w) : '@' ∉ w.text := by
  cases w with
  | entity kind => cases kind <;> decide
  | openTag tag => cases tag <;> decide
  | closeTag tag => cases tag <;> decide
  | openLink secure => cases secure <;> decide
  | endUrl => decide
  | closeLink => decide
  | block idx => exact absurd ⟨idx, rfl⟩ hw

/-- A placeholder does not begin in another word, nor run into one. -/
theorem untouched_placeholder (idx : Nat) {w : Word} (hw : ¬ IsBlock w) :
    Untouched (Markdown.placeholder idx) w.text := by
  obtain ⟨c, rest, hcons, hc⟩ := w.text_head
  have hno := at_not_mem hw
  have hhead : c ∉ Markdown.placeholder idx := by
    intro hmem
    rcases Markdown.mem_placeholder hmem with rfl | rfl | halphanum
    · exact hno (hcons ▸ List.mem_cons_self)
    · simp at hc
    · simp only [List.mem_cons, List.not_mem_nil, or_false] at hc
      rcases hc with rfl | rfl | rfl | rfl <;> cases halphanum
  refine untouched_of_head (by rw [hcons]; rfl) hhead fun d hd => ⟨'@', _, Word.placeholder_cons idx, ?_⟩
  rintro rfl
  exact hno hd

/-- One block put back. -/
theorem written_replaceAll (idx : Nat) (new : List Symbol) {text : List Symbol}
    (h : Within (¬ IsBlock ·) text) :
    written (replaceAll (letters (Markdown.placeholder idx)) new text) =
      replaceAll (Markdown.placeholder idx) (written new) (written text) := by
  have hdrop : ∀ {text : List Symbol}, Within (¬ IsBlock ·) text →
    dropPattern (Markdown.placeholder idx) (written text) =
      (dropPattern (letters (Markdown.placeholder idx)) text).map written :=
    fun h => dropPattern_spell (h.mono fun w hw => untouched_placeholder idx hw)
  refine (substitute_spell (consumes_dropPattern (Markdown.placeholder_ne_nil idx)) (consumes_letters idx)
    ?_ ?_ ?_
    text h).symm
  · intro w hw start hstart hne rest
    rw [(untouched_placeholder idx hw).inside start hstart hne rest]
    rfl
  · intro c rest hwithin hnone
    have hletter := hdrop hwithin
    rw [Option.map_eq_none_iff.mp hnone] at hletter
    exact Option.map_eq_none_iff.mpr hletter
  · intro text b rest hwithin hsome
    obtain ⟨rest', hrest, heq⟩ := Option.map_eq_some_iff.mp hsome
    cases heq
    have hfound := hdrop hwithin
    rw [hrest] at hfound
    refine ⟨(), ?_, rfl⟩
    show (dropPattern (Markdown.placeholder idx) (written text)).map _ = _
    rw [hfound]
    rfl

/-- A safe text has no place of a block in it. -/
theorem within_of_safe {text : List Symbol} (h : ∀ a ∈ text, Safe a) : Within (¬ IsBlock ·) text :=
  fun w hw => h (.inr w) hw

/-- Putting back a safe block into a safe text leaves a safe text. -/
theorem safe_replaceAll (idx : Nat) {new text : List Symbol} (hnew : ∀ a ∈ new, Safe a)
    (h : ∀ a ∈ text, Safe a) :
    ∀ a ∈ replaceAll (letters (Markdown.placeholder idx)) new text, Safe a :=
  forall_mem_substitute (consumes_letters idx) (fun _ _ _ _ _ => hnew) text h

/-- **The return of the blocks** is the same, and leaves plain characters plain. -/
theorem restoreBlocks_spec (bodies : List (List Char × Nat)) {text : List Symbol} (h : ∀ a ∈ text, Safe a) :
    let restored := bodies.foldl (fun text body =>
      replaceAll (letters (Markdown.placeholder body.2)) (codeBlock body.1) text) text
    (∀ a ∈ restored, Safe a) ∧ written restored = bodies.foldl (fun text body =>
      replaceAll (Markdown.placeholder body.2) (Markdown.codeBlock body.1) text) (written text) := by
  induction bodies generalizing text with
  | nil => exact ⟨h, rfl⟩
  | cons body bodies ih =>
    have hnext := ih (safe_replaceAll body.2 (safe_codeBlock body.1) h)
    rw [written_replaceAll body.2 _ (within_of_safe h), written_codeBlock] at hnext
    exact hnext

/-- Numbering the blocks commutes with rendering them. -/
theorem zipIdx_map {α β : Type} (f : α → β) (l : List α) (n : Nat) :
    (l.map f).zipIdx n = (l.zipIdx n).map fun a => (f a.1, a.2) := by
  rw [List.zipIdx_map]
  rfl

/-- The renderer on symbols puts out safe symbols only, and stands for the renderer of the source. -/
theorem markdownToHtml_spec (text : List Char) :
    (∀ a ∈ markdownToHtml text, Safe a) ∧ written (markdownToHtml text) = Markdown.markdownToHtml text := by
  by_cases hempty : text = []
  · subst hempty
    exact ⟨fun _ h => absurd h List.not_mem_nil, rfl⟩
  have hrewrite := carried_safe.rewrite (safe_escapeHtml (Markdown.captureFencedBlocks text).1)
  have hspec := restoreBlocks_spec (Markdown.fencedBodies text).zipIdx hrewrite
  rw [written_rewrite (within_isBlock_letters _), written_letters] at hspec
  rw [markdownToHtml, if_neg (by simpa using hempty), Markdown.markdownToHtml_rewrite text hempty,
    restoreBlocks, Markdown.restoreBlocks, Markdown.captureFencedBlocks_eq, zipIdx_map, List.foldl_map]
  rw [Markdown.captureFencedBlocks_eq] at hspec
  exact hspec

/-- **What is written out** is what the renderer returns. -/
theorem written_markdownToHtml (text : List Char) :
    written (markdownToHtml text) = Markdown.markdownToHtml text :=
  (markdownToHtml_spec text).2

/-- So no character of the input is left in its output that could be taken for markup. -/
theorem safe_markdownToHtml (text : List Char) : ∀ a ∈ markdownToHtml text, Safe a :=
  (markdownToHtml_spec text).1

/-! ## The words -/

/-- A tag, or a part of one. -/
def IsTag : Word → Prop
  | .entity _ => False
  | .block _ => False
  | _ => True

/-- The character stands in one of the text's words of this kind. -/
def InWord (text : List Symbol) (kind : Word → Prop) (before : List Char) (c : Char) (after : List Char) :
    Prop :=
  ∃ (t : List Symbol) (w : Word) (t' : List Symbol) (start rest : List Char), text = t ++ .inr w :: t' ∧
    kind w ∧
    w.text = start ++ c :: rest ∧ before = written t ++ start ∧ after = rest ++ written t'

/-- A special character of what is written comes from a word that the renderer put in. -/
theorem inWord_of_safe {text : List Symbol} (h : ∀ a ∈ text, Safe a) {before after : List Char} {c : Char}
    (hc : c ∈ ['&', '<', '>', '"', '\'']) (heq : written text = before ++ c :: after) :
    InWord text (¬ IsBlock ·) before c after := by
  rcases spell_eq_append_cons heq with ⟨t, t', rfl, -, -⟩ | ⟨t, w, t', start, rest, rfl, hw, hbefore, hafter⟩
  · exact absurd hc (h (.inl c) (List.mem_append_right _ List.mem_cons_self))
  · exact ⟨t, w, t', start, rest, rfl, h (.inr w) (List.mem_append_right _ List.mem_cons_self), hw,
      hbefore, hafter⟩

/-- An entity has no bracket and no quote. -/
theorem no_quote_in_entity (kind : Entity) : ∀ c ∈ ['<', '>', '"'], c ∉ kind.text := by
  have hall : (kind.text.all fun c => !(['<', '>', '"'] : List Char).contains c) = true := by
    cases kind <;> decide
  intro c hc hmem
  have hno := List.all_eq_true.mp hall c hmem
  simp [hc] at hno

/-- So a bracket or a quote comes from a tag. -/
theorem isTag_of_mem {w : Word} (hw : ¬ IsBlock w) {c : Char} (hc : c ∈ ['<', '>', '"'])
    (hmem : c ∈ w.text) : IsTag w := by
  cases w with
  | entity kind => exact no_quote_in_entity kind c hc hmem
  | block idx => exact hw ⟨idx, rfl⟩
  | openTag | closeTag | openLink | endUrl | closeLink => trivial

/-- A character that is at the head and nowhere behind it determines the split. -/
theorem only_head {c : Char} {more start rest : List Char} (h : c :: more = start ++ c :: rest)
    (hno : c ∉ more) :
    start = [] ∧ rest = more := by
  cases start with
  | nil => exact ⟨rfl, (List.cons.inj h).2.symm⟩
  | cons d start =>
    obtain ⟨-, hmore⟩ := List.cons.inj h
    exact absurd (hmore ▸ List.mem_append_right start List.mem_cons_self) hno

/-- An ampersand begins its entity. -/
theorem entity_of_amp {w : Word} (hw : ¬ IsBlock w) {start rest : List Char}
    (h : w.text = start ++ '&' :: rest) :
    ∃ kind : Entity, w = .entity kind ∧ start = [] := by
  have hmem : '&' ∈ w.text := h ▸ List.mem_append_right start List.mem_cons_self
  cases w with
  | entity kind =>
    refine ⟨kind, rfl, ?_⟩
    cases kind <;> exact (only_head h (by decide)).1
  | block idx => exact absurd ⟨idx, rfl⟩ hw
  | openTag tag => cases tag <;> exact absurd hmem (by decide)
  | closeTag tag => cases tag <;> exact absurd hmem (by decide)
  | openLink secure => cases secure <;> exact absurd hmem (by decide)
  | endUrl => exact absurd hmem (by decide)
  | closeLink => exact absurd hmem (by decide)

/-- What is opened like a link is one, and goes on with the scheme of its URL. -/
theorem openLink_of_href {w : Word} (hw : IsTag w) {start rest after more : List Char}
    (h : w.text = start ++ '<' :: rest) (hrest : "a href=\"".toList ++ after = rest ++ more) :
    ∃ secure, schemeText secure <+: after := by
  have hhead : ∀ {d : Char} {tail : List Char}, rest = d :: tail → d = 'a' := by
    rintro d tail rfl
    exact (List.cons.inj hrest).1.symm
  -- of the words that have a `<`, only one goes on with an `a`
  cases w with
  | entity kind => cases hw
  | block idx => cases hw
  | openTag tag =>
    cases tag <;>
    · obtain ⟨-, hrest⟩ := only_head h (by decide)
      exact absurd (hhead hrest) (by decide)
  | closeTag tag =>
    cases tag <;>
    · obtain ⟨-, hrest⟩ := only_head h (by decide)
      exact absurd (hhead hrest) (by decide)
  | openLink secure =>
    refine ⟨secure, more, ?_⟩
    have hno : '<' ∉ "a href=\"".toList ++ schemeText secure := by cases secure <;> decide
    have hopen : "<a href=\"".toList = '<' :: "a href=\"".toList := by decide
    have htext : (Word.openLink secure).text = '<' :: ("a href=\"".toList ++ schemeText secure) := by
      show "<a href=\"".toList ++ schemeText secure = _
      rw [hopen, List.cons_append]
    rw [htext] at h
    rw [(only_head h hno).2, List.append_assoc] at hrest
    exact (List.append_cancel_left hrest).symm
  | endUrl =>
    exact absurd (h ▸ List.mem_append_right start List.mem_cons_self : '<' ∈ Word.endUrl.text) (by decide)
  | closeLink =>
    obtain ⟨-, hrest⟩ := only_head h (by decide)
    exact absurd (hhead hrest) (by decide)

end Marked

/-- **No markup of the text's own.**  The renderer returns for every text; what it returns is the words it
    has put in and characters of the text; a `<`, a `>` and a `"` stand in its tags, an `&` begins an
    entity, and a link goes to `http://` or `https://`. -/
theorem markup_inserted (text : List Char) :
    MarkdownOffsets.markdownToHtml text = some (Markdown.markdownToHtml text) ∧
      Marked.written (Marked.markdownToHtml text) = Markdown.markdownToHtml text ∧
      (∀ before c after, Markdown.markdownToHtml text = before ++ c :: after → c ∈ ['<', '>', '"'] →
        Marked.InWord (Marked.markdownToHtml text) Marked.IsTag before c after) ∧
      (∀ before after, Markdown.markdownToHtml text = before ++ '&' :: after →
        ∃ kind : Entity, kind.text <+: '&' :: after ∧
          Marked.InWord (Marked.markdownToHtml text) (· = .entity kind) before '&' after) ∧
      ∀ before after, Markdown.markdownToHtml text = before ++ "<a href=\"".toList ++ after →
        Markdown.http <+: after ∨ Markdown.https <+: after := by
  open Marked in
  have hsafe := safe_markdownToHtml text
  have hwritten := written_markdownToHtml text
  refine ⟨MarkdownOffsets.markdownToHtml_total text, hwritten, ?_, ?_, ?_⟩
  · intro before c after heq hc
    have hspecial : c ∈ ['&', '<', '>', '"', '\''] := by
      simp only [List.mem_cons, List.not_mem_nil, or_false] at hc ⊢
      rcases hc with rfl | rfl | rfl <;> simp
    obtain ⟨t, w, t', start, rest, ht, hw, htext, hbefore, hafter⟩ :=
      inWord_of_safe hsafe hspecial (hwritten.trans heq)
    have hmem : c ∈ w.text := htext ▸ List.mem_append_right start List.mem_cons_self
    exact ⟨t, w, t', start, rest, ht, isTag_of_mem hw hc hmem, htext, hbefore, hafter⟩
  · intro before after heq
    obtain ⟨t, w, t', start, rest, ht, hw, htext, hbefore, hafter⟩ :=
      inWord_of_safe hsafe List.mem_cons_self (hwritten.trans heq)
    -- an ampersand is in no tag, so the word is an entity
    obtain ⟨kind, rfl, rfl⟩ := entity_of_amp hw htext
    have hkind : kind.text = '&' :: rest := htext
    refine ⟨kind, ⟨written t', ?_⟩, t, _, t', [], rest, ht, rfl, htext, hbefore, hafter⟩
    rw [hkind, hafter]
    rfl
  · intro before after heq
    have hopen : "<a href=\"".toList = '<' :: "a href=\"".toList := by decide
    rw [hopen, List.append_assoc, List.cons_append] at heq
    obtain ⟨t, w, t', start, rest, -, hw, htext, -, hafter⟩ :=
      inWord_of_safe hsafe (by simp) (hwritten.trans heq)
    have hmem : '<' ∈ w.text := htext ▸ List.mem_append_right start List.mem_cons_self
    obtain ⟨secure, hscheme⟩ := openLink_of_href (isTag_of_mem hw (by simp) hmem) htext hafter
    cases secure with
    | false => exact Or.inl hscheme
    | true => exact Or.inr hscheme

end Tellm
