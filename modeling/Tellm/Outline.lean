/-
  OUTLINE: what the passes do to the places of the blocks, and to what spells one.

  A placeholder is plain text.  The passes cut and move texts at brackets, delimiters, white space and
  hashes, none of which a placeholder has; so they neither make nor destroy one, and a text that spells a
  placeholder behind the passes spells it before them.

  1. **`Spells`**: a placeholder stands in the text that is not all of its block's place.  What the return
     of the blocks sees of the places is `stub`.
  2. **`spells_rewrite`**: the passes keep it.
  3. **`blocksOf`**: the places in their order.  Links alone change it (`blocksOf_replaceLinks`), since
     they move the URL before the label.

  The text is looked at as the return of the blocks will find it: block `i` is put back in a text where
  earlier blocks are back and later placeholders still stand.  An occurrence of the placeholder that is
  not the block's own place consists of letters of the text, or shares the marks at the ends with the
  place of another block; `stub` keeps exactly the marks that can be shared.

  The passes are taken one at a time, each by the rule for a scanner that cuts at places no occurrence
  runs over (`Tellm.Lib.Occurrence`).  Headings cut at line ends, white space and hashes; links at
  brackets and at the scheme; delimiters at themselves.

  Order is the easier half: a pass that only copies and encloses keeps it, and of the passes only a link
  writes something before what stood before it.
-/
import Tellm.Injection
import Tellm.Lib.Occurrence

namespace Tellm

open Text Substitutions Spellings Occurrences

namespace Marked

open Markdown (placeholder)

/-! ## Placeholders -/

/-- What is seen of a symbol when block `i` is put back.  An earlier block is in its place, and its
    placeholder is gone.  A later one has its marks on both sides; of the block's own those behind do not
    count, as it is found first. -/
def stub (i : Nat) : Symbol → List Symbol
  | .inr (.block j) =>
    if j < i then [.inr (.block j)]
    else if j = i then letters ['@', '@'] ++ [.inr (.block j)]
    else letters ['@', '@'] ++ .inr (.block j) :: letters ['@', '@']
  | a => [a]

/-- The text spells the placeholder of block `i`, by itself or with the marks of a place. -/
def Spells (i : Nat) (text : List Symbol) : Prop := letters (placeholder i) <:+: text.flatMap (stub i)

instance decidableSpells (i : Nat) (text : List Symbol) : Decidable (Spells i text) := by
  unfold Spells
  infer_instance

section

variable {i : Nat} {text : List Symbol}

/-- A placeholder has letters. -/
theorem letters_ne_nil : letters (placeholder i) ≠ [] :=
  fun h => Markdown.placeholder_ne_nil i (List.map_eq_nil_iff.mp h)

/-- The empty text spells no placeholder. -/
theorem not_spells_nil : ¬ Spells i [] := fun h => letters_ne_nil (List.infix_nil.mp h)

/-- The letters of a text are its characters. -/
theorem mem_letters {c : Char} {text : List Char} : .inl c ∈ letters text ↔ c ∈ text :=
  ⟨fun h => by
    obtain ⟨d, hd, heq⟩ := List.mem_map.mp h
    cases heq
    exact hd, fun h => List.mem_map_of_mem h⟩

/-- There is no word among letters. -/
theorem word_not_mem {w : Word} {text : List Char} : .inr w ∉ letters text := by
  intro h
  obtain ⟨c, -, heq⟩ := List.mem_map.mp h
  cases heq

/-- A symbol that is seen as it is, and is not in a placeholder. -/
theorem cuts_symbol {a : Symbol} (hstub : stub i a = [a]) (ha : a ∉ letters (placeholder i)) :
    Cuts (Spells i) [a] := by
  intro text rest
  have hcut := @infix_append_cons_iff _ _ _ (text.flatMap (stub i)) (rest.flatMap (stub i)) a ha
  rw [Spells, List.flatMap_append, List.flatMap_append, List.flatMap_singleton, hstub, List.append_assoc,
    List.singleton_append]
  exact hcut

/-- Neither a digit, nor in the text of a placeholder. -/
theorem not_mem_placeholder {chars : List Char}
    (h : (chars.all fun c => !"@@TG_CODEBLOCK_".toList.contains c && !c.isDigit) = true) (i : Nat) :
    ∀ c ∈ chars, c ∉ placeholder i := by
  intro c hc hmem
  have hno := List.all_eq_true.mp h c hc
  have hmarks : "@@".toList ⊆ "@@TG_CODEBLOCK_".toList := by decide
  rw [Bool.and_eq_true, Bool.not_eq_true', Bool.not_eq_true', ← Bool.not_eq_true,
    List.contains_iff_mem] at hno
  rw [Markdown.placeholder_eq, List.mem_append, List.mem_append] at hmem
  rcases hmem with (hmem | hmem) | hmem
  · exact hno.1 hmem
  · have hdigit := Nat.isDigit_of_mem_toDigits (by decide) (by decide) hmem
    rw [hno.2] at hdigit
    cases hdigit
  · exact hno.1 (hmarks hmem)

/-- A letter that is in no placeholder cuts the text: the placeholder is spelled on one side of it. -/
theorem cuts_letter {c : Char} (hc : c ∉ placeholder i) : Cuts (Spells i) [.inl c] :=
  cuts_symbol rfl fun h => hc (mem_letters.mp h)

/-- A word that is no block's place is seen as itself. -/
theorem stub_word {w : Word} (hw : ¬ IsBlock w) : stub i (.inr w) = [.inr w] := by
  cases w with
  | block j => exact absurd ⟨j, rfl⟩ hw
  | _ => rfl

/-- So it cuts the text as well. -/
theorem cuts_word {w : Word} (hw : ¬ IsBlock w) : Cuts (Spells i) [.inr w] :=
  cuts_symbol (stub_word hw) word_not_mem

/-- The characters that the passes look for cut the text. -/
theorem cuts_stop {c : Char} (h : c ∈ stops) : Cuts (Spells i) [.inl c] :=
  cuts_letter ((Word.block i).stop_not_mem h)

/-- White space cuts it. -/
theorem cuts_space {a : Symbol} (h : isWhitespace a = true) : Cuts (Spells i) [a] := by
  rcases a with c | w
  · refine cuts_letter fun hc => ?_
    have hspace := compact_block i c hc
    rw [show Text.isWhitespace c = true from h] at hspace
    cases hspace
  · cases h

/-- A hash cuts it. -/
theorem cuts_hash : Cuts (Spells i) [.inl '#'] := by
  refine cuts_letter fun hc => ?_
  rcases Markdown.mem_placeholder hc with h | h | h <;> cases h

/-- A placeholder ends with a mark. -/
theorem placeholder_getLast? (i : Nat) : (placeholder i).getLast? = some '@' := by
  have hmarks : "@@".toList = ['@', '@'] := by decide
  rw [Markdown.placeholder_eq, hmarks, List.getLast?_append]
  rfl

/-- The underscores of a placeholder stand alone. -/
theorem cuts_underscores : Cuts (Spells i) (letters ['_', '_']) := by
  intro text rest
  have hchain : (letters (placeholder i)).IsChain fun a b => ¬ (a = (.inl '_' : Symbol) ∧ b = .inl '_') := by
    rw [letters, List.isChain_map]
    refine (Markdown.placeholder_isChain i).imp fun a b h => ?_
    rintro ⟨ha, hb⟩
    exact h ⟨Sum.inl.inj ha, Sum.inl.inj hb⟩
  have hhead : ∃ a behind, letters (placeholder i) = a :: behind ∧ a ≠ .inl '_' := by
    rw [Word.placeholder_cons]
    exact ⟨_, _, rfl, by decide⟩
  have hlast : (letters (placeholder i)).getLast? ≠ some (.inl '_') := by
    rw [letters, List.getLast?_map, placeholder_getLast?]
    decide
  have hcut := @infix_append_doubled _ _ (text.flatMap (stub i)) (rest.flatMap (stub i)) _ hchain hhead hlast
  have hstub : (letters ['_', '_']).flatMap (stub i) = [.inl '_', .inl '_'] := rfl
  rw [Spells, List.flatMap_append, List.flatMap_append, hstub, List.append_assoc]
  exact hcut

/-! ## The passes -/

/-- A letter that is not escaped comes from itself alone. -/
theorem escapeSymbol_eq_letter {c : Char} (hc : c ∉ ['&', '<', '>', '"', '\'']) (a : Symbol) :
    escapeSymbol a = .inl c ↔ a = .inl c := by
  constructor
  · intro h
    rcases a with d | w
    · obtain ⟨-, hsymbol, -⟩ | ⟨kind, -, hsymbol⟩ := escapeChar_cases d
      · rw [← hsymbol, h]
      · rw [hsymbol] at h
        cases h
    · cases h
  · rintro rfl
    obtain ⟨-, hsymbol, -⟩ | ⟨kind, hchar, -⟩ := escapeChar_cases c
    · exact hsymbol
    · have hplain : Markdown.escapeChar c = [c] := by
        simp only [List.mem_cons, List.not_mem_nil, or_false, not_or] at hc
        simp [Markdown.escapeChar, hc]
      have hlength : [c].length = kind.text.length := congrArg List.length (hplain.symm.trans hchar)
      rw [List.length_singleton] at hlength
      cases kind <;> exact absurd hlength (by decide)

/-- No letter of a placeholder is escaped. -/
theorem mem_placeholder_plain {c : Char} (h : c ∈ placeholder i) : c ∉ ['&', '<', '>', '"', '\''] := by
  intro hc
  simp only [List.mem_cons, List.not_mem_nil, or_false] at hc
  rcases Markdown.mem_placeholder h with rfl | rfl | halphanum
  · simp at hc
  · simp at hc
  · rcases hc with rfl | rfl | rfl | rfl | rfl <;> cases halphanum

/-- What is seen of a symbol is escaped as the symbol is: the places and their marks are not. -/
theorem stub_escapeSymbol (a : Symbol) : stub i (escapeSymbol a) = (stub i a).map escapeSymbol := by
  rcases a with c | w
  · obtain ⟨-, hsymbol, -⟩ | ⟨kind, -, hsymbol⟩ := escapeChar_cases c
    · rw [hsymbol, show stub i (.inl c) = [.inl c] from rfl, List.map_singleton, hsymbol]
    · rw [hsymbol, show stub i (.inl c) = [.inl c] from rfl, List.map_singleton, hsymbol]
      rfl
  · by_cases hw : IsBlock w
    · obtain ⟨j, rfl⟩ := hw
      show stub i (.inr (.block j)) = _
      unfold stub
      dsimp only
      split
      · rfl
      · split <;> rfl
    · show stub i (.inr w) = _
      rw [stub_word hw]
      rfl

/-- **Escaping** makes words of letters that no placeholder has. -/
theorem spells_escapeHtml : Spells i (escapeHtml text) ↔ Spells i text := by
  have hstub : (escapeHtml text).flatMap (stub i) = (text.flatMap (stub i)).map escapeSymbol := by
    rw [escapeHtml, List.flatMap_map, List.map_flatMap]
    exact congrArg (fun f => List.flatMap f text) (funext stub_escapeSymbol)
  rw [Spells, hstub]
  refine infix_map_iff fun a ha b => ?_
  obtain ⟨c, hc, rfl⟩ := List.mem_map.mp ha
  exact escapeSymbol_eq_letter (mem_placeholder_plain hc) b

/-- The indent that is skipped is white space in front of the rest. -/
theorem skipIndent_eq_append {n : Nat} {line indented : List Symbol} (h : skipIndent n line = some indented) :
    ∃ indent, line = indent ++ indented ∧ ∀ a ∈ indent, isWhitespace a = true := by
  induction n generalizing line with
  | zero =>
    cases h
    exact ⟨[], rfl, fun _ h => absurd h List.not_mem_nil⟩
  | succ n ih =>
    cases line with
    | nil => cases h
    | cons a line =>
      rw [skipIndent] at h
      split at h
      · rename_i ha
        obtain ⟨indent, rfl, hindent⟩ := ih h
        exact ⟨a :: indent, rfl, List.forall_mem_cons.mpr ⟨ha, hindent⟩⟩
      · cases h
        exact ⟨[], rfl, fun _ h => absurd h List.not_mem_nil⟩

/-- So is what separates the hashes from the heading. -/
theorem headingText_eq_append {text heading : List Symbol} (h : headingText text = some heading) :
    ∃ spaces, text = spaces ++ heading ∧ ∀ a ∈ spaces, isWhitespace a = true := by
  unfold headingText at h
  split at h
  · cases h
  · rename_i lastWhitespace hlast
    dsimp only at h
    split at h
    · rename_i hempty
      cases h
      -- nothing but white space, of which the last is kept
      have hall : text.takeWhile isWhitespace = text := by
        have happend := List.takeWhile_append_dropWhile (p := isWhitespace) (l := text)
        rwa [List.isEmpty_iff.mp hempty, List.append_nil] at happend
      obtain ⟨spaces, hspaces⟩ := List.getLast?_eq_some_iff.mp hlast
      rw [hall] at hspaces
      refine ⟨spaces, hspaces, fun a ha => ?_⟩
      have hmem : a ∈ text.takeWhile isWhitespace := by
        rw [hall, hspaces]
        exact List.mem_append_left _ ha
      exact List.mem_takeWhile_imp hmem
    · cases h
      exact ⟨_, List.takeWhile_append_dropWhile.symm, fun a ha => List.mem_takeWhile_imp ha⟩

/-- Both ends of a heading's line are dropped: white space and hashes. -/
theorem markdownHeading_eq_append {line heading : List Symbol} (h : markdownHeading line = some heading) :
    ∃ skipped, line = skipped ++ heading ∧ ∀ a ∈ skipped, isWhitespace a = true ∨ a = .inl '#' := by
  unfold markdownHeading at h
  split at h
  · cases h
  · rename_i indented hindent
    dsimp only at h
    split at h
    · cases h
    · obtain ⟨indent, rfl, hindented⟩ := skipIndent_eq_append hindent
      obtain ⟨spaces, hspaces, hall⟩ := headingText_eq_append h
      have hhashes : (indented.take 6).takeWhile (onLetter (· == '#')) ++ indented.drop
          ((indented.take 6).takeWhile (onLetter (· == '#'))).length = indented :=
        List.prefix_iff_eq_append.mp ((List.takeWhile_prefix _).trans (List.take_prefix 6 indented))
      refine ⟨indent ++ (indented.take 6).takeWhile (onLetter (· == '#')) ++ spaces, ?_, ?_⟩
      · conv_lhs => rw [← hhashes, hspaces]
        simp
      · intro a ha
        rcases List.mem_append.mp ha with ha | ha
        · rcases List.mem_append.mp ha with ha | ha
          · exact Or.inl (hindented a ha)
          · have hhash := List.mem_takeWhile_imp ha
            rcases a with c | w
            · exact Or.inr (congrArg Sum.inl (eq_of_beq hhash))
            · cases hhash
        · exact Or.inl (hall a ha)

/-- A line is copied, or it loses white space and hashes at its ends and gets tags around the rest. -/
theorem renderLine_cases (line : List Symbol) : renderLine line = line ∨
    ∃ start inner behind, line = start ++ inner ++ behind ∧ renderLine line = tagged .b inner ∧
      (∀ a ∈ start, isWhitespace a = true ∨ a = .inl '#') ∧ ∀ a ∈ behind, isWhitespace a = true := by
  unfold renderLine
  cases hheading : markdownHeading line with
  | none => exact Or.inl rfl
  | some heading =>
    obtain ⟨skipped, rfl, hskipped⟩ := markdownHeading_eq_append hheading
    have hstart : heading = heading.takeWhile isWhitespace ++ heading.dropWhile isWhitespace :=
      List.takeWhile_append_dropWhile.symm
    have hbehind : heading.dropWhile isWhitespace =
        trim heading ++ (heading.dropWhile isWhitespace).rtakeWhile isWhitespace :=
      (List.rdropWhile_append_rtakeWhile).symm
    refine Or.inr ⟨skipped ++ heading.takeWhile isWhitespace, trim heading,
      (heading.dropWhile isWhitespace).rtakeWhile isWhitespace, ?_, rfl, ?_, ?_⟩
    · conv_lhs => rw [hstart, hbehind]
      simp
    · intro a ha
      rcases List.mem_append.mp ha with ha | ha
      · exact hskipped a ha
      · exact Or.inl (List.mem_takeWhile_imp ha)
    · exact fun a ha => List.mem_rtakeWhile_imp ha

/-- A tag around a text does not matter to what it spells. -/
theorem spells_tagged (tag : Tag) : Spells i (tagged tag text) ↔ Spells i text := by
  have hopen : Cuts (Spells i) [.inr (.openTag tag)] := cuts_word fun ⟨_, h⟩ => by cases h
  have hclose : Cuts (Spells i) [.inr (.closeTag tag)] := cuts_word fun ⟨_, h⟩ => by cases h
  have hbetween := hopen.between hclose [] text []
  rw [or_iff_right not_spells_nil, or_iff_left not_spells_nil, List.nil_append, List.append_nil] at hbetween
  exact hbetween

/-- Nor does the rendering of a line. -/
theorem spells_renderLine (line : List Symbol) : Spells i (renderLine line) ↔ Spells i line := by
  rcases renderLine_cases line with h | ⟨start, inner, behind, rfl, h, hstart, hbehind⟩
  · rw [h]
  · have hcuts : ∀ a ∈ start, Cuts (Spells i) [a] := by
      intro a ha
      rcases hstart a ha with h | rfl
      · exact cuts_space h
      · exact cuts_hash
    rw [h, spells_tagged, (cuts_skip not_spells_nil (fun a ha => cuts_space (hbehind a ha)) _).2,
      (cuts_skip not_spells_nil hcuts _).1]

/-- A text of several lines spells a placeholder if one of them does. -/
theorem spells_intercalate (lines : List (List Symbol)) :
    Spells i ([.inl '\n'].intercalate lines) ↔ ∃ line ∈ lines, Spells i line := by
  induction lines with
  | nil => simp [not_spells_nil, List.intercalate]
  | cons line lines ih =>
    cases lines with
    | nil => simp
    | cons next lines =>
      rw [List.intercalate_cons_cons, cuts_stop newline_stops, ih]
      simp

/-- **Headings** drop what no placeholder has, at the ends of lines. -/
theorem spells_withHeadings : Spells i (withHeadings text) ↔ Spells i text := by
  have hlines : [.inl '\n'].intercalate (text.splitOn (.inl '\n')) = text := List.intercalate_splitOn _
  conv_rhs => rw [← hlines]
  rw [withHeadings, spells_intercalate, spells_intercalate]
  simp only [List.mem_map, exists_exists_and_eq_and, spells_renderLine]

/-- Letters in a row of which none is in a placeholder cut the text. -/
theorem cuts_letters {chars : List Char} (hne : chars ≠ []) (h : ∀ c ∈ chars, c ∉ placeholder i) :
    Cuts (Spells i) (letters chars) := by
  induction chars with
  | nil => exact absurd rfl hne
  | cons c chars ih =>
    obtain ⟨hc, hchars⟩ := List.forall_mem_cons.mp h
    cases chars with
    | nil => exact cuts_letter hc
    | cons d chars => exact (cuts_letter hc).append not_spells_nil (ih (List.cons_ne_nil d chars) hchars)

/-- What stands between a label and the rest of its URL cuts the text: the bracket, the parenthesis and the
    scheme. -/
theorem cuts_scheme (secure : Bool) :
    Cuts (Spells i) (.inl ']' :: .inl '(' :: letters (schemeText secure)) := by
  have hscheme : ∀ c ∈ schemeText secure, c ∉ placeholder i := by
    cases secure <;> exact not_mem_placeholder (by decide) i
  refine @cuts_letters i (']' :: '(' :: schemeText secure) (List.cons_ne_nil _ _) ?_
  refine List.forall_mem_cons.mpr ⟨?_, List.forall_mem_cons.mpr ⟨?_, hscheme⟩⟩
  · exact (Word.block i).stop_not_mem (by decide)
  · exact (Word.block i).stop_not_mem (by decide)

/-- **Links** are cut at their brackets, and their parts swapped. -/
theorem spells_replaceLinks : Spells i (replaceLinks text) ↔ Spells i text := by
  refine occurs_substitute consumes_linkStep ?_ text
  intro text link rest hstep
  have htaken := (cuts_stop (i := i) (c := '[') (by decide)).between_two (cuts_scheme link.secure)
    (cuts_stop (c := ')') (by decide))
  have hrender := (cuts_word (i := i) (w := .openLink link.secure) fun ⟨_, h⟩ => by cases h).between_two
    (cuts_word (w := .endUrl) fun ⟨_, h⟩ => by cases h) (cuts_word (w := .closeLink) fun ⟨_, h⟩ => by cases h)
  refine ⟨_, Spells i link.label ∨
    Spells i link.url, ?_, fun before => htaken before link.label link.url rest, fun before after => ?_⟩
  · rw [linkStep_eq_some hstep]
    simp
  · rw [or_comm (a := Spells i link.label)]
    have happend := hrender before link.url link.label after
    simpa [renderLink] using happend

/-- **Delimiters** cut, and become tags. -/
theorem spells_replaceDelimited {delimiter : List Char} (hne : delimiter ≠ [])
    (hcuts : Cuts (Spells i) (letters delimiter)) (tag : Tag) :
    Spells i (replaceDelimited delimiter tag text) ↔ Spells i text := by
  refine occurs_substitute (consumes_delimiterStep hne) ?_ text
  intro text opening rest hstep
  obtain ⟨content, rfl, ⟨-, rfl, rfl⟩ | ⟨body, hclose, rfl⟩⟩ := delimiterStep_eq_some hstep
  · refine ⟨letters delimiter, False, rfl, fun before => ?_, fun before after => ?_⟩
    · rw [false_or, hcuts]
    · rw [false_or]
      exact hcuts before after
  · rw [closeAt_eq_some hclose]
    refine ⟨letters delimiter ++ body ++ letters delimiter, Spells i body, by simp, fun before => ?_,
      fun before after => ?_⟩
    · exact hcuts.between hcuts before body rest
    · have hopen : Cuts (Spells i) [.inr (.openTag tag)] := cuts_word fun ⟨_, h⟩ => by cases h
      have hend : Cuts (Spells i) [.inr (.closeTag tag)] := cuts_word fun ⟨_, h⟩ => by cases h
      exact hopen.between hend before body after

/-- **All the passes** keep it. -/
theorem spells_rewrite : Spells i (rewrite text) ↔ Spells i text := by
  have hasterisks : Cuts (Spells i) (letters ['*', '*']) :=
    (cuts_stop (by decide)).append not_spells_nil (cuts_stop (by decide))
  unfold rewrite
  dsimp only
  rw [spells_replaceDelimited (List.cons_ne_nil _ _) (cuts_stop (by decide)),
    spells_replaceDelimited (List.cons_ne_nil _ _) cuts_underscores,
    spells_replaceDelimited (List.cons_ne_nil _ _) hasterisks, spells_replaceLinks, spells_withHeadings,
    spells_escapeHtml]

end

/-! ## The order of the blocks -/

/-- The blocks whose places the text has, in their order. -/
def blocksOf (text : List Symbol) : List Nat :=
  text.filterMap fun
    | .inr (.block idx) => some idx
    | _ => none

section

variable {text text' : List Symbol}

@[simp] theorem blocksOf_nil : blocksOf [] = [] := rfl

@[simp] theorem blocksOf_append : blocksOf (text ++ text') = blocksOf text ++ blocksOf text' :=
  List.filterMap_append

@[simp] theorem blocksOf_letter (c : Char) : blocksOf (.inl c :: text) = blocksOf text := rfl

@[simp] theorem blocksOf_block (idx : Nat) :
    blocksOf (.inr (.block idx) :: text) = idx :: blocksOf text := rfl

/-- Words that are no block's place do not count. -/
theorem blocksOf_word {w : Word} (hw : ¬ IsBlock w) : blocksOf (.inr w :: text) = blocksOf text := by
  cases w with
  | block idx => exact absurd ⟨idx, rfl⟩ hw
  | _ => rfl

/-- The blocks of a text are those that have a place in it. -/
theorem mem_blocksOf {idx : Nat} : idx ∈ blocksOf text ↔ .inr (.block idx) ∈ text := by
  rw [blocksOf, List.mem_filterMap]
  constructor
  · rintro ⟨a, ha, hidx⟩
    split at hidx
    · cases hidx
      exact ha
    · cases hidx
  · exact fun h => ⟨_, h, rfl⟩

/-- Without places there are no blocks. -/
theorem blocksOf_eq_nil (h : ∀ idx, .inr (.block idx) ∉ text) : blocksOf text = [] :=
  List.eq_nil_iff_forall_not_mem.mpr fun idx hidx => h idx (mem_blocksOf.mp hidx)

@[simp] theorem blocksOf_letters (chars : List Char) : blocksOf (letters chars) = [] :=
  blocksOf_eq_nil fun _ => word_not_mem

/-- There are none in what a heading loses. -/
theorem blocksOf_spaces (h : ∀ a ∈ text, isWhitespace a = true ∨ a = .inl '#') : blocksOf text = [] := by
  refine blocksOf_eq_nil fun idx hidx => ?_
  rcases h _ hidx with h | h <;> cases h

/-- Escaping keeps the places and their order. -/
theorem blocksOf_escapeHtml : blocksOf (escapeHtml text) = blocksOf text := by
  induction text with
  | nil => rfl
  | cons a text ih =>
    rcases a with c | w
    · rw [blocksOf_letter, ← ih]
      show blocksOf (escapeSymbol (.inl c) :: escapeHtml text) = _
      obtain ⟨-, hsymbol, -⟩ | ⟨kind, -, hsymbol⟩ := escapeChar_cases c <;> rw [hsymbol] <;> rfl
    · show blocksOf ([.inr w] ++ escapeHtml text) = blocksOf ([.inr w] ++ text)
      rw [blocksOf_append, blocksOf_append, ih]

/-- So do tags. -/
theorem blocksOf_tagged (tag : Tag) : blocksOf (tagged tag text) = blocksOf text := by
  rw [tagged, List.cons_append, blocksOf_word (fun ⟨_, h⟩ => by cases h), blocksOf_append,
    blocksOf_word (fun ⟨_, h⟩ => by cases h), blocksOf_nil, List.append_nil]

/-- So does the rendering of a line. -/
theorem blocksOf_renderLine (line : List Symbol) : blocksOf (renderLine line) = blocksOf line := by
  rcases renderLine_cases line with h | ⟨start, inner, behind, rfl, h, hstart, hbehind⟩
  · rw [h]
  · rw [h, blocksOf_tagged, blocksOf_append, blocksOf_append, blocksOf_spaces hstart,
      blocksOf_spaces (fun a ha => Or.inl (hbehind a ha)), List.nil_append, List.append_nil]

/-- The blocks of several lines are those of one line after the other. -/
theorem blocksOf_intercalate (lines : List (List Symbol)) :
    blocksOf ([.inl '\n'].intercalate lines) = lines.flatMap blocksOf := by
  induction lines with
  | nil => rfl
  | cons line lines ih =>
    cases lines with
    | nil => simp
    | cons next lines =>
      rw [List.intercalate_cons_cons, blocksOf_append, blocksOf_append, ih]
      simp

/-- So the headings keep the places and their order. -/
theorem blocksOf_withHeadings : blocksOf (withHeadings text) = blocksOf text := by
  have hlines : [.inl '\n'].intercalate (text.splitOn (.inl '\n')) = text := List.intercalate_splitOn _
  conv_rhs => rw [← hlines]
  rw [withHeadings, blocksOf_intercalate, blocksOf_intercalate, List.flatMap_map]
  exact congrArg (fun f => List.flatMap f (text.splitOn (.inl '\n'))) (funext blocksOf_renderLine)

/-- So does each stage of delimiters: it puts tags around what is there. -/
theorem blocksOf_replaceDelimited {delimiter : List Char} (hne : delimiter ≠ []) (tag : Tag) :
    blocksOf (replaceDelimited delimiter tag text) = blocksOf text := by
  have hc := consumes_delimiterStep hne
  rw [replaceDelimited]
  induction text using scan_induction hc with
  | nil => rw [substitute_nil hc]
  | copy a text h ih =>
    rw [substitute_of_none h, ← List.singleton_append, ← List.singleton_append (l := text), blocksOf_append,
      blocksOf_append, ih]
  | hit text opening rest h ih =>
    rw [substitute_of_some hc h, blocksOf_append, ih]
    obtain ⟨content, rfl, ⟨-, rfl, rfl⟩ | ⟨body, hclose, rfl⟩⟩ := delimiterStep_eq_some h
    · rw [blocksOf_append]
      rfl
    · rw [closeAt_eq_some hclose, renderOpening, blocksOf_tagged]
      simp

/-- The blocks of a link, as the text has them and as it is rendered. -/
theorem blocksOf_link {text after : List Symbol} {link : Link} (h : linkStep text = some (link, after)) :
    blocksOf text = blocksOf link.label ++ blocksOf link.url ++ blocksOf after ∧
      blocksOf (renderLink link) = blocksOf link.url ++ blocksOf link.label := by
  constructor
  · rw [linkStep_eq_some h]
    simp
  · have hword : ∀ {w : Word} {text : List Symbol}, (∀ idx, w ≠ .block idx) →
        blocksOf (.inr w :: text) = blocksOf text :=
      fun hw => blocksOf_word fun ⟨idx, h⟩ => hw idx h
    rw [renderLink, blocksOf_append, List.cons_append, hword (fun idx h => by cases h), blocksOf_append,
      hword (fun idx h => by cases h), hword (fun idx h => by cases h), blocksOf_nil, List.append_nil]

/-- Blocks on one side only: the parts of the link can be swapped. -/
def Link.OneSided (link : Link) : Prop := blocksOf link.url = [] ∨ blocksOf link.label = []

/-- **Links** keep the order of the blocks exactly where each has blocks on one side only. -/
theorem blocksOf_replaceLinks (hnodup : (blocksOf text).Nodup) :
    blocksOf (replaceLinks text) = blocksOf text ↔ ∀ link ∈ found linkStep text, link.OneSided := by
  have hc := consumes_linkStep
  induction text using scan_induction hc with
  | nil =>
    rw [replaceLinks, substitute_nil hc, found_nil hc]
    simp
  | copy a text h ih =>
    have hblocks : blocksOf (a :: text) = blocksOf [a] ++ blocksOf text := @blocksOf_append [a] text
    rw [hblocks] at hnodup
    have hcopied : blocksOf (replaceLinks (a :: text)) = blocksOf [a] ++ blocksOf (replaceLinks text) := by
      rw [replaceLinks, substitute_of_none h]
      exact @blocksOf_append [a] _
    rw [hcopied, hblocks, List.append_cancel_left_eq, found_of_none h]
    exact ih hnodup.of_append_right
  | hit text link after h ih =>
    obtain ⟨htext, hrender⟩ := blocksOf_link h
    have hreplaced : blocksOf (replaceLinks text) =
        blocksOf link.url ++ blocksOf link.label ++ blocksOf (replaceLinks after) := by
      rw [replaceLinks, substitute_of_some hc h, blocksOf_append, hrender, ← replaceLinks]
    rw [htext] at hnodup
    have hafter := ih hnodup.of_append_right
    rw [found_of_some hc h, List.forall_mem_cons, hreplaced, htext, Link.OneSided]
    have hswap : blocksOf link.url ++ blocksOf link.label = blocksOf link.label ++ blocksOf link.url ↔
        blocksOf link.url = [] ∨ blocksOf link.label = [] := by
      constructor
      · intro heq
        -- two first elements that are the same stand on both sides
        cases hurl : blocksOf link.url with
        | nil => exact Or.inl rfl
        | cons first url =>
          cases hlabel : blocksOf link.label with
          | nil => exact Or.inr rfl
          | cons first' label =>
            rw [hurl, hlabel] at heq hnodup
            obtain rfl := (List.cons.inj heq).1
            exact absurd hnodup.of_append_left (by simp)
      · rintro (hnil | hnil) <;> rw [hnil] <;> simp
    constructor
    · intro heq
      obtain ⟨hlink, hbehind⟩ := List.append_inj heq (by simp; omega)
      exact ⟨hswap.mp hlink, hafter.mp hbehind⟩
    · rintro ⟨hlink, hbehind⟩
      rw [hswap.mpr hlink, hafter.mpr hbehind]

end

end Marked

end Tellm
