/-
  HEADED: the links that the renderer finds, and those of the text outside the fences.

  Links are looked for behind the headings, in a text whose heading lines have lost white space and hashes
  at their ends and stand in tags.  A link begins and ends at brackets, and its URL has no white space; so
  it is a link of the text before, with the same blocks.

  1. **`Headed`**: a text and what it has become, symbol by symbol.
  2. **`headed_bracket`**, **`headed_url`**: a bracket is found in both or in neither.
  3. **`oneSided_withHeadings`**: so are the links.

  `Headed` is an inductive relation between the text outside the fences and the text in which the links
  are looked for.  Its constructors are the ways in which the second can differ from the first: a symbol
  copied and escaped, the beginning of a heading line lost, its end lost, tags put around it.

  A search for a bracket on both sides ends at corresponding places, since brackets are neither escaped
  nor lost (`Fixed`).  The end of a URL is more delicate, as it also ends at white space, and the tags
  bring none; `headed_url` treats the two cases.  Then a link found in one text is found in the other,
  with a label and a URL that are `Headed` in turn, and so with the same blocks.

  The module proves one fact for `Tellm.Fenced`: whether all links have their blocks on one side may be
  asked of the text outside the fences, before any pass.
-/
import Tellm.Outline

namespace Tellm

open Text Substitutions Spellings Occurrences

namespace Marked

/-- The second text is the first one escaped, with its headings rendered, from the middle of a line on. -/
inductive Headed : List Symbol → List Symbol → Prop
  | nil : Headed [] []
  | copy (a : Symbol) {text rendered : List Symbol} (h : Headed text rendered) :
      Headed (a :: text) (escapeSymbol a :: rendered)
  | start {skipped text rendered : List Symbol}
      (hskipped : ∀ a ∈ skipped, isWhitespace a = true ∨ a = .inl '#')
      (h : Headed text rendered) :
      Headed (.inl '\n' :: skipped ++ text) (.inl '\n' :: .inr (.openTag .b) :: rendered)
  | finish {spaces : List Symbol} (hspaces : ∀ a ∈ spaces, isWhitespace a = true) :
      Headed spaces [.inr (.closeTag .b)]
  | finishLine {spaces text rendered : List Symbol} (hspaces : ∀ a ∈ spaces, isWhitespace a = true)
      (h : Headed (.inl '\n' :: text) (.inl '\n' :: rendered)) :
      Headed (spaces ++ .inl '\n' :: text) (.inr (.closeTag .b) :: .inl '\n' :: rendered)

/-! ## Headings -/

/-- Escaping neither makes white space nor removes it. -/
theorem isWhitespace_escapeSymbol (a : Symbol) : isWhitespace (escapeSymbol a) = isWhitespace a := by
  rcases a with c | w
  · unfold escapeSymbol
    split
    case h_6 => rfl
    all_goals
      rename_i hc
      cases hc
      decide
  · rfl

/-- Newlines are where they were after the escaping. -/
theorem escapeSymbol_eq_newline (a : Symbol) : escapeSymbol a = .inl '\n' ↔ a = .inl '\n' :=
  escapeSymbol_eq_letter (by decide) a

/-- So the lines of the escaped text are the escaped lines. -/
theorem lines_escapeHtml (text : List Symbol) :
    (escapeHtml text).splitOn (.inl '\n') = (text.splitOn (.inl '\n')).map escapeHtml := by
  induction text with
  | nil => rfl
  | cons a text ih =>
    have hcons : escapeHtml (a :: text) = escapeSymbol a :: escapeHtml text := rfl
    rw [hcons, List.splitOn_cons_eq_if_modifyHead, List.splitOn_cons_eq_if_modifyHead, ih]
    by_cases ha : a = .inl '\n'
    · rw [ha]
      rfl
    · rw [if_neg fun h => ha ((escapeSymbol_eq_newline a).mp (eq_of_beq h)), if_neg fun h => ha (eq_of_beq h)]
      cases text.splitOn (.inl '\n') <;> rfl

/-- A stretch that belongs to no heading mark is copied, symbol by symbol. -/
theorem headed_copied {text rendered : List Symbol} (h : Headed text rendered) (copied : List Symbol) :
    Headed (copied ++ text) (escapeHtml copied ++ rendered) := by
  induction copied with
  | nil => exact h
  | cons a copied ih => exact ih.copy a

/-- What may follow a line: the end of the text, or another line. -/
inductive LineEnd : List Symbol → List Symbol → Prop
  | nil : LineEnd [] []
  | line {text rendered : List Symbol} (h : Headed (.inl '\n' :: text) (.inl '\n' :: rendered)) :
      LineEnd (.inl '\n' :: text) (.inl '\n' :: rendered)

/-- What may follow a line is headed already. -/
theorem LineEnd.headed {text rendered : List Symbol} (h : LineEnd text rendered) : Headed text rendered := by
  cases h with
  | nil => exact .nil
  | line h => exact h

/-- Where a heading ends, the white space before the end of its line is dropped and the tag closed. -/
theorem LineEnd.finish {text rendered spaces : List Symbol} (h : LineEnd text rendered)
    (hspaces : ∀ a ∈ spaces, isWhitespace a = true) :
    Headed (spaces ++ text) (.inr (.closeTag .b) :: rendered) := by
  cases h with
  | nil =>
    rw [List.append_nil]
    exact .finish hspaces
  | line h => exact .finishLine hspaces h

/-- One line, be it a heading or not, is rendered as the relation says, in front of what follows. -/
theorem headed_renderLine {text rendered : List Symbol} (h : LineEnd text rendered) (line : List Symbol) :
    Headed (.inl '\n' :: line ++ text) (.inl '\n' :: renderLine (escapeHtml line) ++ rendered) := by
  rcases renderLine_cases (escapeHtml line) with
    hline | ⟨start, inner, behind, hparts, hline, hstart, hbehind⟩
  · rw [hline]
    exact (headed_copied h.headed line).copy (.inl '\n')
  · obtain ⟨first, behind, rfl, hfirst, rfl⟩ := List.map_eq_append_iff.mp hparts
    obtain ⟨start, inner, rfl, rfl, rfl⟩ := List.map_eq_append_iff.mp hfirst
    have hskipped : ∀ a ∈ start, isWhitespace a = true ∨ a = .inl '#' := by
      intro a ha
      have hescaped := hstart _ (List.mem_map_of_mem ha)
      rwa [isWhitespace_escapeSymbol, escapeSymbol_eq_letter (by decide)] at hescaped
    have hspaces : ∀ a ∈ behind, isWhitespace a = true := by
      intro a ha
      have hescaped := hbehind _ (List.mem_map_of_mem ha)
      rwa [isWhitespace_escapeSymbol] at hescaped
    have hinner := Headed.start hskipped (headed_copied (h.finish hspaces) inner)
    rw [hline]
    simpa [tagged, escapeHtml] using hinner

/-- **All the headings.** -/
theorem headed_withHeadings (text : List Symbol) :
    Headed (.inl '\n' :: text) (.inl '\n' :: withHeadings (escapeHtml text)) := by
  have hlines : [.inl '\n'].intercalate (text.splitOn (.inl '\n')) = text := List.intercalate_splitOn _
  have hne : text.splitOn (.inl '\n') ≠ [] := List.splitOn_ne_nil _ _
  rw [withHeadings, lines_escapeHtml, List.map_map]
  generalize text.splitOn (.inl '\n') = lines at hlines hne ⊢
  subst hlines
  induction lines with
  | nil => exact absurd rfl hne
  | cons line lines ih =>
    cases lines with
    | nil =>
      have hlast := headed_renderLine .nil line
      simpa using hlast
    | cons next lines =>
      have hline := headed_renderLine (.line (ih (List.cons_ne_nil next lines))) line
      simpa [List.intercalate_cons_cons] using hline

/-! ## Brackets -/

/-- A letter that is neither escaped nor dropped. -/
structure Fixed (c : Char) : Prop where
  plain : c ∉ ['&', '<', '>', '"', '\'']
  visible : Text.isWhitespace c = false
  notHash : c ≠ '#'

/-- The brackets of a link are fixed: none is escaped, white space or a hash. -/
theorem fixed_bracket {c : Char} (h : c ∈ ['[', ']', '(', ')']) : Fixed c := by
  have hall : (['[', ']', '(', ')'].all fun c => !Text.isWhitespace c) = true := by decide
  refine ⟨fun hplain => ?_, by simpa using List.all_eq_true.mp hall c h, ?_⟩
  · simp only [List.mem_cons, List.not_mem_nil, or_false] at h hplain
    rcases h with rfl | rfl | rfl | rfl <;> simp at hplain
  · rintro rfl
    simp at h

section

variable {c : Char} {text rendered : List Symbol}

/-- A fixed letter is itself after the escaping, and comes from no other symbol. -/
theorem Fixed.escape (hc : Fixed c) (a : Symbol) : escapeSymbol a = .inl c ↔ a = .inl c :=
  escapeSymbol_eq_letter hc.plain a

/-- A fixed letter is no newline, so it is inside a line. -/
theorem Fixed.ne_newline (hc : Fixed c) : c ≠ '\n' := by
  rintro rfl
  cases hc.visible

/-- What a heading loses at its ends, white space and hashes, has no fixed letter. -/
theorem Fixed.not_mem_spaces (hc : Fixed c) {spaces : List Symbol}
    (h : ∀ a ∈ spaces, isWhitespace a = true ∨ a = .inl '#') : .inl c ∉ spaces := by
  intro hmem
  rcases h _ hmem with hspace | hhash
  · exact Bool.false_ne_true (hc.visible.symm.trans hspace)
  · exact hc.notHash (Sum.inl.inj hhash)

/-- At the head of both, or of neither. -/
theorem headed_head (hc : Fixed c) (h : Headed text rendered) :
    (∀ behind, text ≠ .inl c :: behind) ∧ (∀ behind, rendered ≠ .inl c :: behind) ∨
      ∃ behind behind', text = .inl c :: behind ∧ rendered = .inl c :: behind' ∧ Headed behind behind' := by
  cases h with
  | nil => exact Or.inl ⟨fun _ h => (by cases h), fun _ h => (by cases h)⟩
  | copy a h =>
    by_cases ha : a = .inl c
    · exact Or.inr ⟨_, _, by rw [ha], by rw [(hc.escape a).mpr ha], h⟩
    · refine Or.inl
        ⟨fun _ heq => ha (List.cons.inj heq).1, fun _ heq => ha ((hc.escape a).mp (List.cons.inj heq).1)⟩
  | start hskipped h =>
    refine Or.inl ⟨fun _ heq => ?_, fun _ heq => ?_⟩
    · exact hc.ne_newline (Sum.inl.inj (List.cons.inj heq).1).symm
    · exact hc.ne_newline (Sum.inl.inj (List.cons.inj heq).1).symm
  | finish hspaces =>
    refine Or.inl ⟨fun _ heq => ?_, fun _ heq => by cases heq⟩
    exact hc.not_mem_spaces (fun a ha => Or.inl (hspaces a ha)) (heq ▸ List.mem_cons_self)
  | finishLine hspaces h =>
    rename_i spaces text rendered
    refine Or.inl ⟨fun _ heq => ?_, fun _ heq => by cases heq⟩
    cases spaces with
    | nil => exact hc.ne_newline (Sum.inl.inj (List.cons.inj heq).1).symm
    | cons a spaces =>
      refine hc.not_mem_spaces (fun a ha => Or.inl (hspaces a ha)) ?_
      rw [(List.cons.inj heq).1]
      exact List.mem_cons_self

/-- The first place of a letter in both, with the same blocks before it; or it is in neither. -/
def Together (c : Char) (text rendered : List Symbol) : Prop :=
  .inl c ∉ text ∧ .inl c ∉ rendered ∨ ∃ before behind before' behind', text = before ++ .inl c :: behind ∧
    rendered = before' ++ .inl c :: behind' ∧ .inl c ∉ before ∧ .inl c ∉ before' ∧ Headed behind behind' ∧
      blocksOf before' = blocksOf before

/-- Dropping and putting in symbols without the letter, and with the same blocks, does not move its first
    place. -/
theorem Together.append {dropped put : List Symbol} (h : Together c text rendered)
    (hdropped : .inl c ∉ dropped) (hput : .inl c ∉ put) (hblocks : blocksOf put = blocksOf dropped) :
    Together c (dropped ++ text) (put ++ rendered) := by
  rcases h with
    ⟨htext, hrendered⟩ | ⟨before, behind, before', behind', rfl, rfl, hbefore, hbefore', hbehind, hsame⟩
  · refine Or.inl ⟨?_, ?_⟩
    · rw [List.mem_append]
      exact not_or.mpr ⟨hdropped, htext⟩
    · rw [List.mem_append]
      exact not_or.mpr ⟨hput, hrendered⟩
  · refine Or.inr ⟨dropped ++ before, behind, put ++ before', behind', by simp, by simp, ?_, ?_, hbehind, ?_⟩
    · rw [List.mem_append]
      exact not_or.mpr ⟨hdropped, hbefore⟩
    · rw [List.mem_append]
      exact not_or.mpr ⟨hput, hbefore'⟩
    · rw [blocksOf_append, blocksOf_append, hblocks, hsame]

/-- **A bracket** is found in both or in neither. -/
theorem headed_bracket (hc : Fixed c) (h : Headed text rendered) : Together c text rendered := by
  have hline : (.inl c : Symbol) ≠ .inl '\n' := fun h => hc.ne_newline (Sum.inl.inj h)
  have hspaces : ∀ {spaces : List Symbol}, (∀ a ∈ spaces, isWhitespace a = true) →
      .inl c ∉ spaces ∧ blocksOf spaces = [] :=
    fun h => ⟨hc.not_mem_spaces fun a ha => Or.inl (h a ha), blocksOf_spaces fun a ha => Or.inl (h a ha)⟩
  -- on how the headings are found: what they drop and put in has no bracket
  induction h with
  | nil => exact Or.inl ⟨List.not_mem_nil, List.not_mem_nil⟩
  | copy a h ih =>
    rename_i text rendered
    by_cases ha : a = .inl c
    · exact Or.inr ⟨[], text, [], rendered, by rw [ha]; rfl, by rw [(hc.escape a).mpr ha]; rfl,
        List.not_mem_nil, List.not_mem_nil, h, rfl⟩
    · refine @Together.append c text rendered [a] [escapeSymbol a] ih ?_ ?_ (@blocksOf_escapeHtml [a])
      · exact fun hmem => ha (List.mem_singleton.mp hmem).symm
      · exact fun hmem => ha ((hc.escape a).mp (List.mem_singleton.mp hmem).symm)
  | start hskipped h ih =>
    rename_i skipped text rendered
    refine @Together.append c text rendered (.inl '\n' :: skipped) [.inl '\n', .inr (.openTag .b)] ih ?_ ?_ ?_
    · rw [List.mem_cons]
      exact not_or.mpr ⟨hline, hc.not_mem_spaces hskipped⟩
    · simp [hc.ne_newline]
    · exact (blocksOf_spaces hskipped).symm
  | finish hfinish =>
    refine Or.inl ⟨(hspaces hfinish).1, ?_⟩
    simp
  | finishLine hfinish h ih =>
    rename_i spaces text rendered
    refine @Together.append c _ _ spaces [.inr (.closeTag .b)] ih (hspaces hfinish).1 ?_
      (hspaces hfinish).2.symm
    simp

/-- Up to a closing bracket there is no white space. -/
def Closes (text : List Symbol) : Prop :=
  ∃ url behind, text = url ++ .inl ')' :: behind ∧ .inl ')' ∉ url ∧ ∀ a ∈ url, isWhitespace a = false

/-- White space ends the URL of a link before its closing bracket. -/
theorem not_closes_space {a : Symbol} (ha : isWhitespace a = true) (text : List Symbol) :
    ¬ Closes (a :: text) := by
  rintro ⟨url, behind, heq, -, hurl⟩
  cases url with
  | nil =>
    rw [(List.cons.inj heq).1] at ha
    cases ha
  | cons b url =>
    rw [(List.cons.inj heq).1, hurl b List.mem_cons_self] at ha
    cases ha

/-- Any other symbol but the bracket itself may be passed over. -/
theorem closes_cons {a : Symbol} (ha : a ≠ .inl ')') (hspace : isWhitespace a = false) (text : List Symbol) :
    Closes (a :: text) ↔ Closes text := by
  constructor
  · rintro ⟨url, behind, heq, hclose, hurl⟩
    cases url with
    | nil => exact absurd (List.cons.inj heq).1 ha
    | cons b url =>
      exact ⟨url, behind, (List.cons.inj heq).2, fun h => hclose (List.mem_cons_of_mem b h),
        fun a ha => hurl a (List.mem_cons_of_mem b ha)⟩
  · rintro ⟨url, behind, rfl, hclose, hurl⟩
    refine ⟨a :: url, behind, rfl, ?_, List.forall_mem_cons.mpr ⟨hspace, hurl⟩⟩
    rw [List.mem_cons]
    exact not_or.mpr ⟨ha.symm, hclose⟩

/-- **A URL** is the same in both, but for its escaping. -/
theorem headed_url (h : Headed text rendered) : ¬ Closes text ∧ ¬ Closes rendered ∨
    ∃ url behind behind', text = url ++ .inl ')' :: behind ∧
    rendered = escapeHtml url ++ .inl ')' :: behind' ∧
      .inl ')' ∉ url ∧ (∀ a ∈ url, isWhitespace a = false) ∧ Headed behind behind' := by
  have hfixed : Fixed ')' := fixed_bracket (by decide)
  have hline : isWhitespace (.inl '\n') = true := by decide
  have hnil : ¬ Closes [] := by
    rintro ⟨url, behind, heq, -⟩
    cases url <;> cases heq
  have hclose : ∀ text, Closes (.inr (.closeTag .b) :: text) ↔ Closes text :=
    closes_cons (fun h => by cases h) rfl
  -- on the same; a line break or a heading's end before the parenthesis closes the URL in neither
  induction h with
  | nil => exact Or.inl ⟨hnil, hnil⟩
  | copy a h ih =>
    rename_i text rendered
    by_cases ha : a = .inl ')'
    · refine Or.inr ⟨[], text, rendered, by rw [ha]; rfl, ?_, List.not_mem_nil,
        fun _ h => absurd h List.not_mem_nil, h⟩
      rw [(hfixed.escape a).mpr ha]
      rfl
    · have ha' : escapeSymbol a ≠ .inl ')' := fun h => ha ((hfixed.escape a).mp h)
      cases hspace : isWhitespace a with
      | true =>
        refine Or.inl ⟨not_closes_space hspace _, not_closes_space ?_ _⟩
        rwa [isWhitespace_escapeSymbol]
      | false =>
        have hspace' : isWhitespace (escapeSymbol a) = false := by rwa [isWhitespace_escapeSymbol]
        rcases ih with ⟨htext, hrendered⟩ | ⟨url, behind, behind', rfl, rfl, hurl, hspaces, hbehind⟩
        · rw [closes_cons ha hspace, closes_cons ha' hspace']
          exact Or.inl ⟨htext, hrendered⟩
        · refine Or.inr
            ⟨a :: url, behind, behind', rfl, rfl, ?_, List.forall_mem_cons.mpr ⟨hspace, hspaces⟩, hbehind⟩
          rw [List.mem_cons]
          exact not_or.mpr ⟨Ne.symm ha, hurl⟩
  | start hskipped h ih => exact Or.inl ⟨not_closes_space hline _, not_closes_space hline _⟩
  | finish hspaces =>
    rename_i spaces
    refine Or.inl ⟨?_, by rwa [hclose]⟩
    cases spaces with
    | nil => exact hnil
    | cons a spaces => exact not_closes_space (hspaces a List.mem_cons_self) _
  | finishLine hspaces h ih =>
    rename_i spaces text rendered
    refine Or.inl ⟨?_, ?_⟩
    · cases spaces with
      | nil => exact not_closes_space hline _
      | cons a spaces => exact not_closes_space (hspaces a List.mem_cons_self) _
    · rw [hclose]
      exact not_closes_space hline _

end

/-! ## Links -/

section

variable {text rendered label url after : List Symbol}

/-- The scheme of a URL has no letter that is escaped, so it is found in the escaped URL as well, with the
    rest escaped. -/
theorem scheme_escapeHtml (url : List Symbol) :
    scheme (escapeHtml url) = (scheme url).map fun parts => (parts.1, escapeHtml parts.2) := by
  have hplain : ∀ chars : List Char, (∀ c ∈ chars, c ∉ ['&', '<', '>', '"', '\'']) →
      dropPattern (letters chars) (escapeHtml url) = (dropPattern (letters chars) url).map escapeHtml := by
    intro chars hchars
    refine dropPattern_map fun a ha b => ?_
    obtain ⟨c, hc, rfl⟩ := List.mem_map.mp ha
    exact escapeSymbol_eq_letter (hchars c hc) b
  have hscheme : ∀ secure, ∀ c ∈ schemeText secure, c ∉ ['&', '<', '>', '"', '\''] := by
    intro secure c hc hmem
    have hall : (['&', '<', '>', '"', '\''].all fun c => !(schemeText secure).contains c) = true := by
      cases secure <;> decide
    have hno := List.all_eq_true.mp hall c hmem
    rw [Bool.not_eq_true', ← Bool.not_eq_true, List.contains_iff_mem] at hno
    exact hno hc
  rw [scheme, scheme, hplain Markdown.http (hscheme false), hplain Markdown.https (hscheme true)]
  cases dropPattern (letters Markdown.http) url with
  | some rest => rfl
  | none => cases dropPattern (letters Markdown.https) url <;> rfl

/-- A link begins with an opening bracket. -/
theorem linkStep_of_head (h : ∀ behind, text ≠ .inl '[' :: behind) : linkStep text = none := by
  have hdrop : dropPattern [.inl '['] text = none := by
    rw [dropPattern_eq_none]
    rintro ⟨behind, hbehind⟩
    exact h behind hbehind.symm
  rw [linkStep, hdrop]
  rfl

/-- A label that is never closed is no link. -/
theorem linkStep_of_label (h : .inl ']' ∉ text) : linkStep (.inl '[' :: text) = none := by
  have hdrop : dropPattern [.inl '['] (.inl '[' :: text) = some text :=
    dropPattern_append [(.inl '[' : Symbol)] text
  rw [linkStep, hdrop, Option.bind_some, splitAround_singleton_eq_none h]
  rfl

/-- With its label read off, a link is decided by the text behind the closing bracket. -/
theorem linkStep_label (h : .inl ']' ∉ label) (behind : List Symbol) :
    linkStep (.inl '[' :: (label ++ .inl ']' :: behind)) =
      (dropPattern [.inl '('] behind).bind fun urlStart =>
      (splitAround [.inl ')'] urlStart).bind fun parts => (scheme parts.1).bind fun found =>
        if label.isEmpty || parts.1.any isWhitespace then none
            else some (⟨label, found.1, found.2⟩, parts.2) := by
  have hdrop : dropPattern [.inl '['] (.inl '[' :: (label ++ .inl ']' :: behind)) =
      some (label ++ .inl ']' :: behind) :=
    dropPattern_append [(.inl '[' : Symbol)] _
  rw [linkStep, hdrop, Option.bind_some, splitAround_singleton h]
  rfl

/-- A label without a parenthesis behind it is no link. -/
theorem linkStep_of_paren (h : .inl ']' ∉ label) {behind : List Symbol}
    (hparen : ∀ rest, behind ≠ .inl '(' :: rest) :
    linkStep (.inl '[' :: (label ++ .inl ']' :: behind)) = none := by
  have hdrop : dropPattern [.inl '('] behind = none := by
    rw [dropPattern_eq_none]
    rintro ⟨rest, hrest⟩
    exact hparen rest hrest.symm
  rw [linkStep_label h, hdrop]
  rfl

/-- A URL that is not closed before white space is no link. -/
theorem linkStep_of_url (h : .inl ']' ∉ label) {urlStart : List Symbol} (hurl : ¬ Closes urlStart) :
    linkStep (.inl '[' :: (label ++ .inl ']' :: .inl '(' :: urlStart)) = none := by
  have hdrop : dropPattern [.inl '('] (.inl '(' :: urlStart) = some urlStart :=
    dropPattern_append [(.inl '(' : Symbol)] _
  rw [linkStep_label h, hdrop, Option.bind_some]
  by_cases hclose : .inl ')' ∈ urlStart
  · obtain ⟨url, behind, rfl, hnot⟩ := List.eq_append_cons_of_mem hclose
    have hspace : url.any isWhitespace = true := by
      by_contra hno
      have hno := List.any_eq_false.mp (Bool.eq_false_iff.mpr hno)
      exact hurl ⟨url, behind, rfl, hnot, fun a ha => Bool.eq_false_iff.mpr (hno a ha)⟩
    rw [splitAround_singleton hnot, Option.bind_some, hspace, Bool.or_true]
    cases scheme url <;> rfl
  · rw [splitAround_singleton_eq_none hclose]
    rfl

/-- With its label and its URL read off, a link is decided by the scheme of the URL and by the label not being
    empty. -/
theorem linkStep_parts (hlabel : .inl ']' ∉ label) (hurl : .inl ')' ∉ url)
    (hspace : ∀ a ∈ url, isWhitespace a = false) :
    linkStep (.inl '[' :: (label ++ .inl ']' :: .inl '(' :: (url ++ .inl ')' :: after))) =
      (scheme url).bind fun found =>
      if label.isEmpty then none else some (⟨label, found.1, found.2⟩, after) := by
  have hdrop :
      dropPattern [.inl '('] (.inl '(' :: (url ++ .inl ')' :: after)) = some (url ++ .inl ')' :: after) :=
    dropPattern_append [(.inl '(' : Symbol)] _
  have hany : url.any isWhitespace = false := List.any_eq_false.mpr fun a ha => by simp [hspace a ha]
  rw [linkStep_label hlabel, hdrop, Option.bind_some, splitAround_singleton hurl, Option.bind_some, hany]
  simp only [Bool.or_false]

/-- **A link** is at the head of both, or of neither. -/
theorem headed_linkStep (h : Headed text rendered) : linkStep text = none ∧ linkStep rendered = none ∨
    ∃ link after link' after', linkStep text = some (link, after) ∧ linkStep rendered = some (link', after') ∧
      (link'.OneSided ↔ link.OneSided) ∧ Headed after after' := by
  have hfixed : ∀ c, c ∈ ['[', ']', '(', ')'] → Fixed c := fun c h => fixed_bracket h
  -- bracket by bracket: `[`, the label's end, `(`, and the URL
  rcases headed_head (hfixed '[' (by decide)) h with
    ⟨htext, hrendered⟩ | ⟨labelStart, labelStart', rfl, rfl, hstart⟩
  · exact Or.inl ⟨linkStep_of_head htext, linkStep_of_head hrendered⟩
  rcases headed_bracket (hfixed ']' (by decide)) hstart with ⟨htext, hrendered⟩ |
    ⟨label, behind, label', behind', rfl, rfl, hlabel, hlabel', hbehind, hblocks⟩
  · exact Or.inl ⟨linkStep_of_label htext, linkStep_of_label hrendered⟩
  rcases headed_head (hfixed '(' (by decide)) hbehind with
    ⟨htext, hrendered⟩ | ⟨urlStart, urlStart', rfl, rfl, hurl⟩
  · exact Or.inl ⟨linkStep_of_paren hlabel htext, linkStep_of_paren hlabel' hrendered⟩
  rcases headed_url hurl with ⟨htext, hrendered⟩ | ⟨url, after, after', rfl, rfl, hclose, hspaces, hafter⟩
  · exact Or.inl ⟨linkStep_of_url hlabel htext, linkStep_of_url hlabel' hrendered⟩
  -- the label is empty in both or in neither
  have hempty : label'.isEmpty = label.isEmpty := by
    have hcons : ∀ {label behind rest : List Symbol}, .inl ']' ∉ label →
        label ++ .inl ']' :: behind = .inl ']' :: rest → label = [] := by
      intro label behind rest hlabel heq
      cases label with
      | nil => rfl
      | cons a label => exact absurd (List.mem_cons.mpr (Or.inl (List.cons.inj heq).1.symm)) hlabel
    rw [Bool.eq_iff_iff, List.isEmpty_iff, List.isEmpty_iff]
    rcases headed_head (hfixed ']' (by decide)) hstart with ⟨hno, hno'⟩ | ⟨_, _, heq, heq', -⟩
    · refine iff_of_false ?_ ?_
      · rintro rfl
        exact hno' _ rfl
      · rintro rfl
        exact hno _ rfl
    · exact iff_of_true (hcons hlabel' heq') (hcons hlabel heq)
  have hclose' : .inl ')' ∉ escapeHtml url := by
    intro hmem
    obtain ⟨a, ha, heq⟩ := List.mem_map.mp hmem
    exact hclose (((hfixed ')' (by decide)).escape a).mp heq ▸ ha)
  have hspaces' : ∀ a ∈ escapeHtml url, isWhitespace a = false := by
    intro a ha
    obtain ⟨b, hb, rfl⟩ := List.mem_map.mp ha
    rw [isWhitespace_escapeSymbol, hspaces b hb]
  rw [linkStep_parts hlabel hclose hspaces, linkStep_parts hlabel' hclose' hspaces', hempty,
    scheme_escapeHtml]
  cases scheme url with
  | none => exact Or.inl ⟨rfl, rfl⟩
  | some parts =>
    cases label.isEmpty with
    | true => exact Or.inl ⟨rfl, rfl⟩
    | false =>
      refine Or.inr ⟨⟨label, parts.1, parts.2⟩, after, ⟨label', parts.1, escapeHtml parts.2⟩, after', rfl,
        rfl, ?_, hafter⟩
      rw [Link.OneSided, Link.OneSided]
      show blocksOf (escapeHtml parts.2) = [] ∨ blocksOf label' = [] ↔
        blocksOf parts.2 = [] ∨ blocksOf label = []
      rw [blocksOf_escapeHtml, hblocks]

/-- The links of a text have blocks on one side each. -/
def OneSided (text : List Symbol) : Prop := ∀ link ∈ found linkStep text, link.OneSided

/-- A stretch without an opening bracket adds no link. -/
theorem oneSided_skip {skipped : List Symbol} (h : .inl '[' ∉ skipped) (text : List Symbol) :
    OneSided (skipped ++ text) ↔ OneSided text := by
  induction skipped with
  | nil => rfl
  | cons a skipped ih =>
    obtain ⟨ha, hskipped⟩ := not_or.mp fun hmem => h (List.mem_cons.mpr hmem)
    have hnone : linkStep (a :: (skipped ++ text)) = none :=
      linkStep_of_head fun behind heq => ha (List.cons.inj heq).1.symm
    rw [← ih hskipped, OneSided, List.cons_append, found_of_none hnone]
    rfl

/-- The links of a text and of what it has become have their blocks on one side alike: both are found link by
    link, by what one step of the search finds in each. -/
theorem oneSided_headed (h : Headed text rendered) : OneSided rendered ↔ OneSided text := by
  induction hlength : rendered.length using Nat.strong_induction_on generalizing text rendered with
  | _ n ih =>
    rcases headed_linkStep h with ⟨hnone, hnone'⟩ | ⟨link, after, link', after', hsome, hsome', hlink, hafter⟩
    · cases h with
      | nil => rfl
      | copy a h =>
        have hbehind := ih _ (by rw [← hlength]; exact Nat.lt_succ_self _) h rfl
        rw [OneSided, OneSided, found_of_none hnone, found_of_none hnone']
        exact hbehind
      | start hskipped h =>
        rename_i skipped text rendered
        have hbehind := ih _ (by rw [← hlength, List.length_cons, List.length_cons]; omega) h rfl
        have hdropped : .inl '[' ∉ .inl '\n' :: skipped := by
          rw [List.mem_cons]
          exact not_or.mpr ⟨by decide, (fixed_bracket (by decide)).not_mem_spaces hskipped⟩
        exact ((@oneSided_skip [.inl '\n', .inr (.openTag .b)] (by decide) rendered).trans hbehind).trans
          (oneSided_skip hdropped text).symm
      | finish hspaces =>
        have hdropped : .inl '[' ∉ text :=
          (fixed_bracket (by decide)).not_mem_spaces fun a ha => Or.inl (hspaces a ha)
        have hskip := oneSided_skip hdropped []
        rw [List.append_nil] at hskip
        exact (@oneSided_skip [.inr (.closeTag .b)] (by decide) []).trans hskip.symm
      | finishLine hspaces h =>
        rename_i spaces text rendered
        have hbehind := ih _ (by rw [← hlength]; exact Nat.lt_succ_self _) h rfl
        have hdropped : .inl '[' ∉ spaces :=
          (fixed_bracket (by decide)).not_mem_spaces fun a ha => Or.inl (hspaces a ha)
        exact ((@oneSided_skip [.inr (.closeTag .b)] (by decide) _).trans hbehind).trans
          (oneSided_skip hdropped _).symm
    · -- a link at the head of both
      have hbehind := ih after'.length (hlength ▸ consumes_linkStep.length_lt hsome') hafter rfl
      rw [OneSided, OneSided, found_of_some consumes_linkStep hsome, found_of_some consumes_linkStep hsome',
        List.forall_mem_cons, List.forall_mem_cons]
      exact and_congr hlink hbehind

/-- **All the links.** -/
theorem oneSided_withHeadings (text : List Symbol) :
    OneSided (withHeadings (escapeHtml text)) ↔ OneSided text := by
  have hheaded := oneSided_headed (headed_withHeadings text)
  have hskip := @oneSided_skip [.inl '\n'] (by decide)
  exact (hskip _).symm.trans (hheaded.trans (hskip _))

end

end Marked

end Tellm
