/-
  THE RENDERER AGAINST ITS REFERENCE, on whole texts.

  The stages run one after the other, so the two programs agree on a text if they agree at every stage.  The
  other way needs more: a difference that one stage makes must outlive the stages behind it.

  1. **`Parted`**: two texts with a common start, different characters behind it, and rests on whose first
     line the same delimiters occur.  These are all that a later stage can still look at from the common
     start (`Closer`), so it parts them again (`Parted.delimited`).
  2. **`Compared`**: either both texts are the same and no stage so far met one of its exceptions, or they
     are parted and one did.  One lemma for each stage carries it on.
  3. **`MeetsReference`**: no stage meets its exception.  That is exactly when the programs agree.

  The condition is asked of four texts: the lines behind the escaping, the text behind the headings, the
  one behind the links, and the one behind the asterisks, each as the renderer has it.  That is no
  restriction: up to the first exception both programs have the same text, and from it on the outputs
  differ anyway.

  The reference's extra white space would be a fifth exception; the statement is about texts without those
  four control characters (`Separating`).

  The hard direction is that a difference survives.  Bold and code look, from an opening delimiter, only
  at the rest of its line; so it is enough to keep track of which delimiters occur on the first line of
  what follows the difference, and to see that a stage treats both texts alike up to there.
-/
import Tellm.MarkdownStages

namespace Tellm

open Text Substitutions

namespace Markdown

/-! ## What a later stage still sees -/

/-- The delimiter occurs on the first line. -/
def closes (delimiter text : List Char) : Bool := (closeFirst delimiter text).isSome

/-- A part of a text that the stages with these delimiters, and the last loop, leave where it is. -/
structure Chunk (delimiters : List (List Char)) (part : List Char) : Prop where
  ne_nil : part ≠ []
  line : '\n' ∉ part
  foreign : ∀ delimiter ∈ delimiters, ∀ c ∈ part, c ∉ delimiter
  noAt : '@' ∉ part
  placeholder : ∀ idx text rest, dropPattern (placeholder idx) (text ++ part ++ rest) =
    (dropPattern (placeholder idx) text).map (· ++ part ++ rest)

section

variable {delimiters : List (List Char)} {delimiter part text rest : List Char}

/-- No occurrence of the delimiter touches the part. -/
theorem Chunk.cross (h : Chunk delimiters part) (hmem : delimiter ∈ delimiters) (text rest : List Char) :
    dropPattern delimiter (text ++ part ++ rest) =
      (dropPattern delimiter text).map (· ++ part ++ rest) := by
  obtain ⟨c, part, rfl⟩ := List.exists_cons_of_ne_nil h.ne_nil
  have hc := dropPattern_append_cons (h.foreign delimiter hmem c List.mem_cons_self) text (part ++ rest)
  simpa only [List.append_assoc, List.cons_append] using hc

/-- No delimiter is found in the empty text. -/
theorem dropPattern_nil (hne : delimiter ≠ []) : dropPattern delimiter [] = none := by
  rw [dropPattern_eq_none, List.prefix_nil]
  exact hne

/-- So nothing closes there. -/
theorem closeFirst_nil (hne : delimiter ≠ []) : closeFirst delimiter [] = none := by
  rw [closeFirst, show splitAround delimiter [] = (dropPattern delimiter []).map _ from rfl,
    dropPattern_nil hne]
  rfl

/-- A part with no newline and no character of the delimiter is passed over, and is in the body. -/
theorem closeFirst_chunk (hne : delimiter ≠ []) (hline : '\n' ∉ part) (hforeign : ∀ c ∈ part, c ∉ delimiter)
    (rest : List Char) : closeFirst delimiter (part ++ rest) =
      (closeFirst delimiter rest).map fun parts => (part ++ parts.1, parts.2) := by
  induction part with
  | nil => simp
  | cons c part ih =>
    have hdrop : dropPattern delimiter (c :: (part ++ rest)) = none := by
      have h := dropPattern_append_cons (hforeign c List.mem_cons_self) [] (part ++ rest)
      rwa [dropPattern_nil hne] at h
    obtain ⟨hc, hpart⟩ := not_or.mp fun h => hline (List.mem_cons.mpr h)
    rw [List.cons_append, closeFirst_cons hdrop, if_neg (Ne.symm hc),
      ih hpart fun d hd => hforeign d (List.mem_cons_of_mem _ hd), Option.map_map]
    rfl

/-- The delimiter is found before the part, or behind it where the line still goes on. -/
theorem closeFirst_append (h : Chunk delimiters part) (hmem : delimiter ∈ delimiters) (hne : delimiter ≠ [])
    (text rest : List Char) : closeFirst delimiter (text ++ part ++ rest) =
      match closeFirst delimiter text with
      | some parts => some (parts.1, parts.2 ++ part ++ rest)
      | none =>
        if '\n' ∈ text then none
        else (closeFirst delimiter rest).map fun parts => (text ++ part ++ parts.1, parts.2) := by
  -- induction on the text before the part, which no delimiter reaches into
  induction text with
  | nil =>
    rw [closeFirst_nil hne, if_neg List.not_mem_nil]
    exact closeFirst_chunk hne h.line (h.foreign delimiter hmem) rest
  | cons c text ih =>
    have hcross := h.cross hmem (c :: text) rest
    cases hdrop : dropPattern delimiter (c :: text) with
    | some after =>
      rw [hdrop] at hcross
      rw [closeFirst_of_some hdrop, closeFirst_of_some hcross]
    | none =>
      have hwhole : dropPattern delimiter (c :: (text ++ part ++ rest)) = none := by
        rwa [hdrop] at hcross
      rw [List.cons_append, List.cons_append, closeFirst_cons hwhole, closeFirst_cons hdrop, ih]
      by_cases hc : c = '\n'
      · simp [hc]
      · rw [if_neg hc, if_neg hc]
        cases closeFirst delimiter text with
        | some parts => rfl
        | none =>
          by_cases hline : '\n' ∈ text
          · simp [hline]
          · have hline' : '\n' ∉ c :: text := by simp [Ne.symm hc, hline]
            dsimp only
            rw [Option.map_none, if_neg hline, if_neg hline', Option.map_map]
            rfl

/-- Whether a delimiter occurs on the first line of a text with such a part in it depends on the text before
    and behind the part, and not on the part. -/
theorem closes_append (h : Chunk delimiters part) (hmem : delimiter ∈ delimiters) (hne : delimiter ≠ [])
    (text rest : List Char) : closes delimiter (text ++ part ++ rest) =
      (closes delimiter text || (!decide ('\n' ∈ text) && closes delimiter rest)) := by
  rw [closes, closes, closes, closeFirst_append h hmem hne]
  cases closeFirst delimiter text with
  | some parts => rfl
  | none =>
    by_cases hline : '\n' ∈ text
    · simp [hline]
    · simp [hline]

/-- The line ends at a newline. -/
theorem closes_newline (hne : delimiter ≠ []) (hline : '\n' ∉ delimiter) (text rest : List Char) :
    closes delimiter (text ++ '\n' :: rest) = closes delimiter text := by
  induction text with
  | nil =>
    have hdrop : dropPattern delimiter ('\n' :: rest) = none := by
      have h := dropPattern_append_cons hline [] rest
      rwa [dropPattern_nil hne] at h
    rw [closes, closes, List.nil_append, closeFirst_cons hdrop, closeFirst_nil hne]
    rfl
  | cons c text ih =>
    have hcross := dropPattern_append_cons hline (c :: text) rest
    cases hdrop : dropPattern delimiter (c :: text) with
    | some after =>
      rw [hdrop] at hcross
      rw [closes, closes, closeFirst_of_some hdrop, closeFirst_of_some hcross]
      rfl
    | none =>
      have hwhole : dropPattern delimiter (c :: (text ++ '\n' :: rest)) = none := by
        rwa [hdrop] at hcross
      rw [closes, closes, List.cons_append, closeFirst_cons hwhole, closeFirst_cons hdrop]
      split
      · rfl
      · rw [Option.isSome_map, Option.isSome_map]
        exact ih

end

/-! ## Parted texts -/

/-- Two texts differ behind a common start, and the delimiters occur on the first lines of both rests or of
    neither. -/
inductive Parted (delimiters : List (List Char)) : List Char → List Char → Prop
  | intro (start : List Char) {part part' rest rest' : List Char} (chunk : Chunk delimiters part)
      (chunk' : Chunk delimiters part') (head_ne : part.head? ≠ part'.head?)
      (closes_eq : ∀ delimiter ∈ delimiters, closes delimiter rest = closes delimiter rest') :
      Parted delimiters (start ++ part ++ rest) (start ++ part' ++ rest')

/-- Two texts that are parted stay so behind a common start. -/
theorem Parted.append {delimiters : List (List Char)} {text text' : List Char} (start : List Char)
    (h : Parted delimiters text text') : Parted delimiters (start ++ text) (start ++ text') := by
  obtain ⟨start', chunk, chunk', hhead, hcloses⟩ := h
  simpa only [List.append_assoc] using Parted.intro (start ++ start') chunk chunk' hhead hcloses

/-- The first character that they have in common may be taken off. -/
theorem Parted.of_cons {delimiters : List (List Char)} {c : Char} {text text' : List Char}
    (h : Parted delimiters (c :: text) (c :: text')) : Parted delimiters text text' := by
  generalize hx : c :: text = x at h
  generalize hy : c :: text' = y at h
  obtain ⟨start, chunk, chunk', hhead, hcloses⟩ := h
  rename_i part part' rest rest'
  cases start with
  | nil =>
    obtain ⟨d, part, rfl⟩ := List.exists_cons_of_ne_nil chunk.ne_nil
    obtain ⟨d', part', rfl⟩ := List.exists_cons_of_ne_nil chunk'.ne_nil
    exact absurd
      (by rw [List.head?_cons, List.head?_cons, ← (List.cons.inj hx).1, ← (List.cons.inj hy).1]) hhead
  | cons d start =>
    obtain ⟨-, rfl⟩ := List.cons.inj hx
    obtain ⟨-, rfl⟩ := List.cons.inj hy
    exact Parted.intro start chunk chunk' hhead hcloses

/-- Parted texts are different: at the end of the common start they go on with different characters. -/
theorem Parted.ne {delimiters : List (List Char)} {text text' : List Char}
    (h : Parted delimiters text text') : text ≠ text' := by
  obtain ⟨start, chunk, chunk', hhead, -⟩ := h
  rename_i part part' rest rest'
  intro heq
  rw [List.append_assoc, List.append_assoc, List.append_cancel_left_eq] at heq
  obtain ⟨d, part, rfl⟩ := List.exists_cons_of_ne_nil chunk.ne_nil
  obtain ⟨d', part', rfl⟩ := List.exists_cons_of_ne_nil chunk'.ne_nil
  rw [List.cons_append, List.cons_append] at heq
  exact hhead (by rw [List.head?_cons, List.head?_cons, (List.cons.inj heq).1])

/-- The last loop keeps the parting. -/
theorem Parted.restoreBlocks {text text' : List Char} (h : Parted [] text text')
    (fencedBlocks : List (List Char)) :
    restoreBlocks fencedBlocks text ≠ restoreBlocks fencedBlocks text' := by
  suffices hparted : ∀ blocks : List (List Char × Nat), ∀ text text', Parted [] text text' →
      Parted [] (blocks.foldl (fun text block => replaceAll (Markdown.placeholder block.2) block.1 text) text)
        (blocks.foldl (fun text block => replaceAll (Markdown.placeholder block.2) block.1 text) text') from
    (hparted fencedBlocks.zipIdx text text' h).ne
  intro blocks
  induction blocks with
  | nil => exact fun _ _ h => h
  | cons block blocks ih =>
    intro text text' h
    refine ih _ _ ?_
    obtain ⟨start, chunk, chunk', hhead, hcloses⟩ := h
    have hreplace : ∀ {part rest : List Char}, Chunk [] part →
        replaceAll (Markdown.placeholder block.2) block.1 (start ++ part ++ rest) =
          replaceAll (Markdown.placeholder block.2) block.1 start ++ part ++
            replaceAll (Markdown.placeholder block.2) block.1 rest := by
      intro part rest hpart
      refine replaceAll_append (placeholder_ne_nil _) (fun text => hpart.placeholder _ _ _) ?_ _ _
      intro c hc rest
      refine dropPattern_placeholder_ne ?_ _ _
      rintro rfl
      exact hpart.noAt hc
    dsimp only
    rw [hreplace chunk, hreplace chunk']
    exact Parted.intro _ chunk chunk' hhead fun _ h => absurd h List.not_mem_nil

/-! ## Delimiters -/

/-- A stage that replaces one delimiter and leaves the later ones where they are. -/
structure Stage (delimiters : List (List Char)) (delimiter tag : List Char) : Prop where
  copied : Chunk delimiters delimiter
  opening : Chunk delimiters ('<' :: tag ++ ['>'])
  closing : Chunk delimiters ('<' :: '/' :: tag ++ ['>'])
  ne_nil : ∀ later ∈ delimiters, later ≠ []

/-- A tag is a part, a body and a part. -/
theorem tagged_eq (tag text : List Char) :
    tagged tag text = ('<' :: tag ++ ['>']) ++ text ++ ('<' :: '/' :: tag ++ ['>']) := by
  simp [tagged]

section

variable {delimiters : List (List Char)} {delimiter tag later : List Char}
  {close : List Char → Option (List Char × List Char)}

/-- A later delimiter passes both tags: it is found before them, in the body or behind, as without them. -/
theorem closes_between {part part' : List Char} (h : Chunk delimiters part) (h' : Chunk delimiters part')
    (hlater : later ∈ delimiters) (hne : later ≠ []) (start body rest : List Char) :
    closes later (start ++ (part ++ body ++ part' ++ rest)) =
      (closes later start || (!decide ('\n' ∈ start) &&
        (closes later body || (!decide ('\n' ∈ body) && closes later rest)))) := by
  rw [← closes_append h' hlater hne, ← closes_append h hlater hne]
  simp only [List.append_assoc]

/-- Where a later delimiter occurs on the first line is not changed by the stage. -/
theorem closes_replaceOpenings (hstage : Stage delimiters delimiter tag) (hcloser : Closer delimiter close)
    (hlater : later ∈ delimiters) (text : List Char) : ∀ start,
    closes later (start ++ replaceOpenings delimiter tag close text) = closes later (start ++ text) := by
  have hne := hstage.copied.ne_nil
  have hne' := hstage.ne_nil later hlater
  induction text using openings_induction hne hcloser with
  | nil =>
    intro start
    rw [replaceOpenings_nil hne hcloser]
  | copy c rest h ih =>
    intro start
    have hcopy := ih (start ++ [c])
    rw [List.append_assoc, List.append_assoc] at hcopy
    rw [replaceOpenings_cons h]
    exact hcopy
  | unclosed content hclose ih =>
    intro start
    rw [replaceOpenings_unclosed hne hcloser hclose, ← List.append_assoc, ← List.append_assoc]
    exact ih (start ++ delimiter)
  | closed content body after hclose ih =>
    intro start
    obtain ⟨rfl, -⟩ := hcloser.eq_append content body after hclose
    have hafter := ih []
    rw [List.nil_append, List.nil_append] at hafter
    rw [replaceOpenings_closed hne hcloser hclose, tagged_eq,
      closes_between hstage.opening hstage.closing hlater hne', hafter,
      ← closes_between hstage.copied hstage.copied hlater hne']
    simp only [List.append_assoc]

/-- One text copies the delimiter, the other opens a tag in its place. -/
theorem parted_of_doubled {delimiter : Delimiter} (hline : '\n' ∉ delimiter.1)
    (hstage : Stage delimiters delimiter.1 tag) (hcloser : Closer delimiter.1 close)
    (hhead : delimiter.1.head? ≠ some '<') {content content' body after : List Char}
    (hnone : closeAt delimiter content = none) (hsome : close content' = some (body, after))
    (hcloses : ∀ later ∈ delimiters, closes later content = closes later content') :
    Parted delimiters (replaceOpenings delimiter.1 tag (closeAt delimiter) (delimiter.1 ++ content))
      (replaceOpenings delimiter.1 tag close (delimiter.1 ++ content')) := by
  have hne := hstage.copied.ne_nil
  have hcloser' := closer_closeAt hline
  have hbehind : ∀ later ∈ delimiters,
      closes later (replaceOpenings delimiter.1 tag (closeAt delimiter) content) =
        closes later
            (body ++ ('<' :: '/' :: tag ++ ['>']) ++ replaceOpenings delimiter.1 tag close after) := by
    intro later hlater
    have hne' := hstage.ne_nil later hlater
    have hleft := closes_replaceOpenings hstage hcloser' hlater content []
    have hright := closes_replaceOpenings hstage hcloser hlater after []
    rw [List.nil_append, List.nil_append] at hleft hright
    obtain ⟨rfl, -⟩ := hcloser.eq_append content' body after hsome
    rw [hleft, hcloses later hlater, closes_append hstage.closing hlater hne', hright,
      closes_append hstage.copied hlater hne']
  have hparted := Parted.intro [] hstage.copied hstage.opening (fun h => hhead h) hbehind
  rw [replaceOpenings_unclosed hne hcloser' hnone, replaceOpenings_closed hne hcloser hsome, tagged_eq]
  simpa only [List.nil_append, List.append_assoc] using hparted

/-- The part between the common start and the rest is copied. -/
theorem replaceOpenings_chunk {part rest : List Char} (hne : delimiter ≠ [])
    (hchunk : Chunk (delimiter :: delimiters) part) :
    replaceOpenings delimiter tag close (part ++ rest) =
        part ++ replaceOpenings delimiter tag close rest := by
  refine substitute_copied (fun c hc rest => delimiterStep_of_none ?_) rest
  have h := dropPattern_append_cons (hchunk.foreign delimiter List.mem_cons_self c hc) [] rest
  rwa [dropPattern_nil hne] at h

/-- What no delimiter of a list touches, none of the rest of the list touches. -/
theorem Chunk.tail {part : List Char} (h : Chunk (delimiter :: delimiters) part) : Chunk delimiters part :=
  ⟨h.ne_nil, h.line, fun later hlater => h.foreign later (List.mem_cons_of_mem _ hlater), h.noAt,
    h.placeholder⟩

/-- Both texts close the opening behind the place where they part. -/
theorem parted_of_behind (hstage : Stage delimiters delimiter tag)
    {close' : List Char → Option (List Char × List Char)} (hcloser : Closer delimiter close)
    (hcloser' : Closer delimiter close') {content part part' rest rest' : List Char}
    {parts parts' : List Char × List Char} (chunk : Chunk delimiters part)
    (chunk' : Chunk delimiters part') (hheads : part.head? ≠ part'.head?)
    (hlater : ∀ later ∈ delimiters, closes later rest = closes later rest')
    (hrest : closeFirst delimiter rest = some parts) (hrest' : closeFirst delimiter rest' = some parts')
    (hclose : close (content ++ part ++ rest) = some (content ++ part ++ parts.1, parts.2))
    (hclose' : close' (content ++ part' ++ rest') = some (content ++ part' ++ parts'.1, parts'.2)) :
    Parted delimiters (replaceOpenings delimiter tag close (delimiter ++ (content ++ part ++ rest)))
      (replaceOpenings delimiter tag close' (delimiter ++ (content ++ part' ++ rest'))) := by
  have hne := hstage.copied.ne_nil
  obtain ⟨rfl, -⟩ := closeFirst_eq_some hrest
  obtain ⟨rfl, -⟩ := closeFirst_eq_some hrest'
  -- the closings behind the parting are seen alike by the later delimiters
  have hbehind : ∀ later ∈ delimiters,
      closes later (parts.1 ++ ('<' :: '/' :: tag ++ ['>']) ++ replaceOpenings delimiter tag close parts.2) =
        closes later (parts'.1 ++ ('<' :: '/' :: tag ++ ['>']) ++
        replaceOpenings delimiter tag close' parts'.2) := by
    intro later hmem
    have hne' := hstage.ne_nil later hmem
    have hleft := closes_replaceOpenings hstage hcloser hmem parts.2 []
    have hright := closes_replaceOpenings hstage hcloser' hmem parts'.2 []
    rw [List.nil_append, List.nil_append] at hleft hright
    rw [closes_append hstage.closing hmem hne', closes_append hstage.closing hmem hne', hleft, hright,
      ← closes_append hstage.copied hmem hne', ← closes_append hstage.copied hmem hne']
    exact hlater later hmem
  have hparted := Parted.intro ('<' :: tag ++ ['>'] ++ content) chunk chunk' hheads hbehind
  rw [replaceOpenings_closed hne hcloser hclose, replaceOpenings_closed hne hcloser' hclose', tagged_eq,
    tagged_eq]
  simpa only [List.append_assoc] using hparted

/-- **Delimiters** keep the parting. -/
theorem Parted.delimited {delimiter : Delimiter} (hline : '\n' ∉ delimiter.1)
    (hstage : Stage delimiters delimiter.1 tag) (hcloser : Closer delimiter.1 close)
    (hhead : delimiter.1.head? ≠ some '<') {text text' : List Char}
    (h : Parted (delimiter.1 :: delimiters) text text') :
    Parted delimiters (replaceOpenings delimiter.1 tag (closeAt delimiter) text)
      (replaceOpenings delimiter.1 tag close text') := by
  have hne := hstage.copied.ne_nil
  have hcloser' := closer_closeAt hline
  obtain ⟨start, chunk, chunk', hheads, hcloses⟩ := h
  rename_i part part' rest rest'
  have hlater : ∀ later ∈ delimiters, closes later rest = closes later rest' :=
    fun later hmem => hcloses later (List.mem_cons_of_mem _ hmem)
  induction hn : start.length using Nat.strong_induction_on generalizing start with
  | _ n ih =>
    subst hn
    cases hdrop : dropPattern delimiter.1 start with
    | none =>
      cases start with
      | nil =>
        -- the rests begin here
        rw [List.nil_append, List.nil_append, replaceOpenings_chunk hne chunk,
          replaceOpenings_chunk hne chunk']
        refine Parted.intro [] chunk.tail chunk'.tail hheads fun later hmem => ?_
        have hleft := closes_replaceOpenings hstage hcloser' hmem rest []
        have hright := closes_replaceOpenings hstage hcloser hmem rest' []
        rw [List.nil_append, List.nil_append] at hleft hright
        rw [hleft, hright, hlater later hmem]
      | cons c start =>
        have hcross := chunk.cross List.mem_cons_self (c :: start) rest
        have hcross' := chunk'.cross List.mem_cons_self (c :: start) rest'
        rw [hdrop] at hcross hcross'
        have hparted := ih start.length (Nat.lt_succ_self _) start rfl
        have hcopy : replaceOpenings delimiter.1 tag (closeAt delimiter) (c :: (start ++ part ++ rest)) = _ :=
          replaceOpenings_cons hcross tag
        have hcopy' : replaceOpenings delimiter.1 tag close (c :: (start ++ part' ++ rest')) = _ :=
          replaceOpenings_cons hcross' tag
        rw [List.cons_append, List.cons_append, List.cons_append, List.cons_append, hcopy, hcopy']
        exact hparted.append [c]
    | some content =>
      obtain rfl := dropPattern_eq_some.mp hdrop
      have hpos := List.length_pos_iff.mpr hne
      have hcopied : closeAt delimiter (content ++ part ++ rest) = none →
          close (content ++ part' ++ rest') = none → Parted delimiters
            (replaceOpenings delimiter.1 tag (closeAt delimiter) (delimiter.1 ++ (content ++ part ++ rest)))
            (replaceOpenings delimiter.1 tag close (delimiter.1 ++ (content ++ part' ++ rest'))) := by
        intro hnone hnone'
        have hlength : content.length < (delimiter.1 ++ content).length := by
          rw [List.length_append]
          omega
        rw [replaceOpenings_unclosed hne hcloser' hnone, replaceOpenings_unclosed hne hcloser hnone']
        exact (ih content.length hlength content rfl).append delimiter.1
      have hcross := chunk.cross List.mem_cons_self content rest
      have hcross' := chunk'.cross List.mem_cons_self content rest'
      rw [List.append_assoc, List.append_assoc, List.append_assoc, List.append_assoc,
        ← List.append_assoc content, ← List.append_assoc content]
      cases hcontent : dropPattern delimiter.1 content with
      | some after =>
        -- the delimiter stands twice in a row
        have hnone : closeAt delimiter (content ++ part ++ rest) = none := by
          rw [closeAt_eq hline, hcross, hcontent]
          rfl
        cases hclose : close (content ++ part' ++ rest') with
        | none => exact hcopied hnone hclose
        | some parts =>
          refine parted_of_doubled hline hstage hcloser hhead hnone hclose fun later hmem => ?_
          have hne' := hstage.ne_nil later hmem
          rw [closes_append chunk.tail hmem hne', closes_append chunk'.tail hmem hne', hlater later hmem]
      | none =>
        rw [hcontent] at hcross hcross'
        have hfirst := closeFirst_append chunk List.mem_cons_self hne content rest
        have hfirst' := closeFirst_append chunk' List.mem_cons_self hne content rest'
        rw [← hcloser'.eq_first _ hcross] at hfirst
        rw [← hcloser.eq_first _ hcross'] at hfirst'
        cases hbefore : closeFirst delimiter.1 content with
        | some parts =>
          rw [hbefore] at hfirst hfirst'
          obtain ⟨rfl, -⟩ := closeFirst_eq_some hbefore
          have hlength : parts.2.length < (delimiter.1 ++ (parts.1 ++ delimiter.1 ++ parts.2)).length := by
            simp only [List.length_append]
            omega
          rw [replaceOpenings_closed hne hcloser' hfirst, replaceOpenings_closed hne hcloser hfirst']
          exact (ih parts.2.length hlength parts.2 rfl).append _
        | none =>
          rw [hbefore] at hfirst hfirst'
          dsimp only at hfirst hfirst'
          split at hfirst
          · rename_i hmem
            rw [if_pos hmem] at hfirst'
            exact hcopied hfirst hfirst'
          · rename_i hmem
            rw [if_neg hmem] at hfirst'
            have hcloses' := hcloses delimiter.1 List.mem_cons_self
            unfold closes at hcloses'
            cases hrest : closeFirst delimiter.1 rest with
            | none =>
              rw [hrest, Option.isSome_none, eq_comm, Option.isSome_eq_false_iff,
                Option.isNone_iff_eq_none] at hcloses'
              rw [hrest] at hfirst
              rw [hcloses'] at hfirst'
              exact hcopied hfirst hfirst'
            | some parts =>
              rw [hrest, Option.isSome_some, eq_comm, Option.isSome_iff_exists] at hcloses'
              obtain ⟨parts', hrest'⟩ := hcloses'
              rw [hrest] at hfirst
              rw [hrest'] at hfirst'
              exact parted_of_behind hstage hcloser' hcloser chunk.tail chunk'.tail hheads hlater hrest hrest'
                hfirst hfirst'

/-- The opening that the programs end differently: the delimiter stands twice in a row, and once more
    behind. -/
def Doubled (delimiter content : List Char) : Prop :=
  (dropPattern delimiter content).isSome = true ∧ (closeLater delimiter content).isSome = true

/-- Openings of the renderer in a text. -/
def openings (delimiter : Delimiter) (text : List Char) : List Opening :=
  found (delimiterStep delimiter.1 (closeAt delimiter)) text

/-- **Bold** agrees unless an opening is doubled; otherwise it parts the texts. -/
theorem openings_compared {delimiter : Delimiter} (hline : '\n' ∉ delimiter.1)
    (hstage : Stage delimiters delimiter.1 tag) (hhead : delimiter.1.head? ≠ some '<') (text : List Char) :
    (replaceOpenings delimiter.1 tag (closeAt delimiter) text =
        replaceOpenings delimiter.1 tag (closeLater delimiter.1) text ∧
      ∀ opening ∈ openings delimiter text, ¬ Doubled delimiter.1 opening.1) ∨
    (Parted delimiters (replaceOpenings delimiter.1 tag (closeAt delimiter) text)
        (replaceOpenings delimiter.1 tag (closeLater delimiter.1) text) ∧
      ∃ opening ∈ openings delimiter text, Doubled delimiter.1 opening.1) := by
  have hne := hstage.copied.ne_nil
  have hat := closer_closeAt hline
  have hlater := closer_later delimiter.1
  have hconsumes := consumes_delimiterStep hne hat
  -- the two agree until an opening stands twice; from the first such one on they are parted
  induction text using openings_induction hne hat with
  | nil =>
    refine Or.inl ⟨by rw [replaceOpenings_nil hne hat, replaceOpenings_nil hne hlater], ?_⟩
    rw [openings, found_nil hconsumes]
    exact fun _ h => absurd h List.not_mem_nil
  | copy c rest h ih =>
    have hopenings : openings delimiter (c :: rest) = openings delimiter rest :=
      found_of_none (delimiterStep_of_none h)
    rw [hopenings, replaceOpenings_cons h, replaceOpenings_cons h]
    exact ih.imp (fun ⟨heq, hall⟩ => ⟨congrArg _ heq, hall⟩) fun ⟨hparted, hex⟩ => ⟨hparted.append [c], hex⟩
  | unclosed content hclose ih =>
    have hopenings :
        openings delimiter (delimiter.1 ++ content) = (content, none) :: openings delimiter content :=
      found_of_some hconsumes (delimiterStep_unclosed hclose)
    rw [hopenings]
    cases hclose' : closeLater delimiter.1 content with
    | some parts =>
      -- only a doubled opening is closed by the reference and not by the code
      have hdrop : (dropPattern delimiter.1 content).isSome = true := by
        rw [Option.isSome_iff_ne_none]
        intro hdrop
        rw [hat.eq_first content hdrop, ← hlater.eq_first content hdrop, hclose'] at hclose
        cases hclose
      refine Or.inr ⟨parted_of_doubled hline hstage hlater hhead hclose hclose' fun _ _ => rfl, _,
        List.mem_cons_self, hdrop, ?_⟩
      rw [hclose']
      rfl
    | none =>
      have hsingle : ¬ Doubled delimiter.1 content := by
        rintro ⟨-, h⟩
        rw [hclose'] at h
        cases h
      rw [replaceOpenings_unclosed hne hat hclose, replaceOpenings_unclosed hne hlater hclose']
      refine ih.imp (fun ⟨heq, hall⟩ => ⟨congrArg _ heq, ?_⟩) fun ⟨hparted, opening, hmem, h⟩ =>
        ⟨hparted.append _, opening, List.mem_cons_of_mem _ hmem, h⟩
      exact List.forall_mem_cons.mpr ⟨hsingle, hall⟩
  | closed content body after hclose ih =>
    have hopenings :
        openings delimiter (delimiter.1 ++ content) = (content, some body) :: openings delimiter after :=
      found_of_some hconsumes (delimiterStep_closed hclose)
    have hdrop : dropPattern delimiter.1 content = none := by
      rw [← Option.not_isSome_iff_eq_none]
      intro hdrop
      rw [closeAt_eq hline, if_pos hdrop] at hclose
      cases hclose
    have hclose' : closeLater delimiter.1 content = some (body, after) := by
      rw [hlater.eq_first content hdrop, ← hat.eq_first content hdrop, hclose]
    have hsingle : ¬ Doubled delimiter.1 content := by
      rintro ⟨h, -⟩
      rw [hdrop] at h
      cases h
    rw [hopenings, replaceOpenings_closed hne hat hclose, replaceOpenings_closed hne hlater hclose']
    refine ih.imp (fun ⟨heq, hall⟩ => ⟨congrArg _ heq, ?_⟩) fun ⟨hparted, opening, hmem, h⟩ =>
      ⟨hparted.append _, opening, List.mem_cons_of_mem _ hmem, h⟩
    exact List.forall_mem_cons.mpr ⟨hsingle, hall⟩

end

/-! ## Links -/

/-- The delimiters of the stages behind the links. -/
def delimiters : List (List Char) := [['*', '*'], ['_', '_'], [tick]]

/-- A text of characters that no later stage looks for. -/
theorem chunk_of_chars {later : List (List Char)} {c : Char} {part : List Char}
    (hhead : c ≠ '_' ∧ c.isAlphanum = false)
    (hchars : ((c :: part).all fun d => d != '\n' && d != '@' && later.all (!·.contains d)) = true) :
    Chunk later (c :: part) := by
  have hchars : ∀ d ∈ c :: part, d ≠ '\n' ∧ d ≠ '@' ∧ ∀ delimiter ∈ later, d ∉ delimiter := by
    intro d hd
    simpa [and_assoc] using List.all_eq_true.mp hchars d hd
  refine ⟨List.cons_ne_nil c part, fun h => (hchars _ h).1 rfl,
    fun delimiter hmem d hd => (hchars d hd).2.2 delimiter hmem, fun h => (hchars _ h).2.1 rfl, ?_⟩
  · intro idx text rest
    have hc : c ∉ placeholder idx := by
      intro hmem
      rcases mem_placeholder hmem with h | h | h
      · exact (hchars c List.mem_cons_self).2.1 h
      · exact hhead.1 h
      · rw [hhead.2] at h
        cases h
    have h := dropPattern_append_cons hc text (part ++ rest)
    simpa only [List.append_assoc, List.cons_append] using h

/-- The stage of the underscores copies its own delimiter where it is not closed; that is a part which the
    ticks and the last loop leave alone. -/
theorem chunk_underscores : Chunk [[tick]] underscores.1 where
  ne_nil := underscores.2
  line := by decide
  foreign := by
    intro delimiter hdelimiter c hc
    rw [List.mem_singleton.mp hdelimiter, List.mem_singleton]
    rintro rfl
    exact absurd hc (by decide)
  noAt := by decide
  placeholder := by
    intro idx text rest
    -- a placeholder behind the text is either whole in it or does not reach over its end
    cases hdrop : dropPattern (placeholder idx) text with
    | some after =>
      refine dropPattern_eq_some.mpr ?_
      rw [dropPattern_eq_some.mp hdrop]
      simp only [List.append_assoc]
    | none =>
      refine Option.eq_none_iff_forall_ne_some.mpr fun after hafter => ?_
      have hsplit := dropPattern_eq_some.mp hafter
      rw [List.append_assoc] at hsplit
      rcases List.append_eq_append_iff.mp hsplit with ⟨more, hpattern, hmore⟩ | ⟨behind, rfl, -⟩
      · -- the placeholder would end in an underscore, or hold two in a row
        have hchain := placeholder_isChain idx
        have hend : ∃ before, placeholder idx = before ++ ['@'] := by
          rw [placeholder_eq]
          exact ⟨"@@TG_CODEBLOCK_".toList ++ Nat.toDigits 10 idx ++ ['@'], by simp⟩
        obtain ⟨before, hend⟩ := hend
        cases more with
        | nil =>
          rw [List.append_nil] at hpattern
          rw [hpattern] at hdrop
          have hwhole := dropPattern_append text []
          rw [List.append_nil, hdrop] at hwhole
          cases hwhole
        | cons a more =>
          obtain ⟨ha, hmore⟩ := List.cons.inj hmore
          cases more with
          | nil =>
            rw [hpattern] at hend
            have hlast := (List.append_inj_right' hend rfl)
            rw [← ha] at hlast
            cases hlast
          | cons b more =>
            obtain ⟨hb, -⟩ := List.cons.inj hmore
            rw [hpattern, ← ha, ← hb, List.isChain_append_cons_cons] at hchain
            exact hchain.2.1 ⟨rfl, rfl⟩
      · rw [dropPattern_append] at hdrop
        cases hdrop

/-- The asterisks' stage leaves underscores and ticks where they are. -/
theorem stage_asterisks : Stage [['_', '_'], [tick]] asterisks.1 ['b'] where
  copied := chunk_of_chars (by decide) (by decide)
  opening := chunk_of_chars (by decide) (by decide)
  closing := chunk_of_chars (by decide) (by decide)
  ne_nil := by decide

/-- The underscores' stage leaves ticks where they are. -/
theorem stage_underscores : Stage [[tick]] underscores.1 ['b'] where
  copied := chunk_underscores
  opening := chunk_of_chars (by decide) (by decide)
  closing := chunk_of_chars (by decide) (by decide)
  ne_nil := by decide

/-- Nothing comes behind the stage of the ticks but the last loop. -/
theorem stage_backtick : Stage [] backtick.1 "code".toList where
  copied := chunk_of_chars (by decide) (by decide)
  opening := chunk_of_chars (by decide) (by decide)
  closing := chunk_of_chars (by decide) (by decide)
  ne_nil := by decide

/-- The text starts at the end of a line. -/
def EndsLine (text : List Char) : Prop := text = [] ∨ ∃ rest, text = '\n' :: rest

/-- The texts behind the headings: one line after the other is the same, or an empty heading in the renderer's
    text and the line itself in the reference's. -/
inductive Alike : List Char → List Char → Prop
  | nil : Alike [] []
  | cons (c : Char) {text text' : List Char} : Alike text text' → Alike (c :: text) (c :: text')
  | line {line text text' : List Char} : BareHeading line → '\n' ∉ line → EndsLine text → Alike text text' →
    Alike ('\n' :: (tagged ['b'] [] ++ text)) ('\n' :: (line ++ text'))

/-- A bare heading is white space and hashes. -/
theorem BareHeading.mem {line : List Char} (h : BareHeading line) {c : Char} (hc : c ∈ line) :
    isWhitespace c = true ∨ c = '#' := by
  obtain ⟨indent, hashes, space, rfl, ⟨-, hindent⟩, ⟨-, -, hhashes⟩, hspace⟩ := h
  rw [List.mem_append, List.mem_append, List.mem_singleton] at hc
  rcases hc with (hc | hc) | rfl
  · exact Or.inl (hindent c hc)
  · exact Or.inr (hhashes c hc)
  · exact Or.inl hspace

/-- The renderer's empty heading is left where it is by all later stages. -/
theorem chunk_emptyHeading : Chunk delimiters (tagged ['b'] []) := chunk_of_chars (by decide) (by decide)

/-- So is the bare line in the reference's text. -/
theorem BareHeading.chunk {line : List Char} (h : BareHeading line) (hline : '\n' ∉ line) :
    Chunk delimiters line := by
  have hne : line ≠ [] := by
    obtain ⟨indent, hashes, space, rfl, -⟩ := h
    simp
  have hother : ∀ {c d : Char}, c ∈ line → isWhitespace d = false → d ≠ '#' → c ≠ d := by
    rintro c d hc hspace hhash rfl
    rcases h.mem hc with h | h
    · rw [h] at hspace
      cases hspace
    · exact hhash h
  obtain ⟨c, part, rfl⟩ := List.exists_cons_of_ne_nil hne
  refine chunk_of_chars ⟨hother List.mem_cons_self (by decide) (by decide), ?_⟩ (List.all_eq_true.mpr ?_)
  · rcases h.mem List.mem_cons_self with h | rfl
    · exact isAlphanum_of_whitespace h
    · decide
  · intro d hd
    have h1 : d ≠ '\n' := fun h => hline (h ▸ hd)
    have h2 := hother hd (d := '@') (by decide) (by decide)
    have h3 := hother hd (d := '*') (by decide) (by decide)
    have h4 := hother hd (d := '_') (by decide) (by decide)
    have h5 := hother hd (d := tick) (by decide) (by decide)
    simp [h1, h2, h3, h4, h5, delimiters]

/-- The two begin with different characters, so the texts are told apart there. -/
theorem BareHeading.head_ne {line : List Char} (h : BareHeading line) :
    (tagged ['b'] []).head? ≠ line.head? := by
  intro heq
  have hmem : '<' ∈ line := List.mem_of_head? (heq.symm.trans rfl)
  rcases h.mem hmem with h | h
  · cases h
  · cases h

/-- The texts differ at most behind a newline. -/
theorem Alike.firstLine {text text' : List Char} (h : Alike text text') :
    text = text' ∨ ∃ first rest rest', text = first ++ '\n' :: rest ∧ text' = first ++ '\n' :: rest' := by
  induction h with
  | nil => exact Or.inl rfl
  | cons c _ ih =>
    rcases ih with rfl | ⟨first, rest, rest', rfl, rfl⟩
    · exact Or.inl rfl
    · exact Or.inr ⟨c :: first, rest, rest', rfl, rfl⟩
  | line _ _ _ _ _ => exact Or.inr ⟨[], _, _, rfl, rfl⟩

/-- Of two texts that are alike, both are empty or none is. -/
theorem Alike.isEmpty {text text' : List Char} (h : Alike text text') : text.isEmpty = text'.isEmpty := by
  cases h <;> rfl

/-- Both have a newline or none has. -/
theorem Alike.newline {text text' : List Char} (h : Alike text text') : '\n' ∈ text ↔ '\n' ∈ text' := by
  rcases h.firstLine with rfl | ⟨first, rest, rest', rfl, rfl⟩
  · exact Iff.rfl
  · simp

/-- The separators of a link: neither of them is in a heading. -/
structure Separator (separator : Char) : Prop where
  space : isWhitespace separator = false
  hash : separator ≠ '#'
  tag : separator ∉ tagged ['b'] []

/-- A separator that is in no heading is found in both or in none, with alike texts on both sides. -/
theorem Alike.splitOnce {text text' : List Char} (h : Alike text text') {separator : Char}
    (hsep : Separator separator) :
    (splitOnce text separator = none ∧ splitOnce text' separator = none) ∨
    ∃ before before' after after', splitOnce text separator = some (before, after) ∧
      splitOnce text' separator = some (before', after') ∧ Alike before before' ∧ Alike after after' := by
  have hnewline : separator ≠ '\n' := by
    rintro rfl
    cases hsep.space
  induction h with
  | nil => exact Or.inl ⟨rfl, rfl⟩
  | @cons c text text' h ih =>
    rw [splitOnce_cons, splitOnce_cons]
    by_cases hc : c = separator
    · rw [if_pos hc, if_pos hc]
      exact Or.inr ⟨[], [], text, text', rfl, rfl, Alike.nil, h⟩
    · rw [if_neg hc, if_neg hc]
      rcases ih with ⟨hnone, hnone'⟩ | ⟨before, before', after, after', hsome, hsome', hbefore, hafter⟩
      · exact Or.inl ⟨by rw [hnone]; rfl, by rw [hnone']; rfl⟩
      · exact Or.inr ⟨c :: before, c :: before', after, after', by rw [hsome]; rfl, by rw [hsome']; rfl,
          Alike.cons c hbefore, hafter⟩
  | @line heading text text' hbare hline hend h ih =>
    have hstart : separator ∉ '\n' :: tagged ['b'] [] := by
      rw [List.mem_cons]
      exact not_or.mpr ⟨hnewline, hsep.tag⟩
    have hstart' : separator ∉ '\n' :: heading := by
      rw [List.mem_cons]
      refine not_or.mpr ⟨hnewline, fun hmem => ?_⟩
      rcases hbare.mem hmem with h | h
      · rw [hsep.space] at h
        cases h
      · exact hsep.hash h
    rw [← List.cons_append, ← List.cons_append, splitOnce_append hstart, splitOnce_append hstart']
    rcases ih with ⟨hnone, hnone'⟩ | ⟨before, before', after, after', hsome, hsome', hbefore, hafter⟩
    · exact Or.inl ⟨by rw [hnone]; rfl, by rw [hnone']; rfl⟩
    · refine Or.inr ⟨_, _, after, after', by rw [hsome]; rfl, by rw [hsome']; rfl, ?_, hafter⟩
      refine Alike.line hbare hline ?_ hbefore
      -- what stands before the separator ends the line as well
      rcases hend with rfl | ⟨rest, rfl⟩
      · cases hsome
      · rw [splitOnce_cons, if_neg (Ne.symm hnewline)] at hsome
        obtain ⟨parts, -, heq⟩ := Option.map_eq_some_iff.mp hsome
        cases heq
        exact Or.inr ⟨parts.1, rfl⟩

/-- So the parts of a link are found in both or in none, with labels, URLs and rests that are alike. -/
theorem Alike.linkParts_alike {text text' : List Char} (h : Alike text text') :
    (linkParts text = none ∧ linkParts text' = none) ∨
    ∃ label label' url url' after after', linkParts text = some ((label, url), after) ∧
      linkParts text' = some ((label', url'), after') ∧ Alike label label' ∧ Alike url url' ∧
      Alike after after' := by
  have hbracket : Separator ']' := ⟨by decide, by decide, by decide⟩
  have hparenthesis : Separator ')' := ⟨by decide, by decide, by decide⟩
  unfold linkParts
  rcases h.splitOnce hbracket with
    ⟨hnone, hnone'⟩ | ⟨label, label', rest, rest', hsome, hsome', hlabel, hrest⟩
  · exact Or.inl ⟨by rw [hnone]; rfl, by rw [hnone']; rfl⟩
  rw [hsome, hsome', Option.bind_some, Option.bind_some]
  dsimp only
  have hopen : (stripPrefix rest ['('] = none ∧ stripPrefix rest' ['('] = none) ∨
      ∃ urls urls', stripPrefix rest ['('] = some urls ∧ stripPrefix rest' ['('] = some urls' ∧
      Alike urls urls' := by
    cases hrest with
    | nil => exact Or.inl ⟨rfl, rfl⟩
    | @cons c text text' h =>
      by_cases hc : c = '('
      · subst hc
        exact Or.inr ⟨text, text', stripPrefix_eq_some.mpr rfl, stripPrefix_eq_some.mpr rfl, h⟩
      · exact Or.inl ⟨dropPattern_cons_ne hc [] text, dropPattern_cons_ne hc [] text'⟩
    | line _ _ _ _ =>
      exact Or.inl ⟨dropPattern_cons_ne (by decide) [] _, dropPattern_cons_ne (by decide) [] _⟩
  rcases hopen with ⟨hnone, hnone'⟩ | ⟨urls, urls', hsome, hsome', hurls⟩
  · exact Or.inl ⟨by rw [hnone]; rfl, by rw [hnone']; rfl⟩
  rw [hsome, hsome', Option.bind_some, Option.bind_some]
  rcases hurls.splitOnce hparenthesis with
    ⟨hnone, hnone'⟩ | ⟨url, url', after, after', hsome, hsome', hurl, hafter⟩
  · exact Or.inl ⟨by rw [hnone]; rfl, by rw [hnone']; rfl⟩
  · refine Or.inr ⟨label, label', url, url', after, after', ?_, ?_, hlabel, hurl, hafter⟩
    · rw [hsome]; rfl
    · rw [hsome']; rfl

/-- On texts that are alike, the reference decides the same of a link. -/
theorem Alike.isReferenceLink_eq {label label' url url' : List Char} (hlabel : Alike label label')
    (hurl : Alike url url') : isReferenceLink (label', url') = isReferenceLink (label, url) := by
  have hnewline : ∀ {url : List Char}, '\n' ∈ url → ∀ label, isReferenceLink (label, url) = false := by
    intro url hmem label
    rw [isReferenceLink, Bool.and_eq_false_iff]
    refine Or.inr ?_
    cases hparts : scheme url with
    | none => rfl
    | some parts =>
      obtain ⟨rfl, hstart⟩ := scheme_eq_some hparts
      have hrest : '\n' ∈ parts.2 := by
        refine (List.mem_append.mp hmem).resolve_left ?_
        rcases hstart with h | h <;> rw [h] <;> decide
      have hall : parts.2.all (!Reference.isSpace ·) = false := by
        rw [List.all_eq_false]
        exact ⟨'\n', hrest, by decide⟩
      rw [Option.any_some, hall, Bool.and_false]
  by_cases hmem : '\n' ∈ url
  · rw [hnewline hmem, hnewline (hurl.newline.mp hmem)]
  · rcases hurl.firstLine with rfl | ⟨first, rest, rest', rfl, rfl⟩
    · rw [isReferenceLink, isReferenceLink, hlabel.isEmpty]
    · exact absurd (by simp) hmem

/-- A URL that a link is accepted for stands on one line. -/
theorem Alike.url_eq {label url url' : List Char} (hurl : Alike url url') (h : isLink (label, url) = true) :
    url = url' := by
  rcases hurl.firstLine with rfl | ⟨first, rest, rest', rfl, rfl⟩
  · rfl
  · have hany : (first ++ '\n' :: rest).any isWhitespace = true :=
      List.any_eq_true.mpr ⟨'\n', by simp, by decide⟩
    rw [isLink, hany, Bool.not_true, Bool.and_false] at h
    cases h

/-- What the reference makes of a bracket that it accepts no link behind. -/
theorem substitute_bare {label url : List Char} (hlabel : ']' ∉ label) (hurl : ')' ∉ url)
    (hbare : bareUrl url = true) (after : List Char) :
    substitute (linkStep isReferenceLink) renderLink
        ('[' :: (label ++ ']' :: '(' :: (url ++ ')' :: after))) =
      '[' :: (label ++ ']' :: '(' :: (url ++ ')' ::
        substitute (linkStep isReferenceLink) renderLink after)) := by
  have hreject : ∀ label, isReferenceLink (label, url) = false := by
    intro label
    rw [Bool.eq_false_iff]
    intro h
    rw [not_bareUrl h] at hbare
    cases hbare
  have hbracket : ∀ label, ']' ∉ label →
      linkStep isReferenceLink ('[' :: (label ++ ']' :: '(' :: (url ++ ')' :: after))) = none := by
    intro label hlabel
    rw [linkStep, show dropPattern ['['] ('[' :: (label ++ ']' :: '(' :: (url ++ ')' :: after))) =
      some (label ++ ']' :: '(' :: (url ++ ')' :: after)) from dropPattern_append ['['] _, Option.bind_some,
      linkParts_eq_some.mpr ⟨rfl, hlabel, hurl⟩, Option.bind_some, hreject]
    rfl
  have hrest : substitute (linkStep isReferenceLink) renderLink (']' :: '(' :: (url ++ ')' :: after)) =
      ']' :: '(' :: (url ++ ')' :: substitute (linkStep isReferenceLink) renderLink after) := by
    have hcopied := @substitute_copied Char (List Char × List Char) (linkStep isReferenceLink) renderLink
      (']' :: '(' :: (url ++ [')'])) ?_ after
    · simpa using hcopied
    · intro c hc rest
      refine linkStep_of_none (dropPattern_cons_ne ?_ [] rest)
      rintro rfl
      rw [bareUrl, Bool.or_eq_true, beq_iff_eq, beq_iff_eq] at hbare
      rcases hbare with rfl | rfl
      · exact absurd hc (by decide)
      · exact absurd hc (by decide)
  have hall : ∀ label, ']' ∉ label →
      substitute (linkStep isReferenceLink) renderLink (label ++ ']' :: '(' :: (url ++ ')' :: after)) =
        label ++ ']' :: '(' :: (url ++ ')' :: substitute (linkStep isReferenceLink) renderLink after) := by
    intro label
    induction label with
    | nil => exact fun _ => hrest
    | cons c label ih =>
      intro hlabel
      have hlabel' : ']' ∉ label := fun h => hlabel (List.mem_cons_of_mem _ h)
      have hnone : linkStep isReferenceLink (c :: (label ++ ']' :: '(' :: (url ++ ')' :: after))) = none := by
        by_cases hc : c = '['
        · rw [hc]
          exact hbracket label hlabel'
        · exact linkStep_of_none (dropPattern_cons_ne hc [] _)
      rw [List.cons_append, substitute_of_none hnone, ih hlabel', List.cons_append]
  rw [substitute_of_none (hbracket label hlabel), hall label hlabel]

/-- At an opening bracket a link is decided by its parts and the test. -/
theorem linkStep_bracket (accepts : List Char × List Char → Bool) (labelStart : List Char) :
    linkStep accepts ('[' :: labelStart) =
      (linkParts labelStart).bind fun found => if accepts found.1 then some found else none := by
  rw [linkStep, show dropPattern ['['] ('[' :: labelStart) =
    some labelStart from dropPattern_append ['['] labelStart,
    Option.bind_some]

/-- The induction along two texts that are alike, with what the programs do at their heads. -/
theorem Alike.scan {motive : List Char → List Char → Prop} (nil : motive [] [])
    (copy : ∀ c text text', linkStep isLink (c :: text) = none →
      linkStep isReferenceLink (c :: text') = none →
      motive text text' → motive (c :: text) (c :: text'))
    (link : ∀ text text' label label' url after after', linkStep isLink text = some ((label, url), after) →
      linkStep isReferenceLink text' = some ((label', url), after') → Alike label label' →
      bareUrl url = false →
      Alike after after' → SameSpace after → motive after after' → motive text text')
    (bare : ∀ label label' url after after', bareUrl url = true → ']' ∉ label' → ')' ∉ url →
      linkStep isLink ('[' :: (label ++ ']' :: '(' :: (url ++ ')' :: after))) = some ((label, url), after) →
      Alike label label' → Alike after after' → SameSpace after → motive after after' →
      motive ('[' :: (label ++ ']' :: '(' :: (url ++ ')' :: after)))
        ('[' :: (label' ++ ']' :: '(' :: (url ++ ')' :: after'))))
    (line : ∀ heading text text', BareHeading heading → '\n' ∉ heading → EndsLine text → EndsLine text' →
      motive ('\n' :: (tagged ['b'] [] ++ text)) ('\n' :: (heading ++ text')))
    {text text' : List Char} (h : Alike text text') (hsame : SameSpace text) : motive text text' := by
  -- a link consumes more than its bracket, so the induction is on the length
  induction hn : text.length using Nat.strong_induction_on generalizing text text' with
  | _ n ih =>
    subst hn
    cases h with
    | nil => exact nil
    | @cons c text text' h =>
      have hrest :=
        ih text.length (Nat.lt_succ_self _) h (hsame.sublist fun d hd => List.mem_cons_of_mem c hd) rfl
      by_cases hc : c = '['
      · subst hc
        rcases h.linkParts_alike with
          ⟨hnone, hnone'⟩ | ⟨label, label', url, url', after, after', hsome, hsome', hlabel, hurl, hafter⟩
        · exact copy _ _ _ (by rw [linkStep_bracket, hnone]; rfl) (by rw [linkStep_bracket, hnone']; rfl)
            hrest
        obtain ⟨rfl, hnolabel, hnourl⟩ := linkParts_eq_some.mp hsome
        obtain ⟨rfl, hnolabel', hnourl'⟩ := linkParts_eq_some.mp hsome'
        have hsameUrl : SameSpace url := hsame.sublist fun d hd => by simp [hd]
        have hsameAfter : SameSpace after := hsame.sublist fun d hd => by simp [hd]
        have hreference := hlabel.isReferenceLink_eq hurl
        have hiff := @isLink_iff (label, url) hsameUrl
        have hmore := ih after.length (by simp only [List.length_cons, List.length_append]; omega) hafter
          hsameAfter rfl
        -- the reference accepts what the code accepts, but for the bare addresses
        cases hlink : isLink (label, url) with
        | false =>
          have hfalse : isReferenceLink (label, url) = false := by
            rw [Bool.eq_false_iff]
            intro htrue
            rw [hiff.mpr (Or.inl htrue)] at hlink
            cases hlink
          refine copy _ _ _ ?_ ?_ hrest
          · rw [linkStep_bracket, hsome, Option.bind_some, hlink]
            rfl
          · rw [linkStep_bracket, hsome', Option.bind_some, hreference, hfalse]
            rfl
        | true =>
          obtain rfl := hurl.url_eq hlink
          have hstep : linkStep isLink ('[' :: (label ++ ']' :: '(' :: (url ++ ')' :: after))) =
              some ((label, url), after) := by
            rw [linkStep_bracket, hsome, Option.bind_some, if_pos hlink]
          rcases hiff.mp hlink with htrue | ⟨-, hbare⟩
          · refine link _ _ label label' url after after' hstep ?_ hlabel (not_bareUrl htrue) hafter
              hsameAfter hmore
            rw [linkStep_bracket, hsome', Option.bind_some, if_pos (hreference.trans htrue)]
          · exact bare label label' url after after' hbare hnolabel' hnourl hstep hlabel hafter hsameAfter
              hmore
      · exact copy c text text' (linkStep_of_none (dropPattern_cons_ne hc [] _))
          (linkStep_of_none (dropPattern_cons_ne hc [] _)) hrest
    | @line heading text text' hbare hline hend h =>
      refine line heading text text' hbare hline hend ?_
      rcases hend with rfl | ⟨rest, rfl⟩
      · cases h
        exact Or.inl rfl
      · cases h with
        | cons _ _ => exact Or.inr ⟨_, rfl⟩
        | line _ _ _ _ => exact Or.inr ⟨_, rfl⟩

/-- None of the three delimiters is empty. -/
theorem delimiters_ne_nil {delimiter : List Char} (h : delimiter ∈ delimiters) : delimiter ≠ [] := by
  rintro rfl
  exact absurd h (by decide)

/-- None has a newline in it. -/
theorem newline_not_mem {delimiter : List Char} (h : delimiter ∈ delimiters) : '\n' ∉ delimiter := by
  intro hmem
  simp only [delimiters, List.mem_cons, List.not_mem_nil, or_false] at h
  rcases h with rfl | rfl | rfl <;> exact absurd hmem (by decide)

/-- Between the same texts, labels that are alike make no difference to whether a delimiter is found. -/
theorem closes_alike {delimiter label label' : List Char} (hmem : delimiter ∈ delimiters)
    (h : Alike label label') (start rest : List Char) :
    closes delimiter (start ++ label ++ rest) = closes delimiter (start ++ label' ++ rest) := by
  rcases h.firstLine with rfl | ⟨first, behind, behind', rfl, rfl⟩
  · rfl
  · have hnewline := closes_newline (delimiters_ne_nil hmem) (newline_not_mem hmem) (start ++ first)
    have h1 := hnewline (behind ++ rest)
    have h2 := hnewline (behind' ++ rest)
    simp only [List.append_assoc, List.cons_append] at h1 h2 ⊢
    rw [h1, h2]

/-- Text without a bracket is copied. -/
theorem substitute_links_copied (accepts : List Char × List Char → Bool) {copied : List Char}
    (h : '[' ∉ copied) (rest : List Char) : substitute (linkStep accepts) renderLink (copied ++ rest) =
      copied ++ substitute (linkStep accepts) renderLink rest := by
  refine substitute_copied (fun c hc rest => linkStep_of_none (dropPattern_cons_ne ?_ [] rest)) rest
  rintro rfl
  exact h hc

/-- The links' stage copies the renderer's empty heading. -/
theorem substitute_emptyHeading (text : List Char) :
    substitute (linkStep isLink) renderLink ('\n' :: (tagged ['b'] [] ++ text)) =
      ['\n'] ++ tagged ['b'] [] ++ substitute (linkStep isLink) renderLink text :=
  @substitute_links_copied isLink ('\n' :: tagged ['b'] []) (by decide) text

/-- It copies the bare line in the reference's text, which has no bracket. -/
theorem substitute_bareHeading {heading : List Char} (h : BareHeading heading) (text : List Char) :
    substitute (linkStep isReferenceLink) renderLink ('\n' :: (heading ++ text)) =
      ['\n'] ++ heading ++ substitute (linkStep isReferenceLink) renderLink text := by
  refine @substitute_links_copied isReferenceLink ('\n' :: heading) ?_ text
  intro hmem
  rcases (List.mem_cons.mp hmem).resolve_left (by decide) |> h.mem with h | h
  · cases h
  · cases h

/-- What stands before a link's label, and behind it. -/
def openLink (url : List Char) : List Char := "<a href=\"".toList ++ url ++ "\">".toList

/-- What a link ends with. -/
def closeLink : List Char := "</a>".toList

/-- A rendered link is its label between two parts. -/
theorem renderLink_eq (label url : List Char) :
    renderLink (label, url) = openLink url ++ label ++ closeLink := by
  dsimp only [renderLink, openLink, closeLink]

/-- With a bare URL, the first of them is left where it is by the later stages. -/
theorem chunk_openLink {url : List Char} (hbare : bareUrl url = true) :
    Chunk delimiters (openLink url) := by
  rw [bareUrl, Bool.or_eq_true, beq_iff_eq, beq_iff_eq] at hbare
  rcases hbare with rfl | rfl
  · exact chunk_of_chars (c := '<') (by decide) (by decide)
  · exact chunk_of_chars (c := '<') (by decide) (by decide)

/-- So is the URL with its parentheses, which the reference copies. -/
theorem chunk_bareLink {url : List Char} (hbare : bareUrl url = true) :
    Chunk delimiters ("](".toList ++ url ++ [')']) := by
  rw [bareUrl, Bool.or_eq_true, beq_iff_eq, beq_iff_eq] at hbare
  rcases hbare with rfl | rfl
  · exact chunk_of_chars (c := ']') (by decide) (by decide)
  · exact chunk_of_chars (c := ']') (by decide) (by decide)

/-- And so is the closing tag. -/
theorem chunk_closeLink : Chunk delimiters closeLink := chunk_of_chars (c := '<') (by decide) (by decide)

/-- The reference also copies the opening bracket, which no later stage looks for. -/
theorem chunk_bracket : Chunk delimiters ['['] := chunk_of_chars (by decide) (by decide)

/-- The two texts with their links. -/
theorem closes_links {delimiter : List Char} (hmem : delimiter ∈ delimiters) {text text' : List Char}
    (h : Alike text text') (hsame : SameSpace text) : ∀ start,
    closes delimiter (start ++ substitute (linkStep isLink) renderLink text) =
      closes delimiter (start ++ substitute (linkStep isReferenceLink) renderLink text') := by
  have hne := delimiters_ne_nil hmem
  have hnewline := newline_not_mem hmem
  -- the start is quantified within the motive, since each step moves what it copies there
  refine Alike.scan (motive := fun text text' => ∀ start,
    closes delimiter (start ++ substitute (linkStep isLink) renderLink text) =
      closes delimiter (start ++ substitute (linkStep isReferenceLink) renderLink text'))
    ?nil ?copy ?link ?bare ?line h hsame
  case nil =>
    intro start
    rw [substitute_nil (consumes_linkStep _), substitute_nil (consumes_linkStep _)]
  case copy =>
    intro c text text' hnone hnone' ih start
    have hcopy := ih (start ++ [c])
    rw [List.append_assoc, List.append_assoc] at hcopy
    rw [substitute_of_none hnone, substitute_of_none hnone']
    exact hcopy
  case link =>
    intro text text' label label' url after after' hsome hsome' hlabel _ _ _ ih start
    rw [substitute_of_some (consumes_linkStep _) hsome, substitute_of_some (consumes_linkStep _) hsome',
      ← List.append_assoc, ih, renderLink_eq, renderLink_eq]
    have hswap := closes_alike hmem hlabel (start ++ openLink url)
      (closeLink ++ substitute (linkStep isReferenceLink) renderLink after')
    simpa only [List.append_assoc] using hswap
  case bare =>
    intro label label' url after after' hbare hnolabel' hnourl hsome hlabel _ _ ih start
    have hafter := ih []
    rw [List.nil_append, List.nil_append] at hafter
    have hleft := closes_between (chunk_openLink hbare) chunk_closeLink hmem hne start label
      (substitute (linkStep isLink) renderLink after)
    have hright := closes_between chunk_bracket (chunk_bareLink hbare) hmem hne start label'
      (substitute (linkStep isReferenceLink) renderLink after')
    have hlabels := closes_alike hmem hlabel [] []
    rw [List.nil_append, List.nil_append, List.append_nil, List.append_nil] at hlabels
    have hsame : decide ('\n' ∈ label) = decide ('\n' ∈ label') := decide_eq_decide.mpr hlabel.newline
    have hreference : '[' :: (label' ++ ']' :: '(' :: (url ++ ')' ::
        substitute (linkStep isReferenceLink) renderLink after')) =
          ['['] ++ label' ++ ([']', '('] ++ url ++ [')']) ++
            substitute (linkStep isReferenceLink) renderLink after' := by
      simp
    rw [substitute_of_some (consumes_linkStep _) hsome, substitute_bare hnolabel' hnourl hbare, renderLink_eq,
      hleft, hreference]
    rw [hafter, hlabels, hsame]
    exact hright.symm
  case line =>
    intro heading text text' hbare hline hend hend' start
    rw [substitute_emptyHeading, substitute_bareHeading hbare]
    have h1 :=
      closes_newline hne hnewline start (tagged ['b'] [] ++ substitute (linkStep isLink) renderLink text)
    have h2 := closes_newline hne hnewline start
      (heading ++ substitute (linkStep isReferenceLink) renderLink text')
    exact h1.trans h2.symm

/-- Where a line ends, no delimiter is found on what is left of it. -/
theorem closes_endsLine {delimiter : List Char} (hmem : delimiter ∈ delimiters)
    {accepts : List Char × List Char → Bool} {text : List Char} (h : EndsLine text) :
    closes delimiter (substitute (linkStep accepts) renderLink text) = false := by
  have hne := delimiters_ne_nil hmem
  rcases h with rfl | ⟨rest, rfl⟩
  · rw [substitute_nil (consumes_linkStep _), closes, closeFirst_nil hne]
    rfl
  · have hcopied : substitute (linkStep accepts) renderLink ('\n' :: rest) = _ :=
      substitute_of_none (linkStep_of_none (dropPattern_cons_ne (by decide) [] rest))
    have hnewline :=
      closes_newline hne (newline_not_mem hmem) [] (substitute (linkStep accepts) renderLink rest)
    rw [hcopied]
    refine hnewline.trans ?_
    rw [closes, closeFirst_nil hne]
    rfl

/-- Either both texts are the same, or a heading is empty in one and bare in the other. -/
theorem Alike.differ {text text' : List Char} (h : Alike text text') : text = text' ∨
    ∃ start heading rest rest', BareHeading heading ∧ '\n' ∉ heading ∧
      text = start ++ tagged ['b'] [] ++ rest ∧ text' = start ++ heading ++ rest' ∧
      (rest = [] ∧ rest' = [] ∨ ∃ behind behind', rest = '\n' :: behind ∧ rest' = '\n' :: behind') := by
  induction h with
  | nil => exact Or.inl rfl
  | cons c _ ih =>
    rcases ih with rfl | ⟨start, heading, rest, rest', hbare, hline, rfl, rfl, hrest⟩
    · exact Or.inl rfl
    · exact Or.inr ⟨c :: start, heading, rest, rest', hbare, hline, rfl, rfl, hrest⟩
  | @line heading text text' hbare hline hend h _ =>
    refine Or.inr ⟨['\n'], heading, text, text', hbare, hline, rfl, rfl, ?_⟩
    rcases hend with rfl | ⟨rest, rfl⟩
    · cases h
      exact Or.inl ⟨rfl, rfl⟩
    · cases h with
      | cons _ _ => exact Or.inr ⟨_, _, rfl, rfl⟩
      | line _ _ _ _ => exact Or.inr ⟨_, _, rfl, rfl⟩

/-- Either both texts are the same and all was well so far, or they are parted and it was not. -/
def Compared (later : List (List Char)) (text text' : List Char) (well : Prop) : Prop :=
  (text = text' ∧ well) ∨ (Parted later text text' ∧ ¬ well)

/-- The label of a link, where a heading differs in it. -/
theorem parted_label {label label' : List Char} (h : Alike label label') (hne : label ≠ label')
    (start : List Char) {rest rest' : List Char}
    (hrest : ∀ delimiter ∈ delimiters, closes delimiter rest = closes delimiter rest') :
    Parted delimiters (start ++ label ++ rest) (start ++ label' ++ rest') := by
  obtain ⟨before, heading, behind, behind', hbare, hline, rfl, rfl, hbehind⟩ := h.differ.resolve_left hne
  have hcloses : ∀ delimiter ∈ delimiters,
      closes delimiter (behind ++ rest) = closes delimiter (behind' ++ rest') := by
    intro delimiter hmem
    rcases hbehind with ⟨rfl, rfl⟩ | ⟨more, more', rfl, rfl⟩
    · exact hrest delimiter hmem
    · have hnewline := closes_newline (delimiters_ne_nil hmem) (newline_not_mem hmem) []
      exact (hnewline (more ++ rest)).trans (hnewline (more' ++ rest')).symm
  have hparted := Parted.intro (start ++ before) chunk_emptyHeading (hbare.chunk hline) hbare.head_ne hcloses
  simpa only [List.append_assoc] using hparted

/-- **Links** agree unless a URL is only a scheme, or the texts were parted before. -/
theorem links_compared {text text' : List Char} (h : Alike text text') (hsame : SameSpace text) :
    Compared delimiters (substitute (linkStep isLink) renderLink text)
      (substitute (linkStep isReferenceLink) renderLink text')
      (text = text' ∧ ∀ link ∈ found (linkStep isLink) text, bareUrl link.2 = false) := by
  have hafterSame : ∀ {after after'}, Alike after after' → SameSpace after → ∀ delimiter ∈ delimiters,
      closes delimiter (substitute (linkStep isLink) renderLink after) =
        closes delimiter (substitute (linkStep isReferenceLink) renderLink after') :=
    fun h hsame delimiter hmem => closes_links hmem h hsame []
  -- the two agree until a bare address or a label that differs; from there on they are parted
  refine Alike.scan (motive := fun text text' => Compared delimiters
      (substitute (linkStep isLink) renderLink text) (substitute (linkStep isReferenceLink) renderLink text')
      (text = text' ∧ ∀ link ∈ found (linkStep isLink) text, bareUrl link.2 = false))
    ?nil ?copy ?link ?bare ?line h hsame
  case nil =>
    refine Or.inl
      ⟨by rw [substitute_nil (consumes_linkStep _), substitute_nil (consumes_linkStep _)], rfl, ?_⟩
    rw [found_nil (consumes_linkStep _)]
    exact fun _ h => absurd h List.not_mem_nil
  case copy =>
    intro c text text' hnone hnone' ih
    rw [substitute_of_none hnone, substitute_of_none hnone', found_of_none hnone]
    refine ih.imp (fun ⟨heq, rfl, hall⟩ => ⟨congrArg _ heq, rfl, hall⟩) fun ⟨hparted, hnot⟩ =>
      ⟨hparted.append [c], fun ⟨heq, hall⟩ => hnot ⟨(List.cons.inj heq).2, hall⟩⟩
  case link =>
    intro text text' label label' url after after' hsome hsome' hlabel hbare hafter hsameAfter ih
    have hfound : found (linkStep isLink) text = (label, url) :: found (linkStep isLink) after :=
      found_of_some (consumes_linkStep _) hsome
    rw [substitute_of_some (consumes_linkStep _) hsome, substitute_of_some (consumes_linkStep _) hsome',
      hfound, renderLink_eq, renderLink_eq]
    obtain ⟨labelStart, rfl, hparts, -⟩ := linkStep_eq_some.mp hsome
    obtain ⟨labelStart', rfl, hparts', -⟩ := linkStep_eq_some.mp hsome'
    obtain ⟨rfl, hno, -⟩ := linkParts_eq_some.mp hparts
    obtain ⟨rfl, hno', -⟩ := linkParts_eq_some.mp hparts'
    -- the sources agree exactly when the labels and the rests do
    have hinj : '[' :: (label ++ ']' :: '(' :: (url ++ ')' :: after)) =
        '[' :: (label' ++ ']' :: '(' :: (url ++ ')' :: after')) ↔ label = label' ∧ after = after' := by
      constructor
      · intro heq
        have hsplit := splitOnce_eq_some.mpr ⟨(List.cons.inj heq).2.symm, hno⟩
        rw [splitOnce_eq_some.mpr ⟨rfl, hno'⟩] at hsplit
        obtain ⟨rfl, hrest⟩ := Prod.mk.inj (Option.some.inj hsplit)
        simpa [eq_comm] using hrest
      · rintro ⟨rfl, rfl⟩
        rfl
    rw [hinj]
    by_cases hlabels : label = label'
    · subst hlabels
      refine ih.imp
        (fun ⟨heq, rfl, hall⟩ => ⟨by rw [heq], ⟨rfl, rfl⟩, List.forall_mem_cons.mpr ⟨hbare, hall⟩⟩)
        fun ⟨hparted, hnot⟩ =>
          ⟨hparted.append _, fun ⟨⟨_, heq⟩, hall⟩ => hnot ⟨heq, (List.forall_mem_cons.mp hall).2⟩⟩
    · refine Or.inr ⟨?_, fun ⟨⟨heq, _⟩, _⟩ => hlabels heq⟩
      have hrest : ∀ delimiter ∈ delimiters,
          closes delimiter (closeLink ++ substitute (linkStep isLink) renderLink after) =
            closes delimiter (closeLink ++ substitute (linkStep isReferenceLink) renderLink after') := by
        intro delimiter hmem
        have h1 := closes_append chunk_closeLink hmem (delimiters_ne_nil hmem) []
        rw [List.nil_append] at h1
        rw [h1, h1, hafterSame hafter hsameAfter delimiter hmem]
      have hparted := parted_label hlabel hlabels (openLink url) hrest
      simpa only [List.append_assoc] using hparted
  case bare =>
    intro label label' url after after' hbare hnolabel' hnourl hsome hlabel hafter hsameAfter _
    have hfound : found (linkStep isLink) ('[' :: (label ++ ']' :: '(' :: (url ++ ')' :: after))) =
        (label, url) :: found (linkStep isLink) after := found_of_some (consumes_linkStep _) hsome
    refine Or.inr ⟨?_, ?_⟩
    · have hheads : (openLink url).head? ≠ ['['].head? := by
        intro heq
        cases heq
      have hcloses : ∀ delimiter ∈ delimiters,
          closes delimiter (label ++ closeLink ++ substitute (linkStep isLink) renderLink after) =
            closes delimiter (label' ++ ("](".toList ++ url ++ [')']) ++
              substitute (linkStep isReferenceLink) renderLink after') := by
        intro delimiter hmem
        have hne := delimiters_ne_nil hmem
        have hlabels := closes_alike hmem hlabel [] []
        rw [List.nil_append, List.nil_append, List.append_nil, List.append_nil] at hlabels
        rw [closes_append chunk_closeLink hmem hne, closes_append (chunk_bareLink hbare) hmem hne,
          hafterSame hafter hsameAfter delimiter hmem, hlabels, decide_eq_decide.mpr hlabel.newline]
      have hparted := Parted.intro [] (chunk_openLink hbare) chunk_bracket hheads hcloses
      have hreference : '[' :: (label' ++ ']' :: '(' :: (url ++ ')' ::
          substitute (linkStep isReferenceLink) renderLink after')) =
            [] ++ ['['] ++ (label' ++ ([']', '('] ++ url ++ [')']) ++
              substitute (linkStep isReferenceLink) renderLink after') := by
        simp
      rw [substitute_of_some (consumes_linkStep _) hsome, substitute_bare hnolabel' hnourl hbare,
        renderLink_eq, hreference]
      have hsource : openLink url ++ label ++ closeLink ++ substitute (linkStep isLink) renderLink after =
          [] ++ openLink url ++ (label ++ closeLink ++ substitute (linkStep isLink) renderLink after) := by
        simp only [List.nil_append, List.append_assoc]
      rw [hsource]
      exact hparted
    · rintro ⟨-, hall⟩
      rw [hfound] at hall
      have hfalse := hall _ List.mem_cons_self
      rw [hbare] at hfalse
      cases hfalse
  case line =>
    intro heading text text' hbare hline hend hend'
    refine Or.inr ⟨?_, ?_⟩
    · rw [substitute_emptyHeading, substitute_bareHeading hbare]
      refine Parted.intro ['\n'] chunk_emptyHeading (hbare.chunk hline) hbare.head_ne fun delimiter hmem => ?_
      rw [closes_endsLine hmem hend, closes_endsLine hmem hend']
    · rintro ⟨heq, -⟩
      obtain ⟨c, part, rfl⟩ := List.exists_cons_of_ne_nil (hbare.chunk hline).ne_nil
      exact hbare.head_ne (congrArg (Option.some) (List.cons.inj (List.cons.inj heq).2).1)

/-! ## Texts without separators -/

/-- The control characters that only the reference takes for white space. -/
def Separating (c : Char) : Prop := 0x1C ≤ c.toNat ∧ c.toNat ≤ 0x1F

/-- But for the separators the two languages have the same white space. -/
theorem isSpace_eq {c : Char} (h : ¬ Separating c) : Reference.isSpace c = isWhitespace c := by
  have hfalse : (decide (0x1C ≤ c.toNat) && decide (c.toNat ≤ 0x1F)) = false := by
    rw [Bool.and_eq_false_iff, decide_eq_false_iff_not, decide_eq_false_iff_not]
    exact not_and_or.mp h
  rw [Reference.isSpace, isWhitespace, hfalse, Bool.or_false]

/-- Texts on which the classes agree may be put together. -/
theorem SameSpace.append {text text' : List Char} (h : SameSpace text) (h' : SameSpace text') :
    SameSpace (text ++ text') := fun c hc => (List.mem_append.mp hc).elim (h c) (h' c)

/-- They agree on a placeholder, which has no control character. -/
theorem sameSpace_placeholder (idx : Nat) : SameSpace (placeholder idx) := by
  intro c hc
  refine isSpace_eq fun ⟨hlow, hhigh⟩ => ?_
  rcases mem_placeholder hc with rfl | rfl | h
  · exact absurd hhigh (by decide)
  · exact absurd hhigh (by decide)
  · have hlarge := toNat_of_alphanum h
    omega

/-- They agree on what the capture leaves of a text on which they agree. -/
theorem sameSpace_captureFrom {rest output : List Char} (fencedBlocks : List (List Char)) (h : SameSpace rest)
    (houtput : SameSpace output) : SameSpace (captureFrom rest output fencedBlocks).1 := by
  fun_induction captureFrom rest output fencedBlocks with
  | case1 rest output fencedBlocks hopen => exact houtput.append h
  | case2 rest output fencedBlocks before afterOpen hopen hblock ih =>
    rw [eq_of_splitAround hopen] at h
    refine ih (h.sublist fun c hc => ?_) ((houtput.append (h.sublist fun c hc => ?_)).append ?_)
    · simp only [List.mem_append, List.mem_cons] at hc ⊢
      rcases hc with rfl | rfl | hc
      · exact Or.inl (Or.inr (by decide))
      · exact Or.inl (Or.inr (by decide))
      · exact Or.inr hc
    · simp [hc]
    · intro c hc
      rw [List.mem_singleton.mp hc]
      decide
  | case3 rest output fencedBlocks before afterOpen hopen block after hblock ih =>
    rw [eq_of_splitAround hopen] at h
    obtain ⟨taken, htaken⟩ := suffix_fencedBlock hblock
    refine ih (h.sublist fun c hc => ?_)
      ((houtput.append (h.sublist fun c hc => ?_)).append (sameSpace_placeholder _))
    · rw [← htaken]
      simp [hc]
    · simp [hc]

/-- And on that, escaped. -/
theorem sameSpace_escapeHtml {text : List Char} (h : SameSpace text) : SameSpace (escapeHtml text) := by
  intro c hc
  obtain ⟨d, hd, hcd⟩ := List.mem_flatMap.mp hc
  have hall : ∀ {escaped : List Char}, (escaped.all fun c => Reference.isSpace c == isWhitespace c) = true →
      c ∈ escaped → Reference.isSpace c = isWhitespace c :=
    fun hall hc => eq_of_beq (List.all_eq_true.mp hall c hc)
  unfold escapeChar at hcd
  split at hcd
  · exact hall (by decide) hcd
  · exact hall (by decide) hcd
  · exact hall (by decide) hcd
  · exact hall (by decide) hcd
  · exact hall (by decide) hcd
  · rw [List.mem_singleton.mp hcd]
    exact h d hd

/-! ## All of it -/

/-- The lines of a text outside its fences. -/
def escapedLines (text : List Char) : List (List Char) :=
  (escapeHtml (captureFencedBlocks text).1).splitOn '\n'

/-- The text that the links are looked for in. -/
def withHeadings (text : List Char) : List Char := ['\n'].intercalate ((escapedLines text).map renderLine)

/-- The text that the asterisks are looked for in. -/
def withLinks (text : List Char) : List Char := replaceLinks (withHeadings text)

/-- The text that the underscores are looked for in. -/
def withAsterisks (text : List Char) : List Char := replaceDelimited (withLinks text) asterisks ['b']

/-- No stage meets its exception. -/
structure MeetsReference (text : List Char) : Prop where
  headings : ∀ line ∈ escapedLines text, ¬ BareHeading line
  links : ∀ link ∈ found (linkStep isLink) (withHeadings text), bareUrl link.2 = false
  asterisks : ∀ opening ∈ openings asterisks (withLinks text), ¬ Doubled asterisks.1 opening.1
  underscores : ∀ opening ∈ openings underscores (withAsterisks text), ¬ Doubled underscores.1 opening.1

/-- Lines end where the text is split. -/
theorem Alike.append {text text' : List Char} (h : Alike text text') (start : List Char) :
    Alike (start ++ text) (start ++ text') := by
  induction start with
  | nil => exact h
  | cons c start ih => exact Alike.cons c ih

/-- A newline before the joined lines is a newline before each of them. -/
theorem cons_intercalate {lines : List (List Char)} (hne : lines ≠ []) :
    '\n' :: ['\n'].intercalate lines = lines.flatMap ('\n' :: ·) := by
  induction lines with
  | nil => exact absurd rfl hne
  | cons line lines ih =>
    cases lines with
    | nil => simp
    | cons next lines =>
      rw [List.intercalate_cons_cons, List.flatMap_cons, ← ih (List.cons_ne_nil _ _)]
      simp

/-- **Headings** make texts that are alike. -/
theorem alike_headings {lines : List (List Char)} (hlines : ∀ line ∈ lines, '\n' ∉ line ∧ SameSpace line) :
    Alike (lines.flatMap ('\n' :: renderLine ·)) (lines.flatMap ('\n' :: Reference.renderLine ·)) := by
  induction lines with
  | nil => exact Alike.nil
  | cons line lines ih =>
    obtain ⟨⟨hline, hsame⟩, hlines⟩ := List.forall_mem_cons.mp hlines
    rw [List.flatMap_cons, List.flatMap_cons]
    by_cases hbare : BareHeading line
    · obtain ⟨h1, h2⟩ := renderLine_of_bare hsame hbare
      rw [h1, h2]
      refine Alike.line hbare hline ?_ (ih hlines)
      cases lines with
      | nil => exact Or.inl rfl
      | cons next lines => exact Or.inr ⟨_, rfl⟩
    · rw [renderLine_eq hline hsame hbare]
      exact (ih hlines).append _

/-- The lines tell where the headings differ. -/
theorem headings_eq_iff {lines : List (List Char)} (hlines : ∀ line ∈ lines, '\n' ∉ line ∧ SameSpace line) :
    lines.flatMap ('\n' :: renderLine ·) = lines.flatMap ('\n' :: Reference.renderLine ·) ↔
      ∀ line ∈ lines, ¬ BareHeading line := by
  induction lines with
  | nil => exact iff_of_true rfl fun _ h => absurd h List.not_mem_nil
  | cons line lines ih =>
    obtain ⟨⟨hline, hsame⟩, hlines⟩ := List.forall_mem_cons.mp hlines
    rw [List.flatMap_cons, List.flatMap_cons, List.forall_mem_cons]
    by_cases hbare : BareHeading line
    · refine iff_of_false ?_ fun h => h.1 hbare
      obtain ⟨h1, h2⟩ := renderLine_of_bare hsame hbare
      obtain ⟨c, part, rfl⟩ := List.exists_cons_of_ne_nil (hbare.chunk hline).ne_nil
      rw [h1, h2]
      intro heq
      exact hbare.head_ne (congrArg some (List.cons.inj (List.cons.inj heq).2).1)
    · rw [renderLine_eq hline hsame hbare, List.append_cancel_left_eq, ih hlines]
      exact (and_iff_right hbare).symm

/-- A stage that meets no exception of its own carries the comparison on: equal texts stay equal, parted ones
    stay parted. -/
theorem Compared.delimited {later : List (List Char)} {delimiter : Delimiter} {text text' : List Char}
    {well : Prop} (hline : '\n' ∉ delimiter.1) (hstage : Stage later delimiter.1 ['b'])
    (hhead : delimiter.1.head? ≠ some '<') (h : Compared (delimiter.1 :: later) text text' well) :
    Compared later (replaceDelimited text delimiter ['b'])
      (replaceOpenings delimiter.1 ['b'] (closeLater delimiter.1) text')
      (well ∧ ∀ opening ∈ openings delimiter text, ¬ Doubled delimiter.1 opening.1) := by
  rw [replaceDelimited_eq hline]
  rcases h with ⟨rfl, hwell⟩ | ⟨hparted, hnot⟩
  · rcases openings_compared hline hstage hhead text with ⟨heq, hall⟩ | ⟨hparted, opening, hmem, hdoubled⟩
    · exact Or.inl ⟨heq, hwell, hall⟩
    · exact Or.inr ⟨hparted, fun ⟨_, hall⟩ => hall opening hmem hdoubled⟩
  · exact Or.inr ⟨hparted.delimited hline hstage (closer_later _) hhead, fun ⟨hwell, _⟩ => hnot hwell⟩

/-- The last loop does not bring parted texts together again, so the outputs are the same exactly if all was
    well. -/
theorem Compared.restoreBlocks {text text' : List Char} {well : Prop} (h : Compared [] text text' well)
    (fencedBlocks : List (List Char)) :
    restoreBlocks fencedBlocks text = restoreBlocks fencedBlocks text' ↔ well := by
  rcases h with ⟨rfl, hwell⟩ | ⟨hparted, hnot⟩
  · exact iff_of_true rfl hwell
  · exact iff_of_false (hparted.restoreBlocks fencedBlocks) hnot

/-- The lines that the headings are looked for in have no newline, and the same white space for both. -/
theorem escapedLines_spec {text : List Char} (h : ∀ c ∈ text, ¬ Separating c) :
    ∀ line ∈ escapedLines text, '\n' ∉ line ∧ SameSpace line := by
  intro line hmem
  have hline := mem_splitOn hmem
  have hsame : SameSpace text := fun c hc => isSpace_eq (h c hc)
  have hcaptured := @sameSpace_captureFrom _ [] [] hsame fun _ h => absurd h List.not_mem_nil
  exact ⟨hline.1, (sameSpace_escapeHtml hcaptured).sublist hline.2⟩

/-- On a text that is given, that the classes agree is a computation. -/
theorem sameSpace_of_all {text : List Char}
    (h : (text.all fun c => Reference.isSpace c == isWhitespace c) = true) : SameSpace text :=
  fun c hc => eq_of_beq (List.all_eq_true.mp h c hc)

/-- They agree on the rendered lines as well. -/
theorem sameSpace_flatMap {lines : List (List Char)} (hlines : ∀ line ∈ lines, '\n' ∉ line ∧ SameSpace line) :
    SameSpace (lines.flatMap ('\n' :: renderLine ·)) := by
  intro c hc
  obtain ⟨line, hline, hc⟩ := List.mem_flatMap.mp hc
  rcases List.mem_cons.mp hc with rfl | hc
  · decide
  have hsame := (hlines line hline).2
  rw [renderLine, markdownHeading_eq] at hc
  cases hheading : (afterHashes line).bind headingText with
  | none =>
    rw [hheading] at hc
    exact hsame c hc
  | some heading =>
    rw [hheading] at hc
    obtain ⟨text, hafter, htext⟩ := Option.bind_eq_some_iff.mp hheading
    -- a heading keeps characters of its line and adds the tags alone
    have htrim : trim heading ⊆ heading := by
      intro d hd
      have hd' := List.mem_reverse.mp (List.dropWhile_subset _ (List.mem_reverse.mp hd))
      exact List.dropWhile_subset _ hd'
    have hsub : trim heading ⊆ line :=
      List.Subset.trans htrim (List.Subset.trans (headingText_subset htext) (afterHashes_subset hafter))
    have htag : SameSpace ('<' :: ['b'] ++ ['>']) := sameSpace_of_all (by decide)
    have htag' : SameSpace ('<' :: '/' :: ['b'] ++ ['>']) := sameSpace_of_all (by decide)
    dsimp only at hc
    rw [tagged_eq] at hc
    exact ((htag.append (hsame.sublist hsub)).append htag') c hc

/-- Headings and links. -/
theorem compared_links {text : List Char} (h : ∀ c ∈ text, ¬ Separating c) :
    Compared delimiters (withLinks text)
      (Reference.linkRegex.sub Reference.renderLink
        (['\n'].intercalate ((escapedLines text).map Reference.renderLine)))
      ((∀ line ∈ escapedLines text, ¬ BareHeading line) ∧
        ∀ link ∈ found (linkStep isLink) (withHeadings text), bareUrl link.2 = false) := by
  have hlines := escapedLines_spec h
  have hne : escapedLines text ≠ [] := List.splitOn_ne_nil _ _
  have hflat : ∀ render : List Char → List Char, '\n' :: ['\n'].intercalate ((escapedLines text).map render) =
      (escapedLines text).flatMap ('\n' :: render ·) := by
    intro render
    rw [cons_intercalate (by simpa using hne), List.flatMap_map]
  have halike := alike_headings hlines
  have heq := headings_eq_iff hlines
  have hsame := sameSpace_flatMap hlines
  rw [← hflat, ← hflat] at halike heq
  rw [← hflat] at hsame
  have hcompared := links_compared halike hsame
  have hnewline : ∀ accepts rest, linkStep accepts ('\n' :: rest) = none :=
    fun accepts rest => linkStep_of_none (dropPattern_cons_ne (by decide) [] rest)
  rw [substitute_of_none (hnewline _ _), substitute_of_none (hnewline _ _), found_of_none (hnewline _ _), heq]
    at hcompared
  rw [withLinks, replaceLinks_eq, sub_linkRegex]
  exact hcompared.imp (fun ⟨heq, hwell⟩ => ⟨(List.cons.inj heq).2, hwell⟩) fun ⟨hparted, hnot⟩ =>
    ⟨hparted.of_cons, hnot⟩

/-- The empty text meets the reference. -/
theorem meetsReference_nil : MeetsReference [] := by
  have hcapture : captureFencedBlocks [] = ([], []) := by
    rw [← capture_eq, pieces_nil consumes_fence]
    rfl
  have hlines : escapedLines [] = [[]] := by
    rw [escapedLines, hcapture]
    rfl
  have hheadings : withHeadings [] = [] := by
    rw [withHeadings, hlines]
    rfl
  have hlinks : withLinks [] = [] := by
    rw [withLinks, hheadings, replaceLinks_eq, substitute_nil (consumes_linkStep _)]
  have hopenings : ∀ {delimiter : Delimiter}, '\n' ∉ delimiter.1 → openings delimiter [] = [] :=
    fun {delimiter} hline => found_nil (consumes_delimiterStep delimiter.2 (closer_closeAt hline))
  have hasterisks : withAsterisks [] = [] := by
    rw [withAsterisks, hlinks, replaceDelimited_eq (by decide)]
    exact replaceOpenings_nil asterisks.2 (closer_closeAt (by decide)) _
  refine ⟨?_, ?_, ?_, ?_⟩
  · rw [hlines]
    intro line hmem hbare
    rw [List.mem_singleton.mp hmem] at hbare
    exact (hbare.chunk List.not_mem_nil).ne_nil rfl
  · rw [hheadings, found_nil (consumes_linkStep _)]
    exact fun _ h => absurd h List.not_mem_nil
  · rw [hlinks, hopenings (by decide)]
    exact fun _ h => absurd h List.not_mem_nil
  · rw [hasterisks, hopenings (by decide)]
    exact fun _ h => absurd h List.not_mem_nil

/-- A text without the delimiter is left as it is. -/
theorem replaceOpenings_of_none {delimiter tag text : List Char}
    {close : List Char → Option (List Char × List Char)} (hne : delimiter ≠ [])
    (hcloser : Closer delimiter close) (h : splitAround delimiter text = none) :
    replaceOpenings delimiter tag close text = text := by
  have hsplit := substitute_splitAround (renderOpening delimiter tag) (consumes_delimiterStep hne hcloser)
    (fun _ h => delimiterStep_of_none h) hne text
  rw [h] at hsplit
  exact hsplit

/-- Inline code has no exception. -/
theorem Compared.inlineCode {text text' : List Char} {well : Prop} (h : Compared [[tick]] text text' well) :
    Compared [] (replaceDelimited text backtick "code".toList)
      (replaceOpenings [tick] "code".toList (closeAt backtick) text') well := by
  have hcloser : Closer backtick.1 (closeAt backtick) := closer_closeAt (by decide)
  rw [replaceDelimited_eq (by decide)]
  exact h.imp (fun ⟨heq, hwell⟩ => ⟨by rw [heq]; rfl, hwell⟩) fun ⟨hparted, hnot⟩ =>
    ⟨Parted.delimited (by decide) stage_backtick hcloser (by decide) hparted, hnot⟩

/-- The renderer's stages, one behind the other, on a text that is not empty. -/
theorem markdownToHtml_eq {text : List Char} (hne : text ≠ []) : markdownToHtml text =
    restoreBlocks (captureFencedBlocks text).2
      (replaceDelimited (replaceDelimited (withAsterisks text) underscores ['b']) backtick
          "code".toList) := by
  rw [markdownToHtml, if_neg (by simpa using hne)]
  rfl

/-- The reference's stages, each in the form of the renderer's with its own way to close a delimiter. -/
theorem telegramMarkdownToHtml_eq {text : List Char} (hne : text ≠ []) :
    Reference.telegramMarkdownToHtml text = restoreBlocks (captureFencedBlocks text).2
      (replaceOpenings [tick] "code".toList (closeAt backtick) <|
        replaceOpenings underscores.1 ['b'] (closeLater underscores.1) <|
          replaceOpenings asterisks.1 ['b'] (closeLater asterisks.1) <|
            Reference.linkRegex.sub Reference.renderLink <|
              ['\n'].intercalate ((escapedLines text).map Reference.renderLine)) := by
  have hasterisks := sub_boldRegex (c := '*') (by decide)
  have hunderscores := sub_boldRegex (c := '_') (by decide)
  rw [Reference.telegramMarkdownToHtml, if_neg (by simpa using hne)]
  dsimp only
  rw [capture_eq, escape_eq, hasterisks, hunderscores, sub_codeRegex]
  rfl

/-- A text of one line, as long as nothing in it opens a link, bold or code. -/
structure Unmarked (line : List Char) : Prop where
  link : '[' ∉ line
  asterisks : splitAround asterisks.1 line = none
  underscores : splitAround underscores.1 line = none
  code : splitAround [tick] line = none

/-- A line without brackets has no link. -/
theorem Unmarked.links {line : List Char} (h : Unmarked line) (accepts : List Char × List Char → Bool) :
    substitute (linkStep accepts) renderLink line = line := by
  have hcopied := substitute_links_copied accepts h.link []
  rwa [substitute_nil (consumes_linkStep accepts), List.append_nil] at hcopied

/-- Of a line without fences and without marks the renderer renders the heading. -/
theorem markdownToHtml_unmarked {text line : List Char} (hne : text ≠ [])
    (hcapture : captureFencedBlocks text = (text, [])) (hheadings : withHeadings text = line)
    (h : Unmarked line) : markdownToHtml text = line := by
  rw [markdownToHtml_eq hne, withAsterisks, withLinks, hheadings, hcapture, replaceLinks_eq, h.links,
    replaceDelimited_eq (by decide), replaceDelimited_eq (by decide), replaceDelimited_eq (by decide),
    replaceOpenings_of_none asterisks.2 (closer_closeAt (by decide)) h.asterisks,
    replaceOpenings_of_none underscores.2 (closer_closeAt (by decide)) h.underscores,
    replaceOpenings_of_none backtick.2 (closer_closeAt (by decide)) h.code]
  rfl

/-- So does the reference. -/
theorem telegramMarkdownToHtml_unmarked {text escaped line : List Char} (hne : text ≠ [])
    (hcapture : captureFencedBlocks text = (text, [])) (hlines : escapedLines text = [escaped])
    (hheading : Reference.renderLine escaped = line) (h : Unmarked line) :
    Reference.telegramMarkdownToHtml text = line := by
  rw [telegramMarkdownToHtml_eq hne, hlines, hcapture, List.map_singleton, hheading, sub_linkRegex,
    List.intercalate_singleton, h.links,
    replaceOpenings_of_none asterisks.2 (closer_later _) h.asterisks,
    replaceOpenings_of_none underscores.2 (closer_later _) h.underscores,
    replaceOpenings_of_none (List.cons_ne_nil tick []) (@closer_closeAt backtick (by decide)) h.code]
  rfl

end Markdown

/-- The renderer and its reference agree exactly on the texts on which no stage meets its exception. -/
theorem rendering_agrees_iff (text : List Char) (h : ∀ c ∈ text, ¬ Markdown.Separating c) :
    Markdown.markdownToHtml text = Reference.telegramMarkdownToHtml text ↔ Markdown.MeetsReference text := by
  open Markdown in
  by_cases hempty : text = []
  · subst hempty
    exact iff_of_true rfl meetsReference_nil
  have hlinks := compared_links h
  have hasterisks := @Compared.delimited _ asterisks _ _ _ (by decide) stage_asterisks (by decide) hlinks
  have hunderscores := @Compared.delimited _ underscores _ _ _ (by decide) stage_underscores (by decide)
    hasterisks
  rw [markdownToHtml_eq hempty, telegramMarkdownToHtml_eq hempty]
  refine (hunderscores.inlineCode.restoreBlocks _).trans ?_
  constructor
  · rintro ⟨⟨⟨hheadings, hlinks⟩, hasterisks⟩, hunderscores⟩
    exact ⟨hheadings, hlinks, hasterisks, hunderscores⟩
  · rintro ⟨hheadings, hlinks, hasterisks, hunderscores⟩
    exact ⟨⟨⟨hheadings, hlinks⟩, hasterisks⟩, hunderscores⟩

/-- A heading, on which the two agree. -/
theorem rendering_agrees_iff_heading : Markdown.MeetsReference ['#', ' ', 'a'] ∧
    Markdown.markdownToHtml ['#', ' ', 'a'] = "<b>a</b>".toList ∧
    Reference.telegramMarkdownToHtml ['#', ' ', 'a'] = "<b>a</b>".toList := by
  open Markdown in
  have hcapture : captureFencedBlocks ['#', ' ', 'a'] = (['#', ' ', 'a'], []) := by
    rw [captureFencedBlocks, captureFrom]
    rfl
  have hlines : escapedLines ['#', ' ', 'a'] = [['#', ' ', 'a']] := by
    rw [escapedLines, hcapture]
    decide
  have hheadings : withHeadings ['#', ' ', 'a'] = "<b>a</b>".toList := by
    rw [withHeadings, hlines]
    decide
  have hunmarked : Unmarked "<b>a</b>".toList := ⟨by decide, by decide, by decide, by decide⟩
  have hrenderer := markdownToHtml_unmarked (by decide) hcapture hheadings hunmarked
  have hreference := telegramMarkdownToHtml_unmarked (by decide) hcapture hlines (by decide) hunmarked
  refine ⟨?_, hrenderer, hreference⟩
  exact (rendering_agrees_iff ['#', ' ', 'a'] (by simp [Separating])).mp (hrenderer.trans hreference.symm)

/-- A line of one hash and one space: the renderer makes an empty heading of it, the reference leaves it. -/
theorem rendering_disagrees : ¬ ∀ text : List Char, (∀ c ∈ text, ¬ Markdown.Separating c) →
    Markdown.markdownToHtml text = Reference.telegramMarkdownToHtml text := by
  open Markdown in
  intro hall
  have heq := hall ['#', ' '] (by simp [Separating])
  have hcapture : captureFencedBlocks ['#', ' '] = (['#', ' '], []) := by
    rw [captureFencedBlocks, captureFrom]
    rfl
  have hlines : escapedLines ['#', ' '] = [['#', ' ']] := by
    rw [escapedLines, hcapture]
    decide
  have hheadings : withHeadings ['#', ' '] = tagged ['b'] [] := by
    rw [withHeadings, hlines]
    decide
  have hrenderer : markdownToHtml ['#', ' '] = tagged ['b'] [] :=
    markdownToHtml_unmarked (by decide) hcapture hheadings ⟨by decide, by decide, by decide, by decide⟩
  have hreference : Reference.telegramMarkdownToHtml ['#', ' '] = ['#', ' '] :=
    telegramMarkdownToHtml_unmarked (by decide) hcapture hlines (by decide)
      ⟨by decide, by decide, by decide, by decide⟩
  rw [hrenderer, hreference] at heq
  exact absurd heq (by decide)

end Tellm
