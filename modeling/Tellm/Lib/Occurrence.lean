/-
  OCCURRENCES: whether a pattern occurs in a text that is cut, spliced and replaced.

  A text may be cut where no occurrence of a pattern can run over: the pattern occurs in the whole exactly
  if it occurs in one of the parts.  A scanner that takes texts apart at such places, and puts others of
  the kind between the parts, makes no occurrence and destroys none.

  1. **`Cuts`**, and **`occurs_substitute`**: the scanner's rule.
  2. **`splitAround_append_iff`**: when a given occurrence is the first.
  3. **`frame`**: a pattern that begins and ends with the same mark, twice.  An occurrence can share the
     marks of another text in the frame, and nothing else of it (`infix_frame`).
  4. **`replaceAll_spell`**: replacing in the letters, and in the words, of a text.

  Texts are lists over any type, and an occurrence is an infix.  What may be cut is stated for an
  arbitrary predicate on texts (`Cuts`), so the rule for scanners serves for occurrences of a pattern and
  for occurrences after a renaming of symbols alike.

  The frame is the form of a marker that is meant not to be spelled by accident.  That two of them can
  overlap in their marks, and in nothing else, is what a program that uses such markers has to live with.
-/
import Tellm.Lib.Spelling

namespace Occurrences

open Substitutions Spellings

variable {α β : Type}

/-! ## Cuts -/

/-- What holds of a text around the cut holds of one of its sides. -/
def Cuts (occurs : List α → Prop) (cut : List α) : Prop :=
  ∀ text rest, occurs (text ++ cut ++ rest) ↔ occurs text ∨ occurs rest

section

variable {occurs : List α → Prop} {cut cut' : List α}

theorem Cuts.append (hnil : ¬ occurs []) (h : Cuts occurs cut) (h' : Cuts occurs cut') :
    Cuts occurs (cut ++ cut') := by
  intro text rest
  have hrest := h' [] rest
  rw [List.nil_append, or_iff_right hnil] at hrest
  rw [← List.append_assoc, List.append_assoc (text ++ cut), h text, hrest]

/-- At the head of a text. -/
theorem Cuts.head (hnil : ¬ occurs []) (h : Cuts occurs cut) (rest : List α) :
    occurs (cut ++ rest) ↔ occurs rest := by
  have hcut := h [] rest
  rwa [List.nil_append, or_iff_right hnil] at hcut

theorem Cuts.last (hnil : ¬ occurs []) (h : Cuts occurs cut) (text : List α) :
    occurs (text ++ cut) ↔ occurs text := by
  have hcut := h text []
  rwa [List.append_nil, or_iff_left hnil] at hcut

/-- A text between cuts. -/
theorem Cuts.between (h : Cuts occurs cut) (h' : Cuts occurs cut') (text inner rest : List α) :
    occurs (text ++ (cut ++ inner ++ cut') ++ rest) ↔ occurs text ∨ occurs inner ∨ occurs rest := by
  rw [show text ++ (cut ++ inner ++ cut') ++ rest = text ++ cut ++ (inner ++ cut' ++ rest) by simp, h, h']

/-- Two texts between cuts. -/
theorem Cuts.between_two {cut'' : List α} (h : Cuts occurs cut) (h' : Cuts occurs cut')
    (h'' : Cuts occurs cut'') (text first second rest : List α) :
    occurs (text ++ (cut ++ first ++ cut' ++ second ++ cut'') ++ rest) ↔
      occurs text ∨ (occurs first ∨ occurs second) ∨ occurs rest := by
  rw [show text ++ (cut ++ first ++ cut' ++ second ++ cut'') ++ rest =
    text ++ cut ++ (first ++ cut' ++ (second ++ cut'' ++ rest)) by simp, h, h', h'', or_assoc]

/-- What cuts, symbol by symbol, makes no difference before a text or behind it. -/
theorem cuts_skip {skipped : List α} (hnil : ¬ occurs []) (h : ∀ a ∈ skipped, Cuts occurs [a])
    (text : List α) :
    (occurs (skipped ++ text) ↔ occurs text) ∧ (occurs (text ++ skipped) ↔ occurs text) := by
  induction skipped generalizing text with
  | nil => simp
  | cons a skipped ih =>
    obtain ⟨ha, hskipped⟩ := List.forall_mem_cons.mp h
    constructor
    · exact (ha.head hnil _).trans (ih hskipped text).1
    · have hbehind := (ih hskipped []).1
      rw [List.append_nil] at hbehind
      have hcut := ha text skipped
      rw [List.append_assoc] at hcut
      rw [show a :: skipped = [a] ++ skipped from rfl, hcut, hbehind, or_iff_left hnil]

/-- **A scanner keeps what occurs** if around what it takes, and around what it puts there, the same
    occurs. -/
theorem occurs_substitute {step : Step α β} {render : β → List α} (hc : Consumes step)
    (h : ∀ text b rest, step text = some (b, rest) → ∃ taken inner, text = taken ++ rest ∧
      (∀ before, occurs (before ++ taken ++ rest) ↔ occurs before ∨ inner ∨ occurs rest) ∧
        ∀ before after, occurs (before ++ render b ++ after) ↔ occurs before ∨ inner ∨ occurs after)
    (text : List α) : occurs (substitute step render text) ↔ occurs text := by
  have hbehind : ∀ before, occurs (before ++ substitute step render text) ↔ occurs (before ++ text) := by
    induction text using scan_induction hc with
    | nil =>
      intro before
      rw [substitute_nil hc]
    | copy c text hnone ih =>
      intro before
      have hcopied := ih (before ++ [c])
      rw [List.append_assoc, List.append_assoc] at hcopied
      rw [substitute_of_none hnone]
      exact hcopied
    | hit text b rest hsome ih =>
      intro before
      obtain ⟨taken, inner, rfl, htaken, hrender⟩ := h text b rest hsome
      have hrest := ih []
      rw [substitute_of_some hc hsome, ← List.append_assoc, ← List.append_assoc, hrender, htaken]
      exact or_congr_right (or_congr_right hrest)
  exact hbehind []

end

section

variable [DecidableEq α] {pattern text rest : List α}

/-- **A symbol that is not in the pattern** cuts. -/
theorem infix_append_cons_iff {c : α} (hc : c ∉ pattern) :
    pattern <:+: text ++ c :: rest ↔ pattern <:+: text ∨ pattern <:+: rest := by
  constructor
  · exact infix_append_cons hc
  · rintro (h | h)
    · exact h.trans (List.prefix_append _ _).isInfix
    · exact (h.trans (List.suffix_cons c rest).isInfix).trans (List.suffix_append _ _).isInfix

omit [DecidableEq α] in
/-- Two of a symbol that never stands twice in a row, nor at an end. -/
theorem infix_append_doubled {c : α} (hchain : pattern.IsChain fun a b => ¬ (a = c ∧ b = c))
    (hhead : ∃ a behind, pattern = a :: behind ∧ a ≠ c) (hlast : pattern.getLast? ≠ some c) :
    pattern <:+: text ++ c :: c :: rest ↔ pattern <:+: text ∨ pattern <:+: rest := by
  have hstart :
    ∀ pattern text : List α, pattern.IsChain (fun a b => ¬ (a = c ∧ b = c)) → pattern.getLast? ≠ some c →
      pattern <+: text ++ c :: c :: rest → pattern <+: text := by
    intro pattern text hchain hlast h
    induction text generalizing pattern with
    | nil =>
      cases pattern with
      | nil => exact List.nil_prefix
      | cons a pattern =>
        obtain ⟨rfl, h⟩ := List.cons_prefix_cons.mp h
        cases pattern with
        | nil => exact absurd rfl hlast
        | cons b pattern =>
          obtain ⟨rfl, -⟩ := List.cons_prefix_cons.mp h
          exact absurd ⟨rfl, rfl⟩ (List.isChain_cons_cons.mp hchain).1
    | cons d text ih =>
      cases pattern with
      | nil => exact List.nil_prefix
      | cons a pattern =>
        obtain ⟨rfl, hbehind⟩ := List.cons_prefix_cons.mp h
        refine List.cons_prefix_cons.mpr
          ⟨rfl, ih pattern (List.IsChain.tail hchain) (fun hlast' => hlast ?_) hbehind⟩
        rw [List.getLast?_cons, hlast']
        rfl
  obtain ⟨a, behind, rfl, ha⟩ := hhead
  have hno : ∀ text : List α, ¬ a :: behind <+: c :: text := fun text h => ha (List.cons_prefix_cons.mp h).1
  constructor
  · intro h
    induction text with
    | nil =>
      have h := (List.infix_cons_iff.mp h).resolve_left (hno _)
      exact Or.inr ((List.infix_cons_iff.mp h).resolve_left (hno _))
    | cons d text ih =>
      rcases List.infix_cons_iff.mp h with h | h
      · exact Or.inl (hstart _ (d :: text) hchain hlast h).isInfix
      · exact (ih h).imp (fun h => h.trans (List.suffix_cons d text).isInfix) id
  · rintro (h | h)
    · exact h.trans (List.prefix_append _ _).isInfix
    · exact h.trans ⟨text ++ [c, c], [], by simp⟩

omit [DecidableEq α] in
/-- A map that makes no symbol of the pattern. -/
theorem infix_map_iff {f : α → α} (h : ∀ c ∈ pattern, ∀ a, f a = c ↔ a = c) :
    pattern <:+: text.map f ↔ pattern <:+: text := by
  have hfixed : ∀ {part : List α}, part.map f = pattern → part = pattern := by
    intro part hpart
    subst hpart
    have hall : ∀ a ∈ part, f a = a := fun a ha => ((h (f a) (List.mem_map_of_mem ha) a).mp rfl).symm
    exact (List.map_congr_left hall).trans (List.map_id part) |>.symm
  constructor
  · rintro ⟨before, after, heq⟩
    obtain ⟨first, last, rfl, hfirst, -⟩ := List.map_eq_append_iff.mp heq.symm
    obtain ⟨start, part, rfl, -, hpart⟩ := List.map_eq_append_iff.mp hfirst
    exact ⟨start, last, by rw [hfixed hpart]⟩
  · intro hoccurs
    have hmap := hoccurs.map f
    have hself : pattern.map f = pattern :=
      (List.map_congr_left fun c hc => (h c hc c).mpr rfl).trans (List.map_id pattern)
    rwa [hself] at hmap

theorem splitAround_eq_none : splitAround pattern text = none ↔ ¬ pattern <:+: text := by
  induction text with
  | nil =>
    rw [splitAround, Option.map_eq_none_iff, dropPattern_eq_none, List.prefix_nil, List.infix_nil]
  | cons c text ih =>
    rw [List.infix_cons_iff, not_or, ← dropPattern_eq_none]
    cases hdrop : dropPattern pattern (c :: text) with
    | some after => simp [splitAround_of_some hdrop]
    | none =>
      rw [splitAround_cons hdrop, Option.map_eq_none_iff, ih]
      simp

/-- A map that makes no symbol of the pattern. -/
theorem dropPattern_map {f : α → α} (h : ∀ c ∈ pattern, ∀ a, f a = c ↔ a = c) :
    dropPattern pattern (text.map f) = (dropPattern pattern text).map (List.map f) := by
  induction pattern generalizing text with
  | nil => rfl
  | cons c pattern ih =>
    obtain ⟨hc, hpattern⟩ := List.forall_mem_cons.mp h
    cases text with
    | nil => rfl
    | cons a text =>
      by_cases ha : a = c
      · rw [List.map_cons, (hc a).mpr ha, ha, dropPattern_cons, dropPattern_cons, ih hpattern]
      · rw [List.map_cons, dropPattern_cons_ne fun h => ha ((hc a).mp h), dropPattern_cons_ne ha]
        rfl

/-- One symbol is found at its first place. -/
theorem splitAround_singleton {a : α} (h : a ∉ text) :
    splitAround [a] (text ++ a :: rest) = some (text, rest) := by
  induction text with
  | nil => exact splitAround_of_some (dropPattern_append [a] rest)
  | cons b text ih =>
    obtain ⟨hb, htext⟩ := not_or.mp fun hmem => h (List.mem_cons.mpr hmem)
    rw [List.cons_append, splitAround_cons (dropPattern_cons_ne (Ne.symm hb) [] _), ih htext]
    rfl

theorem splitAround_singleton_eq_none {a : α} (h : a ∉ text) : splitAround [a] text = none :=
  splitAround_eq_none.mpr fun hoccurs => h (hoccurs.subset (List.mem_singleton.mpr rfl))

/-- **The first occurrence**: the pattern does not occur earlier, nor in a part of this one. -/
theorem splitAround_append_iff (hne : pattern ≠ []) :
    splitAround pattern (text ++ pattern ++ rest) = some (text, rest) ↔
    ¬ pattern <:+: text ++ pattern.dropLast := by
  have hlength : pattern.dropLast.length + 1 = pattern.length := by
    have hpos := List.length_pos_iff.mpr hne
    rw [List.length_dropLast]
    omega
  induction text with
  | nil =>
    rw [List.nil_append, List.nil_append, splitAround_of_some (dropPattern_append pattern rest)]
    refine iff_of_true rfl fun h => ?_
    have hle := h.length_le
    omega
  | cons c text ih =>
    -- at the head the last symbol of the pattern makes no difference
    have hstart :
        pattern <+: c :: (text ++ pattern ++ rest) ↔ pattern <+: c :: (text ++ pattern.dropLast) := by
      have hsame : c :: (text ++ pattern ++ rest) =
          (c :: (text ++ pattern.dropLast)) ++ (pattern.getLast hne :: rest) := by
        conv_lhs => rw [← List.dropLast_append_getLast hne]
        simp
      rw [hsame]
      constructor
      · intro h
        refine List.prefix_of_prefix_length_le h (List.prefix_append _ _) ?_
        rw [List.length_cons, List.length_append]
        omega
      · exact fun h => h.trans (List.prefix_append _ _)
    rw [List.cons_append, List.cons_append, List.cons_append, List.infix_cons_iff, not_or, ← hstart]
    cases hdrop : dropPattern pattern (c :: (text ++ pattern ++ rest)) with
    | some after =>
      rw [splitAround_of_some hdrop]
      constructor
      · intro h
        cases h
      · exact fun h => absurd ⟨after, (dropPattern_eq_some.mp hdrop).symm⟩ h.1
    | none =>
      rw [splitAround_cons hdrop]
      constructor
      · intro h
        obtain ⟨parts, hparts, heq⟩ := Option.map_eq_some_iff.mp h
        cases heq
        exact ⟨dropPattern_eq_none.mp hdrop, ih.mp hparts⟩
      · intro h
        rw [ih.mpr h.2]
        rfl

end

/-! ## Frames -/

/-- A text between marks, two at each end. -/
def frame (mark : α) (core : List α) : List α := mark :: mark :: core ++ [mark, mark]

section

variable {mark : α} {core core' text rest : List α}

/-- A text without the mark stands in an occurrence that runs over it. -/
theorem infix_of_infix_append {pattern inner : List α} (hpattern : ∃ behind, pattern = mark :: behind)
    (hinner : mark ∉ inner) (h : pattern <:+: inner ++ rest) : pattern <:+: rest := by
  obtain ⟨behind, rfl⟩ := hpattern
  induction inner with
  | nil => exact h
  | cons c inner ih =>
    obtain ⟨hc, hinner⟩ := not_or.mp fun h => hinner (List.mem_cons.mpr h)
    rcases List.infix_cons_iff.mp h with h | h
    · exact absurd (List.cons_prefix_cons.mp h).1 hc
    · exact ih hinner h

/-- Two marks stand in a frame at its ends alone. -/
theorem frame_eq_append (hcore : mark ∉ core) (hne : core ≠ [])
    (h : frame mark core = text ++ mark :: mark :: rest) :
    text = [] ∧ rest = core ++ [mark, mark] ∨ rest = [] := by
  rw [frame] at h
  cases text with
  | nil =>
    obtain ⟨-, h⟩ := List.cons.inj h
    exact Or.inl ⟨rfl, (List.cons.inj h).2.symm⟩
  | cons a text =>
    obtain ⟨-, h⟩ := List.cons.inj h
    cases text with
    | nil =>
      obtain ⟨c, core, rfl⟩ := List.exists_cons_of_ne_nil hne
      have hc := (List.cons.inj (List.cons.inj h).2).1
      exact absurd (hc ▸ List.mem_cons_self) hcore
    | cons b text =>
      obtain ⟨-, h⟩ := List.cons.inj h
      rcases List.append_eq_append_iff.mp h with ⟨more, -, hmarks⟩ | ⟨more, hmore, hmarks⟩
      · refine Or.inr (List.eq_nil_of_length_eq_zero ?_)
        have hlength := congrArg List.length hmarks
        simp only [List.length_append, List.length_cons, List.length_nil] at hlength
        omega
      · cases more with
        | nil => exact Or.inr (List.cons.inj (List.cons.inj hmarks).2).2
        | cons c more =>
          obtain rfl := (List.cons.inj hmarks).1
          exact absurd (by rw [hmore]; simp) hcore

/-- An occurrence of a frame shares the marks of what stands between other marks, or lies behind it. -/
theorem infix_frame_or (hcore : mark ∉ core) (hne : core ≠ []) (hcore' : mark ∉ core') (hne' : core' ≠ [])
    (hno : ¬ core ++ [mark, mark] <+: core' ++ rest)
    (h : frame mark core <:+: text ++ mark :: mark :: (core' ++ rest)) :
    frame mark core <:+: text ++ [mark, mark] ∨ frame mark core <:+: rest := by
  -- on what stands before the marks
  induction text with
  | nil =>
    rcases List.infix_cons_iff.mp h with h | h
    · rw [frame] at h
      exact absurd (List.cons_prefix_cons.mp (List.cons_prefix_cons.mp h).2).2 hno
    · rcases List.infix_cons_iff.mp h with h | h
      · obtain ⟨c, core', rfl⟩ := List.exists_cons_of_ne_nil hne'
        rw [frame] at h
        have hc := (List.cons_prefix_cons.mp (List.cons_prefix_cons.mp h).2).1
        exact absurd (hc ▸ List.mem_cons_self) hcore'
      · exact Or.inr (infix_of_infix_append ⟨_, rfl⟩ hcore' h)
  | cons a text ih =>
    rcases List.infix_cons_iff.mp h with h | h
    · have hmarks : (a :: text) ++ [mark, mark] <+: a :: (text ++ mark :: mark :: (core' ++ rest)) := by
        refine ⟨core' ++ rest, ?_⟩
        simp
      refine Or.inl ?_
      -- it ends within the marks, or goes on behind them
      rcases List.prefix_or_prefix_of_prefix h hmarks with h | ⟨behind, hbehind⟩
      · exact h.isInfix
      · rw [List.append_assoc] at hbehind
        rcases frame_eq_append hcore hne hbehind.symm with ⟨hnil, -⟩ | rfl
        · cases hnil
        · rw [← hbehind]
          exact List.infix_refl _
    · exact (ih h).imp (fun h => h.trans (List.suffix_cons a _).isInfix) id

theorem append_mark_inj {rest' : List α} (hcore : mark ∉ core) (hcore' : mark ∉ core')
    (h : core ++ mark :: rest = core' ++ mark :: rest') : core = core' := by
  rcases List.append_eq_append_iff.mp h with ⟨more, rfl, hmore⟩ | ⟨more, rfl, hmore⟩
  · cases more with
    | nil => exact (List.append_nil core).symm
    | cons a more =>
      obtain rfl := (List.cons.inj hmore).1
      exact absurd (by simp) hcore'
  · cases more with
    | nil => exact List.append_nil core'
    | cons a more =>
      obtain rfl := (List.cons.inj hmore).1
      exact absurd (by simp) hcore

/-- **Another frame**: an occurrence shares its marks before it or behind it. -/
theorem infix_frame (hcore : mark ∉ core) (hne : core ≠ []) (hcore' : mark ∉ core') (hne' : core' ≠ [])
    (hdiff : core' ≠ core) : frame mark core <:+: text ++ frame mark core' ++ rest ↔
      frame mark core <:+: text ++ [mark, mark] ∨ frame mark core <:+: mark :: mark :: rest := by
  have hframe :
      text ++ frame mark core' ++ rest = text ++ mark :: mark :: (core' ++ mark :: mark :: rest) := by
    simp [frame]
  constructor
  · rw [hframe]
    refine infix_frame_or hcore hne hcore' hne' ?_
    rintro ⟨behind, h⟩
    rw [List.append_assoc] at h
    exact hdiff (append_mark_inj hcore' hcore h.symm)
  · rintro (h | h)
    · exact h.trans ⟨[], core' ++ mark :: mark :: rest, by simp [frame]⟩
    · exact h.trans ⟨text ++ mark :: mark :: core', [], by simp [frame]⟩

/-- **The same frame**, but for its last mark. -/
theorem infix_frame_dropLast (hcore : mark ∉ core) (hne : core ≠ []) :
    frame mark core <:+: text ++ (frame mark core).dropLast ↔ frame mark core <:+: text ++ [mark, mark] := by
  have hframe : (frame mark core).dropLast = mark :: mark :: (core ++ [mark]) := by
    rw [frame, show mark :: mark :: core ++ [mark, mark] =
      (mark :: mark :: (core ++ [mark])) ++ [mark] by simp, List.dropLast_concat]
  rw [hframe]
  constructor
  · intro h
    have hno : ¬ core ++ [mark, mark] <+: core ++ [mark] := by
      intro h
      have hle := h.length_le
      simp at hle
    rcases infix_frame_or hcore hne hcore hne hno h with h | h
    · exact h
    · have hle := h.length_le
      simp [frame] at hle
  · exact fun h => h.trans ⟨[], core ++ [mark], by simp⟩

end

/-! ## Replacing -/

section

variable [DecidableEq α] {pattern new text rest : List α}

theorem replaceAll_append_cons {c : α} (hne : pattern ≠ []) (hc : c ∉ pattern) :
    replaceAll pattern new (text ++ c :: rest) =
        replaceAll pattern new text ++ c :: replaceAll pattern new rest := by
  have hcut := @replaceAll_append α _ pattern [c] rest hne ?_ ?_ new text
  · simpa using hcut
  · intro text
    simpa using dropPattern_append_cons hc text rest
  · intro d hd rest
    obtain ⟨p, pattern, rfl⟩ := List.exists_cons_of_ne_nil hne
    obtain rfl := List.mem_singleton.mp hd
    exact dropPattern_cons_ne (fun h => hc (List.mem_cons.mpr (Or.inl h))) _ _

theorem replaceAll_cons {c : α} (hne : pattern ≠ []) (hc : c ∉ pattern) :
    replaceAll pattern new (c :: rest) = c :: replaceAll pattern new rest := by
  have hcut := @replaceAll_append_cons α _ pattern new [] rest c hne hc
  rwa [replaceAll_nil hne, List.nil_append, List.nil_append] at hcut

theorem replaceAll_of_not_occurs (hne : pattern ≠ []) (h : ¬ pattern <:+: text) :
    replaceAll pattern new text = text :=
  replaceAll_eq_self hne (splitAround_eq_none.mpr h) new

theorem replaceAll_of_splitAround {before after : List α} (hne : pattern ≠ [])
    (h : splitAround pattern text = some (before, after)) :
    replaceAll pattern new text = before ++ new ++ replaceAll pattern new after := by
  have hsplit := substitute_splitAround (fun _ : Unit => new) (consumes_dropPattern hne)
    (fun text htext => by rw [htext]; rfl) hne text
  have hfirst := replaceAll_of_some hne (dropPattern_append pattern after) new
  rw [h, Option.map_some, Option.getD_some] at hsplit
  rw [replaceAll] at hfirst ⊢
  rw [hsplit, hfirst, List.append_assoc]

/-- **To write the pattern again** for what has replaced it. -/
theorem flatMap_replaceAll {f : α → List α} (hne : pattern ≠ []) (htext : ∀ a ∈ text, f a = [a])
    (hnew : new.flatMap f = pattern) : (replaceAll pattern new text).flatMap f = text := by
  induction text using scan_induction (consumes_dropPattern hne) with
  | nil => rw [replaceAll_nil hne]; rfl
  | copy c text h ih =>
    rw [replaceAll_of_none (Option.map_eq_none_iff.mp h), List.flatMap_cons, htext c List.mem_cons_self,
      ih fun a ha => htext a (List.mem_cons_of_mem c ha)]
    rfl
  | hit text b after h ih =>
    obtain ⟨after', hafter, heq⟩ := Option.map_eq_some_iff.mp h
    cases heq
    rw [dropPattern_eq_some.mp hafter] at htext
    rw [replaceAll_of_some hne hafter, List.flatMap_append, hnew,
      ih fun a ha => htext a (List.mem_append_right _ ha)]
    exact (dropPattern_eq_some.mp hafter).symm

end

section

variable [DecidableEq α] [DecidableEq β] {pattern new : List α} {word word' : β → List α}
  {mark text : List (α ⊕ β)}

/-- A word whose first and last letters are not in the pattern. -/
def Bracketed (pattern w : List α) : Prop := ∃ c inside d, w = c :: inside ++ [d] ∧ c ∉ pattern ∧ d ∉ pattern

omit [DecidableEq β] in
theorem replaceAll_ends {c d : α} (hne : pattern ≠ []) (hc : c ∉ pattern) (hd : d ∉ pattern)
    (inside : List α) :
    replaceAll pattern new (c :: inside ++ [d]) = c :: replaceAll pattern new inside ++ [d] := by
  rw [List.cons_append, replaceAll_cons hne hc, replaceAll_append_cons hne hd, replaceAll_nil hne]
  rfl

omit [DecidableEq β] in
theorem replaceAll_bracketed {w : List α} (hne : pattern ≠ []) (h : Bracketed pattern w)
    (text rest : List α) :
    replaceAll pattern new (text ++ w ++ rest) =
      replaceAll pattern new text ++ replaceAll pattern new w ++ replaceAll pattern new rest := by
  obtain ⟨c, inside, d, rfl, hc, hd⟩ := h
  rw [replaceAll_ends hne hc hd,
    show text ++ (c :: inside ++ [d]) ++ rest = text ++ c :: (inside ++ d :: rest) by
    simp, replaceAll_append_cons hne hc, replaceAll_append_cons hne hd]
  simp

theorem replaceAll_letters (hne : pattern ≠ []) (hmark : spell word mark = new) (letters : List α) :
    spell word (replaceAll (pattern.map .inl) mark (letters.map .inl)) = replaceAll pattern new letters := by
  have hne' : pattern.map (.inl : α → α ⊕ β) ≠ [] := fun h => hne (List.map_eq_nil_iff.mp h)
  have hdrop := @dropPattern_letters α β _ _ pattern
  induction letters using scan_induction (consumes_dropPattern hne) with
  | nil => rw [List.map_nil, replaceAll_nil hne', replaceAll_nil hne, spell_nil]
  | copy c letters h ih =>
    have hnone : dropPattern pattern (c :: letters) = none := Option.map_eq_none_iff.mp h
    have hletters : dropPattern (pattern.map .inl) ((.inl c : α ⊕ β) :: letters.map .inl) = none := by
      rw [← List.map_cons, hdrop, hnone]
      rfl
    rw [List.map_cons, replaceAll_of_none hletters, replaceAll_of_none hnone, spell_letter, ih]
  | hit letters b after h ih =>
    obtain ⟨after', hafter, heq⟩ := Option.map_eq_some_iff.mp h
    cases heq
    have hletters :
        dropPattern (pattern.map .inl) (letters.map (.inl : α → α ⊕ β)) = some (after.map .inl) := by
      rw [hdrop, hafter]
      rfl
    rw [replaceAll_of_some hne' hletters, replaceAll_of_some hne hafter, spell_append, ih, hmark]

/-- **Replacing in a spelled text**: in its letters, where a mark is put, and in each of its words. -/
theorem replaceAll_spell (hne : pattern ≠ []) (h : Within (fun w => Bracketed pattern (word w)) text)
    (hword : ∀ w, .inr w ∈ text → word' w = replaceAll pattern new (word w))
    (hmark : spell word' mark = new) :
    replaceAll pattern new (spell word text) = spell word' (replaceAll (pattern.map .inl) mark text) := by
  have hne' : pattern.map (.inl : α → α ⊕ β) ≠ [] := fun h => hne (List.map_eq_nil_iff.mp h)
  have hforeign : ∀ w : β, (.inr w : α ⊕ β) ∉ pattern.map .inl := by
    intro w hw
    obtain ⟨c, -, hc⟩ := List.mem_map.mp hw
    cases hc
  induction hlength : text.length using Nat.strong_induction_on generalizing text with
  | _ n ih =>
    rcases letters_or_word text with ⟨letters, rfl⟩ | ⟨letters, w, rest, rfl⟩
    · rw [spell_letters, replaceAll_letters hne hmark]
    · have hw := h w (by simp)
      have hrest := ih rest.length (by simp [← hlength]; omega) (h.subset (by simp [List.subset_def]; tauto))
        (fun v hv => hword v (by simp [hv])) rfl
      rw [spell_append, spell_letters, spell_word, ← List.append_assoc, replaceAll_bracketed hne hw,
        replaceAll_append_cons hne' (hforeign w), spell_append, replaceAll_letters hne hmark, spell_word,
        hrest,
        hword w (by simp)]
      simp

end

end Occurrences
