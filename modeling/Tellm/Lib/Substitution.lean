/-
  SUBSTITUTION: a text read from left to right, matches taken without overlap.

  A scanner looks at the head of what is left of a text.  Either it matches there, takes what it matches and
  goes on behind it, or it copies one symbol and goes on at the next one.  `str::replace`, the `sub` of a
  regular expression and a loop around `str::find` are all of this kind; they differ in the STEP, which says
  what is matched at the head of a text and what is left behind the match.

  1. **`pieces`**: the text cut into copied symbols and matches; `substitute` puts it together again.
  2. **`Consumes`**: a step whose matches are not empty.  Its scanner is two equations and an induction
     (`pieces_of_none`, `pieces_of_some`, `scan_induction`).
  3. **`splitAround`**: the text around the first occurrence of a pattern.  A scanner that needs the pattern
     copies everything before it (`pieces_splitAround`).

  Texts are lists over any type, and a match may be any value, so a scanner can return what it found
  (`found`), count it, or render it.  The recursion is on the length of what is left; where a step matches
  and takes nothing, one symbol is copied behind the match, so the functions are total for every step, and
  the equations are stated for those that consume.

  Two scanners with steps that correspond have outputs that correspond (`substitute_map`), and a property
  of symbols that a renderer keeps is kept by its scanner (`forall_mem_substitute`).
-/
import Mathlib

namespace Substitutions

variable {α β : Type}

/-- What is matched at the head of a text, and what is left. -/
abbrev Step (α β : Type) := List α → Option (β × List α)

/-- A match of nothing is followed by the symbol it stands before. -/
def pieces (step : Step α β) (text : List α) : List (α ⊕ β) :=
  match text with
  | [] => ((step []).map fun found => .inr found.1).toList
  | c :: rest =>
    match step (c :: rest) with
    | none => .inl c :: pieces step rest
    | some (b, after) =>
      if after.length < rest.length + 1 then .inr b :: pieces step after
      else .inr b :: .inl c :: pieces step rest
termination_by text.length

/-- A copied symbol stands for itself, a match for what is put in its place. -/
def restore (render : β → List α) : α ⊕ β → List α
  | .inl c => [c]
  | .inr b => render b

/-- The text with every match replaced. -/
def substitute (step : Step α β) (render : β → List α) (text : List α) : List α :=
  (pieces step text).flatMap (restore render)

/-- The matches. -/
def found (step : Step α β) (text : List α) : List β := (pieces step text).filterMap Sum.getRight?

/-- No match is empty, and what is left follows it. -/
def Consumes (step : Step α β) : Prop :=
  ∀ text b rest, step text = some (b, rest) → ∃ taken, taken ≠ [] ∧ text = taken ++ rest

section

variable {step : Step α β} {render : β → List α} {text rest : List α} {b : β}

/-- A step that consumes leaves less text than it was given, which is why a substitution ends. -/
theorem Consumes.length_lt (hc : Consumes step) (h : step text = some (b, rest)) :
    rest.length < text.length := by
  obtain ⟨taken, hne, rfl⟩ := hc text b rest h
  have hpos := List.length_pos_iff.mpr hne
  rw [List.length_append]
  omega

/-- The empty text has no pieces. -/
theorem pieces_nil (hc : Consumes step) : pieces step [] = [] := by
  rw [pieces]
  cases h : step [] with
  | none => rfl
  | some m => exact absurd (hc.length_lt h) (Nat.not_lt_zero _)

/-- A symbol at which the step finds nothing is a piece of its own. -/
theorem pieces_of_none {c : α} (h : step (c :: rest) = none) :
    pieces step (c :: rest) = .inl c :: pieces step rest := by
  rw [pieces, h]

/-- What the step finds is a piece, and the search goes on behind it. -/
theorem pieces_of_some (hc : Consumes step) (h : step text = some (b, rest)) :
    pieces step text = .inr b :: pieces step rest := by
  have hlt := hc.length_lt h
  cases text with
  | nil => exact absurd hlt (Nat.not_lt_zero _)
  | cons c text =>
    rw [pieces, h]
    exact if_pos hlt

/-- Nothing is put into the empty text. -/
theorem substitute_nil (hc : Consumes step) : substitute step render [] = [] := by
  rw [substitute, pieces_nil hc]
  rfl

/-- A symbol at which the step finds nothing is copied. -/
theorem substitute_of_none {c : α} (h : step (c :: rest) = none) :
    substitute step render (c :: rest) = c :: substitute step render rest := by
  rw [substitute, pieces_of_none h]
  rfl

/-- What the step finds is rendered, and the substitution goes on behind it. -/
theorem substitute_of_some (hc : Consumes step) (h : step text = some (b, rest)) :
    substitute step render text = render b ++ substitute step render rest := by
  rw [substitute, pieces_of_some hc h]
  rfl

/-- Symbols at which nothing matches are copied. -/
theorem substitute_copied {copied : List α} (h : ∀ c ∈ copied, ∀ rest, step (c :: rest) = none)
    (rest : List α) :
    substitute step render (copied ++ rest) = copied ++ substitute step render rest := by
  induction copied with
  | nil => rfl
  | cons c copied ih =>
    rw [List.cons_append, substitute_of_none (h c List.mem_cons_self _),
      ih fun d hd => h d (List.mem_cons_of_mem _ hd), List.cons_append]

/-- In the empty text nothing is found. -/
theorem found_nil (hc : Consumes step) : found step [] = [] := by
  rw [found, pieces_nil hc]
  rfl

/-- A symbol at which the step finds nothing adds nothing. -/
theorem found_of_none {c : α} (h : step (c :: rest) = none) :
    found step (c :: rest) = found step rest := by
  rw [found, pieces_of_none h]
  rfl

/-- What the step finds comes first. -/
theorem found_of_some (hc : Consumes step) (h : step text = some (b, rest)) :
    found step text = b :: found step rest := by
  rw [found, pieces_of_some hc h]
  rfl

/-- The induction along a scan. -/
theorem scan_induction (hc : Consumes step) {motive : List α → Prop} (nil : motive [])
    (copy : ∀ c rest, step (c :: rest) = none → motive rest → motive (c :: rest))
    (hit : ∀ text b rest, step text = some (b, rest) → motive rest → motive text) (text : List α) :
    motive text := by
  induction hn : text.length using Nat.strong_induction_on generalizing text with
  | _ n ih =>
    subst hn
    cases hstep : step text with
    | some m => exact hit text m.1 m.2 hstep (ih _ (hc.length_lt hstep) m.2 rfl)
    | none =>
      cases text with
      | nil => exact nil
      | cons c rest => exact copy c rest hstep (ih _ (Nat.lt_succ_self _) rest rfl)

/-- What holds of every symbol still does, if it does of what is put in. -/
theorem forall_mem_substitute {good : α → Prop} (hc : Consumes step)
    (hrender : ∀ text b rest, (∀ a ∈ text, good a) → step text = some (b, rest) → ∀ a ∈ render b, good a)
    (text : List α) (h : ∀ a ∈ text, good a) : ∀ a ∈ substitute step render text, good a := by
  induction text using scan_induction hc with
  | nil =>
    rw [substitute_nil hc]
    exact h
  | copy c rest hstep ih =>
    obtain ⟨hc', hrest⟩ := List.forall_mem_cons.mp h
    rw [substitute_of_none hstep]
    exact List.forall_mem_cons.mpr ⟨hc', ih hrest⟩
  | hit text b rest hstep ih =>
    have hb := hrender text b rest h hstep
    obtain ⟨taken, -, rfl⟩ := hc text b rest hstep
    rw [substitute_of_some hc hstep]
    exact List.forall_mem_append.mpr ⟨hb, ih (List.forall_mem_append.mp h).2⟩

/-- The pieces, when the matches are called something else. -/
theorem pieces_map {γ : Type} {step' : Step α γ} (g : β → γ) (hc : Consumes step)
    (hstep : ∀ text, step' text = (step text).map fun m => (g m.1, m.2)) (text : List α) :
    pieces step' text = (pieces step text).map (Sum.map id g) := by
  have hc' : Consumes step' := by
    intro text b rest h
    rw [hstep] at h
    obtain ⟨m, hm, heq⟩ := Option.map_eq_some_iff.mp h
    cases heq
    exact hc text m.1 m.2 hm
  induction text using scan_induction hc with
  | nil => rw [pieces_nil hc, pieces_nil hc', List.map_nil]
  | copy c rest h ih =>
    have h' : step' (c :: rest) = none := by rw [hstep, h]; rfl
    rw [pieces_of_none h, pieces_of_none h', ih]
    rfl
  | hit text b rest h ih =>
    have h' : step' text = some (g b, rest) := by rw [hstep, h]; rfl
    rw [pieces_of_some hc h, pieces_of_some hc' h', ih]
    rfl

/-- What a match is called does not matter. -/
theorem substitute_map {γ : Type} {step' : Step α γ} {render' : γ → List α} (g : β → γ) (hc : Consumes step)
    (hstep : ∀ text, step' text = (step text).map fun m => (g m.1, m.2)) (text : List α) :
    substitute step' render' text = substitute step (fun b => render' (g b)) text := by
  rw [substitute, substitute, pieces_map g hc hstep, List.flatMap_map]
  congr 1
  funext piece
  cases piece <;> rfl

end

/-! ## Patterns -/

section

variable [DecidableEq α]

/-- The text behind the pattern at its head. -/
def dropPattern (pattern text : List α) : Option (List α) :=
  if pattern.isPrefixOf text then some (text.drop pattern.length) else none

/-- The text on both sides of the first occurrence of the pattern. -/
def splitAround (pattern : List α) : List α → Option (List α × List α)
  | [] => (dropPattern pattern []).map fun after => ([], after)
  | c :: rest =>
    match dropPattern pattern (c :: rest) with
    | some after => some ([], after)
    | none => (splitAround pattern rest).map fun parts => (c :: parts.1, parts.2)

/-- The pattern is replaced, everywhere. -/
def replaceAll (pattern new text : List α) : List α :=
  substitute (fun text => (dropPattern pattern text).map fun rest => ((), rest)) (fun _ => new) text

variable {pattern text before after : List α}

/-- The pattern is dropped where the text begins with it, and what is left is the rest. -/
theorem dropPattern_eq_some : dropPattern pattern text = some after ↔ text = pattern ++ after := by
  unfold dropPattern
  constructor
  · intro h
    split at h
    · rename_i hstart
      obtain ⟨rest, rfl⟩ := List.isPrefixOf_iff_prefix.mp hstart
      rw [List.drop_left] at h
      rw [Option.some.inj h]
    · cases h
  · rintro rfl
    rw [if_pos (List.isPrefixOf_iff_prefix.mpr (List.prefix_append pattern after)), List.drop_left]

/-- A text that is put together with the pattern in front loses it again. -/
theorem dropPattern_append (pattern after : List α) : dropPattern pattern (pattern ++ after) = some after :=
  dropPattern_eq_some.mpr rfl

/-- It is not dropped where it is no prefix. -/
theorem dropPattern_eq_none : dropPattern pattern text = none ↔ ¬ pattern <+: text := by
  rw [Option.eq_none_iff_forall_ne_some]
  constructor
  · rintro h ⟨after, rfl⟩
    exact h after (dropPattern_append pattern after)
  · intro h after hafter
    exact h ⟨after, (dropPattern_eq_some.mp hafter).symm⟩

/-- A common head may be taken off both. -/
theorem dropPattern_cons (c : α) (pattern text : List α) :
    dropPattern (c :: pattern) (c :: text) = dropPattern pattern text := by
  simp [dropPattern]

/-- Different heads settle it. -/
theorem dropPattern_cons_ne {c d : α} (h : c ≠ d) (pattern text : List α) :
    dropPattern (d :: pattern) (c :: text) = none := by
  rw [dropPattern_eq_none]
  rintro ⟨after, hafter⟩
  exact h (List.cons.inj hafter).1.symm

/-- A pattern in two parts is dropped part by part. -/
theorem dropPattern_append_pattern (pattern pattern' text : List α) :
    dropPattern (pattern ++ pattern') text = (dropPattern pattern text).bind (dropPattern pattern') := by
  refine Option.ext fun after => ?_
  rw [Option.bind_eq_some_iff, dropPattern_eq_some]
  constructor
  · rintro rfl
    exact ⟨pattern' ++ after, by rw [dropPattern_eq_some, List.append_assoc], dropPattern_append _ _⟩
  · rintro ⟨rest, hrest, hafter⟩
    rw [dropPattern_eq_some.mp hrest, dropPattern_eq_some.mp hafter, List.append_assoc]

/-- No occurrence runs over a symbol that is not in the pattern. -/
theorem dropPattern_append_cons {c : α} (hc : c ∉ pattern) (text rest : List α) :
    dropPattern pattern (text ++ c :: rest) = (dropPattern pattern text).map (· ++ c :: rest) := by
  induction pattern generalizing text with
  | nil => rfl
  | cons d pattern ih =>
    obtain ⟨hd, hpattern⟩ := not_or.mp fun h => hc (List.mem_cons.mpr h)
    cases text with
    | nil => rw [List.nil_append, dropPattern_cons_ne hd]; rfl
    | cons e text =>
      by_cases he : e = d
      · rw [he, List.cons_append, dropPattern_cons, dropPattern_cons, ih hpattern]
      · rw [List.cons_append, dropPattern_cons_ne he, dropPattern_cons_ne he]; rfl

/-- A text that begins with the pattern is split there, with nothing before it. -/
theorem splitAround_of_some {after : List α} (h : dropPattern pattern text = some after) :
    splitAround pattern text = some ([], after) := by
  cases text with
  | nil => rw [splitAround, h]; rfl
  | cons c text => rw [splitAround, h]

/-- Elsewhere the first symbol belongs to what is before the first occurrence. -/
theorem splitAround_cons {c : α} (h : dropPattern pattern (c :: text) = none) :
    splitAround pattern (c :: text) =
      (splitAround pattern text).map fun parts => (c :: parts.1, parts.2) := by
  rw [splitAround, h]

/-- The parts of a split and the pattern between them make up the text. -/
theorem eq_of_splitAround (h : splitAround pattern text = some (before, after)) :
    text = before ++ pattern ++ after := by
  induction text generalizing before with
  | nil =>
    obtain ⟨rest, hrest, heq⟩ := Option.map_eq_some_iff.mp h
    cases heq
    exact dropPattern_eq_some.mp hrest
  | cons c text ih =>
    cases hdrop : dropPattern pattern (c :: text) with
    | some rest =>
      rw [splitAround_of_some hdrop] at h
      cases h
      exact dropPattern_eq_some.mp hdrop
    | none =>
      rw [splitAround_cons hdrop] at h
      obtain ⟨parts, hparts, heq⟩ := Option.map_eq_some_iff.mp h
      cases heq
      rw [ih hparts]
      rfl

/-- The text behind an occurrence is shorter than the whole. -/
theorem length_splitAround (hne : pattern ≠ []) (h : splitAround pattern text = some (before, after)) :
    after.length < text.length := by
  have hpos := List.length_pos_iff.mpr hne
  rw [eq_of_splitAround h, List.length_append, List.length_append]
  omega

/-- A step that needs the pattern at the head copies everything before the first occurrence. -/
theorem pieces_splitAround {step : Step α β} (hc : Consumes step)
    (hneeds : ∀ text, dropPattern pattern text = none → step text = none) (hne : pattern ≠ [])
    (text : List α) : pieces step text =
      ((splitAround pattern text).map fun parts =>
        parts.1.map .inl ++ pieces step (pattern ++ parts.2)).getD (text.map .inl) := by
  induction text with
  | nil =>
    have hnone : dropPattern pattern ([] : List α) = none := by
      rw [dropPattern_eq_none, List.prefix_nil]
      exact hne
    rw [pieces_nil hc, splitAround, hnone]
    rfl
  | cons c text ih =>
    cases hdrop : dropPattern pattern (c :: text) with
    | some rest =>
      rw [splitAround_of_some hdrop, dropPattern_eq_some.mp hdrop]
      rfl
    | none =>
      rw [pieces_of_none (hneeds _ hdrop), splitAround_cons hdrop, ih]
      cases splitAround pattern text <;> rfl

/-- If the step needs the pattern to be at the head, a substitution may jump to its first occurrence: what is
    before it is copied. -/
theorem substitute_splitAround {step : Step α β} (render : β → List α) (hc : Consumes step)
    (hneeds : ∀ text, dropPattern pattern text = none → step text = none) (hne : pattern ≠ [])
    (text : List α) : substitute step render text =
      ((splitAround pattern text).map fun parts =>
        parts.1 ++ substitute step render (pattern ++ parts.2)).getD text := by
  have hcopy : ∀ copied : List α, (copied.map (Sum.inl : α → α ⊕ β)).flatMap (restore render) = copied := by
    intro copied
    rw [List.flatMap_map]
    exact List.flatMap_singleton' copied
  rw [substitute, pieces_splitAround hc hneeds hne]
  cases splitAround pattern text with
  | none => exact hcopy text
  | some parts =>
    show (parts.1.map (Sum.inl : α → α ⊕ β) ++ _).flatMap _ = _
    rw [List.flatMap_append, hcopy]
    rfl

/-- Dropping a pattern that is not empty consumes. -/
theorem consumes_dropPattern (hne : pattern ≠ []) :
    Consumes (fun text : List α => (dropPattern pattern text).map fun rest => ((), rest)) := by
  intro text b rest h
  obtain ⟨rest', hrest, heq⟩ := Option.map_eq_some_iff.mp h
  cases heq
  exact ⟨pattern, hne, dropPattern_eq_some.mp hrest⟩

/-- Nothing is replaced in the empty text. -/
theorem replaceAll_nil (hne : pattern ≠ []) (new : List α) : replaceAll pattern new [] = [] :=
  substitute_nil (consumes_dropPattern hne)

/-- A symbol at which the pattern does not begin is copied. -/
theorem replaceAll_of_none {c : α} (h : dropPattern pattern (c :: text) = none) (new : List α) :
    replaceAll pattern new (c :: text) = c :: replaceAll pattern new text :=
  substitute_of_none (by rw [h]; rfl)

/-- An occurrence is replaced, and the search goes on behind it, not in what was put in. -/
theorem replaceAll_of_some (hne : pattern ≠ []) (h : dropPattern pattern text = some after) (new : List α) :
    replaceAll pattern new text = new ++ replaceAll pattern new after :=
  substitute_of_some (consumes_dropPattern hne) (by rw [h]; rfl)

/-- Where the pattern does not occur, nothing is replaced. -/
theorem replaceAll_eq_self (hne : pattern ≠ []) (h : splitAround pattern text = none) (new : List α) :
    replaceAll pattern new text = text := by
  rw [replaceAll, substitute_splitAround _ (consumes_dropPattern hne)
    (fun text htext => by rw [htext]; rfl) hne, h]
  rfl

/-- A part of the text that no occurrence touches stays where it is. -/
theorem replaceAll_append {part rest : List α} (hne : pattern ≠ [])
    (hcross : ∀ text, dropPattern pattern (text ++ part ++ rest) =
      (dropPattern pattern text).map (· ++ part ++ rest))
    (hpart : ∀ c ∈ part, ∀ rest, dropPattern pattern (c :: rest) = none) (new text : List α) :
    replaceAll pattern new (text ++ part ++ rest) =
      replaceAll pattern new text ++ part ++ replaceAll pattern new rest := by
  induction text using scan_induction (consumes_dropPattern hne) with
  | nil =>
    rw [List.nil_append, replaceAll_nil hne]
    exact substitute_copied (fun c hc rest => by rw [hpart c hc rest]; rfl) rest
  | copy c text h ih =>
    have hnone : dropPattern pattern (c :: text) = none := Option.map_eq_none_iff.mp h
    have hwhole : dropPattern pattern (c :: (text ++ part ++ rest)) = none := by
      rw [show c :: (text ++ part ++ rest) = c :: text ++ part ++ rest from rfl, hcross, hnone]
      rfl
    rw [replaceAll_of_none hnone, List.cons_append, List.cons_append, replaceAll_of_none hwhole, ih]
    rfl
  | hit text b after h ih =>
    have hsome : dropPattern pattern text = some after := by
      obtain ⟨after', hafter, heq⟩ := Option.map_eq_some_iff.mp h
      cases heq
      exact hafter
    have hwhole : dropPattern pattern (text ++ part ++ rest) = some (after ++ part ++ rest) := by
      rw [hcross, hsome]
      rfl
    rw [replaceAll_of_some hne hsome, replaceAll_of_some hne hwhole, ih]
    simp only [List.append_assoc]

/-- No occurrence runs over a symbol that is not in the pattern. -/
theorem infix_append_cons {c : α} (hc : c ∉ pattern) {rest : List α} (h : pattern <:+: text ++ c :: rest) :
    pattern <:+: text ∨ pattern <:+: rest := by
  induction text with
  | nil =>
    rcases List.infix_cons_iff.mp h with ⟨more, hmore⟩ | h
    · cases pattern with
      | nil => exact Or.inl List.nil_infix
      | cons d pattern => exact absurd (List.mem_cons.mpr (Or.inl (List.cons.inj hmore).1.symm)) hc
    · exact Or.inr h
  | cons d text ih =>
    rcases List.infix_cons_iff.mp h with ⟨more, hmore⟩ | h
    · have hdrop := dropPattern_append_cons hc (d :: text) rest
      rw [show d :: text ++ c :: rest = pattern ++ more from hmore.symm, dropPattern_append] at hdrop
      obtain ⟨behind, hbehind, -⟩ := Option.map_eq_some_iff.mp hdrop.symm
      refine Or.inl (List.IsPrefix.isInfix ⟨behind, ?_⟩)
      exact (dropPattern_eq_some.mp hbehind).symm
    · exact (ih h).imp (fun h => h.trans (List.suffix_cons d text).isInfix) id

/-- What the head of the new text cannot start was there before. -/
theorem prefix_of_prefix_replaceAll {new start : List α} {a : α} (hne : pattern ≠ [])
    (hnew : new.head? = some a) (ha : a ∉ start) (h : start <+: replaceAll pattern new text) :
    start <+: text := by
  induction text using scan_induction (consumes_dropPattern hne) generalizing start with
  | nil => rwa [replaceAll_nil hne] at h
  | copy c text hnone ih =>
    rw [replaceAll_of_none (Option.map_eq_none_iff.mp hnone)] at h
    cases start with
    | nil => exact List.nil_prefix
    | cons d start =>
      obtain ⟨rfl, hrest⟩ := List.cons_prefix_cons.mp h
      exact List.cons_prefix_cons.mpr ⟨rfl, ih (fun hmem => ha (List.mem_cons_of_mem _ hmem)) hrest⟩
  | hit text b after hsome ih =>
    obtain ⟨after', hafter, heq⟩ := Option.map_eq_some_iff.mp hsome
    rw [replaceAll_of_some hne hafter] at h
    cases start with
    | nil => exact List.nil_prefix
    | cons d start =>
      obtain ⟨b, new, rfl⟩ := List.exists_cons_of_ne_nil (show new ≠ [] by rintro rfl; cases hnew)
      obtain ⟨rfl, -⟩ := List.cons_prefix_cons.mp h
      exact absurd (List.mem_cons.mpr (Or.inl (Option.some.inj hnew).symm)) ha

/-- **Nothing is left** of a pattern that the new text does not hold, and whose symbols do not stand at
    the new text's ends. -/
theorem not_infix_replaceAll {new inside : List α} {a b : α} (hne : pattern ≠ [])
    (hnew : new = a :: inside ++ [b]) (ha : a ∉ pattern) (hb : b ∉ pattern) (hocc : ¬ pattern <:+: new)
    (text : List α) :
    ¬ pattern <:+: replaceAll pattern new text := by
  have hstart : ¬ pattern <:+: a :: inside := fun h => hocc (by
    rw [hnew]
    exact h.trans (List.prefix_append _ _).isInfix)
  -- on the scan: an occurrence cannot lie across an end of the new text
  induction text using scan_induction (consumes_dropPattern hne) with
  | nil =>
    rw [replaceAll_nil hne, List.infix_nil]
    exact hne
  | copy c text hnone ih =>
    have hdrop : dropPattern pattern (c :: text) = none := Option.map_eq_none_iff.mp hnone
    intro h
    have hwhole := replaceAll_of_none hdrop new
    rw [hwhole] at h
    rcases List.infix_cons_iff.mp h with h | h
    · rw [← hwhole] at h
      refine dropPattern_eq_none.mp hdrop (prefix_of_prefix_replaceAll hne ?_ ha h)
      rw [hnew]
      rfl
    · exact ih h
  | hit text m after hsome ih =>
    obtain ⟨after', hafter, heq⟩ := Option.map_eq_some_iff.mp hsome
    cases heq
    intro h
    have hwhole : replaceAll pattern new text = a :: inside ++ b :: replaceAll pattern new after := by
      rw [replaceAll_of_some hne hafter]
      conv_lhs => rw [hnew]
      rw [List.append_assoc, List.singleton_append, ← hnew]
    rw [hwhole] at h
    exact (infix_append_cons hb h).elim hstart ih

/-- Replacing one symbol. -/
theorem replaceAll_singleton (c : α) (new text : List α) :
    replaceAll [c] new text = text.flatMap fun d => if d = c then new else [d] := by
  have hne := List.cons_ne_nil c []
  induction text with
  | nil => exact replaceAll_nil hne new
  | cons d text ih =>
    rw [List.flatMap_cons, ← ih]
    by_cases h : d = c
    · rw [if_pos h, h, show c :: text = [c] ++ text from rfl,
        replaceAll_of_some hne (dropPattern_append [c] text)]
    · rw [if_neg h, replaceAll_of_none (dropPattern_cons_ne h [] text)]
      rfl

end

/-! ## Lines -/

/-- The parts of a text do not hold what it is split at. -/
theorem mem_splitOn [BEq α] [LawfulBEq α] {text line : List α} {separator : α}
    (h : line ∈ text.splitOn separator) :
    separator ∉ line ∧ line ⊆ text := by
  induction text generalizing line with
  | nil =>
    rw [List.splitOn_nil, List.mem_singleton] at h
    rw [h]
    exact ⟨List.not_mem_nil, List.Subset.refl _⟩
  | cons c text ih =>
    rw [List.splitOn_cons_eq_if_modifyHead] at h
    split at h
    · rcases List.mem_cons.mp h with rfl | h
      · exact ⟨List.not_mem_nil, List.nil_subset _⟩
      · exact ⟨(ih h).1, List.subset_cons_of_subset c (ih h).2⟩
    · rename_i hc
      cases hsplit : text.splitOn separator with
      | nil => exact absurd hsplit (List.splitOn_ne_nil _ _)
      | cons first lines =>
        rw [hsplit] at h ih
        rcases List.mem_cons.mp h with rfl | h
        · have hfirst := ih List.mem_cons_self
          refine ⟨?_, List.cons_subset_cons c hfirst.2⟩
          rw [List.mem_cons]
          exact not_or.mpr ⟨fun heq => hc (beq_iff_eq.mpr heq.symm), hfirst.1⟩
        · have hline := ih (List.mem_cons_of_mem _ h)
          exact ⟨hline.1, List.subset_cons_of_subset c hline.2⟩

end Substitutions
