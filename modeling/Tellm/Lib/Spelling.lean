/-
  SPELLING: a text over letters and words, and the text of letters it spells.

  A scanner reads letters.  Where some of them come from elsewhere (a marker, a tag that an earlier pass
  has put in), a richer text tells them apart: a symbol of it is a letter or a whole word, and `spell`
  writes the words out.  As long as no match touches a word, reading and spelling commute, and what the
  scanner does to the letters it does to the richer text.

  1. **`Untouched`**: a word that no occurrence of a pattern begins in or runs into.
  2. **`dropPattern_spell`**, **`splitAround_spell`**: the pattern is found at the same place.
  3. **`substitute_spell`**: scanning and spelling commute.  `lines_spell` and `dropWhile_spell` are what
     else a scanner does to a text.

  Letters and words are of any types.  The words are not required to be told apart by their texts, and a
  text of letters may spell the same as one with words; the theorems go from the richer text to the plain
  one only.

  An untouched word is one that the pattern neither starts in nor reaches into from the letters around
  it.  It is a condition on the word alone, for all that may stand next to it, so it is checked once for
  each word and pattern.
-/
import Tellm.Lib.Substitution

namespace Spellings

open Substitutions

variable {α β : Type}

/-- The words written out. -/
def spell (word : β → List α) (text : List (α ⊕ β)) : List α := text.flatMap (restore word)

/-- Every word of the text is one of these. -/
def Within (words : β → Prop) (text : List (α ⊕ β)) : Prop := ∀ w, .inr w ∈ text → words w

/-- What a predicate says of a symbol: words do not satisfy it. -/
def onLetter (p : α → Bool) : α ⊕ β → Bool := Sum.elim p fun _ => false

section

variable {word : β → List α} {words : β → Prop} {text text' : List (α ⊕ β)}

@[simp] theorem spell_nil : spell word [] = [] := rfl

@[simp] theorem spell_letter (c : α) : spell word (.inl c :: text) = c :: spell word text := rfl

@[simp] theorem spell_word (w : β) : spell word (.inr w :: text) = word w ++ spell word text := rfl

@[simp] theorem spell_append : spell word (text ++ text') = spell word text ++ spell word text' :=
  List.flatMap_append

@[simp] theorem spell_letters (letters : List α) : spell word (letters.map .inl) = letters := by
  rw [spell, List.flatMap_map]
  exact List.flatMap_singleton' letters

theorem within_nil : Within words ([] : List (α ⊕ β)) := fun _ h => absurd h List.not_mem_nil

theorem within_cons {a : α ⊕ β} :
    Within words (a :: text) ↔ (∀ w, a = .inr w → words w) ∧ Within words text := by
  constructor
  · exact fun h => ⟨fun w hw => h w (hw ▸ List.mem_cons_self), fun w hw => h w (List.mem_cons_of_mem _ hw)⟩
  · rintro ⟨ha, htext⟩ w hw
    rcases List.mem_cons.mp hw with rfl | hw
    · exact ha w rfl
    · exact htext w hw

theorem within_append : Within words (text ++ text') ↔ Within words text ∧ Within words text' := by
  constructor
  · exact fun h => ⟨fun w hw => h w (List.mem_append_left _ hw), fun w hw => h w (List.mem_append_right _ hw)⟩
  · rintro ⟨h, h'⟩ w hw
    exact (List.mem_append.mp hw).elim (h w) (h' w)

theorem within_letters (letters : List α) : Within words (letters.map (.inl : α → α ⊕ β)) := by
  intro w hw
  obtain ⟨c, -, hc⟩ := List.mem_map.mp hw
  cases hc

theorem Within.mono {words' : β → Prop} (h : Within words text) (himp : ∀ w, words w → words' w) :
    Within words' text :=
  fun w hw => himp w (h w hw)

theorem Within.subset (h : Within words text) (hsub : text' ⊆ text) : Within words text' :=
  fun w hw => h w (hsub hw)

/-- Letters up to the end, or up to a word. -/
theorem letters_or_word (text : List (α ⊕ β)) : (∃ letters : List α, text = letters.map .inl) ∨
    ∃ (letters : List α) (w : β) (rest : List (α ⊕ β)), text = letters.map .inl ++ .inr w :: rest := by
  induction text with
  | nil => exact Or.inl ⟨[], rfl⟩
  | cons a text ih =>
    rcases a with c | w
    · rcases ih with ⟨letters, rfl⟩ | ⟨letters, w, rest, rfl⟩
      · exact Or.inl ⟨c :: letters, rfl⟩
      · exact Or.inr ⟨c :: letters, w, rest, rfl⟩
    · exact Or.inr ⟨[], w, text, rfl⟩

theorem spell_eq_nil (hne : ∀ w, words w → word w ≠ []) (h : Within words text) :
    spell word text = [] ↔ text = [] := by
  constructor
  · intro hnil
    cases text with
    | nil => rfl
    | cons a text =>
      rcases a with c | w
      · cases hnil
      · exact absurd (List.append_eq_nil_iff.mp hnil).1 (hne w (h w List.mem_cons_self))
  · rintro rfl
    rfl

/-- A letter that is in no word. -/
theorem mem_spell {c : α} (hword : ∀ w, words w → c ∉ word w) (h : Within words text) :
    c ∈ spell word text ↔ .inl c ∈ text := by
  rw [spell, List.mem_flatMap]
  constructor
  · rintro ⟨a, ha, hc⟩
    rcases a with d | w
    · obtain rfl := List.mem_singleton.mp hc
      exact ha
    · exact absurd hc (hword w (h w ha))
  · exact fun hc => ⟨.inl c, hc, List.mem_singleton.mpr rfl⟩

/-- A letter of the spelling is one of the text, or stands in a word of it. -/
theorem spell_eq_append_cons {before after : List α} {c : α} (h : spell word text = before ++ c :: after) :
    (∃ t t', text = t ++ .inl c :: t' ∧ before = spell word t ∧ after = spell word t') ∨
      ∃ t w t' start rest, text = t ++ .inr w :: t' ∧ word w = start ++ c :: rest ∧
        before = spell word t ++ start ∧ after = rest ++ spell word t' := by
  induction text generalizing before with
  | nil => cases before <;> cases h
  | cons a text ih =>
    -- the letter stands behind the first symbol
    have hbehind : ∀ {start more : List α}, before = start ++ more → spell word text = more ++ c :: after →
        spell word [a] = start →
        (∃ t t', a :: text = t ++ .inl c :: t' ∧ before = spell word t ∧ after = spell word t') ∨
          ∃ t w t' start rest, a :: text = t ++ .inr w :: t' ∧ word w = start ++ c :: rest ∧
            before = spell word t ++ start ∧ after = rest ++ spell word t' := by
      rintro start more rfl htext rfl
      rcases ih htext with ⟨t, t', rfl, rfl, rfl⟩ | ⟨t, w, t', start, rest, rfl, hw, rfl, rfl⟩
      · exact Or.inl ⟨a :: t, t', rfl, spell_append.symm, rfl⟩
      · exact Or.inr
          ⟨a :: t, w, t', start, rest, rfl, hw, by rw [← List.append_assoc, ← spell_append]; rfl, rfl⟩
    rcases a with d | w
    · cases before with
      | nil =>
        obtain ⟨rfl, rfl⟩ := List.cons.inj h
        exact Or.inl ⟨[], text, rfl, rfl, rfl⟩
      | cons b before =>
        obtain ⟨rfl, htext⟩ := List.cons.inj h
        exact @hbehind [d] before rfl htext rfl
    · rw [spell_word, List.append_eq_append_iff] at h
      rcases h with ⟨more, rfl, htext⟩ | ⟨more, hw, hafter⟩
      · exact hbehind rfl htext (List.append_nil _)
      · cases more with
        | nil =>
          rw [List.append_nil] at hw
          exact @hbehind before [] (List.append_nil _).symm hafter.symm
            (by rw [spell_word, hw, spell_nil, List.append_nil])
        | cons d more =>
          obtain ⟨rfl, rfl⟩ := List.cons.inj hafter
          exact Or.inr ⟨[], w, text, before, more, rfl, hw, rfl, rfl⟩

/-! ## Predicates -/

theorem any_spell {p : α → Bool} (hword : ∀ w, words w → ∀ c ∈ word w, p c = false) (h : Within words text) :
    (spell word text).any p = text.any (onLetter p) := by
  induction text with
  | nil => rfl
  | cons a text ih =>
    obtain ⟨ha, htext⟩ := within_cons.mp h
    rw [List.any_cons, ← ih htext]
    rcases a with c | w
    · rw [spell_letter, List.any_cons]
      rfl
    · have hno : (word w).any p = false := List.any_eq_false.mpr fun c hc => by
        rw [hword w (ha w rfl) c hc]
        exact Bool.false_ne_true
      rw [spell_word, List.any_append, hno]
      rfl

/-- Words that do not start with a letter of the kind. -/
theorem dropWhile_spell {p : α → Bool} (hword : ∀ w, words w → ∃ c rest, word w = c :: rest ∧ p c = false)
    (h : Within words text) : (spell word text).dropWhile p = spell word (text.dropWhile (onLetter p)) := by
  induction text with
  | nil => rfl
  | cons a text ih =>
    obtain ⟨ha, htext⟩ := within_cons.mp h
    rcases a with c | w
    · rw [spell_letter, List.dropWhile_cons, List.dropWhile_cons, ih htext]
      show (if p c = true then _ else _) = spell word (if p c = true then _ else _)
      split <;> rfl
    · obtain ⟨c, rest, hcons, hc⟩ := hword w (ha w rfl)
      rw [spell_word, hcons, List.cons_append,
        List.dropWhile_cons_of_neg (by rw [hc]; exact Bool.false_ne_true),
        List.dropWhile_cons_of_neg (by exact Bool.false_ne_true), spell_word, hcons, List.cons_append]

theorem takeWhile_spell {p : α → Bool} (hword : ∀ w, words w → ∃ c rest, word w = c :: rest ∧ p c = false)
    (h : Within words text) : (spell word text).takeWhile p = spell word (text.takeWhile (onLetter p)) := by
  have hboth := List.takeWhile_append_dropWhile (p := onLetter p) (l := text)
  have hspell : spell word text = _ := (congrArg (spell word) hboth).symm
  rw [spell_append, ← dropWhile_spell hword h] at hspell
  have htake := List.takeWhile_append_dropWhile (p := p) (l := spell word text)
  exact List.append_cancel_right (htake.trans hspell)

/-- As many letters of a kind, where at most so many are taken, and the same behind them. -/
theorem takeWhile_take_spell {p : α → Bool}
    (hword : ∀ w, words w → ∃ c rest, word w = c :: rest ∧ p c = false) (n : Nat) (h : Within words text) :
    (((spell word text).take n).takeWhile p).length = ((text.take n).takeWhile (onLetter p)).length ∧
      (spell word text).drop ((text.take n).takeWhile (onLetter p)).length =
        spell word (text.drop ((text.take n).takeWhile (onLetter p)).length) := by
  induction n generalizing text with
  | zero => exact ⟨rfl, rfl⟩
  | succ n ih =>
    cases text with
    | nil => exact ⟨rfl, rfl⟩
    | cons a text =>
      obtain ⟨ha, htext⟩ := within_cons.mp h
      rw [List.take_succ_cons]
      rcases a with c | w
      · obtain ⟨hlength, hdrop⟩ := ih htext
        rw [spell_letter, List.take_succ_cons, List.takeWhile_cons, List.takeWhile_cons]
        show (if p c = true then _ else _ : List α).length =
          (if p c = true then _ else _ : List (α ⊕ β)).length ∧
          List.drop (if p c = true then _ else _ : List (α ⊕ β)).length _ =
            spell word (List.drop (if p c = true then _ else _ : List (α ⊕ β)).length _)
        split
        · exact ⟨congrArg (· + 1) hlength, hdrop⟩
        · exact ⟨rfl, rfl⟩
      · -- a word stops the letters on both sides
        obtain ⟨c, rest, hcons, hc⟩ := hword w (ha w rfl)
        have hnil : (.inr w :: text.take n).takeWhile (onLetter p) = [] :=
          List.takeWhile_cons_of_neg (by exact Bool.false_ne_true)
        rw [hnil, spell_word, hcons, List.cons_append, List.take_succ_cons,
          List.takeWhile_cons_of_neg (by rw [hc]; exact Bool.false_ne_true)]
        refine ⟨rfl, ?_⟩
        show c :: (rest ++ spell word text) = word w ++ spell word text
        rw [hcons, List.cons_append]

theorem letters_of_onLetter {p : α → Bool} (h : ∀ a ∈ text, onLetter p a = true) :
    ∃ letters : List α, text = letters.map .inl := by
  rcases letters_or_word text with hletters | ⟨letters, w, rest, rfl⟩
  · exact hletters
  · have hw := h (.inr w) (List.mem_append_right _ List.mem_cons_self)
    cases hw

/-- Spelling backwards. -/
theorem reverse_spell : (spell word text).reverse = spell (fun w => (word w).reverse) text.reverse := by
  induction text with
  | nil => rfl
  | cons a text ih =>
    rcases a with c | w
    · rw [spell_letter, List.reverse_cons, List.reverse_cons, spell_append, ih]
      rfl
    · rw [spell_word, List.reverse_append, List.reverse_cons, spell_append, ih, spell_word, spell_nil,
        List.append_nil]

theorem Within.reverse (h : Within words text) : Within words text.reverse :=
  fun w hw => h w (List.mem_reverse.mp hw)

end

/-! ## Patterns -/

/-- No occurrence of the pattern begins in the word or runs into it. -/
structure Untouched [DecidableEq α] (pattern w : List α) : Prop where
  cross : ∀ text rest, dropPattern pattern (text ++ w ++ rest) =
    (dropPattern pattern text).map (· ++ w ++ rest)
  inside : ∀ start, start <:+ w → start ≠ [] → ∀ rest, dropPattern pattern (start ++ rest) = none

section

variable [DecidableEq α] [DecidableEq β] {word : β → List α} {words : β → Prop} {text : List (α ⊕ β)}
  {pattern : List α}

omit [DecidableEq β] in
/-- A word whose first letter is not in the pattern, and none of whose letters starts it. -/
theorem untouched_of_head {w : List α} {c : α} (hhead : w.head? = some c) (hc : c ∉ pattern)
    (hinside : ∀ d ∈ w, ∃ p rest, pattern = p :: rest ∧ d ≠ p) : Untouched pattern w where
  cross := by
    intro text rest
    obtain ⟨tail, rfl⟩ := List.head?_eq_some_iff.mp hhead
    have hdrop := dropPattern_append_cons hc text (tail ++ rest)
    simpa only [List.append_assoc, List.cons_append] using hdrop
  inside := by
    intro start hstart hne rest
    obtain ⟨d, start, rfl⟩ := List.exists_cons_of_ne_nil hne
    obtain ⟨p, more, rfl, hd⟩ := hinside d (hstart.subset List.mem_cons_self)
    exact dropPattern_cons_ne hd _ _

theorem dropPattern_letters (pattern letters : List α) :
    dropPattern (pattern.map (.inl : α → α ⊕ β)) (letters.map .inl) =
        (dropPattern pattern letters).map (·.map .inl) := by
  induction pattern generalizing letters with
  | nil => rfl
  | cons p pattern ih =>
    cases letters with
    | nil => rfl
    | cons c letters =>
      by_cases h : c = p
      · rw [h, List.map_cons, List.map_cons, dropPattern_cons, dropPattern_cons]
        exact ih letters
      · rw [List.map_cons, List.map_cons, dropPattern_cons_ne h,
          dropPattern_cons_ne fun h' => h (Sum.inl.inj h')]
        rfl

/-- **At the head**, the pattern is found before spelling and after. -/
theorem dropPattern_spell (h : Within (fun w => Untouched pattern (word w)) text) :
    dropPattern pattern (spell word text) = (dropPattern (pattern.map .inl) text).map (spell word) := by
  rcases letters_or_word text with ⟨letters, rfl⟩ | ⟨letters, w, rest, rfl⟩
  · rw [spell_letters, dropPattern_letters, Option.map_map]
    have hid : spell word ∘ List.map (.inl : α → α ⊕ β) = id := funext fun letters => spell_letters letters
    rw [hid, Option.map_id_fun, id_eq]
  · have hcross := (h w (List.mem_append_right _ List.mem_cons_self)).cross letters (spell word rest)
    have hw : (.inr w : α ⊕ β) ∉ pattern.map .inl := by
      intro hmem
      obtain ⟨c, -, hc⟩ := List.mem_map.mp hmem
      cases hc
    rw [spell_append, spell_letters, spell_word, ← List.append_assoc, hcross, dropPattern_append_cons hw,
      dropPattern_letters, Option.map_map, Option.map_map]
    congr 1
    funext behind
    show behind ++ word w ++ spell word rest = spell word (behind.map .inl ++ .inr w :: rest)
    rw [spell_append, spell_letters, spell_word, List.append_assoc]

theorem splitAround_inside {start : List α} (h : ∀ behind, behind <:+ start → behind ≠ [] → ∀ rest,
    dropPattern pattern (behind ++ rest) = none) (rest : List α) : splitAround pattern (start ++ rest) =
      (splitAround pattern rest).map fun parts => (start ++ parts.1, parts.2) := by
  induction start with
  | nil => exact Option.map_id_fun'.symm ▸ rfl
  | cons c start ih =>
    have hdrop := h (c :: start) (List.suffix_refl _) (List.cons_ne_nil _ _) rest
    rw [List.cons_append] at hdrop ⊢
    rw [splitAround_cons hdrop, ih fun behind hbehind => h behind (hbehind.trans (List.suffix_cons c start)),
      Option.map_map]
    rfl

/-- **The first occurrence** is the same. -/
theorem splitAround_spell (hne : pattern ≠ []) (h : Within (fun w => Untouched pattern (word w)) text) :
    splitAround pattern (spell word text) =
      (splitAround (pattern.map .inl) text).map fun parts => (spell word parts.1, spell word parts.2) := by
  induction text with
  | nil =>
    have hnil :
        ∀ {γ : Type} [DecidableEq γ] {pattern : List γ}, pattern ≠ [] → splitAround pattern [] = none :=
      fun hne => by rw [splitAround, dropPattern_eq_none.mpr (fun h => hne (List.prefix_nil.mp h))]; rfl
    rw [spell_nil, hnil hne, hnil (fun h => hne (List.map_eq_nil_iff.mp h))]
    rfl
  | cons a text ih =>
    obtain ⟨ha, htext⟩ := within_cons.mp h
    have hdrop := dropPattern_spell h
    -- a letter may start an occurrence, a word is skipped as a whole
    rcases a with c | w
    · cases hletters : dropPattern (pattern.map .inl) (.inl c :: text) with
      | some behind =>
        rw [hletters] at hdrop
        rw [splitAround_of_some hletters, splitAround_of_some hdrop]
        rfl
      | none =>
        rw [hletters] at hdrop
        rw [spell_letter] at hdrop ⊢
        rw [splitAround_cons hletters, splitAround_cons hdrop, ih htext, Option.map_map, Option.map_map]
        rfl
    · have hnone : dropPattern (pattern.map .inl) ((.inr w : α ⊕ β) :: text) = none := by
        obtain ⟨p, pattern, rfl⟩ := List.exists_cons_of_ne_nil hne
        exact dropPattern_cons_ne (fun h => by cases h) _ _
      rw [splitAround_cons hnone, spell_word, splitAround_inside (ha w rfl).inside, ih htext, Option.map_map,
        Option.map_map]
      rfl

end

/-! ## Scanners -/

section

variable {γ γ' : Type} {word : β → List α} {words : β → Prop} {step : Step α γ} {step' : Step (α ⊕ β) γ'}
  {render : γ → List α} {render' : γ' → List (α ⊕ β)}

theorem substitute_inside {start : List α} (h : ∀ behind, behind <:+ start → behind ≠ [] → ∀ rest,
    step (behind ++ rest) = none) (rest : List α) :
    substitute step render (start ++ rest) = start ++ substitute step render rest := by
  induction start with
  | nil => rfl
  | cons c start ih =>
    have hstep := h (c :: start) (List.suffix_refl _) (List.cons_ne_nil _ _) rest
    rw [List.cons_append] at hstep ⊢
    rw [substitute_of_none hstep,
      ih fun behind hbehind => h behind (hbehind.trans (List.suffix_cons c start))]
    rfl

/-- **Scanning and spelling commute**: nothing matches in a word, and at a letter the same is matched. -/
theorem substitute_spell (hc : Consumes step) (hc' : Consumes step')
    (hinside : ∀ w, words w → ∀ start, start <:+ word w → start ≠ [] → ∀ rest, step (start ++ rest) = none)
    (hnone : ∀ c rest, Within words (.inl c :: rest) → step' (.inl c :: rest) = none →
      step (c :: spell word rest) = none)
    (hsome : ∀ text b rest, Within words text → step' text = some (b, rest) →
      ∃ b', step (spell word text) = some (b', spell word rest) ∧ render b' = spell word (render' b))
    (text : List (α ⊕ β)) (h : Within words text) :
    substitute step render (spell word text) = spell word (substitute step' render' text) := by
  induction text using scan_induction hc' with
  | nil => rw [substitute_nil hc', spell_nil, substitute_nil hc]
  | copy a rest hstep ih =>
    obtain ⟨ha, hrest⟩ := within_cons.mp h
    rw [substitute_of_none hstep]
    rcases a with c | w
    · rw [spell_letter, substitute_of_none (hnone c rest h hstep), ih hrest, spell_letter]
    · rw [spell_word, spell_word, substitute_inside (hinside w (ha w rfl)), ih hrest]
  | hit text b rest hstep ih =>
    obtain ⟨b', hb', hrender⟩ := hsome text b rest h hstep
    obtain ⟨taken, -, rfl⟩ := hc' text b rest hstep
    rw [substitute_of_some hc hb', substitute_of_some hc' hstep, ih (within_append.mp h).2, spell_append,
      hrender]

end

/-! ## Lines -/

section

variable {word : β → List α} {words : β → Prop} {text : List (α ⊕ β)} {c : α}

theorem spell_intercalate (lines : List (List (α ⊕ β))) :
    spell word ([.inl c].intercalate lines) = [c].intercalate (lines.map (spell word)) := by
  induction lines with
  | nil => rfl
  | cons line lines ih =>
    cases lines with
    | nil => simp
    | cons next lines =>
      rw [List.map_cons, List.map_cons, List.intercalate_cons_cons, List.intercalate_cons_cons, spell_append,
        spell_append, ih]
      rfl

instance lawfulBEq_sum [BEq α] [BEq β] [LawfulBEq α] [LawfulBEq β] : LawfulBEq (α ⊕ β) where
  rfl := by
    rintro (c | w)
    · exact beq_self_eq_true c
    · exact beq_self_eq_true w
  eq_of_beq := by
    rintro (c | w) (d | v) h
    · exact congrArg Sum.inl (eq_of_beq h)
    · cases h
    · cases h
    · exact congrArg Sum.inr (eq_of_beq h)

/-- **Lines** are split at the same places, where no word has a newline. -/
theorem lines_spell [DecidableEq α] [DecidableEq β] (hword : ∀ w, words w → c ∉ word w)
    (h : Within words text) :
    (spell word text).splitOn c = (text.splitOn (.inl c)).map (spell word) := by
  have hno : ∀ line ∈ (text.splitOn (.inl c)).map (spell word), c ∉ line := by
    intro line hline
    obtain ⟨line, hmem, rfl⟩ := List.mem_map.mp hline
    obtain ⟨hc, hsub⟩ := mem_splitOn hmem
    rwa [mem_spell hword (h.subset hsub)]
  have hne : (text.splitOn (.inl c)).map (spell word) ≠ [] := by
    rw [Ne, List.map_eq_nil_iff]
    exact List.splitOn_ne_nil _ _
  rw [← List.splitOn_intercalate c hno hne, ← spell_intercalate, List.intercalate_splitOn]

end

end Spellings
