/-
  FENCED CODE: when it survives.

  The renderer keeps a fenced block out of its passes by a placeholder, and puts the blocks back one after
  the other, by a replacement of all that spells the placeholder.  A text outside the fences may spell
  one, by itself or with the marks of a place that is next to it; a block that is back may spell the
  placeholder of a later one; and a link with blocks in its label and its URL has them swapped.  Nothing
  else goes wrong.

  1. **`replaceAll_lettered`**: one replacement replaces the places of its block and nothing else, exactly
     if the text does not spell it.
  2. **`restoreBlocks_spell`**: all the replacements, apart: what they do to the text around the blocks
     (`replaced`), and to the blocks that are back (`wordAt`).
  3. **`eq_of_spell_eq`**: the output is read back.  A `<p` in it is from a block, so the two parts cannot
     make up for each other.
  4. **`fencedCode_intact_iff`**.

  What it means for code to survive is stated of the output: the blocks are in the order of the text, each
  as `code_block` made it, and around them stands what the passes have made of the rest (`Intact`).  The
  condition is stated of the input: of the text outside the fences and of the bodies (`Unmistaken`),
  without any pass.

  The argument for "only if" reads the output from the left.  Up to the first difference both readings are
  the same; there, one side has a whole block and the other a block that was put in at the wrong place or
  broken by a later replacement, and a block begins with `<p`, which nothing else in the output does.

  `spelledText_not_intact` is a failing text: a placeholder, written out, before a block.
-/
import Tellm.Headed

namespace Tellm

open Text Substitutions Spellings Occurrences

namespace Marked

open Markdown (placeholder)

/-! ## Placeholders as frames -/

/-- A placeholder without its marks. -/
def core (idx : Nat) : List Char := "TG_CODEBLOCK_".toList ++ Nat.toDigits 10 idx

/-- A placeholder is its core between two marks on each side, the shape that the rules on frames are stated
    for. -/
theorem placeholder_frame (idx : Nat) : placeholder idx = frame '@' (core idx) := by
  have hstart : "@@TG_CODEBLOCK_".toList = '@' :: '@' :: "TG_CODEBLOCK_".toList := by decide
  have hmarks : "@@".toList = ['@', '@'] := by decide
  have hframe : ∀ start digits : List Char,
      '@' :: '@' :: start ++ digits ++ ['@', '@'] = frame '@' (start ++ digits) :=
    fun _ _ => rfl
  rw [Markdown.placeholder_eq, hstart, hmarks]
  exact hframe _ _

/-- There is something between the marks, so a placeholder is never its marks alone. -/
theorem core_ne_nil (idx : Nat) : core idx ≠ [] := by
  intro h
  exact Nat.toDigits_ne_nil (List.append_eq_nil_iff.mp h).2

/-- No mark is inside a core: where a placeholder ends can be read off the text. -/
theorem at_not_mem_core (idx : Nat) : '@' ∉ core idx := by
  intro h
  rcases List.mem_append.mp h with h | h
  · exact absurd h (by decide)
  · cases Nat.isDigit_of_mem_toDigits (by decide) (by decide) h

/-- Two blocks have the same core only if they are the same block, since decimal digits determine the
    number. -/
theorem core_inj {i j : Nat} (h : core i = core j) : i = j := by
  have hdigits := congrArg (Nat.ofDigitChars 10 · 0) (List.append_cancel_left h)
  simpa only [Nat.ofDigitChars_ten_toDigits] using hdigits

/-- The same frame, of letters of a text that also has words. -/
theorem letters_frame (idx : Nat) : letters (placeholder idx) = frame (.inl '@') (letters (core idx)) := by
  rw [placeholder_frame, frame, frame, letters, letters]
  simp

/-- The core as letters: no mark in it, and not empty. -/
theorem letters_core (idx : Nat) : .inl '@' ∉ letters (core idx) ∧ letters (core idx) ≠ [] :=
  ⟨fun h => at_not_mem_core idx (mem_letters.mp h), fun h => core_ne_nil idx (List.map_eq_nil_iff.mp h)⟩

/-- Different blocks have different cores, as letters too. -/
theorem letters_core_ne {i j : Nat} (h : i ≠ j) : letters (core i) ≠ letters (core j) := by
  intro heq
  have hinj : Function.Injective (List.map (Sum.inl : Char → Symbol)) :=
    List.map_injective_iff.mpr Sum.inl_injective
  exact h (core_inj (hinj heq))

/-- Placeholders can be told apart by their ends. -/
theorem placeholder_append_inj {i j : Nat} {rest rest' : List Symbol}
    (h : letters (placeholder i) ++ rest = letters (placeholder j) ++ rest') : i = j ∧ rest = rest' := by
  have hcores : letters (core i) ++ .inl '@' :: .inl '@' :: rest =
      letters (core j) ++ .inl '@' :: .inl '@' :: rest' := by
    rw [letters_frame, letters_frame, frame, frame] at h
    simpa using h
  have hcore := append_mark_inj (letters_core i).1 (letters_core j).1 hcores
  have hij : i = j := by
    by_contra hne
    exact letters_core_ne hne hcore
  subst hij
  exact ⟨rfl, List.append_cancel_left h⟩

/-! ## One replacement -/

/-- The places of the blocks from `i` on, as the placeholders that they are. -/
def lettered (i : Nat) : Symbol → List Symbol
  | .inr (.block j) => if j < i then [.inr (.block j)] else letters (placeholder j)
  | a => [a]

section

variable {i : Nat} {text : List Symbol}

/-- A word that is no block's place is left as it is. -/
theorem lettered_word {w : Word} (hw : ¬ IsBlock w) : lettered i (.inr w) = [.inr w] := by
  cases w with
  | block j => exact absurd ⟨j, rfl⟩ hw
  | _ => rfl

/-- The place of a block before `i` stays a place. -/
theorem lettered_of_lt {j : Nat} (h : j < i) : lettered i (.inr (.block j)) = [.inr (.block j)] := if_pos h

/-- The place of a block from `i` on is spelled out. -/
theorem lettered_of_le {j : Nat} (h : i ≤ j) : lettered i (.inr (.block j)) = letters (placeholder j) :=
  if_neg (Nat.not_lt.mpr h)

/-- The places that are left are those of the blocks before `i`. -/
theorem block_mem_lettered {j : Nat} :
    .inr (.block j) ∈ text.flatMap (lettered i) ↔ .inr (.block j) ∈ text ∧ j < i := by
  rw [List.mem_flatMap]
  constructor
  · rintro ⟨a, ha, hmem⟩
    rcases a with c | w
    · cases List.mem_singleton.mp hmem
    · by_cases hw : IsBlock w
      · obtain ⟨k, rfl⟩ := hw
        by_cases hk : k < i
        · rw [lettered_of_lt hk, List.mem_singleton] at hmem
          cases hmem
          exact ⟨ha, hk⟩
        · rw [lettered_of_le (Nat.not_lt.mp hk)] at hmem
          exact absurd hmem word_not_mem
      · rw [lettered_word hw, List.mem_singleton] at hmem
        cases hmem
        exact absurd ⟨j, rfl⟩ hw
  · rintro ⟨hmem, hj⟩
    exact ⟨_, hmem, by rw [lettered_of_lt hj]; exact List.mem_singleton.mpr rfl⟩

/-- Where the text has no place of block `i`, spelling out from `i` on or from `i + 1` on is the same. -/
theorem lettered_succ (h : .inr (.block i) ∉ text) :
    text.flatMap (lettered (i + 1)) = text.flatMap (lettered i) := by
  refine List.flatMap_congr fun a ha => ?_
  rcases a with c | w
  · rfl
  · by_cases hw : IsBlock w
    · obtain ⟨j, rfl⟩ := hw
      have hne : j ≠ i := fun heq => h (heq ▸ ha)
      by_cases hj : j < i
      · rw [lettered_of_lt hj, lettered_of_lt (by omega)]
      · rw [lettered_of_le (by omega), lettered_of_le (by omega)]
    · rw [lettered_word hw, lettered_word hw]

/-- **Stubs are enough**: a placeholder of another block shares its marks alone. -/
theorem infix_lettered (h : .inr (.block i) ∉ text) (before after : List Symbol) :
    letters (placeholder i) <:+: before ++ text.flatMap (lettered i) ++ after ↔
      letters (placeholder i) <:+: before ++ text.flatMap (stub i) ++ after := by
  induction text generalizing before with
  | nil => rfl
  | cons a text ih =>
    obtain ⟨ha, htext⟩ := not_or.mp fun hmem => h (List.mem_cons.mpr hmem)
    -- a symbol that both texts keep
    have hsame : lettered i a = [a] → stub i a = [a] →
        (letters (placeholder i) <:+: before ++ (a :: text).flatMap (lettered i) ++ after ↔
          letters (placeholder i) <:+: before ++ (a :: text).flatMap (stub i) ++ after) := by
      intro hlettered hstub
      have hbehind := ih htext (before ++ [a])
      rw [List.flatMap_cons, List.flatMap_cons, hlettered, hstub, ← List.append_assoc, ← List.append_assoc]
      exact hbehind
    rcases a with c | w
    · exact hsame rfl rfl
    by_cases hw : IsBlock w
    · obtain ⟨j, rfl⟩ := hw
      have hne : j ≠ i := fun heq => ha (by rw [heq])
      by_cases hj : j < i
      · exact hsame (lettered_of_lt hj) (if_pos hj)
      · have hstub : stub i (.inr (.block j)) =
            [.inl '@', .inl '@'] ++ .inr (.block j) :: [.inl '@', .inl '@'] := by
          rw [stub, if_neg hj, if_neg hne]
          rfl
        -- another placeholder: it shares its marks with this one, and nothing between them
        obtain ⟨hcore, hnil⟩ := letters_core i
        obtain ⟨hcore', hnil'⟩ := letters_core j
        have hframe := @infix_frame _ (.inl '@') _ _ before (text.flatMap (lettered i) ++ after) hcore
          hnil hcore' hnil'
          (letters_core_ne hne)
        rw [← letters_frame, ← letters_frame] at hframe
        have hcut := @infix_append_cons_iff _ _ (letters (placeholder i)) (before ++ [.inl '@', .inl '@'])
          ([.inl '@', .inl '@'] ++ text.flatMap (stub i) ++ after) (.inr (.block j)) word_not_mem
        have hbehind := ih htext [.inl '@', .inl '@']
        calc letters (placeholder i) <:+: before ++ (.inr (.block j) :: text).flatMap (lettered i) ++ after
            ↔ letters (placeholder i) <:+:
                before ++ letters (placeholder j) ++ (text.flatMap (lettered i) ++ after) := by
              rw [List.flatMap_cons, lettered_of_le (Nat.not_lt.mp hj)]
              simp only [List.append_assoc]
          _ ↔ _ := hframe
          _ ↔ letters (placeholder i) <:+: before ++ [.inl '@', .inl '@'] ∨
              letters (placeholder i) <:+: [.inl '@', .inl '@'] ++ text.flatMap (stub i) ++ after :=
              or_congr_right hbehind
          _ ↔ _ := hcut.symm
          _ ↔ letters (placeholder i) <:+: before ++ (.inr (.block j) :: text).flatMap (stub i) ++ after := by
              rw [List.flatMap_cons, hstub]
              simp only [List.append_assoc, List.cons_append]
    · exact hsame (lettered_word hw) (stub_word hw)

/-- Before the first place of a block, its placeholder is found there and not earlier exactly if nothing
    spells it. -/
theorem splitAround_lettered {before : List Symbol} (h : .inr (.block i) ∉ before) (after : List Symbol) :
    splitAround (letters (placeholder i)) (before.flatMap (lettered i) ++ letters (placeholder i) ++ after) =
        some (before.flatMap (lettered i), after) ↔
      ¬ letters (placeholder i) <:+: before.flatMap (stub i) ++ [.inl '@', .inl '@'] := by
  obtain ⟨hcore, hnil⟩ := letters_core i
  have hlast := @infix_frame_dropLast _ (.inl '@') _ (before.flatMap (lettered i)) hcore hnil
  rw [← letters_frame] at hlast
  rw [splitAround_append_iff letters_ne_nil, hlast]
  exact not_congr (infix_lettered h [] [.inl '@', .inl '@'])

/-- **One replacement** puts a block in its places, and nowhere else, exactly if nothing else spells its
    placeholder. -/
theorem replaceAll_lettered :
    replaceAll (letters (placeholder i)) [.inr (.block i)] (text.flatMap (lettered i)) =
    text.flatMap (lettered (i + 1)) ↔ ¬ Spells i text := by
  have hne : letters (placeholder i) ≠ [] := letters_ne_nil
  -- on the text behind the first place of the block
  induction hlength : text.length using Nat.strong_induction_on generalizing text with
  | _ n ih =>
    by_cases hmem : .inr (.block i) ∈ text
    · obtain ⟨before, behind, rfl, hbefore⟩ := List.eq_append_cons_of_mem hmem
      have hbehind := ih behind.length (by rw [← hlength]; simp; omega) rfl
      have hbefore' := lettered_succ hbefore
      have hlettered : (before ++ .inr (.block i) :: behind).flatMap (lettered i) =
          before.flatMap (lettered i) ++ letters (placeholder i) ++ behind.flatMap (lettered i) := by
        rw [List.flatMap_append, List.flatMap_cons, lettered_of_le (Nat.le_refl i), List.append_assoc]
      have hput : (before ++ .inr (.block i) :: behind).flatMap (lettered (i + 1)) =
          before.flatMap (lettered i) ++ .inr (.block i) :: behind.flatMap (lettered (i + 1)) := by
        rw [List.flatMap_append, List.flatMap_cons, lettered_of_lt (Nat.lt_succ_self i), hbefore']
        rfl
      have hspells : Spells i (before ++ .inr (.block i) :: behind) ↔
          letters (placeholder i) <:+: before.flatMap (stub i) ++ [.inl '@', .inl '@'] ∨ Spells i behind := by
        have hstub : stub i (.inr (.block i)) = [.inl '@', .inl '@'] ++ [.inr (.block i)] := by
          rw [stub, if_neg (Nat.lt_irrefl i), if_pos rfl]
          rfl
        have hcut := @infix_append_cons_iff _ _ (letters (placeholder i))
          (before.flatMap (stub i) ++ [.inl '@', .inl '@'])
          (behind.flatMap (stub i)) (.inr (.block i)) word_not_mem
        rw [Spells, Spells, List.flatMap_append, List.flatMap_cons, hstub]
        simpa only [List.append_assoc, List.cons_append, List.nil_append] using hcut
      have hfirst := splitAround_lettered hbefore (behind.flatMap (lettered i))
      rw [hlettered, hput, hspells, not_or, ← hfirst]
      constructor
      · intro heq
        have hoccurs : letters (placeholder i) <:+:
            before.flatMap (lettered i) ++ letters (placeholder i) ++ behind.flatMap (lettered i) :=
            ⟨_, _, rfl⟩
        obtain ⟨⟨start, rest⟩, hsplit⟩ :=
          Option.ne_none_iff_exists'.mp (mt splitAround_eq_none.mp (not_not.mpr hoccurs))
        rw [replaceAll_of_splitAround hne hsplit, List.append_assoc] at heq
        -- the block that is put in stands nowhere else, so it is where the text is cut
        have hno : ∀ {part : List Symbol}, part ⊆ (before ++ .inr (.block i) :: behind).flatMap (lettered i) →
            .inr (.block i) ∉ part := fun hsub hmem => Nat.lt_irrefl i (block_mem_lettered.mp (hsub hmem)).2
        have hwhole := eq_of_splitAround hsplit
        have hstart : start = before.flatMap (lettered i) := by
          refine append_mark_inj (hno ?_) (hno ?_) heq
          · rw [hlettered, hwhole]
            simp
          · rw [hlettered]
            simp
        subst hstart
        rw [List.append_assoc, List.append_assoc] at hwhole
        have hrest : rest = behind.flatMap (lettered i) :=
          (List.append_cancel_left (List.append_cancel_left hwhole)).symm
        subst hrest
        exact ⟨hsplit, hbehind.mp (List.cons.inj (List.append_cancel_left heq)).2⟩
      · rintro ⟨hsplit, hnot⟩
        rw [replaceAll_of_splitAround hne hsplit, hbehind.mpr hnot]
        simp
    · have hlettered := infix_lettered hmem [] []
      rw [List.append_nil, List.append_nil] at hlettered
      rw [lettered_succ hmem, Spells, ← List.nil_append (text.flatMap (stub i)), ← hlettered]
      constructor
      · intro heq hoccurs
        obtain ⟨⟨start, rest⟩, hsplit⟩ :=
          Option.ne_none_iff_exists'.mp (mt splitAround_eq_none.mp (not_not.mpr hoccurs))
        rw [List.nil_append] at hsplit
        rw [replaceAll_of_splitAround hne hsplit] at heq
        -- a replacement puts the block in, and the lettered text has none
        have hput : .inr (.block i) ∈ text.flatMap (lettered i) := by
          rw [← heq]
          simp
        exact Nat.lt_irrefl i (block_mem_lettered.mp hput).2
      · intro hnot
        exact replaceAll_of_not_occurs hne hnot

end

/-! ## All the replacements -/

/-- The first `i` replacements, on the text around the blocks. -/
def replaced (text : List Symbol) : Nat → List Symbol
  | 0 => text
  | i + 1 => replaceAll (letters (placeholder i)) [.inr (.block i)] (replaced text i)

/-- A block that is back, behind the first `i` replacements. -/
def wordAt (blocks : List (List Char)) : Nat → Word → List Char
  | 0, w => w.text
  | i + 1, w =>
    if w = .block i then blocks.getD i []
    else replaceAll (placeholder i) (blocks.getD i []) (wordAt blocks i w)

/-- What each word of the text is, or is not yet back. -/
def BackBefore (i : Nat) : Symbol → Prop
  | .inr (.block j) => j < i
  | _ => True

section

variable {blocks : List (List Char)} {text : List Symbol}

/-- After `i` replacements, the places that count as back are those of the blocks before `i`, and no
    replacement brings in a later one. -/
theorem backBefore_replaced (h : ∀ a ∈ text, BackBefore 0 a) (i : Nat) :
    ∀ a ∈ replaced text i, BackBefore i a := by
  induction i with
  | zero => exact h
  | succ i ih =>
    refine forall_mem_substitute (consumes_letters i) (fun _ _ _ _ _ => ?_) _ fun a ha => ?_
    · exact List.forall_mem_singleton.mpr (Nat.lt_succ_self i)
    · have hback := ih a ha
      rcases a with c | w
      · trivial
      · cases w with
        | block j => exact Nat.lt_succ_of_lt hback
        | _ => trivial

/-- No word of the passes, a tag or an attribute, spells a placeholder by itself. -/
theorem not_infix_word (i : Nat) {w : Word} (hw : ¬ IsBlock w) : ¬ placeholder i <:+: w.text := by
  intro h
  refine at_not_mem hw (h.subset ?_)
  rw [Word.placeholder_cons]
  exact List.mem_cons_self

/-- The replacements do nothing to the words that are no block's place. -/
theorem wordAt_of_not_block (i : Nat) {w : Word} (hw : ¬ IsBlock w) : wordAt blocks i w = w.text := by
  induction i with
  | zero => rfl
  | succ i ih =>
    rw [wordAt, if_neg fun h => hw ⟨i, h⟩, ih,
      replaceAll_of_not_occurs (Markdown.placeholder_ne_nil i) (not_infix_word i hw)]

/-- A text is bracketed with respect to a pattern if its first and its last letter are none of the
    pattern's. -/
theorem bracketed_of_ends {pattern text : List Char} {c d : Char} (hhead : text.head? = some c)
    (hlast : text.getLast? = some d) (hlength : 2 ≤ text.length) (hc : c ∉ pattern) (hd : d ∉ pattern) :
    Bracketed pattern text := by
  obtain ⟨rest, rfl⟩ := List.head?_eq_some_iff.mp hhead
  have hne : rest ≠ [] := by
    rintro rfl
    simp at hlength
  have hrest : rest.getLast? = some d := by
    rw [List.getLast?_cons] at hlast
    obtain ⟨e, he⟩ := List.getLast?_isSome.mpr hne |> Option.isSome_iff_exists.mp
    rw [he] at hlast ⊢
    exact hlast
  obtain ⟨inside, rfl⟩ := List.getLast?_eq_some_iff.mp hrest
  exact ⟨c, inside, d, rfl, hc, hd⟩

/-- Every word that the passes put in begins and ends with characters that are in no placeholder. -/
theorem bracketed_word (i : Nat) {w : Word} (hw : ¬ IsBlock w) : Bracketed (placeholder i) w.text := by
  have hends : ∀ c ∈ ['&', '<', '"', ';', '>', '/'], c ∉ placeholder i :=
    not_mem_placeholder (by decide) i
  have hall : ∀ text : List Char, ((1).blt text.length && text.head?.any ['&', '<', '"'].contains &&
      text.getLast?.any [';', '>', '/'].contains) = true → Bracketed (placeholder i) text := by
    intro text h
    simp only [Bool.and_eq_true, Nat.blt_eq, Option.any_eq_true_iff_get] at h
    obtain ⟨⟨hlength, hhead, hc⟩, hlast, hd⟩ := h
    rw [List.contains_iff_mem] at hc hd
    refine bracketed_of_ends (Option.some_get hhead).symm (Option.some_get hlast).symm hlength
      (hends _ ?_) (hends _ ?_)
    · simp only [List.mem_cons, List.not_mem_nil, or_false] at hc ⊢
      tauto
    · simp only [List.mem_cons, List.not_mem_nil, or_false] at hd ⊢
      tauto
  cases w with
  | entity kind => cases kind <;> exact hall _ (by decide)
  | openTag tag => cases tag <;> exact hall _ (by decide)
  | closeTag tag => cases tag <;> exact hall _ (by decide)
  | openLink secure => cases secure <;> exact hall _ (by decide)
  | endUrl => exact hall _ (by decide)
  | closeLink => exact hall _ (by decide)
  | block idx => exact absurd ⟨idx, rfl⟩ hw

/-- What begins and ends as a tag. -/
def Enclosed (text : List Char) : Prop := ∃ inside, text = '<' :: inside ++ ['>']

/-- What begins with `<` and ends with `>` is bracketed for every placeholder. -/
theorem Enclosed.bracketed {text : List Char} (h : Enclosed text) (i : Nat) :
    Bracketed (placeholder i) text := by
  have hends : ∀ c ∈ ['<', '>'], c ∉ placeholder i := not_mem_placeholder (by decide) i
  obtain ⟨inside, rfl⟩ := h
  exact ⟨'<', inside, '>', rfl, hends _ (by simp), hends _ (by simp)⟩

/-- A replacement inside an enclosed text leaves its first and its last letter, so it stays enclosed. -/
theorem Enclosed.replaceAll {text : List Char} (h : Enclosed text) (i : Nat) (new : List Char) :
    Enclosed (replaceAll (placeholder i) new text) := by
  have hends : ∀ c ∈ ['<', '>'], c ∉ placeholder i := not_mem_placeholder (by decide) i
  obtain ⟨inside, rfl⟩ := h
  exact ⟨_, replaceAll_ends (Markdown.placeholder_ne_nil i) (hends _ (by simp)) (hends _ (by simp)) inside⟩

/-- A block that is back stays enclosed whatever the later replacements do inside it. -/
theorem enclosed_wordAt (h : ∀ block ∈ blocks, Enclosed block) {i : Nat} (hi : i ≤ blocks.length)
    {j : Nat} (hj : j < i) :
    Enclosed (wordAt blocks i (.block j)) := by
  induction i with
  | zero => omega
  | succ i ih =>
    rw [wordAt]
    split
    · rw [List.getD_eq_getElem _ _ (by omega)]
      exact h _ (List.getElem_mem _)
    · rename_i hne
      refine (ih (by omega) ?_).replaceAll i _
      have hji : j ≠ i := fun heq => hne (by rw [heq])
      omega

/-- The loop of the source takes the blocks in their order: the last one is replaced last, in what the ones
    before have left. -/
theorem restoreBlocks_concat (blocks : List (List Char)) (block transformed : List Char) :
    Markdown.restoreBlocks (blocks ++ [block]) transformed =
      replaceAll (placeholder blocks.length) block (Markdown.restoreBlocks blocks transformed) := by
  rw [Markdown.restoreBlocks, List.zipIdx_append, List.foldl_append, List.zipIdx_singleton,
    List.foldl_cons, List.foldl_nil, Nat.zero_add]
  rfl

/-- **All the replacements**, in the text around the blocks and in the blocks that are back. -/
theorem restoreBlocks_spell (hblocks : ∀ block ∈ blocks, Enclosed block)
    (htext : ∀ a ∈ text, BackBefore 0 a) :
    Markdown.restoreBlocks blocks (written text) =
        spell (wordAt blocks blocks.length) (replaced text blocks.length) := by
  have hfirst : ∀ i ≤ blocks.length, Markdown.restoreBlocks (blocks.take i) (written text) =
      spell (wordAt blocks i) (replaced text i) := by
    intro i hi
    -- on the blocks that are back
    induction i with
    | zero => rfl
    | succ i ih =>
      have hlt : i < blocks.length := by omega
      have hlength : (blocks.take i).length = i := by
        rw [List.length_take]
        omega
      have hback := backBefore_replaced htext i
      rw [List.take_succ_eq_append_getElem hlt, restoreBlocks_concat, hlength, ih (by omega)]
      refine replaceAll_spell (Markdown.placeholder_ne_nil i) ?_ ?_ ?_
      · intro w hw
        by_cases hblock : IsBlock w
        · obtain ⟨j, rfl⟩ := hblock
          exact (enclosed_wordAt hblocks (by omega) (hback _ hw)).bracketed i
        · rw [wordAt_of_not_block i hblock]
          exact bracketed_word i hblock
      · intro w hw
        have hne : w ≠ .block i := by
          rintro rfl
          exact Nat.lt_irrefl i (hback _ hw)
        rw [wordAt, if_neg hne, List.getD_eq_getElem _ _ hlt]
      · rw [spell_word, spell_nil, List.append_nil, wordAt, if_pos rfl, List.getD_eq_getElem _ _ hlt]
  have hall := hfirst blocks.length (Nat.le_refl _)
  rwa [List.take_length] at hall

end

/-! ## The blocks that are back -/

/-- What a block starts with, up to its code. -/
def preOpen : List Char := "<pre><code>".toList

/-- What a code block ends with. -/
def preClose : List Char := "</code></pre>".toList

/-- A block as it was captured: no tag between its own. -/
def Whole (block : List Char) : Prop := ∃ code, block = preOpen ++ code ++ preClose ∧ '<' ∉ code

/-- A block with another one in its code. -/
def Broken (block : List Char) : Prop :=
  ∃ code behind, block = preOpen ++ code ++ ("<p".toList ++ behind) ∧ '<' ∉ code

section

variable {idx : Nat} {new block : List Char}

/-- The opening tags of a code block have no letter of a placeholder in common with it. -/
theorem preOpen_not_mem (idx : Nat) : ∀ c ∈ preOpen, c ∉ placeholder idx :=
  not_mem_placeholder (by decide) idx

/-- A prefix that shares no letter with the placeholder is passed over by its replacement. -/
theorem replaceAll_skip {skipped : List Char} (h : ∀ c ∈ skipped, c ∉ placeholder idx) (text : List Char) :
    replaceAll (placeholder idx) new (skipped ++ text) =
        skipped ++ replaceAll (placeholder idx) new text := by
  induction skipped with
  | nil => rfl
  | cons c skipped ih =>
    obtain ⟨hc, hskipped⟩ := List.forall_mem_cons.mp h
    rw [List.cons_append, replaceAll_cons (Markdown.placeholder_ne_nil idx) hc, ih hskipped]
    rfl

/-- The closing tags begin with `<`. -/
theorem preClose_cons : preClose = '<' :: "/code></pre>".toList := by decide

/-- So does every block. -/
theorem block_cons : "<p".toList = '<' :: ['p'] := by decide

/-- The opening tags begin with `<p`, by which a block is recognised in the output. -/
theorem preOpen_cons : preOpen = "<p".toList ++ "re><code>".toList := by decide

/-- A placeholder has no `<`, so none reaches into a tag. -/
theorem lt_not_mem (idx : Nat) : '<' ∉ placeholder idx :=
  @not_mem_placeholder ['<'] (by decide) idx '<' List.mem_cons_self

/-- The code up to a tag, where a block is put in: then a tag opens there. -/
theorem broken_of_spells {code behind : List Char} (hnew : ∃ more, new = "<p".toList ++ more)
    (hcode : '<' ∉ code) (h : placeholder idx <:+: code) :
    Broken (preOpen ++ replaceAll (placeholder idx) new code ++ behind) := by
  obtain ⟨⟨before, after⟩, hsplit⟩ :=
    Option.ne_none_iff_exists'.mp (mt splitAround_eq_none.mp (not_not.mpr h))
  obtain ⟨more, rfl⟩ := hnew
  refine ⟨before, more ++ replaceAll (placeholder idx) ("<p".toList ++ more) after ++ behind, ?_,
    fun hmem => hcode ?_⟩
  · rw [replaceAll_of_splitAround (Markdown.placeholder_ne_nil idx) hsplit]
    simp only [List.append_assoc]
  · rw [eq_of_splitAround hsplit]
    simp [hmem]

/-- A whole block in which a placeholder occurs has it in its code, and not in the tags around it. -/
theorem Whole.code_spells (h : Whole block) (hoccurs : placeholder idx <:+: block) :
    ∃ code, block = preOpen ++ code ++ preClose ∧ '<' ∉ code ∧ placeholder idx <:+: code := by
  obtain ⟨code, rfl, hcode⟩ := h
  have hpreOpen : '@' ∉ preOpen := by decide
  have hslash : '@' ∉ "/code></pre>".toList := by decide
  refine ⟨code, rfl, hcode, ?_⟩
  rw [List.append_assoc] at hoccurs
  have hbehind := infix_of_infix_append ⟨_, Word.placeholder_cons idx⟩ hpreOpen hoccurs
  rw [preClose_cons] at hbehind
  refine (infix_append_cons (lt_not_mem idx) hbehind).resolve_right fun h => hslash (h.subset ?_)
  rw [Word.placeholder_cons]
  exact List.mem_cons_self

/-- A block that spells a placeholder is broken by its replacement. -/
theorem Whole.broken (h : Whole block) (hnew : ∃ more, new = "<p".toList ++ more)
    (hoccurs : placeholder idx <:+: block) :
    Broken (replaceAll (placeholder idx) new block) := by
  obtain ⟨code, rfl, hcode, hcodeSpells⟩ := h.code_spells hoccurs
  have hbroken :=
    @broken_of_spells idx new code (replaceAll (placeholder idx) new preClose) hnew hcode hcodeSpells
  have hsplit : replaceAll (placeholder idx) new (preOpen ++ code ++ preClose) =
      preOpen ++ replaceAll (placeholder idx) new code ++ replaceAll (placeholder idx) new preClose := by
    rw [List.append_assoc, replaceAll_skip (preOpen_not_mem idx), preClose_cons,
      replaceAll_append_cons (Markdown.placeholder_ne_nil idx) (lt_not_mem idx),
      replaceAll_cons (Markdown.placeholder_ne_nil idx) (lt_not_mem idx), List.append_assoc]
  rwa [hsplit]

/-- What is broken stays so. -/
theorem Broken.replaceAll (h : Broken block) (hnew : ∃ more, new = "<p".toList ++ more) :
    Broken (replaceAll (placeholder idx) new block) := by
  obtain ⟨code, behind, rfl, hcode⟩ := h
  have hp : 'p' ∉ placeholder idx := @not_mem_placeholder ['p'] (by decide) idx 'p' List.mem_cons_self
  have hne := Markdown.placeholder_ne_nil idx
  have hsplit : Substitutions.replaceAll (placeholder idx) new (preOpen ++ code ++ ("<p".toList ++ behind)) =
      preOpen ++ Substitutions.replaceAll (placeholder idx) new code ++
        ("<p".toList ++ Substitutions.replaceAll (placeholder idx) new behind) := by
    rw [List.append_assoc, replaceAll_skip (preOpen_not_mem idx), block_cons, List.cons_append,
      replaceAll_append_cons hne (lt_not_mem idx), List.singleton_append, replaceAll_cons hne hp,
      List.append_assoc]
    rfl
  rw [hsplit]
  by_cases hoccurs : placeholder idx <:+: code
  · exact broken_of_spells hnew hcode hoccurs
  · rw [replaceAll_of_not_occurs hne hoccurs]
    exact ⟨code, _, rfl, hcode⟩

/-- A broken block is not one as it was captured, whatever follows. -/
theorem Broken.ne_whole {block' rest rest' : List Char} (h : Broken block) (h' : Whole block') :
    block ++ rest ≠ block' ++ rest' := by
  obtain ⟨code, behind, rfl, hcode⟩ := h
  obtain ⟨code', rfl, hcode'⟩ := h'
  intro heq
  rw [preClose_cons, block_cons] at heq
  simp only [List.append_assoc, List.cons_append, List.nil_append] at heq
  have hbehind := List.append_cancel_left heq
  obtain rfl := append_mark_inj hcode hcode' hbehind
  have hslash : "/code></pre>".toList = '/' :: "code></pre>".toList := by decide
  rw [hslash] at hbehind
  have hletter := (List.cons.inj (List.cons.inj (List.append_cancel_left hbehind)).2).1
  exact absurd hletter (by decide)

/-- What the first pass captures is a whole block: its body is escaped, so no tag begins in it. -/
theorem whole_codeBlock (body : List Char) : Whole (Markdown.codeBlock body) := by
  refine ⟨Markdown.escapeHtml (Markdown.trimNewlines body), rfl, ?_⟩
  intro h
  obtain ⟨c, -, hc⟩ := List.mem_flatMap.mp h
  unfold Markdown.escapeChar at hc
  split at hc
  case h_6 =>
    rename_i hlt _ _ _
    exact hlt (List.mem_singleton.mp hc).symm
  all_goals exact absurd hc (by decide)

end

/-! ## Reading the output back -/

/-- Every block in its place. -/
def filled (blocks : List (List Char)) : Word → List Char
  | .block idx => blocks.getD idx []
  | w => w.text

section

variable {blocks : List (List Char)} {text text' : List Symbol}

/-- With the blocks as they were captured, every other word is its own text. -/
theorem filled_of_not_block {w : Word} (hw : ¬ IsBlock w) : filled blocks w = w.text := by
  cases w with
  | block j => exact absurd ⟨j, rfl⟩ hw
  | _ => rfl

/-- Each of a list of whole blocks is whole. -/
theorem whole_getD (h : ∀ block ∈ blocks, Whole block) {j : Nat} (hj : j < blocks.length) :
    Whole (blocks.getD j []) := by
  rw [List.getD_eq_getElem _ _ hj]
  exact h _ (List.getElem_mem _)

/-- A whole block begins with `<p`. -/
theorem Whole.head {block : List Char} (h : Whole block) : ∃ more, block = "<p".toList ++ more := by
  obtain ⟨code, rfl, -⟩ := h
  exact ⟨_, by rw [preOpen_cons, List.append_assoc, List.append_assoc]⟩

/-- A whole block begins with `<` and ends with `>`. -/
theorem Whole.enclosed {block : List Char} (h : Whole block) : Enclosed block := by
  have hopen : preOpen = '<' :: "pre><code>".toList := by decide
  have hclose : preClose = "</code></pre".toList ++ ['>'] := by decide
  obtain ⟨code, rfl, -⟩ := h
  exact ⟨"pre><code>".toList ++ code ++ "</code></pre".toList, by
    rw [hopen, hclose, List.cons_append, List.cons_append, List.cons_append, List.append_assoc,
      List.append_assoc, List.append_assoc]⟩

/-- A broken block begins with `<p` as well: only what comes later in it tells it apart. -/
theorem Broken.head {block : List Char} (h : Broken block) : ∃ more, block = "<p".toList ++ more := by
  obtain ⟨code, behind, rfl, -⟩ := h
  exact ⟨_, by rw [preOpen_cons, List.append_assoc, List.append_assoc]⟩

/-- **A block that is back** is as it was put, if it spells no later placeholder, and broken otherwise. -/
theorem wordAt_cases (h : ∀ block ∈ blocks, Whole block) {i : Nat} (hi : i ≤ blocks.length) {j : Nat}
    (hj : j < i) :
    (∀ k < i, j < k → ¬ placeholder k <:+: blocks.getD j []) ∧ wordAt blocks i (.block j) = blocks.getD j [] ∨
      (∃ k < i, j < k ∧ placeholder k <:+: blocks.getD j []) ∧ Broken (wordAt blocks i (.block j)) := by
  induction i with
  | zero => omega
  | succ i ih =>
    by_cases hji : j = i
    · subst hji
      refine Or.inl ⟨fun k hk hlt => absurd hk (by omega), ?_⟩
      rw [wordAt, if_pos rfl]
    · have hword : wordAt blocks (i + 1) (.block j) =
          replaceAll (placeholder i) (blocks.getD i []) (wordAt blocks i (.block j)) :=
        if_neg fun heq => hji (Word.block.inj heq)
      have hnew := (whole_getD h (j := i) (by omega)).head
      rcases ih (by omega) (by omega) with ⟨hnone, hsame⟩ | ⟨⟨k, hk, hlt, hoccurs⟩, hbroken⟩
      · by_cases hoccurs : placeholder i <:+: blocks.getD j []
        · refine Or.inr ⟨⟨i, by omega, by omega, hoccurs⟩, ?_⟩
          rw [hword, hsame]
          exact (whole_getD h (by omega)).broken hnew hoccurs
        · refine Or.inl ⟨fun k hk hlt => ?_, ?_⟩
          · by_cases hki : k = i
            · rw [hki]
              exact hoccurs
            · exact hnone k (by omega) hlt
          · rw [hword, hsame, replaceAll_of_not_occurs (Markdown.placeholder_ne_nil i) hoccurs]
      · refine Or.inr ⟨⟨k, by omega, hlt, hoccurs⟩, ?_⟩
        rw [hword]
        exact hbroken.replaceAll hnew

/-- Nothing is spelled as the empty text, so the symbols of a text are its pieces one by one. -/
theorem lettered_ne_nil (i : Nat) (a : Symbol) : lettered i a ≠ [] := by
  rcases a with c | w
  · exact List.cons_ne_nil _ _
  · cases w with
    | block j =>
      by_cases hj : j < i
      · rw [lettered_of_lt hj]
        exact List.cons_ne_nil _ _
      · rw [lettered_of_le (Nat.not_lt.mp hj)]
        exact letters_ne_nil
    | _ => exact List.cons_ne_nil _ _

/-- Every place that is spelled out begins with a mark. -/
theorem lettered_zero_block (j : Nat) : ∃ rest, lettered 0 (.inr (.block j)) = .inl '@' :: rest := by
  rw [lettered_of_le (Nat.zero_le j), Word.placeholder_cons]
  exact ⟨_, rfl⟩

/-- **The output is read back**: two texts that are the same but for the places of their blocks are the
    same, if they are spelled alike with blocks as they were captured on one side, and whole or broken
    ones on the other. -/
theorem eq_of_spell_eq {word : Word → List Char} (hword : ∀ w, ¬ IsBlock w → word w = w.text)
    (hblock :
      ∀ j, .inr (.block j) ∈ text → word (.block j) = filled blocks (.block j) ∨ Broken (word (.block j)))
    (hwhole : ∀ block ∈ blocks, Whole block) (htext : ∀ j, .inr (.block j) ∈ text → j < blocks.length)
    (htext' : ∀ j, .inr (.block j) ∈ text' → j < blocks.length)
    (hletters : text.flatMap (lettered 0) = text'.flatMap (lettered 0))
    (hspell : spell word text = spell (filled blocks) text') :
    text = text' ∧ ∀ j, .inr (.block j) ∈ text → word (.block j) = filled blocks (.block j) := by
  have hempty : ∀ {a : Symbol} {text : List Symbol}, (a :: text).flatMap (lettered 0) ≠ [] := by
    intro a text hnil
    rw [List.flatMap_cons] at hnil
    exact lettered_ne_nil 0 a (List.append_eq_nil_iff.mp hnil).1
  -- a block starts with `<p`, a placeholder with `@`
  have hstart : ∀ {block rest rest' : List Char}, (∃ more, block = "<p".toList ++ more) →
      block ++ rest ≠ '@' :: rest' := by
    rintro block rest rest' ⟨more, rfl⟩ heq
    rw [block_cons] at heq
    exact absurd (List.cons.inj heq).1 (by decide)
  induction text generalizing text' with
  | nil =>
    cases text' with
    | nil => exact ⟨rfl, fun j hj => absurd hj List.not_mem_nil⟩
    | cons b text' => exact absurd hletters.symm hempty
  | cons a text ih =>
    cases text' with
    | nil => exact absurd hletters hempty
    | cons b text' =>
      have hnext := @ih text' (fun j hj => hblock j (List.mem_cons_of_mem a hj))
        (fun j hj => htext j (List.mem_cons_of_mem a hj))
        fun j hj => htext' j (List.mem_cons_of_mem b hj)
      -- the same symbol at the head of both
      have hsame : (∀ j, a = .inr (.block j) → word (.block j) = filled blocks (.block j)) → a = b →
          text.flatMap (lettered 0) = text'.flatMap (lettered 0) →
          spell word text = spell (filled blocks) text' →
          a :: text = b :: text' ∧ ∀ j, .inr (.block j) ∈ a :: text →
          word (.block j) = filled blocks (.block j) := by
        rintro ha rfl hletters hspell
        obtain ⟨rfl, hall⟩ := hnext hletters hspell
        refine ⟨rfl, fun j hj => ?_⟩
        rcases List.mem_cons.mp hj with hj | hj
        · exact ha j hj.symm
        · exact hall j hj
      rw [List.flatMap_cons, List.flatMap_cons] at hletters
      -- a letter, a block or another word on either side: unlike ones differ in the letters or at their heads
      rcases a with c | w
      · rcases b with d | v
        · obtain ⟨heq, hbehind⟩ := List.cons.inj hletters
          exact hsame (fun j h => by cases h) heq hbehind (List.cons.inj hspell).2
        · by_cases hv : IsBlock v
          · obtain ⟨j, rfl⟩ := hv
            obtain ⟨rest, hrest⟩ := lettered_zero_block j
            rw [hrest] at hletters
            cases (List.cons.inj hletters).1
            exact absurd hspell.symm (hstart (whole_getD hwhole (htext' j List.mem_cons_self)).head)
          · rw [lettered_word hv] at hletters
            cases (List.cons.inj hletters).1
      · by_cases hw : IsBlock w
        · obtain ⟨i, rfl⟩ := hw
          have hi := whole_getD hwhole (htext i List.mem_cons_self)
          have hhead : ∃ more, word (.block i) = "<p".toList ++ more := by
            rcases hblock i List.mem_cons_self with h | h
            · rw [h]
              exact hi.head
            · exact h.head
          rcases b with d | v
          · obtain ⟨rest, hrest⟩ := lettered_zero_block i
            rw [hrest] at hletters
            cases (List.cons.inj hletters).1
            exact absurd hspell (hstart hhead)
          · by_cases hv : IsBlock v
            · obtain ⟨j, rfl⟩ := hv
              rw [lettered_of_le (Nat.zero_le i), lettered_of_le (Nat.zero_le j)] at hletters
              obtain ⟨rfl, hbehind⟩ := placeholder_append_inj hletters
              rw [spell_word, spell_word] at hspell
              rcases hblock i List.mem_cons_self with h | h
              · rw [h] at hspell
                refine hsame (fun j hj => ?_) rfl hbehind (List.append_cancel_left hspell)
                cases hj
                exact h
              · exact absurd hspell (h.ne_whole hi)
            · obtain ⟨rest, hrest⟩ := lettered_zero_block i
              rw [hrest, lettered_word hv] at hletters
              cases (List.cons.inj hletters).1
        · rw [lettered_word hw] at hletters
          rcases b with d | v
          · cases (List.cons.inj hletters).1
          · by_cases hv : IsBlock v
            · obtain ⟨j, rfl⟩ := hv
              obtain ⟨rest, hrest⟩ := lettered_zero_block j
              rw [hrest] at hletters
              cases (List.cons.inj hletters).1
            · rw [lettered_word hv] at hletters
              obtain ⟨heq, hbehind⟩ := List.cons.inj hletters
              cases heq
              rw [spell_word, spell_word, hword w hw, filled_of_not_block hw] at hspell
              exact hsame (fun j hj => absurd ⟨j, Sum.inr.inj hj⟩ hw) rfl hbehind
                (List.append_cancel_left hspell)

end

/-! ## Before and behind -/

section

variable {blocks : List (List Char)} {text : List Symbol}

/-- Spelling out from `i` on and then from an earlier `k` on is spelling out from `k` on. -/
theorem lettered_lettered {k i : Nat} (h : k ≤ i) (text : List Symbol) :
    (text.flatMap (lettered i)).flatMap (lettered k) = text.flatMap (lettered k) := by
  have hletters : ∀ chars : List Char, (letters chars).flatMap (lettered k) = letters chars := by
    intro chars
    rw [letters, List.flatMap_map]
    exact (List.map_eq_flatMap ..).symm
  rw [List.flatMap_assoc]
  refine List.flatMap_congr fun a _ => ?_
  rcases a with c | w
  · rfl
  · by_cases hw : IsBlock w
    · obtain ⟨j, rfl⟩ := hw
      by_cases hj : j < i
      · rw [lettered_of_lt hj, List.flatMap_singleton]
      · rw [lettered_of_le (Nat.not_lt.mp hj), lettered_of_le (by omega), hletters]
    · rw [lettered_word hw, List.flatMap_singleton]

/-- Spelling out some places does not change what is written, since a place is written as its placeholder. -/
theorem written_lettered (i : Nat) (text : List Symbol) :
    written (text.flatMap (lettered i)) = written text := by
  show (text.flatMap (lettered i)).flatMap (restore Word.text) = text.flatMap (restore Word.text)
  rw [List.flatMap_assoc]
  refine List.flatMap_congr fun a _ => ?_
  rcases a with c | w
  · rfl
  · by_cases hw : IsBlock w
    · obtain ⟨j, rfl⟩ := hw
      by_cases hj : j < i
      · rw [lettered_of_lt hj, List.flatMap_singleton]
      · rw [lettered_of_le (Nat.not_lt.mp hj)]
        exact spell_letters _
    · rw [lettered_word hw, List.flatMap_singleton]

/-- Where all places are before `n`, nothing from `n` on is left to spell out. -/
theorem lettered_all {n : Nat} (h : ∀ j, .inr (.block j) ∈ text → j < n) :
    text.flatMap (lettered n) = text := by
  have hself : text.flatMap (lettered n) = text.flatMap fun a => [a] := by
    refine List.flatMap_congr fun a ha => ?_
    rcases a with c | w
    · rfl
    · by_cases hw : IsBlock w
      · obtain ⟨j, rfl⟩ := hw
        exact lettered_of_lt (h j ha)
      · exact lettered_word hw
  rw [hself]
  exact List.flatMap_singleton' text

/-- A replacement is undone by writing the placeholder again. -/
theorem lettered_replaced (h : ∀ a ∈ text, BackBefore 0 a) (i : Nat) :
    (replaced text (i + 1)).flatMap (lettered i) = replaced text i := by
  refine flatMap_replaceAll letters_ne_nil (fun a ha => ?_) ?_
  · have hback := backBefore_replaced h i a ha
    rcases a with c | w
    · rfl
    · by_cases hw : IsBlock w
      · obtain ⟨j, rfl⟩ := hw
        exact lettered_of_lt hback
      · exact lettered_word hw
  · rw [List.flatMap_singleton, lettered_of_le (Nat.le_refl i)]

/-- The replacements only turn spelled placeholders into places, so spelled out again the text is the one at
    the start. -/
theorem lettered_zero_replaced (h : ∀ a ∈ text, BackBefore 0 a) (i : Nat) :
    (replaced text i).flatMap (lettered 0) = text.flatMap (lettered 0) := by
  induction i with
  | zero => rfl
  | succ i ih => rw [← lettered_lettered (Nat.zero_le i), lettered_replaced h, ih]

/-- A text that is spelled out has no place that counts as back. -/
theorem backBefore_lettered (text : List Symbol) : ∀ a ∈ text.flatMap (lettered 0), BackBefore 0 a := by
  intro a ha
  rcases a with c | w
  · trivial
  · cases w with
    | block j => exact absurd (block_mem_lettered.mp ha).2 (Nat.not_lt_zero j)
    | _ => trivial

/-- **Every replacement is clean** exactly if all of them together are. -/
theorem replaced_iff {n : Nat} (h : ∀ j, .inr (.block j) ∈ text → j < n) :
    replaced (text.flatMap (lettered 0)) n = text ↔ ∀ i < n, ¬ Spells i text := by
  have hall := lettered_all h
  constructor
  · intro heq
    have hback : ∀ k ≤ n, replaced (text.flatMap (lettered 0)) (n - k) = text.flatMap (lettered (n - k)) := by
      intro k hk
      induction k with
      | zero => rw [Nat.sub_zero, heq, hall]
      | succ k ih =>
        have hsucc : n - k = n - (k + 1) + 1 := by omega
        have hlater := ih (by omega)
        rw [hsucc] at hlater
        rw [← lettered_replaced (backBefore_lettered text), hlater, lettered_lettered (Nat.le_succ _)]
    intro i hi
    have hthis := hback (n - i) (by omega)
    have hnext := hback (n - (i + 1)) (by omega)
    rw [show n - (n - i) = i by omega] at hthis
    rw [show n - (n - (i + 1)) = i + 1 by omega, replaced, hthis] at hnext
    exact replaceAll_lettered.mp hnext
  · intro hclean
    have hforth : ∀ i ≤ n, replaced (text.flatMap (lettered 0)) i = text.flatMap (lettered i) := by
      intro i hi
      induction i with
      | zero => rfl
      | succ i ih =>
        rw [replaced, ih (by omega)]
        exact replaceAll_lettered.mpr (hclean i (by omega))
    rw [hforth n (Nat.le_refl n), hall]

/-- What a text spells depends on the words in it only. -/
theorem spell_congr {word word' : Word → List Char} (h : ∀ w, .inr w ∈ text → word w = word' w) :
    spell word text = spell word' text := by
  refine List.flatMap_congr fun a ha => ?_
  rcases a with c | w
  · rfl
  · exact h w ha

/-- **All the blocks are in their places** exactly if no placeholder is spelled, around the blocks or in
    one that is back. -/
theorem restoreBlocks_iff (hwhole : ∀ block ∈ blocks, Whole block)
    (htext : ∀ j, .inr (.block j) ∈ text ↔ j < blocks.length) :
    Markdown.restoreBlocks blocks (written text) = spell (filled blocks) text ↔
      (∀ i < blocks.length, ¬ Spells i text) ∧
        ∀ i < blocks.length, ∀ j < i, ¬ placeholder i <:+: blocks.getD j [] := by
  have henclosed : ∀ block ∈ blocks, Enclosed block := fun block hblock => (hwhole block hblock).enclosed
  have hlt : ∀ j, .inr (.block j) ∈ text → j < blocks.length := fun j => (htext j).mp
  have hback := backBefore_lettered text
  have hrestore := restoreBlocks_spell henclosed hback
  rw [written_lettered] at hrestore
  have hreplaced :
      ∀ j, .inr (.block j) ∈ replaced (text.flatMap (lettered 0)) blocks.length → j < blocks.length :=
    fun j hj => backBefore_replaced hback _ _ hj
  have hcases := fun j (hj : j < blocks.length) => wordAt_cases hwhole (Nat.le_refl _) hj
  rw [hrestore, ← replaced_iff hlt]
  constructor
  · intro hspell
    -- the output tells where every block is, and what is in its place
    have hletters : (replaced (text.flatMap (lettered 0)) blocks.length).flatMap (lettered 0) =
        text.flatMap (lettered 0) := by
      rw [lettered_zero_replaced hback, lettered_lettered (Nat.le_refl 0)]
    obtain ⟨heq, hwords⟩ := eq_of_spell_eq (fun w hw => wordAt_of_not_block _ hw)
      (fun j hj => (hcases j (hreplaced j hj)).imp And.right And.right) hwhole hreplaced hlt hletters hspell
    refine ⟨heq, fun i hi j hj => ?_⟩
    rcases hcases j (by omega) with ⟨hnone, -⟩ | ⟨-, hbroken⟩
    · exact hnone i hi hj
    · rw [hwords j (by rw [heq, htext]; omega)] at hbroken
      exact absurd rfl (@Broken.ne_whole _ _ [] [] hbroken (whole_getD hwhole (by omega)))
  · rintro ⟨heq, hclean⟩
    rw [heq]
    refine spell_congr fun w hw => ?_
    by_cases hblock : IsBlock w
    · obtain ⟨j, rfl⟩ := hblock
      rcases hcases j (hlt j hw) with ⟨-, hsame⟩ | ⟨⟨k, hk, hjk, hoccurs⟩, -⟩
      · exact hsame
      · exact absurd hoccurs (hclean k hk j hjk)
    · rw [wordAt_of_not_block _ hblock, filled_of_not_block hblock]

end

/-! ## Bodies -/

section

variable {idx : Nat} {text : List Char}

/-- A placeholder occurs in a text without words exactly if it does in its letters. -/
theorem infix_letters : letters (placeholder idx) <:+: letters text ↔ placeholder idx <:+: text := by
  have hwithin : Within (fun w => Untouched (placeholder idx) w.text) (letters text) := within_letters text
  have hsplit := splitAround_spell (Markdown.placeholder_ne_nil idx) hwithin
  rw [letters, spell_letters] at hsplit
  rw [← not_iff_not, ← splitAround_eq_none, ← splitAround_eq_none, hsplit, Option.map_eq_none_iff]
  rfl

/-- In a text with no places, a placeholder occurs in what is written exactly if its letters are there in a
    row: the words that stand between cannot help to spell it. -/
theorem infix_written {text : List Symbol} (h : Within (¬ IsBlock ·) text) :
    placeholder idx <:+: written text ↔ letters (placeholder idx) <:+: text := by
  have hsplit :=
    splitAround_spell (Markdown.placeholder_ne_nil idx) (h.mono fun w hw => untouched_placeholder idx hw)
  rw [← not_iff_not, ← splitAround_eq_none, ← splitAround_eq_none, written, hsplit, Option.map_eq_none_iff]
  rfl

/-- Escaping neither makes nor breaks a placeholder, none of whose letters is escaped. -/
theorem infix_escapeHtml : placeholder idx <:+: Markdown.escapeHtml text ↔ placeholder idx <:+: text := by
  have hwritten : written (escapeHtml (letters text)) = Markdown.escapeHtml text := by
    rw [written_escapeHtml (within_isBlock_letters text), written_letters]
  have hmap := @infix_map_iff _ (letters (placeholder idx)) (letters text) escapeSymbol ?_
  · rw [← hwritten, infix_written (within_of_safe (safe_escapeHtml text)), ← infix_letters, ← hmap]
    rfl
  · intro a ha b
    obtain ⟨c, hc, rfl⟩ := List.mem_map.mp ha
    exact escapeSymbol_eq_letter (mem_placeholder_plain hc) b

/-- A letter that is in no placeholder cuts the text: a placeholder is on one side of it or on the other. -/
theorem cuts_char {c : Char} (hc : c ∉ placeholder idx) : Cuts (placeholder idx <:+: ·) [c] := by
  intro text rest
  rw [List.append_assoc, List.singleton_append]
  exact infix_append_cons_iff hc

/-- Such letters in front of a text or behind it do not matter to whether a placeholder occurs. -/
theorem infix_skip {skipped : List Char} (h : ∀ c ∈ skipped, c ∉ placeholder idx) (text : List Char) :
    (placeholder idx <:+: skipped ++ text ↔ placeholder idx <:+: text) ∧
      (placeholder idx <:+: text ++ skipped ↔ placeholder idx <:+: text) :=
  cuts_skip (fun h => Markdown.placeholder_ne_nil idx (List.infix_nil.mp h))
    (fun c hc => cuts_char (h c hc)) text

/-- Nor do the newlines that are trimmed off a body. -/
theorem infix_trimNewlines : placeholder idx <:+: Markdown.trimNewlines text ↔ placeholder idx <:+: text := by
  have hnewline : '\n' ∉ placeholder idx := (Word.block idx).stop_not_mem newline_stops
  have hline : ∀ {part : List Char}, (∀ c ∈ part, (c == '\n') = true) → ∀ c ∈ part, c ∉ placeholder idx := by
    intro part hpart c hc
    rw [eq_of_beq (hpart c hc)]
    exact hnewline
  have hstart : text.takeWhile (· == '\n') ++ text.dropWhile (· == '\n') = text :=
    List.takeWhile_append_dropWhile
  have hbehind : Markdown.trimNewlines text ++ (text.dropWhile (· == '\n')).rtakeWhile (· == '\n') =
      text.dropWhile (· == '\n') := List.rdropWhile_append_rtakeWhile
  have hfirst : ∀ c ∈ text.takeWhile (· == '\n'), (c == '\n') = true :=
    fun c hc => List.mem_takeWhile_imp (p := (· == '\n')) hc
  have hlast : ∀ c ∈ (text.dropWhile (· == '\n')).rtakeWhile (· == '\n'), (c == '\n') = true :=
    fun c hc => List.mem_rtakeWhile_imp (p := (· == '\n')) hc
  conv_rhs => rw [← hstart]
  rw [(infix_skip (hline hfirst) _).1, ← hbehind, (infix_skip (hline hlast) _).2]

/-- A block spells what its body spells. -/
theorem infix_codeBlock : placeholder idx <:+: Markdown.codeBlock text ↔ placeholder idx <:+: text := by
  have hclose : ∀ c ∈ preClose, c ∉ placeholder idx := not_mem_placeholder (by decide) idx
  have hblock : Markdown.codeBlock text =
    preOpen ++ Markdown.escapeHtml (Markdown.trimNewlines text) ++ preClose := rfl
  rw [hblock, (infix_skip hclose _).2, (infix_skip (preOpen_not_mem idx) _).1, infix_escapeHtml,
    infix_trimNewlines]

end

end Marked

/-! ## Fenced code -/

namespace Markdown

open Marked

/-- The text outside the fences behind the passes, with the places of the blocks. -/
def outline (text : List Char) : List Symbol := Marked.rewrite (outside text)

/-- **Fenced code survives.**  The places of the blocks are in order behind the passes, one for each; and
    the output is what the passes make of the text outside the fences, with every block in its place. -/
structure Intact (text : List Char) : Prop where
  order : blocksOf (outline text) = List.range (fencedBodies text).length
  output : markdownToHtml text = spell (filled ((fencedBodies text).map codeBlock)) (outline text)

/-- Nothing spells a placeholder: not the text outside the fences, not with the marks of the places in it,
    nor the body of an earlier block.  And no link has blocks in its label and in its URL. -/
structure Unmistaken (text : List Char) : Prop where
  links : ∀ link ∈ found Marked.linkStep (outside text), blocksOf link.url = [] ∨ blocksOf link.label = []
  unspelled : ∀ i < (fencedBodies text).length, ¬ Spells i (outside text)
  bodies : ∀ i < (fencedBodies text).length, ∀ j < i, ¬ placeholder i <:+: (fencedBodies text).getD j []

/-- The places that the first pass leaves are numbered one after the other. -/
theorem blocksOf_numbered (idx : Nat) (rest : List (Char ⊕ List Char)) :
    blocksOf (numbered idx rest) = List.range' idx (rest.filterMap Sum.getRight?).length := by
  induction rest generalizing idx with
  | nil => rfl
  | cons piece rest ih =>
    cases piece with
    | inl c => exact ih idx
    | inr block =>
      rw [numbered, blocksOf_block, ih]
      rfl

/-- So the text outside the fences has one place for each fenced body, in order. -/
theorem blocksOf_outside (text : List Char) :
    blocksOf (outside text) = List.range (fencedBodies text).length := by
  rw [outside, blocksOf_numbered, List.range_eq_range']
  rfl

/-- Of the later passes only that of the links can change the order of the places; bold, italics and inline
    code keep it. -/
theorem blocksOf_rewrite (text : List Symbol) : blocksOf (Marked.rewrite text) =
    blocksOf (Marked.replaceLinks (Marked.withHeadings (Marked.escapeHtml text))) := by
  unfold Marked.rewrite
  dsimp only
  rw [blocksOf_replaceDelimited (List.cons_ne_nil _ _), blocksOf_replaceDelimited (List.cons_ne_nil _ _),
    blocksOf_replaceDelimited (List.cons_ne_nil _ _)]

/-- **Order**: the links alone can change it. -/
theorem order_iff (text : List Char) :
    blocksOf (outline text) = List.range (fencedBodies text).length ↔ OneSided (outside text) := by
  have hblocks : blocksOf (Marked.withHeadings (Marked.escapeHtml (outside text))) =
      List.range (fencedBodies text).length := by
    rw [blocksOf_withHeadings, blocksOf_escapeHtml, blocksOf_outside]
  have hlinks := @blocksOf_replaceLinks (Marked.withHeadings (Marked.escapeHtml (outside text)))
    (by rw [hblocks]; exact List.nodup_range)
  rw [outline, blocksOf_rewrite, ← oneSided_withHeadings, ← hblocks]
  exact hlinks

/-- The first pass puts in no other words than places. -/
theorem within_isBlock_outside (text : List Char) : Within IsBlock (outside text) := by
  have hall : ∀ idx rest, Within IsBlock (numbered idx rest) := by
    intro idx rest
    induction rest generalizing idx with
    | nil => exact within_nil
    | cons piece rest ih =>
      cases piece with
      | inl c => exact within_cons.mpr ⟨fun w hw => (by cases hw), ih idx⟩
      | inr block => exact within_cons.mpr ⟨fun w hw => ⟨idx, (Sum.inr.inj hw).symm⟩, ih (idx + 1)⟩
  exact hall 0 _

/-- The empty text is rewritten to itself. -/
theorem rewrite_nil : Marked.rewrite [] = [] := by
  have hheadings : Marked.withHeadings (Marked.escapeHtml []) = [] := by decide
  have hlinks : Marked.replaceLinks [] = [] := substitute_nil Marked.consumes_linkStep
  have hdelimited :
      ∀ {delimiter : List Char}, delimiter ≠ [] → ∀ tag, Marked.replaceDelimited delimiter tag [] = [] :=
    fun hne tag => substitute_nil (Marked.consumes_delimiterStep hne)
  unfold Marked.rewrite
  dsimp only
  rw [hheadings, hlinks, hdelimited (List.cons_ne_nil _ _), hdelimited (List.cons_ne_nil _ _),
    hdelimited (List.cons_ne_nil _ _)]

/-- The source's renderer is the outline, written down, with the captured blocks put back: the early return
    for an empty text gives the same. -/
theorem markdownToHtml_outline (text : List Char) :
    markdownToHtml text = restoreBlocks ((fencedBodies text).map codeBlock) (written (outline text)) := by
  by_cases hempty : text = []
  · subst hempty
    have hpieces := pieces_nil consumes_fenceStep
    rw [outline, outside, fencedBodies, found, hpieces, numbered, rewrite_nil]
    rfl
  · rw [markdownToHtml_rewrite text hempty, captureFencedBlocks_eq, outline,
      written_rewrite (within_isBlock_outside text)]

/-- **In order, every block is in its place** exactly if no placeholder is spelled. -/
theorem output_iff {text : List Char} (h : blocksOf (outline text) = List.range (fencedBodies text).length) :
    markdownToHtml text = spell (filled ((fencedBodies text).map codeBlock)) (outline text) ↔
      (∀ i < (fencedBodies text).length, ¬ Spells i (outside text)) ∧
        ∀ i < (fencedBodies text).length, ∀ j < i, ¬ placeholder i <:+: (fencedBodies text).getD j [] := by
  have hwhole : ∀ block ∈ (fencedBodies text).map codeBlock, Whole block := by
    intro block hblock
    obtain ⟨body, -, rfl⟩ := List.mem_map.mp hblock
    exact whole_codeBlock body
  have hplaces : ∀ j, .inr (.block j) ∈ outline text ↔ j < ((fencedBodies text).map codeBlock).length := by
    intro j
    rw [← mem_blocksOf, h, List.mem_range, List.length_map]
  have hbody : ∀ i < (fencedBodies text).length, ∀ j < i,
    (placeholder i <:+: ((fencedBodies text).map codeBlock).getD j [] ↔
      placeholder i <:+: (fencedBodies text).getD j []) := by
    intro i hi j hj
    rw [List.getD_eq_getElem _ _ (by rw [List.length_map]; omega), List.getElem_map, infix_codeBlock,
      List.getD_eq_getElem _ _ (by omega)]
  rw [markdownToHtml_outline, restoreBlocks_iff hwhole hplaces, List.length_map]
  refine and_congr (forall₂_congr fun i _ => not_congr spells_rewrite) ?_
  exact forall₂_congr fun i hi => forall₂_congr fun j hj => not_congr (hbody i hi j hj)

end Markdown

open Markdown

/-- **Fenced code survives** exactly where nothing spells a placeholder, and no link has blocks on both
    sides. -/
theorem fencedCode_intact_iff (text : List Char) : Intact text ↔ Unmistaken text := by
  constructor
  · rintro ⟨horder, houtput⟩
    obtain ⟨hunspelled, hbodies⟩ := (output_iff horder).mp houtput
    exact ⟨(order_iff text).mp horder, hunspelled, hbodies⟩
  · rintro ⟨hlinks, hunspelled, hbodies⟩
    have horder := (order_iff text).mpr hlinks
    exact ⟨horder, (output_iff horder).mpr ⟨hunspelled, hbodies⟩⟩

/-- A placeholder in front of an empty block, which is the first one. -/
def spelledText : List Char := "@@TG_CODEBLOCK_0@@".toList ++ fence ++ ['\n'] ++ fence

/-- **Such a text fails**: its block is put back where the text spells the placeholder as well. -/
theorem spelledText_not_intact : ¬ Intact spelledText := by
  have hneeds : ∀ text, dropPattern fence text = none → fenceStep text = none := by
    intro text h
    rw [fenceStep, h]
    rfl
  have hsplit : splitAround fence spelledText = some ("@@TG_CODEBLOCK_0@@".toList, '\n' :: fence) := by
    decide
  have hblock : fenceStep (fence ++ '\n' :: fence) = some ([], []) := by decide
  have hpieces : pieces fenceStep spelledText = "@@TG_CODEBLOCK_0@@".toList.map .inl ++ [.inr []] := by
    rw [pieces_splitAround consumes_fenceStep hneeds (by decide), hsplit, Option.map_some, Option.getD_some,
      pieces_of_some consumes_fenceStep hblock, pieces_nil consumes_fenceStep]
  have hbodies : (fencedBodies spelledText).length = 1 := by
    rw [fencedBodies, found, hpieces]
    decide
  have hspells : Marked.Spells 0 (outside spelledText) := by
    rw [outside, hpieces]
    decide
  rintro ⟨horder, houtput⟩
  exact ((output_iff horder).mp houtput).1 0 (by omega) hspells

end Tellm
