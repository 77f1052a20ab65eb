/-
  THE STAGES OF THE RENDERER, one by one against the reference.

  Each stage of either program is the substitution of one step.  Of the reference's patterns this is what
  `re.sub` means; the step is read off the pattern (`step_fence`, `step_heading`, …).  Of the loops of
  `lib.rs` it is shown, by the recursion of the loop.  What is left is to compare two steps at the head of
  one text.

  1. **Fences and escaping** agree (`capture_eq`, `escape_eq`), and so does **inline code**.
  2. **Headings** agree but on a line of one white space behind the hashes (`BareHeading`).
  3. **Links** agree but on a URL that is only a scheme (`bareUrl`).
  4. **Bold** agrees but where the delimiter stands twice in a row and once more behind (`Doubled`).

  What is compared is one step of each scanner on the same text: whether it matches there, what it takes
  and what it leaves.  From equal steps equal substitutions follow (`substitute_map` and its kin in
  `Tellm.Lib.Substitution`), and from steps that differ in a described way a description of the outputs.

  The steps of the reference come out of the matcher by the equations for sequences and repetitions.  A
  greedy run before something that cannot continue it has one useful length; a lazy run before a delimiter
  ends at its first occurrence.  After that no regular expression is left, and the comparison is between
  functions on lists.

  Each exception is named by a predicate on the text at which it happens, so that
  `Tellm.MarkdownAgreement` can say where it is met: on which line, at which link, at which opening
  delimiter.
-/
import Tellm.Markdown

namespace Tellm

open Text Substitutions Regexes Regex

namespace Markdown

/-! ## Escaping -/

/-- The reference escapes one entity after the other, the renderer character by character: the same text. -/
theorem escape_eq (text : List Char) : Reference.escape text = escapeHtml text := by
  rw [Reference.escape, replaceAll_singleton, replaceAll_singleton, replaceAll_singleton,
    replaceAll_singleton, replaceAll_singleton]
  simp only [List.flatMap_assoc, escapeHtml]
  congr 1
  funext c
  by_cases h1 : c = '&'
  · subst h1; decide
  by_cases h2 : c = '<'
  · subst h2; decide
  by_cases h3 : c = '>'
  · subst h3; decide
  by_cases h4 : c = '"'
  · subst h4; decide
  by_cases h5 : c = '\''
  · subst h5; decide
  have hchar : escapeChar c = [c] := by
    unfold escapeChar
    split <;> first | contradiction | rfl
  rw [hchar]
  simp only [if_neg h1, if_neg h2, if_neg h3, if_neg h4, if_neg h5, List.flatMap_cons, List.flatMap_nil,
    List.append_nil]

/-! ## Placeholders -/

/-- The placeholder as letters, marks around a number, for the lemmas that look at its characters. -/
theorem placeholder_eq (idx : Nat) :
    placeholder idx = "@@TG_CODEBLOCK_".toList ++ Nat.toDigits 10 idx ++ "@@".toList := by
  show ((toString "@@TG_CODEBLOCK_" ++ toString idx ++ toString "@@" : String)).toList = _
  rw [String.toList_append, String.toList_append]
  show _ ++ (Nat.repr idx).toList ++ _ = _
  rw [Nat.toList_repr]
  rfl

/-- A placeholder is found only where the text begins with a mark. -/
theorem dropPattern_placeholder_ne {c : Char} (hc : c ≠ '@') (idx : Nat) (rest : List Char) :
    dropPattern (placeholder idx) (c :: rest) = none := by
  rw [placeholder_eq]
  exact dropPattern_cons_ne hc _ _

/-- A placeholder is never empty, so the last loop makes progress. -/
theorem placeholder_ne_nil (idx : Nat) : placeholder idx ≠ [] := by
  intro h
  have hnil := dropPattern_placeholder_ne (c := '<') (by decide) idx []
  rw [h] at hnil
  cases hnil

/-- The characters of a placeholder: a mark, an underscore, a letter or a digit. -/
theorem mem_placeholder {idx : Nat} {c : Char} (h : c ∈ placeholder idx) :
    c = '@' ∨ c = '_' ∨ c.isAlphanum = true := by
  rw [placeholder_eq, List.mem_append, List.mem_append] at h
  rcases h with (h | h) | h
  · have hall : ("@@TG_CODEBLOCK_".toList.all fun c => c == '@' || c == '_' || c.isAlphanum) = true := by
      decide
    simpa [or_assoc] using List.all_eq_true.mp hall c h
  · have hdigit := Nat.isDigit_of_mem_toDigits (by decide) (by decide) h
    exact Or.inr (Or.inr (by rw [Char.isAlphanum, hdigit, Bool.or_true]))
  · have hall : ("@@".toList.all (· == '@')) = true := by decide
    exact Or.inl (eq_of_beq (List.all_eq_true.mp hall c h))

/-- No two underscores stand together in a placeholder. -/
theorem placeholder_isChain (idx : Nat) :
    (placeholder idx).IsChain fun a b => ¬ (a = '_' ∧ b = '_') := by
  have hdigits : ∀ c ∈ Nat.toDigits 10 idx, c ≠ '_' := by
    rintro c hc rfl
    exact Nat.underscore_not_in_toDigits hc
  rw [placeholder_eq, List.append_assoc, List.isChain_append]
  refine ⟨by decide, ?_, ?_⟩
  · rw [List.isChain_append]
    refine ⟨List.Pairwise.isChain (List.pairwise_of_forall_mem_list ?_), by decide, ?_⟩
    · rintro a ha b - ⟨rfl, -⟩
      exact hdigits _ ha rfl
    · rintro a ha b hb ⟨rfl, -⟩
      exact hdigits _ (List.mem_of_getLast? ha) rfl
  · rintro a - b hb ⟨-, rfl⟩
    have hne : Nat.toDigits 10 idx ≠ [] := Nat.toDigits_ne_nil
    rw [List.head?_append_of_ne_nil _ hne] at hb
    exact hdigits _ (List.mem_of_head? hb) rfl

/-- Letters and digits are printed. -/
theorem toNat_of_alphanum {c : Char} (h : c.isAlphanum = true) : 48 ≤ c.toNat ∧ c.toNat ≤ 122 := by
  have hnat : c.val.toNat = c.toNat := rfl
  have hA : 'A'.toNat = 65 := rfl
  have hZ : 'Z'.toNat = 90 := rfl
  have ha : 'a'.toNat = 97 := rfl
  have hz : 'z'.toNat = 122 := rfl
  have h0 : '0'.toNat = 48 := rfl
  have h9 : '9'.toNat = 57 := rfl
  simp only [Char.isAlphanum, Char.isAlpha, Char.isUpper, Char.isLower, Char.isDigit, Bool.or_eq_true,
    Bool.and_eq_true, decide_eq_true_eq, ge_iff_le, UInt32.le_iff_toNat_le, hnat] at h
  norm_num at h
  omega

/-- White space is neither letter nor digit, so none is in a placeholder. -/
theorem isAlphanum_of_whitespace {c : Char} (h : isWhitespace c = true) : c.isAlphanum = false := by
  simp only [isWhitespace, Bool.or_eq_true, Bool.and_eq_true, decide_eq_true_eq, beq_iff_eq] at h
  rw [Bool.eq_false_iff]
  intro halphanum
  have hprinted := toNat_of_alphanum halphanum
  omega

/-! ## Fences -/

/-- The content of a fence begins behind the first newline, unless a tick comes before it. -/
theorem fencedContentStart_eq (text : List Char) :
    fencedContentStart text = dropPattern ['\n'] (text.dropWhile (Reference.except ['\n', tick])) := by
  induction text with
  | nil => rfl
  | cons c rest ih =>
    rw [fencedContentStart]
    by_cases h1 : c = '\n'
    · subst h1
      rfl
    by_cases h2 : c = tick
    · subst h2
      rfl
    have hc : Reference.except ['\n', tick] c = true := by simp [Reference.except, h1, h2]
    rw [if_neg h1, if_neg h2, List.dropWhile_cons_of_pos hc, ih]

/-- One match of the reference's fence pattern is what the renderer looks for behind an opening fence. -/
theorem step_fence (text : List Char) : Reference.fenceRegex.step text =
    (dropPattern fence text).bind fun afterOpen =>
      (fencedBlock afterOpen).map fun found => ([found.1], found.2) := by
  rw [Reference.fenceRegex, step_literal_seq]
  congr 1
  funext afterOpen
  rw [step_optional_seq, step_literal_seq, fencedBlock, fencedContentStart_eq]
  · cases dropPattern ['\n'] (afterOpen.dropWhile (Reference.except ['\n', tick])) with
    | none => rfl
    | some content =>
      rw [Option.bind_some, step_lazy]
      simp only [List.all_eq_true, implies_true, if_true]
      show (splitAround fence content).bind _ = (splitAround fence content).map _
      cases splitAround fence content <;> rfl
  · intro c hc
    refine (rejects_literal ?_).seq _
    rintro rfl
    simp [Reference.except] at hc

/-- What is left behind a captured block is an end of the text behind its opening fence. -/
theorem suffix_fencedBlock {afterOpen block after : List Char}
    (h : fencedBlock afterOpen = some (block, after)) : after <:+ afterOpen := by
  unfold fencedBlock at h
  split at h
  · cases h
  · rename_i content hstart
    rw [fencedContentStart_eq] at hstart
    have hcontent : content <:+ afterOpen := by
      refine List.IsSuffix.trans ⟨['\n'], ?_⟩ (List.dropWhile_suffix (Reference.except ['\n', tick]))
      exact (dropPattern_eq_some.mp hstart).symm
    exact List.IsSuffix.trans ⟨block ++ fence, (eq_of_splitAround h).symm⟩ hcontent

/-- Each match of the fence pattern takes something off the text. -/
theorem consumes_fence : Consumes Reference.fenceRegex.step := by
  intro text groups rest h
  rw [step_fence] at h
  obtain ⟨afterOpen, hopen, h⟩ := Option.bind_eq_some_iff.mp h
  obtain ⟨found, hfound, heq⟩ := Option.map_eq_some_iff.mp h
  cases heq
  obtain ⟨taken, htaken⟩ := suffix_fencedBlock hfound
  refine ⟨fence ++ taken, by simp [fence], ?_⟩
  rw [dropPattern_eq_some.mp hopen, ← htaken, List.append_assoc]

/-- Characters that are in no match go to the output as they are. -/
theorem captureFencedBlocks_copied (copied : List Char) (rest : List (Char ⊕ List (List Char)))
    (fencedBlocks : List (List Char)) :
    Reference.captureFencedBlocks (copied.map .inl ++ rest) fencedBlocks =
      (copied ++ (Reference.captureFencedBlocks rest fencedBlocks).1,
        (Reference.captureFencedBlocks rest fencedBlocks).2) := by
  induction copied with
  | nil => rfl
  | cons c copied ih =>
    rw [List.map_cons, List.cons_append, Reference.captureFencedBlocks, ih]
    rfl

/-- What the reference captures behind the first fence, and before it. -/
theorem captureFencedBlocks_splitAround (rest : List Char) (fencedBlocks : List (List Char)) :
    Reference.captureFencedBlocks (pieces Reference.fenceRegex.step rest) fencedBlocks =
      ((splitAround fence rest).map fun parts =>
        let captured := Reference.captureFencedBlocks
          (pieces Reference.fenceRegex.step (fence ++ parts.2)) fencedBlocks
        (parts.1 ++ captured.1, captured.2)).getD (rest, fencedBlocks) := by
  have hneeds : ∀ text, dropPattern fence text = none → Reference.fenceRegex.step text = none := by
    intro text h
    rw [step_fence, h]
    rfl
  rw [pieces_splitAround consumes_fence hneeds (by decide) rest]
  cases splitAround fence rest with
  | none =>
    have hcopied := captureFencedBlocks_copied rest [] fencedBlocks
    rw [List.append_nil] at hcopied
    show Reference.captureFencedBlocks (rest.map .inl) fencedBlocks = (rest, fencedBlocks)
    rw [hcopied, Reference.captureFencedBlocks, List.append_nil]
  | some parts => exact captureFencedBlocks_copied parts.1 _ fencedBlocks

/-- The loop, from what is left of the text on. -/
theorem captureFrom_eq (rest output : List Char) (fencedBlocks : List (List Char)) :
    captureFrom rest output fencedBlocks =
      (output ++ (Reference.captureFencedBlocks (pieces Reference.fenceRegex.step rest) fencedBlocks).1,
        (Reference.captureFencedBlocks (pieces Reference.fenceRegex.step rest) fencedBlocks).2) := by
  fun_induction captureFrom rest output fencedBlocks with
  | case1 rest output fencedBlocks hopen =>
    rw [captureFencedBlocks_splitAround, hopen]
    rfl
  | case2 rest output fencedBlocks before afterOpen hopen hblock ih =>
    have hnone : Reference.fenceRegex.step (fence ++ afterOpen) = none := by
      rw [step_fence, dropPattern_append, Option.bind_some, hblock]
      rfl
    have hpieces : pieces Reference.fenceRegex.step (fence ++ afterOpen) =
        .inl tick :: pieces Reference.fenceRegex.step (tick :: tick :: afterOpen) := pieces_of_none hnone
    rw [ih, captureFencedBlocks_splitAround rest, hopen, Option.map_some, Option.getD_some, hpieces,
      Reference.captureFencedBlocks]
    simp
  | case3 rest output fencedBlocks before afterOpen hopen block after hblock ih =>
    have hsome : Reference.fenceRegex.step (fence ++ afterOpen) = some ([block], after) := by
      rw [step_fence, dropPattern_append, Option.bind_some, hblock]
      rfl
    rw [ih, captureFencedBlocks_splitAround rest, hopen, Option.map_some, Option.getD_some,
      pieces_of_some consumes_fence hsome, Reference.captureFencedBlocks]
    simp only [escape_eq, List.append_assoc]
    rfl

/-- **Fences agree**: both programs capture the same blocks and leave the same text with the same
    placeholders. -/
theorem capture_eq (text : List Char) :
    Reference.captureFencedBlocks (pieces Reference.fenceRegex.step text) [] = captureFencedBlocks text := by
  rw [captureFencedBlocks, captureFrom_eq]
  rfl

/-! ## White space -/

/-- The two languages' classes of white space agree on the text. -/
def SameSpace (text : List Char) : Prop := ∀ c ∈ text, Reference.isSpace c = isWhitespace c

/-- If the two classes of white space agree on a text, they agree on every part of it. -/
theorem SameSpace.sublist {text text' : List Char} (h : SameSpace text) (hsub : text' ⊆ text) :
    SameSpace text' := fun c hc => h c (hsub hc)

/-- On such a text both take the same white space off the front. -/
theorem takeWhile_sameSpace {text : List Char} (h : SameSpace text) :
    text.takeWhile Reference.isSpace = text.takeWhile isWhitespace := by
  induction text with
  | nil => rfl
  | cons c rest ih =>
    rw [List.takeWhile_cons, List.takeWhile_cons, h c List.mem_cons_self,
      ih fun d hd => h d (List.mem_cons_of_mem _ hd)]

/-- On such a text both leave the same behind it. -/
theorem dropWhile_sameSpace {text : List Char} (h : SameSpace text) :
    text.dropWhile Reference.isSpace = text.dropWhile isWhitespace := by
  induction text with
  | nil => rfl
  | cons c rest ih =>
    rw [List.dropWhile_cons, List.dropWhile_cons, h c List.mem_cons_self,
      ih fun d hd => h d (List.mem_cons_of_mem _ hd)]

/-- On such a text `strip` and `trim` are the same. -/
theorem strip_eq {text : List Char} (h : SameSpace text) :
    Reference.strip Reference.isSpace text = trim text := by
  have hreverse : SameSpace (text.dropWhile isWhitespace).reverse :=
    h.sublist fun c hc => List.dropWhile_subset _ (List.mem_reverse.mp hc)
  rw [Reference.strip, dropWhile_sameSpace h, List.rdropWhile, dropWhile_sameSpace hreverse]
  rfl

/-! ## Headings -/

/-- A line of hashes, one white space and nothing else. -/
def BareHeading (line : List Char) : Prop :=
  ∃ indent hashes space, line = indent ++ hashes ++ [space] ∧
    (indent.length ≤ 3 ∧ ∀ c ∈ indent, isWhitespace c = true) ∧
    (hashes ≠ [] ∧ hashes.length ≤ 6 ∧ ∀ c ∈ hashes, c = '#') ∧ isWhitespace space = true

/-- The indent that the renderer skips is the longest one that the pattern may take. -/
theorem skipIndent_eq_some {n : Nat} {line indented : List Char} (h : skipIndent n line = some indented) :
    indented = line.drop (longest isWhitespace (some n) line).length := by
  induction n generalizing line with
  | zero =>
    rw [skipIndent] at h
    rw [← Option.some.inj h]
    rfl
  | succ n ih =>
    cases line with
    | nil => cases h
    | cons c rest =>
      rw [skipIndent] at h
      cases hc : isWhitespace c with
      | true =>
        rw [hc, if_pos rfl] at h
        rw [longest_cons_pos ⟨hc, by simp⟩]
        exact ih h
      | false =>
        rw [hc, if_neg Bool.false_ne_true] at h
        rw [longest_cons_neg (by simp [hc]), ← Option.some.inj h]
        rfl

/-- Where the renderer finds only white space, the longest indent is the whole line. -/
theorem skipIndent_eq_none {n : Nat} {line : List Char} (h : skipIndent n line = none) :
    line.drop (longest isWhitespace (some n) line).length = [] := by
  induction n generalizing line with
  | zero => cases h
  | succ n ih =>
    cases line with
    | nil => simp
    | cons c rest =>
      rw [skipIndent] at h
      cases hc : isWhitespace c with
      | true =>
        rw [hc, if_pos rfl] at h
        rw [longest_cons_pos ⟨hc, by simp⟩]
        exact ih h
      | false =>
        rw [hc, if_neg Bool.false_ne_true] at h
        cases h

/-- What follows the indentation and the hashes of a line; none without hashes. -/
def afterHashes (line : List Char) : Option (List Char) :=
  let indented := line.drop (longest isWhitespace (some 3) line).length
  let hashes := longest (· == '#') (some 6) indented
  if 1 ≤ hashes.length then some (indented.drop hashes.length) else none

/-- A heading is what follows the hashes, if it is separated from them. -/
theorem markdownHeading_eq (line : List Char) :
    markdownHeading line = (afterHashes line).bind headingText := by
  unfold markdownHeading afterHashes
  cases hindent : skipIndent 3 line with
  | none =>
    rw [skipIndent_eq_none hindent]
    rfl
  | some indented =>
    rw [← skipIndent_eq_some hindent]
    dsimp only
    rw [show (indented.take 6).takeWhile (· == '#') = longest (· == '#') (some 6) indented from rfl]
    cases longest (· == '#') (some 6) indented <;> rfl

/-- Nothing but one white space behind the hashes. -/
theorem bareHeading_iff {line : List Char} :
    BareHeading line ↔ ∃ space, afterHashes line = some [space] ∧ isWhitespace space = true := by
  unfold afterHashes
  constructor
  · rintro ⟨indent, hashes, space, rfl, ⟨hlength, hindent⟩, ⟨hne, hsix, hhashes⟩, hspace⟩
    obtain ⟨hash, hashes, rfl⟩ := List.exists_cons_of_ne_nil hne
    obtain rfl : hash = '#' := hhashes hash List.mem_cons_self
    have hall : ∀ c ∈ '#' :: hashes, (c == '#') = true := fun c hc => by simpa using hhashes c hc
    have hspace' : (space == '#') = false := by
      rw [beq_eq_false_iff_ne]
      rintro rfl
      cases hspace
    -- each run of the pattern stops where the next part begins
    have h1 : longest isWhitespace (some 3) (indent ++ '#' :: (hashes ++ [space])) = indent :=
      longest_append hindent hlength rfl
    have h2 : longest (· == '#') (some 6) ('#' :: hashes ++ [space]) = '#' :: hashes :=
      longest_append hall hsix hspace'
    refine ⟨space, ?_, hspace⟩
    rw [List.append_assoc, List.cons_append, h1, List.drop_left, ← List.cons_append]
    dsimp only
    rw [h2, List.drop_left]
    rfl
  · rintro ⟨space, hafter, hspace⟩
    have hline := longest_append_drop isWhitespace (some 3) line
    generalize line.drop (longest isWhitespace (some 3) line).length = indented at hafter hline
    dsimp only at hafter
    have hindented := longest_append_drop (· == '#') (some 6) indented
    split at hafter
    · rename_i hpos
      rw [Option.some.inj hafter] at hindented
      refine ⟨longest isWhitespace (some 3) line, longest (· == '#') (some 6) indented, space, ?_,
        ⟨length_longest _ _ _, all_longest⟩, ⟨List.length_pos_iff.mp hpos, length_longest _ _ _, ?_⟩, hspace⟩
      · rw [List.append_assoc, hindented, hline]
      · intro c hc
        simpa using all_longest c hc
    · cases hafter

/-- The rest of the heading pattern, behind the white space. -/
theorem step_rest {text : List Char} (hline : '\n' ∉ text) :
    ((repeated true 1 none (Reference.except ['\n'])).group.seq .lineEnd).step text =
      if text = [] then none else some ([text], []) := by
  have hall : longest (Reference.except ['\n']) none text = text := by
    refine List.takeWhile_eq_self_iff.mpr fun c hc => ?_
    have hne : c ≠ '\n' := by
      rintro rfl
      exact hline hc
    simp [Reference.except, hne]
  have hreject : ∀ c, Reference.except ['\n'] c = true → lineEnd.Rejects c := by
    intro c hc
    refine rejects_lineEnd ?_
    rintro rfl
    cases hc
  rw [step_group_greedy_seq 1 none hreject, hall, List.drop_length]
  cases text <;> rfl

/-- The pattern from the white space on. -/
def spaceRegex : Regex :=
  .seq (.repeated true 1 none Reference.isSpace) <|
    .seq (.group (.repeated true 1 none (Reference.except ['\n']))) .lineEnd

/-- The reference's pattern does not match a single white space: it needs a character behind it. -/
theorem step_space_single {space : Char} (hsame : SameSpace [space]) (hspace : isWhitespace space = true) :
    spaceRegex.step [space] = none := by
  have hp : Reference.isSpace space = true := (hsame space List.mem_cons_self).trans hspace
  have hruns : runs true Reference.isSpace 1 none [space] = [([space], [])] := by simp [runs, hp]
  rw [spaceRegex, step_repeated_seq, hruns, List.findSome?_singleton, step_rest List.not_mem_nil]
  rfl

/-- Both programs find the same heading behind the hashes, unless there is only one white space. -/
theorem step_space {text : List Char} (hline : '\n' ∉ text) (hsame : SameSpace text)
    (hne : ∀ space, text = [space] → isWhitespace space = false) :
    spaceRegex.step text = (headingText text).map fun heading => ([heading], []) := by
  have htake := takeWhile_sameSpace hsame
  have hdrop := dropWhile_sameSpace hsame
  rw [spaceRegex, step_repeated_seq]
  by_cases hspace : text.takeWhile isWhitespace = []
  · -- no white space at all
    have hruns : runs true Reference.isSpace 1 none text = [] := by
      cases text with
      | nil => rfl
      | cons c rest =>
        rw [← htake] at hspace
        have hc : Reference.isSpace c = false := by
          rw [Bool.eq_false_iff]
          intro hc
          rw [List.takeWhile_cons_of_pos hc] at hspace
          cases hspace
        simp [runs, hc]
    rw [hruns, headingText, hspace]
    rfl
  by_cases hrest : text.dropWhile isWhitespace = []
  · -- nothing but white space, and more than one
    have hall := List.dropWhile_eq_nil_iff.mp hrest
    have htext : text.takeWhile isWhitespace = text := List.takeWhile_eq_self_iff.mpr hall
    rw [htext] at hspace
    obtain ⟨taken, c, rfl⟩ := (List.eq_nil_or_concat' text).resolve_left hspace
    have htaken : taken ≠ [] := by
      rintro rfl
      cases (hne c rfl).symm.trans (hall c (by simp))
    obtain ⟨tail, hruns⟩ := runs_greedy_all (fun d hd => (hsame d hd).trans (hall d hd))
      (List.length_pos_iff.mpr htaken)
    have hlast : '\n' ∉ [c] := fun h => hline (List.mem_append_right _ h)
    rw [hruns, List.findSome?_cons, step_rest List.not_mem_nil, List.findSome?_cons, step_rest hlast,
      headingText, htext, hrest, List.getLast?_concat]
    rfl
  · have hlast : '\n' ∉ text.dropWhile isWhitespace := fun h => hline (List.dropWhile_subset _ h)
    have hpos : 1 ≤ (text.takeWhile Reference.isSpace).length := by
      rw [htake]
      exact List.length_pos_iff.mpr hspace
    obtain ⟨tail, hruns⟩ := runs_greedy_head 1 hpos
    rw [hruns, htake, hdrop, List.findSome?_cons, step_rest hlast, if_neg hrest, headingText,
      List.getLast?_eq_some_getLast hspace]
    simp [hrest]

/-- The whole pattern, behind indentation and hashes. -/
theorem step_heading {line : List Char} (hsame : SameSpace line) :
    Reference.headingRegex.step line = (afterHashes line).bind spaceRegex.step := by
  have h1 : ∀ c, Reference.isSpace c = true →
      ((repeated true 1 (some 6) (· == '#')).seq spaceRegex).Rejects c := by
    intro c hc
    refine (rejects_repeated Nat.one_pos ?_).seq _
    rw [beq_eq_false_iff_ne]
    rintro rfl
    cases hc
  have h2 : ∀ c, (c == '#') = true → spaceRegex.Rejects c := by
    intro c hc
    obtain rfl := eq_of_beq hc
    exact (rejects_repeated Nat.one_pos rfl).seq _
  have htake : longest Reference.isSpace (some 3) line = longest isWhitespace (some 3) line :=
    takeWhile_sameSpace (hsame.sublist (List.take_subset 3 line))
  rw [Reference.headingRegex]
  show ((repeated true 0 (some 3) Reference.isSpace).seq
    ((repeated true 1 (some 6) (· == '#')).seq spaceRegex)).step line = _
  rw [step_greedy_seq 0 (some 3) h1, if_pos (Nat.zero_le _), step_greedy_seq 1 (some 6) h2, htake,
    afterHashes]
  split <;> rfl

/-- The text behind the hashes has no other characters than the line. -/
theorem afterHashes_subset {line text : List Char} (h : afterHashes line = some text) : text ⊆ line := by
  unfold afterHashes at h
  dsimp only at h
  split at h
  · rw [← Option.some.inj h]
    exact List.Subset.trans (List.drop_subset _ _) (List.drop_subset _ _)
  · cases h

/-- Nor has the heading's text. -/
theorem headingText_subset {text heading : List Char} (h : headingText text = some heading) :
    heading ⊆ text := by
  unfold headingText at h
  split at h
  · cases h
  · rename_i lastWhitespace hlast
    dsimp only at h
    split at h
    · cases h
      have hmem := List.mem_of_getLast? hlast
      exact List.cons_subset.mpr ⟨(List.takeWhile_prefix _).subset hmem, List.nil_subset _⟩
    · cases h
      exact List.dropWhile_subset _

/-- **Where headings disagree**: on a line of hashes and one white space the renderer writes an empty heading,
    and the reference the line. -/
theorem renderLine_of_bare {line : List Char} (hsame : SameSpace line) (h : BareHeading line) :
    renderLine line = tagged ['b'] [] ∧ Reference.renderLine line = line := by
  obtain ⟨space, hafter, hspace⟩ := bareHeading_iff.mp h
  constructor
  · have htrim : trim [space] = [] := trim_eq_nil.mpr (by simpa using hspace)
    rw [renderLine, markdownHeading_eq, hafter, Option.bind_some, headingText]
    simp [hspace, htrim]
  · rw [Reference.renderLine, step_heading hsame, hafter, Option.bind_some,
      step_space_single (hsame.sublist (afterHashes_subset hafter)) hspace]

/-- **Headings** agree on every line that is not a bare one, as long as the white space of the line is the
    same in Rust and in Python. -/
theorem renderLine_eq {line : List Char} (hline : '\n' ∉ line) (hsame : SameSpace line)
    (h : ¬ BareHeading line) : Reference.renderLine line = renderLine line := by
  rw [Reference.renderLine, renderLine, step_heading hsame, markdownHeading_eq]
  cases hafter : afterHashes line with
  | none => rfl
  | some text =>
    have hsub := afterHashes_subset hafter
    have hne : ∀ space, text = [space] → isWhitespace space = false := by
      rintro space rfl
      rw [Bool.eq_false_iff]
      exact fun hspace => h (bareHeading_iff.mpr ⟨space, hafter, hspace⟩)
    rw [Option.bind_some, Option.bind_some,
      step_space (fun hmem => hline (hsub hmem)) (hsame.sublist hsub) hne]
    cases hheading : headingText text with
    | none => rfl
    | some heading =>
      have hsame' := (hsame.sublist hsub).sublist (headingText_subset hheading)
      show "<b>".toList ++ Reference.strip Reference.isSpace heading ++ "</b>".toList =
        tagged ['b'] (trim heading)
      rw [strip_eq hsame']
      simp [tagged]

/-! ## Links -/

/-- The label and the URL behind a `[`, whatever they are, and what follows. -/
def linkParts (labelStart : List Char) : Option ((List Char × List Char) × List Char) :=
  (splitOnce labelStart ']').bind fun label =>
    (stripPrefix label.2 ['(']).bind fun urlStart =>
      (splitOnce urlStart ')').map fun url => ((label.1, url.1), url.2)

/-- What the renderer takes for a link. -/
def isLink (link : List Char × List Char) : Bool :=
  !link.1.isEmpty && !link.2.isEmpty && (http.isPrefixOf link.2 || https.isPrefixOf link.2) &&
    !link.2.any isWhitespace

/-- The renderer's search for a link, as the parts of one and the test on them. -/
theorem linkAt_eq (labelStart : List Char) : linkAt labelStart =
    (linkParts labelStart).bind fun found => if isLink found.1 then some found else none := by
  unfold linkAt linkParts
  cases splitOnce labelStart ']' with
  | none => rfl
  | some label =>
    have hstrip : stripPrefix (']' :: label.2) "](".toList = stripPrefix label.2 ['('] :=
      dropPattern_cons ']' ['('] label.2
    dsimp only
    rw [hstrip, Option.bind_some]
    cases stripPrefix label.2 ['('] with
    | none => rfl
    | some urlStart =>
      dsimp only
      rw [Option.bind_some]
      cases splitOnce urlStart ')' <;> rfl

/-- An optional character between two patterns, the second of which it cannot start. -/
theorem ways_optional_between (r : Regex) {first last : List Char} {c : Char} (hlast : last.head? ≠ some c)
    (hne : last ≠ []) (text : List Char) :
    ((literal first).seq ((literal [c]).optional.seq ((literal last).seq r))).ways text =
      match stripPrefix text (first ++ last) with
      | some rest => (r.ways rest).map (Match.append ⟨first ++ last, [], rest⟩)
      | none =>
        match stripPrefix text (first ++ c :: last) with
        | some rest => (r.ways rest).map (Match.append ⟨first ++ c :: last, [], rest⟩)
        | none => [] := by
  obtain ⟨x, xs, rfl⟩ := List.exists_cons_of_ne_nil hne
  have hc : c ≠ x := by
    rintro rfl
    exact hlast rfl
  rw [stripPrefix, stripPrefix, dropPattern_append_pattern, dropPattern_append_pattern, ways_literal_seq]
  cases dropPattern first text with
  | none => rfl
  | some rest =>
    rw [Option.bind_some, Option.bind_some, Option.map_some, Option.getD_some, ways, ways, ways,
      List.flatMap_append, List.flatMap_singleton]
    cases rest with
    | nil =>
      rfl
    | cons d rest =>
      -- where the optional character stands, only taking it can go on, and else only leaving it out
      by_cases hd : d = c
      · subst hd
        have hskip : ((literal (x :: xs)).seq r).ways (d :: rest) = [] := by
          rw [ways_literal_seq, dropPattern_cons_ne hc]
          rfl
        have htake : dropPattern [d] (d :: rest) = some rest := dropPattern_append [d] rest
        rw [htake, Option.map_some, Option.toList_some, List.flatMap_singleton, hskip, List.map_nil,
          List.append_nil, dropPattern_cons_ne hc, dropPattern_cons, ways_literal_seq]
        cases dropPattern (x :: xs) rest with
        | none => rfl
        | some rest' =>
          simp only [Option.map_some, Option.getD_some, List.map_map]
          refine List.map_congr_left fun m _ => ?_
          simp [Match.append]
      · rw [dropPattern_cons_ne hd, dropPattern_cons_ne hd, ways_literal_seq]
        cases dropPattern (x :: xs) (d :: rest) with
        | none => rfl
        | some rest' =>
          simp only [Option.map_none, Option.toList_none, List.flatMap_nil, List.nil_append, Option.map_some,
            Option.getD_some, List.map_map]
          refine List.map_congr_left fun m _ => ?_
          simp [Match.append]

/-- The scheme of a URL, and what follows it. -/
def scheme (url : List Char) : Option (List Char × List Char) :=
  match stripPrefix url http with
  | some rest => some (http, rest)
  | none =>
    match stripPrefix url https with
    | some rest => some (https, rest)
    | none => none

/-- A character of a URL. -/
def urlChar (c : Char) : Bool := !Reference.isSpace c && c != ')'

/-- The pattern from the URL on. -/
def urlRegex : Regex :=
  .seq (.group (.seq (.literal "http".toList) <| .seq (.optional (.literal ['s'])) <|
    .seq (.literal "://".toList) (.repeated true 1 none urlChar))) <|
    .literal [')']

/-- The characters of a URL up to the parenthesis, where they reach it. -/
theorem urlChars_eq (text : List Char) :
    ((dropPattern [')'] (text.dropWhile urlChar)).map fun after => (text.takeWhile urlChar, after)) =
      (splitOnce text ')').bind fun parts =>
        if parts.1.all (!Reference.isSpace ·) then some parts else none := by
  -- the class leaves out the parenthesis, so the run stops at the first one or at a space before it
  induction text with
  | nil => rfl
  | cons c rest ih =>
    rw [splitOnce_cons]
    by_cases hclose : c = ')'
    · subst hclose
      rfl
    rw [if_neg hclose]
    cases hspace : Reference.isSpace c with
    | true =>
      have hc : ¬ urlChar c = true := by simp [urlChar, hspace]
      rw [List.dropWhile_cons_of_neg hc, dropPattern_cons_ne hclose]
      cases splitOnce rest ')' with
      | none => rfl
      | some parts =>
        show _ = if (c :: parts.1).all _ then _ else _
        rw [List.all_cons, hspace]
        rfl
    | false =>
      have hc : urlChar c = true := by simp [urlChar, hspace, hclose]
      rw [List.dropWhile_cons_of_pos hc, List.takeWhile_cons_of_pos hc]
      have hmap := congrArg (Option.map fun parts : List Char × List Char => (c :: parts.1, parts.2)) ih
      rw [Option.map_map] at hmap
      refine hmap.trans ?_
      cases splitOnce rest ')' with
      | none => rfl
      | some parts =>
        show Option.map _ (if parts.1.all _ then _ else _) = if (c :: parts.1).all _ then _ else _
        rw [List.all_cons, hspace]
        cases parts.1.all (!Reference.isSpace ·) <;> rfl

/-- The match of the URL behind its scheme. -/
theorem step_behindScheme (start text : List Char) :
    (((((repeated true 1 none urlChar).ways text).map (Match.append ⟨start, [], text⟩)).map
      fun m => { m with groups := m.matched :: m.groups }).flatMap
        fun m => ((literal [')']).ways m.rest).map m.append).head?.map (fun m => (m.groups, m.rest)) =
      (splitOnce text ')').bind fun url =>
        if !url.1.isEmpty && url.1.all (!Reference.isSpace ·) then some ([start ++ url.1], url.2)
        else none := by
  have hrejects : ∀ taken c rest, urlChar c = true →
      ((literal [')']).ways (c :: rest)).map
          (Match.append ⟨start ++ taken, [start ++ taken], c :: rest⟩) = [] := by
    intro taken c rest hc
    have hne : c ≠ ')' := by
      rintro rfl
      cases hc
    rw [rejects_literal hne rest]
    rfl
  have hruns := runs_greedy (f := fun r =>
    ((literal [')']).ways r.2).map (Match.append ⟨start ++ r.1, [start ++ r.1], r.2⟩)) hrejects 1 none text
  rw [show longest urlChar none text = text.takeWhile urlChar from rfl, drop_takeWhile] at hruns
  rw [ways, List.map_map, List.map_map, List.flatMap_map]
  refine (congrArg (fun l : List Match => l.head?.map fun m => (m.groups, m.rest)) hruns).trans ?_
  calc _ = ((dropPattern [')'] (text.dropWhile urlChar)).map fun after =>
          (text.takeWhile urlChar, after)).bind fun url =>
            if !url.1.isEmpty then some ([start ++ url.1], url.2) else none := by
        rw [ways]
        cases dropPattern [')'] (text.dropWhile urlChar) with
        | none => split <;> rfl
        | some after => cases text.takeWhile urlChar <;> rfl
    _ = _ := by
        rw [urlChars_eq, Option.bind_assoc]
        congr 1
        funext url
        cases url.1.all (!Reference.isSpace ·) with
        | false => rw [Bool.and_false]; rfl
        | true => rw [Bool.and_true]; rfl

/-- The pattern of a URL, as a search for its scheme and for the first closing parenthesis. -/
theorem step_url (text : List Char) : urlRegex.step text =
    (scheme text).bind fun parts =>
      (splitOnce parts.2 ')').bind fun url =>
        if !url.1.isEmpty && url.1.all (!Reference.isSpace ·) then some ([parts.1 ++ url.1], url.2)
        else none := by
  have hhttp : "http".toList ++ "://".toList = http := by decide
  have hhttps : "http".toList ++ 's' :: "://".toList = https := by decide
  rw [step, first, urlRegex, ways, ways, ways_optional_between _ (by decide) (by decide), hhttp, hhttps,
    scheme]
  cases stripPrefix text http with
  | some rest => exact step_behindScheme http rest
  | none =>
    cases stripPrefix text https with
    | some rest => exact step_behindScheme https rest
    | none => rfl

/-- A start without the separator is passed over. -/
theorem splitOnce_append {start : List Char} {separator : Char} (h : separator ∉ start) (text : List Char) :
    splitOnce (start ++ text) separator =
      (splitOnce text separator).map fun parts => (start ++ parts.1, parts.2) := by
  induction start with
  | nil => simp
  | cons c start ih =>
    obtain ⟨hc, hstart⟩ := not_or.mp fun h' => h (List.mem_cons.mpr h')
    rw [List.cons_append, splitOnce_cons, if_neg (Ne.symm hc), ih hstart, Option.map_map]
    rfl

/-- A scheme that is found is one of the two, at the front of the URL. -/
theorem scheme_eq_some {url rest : List Char} {start : List Char} (h : scheme url = some (start, rest)) :
    url = start ++ rest ∧ (start = http ∨ start = https) := by
  unfold scheme at h
  split at h
  · rename_i rest' hstrip
    cases h
    exact ⟨stripPrefix_eq_some.mp hstrip, Or.inl rfl⟩
  · split at h
    · rename_i rest' hstrip
      cases h
      exact ⟨stripPrefix_eq_some.mp hstrip, Or.inr rfl⟩
    · cases h

/-- Both schemes are found where they stand at the front. -/
theorem scheme_append {start : List Char} (h : start = http ∨ start = https) (rest : List Char) :
    scheme (start ++ rest) = some (start, rest) := by
  rcases h with rfl | rfl
  · rw [scheme, stripPrefix_eq_some.mpr rfl]
  · have hnone : stripPrefix (https ++ rest) http = none := by
      rw [stripPrefix, show http = "http".toList ++ ':' :: "//".toList by decide,
        show https = "http".toList ++ 's' :: "://".toList by decide, dropPattern_append_pattern,
        List.append_assoc, dropPattern_append]
      exact dropPattern_cons_ne (by decide) _ _
    rw [scheme, hnone, stripPrefix_eq_some.mpr rfl]

/-- The scheme of the URL is the scheme of the text that starts with it. -/
theorem scheme_none_of_append {url rest : List Char} (h : scheme (url ++ rest) = none) :
    scheme url = none := by
  cases hurl : scheme url with
  | none => rfl
  | some parts =>
    obtain ⟨heq, hstart⟩ := scheme_eq_some hurl
    rw [heq, List.append_assoc, scheme_append hstart] at h
    cases h

/-- What the reference takes for a link: at least one character behind the scheme. -/
def isReferenceLink (link : List Char × List Char) : Bool :=
  !link.1.isEmpty && (scheme link.2).any fun parts => !parts.2.isEmpty && parts.2.all (!Reference.isSpace ·)

/-- Looking for the parenthesis first, and for the scheme then. -/
theorem step_url_eq (text : List Char) : urlRegex.step text =
    (splitOnce text ')').bind fun url =>
      if (scheme url.1).any fun parts => !parts.2.isEmpty && parts.2.all (!Reference.isSpace ·) then
        some ([url.1], url.2)
      else none := by
  rw [step_url]
  cases hscheme : scheme text with
  | none =>
    cases hsplit : splitOnce text ')' with
    | none => rfl
    | some url =>
      have hnone : scheme url.1 = none := by
        refine @scheme_none_of_append _ (')' :: url.2) ?_
        rw [← (splitOnce_eq_some.mp hsplit).1, hscheme]
      rw [Option.bind_some, hnone]
      rfl
  | some parts =>
    obtain ⟨rfl, hstart⟩ := scheme_eq_some hscheme
    have hno : ')' ∉ parts.1 := by rcases hstart with h | h <;> rw [h] <;> decide
    rw [Option.bind_some, splitOnce_append hno, Option.bind_map]
    congr 1
    funext url
    show _ = if (scheme (parts.1 ++ url.1)).any _ then _ else _
    rw [scheme_append hstart]
    rfl

/-- One match of the reference's link pattern: the same parts as the renderer's, and the reference's own test
    on them. -/
theorem step_link (text : List Char) : Reference.linkRegex.step text =
    (dropPattern ['['] text).bind fun labelStart =>
      (linkParts labelStart).bind fun found =>
        if isReferenceLink found.1 then some ([found.1.1, found.1.2], found.2) else none := by
  have hclass : Reference.except [']'] = (· != ']') := by
    funext c
    by_cases hc : c = ']' <;> simp [Reference.except, hc]
  -- no character of the label can be given back, so its longest run is the only one
  have hrejects : ∀ c, Reference.except [']'] c = true →
      ((literal "](".toList).seq urlRegex).Rejects c := by
    intro c hc
    refine (rejects_literal (x := ']') ?_).seq _
    rintro rfl
    cases hc
  show ((literal ['[']).seq ((repeated true 1 none (Reference.except [']'])).group.seq
    ((literal "](".toList).seq urlRegex))).step text = _
  rw [step_literal_seq]
  congr 1
  funext labelStart
  rw [step_group_greedy_seq 1 none hrejects, step_literal_seq, hclass, linkParts, splitOnce,
    List.span_eq_takeWhile_dropWhile,
    show longest (· != ']') none labelStart = labelStart.takeWhile (· != ']') from rfl,
    drop_takeWhile]
  cases hrest : labelStart.dropWhile (· != ']') with
  | nil =>
    split
    · rfl
    · rfl
  | cons c after =>
    obtain rfl : c = ']' := by
      have hhead := List.head?_dropWhile_not (· != ']') labelStart
      rw [hrest] at hhead
      simpa using hhead
    rw [show "](".toList = ']' :: ['('] by decide, dropPattern_cons, Option.bind_some]
    dsimp only
    rw [stripPrefix]
    cases dropPattern ['('] after with
    | none => split <;> rfl
    | some urlStart =>
      rw [Option.bind_some, Option.bind_some, step_url_eq]
      cases splitOnce urlStart ')' with
      | none => split <;> rfl
      | some url =>
        rw [Option.map_some, Option.bind_some, Option.bind_some, isReferenceLink]
        dsimp only
        cases labelStart.takeWhile (· != ']') with
        | nil => rfl
        | cons d label =>
          rw [if_pos (by simp)]
          simp only [List.isEmpty_cons, Bool.not_false, Bool.true_and]
          split <;> rfl

/-- The link at the head of a text, where a `[` opens one that the program accepts. -/
def linkStep (accepts : List Char × List Char → Bool) : Step Char (List Char × List Char) := fun text =>
  (dropPattern ['['] text).bind fun labelStart =>
    (linkParts labelStart).bind fun found => if accepts found.1 then some found else none

/-- The parts of a link, as what the text is made of: the label up to its bracket, the URL up to its
    parenthesis. -/
theorem linkParts_eq_some {text label url after : List Char} :
    linkParts text = some ((label, url), after) ↔
      text = label ++ ']' :: '(' :: (url ++ ')' :: after) ∧ ']' ∉ label ∧ ')' ∉ url := by
  unfold linkParts
  constructor
  · intro h
    obtain ⟨⟨label', afterLabel⟩, hlabel, h⟩ := Option.bind_eq_some_iff.mp h
    obtain ⟨urlStart, hopen, h⟩ := Option.bind_eq_some_iff.mp h
    obtain ⟨⟨url', after'⟩, hurl, heq⟩ := Option.map_eq_some_iff.mp h
    cases heq
    obtain ⟨rfl, hnolabel⟩ := splitOnce_eq_some.mp hlabel
    obtain ⟨rfl, hnourl⟩ := splitOnce_eq_some.mp hurl
    obtain rfl : afterLabel = '(' :: (url' ++ ')' :: after') := stripPrefix_eq_some.mp hopen
    exact ⟨rfl, hnolabel, hnourl⟩
  · intro h
    have hopen : stripPrefix ('(' :: (url ++ ')' :: after)) ['('] = some (url ++ ')' :: after) :=
      stripPrefix_eq_some.mpr rfl
    rw [splitOnce_eq_some.mpr ⟨h.1, h.2.1⟩, Option.bind_some]
    dsimp only
    rw [hopen, Option.bind_some, splitOnce_eq_some.mpr ⟨rfl, h.2.2⟩]
    rfl

/-- A link begins at an opening bracket and passes the test. -/
theorem linkStep_eq_some {accepts : List Char × List Char → Bool} {text after : List Char}
    {link : List Char × List Char} : linkStep accepts text = some (link, after) ↔
      ∃ labelStart, text = '[' :: labelStart ∧ linkParts labelStart = some (link, after) ∧
        accepts link = true := by
  unfold linkStep
  constructor
  · intro h
    obtain ⟨labelStart, hopen, h⟩ := Option.bind_eq_some_iff.mp h
    obtain ⟨found, hparts, h⟩ := Option.bind_eq_some_iff.mp h
    split at h
    · rename_i haccepts
      cases h
      exact ⟨labelStart, dropPattern_eq_some.mp hopen, hparts, haccepts⟩
    · cases h
  · rintro ⟨labelStart, rfl, hparts, haccepts⟩
    rw [show dropPattern ['['] ('[' :: labelStart) = some labelStart from dropPattern_append ['['] labelStart,
      Option.bind_some, hparts, Option.bind_some, if_pos haccepts]

/-- Each link takes something off the text. -/
theorem consumes_linkStep (accepts : List Char × List Char → Bool) : Consumes (linkStep accepts) := by
  intro text link after h
  obtain ⟨labelStart, rfl, hparts, -⟩ := linkStep_eq_some.mp h
  obtain ⟨rfl, -, -⟩ := linkParts_eq_some.mp hparts
  refine ⟨'[' :: (link.1 ++ ']' :: '(' :: (link.2 ++ [')'])), List.cons_ne_nil _ _, ?_⟩
  simp

/-- No bracket, no link. -/
theorem linkStep_of_none {accepts : List Char × List Char → Bool} {text : List Char}
    (h : dropPattern ['['] text = none) : linkStep accepts text = none := by
  rw [linkStep, h]
  rfl

/-- The renderer's loop substitutes links. -/
theorem replaceLinks_eq (input : List Char) :
    replaceLinks input = substitute (linkStep isLink) renderLink input := by
  have hsplit := substitute_splitAround renderLink (consumes_linkStep isLink)
    (fun _ h => linkStep_of_none h) (List.cons_ne_nil '[' [])
  fun_induction replaceLinks input with
  | case1 input hopen => rw [hsplit, splitAround_char, hopen]; rfl
  | case2 input before labelStart hopen hlink ih =>
    have hnone : linkStep isLink ('[' :: labelStart) = none := by
      rw [linkStep, show dropPattern ['['] ('[' :: labelStart) = some labelStart from
        dropPattern_append ['['] labelStart, Option.bind_some, ← linkAt_eq, hlink]
    rw [hsplit input, splitAround_char, hopen, ih]
    show _ = before ++ substitute (linkStep isLink) renderLink ('[' :: labelStart)
    rw [substitute_of_none hnone]
  | case3 input before labelStart hopen link after hlink ih =>
    have hsome : linkStep isLink ('[' :: labelStart) = some (link, after) := by
      rw [linkStep, show dropPattern ['['] ('[' :: labelStart) = some labelStart from
        dropPattern_append ['['] labelStart, Option.bind_some, ← linkAt_eq, hlink]
    rw [hsplit input, splitAround_char, hopen, ih]
    show _ = before ++ substitute (linkStep isLink) renderLink ('[' :: labelStart)
    rw [substitute_of_some (consumes_linkStep isLink) hsome, List.append_assoc]

/-- And so does the pattern, of the links that the reference accepts. -/
theorem sub_linkRegex (text : List Char) : Reference.linkRegex.sub Reference.renderLink text =
    substitute (linkStep isReferenceLink) renderLink text := by
  have hstep : ∀ text, Reference.linkRegex.step text =
      (linkStep isReferenceLink text).map fun found => ([found.1.1, found.1.2], found.2) := by
    intro text
    rw [step_link, linkStep]
    cases dropPattern ['['] text with
    | none => rfl
    | some labelStart =>
      rw [Option.bind_some, Option.bind_some]
      cases linkParts labelStart with
      | none => rfl
      | some found =>
        rw [Option.bind_some, Option.bind_some]
        split <;> rfl
  rw [Regex.sub, substitute_map (fun link => [link.1, link.2]) (consumes_linkStep isReferenceLink) hstep]
  rfl

/-- A URL that is only a scheme. -/
def bareUrl (url : List Char) : Bool := url == http || url == https

/-- A URL is bare if nothing is behind its scheme. -/
theorem bareUrl_eq (url : List Char) : bareUrl url = (scheme url).any fun parts => parts.2.isEmpty := by
  rw [Bool.eq_iff_iff, bareUrl, Bool.or_eq_true, beq_iff_eq, beq_iff_eq]
  constructor
  · rintro (rfl | rfl) <;> decide
  · intro h
    cases hparts : scheme url with
    | none =>
      rw [hparts] at h
      cases h
    | some parts =>
      rw [hparts, Option.any_some, List.isEmpty_iff] at h
      obtain ⟨rfl, hstart⟩ := scheme_eq_some hparts
      rwa [h, List.append_nil]

/-- The renderer also takes a URL that is only a scheme. -/
theorem isLink_iff {link : List Char × List Char} (hsame : SameSpace link.2) :
    isLink link = true ↔ isReferenceLink link = true ∨ (link.1 ≠ [] ∧ bareUrl link.2 = true) := by
  obtain ⟨label, url⟩ := link
  have hscheme : (http.isPrefixOf url || https.isPrefixOf url) = (scheme url).isSome := by
    rw [scheme, stripPrefix, stripPrefix, dropPattern, dropPattern]
    cases http.isPrefixOf url <;> cases https.isPrefixOf url <;> rfl
  rw [isLink, isReferenceLink, bareUrl_eq]
  dsimp only
  rw [hscheme]
  cases hparts : scheme url with
  | none => simp
  | some parts =>
    obtain ⟨rfl, hstart⟩ := scheme_eq_some hparts
    have hstart' : (parts.1 ++ parts.2).isEmpty = false ∧ parts.1.any isWhitespace = false := by
      rcases hstart with h | h <;> rw [h] <;> exact ⟨rfl, by decide⟩
    have hrest : parts.2.all (!Reference.isSpace ·) = !parts.2.any isWhitespace := by
      rw [List.not_any_eq_all_not, Bool.eq_iff_iff, List.all_eq_true, List.all_eq_true]
      refine forall₂_congr fun c hc => ?_
      rw [hsame c (List.mem_append_right _ hc)]
    rw [Option.any_some, Option.any_some, hrest, hstart'.1, List.any_append, hstart'.2]
    cases label <;> cases parts.2 <;> simp

/-- The reference takes no link whose URL is bare. -/
theorem not_bareUrl {link : List Char × List Char} (h : isReferenceLink link = true) :
    bareUrl link.2 = false := by
  rw [isReferenceLink, Bool.and_eq_true] at h
  rw [bareUrl_eq]
  cases hparts : scheme link.2 with
  | none => rfl
  | some parts =>
    rw [hparts, Option.any_some, Bool.and_eq_true, Bool.not_eq_true'] at h
    rw [Option.any_some]
    simpa using h.2.1

/-! ## Delimiters -/

/-- The text up to the next delimiter on the line, and behind it. -/
def closeFirst (delimiter content : List Char) : Option (List Char × List Char) :=
  (splitAround delimiter content).bind fun parts => if '\n' ∈ parts.1 then none else some parts

/-- The reference takes one character of the content before it looks for the delimiter. -/
def closeLater (delimiter content : List Char) : Option (List Char × List Char) :=
  match content with
  | [] => none
  | c :: rest =>
    if c = '\n' then none
    else (closeFirst delimiter rest).map fun parts => (c :: parts.1, parts.2)

/-- Where the content begins with the delimiter, the body is empty. -/
theorem closeFirst_of_some {delimiter content after : List Char}
    (h : dropPattern delimiter content = some after) :
    closeFirst delimiter content = some ([], after) := by
  rw [closeFirst, splitAround_of_some h]
  rfl

/-- Elsewhere the search goes on by one character, up to the end of the line. -/
theorem closeFirst_cons {delimiter rest : List Char} {c : Char}
    (h : dropPattern delimiter (c :: rest) = none) :
    closeFirst delimiter (c :: rest) =
      if c = '\n' then none
      else (closeFirst delimiter rest).map fun parts => (c :: parts.1, parts.2) := by
  rw [closeFirst, closeFirst, splitAround_cons h]
  cases splitAround delimiter rest with
  | none => split <;> rfl
  | some parts =>
    rw [Option.map_some, Option.bind_some, Option.bind_some]
    by_cases hc : c = '\n'
    · simp [hc]
    · by_cases hmem : '\n' ∈ parts.1 <;> simp [hc, Ne.symm hc, hmem]

/-- What is found is a body without newlines, the delimiter, and the rest. -/
theorem closeFirst_eq_some {delimiter content body after : List Char}
    (h : closeFirst delimiter content = some (body, after)) :
    content = body ++ delimiter ++ after ∧ '\n' ∉ body := by
  obtain ⟨parts, hparts, h⟩ := Option.bind_eq_some_iff.mp h
  split at h
  · cases h
  · rename_i hline
    cases h
    exact ⟨eq_of_splitAround hparts, hline⟩

/-- A delimiter's content ends on its line with the delimiter, and with the first one unless it starts with
    one. -/
structure Closer (delimiter : List Char) (close : List Char → Option (List Char × List Char)) : Prop where
  eq_append : ∀ content body after, close content = some (body, after) →
    content = body ++ delimiter ++ after ∧ '\n' ∉ body
  eq_first : ∀ content, dropPattern delimiter content = none → close content = closeFirst delimiter content

/-- The reference's way to close a delimiter is a closer. -/
theorem closer_later (delimiter : List Char) : Closer delimiter (closeLater delimiter) where
  eq_append := by
    intro content body after h
    cases content with
    | nil => cases h
    | cons c rest =>
      rw [closeLater] at h
      split at h
      · cases h
      · rename_i hc
        obtain ⟨parts, hparts, heq⟩ := Option.map_eq_some_iff.mp h
        cases heq
        obtain ⟨rfl, hline⟩ := closeFirst_eq_some hparts
        exact ⟨rfl, by simp [Ne.symm hc, hline]⟩
  eq_first := by
    intro content h
    cases content with
    | nil =>
      rw [closeLater, closeFirst, splitAround, h]
      rfl
    | cons c rest => rw [closeLater, closeFirst_cons h]

/-- A newline comes before the delimiter or behind it. -/
theorem newline_all_iff {delimiter : List Char} (hne : delimiter ≠ []) (hline : '\n' ∉ delimiter)
    (body after : List Char) :
    ((splitOnce (body ++ delimiter ++ after) '\n').map fun parts => parts.1.length).all
      (fun newline => body.length < newline) = true ↔ '\n' ∉ body := by
  constructor
  · intro h hmem
    obtain ⟨before, rest, rfl, hbefore⟩ := List.eq_append_cons_of_mem hmem
    have hsplit : splitOnce (before ++ '\n' :: rest ++ delimiter ++ after) '\n' =
        some (before, rest ++ delimiter ++ after) := splitOnce_eq_some.mpr ⟨by simp, hbefore⟩
    rw [hsplit, Option.map_some, Option.all_some, decide_eq_true_eq, List.length_append] at h
    exact absurd h (Nat.not_lt.mpr (Nat.le_add_right _ _))
  · intro hbody
    have hboth : '\n' ∉ body ++ delimiter := by
      rw [List.mem_append]
      exact not_or.mpr ⟨hbody, hline⟩
    have hpos := List.length_pos_iff.mpr hne
    rw [splitOnce_append hboth, Option.map_map]
    cases splitOnce after '\n' with
    | none => rfl
    | some parts =>
      show decide (body.length < (body ++ delimiter ++ parts.1).length) = true
      rw [decide_eq_true_eq, List.length_append, List.length_append]
      omega

/-- The renderer looks for the delimiter at once, and gives up where the content starts with it. -/
theorem closeAt_eq {delimiter : Delimiter} (hline : '\n' ∉ delimiter.1) (content : List Char) :
    closeAt delimiter content =
      if (dropPattern delimiter.1 content).isSome then none else closeFirst delimiter.1 content := by
  cases hdrop : dropPattern delimiter.1 content with
  | some after =>
    rw [closeAt, splitAround_of_some hdrop]
    rfl
  | none =>
    rw [closeAt, closeFirst]
    cases hsplit : splitAround delimiter.1 content with
    | none => rfl
    | some parts =>
      have hcontent := eq_of_splitAround hsplit
      have hbody : 0 < parts.1.length := by
        rw [List.length_pos_iff]
        intro hnil
        rw [hnil, List.nil_append] at hcontent
        rw [hcontent, dropPattern_append] at hdrop
        cases hdrop
      have hnewline := newline_all_iff delimiter.2 hline parts.1 parts.2
      rw [← hcontent] at hnewline
      dsimp only
      rw [decide_eq_true hbody, Bool.true_and]
      by_cases hmem : '\n' ∈ parts.1
      · rw [if_neg fun h => hnewline.mp h hmem]
        simp [hmem]
      · rw [if_pos (hnewline.mpr hmem)]
        simp [hmem]

/-- So is the renderer's, which rejects an empty body. -/
theorem closer_closeAt {delimiter : Delimiter} (hline : '\n' ∉ delimiter.1) :
    Closer delimiter.1 (closeAt delimiter) where
  eq_append := by
    intro content body after h
    rw [closeAt_eq hline] at h
    split at h
    · cases h
    · exact closeFirst_eq_some h
  eq_first := by
    intro content h
    rw [closeAt_eq hline, h]
    rfl

/-- The content behind a delimiter, and the part of it that is tagged, if any. -/
abbrev Opening := List Char × Option (List Char)

/-- Every delimiter opens; without an end it is copied. -/
def delimiterStep (delimiter : List Char) (close : List Char → Option (List Char × List Char)) :
    Step Char Opening := fun text =>
  (dropPattern delimiter text).map fun content =>
    match close content with
    | some (body, after) => ((content, some body), after)
    | none => ((content, none), content)

/-- A delimiter that closes is a pair of tags around the body; one that does not is itself. -/
def renderOpening (delimiter tag : List Char) (opening : Opening) : List Char :=
  match opening.2 with
  | some body => tagged tag body
  | none => delimiter

section

variable {delimiter : List Char} {close : List Char → Option (List Char × List Char)}

/-- No delimiter, no step. -/
theorem delimiterStep_of_none {text : List Char} (h : dropPattern delimiter text = none) :
    delimiterStep delimiter close text = none := by
  rw [delimiterStep, h]
  rfl

/-- A delimiter that is not closed is copied, and the search goes on behind it. -/
theorem delimiterStep_unclosed {content : List Char} (h : close content = none) :
    delimiterStep delimiter close (delimiter ++ content) = some ((content, none), content) := by
  rw [delimiterStep, dropPattern_append, Option.map_some, h]

/-- A delimiter that is closed is taken with its body. -/
theorem delimiterStep_closed {content body after : List Char} (h : close content = some (body, after)) :
    delimiterStep delimiter close (delimiter ++ content) = some ((content, some body), after) := by
  rw [delimiterStep, dropPattern_append, Option.map_some, h]

/-- What a delimiter does, by its end. -/
theorem delimiterStep_cases {text rest : List Char} {opening : Opening}
    (h : delimiterStep delimiter close text = some (opening, rest)) :
    ∃ content, text = delimiter ++ content ∧
      (close content = none ∧ opening = (content, none) ∧ rest = content ∨
        ∃ body, close content = some (body, rest) ∧ opening = (content, some body)) := by
  obtain ⟨content, hcontent, heq⟩ := Option.map_eq_some_iff.mp h
  refine ⟨content, dropPattern_eq_some.mp hcontent, ?_⟩
  split at heq
  · rename_i body after hclose
    cases heq
    exact Or.inr ⟨body, hclose, rfl⟩
  · rename_i hclose
    cases heq
    exact Or.inl ⟨hclose, rfl, rfl⟩

/-- Each step takes at least the delimiter off the text. -/
theorem consumes_delimiterStep (hne : delimiter ≠ []) (hclose : Closer delimiter close) :
    Consumes (delimiterStep delimiter close) := by
  intro text opening rest h
  obtain ⟨content, rfl, ⟨-, -, rfl⟩ | ⟨body, hbody, -⟩⟩ := delimiterStep_cases h
  · exact ⟨delimiter, hne, rfl⟩
  · obtain ⟨rfl, -⟩ := hclose.eq_append content body rest hbody
    refine ⟨delimiter ++ body ++ delimiter, by simp [hne], ?_⟩
    simp only [List.append_assoc]

end

/-- The text with every opening replaced. -/
def replaceOpenings (delimiter tag : List Char) (close : List Char → Option (List Char × List Char)) :
    List Char → List Char :=
  substitute (delimiterStep delimiter close) (renderOpening delimiter tag)

section

variable {delimiter : List Char} {close : List Char → Option (List Char × List Char)} {rest : List Char}

/-- Nothing is put into the empty text. -/
theorem replaceOpenings_nil (hne : delimiter ≠ []) (hcloser : Closer delimiter close) (tag : List Char) :
    replaceOpenings delimiter tag close [] = [] :=
  substitute_nil (consumes_delimiterStep hne hcloser)

/-- A character at which no delimiter begins is copied. -/
theorem replaceOpenings_cons {c : Char} (h : dropPattern delimiter (c :: rest) = none) (tag : List Char) :
    replaceOpenings delimiter tag close (c :: rest) = c :: replaceOpenings delimiter tag close rest :=
  substitute_of_none (delimiterStep_of_none h)

/-- So is a delimiter that is not closed on its line. -/
theorem replaceOpenings_unclosed (hne : delimiter ≠ []) (hcloser : Closer delimiter close)
    (h : close rest = none) (tag : List Char) :
    replaceOpenings delimiter tag close (delimiter ++ rest) =
      delimiter ++ replaceOpenings delimiter tag close rest :=
  substitute_of_some (consumes_delimiterStep hne hcloser) (delimiterStep_unclosed h)

/-- A delimiter that is closed becomes a tag around its body. -/
theorem replaceOpenings_closed (hne : delimiter ≠ []) (hcloser : Closer delimiter close)
    {body after : List Char} (h : close rest = some (body, after)) (tag : List Char) :
    replaceOpenings delimiter tag close (delimiter ++ rest) =
      tagged tag body ++ replaceOpenings delimiter tag close after :=
  substitute_of_some (consumes_delimiterStep hne hcloser) (delimiterStep_closed h)

/-- A property of texts holds of all, if every copied character and every opening carries it on. -/
theorem openings_induction (hne : delimiter ≠ []) (hcloser : Closer delimiter close)
    {motive : List Char → Prop} (nil : motive [])
    (copy : ∀ c rest, dropPattern delimiter (c :: rest) = none → motive rest → motive (c :: rest))
    (unclosed : ∀ content, close content = none → motive content → motive (delimiter ++ content))
    (closed : ∀ content body after, close content = some (body, after) → motive after →
      motive (delimiter ++ content)) (text : List Char) : motive text := by
  induction text using scan_induction (consumes_delimiterStep hne hcloser) with
  | nil => exact nil
  | copy c rest h ih => exact copy c rest (Option.map_eq_none_iff.mp h) ih
  | hit text opening rest h ih =>
    obtain ⟨content, rfl, ⟨hclose, rfl, rfl⟩ | ⟨body, hclose, rfl⟩⟩ := delimiterStep_cases h
    · exact unclosed rest hclose ih
    · exact closed content body rest hclose ih

end

/-- The renderer's loop substitutes openings. -/
theorem replaceDelimited_eq {delimiter : Delimiter} (hline : '\n' ∉ delimiter.1) (tag input : List Char) :
    replaceDelimited input delimiter tag = replaceOpenings delimiter.1 tag (closeAt delimiter) input := by
  have hc := consumes_delimiterStep delimiter.2 (closer_closeAt hline)
  have hsplit := substitute_splitAround (renderOpening delimiter.1 tag) hc
    (fun _ h => delimiterStep_of_none h) delimiter.2
  fun_induction replaceDelimited input delimiter tag with
  | case1 input hopen => rw [replaceOpenings, hsplit, hopen]; rfl
  | case2 input before content hopen body after hclose ih =>
    rw [replaceOpenings, hsplit input, hopen, ih, Option.map_some, Option.getD_some,
      substitute_of_some hc (delimiterStep_closed hclose), ← List.append_assoc]
    rfl
  | case3 input before content hopen hclose ih =>
    rw [replaceOpenings, hsplit input, hopen, ih, Option.map_some, Option.getD_some,
      substitute_of_some hc (delimiterStep_unclosed hclose), ← List.append_assoc]
    rfl

/-- The bold pattern, on a text. -/
theorem step_bold (delimiter text : List Char) : (Reference.boldRegex delimiter).step text =
    (dropPattern delimiter text).bind fun content =>
      (closeLater delimiter content).map fun parts => ([parts.1], parts.2) := by
  rw [Reference.boldRegex, step_literal_seq]
  congr 1
  funext content
  cases content with
  | nil => rfl
  | cons c rest =>
    have hline : ∀ body : List Char, body.all (Reference.except ['\n']) = true ↔ '\n' ∉ body := by
      intro body
      rw [List.all_eq_true]
      constructor
      · intro h hmem
        exact absurd (h '\n' hmem) (by decide)
      · intro h c hc
        have hne : c ≠ '\n' := fun heq => h (heq ▸ hc)
        simp [Reference.except, hne]
    -- the lazy run takes one character at least: the closing delimiter is looked for behind it
    rw [step_lazy_cons, closeLater, closeFirst]
    by_cases hc : c = '\n'
    · rw [if_pos hc, hc]
      rfl
    · rw [if_neg hc, if_pos (by simp [Reference.except, hc])]
      cases splitAround delimiter rest with
      | none => rfl
      | some parts =>
        rw [Option.bind_some, Option.bind_some]
        by_cases hmem : '\n' ∈ parts.1
        · rw [if_pos hmem, if_neg fun h => (hline _).mp h hmem]
          rfl
        · rw [if_neg hmem, if_pos ((hline _).mpr hmem)]
          rfl

/-- Where a doubled character opens nothing, its second half opens nothing either, so that the pattern goes on
    behind both. -/
theorem closeLater_of_second {c : Char} (hc : c ≠ '\n') {content : List Char}
    (h : closeLater [c, c] (c :: content) = none) : closeLater [c, c] content = none := by
  rw [closeLater, if_neg hc, Option.map_eq_none_iff] at h
  cases content with
  | nil => rfl
  | cons d rest =>
    cases hdrop : dropPattern [c, c] (d :: rest) with
    | some after =>
      rw [closeFirst_of_some hdrop] at h
      cases h
    | none => rwa [closeFirst_cons hdrop] at h

/-- What the reference puts in for bold text is the renderer's tag. -/
theorem renderBold_eq (body : List Char) : Reference.renderBold [body] = tagged ['b'] body := by
  simp [Reference.renderBold, Reference.group, tagged]

/-- The same for inline code. -/
theorem renderCode_eq (body : List Char) : Reference.renderCode [body] = tagged "code".toList body := by
  show "<code>".toList ++ body ++ "</code>".toList = _
  have hopening : "<code>".toList = '<' :: "code".toList ++ ['>'] := rfl
  have hclosing : "</code>".toList = '<' :: '/' :: "code".toList ++ ['>'] := rfl
  rw [hopening, hclosing, tagged]
  simp only [List.append_assoc, List.cons_append, List.nil_append]

/-- A pattern of a delimiter, content and a delimiter substitutes openings, where it copies a delimiter that
    opens nothing. -/
theorem sub_eq_openings {r : Regex} {render : List (List Char) → List Char} {delimiter tag : List Char}
    {close : List Char → Option (List Char × List Char)} (hne : delimiter ≠ [])
    (hcloser : Closer delimiter close)
    (hstep : ∀ text, r.step text = (dropPattern delimiter text).bind fun content =>
      (close content).map fun parts => ([parts.1], parts.2))
    (hrender : ∀ body, render [body] = tagged tag body)
    (hskip : ∀ rest, close rest = none →
      substitute r.step render (delimiter ++ rest) = delimiter ++ substitute r.step render rest)
    (text : List Char) :
    r.sub render text = replaceOpenings delimiter tag close text := by
  have hc : Consumes r.step := by
    intro text groups rest h
    rw [hstep] at h
    obtain ⟨content, hcontent, h⟩ := Option.bind_eq_some_iff.mp h
    obtain ⟨parts, hparts, heq⟩ := Option.map_eq_some_iff.mp h
    cases heq
    obtain ⟨rfl, -⟩ := hcloser.eq_append content parts.1 parts.2 hparts
    refine ⟨delimiter ++ parts.1 ++ delimiter, by simp [hne], ?_⟩
    rw [dropPattern_eq_some.mp hcontent]
    simp only [List.append_assoc]
  rw [Regex.sub]
  -- the openings of the renderer, one case for each
  induction text using openings_induction hne hcloser with
  | nil => rw [substitute_nil hc, replaceOpenings_nil hne hcloser]
  | copy c rest h ih =>
    have hnone : r.step (c :: rest) = none := by
      rw [hstep, h]
      rfl
    rw [substitute_of_none hnone, replaceOpenings_cons h, ih]
  | unclosed content hclose ih => rw [hskip content hclose, replaceOpenings_unclosed hne hcloser hclose, ih]
  | closed content body after hclose ih =>
    have hsome : r.step (delimiter ++ content) = some ([body], after) := by
      rw [hstep, dropPattern_append, Option.bind_some, hclose]
      rfl
    rw [substitute_of_some hc hsome, hrender, replaceOpenings_closed hne hcloser hclose, ih]

/-- **Bold** is the substitution of openings that end later. -/
theorem sub_boldRegex {c : Char} (hc : c ≠ '\n') (text : List Char) :
    (Reference.boldRegex [c, c]).sub Reference.renderBold text =
      replaceOpenings [c, c] ['b'] (closeLater [c, c]) text := by
  refine sub_eq_openings (List.cons_ne_nil c [c]) (closer_later [c, c]) (step_bold [c, c]) renderBold_eq
    ?_ text
  intro rest hclose
  have hfirst : (Reference.boldRegex [c, c]).step ([c, c] ++ rest) = none := by
    rw [step_bold, dropPattern_append, Option.bind_some, hclose]
    rfl
  have hsecond : (Reference.boldRegex [c, c]).step (c :: rest) = none := by
    rw [step_bold]
    cases hdrop : dropPattern [c, c] (c :: rest) with
    | none => rfl
    | some content =>
      obtain rfl : rest = c :: content := (List.cons.inj (dropPattern_eq_some.mp hdrop)).2
      rw [Option.bind_some, closeLater_of_second hc hclose]
      rfl
  exact (substitute_of_none hfirst).trans (congrArg _ (substitute_of_none hsecond))

/-- A single tick closes at the next tick, if no newline is before it. -/
theorem closeFirst_tick (content : List Char) : closeFirst [tick] content =
    (dropPattern [tick] (content.dropWhile (Reference.except [tick, '\n']))).map fun after =>
      (content.takeWhile (Reference.except [tick, '\n']), after) := by
  induction content with
  | nil => rfl
  | cons c rest ih =>
    by_cases htick : c = tick
    · subst htick
      have hdrop : dropPattern [tick] (tick :: rest) = some rest := dropPattern_append [tick] rest
      have hexcept : ¬ Reference.except [tick, '\n'] tick = true := by decide
      rw [closeFirst_of_some hdrop, List.dropWhile_cons_of_neg hexcept,
        List.takeWhile_cons_of_neg hexcept, hdrop]
      rfl
    · rw [closeFirst_cons (dropPattern_cons_ne htick [] rest)]
      by_cases hline : c = '\n'
      · subst hline
        have hexcept : ¬ Reference.except [tick, '\n'] '\n' = true := by decide
        rw [if_pos rfl, List.dropWhile_cons_of_neg hexcept, dropPattern_cons_ne htick]
        rfl
      · have hexcept : Reference.except [tick, '\n'] c = true := by simp [Reference.except, htick, hline]
        rw [if_neg hline, ih, List.dropWhile_cons_of_pos hexcept, List.takeWhile_cons_of_pos hexcept,
          Option.map_map]
        rfl

/-- One match of the reference's pattern for inline code is the renderer's step: both need a body. -/
theorem step_code (text : List Char) : Reference.codeRegex.step text =
    (dropPattern [tick] text).bind fun content =>
      (closeAt backtick content).map fun parts => ([parts.1], parts.2) := by
  have hrejects : ∀ c, Reference.except [tick, '\n'] c = true → (literal [tick]).Rejects c := by
    intro c hc
    refine rejects_literal ?_
    rintro rfl
    cases hc
  rw [Reference.codeRegex, step_literal_seq]
  congr 1
  funext content
  rw [step_group_greedy_seq 1 none hrejects, step_literal, closeAt_eq (by decide)]
  rw [show longest (Reference.except [tick, '\n']) none content =
      content.takeWhile (Reference.except [tick, '\n']) from rfl,
    drop_takeWhile, show backtick.1 = [tick] from rfl, closeFirst_tick]
  cases content with
  | nil => rfl
  | cons c rest =>
    -- a tick right behind opens nothing, and a line end closes nothing
    by_cases htick : c = tick
    · subst htick
      have hdrop : dropPattern [tick] (tick :: rest) = some rest := dropPattern_append [tick] rest
      show _ = Option.map _ (if (dropPattern [tick] (tick :: rest)).isSome then _ else _)
      rw [hdrop]
      rfl
    · show _ = Option.map _ (if (dropPattern [tick] (c :: rest)).isSome then _ else _)
      rw [dropPattern_cons_ne htick]
      by_cases hline : c = '\n'
      · subst hline
        rfl
      · have hexcept : Reference.except [tick, '\n'] c = true := by simp [Reference.except, htick, hline]
        rw [List.takeWhile_cons_of_pos hexcept, if_pos (by simp), if_neg (by simp), Option.map_map,
          Option.map_map]
        rfl

/-- **Inline code** is the substitution of openings as the renderer ends them. -/
theorem sub_codeRegex (text : List Char) : Reference.codeRegex.sub Reference.renderCode text =
    replaceOpenings [tick] "code".toList (closeAt backtick) text := by
  have hcloser : Closer [tick] (closeAt backtick) := @closer_closeAt backtick (by decide)
  refine sub_eq_openings (List.cons_ne_nil tick []) hcloser step_code renderCode_eq ?_ text
  intro rest hclose
  have hnone : Reference.codeRegex.step (tick :: rest) = none := by
    rw [step_code, show tick :: rest = [tick] ++ rest from rfl, dropPattern_append, Option.bind_some, hclose]
    rfl
  exact substitute_of_none hnone

end Markdown

end Tellm
