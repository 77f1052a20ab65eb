/-
  MARKDOWN, BY OFFSETS: `markdown_to_html` as it is written, over byte offsets.

  The functions of `Markdown` recurse on what is left of a text.  The source keeps offsets, slices the
  text at them and reads single bytes of it; a slice that is not at a character boundary panics, and a
  loop could go on for ever.  Here a function that panics has no result, nor has a loop that takes more
  passes than its text has bytes, and one.

  1. **The functions**: each loop is a pass over its variables.  What a pass cannot do without slicing, it
     does in `Option`.
  2. **Each has the result of its counterpart**: a loop that has come to `search_start` has read a text up
     to there, and what it does from there on is the recursion on the rest.
  3. **`markdownToHtml_total`**: so has all of it, for every text.

  A pass of a loop takes the offset it has come to, searches from there, slices, appends to the output and
  returns the next offset.  `Tellm.Lib.Offsets` gives these operations in `Option`: a slice whose ends are
  not at character boundaries, or out of order, is `none`, and so is a loop that runs out of passes.

  For each loop there is one lemma about one pass (`capturePass_opened`, `linkPass_opened`,
  `delimiterPass_opened`) and one about the loop from an arbitrary start (`*_from`), by induction on what
  is left of the text.  The number of passes that is enough is the number of bytes, and one, because each
  pass moves the offset by at least one character.

  The bytes that the source looks at are ASCII, and such a byte is a character of its own; that is the
  only place where the encoding matters.
-/
import Tellm.MarkdownStages
import Tellm.Lib.Offsets

namespace Tellm

open Text Substitutions Offsets

namespace MarkdownOffsets

open Markdown (fence tick placeholder codeBlock http https Delimiter asterisks underscores backtick)

/-! ## Blocks -/

/-- The most passes that a loop over a text may take. -/
def passes (text : List Char) : Nat := byteCount text + 1

/-- The search for the end of the line on which a fence stands. -/
def contentStartPass (text : List Char) (idx : Nat) : Option (Next Nat (Option Nat)) :=
  match (encode text)[idx]? with
  | none => some (.leave none)
  | some byte =>
    if byte = 0x0A then some (.leave (some (idx + 1)))
    else if byte = 0x60 then some (.leave none)
    else some (.again (idx + 1))

/-- `fenced_content_start`: the loop reads bytes. -/
def fencedContentStart (text : List Char) (afterOpen : Nat) : Option (Option Nat) :=
  loop (contentStartPass text) (passes text) afterOpen

/-- The variables of the loop in `capture_fenced_blocks`. -/
structure Capture where
  searchStart : Nat
  output : List Char
  fencedBlocks : List (List Char)

/-- One pass of the loop of `capture_fenced_blocks`. -/
def capturePass (text : List Char) (s : Capture) : Option (Next Capture (List Char × List (List Char))) := do
  let rest ← sliceFrom s.searchStart text
  match find fence rest with
  | none => return .leave (s.output ++ rest, s.fencedBlocks)
  | some openRelative =>
    let opened := s.searchStart + openRelative
    let afterOpen := opened + 3
    match ← fencedContentStart text afterOpen with
    | none =>
      let copied ← slice s.searchStart (opened + 1) text
      return .again ⟨opened + 1, s.output ++ copied, s.fencedBlocks⟩
    | some contentStart =>
      let content ← sliceFrom contentStart text
      match find fence content with
      | none =>
        let copied ← slice s.searchStart (opened + 1) text
        return .again ⟨opened + 1, s.output ++ copied, s.fencedBlocks⟩
      | some closeRelative =>
        let close := contentStart + closeRelative
        let before ← slice s.searchStart opened text
        let block ← slice contentStart close text
        return .again ⟨close + 3, s.output ++ before ++ placeholder s.fencedBlocks.length,
          s.fencedBlocks ++ [codeBlock block]⟩

/-- `capture_fenced_blocks`, with its byte offsets. -/
def captureFencedBlocks (text : List Char) : Option (List Char × List (List Char)) :=
  loop (capturePass text) (passes text) ⟨0, [], []⟩

/-! ## Headings -/

/-- The loop over at most three characters; none where it returns. -/
def skipIndent (line : List Char) : Nat → Nat → Option (Option Nat)
  | 0, idx => some (some idx)
  | n + 1, idx => do
    match ← sliceFrom idx line with
    | [] => return none
    | ch :: _ => if !isWhitespace ch then return some idx else skipIndent line n (idx + ch.utf8Size)

/-- One hash of a heading. -/
def hashPass (line : List Char) (hashStart idx : Nat) : Option (Next Nat Nat) :=
  if idx < byteCount line ∧ (encode line)[idx]? = some 0x23 ∧ idx - hashStart < 6 then some (.again (idx + 1))
  else some (.leave idx)

/-- The variables of the loop over the white space. -/
structure Spaces where
  idx : Nat
  lastWhitespace : Nat
  whitespaceCount : Nat

/-- None where the loop returns. -/
def spacePass (line : List Char) (s : Spaces) : Option (Next Spaces (Option Spaces)) :=
  if s.idx < byteCount line then do
    match ← sliceFrom s.idx line with
    | [] => return .leave none
    | ch :: _ =>
      if !isWhitespace ch then return .leave (some s)
      else return .again ⟨s.idx + ch.utf8Size, s.idx, s.whitespaceCount + 1⟩
  else some (.leave (some s))

/-- `markdown_heading`, with its byte offsets. -/
def markdownHeading (line : List Char) : Option (Option (List Char)) := do
  match ← skipIndent line 3 0 with
  | none => return none
  | some hashStart =>
    let idx ← loop (hashPass line hashStart) (passes line) hashStart
    if idx - hashStart = 0 then return none
    else
      match ← loop (spacePass line) (passes line) ⟨idx, idx, 0⟩ with
      | none => return none
      | some s =>
        if s.whitespaceCount = 0 then return none
        else if s.idx < byteCount line then
          let heading ← sliceFrom s.idx line
          return some heading
        else
          let heading ← sliceFrom s.lastWhitespace line
          return some heading

/-- A line, which is a heading or stays. -/
def renderLine (line : List Char) : Option (List Char) := do
  match ← markdownHeading line with
  | some heading => return Markdown.tagged ['b'] (trim heading)
  | none => return line

/-! ## Links -/

/-- The variables of the loops in `replace_links` and `replace_delimited`. -/
structure Replacement where
  searchStart : Nat
  output : List Char

/-- The `[` is copied. -/
def copyOpening (input : List Char) (s : Replacement) (labelStart : Nat) :
    Option (Next Replacement (List Char)) := do
  let copied ← slice s.searchStart labelStart input
  return .again ⟨labelStart, s.output ++ copied⟩

/-- One pass of the loop of `replace_links`. -/
def linkPass (input : List Char) (s : Replacement) : Option (Next Replacement (List Char)) := do
  let rest ← sliceFrom s.searchStart input
  match find ['['] rest with
  | none => return .leave (s.output ++ rest)
  | some openRelative =>
    let opened := s.searchStart + openRelative
    let labelStart := opened + 1
    match find [']'] (← sliceFrom labelStart input) with
    | none => copyOpening input s labelStart
    | some labelEndRelative =>
      let labelEnd := labelStart + labelEndRelative
      if ("](".toList).isPrefixOf (← sliceFrom labelEnd input) then
        let urlStart := labelEnd + 2
        match find [')'] (← sliceFrom urlStart input) with
        | none => copyOpening input s labelStart
        | some urlEndRelative =>
          let urlEnd := urlStart + urlEndRelative
          let label ← slice labelStart labelEnd input
          let url ← slice urlStart urlEnd input
          if !label.isEmpty && !url.isEmpty && (http.isPrefixOf url || https.isPrefixOf url) &&
              !url.any isWhitespace then
            let before ← slice s.searchStart opened input
            return .again ⟨urlEnd + 1, s.output ++ before ++ Markdown.renderLink (label, url)⟩
          else copyOpening input s labelStart
      else copyOpening input s labelStart

/-- `replace_links`, with its byte offsets. -/
def replaceLinks (input : List Char) : Option (List Char) := loop (linkPass input) (passes input) ⟨0, []⟩

/-! ## Delimiters -/

/-- One pass of the loop of `replace_delimited`. -/
def delimiterPass (delimiter : Delimiter) (tag input : List Char) (s : Replacement) :
    Option (Next Replacement (List Char)) := do
  let rest ← sliceFrom s.searchStart input
  match find delimiter.1 rest with
  | none => return .leave (s.output ++ rest)
  | some openRelative =>
    let opened := s.searchStart + openRelative
    let contentStart := opened + byteCount delimiter.1
    let content ← sliceFrom contentStart input
    let newline := find ['\n'] content
    match (find delimiter.1 content).filter fun closeRelative =>
        0 < closeRelative && newline.all (closeRelative < ·) with
    | some closeRelative =>
      let close := contentStart + closeRelative
      let before ← slice s.searchStart opened input
      let body ← slice contentStart close input
      return .again ⟨close + byteCount delimiter.1, s.output ++ before ++ Markdown.tagged tag body⟩
    | none =>
      let copied ← slice s.searchStart contentStart input
      return .again ⟨contentStart, s.output ++ copied⟩

/-- `replace_delimited`, with its byte offsets. -/
def replaceDelimited (input : List Char) (delimiter : Delimiter) (tag : List Char) : Option (List Char) :=
  loop (delimiterPass delimiter tag input) (passes input) ⟨0, []⟩

/-! ## All of it -/

/-- `markdown_to_html`, with its byte offsets; `none` where a slice would panic. -/
def markdownToHtml (text : List Char) : Option (List Char) :=
  if text.isEmpty then some []
  else do
    let (withoutFenced, fencedBlocks) ← captureFencedBlocks text
    let escapedText := Markdown.escapeHtml withoutFenced
    let lines ← (escapedText.splitOn '\n').mapM renderLine
    let transformed := ['\n'].intercalate lines
    let transformed ← replaceLinks transformed
    let transformed ← replaceDelimited transformed asterisks ['b']
    let transformed ← replaceDelimited transformed underscores ['b']
    let transformed ← replaceDelimited transformed backtick "code".toList
    return Markdown.restoreBlocks fencedBlocks transformed

/-! ## The blocks are the same -/

/-- Bytes that end nothing are passed over. -/
theorem contentStart_skip {text : List Char} {before chunk after : List UInt8} (n : Nat)
    (htext : encode text = before ++ (chunk ++ after)) (hchunk : ∀ b ∈ chunk, b ≠ 0x0A ∧ b ≠ 0x60) :
    loop (contentStartPass text) (n + chunk.length) before.length =
      loop (contentStartPass text) n (before.length + chunk.length) := by
  induction chunk generalizing before with
  | nil => rfl
  | cons b chunk ih =>
    obtain ⟨⟨h1, h2⟩, hchunk⟩ := List.forall_mem_cons.mp hchunk
    have hbyte : (encode text)[before.length]? = some b := by
      rw [htext, List.getElem?_append_right (Nat.le_refl _), Nat.sub_self]
      rfl
    have hpass : contentStartPass text before.length = some (.again (before.length + 1)) := by
      rw [contentStartPass, hbyte]
      dsimp only
      rw [if_neg h1, if_neg h2]
    have hrest := @ih (before ++ [b]) (by rw [htext]; simp) hchunk
    rw [List.length_append, List.length_singleton] at hrest
    rw [List.length_cons, ← Nat.add_assoc, loop_next hpass (Nat.succ_pos _), Nat.succ_sub_one, hrest]
    congr 1
    omega

/-- What the byte at a boundary is. -/
theorem byte_ascii (start rest : List Char) {c : Char} {b : UInt8} (h : String.utf8EncodeChar c = [b]) :
    (encode (start ++ c :: rest))[byteCount start]? = some b := by
  rw [encode_append, ← length_encode, List.getElem?_append_right (Nat.le_refl _), Nat.sub_self, encode,
    List.flatMap_cons, h]
  rfl

theorem contentStart_from (start rest : List Char) {n : Nat} (hn : byteCount rest < n) :
    match Markdown.fencedContentStart rest with
    | none => loop (contentStartPass (start ++ rest)) n (byteCount start) = some none
    | some content => ∃ line, rest = line ++ content ∧
        loop (contentStartPass (start ++ rest)) n (byteCount start) =
        some (some (byteCount (start ++ line))) := by
  induction rest generalizing start n with
  | nil =>
    refine loop_done ?_ (by omega)
    rw [contentStartPass, List.append_nil, ← length_encode, List.getElem?_eq_none (Nat.le_refl _)]
  | cons c rest ih =>
    rw [Markdown.fencedContentStart]
    by_cases hnewline : c = '\n'
    · rw [if_pos hnewline]
      refine ⟨[c], rfl, loop_done ?_ (by omega)⟩
      have hbyte : String.utf8EncodeChar c = [0x0A] := by rw [hnewline]; rfl
      rw [contentStartPass, byte_ascii start rest hbyte, byteCount_append]
      dsimp only
      rw [if_pos rfl, hnewline]
      rfl
    · rw [if_neg hnewline]
      by_cases htick : c = tick
      · rw [if_pos htick]
        refine loop_done ?_ (by omega)
        have hbyte : String.utf8EncodeChar c = [0x60] := by rw [htick]; rfl
        rw [contentStartPass, byte_ascii start rest hbyte]
        rfl
      · rw [if_neg htick]
        have hskip : ∀ b ∈ String.utf8EncodeChar c, b ≠ 0x0A ∧ b ≠ 0x60 := by
          intro b hb
          constructor
          · rintro rfl
            exact hnewline (Char.toNat_inj.mp (mem_encode_ascii (by decide) hb).2)
          · rintro rfl
            exact htick (Char.toNat_inj.mp (mem_encode_ascii (by decide) hb).2)
        have htext :
            encode (start ++ c :: rest) = encode start ++ (String.utf8EncodeChar c ++ encode rest) := by
          rw [encode_append]
          rfl
        -- each byte of the character takes a pass
        rw [byteCount_cons] at hn
        obtain ⟨left, hleft⟩ : ∃ left, n = left + c.utf8Size := ⟨n - c.utf8Size, by omega⟩
        have hpass := contentStart_skip left htext hskip
        rw [length_encode, String.length_utf8EncodeChar, ← hleft] at hpass
        have hnext := @ih (start ++ [c]) left (by omega)
        rw [List.append_assoc, List.singleton_append, byteCount_append, byteCount_cons, byteCount_nil,
          Nat.add_zero, ← hpass] at hnext
        split
        · rename_i hnone
          rw [hnone] at hnext
          exact hnext
        · rename_i content hsome
          rw [hsome] at hnext
          obtain ⟨line, rfl, hresult⟩ := hnext
          refine ⟨c :: line, rfl, ?_⟩
          rw [hresult, List.append_assoc, List.singleton_append]

theorem byteCount_lt_passes (start rest : List Char) : byteCount rest < passes (start ++ rest) := by
  rw [passes, byteCount_append]
  omega

theorem fencedContentStart_eq (start rest : List Char) :
    match Markdown.fencedContentStart rest with
    | none => fencedContentStart (start ++ rest) (byteCount start) = some none
    | some content => ∃ line, rest = line ++ content ∧
        fencedContentStart (start ++ rest) (byteCount start) = some (some (byteCount (start ++ line))) :=
  contentStart_from start rest (byteCount_lt_passes start rest)

theorem find_of_some {pattern text before after : List Char}
    (h : splitAround pattern text = some (before, after)) :
    find pattern text = some (byteCount before) := by
  rw [find, h]
  rfl

theorem find_of_none {pattern text : List Char} (h : splitAround pattern text = none) :
    find pattern text = none := by
  rw [find, h]
  rfl

theorem byteCount_fence : byteCount fence = 3 := by decide

/-- Where a fence has been found. -/
theorem capturePass_opened {start rest output before afterOpen : List Char} (fencedBlocks : List (List Char))
    (hopen : splitAround fence rest = some (before, afterOpen)) :
    capturePass (start ++ rest) ⟨byteCount start, output, fencedBlocks⟩ =
      match Markdown.fencedBlock afterOpen with
      | none =>
        some (.again ⟨byteCount (start ++ before ++ [tick]), output ++ before ++ [tick], fencedBlocks⟩)
      | some (block, after) =>
        some (.again ⟨byteCount (start ++ rest) - byteCount after,
          output ++ before ++ placeholder fencedBlocks.length, fencedBlocks ++ [codeBlock block]⟩) := by
  have hrest := eq_of_splitAround hopen
  have htext : start ++ rest = start ++ before ++ fence ++ afterOpen := by
    rw [hrest]
    simp only [List.append_assoc]
  have hoffset : byteCount start + byteCount before + 3 = byteCount (start ++ before ++ fence) := by
    rw [byteCount_append, byteCount_append, byteCount_fence]
  have hnext : byteCount start + byteCount before + 1 = byteCount (start ++ before ++ [tick]) := by
    rw [byteCount_append, byteCount_append]
    rfl
  -- what is copied when the fence opens nothing: up to its first tick
  have hcopied : slice (byteCount start) (byteCount (start ++ before ++ [tick])) (start ++ rest) =
      some (before ++ [tick]) := by
    refine @slice_of _ _ _ (tick :: tick :: afterOpen) _ _ ?_ rfl ?_
    · rw [hrest]
      simp [fence]
    · rw [List.append_assoc, byteCount_append]
  have hstart := fencedContentStart_eq (start ++ before ++ fence) afterOpen
  rw [← htext, ← hoffset] at hstart
  rw [capturePass, sliceFrom_of rfl rfl, Markdown.fencedBlock]
  simp only [Option.bind_eq_bind, Option.bind_some, find_of_some hopen]
  -- without a line end behind the fence, or without a closing one, the tick is copied
  cases hcontent : Markdown.fencedContentStart afterOpen with
  | none =>
    rw [hcontent] at hstart
    rw [hstart]
    simp only [Option.bind_some, hnext, hcopied]
    rw [List.append_assoc output]
    rfl
  | some content =>
    rw [hcontent] at hstart
    obtain ⟨line, hline, hstart⟩ := hstart
    have hbehind : start ++ rest = start ++ before ++ fence ++ line ++ content := by
      rw [htext, hline]
      simp only [List.append_assoc]
    rw [hstart]
    simp only [Option.bind_some, sliceFrom_of hbehind rfl]
    cases hclose : splitAround fence content with
    | none =>
      simp only [find_of_none hclose, hnext, hcopied, Option.bind_some]
      rw [List.append_assoc output]
      rfl
    | some parts =>
      obtain ⟨block, after⟩ := parts
      have hcontent := eq_of_splitAround hclose
      have hbefore :
          slice (byteCount start) (byteCount start + byteCount before) (start ++ rest) = some before := by
        refine @slice_of _ _ _ (fence ++ afterOpen) _ _ ?_ rfl rfl
        rw [hrest, List.append_assoc]
      have hblock : slice (byteCount (start ++ before ++ fence ++ line))
          (byteCount (start ++ before ++ fence ++ line) + byteCount block) (start ++ rest) = some block := by
        refine @slice_of _ _ _ (fence ++ after) _ _ ?_ rfl rfl
        rw [hbehind, hcontent, List.append_assoc block]
      have hend : byteCount (start ++ before ++ fence ++ line) + byteCount block + 3 =
          byteCount (start ++ rest) - byteCount after := by
        rw [hbehind, hcontent, byteCount_append _ (block ++ fence ++ after), byteCount_append _ after,
          byteCount_append block, byteCount_fence]
        omega
      simp only [find_of_some hclose, hbefore, hblock, hend, Option.bind_some]
      rfl

/-- **The loop over the fences**, from where it has come to. -/
theorem captureFencedBlocks_from (start rest output : List Char) (fencedBlocks : List (List Char)) {n : Nat}
    (hn : rest.length < n) : loop (capturePass (start ++ rest)) n ⟨byteCount start, output, fencedBlocks⟩ =
      some (Markdown.captureFrom rest output fencedBlocks) := by
  fun_induction Markdown.captureFrom rest output fencedBlocks generalizing start n with
  | case1 rest output fencedBlocks hopen =>
    refine loop_done ?_ (by omega)
    rw [capturePass, sliceFrom_of rfl rfl]
    simp only [Option.bind_eq_bind, Option.bind_some, find_of_none hopen]
    rfl
  | case2 rest output fencedBlocks before afterOpen hopen hblock ih =>
    have hpass := @capturePass_opened start rest output before afterOpen fencedBlocks hopen
    rw [hblock] at hpass
    have htext : start ++ rest = start ++ before ++ [tick] ++ (tick :: tick :: afterOpen) := by
      rw [eq_of_splitAround hopen]
      simp [fence]
    have hlength := congrArg List.length (eq_of_splitAround hopen)
    simp only [List.length_append, show fence.length = 3 from rfl] at hlength
    rw [loop_next hpass (Nat.zero_lt_of_lt hn), htext]
    exact ih _ (by simp only [List.length_cons]; omega)
  | case3 rest output fencedBlocks before afterOpen hopen block after hblock ih =>
    have hpass := @capturePass_opened start rest output before afterOpen fencedBlocks hopen
    rw [hblock] at hpass
    obtain ⟨taken, htaken⟩ : ∃ taken, start ++ rest = taken ++ after := by
      obtain ⟨more, hmore⟩ := Markdown.suffix_fencedBlock hblock
      refine ⟨start ++ before ++ fence ++ more, ?_⟩
      rw [eq_of_splitAround hopen, ← hmore]
      simp only [List.append_assoc]
    have hend : byteCount (start ++ rest) - byteCount after = byteCount taken := by
      rw [htaken, byteCount_append, Nat.add_sub_cancel]
    have hafter := Markdown.length_fencedBlock hblock
    have hrest := length_splitAround (by decide) hopen
    rw [loop_next hpass (Nat.zero_lt_of_lt hn), hend, htaken]
    exact ih _ (by omega)

theorem length_lt_passes (text : List Char) : text.length < passes text := by
  rw [passes]
  exact Nat.lt_succ_of_le (length_le_byteCount text)

theorem captureFencedBlocks_eq (text : List Char) :
    captureFencedBlocks text = some (Markdown.captureFencedBlocks text) :=
  captureFencedBlocks_from [] text [] [] (length_lt_passes text)

/-! ## So are the delimiters -/

theorem find_newline (content : List Char) :
    find ['\n'] content = (splitOnce content '\n').map fun parts => byteCount parts.1 := by
  rw [find, splitAround_char]

/-- The delimiter that closes, by offsets and by lengths. -/
theorem closes_eq (delimiter : Delimiter) (content : List Char) :
    ((find delimiter.1 content).filter fun closeRelative =>
      0 < closeRelative && (find ['\n'] content).all (closeRelative < ·)) =
      (Markdown.closeAt delimiter content).map fun parts => byteCount parts.1 := by
  rw [find_newline, Markdown.closeAt]
  cases hclose : splitAround delimiter.1 content with
  | none =>
    rw [find_of_none hclose]
    rfl
  | some parts =>
    obtain ⟨body, after⟩ := parts
    have hbody : body <+: content :=
      ⟨delimiter.1 ++ after, by rw [eq_of_splitAround hclose, List.append_assoc]⟩
    have hall : ((splitOnce content '\n').map fun parts => byteCount parts.1).all (byteCount body < ·) =
        ((splitOnce content '\n').map fun parts => parts.1.length).all (body.length < ·) := by
      cases hnewline : splitOnce content '\n' with
      | none => rfl
      | some parts =>
        have hline : parts.1 <+: content := ⟨'\n' :: parts.2, (splitOnce_eq_some.mp hnewline).1.symm⟩
        exact decide_eq_decide.mpr (byteCount_lt_iff hbody hline)
    have hpos : decide (0 < byteCount body) = decide (0 < body.length) := decide_eq_decide.mpr byteCount_pos
    rw [find_of_some hclose, Option.filter_some, hpos, hall]
    dsimp only
    split <;> rfl

theorem closeAt_eq_append {delimiter : Delimiter} {content body after : List Char}
    (h : Markdown.closeAt delimiter content = some (body, after)) :
    content = body ++ delimiter.1 ++ after := by
  unfold Markdown.closeAt at h
  dsimp only at h
  split at h
  · rename_i hsplit
    split at h
    · cases h
      exact eq_of_splitAround hsplit
    · cases h
  · cases h

/-- Where a delimiter has been found. -/
theorem delimiterPass_opened {delimiter : Delimiter} {start rest output before content : List Char}
    (tag : List Char) (hopen : splitAround delimiter.1 rest = some (before, content)) :
    delimiterPass delimiter tag (start ++ rest) ⟨byteCount start, output⟩ =
      match Markdown.closeAt delimiter content with
      | none => some (.again ⟨byteCount (start ++ before ++ delimiter.1), output ++ before ++ delimiter.1⟩)
      | some (body, after) =>
        some (.again ⟨byteCount (start ++ rest) - byteCount after,
            output ++ before ++ Markdown.tagged tag body⟩) := by
  have hrest := eq_of_splitAround hopen
  have htext : start ++ rest = start ++ before ++ delimiter.1 ++ content := by
    rw [hrest]
    simp only [List.append_assoc]
  have hoffset : byteCount start + byteCount before + byteCount delimiter.1 =
      byteCount (start ++ before ++ delimiter.1) := by
    rw [byteCount_append, byteCount_append]
  rw [delimiterPass, sliceFrom_of rfl rfl]
  simp only [Option.bind_eq_bind, Option.bind_some, find_of_some hopen, hoffset, sliceFrom_of htext rfl,
    closes_eq]
  cases hclose : Markdown.closeAt delimiter content with
  | none =>
    have hcopied : slice (byteCount start) (byteCount (start ++ before ++ delimiter.1)) (start ++ rest) =
        some (before ++ delimiter.1) := by
      refine @slice_of _ _ _ content _ _ ?_ rfl ?_
      · rw [hrest]
      · rw [List.append_assoc, byteCount_append]
    simp only [Option.map_none, hcopied, Option.bind_some]
    rw [List.append_assoc output]
    rfl
  | some parts =>
    obtain ⟨body, after⟩ := parts
    have hcontent := closeAt_eq_append hclose
    have hbefore :
        slice (byteCount start) (byteCount start + byteCount before) (start ++ rest) = some before := by
      refine @slice_of _ _ _ (delimiter.1 ++ content) _ _ ?_ rfl rfl
      rw [hrest, List.append_assoc]
    have hbody : slice (byteCount (start ++ before ++ delimiter.1))
        (byteCount (start ++ before ++ delimiter.1) + byteCount body) (start ++ rest) = some body := by
      refine @slice_of _ _ _ (delimiter.1 ++ after) _ _ ?_ rfl rfl
      rw [htext, hcontent, List.append_assoc body]
    -- the pass goes on behind the closing delimiter
    have hend : byteCount (start ++ before ++ delimiter.1) + byteCount body + byteCount delimiter.1 =
        byteCount (start ++ rest) - byteCount after := by
      rw [htext, hcontent, byteCount_append _ (body ++ delimiter.1 ++ after), byteCount_append _ after,
        byteCount_append body]
      omega
    simp only [Option.map_some, hbefore, hbody, hend, Option.bind_some]
    rfl

theorem replaceDelimited_from (delimiter : Delimiter) (tag start rest output : List Char) {n : Nat}
    (hn : rest.length < n) : loop (delimiterPass delimiter tag (start ++ rest)) n ⟨byteCount start, output⟩ =
      some (output ++ Markdown.replaceDelimited rest delimiter tag) := by
  fun_induction Markdown.replaceDelimited rest delimiter tag generalizing start output n with
  | case1 rest hopen =>
    refine loop_done ?_ (by omega)
    rw [delimiterPass, sliceFrom_of rfl rfl]
    simp only [Option.bind_eq_bind, Option.bind_some, find_of_none hopen]
    rfl
  | case2 rest before content hopen body after hclose ih =>
    have hpass := @delimiterPass_opened delimiter start rest output before content tag hopen
    rw [hclose] at hpass
    have htaken : start ++ rest = start ++ before ++ delimiter.1 ++ body ++ delimiter.1 ++ after := by
      rw [eq_of_splitAround hopen, closeAt_eq_append hclose]
      simp only [List.append_assoc]
    have hend : byteCount (start ++ rest) - byteCount after =
        byteCount (start ++ before ++ delimiter.1 ++ body ++ delimiter.1) := by
      rw [htaken, byteCount_append _ after, Nat.add_sub_cancel]
    have hafter := Markdown.length_closeAt hclose
    have hcontent := length_splitAround delimiter.2 hopen
    rw [loop_next hpass (Nat.zero_lt_of_lt hn), hend, htaken, ih _ _ (by omega)]
    simp only [List.append_assoc]
  | case3 rest before content hopen hclose ih =>
    have hpass := @delimiterPass_opened delimiter start rest output before content tag hopen
    rw [hclose] at hpass
    have htext : start ++ rest = start ++ before ++ delimiter.1 ++ content := by
      rw [eq_of_splitAround hopen]
      simp only [List.append_assoc]
    have hcontent := length_splitAround delimiter.2 hopen
    rw [loop_next hpass (Nat.zero_lt_of_lt hn), htext, ih _ _ (by omega)]
    simp only [List.append_assoc]

theorem replaceDelimited_eq (input : List Char) (delimiter : Delimiter) (tag : List Char) :
    replaceDelimited input delimiter tag = some (Markdown.replaceDelimited input delimiter tag) :=
  replaceDelimited_from delimiter tag [] input [] (length_lt_passes input)

/-! ## And the links -/

/-- Where a `[` has been found. -/
theorem linkPass_opened {start rest output before labelStart : List Char}
    (hopen : splitAround ['['] rest = some (before, labelStart)) :
    linkPass (start ++ rest) ⟨byteCount start, output⟩ =
      match Markdown.linkAt labelStart with
      | none => some (.again ⟨byteCount (start ++ before ++ ['[']), output ++ before ++ ['[']⟩)
      | some (link, after) =>
        some (.again ⟨byteCount (start ++ rest) - byteCount after,
            output ++ before ++ Markdown.renderLink link⟩) := by
  have hrest := eq_of_splitAround hopen
  have htext : start ++ rest = start ++ before ++ ['['] ++ labelStart := by
    rw [hrest]
    simp only [List.append_assoc]
  have hbracket : byteCount ['['] = 1 := by decide
  have hoffset : byteCount start + byteCount before + 1 = byteCount (start ++ before ++ ['[']) := by
    rw [byteCount_append, byteCount_append, hbracket]
  -- each of the ways to be no link copies the bracket alone
  have hcopied :
    copyOpening (start ++ rest) ⟨byteCount start, output⟩ (byteCount (start ++ before ++ ['['])) =
      some (.again ⟨byteCount (start ++ before ++ ['[']), output ++ before ++ ['[']⟩) := by
    have hslice : slice (byteCount start) (byteCount (start ++ before ++ ['['])) (start ++ rest) =
        some (before ++ ['[']) := by
      refine @slice_of _ _ _ labelStart _ _ ?_ rfl ?_
      · rw [hrest]
      · rw [List.append_assoc, byteCount_append]
    simp only [copyOpening, hslice, Option.bind_eq_bind, Option.bind_some]
    rw [List.append_assoc output]
    rfl
  rw [linkPass, sliceFrom_of rfl rfl, Markdown.linkAt]
  simp only [Option.bind_eq_bind, Option.bind_some, find_of_some hopen, hoffset, sliceFrom_of htext rfl]
  rw [← splitAround_char]
  -- the three searches of the source, one inside the other
  cases hlabel : splitAround [']'] labelStart with
  | none => simp only [find_of_none hlabel, hcopied]
  | some parts =>
    obtain ⟨label, afterLabel⟩ := parts
    have hlabelEnd : start ++ rest = start ++ before ++ ['['] ++ label ++ (']' :: afterLabel) := by
      rw [htext, eq_of_splitAround hlabel]
      simp
    have hend : byteCount (start ++ before ++ ['[']) + byteCount label =
        byteCount (start ++ before ++ ['['] ++ label) := by
      rw [byteCount_append _ label]
    simp only [find_of_some hlabel, hend, sliceFrom_of hlabelEnd rfl, Option.bind_some]
    cases hparen : stripPrefix (']' :: afterLabel) "](".toList with
    | none =>
      have hno : ¬ "](".toList.isPrefixOf (']' :: afterLabel) = true := fun h => by
        rw [stripPrefix, dropPattern, if_pos h] at hparen
        cases hparen
      rw [if_neg hno, hcopied]
    | some urlStart =>
      have hafter := stripPrefix_eq_some.mp hparen
      have hyes : "](".toList.isPrefixOf (']' :: afterLabel) = true :=
        List.isPrefixOf_iff_prefix.mpr ⟨urlStart, hafter.symm⟩
      have hurlStart : start ++ rest = start ++ before ++ ['['] ++ label ++ "](".toList ++ urlStart := by
        rw [hlabelEnd, hafter]
        simp only [List.append_assoc]
      have hparens : byteCount "](".toList = 2 := by decide
      have htwo : byteCount (start ++ before ++ ['['] ++ label) + 2 =
          byteCount (start ++ before ++ ['['] ++ label ++ "](".toList) := by
        rw [byteCount_append _ "](".toList, hparens]
      rw [if_pos hyes, htwo, sliceFrom_of hurlStart rfl]
      dsimp only [Option.bind_some]
      rw [← splitAround_char]
      cases hurl : splitAround [')'] urlStart with
      | none => simp only [find_of_none hurl, hcopied]
      | some parts =>
        obtain ⟨url, after⟩ := parts
        have hbehind : start ++ rest =
            start ++ before ++ ['['] ++ label ++ "](".toList ++ url ++ [')'] ++ after := by
          rw [hurlStart, eq_of_splitAround hurl]
          simp only [List.append_assoc]
        have hlabelText :
          slice (byteCount (start ++ before ++ ['['])) (byteCount (start ++ before ++ ['['] ++ label))
            (start ++ rest) = some label := by
          refine @slice_of _ _ _ ("](".toList ++ urlStart) _ _ ?_ rfl (byteCount_append _ _)
          rw [hurlStart]
          simp only [List.append_assoc]
        have hurlText : slice (byteCount (start ++ before ++ ['['] ++ label ++ "](".toList))
            (byteCount (start ++ before ++ ['['] ++ label ++ "](".toList) + byteCount url) (start ++ rest) =
              some url := by
          refine @slice_of _ _ _ ([')'] ++ after) _ _ ?_ rfl rfl
          rw [hbehind]
          simp only [List.append_assoc]
        have hbefore : slice (byteCount start) (byteCount start + byteCount before) (start ++ rest) =
            some before := by
          refine @slice_of _ _ _ (['['] ++ labelStart) _ _ ?_ rfl rfl
          rw [hrest, List.append_assoc]
        have hclosing : byteCount [')'] = 1 := by decide
        have hnext : byteCount (start ++ before ++ ['['] ++ label ++ "](".toList) + byteCount url + 1 =
            byteCount (start ++ rest) - byteCount after := by
          rw [hbehind, byteCount_append _ after, byteCount_append _ [')'], byteCount_append _ url, hclosing]
          omega
        simp only [Option.bind_some, find_of_some hurl, hlabelText, hurlText, hbefore, hnext, hcopied]
        split <;> rfl

theorem linkAt_eq_append {labelStart after : List Char} {link : List Char × List Char}
    (h : Markdown.linkAt labelStart = some (link, after)) : ∃ taken, labelStart = taken ++ after := by
  rw [Markdown.linkAt_eq] at h
  obtain ⟨found, hparts, h⟩ := Option.bind_eq_some_iff.mp h
  split at h
  · cases h
    obtain ⟨hlabelStart, -, -⟩ := Markdown.linkParts_eq_some.mp hparts
    exact ⟨link.1 ++ ']' :: '(' :: (link.2 ++ [')']), by rw [hlabelStart]; simp⟩
  · cases h

theorem replaceLinks_from (start rest output : List Char) {n : Nat} (hn : rest.length < n) :
    loop (linkPass (start ++ rest)) n ⟨byteCount start, output⟩ =
        some (output ++ Markdown.replaceLinks rest) := by
  fun_induction Markdown.replaceLinks rest generalizing start output n with
  | case1 rest hopen =>
    rw [← splitAround_char] at hopen
    refine loop_done ?_ (by omega)
    rw [linkPass, sliceFrom_of rfl rfl]
    simp only [Option.bind_eq_bind, Option.bind_some, find_of_none hopen]
    rfl
  | case2 rest before labelStart hopen hlink ih =>
    rw [← splitAround_char] at hopen
    have hpass := @linkPass_opened start rest output before labelStart hopen
    rw [hlink] at hpass
    have htext : start ++ rest = start ++ before ++ ['['] ++ labelStart := by
      rw [eq_of_splitAround hopen]
      simp only [List.append_assoc]
    have hlabelStart := length_splitAround (List.cons_ne_nil _ _) hopen
    rw [loop_next hpass (Nat.zero_lt_of_lt hn), htext, ih _ _ (by omega)]
    simp
  | case3 rest before labelStart hopen link after hlink ih =>
    rw [← splitAround_char] at hopen
    have hpass := @linkPass_opened start rest output before labelStart hopen
    rw [hlink] at hpass
    obtain ⟨taken, htaken⟩ := linkAt_eq_append hlink
    have htext : start ++ rest = start ++ before ++ ['['] ++ taken ++ after := by
      rw [eq_of_splitAround hopen, htaken]
      simp only [List.append_assoc]
    have hend :
        byteCount (start ++ rest) - byteCount after = byteCount (start ++ before ++ ['['] ++ taken) := by
      rw [htext, byteCount_append _ after, Nat.add_sub_cancel]
    have hlabelStart := length_splitAround (List.cons_ne_nil _ _) hopen
    have hafter := Markdown.length_linkAt hlink
    rw [loop_next hpass (Nat.zero_lt_of_lt hn), hend, htext, ih _ _ (by omega)]
    simp only [List.append_assoc]

theorem replaceLinks_eq (input : List Char) : replaceLinks input = some (Markdown.replaceLinks input) :=
  replaceLinks_from [] input [] (length_lt_passes input)

/-! ## Headings -/

theorem byteCount_singleton (c : Char) : byteCount [c] = c.utf8Size := by
  rw [byteCount_cons, byteCount_nil, Nat.add_zero]

theorem skipIndent_eq (n : Nat) (start rest : List Char) : skipIndent (start ++ rest) n (byteCount start) =
    some ((Markdown.skipIndent n rest).map fun indented =>
    byteCount (start ++ rest) - byteCount indented) := by
  induction n generalizing start rest with
  | zero =>
    rw [Markdown.skipIndent, Option.map_some, byteCount_append, Nat.add_sub_cancel]
    rfl
  | succ n ih =>
    rw [skipIndent, sliceFrom_of rfl rfl]
    cases rest with
    | nil => rfl
    | cons ch rest =>
      show (if (!isWhitespace ch) = true then some (some (byteCount start))
        else skipIndent (start ++ ch :: rest) n (byteCount start + ch.utf8Size)) = _
      rw [Markdown.skipIndent]
      cases hspace : isWhitespace ch with
      | false =>
        show some (some (byteCount start)) =
          some (some (byteCount (start ++ ch :: rest) - byteCount (ch :: rest)))
        rw [byteCount_append, Nat.add_sub_cancel]
      | true =>
        have hnext := ih (start ++ [ch]) rest
        rw [List.append_assoc, List.singleton_append, byteCount_append start [ch],
          byteCount_singleton] at hnext
        exact hnext

/-- The byte at a boundary is a hash if the character is one. -/
theorem byte_hash (start : List Char) (rest : List Char) : byteCount start < byteCount (start ++ rest) ∧
    (encode (start ++ rest))[byteCount start]? = some 0x23 ↔ ∃ more, rest = '#' :: more := by
  constructor
  · rintro ⟨hlt, hbyte⟩
    cases rest with
    | nil =>
      rw [List.append_nil] at hlt
      exact absurd hlt (Nat.lt_irrefl _)
    | cons c rest =>
      rw [encode_append, ← length_encode, List.getElem?_append_right (Nat.le_refl _), Nat.sub_self, encode,
        List.flatMap_cons] at hbyte
      have hne : String.utf8EncodeChar c ≠ [] := by
        rw [← List.length_pos_iff, String.length_utf8EncodeChar]
        exact c.utf8Size_pos
      obtain ⟨b, bytes, hbytes⟩ := List.exists_cons_of_ne_nil hne
      rw [hbytes] at hbyte
      have hb : b = 0x23 := Option.some.inj hbyte
      have hc := (mem_encode_ascii (c := c) (b := b) (by rw [hb]; decide) (hbytes ▸ List.mem_cons_self)).2
      refine ⟨rest, ?_⟩
      rw [show c = '#' from Char.toNat_inj.mp (by rw [hc, hb]; rfl)]
  · rintro ⟨more, rfl⟩
    refine ⟨?_, byte_ascii start more rfl⟩
    have hpos := ('#').utf8Size_pos
    rw [byteCount_append, byteCount_cons]
    omega

/-- The hashes, at most six. -/
theorem hashes_from (n : Nat) (start hashes rest : List Char) (hn : byteCount hashes + n = 6) {left : Nat}
    (hleft : rest.length < left) :
    loop (hashPass (start ++ hashes ++ rest) (byteCount start)) left (byteCount (start ++ hashes)) =
      some (byteCount (start ++ hashes ++ (rest.take n).takeWhile (· == '#'))) := by
  have hcount := byteCount_append start hashes
  induction n generalizing hashes rest left with
  | zero =>
    rw [List.take_zero, List.takeWhile_nil, List.append_nil]
    refine loop_done ?_ (by omega)
    exact if_neg fun h => by omega
  | succ n ih =>
    by_cases hhash : ∃ more, rest = '#' :: more
    · have hbyte := (byte_hash (start ++ hashes) rest).mpr hhash
      obtain ⟨more, rfl⟩ := hhash
      have hsize : byteCount ['#'] = 1 := by decide
      rw [List.length_cons] at hleft
      have hnext :=
        ih (hashes ++ ['#']) more (by rw [byteCount_append, hsize]; omega) (Nat.lt_sub_of_add_lt hleft)
        (byteCount_append _ _)
      have htext : start ++ (hashes ++ ['#']) ++ more = start ++ hashes ++ '#' :: more := by simp
      have hoffset : byteCount (start ++ (hashes ++ ['#'])) = byteCount (start ++ hashes) + 1 := by
        rw [← List.append_assoc, byteCount_append _ ['#'], hsize]
      rw [htext, hoffset] at hnext
      have hpass : hashPass (start ++ hashes ++ '#' :: more) (byteCount start) (byteCount (start ++ hashes)) =
          some (.again (byteCount (start ++ hashes) + 1)) := if_pos ⟨hbyte.1, hbyte.2, by omega⟩
      rw [loop_next hpass (Nat.zero_lt_of_lt hleft), hnext]
      simp
    · have hno : (rest.take (n + 1)).takeWhile (· == '#') = [] := by
        cases rest with
        | nil => rfl
        | cons c rest =>
          rw [List.take_succ_cons, List.takeWhile_cons_of_neg]
          intro hc
          exact hhash ⟨rest, by rw [eq_of_beq hc]⟩
      rw [hno, List.append_nil]
      refine loop_done ?_ (by omega)
      exact if_neg fun h => hhash ((byte_hash _ _).mp ⟨h.1, h.2.1⟩)

/-- Where the last of the white space stands. -/
def lastOffset (start spaces : List Char) (lastWhitespace : Nat) : Nat :=
  (spaces.getLast?.map fun c => byteCount (start ++ spaces) - c.utf8Size).getD lastWhitespace

theorem lastOffset_cons (start spaces : List Char) (c : Char) (lastWhitespace : Nat) :
    lastOffset start (c :: spaces) lastWhitespace = lastOffset (start ++ [c]) spaces (byteCount start) := by
  unfold lastOffset
  rw [List.append_assoc, List.singleton_append]
  cases hlast : spaces.getLast? with
  | none =>
    rw [List.getLast?_eq_none_iff.mp hlast, byteCount_append, byteCount_singleton]
    show byteCount start + c.utf8Size - c.utf8Size = byteCount start
    omega
  | some d =>
    rw [List.getLast?_cons, hlast]
    rfl

/-- The white space, and the last of it. -/
theorem spaces_from (start rest : List Char) (lastWhitespace whitespaceCount : Nat) {n : Nat}
    (hn : rest.length < n) :
    loop (spacePass (start ++ rest)) n ⟨byteCount start, lastWhitespace, whitespaceCount⟩ =
      some (some ⟨byteCount (start ++ rest.takeWhile isWhitespace),
        lastOffset start (rest.takeWhile isWhitespace) lastWhitespace,
        whitespaceCount + (rest.takeWhile isWhitespace).length⟩) := by
  induction rest generalizing start lastWhitespace whitespaceCount n with
  | nil =>
    rw [List.takeWhile_nil, List.append_nil]
    refine loop_done ?_ (by omega)
    exact if_neg (Nat.lt_irrefl _)
  | cons c rest ih =>
    have hlt : byteCount start < byteCount (start ++ c :: rest) := by
      have hpos := c.utf8Size_pos
      rw [byteCount_append, byteCount_cons]
      omega
    have hslice := @sliceFrom_of _ start (c :: rest) _ rfl rfl
    cases hspace : isWhitespace c with
    | false =>
      rw [List.takeWhile_cons_of_neg (by rw [hspace]; exact Bool.false_ne_true), List.append_nil]
      refine loop_done ?_ (by omega)
      rw [spacePass, if_pos hlt, hslice]
      simp only [Option.bind_eq_bind, Option.bind_some, hspace]
      rfl
    | true =>
      rw [List.length_cons] at hn
      have hnext := ih (start ++ [c]) (byteCount start) (whitespaceCount + 1) (Nat.lt_sub_of_add_lt hn)
      have htext : start ++ [c] ++ rest = start ++ c :: rest := by simp
      have hpass : spacePass (start ++ c :: rest) ⟨byteCount start, lastWhitespace, whitespaceCount⟩ =
          some (.again ⟨byteCount (start ++ [c]), byteCount start, whitespaceCount + 1⟩) := by
        rw [spacePass, if_pos hlt, hslice, byteCount_append, byteCount_singleton]
        simp only [Option.bind_eq_bind, Option.bind_some, hspace]
        rfl
      rw [htext] at hnext
      rw [loop_next hpass (Nat.zero_lt_of_lt hn), hnext, List.takeWhile_cons_of_pos hspace,
        lastOffset_cons, List.length_cons, List.append_assoc, List.singleton_append, Nat.add_right_comm,
        Nat.add_assoc]

/-- The text behind the hashes: from where the white space ends, or from the last of it. -/
theorem headingText_eq (start afterHashes : List Char) {n : Nat} (hn : afterHashes.length < n) :
    (loop (spacePass (start ++ afterHashes)) n ⟨byteCount start, byteCount start, 0⟩).bind (fun result =>
      match result with
      | none => some none
      | some s =>
        if s.whitespaceCount = 0 then some none
        else if s.idx < byteCount (start ++ afterHashes) then
          (sliceFrom s.idx (start ++ afterHashes)).bind fun heading => some (some heading)
        else (sliceFrom s.lastWhitespace (start ++ afterHashes)).bind fun heading => some (some heading)) =
      some (Markdown.headingText afterHashes) := by
  have hparts := (List.takeWhile_append_dropWhile (p := isWhitespace) (l := afterHashes)).symm
  rw [spaces_from _ _ _ _ hn, Option.bind_some, Markdown.headingText]
  dsimp only
  generalize afterHashes.takeWhile isWhitespace = spaces at hparts ⊢
  generalize afterHashes.dropWhile isWhitespace = heading at hparts ⊢
  subst hparts
  rcases List.eq_nil_or_concat spaces with rfl | ⟨init, c, rfl⟩
  · rfl
  · have hbehind : start ++ (init ++ [c] ++ heading) = start ++ (init ++ [c]) ++ heading := by simp
    have hlast : lastOffset start (init ++ [c]) (byteCount start) = byteCount (start ++ init) := by
      rw [lastOffset, List.getLast?_concat, ← List.append_assoc, byteCount_append _ [c], byteCount_singleton]
      show _ + c.utf8Size - c.utf8Size = _
      omega
    rw [List.concat_eq_append, List.getLast?_concat, hlast, if_neg (by simp)]
    dsimp only
    cases heading with
    | nil =>
      have hend : ¬ byteCount (start ++ (init ++ [c])) < byteCount (start ++ (init ++ [c] ++ [])) := by
        rw [List.append_nil]
        exact Nat.lt_irrefl _
      have hslice : sliceFrom (byteCount (start ++ init)) (start ++ (init ++ [c] ++ [])) = some [c] :=
        sliceFrom_of (by simp) rfl
      rw [if_neg hend, hslice]
      rfl
    | cons d heading =>
      have hlt : byteCount (start ++ (init ++ [c])) < byteCount (start ++ (init ++ [c] ++ d :: heading)) := by
        have hpos := d.utf8Size_pos
        rw [hbehind, byteCount_append _ (d :: heading), byteCount_cons]
        omega
      rw [if_pos hlt, sliceFrom_of hbehind rfl]
      rfl

theorem suffix_skipIndent {n : Nat} {line indented : List Char}
    (h : Markdown.skipIndent n line = some indented) :
    ∃ start, line = start ++ indented := by
  rw [Markdown.skipIndent_eq_some h]
  exact ⟨_, (List.take_append_drop _ line).symm⟩

/-- **The heading of a line** is the same. -/
theorem markdownHeading_eq (line : List Char) :
    markdownHeading line = some (Markdown.markdownHeading line) := by
  have hindent := skipIndent_eq 3 [] line
  rw [List.nil_append, byteCount_nil] at hindent
  unfold markdownHeading Markdown.markdownHeading
  rw [hindent]
  cases hskip : Markdown.skipIndent 3 line with
  | none => rfl
  | some indented =>
    obtain ⟨start, rfl⟩ := suffix_skipIndent hskip
    have hcount : byteCount (start ++ indented) - byteCount indented = byteCount start := by
      rw [byteCount_append, Nat.add_sub_cancel]
    have hpasses := length_lt_passes (start ++ indented)
    rw [List.length_append] at hpasses
    have hhashes :=
      hashes_from 6 start [] indented rfl (show indented.length < passes (start ++ indented) by omega)
    have hprefix : (indented.take 6).takeWhile (· == '#') <+: indented :=
      (List.takeWhile_prefix _).trans (List.take_prefix _ _)
    obtain ⟨after, hafter⟩ := hprefix
    rw [List.append_nil] at hhashes
    simp only [Option.bind_eq_bind, Option.bind_some, Option.map_some, hcount, hhashes]
    have hdrop := (congrArg (List.drop ((indented.take 6).takeWhile (· == '#')).length) hafter).symm
    rw [List.drop_left] at hdrop
    generalize (indented.take 6).takeWhile (· == '#') = hashes at hafter hdrop ⊢
    subst hafter
    have hzero : byteCount (start ++ hashes) - byteCount start = 0 ↔ hashes.isEmpty = true := by
      rw [byteCount_append, Nat.add_sub_cancel_left, List.isEmpty_iff, ← List.length_eq_zero_iff]
      have hpos := @byteCount_pos hashes
      omega
    by_cases hempty : hashes.isEmpty = true
    · rw [if_pos (hzero.mpr hempty), if_pos hempty]
      rfl
    · rw [if_neg fun h => hempty (hzero.mp h), if_neg hempty, hdrop, ← List.append_assoc]
      refine headingText_eq (start ++ hashes) after ?_
      rw [List.length_append] at hpasses
      rw [List.append_assoc]
      omega

theorem renderLine_eq (line : List Char) : renderLine line = some (Markdown.renderLine line) := by
  rw [renderLine, markdownHeading_eq, Markdown.renderLine]
  cases Markdown.markdownHeading line <;> rfl

/-! ## All of it is -/

theorem mapM_renderLine (lines : List (List Char)) :
    lines.mapM renderLine = some (lines.map Markdown.renderLine) := by
  induction lines with
  | nil => rfl
  | cons line lines ih =>
    rw [List.mapM_cons, renderLine_eq, ih]
    rfl

/-- **No text makes it panic or loop**: the renderer on byte offsets, with `none` for a slice off a boundary
    and for fuel that has run out, always has the result of the renderer on characters. -/
theorem markdownToHtml_total (text : List Char) :
    markdownToHtml text = some (Markdown.markdownToHtml text) := by
  unfold markdownToHtml Markdown.markdownToHtml
  split
  · rfl
  · simp only [captureFencedBlocks_eq, Option.bind_eq_bind, Option.bind_some, mapM_renderLine,
      replaceLinks_eq, replaceDelimited_eq]
    rfl

end MarkdownOffsets

end Tellm
