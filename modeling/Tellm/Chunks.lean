/-
  CHUNKS: `chunk_text` of `tellm-telegram`, and the Python function that its golden vectors come from.

  A text that is too long is cut into chunks of at most `chunk_size` characters.  A chunk ends behind the last
  newline of its window, unless that newline is the window's first character; a window without such a newline
  is taken as it is.

  1. **`chunkText`**: the loop, over the positions `start` and `end` of the source.  A chunk size is positive;
     the source asserts it.
  2. **`Reference.chunkText`**: `_chunk_text`, where `str.rfind` answers -1 for "not found".
  3. **`cut`**: where the chunk ends that starts at the head of a text.  `chunkFrom_eq` states the loop in its
     terms, and every property of a chunk is one of `cut`.

  The window of a chunk is counted in characters, as in the source, which collects the text into a vector
  first.  The search for the newline goes backwards from the window's end and stops before its first
  character, since a chunk must not be empty; so a text that begins with newlines still makes progress,
  and the loop's measure is what is left of it.

  The reference slices and searches the same text with Python's half-open ranges.  Its one oddity, the -1
  of `rfind`, falls together with "at the first character" in its comparison, which is why the two agree
  on every text and every positive size.

  From `cut` follow the facts that other modules need: the chunks put together are the text, each is
  bounded and none empty, a chunk other than the last is full or ends behind a newline, and the smaller
  chunks of all chunks are still the text (`chunking_twice`).
-/
import Tellm.Text

namespace Tellm

open Text

/-- `assert!(chunk_size > 0)`. -/
abbrev ChunkSize := { size : Nat // 0 < size }

/-- `TEXT_CHUNK_SIZE`, for messages in HTML and for plain text. -/
def textChunkSize : ChunkSize := ⟨3900, by decide⟩

/-- `RICH_CHUNK_SIZE`, for rich messages. -/
def richChunkSize : ChunkSize := ⟨32000, by decide⟩

namespace Chunks

/-- `(start..end).rev().find(|&idx| chars[idx] == '\n')`. -/
def lastNewline (chars : List Char) (start stop : Nat) : Option Nat :=
  (List.range' start (stop - start)).reverse.find? fun idx => chars[idx]? == some '\n'

/-- The end of the chunk that starts at `start`. -/
def chunkEnd (chars : List Char) (chunkSize : ChunkSize) (start : Nat) : Nat :=
  let stop := min (start + chunkSize.1) chars.length
  if stop < chars.length then
    match lastNewline chars start stop with
    | some split => if split > start then split + 1 else stop
    | none => stop
  else stop

theorem lastNewline_bounds {chars : List Char} {start stop split : Nat}
    (h : lastNewline chars start stop = some split) : start ≤ split ∧ split < stop := by
  have hmem := List.mem_range'_1.mp (List.mem_reverse.mp (List.mem_of_find?_eq_some h))
  omega

/-- Every chunk is a slice of the text, and not an empty one. -/
theorem chunkEnd_bounds {chars : List Char} (chunkSize : ChunkSize) {start : Nat} (h : start < chars.length) :
    start < chunkEnd chars chunkSize start ∧ chunkEnd chars chunkSize start ≤ chars.length := by
  have hpos := chunkSize.2
  unfold chunkEnd
  dsimp only
  split
  · split
    · rename_i split hsplit
      have hbounds := lastNewline_bounds hsplit
      split <;> omega
    · omega
  · omega

/-- The loop of `chunk_text`. -/
def chunkFrom (chars : List Char) (chunkSize : ChunkSize) (start : Nat) : List (List Char) :=
  if _h : start < chars.length then
    let stop := chunkEnd chars chunkSize start
    (chars.drop start).take (stop - start) :: chunkFrom chars chunkSize stop
  else []
termination_by chars.length - start
decreasing_by
  have hbounds := chunkEnd_bounds chunkSize _h
  omega

end Chunks

/-- `chunk_text`: a text that fits is one chunk as it is; any other is cut from the front, at line ends where
    there are some. -/
def chunkText (text : List Char) (chunkSize : ChunkSize) : List (List Char) :=
  if text.length ≤ chunkSize.1 then [text] else Chunks.chunkFrom text chunkSize 0

/-! ## One chunk -/

namespace Chunks

theorem lastNewline_eq_some {chars : List Char} {start stop split : Nat}
    (h : lastNewline chars start stop = some split) : chars[split]? = some '\n' ∧
      ∀ idx, split < idx → idx < stop → chars[idx]? ≠ some '\n' := by
  rw [lastNewline, List.find?_eq_some_iff_append] at h
  obtain ⟨hnewline, later, earlier, hsplit, hlater⟩ := h
  refine ⟨eq_of_beq hnewline, fun idx hlt hstop heq => ?_⟩
  -- the positions are tried from the last one on
  have hrange : List.range' start (stop - start) = earlier.reverse ++ split :: later.reverse := by
    have hreverse := congrArg List.reverse hsplit
    simpa using hreverse
  have hsorted : (List.range' start (stop - start)).Pairwise (· < ·) := List.pairwise_lt_range'
  have hstart : start ≤ split := by
    have hmem : split ∈ List.range' start (stop - start) := by simp [hrange]
    exact (List.mem_range'_1.mp hmem).1
  have hmem : idx ∈ List.range' start (stop - start) := List.mem_range'_1.mpr (by omega)
  rw [hrange] at hmem hsorted
  rcases List.mem_append.mp hmem with hmem | hmem
  · have hsmall := (List.pairwise_append.mp hsorted).2.2 idx hmem split List.mem_cons_self
    omega
  · rcases List.mem_cons.mp hmem with rfl | hmem
    · omega
    · have hfalse := hlater idx (List.mem_reverse.mp hmem)
      rw [heq] at hfalse
      cases hfalse

theorem lastNewline_eq_none {chars : List Char} {start stop : Nat} (h : lastNewline chars start stop = none) :
    ∀ idx, start ≤ idx → idx < stop → chars[idx]? ≠ some '\n' := by
  intro idx hstart hstop heq
  rw [lastNewline, List.find?_eq_none] at h
  exact h idx (List.mem_reverse.mpr (List.mem_range'_1.mpr (by omega))) (by rw [heq]; rfl)

/-- The length of the chunk at the head of a text. -/
def cut (chunkSize : ChunkSize) (text : List Char) : Nat := chunkEnd text chunkSize 0

/-- **Where a chunk ends**: at the last newline of the window, behind its first character; at the end of the
    window where there is none; or with the text. -/
theorem cut_cases (chunkSize : ChunkSize) (text : List Char) :
    (text.length ≤ chunkSize.1 ∧ cut chunkSize text = text.length) ∨
    (chunkSize.1 < text.length ∧
      ((∃ split, 0 < split ∧ split < chunkSize.1 ∧ cut chunkSize text = split + 1 ∧
          text[split]? = some '\n' ∧ ∀ idx, split < idx → idx < chunkSize.1 → text[idx]? ≠ some '\n') ∨
        (cut chunkSize text = chunkSize.1 ∧
          ∀ idx, 0 < idx → idx < chunkSize.1 → text[idx]? ≠ some '\n'))) := by
  unfold cut chunkEnd
  dsimp only
  rw [Nat.zero_add]
  by_cases hlength : text.length ≤ chunkSize.1
  · rw [Nat.min_eq_right hlength, if_neg (Nat.lt_irrefl _)]
    exact Or.inl ⟨hlength, rfl⟩
  · have hlt : chunkSize.1 < text.length := Nat.lt_of_not_le hlength
    rw [Nat.min_eq_left (Nat.le_of_lt hlt), if_pos hlt]
    refine Or.inr ⟨hlt, ?_⟩
    cases hsplit : lastNewline text 0 chunkSize.1 with
    | none => exact Or.inr ⟨rfl, fun idx _ => lastNewline_eq_none hsplit idx (Nat.zero_le _)⟩
    | some split =>
      obtain ⟨hnewline, hlast⟩ := lastNewline_eq_some hsplit
      have hbounds := lastNewline_bounds hsplit
      dsimp only
      split
      · rename_i hpos
        exact Or.inl ⟨split, hpos, hbounds.2, rfl, hnewline, hlast⟩
      · exact Or.inr ⟨rfl, fun idx hidx => hlast idx (by omega)⟩

theorem cut_bounds (chunkSize : ChunkSize) {text : List Char} (hne : text ≠ []) :
    0 < cut chunkSize text ∧ cut chunkSize text ≤ text.length ∧ cut chunkSize text ≤ chunkSize.1 := by
  have hpos := List.length_pos_iff.mpr hne
  have hsize := chunkSize.2
  rcases cut_cases chunkSize text with ⟨hle, heq⟩ | ⟨hlt, ⟨split, h1, h2, heq, -⟩ | ⟨heq, -⟩⟩ <;> omega

/-! ## The loop -/

theorem lastNewline_drop (chars : List Char) (before start stop : Nat) :
    lastNewline chars (before + start) (before + stop) =
      (lastNewline (chars.drop before) start stop).map (before + ·) := by
  have hrange : List.range' (before + start) (before + stop - (before + start)) =
      (List.range' start (stop - start)).map (before + ·) := by
    rw [List.map_add_range', Nat.add_sub_add_left]
  rw [lastNewline, lastNewline, hrange, ← List.map_reverse, List.find?_map]
  congr 2
  funext idx
  simp only [Function.comp_apply, List.getElem?_drop]

theorem chunkEnd_drop (chars : List Char) (chunkSize : ChunkSize) {before start : Nat}
    (h : before ≤ chars.length) :
    chunkEnd chars chunkSize (before + start) = before + chunkEnd (chars.drop before) chunkSize start := by
  have hmin : min (before + start + chunkSize.1) chars.length =
      before + min (start + chunkSize.1) (chars.length - before) := by omega
  unfold chunkEnd
  dsimp only
  rw [List.length_drop, hmin, lastNewline_drop]
  by_cases hlt : min (start + chunkSize.1) (chars.length - before) < chars.length - before
  · rw [if_pos hlt, if_pos (by omega)]
    cases lastNewline (chars.drop before) start (min (start + chunkSize.1) (chars.length - before)) with
    | none => rfl
    | some split =>
      dsimp only [Option.map_some]
      by_cases hgt : split > start
      · rw [if_pos hgt, if_pos (by omega), Nat.add_assoc]
      · rw [if_neg hgt, if_neg (by omega)]
  · rw [if_neg hlt, if_neg (by omega)]

/-- The loop does not look back. -/
theorem chunkFrom_drop (chars : List Char) (chunkSize : ChunkSize) {before : Nat} (h : before ≤ chars.length)
    (start : Nat) :
    chunkFrom chars chunkSize (before + start) = chunkFrom (chars.drop before) chunkSize start := by
  induction hn : chars.length - (before + start) using Nat.strong_induction_on generalizing start with
  | _ n ih =>
    subst hn
    rw [chunkFrom, chunkFrom]
    by_cases hlt : before + start < chars.length
    · have hlt' : start < (chars.drop before).length := by
        rw [List.length_drop]
        omega
      have hbounds := chunkEnd_bounds chunkSize hlt'
      rw [List.length_drop] at hbounds
      rw [dif_pos hlt, dif_pos hlt', chunkEnd_drop chars chunkSize h, List.drop_drop]
      dsimp only
      rw [ih _ (by omega) _ rfl, Nat.add_sub_add_left]
    · have hlt' : ¬ start < (chars.drop before).length := by
        rw [List.length_drop]
        omega
      rw [dif_neg hlt, dif_neg hlt']

/-- **The loop**, one chunk after the other. -/
theorem chunkFrom_eq (text : List Char) (chunkSize : ChunkSize) : chunkFrom text chunkSize 0 =
    if text = [] then []
    else text.take (cut chunkSize text) :: chunkFrom (text.drop (cut chunkSize text)) chunkSize 0 := by
  by_cases hne : text = []
  · rw [if_pos hne, chunkFrom, dif_neg (by simp [hne])]
  · have hdrop := chunkFrom_drop text chunkSize (cut_bounds chunkSize hne).2.1 0
    rw [Nat.add_zero] at hdrop
    rw [if_neg hne, chunkFrom, dif_pos (List.length_pos_iff.mpr hne), ← hdrop, List.drop_zero]
    rfl

/-- A property of texts holds of all, if every chunk carries it on. -/
theorem chunks_induction (chunkSize : ChunkSize) {motive : List Char → Prop} (nil : motive [])
    (chunk : ∀ text, text ≠ [] → motive (text.drop (cut chunkSize text)) → motive text) (text : List Char) :
    motive text := by
  induction hn : text.length using Nat.strong_induction_on generalizing text with
  | _ n ih =>
    subst hn
    by_cases hne : text = []
    · rw [hne]
      exact nil
    · have hbounds := cut_bounds chunkSize hne
      refine chunk text hne (ih _ ?_ _ rfl)
      rw [List.length_drop]
      omega

end Chunks

/-! ## The reference -/

namespace Reference

/-- `str.rfind("\n", start, end)`: the highest index in the slice at which it stands, or -1. -/
def rfindNewline (text : List Char) (start stop : Nat) : Int :=
  match ((List.range text.length).filter fun idx =>
    decide (start ≤ idx ∧ idx < stop) && text[idx]? == some '\n').getLast? with
  | some idx => idx
  | none => -1

/-- Where the reference ends the chunk that begins here: behind the last line end in reach, if that is not
    where it begins. -/
def chunkEnd (text : List Char) (chunkSize : ChunkSize) (start : Nat) : Nat :=
  let stop := min (start + chunkSize.1) text.length
  if stop < text.length then
    let split := rfindNewline text start stop
    if split > start then (split + 1).toNat else stop
  else stop

/-- The positions of a slice. -/
theorem filter_range {start stop n : Nat} (h : start ≤ stop) (h' : stop ≤ n) :
    (List.range n).filter (fun idx => decide (start ≤ idx ∧ idx < stop)) = List.range' start
    (stop - start) := by
  have hsplit : List.range n =
      List.range' 0 start ++ (List.range' start (stop - start) ++ List.range' stop (n - stop)) := by
    have h1 := @List.range'_append_1 start (stop - start) (n - stop)
    have h2 := @List.range'_append_1 0 start (stop - start + (n - stop))
    rw [Nat.add_sub_cancel' h] at h1
    rw [Nat.zero_add] at h2
    rw [h1, h2, List.range_eq_range']
    congr 1
    omega
  rw [hsplit, List.filter_append, List.filter_append, List.filter_eq_nil_iff.mpr, List.filter_eq_self.mpr,
    List.filter_eq_nil_iff.mpr, List.nil_append, List.append_nil]
  · intro idx hidx
    have hmem := List.mem_range'_1.mp hidx
    simp only [decide_eq_true_eq]
    omega
  · intro idx hidx
    have hmem := List.mem_range'_1.mp hidx
    simp only [decide_eq_true_eq]
    omega
  · intro idx hidx
    have hmem := List.mem_range'_1.mp hidx
    simp only [decide_eq_true_eq]
    omega

/-- Both look for the same newline. -/
theorem rfindNewline_eq {text : List Char} {start stop : Nat} (h : start ≤ stop) (h' : stop ≤ text.length) :
    rfindNewline text start stop = ((Chunks.lastNewline text start stop).map Int.ofNat).getD (-1) := by
  have hfilter : (List.range text.length).filter (fun idx =>
      decide (start ≤ idx ∧ idx < stop) && text[idx]? == some '\n') =
        (List.range' start (stop - start)).filter fun idx => text[idx]? == some '\n' := by
    rw [← filter_range h h', List.filter_filter]
    congr 1
    funext idx
    exact Bool.and_comm _ _
  rw [rfindNewline, hfilter, Chunks.lastNewline, ← List.head?_filter, List.filter_reverse, List.head?_reverse]
  cases ((List.range' start (stop - start)).filter fun idx => text[idx]? == some '\n').getLast? <;> rfl

theorem chunkEnd_eq (text : List Char) (chunkSize : ChunkSize) (start : Nat) :
    chunkEnd text chunkSize start = Chunks.chunkEnd text chunkSize start := by
  unfold chunkEnd Chunks.chunkEnd
  dsimp only
  split
  · rename_i hstop
    rw [rfindNewline_eq (by omega) (Nat.min_le_right _ _)]
    cases hsplit : Chunks.lastNewline text start (min (start + chunkSize.1) text.length) with
    | none => rw [if_neg (by simp)]
    | some split => by_cases hgt : split > start <;> simp [hgt]
  · rfl

/-- The loop of `_chunk_text`. -/
def chunkFrom (text : List Char) (chunkSize : ChunkSize) (start : Nat) : List (List Char) :=
  if _h : start < text.length then
    let stop := chunkEnd text chunkSize start
    (text.drop start).take (stop - start) :: chunkFrom text chunkSize stop
  else []
termination_by text.length - start
decreasing_by
  have hbounds := Chunks.chunkEnd_bounds chunkSize _h
  rw [chunkEnd_eq]
  omega

/-- `_chunk_text`, the same function as the reference has it. -/
def chunkText (text : List Char) (chunkSize : ChunkSize) : List (List Char) :=
  if text.length ≤ chunkSize.1 then [text] else chunkFrom text chunkSize 0

end Reference

/-! ## All chunks -/

/-- The chunk ends behind the last newline of its window, which is not the window's first character. -/
def BreaksAtNewline (window chunk : List Char) : Prop :=
  ∃ split, 0 < split ∧ window[split]? = some '\n' ∧ (∀ idx, split < idx → window[idx]? ≠ some '\n') ∧
    chunk = window.take (split + 1)

/-- The chunk is as long as it may be, and has no newline behind its first character. -/
def FullWidth (chunkSize : ChunkSize) (chunk : List Char) : Prop :=
  chunk.length = chunkSize.1 ∧ ∀ idx, 0 < idx → chunk[idx]? ≠ some '\n'

/-- What a chunking of a text is meant to be. -/
structure Chunking (chunkSize : ChunkSize) (text : List Char) (chunks : List (List Char)) : Prop where
  lossless : chunks.flatten = text
  bounded : ∀ chunk ∈ chunks, chunk.length ≤ chunkSize.1 ∧ (text ≠ [] → chunk ≠ [])
  breaks : ∀ before chunk after, chunks = before ++ chunk :: after → after ≠ [] →
    BreaksAtNewline ((text.drop before.flatten.length).take chunkSize.1) chunk ∨ FullWidth chunkSize chunk

namespace Chunks

/-- The chunk at the head of a text that is not its last one. -/
theorem take_cut_breaks {chunkSize : ChunkSize} {text : List Char} (h : text.drop (cut chunkSize text) ≠ []) :
    BreaksAtNewline (text.take chunkSize.1) (text.take (cut chunkSize text)) ∨
      FullWidth chunkSize (text.take (cut chunkSize text)) := by
  rcases cut_cases chunkSize text with
    ⟨-, hcut⟩ | ⟨hlength, ⟨split, hpos, hsplit, hcut, hnewline, hlast⟩ | ⟨hcut, hnone⟩⟩
  · rw [hcut, List.drop_length] at h
    exact absurd rfl h
  · refine Or.inl ⟨split, hpos, ?_, ?_, ?_⟩
    · rw [List.getElem?_take_of_lt hsplit, hnewline]
    · intro idx hidx heq
      by_cases hlt : idx < chunkSize.1
      · rw [List.getElem?_take_of_lt hlt] at heq
        exact hlast idx hidx hlt heq
      · rw [List.getElem?_take_eq_none (Nat.le_of_not_lt hlt)] at heq
        cases heq
    · rw [hcut, List.take_take, Nat.min_eq_left hsplit]
  · refine Or.inr ⟨?_, ?_⟩
    · rw [hcut, List.length_take, Nat.min_eq_left (Nat.le_of_lt hlength)]
    · intro idx hidx heq
      rw [hcut] at heq
      by_cases hlt : idx < chunkSize.1
      · rw [List.getElem?_take_of_lt hlt] at heq
        exact hnone idx hidx hlt heq
      · rw [List.getElem?_take_eq_none (Nat.le_of_not_lt hlt)] at heq
        cases heq

theorem chunkFrom_chunking (chunkSize : ChunkSize) (text : List Char) :
    Chunking chunkSize text (chunkFrom text chunkSize 0) := by
  induction text using chunks_induction chunkSize with
  | nil =>
    rw [chunkFrom_eq, if_pos rfl]
    exact ⟨rfl, fun _ h => absurd h List.not_mem_nil, fun before chunk after h => by simp at h⟩
  | chunk text hne ih =>
    -- a chunk is cut off; its bounds make it nonempty and the rest shorter
    have hbounds := cut_bounds chunkSize hne
    rw [chunkFrom_eq, if_neg hne]
    refine ⟨?_, List.forall_mem_cons.mpr ⟨⟨?_, fun _ => ?_⟩, fun chunk hmem => ?_⟩, ?_⟩
    · rw [List.flatten_cons, ih.lossless, List.take_append_drop]
    · exact (List.length_take_le _ _).trans hbounds.2.2
    · intro hnil
      have hlength := congrArg List.length hnil
      rw [List.length_take, List.length_nil] at hlength
      omega
    · obtain ⟨hle, hchunk⟩ := ih.bounded chunk hmem
      refine ⟨hle, fun _ => hchunk fun hdrop => ?_⟩
      rw [hdrop, chunkFrom_eq, if_pos rfl] at hmem
      exact absurd hmem List.not_mem_nil
    · -- the first chunk breaks where it was cut, the others by the hypothesis
      intro before chunk after heq hafter
      cases before with
      | nil =>
        obtain ⟨rfl, rfl⟩ := List.cons.inj heq
        have hdrop : text.drop (cut chunkSize text) ≠ [] := by
          intro hdrop
          rw [hdrop, chunkFrom_eq, if_pos rfl] at hafter
          exact hafter rfl
        rw [List.flatten_nil, List.length_nil, List.drop_zero]
        exact take_cut_breaks hdrop
      | cons first before =>
        obtain ⟨rfl, htail⟩ := List.cons.inj heq
        have hbreaks := ih.breaks before chunk after htail hafter
        rw [List.drop_drop] at hbreaks
        rw [List.flatten_cons, List.length_append, List.length_take, Nat.min_eq_left hbounds.2.1]
        exact hbreaks

theorem chunking (text : List Char) (chunkSize : ChunkSize) :
    Chunking chunkSize text (chunkText text chunkSize) := by
  rw [chunkText]
  split
  · rename_i hlength
    refine ⟨List.append_nil text, ?_, ?_⟩
    · intro chunk hmem
      rw [List.mem_singleton.mp hmem]
      exact ⟨hlength, id⟩
    · intro before chunk after heq hafter
      cases before with
      | nil => exact absurd (List.cons.inj heq).2.symm hafter
      | cons first before =>
        have hlength := congrArg List.length (List.cons.inj heq).2
        simp at hlength
  · exact chunkFrom_chunking chunkSize text

/-- Chunks of chunks. -/
theorem chunking_twice (text : List Char) (rich small : ChunkSize) :
    ((chunkText text rich).flatMap (chunkText · small)).flatten = text ∧
    ∀ part ∈ (chunkText text rich).flatMap (chunkText · small), part.length ≤ small.1 ∧
    (text ≠ [] → part ≠ []) := by
  constructor
  · have hparts :
        ∀ parts : List (List Char), (parts.flatMap (chunkText · small)).flatten = parts.flatten := by
      intro parts
      induction parts with
      | nil => rfl
      | cons part parts ih =>
        rw [List.flatMap_cons, List.flatten_append, ih, (chunking part small).lossless, List.flatten_cons]
    rw [hparts, (chunking text rich).lossless]
  · intro part hmem
    obtain ⟨chunk, hchunk, hpart⟩ := List.mem_flatMap.mp hmem
    obtain ⟨hle, hne⟩ := (chunking chunk small).bounded part hpart
    exact ⟨hle, fun htext => hne (((chunking text rich).bounded chunk hchunk).2 htext)⟩

end Chunks

namespace Reference

theorem chunkFrom_eq (text : List Char) (chunkSize : ChunkSize) (start : Nat) :
    chunkFrom text chunkSize start = Chunks.chunkFrom text chunkSize start := by
  fun_induction Chunks.chunkFrom text chunkSize start with
  | case1 start h stop ih =>
    rw [chunkFrom, dif_pos h, chunkEnd_eq]
    exact congrArg _ ih
  | case2 start h => rw [chunkFrom, dif_neg h]

end Reference

/-- **`chunk_text`** is its reference, and cuts every text as it is meant to; so do the two chunkings of
    `send_message`, one after the other. -/
theorem chunkText_chunking (text : List Char) (chunkSize : ChunkSize) :
    chunkText text chunkSize = Reference.chunkText text chunkSize ∧
    Chunking chunkSize text (chunkText text chunkSize) ∧
    ((chunkText text richChunkSize).flatMap (chunkText · textChunkSize)).flatten = text ∧
    ∀ part ∈ (chunkText text richChunkSize).flatMap (chunkText · textChunkSize),
      part.length ≤ 3900 ∧ (text ≠ [] → part ≠ []) := by
  refine ⟨?_, Chunks.chunking text chunkSize, Chunks.chunking_twice text richChunkSize textChunkSize⟩
  rw [chunkText, Reference.chunkText, Reference.chunkFrom_eq]

end Tellm
