/-
  MARKDOWN: `markdown_to_html` of `tellm-telegram`, and the Python function that its golden vectors come from.

  The renderer cuts fenced blocks out, escapes the rest, and replaces headings, links, `**` and `__` bold and
  inline code one after the other; then it puts the blocks back.  It does so with loops around `str::find`.
  The reference does the same with six regular expressions.

  1. **`Markdown`**: the functions of `lib.rs`.  A byte offset is a split of the text, and a loop that looks
     for a delimiter behind `search_start` is a recursion on what is left behind it.
  2. **`Reference`**: `_telegram_markdown_to_html` of `generate_vectors.py`, with `re.sub` as the
     substitution of a backtracking matcher (`Tellm.Lib.Regex`).

  Everything is on lists of characters.  A slice of the source by byte offsets is a split of the list
  here; that the slices are at character boundaries, and that every loop ends, is proved in
  `Tellm.MarkdownOffsets` of a second model that keeps the offsets.

  The five characters that are escaped, the tags, the limits on indent and hashes, the order of the stages
  and the early return for an empty text are the source's.  So is the way the blocks come back: one
  replacement of all occurrences for each block, in order.

  The reference is embedded from the Python source for its own sake: its patterns are terms of
  `Tellm.Lib.Regex`, with greedy and lazy repetitions as written, and its white space is Python's, which
  has four control characters more than Rust's.  Only the placeholder, which reads the same in both
  languages, is shared; the rest is written out twice.
-/
import Tellm.Text
import Tellm.Lib.Regex

namespace Tellm

open Text Substitutions Regexes

namespace Markdown

/-! ## Blocks -/

/-- The letters that HTML takes for its own, as entities. -/
def escapeChar : Char → List Char
  | '&' => "&amp;".toList
  | '<' => "&lt;".toList
  | '>' => "&gt;".toList
  | '"' => "&quot;".toList
  | '\'' => "&#x27;".toList
  | c => [c]

/-- `escape_html`: letter by letter, so that the text escapes in parts as it does as a whole. -/
def escapeHtml (text : List Char) : List Char := text.flatMap escapeChar

/-- The backtick. -/
def tick : Char := Char.ofNat 0x60

/-- Three backticks. -/
def fence : List Char := [tick, tick, tick]

/-- What stands in for a code block, by its number, while the rest of the text is rendered. -/
def placeholder (idx : Nat) : List Char := s!"@@TG_CODEBLOCK_{idx}@@".toList

/-- `str::trim_matches`, of newlines. -/
def trimNewlines (text : List Char) : List Char := (text.dropWhile (· == '\n')).rdropWhile (· == '\n')

/-- A code block as it is put back: escaped, and nothing in it rendered. -/
def codeBlock (block : List Char) : List Char :=
  "<pre><code>".toList ++ escapeHtml (trimNewlines block) ++ "</code></pre>".toList

/-- What follows the line that opens a fence; none where a backtick is on it. -/
def fencedContentStart : List Char → Option (List Char)
  | [] => none
  | c :: rest => if c = '\n' then some rest else if c = tick then none else fencedContentStart rest

/-- The block of a fence that has been opened, and what follows its end. -/
def fencedBlock (afterOpen : List Char) : Option (List Char × List Char) :=
  match fencedContentStart afterOpen with
  | none => none
  | some content => splitAround fence content

theorem length_fencedContentStart {text content : List Char} (h : fencedContentStart text = some content) :
    content.length < text.length := by
  induction text with
  | nil => cases h
  | cons c rest ih =>
    rw [fencedContentStart] at h
    split at h
    · rw [← Option.some.inj h]
      exact Nat.lt_succ_self _
    · split at h
      · cases h
      · exact (ih h).trans (Nat.lt_succ_self _)

theorem length_fencedBlock {afterOpen block after : List Char}
    (h : fencedBlock afterOpen = some (block, after)) : after.length < afterOpen.length := by
  unfold fencedBlock at h
  split at h
  · cases h
  · rename_i content hstart
    exact (length_splitAround (by decide) h).trans (length_fencedContentStart hstart)

/-- The loop of `capture_fenced_blocks`, where `rest` is left of the text. -/
def captureFrom (rest output : List Char) (fencedBlocks : List (List Char)) :
    List Char × List (List Char) :=
  match _hopen : splitAround fence rest with
  | none => (output ++ rest, fencedBlocks)
  | some (before, afterOpen) =>
    match _hblock : fencedBlock afterOpen with
    | none => captureFrom (tick :: tick :: afterOpen) (output ++ before ++ [tick]) fencedBlocks
    | some (block, after) =>
      captureFrom after (output ++ before ++ placeholder fencedBlocks.length)
        (fencedBlocks ++ [codeBlock block])
termination_by rest.length
decreasing_by
  · have hlength := congrArg List.length (eq_of_splitAround _hopen)
    simp only [List.length_append, List.length_cons, show fence.length = 3 from rfl] at hlength ⊢
    omega
  · exact (length_fencedBlock _hblock).trans (length_splitAround (by decide) _hopen)

/-- `capture_fenced_blocks`: the text with its placeholders, and the blocks in order. -/
def captureFencedBlocks (text : List Char) : List Char × List (List Char) := captureFrom text [] []

/-! ## Headings -/

/-- The loop over at most three characters of indentation; none where the line ends before it does. -/
def skipIndent : Nat → List Char → Option (List Char)
  | 0, line => some line
  | _ + 1, [] => none
  | n + 1, c :: rest => if isWhitespace c then skipIndent n rest else some (c :: rest)

/-- The text behind the hashes: what follows the white space, or the last of it where nothing does. -/
def headingText (afterHashes : List Char) : Option (List Char) :=
  match (afterHashes.takeWhile isWhitespace).getLast? with
  | none => none
  | some lastWhitespace =>
    let heading := afterHashes.dropWhile isWhitespace
    if heading.isEmpty then some [lastWhitespace] else some heading

/-- `markdown_heading`: the text of a heading, which is behind at most three blanks, one to six hashes and
    white space. -/
def markdownHeading (line : List Char) : Option (List Char) :=
  match skipIndent 3 line with
  | none => none
  | some indented =>
    let hashes := (indented.take 6).takeWhile (· == '#')
    if hashes.isEmpty then none else headingText (indented.drop hashes.length)

/-- A text between the two halves of a tag. -/
def tagged (tag text : List Char) : List Char :=
  '<' :: tag ++ '>' :: text ++ '<' :: '/' :: tag ++ ['>']

/-- A line of the text: a heading is bold, any other line stays. -/
def renderLine (line : List Char) : List Char :=
  match markdownHeading line with
  | some heading => tagged ['b'] (trim heading)
  | none => line

/-! ## Links -/

/-- The scheme without encryption. -/
def http : List Char := "http://".toList

/-- The scheme with it. -/
def https : List Char := "https://".toList

/-- The link behind a `[`: its label and URL, and what follows it.  Where there is none, the loop copies the
    `[` and goes on behind it. -/
def linkAt (labelStart : List Char) : Option ((List Char × List Char) × List Char) :=
  match splitOnce labelStart ']' with
  | none => none
  | some (label, afterLabel) =>
    match stripPrefix (']' :: afterLabel) "](".toList with
    | none => none
    | some urlStart =>
      match splitOnce urlStart ')' with
      | none => none
      | some (url, after) =>
        if !label.isEmpty && !url.isEmpty && (http.isPrefixOf url || https.isPrefixOf url) &&
            !url.any isWhitespace then
          some ((label, url), after)
        else none

/-- A link, of its label and its URL. -/
def renderLink (link : List Char × List Char) : List Char :=
  "<a href=\"".toList ++ link.2 ++ "\">".toList ++ link.1 ++ "</a>".toList

theorem length_splitOnce {text before after : List Char} {separator : Char}
    (h : splitOnce text separator = some (before, after)) : after.length < text.length := by
  rw [(splitOnce_eq_some.mp h).1, List.length_append, List.length_cons]
  omega

theorem length_linkAt {labelStart after : List Char} {link : List Char × List Char}
    (h : linkAt labelStart = some (link, after)) : after.length < labelStart.length := by
  unfold linkAt at h
  split at h
  · cases h
  · rename_i label afterLabel hlabel
    split at h
    · cases h
    · rename_i urlStart hopen
      split at h
      · cases h
      · rename_i url after' hurl
        split at h
        · cases h
          have h1 := length_splitOnce hlabel
          have h2 := congrArg List.length (stripPrefix_eq_some.mp hopen)
          have h3 := length_splitOnce hurl
          rw [List.length_append, List.length_cons] at h2
          have h4 : "](".toList.length = 2 := rfl
          omega
        · cases h

/-- `replace_links`: from the left, each `[` that opens a link gives way to it; any other stays, and the
    search goes on behind it. -/
def replaceLinks (input : List Char) : List Char :=
  match _hopen : splitOnce input '[' with
  | none => input
  | some (before, labelStart) =>
    match _hlink : linkAt labelStart with
    | none => before ++ '[' :: replaceLinks labelStart
    | some (link, after) => before ++ renderLink link ++ replaceLinks after
termination_by input.length
decreasing_by
  · exact length_splitOnce _hopen
  · exact (length_linkAt _hlink).trans (length_splitOnce _hopen)

/-! ## Delimiters -/

/-- A delimiter is not empty. -/
abbrev Delimiter := { text : List Char // text ≠ [] }

/-- The content that a delimiter opens, up to the next one, and what follows that; none where the content is
    empty or a newline comes first. -/
def closeAt (delimiter : Delimiter) (content : List Char) : Option (List Char × List Char) :=
  let newline := (splitOnce content '\n').map fun parts => parts.1.length
  match splitAround delimiter.1 content with
  | some (body, after) =>
    if 0 < body.length && newline.all (fun newline => body.length < newline) then some (body, after)
    else none
  | none => none

theorem length_closeAt {delimiter : Delimiter} {content body after : List Char}
    (h : closeAt delimiter content = some (body, after)) : after.length < content.length := by
  unfold closeAt at h
  dsimp only at h
  split at h
  · rename_i hsplit
    split at h
    · cases h
      exact length_splitAround delimiter.2 hsplit
    · cases h
  · cases h

/-- `replace_delimited`: the same for a delimiter that opens and closes. -/
def replaceDelimited (input : List Char) (delimiter : Delimiter) (tag : List Char) : List Char :=
  match _hopen : splitAround delimiter.1 input with
  | none => input
  | some (before, content) =>
    match _hclose : closeAt delimiter content with
    | some (body, after) => before ++ tagged tag body ++ replaceDelimited after delimiter tag
    | none => before ++ delimiter.1 ++ replaceDelimited content delimiter tag
termination_by input.length
decreasing_by
  · exact (length_closeAt _hclose).trans (length_splitAround delimiter.2 _hopen)
  · exact length_splitAround delimiter.2 _hopen

/-! ## All of it -/

/-- Bold, by asterisks. -/
def asterisks : Delimiter := ⟨['*', '*'], by decide⟩

/-- Bold, by underscores. -/
def underscores : Delimiter := ⟨['_', '_'], by decide⟩

/-- Inline code. -/
def backtick : Delimiter := ⟨[tick], by decide⟩

/-- The last loop: the blocks replace their placeholders, in order. -/
def restoreBlocks (fencedBlocks : List (List Char)) (transformed : List Char) : List Char :=
  fencedBlocks.zipIdx.foldl (fun text block => replaceAll (placeholder block.2) block.1 text) transformed

/-- `markdown_to_html`: the fenced blocks are taken out, what is left is escaped, headings, links, bold and
    code are rendered in this order, and the blocks are put back. -/
def markdownToHtml (text : List Char) : List Char :=
  if text.isEmpty then []
  else
    let (withoutFenced, fencedBlocks) := captureFencedBlocks text
    let escapedText := escapeHtml withoutFenced
    let lines := (escapedText.splitOn '\n').map renderLine
    let transformed := ['\n'].intercalate lines
    let transformed := replaceLinks transformed
    let transformed := replaceDelimited transformed asterisks ['b']
    let transformed := replaceDelimited transformed underscores ['b']
    let transformed := replaceDelimited transformed backtick "code".toList
    restoreBlocks fencedBlocks transformed

end Markdown

/-! ## The reference -/

namespace Reference

open Markdown (placeholder tick)

/-- `str.isspace`, which is also `\s` of a text pattern. -/
def isSpace (c : Char) : Bool :=
  (9 ≤ c.toNat && c.toNat ≤ 13) || (0x1C ≤ c.toNat && c.toNat ≤ 0x1F) || c.toNat == 0x20 ||
    c.toNat == 0x85 || c.toNat == 0xA0 || c.toNat == 0x1680 || (0x2000 ≤ c.toNat && c.toNat ≤ 0x200A) ||
    c.toNat == 0x2028 || c.toNat == 0x2029 || c.toNat == 0x202F || c.toNat == 0x205F || c.toNat == 0x3000

/-- `str.strip`, of the characters that satisfy `p`. -/
def strip (p : Char → Bool) (text : List Char) : List Char := (text.dropWhile p).rdropWhile p

/-- `html.escape`: five replacements, the ampersand's first. -/
def escape (text : List Char) : List Char :=
  let text := replaceAll ['&'] "&amp;".toList text
  let text := replaceAll ['<'] "&lt;".toList text
  let text := replaceAll ['>'] "&gt;".toList text
  let text := replaceAll ['"'] "&quot;".toList text
  replaceAll ['\''] "&#x27;".toList text

/-- A class that excludes some characters. -/
def except (excluded : List Char) (c : Char) : Bool := !excluded.contains c

/-- The fence pattern: three backticks, ``(?:[^\n`]+)?\n([\s\S]*?)``, three backticks. -/
def fenceRegex : Regex :=
  .seq (.literal [tick, tick, tick]) <| .seq (.optional (.repeated true 1 none (except ['\n', tick]))) <|
    .seq (.literal ['\n']) <| .seq (.group (.repeated false 0 none fun _ => true)) <|
      .literal [tick, tick, tick]

/-- `^\s{0,3}#{1,6}\s+(.+)$` -/
def headingRegex : Regex :=
  .seq (.repeated true 0 (some 3) isSpace) <| .seq (.repeated true 1 (some 6) (· == '#')) <|
    .seq (.repeated true 1 none isSpace) <| .seq (.group (.repeated true 1 none (except ['\n']))) .lineEnd

/-- `\[([^\]]+)\]\((https?://[^\s)]+)\)` -/
def linkRegex : Regex :=
  .seq (.literal ['[']) <| .seq (.group (.repeated true 1 none (except [']']))) <|
    .seq (.literal "](".toList) <|
      .seq (.group (.seq (.literal "http".toList) <| .seq (.optional (.literal ['s'])) <|
        .seq (.literal "://".toList) (.repeated true 1 none fun c => !isSpace c && c != ')'))) <|
        .literal [')']

/-- `\*\*(.+?)\*\*`, and the same with underscores. -/
def boldRegex (delimiter : List Char) : Regex :=
  .seq (.literal delimiter) <| .seq (.group (.repeated false 1 none (except ['\n']))) <| .literal delimiter

/-- The pattern of inline code: a backtick, ``([^`\n]+)``, a backtick. -/
def codeRegex : Regex :=
  .seq (.literal [tick]) <| .seq (.group (.repeated true 1 none (except [tick, '\n']))) <| .literal [tick]

/-- `match.group(n)`. -/
def group (groups : List (List Char)) (n : Nat) : List Char := groups.getD (n - 1) []

/-- `_capture_fenced_block`, called on every match from left to right. -/
def captureFencedBlocks : List (Char ⊕ List (List Char)) → List (List Char) →
    List Char × List (List Char)
  | [], fencedBlocks => ([], fencedBlocks)
  | .inl c :: pieces, fencedBlocks =>
    let (text, fencedBlocks) := captureFencedBlocks pieces fencedBlocks
    (c :: text, fencedBlocks)
  | .inr groups :: pieces, fencedBlocks =>
    let escaped := escape (strip (· == '\n') (group groups 1))
    let block := "<pre><code>".toList ++ escaped ++ "</code></pre>".toList
    let (text, fencedBlocks') := captureFencedBlocks pieces (fencedBlocks ++ [block])
    (placeholder fencedBlocks.length ++ text, fencedBlocks')

/-- The replacement of the heading's expression, with `strip` where the renderer trims. -/
def renderLine (line : List Char) : List Char :=
  match headingRegex.step line with
  | some (groups, _) => "<b>".toList ++ strip isSpace (group groups 1) ++ "</b>".toList
  | none => line

/-- The replacement of the link's expression. -/
def renderLink (groups : List (List Char)) : List Char :=
  "<a href=\"".toList ++ group groups 2 ++ "\">".toList ++ group groups 1 ++ "</a>".toList

/-- The replacement of the two expressions for bold. -/
def renderBold (groups : List (List Char)) : List Char := "<b>".toList ++ group groups 1 ++ "</b>".toList

/-- The replacement of the expression for inline code. -/
def renderCode (groups : List (List Char)) : List Char :=
  "<code>".toList ++ group groups 1 ++ "</code>".toList

/-- `_telegram_markdown_to_html`: the stages of the reference, each by its regular expression, in the
    renderer's order. -/
def telegramMarkdownToHtml (text : List Char) : List Char :=
  if text.isEmpty then []
  else
    let (withoutFenced, fencedBlocks) := captureFencedBlocks (pieces fenceRegex.step text) []
    let escapedText := escape withoutFenced
    let lines := (escapedText.splitOn '\n').map renderLine
    let transformed := ['\n'].intercalate lines
    let transformed := linkRegex.sub renderLink transformed
    let transformed := (boldRegex ['*', '*']).sub renderBold transformed
    let transformed := (boldRegex ['_', '_']).sub renderBold transformed
    let transformed := codeRegex.sub renderCode transformed
    fencedBlocks.zipIdx.foldl (fun text block => replaceAll (placeholder block.2) block.1 text) transformed

end Reference

end Tellm
