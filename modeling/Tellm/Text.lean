/-
  TEXT: the methods of Rust's `str` that the program uses, over lists of characters.

  A `&str` is a `List Char` here and a `String` where it is stored; a position is a split of the list.
  White space is Unicode's `White_Space` property, as in `char::is_whitespace`; case folding is ASCII's.

  Beside each method stands the one equation its callers need: what it does to a text that starts, or
  ends, at a known place (`splitWhitespace_of_token`, `splitWhitespace_token_append`, `trimStart_of_head`,
  `trimEnd_append_token`).

  Which methods are here is what the parsers of commands, the renderer, the chunker and the terminal need:
  trimming on either side, splitting at white space or at the first or the last of a character, dropping a
  prefix, ASCII lower case, and reading an integer.  Each is total and computable, so a witness can run
  it.

  Trimming is stated with `dropWhile` on the text and on its reverse, the form in which the library's
  lemmas apply.

  `IsToken` is a text without white space that is not empty.  A command's arguments are tokens, and so are
  the keys that the validator accepts; that is the one fact by which a key survives being put into a text
  and read back.
-/
import Tellm.Lib.Substitution

namespace Tellm

open Substitutions

namespace Text

/-- `char::is_whitespace`. -/
def isWhitespace (c : Char) : Bool :=
  (9 ≤ c.toNat && c.toNat ≤ 13) || c.toNat == 0x20 || c.toNat == 0x85 || c.toNat == 0xA0 ||
    c.toNat == 0x1680 || (0x2000 ≤ c.toNat && c.toNat ≤ 0x200A) || c.toNat == 0x2028 ||
    c.toNat == 0x2029 || c.toNat == 0x202F || c.toNat == 0x205F || c.toNat == 0x3000

/-- `str::trim_start`. -/
def trimStart (text : List Char) : List Char := text.dropWhile isWhitespace

/-- `str::trim_end`. -/
def trimEnd (text : List Char) : List Char := (text.reverse.dropWhile isWhitespace).reverse

/-- `str::trim`. -/
def trim (text : List Char) : List Char := trimEnd (trimStart text)

/-- `str::split_whitespace`. -/
def splitWhitespace (text : List Char) : List (List Char) :=
  (text.splitOnP isWhitespace).filter (!·.isEmpty)

/-- `str::split_once`. -/
def splitOnce (text : List Char) (separator : Char) : Option (List Char × List Char) :=
  match text.span (· != separator) with
  | (_, []) => none
  | (before, _ :: after) => some (before, after)

/-- `str::rsplit_once`. -/
def rsplitOnce (text : List Char) (separator : Char) : Option (List Char × List Char) :=
  (splitOnce text.reverse separator).map fun (after, before) => (before.reverse, after.reverse)

/-- `str::strip_prefix`. -/
def stripPrefix (text start : List Char) : Option (List Char) := dropPattern start text

/-- `str::to_ascii_lowercase`. -/
def toAsciiLowercase (text : String) : String := text.toLower

/-- The digits of `str::parse`, most significant first. -/
def parseDigits (digits : List Char) : Option Nat :=
  if digits.isEmpty || !digits.all Char.isDigit then none
  else some (digits.foldl (fun n c => n * 10 + (c.toNat - '0'.toNat)) 0)

/-- `str::parse::<i64>`. -/
def parseI64 : List Char → Option Int
  | '-' :: digits => (parseDigits digits).bind fun n => if n ≤ 2 ^ 63 then some (-n) else none
  | '+' :: digits => (parseDigits digits).bind fun n => if n < 2 ^ 63 then some n else none
  | digits => (parseDigits digits).bind fun n => if n < 2 ^ 63 then some n else none

theorem stripPrefix_eq_some {text start rest : List Char} :
    stripPrefix text start = some rest ↔ text = start ++ rest := dropPattern_eq_some

theorem toAsciiLowercase_eq {text lower : String} (h : text.toList.map Char.toLower = lower.toList) :
    toAsciiLowercase text = lower :=
  String.toList_inj.mp (String.toList_map.trans h)

theorem splitOnce_cons (c : Char) (text : List Char) (separator : Char) :
    splitOnce (c :: text) separator =
      if c = separator then some ([], text)
      else (splitOnce text separator).map fun parts => (c :: parts.1, parts.2) := by
  unfold splitOnce
  simp only [List.span_eq_takeWhile_dropWhile]
  by_cases hc : c = separator
  · simp [hc]
  · rw [if_neg hc, List.takeWhile_cons_of_pos (by simpa using hc),
      List.dropWhile_cons_of_pos (by simpa using hc)]
    cases text.dropWhile (· != separator) <;> rfl

/-- The first separator is its first occurrence. -/
theorem splitAround_char (c : Char) (text : List Char) : splitAround [c] text = splitOnce text c := by
  induction text with
  | nil => rfl
  | cons d text ih =>
    rw [splitOnce_cons]
    by_cases h : d = c
    · subst h
      have hdrop : dropPattern [d] (d :: text) = some text := dropPattern_append [d] text
      rw [if_pos rfl, splitAround_of_some hdrop]
    · rw [if_neg h, splitAround_cons (dropPattern_cons_ne h [] text), ih]

/-- The parts of a split, around the first separator. -/
theorem splitOnce_eq_some {text before after : List Char} {separator : Char} :
    splitOnce text separator = some (before, after) ↔
      text = before ++ separator :: after ∧ separator ∉ before := by
  induction text generalizing before with
  | nil => simp [splitOnce]
  | cons c text ih =>
    rw [splitOnce_cons]
    by_cases hc : c = separator
    · subst hc
      cases before with
      | nil => simp
      | cons b before =>
        have hne : ¬ (c = b ∧ text = before ++ c :: after ∧ c ∉ b :: before) := by
          rintro ⟨rfl, -, hno⟩
          exact hno List.mem_cons_self
        simpa [and_assoc] using hne
    · rw [if_neg hc]
      cases before with
      | nil => simp [hc]
      | cons b before =>
        simp only [Option.map_eq_some_iff, Prod.mk.injEq, List.cons.injEq, Prod.exists, List.cons_append,
          List.mem_cons, not_or]
        constructor
        · rintro ⟨before', after', hsplit, ⟨rfl, rfl⟩, rfl⟩
          obtain ⟨rfl, hno⟩ := ih.mp hsplit
          exact ⟨⟨rfl, rfl⟩, Ne.symm hc, hno⟩
        · rintro ⟨⟨rfl, rfl⟩, -, hno⟩
          exact ⟨before, after, ih.mpr ⟨rfl, hno⟩, ⟨rfl, rfl⟩, rfl⟩

/-- The parts of a split, around the last separator. -/
theorem rsplitOnce_eq_some {text before after : List Char} {separator : Char}
    (h : rsplitOnce text separator = some (before, after)) : text = before ++ separator :: after := by
  obtain ⟨⟨after', before'⟩, hsplit, hparts⟩ := Option.map_eq_some_iff.mp h
  obtain ⟨rfl, rfl⟩ := Prod.mk.inj hparts
  rw [← List.reverse_reverse text, (splitOnce_eq_some.mp hsplit).1]
  simp

/-! ## Tokens -/

/-- One token: not empty, no white space. -/
structure IsToken (token : List Char) : Prop where
  ne_nil : token ≠ []
  noSpace : ∀ c ∈ token, isWhitespace c = false

theorem splitWhitespace_of_token {token : List Char} (h : IsToken token) :
    splitWhitespace token = [token] := by
  rw [splitWhitespace, List.splitOnP_eq_singleton h.noSpace]
  cases token with
  | nil => exact absurd rfl h.ne_nil
  | cons c token => rfl

theorem splitWhitespace_token_append {token : List Char} (h : IsToken token) {space : Char}
    (hspace : isWhitespace space = true) (rest : List Char) :
    splitWhitespace (token ++ space :: rest) = token :: splitWhitespace rest := by
  rw [splitWhitespace, List.splitOnP_append_cons_of_forall_mem h.noSpace space hspace]
  cases token with
  | nil => exact absurd rfl h.ne_nil
  | cons c token => rfl

/-- A text that starts with a letter keeps its start. -/
theorem trimStart_of_head {c : Char} {text : List Char} (hc : isWhitespace c = false) :
    trimStart (c :: text) = c :: text := by
  rw [trimStart, List.dropWhile_cons_of_neg (by simp [hc])]

theorem trimStart_space {c : Char} {text : List Char} (hc : isWhitespace c = true) :
    trimStart (c :: text) = trimStart text := by
  rw [trimStart, List.dropWhile_cons_of_pos hc, trimStart]

/-- A text that ends with a token keeps its end. -/
theorem trimEnd_append_token (text : List Char) {token : List Char} (h : IsToken token) :
    trimEnd (text ++ token) = text ++ token := by
  obtain ⟨token, c, rfl⟩ := List.eq_nil_or_concat token |>.resolve_left h.ne_nil
  have hc : isWhitespace c = false := h.noSpace c (by simp)
  rw [trimEnd, List.concat_eq_append, List.reverse_append, List.reverse_append, List.reverse_singleton,
    List.singleton_append, List.cons_append, List.dropWhile_cons_of_neg (by simp [hc])]
  simp

/-- A text that is trimmed away is all white space. -/
theorem trim_eq_nil {text : List Char} :
    trim text = [] ↔ ∀ c ∈ text, isWhitespace c = true := by
  rw [trim, trimEnd, List.reverse_eq_nil_iff, List.dropWhile_eq_nil_iff]
  simp only [List.mem_reverse]
  constructor
  · intro h
    rw [← List.dropWhile_eq_nil_iff]
    by_contra hne
    -- What `trim_start` leaves begins with a letter.
    have hhead := List.head_dropWhile_not isWhitespace hne
    rw [h _ (List.head_mem hne)] at hhead
    cases hhead
  · intro h c hc
    exact h c ((List.dropWhile_suffix _).subset hc)

end Text

end Tellm
