/-
  OFFSETS: a text read at byte offsets, in a loop.

  `&text[m..n]` panics unless both offsets are at a character boundary; `str::find` returns the offset of
  a character; a loop keeps the offset that it has come to.  A panic is `none` here, and so is a loop that
  does not end in time.

  1. **`getTo`**, **`sliceFrom`**, **`slice`**: what stands before an offset, behind it, and between two.
     A text that is cut where the offset says is `sliceFrom_of`, `slice_of`.
  2. **`find`**: the offset of the first occurrence.
  3. **`encode`**: the bytes themselves.  A byte below 128 is a character of its own (`mem_encode_ascii`).
  4. **`loop`**: a `while` loop, pass by pass.

  Offsets count bytes of the UTF-8 form, texts are lists of characters, and the two are brought together
  by splitting: a text that is known as `before ++ rest` has the offset of `rest` as the size of
  `before`.  With this every slice in a proof is an equation about lists.

  `loop` runs a pass as often as its fuel says and is `none` if that is not enough; a lemma about a loop
  shows that a bound on the text is enough, so totality is proved and not assumed.
-/
import Tellm.Lib.Substitution

namespace Offsets

open Substitutions

/-! ## Slices -/

/-- The bytes of a text. -/
def byteCount (text : List Char) : Nat := (text.map Char.utf8Size).sum

@[simp] theorem byteCount_nil : byteCount [] = 0 := rfl

@[simp] theorem byteCount_cons (c : Char) (text : List Char) :
    byteCount (c :: text) = c.utf8Size + byteCount text := by
  rw [byteCount, List.map_cons, List.sum_cons]
  rfl

@[simp] theorem byteCount_append (text text' : List Char) :
    byteCount (text ++ text') = byteCount text + byteCount text' := by
  rw [byteCount, List.map_append, List.sum_append]
  rfl

theorem length_le_byteCount (text : List Char) : text.length ≤ byteCount text := by
  induction text with
  | nil => exact Nat.le_refl 0
  | cons c text ih =>
    have hpos := c.utf8Size_pos
    rw [byteCount_cons, List.length_cons]
    omega

theorem byteCount_pos {text : List Char} : 0 < byteCount text ↔ 0 < text.length := by
  cases text with
  | nil => exact Iff.rfl
  | cons c text =>
    have hpos := c.utf8Size_pos
    rw [byteCount_cons, List.length_cons]
    omega

/-- Of two beginnings of a text, the one with fewer bytes has fewer characters. -/
theorem byteCount_lt_iff {text start start' : List Char} (h : start <+: text) (h' : start' <+: text) :
    byteCount start < byteCount start' ↔ start.length < start'.length := by
  rcases List.prefix_or_prefix_of_prefix h h' with ⟨more, rfl⟩ | ⟨more, rfl⟩
  · have hmore := @byteCount_pos more
    rw [byteCount_append, List.length_append]
    omega
  · rw [byteCount_append, List.length_append]
    omega

/-- `str::get(..n)`: the first `n` bytes, where they end at a character. -/
def getTo (n : Nat) (text : List Char) : Option (List Char) :=
  match n, text with
  | 0, _ => some []
  | _ + 1, [] => none
  | n + 1, c :: text => if c.utf8Size ≤ n + 1 then (getTo (n + 1 - c.utf8Size) text).map (c :: ·) else none
termination_by text.length

/-- `&text[n..]`. -/
def sliceFrom (n : Nat) (text : List Char) : Option (List Char) :=
  (getTo n text).map fun start => text.drop start.length

/-- `&text[m..n]`. -/
def slice (m n : Nat) (text : List Char) : Option (List Char) :=
  if m ≤ n then (sliceFrom m text).bind (getTo (n - m)) else none

theorem getTo_cons {n : Nat} {c : Char} (h : c.utf8Size ≤ n) (text : List Char) :
    getTo n (c :: text) = (getTo (n - c.utf8Size) text).map (c :: ·) := by
  cases n with
  | zero => exact absurd c.utf8Size_pos (by omega)
  | succ n => rw [getTo, if_pos h]

theorem getTo_append (start rest : List Char) : getTo (byteCount start) (start ++ rest) = some start := by
  induction start with
  | nil =>
    show getTo 0 rest = some []
    rw [getTo]
  | cons c start ih =>
    rw [byteCount_cons, List.cons_append, getTo_cons (Nat.le_add_right _ _), Nat.add_sub_cancel_left, ih]
    rfl

theorem getTo_eq_some {n : Nat} {text start : List Char} (h : getTo n text = some start) :
    start <+: text ∧ byteCount start = n := by
  fun_induction getTo n text generalizing start with
  | case1 text =>
    cases h
    exact ⟨List.nil_prefix, rfl⟩
  | case2 => cases h
  | case3 n c text hle ih =>
    obtain ⟨start, hstart, rfl⟩ := Option.map_eq_some_iff.mp h
    obtain ⟨hpre, hcount⟩ := ih hstart
    refine ⟨List.cons_prefix_cons.mpr ⟨rfl, hpre⟩, ?_⟩
    rw [byteCount_cons, hcount]
    omega
  | case4 => cases h

/-- **At a boundary**, what follows it. -/
theorem sliceFrom_of {text start rest : List Char} {n : Nat} (htext : text = start ++ rest)
    (hn : n = byteCount start) :
    sliceFrom n text = some rest := by
  rw [htext, hn, sliceFrom, getTo_append, Option.map_some, List.drop_left]

/-- **Between two boundaries**. -/
theorem slice_of {text start inside rest : List Char} {m n : Nat} (htext : text = start ++ (inside ++ rest))
    (hm : m = byteCount start) (hn : n = byteCount start + byteCount inside) :
    slice m n text = some inside := by
  have hle : m ≤ n := by omega
  have hcount : n - m = byteCount inside := by omega
  rw [slice, if_pos hle, sliceFrom_of htext hm, Option.bind_some, hcount, getTo_append]

/-- `str::find`. -/
def find (pattern text : List Char) : Option Nat :=
  (splitAround pattern text).map fun parts => byteCount parts.1

/-! ## Bytes -/

/-- `str::as_bytes`. -/
def encode (text : List Char) : List UInt8 := text.flatMap String.utf8EncodeChar

theorem length_encode (text : List Char) : (encode text).length = byteCount text := by
  induction text with
  | nil => rfl
  | cons c text ih =>
    rw [encode, List.flatMap_cons, List.length_append, String.length_utf8EncodeChar, byteCount_cons]
    exact congrArg _ ih

theorem encode_append (text text' : List Char) : encode (text ++ text') = encode text ++ encode text' :=
  List.flatMap_append

/-- A byte below 128 is a character of its own. -/
theorem mem_encode_ascii {c : Char} {b : UInt8} (hb : b.toNat < 128) (h : b ∈ String.utf8EncodeChar c) :
    String.utf8EncodeChar c = [b] ∧ c.toNat = b.toNat := by
  have hnat : c.val.toNat = c.toNat := rfl
  unfold String.utf8EncodeChar at h ⊢
  dsimp only at h ⊢
  rw [hnat] at h ⊢
  split at h
  · rename_i hsmall
    obtain rfl := List.mem_singleton.mp h
    rw [if_pos hsmall, UInt8.toNat_ofNat', Nat.mod_eq_of_lt (by omega)]
    exact ⟨rfl, rfl⟩
  · split at h
    · simp only [List.mem_cons, List.not_mem_nil, or_false] at h
      rcases h with rfl | rfl <;>
      · rw [UInt8.toNat_ofNat'] at hb
        omega
    · split at h
      · simp only [List.mem_cons, List.not_mem_nil, or_false] at h
        rcases h with rfl | rfl | rfl <;>
        · rw [UInt8.toNat_ofNat'] at hb
          omega
      · simp only [List.mem_cons, List.not_mem_nil, or_false] at h
        rcases h with rfl | rfl | rfl | rfl <;>
        · rw [UInt8.toNat_ofNat'] at hb
          omega

/-! ## Loops -/

variable {σ β : Type}

/-- What a pass comes to: another pass from a new state, or the end of the loop with a result. -/
inductive Next (σ β : Type)
  | again (s : σ)
  | leave (b : β)

/-- A `while` loop: a pass panics, goes on, or leaves the loop.  A loop that has not ended after so many
    passes has no result. -/
def loop (pass : σ → Option (Next σ β)) : Nat → σ → Option β
  | 0, _ => none
  | passes + 1, s => do
    match ← pass s with
    | .again s => loop pass passes s
    | .leave b => return b

theorem loop_next {pass : σ → Option (Next σ β)} {s s' : σ} (h : pass s = some (.again s')) {passes : Nat}
    (hpasses : 0 < passes) : loop pass passes s = loop pass (passes - 1) s' := by
  obtain ⟨passes, rfl⟩ := Nat.exists_eq_add_one.mpr hpasses
  rw [loop, h, Nat.add_sub_cancel]
  rfl

theorem loop_done {pass : σ → Option (Next σ β)} {s : σ} {b : β} (h : pass s = some (.leave b)) {passes : Nat}
    (hpasses : 0 < passes) : loop pass passes s = some b := by
  obtain ⟨passes, rfl⟩ := Nat.exists_eq_add_one.mpr hpasses
  rw [loop, h]
  rfl

end Offsets
