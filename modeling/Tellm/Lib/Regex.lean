/-
  REGULAR EXPRESSIONS, as a backtracking matcher reads them.

  Such a matcher tries the ways in which an expression can match at the head of a text in a fixed order: a
  greedy repetition the longest way first, a lazy one the shortest, a sequence the ways of its first part
  before those of its second.  What it returns is the first way; here all of them are listed, in that order.

  1. **`Regex.ways`**: the ways to match; `Regex.first` is the match, `Regex.sub` substitutes all of them.
  2. **Greedy repetitions** (`runs_greedy`): before something that cannot start with a repeated symbol,
     only the longest way counts.
  3. **Lazy repetitions** (`runs_lazy`): before a pattern, the first way ends where the pattern first occurs.
  4. **The match of a sequence**, by its first part: one equation for each (`step_literal_seq`,
     `step_greedy_seq`, `step_group_greedy_seq`, `step_optional_seq`, `step_lazy`).

  An expression is put together from literals, repetitions of a set of characters, optional parts, groups,
  sequences and the end of a line; a repetition is greedy or lazy and may have bounds.  A way to match is
  the text that it matches, the groups in it, and what is left.

  The equations are for expressions as programs write them: a literal or a run in front, a group around a
  run, a lazy run before a delimiter.  Each turns a match into a search on lists, after which the
  expression is gone from the goal.
-/
import Tellm.Lib.Substitution

namespace Regexes

open Substitutions

/-- The regular expressions that are needed: no alternation, and repetition of single symbols only. -/
inductive Regex
  | literal (text : List Char)
  /-- At least `least` and at most `most` symbols that satisfy `p`. -/
  | repeated (greedy : Bool) (least : Nat) (most : Option Nat) (p : Char → Bool)
  | optional (r : Regex)
  | seq (r s : Regex)
  | group (r : Regex)
  /-- At the end of the text, or at the newline that ends it. -/
  | lineEnd

/-- One way to match: the text it matches, the groups in it, and the text that is left. -/
structure Match where
  matched : List Char
  groups : List (List Char)
  rest : List Char

/-- A match behind a match. -/
def Match.append (m n : Match) : Match := ⟨m.matched ++ n.matched, m.groups ++ n.groups, n.rest⟩

/-- The ways to take symbols that satisfy `p` off a text, with what is left. -/
def runs (greedy : Bool) (p : Char → Bool) (least : Nat) (most : Option Nat) :
    List Char → List (List Char × List Char)
  | [] => if least = 0 then [([], [])] else []
  | c :: rest =>
    let more :=
      if p c ∧ most ≠ some 0 then
        (runs greedy p (least - 1) (most.map (· - 1)) rest).map fun r => (c :: r.1, r.2)
      else []
    let stop := if least = 0 then [([], c :: rest)] else []
    if greedy then more ++ stop else stop ++ more

/-- The ways to match at the head of a text, in the order in which they are tried. -/
def Regex.ways : Regex → List Char → List Match
  | .literal s, text => ((dropPattern s text).map fun rest => ⟨s, [], rest⟩).toList
  | .repeated greedy least most p, text =>
    (runs greedy p least most text).map fun r => ⟨r.1, [], r.2⟩
  | .optional r, text => r.ways text ++ [⟨[], [], text⟩]
  | .seq r s, text => (r.ways text).flatMap fun m => (s.ways m.rest).map m.append
  | .group r, text => (r.ways text).map fun m => { m with groups := m.matched :: m.groups }
  | .lineEnd, text => if text = [] ∨ text = ['\n'] then [⟨[], [], text⟩] else []

attribute [local grind] Regex.ways runs

/-- The match at the head of a text. -/
def Regex.first (r : Regex) (text : List Char) : Option Match := (r.ways text).head?

/-- Its groups, and what is left. -/
def Regex.step (r : Regex) : Step Char (List (List Char)) := fun text =>
  (r.first text).map fun m => (m.groups, m.rest)

/-- Every match is replaced by what `render` makes of its groups. -/
def Regex.sub (r : Regex) (render : List (List Char) → List Char) (text : List Char) : List Char :=
  substitute r.step render text

/-! ## Greedy repetitions -/

/-- The longest way. -/
def longest (p : Char → Bool) (most : Option Nat) (text : List Char) : List Char :=
  match most with
  | none => text.takeWhile p
  | some n => (text.take n).takeWhile p

theorem longest_cons_pos {p : Char → Bool} {most : Option Nat} {c : Char} {rest : List Char}
    (h : p c = true ∧ most ≠ some 0) :
    longest p most (c :: rest) = c :: longest p (most.map (· - 1)) rest := by
  obtain ⟨hp, hmost⟩ := h
  cases most with
  | none => exact List.takeWhile_cons_of_pos hp
  | some n =>
    cases n with
    | zero => exact absurd rfl hmost
    | succ n => exact List.takeWhile_cons_of_pos hp

theorem longest_cons_neg {p : Char → Bool} {most : Option Nat} {c : Char} {rest : List Char}
    (h : ¬ (p c = true ∧ most ≠ some 0)) : longest p most (c :: rest) = [] := by
  cases most with
  | none => exact List.takeWhile_cons_of_neg fun hp => h ⟨hp, by simp⟩
  | some n =>
    cases n with
    | zero => rfl
    | succ n => exact List.takeWhile_cons_of_neg fun hp => h ⟨hp, by simp⟩

theorem all_longest {p : Char → Bool} {most : Option Nat} {text : List Char} :
    ∀ c ∈ longest p most text, p c = true := by
  intro c hc
  cases most with
  | none => exact List.mem_takeWhile_imp hc
  | some n => exact List.mem_takeWhile_imp hc

theorem length_longest (p : Char → Bool) (n : Nat) (text : List Char) :
    (longest p (some n) text).length ≤ n :=
  ((List.takeWhile_prefix p).length_le).trans (List.length_take_le n text)

theorem longest_append_drop (p : Char → Bool) (most : Option Nat) (text : List Char) :
    longest p most text ++ text.drop (longest p most text).length = text := by
  have hlongest : longest p most text <+: text := by
    cases most with
    | none => exact List.takeWhile_prefix p
    | some n => exact (List.takeWhile_prefix p).trans (List.take_prefix n text)
  exact (List.prefix_append_drop hlongest).symm

/-- The longest way ends where the next character cannot be taken. -/
theorem longest_append {p : Char → Bool} {n : Nat} {taken : List Char} {c : Char} {rest : List Char}
    (hall : ∀ d ∈ taken, p d = true) (hlength : taken.length ≤ n) (hc : p c = false) :
    longest p (some n) (taken ++ c :: rest) = taken := by
  induction taken generalizing n with
  | nil => exact longest_cons_neg (by simp [hc])
  | cons d taken ih =>
    rw [List.length_cons] at hlength
    have hn : n ≠ 0 := by omega
    rw [List.cons_append, longest_cons_pos ⟨hall d List.mem_cons_self, by simpa using hn⟩]
    have hlength' : taken.length ≤ n - 1 := by omega
    exact congrArg _ (ih (fun e he => hall e (List.mem_cons_of_mem _ he)) hlength')

variable {γ : Type}

/-- Before what cannot start with a repeated symbol, only the longest way counts. -/
theorem runs_greedy {p : Char → Bool} {f : List Char × List Char → List γ}
    (hf : ∀ taken c rest, p c = true → f (taken, c :: rest) = []) (least : Nat) (most : Option Nat)
    (text : List Char) : (runs true p least most text).flatMap f =
      if least ≤ (longest p most text).length then
        f (longest p most text, text.drop (longest p most text).length)
      else [] := by
  induction text generalizing least most f with
  | nil =>
    have hnil : longest p most [] = [] := by cases most <;> simp [longest]
    rw [hnil]
    cases least <;> simp [runs]
  | cons c rest ih =>
    by_cases h : p c = true ∧ most ≠ some 0
    · have hstop : (if least = 0 then [(([] : List Char), c :: rest)] else []).flatMap f = [] := by
        split
        · simp [hf [] c rest h.1]
        · rfl
      have hmore := ih (f := fun r => f (c :: r.1, r.2)) (fun taken c' rest' hc' => hf _ c' rest' hc')
        (least - 1) (most.map (· - 1))
      rw [longest_cons_pos h, runs]
      simp only [if_pos h, if_true, List.flatMap_append, List.flatMap_map]
      rw [hstop, List.append_nil, hmore]
      have hle : (least - 1 ≤ (longest p (most.map (· - 1)) rest).length) ↔
          least ≤ (c :: longest p (most.map (· - 1)) rest).length := by
        rw [List.length_cons]
        omega
      simp only [hle, List.length_cons, List.drop_succ_cons]
    · rw [longest_cons_neg h, runs]
      simp only [if_neg h, if_true, List.nil_append, List.length_nil, List.drop_zero]
      cases least <;> simp

/-- The longest way is tried first. -/
theorem runs_greedy_head {p : Char → Bool} {text : List Char} (least : Nat)
    (h : least ≤ (text.takeWhile p).length) :
    ∃ tail, runs true p least none text = (text.takeWhile p, text.dropWhile p) :: tail := by
  induction text generalizing least with
  | nil =>
    obtain rfl : least = 0 := Nat.le_zero.mp h
    exact ⟨[], rfl⟩
  | cons c rest ih =>
    rw [runs]
    by_cases hp : p c = true
    · rw [List.takeWhile_cons_of_pos hp, List.length_cons] at h
      obtain ⟨tail, htail⟩ := ih (least - 1) (by omega)
      rw [List.takeWhile_cons_of_pos hp, List.dropWhile_cons_of_pos hp]
      simp [hp, htail]
    · rw [List.takeWhile_cons_of_neg hp, List.dropWhile_cons_of_neg hp]
      rw [List.takeWhile_cons_of_neg hp] at h
      obtain rfl : least = 0 := Nat.le_zero.mp h
      simp [hp]

/-- Off a text that can all be taken, the longest way takes everything, and the next one leaves the last
    character. -/
theorem runs_greedy_all {p : Char → Bool} {taken : List Char} {c : Char} (h : ∀ d ∈ taken ++ [c], p d = true)
    {least : Nat} (hleast : least ≤ taken.length) :
    ∃ tail, runs true p least none (taken ++ [c]) = (taken ++ [c], []) :: (taken, [c]) :: tail := by
  induction taken generalizing least with
  | nil =>
    obtain rfl : least = 0 := Nat.le_zero.mp hleast
    exact ⟨[], by simp [runs, h c (by simp)]⟩
  | cons d taken ih =>
    have hleast' : least - 1 ≤ taken.length := by
      rw [List.length_cons] at hleast
      omega
    obtain ⟨tail, htail⟩ := ih (fun e he => h e (List.mem_cons_of_mem _ he)) hleast'
    rw [List.cons_append, runs]
    simp [h d (by simp), htail]

/-! ## Lazy repetitions -/

theorem runs_lazy_cons (p : Char → Bool) (c : Char) (rest : List Char) :
    runs false p 0 none (c :: rest) = ([], c :: rest) ::
      if p c then (runs false p 0 none rest).map (fun r => (c :: r.1, r.2)) else [] := by
  rw [runs]
  by_cases hp : p c = true
  · simp only [hp, ne_eq, reduceCtorEq, not_false_eq_true, and_self, if_true, Bool.false_eq_true, if_false,
      Nat.zero_sub, Option.map_none, List.singleton_append]
  · simp only [hp, false_and, Bool.false_eq_true, if_false, if_true, List.append_nil]

/-- Before a pattern, the first way ends where the pattern first occurs. -/
theorem runs_lazy {p : Char → Bool} {pattern : List Char} (f : List Char → List Char → γ)
    (text : List Char) :
    ((runs false p 0 none text).flatMap fun r => ((dropPattern pattern r.2).map (f r.1)).toList).head? =
      (splitAround pattern text).bind fun parts =>
        if parts.1.all p then some (f parts.1 parts.2) else none := by
  -- on the text: the pattern stands here, or one more symbol is taken
  induction text generalizing f with
  | nil =>
    rw [show runs false p 0 none [] = [([], [])] from rfl, List.flatMap_singleton, splitAround]
    cases h : dropPattern pattern [] with
    | none => rfl
    | some after => rfl
  | cons c rest ih =>
    rw [runs_lazy_cons, List.flatMap_cons]
    cases h : dropPattern pattern (c :: rest) with
    | some after =>
      rw [splitAround_of_some h]
      rfl
    | none =>
      rw [splitAround_cons h]
      have hmore := ih fun taken after => f (c :: taken) after
      cases hp : p c with
      | true =>
        rw [if_pos rfl, List.flatMap_map]
        refine hmore.trans ?_
        cases splitAround pattern rest with
        | none => rfl
        | some parts =>
          show _ = if (c :: parts.1).all p then _ else _
          rw [List.all_cons, hp, Bool.true_and]
          rfl
      | false =>
        cases splitAround pattern rest with
        | none => rfl
        | some parts =>
          show _ = if (c :: parts.1).all p then _ else _
          rw [List.all_cons, hp, Bool.false_and]
          rfl

/-! ## Sequences -/

namespace Regex

variable {r s : Regex} {p : Char → Bool} {text : List Char}

/-- The expression does not match where the character is at the head. -/
def Rejects (r : Regex) (c : Char) : Prop := ∀ rest, r.ways (c :: rest) = []

theorem rejects_literal {x c : Char} {xs : List Char} (h : c ≠ x) : (literal (x :: xs)).Rejects c := by
  intro rest
  rw [ways, dropPattern_cons_ne h]
  rfl

theorem rejects_repeated {greedy : Bool} {least : Nat} {most : Option Nat} {c : Char} (hleast : 0 < least)
    (h : p c = false) : (repeated greedy least most p).Rejects c := by
  intro rest
  have hruns : runs greedy p least most (c :: rest) = [] := by
    have hne : least ≠ 0 := Nat.ne_of_gt hleast
    simp [runs, h, hne]
  rw [ways, hruns]
  rfl

theorem Rejects.seq {c : Char} (h : r.Rejects c) (s : Regex) : (r.seq s).Rejects c := by
  intro rest
  rw [ways, h rest]
  rfl

theorem Rejects.group {c : Char} (h : r.Rejects c) : r.group.Rejects c := by
  intro rest
  rw [ways, h rest]
  rfl

theorem rejects_lineEnd {c : Char} (h : c ≠ '\n') : lineEnd.Rejects c := by
  intro rest
  rw [ways, if_neg (by simp [h])]

/-- The match, as the first of the ways that matter. -/
theorem step_eq_head? : r.step text = ((r.ways text).map fun m => (m.groups, m.rest)).head? := by
  rw [step, first, List.head?_map]

theorem step_literal (pattern : List Char) :
    (literal pattern).step text = (dropPattern pattern text).map fun rest => ([], rest) := by
  rw [step_eq_head?, ways]
  cases dropPattern pattern text <;> rfl

theorem ways_literal_seq (pattern : List Char) : ((literal pattern).seq s).ways text =
    ((dropPattern pattern text).map fun rest =>
      (s.ways rest).map fun m => ⟨pattern ++ m.matched, m.groups, m.rest⟩).getD [] := by
  rw [ways, ways]
  cases dropPattern pattern text with
  | none => rfl
  | some rest => exact List.append_nil _

theorem step_literal_seq (pattern : List Char) :
    ((literal pattern).seq s).step text = (dropPattern pattern text).bind s.step := by
  rw [step_eq_head?, ways_literal_seq]
  cases dropPattern pattern text with
  | none => rfl
  | some rest =>
    rw [Option.map_some, Option.getD_some, List.map_map, Option.bind_some, step_eq_head?]
    rfl

/-- A repetition, before anything: the first way behind which the rest matches. -/
theorem step_repeated_seq (greedy : Bool) (least : Nat) (most : Option Nat) :
    ((repeated greedy least most p).seq s).step text =
      (runs greedy p least most text).findSome? fun r => s.step r.2 := by
  rw [step_eq_head?, ways, ways, List.flatMap_map, List.map_flatMap, List.head?_flatMap]
  congr 1
  funext r
  rw [step_eq_head?, List.map_map]
  rfl

/-- A greedy repetition, before what rejects the repeated characters. -/
theorem step_greedy_seq (least : Nat) (most : Option Nat) (hs : ∀ c, p c = true → s.Rejects c) :
    ((repeated true least most p).seq s).step text =
      if least ≤ (longest p most text).length then s.step (text.drop (longest p most text).length)
      else none := by
  rw [step_eq_head?, ways, ways, List.flatMap_map, runs_greedy]
  · split
    · rw [step_eq_head?, List.map_map]
      rfl
    · rfl
  · intro taken c rest hc
    rw [hs c hc rest]
    rfl

/-- The same in a group of its own. -/
theorem step_group_greedy_seq (least : Nat) (most : Option Nat) (hs : ∀ c, p c = true → s.Rejects c) :
    ((repeated true least most p).group.seq s).step text =
      if least ≤ (longest p most text).length then
        (s.step (text.drop (longest p most text).length)).map fun found =>
          (longest p most text :: found.1, found.2)
      else none := by
  rw [step_eq_head?, ways, ways, ways, List.map_map, List.flatMap_map, runs_greedy]
  · split
    · rw [step_eq_head?, List.map_map, ← List.head?_map, List.map_map]
      rfl
    · rfl
  · intro taken c rest hc
    show (s.ways (c :: rest)).map _ = []
    rw [hs c hc rest]
    rfl

theorem drop_takeWhile (p : Char → Bool) (text : List Char) :
    text.drop (text.takeWhile p).length = text.dropWhile p := by
  have h := @List.drop_left Char (text.takeWhile p) (text.dropWhile p)
  rwa [List.takeWhile_append_dropWhile] at h

/-- An optional repetition takes what it can. -/
theorem step_optional_seq (hs : ∀ c, p c = true → s.Rejects c) :
    ((repeated true 1 none p).optional.seq s).step text = s.step (text.dropWhile p) := by
  have hruns : ((repeated true 1 none p).ways text).flatMap (fun m => (s.ways m.rest).map m.append) =
      if 1 ≤ (text.takeWhile p).length then
        (s.ways (text.dropWhile p)).map (Match.append ⟨text.takeWhile p, [], text.dropWhile p⟩)
      else [] := by
    rw [ways, List.flatMap_map, runs_greedy]
    · show (if 1 ≤ (text.takeWhile p).length then _ else _) = _
      rw [show longest p none text = text.takeWhile p from rfl, drop_takeWhile]
    · intro taken c rest hc
      rw [hs c hc rest]
      rfl
  rw [step_eq_head?, ways, ways, List.flatMap_append, hruns, List.flatMap_singleton, step_eq_head?]
  cases text with
  | nil => rw [if_neg (by simp), List.nil_append, List.map_map]; rfl
  | cons c rest =>
    cases hc : p c with
    | true =>
      -- the way that takes nothing fails
      rw [hs c hc rest, if_pos (by simp [hc]), List.map_nil, List.append_nil, List.map_map]
      rfl
    | false =>
      rw [List.takeWhile_cons_of_neg (by simp [hc]), List.dropWhile_cons_of_neg (by simp [hc]),
        if_neg (by simp), List.nil_append, List.map_map]
      rfl

/-- A lazy repetition in a group of its own, before a pattern. -/
theorem step_lazy (p : Char → Bool) (pattern : List Char) (text : List Char) :
    ((repeated false 0 none p).group.seq (literal pattern)).step text =
      (splitAround pattern text).bind fun parts =>
        if parts.1.all p then some ([parts.1], parts.2) else none := by
  rw [← runs_lazy fun taken after => ([taken], after), step_eq_head?, ways, ways, ways, List.map_map,
    List.flatMap_map, List.map_flatMap]
  congr 2
  funext r
  show (List.map _ ((literal pattern).ways r.2)).map _ = _
  rw [ways]
  cases dropPattern pattern r.2 <;> rfl

/-- The same, of one character at least. -/
theorem step_lazy_cons (p : Char → Bool) (pattern : List Char) (c : Char) (rest : List Char) :
    ((repeated false 1 none p).group.seq (literal pattern)).step (c :: rest) =
      if p c then
        (splitAround pattern rest).bind fun parts =>
          if parts.1.all p then some ([c :: parts.1], parts.2) else none
      else none := by
  have hruns : runs false p 1 none (c :: rest) =
      if p c then (runs false p 0 none rest).map (fun r => (c :: r.1, r.2)) else [] := by
    cases hp : p c <;> simp [runs, hp]
  rw [step_eq_head?, ways, ways, ways, hruns]
  cases p c with
  | false => rfl
  | true =>
    rw [if_pos rfl, if_pos rfl, ← runs_lazy fun taken after => ([c :: taken], after), List.map_map,
      List.map_map, List.flatMap_map, List.map_flatMap]
    congr 2
    funext r
    show (List.map _ ((literal pattern).ways r.2)).map _ = _
    rw [ways]
    cases dropPattern pattern r.2 <;> rfl

end Regex

end Regexes
