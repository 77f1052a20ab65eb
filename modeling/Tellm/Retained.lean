/-
  RETAINED TURNS: what is in a room's history.

  The code keeps a flat vector of items and, beside it, a queue of turn sizes; six operations take, restore,
  clear, extend and drain them.  What they are meant to be is one list of TURNS, each with its items.

  1. **`History.Retains`**: the items are those of the turns, in order, and the queue describes the turns.
  2. **`Longest`**: the longest suffix with a property.  A loop that drops the first element until the
     property holds finds it, since it tries the suffixes from the longest on (`prune_longest`).
  3. **`Recorded`**: every room of a run retains turns that were committed in it, in their order.

  `Recorded` is proved over runs of `roomSys`, with `OwnTokens`: who commits or rolls back shows a token
  that a turn of this room was given.  Every turn in the history was committed, the order of commits is
  kept, and a turn is there with all of its items or not at all; no step makes the queue and the vector
  disagree, which `History.covers` says by construction.

  The size of a turn is the saturating sum of its items' estimates, and the size of a history the
  saturating sum of its turns'.  `withinLimits_iff` replaces both by plain sums where it matters: below
  the limit nothing has saturated.

  A single turn that is over the limit by itself leaves the empty history, the longest suffix that is
  within it; the source behaves so, and the statement includes it.
-/
import Tellm.Generations

namespace Tellm

open Runs

/-! ## Turns -/

/-- `approx_bytes` of a turn. -/
def turnBytes (turnItems : List Value) : Nat :=
  turnItems.foldl (fun total value => saturatingAdd total (approxJsonBytes value)) 0

/-- What the queue says of a turn. -/
def historyTurn (turnItems : List Value) : HistoryTurn := ⟨turnItems.length, turnBytes turnItems⟩

/-- Both limits. -/
structure WithinLimits (turns : List (List Value)) : Prop where
  count : turns.length ≤ maxHistoryTurns
  bytes : (turns.map turnBytes).sum ≤ maxHistoryBytes

/-- The history is that of these turns. -/
structure History.Retains (history : History) (turns : List (List Value)) : Prop where
  items : history.items = turns.flatten
  turns : history.turns = turns.map historyTurn

/-- The longest suffix of `all` with the property. -/
structure Longest {α : Type} (P : List α → Prop) (all kept : List α) : Prop where
  suffix : kept <:+ all
  holds : P kept
  longest : ∀ other, other <:+ all → P other → other.length ≤ kept.length

/-! ## The limits -/

theorem foldl_saturatingAdd (turns : List HistoryTurn) (total : Nat) (htotal : total ≤ usizeMax) :
    turns.foldl (fun total turn => saturatingAdd total turn.approxBytes) total =
      min (total + (turns.map (·.approxBytes)).sum) usizeMax := by
  induction turns generalizing total with
  | nil => simp [htotal]
  | cons turn turns ih =>
    rw [List.foldl_cons, ih (saturatingAdd total turn.approxBytes) (Nat.min_le_right _ _), List.map_cons,
      List.sum_cons, saturatingAdd]
    omega

/-- A sum that saturates is over the limit, and so is the true one. -/
theorem historyBytes_le_iff (turns : List HistoryTurn) :
    historyBytes turns ≤ maxHistoryBytes ↔ (turns.map (·.approxBytes)).sum ≤ maxHistoryBytes := by
  have hlimit : maxHistoryBytes < usizeMax := by decide
  rw [historyBytes, foldl_saturatingAdd turns 0 (Nat.zero_le _)]
  omega

theorem withinLimits_iff (turns : List (List Value)) : WithinLimits turns ↔
    ¬ ((turns.map historyTurn).length > maxHistoryTurns ∨
      historyBytes (turns.map historyTurn) > maxHistoryBytes) := by
  have hbytes : (turns.map historyTurn).map (·.approxBytes) = turns.map turnBytes := by
    rw [List.map_map]
    rfl
  rw [not_or, Nat.not_lt, Nat.not_lt, historyBytes_le_iff, hbytes, List.length_map]
  exact ⟨fun h => ⟨h.count, h.bytes⟩, fun h => ⟨h.1, h.2⟩⟩

theorem withinLimits_nil : WithinLimits [] := ⟨Nat.zero_le _, Nat.zero_le _⟩

/-! ## Pruning -/

namespace Longest

variable {α : Type} {P : List α → Prop} {all kept : List α} {first : α}

theorem self (h : P all) : Longest P all all := ⟨List.suffix_rfl, h, fun _ hsuffix _ => hsuffix.length_le⟩

/-- Where the whole list does not have the property, its first element goes. -/
theorem cons (hnot : ¬ P (first :: all)) (h : Longest P all kept) : Longest P (first :: all) kept where
  suffix := h.suffix.trans (List.suffix_cons _ _)
  holds := h.holds
  longest := by
    intro other hsuffix hother
    rcases List.suffix_cons_iff.mp hsuffix with rfl | hsuffix
    · exact absurd hother hnot
    · exact h.longest other hsuffix hother

end Longest

namespace History

theorem retains_empty : History.empty.Retains [] := ⟨rfl, rfl⟩

/-- **The pruning loop** leaves the longest suffix of the turns that is within the limits. -/
theorem prune_longest : ∀ (turns : List (List Value)) (covers),
    ∃ kept, Longest WithinLimits turns kept ∧
    (prune (turns.map historyTurn) turns.flatten covers).Retains kept
  | [], _ => ⟨[], Longest.self withinLimits_nil, rfl, rfl⟩
  | turn :: turns, covers => by
    have hlimits := withinLimits_iff (turn :: turns)
    rw [List.map_cons] at hlimits
    simp only [List.map_cons, prune]
    split
    · rename_i hover
      -- the oldest turn goes, with exactly its items
      have hdrop : (turn :: turns).flatten.drop (historyTurn turn).itemCount = turns.flatten :=
        List.drop_left
      have hcovers : ((turns.map historyTurn).map (·.itemCount)).sum = turns.flatten.length := by
        rw [List.map_map, List.length_flatten]
        rfl
      obtain ⟨kept, hlongest, hretains⟩ := prune_longest turns hcovers
      refine ⟨kept, hlongest.cons fun h => (hlimits.mp h) hover, ?_⟩
      simp only [hdrop]
      exact hretains
    · rename_i hwithin
      exact ⟨turn :: turns, Longest.self (hlimits.mpr hwithin), rfl, rfl⟩

/-- What a turn leaves of the turns before it and itself. -/
theorem Retains.pushTurn {self : History} {turns : List (List Value)} (h : self.Retains turns)
    (turnItems : List Value) : ∃ kept, Longest WithinLimits (turns ++ [turnItems]) kept ∧
      (self.pushTurn turnItems).Retains kept := by
  have hturns : self.turns ++ [historyTurn turnItems] = (turns ++ [turnItems]).map historyTurn := by
    rw [h.turns, List.map_append, List.map_singleton]
  have hitems : self.items ++ turnItems = (turns ++ [turnItems]).flatten := by
    rw [h.items, List.flatten_append, List.flatten_singleton]
  have hcovers : (((turns ++ [turnItems]).map historyTurn).map (·.itemCount)).sum =
      (turns ++ [turnItems]).flatten.length := by
    rw [List.map_map, List.length_flatten]
    rfl
  obtain ⟨kept, hlongest, hretains⟩ := prune_longest (turns ++ [turnItems]) hcovers
  refine ⟨kept, hlongest, ?_⟩
  have hpush : self.pushTurn turnItems =
      prune ((turns ++ [turnItems]).map historyTurn) (turns ++ [turnItems]).flatten hcovers := by
    unfold History.pushTurn
    simp only [← hturns, ← hitems]
    rfl
  rw [hpush]
  exact hretains

end History

/-! ## Every run -/

/-- The turns that the history's steps committed, oldest first. -/
def committedTurns (h : RoomHistory) : List (List Value) := h.reverse.filterMap fun x => x.1.commits x.2

/-- Every token of a failed turn is one that an earlier `begin_turn` of the run returned, with the generation
    that it left. -/
def OwnTokens : RoomHistory → Prop
  | [] => True
  | (_, .restoreFailedTurn expected rollback) :: h =>
    (∃ m wireFormat, (m, RoomOp.beginTurn wireFormat) ∈ h ∧
      expected = (m.beginTurn wireFormat).1.generation ∧ rollback = (m.beginTurn wireFormat).2.rollback) ∧
    OwnTokens h
  | _ :: h => OwnTokens h

/-- The history is that of turns that were committed, in their order, within both limits. -/
def Recorded (committed : List (List Value)) (history : History) : Prop :=
  ∃ turns : List (List Value), turns.Sublist committed ∧ history.Retains turns ∧ WithinLimits turns

theorem committedTurns_cons (x : RoomState × RoomOp) (h : RoomHistory) :
    committedTurns (x :: h) = committedTurns h ++ (x.1.commits x.2).toList := by
  rw [committedTurns, List.reverse_cons, List.filterMap_append]
  cases hcommit : x.1.commits x.2 <;> simp [hcommit, committedTurns]

theorem OwnTokens.tail {x : RoomState × RoomOp} {h : RoomHistory} (hown : OwnTokens (x :: h)) :
    OwnTokens h := by
  unfold OwnTokens at hown
  split at hown
  · trivial
  · rename_i heq
    obtain ⟨-, rfl⟩ := List.cons.inj heq
    exact hown.2
  · rename_i heq
    obtain ⟨-, rfl⟩ := List.cons.inj heq
    exact hown

section

variable {committed more : List (List Value)} {history : History} {turnItems : List Value}

theorem Recorded.empty : Recorded committed .empty :=
  ⟨[], List.nil_sublist _, History.retains_empty, withinLimits_nil⟩

/-- What was committed before still is. -/
theorem Recorded.later (h : Recorded committed history) : Recorded (committed ++ more) history := by
  obtain ⟨turns, hsublist, hretains, hlimits⟩ := h
  exact ⟨turns, hsublist.trans (List.sublist_append_left _ _), hretains, hlimits⟩

theorem Recorded.pushTurn (h : Recorded committed history) :
    Recorded (committed ++ [turnItems]) (history.pushTurn turnItems) := by
  obtain ⟨turns, hsublist, hretains, -⟩ := h
  obtain ⟨kept, hlongest, hkept⟩ := hretains.pushTurn turnItems
  exact ⟨kept, hlongest.suffix.sublist.trans (hsublist.append_right _), hkept, hlongest.holds⟩

theorem Recorded.commit (h : Recorded committed history) (mode : ChatMode) :
    Recorded (committed ++ [turnItems]) (history.commit mode turnItems) := by
  cases mode with
  | chat => exact h.pushTurn
  | message => exact Recorded.empty.pushTurn

theorem Recorded.appendTurn {self : RoomState} (h : Recorded committed self.history)
    (wireFormat : WireFormat) :
    Recorded (committed ++ [turnItems]) (self.appendTurn wireFormat turnItems).history := by
  unfold RoomState.appendTurn
  dsimp only
  split
  · exact Recorded.empty.commit _
  · exact h.commit _

end

/-- **One operation**; the token of a failed turn holds the history of an earlier room. -/
theorem Recorded.apply {committed : List (List Value)} {self : RoomState}
    (h : Recorded committed self.history) (op : RoomOp)
    (htoken : ∀ expected rollback, op = .restoreFailedTurn expected (some rollback) →
      Recorded committed rollback.history) :
    Recorded (committed ++ (self.commits op).toList) (self.apply op).history := by
  -- a commit adds its turn, a token brings back what was recorded before, the rest drops or keeps
  cases op with
  | beginTurn wireFormat =>
    show Recorded _ (self.beginTurn wireFormat).1.history
    unfold RoomState.beginTurn
    split
    · exact Recorded.empty
    · exact h.later
  | appendTurn wireFormat turnItems => exact h.appendTurn wireFormat
  | appendTurnIfGeneration expected wireFormat turnItems =>
    show Recorded _ (self.appendTurnIfGeneration expected wireFormat turnItems).1.history
    rw [RoomState.appendTurnIfGeneration, RoomState.commits]
    by_cases hgeneration : self.generation = expected
    · rw [if_neg (not_not.mpr hgeneration), if_pos hgeneration]
      exact h.appendTurn wireFormat
    · rw [if_pos hgeneration]
      exact h.later
  | restoreFailedTurn expected rollback =>
    show Recorded _ (self.restoreFailedTurn expected rollback).1.history
    unfold RoomState.restoreFailedTurn
    split
    · exact h.later
    · cases rollback with
      | none => exact h.later
      | some rollback => exact (htoken expected rollback rfl).later
  | resetHistory => exact Recorded.empty
  | resetRoomModelContext => exact Recorded.empty
  | setSettings settings => exact h.later

/-- Every room of the run, the earlier ones included. -/
theorem recorded_path {settings : RoomSettings} {s : RoomState} {h : RoomHistory}
    (p : Path roomSys (.new settings) h s) :
    OwnTokens h → Recorded (committedTurns h) s.history ∧ ∀ x ∈ h,
        Recorded (committedTurns h) x.1.history := by
  induction p with
  | start => exact fun _ => ⟨Recorded.empty, fun _ hmem => absurd hmem List.not_mem_nil⟩
  | @step h s s' op p hs ih =>
    intro hown
    obtain ⟨hnow, hbefore⟩ := ih hown.tail
    cases hs
    rw [committedTurns_cons]
    refine ⟨hnow.apply op ?_, List.forall_mem_cons.mpr ⟨hnow.later, fun x hmem => (hbefore x hmem).later⟩⟩
    rintro expected rollback rfl
    obtain ⟨⟨m, wireFormat, hmem, -, hrollback⟩, -⟩ := hown
    unfold RoomState.beginTurn at hrollback
    split at hrollback
    · cases hrollback
      exact hbefore _ hmem
    · cases hrollback

/-- **A room's history** is that of turns committed in it, whole and in order, within both limits; and a
    commit leaves the longest suffix of them and the new turn, or in message mode of the new turn, that is
    within them. -/
theorem history_longest {settings : RoomSettings} {s : RoomState} {h : RoomHistory}
    (p : Path roomSys (.new settings) h s) (hown : OwnTokens h) :
    ∃ turns : List (List Value), turns.Sublist (committedTurns h) ∧ s.history.Retains turns ∧
      WithinLimits turns ∧
      (s.history.turns.map (·.itemCount)).sum = s.history.items.length ∧
      ∀ wireFormat turnItems,
        (s.settings.mode = .chat → s.wireFormat = some wireFormat →
          ∃ kept, Longest WithinLimits (turns ++ [turnItems]) kept ∧
            (s.appendTurn wireFormat turnItems).history.Retains kept) ∧
        (s.settings.mode = .message →
          ∃ kept, Longest WithinLimits [turnItems] kept ∧
            (s.appendTurn wireFormat turnItems).history.Retains kept) := by
  obtain ⟨turns, hsublist, hretains, hlimits⟩ := (recorded_path p hown).1
  refine ⟨turns, hsublist, hretains, hlimits, s.history.covers, fun wireFormat turnItems => ⟨?_, ?_⟩⟩
  · -- in chat mode the turn is pushed onto the turns that are kept
    intro hmode hwire
    obtain ⟨kept, hlongest, hkept⟩ := hretains.pushTurn turnItems
    refine ⟨kept, hlongest, ?_⟩
    rw [RoomState.appendTurn_same hwire, hmode]
    exact hkept
  · -- in message mode onto an empty history, whether or not the wire format changes
    intro hmode
    obtain ⟨kept, hlongest, hkept⟩ := History.retains_empty.pushTurn turnItems
    refine ⟨kept, hlongest, ?_⟩
    unfold RoomState.appendTurn
    dsimp only
    split
    · show ((RoomState.invalidateHistory { s with wireFormat := some wireFormat }).history.commit
        s.settings.mode turnItems).Retains kept
      rw [hmode]
      exact hkept
    · rw [hmode]
      exact hkept

/-- A turn is committed; the next one changes the wire format and fails, and its token brings the turn
    back. -/
theorem history_longest_restored :
    ∃ (s : RoomState) (h : RoomHistory), Path roomSys (.new {}) h s ∧ s.history.items = [.null] ∧
      ∃ turns : List (List Value), turns.Sublist [[.null]] ∧ s.history.Retains turns ∧ WithinLimits turns ∧
        (s.history.turns.map (·.itemCount)).sum = s.history.items.length ∧
        ∀ wireFormat turnItems,
          (s.settings.mode = .chat → s.wireFormat = some wireFormat →
            ∃ kept, Longest WithinLimits (turns ++ [turnItems]) kept ∧
              (s.appendTurn wireFormat turnItems).history.Retains kept) ∧
          (s.settings.mode = .message →
            ∃ kept, Longest WithinLimits [turnItems] kept ∧
              (s.appendTurn wireFormat turnItems).history.Retains kept) := by
  let begun := ((RoomState.new {}).beginTurn .gemini).1
  let committed := begun.apply (.appendTurnIfGeneration 1 .gemini [.null])
  let next := committed.beginTurn .anthropic
  have p : Path roomSys (.new {})
    [(next.1, .restoreFailedTurn 2 next.2.rollback), (committed, .beginTurn .anthropic),
      (begun, .appendTurnIfGeneration 1 .gemini [.null]), (.new {}, .beginTurn .gemini)]
      (next.1.apply (.restoreFailedTurn 2 next.2.rollback)) :=
    .step (.step (.step (.step .start rfl) rfl) rfl) rfl
  exact ⟨_, _, p, rfl, history_longest p ⟨⟨committed, .anthropic, List.mem_cons_self, rfl, rfl⟩, trivial⟩⟩

end Tellm
