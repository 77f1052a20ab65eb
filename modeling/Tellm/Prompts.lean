/-
  PROMPTS: the one slot for a secret prompt in the terminal.

  A worker reserves the slot under the secret's name, with the sender of a fresh channel in it; its guard
  clears the slot when the prompt ends, however it ends.  The terminal thread clones what is in the slot,
  sends the line, and clears the slot itself if nobody receives.  Both clear BY NAME.  A channel is known here
  by the prompt that made it.

  1. **The model**: the prompts' own steps, the steps of the terminal thread, `PromptState.step`.
  2. **`Steps`**: what a step does to the slot, the prompts and the thread.
  3. **`Outstanding`**: a step is left that clears the slot by this name.  As long as nothing is reserved
     under a name that has one, whoever may clear the slot is who is in it (`PromptInv`).
  4. **`slot_released_when`**: then every release is the reservation's own; and a reservation under a name
     with a step outstanding has a continuation in which that step clears it.

  Each prompt has its own life: it reserves the slot, tells the chat, waits for a line or for its time to
  be up, and drops its guard; its worker may be aborted at any of these points.  The terminal thread has
  its own too: it reads a line, looks at the slot, sends, and clears if the send fails.  Between any two
  of these the other may go on, and new prompts may be reserved under the same secret's name or another.

  Two reservations are never in the slot at once, and that holds of every run.  What may fail is that a
  release is the reservation's OWN: the guard of an earlier prompt, or the thread's clearing after a
  failed send, names the secret and not the prompt.  `OwnAccount` says whose release it was, `Outstanding`
  who could still do it to another; the condition on a reservation is that nobody could, and it is shown
  to be exact.
-/
import Tellm.Lib.Runs
import Tellm.Text

namespace Tellm

open Text Runs

/-! ## What a line is to a prompt -/

section

variable {Destination : Type}

/-- `PromptedSecret`: what a line at the prompt comes to. -/
inductive PromptedSecret (Destination : Type)
  | stored (destination : Destination)
  | skipped
  | retry (message : String)

/-- `is_terminal_command_word`. -/
def isTerminalCommandWord (value : List Char) : Bool :=
  ["reset", "exit", "quit"].contains (toAsciiLowercase (String.ofList (trim value)))

/-- `store_prompted_secret`; `setNonempty` is `secrets::set_nonempty` of a value that is not empty. -/
def storePromptedSecret (setNonempty : String → List Char → Except String Destination) (secretName : String)
    (value : List Char) : Except String (PromptedSecret Destination) :=
  let value := trim value
  if value.isEmpty then .ok .skipped
  else if isTerminalCommandWord value then
    .ok (.retry ("That looks like a terminal command, not an API key. It was not stored. " ++
      "Enter the key, or press Enter to skip."))
  else (setNonempty secretName value).map .stored

/-! ## Prompts -/

/-- What `prompt_and_store_secret` returns. -/
abbrev PromptResult (Destination : Type) := Except String (Option Destination)

/-- Where `prompt_and_store_secret` stands once it has its reservation. -/
inductive PromptStage (Destination : Type)
  /-- The notice is being sent. -/
  | notifying
  | waiting
  /-- It returns, or its future is dropped (`none`); `_guard` is dropped first. -/
  | leaving (result : Option (PromptResult Destination))
  /-- `lines` is dropped next. -/
  | guardDropped (result : Option (PromptResult Destination))
  | gone (result : Option (PromptResult Destination))

/-- A prompt with its task: the receiver of its lines, and how far it has come. -/
structure Prompt (Destination : Type) where
  secretName : String
  stage : PromptStage Destination
  /-- What has been sent to `lines` and not received. -/
  lines : List (List Char)

namespace Prompt

/-- The guard still has to clear the slot. -/
def Guarded (self : Prompt Destination) : Prop :=
  match self.stage with
  | .notifying | .waiting | .leaving _ => True
  | .guardDropped _ | .gone _ => False

/-- `lines` has not been dropped. -/
def receives (self : Prompt Destination) : Bool :=
  match self.stage with
  | .gone _ => false
  | _ => true

/-- `send_command_reply(…).await?`. -/
def notified (self : Prompt Destination) (sent : Except String Unit) : Option (Prompt Destination) :=
  match self.stage with
  | .notifying =>
    match sent with
    | .ok () => some { self with stage := .waiting }
    | .error error => some { self with stage := .leaving (some (.error error)) }
  | _ => none

/-- A pass of the loop that receives a line. -/
def receive (self : Prompt Destination) (setNonempty : String → List Char → Except String Destination) :
    Option (Prompt Destination) :=
  match self.stage, self.lines with
  | .waiting, line :: lines =>
    match storePromptedSecret setNonempty self.secretName line with
    | .ok (.stored destination) =>
      some { self with stage := .leaving (some (.ok (some destination))), lines := lines }
    | .ok .skipped => some { self with stage := .leaving (some (.ok none)), lines := lines }
    | .ok (.retry _) => some { self with lines := lines }
    | .error error => some { self with stage := .leaving (some (.error error)), lines := lines }
  | _, _ => none

/-- The timeout. -/
def expire (self : Prompt Destination) : Option (Prompt Destination) :=
  match self.stage with
  | .waiting =>
    some { self with stage := .leaving (some (.error "terminal prompt expired; run /model add again")) }
  | _ => none

/-- `lines.recv()` is `None`: every line is received, and every sender dropped. -/
def inputClosed (self : Prompt Destination) : Option (Prompt Destination) :=
  match self.stage, self.lines with
  | .waiting, [] =>
    some { self with stage := .leaving (some (.error "terminal input closed before a value was entered")) }
  | _, _ => none

/-- The worker's task is aborted while the prompt is at an await. -/
def abandon (self : Prompt Destination) : Option (Prompt Destination) :=
  match self.stage with
  | .notifying | .waiting => some { self with stage := .leaving none }
  | _ => none

/-- What the guard's drop is to the prompt. -/
def dropGuard (self : Prompt Destination) : Option (Prompt Destination) :=
  match self.stage with
  | .leaving result => some { self with stage := .guardDropped result }
  | _ => none

/-- The receiver goes, and with it the lines that were not received. -/
def dropLines (self : Prompt Destination) : Option (Prompt Destination) :=
  match self.stage with
  | .guardDropped result => some { self with stage := .gone result, lines := [] }
  | _ => none

end Prompt

/-! ## The terminal thread and the slot -/

/-- What the slot holds; `lineTx` is the sender of that prompt's channel. -/
structure TerminalSecretPrompt where
  secretName : String
  lineTx : Nat
  deriving DecidableEq

/-- `TerminalCommand`. -/
inductive TerminalCommand
  | reset
  | shutdown

/-- Where the thread of `spawn_terminal_controls` stands. -/
inductive TerminalStage
  | reading
  /-- It has cloned the current prompt, and sends the line next. -/
  | cloned (prompt : TerminalSecretPrompt) (line : List Char)
  /-- The send has failed, and it clears the slot next. -/
  | unsent (prompt : TerminalSecretPrompt)
  /-- It is out of its loop, and takes the slot next. -/
  | closing
  | ended

/-- The slot with the active prompt, the prompts, and the terminal thread. -/
structure PromptState (Destination : Type) where
  slot : Option TerminalSecretPrompt
  prompts : List (Prompt Destination)
  terminal : TerminalStage
  /-- What the thread has sent to the runtime. -/
  commands : List TerminalCommand

/-- A step of a prompt's task, or of the terminal thread. -/
inductive PromptEvent (Destination : Type)
  | reserve (secretName : String)
  | notified (prompt : Nat) (sent : Except String Unit)
  | receive (prompt : Nat) (setNonempty : String → List Char → Except String Destination)
  | expire (prompt : Nat)
  | inputClosed (prompt : Nat)
  | abandon (prompt : Nat)
  | dropGuard (prompt : Nat)
  | dropLines (prompt : Nat)
  /-- The thread reads a line, and looks at the slot. -/
  | readLine (line : List Char)
  | readError
  | send
  | clear
  | endOfInput
  | take

/-- `clear_terminal_secret_prompt`. -/
def clearTerminalSecretPrompt (slot : Option TerminalSecretPrompt) (secretName : String) :
    Option TerminalSecretPrompt :=
  if slot.any (·.secretName == secretName) then none else slot

namespace PromptState

/-- No prompt, and the thread reads. -/
def start : PromptState Destination := ⟨none, [], .reading, []⟩

/-- `reserve_terminal_secret_prompt`. -/
def reserve (self : PromptState Destination) (secretName : String) :
    Except String (PromptState Destination) :=
  if self.slot.isSome then .error "another terminal prompt is already waiting; complete it first"
  else .ok { self with
    slot := some ⟨secretName, self.prompts.length⟩
    prompts := self.prompts ++ [⟨secretName, .notifying, []⟩] }

/-- A step of one prompt. -/
def update (self : PromptState Destination) (prompt : Nat)
    (f : Prompt Destination → Option (Prompt Destination)) :
    Option (PromptState Destination) :=
  match self.prompts[prompt]? with
  | none => none
  | some current => (f current).map fun next => { self with prompts := self.prompts.set prompt next }

/-- A sender of the prompt's channel exists: in the slot, or in the thread's hands. -/
def hasSender (self : PromptState Destination) (prompt : Nat) : Bool :=
  self.slot.any (·.lineTx == prompt) ||
    match self.terminal with
    | .cloned current _ | .unsent current => current.lineTx == prompt
    | _ => false

/-- A line read while no prompt is in the slot. -/
def command (self : PromptState Destination) (line : List Char) : PromptState Destination :=
  let word := toAsciiLowercase (String.ofList (trim line))
  if word = "reset" then { self with commands := self.commands ++ [.reset] }
  else if word = "exit" ∨ word = "quit" then
    { self with commands := self.commands ++ [.shutdown], terminal := .closing }
  else self

/-- `prompt.line_tx.send(line)`, which fails if the channel's receiver is gone. -/
def send (self : PromptState Destination) (prompt : TerminalSecretPrompt) (line : List Char) :
    PromptState Destination :=
  match self.prompts[prompt.lineTx]? with
  | none => { self with terminal := .unsent prompt }
  | some current =>
    if current.receives then
      { self with
        prompts := self.prompts.set prompt.lineTx { current with lines := current.lines ++ [line] }
        terminal := .reading }
    else { self with terminal := .unsent prompt }

/-- One step, whoever makes it. -/
def step (self : PromptState Destination) : PromptEvent Destination → Option (PromptState Destination)
  | .reserve secretName =>
    match self.reserve secretName with
    | .ok next => some next
    | .error _ => some self
  | .notified prompt sent => self.update prompt (·.notified sent)
  | .receive prompt setNonempty => self.update prompt (·.receive setNonempty)
  | .expire prompt => self.update prompt (·.expire)
  | .inputClosed prompt => if self.hasSender prompt then none else self.update prompt (·.inputClosed)
  | .abandon prompt => self.update prompt (·.abandon)
  | .dropGuard prompt =>
    match self.prompts[prompt]? with
    | none => none
    | some current => current.dropGuard.map fun next =>
        { self with
          slot := clearTerminalSecretPrompt self.slot current.secretName
          prompts := self.prompts.set prompt next }
  | .dropLines prompt => self.update prompt (·.dropLines)
  | .readLine line =>
    match self.terminal, self.slot with
    | .reading, some prompt => some { self with terminal := .cloned prompt line }
    | .reading, none => some (self.command line)
    | _, _ => none
  | .readError =>
    match self.terminal with
    | .reading => some self
    | _ => none
  | .send =>
    match self.terminal with
    | .cloned prompt line => some (self.send prompt line)
    | _ => none
  | .clear =>
    match self.terminal with
    | .unsent prompt =>
      some { self with slot := clearTerminalSecretPrompt self.slot prompt.secretName, terminal := .reading }
    | _ => none
  | .endOfInput =>
    match self.terminal with
    | .reading => some { self with terminal := .closing }
    | _ => none
  | .take =>
    match self.terminal with
    | .closing => some { self with slot := none, terminal := .ended }
    | _ => none

end PromptState

/-- The prompts and the terminal as a system. -/
def promptSys : Sys (PromptState Destination) (PromptEvent Destination) where
  step := PromptState.step

/-! ## What a step does -/

variable {s s' : PromptState Destination} {e : PromptEvent Destination}

/-- The clear after a failed send is by the name of the prompt that it was for. -/
theorem PromptState.step_clear {other : TerminalSecretPrompt} (hunsent : s.terminal = .unsent other) :
    s.step .clear = some { s with
      slot := clearTerminalSecretPrompt s.slot other.secretName
      terminal := .reading } := by
  simp only [PromptState.step, hunsent]

/-- What a step of its own makes of a prompt that keeps its guard. -/
structure Prompt.Kept (current next : Prompt Destination) : Prop where
  secretName : next.secretName = current.secretName
  guarded : next.Guarded → current.Guarded

namespace Prompt

variable {current next : Prompt Destination}

theorem kept_notified {sent : Except String Unit} (h : current.notified sent = some next) :
    current.Kept next := by
  unfold notified at h
  split at h
  · rename_i hstage
    have hguarded : current.Guarded := by rw [Guarded, hstage]; trivial
    split at h <;> cases h <;> exact ⟨rfl, fun _ => hguarded⟩
  · cases h

theorem kept_receive {setNonempty : String → List Char → Except String Destination}
    (h : current.receive setNonempty = some next) : current.Kept next := by
  unfold receive at h
  split at h
  · rename_i hstage _
    have hguarded : current.Guarded := by rw [Guarded, hstage]; trivial
    split at h <;> cases h <;> exact ⟨rfl, fun _ => hguarded⟩
  · cases h

theorem kept_expire (h : current.expire = some next) : current.Kept next := by
  unfold expire at h
  split at h
  · rename_i hstage
    cases h
    exact ⟨rfl, fun _ => by rw [Guarded, hstage]; trivial⟩
  · cases h

theorem kept_inputClosed (h : current.inputClosed = some next) : current.Kept next := by
  unfold inputClosed at h
  split at h
  · rename_i hstage _
    cases h
    exact ⟨rfl, fun _ => by rw [Guarded, hstage]; trivial⟩
  · cases h

theorem kept_abandon (h : current.abandon = some next) : current.Kept next := by
  unfold abandon at h
  split at h
  · rename_i hstage
    cases h
    exact ⟨rfl, fun _ => by rw [Guarded, hstage]; trivial⟩
  · rename_i hstage
    cases h
    exact ⟨rfl, fun _ => by rw [Guarded, hstage]; trivial⟩
  · cases h

theorem kept_dropLines (h : current.dropLines = some next) : current.Kept next := by
  unfold dropLines at h
  split at h
  · cases h
    exact ⟨rfl, fun hguarded => hguarded.elim⟩
  · cases h

theorem dropGuard_eq_some (h : current.dropGuard = some next) :
    current.Guarded ∧ next.secretName = current.secretName ∧ ¬ next.Guarded := by
  unfold dropGuard at h
  split at h
  · rename_i hstage
    cases h
    exact ⟨by rw [Guarded, hstage]; trivial, rfl, fun hguarded => hguarded⟩
  · cases h

end Prompt

/-- What a step does to the slot, the prompts and the thread. -/
inductive PromptSteps (s : PromptState Destination) : PromptEvent Destination → PromptState Destination → Prop
  | refused {secretName} : s.slot ≠ none → PromptSteps s (.reserve secretName) s
  | reserved {secretName} : s.slot = none → PromptSteps s (.reserve secretName)
      { s with
        slot := some ⟨secretName, s.prompts.length⟩
        prompts := s.prompts ++ [⟨secretName, .notifying, []⟩] }
  /-- A prompt's own step, or a line that reaches it; the thread then has nothing in its hands. -/
  | prompt {e i current next terminal} : s.prompts[i]? = some current → current.Kept next →
      terminal = s.terminal ∨ terminal = .reading →
      PromptSteps s e { s with prompts := s.prompts.set i next, terminal := terminal }
  | guard {i current next} : s.prompts[i]? = some current → current.Guarded →
      next.secretName = current.secretName → ¬ next.Guarded →
      PromptSteps s (.dropGuard i)
        { s with
          slot := clearTerminalSecretPrompt s.slot current.secretName
          prompts := s.prompts.set i next }
  | cloned {line prompt} : s.slot = some prompt →
      PromptSteps s (.readLine line) { s with terminal := .cloned prompt line }
  /-- A step of the thread alone, with nothing in its hands after it. -/
  | thread {e terminal commands} : terminal = .reading ∨ terminal = .closing →
      PromptSteps s e { s with terminal := terminal, commands := commands }
  | unsent {prompt line} : s.terminal = .cloned prompt line →
      PromptSteps s .send { s with terminal := .unsent prompt }
  | cleared {prompt} : s.terminal = .unsent prompt →
      PromptSteps s .clear
        { s with slot := clearTerminalSecretPrompt s.slot prompt.secretName, terminal := .reading }
  | taken : PromptSteps s .take { s with slot := none, terminal := .ended }

theorem PromptState.update_eq_some {i : Nat} {f : Prompt Destination → Option (Prompt Destination)}
    (hf : ∀ {current next : Prompt Destination}, f current = some next → current.Kept next)
    (h : s.update i f = some s') : PromptSteps s e s' := by
  unfold PromptState.update at h
  split at h
  · cases h
  · rename_i current hcurrent
    obtain ⟨next, hnext, rfl⟩ := Option.map_eq_some_iff.mp h
    exact .prompt hcurrent (hf hnext) (Or.inl rfl)

theorem promptSteps_of_step (h : s.step e = some s') : PromptSteps s e s' := by
  unfold PromptState.step at h
  cases e with
  | reserve secretName =>
    unfold PromptState.reserve at h
    cases hslot : s.slot with
    | none =>
      rw [hslot] at h
      cases h
      exact .reserved hslot
    | some prompt =>
      rw [hslot] at h
      cases h
      exact .refused (by rw [hslot]; exact Option.some_ne_none prompt)
  | notified i sent => exact PromptState.update_eq_some Prompt.kept_notified h
  | receive i setNonempty => exact PromptState.update_eq_some Prompt.kept_receive h
  | expire i => exact PromptState.update_eq_some Prompt.kept_expire h
  | inputClosed i =>
    dsimp only at h
    split at h
    · cases h
    · exact PromptState.update_eq_some Prompt.kept_inputClosed h
  | abandon i => exact PromptState.update_eq_some Prompt.kept_abandon h
  | dropGuard i =>
    dsimp only at h
    split at h
    · cases h
    · rename_i current hcurrent
      obtain ⟨next, hnext, rfl⟩ := Option.map_eq_some_iff.mp h
      obtain ⟨hguarded, hname, hdropped⟩ := Prompt.dropGuard_eq_some hnext
      exact .guard hcurrent hguarded hname hdropped
  | dropLines i => exact PromptState.update_eq_some Prompt.kept_dropLines h
  | readLine line =>
    dsimp only at h
    split at h
    · rename_i hslot
      cases h
      exact .cloned hslot
    · rename_i hreading _
      cases h
      unfold PromptState.command
      dsimp only
      split
      · exact .thread (Or.inl hreading)
      · split
        · exact .thread (Or.inr rfl)
        · exact .thread (Or.inl hreading)
    · cases h
  | readError =>
    dsimp only at h
    split at h
    · rename_i hreading
      cases h
      exact .thread (Or.inl hreading)
    · cases h
  | send =>
    dsimp only at h
    split at h
    · rename_i prompt line hcloned
      cases h
      unfold PromptState.send
      split
      · exact .unsent hcloned
      · rename_i current hcurrent
        split
        · exact .prompt hcurrent ⟨rfl, fun h => h⟩ (Or.inr rfl)
        · exact .unsent hcloned
    · cases h
  | clear =>
    dsimp only at h
    split at h
    · rename_i prompt hunsent
      cases h
      exact .cleared hunsent
    · cases h
  | endOfInput =>
    dsimp only at h
    split at h
    · cases h
      exact .thread (Or.inr rfl)
    · cases h
  | take =>
    dsimp only at h
    split at h
    · cases h
      exact .taken
    · cases h

/-! ## Steps that are left to clear the slot -/

/-- Prompt `i` still has a step to come that clears the slot by the name: its guard's drop, or the clear that
    follows a failed send to it. -/
inductive Leftover (s : PromptState Destination) : Nat → String → Prop
  | guard {i current} : s.prompts[i]? = some current → current.Guarded → Leftover s i current.secretName
  | cloned {prompt line} : s.terminal = .cloned prompt line → Leftover s prompt.lineTx prompt.secretName
  | unsent {prompt} : s.terminal = .unsent prompt → Leftover s prompt.lineTx prompt.secretName

/-- Some earlier prompt still has a step to come that clears the slot by this name. -/
def Outstanding (s : PromptState Destination) (secretName : String) : Prop := ∃ i, Leftover s i secretName

/-- Who is cleared by a name has it. -/
theorem clear_cases (slot : Option TerminalSecretPrompt) (secretName : String) :
    clearTerminalSecretPrompt slot secretName = slot ∨
      (clearTerminalSecretPrompt slot secretName = none ∧
        ∀ prompt, slot = some prompt → prompt.secretName = secretName) := by
  unfold clearTerminalSecretPrompt
  split
  · rename_i hname
    refine Or.inr ⟨rfl, ?_⟩
    rintro prompt rfl
    exact beq_iff_eq.mp hname
  · exact Or.inl rfl

theorem clear_self (prompt : TerminalSecretPrompt) :
    clearTerminalSecretPrompt (some prompt) prompt.secretName = none :=
  if_pos (beq_self_eq_true prompt.secretName)

/-- **What is left after a step** was left before it, or comes of a reservation, or of a clone of the slot. -/
theorem PromptSteps.leftover (h : PromptSteps s e s') {i : Nat} {secretName : String}
    (hleft : Leftover s' i secretName) :
    Leftover s i secretName ∨ (e = .reserve secretName ∧ s.slot = none ∧ i = s.prompts.length) ∨
      s.slot = some ⟨secretName, i⟩ := by
  -- a prompt that is guarded after a step of its own was guarded before it
  have hprompts : ∀ {j current next}, s.prompts[j]? = some current → current.Kept next →
      ∀ {k other}, (s.prompts.set j next)[k]? = some other → other.Guarded →
      Leftover s k other.secretName := by
    intro j current next hcurrent hkept k other hother hguarded
    rcases getElem?_set_cases hother with ⟨rfl, rfl⟩ | hother
    · rw [hkept.secretName]
      exact .guard hcurrent (hkept.guarded hguarded)
    · exact .guard hother hguarded
  cases h with
  | refused => exact Or.inl hleft
  | reserved hslot =>
    cases hleft with
    | guard hother hguarded =>
      rcases getElem?_concat_cases hother with ⟨rfl, rfl⟩ | hother
      · exact Or.inr (Or.inl ⟨rfl, hslot, rfl⟩)
      · exact Or.inl (.guard hother hguarded)
    | cloned hterminal => exact Or.inl (.cloned hterminal)
    | unsent hterminal => exact Or.inl (.unsent hterminal)
  | prompt hcurrent hkept hterminal =>
    cases hleft with
    | guard hother hguarded => exact Or.inl (hprompts hcurrent hkept hother hguarded)
    | cloned hcloned =>
      rcases hterminal with hterminal | hterminal <;> rw [hterminal] at hcloned
      · exact Or.inl (.cloned hcloned)
      · cases hcloned
    | unsent hunsent =>
      rcases hterminal with hterminal | hterminal <;> rw [hterminal] at hunsent
      · exact Or.inl (.unsent hunsent)
      · cases hunsent
  | guard hcurrent hguarded hname hdropped =>
    cases hleft with
    | guard hother hguarded' =>
      exact Or.inl (hprompts hcurrent ⟨hname, fun h => absurd h hdropped⟩ hother hguarded')
    | cloned hterminal => exact Or.inl (.cloned hterminal)
    | unsent hterminal => exact Or.inl (.unsent hterminal)
  | cloned hslot =>
    cases hleft with
    | guard hother hguarded => exact Or.inl (.guard hother hguarded)
    | cloned hterminal =>
      cases hterminal
      exact Or.inr (Or.inr hslot)
    | unsent hterminal => cases hterminal
  | thread hterminal =>
    cases hleft with
    | guard hother hguarded => exact Or.inl (.guard hother hguarded)
    | cloned hcloned => rcases hterminal with rfl | rfl <;> cases hcloned
    | unsent hunsent => rcases hterminal with rfl | rfl <;> cases hunsent
  | unsent hcloned =>
    cases hleft with
    | guard hother hguarded => exact Or.inl (.guard hother hguarded)
    | cloned hterminal => cases hterminal
    | unsent hterminal =>
      cases hterminal
      exact Or.inl (.cloned hcloned)
  | cleared hunsent =>
    cases hleft with
    | guard hother hguarded => exact Or.inl (.guard hother hguarded)
    | cloned hterminal => cases hterminal
    | unsent hterminal => cases hterminal
  | taken =>
    cases hleft with
    | guard hother hguarded => exact Or.inl (.guard hother hguarded)
    | cloned hterminal => cases hterminal
    | unsent hterminal => cases hterminal

/-! ## Reservations and releases -/

/-- The steps so far, newest first. -/
abbrev PromptHistory (Destination : Type) := List (PromptState Destination × PromptEvent Destination)

/-- The step reserves the slot for prompt `i`. -/
def Reserves (i : Nat) (x : PromptState Destination × PromptEvent Destination) : Prop :=
  (∃ secretName, x.2 = .reserve secretName) ∧ x.1.slot = none ∧ i = x.1.prompts.length

/-- Prompt `i` is in the slot before the step, and not after it. -/
def Releases (i : Nat) (x : PromptState Destination × PromptEvent Destination) : Prop :=
  ∃ prompt s', x.1.slot = some prompt ∧ prompt.lineTx = i ∧ x.1.step x.2 = some s' ∧ s'.slot ≠ some prompt

/-- The step is the drop of prompt `i`'s own guard, the clear after a failed send on its own channel, or
    the end of the input. -/
def OwnAccount (i : Nat) (x : PromptState Destination × PromptEvent Destination) : Prop :=
  match x.2 with
  | .dropGuard prompt => prompt = i
  | .clear => ∃ prompt, x.1.terminal = .unsent prompt ∧ prompt.lineTx = i
  | .take => True
  | _ => False

/-- Prompt `i` has been reserved, and not been released since. -/
def Standing (h : PromptHistory Destination) (i : Nat) : Prop :=
  Since (fun x => ¬ Releases i x) (Reserves i) h

/-- A reservation is made only under a name that nothing outstanding clears the slot by. -/
def Undisputed (x : PromptState Destination × PromptEvent Destination) : Prop :=
  ∀ secretName, x.2 = .reserve secretName → x.1.slot = none → ¬ Outstanding x.1 secretName

/-- What a step may do to the slot. -/
theorem PromptSteps.slot (h : PromptSteps s e s') :
    s'.slot = s.slot ∨
    (∃ secretName, e = .reserve secretName ∧ s.slot = none ∧ s'.slot = some ⟨secretName, s.prompts.length⟩) ∨
    (s'.slot = none ∧ ∀ prompt, s.slot = some prompt →
      e = .take ∨ ∃ i, Leftover s i prompt.secretName ∧
        (e = .dropGuard i ∨ (e = .clear ∧ ∃ other, s.terminal = .unsent other ∧ other.lineTx = i))) := by
  cases h with
  | refused | prompt | cloned | thread | unsent => exact Or.inl rfl
  | reserved hslot => exact Or.inr (Or.inl ⟨_, rfl, hslot, rfl⟩)
  | @guard i current next hcurrent hguarded hname hdropped =>
    rcases clear_cases s.slot current.secretName with hkept | ⟨hcleared, hwho⟩
    · exact Or.inl hkept
    · refine Or.inr (Or.inr ⟨hcleared, fun prompt hslot => Or.inr ⟨i, ?_, Or.inl rfl⟩⟩)
      rw [hwho prompt hslot]
      exact .guard hcurrent hguarded
  | @cleared other hunsent =>
    rcases clear_cases s.slot other.secretName with hkept | ⟨hcleared, hwho⟩
    · exact Or.inl hkept
    · refine Or.inr (Or.inr ⟨hcleared, fun prompt hslot =>
        Or.inr ⟨other.lineTx, ?_, Or.inr ⟨rfl, other, hunsent, rfl⟩⟩⟩)
      rw [hwho prompt hslot]
      exact .unsent hunsent
  | taken => exact Or.inr (Or.inr ⟨rfl, fun prompt _ => Or.inl rfl⟩)

theorem step_reserve (hslot : s.slot = none) (secretName : String) : s.step (.reserve secretName) =
    some { s with
      slot := some ⟨secretName, s.prompts.length⟩
      prompts := s.prompts ++ [⟨secretName, .notifying, []⟩] } := by
  unfold PromptState.step PromptState.reserve
  rw [hslot]
  rfl

/-- A standing reservation is in the slot. -/
theorem standing_slot {h : PromptHistory Destination} (p : Path promptSys .start h s) {i : Nat}
    (hstanding : Standing h i) : ∃ secretName, s.slot = some ⟨secretName, i⟩ := by
  induction p with
  | start =>
    obtain ⟨x, hx, -⟩ := hstanding.exists_mem
    cases hx
  | @step h m s e p hs ih =>
    rcases since_cons.mp hstanding with ⟨⟨secretName, he⟩, hslot, rfl⟩ | ⟨hkept, hstanding⟩
    · obtain rfl : e = .reserve secretName := he
      have hreserved := hs.symm.trans (step_reserve hslot secretName)
      cases hreserved
      exact ⟨secretName, rfl⟩
    · obtain ⟨secretName, hslot⟩ := ih hstanding
      refine ⟨secretName, ?_⟩
      by_contra hne
      exact hkept ⟨_, _, hslot, rfl, hs, hne⟩

/-! ## Every release is the reservation's own -/

/-- Whoever may clear the slot by its name is who is in it. -/
def PromptInv (s : PromptState Destination) : Prop :=
  ∀ prompt, s.slot = some prompt → ∀ i, Leftover s i prompt.secretName → i = prompt.lineTx

theorem PromptInv.step (hinv : PromptInv s) (hundisputed : Undisputed (s, e)) (h : PromptSteps s e s') :
    PromptInv s' := by
  intro prompt hslot i hleft
  rcases h.slot with hsame | ⟨secretName, rfl, hfree, hreserved⟩ | ⟨hnone, -⟩
  · rw [hsame] at hslot
    rcases h.leftover hleft with hleft | ⟨-, hfree, -⟩ | hcloned
    · exact hinv prompt hslot i hleft
    · rw [hfree] at hslot
      cases hslot
    · rw [hslot] at hcloned
      exact (congrArg TerminalSecretPrompt.lineTx (Option.some.inj hcloned)).symm
  · rw [hreserved] at hslot
    cases hslot
    rcases h.leftover hleft with hleft | ⟨-, -, hlast⟩ | hcloned
    · exact absurd ⟨i, hleft⟩ (hundisputed secretName rfl hfree)
    · exact hlast
    · rw [hfree] at hcloned
      cases hcloned
  · rw [hnone] at hslot
    cases hslot

/-- **One release**, where whoever may clear the slot is who is in it: the step that takes a prompt out of the
    slot is the drop of that prompt's guard, the clear after a failed send on its own channel, or the end of
    the input. -/
theorem PromptInv.ownAccount (hinv : PromptInv s) {i : Nat} (h : Releases i (s, e)) :
    OwnAccount i (s, e) := by
  obtain ⟨prompt, s', hslot, rfl, hs, hgone⟩ := h
  replace hslot : s.slot = some prompt := hslot
  rcases (promptSteps_of_step hs).slot with hsame | ⟨secretName, -, hfree, -⟩ | ⟨-, hcause⟩
  · exact absurd (hsame.trans hslot) hgone
  · rw [hfree] at hslot
    cases hslot
  · rcases hcause prompt hslot with rfl | ⟨i, hleft, hstep⟩
    · trivial
    · have hown := hinv prompt hslot i hleft
      rcases hstep with rfl | ⟨rfl, other, hunsent, hother⟩
      · exact hown
      · exact ⟨other, hunsent, hother.trans hown⟩

/-- In a run of undisputed reservations every release is the reservation's own. -/
theorem ownAccount_path {h : PromptHistory Destination} (p : Path promptSys .start h s) :
    (∀ x ∈ h, Undisputed x) → PromptInv s ∧ ∀ x ∈ h, ∀ i, Releases i x → OwnAccount i x := by
  induction p with
  | start => exact fun _ => ⟨fun _ hslot => (by cases hslot), fun _ hx => absurd hx List.not_mem_nil⟩
  | @step h m s e p hs ih =>
    intro hall
    obtain ⟨hstep, hbefore⟩ := List.forall_mem_cons.mp hall
    obtain ⟨hinv, hown⟩ := ih hbefore
    exact ⟨hinv.step hstep (promptSteps_of_step hs),
      List.forall_mem_cons.mpr ⟨fun i hreleases => hinv.ownAccount hreleases, hown⟩⟩

/-! ## A disputed reservation -/

/-- What is in the slot or in the thread's hands. -/
def Handed (s : PromptState Destination) (prompt : TerminalSecretPrompt) : Prop :=
  s.slot = some prompt ∨ (∃ line, s.terminal = .cloned prompt line) ∨ s.terminal = .unsent prompt

/-- The prompt at a place, by its name. -/
def NamedAt (s : PromptState Destination) (i : Nat) (secretName : String) : Prop :=
  ∃ current, s.prompts[i]? = some current ∧ current.secretName = secretName

theorem PromptSteps.namedAt (h : PromptSteps s e s') {i : Nat} {secretName : String}
    (hnamed : NamedAt s i secretName) : NamedAt s' i secretName := by
  obtain ⟨current, hcurrent, rfl⟩ := hnamed
  have hset : ∀ {j moved next}, s.prompts[j]? = some moved → next.secretName = moved.secretName →
      ∃ other, (s.prompts.set j next)[i]? = some other ∧ other.secretName = current.secretName := by
    intro j moved next hmoved hname
    by_cases hij : j = i
    · subst hij
      rw [hcurrent] at hmoved
      cases hmoved
      exact ⟨next, getElem?_set_self_of hcurrent, hname⟩
    · exact ⟨current, by rw [List.getElem?_set_ne hij, hcurrent], rfl⟩
  cases h with
  | refused | cloned | thread | unsent | cleared | taken => exact ⟨current, hcurrent, rfl⟩
  | reserved => exact ⟨current, getElem?_concat_of hcurrent, rfl⟩
  | prompt hmoved hkept => exact hset hmoved hkept.secretName
  | guard hmoved hguarded hname => exact hset hmoved hname

/-- What is handed on is a prompt. -/
def HandsKnown (s : PromptState Destination) : Prop :=
  ∀ prompt, Handed s prompt → NamedAt s prompt.lineTx prompt.secretName

theorem HandsKnown.step (hknown : HandsKnown s) (h : PromptSteps s e s') : HandsKnown s' := by
  intro prompt hhanded
  have hold : Handed s prompt → NamedAt s' prompt.lineTx prompt.secretName :=
    fun hhanded => h.namedAt (hknown prompt hhanded)
  -- the one step that makes a prompt puts its line into the list; a clone copies what the slot holds
  cases h with
  | refused => exact hold hhanded
  | reserved =>
    rcases hhanded with hslot | hhands
    · cases hslot
      exact ⟨_, List.getElem?_concat_length, rfl⟩
    · exact hold (Or.inr hhands)
  | prompt hmoved hkept hterminal =>
    rcases hhanded with hslot | ⟨line, hcloned⟩ | hunsent
    · exact hold (Or.inl hslot)
    · rcases hterminal with rfl | rfl
      · exact hold (Or.inr (Or.inl ⟨line, hcloned⟩))
      · cases hcloned
    · rcases hterminal with rfl | rfl
      · exact hold (Or.inr (Or.inr hunsent))
      · cases hunsent
  | @guard i current next =>
    rcases hhanded with hslot | hhands
    · rcases clear_cases s.slot current.secretName with hkept | ⟨hcleared, -⟩
      · exact hold (Or.inl (hkept.symm.trans hslot))
      · cases hcleared.symm.trans hslot
    · exact hold (Or.inr hhands)
  | cloned hslot =>
    rcases hhanded with hslot | ⟨line, hcloned⟩ | hunsent
    · exact hold (Or.inl hslot)
    · cases hcloned
      exact hold (Or.inl hslot)
    · cases hunsent
  | thread hterminal =>
    rcases hhanded with hslot | ⟨line, hcloned⟩ | hunsent
    · exact hold (Or.inl hslot)
    · rcases hterminal with rfl | rfl <;> cases hcloned
    · rcases hterminal with rfl | rfl <;> cases hunsent
  | unsent hcloned =>
    rcases hhanded with hslot | ⟨line, hcloned'⟩ | hunsent
    · exact hold (Or.inl hslot)
    · cases hcloned'
    · cases hunsent
      exact hold (Or.inr (Or.inl ⟨_, hcloned⟩))
  | @cleared other =>
    rcases hhanded with hslot | ⟨line, hcloned⟩ | hunsent
    · rcases clear_cases s.slot other.secretName with hkept | ⟨hcleared, -⟩
      · exact hold (Or.inl (hkept.symm.trans hslot))
      · cases hcleared.symm.trans hslot
    · cases hcloned
    · cases hunsent
  | taken =>
    rcases hhanded with hslot | ⟨line, hcloned⟩ | hunsent
    · cases hslot
    · cases hcloned
    · cases hunsent

theorem handsKnown_path {h : PromptHistory Destination} (p : Path promptSys .start h s) : HandsKnown s := by
  refine p.invariant ?_ fun s e s' hknown hs => hknown.step (promptSteps_of_step hs)
  rintro prompt (hslot | ⟨line, hcloned⟩ | hunsent)
  · cases hslot
  · cases hcloned
  · cases hunsent

/-- Another step than prompt `i`'s own releases it, some steps from here. -/
def Strays (s : PromptState Destination) (i : Nat) : Prop :=
  ∃ h s', Path promptSys s h s' ∧ ∃ x ∈ h, Releases i x ∧ ¬ OwnAccount i x

section

variable {i : Nat} {prompt : TerminalSecretPrompt}

theorem Strays.now (hs : s.step e = some s') (hslot : s.slot = some prompt) (hgone : s'.slot = none)
    (hnot : ¬ OwnAccount prompt.lineTx (s, e)) : Strays s prompt.lineTx :=
  ⟨[(s, e)], s', .step .start hs, (s, e), List.mem_singleton.mpr rfl,
    ⟨prompt, s', hslot, rfl, hs, by rw [hgone]; exact nofun⟩, hnot⟩

/-- One step on the way. -/
theorem Strays.before (hs : s.step e = some s') (h : Strays s' i) : Strays s i := by
  obtain ⟨h, s'', p, x, hx, hstrays⟩ := h
  exact ⟨h ++ [(s, e)], s'', (Path.step .start hs).append p, x, List.mem_append_left _ hx, hstrays⟩

theorem strays_unsent {other : TerminalSecretPrompt} (hunsent : s.terminal = .unsent other)
    (hslot : s.slot = some prompt) (hname : prompt.secretName = other.secretName)
    (hne : other.lineTx ≠ prompt.lineTx) : Strays s prompt.lineTx := by
  refine .now (PromptState.step_clear hunsent) hslot (by rw [hslot, ← hname]; exact clear_self prompt) ?_
  rintro ⟨prompt', hunsent', hown⟩
  rw [show s.terminal = .unsent other from hunsent] at hunsent'
  cases hunsent'
  exact hne hown

theorem strays_leaving {j : Nat} {current : Prompt Destination} {result : Option (PromptResult Destination)}
    (hcurrent : s.prompts[j]? = some current) (hleaving : current.stage = .leaving result)
    (hslot : s.slot = some prompt) (hname : prompt.secretName = current.secretName)
    (hne : j ≠ prompt.lineTx) :
    Strays s prompt.lineTx := by
  have hs : s.step (.dropGuard j) = some { s with
      slot := clearTerminalSecretPrompt s.slot current.secretName
      prompts := s.prompts.set j { current with stage := .guardDropped result } } := by
    simp only [PromptState.step, hcurrent, Prompt.dropGuard, hleaving, Option.map_some]
  exact .now hs hslot (by rw [hslot, ← hname]; exact clear_self prompt) hne

/-- A guard that is left: its prompt is dropped, if it is not returning yet. -/
theorem strays_guard {j : Nat} {current : Prompt Destination} (hcurrent : s.prompts[j]? = some current)
    (hguarded : current.Guarded) (hslot : s.slot = some prompt)
    (hname : prompt.secretName = current.secretName) (hne : j ≠ prompt.lineTx) : Strays s prompt.lineTx := by
  have habandon : current.abandon = some { current with stage := .leaving none } →
      Strays s prompt.lineTx := by
    intro habandoned
    have hs : s.step (.abandon j) = some { s with
        prompts := s.prompts.set j { current with stage := .leaving none } } := by
      simp only [PromptState.step, PromptState.update, hcurrent, habandoned, Option.map_some]
    exact .before hs (strays_leaving (getElem?_set_self_of hcurrent) rfl hslot hname hne)
  cases hstage : current.stage with
  | notifying => exact habandon (by simp only [Prompt.abandon, hstage])
  | waiting => exact habandon (by simp only [Prompt.abandon, hstage])
  | leaving result => exact strays_leaving hcurrent hstage hslot hname hne
  | guardDropped result =>
    rw [Prompt.Guarded, hstage] at hguarded
    exact hguarded.elim
  | gone result =>
    rw [Prompt.Guarded, hstage] at hguarded
    exact hguarded.elim

/-- A clone that is left: the receiver goes, the send fails, and the clear follows. -/
theorem strays_cloned {other : TerminalSecretPrompt} {line : List Char} {current : Prompt Destination}
    (hcloned : s.terminal = .cloned other line) (hcurrent : s.prompts[other.lineTx]? = some current)
    (hcurrentName : current.secretName = other.secretName) (hslot : s.slot = some prompt)
    (hname : prompt.secretName = other.secretName) (hne : other.lineTx ≠ prompt.lineTx) :
    Strays s prompt.lineTx := by
  have hgone : ∀ {s : PromptState Destination} {gone : Prompt Destination}, s.terminal = .cloned other line →
      s.prompts[other.lineTx]? = some gone → gone.receives = false → s.slot = some prompt →
      Strays s prompt.lineTx := by
    intro s gone hcloned hgone hreceives hslot
    have hs : s.step .send = some { s with terminal := .unsent other } := by
      simp only [PromptState.step, hcloned, PromptState.send, hgone, hreceives, Bool.false_eq_true, if_false]
    exact .before hs (strays_unsent rfl hslot hname hne)
  cases hstage : current.stage with
  | notifying =>
    exact strays_guard hcurrent (by rw [Prompt.Guarded, hstage]; trivial) hslot
      (hname.trans hcurrentName.symm) hne
  | waiting =>
    exact strays_guard hcurrent (by rw [Prompt.Guarded, hstage]; trivial) hslot
      (hname.trans hcurrentName.symm) hne
  | leaving result =>
    exact strays_guard hcurrent (by rw [Prompt.Guarded, hstage]; trivial) hslot
      (hname.trans hcurrentName.symm) hne
  | guardDropped result =>
    have hs : s.step (.dropLines other.lineTx) = some { s with
        prompts := s.prompts.set other.lineTx { current with stage := .gone result, lines := [] } } := by
      simp only [PromptState.step, PromptState.update, hcurrent, Prompt.dropLines, hstage, Option.map_some]
    exact .before hs (hgone hcloned (getElem?_set_self_of hcurrent) rfl hslot)
  | gone result => exact hgone hcloned hcurrent (by simp only [Prompt.receives, hstage]) hslot

/-- **A leftover of another prompt** by the name of the one in the slot. -/
theorem strays_of_leftover (hknown : HandsKnown s) (hslot : s.slot = some prompt)
    (hleft : Leftover s i prompt.secretName) (hne : i ≠ prompt.lineTx) : Strays s prompt.lineTx := by
  generalize hname : prompt.secretName = secretName at hleft
  cases hleft with
  | guard hcurrent hguarded => exact strays_guard hcurrent hguarded hslot hname hne
  | cloned hcloned =>
    obtain ⟨current, hcurrent, hcurrentName⟩ := hknown _ (Or.inr (Or.inl ⟨_, hcloned⟩))
    exact strays_cloned hcloned hcurrent hcurrentName hslot hname hne
  | unsent hunsent => exact strays_unsent hunsent hslot hname hne

/-- A reservation takes nothing away of what is left. -/
theorem Leftover.reserved {secretName : String} (hleft : Leftover s i secretName)
    (slot : Option TerminalSecretPrompt) (added : Prompt Destination) :
    Leftover { s with slot := slot, prompts := s.prompts ++ [added] } i secretName := by
  cases hleft with
  | guard hcurrent hguarded => exact .guard (getElem?_concat_of hcurrent) hguarded
  | cloned hcloned => exact .cloned hcloned
  | unsent hunsent => exact .unsent hunsent

/-- What is left is left of a prompt. -/
theorem Leftover.lt (hknown : HandsKnown s) {secretName : String} (hleft : Leftover s i secretName) :
    i < s.prompts.length := by
  cases hleft with
  | guard hcurrent => exact lt_of_getElem? hcurrent
  | cloned hcloned =>
    obtain ⟨current, hcurrent, -⟩ := hknown _ (Or.inr (Or.inl ⟨_, hcloned⟩))
    exact lt_of_getElem? hcurrent
  | unsent hunsent =>
    obtain ⟨current, hcurrent, -⟩ := hknown _ (Or.inr (Or.inr hunsent))
    exact lt_of_getElem? hcurrent

end

/-- **The slot**: at most one reservation stands at any time.  In every run in which no reservation is
    made under a name that an earlier prompt still has to clear by, each is released on its own account;
    and where one is made so, the run has a continuation in which it is released on another's. -/
theorem slot_released_when :
    (∀ (h : PromptHistory Destination) (s : PromptState Destination), Path promptSys .start h s →
      ∀ i j, Standing h i → Standing h j → i = j) ∧
    (∀ (h : PromptHistory Destination) (s : PromptState Destination), Path promptSys .start h s →
      (∀ x ∈ h, Undisputed x) → ∀ x ∈ h, ∀ i, Releases i x → OwnAccount i x) ∧
    ∀ (h : PromptHistory Destination) (s : PromptState Destination), Path promptSys .start h s →
      ∀ secretName, s.slot = none → Outstanding s secretName →
        ∃ h' s', Path promptSys s (h' ++ [(s, .reserve secretName)]) s' ∧
          ∃ x ∈ h', Releases s.prompts.length x ∧ ¬ OwnAccount s.prompts.length x := by
  refine ⟨fun h s p i j hi hj => ?_, fun h s p hall => (ownAccount_path p hall).2,
    fun h s p secretName hslot houtstanding => ?_⟩
  · obtain ⟨secretName, hslot⟩ := standing_slot p hi
    obtain ⟨secretName', hslot'⟩ := standing_slot p hj
    rw [hslot] at hslot'
    exact congrArg TerminalSecretPrompt.lineTx (Option.some.inj hslot')
  · have hs := step_reserve hslot secretName
    have hknown := handsKnown_path p
    obtain ⟨i, hleft⟩ := houtstanding
    obtain ⟨h', s', q, hstrays⟩ := strays_of_leftover (hknown.step (promptSteps_of_step hs)) rfl
      (hleft.reserved _ _) (Nat.ne_of_lt (hleft.lt hknown))
    exact ⟨h', s', (Path.step .start hs).append q, hstrays⟩

end

/-- The line comes as the prompt for K expires, and its clone is sent when the prompt for L is in the slot.  The
    clear that follows the failed send is for K and leaves that one there, until its task is aborted. -/
theorem slot_released_when_aborted :
    ∃ (h : PromptHistory Unit) (s : PromptState Unit), Path promptSys .start h s ∧ (∃ x ∈ h, Releases 0 x) ∧
      (∃ x ∈ h, x.2 = .clear ∧ x.1.slot = some ⟨"L", 1⟩) ∧ (∃ x ∈ h, Releases 1 x) ∧
      ∀ x ∈ h, ∀ i, Releases i x → OwnAccount i x := by
  let expired : Option (PromptResult Unit) := some (.error "terminal prompt expired; run /model add again")
  let expiring : PromptState Unit :=
    ⟨some ⟨"K", 0⟩, [⟨"K", .leaving expired, []⟩], .cloned ⟨"K", 0⟩ ['x'], []⟩
  let second (terminal : TerminalStage) (stage : PromptStage Unit) : PromptState Unit :=
    ⟨some ⟨"L", 1⟩, [⟨"K", .gone expired, []⟩, ⟨"L", stage, []⟩], terminal, []⟩
  have p : Path promptSys .start [
      (second .reading (.leaving none), .dropGuard 1),
      (second .reading .notifying, .abandon 1),
      (second (.unsent ⟨"K", 0⟩) .notifying, .clear),
      (second (.cloned ⟨"K", 0⟩ ['x']) .notifying, .send),
      (⟨none, [⟨"K", .gone expired, []⟩], .cloned ⟨"K", 0⟩ ['x'], []⟩, .reserve "L"),
      (⟨none, [⟨"K", .guardDropped expired, []⟩], .cloned ⟨"K", 0⟩ ['x'], []⟩, .dropLines 0),
      (expiring, .dropGuard 0),
      (⟨some ⟨"K", 0⟩, [⟨"K", .waiting, []⟩], .cloned ⟨"K", 0⟩ ['x'], []⟩, .expire 0),
      (⟨some ⟨"K", 0⟩, [⟨"K", .waiting, []⟩], .reading, []⟩, .readLine ['x']),
      (⟨some ⟨"K", 0⟩, [⟨"K", .notifying, []⟩], .reading, []⟩, .notified 0 (.ok ())),
      (PromptState.start, .reserve "K")] _ :=
    Path.start |>.step rfl |>.step rfl |>.step rfl |>.step rfl |>.step rfl |>.step rfl |>.step rfl |>.step rfl
      |>.step rfl |>.step rfl |>.step rfl
  refine ⟨_, _, p, ⟨(expiring, .dropGuard 0), by simp, ⟨"K", 0⟩, _, rfl, rfl, rfl, nofun⟩,
    ⟨(second (.unsent ⟨"K", 0⟩) .notifying, .clear), by simp, rfl, rfl⟩,
    ⟨(second .reading (.leaving none), .dropGuard 1), List.mem_cons_self, ⟨"L", 1⟩, _, rfl, rfl, rfl, nofun⟩,
    slot_released_when.2.1 _ _ p ?_⟩
  have hfirst : Undisputed ((PromptState.start : PromptState Unit), .reserve "K") := by
    rintro secretName - - ⟨i, hleft⟩
    cases hleft with
    | guard hcurrent => cases hcurrent
    | cloned hcloned => cases hcloned
    | unsent hunsent => cases hunsent
  -- what is left of the first prompt is left under its own name
  have hsecond : Undisputed ((⟨none, [⟨"K", .gone expired, []⟩], .cloned ⟨"K", 0⟩ ['x'], []⟩ :
      PromptState Unit), .reserve "L") := by
    rintro secretName hname - ⟨i, hleft⟩
    obtain rfl := PromptEvent.reserve.inj hname
    generalize hother : "L" = other at hleft
    cases hleft with
    | guard hcurrent =>
      obtain rfl := List.mem_singleton.mp (List.mem_of_getElem? hcurrent)
      exact absurd hother (by decide)
    | cloned hcloned =>
      cases hcloned
      exact absurd hother (by decide)
    | unsent hunsent => cases hunsent
  intro x hx
  simp only [List.mem_cons, List.not_mem_nil, or_false] at hx
  rcases hx with rfl | rfl | rfl | rfl | rfl | rfl | rfl | rfl | rfl | rfl | rfl
  · exact nofun
  · exact nofun
  · exact nofun
  · exact nofun
  · exact hsecond
  · exact nofun
  · exact nofun
  · exact nofun
  · exact nofun
  · exact nofun
  · exact hfirst

/-- The line comes as the first prompt expires: its clone is sent when the second prompt, for the same
    key, is in the slot, and the failed send clears that one. -/
theorem slot_released_by_name :
    ¬ ∀ (h : PromptHistory Unit) (s : PromptState Unit), Path promptSys .start h s →
      ∀ x ∈ h, ∀ i, Releases i x → OwnAccount i x := by
  intro hclaim
  let expired : Option (PromptResult Unit) := some (.error "terminal prompt expired; run /model add again")
  let second : PromptState Unit := {
    slot := some ⟨"K", 1⟩
    prompts := [⟨"K", .gone expired, []⟩, ⟨"K", .notifying, []⟩]
    terminal := .unsent ⟨"K", 0⟩
    commands := [] }
  have p : Path promptSys .start _ second :=
    Path.start
      |>.step (e := .reserve "K") rfl
      |>.step (e := .notified 0 (.ok ())) rfl
      |>.step (e := .readLine ['x']) rfl
      |>.step (e := .expire 0) rfl
      |>.step (e := .dropGuard 0) rfl
      |>.step (e := .dropLines 0) rfl
      |>.step (e := .reserve "K") rfl
      |>.step (e := .send) rfl
  have hown :=
    hclaim _ _ (p.step (e := .clear) rfl) _ List.mem_cons_self 1 ⟨⟨"K", 1⟩, _, rfl, rfl, rfl, nofun⟩
  obtain ⟨prompt, hunsent, hlineTx⟩ := hown
  cases hunsent
  cases hlineTx

end Tellm
