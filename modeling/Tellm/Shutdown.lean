/-
  SHUTDOWN: the end of `Runtime::run`, and what the chats are told of full queues.

  `stop_chat_workers` cancels, aborts and unregisters the worker of each dispatcher, and then awaits all of
  their handles.  The workers go on meanwhile, and may be denied and allowed.

  1. **`Becomes`**: what no step takes back from a worker, an abort and its end.
  2. **`StopInv`**: what the two loops of `stop_chat_workers` have done so far.
  3. **`stop_final`**: when it has returned, no chat has a worker with its receiver, a registration or a
     message, and none will.
  4. **`stop_returns`**: it returns without anyone's help: from wherever it is, its own steps and the
     workers' lead to its end.
  5. **`one_notice`**: one notice at a time tells a chat that its queue is full.

  The stop takes a list of the dispatchers first and works through it, so `StopInv` is stated over what is
  left of the list: a chat that is not in it any more is unregistered, and every handle collected so far
  is of an aborted worker.  In the second loop a dispatcher's worker is among the handles left or has
  finished.

  Being cancelled is not what makes the stop safe: a worker looks at its flag at two places only.  The
  abort drops its future wherever that is suspended, and the handle is ready only after the receiver has
  been dropped.

  The notices belong here because they are the only other thing that the poll loop does about a chat: a
  message that finds its queue full is dropped, and the chat is told so, by one task at a time
  (`OneNotice`).  A message for a worker that has been started afresh and is gone again is lost without a
  notice, as in the source.
-/
import Tellm.Chats

namespace Tellm.Chats

open Runs

variable {M : Type}

/-! ## What no step takes back -/

/-- An abort and an end are there to stay. -/
structure Becomes (w w' : Worker M) : Prop where
  aborted : w.aborted = true → w'.aborted = true
  finished : w.phase = .finished → w'.phase = .finished

/-- A worker that does nothing loses neither of its two marks. -/
theorem Becomes.refl (w : Worker M) : Becomes w w := ⟨id, id⟩

/-- No step of a worker takes back that it was aborted or that it has finished. -/
theorem steps_becomes {w w' : Worker M} {connected : Bool} {e : WorkerEvent}
    (hs : w.Steps connected e w') : Becomes w w' := by
  refine ⟨?_, fun hfinished => ?_⟩
  · cases hs <;> exact id
  · cases hs with
    | abort haborted hphase =>
      rcases hphase with hp | hp | ⟨message, hp⟩ | ⟨message, hp⟩ <;> cases hfinished.symm.trans hp
    | abortUnstarted haborted hphase => cases hfinished.symm.trans hphase
    | finish => rfl
    | _ hphase => cases hfinished.symm.trans hphase

namespace ChatsState

variable {s s' : ChatsState M} {e : ChatsEvent M} {c : Int} {i : Nat} {w : Worker M}

/-- The worker has been told to abort. -/
def hasAborted (s : ChatsState M) (chatId : Int) (i : Nat) : Bool :=
  ((s.workers chatId)[i]?).any (·.aborted)

/-- The check on a handle, as a statement about the worker behind it. -/
theorem hasAborted_iff : s.hasAborted c i = true ↔ ∃ w, (s.workers c)[i]? = some w ∧ w.aborted = true :=
  Option.any_eq_true _ _

/-- The same for the check whether the task has finished. -/
theorem hasFinished_iff :
    s.hasFinished c i = true ↔ ∃ w : Worker M, (s.workers c)[i]? = some w ∧ w.phase = .finished := by
  rw [hasFinished, Option.any_eq_true]
  refine exists_congr fun w => and_congr_right fun _ => ?_
  cases w.phase <;> simp

@[simp] theorem workers_removeWorkerRegistration {d : Int} {j : Nat} :
    (s.removeWorkerRegistration d j).workers = s.workers := by
  simp only [removeWorkerRegistration]
  split <;> rfl

/-- A worker is where it was, updated or not. -/
theorem worker_update {d : Int} {j : Nat} {f : Worker M → Worker M} (hw : (s.workers c)[i]? = some w)
    (hf : (s.workers d)[j]? = some w → Becomes w (f w)) :
    ∃ w', ((s.update d j f).workers c)[i]? = some w' ∧ Becomes w w' := by
  show ∃ w', (Function.update s.workers d _ c)[i]? = some w' ∧ Becomes w w'
  by_cases hd : d = c
  · subst hd
    rw [Function.update_self, List.getElem?_modify, hw]
    by_cases hj : j = i
    · subst hj
      exact ⟨f w, congrArg some (if_pos rfl), hf hw⟩
    · exact ⟨w, congrArg some (if_neg hj), .refl w⟩
  · rw [Function.update_of_ne (Ne.symm hd)]
    exact ⟨w, hw, .refl w⟩

/-- Spawning appends, so the workers that are there keep their numbers. -/
theorem worker_spawn {d : Int} (hw : (s.workers c)[i]? = some w) :
    ((s.spawnChatWorker d).workers c)[i]? = some w := by
  show (Function.update s.workers d _ c)[i]? = some w
  by_cases hd : d = c
  · subst hd
    rw [Function.update_self]
    exact getElem?_concat_of hw
  · rw [Function.update_of_ne (Ne.symm hd)]
    exact hw

/-- **No step forgets a worker**, its abort or its end: the worker is still at its place after the step, and
    if it was aborted or had finished, it still is. -/
theorem Steps.becomes (hs : s.Steps e s') (hw : (s.workers c)[i]? = some w) :
    ∃ w', (s'.workers c)[i]? = some w' ∧ Becomes w w' := by
  have hflags : ∀ {d : Int} {j : Nat} {f : Worker M → Worker M},
      (∀ w : Worker M, Becomes w (f w)) →
      ∃ w', ((s.update d j f).workers c)[i]? = some w' ∧ Becomes w w' :=
    fun hf => worker_update hw fun _ => hf w
  cases hs with
  | spawn => exact ⟨w, worker_spawn hw, .refl w⟩
  | respawn => exact ⟨w, worker_spawn hw, .refl w⟩
  | sent => exact hflags fun _ => ⟨id, id⟩
  | resent => exact hflags fun _ => ⟨id, id⟩
  | refused =>
    refine ⟨w, ?_, .refl w⟩
    rw [reserveQueueFullNotice]
    split <;> exact hw
  | removed =>
    refine ⟨w, ?_, .refl w⟩
    show ((s.removeWorkerRegistration _ _).workers c)[i]? = some w
    rw [workers_removeWorkerRegistration]
    exact hw
  | stopCancel => exact hflags fun _ => ⟨id, id⟩
  | stopAbort => exact hflags fun _ => ⟨fun _ => rfl, id⟩
  | stopRemove =>
    refine ⟨w, ?_, .refl w⟩
    show ((s.removeWorkerRegistration _ _).workers c)[i]? = some w
    rw [workers_removeWorkerRegistration]
    exact hw
  | worker hv hstep hguard =>
    refine worker_update hw fun hw => ?_
    cases hv.symm.trans hw
    exact steps_becomes (Worker.steps_of_step hstep)
  | guard hv hstep =>
    rw [workers_removeWorkerRegistration]
    refine worker_update hw fun hw => ?_
    cases hv.symm.trans hw
    exact steps_becomes (Worker.steps_of_step hstep)
  | cancel => exact hflags fun _ => ⟨fun h => Bool.or_eq_true_iff.mpr (Or.inl h), id⟩
  | reactivate => exact hflags fun _ => ⟨id, id⟩
  | _ => exact ⟨w, hw, .refl w⟩

/-- Once a worker of a chat is aborted, it is so in every later state. -/
theorem Steps.hasAborted (hs : s.Steps e s') (ha : s.hasAborted c i = true) : s'.hasAborted c i = true := by
  obtain ⟨w, hw, haborted⟩ := hasAborted_iff.mp ha
  obtain ⟨w', hw', hbecomes⟩ := hs.becomes hw
  exact hasAborted_iff.mpr ⟨w', hw', hbecomes.aborted haborted⟩

/-- Once it has finished, it stays finished. -/
theorem Steps.hasFinished (hs : s.Steps e s') (hf : s.hasFinished c i = true) :
    s'.hasFinished c i = true := by
  obtain ⟨w, hw, hfinished⟩ := hasFinished_iff.mp hf
  obtain ⟨w', hw', hbecomes⟩ := hs.becomes hw
  exact hasFinished_iff.mpr ⟨w', hw', hbecomes.finished hfinished⟩

/-- Nobody is registered by a removal. -/
theorem registry_removeWorkerRegistration {d : Int} {j : Nat} (hnone : s.registry[c]? = none) :
    (s.removeWorkerRegistration d j).registry[c]? = none := by
  simp only [removeWorkerRegistration]
  split
  · rw [Std.ExtTreeMap.getElem?_erase, hnone, ite_self]
  · exact hnone

/-- Nor once the stop has begun. -/
theorem Steps.unregistered (hs : s.Steps e s') (hstops : s.poll.stops = true)
    (hnone : s.registry[c]? = none) : s'.registry[c]? = none := by
  cases hs with
  | register hpoll =>
    rw [hpoll] at hstops
    cases hstops
  | reregister hpoll =>
    rw [hpoll] at hstops
    cases hstops
  | refused hpoll =>
    rw [hpoll] at hstops
    cases hstops
  | removed hpoll =>
    rw [hpoll] at hstops
    cases hstops
  | stopRemove => exact registry_removeWorkerRegistration hnone
  | guard => exact registry_removeWorkerRegistration hnone
  | _ => exact hnone

/-! ## What the stop has done so far -/

/-- What the two loops of `stop_chat_workers` have done. -/
def StopInv (s : ChatsState M) : PollLoop M → Prop
  | .stopping stop rest handles =>
    (∀ c : Int, (∀ i, (c, i) ∉ rest) → s.registry[c]? = none) ∧
      (∀ x ∈ handles, s.hasAborted x.1 x.2 = true) ∧
      match stop, rest with
      | .remove, x :: _ => s.hasAborted x.1 x.2 = true
      | _, _ => True
  | .joining handles =>
    (∀ c : Int, s.registry[c]? = none) ∧ (∀ x ∈ handles, s.hasAborted x.1 x.2 = true) ∧
      ∀ (c : Int) (i : Nat), s.dispatchers[c]? = some i → (c, i) ∈ handles ∨ s.hasFinished c i = true
  | .stopped =>
    (∀ c : Int, s.registry[c]? = none) ∧
      ∀ (c : Int) (i : Nat), s.dispatchers[c]? = some i → s.hasFinished c i = true
  | _ => True

/-- It stays done in a step that is not the poll loop's. -/
theorem StopInv.kept {poll : PollLoop M} (hi : s.StopInv poll) (hs : s.Steps e s')
    (hstops : s.poll.stops = true) (hdispatchers : s'.dispatchers = s.dispatchers) : s'.StopInv poll := by
  cases poll with
  | stopping stop rest handles =>
    refine ⟨fun c hc => hs.unregistered hstops (hi.1 c hc), fun x hx => hs.hasAborted (hi.2.1 x hx), ?_⟩
    have hhead := hi.2.2
    split
    · exact hs.hasAborted hhead
    · trivial
  | joining handles =>
    refine ⟨fun c => hs.unregistered hstops (hi.1 c), fun x hx => hs.hasAborted (hi.2.1 x hx), ?_⟩
    intro c i hworker
    rw [hdispatchers] at hworker
    exact (hi.2.2 c i hworker).imp_right hs.hasFinished
  | stopped =>
    refine ⟨fun c => hs.unregistered hstops (hi.1 c), ?_⟩
    intro c i hworker
    rw [hdispatchers] at hworker
    exact hs.hasFinished (hi.2 c i hworker)
  | _ => trivial

/-- Before the stop, the poll loop is idle for a chat, or at it. -/
theorem registry_idle (hc : ChatInv (s.chat c)) (hidle : s.poll.of c = .idle) {j : Nat}
    (hregistry : s.registry[c]? = some j) : s.dispatchers[c]? = some j := by
  have hr := hc.registered
  rw [show (s.chat c).poll = .idle from hidle] at hr
  exact hr j hregistry

/-- A chat's dispatcher names a worker that was really spawned. -/
theorem exists_worker (hc : ChatInv (s.chat c)) (hidle : s.poll.of c = .idle)
    (hdispatcher : s.dispatchers[c]? = some i) : ∃ w, (s.workers c)[i]? = some w := by
  have hpoll := hc.inv.poll
  rw [show (s.chat c).poll = .idle from hidle] at hpoll
  have hnewest : i + 1 = (s.workers c).length := hpoll.2 i hdispatcher
  exact ⟨_, List.getElem?_eq_getElem (by omega)⟩

/-- The invariant of the stop survives every step of the system, those of the other tasks included. -/
theorem StopInv.step (hi : s.StopInv s.poll) (hall : ∀ c, ChatInv (s.chat c)) (hl : s.PollListed s.poll)
    (hs : s.Steps e s') : s'.StopInv s'.poll := by
  have hsteps := hs
  -- a step of somebody else
  have helse : s'.poll = s.poll → s'.dispatchers = s.dispatchers → s'.StopInv s'.poll := by
    intro hpoll hdispatchers
    rw [hpoll]
    cases hstops : s.poll.stops with
    | true => exact hi.kept hsteps hstops hdispatchers
    | false =>
      cases hpoll : s.poll with
      | stopping _ _ _ =>
        rw [hpoll] at hstops
        cases hstops
      | joining _ =>
        rw [hpoll] at hstops
        cases hstops
      | stopped =>
        rw [hpoll] at hstops
        cases hstops
      | _ => trivial
  cases hs with
  | shutdown hpoll =>
    refine ⟨fun c hc => ?_, fun x hx => absurd hx List.not_mem_nil, trivial⟩
    show s.registry[c]? = none
    cases hregistry : s.registry[c]? with
    | none => rfl
    | some j =>
      have hdispatcher := registry_idle (hall c) (by rw [hpoll]; rfl) hregistry
      exact absurd (Std.ExtTreeMap.mem_toList_iff_getElem?_eq_some.mpr hdispatcher) (hc j)
  | stopCancel hpoll =>
    rw [hpoll] at hi
    exact ⟨fun c hc => hsteps.unregistered (by rw [hpoll]; rfl) (hi.1 c hc),
      fun x hx => hsteps.hasAborted (hi.2.1 x hx), trivial⟩
  | @stopAbort c i rest handles hpoll =>
    rw [hpoll] at hi hl
    refine ⟨fun c hc => hsteps.unregistered (by rw [hpoll]; rfl) (hi.1 c hc),
      fun x hx => hsteps.hasAborted (hi.2.1 x hx), ?_⟩
    obtain ⟨w, hw⟩ := exists_worker (hall c) (by rw [hpoll]; rfl) hl.1.head
    refine hasAborted_iff.mpr ⟨{ w with aborted := true }, ?_, rfl⟩
    show (Function.update s.workers c _ c)[i]? = _
    rw [Function.update_self, List.getElem?_modify, hw]
    exact congrArg some (if_pos rfl)
  | @stopRemove c i rest handles hpoll =>
    have hidle : s.poll.of c = .idle := by
      rw [hpoll]
      rfl
    have hhead := hsteps.hasAborted (show s.hasAborted c i = true by
      rw [hpoll] at hi
      exact hi.2.2)
    rw [hpoll] at hi hl
    refine ⟨fun c' hc' => ?_, fun x hx => ?_, ?_⟩
    · by_cases hc : c' = c
      · -- the registration was this worker's, if there was one
        subst hc
        have hchat : ((s.removeWorkerRegistration c' i).chat c').registry = none := by
          rw [chat_removeWorkerRegistration]
          refine registry_remove_self fun j hj => ?_
          exact Option.some.inj ((registry_idle (hall c') hidle hj).symm.trans hl.1.head)
        exact hchat
      · refine hsteps.unregistered (by rw [hpoll]; rfl) (hi.1 c' fun j hj => ?_)
        rcases List.mem_cons.mp hj with heq | hj
        · exact hc (Prod.mk.inj heq).1
        · exact hc' j hj
    · rcases List.mem_append.mp hx with hx | hx
      · exact hsteps.hasAborted (hi.2.1 x hx)
      · rw [List.mem_singleton.mp hx]
        exact hhead
    · cases rest <;> trivial
  | @join stop handles hpoll =>
    rw [hpoll] at hi hl
    refine ⟨fun c => hi.1 c fun _ => List.not_mem_nil, hi.2.1, fun c i hworker => Or.inl ?_⟩
    exact (hl.2 c i hworker).resolve_left List.not_mem_nil
  | @joined c i handles hpoll hfinished =>
    rw [hpoll] at hi
    refine ⟨hi.1, fun x hx => hi.2.1 x (List.mem_cons_of_mem _ hx), fun c' i' hworker => ?_⟩
    rcases hi.2.2 c' i' hworker with hmem | hdone
    · rcases List.mem_cons.mp hmem with heq | hmem
      · obtain ⟨rfl, rfl⟩ := Prod.mk.inj heq
        exact Or.inr hfinished
      · exact Or.inl hmem
    · exact Or.inr hdone
  | stopped hpoll =>
    rw [hpoll] at hi
    refine ⟨hi.1, fun c i hworker => ?_⟩
    exact (hi.2.2 c i hworker).resolve_left List.not_mem_nil
  | worker => exact helse rfl rfl
  | guard => exact helse poll_removeWorkerRegistration dispatchers_removeWorkerRegistration
  | cancelNone => exact helse rfl rfl
  | cancel => exact helse rfl rfl
  | reactivateNone => exact helse rfl rfl
  | reactivate => exact helse rfl rfl
  | startNotice => exact helse rfl rfl
  | endNotice => exact helse rfl rfl
  | _ => trivial

end ChatsState

section Run

variable {h later : ChatsHistory M} {s s' : ChatsState M}

/-- Each chat of a run of the whole system satisfies the invariant of one chat's dispatch, by the projection
    to it. -/
theorem chatInv_run (p : Path chatsSys chatsStart h s) (c : Int) : ChatInv (s.chat c) :=
  ChatInv.run (chat_run p c)

/-- The invariant of the stop holds in every state of a run. -/
theorem stopInv_run (p : Path chatsSys chatsStart h s) : s.StopInv s.poll := by
  induction p with
  | start => exact trivial
  | step p hs ih => exact ih.step (chatInv_run p) (pollListed_run p) (ChatsState.steps_of_step hs)

/-! ## After the stop -/

/-- No chat has a worker with its receiver, nor a registration. -/
structure AtRest (s : ChatsState M) : Prop where
  poll : s.poll = .stopped
  dropped : ∀ c, (s.chat c).AllDropped
  unregistered : ∀ c : Int, s.registry[c]? = none

/-- When the loop is through with its stop, nothing is at work any more: every receiver is dropped and no
    chat is registered. -/
theorem atRest_run (p : Path chatsSys chatsStart h s) (hstopped : s.poll = .stopped) : AtRest s := by
  have hi := stopInv_run p
  rw [hstopped] at hi
  refine ⟨hstopped, fun c => ?_, hi.1⟩
  have hinv := (chatInv_run p c).inv
  have hidle : (s.chat c).poll = .idle := congrArg (PollLoop.of · c) hstopped
  have hpoll := hinv.poll
  rw [hidle] at hpoll
  cases hdispatcher : s.dispatchers[c]? with
  | none => exact hpoll.1 hdispatcher
  | some d =>
    -- the newest worker has finished, and no other can have its receiver
    obtain ⟨v, hv, hfinished⟩ := ChatsState.hasFinished_iff.mp (hi.2 c d hdispatcher)
    intro i w hw
    rw [Bool.eq_false_iff]
    intro ha
    have hnewest := hinv.newest i w hw ha
    have hd := hpoll.2 d hdispatcher
    obtain rfl : i = d := by omega
    cases hw.symm.trans hv
    rw [Worker.alive, hfinished] at ha
    cases ha

/-- At rest no message is taken in. -/
theorem AtRest.accepts (hr : AtRest s) (e : ChatsEvent M) : accepts (s, e) = [] := by
  cases e with
  | poll => simp only [Chats.accepts, hr.poll]
  | _ => rfl

/-- At rest no message is handled. -/
theorem AtRest.handles (hr : AtRest s) (e : ChatsEvent M) : handles (s, e) = [] := by
  cases e with
  | worker c i e =>
    simp only [Chats.handles, List.map_eq_nil_iff]
    cases hw : (s.workers c)[i]? with
    | none => rfl
    | some w =>
      have ha := hr.dropped c i w hw
      rw [Option.elim_some]
      cases e with
      | check chatIsAllowed =>
        simp only [Worker.handles]
        split
        · rename_i message hphase
          rw [Worker.alive, hphase] at ha
          cases ha
        · rfl
      | _ => rfl
  | _ => rfl

/-- The stop is final: no step leaves it. -/
theorem poll_of_stopped {e : ChatsEvent M} (hs : s.Steps e s') (hstopped : s.poll = .stopped) :
    s'.poll = .stopped := by
  cases hs with
  | worker => exact hstopped
  | guard => exact ChatsState.poll_removeWorkerRegistration.trans hstopped
  | cancelNone => exact hstopped
  | cancel => exact hstopped
  | reactivateNone => exact hstopped
  | reactivate => exact hstopped
  | startNotice => exact hstopped
  | endNotice => exact hstopped
  | _ hpoll => cases hstopped.symm.trans hpoll

/-- What follows the stop. -/
structure Final (later : ChatsHistory M) (s' : ChatsState M) : Prop where
  /-- No message is accepted any more, and none is handled. -/
  silent : log accepts later = [] ∧ log handles later = []
  /-- No worker of any chat has its receiver, and no message waits. -/
  dropped : ∀ c, (s'.chat c).AllDropped ∧ (s'.chat c).pending = []
  /-- No deny finds anyone. -/
  unregistered : ∀ c : Int, s'.registry[c]? = none

/-- **When `stop_chat_workers` has returned, it is over**: in every run up to there and from there on, no
    worker of any chat is left with its receiver, nothing is accepted, and nothing is handled. -/
theorem stop_final (p : Path chatsSys chatsStart h s) (hstopped : s.poll = .stopped)
    (q : Path chatsSys s later s') : Final later s' := by
  have hrest : s'.poll = .stopped ∧ log accepts later = [] ∧ log handles later = [] := by
    induction q with
    | start => exact ⟨hstopped, rfl, rfl⟩
    | @step later m s' e q hs ih =>
      obtain ⟨hpoll, ha, hh⟩ := ih
      have hm := atRest_run (p.append q) hpoll
      refine ⟨poll_of_stopped (ChatsState.steps_of_step hs) hpoll, ?_, ?_⟩
      · rw [log_cons, ha, hm.accepts, List.append_nil]
      · rw [log_cons, hh, hm.handles, List.append_nil]
  have hr := atRest_run (p.append q) hrest.1
  exact ⟨hrest.2, fun c => ⟨hr.dropped c, (hr.dropped c).pending⟩, hr.unregistered⟩

/-! ## It returns -/

/-- A step of the poll loop, or of a worker. -/
def Own (x : ChatsState M × ChatsEvent M) : Prop :=
  match x.2 with
  | .poll => True
  | .worker _ _ _ => True
  | _ => False

/-- Steps of its own lead from the one to the other. -/
def Leads (s s' : ChatsState M) : Prop := ∃ h, Path chatsSys s h s' ∧ ∀ x ∈ h, Own x

/-- Every state leads to itself by no step at all. -/
theorem Leads.refl (s : ChatsState M) : Leads s s := ⟨[], .start, fun _ hx => absurd hx List.not_mem_nil⟩

/-- Runs of own steps can be put together. -/
theorem Leads.trans {m : ChatsState M} (hm : Leads s m) (hs : Leads m s') : Leads s s' := by
  obtain ⟨older, p, hold⟩ := hm
  obtain ⟨newer, q, hnew⟩ := hs
  refine ⟨newer ++ older, p.append q, fun x hx => ?_⟩
  rcases List.mem_append.mp hx with hx | hx
  · exact hnew x hx
  · exact hold x hx

/-- One own step leads to its result. -/
theorem leads_step {e : ChatsEvent M} (hs : s.step e = some s') (hown : Own (s, e)) : Leads s s' := by
  refine ⟨[(s, e)], .step .start hs, fun x hx => ?_⟩
  rw [List.mem_singleton.mp hx]
  exact hown

/-- How far a worker is from its end. -/
def wayToGo (w : Worker M) : Nat :=
  match w.phase with
  | .finished => 0
  | .dropped => 1
  | .unguarded => 2
  | .left => 3
  | _ => 4

/-- An aborted worker can always take a step towards its end. -/
theorem aborted_goes (w : Worker M) (haborted : w.aborted = true) (connected : Bool) :
    w.phase = .finished ∨ ∃ e w', w.step connected e = some w' ∧ wayToGo w' < wayToGo w := by
  cases hphase : w.phase with
  | finished => exact Or.inl rfl
  | dropped => exact Or.inr ⟨.finish, { w with phase := .finished }, by simp [Worker.step, hphase, wayToGo]⟩
  | unguarded =>
    exact Or.inr ⟨.dropReceiver, { w with phase := .dropped }, by simp [Worker.step, hphase, wayToGo]⟩
  | left =>
    exact Or.inr ⟨.dropGuard, { w with phase := .unguarded }, by simp [Worker.step, hphase, wayToGo]⟩
  | unstarted =>
    exact Or.inr ⟨.abort, { w with phase := .unguarded }, by simp [Worker.step, hphase, haborted, wayToGo]⟩
  | _ => exact Or.inr ⟨.abort, { w with phase := .left }, by simp [Worker.step, hphase, haborted, wayToGo]⟩

/-- The worker's step, in the whole. -/
theorem worker_steps {c : Int} {i : Nat} {w w' : Worker M} {e : WorkerEvent}
    (hw : (s.workers c)[i]? = some w) (hstep : w.step (s.connected c i) e = some w') :
    ∃ s', s.step (.worker c i e) = some s' ∧ (s'.workers c)[i]? = some w' ∧ s'.poll = s.poll := by
  have hupdated : ((s.update c i fun _ => w').workers c)[i]? = some w' := by
    show (Function.update s.workers c _ c)[i]? = some w'
    rw [Function.update_self, List.getElem?_modify, hw]
    exact congrArg some (if_pos rfl)
  simp only [ChatsState.step, hw, hstep]
  split
  · refine ⟨_, rfl, ?_, ChatsState.poll_removeWorkerRegistration⟩
    rw [ChatsState.workers_removeWorkerRegistration]
    exact hupdated
  · exact ⟨_, rfl, hupdated, rfl⟩

/-- **An aborted worker reaches its end**: its own steps lead there from wherever it stands, and they leave
    the polling task where it is. -/
theorem aborted_finishes {c : Int} {i : Nat} {w : Worker M} (hw : (s.workers c)[i]? = some w)
    (haborted : w.aborted = true) :
    ∃ s', Leads s s' ∧ s'.hasFinished c i = true ∧ s'.poll = s.poll := by
  induction hn : wayToGo w using Nat.strong_induction_on generalizing s w with
  | _ n ih =>
    rcases aborted_goes w haborted (s.connected c i) with hfinished | ⟨e, w', hstep, hlt⟩
    · exact ⟨s, .refl s, ChatsState.hasFinished_iff.mpr ⟨w, hw, hfinished⟩, rfl⟩
    · obtain ⟨m, hm, hw', hpoll⟩ := worker_steps hw hstep
      have haborted' := (steps_becomes (Worker.steps_of_step hstep)).aborted haborted
      obtain ⟨s', hleads, hfinished, hpoll'⟩ := ih (wayToGo w') (hn ▸ hlt) hw' haborted' rfl
      exact ⟨s', (leads_step hm trivial).trans hleads, hfinished, hpoll'.trans hpoll⟩

/-- The loop that awaits the handles comes to its end. -/
theorem joining_returns {handles : List (Int × Nat)} (p : Path chatsSys chatsStart h s)
    (hpoll : s.poll = .joining handles) : ∃ s', Leads s s' ∧ s'.poll = .stopped := by
  induction handles generalizing h s with
  | nil =>
    refine ⟨{ s with poll := .stopped }, leads_step (e := .poll) ?_ trivial, rfl⟩
    simp only [ChatsState.step, ChatsState.pollStep, hpoll]
  | cons x handles ih =>
    obtain ⟨c, i⟩ := x
    have hi := stopInv_run p
    rw [hpoll] at hi
    obtain ⟨w, hw, haborted⟩ := ChatsState.hasAborted_iff.mp (hi.2.1 _ List.mem_cons_self)
    obtain ⟨m, hm, hfinished, hpoll'⟩ := aborted_finishes hw haborted
    obtain ⟨older, q, hown⟩ := hm
    have hstep : m.step .poll = some { m with poll := .joining handles } := by
      simp only [ChatsState.step, ChatsState.pollStep, hpoll'.trans hpoll, hfinished, if_true]
    have hnext : chatsSys.step m .poll = some { m with poll := .joining handles } := hstep
    obtain ⟨s', hs', hstopped⟩ := ih ((p.append q).step hnext) rfl
    exact ⟨s', (Leads.trans ⟨older, q, hown⟩ (leads_step hstep trivial)).trans hs', hstopped⟩

/-- The loop that stops the workers comes to its end. -/
theorem stopping_joins {stop : Stop} {rest handles : List (Int × Nat)}
    (hpoll : s.poll = .stopping stop rest handles) :
    ∃ s' handles', Leads s s' ∧ s'.poll = .joining handles' := by
  induction rest generalizing s stop handles with
  | nil =>
    refine ⟨{ s with poll := .joining handles }, handles, leads_step (e := .poll) ?_ trivial, rfl⟩
    cases stop <;> simp only [ChatsState.step, ChatsState.pollStep, hpoll]
  | cons x rest ih =>
    obtain ⟨c, i⟩ := x
    have hremove : ∀ {s : ChatsState M}, s.poll = .stopping .remove ((c, i) :: rest) handles →
        ∃ s' handles', Leads s s' ∧ s'.poll = .joining handles' := by
      intro s hpoll
      have hstep : s.step .poll = some { s.stopWorker c i .remove with
          poll := .stopping .cancel rest (handles ++ [(c, i)]) } := by
        simp only [ChatsState.step, ChatsState.pollStep, hpoll]
      obtain ⟨s', handles', hleads, hjoining⟩ := ih (s := { s.stopWorker c i .remove with
        poll := .stopping .cancel rest (handles ++ [(c, i)]) }) rfl
      exact ⟨s', handles', (leads_step hstep trivial).trans hleads, hjoining⟩
    have habort : ∀ {s : ChatsState M}, s.poll = .stopping .abort ((c, i) :: rest) handles →
        ∃ s' handles', Leads s s' ∧ s'.poll = .joining handles' := by
      intro s hpoll
      have hstep : s.step .poll = some { s.stopWorker c i .abort with
          poll := .stopping .remove ((c, i) :: rest) handles } := by
        simp only [ChatsState.step, ChatsState.pollStep, hpoll]
      obtain ⟨s', handles', hleads, hjoining⟩ := hremove (s := { s.stopWorker c i .abort with
        poll := .stopping .remove ((c, i) :: rest) handles }) rfl
      exact ⟨s', handles', (leads_step hstep trivial).trans hleads, hjoining⟩
    cases stop with
    | remove => exact hremove hpoll
    | abort => exact habort hpoll
    | cancel =>
      have hstep : s.step .poll = some { s.stopWorker c i .cancel with
          poll := .stopping .abort ((c, i) :: rest) handles } := by
        simp only [ChatsState.step, ChatsState.pollStep, hpoll]
      obtain ⟨s', handles', hleads, hjoining⟩ := habort (s := { s.stopWorker c i .cancel with
        poll := .stopping .abort ((c, i) :: rest) handles }) rfl
      exact ⟨s', handles', (leads_step hstep trivial).trans hleads, hjoining⟩

/-- **`stop_chat_workers` can always return**: from wherever it is, whatever the workers are doing, its own
    steps and theirs lead to its end; no message, no deny and no notice is waited for. -/
theorem stop_returns (p : Path chatsSys chatsStart h s) (hstops : s.poll.stops = true) :
    ∃ later s', Path chatsSys s later s' ∧ (∀ x ∈ later, Own x) ∧ s'.poll = .stopped := by
  have hjoined : ∀ {h : ChatsHistory M} {m : ChatsState M} {handles : List (Int × Nat)},
      Path chatsSys chatsStart h m → m.poll = .joining handles → Leads s m →
      ∃ later s', Path chatsSys s later s' ∧ (∀ x ∈ later, Own x) ∧ s'.poll = .stopped := by
    intro h m handles q hpoll hm
    obtain ⟨s', hs', hstopped⟩ := joining_returns q hpoll
    obtain ⟨later, r, hown⟩ := hm.trans hs'
    exact ⟨later, s', r, hown, hstopped⟩
  cases hpoll : s.poll with
  | stopping stop rest handles =>
    obtain ⟨m, handles', ⟨older, q, hown⟩, hjoining⟩ := stopping_joins hpoll
    exact hjoined (p.append q) hjoining ⟨older, q, hown⟩
  | joining handles => exact hjoined p hpoll (.refl s)
  | stopped => exact ⟨[], s, .start, fun _ hx => absurd hx List.not_mem_nil, hpoll⟩
  | _ =>
    rw [hpoll] at hstops
    cases hstops

/-- The worker is handling a message when the shutdown comes. -/
def stopRun : List (ChatsEvent String) :=
  [.handleUpdate 7 "a", .poll, .poll, .poll, .worker 7 0 .start, .worker 7 0 (.check true), .worker 7 0 .recv,
    .worker 7 0 (.check true), .shutdown, .poll, .poll]

/-- A run with a message for chat 7 that is stopped, and a step after the stop. -/
theorem stop_final_seven : ∃ (h later : ChatsHistory String) (s s' : ChatsState String),
    Path chatsSys chatsStart h s ∧ Path chatsSys s later s' ∧ Final later s' := by
  have hrun : (chatsSys.run (chatsStart : ChatsState String)
      (stopRun ++ [.worker 7 0 .abort, .worker 7 0 .dropGuard, .poll, .poll, .worker 7 0 .dropReceiver,
        .worker 7 0 .finish, .poll, .poll])).any
      (fun s => (s.poll matches .stopped) && (chatsSys.run s [.cancelChatWorker 7 true]).any fun _ => true) =
        true := by decide
  obtain ⟨h, s, p, hs⟩ := Sys.path_of_run_any _ hrun
  obtain ⟨hstopped, hlater⟩ := Bool.and_eq_true_iff.mp hs
  obtain ⟨later, s', q, -⟩ := Sys.path_of_run_any _ hlater
  have hpoll : s.poll = .stopped := by
    cases hpoll : s.poll <;> rw [hpoll] at hstopped <;> first | rfl | cases hstopped
  exact ⟨h, later, s, s', p, q, stop_final p hpoll q⟩

/-- A stop that begins while chat 7 has a message in its handler, and returns. -/
theorem stop_returns_seven : ∃ (h : ChatsHistory String) (s : ChatsState String),
    Path chatsSys chatsStart h s ∧ ((s.workers 7)[0]?).any (fun w => w.phase matches .handling "a") = true ∧
      ∃ later s', Path chatsSys s later s' ∧ (∀ x ∈ later, Own x) ∧ s'.poll = .stopped := by
  have hrun : (chatsSys.run (chatsStart : ChatsState String) stopRun).any
      (fun s => ((s.workers 7)[0]?).any (fun w => w.phase matches .handling "a") && s.poll.stops) = true := by
    decide
  obtain ⟨h, s, p, hs⟩ := Sys.path_of_run_any _ hrun
  obtain ⟨hhandling, hstops⟩ := Bool.and_eq_true_iff.mp hs
  exact ⟨h, s, p, hhandling, stop_returns p hstops⟩

/-! ## Full queues -/

/-- The notice is not over yet. -/
def Notice.open (n : Notice) : Prop := n.phase ≠ .ended

/-- The message that the step drops, the queue being full. -/
def drops (x : ChatsState M × ChatsEvent M) : List (Int × M) :=
  match x.2, x.1.poll with
  | .poll, .sending chatId (.sending message) =>
    match x.1.dispatchers[chatId]? with
    | some worker => if x.1.sendResult chatId worker = .full then [(chatId, message)] else []
    | none => []
  | _, _ => []

/-- The set knows exactly the chats with a notice under way, one each. -/
structure NoticeInv (s : ChatsState M) : Prop where
  listed : ∀ c, c ∈ s.queueFullNotices ↔ ∃ (n : Nat) (notice : Notice),
    s.notices[n]? = some notice ∧ notice.chatId = c ∧ notice.open
  one : ∀ (n m : Nat) (a b : Notice), s.notices[n]? = some a → s.notices[m]? = some b → a.open → b.open →
    a.chatId = b.chatId → n = m

/-- The invariant of the notices is about the set and the notices under way, and no other part of the
    state. -/
theorem NoticeInv.congr (hi : NoticeInv s) (hset : s'.queueFullNotices = s.queueFullNotices)
    (hnotices : s'.notices = s.notices) : NoticeInv s' := by
  constructor
  · rw [hset, hnotices]
    exact hi.listed
  · rw [hnotices]
    exact hi.one

/-- Reserving puts a notice under way only for a chat that is not in the set, so the invariant stays. -/
theorem NoticeInv.reserve (hi : NoticeInv s) (c : Int) : NoticeInv (s.reserveQueueFullNotice c) := by
  rw [ChatsState.reserveQueueFullNotice]
  split
  · exact hi
  · rename_i hnew
    constructor
    · intro c'
      rw [Std.ExtTreeSet.mem_insert, Int.compare_eq_eq, hi.listed]
      constructor
      · rintro (rfl | ⟨n, notice, hn, hc, hopen⟩)
        · exact ⟨s.notices.length, { chatId := c }, List.getElem?_concat_length, rfl, fun h => (by cases h)⟩
        · exact ⟨n, notice, getElem?_concat_of hn, hc, hopen⟩
      · rintro ⟨n, notice, hn, hc, hopen⟩
        rcases getElem?_concat_cases hn with ⟨-, rfl⟩ | hn
        · exact Or.inl hc
        · exact Or.inr ⟨n, notice, hn, hc, hopen⟩
    · intro n m a b hn hm ha hb hab
      -- the chat had no notice, so the new one is its only one
      have hfresh : ∀ {n : Nat} {a : Notice}, s.notices[n]? = some a → a.open → a.chatId ≠ c := by
        intro n a hn ha hc
        exact hnew ((hi.listed c).mpr ⟨n, a, hn, hc, ha⟩)
      rcases getElem?_concat_cases hn with ⟨rfl, rfl⟩ | hn <;>
        rcases getElem?_concat_cases hm with ⟨rfl, rfl⟩ | hm
      · rfl
      · exact absurd hab.symm (hfresh hm hb)
      · exact absurd hab (hfresh hn ha)
      · exact hi.one n m a b hn hm ha hb hab

/-- Every step keeps the chats of the set those with a notice under way. -/
theorem NoticeInv.step {e : ChatsEvent M} (hi : NoticeInv s) (hs : s.Steps e s') : NoticeInv s' := by
  have hremove : ∀ {m : ChatsState M} {c : Int} {i : Nat}, m.queueFullNotices = s.queueFullNotices →
      m.notices = s.notices → NoticeInv (m.removeWorkerRegistration c i) := by
    intro m c i hset hnotices
    simp only [ChatsState.removeWorkerRegistration]
    split <;> exact hi.congr hset hnotices
  cases hs with
  | refused => exact (hi.reserve _).congr rfl rfl
  | removed => exact (hremove rfl rfl).congr rfl rfl
  | stopRemove => exact (hremove rfl rfl).congr rfl rfl
  | guard => exact hremove rfl rfl
  | @startNotice n c hnotice =>
    constructor
    · intro c'
      rw [hi.listed]
      constructor
      · rintro ⟨m, a, hm, ha, hopen⟩
        by_cases hnm : n = m
        · subst hnm
          cases hnotice.symm.trans hm
          exact ⟨n, _, getElem?_set_self_of hnotice, ha, fun h => (by cases h)⟩
        · exact ⟨m, a, (List.getElem?_set_ne hnm).trans hm, ha, hopen⟩
      · rintro ⟨m, a, hm, ha, hopen⟩
        rcases getElem?_set_cases hm with ⟨rfl, rfl⟩ | hm
        · exact ⟨m, _, hnotice, ha, fun h => (by cases h)⟩
        · exact ⟨m, a, hm, ha, hopen⟩
    · intro m k a b hm hk ha hb hab
      have hold : ∀ {m : Nat} {a : Notice}, (s.notices.set n { chatId := c, phase := .sending })[m]? = some a →
          a.open → ∃ a' : Notice, s.notices[m]? = some a' ∧ a'.chatId = a.chatId ∧ a'.open := by
        intro m a hm ha
        rcases getElem?_set_cases hm with ⟨rfl, rfl⟩ | hm
        · exact ⟨_, hnotice, rfl, fun h => (by cases h)⟩
        · exact ⟨a, hm, rfl, ha⟩
      obtain ⟨a', hm', ha', hopen⟩ := hold hm ha
      obtain ⟨b', hk', hb', hopen'⟩ := hold hk hb
      exact hi.one m k a' b' hm' hk' hopen hopen' (by rw [ha', hb', hab])
  | @endNotice n c hnotice =>
    have hopen : Notice.open { chatId := c, phase := .sending } := fun h => (by cases h)
    constructor
    · intro c'
      rw [Std.ExtTreeSet.mem_erase, Ne, Int.compare_eq_eq, hi.listed]
      constructor
      · rintro ⟨hne, m, a, hm, ha, hopen⟩
        have hnm : n ≠ m := by
          rintro rfl
          cases hnotice.symm.trans hm
          exact hne ha
        exact ⟨m, a, (List.getElem?_set_ne hnm).trans hm, ha, hopen⟩
      · rintro ⟨m, a, hm, ha, ha'⟩
        rcases getElem?_set_cases hm with ⟨rfl, rfl⟩ | hold
        · exact absurd rfl ha'
        · refine ⟨?_, m, a, hold, ha, ha'⟩
          -- the notice that has ended was the chat's only one
          rintro rfl
          have hnm := hi.one n m _ a hnotice hold hopen ha' ha.symm
          subst hnm
          rw [getElem?_set_self_of hnotice] at hm
          cases hm
          exact absurd rfl ha'
    · intro m k a b hm hk ha hb hab
      have hold : ∀ {m : Nat} {a : Notice}, (s.notices.set n { chatId := c, phase := .ended })[m]? = some a →
          a.open → s.notices[m]? = some a := by
        intro m a hm ha
        rcases getElem?_set_cases hm with ⟨rfl, rfl⟩ | hm
        · exact absurd rfl ha
        · exact hm
      exact hi.one m k a b (hold hm ha) (hold hk hb) ha hb hab
  | _ => exact hi.congr rfl rfl

/-- In every state of a run, a chat has at most one notice under way, and it is in the set exactly then. -/
theorem noticeInv_run (p : Path chatsSys chatsStart h s) : NoticeInv s := by
  refine p.invariant (I := NoticeInv) ⟨fun c => ?_, fun n m a b hn => ?_⟩
    fun _ _ _ hi hs => hi.step (ChatsState.steps_of_step hs)
  · simp
  · simp at hn

/-- Whom the notices are for, oldest first: nobody new, or the chat whose message is dropped. -/
theorem notified_step {e : ChatsEvent M} (hs : s.Steps e s') :
    s'.notices.map (·.chatId) = s.notices.map (·.chatId) ∨
      ∃ c message, drops (s, e) = [(c, message)] ∧
        s'.notices.map (·.chatId) = s.notices.map (·.chatId) ++ [c] := by
  have hremove : ∀ {m : ChatsState M} {c : Int} {i : Nat},
      (m.removeWorkerRegistration c i).notices = m.notices := by
    intro m c i
    simp only [ChatsState.removeWorkerRegistration]
    split <;> rfl
  have hset : ∀ {n : Nat} {a b : Notice}, s.notices[n]? = some a → b.chatId = a.chatId →
      (s.notices.set n b).map (·.chatId) = s.notices.map (·.chatId) := by
    intro n a b hn hab
    obtain ⟨hlt, rfl⟩ := List.getElem?_eq_some_iff.mp hn
    have hlt' : n < (s.notices.map (·.chatId)).length := by rwa [List.length_map]
    have hsame : b.chatId = (s.notices.map (·.chatId))[n] := by rw [List.getElem_map, hab]
    rw [List.map_set, hsame]
    exact List.set_getElem_self _
  cases hs with
  | @refused c message worker hpoll hdispatcher hresult =>
    show (s.reserveQueueFullNotice c).notices.map _ = _ ∨ _
    rw [ChatsState.reserveQueueFullNotice]
    split
    · exact Or.inl rfl
    · refine Or.inr ⟨c, message, ?_, List.map_append⟩
      simp only [drops, hpoll, hdispatcher, hresult, if_true]
  | removed => exact Or.inl (congrArg (List.map (·.chatId)) hremove)
  | stopRemove => exact Or.inl (congrArg (List.map (·.chatId)) hremove)
  | guard => exact Or.inl (congrArg (List.map (·.chatId)) hremove)
  | startNotice hnotice => exact Or.inl (hset hnotice rfl)
  | endNotice hnotice => exact Or.inl (hset hnotice rfl)
  | _ => exact Or.inl rfl

/-- What a run guarantees about full queues. -/
structure OneNotice (h : ChatsHistory M) (s : ChatsState M) : Prop where
  /-- A chat has one notice under way at a time, and the set says which chats have one. -/
  inv : NoticeInv s
  /-- A message is dropped in the arm for a full queue only when the chat's queue is full, and the chat has a
      notice under way then. -/
  answered : ∀ e s', chatsSys.step s e = some s' → ∀ x ∈ drops (s, e),
    (∃ (i : Nat) (w : Worker M), (s.workers x.1)[i]? = some w ∧ w.queue.length = chatQueueSize) ∧
      ∃ (n : Nat) (notice : Notice), s'.notices[n]? = some notice ∧ notice.chatId = x.1 ∧ notice.open
  /-- Every notice answers a message that was dropped. -/
  atMost : ∀ c, (s.notices.map (·.chatId)).count c ≤ (ofChat c (log drops h)).length

/-- **One notice at a time** tells a chat that its queue is full, and no message is dropped for a full queue
    without one.  The message that a worker spawned for it rejects is another matter: it is lost, and the
    source sends no notice of that. -/
theorem one_notice (p : Path chatsSys chatsStart h s) : OneNotice h s := by
  refine ⟨noticeInv_run p, fun e s' hs x hx => ?_, fun c => ?_⟩
  · have hsteps := ChatsState.steps_of_step hs
    cases e with
    | poll =>
      simp only [drops] at hx
      split at hx
      · rename_i c message _ hpoll
        split at hx
        · rename_i worker hdispatcher
          split at hx
          · rename_i hfull
            rw [List.mem_singleton.mp hx]
            refine ⟨?_, ?_⟩
            · -- full, so its queue is at least as long as its channel, and it is never longer
              rw [ChatsState.sendResult] at hfull
              cases hw : (s.workers c)[worker]? with
              | none =>
                rw [hw] at hfull
                cases hfull
              | some w =>
                refine ⟨worker, w, hw, le_antisymm ((chats_in_order p).bounded c worker w hw) ?_⟩
                rw [hw, Option.elim_some, Worker.trySend] at hfull
                split at hfull
                · cases hfull
                · split at hfull
                  · assumption
                  · cases hfull
            · have hnext : s' = { s.reserveQueueFullNotice c with poll := .idle } := by
                have hpoll' : s.poll = .sending c (.sending message) := hpoll
                simp only [chatsSys, ChatsState.step, ChatsState.pollStep, hpoll', ChatsState.sendStep,
                  show s.dispatchers[c]? = some worker from hdispatcher,
                  show s.sendResult c worker = .full from hfull] at hs
                exact (Option.some.inj hs).symm
              have hi := noticeInv_run (p.step hs)
              refine (hi.listed c).mp ?_
              rw [hnext]
              show c ∈ (s.reserveQueueFullNotice c).queueFullNotices
              rw [ChatsState.reserveQueueFullNotice]
              split
              · assumption
              · exact Std.ExtTreeSet.mem_insert_self
          · cases hx
        · cases hx
      · cases hx
    | _ => cases hx
  · induction p with
    | start => exact Nat.zero_le _
    | @step h s s' e p hs ih =>
      rw [log_cons, ofChat, List.filterMap_append, List.length_append]
      rcases notified_step (ChatsState.steps_of_step hs) with hsame | ⟨c', message, hdrops, hnew⟩
      · rw [hsame]
        exact ih.trans (Nat.le_add_right _ _)
      · rw [hnew, hdrops, List.count_append]
        refine Nat.add_le_add ih ?_
        by_cases hc : c' = c
        · subst hc
          simp
        · simp [hc]

/-- The worker has not been polled when the queue is full; one more message comes. -/
theorem one_notice_full : ∃ (h : ChatsHistory String) (s : ChatsState String),
    Path chatsSys chatsStart h s ∧ s.notices.length = 1 ∧ OneNotice h s := by
  have hrun : (chatsSys.run (chatsStart : ChatsState String)
      ([.handleUpdate 7 "a", .poll, .poll, .poll] ++
        (List.replicate 32 [.handleUpdate 7 "b", .poll]).flatten)).any
      (fun s => s.notices.length == 1) = true := by decide
  obtain ⟨h, s, p, hs⟩ := Sys.path_of_run_any _ hrun
  exact ⟨h, s, p, eq_of_beq hs, one_notice p⟩

end Run

end Tellm.Chats
