/-
  DELIVERY: which accepted messages are handled.

  `Tellm.Dispatch` says that what is accepted is handled, discarded, or held by the newest worker.  With
  nobody denied or cancelled, one thing discards: a receiver dropped with messages in its queue.  And
  one thing puts them there: a `try_send` that lands while the worker has left its loop but has not
  dropped its receiver yet.  The channel takes the message, so the poll loop does not respawn.

  1. **`lateSend_lost`**: such a run.  The message is accepted, and its worker is gone.
  2. **`delivered_when`**: nothing else loses a message; and a late send always does.

  Calm runs are those in which nobody cancels the chat's worker and every check finds the chat allowed,
  since otherwise messages are discarded by design.  In a calm run a worker leaves its loop only after it
  has found its queue empty.

  The late send is a race of two tasks, not of two messages: the worker's decision to leave and the drop
  of its receiver are two moments, and between them `try_send` finds the channel open.  `lateSend`
  recognises the step by the state that it meets, so the condition is on the run and not on its outcome.

  Both directions are proved.  Without a late send nothing is lost at any moment of the run.  With one,
  the message is in the queue of a worker that will not read it; as long as that worker has not finished
  it may count as pending, so the converse speaks of states in which no worker is on its way out
  (`Settled`).
-/
import Tellm.Dispatch

namespace Tellm

open Runs

variable {M : Type}

/-- The chat stays allowed, and nothing cancels its worker. -/
def calm : DispatchEvent M → Bool
  | .cancelChatWorker _ => false
  | .worker _ (.check chatIsAllowed) => chatIsAllowed
  | _ => true

namespace Worker

/-- The worker has not left its loop. -/
def looping (w : Worker M) : Bool :=
  match w.phase with
  | .left => false
  | .unguarded => false
  | .dropped => false
  | .finished => false
  | _ => true

/-- It has, but has not dropped its receiver yet. -/
def leaving (w : Worker M) : Bool := w.alive && !w.looping

end Worker

/-- The step's `try_send` is accepted by a worker that has left its loop. -/
def lateSend (x : DispatchState M × DispatchEvent M) : Bool :=
  match x.2, x.1.target with
  | .trySend, some (worker, _) =>
    x.1.sendResult worker = .ok && (x.1.workers[worker]?).any Worker.leaving
  | _, _ => false

/-- Every accepted message is handled, once, or still held by the newest worker; and no worker is gone
    with a message in its queue. -/
structure NoneLost (h : DispatchHistory M) (s : DispatchState M) : Prop where
  accounted : acceptedMessages h = handledMessages h ++ s.pending
  gone : ∀ (i : Nat) (w : Worker M), s.workers[i]? = some w → w.alive = false → w.queue = []

/-- No worker is on its way out. -/
def DispatchState.Settled (s : DispatchState M) : Prop :=
  ∀ (i : Nat) (w : Worker M), s.workers[i]? = some w → w.leaving = false

/-! ## Nothing else loses a message -/

/-- No worker is cancelled or aborted, and a worker that has left its loop has left nothing behind. -/
def DispatchState.Calm (s : DispatchState M) : Prop :=
  ∀ (i : Nat) (w : Worker M), s.workers[i]? = some w →
    w.cancelled = false ∧ w.aborted = false ∧ (w.looping = false → w.queue = [])

section Step

variable {s s' : DispatchState M} {e : DispatchEvent M} {i : Nat}

/-- A worker's step in a calm run: nothing is discarded, and the worker stays calm. -/
theorem Worker.Steps.calm {w w' : Worker M} {connected : Bool} {e : WorkerEvent}
    (hstep : w.Steps connected e w') (hcalm : calm (M := M) (.worker i e) = true)
    (hcancelled : w.cancelled = false) (haborted : w.aborted = false)
    (hqueue : w.looping = false → w.queue = []) :
    w.discards e = [] ∧
      w'.cancelled = false ∧ w'.aborted = false ∧ (w'.looping = false → w'.queue = []) := by
  have hgo : ∀ {chatIsAllowed}, e = .check chatIsAllowed → w.mayGoOn chatIsAllowed = true := by
    rintro chatIsAllowed rfl
    have hallowed : chatIsAllowed = true := hcalm
    rw [Worker.mayGoOn, hcancelled, hallowed]
    rfl
  cases hstep with
  | start hphase => exact ⟨rfl, hcancelled, haborted, fun h => (by cases h)⟩
  | check hphase =>
    rw [hgo rfl]
    refine ⟨?_, hcancelled, haborted, fun h => (by cases h)⟩
    simp only [Worker.discards, hphase]
  | recheck hphase =>
    -- the message in hand is handled
    have hmay := hgo rfl
    rw [hmay]
    refine ⟨?_, hcancelled, haborted, fun h => (by cases h)⟩
    simp only [Worker.discards, hphase, hmay, if_true]
  | recv hphase hq => exact ⟨rfl, hcancelled, haborted, fun h => (by cases h)⟩
  | idleTimeout hphase hq => exact ⟨rfl, hcancelled, haborted, fun _ => hq⟩
  | recvNone hphase hq => exact ⟨rfl, hcancelled, haborted, fun _ => hq⟩
  | handled hphase => exact ⟨rfl, hcancelled, haborted, fun h => (by cases h)⟩
  | abortUnstarted ha => cases haborted.symm.trans ha
  | abort ha => cases haborted.symm.trans ha
  | dropGuard hphase =>
    refine ⟨rfl, hcancelled, haborted, fun _ => hqueue ?_⟩
    simp only [Worker.looping, hphase]
  | dropReceiver hphase =>
    have hempty : w.queue = [] := hqueue (by simp only [Worker.looping, hphase])
    exact ⟨hempty, hcancelled, haborted, fun _ => hempty⟩
  | finish hphase =>
    refine ⟨rfl, hcancelled, haborted, fun _ => hqueue ?_⟩
    simp only [Worker.looping, hphase]

/-- A channel that takes a message, but not late, is that of a worker in its loop. -/
theorem looping_of_send {w : Worker M} (hw : s.workers[i]? = some w) (hresult : s.sendResult i = .ok)
    (hlate : (s.workers[i]?).any Worker.leaving = false) : w.looping = true := by
  have ha : w.alive = true := DispatchState.alive_of_send hw hresult
  rw [hw, Option.any_some, Worker.leaving, ha, Bool.true_and, Bool.not_eq_false'] at hlate
  exact hlate

/-- An update that leaves its worker calm. -/
theorem DispatchState.Calm.update {f : Worker M → Worker M} (hc : s.Calm)
    (hf : ∀ w, s.workers[i]? = some w →
      (f w).cancelled = false ∧ (f w).aborted = false ∧ ((f w).looping = false → (f w).queue = [])) :
    (s.update i f).Calm := by
  intro j w' hw'
  obtain ⟨w, hw, rfl⟩ := DispatchState.getElem?_update hw'
  split
  · rename_i hij
    subst hij
    exact hf w hw
  · exact hc j w hw

theorem DispatchState.Calm.push {message : M} (hc : s.Calm) (hresult : s.sendResult i = .ok)
    (hlate : (s.workers[i]?).any Worker.leaving = false) : (s.push i message).Calm := by
  refine hc.update fun w hw => ?_
  obtain ⟨hcancelled, haborted, -⟩ := hc i w hw
  have hlooping : w.looping = true := looping_of_send hw hresult hlate
  exact ⟨hcancelled, haborted, fun hleft => (by cases hleft.symm.trans hlooping)⟩

theorem DispatchState.Calm.spawnChatWorker (hc : s.Calm) (workerId : UInt64) :
    (s.spawnChatWorker workerId).Calm := by
  intro j w hw
  rw [DispatchState.spawnChatWorker] at hw
  rcases getElem?_concat_cases hw with ⟨-, rfl⟩ | hold
  · exact ⟨rfl, rfl, fun h => (by cases h)⟩
  · exact hc j w hold

/-- **One calm step that is not a late send** discards nothing and stays calm. -/
theorem DispatchState.Calm.step (hc : s.Calm) (hs : s.Steps e s') (hcalm : calm e = true)
    (hlate : lateSend (s, e) = false) : discards (s, e) = [] ∧ s'.Calm := by
  cases hs with
  | spawn => exact ⟨rfl, hc.spawnChatWorker _⟩
  | respawn => exact ⟨rfl, hc.spawnChatWorker _⟩
  | sent hpoll hdispatcher hresult =>
    refine ⟨rfl, hc.push hresult ?_⟩
    simpa [lateSend, DispatchState.target, hpoll, hdispatcher, hresult] using hlate
  | resent hpoll hresult =>
    refine ⟨rfl, hc.push hresult ?_⟩
    simpa [lateSend, DispatchState.target, hpoll, hresult] using hlate
  | @worker i e w w' hw hstep hguard =>
    obtain ⟨hcancelled, haborted, hqueue⟩ := hc i w hw
    obtain ⟨hdiscards, hw'⟩ := hstep.calm hcalm hcancelled haborted hqueue
    refine ⟨?_, hc.update fun _ _ => hw'⟩
    simp only [discards, hw, Option.elim_some, hdiscards]
  | @guard i w w' hw hstep =>
    obtain ⟨hcancelled, haborted, hqueue⟩ := hc i w hw
    obtain ⟨hdiscards, hw'⟩ := hstep.calm hcalm hcancelled haborted hqueue
    refine ⟨?_, hc.update fun _ _ => hw'⟩
    simp only [discards, hw, Option.elim_some, hdiscards]
  | cancelNone => cases hcalm
  | cancel => cases hcalm
  | reactivate =>
    refine ⟨rfl, hc.update fun w hw => ?_⟩
    obtain ⟨-, haborted, hqueue⟩ := hc _ w hw
    exact ⟨rfl, haborted, hqueue⟩
  | _ => exact ⟨rfl, hc⟩

/-! ## A late send always does -/

/-- A worker has left its loop, and a message behind. -/
def DispatchState.Stranded (s : DispatchState M) : Prop :=
  ∃ (i : Nat) (w : Worker M), s.workers[i]? = some w ∧ w.looping = false ∧ w.queue ≠ []

/-- A worker that has left its loop does not come back, nor does it take anything. -/
theorem Worker.Steps.stranded {w w' : Worker M} {connected : Bool} {e : WorkerEvent}
    (hstep : w.Steps connected e w') (hleft : w.looping = false) :
    w'.looping = false ∧ w'.queue = w.queue := by
  cases hstep with
  | abort haborted hphase =>
    exact ⟨rfl, rfl⟩
  | dropGuard => exact ⟨rfl, rfl⟩
  | dropReceiver => exact ⟨rfl, rfl⟩
  | finish => exact ⟨rfl, rfl⟩
  | abortUnstarted => exact ⟨rfl, rfl⟩
  | _ =>
    simp only [Worker.looping, *] at hleft
    cases hleft

/-- An update under which no worker comes back to its loop, and no queue shrinks to nothing. -/
theorem DispatchState.Stranded.update {f : Worker M → Worker M} (hst : s.Stranded)
    (hf : ∀ w, s.workers[i]? = some w → w.looping = false → w.queue ≠ [] →
      (f w).looping = false ∧ (f w).queue ≠ []) : (s.update i f).Stranded := by
  obtain ⟨j, w, hw, hleft, hqueue⟩ := hst
  have hw' : (s.update i f).workers[j]? = some (if i = j then f w else w) := by
    rw [DispatchState.update, List.getElem?_modify, hw]
    rfl
  refine ⟨j, _, hw', ?_⟩
  split
  · rename_i hij
    subst hij
    exact hf w hw hleft hqueue
  · exact ⟨hleft, hqueue⟩

theorem DispatchState.Stranded.spawnChatWorker (hst : s.Stranded) (workerId : UInt64) :
    (s.spawnChatWorker workerId).Stranded := by
  obtain ⟨j, w, hw, hst⟩ := hst
  have hlt : j < s.workers.length := (List.getElem?_eq_some_iff.mp hw).1
  refine ⟨j, w, ?_, hst⟩
  rw [DispatchState.spawnChatWorker, List.getElem?_append_left hlt, hw]

/-- What is stranded stays stranded. -/
theorem DispatchState.Stranded.step (hst : s.Stranded) (hs : s.Steps e s') : s'.Stranded := by
  have hpush : ∀ (worker : Nat) (message : M), (s.push worker message).Stranded := by
    intro worker message
    exact hst.update fun w _ hleft _ => ⟨hleft, List.concat_ne_nil _ _⟩
  have hworker : ∀ {i : Nat} {w w' : Worker M} {connected : Bool} {e : WorkerEvent},
      s.workers[i]? = some w → w.Steps connected e w' → (s.update i fun _ => w').Stranded := by
    intro i w w' connected e hw hstep
    refine hst.update fun v hv hleft hqueue => ?_
    cases hw.symm.trans hv
    obtain ⟨hleft', hsame⟩ := hstep.stranded hleft
    rw [hsame]
    exact ⟨hleft', hqueue⟩
  cases hs with
  | spawn => exact hst.spawnChatWorker _
  | respawn => exact hst.spawnChatWorker _
  | sent => exact hpush _ _
  | resent => exact hpush _ _
  | worker hw hstep => exact hworker hw hstep
  | guard hw hstep => exact hworker hw hstep
  | cancel => exact hst.update fun w _ hleft hqueue => ⟨hleft, hqueue⟩
  | reactivate => exact hst.update fun w _ hleft hqueue => ⟨hleft, hqueue⟩
  | _ => exact hst

/-- A late send strands its message. -/
theorem stranded_of_lateSend (hs : s.Steps e s') (hlate : lateSend (s, e) = true) : s'.Stranded := by
  have hpush : ∀ (worker : Nat) (message : M), (s.workers[worker]?).any Worker.leaving = true →
      (s.push worker message).Stranded := by
    intro worker message hleaving
    obtain ⟨w, hw, hleaving⟩ := (Option.any_eq_true _ _).mp hleaving
    rw [Worker.leaving, Bool.and_eq_true, Bool.not_eq_true'] at hleaving
    refine ⟨worker, { w with queue := w.queue ++ [message] }, ?_, hleaving.2, List.concat_ne_nil _ _⟩
    rw [DispatchState.push, DispatchState.update, List.getElem?_modify, hw]
    exact congrArg some (if_pos rfl)
  cases hs with
  | @sent worker message hpoll hdispatcher hresult =>
    refine hpush worker message ?_
    simpa [lateSend, DispatchState.target, hpoll, hdispatcher, hresult] using hlate
  | @resent worker message hpoll hresult =>
    refine hpush worker message ?_
    simpa [lateSend, DispatchState.target, hpoll, hresult] using hlate
  | refused hpoll hdispatcher hresult =>
    simp [lateSend, DispatchState.target, hpoll, hdispatcher, hresult] at hlate
  | closed hpoll hdispatcher hresult =>
    simp [lateSend, DispatchState.target, hpoll, hdispatcher, hresult] at hlate
  | rejected hpoll hresult =>
    simp [lateSend, DispatchState.target, hpoll, hresult] at hlate
  | _ => cases hlate

end Step

/-! ## Every run -/

section Run

variable {h : DispatchHistory M} {s : DispatchState M}

/-- A calm run without a late send. -/
theorem calm_run (p : Path dispatchSys dispatchStart h s) (hcalm : ∀ x ∈ h, calm x.2 = true)
    (hlate : ∀ x ∈ h, lateSend x = false) : s.Calm ∧ ∀ x ∈ h, discards x = [] := by
  induction p with
  | start =>
    refine ⟨?_, fun x hx => absurd hx List.not_mem_nil⟩
    intro i w hw
    cases hw
  | @step h s s' e p hs ih =>
    obtain ⟨hc, hdiscards⟩ := ih (fun x hx => hcalm x (List.mem_cons_of_mem _ hx))
      fun x hx => hlate x (List.mem_cons_of_mem _ hx)
    obtain ⟨hnone, hc'⟩ := hc.step (DispatchState.steps_of_step hs) (hcalm (s, e) List.mem_cons_self)
      (hlate (s, e) List.mem_cons_self)
    refine ⟨hc', ?_⟩
    intro x hx
    rcases List.mem_cons.mp hx with rfl | hx
    · exact hnone
    · exact hdiscards x hx

/-- A run with a late send. -/
theorem stranded_run (p : Path dispatchSys dispatchStart h s) {x : DispatchState M × DispatchEvent M}
    (hx : x ∈ h) (hlate : lateSend x = true) : s.Stranded := by
  induction p with
  | start => exact absurd hx List.not_mem_nil
  | @step h s s' e p hs ih =>
    have hsteps := DispatchState.steps_of_step hs
    rcases List.mem_cons.mp hx with rfl | hx
    · exact stranded_of_lateSend hsteps hlate
    · exact (ih hx).step hsteps

/-- **Every accepted message is handled**, once and in order, in every calm run in which no `try_send`
    is accepted by a worker that has left its loop.  And only in those: once no worker is on its way
    out, a late send has lost its message. -/
theorem delivered_when (p : Path dispatchSys dispatchStart h s) (hcalm : ∀ x ∈ h, calm x.2 = true) :
    ((∀ x ∈ h, lateSend x = false) → NoneLost h s) ∧
    (s.Settled → NoneLost h s → ∀ x ∈ h, lateSend x = false) := by
  constructor
  · intro hlate
    obtain ⟨hc, hdiscards⟩ := calm_run p hcalm hlate
    refine ⟨conserves.lossless p hdiscards, ?_⟩
    intro i w hw ha
    refine (hc i w hw).2.2 ?_
    cases hphase : w.phase <;> simp_all only [Worker.alive, Worker.looping, Bool.true_eq_false]
  · intro hsettled hnone x hx
    rw [Bool.eq_false_iff]
    intro hlate
    obtain ⟨i, w, hw, hleft, hqueue⟩ := stranded_run p hx hlate
    -- the worker is not on its way out, so it is gone
    have hgone : w.alive = false := by
      have hsettled' := hsettled i w hw
      rwa [Worker.leaving, hleft, Bool.not_false, Bool.and_true] at hsettled'
    exact hqueue (hnone.gone i w hw hgone)

end Run

/-- A message that is handled, and a worker that idles out after it. -/
theorem delivered_when_idle :
    ∃ (h : DispatchHistory String) (s : DispatchState String), Path dispatchSys dispatchStart h s ∧
      acceptedMessages h = ["a"] ∧ (s.workers[0]?).any (fun w => !w.alive) = true ∧ NoneLost h s := by
  have hrun : (dispatchSys.trace (dispatchStart : DispatchState String)
      [.handleUpdate "a", .spawnChatWorker 4, .register, .trySend, .worker 0 .start,
        .worker 0 (.check true), .worker 0 .recv, .worker 0 (.check true), .worker 0 .handled,
        .worker 0 (.check true), .worker 0 .idleTimeout, .worker 0 .dropGuard,
        .worker 0 .dropReceiver]).any (fun r => r.1.all (fun x => calm x.2 && !lateSend x) &&
          (acceptedMessages r.1 == ["a"] && (r.2.workers[0]?).any fun w => !w.alive)) = true := by
    decide
  obtain ⟨h, s, p, hend⟩ := Sys.path_of_trace_any _ hrun
  simp only [Bool.and_eq_true, List.all_eq_true, Bool.not_eq_true', beq_iff_eq] at hend
  obtain ⟨hall, haccepted, hgone⟩ := hend
  exact ⟨h, s, p, haccepted, hgone,
    (delivered_when p fun x hx => (hall x hx).1).1 fun x hx => (hall x hx).2⟩

/-- **A message is lost.**  The worker has handled one message and idles out; the next is accepted by
    its channel before the receiver is dropped. -/
theorem lateSend_lost :
    ∃ (h : DispatchHistory String) (s : DispatchState String), Path dispatchSys dispatchStart h s ∧
      (∀ x ∈ h, calm x.2 = true) ∧ acceptedMessages h = ["a", "b"] ∧ handledMessages h = ["a"] ∧
      (∃ w, s.workers[0]? = some w ∧ w.alive = false ∧ w.queue = ["b"]) ∧ ¬ NoneLost h s := by
  have hrun : (dispatchSys.trace (dispatchStart : DispatchState String)
      [.handleUpdate "a", .spawnChatWorker 4, .register, .trySend, .worker 0 .start,
        .worker 0 (.check true), .worker 0 .recv, .worker 0 (.check true), .worker 0 .handled,
        .worker 0 (.check true), .worker 0 .idleTimeout, .handleUpdate "b", .trySend,
        .worker 0 .dropGuard, .worker 0 .dropReceiver]).any (fun r => r.1.all (fun x => calm x.2) &&
          (acceptedMessages r.1 == ["a", "b"] && (handledMessages r.1 == ["a"] &&
            (r.2.workers[0]?).any fun w => !w.alive && w.queue == ["b"]))) = true := by
    decide
  obtain ⟨h, s, p, hend⟩ := Sys.path_of_trace_any _ hrun
  simp only [Bool.and_eq_true, List.all_eq_true, Bool.not_eq_true', beq_iff_eq,
    Option.any_eq_true] at hend
  obtain ⟨hcalm, haccepted, hhandled, w, hw, hgone, hqueue⟩ := hend
  refine ⟨h, s, p, hcalm, haccepted, hhandled, ⟨w, hw, hgone, hqueue⟩, ?_⟩
  intro hnone
  have hempty := hnone.gone 0 w hw hgone
  rw [hqueue] at hempty
  cases hempty

end Tellm
