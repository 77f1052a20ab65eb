/-
  MAILBOX: one server, its queue, and the replies that its clients wait for.

  A client posts a body and waits for the reply; the server takes the oldest body, does what it asks and
  replies; a server that stops takes nothing more, and who waits is told so.  A client may go away while it
  waits: its body stays queued and is served like any other.

  The n-th body that is posted gets the TICKET n, and the server replies in the order of the queue, so the
  replies so far are the replies to the first tickets, and the queue holds the bodies of the next ones.  No
  ticket is stored.

  1. **`Mailbox`**: `post`, `serve`, `close`.
  2. **`Pending`**: the body of a ticket is queued, and nothing of its kind behind it.  Serving brings it
     forward until it is answered (`Pending.serve`).

  A closed mailbox has an empty queue and a reply for every ticket that was ever given out, so nobody
  waits for ever.  Bodies and replies are of any types, and a reply is computed from the body when it is
  served.

  `Pending` is for a client that needs to know that its own body will be the last of a kind to be served:
  it survives other clients' posts of other kinds, and ends with the reply.
-/
import Mathlib

namespace Mailboxes

/-- Messages on their way to a thread, and the replies on their way back. -/
structure Mailbox (β ρ : Type) where
  /-- Oldest first, both. -/
  queue : List β := []
  replies : List ρ := []
  isOpen : Bool := true

namespace Mailbox

variable {β ρ : Type}

/-- The ticket that the next body gets. -/
def next (self : Mailbox β ρ) : Nat := self.replies.length + self.queue.length

/-- The reply under a ticket, once there is one. -/
def reply (self : Mailbox β ρ) (ticket : Nat) : Option ρ := self.replies[ticket]?

/-- Nothing can be posted to a closed mailbox. -/
def post (self : Mailbox β ρ) (body : β) : Option (Mailbox β ρ) :=
  if self.isOpen then some { self with queue := self.queue ++ [body] } else none

/-- The oldest body, and the mailbox once it has been served with `answer`. -/
def serve (self : Mailbox β ρ) (answer : β → ρ) : Option (β × Mailbox β ρ) :=
  match self.queue with
  | [] => none
  | body :: queue => some (body, { self with queue := queue, replies := self.replies ++ [answer body] })

/-- The server is gone: what is queued is lost, and whoever waits for it gets `lost`. -/
def close (self : Mailbox β ρ) (lost : ρ) : Mailbox β ρ where
  queue := []
  replies := self.replies ++ self.queue.map fun _ => lost
  isOpen := false

variable {self mailbox : Mailbox β ρ} {body : β} {answer : β → ρ} {ticket : Nat}

theorem post_eq_some : self.post body = some mailbox ↔
    self.isOpen = true ∧ mailbox = { self with queue := self.queue ++ [body] } := by
  unfold post
  constructor
  · intro h
    split at h
    · rename_i hopen
      exact ⟨hopen, (Option.some.inj h).symm⟩
    · cases h
  · rintro ⟨hopen, rfl⟩
    rw [if_pos hopen]

theorem post_eq_none : self.post body = none ↔ self.isOpen = false := by
  unfold post
  cases self.isOpen <;> simp

theorem serve_eq_some : self.serve answer = some (body, mailbox) ↔
    ∃ queue, self.queue = body :: queue ∧
      mailbox = { self with queue := queue, replies := self.replies ++ [answer body] } := by
  unfold serve
  constructor
  · intro h
    split at h
    · cases h
    · rename_i body' queue hqueue
      obtain ⟨rfl, rfl⟩ := Prod.mk.inj (Option.some.inj h)
      exact ⟨queue, hqueue, rfl⟩
  · rintro ⟨queue, hqueue, rfl⟩
    rw [hqueue]

/-- A reply stays, whatever is served. -/
theorem reply_serve {reply : ρ} (h : self.reply ticket = some reply)
    (hserve : self.serve answer = some (body, mailbox)) : mailbox.reply ticket = some reply := by
  obtain ⟨queue, -, rfl⟩ := serve_eq_some.mp hserve
  exact (List.getElem?_append_left (List.getElem?_eq_some_iff.mp h).1).trans h

theorem reply_close {reply : ρ} (h : self.reply ticket = some reply) (lost : ρ) :
    (self.close lost).reply ticket = some reply :=
  (List.getElem?_append_left (List.getElem?_eq_some_iff.mp h).1).trans h

/-! ## The body of a ticket -/

/-- The body of the ticket is queued behind `before`, and nothing of its kind behind it. -/
structure Pending (kind : β → Bool) (box : Mailbox β ρ) (ticket : Nat) (before : List β) (body : β) :
    Prop where
  queued : ∃ after, box.queue = before ++ body :: after ∧ ∀ b ∈ after, kind b = false
  ticket : box.replies.length + before.length = ticket

variable {kind : β → Bool} {before : List β}

/-- What is posted last is pending. -/
theorem Pending.post (h : self.post body = some mailbox) :
    Pending kind mailbox self.next self.queue body := by
  obtain ⟨-, rfl⟩ := post_eq_some.mp h
  exact ⟨⟨[], rfl, fun _ h => absurd h List.not_mem_nil⟩, rfl⟩

/-- And stays pending when bodies of other kinds are posted. -/
theorem Pending.append {others : List β} (hp : Pending kind self ticket before body)
    (hqueue : mailbox.queue = self.queue ++ others) (hreplies : mailbox.replies = self.replies)
    (hkind : ∀ b ∈ others, kind b = false) : Pending kind mailbox ticket before body := by
  obtain ⟨⟨after, hself, hafter⟩, hticket⟩ := hp
  refine ⟨⟨after ++ others, by simp [hqueue, hself], ?_⟩, hreplies ▸ hticket⟩
  intro b hb
  exact (List.mem_append.mp hb).elim (hafter b) (hkind b)

/-- Serving brings it forward, or answers it. -/
theorem Pending.serve {head : β} (hp : Pending kind self ticket before body)
    (h : self.serve answer = some (head, mailbox)) :
    (∃ rest, before = head :: rest ∧ Pending kind mailbox ticket rest body) ∨
    (before = [] ∧ head = body ∧ ticket = self.replies.length ∧
      mailbox.reply ticket = some (answer body) ∧ ∀ b ∈ mailbox.queue, kind b = false) := by
  obtain ⟨queue, hhead, rfl⟩ := serve_eq_some.mp h
  obtain ⟨⟨after, hqueue, hafter⟩, rfl⟩ := hp
  rw [hhead] at hqueue
  cases before with
  | nil =>
    obtain ⟨rfl, rfl⟩ := List.cons.inj hqueue
    exact Or.inr ⟨rfl, rfl, rfl, by simp [reply], hafter⟩
  | cons b rest =>
    obtain ⟨rfl, rfl⟩ := List.cons.inj hqueue
    refine Or.inl ⟨rest, rfl, ⟨⟨after, rfl, hafter⟩, ?_⟩⟩
    simp only [List.length_append, List.length_cons, List.length_nil]
    omega

/-- Closing answers it. -/
theorem Pending.close (hp : Pending kind self ticket before body) (lost : ρ) :
    (self.close lost).reply ticket = some lost := by
  obtain ⟨⟨after, hqueue, -⟩, rfl⟩ := hp
  simp [reply, Mailbox.close, hqueue]

/-- As long as it is pending, there is no reply. -/
theorem Pending.reply_eq_none (hp : Pending kind self ticket before body) : self.reply ticket = none := by
  obtain ⟨-, rfl⟩ := hp
  simp [reply]

end Mailbox

end Mailboxes
