/-
  CUSTODY of resources: who answers for what.

  A resource that is alive should have an owner, who will release it, and no more than one, or it is
  released twice.  A step creates a resource in somebody's custody, moves custody from one owner to
  another, or ends it.

  1. **`Sole`**: no resource has two owners.  `HandsOver` says how custody may move in one step: the step
     has one receiver, who gets what is new or what an owner gives up.  Then no resource gets a second
     owner (`Sole.step`), and what has no owner never gets one again (`unowned_step`).
  2. **`Covered`**: whatever is alive has an owner.  A step keeps that if whatever it gives up without a
     receiver is not alive after it (`Covered.step`).

  Resources and owners are of any types, and `owns` is a relation on states, so one system may be looked
  at under several notions of custody.  A step that does nothing about custody hands over to anybody
  (`HandsOver.of_old`), which is the case for most steps of a program.

  The two rules are independent: that nothing is owned twice does not need that everything alive is owned,
  and a program may have the first without the second.  Together they say that each resource is released
  exactly once, if owners release what they own.
-/
import Mathlib

namespace Custodies

variable {σ Owner Resource : Type} (owns : σ → Owner → Resource → Prop)

/-- No resource has two owners. -/
def Sole (s : σ) : Prop := ∀ o o' r, owns s o r → owns s o' r → o = o'

/-- Nobody owns the resource. -/
def Unowned (s : σ) (r : Resource) : Prop := ∀ o, ¬ owns s o r

/-- How custody moves in one step: what the receiver has more is new, or given up by its owner; the others
    have no more than before. -/
def HandsOver (fresh : Resource → Prop) (s s' : σ) : Prop :=
  ∃ receiver, ∀ o r, owns s' o r →
    owns s o r ∨ (o = receiver ∧ (fresh r ∨ ∃ giver, owns s giver r ∧ ¬ owns s' giver r))

/-- Every resource that is alive has an owner. -/
def Covered (alive : σ → Resource → Prop) (s : σ) : Prop := ∀ r, alive s r → ∃ o, owns s o r

variable {owns} {fresh : Resource → Prop} {s s' : σ}

/-- Nobody has more than before. -/
theorem HandsOver.of_old [Inhabited Owner] (h : ∀ o r, owns s' o r → owns s o r) :
    HandsOver owns fresh s s' :=
  ⟨default, fun o r ho => Or.inl (h o r ho)⟩

theorem Sole.step (h : Sole owns s) (hstep : HandsOver owns fresh s s')
    (hfresh : ∀ r, fresh r → Unowned owns s r) : Sole owns s' := by
  obtain ⟨receiver, hreceiver⟩ := hstep
  -- an owner from before and the receiver: the giver is that owner, and has it no more
  have hold : ∀ {o r}, owns s o r → owns s' o r →
      (fresh r ∨ ∃ giver, owns s giver r ∧ ¬ owns s' giver r) → False := by
    rintro o r ho ho' (hr | ⟨giver, hgiver, hgone⟩)
    · exact hfresh r hr o ho
    · exact hgone (h giver o r hgiver ho ▸ ho')
  intro o o' r ho ho'
  rcases hreceiver o r ho with hbefore | ⟨rfl, hgot⟩
  · rcases hreceiver o' r ho' with hbefore' | ⟨rfl, hgot'⟩
    · exact h o o' r hbefore hbefore'
    · exact (hold hbefore ho hgot').elim
  · rcases hreceiver o' r ho' with hbefore' | ⟨rfl, -⟩
    · exact (hold hbefore' ho' hgot).elim
    · rfl

/-- What nobody owns stays so. -/
theorem unowned_step {r : Resource} (h : Unowned owns s r) (hstep : HandsOver owns fresh s s')
    (hold : ¬ fresh r) :
    Unowned owns s' r := by
  obtain ⟨receiver, hreceiver⟩ := hstep
  intro o ho
  rcases hreceiver o r ho with hbefore | ⟨-, hfresh | ⟨giver, hgiver, -⟩⟩
  · exact h o hbefore
  · exact hold hfresh
  · exact h giver hgiver

/-- What comes alive has an owner, and what is given up without a receiver is not alive. -/
theorem Covered.step {alive : σ → Resource → Prop} (h : Covered owns alive s)
    (hnew : ∀ r, alive s' r → alive s r ∨ ∃ o, owns s' o r)
    (hgiven : ∀ o r, owns s o r → alive s' r → ∃ o', owns s' o' r) : Covered owns alive s' := by
  intro r hr
  rcases hnew r hr with hbefore | howned
  · obtain ⟨o, ho⟩ := h r hbefore
    exact hgiven o r ho hr
  · exact howned

end Custodies
