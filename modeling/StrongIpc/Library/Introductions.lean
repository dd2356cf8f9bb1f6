import Mathlib.Logic.Basic

/-!
# Only acquaintance begets acquaintance

Parties have claims to objects, and an object is at home with one party. With a claim to
an object goes the power to hand claims to the party that it is at home with. Whoever
comes by claims in no other way stays among those that it was linked with, and a claim
that is handed to no outsider stays inside.
-/

namespace Introductions

universe u v
variable {P : Type u} {O : Type v}

/-- How a party may come by a claim: it had it; the object is its own and new; somebody who
had it handed it on to an object of the party's; or the party was offered it by somebody
who had it. -/
inductive Spread (home : O → P → Prop) (isNew : O → Prop) (hands : P → O → O → Prop)
    (offers : P → P → O → Prop) (C : P → O → Prop) : P → O → Prop where
  | kept (p : P) (o : O) (had : C p o) : Spread home isNew hands offers C p o
  | own (p : P) (o : O) (mine : home o p) (made : isNew o) : Spread home isNew hands offers C p o
  | handed (p q : P) (o n : O) (hand : hands p o n) (had : C p o) (reach : C p n)
      (there : home n q) : Spread home isNew hands offers C q o
  | met (p q : P) (o : O) (meeting : offers p q o) (had : C q o) :
      Spread home isNew hands offers C p o

/-- The one has a claim to an object of the other. -/
def Knows (home : O → P → Prop) (C : P → O → Prop) (p q : P) : Prop := ∃ o, C p o ∧ home o q

variable {home : O → P → Prop} {isNew : O → Prop} {hands : P → O → O → Prop}
  {offers : P → P → O → Prop} {C : P → O → Prop}

/-- What was there and is claimed now was claimed before. -/
theorem Spread.had {p : P} {o : O} (h : Spread home isNew hands offers C p o) (old : ¬ isNew o) :
    ∃ q, C q o := by
  cases h with
  | kept _ _ had => exact ⟨p, had⟩
  | own _ _ _ made => exact absurd made old
  | handed q _ _ _ _ had _ _ => exact ⟨q, had⟩
  | met _ q _ _ had => exact ⟨q, had⟩

/-- A claim that all who have it hand and offer to none but insiders stays inside. -/
theorem Spread.inside {S : P → Prop} {p : P} {o : O} (h : Spread home isNew hands offers C p o)
    (old : ¬ isNew o) (before : ∀ p, C p o → S p)
    (keeps : ∀ p n q, S p → hands p o n → home n q → S q)
    (barred : ∀ p q, offers p q o → S p) : S p := by
  cases h with
  | kept _ _ had => exact before p had
  | own _ _ _ made => exact absurd made old
  | handed q _ _ n hand had _ there => exact keeps q n p (before q had) hand there
  | met _ q _ meeting _ => exact barred p q meeting

/-- New acquaintances are within any equivalence that has the old ones and the meetings. -/
theorem knows_spread {E : P → P → Prop} (equivalence : Equivalence E)
    (unique : ∀ o p q, home o p → home o q → p = q) (within : ∀ p q o, offers p q o → E p q)
    (old : ∀ p q, Knows home C p q → E p q) {p q : P}
    (h : Knows home (Spread home isNew hands offers C) p q) : E p q := by
  obtain ⟨o, claim, there⟩ := h
  cases claim with
  | kept _ _ had => exact old p q ⟨o, had, there⟩
  | own _ _ mine _ =>
    obtain rfl := unique o p q mine there
    exact equivalence.refl p
  | handed r _ _ n _ had reach at_home =>
    have to_sender : E p r := equivalence.symm (old r p ⟨n, reach, at_home⟩)
    exact equivalence.trans to_sender (old r q ⟨o, had, there⟩)
  | met _ r _ meeting had =>
    exact equivalence.trans (within p r o meeting) (old r q ⟨o, had, there⟩)

end Introductions
