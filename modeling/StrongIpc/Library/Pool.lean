import Mathlib.Logic.Function.Basic
import StrongIpc.Library.Interaction
import StrongIpc.Library.StepMachine

/-!
# Calls that take effect at once

Any number of calls, each of them a program that asks for something in a shared state, one
question at a time and in any order; others may change the state in between. A call whose
questions change nothing but for the last, which does all that the call is there for, cannot
be told from one that asks a single question. Nothing here is about a particular program.
-/

namespace Pool

open Interaction StepMachine

universe u v v' w x y z
variable {F : Type u} {E : Type v} {E' : Type v'} {S : Type w} {Q : Type x} {Answer : Q → Type y}
  {R : Type z}

structure Thread (F : Type u) (Answer : Q → Type y) (R : Type z) where
  fn : F
  rest : Program Answer R

structure World (F : Type u) (S : Type w) (Answer : Q → Type y) (R : Type z) where
  state : S
  threads : Nat → Option (Thread F Answer R)

/-- `E` is what the environment may choose to do to a question. -/
inductive Label (F : Type u) (E : Type v) (S : Type w) where
  | enter (i : Nat) (fn : F)
  | ask (i : Nat) (e : E)
  | outside (s : S)
  deriving DecidableEq, Repr

def World.moved (w : World F S Answer R) (i : Nat) (s : S) (thread : Thread F Answer R) :
    World F S Answer R :=
  ⟨s, Function.update w.threads i (some thread)⟩

section Machine
variable (program : F → Program Answer R) (serve : E → (q : Q) → S → Answer q × S)

def step (w : World F S Answer R) : Label F E S → Option (World F S Answer R)
  | .enter i fn =>
    match w.threads i with
    | none => some (w.moved i w.state ⟨fn, program fn⟩)
    | some _ => none
  | .ask i e =>
    match w.threads i with
    | some ⟨fn, .ask q k⟩ => some (w.moved i (serve e q w.state).2 ⟨fn, k (serve e q w.state).1⟩)
    | _ => none
  | .outside s => some { w with state := s }

def machine : Machine (World F S Answer R) (Label F E S) where
  init w := ∀ i, w.threads i = none
  step := step program serve

end Machine

/-- The machine whose calls are one question each. -/
def atomic (perform : E → F → S → R × S) :
    Machine (World F S (fun _ : F => R) R) (Label F E S) :=
  machine (fun fn => .ask fn .ret) perform

/-- The guard of runs in which others keep to what is known of the state. -/
def Kept (I : S → Prop) (_ : World F S Answer R) : Label F E S → Prop
  | .outside s => I s
  | _ => True

instance (I : S → Prop) [DecidablePred I] (w : World F S Answer R) (l : Label F E S) :
    Decidable (Kept I w l) := by
  cases l with
  | outside s => exact inferInstanceAs (Decidable (I s))
  | _ => exact inferInstanceAs (Decidable True)

/-! ## What such a call is -/

/-- Its questions change nothing, but for the last one, which does it all. `grants` relates
what is done to that question to what is done to the call. -/
def Performs (serve : E → (q : Q) → S → Answer q × S) (grants : E → E' → Prop) (I : S → Prop)
    (op : E' → S → R × S) : Program Answer R → Prop
  | .ret _ => False
  | .ask q k => ∀ e s, I s → I (serve e q s).2 ∧
    (((serve e q s).2 = s ∧ Performs serve grants I op (k (serve e q s).1)) ∨
      ∃ e' r, grants e e' ∧ k (serve e q s).1 = .ret r ∧ op e' s = (r, (serve e q s).2))

/-- A question that is answered without a change. -/
theorem performs_reads {serve : E → (q : Q) → S → Answer q × S} {grants : E → E' → Prop}
    {I : S → Prop} {op : E' → S → R × S} {q : Q} {k : Answer q → Program Answer R}
    (answer : S → Answer q) (reads : ∀ e s, serve e q s = (answer s, s))
    (later : ∀ s, I s → Performs serve grants I op (k (answer s)) ∨
      ∃ e' r, (∀ e, grants e e') ∧ k (answer s) = .ret r ∧ op e' s = (r, s)) :
    Performs serve grants I op (.ask q k) := by
  intro e s h
  rw [reads]
  rcases later s h with pending | ⟨e', r, grants, ended, done⟩
  · exact ⟨h, Or.inl ⟨rfl, pending⟩⟩
  · exact ⟨h, Or.inr ⟨e', r, grants e, ended, done⟩⟩

/-- The last question. -/
theorem performs_last {serve : E → (q : Q) → S → Answer q × S} {grants : E → E' → Prop}
    {I : S → Prop} {op : E' → S → R × S} {q : Q} {k : Answer q → Program Answer R}
    (last : ∀ e s, I s → I (serve e q s).2 ∧
      ∃ e' r, grants e e' ∧ k (serve e q s).1 = .ret r ∧ op e' s = (r, (serve e q s).2)) :
    Performs serve grants I op (.ask q k) :=
  fun e s h => ⟨(last e s h).1, Or.inr (last e s h).2⟩

/-- What can be seen of a call: whether it is over, and with what. -/
def Thread.seen (t : Thread F Answer R) : Thread F (fun _ : F => R) R :=
  match t.rest with
  | .ret r => ⟨t.fn, .ret r⟩
  | .ask _ _ => ⟨t.fn, .ask t.fn .ret⟩

def World.seen (w : World F S Answer R) : World F S (fun _ : F => R) R :=
  ⟨w.state, fun i => (w.threads i).map Thread.seen⟩

theorem World.seen_moved (w : World F S Answer R) (i : Nat) (s : S) (t : Thread F Answer R) :
    (w.moved i s t).seen = w.seen.moved i s t.seen := by
  simp only [World.seen, World.moved, World.mk.injEq, true_and]
  funext j
  by_cases here : j = i
  · subst here
    simp
  · simp [here]

theorem performs_seen {serve : E → (q : Q) → S → Answer q × S} {grants : E → E' → Prop}
    {I : S → Prop} {op : E' → S → R × S} {fn : F} {p : Program Answer R}
    (h : Performs serve grants I op p) :
    Thread.seen ⟨fn, p⟩ = ⟨fn, .ask fn .ret⟩ := by
  cases p with
  | ret r => exact absurd h id
  | ask q k => rfl

/-- What a step is in the machine of single questions: a question of a call is that of the
call, or cannot be seen. -/
inductive Becomes (grants : E → E' → Prop) : Label F E S → List (Label F E' S) → Prop where
  | enter (i : Nat) (fn : F) : Becomes grants (.enter i fn) [.enter i fn]
  | reads (i : Nat) (e : E) : Becomes grants (.ask i e) []
  | performs (i : Nat) (e : E) (e' : E') (ok : grants e e') :
      Becomes grants (.ask i e) [.ask i e']
  | outside (s : S) : Becomes grants (.outside s) [.outside s]

def Seen (w : World F S Answer R) (v : World F S (fun _ : F => R) R) : Prop := v = w.seen

def Told (grants : E → E' → Prop) (_ : World F S Answer R) (l : Label F E S)
    (_ : World F S Answer R) (_ : World F S (fun _ : F => R) R) (ls : List (Label F E' S)) : Prop :=
  Becomes grants l ls

/-- What is left of every call is over or still does it all. -/
structure Sound (serve : E → (q : Q) → S → Answer q × S) (grants : E → E' → Prop)
    (perform : E' → F → S → R × S) (I : S → Prop) (w : World F S Answer R) : Prop where
  state : I w.state
  threads : ∀ i fn rest, w.threads i = some ⟨fn, rest⟩ →
    (∃ r, rest = .ret r) ∨ Performs serve grants I (fun e => perform e fn) rest

section Refine
variable {program : F → Program Answer R} {serve : E → (q : Q) → S → Answer q × S}
  {grants : E → E' → Prop} {perform : E' → F → S → R × S} {I : S → Prop} [DecidablePred I]

omit [DecidablePred I] in
theorem Sound.moved {w : World F S Answer R} (h : Sound serve grants perform I w) {i : Nat} {s : S}
    {fn : F} {rest : Program Answer R} (state : I s)
    (left : (∃ r, rest = .ret r) ∨ Performs serve grants I (fun e => perform e fn) rest) :
    Sound serve grants perform I (w.moved i s ⟨fn, rest⟩) := by
  refine ⟨state, fun j fn' rest' there => ?_⟩
  simp only [World.moved, Function.update_apply] at there
  split at there
  · cases there
    exact left
  · exact h.threads j fn' rest' there

/-- A step is one of the machine of single questions, or cannot be seen. -/
theorem sound_step (performs : ∀ fn, Performs serve grants I (fun e => perform e fn) (program fn))
    {w t : World F S Answer R} {l : Label F E S} (h : Sound serve grants perform I w)
    (ok : Kept I w l) (taken : step program serve w l = some t) :
    Sound serve grants perform I t ∧ ∃ ls, Becomes grants l ls ∧
      exec (atomic perform) (Kept I) w.seen ls = some t.seen := by
  cases l with
  | enter i fn =>
    simp only [step] at taken
    split at taken
    · rename_i absent
      cases taken
      refine ⟨h.moved h.state (Or.inr (performs fn)), _, .enter i fn, exec_step trivial ?_ []⟩
      rw [w.seen_moved, performs_seen (performs fn)]
      simp only [atomic, machine, step, World.seen, absent, Option.map_none]
    · cases taken
  | ask i e =>
    simp only [step] at taken
    split at taken
    · rename_i fn q k there
      cases taken
      have pending : Performs serve grants I (fun e => perform e fn) (.ask q k) := by
        rcases h.threads i fn _ there with ⟨r, ended⟩ | pending
        · cases ended
        · exact pending
      obtain ⟨kept, ⟨same, later⟩ | ⟨e', r, granted, ended, done⟩⟩ := pending e w.state h.state
      · refine ⟨h.moved kept (Or.inr later), _, .reads i e, congrArg some ?_⟩
        rw [w.seen_moved, performs_seen later, same, World.moved]
        simp only [World.seen, World.mk.injEq, true_and]
        funext j
        by_cases here : j = i
        · subst here
          rw [Function.update_self, there]
          rfl
        · rw [Function.update_of_ne here]
      · refine ⟨h.moved kept (Or.inl ⟨r, ended⟩), _, .performs i e e' granted,
          exec_step trivial ?_ []⟩
        rw [w.seen_moved, ended]
        simp only [atomic, machine, step, World.seen, there, Option.map_some, Thread.seen, done]
    · cases taken
  | outside s =>
    cases taken
    have kept : Kept I w.seen (.outside s : Label F E' S) := ok
    exact ⟨⟨ok, h.threads⟩, _, .outside s, exec_step kept rfl []⟩

/-- A run of such calls is, label by label, one of single questions. -/
theorem seen_atomic (performs : ∀ fn, Performs serve grants I (fun e => perform e fn) (program fn))
    {labels : List (Label F E S)} {w t : World F S Answer R}
    (start : (machine program serve).init w) (known : I w.state)
    (run : exec (machine program serve) (Kept I) w labels = some t) :
    I t.state ∧ Alongside (machine program serve) (atomic perform) (Kept I) Seen (Told grants)
      w w.seen labels t t.seen := by
  have sound : Sound serve grants perform I w := by
    refine ⟨known, fun i fn rest there => ?_⟩
    rw [start i] at there
    cases there
  have step : ∀ (h : List (Label F E S)) (u : World F S Answer R) (l : Label F E S)
      (t : World F S Answer R) (v : World F S (fun _ : F => R) R),
      Sound serve grants perform I u ∧ v = u.seen → Kept I u l →
      (machine program serve).step u l = some t →
      ∃ ls v', Told grants u l t v ls ∧ exec (atomic perform) (Kept I) v ls = some v' ∧
        (Sound serve grants perform I t ∧ v' = t.seen) := by
    rintro h u l t v ⟨sound, rfl⟩ ok taken
    obtain ⟨sound', ls, told, matched⟩ := sound_step performs sound ok taken
    exact ⟨ls, t.seen, told, matched, sound', rfl⟩
  obtain ⟨v, along, sound', rfl⟩ := exec_alongside (R := Seen)
    (K := fun _ u v => Sound serve grants perform I u ∧ v = u.seen) (fun _ _ _ known => known.2)
    step ⟨sound, rfl⟩ run
  exact ⟨sound'.state, along⟩

end Refine

end Pool
