import Mathlib.Logic.Relation

/-!
# Programs that ask

A program is a tree: it returns a result, or asks its environment for something and goes
on with the answer. Which answers are possible is a relation between questions and
answers. Nothing here is about a particular program.
-/

namespace Interaction

universe u v w x

inductive Program {Q : Type u} (Answer : Q → Type v) (R : Type w) where
  | ret (r : R)
  | ask (q : Q) (k : Answer q → Program Answer R)

variable {Q : Type u} {Answer : Q → Type v} {R S T : Type w}

namespace Program

def bind : Program Answer R → (R → Program Answer S) → Program Answer S
  | .ret r, f => f r
  | .ask q k, f => .ask q fun a => (k a).bind f

instance : Monad (Program Answer) where
  pure := .ret
  bind := bind

theorem bind_assoc (p : Program Answer R) (f : R → Program Answer S) (g : S → Program Answer T) :
    (p.bind f).bind g = p.bind fun r => (f r).bind g := by
  induction p with
  | ret r => rfl
  | ask q k ih => exact congrArg (ask q) (funext ih)

theorem bind_ret (p : Program Answer R) : p.bind .ret = p := by
  induction p with
  | ret r => rfl
  | ask q k ih => exact congrArg (ask q) (funext ih)

/-- What the program returns is so, whatever possible answers it is given. -/
def Always (possible : (q : Q) → Answer q → Prop) (P : R → Prop) : Program Answer R → Prop
  | .ret r => P r
  | .ask q k => ∀ a, possible q a → (k a).Always possible P

variable {possible : (q : Q) → Answer q → Prop}

theorem always_bind {P : S → Prop} {p : Program Answer R} {f : R → Program Answer S}
    (h : p.Always possible fun r => (f r).Always possible P) : (p.bind f).Always possible P := by
  induction p with
  | ret r => exact h
  | ask q k ih => exact fun a ok => ih a (h a ok)

theorem always_mono {P P' : R → Prop} {p : Program Answer R} (weaker : ∀ r, P r → P' r)
    (h : p.Always possible P) : p.Always possible P' := by
  induction p with
  | ret r => exact weaker r h
  | ask q k ih => exact fun a ok => ih a (h a ok)

theorem always_of_forall {P : R → Prop} (h : ∀ r, P r) (p : Program Answer R) :
    p.Always possible P := by
  induction p with
  | ret r => exact h r
  | ask q k ih => exact fun a _ => ih a

variable (possible) in
/-- One question has been answered. -/
inductive Answered : Program Answer R → Program Answer R → Prop where
  | answer (q : Q) (k : Answer q → Program Answer R) (a : Answer q) (ok : possible q a) :
      Answered (.ask q k) (k a)

variable (possible) in
/-- What is left of a program after some possible answers. -/
def Leads : Program Answer R → Program Answer R → Prop := Relation.ReflTransGen (Answered possible)

theorem always_leads {P : R → Prop} {p p' : Program Answer R} (h : p.Always possible P)
    (path : Leads possible p p') : p'.Always possible P := by
  induction path with
  | refl => exact h
  | tail _ next ih =>
    cases next with
    | answer q k a ok => exact ih a ok

variable (possible) in
/-- Every question it comes to ask is a `P`, and every result a `post`. -/
def Meets (P : Q → Prop) (post : R → Prop) : Program Answer R → Prop
  | .ret r => post r
  | .ask q k => P q ∧ ∀ a, possible q a → (k a).Meets P post

theorem meets_bind {P : Q → Prop} {post : S → Prop} {p : Program Answer R}
    {f : R → Program Answer S} (h : p.Meets possible P fun r => (f r).Meets possible P post) :
    (p.bind f).Meets possible P post := by
  induction p with
  | ret r => exact h
  | ask q k ih => exact ⟨h.1, fun a ok => ih a (h.2 a ok)⟩

theorem meets_mono {P P' : Q → Prop} {post post' : R → Prop} {p : Program Answer R}
    (weaker : ∀ q, P q → P' q) (weaker' : ∀ r, post r → post' r) (h : p.Meets possible P post) :
    p.Meets possible P' post' := by
  induction p with
  | ret r => exact weaker' r h
  | ask q k ih => exact ⟨weaker q h.1, fun a ok => ih a (h.2 a ok)⟩

/-! ## Running alone -/

section Run
variable {St : Type x} (serve : (q : Q) → St → Answer q × St)

/-- The run of a program that nobody else comes between. -/
def run : Program Answer R → St → R × St
  | .ret r, s => (r, s)
  | .ask q k, s => (k (serve q s).1).run (serve q s).2

theorem run_bind (p : Program Answer R) (f : R → Program Answer S) (s : St) :
    (p.bind f).run serve s = (f (p.run serve s).1).run serve (p.run serve s).2 := by
  induction p generalizing s with
  | ret r => rfl
  | ask q k ih => exact ih (serve q s).1 (serve q s).2

variable {serve}

/-- What every question that is asked leaves as it is, the run leaves as it is. -/
theorem run_meets {P : Q → Prop} {post : R → Prop} {I : St → Prop} {p : Program Answer R}
    (answers : ∀ q s, possible q (serve q s).1) (keep : ∀ q s, P q → I s → I (serve q s).2)
    (h : p.Meets possible P post) {s : St} (hs : I s) :
    post (p.run serve s).1 ∧ I (p.run serve s).2 := by
  induction p generalizing s with
  | ret r => exact ⟨h, hs⟩
  | ask q k ih => exact ih _ (h.2 _ (answers q s)) (keep q s h.1 hs)

end Run

end Program
end Interaction
