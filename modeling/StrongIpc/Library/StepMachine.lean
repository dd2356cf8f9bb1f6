import Mathlib.Logic.Relation

/-!
# Labelled machines, guarded runs and their invariants

A label names the party that moves together with the answer its environment
gives, so that a step is a partial function and a run is a list of labels.
A guard restricts which steps a run may take: the unguarded runs are those of
the guard that allows everything. Nothing here is about a particular program.
-/

namespace StepMachine

universe u v w x

structure Machine (S : Type u) (A : Type v) where
  init : S → Prop
  step : S → A → Option S

variable {S : Type u} {A : Type v}

/-- The guard that allows every step. -/
def anyStep (_ : S) (_ : A) : Prop := True

instance (s : S) (a : A) : Decidable (anyStep s a) := inferInstanceAs (Decidable True)

def Next (M : Machine S A) (guard : S → A → Prop) (s t : S) : Prop :=
  ∃ a, guard s a ∧ M.step s a = some t

/-- Any number of guarded steps. -/
def Steps (M : Machine S A) (guard : S → A → Prop) : S → S → Prop :=
  Relation.ReflTransGen (Next M guard)

def Reachable (M : Machine S A) (guard : S → A → Prop) (s : S) : Prop :=
  ∃ s₀, M.init s₀ ∧ Steps M guard s₀ s

theorem reachable_init {M : Machine S A} {guard : S → A → Prop} {s : S}
    (h : M.init s) : Reachable M guard s :=
  ⟨s, h, .refl⟩

theorem reachable_steps {M : Machine S A} {guard : S → A → Prop} {s t : S}
    (hs : Reachable M guard s) (ht : Steps M guard s t) : Reachable M guard t := by
  obtain ⟨s₀, h₀, path⟩ := hs
  exact ⟨s₀, h₀, path.trans ht⟩

theorem reachable_step {M : Machine S A} {guard : S → A → Prop} {s t : S} {a : A}
    (hs : Reachable M guard s) (ok : guard s a) (ht : M.step s a = some t) :
    Reachable M guard t :=
  reachable_steps hs (.single ⟨a, ok, ht⟩)

theorem steps_mono {M : Machine S A} {g g' : S → A → Prop}
    (weaker : ∀ s a, g s a → g' s a) {s t : S} (h : Steps M g s t) : Steps M g' s t :=
  Relation.ReflTransGen.mono (fun _ _ ⟨a, ok, ht⟩ => ⟨a, weaker _ _ ok, ht⟩) _ _ h

theorem reachable_mono {M : Machine S A} {g g' : S → A → Prop}
    (weaker : ∀ s a, g s a → g' s a) {s : S} (h : Reachable M g s) : Reachable M g' s := by
  obtain ⟨s₀, h₀, path⟩ := h
  exact ⟨s₀, h₀, steps_mono weaker path⟩

theorem reachable_unguarded {M : Machine S A} {guard : S → A → Prop} {s : S}
    (h : Reachable M guard s) : Reachable M anyStep s :=
  reachable_mono (fun _ _ _ => trivial) h

/-- What every guarded step keeps holds after any number of them. -/
theorem steps_invariant {M : Machine S A} {guard : S → A → Prop} {P : S → Prop}
    (keep : ∀ s a t, P s → guard s a → M.step s a = some t → P t)
    {s t : S} (h : Steps M guard s t) (hs : P s) : P t := by
  induction h with
  | refl => exact hs
  | tail _ next ih =>
    obtain ⟨a, ok, ht⟩ := next
    exact keep _ a _ ih ok ht

theorem reachable_invariant {M : Machine S A} {guard : S → A → Prop} {P : S → Prop}
    (start : ∀ s, M.init s → P s)
    (keep : ∀ s a t, P s → guard s a → M.step s a = some t → P t)
    {s : S} (h : Reachable M guard s) : P s := by
  obtain ⟨s₀, h₀, path⟩ := h
  exact steps_invariant keep path (start s₀ h₀)

/-- An invariant whose step proof may use an invariant already known. -/
theorem reachable_invariant_with {M : Machine S A} {guard : S → A → Prop} {Q P : S → Prop}
    (known : ∀ s, Reachable M guard s → Q s)
    (start : ∀ s, M.init s → P s)
    (keep : ∀ s a t, Q s → P s → guard s a → M.step s a = some t → P t)
    {s : S} (h : Reachable M guard s) : P s := by
  obtain ⟨s₀, h₀, path⟩ := h
  induction path with
  | refl => exact start s₀ h₀
  | tail path next ih =>
    obtain ⟨a, ok, ht⟩ := next
    exact keep _ a _ (known _ ⟨s₀, h₀, path⟩) ih ok ht

/-- The same from an arbitrary state on, for what holds only from some moment of a run. -/
theorem steps_invariant_with {M : Machine S A} {guard : S → A → Prop} {Q P : S → Prop}
    (known : ∀ s, Reachable M guard s → Q s)
    (keep : ∀ s a t, Q s → P s → guard s a → M.step s a = some t → P t)
    {s t : S} (hs : Reachable M guard s) (h : Steps M guard s t) (hp : P s) : P t := by
  induction h with
  | refl => exact hp
  | tail path next ih =>
    obtain ⟨a, ok, ht⟩ := next
    exact keep _ a _ (known _ (reachable_steps hs path)) ih ok ht

/-- Take the labels in order, giving up at the first one that is not allowed or not enabled. -/
def exec (M : Machine S A) (guard : S → A → Prop) [∀ s a, Decidable (guard s a)] :
    S → List A → Option S
  | s, [] => some s
  | s, a :: rest =>
    if guard s a then
      match M.step s a with
      | none => none
      | some t => exec M guard t rest
    else none

/-- The first label of a run was allowed and taken. -/
theorem exec_cons {M : Machine S A} {guard : S → A → Prop} [∀ s a, Decidable (guard s a)]
    {a : A} {rest : List A} {s u : S} (h : exec M guard s (a :: rest) = some u) :
    ∃ t, guard s a ∧ M.step s a = some t ∧ exec M guard t rest = some u := by
  rw [exec] at h
  split at h
  · rename_i ok
    cases hstep : M.step s a with
    | none => simp [hstep] at h
    | some t => exact ⟨t, ok, rfl, by simpa [hstep] using h⟩
  · cases h

theorem exec_step {M : Machine S A} {guard : S → A → Prop} [∀ s a, Decidable (guard s a)]
    {a : A} {s t : S} (ok : guard s a) (h : M.step s a = some t) (rest : List A) :
    exec M guard s (a :: rest) = exec M guard t rest := by
  rw [exec, if_pos ok, h]

theorem exec_mono {M : Machine S A} {g g' : S → A → Prop} [∀ s a, Decidable (g s a)]
    [∀ s a, Decidable (g' s a)] (weaker : ∀ s a, g s a → g' s a) {labels : List A} {s t : S}
    (h : exec M g s labels = some t) : exec M g' s labels = some t := by
  induction labels generalizing s with
  | nil => exact h
  | cons a rest ih =>
    obtain ⟨r, ok, hstep, tail⟩ := exec_cons h
    exact (exec_step (weaker s a ok) hstep rest).trans (ih tail)

theorem exec_append {M : Machine S A} {guard : S → A → Prop} [∀ s a, Decidable (guard s a)]
    {labels : List A} {s t : S} (h : exec M guard s labels = some t) (later : List A) :
    exec M guard s (labels ++ later) = exec M guard t later := by
  induction labels generalizing s with
  | nil =>
    cases h
    rfl
  | cons a rest ih =>
    obtain ⟨r, ok, hstep, tail⟩ := exec_cons h
    rw [List.cons_append, exec_step ok hstep]
    exact ih tail

theorem exec_steps {M : Machine S A} {guard : S → A → Prop} [∀ s a, Decidable (guard s a)]
    {labels : List A} {s t : S} (h : exec M guard s labels = some t) : Steps M guard s t := by
  induction labels generalizing s with
  | nil =>
    cases h
    exact .refl
  | cons a rest ih =>
    obtain ⟨r, ok, hstep, tail⟩ := exec_cons h
    exact .head ⟨a, ok, hstep⟩ (ih tail)

/-- The steps of a run are those of its labels. -/
theorem exec_steps_within {M : Machine S A} {guard : S → A → Prop} [∀ s a, Decidable (guard s a)]
    {labels : List A} {s t : S} (h : exec M guard s labels = some t) :
    Steps M (fun _ a => a ∈ labels) s t := by
  induction labels generalizing s with
  | nil =>
    cases h
    exact .refl
  | cons a rest ih =>
    obtain ⟨r, _, hstep, tail⟩ := exec_cons h
    have later := steps_mono (fun _ b (hb : b ∈ rest) => List.mem_cons_of_mem a hb) (ih tail)
    exact .head ⟨a, List.mem_cons_self, hstep⟩ later

/-- What every step keeps of the state and of what was done so far. -/
theorem exec_history {M : Machine S A} {guard : S → A → Prop} [∀ s a, Decidable (guard s a)]
    {K : List A → S → Prop}
    (keep : ∀ h s a t, K h s → guard s a → M.step s a = some t → K (h ++ [a]) t)
    {labels : List A} {s t : S} (start : K [] s) (run : exec M guard s labels = some t) :
    K labels t := by
  have later : ∀ (rest h : List A) (r : S), K h r → exec M guard r rest = some t →
      K (h ++ rest) t := by
    intro rest
    induction rest with
    | nil =>
      intro h r known ended
      cases ended
      rw [List.append_nil]
      exact known
    | cons a rest ih =>
      intro h r known run
      obtain ⟨r', ok, taken, tail⟩ := exec_cons run
      rw [List.append_cons]
      exact ih _ r' (keep h r a r' known ok taken) tail
  exact later labels [] s start run

/-- Of one's own steps a run has no more than there was work, if each of them does some and
others bring new work only where it is paid for. -/
theorem exec_budget {M : Machine S A} {guard : S → A → Prop} [∀ s a, Decidable (guard s a)]
    {P : S → Prop} {work : S → Nat} {own paid : A → Bool} {n : Nat}
    (keep : ∀ s a t, P s → guard s a → M.step s a = some t →
      P t ∧ work t + (if own a then 1 else 0) ≤ work s + if paid a then n else 0)
    {labels : List A} {s t : S} (h : exec M guard s labels = some t) (hs : P s) :
    P t ∧ labels.countP own + work t ≤ work s + n * labels.countP paid := by
  induction labels generalizing s with
  | nil =>
    cases h
    exact ⟨hs, by simp⟩
  | cons a rest ih =>
    obtain ⟨r, ok, hstep, tail⟩ := exec_cons h
    obtain ⟨hr, less⟩ := keep s a r hs ok hstep
    obtain ⟨ht, bound⟩ := ih tail hr
    refine ⟨ht, ?_⟩
    have fee : n * (if paid a = true then 1 else 0) = if paid a = true then n else 0 := by
      split
      · exact Nat.mul_one n
      · exact Nat.mul_zero n
    rw [List.countP_cons, List.countP_cons, Nat.mul_add, fee]
    omega

/-- The same where nobody brings new work. -/
theorem exec_share {M : Machine S A} {guard : S → A → Prop} [∀ s a, Decidable (guard s a)]
    {P : S → Prop} {work : S → Nat} {own : A → Bool}
    (keep : ∀ s a t, P s → guard s a → M.step s a = some t →
      P t ∧ work t + (if own a then 1 else 0) ≤ work s)
    {labels : List A} {s t : S} (h : exec M guard s labels = some t) (hs : P s) :
    P t ∧ labels.countP own + work t ≤ work s := by
  have budget : ∀ s a t, P s → guard s a → M.step s a = some t →
      P t ∧ work t + (if own a then 1 else 0) ≤ work s + if (fun _ => false) a then 0 else 0 := by
    intro s a t hs ok hstep
    simpa using keep s a t hs ok hstep
  simpa using exec_budget budget h hs

/-- A run has no more steps than there was work, if every step does some. -/
theorem exec_work {M : Machine S A} {guard : S → A → Prop} [∀ s a, Decidable (guard s a)]
    {P : S → Prop} {work : S → Nat}
    (keep : ∀ s a t, P s → guard s a → M.step s a = some t → P t ∧ work t < work s)
    {labels : List A} {s t : S} (h : exec M guard s labels = some t) (hs : P s) :
    P t ∧ labels.length + work t ≤ work s := by
  have share : ∀ s a t, P s → guard s a → M.step s a = some t →
      P t ∧ work t + (if (fun _ => true) a then 1 else 0) ≤ work s := by
    intro s a t hs ok hstep
    obtain ⟨ht, less⟩ := keep s a t hs ok hstep
    exact ⟨ht, by simpa using Nat.succ_le_of_lt less⟩
  simpa using exec_share share h hs

theorem exec_reachable {M : Machine S A} {guard : S → A → Prop}
    [∀ s a, Decidable (guard s a)] {labels : List A} {s t : S} (h₀ : M.init s)
    (h : exec M guard s labels = some t) : Reachable M guard t :=
  ⟨s, h₀, exec_steps h⟩

/-! ## Refinement -/

/-- A machine each of whose steps is matched by any number of another's has its runs matched
by those of the other. What the two states have to do with each other may depend on what
was done so far. -/
theorem exec_simulate {T : Type u} {B : Type v} {M : Machine S A} {N : Machine T B}
    {R : List A → S → T → Prop}
    (step : ∀ h s a s' t, R h s t → M.step s a = some s' →
      ∃ t', Steps N anyStep t t' ∧ R (h ++ [a]) s' t')
    {labels : List A} {s s' : S} {t : T} (start : R [] s t)
    (run : exec M anyStep s labels = some s') :
    ∃ t', Steps N anyStep t t' ∧ R labels s' t' := by
  refine exec_history (K := fun h r => ∃ u, Steps N anyStep t u ∧ R h r u) ?_ ⟨t, .refl, start⟩ run
  rintro h r a r' ⟨u, before, related⟩ _ taken
  obtain ⟨u', next, related'⟩ := step h r a r' u related taken
  exact ⟨u', before.trans next, related'⟩

/-- Two runs alongside each other: some steps of the second go with each step of the first,
and `R` relates the states at the start and after every step. -/
inductive Alongside {T : Type w} {B : Type x} (M : Machine S A) (N : Machine T B)
    (guard : T → B → Prop) [∀ t b, Decidable (guard t b)] (R : S → T → Prop)
    (goes : S → A → S → T → List B → Prop) : S → T → List A → S → T → Prop where
  | start {s : S} {t : T} (related : R s t) : Alongside M N guard R goes s t [] s t
  | step {s s' s'' : S} {t t' t'' : T} {labels : List A} {a : A} {acts : List B}
      (before : Alongside M N guard R goes s t labels s' t') (taken : M.step s' a = some s'')
      (told : goes s' a s'' t' acts) (acted : exec N guard t' acts = some t'')
      (related : R s'' t'') : Alongside M N guard R goes s t (labels ++ [a]) s'' t''

/-- `K` is what is known of the two states, which may depend on what was done so far. -/
theorem exec_alongside {T : Type w} {B : Type x} {M : Machine S A} {N : Machine T B}
    {allowed : S → A → Prop} [∀ s a, Decidable (allowed s a)] {guard : T → B → Prop}
    [∀ t b, Decidable (guard t b)] {R : S → T → Prop} {goes : S → A → S → T → List B → Prop}
    {K : List A → S → T → Prop} (related : ∀ h s t, K h s t → R s t)
    (step : ∀ h s a s' t, K h s t → allowed s a → M.step s a = some s' →
      ∃ acts t', goes s a s' t acts ∧ exec N guard t acts = some t' ∧ K (h ++ [a]) s' t')
    {labels : List A} {s s' : S} {t : T} (start : K [] s t)
    (run : exec M allowed s labels = some s') :
    ∃ t', Alongside M N guard R goes s t labels s' t' ∧ K labels s' t' := by
  refine exec_history (K := fun h r => ∃ u, Alongside M N guard R goes s t h r u ∧ K h r u) ?_
    ⟨t, .start (related _ _ _ start), start⟩ run
  rintro h r a r' ⟨u, before, known⟩ ok taken
  obtain ⟨acts, u', told, acted, known'⟩ := step h r a r' u known ok taken
  exact ⟨u', before.step taken told acted (related _ _ _ known'), known'⟩

/-! ## What one party does to a quantity -/

/-- What the steps of one party, all in all, add to a quantity in the course of a run. -/
def net (M : Machine S A) (mine : A → Bool) (f : S → Int) : S → List A → Int
  | _, [] => 0
  | s, a :: rest =>
    match M.step s a with
    | none => 0
    | some t => (if mine a then f t - f s else 0) + net M mine f t rest

theorem net_cons {M : Machine S A} {mine : A → Bool} {f : S → Int} {s t : S} {a : A}
    (h : M.step s a = some t) (rest : List A) :
    net M mine f s (a :: rest) = (if mine a then f t - f s else 0) + net M mine f t rest := by
  rw [net, h]

theorem net_add (M : Machine S A) (mine : A → Bool) (f g : S → Int) (s : S) (labels : List A) :
    net M mine (fun s => f s + g s) s labels = net M mine f s labels + net M mine g s labels := by
  induction labels generalizing s with
  | nil => rfl
  | cons a rest ih =>
    cases hstep : M.step s a with
    | none => simp [net, hstep]
    | some t =>
      rw [net_cons hstep, net_cons hstep, net_cons hstep, ih]
      split <;> omega

/-- An account that moves with what the party does to the quantity, and only then. `P` is
known of every state on the way, and `Q` of every state from which the last is reached. -/
theorem net_account {M : Machine S A} {guard : S → A → Prop} [∀ s a, Decidable (guard s a)]
    {mine : A → Bool} {f g : S → Int} {P Q : S → Prop}
    (keep : ∀ s a t, P s → guard s a → M.step s a = some t → P t)
    (back : ∀ s a t, M.step s a = some t → Q t → Q s)
    (own : ∀ s a t, P s → Q t → M.step s a = some t → mine a = true → f t - f s = g t - g s)
    (others : ∀ s a t, P s → Q t → M.step s a = some t → mine a = false → g t = g s)
    {labels : List A} {s u : S} (h : exec M guard s labels = some u) (hs : P s) (hu : Q u) :
    Q s ∧ net M mine f s labels = g u - g s := by
  induction labels generalizing s with
  | nil =>
    cases h
    exact ⟨hu, (Int.sub_self _).symm⟩
  | cons a rest ih =>
    obtain ⟨t, ok, hstep, tail⟩ := exec_cons h
    obtain ⟨ht, later⟩ := ih tail (keep s a t hs ok hstep)
    refine ⟨back s a t hstep ht, ?_⟩
    rw [net_cons hstep, later]
    cases acts : mine a with
    | true =>
      have moved := own s a t hs ht hstep acts
      simp only [if_true]
      omega
    | false =>
      have kept := others s a t hs ht hstep acts
      simp only [Bool.false_eq_true, if_false]
      omega

theorem net_nonneg {M : Machine S A} {guard : S → A → Prop} [∀ s a, Decidable (guard s a)]
    {mine : A → Bool} {f : S → Int} {P Q : S → Prop}
    (keep : ∀ s a t, P s → guard s a → M.step s a = some t → P t)
    (back : ∀ s a t, M.step s a = some t → Q t → Q s)
    (own : ∀ s a t, P s → Q t → M.step s a = some t → mine a = true → f s ≤ f t)
    {labels : List A} {s u : S} (h : exec M guard s labels = some u) (hs : P s) (hu : Q u) :
    Q s ∧ 0 ≤ net M mine f s labels := by
  induction labels generalizing s with
  | nil =>
    cases h
    exact ⟨hu, Int.le_refl 0⟩
  | cons a rest ih =>
    obtain ⟨t, ok, hstep, tail⟩ := exec_cons h
    obtain ⟨ht, later⟩ := ih tail (keep s a t hs ok hstep)
    refine ⟨back s a t hstep ht, ?_⟩
    rw [net_cons hstep]
    cases acts : mine a with
    | true =>
      have more := own s a t hs ht hstep acts
      simp only [if_true]
      omega
    | false =>
      simp only [Bool.false_eq_true, if_false]
      omega

end StepMachine
