import StrongIpc.Library.StepMachine

/-!
# One party's part of a run

What a party can see of the state is a view of it. Where the steps of the others leave
the view as it is, and what the party's own steps do to the view depends on nothing
else, the party's steps alone, in their order, are a run that looks the same to it.
-/

namespace StepMachine

universe u v w
variable {S : Type u} {A : Type v} {V : Type w}

/-- `P` holds along the run, and `guard'` is what the party may do by itself. -/
theorem exec_view {M : Machine S A} {P : S → Prop} (guard guard' : S → A → Prop)
    [∀ s a, Decidable (guard s a)] [∀ s a, Decidable (guard' s a)] (view : S → V) (mine : A → Bool)
    (keep : ∀ s a t, P s → guard s a → M.step s a = some t → P t)
    (others : ∀ s a t, P s → guard s a → mine a = false → M.step s a = some t → view t = view s)
    (own : ∀ s s' a t, P s → guard s a → mine a = true → view s' = view s →
      M.step s a = some t → guard' s' a ∧ ∃ t', M.step s' a = some t' ∧ view t' = view t)
    {labels : List A} {s s' t : S} (run : exec M guard s labels = some t) (hs : P s)
    (seen : view s' = view s) :
    ∃ t', exec M guard' s' (labels.filter mine) = some t' ∧ view t' = view t := by
  induction labels generalizing s s' with
  | nil =>
    cases run
    exact ⟨s', rfl, seen⟩
  | cons a rest ih =>
    obtain ⟨r, ok, hstep, tail⟩ := exec_cons run
    have hr := keep s a r hs ok hstep
    cases acts : mine a with
    | false =>
      obtain ⟨t', run', seen'⟩ := ih tail hr (seen.trans (others s a r hs ok acts hstep).symm)
      refine ⟨t', ?_, seen'⟩
      rw [List.filter_cons_of_neg (by simp [acts])]
      exact run'
    | true =>
      obtain ⟨ok', r', hstep', same⟩ := own s s' a r hs ok acts seen hstep
      obtain ⟨t', run', seen'⟩ := ih tail hr same
      refine ⟨t', ?_, seen'⟩
      rw [List.filter_cons_of_pos acts, exec, if_pos ok']
      simp only [hstep', run']

end StepMachine
