import Mathlib.Data.List.Pairwise

/-!
# Lists of participants

A system with any number of participants keeps them in a list that only grows
and whose entries are rewritten in place. What they hold together is a sum over
that list; a step rewrites one entry and changes the sum by that entry's
difference. The last section is about the order in which entries of a log stand.
-/

namespace Roster

universe u v
variable {A : Type u} {B : Type v}

def total (f : A → Nat) : List A → Nat
  | [] => 0
  | a :: l => f a + total f l

@[simp] theorem total_nil (f : A → Nat) : total f [] = 0 := rfl

@[simp] theorem total_cons (f : A → Nat) (a : A) (l : List A) :
    total f (a :: l) = f a + total f l := rfl

@[simp] theorem total_append (f : A → Nat) (l r : List A) :
    total f (l ++ r) = total f l + total f r := by
  induction l with
  | nil => simp
  | cons a rest ih =>
    simp only [List.cons_append, total_cons, ih]
    omega

/-- Rewriting one entry trades its share for the new one. -/
theorem total_set (f : A → Nat) {l : List A} {i : Nat} {a : A} (b : A)
    (h : l[i]? = some a) : total f (l.set i b) + f a = total f l + f b := by
  induction l generalizing i with
  | nil => simp at h
  | cons c rest ih =>
    cases i with
    | zero =>
      obtain rfl : c = a := by simpa using h
      simp only [List.set_cons_zero, total_cons]
      omega
    | succ i =>
      have tail := ih (by simpa using h)
      simp only [List.set_cons_succ, total_cons]
      omega

theorem total_set_same (f : A → Nat) {l : List A} {i : Nat} {a b : A}
    (h : l[i]? = some a) (same : f b = f a) : total f (l.set i b) = total f l := by
  have := total_set f b h
  omega

theorem le_total (f : A → Nat) {l : List A} {i : Nat} {a : A} (h : l[i]? = some a) :
    f a ≤ total f l := by
  obtain ⟨before, after, rfl⟩ := List.append_of_mem (List.mem_of_getElem? h)
  rw [total_append, total_cons]
  omega

theorem total_eq_zero {f : A → Nat} {l : List A} (h : ∀ a ∈ l, f a = 0) : total f l = 0 := by
  induction l with
  | nil => rfl
  | cons a rest ih =>
    rw [total_cons, h a List.mem_cons_self, ih fun b hb => h b (List.mem_cons_of_mem a hb)]

/-- A sum to which one entry alone contributes. -/
theorem total_single {f : A → Nat} {l : List A} {i : Nat} {a : A} (h : l[i]? = some a)
    (others : ∀ (j : Nat) b, j ≠ i → l[j]? = some b → f b = 0) : total f l = f a := by
  induction l generalizing i with
  | nil => simp at h
  | cons c rest ih =>
    cases i with
    | zero =>
      obtain rfl : c = a := by simpa using h
      have tail : total f rest = 0 := by
        refine total_eq_zero fun b hb => ?_
        obtain ⟨j, hj⟩ := List.getElem?_of_mem hb
        exact others (j + 1) b (by omega) (by simpa using hj)
      rw [total_cons, tail]
      rfl
    | succ i =>
      have head : f c = 0 := others 0 c (by omega) (by simp)
      have tail := ih (i := i) (by simpa using h)
        fun j b apart hj => others (j + 1) b (by omega) (by simpa using hj)
      rw [total_cons, head, tail]
      omega

theorem total_congr {f g : A → Nat} {l : List A} (h : ∀ a ∈ l, f a = g a) :
    total f l = total g l := by
  induction l with
  | nil => rfl
  | cons a rest ih =>
    rw [total_cons, total_cons, h a List.mem_cons_self,
      ih fun b hb => h b (List.mem_cons_of_mem a hb)]

theorem total_map_le {f : A → Nat} {g : A → A} {l : List A} (h : ∀ a ∈ l, f (g a) ≤ f a) :
    total f (l.map g) ≤ total f l := by
  induction l with
  | nil => exact Nat.le_refl 0
  | cons a rest ih =>
    rw [List.map_cons, total_cons, total_cons]
    exact Nat.add_le_add (h a List.mem_cons_self) (ih fun b hb => h b (List.mem_cons_of_mem a hb))

theorem total_flatMap (f : B → Nat) (g : A → List B) (l : List A) :
    total f (l.flatMap g) = total (fun a => total f (g a)) l := by
  induction l with
  | nil => rfl
  | cons a rest ih => simp [ih]

theorem count_flatMap [BEq B] (g : A → List B) (l : List A) (b : B) :
    (l.flatMap g).count b = total (fun a => (g a).count b) l := by
  induction l with
  | nil => rfl
  | cons a rest ih => simp [List.count_append, ih]

theorem count_diff [DecidableEq A] (l r : List A) (a : A) :
    (l.diff r).count a = l.count a - r.count a := by
  induction r generalizing l with
  | nil => simp
  | cons b rest ih =>
    rw [List.diff_cons, ih, List.count_erase, List.count_cons]
    split <;> omega

/-- An entry of the rewritten list is the new one or an old one at another place. -/
theorem getElem?_set_cases {l : List A} {i j : Nat} {a b : A}
    (h : (l.set i b)[j]? = some a) : (j = i ∧ a = b) ∨ (j ≠ i ∧ l[j]? = some a) := by
  rw [List.getElem?_set] at h
  split at h
  · rename_i same
    split at h
    · exact Or.inl ⟨same.symm, (Option.some.inj h).symm⟩
    · cases h
  · rename_i other
    exact Or.inr ⟨fun hj => other hj.symm, h⟩

theorem getElem?_push_cases {l : List A} {j : Nat} {a b : A}
    (h : (l ++ [b])[j]? = some a) : (j = l.length ∧ a = b) ∨ l[j]? = some a := by
  rw [List.getElem?_append] at h
  split at h
  · exact Or.inr h
  · rename_i past
    cases hj : j - l.length with
    | zero =>
      rw [hj] at h
      exact Or.inl ⟨by omega, by simpa using h.symm⟩
    | succ k =>
      rw [hj] at h
      simp at h

theorem lt_of_getElem? {l : List A} {i : Nat} {a : A} (h : l[i]? = some a) : i < l.length :=
  (List.getElem?_eq_some_iff.mp h).1

/-! ## Order of the entries of a log -/

/-- Every occurrence of `x` is at a smaller index than every occurrence of `y`. -/
def Before (l : List A) (x y : A) : Prop :=
  ∀ p q : Nat, l[p]? = some x → l[q]? = some y → p < q

/-- No occurrence of `y` comes before one of `x`. -/
def NotAhead (x : A) (late : A → Prop) (l : List A) : Prop :=
  l.Pairwise fun a b => late a → b ≠ x

theorem before_of_notAhead {l : List A} {x y : A} {late : A → Prop} (h : NotAhead x late l)
    (hy : late y) (different : x ≠ y) : Before l x y := by
  intro p q hp hq
  obtain ⟨lp, ep⟩ := List.getElem?_eq_some_iff.mp hp
  obtain ⟨lq, eq⟩ := List.getElem?_eq_some_iff.mp hq
  rcases Nat.lt_trichotomy p q with less | same | more
  · exact less
  · subst same
    exact absurd (ep.symm.trans eq) different
  · have apart := List.pairwise_iff_getElem.mp h q p lq lp more
    rw [ep, eq] at apart
    exact absurd rfl (apart hy)

theorem notAhead_sublist {x : A} {late : A → Prop} {l r : List A} (h : NotAhead x late r)
    (sub : l.Sublist r) : NotAhead x late l :=
  List.Pairwise.sublist sub h

/-- An entry other than `x` may be added at the end. -/
theorem notAhead_push {x y : A} {late : A → Prop} {l : List A} (h : NotAhead x late l)
    (different : y ≠ x) : NotAhead x late (l ++ [y]) := by
  refine List.pairwise_append.mpr ⟨h, List.pairwise_singleton _ _, ?_⟩
  intro a _ b hb _
  rw [List.mem_singleton.mp hb]
  exact different

/-- A late entry may be put in front of a tail that `x` is not in. -/
theorem notAhead_insert {x y : A} {late : A → Prop} {l r : List A}
    (h : NotAhead x late (l ++ r)) (different : y ≠ x) (absent : late y → x ∉ r) :
    NotAhead x late (l ++ y :: r) := by
  obtain ⟨hl, hr, cross⟩ := List.pairwise_append.mp h
  refine List.pairwise_append.mpr ⟨hl, List.pairwise_cons.mpr ⟨?_, hr⟩, ?_⟩
  · intro b hb late_y hbx
    exact absent late_y (hbx ▸ hb)
  · intro a ha b hb late_a
    rcases List.mem_cons.mp hb with rfl | hb
    · exact different
    · exact cross a ha b hb late_a

theorem notAhead_of_absent {x : A} {late : A → Prop} {l : List A}
    (absent : ∀ a ∈ l, ¬ late a) : NotAhead x late l :=
  List.pairwise_of_forall_mem_list fun a ha _ _ late_a => absurd late_a (absent a ha)

end Roster
