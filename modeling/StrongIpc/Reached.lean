import StrongIpc.OnePath

/-!
# Who is reached at a path

A client that connects to a path gets to whoever listens on the socket file that is there.
As long as no lock is granted on a lock file that a drop has unlinked, or while a drop goes
on, that is the one attempt that has the binding, from the moment `new` returned it until its
accept loop ends, and nobody else.
-/

namespace FsBinding

open Interaction Roster StepMachine
open Binding (Stage)

variable {D : Type}

/-- A client that connects gets to this attempt's socket. -/
def Spot.Reaches (s : Spot D) (who : Attempt D) : Prop :=
  ∃ k, s.entry = some ⟨.socket, k⟩ ∧ (k, who) ∈ s.listening

/-- The socket that the attempt has at the path, and whether it has come to listen there. -/
def Phase.socket : Phase D → Option (Nat × Bool)
  | .making (.ask (.listen k) _) => some (k.number, false)
  | .making (.ask (.register k) _) => some (k.number, true)
  | .live b => some (b.task.number, true)
  | _ => none

def Phase.isMaking : Phase D → Bool
  | .making _ => true
  | _ => false

variable [DecidableEq D]

/-- The file was made, as a socket, and nobody else listens on it. -/
structure Attends (who : Attempt D) (s : Spot D) (k : Nat) (hears : Bool) : Prop where
  made : k < s.made
  kind : ∀ e ∈ s.entry, e.number = k → e.kind = .socket
  alone : ∀ who', s.listening.count (k, who') = if hears = true ∧ who' = who then 1 else 0

/-- The accept loop of this attempt has ended in the course of these steps. -/
def ended (q : Path D) (labels : List (Label D)) (m : Nat) : Bool :=
  labels.contains ⟨⟨q, m⟩, .taskEnds⟩

structure Attended (q : Path D) (ended : Nat → Bool) (w : World D) : Prop where
  known : ∀ x ∈ (w.disk q).listening, x.1 < (w.disk q).made
  attends : ∀ m ph k heard, w.phases ⟨q, m⟩ = some ph → ph.socket = some (k, heard) →
    Attends ⟨q, m⟩ (w.disk q) k (heard && !ended m)
  late : ∀ m, ended m = true → ∃ ph, w.phases ⟨q, m⟩ = some ph ∧ ph.isMaking = false

/-! ## What a step leaves to the others -/

/-- What an attempt that does not begin to listen does to a path. -/
structure Leaves (who : Attempt D) (s s' : Spot D) : Prop where
  made : s.made ≤ s'.made
  entry : ∀ e ∈ s'.entry, e ∈ s.entry ∨ s.made ≤ e.number
  others : ∀ x : Nat × Attempt D, x.2 ≠ who → s'.listening.count x = s.listening.count x
  own : ∀ k, s'.listening.count (k, who) ≤ s.listening.count (k, who)

theorem Leaves.refl (who : Attempt D) (s : Spot D) : Leaves who s s :=
  ⟨Nat.le_refl _, fun _ there => Or.inl there, fun _ _ => rfl, fun _ => Nat.le_refl _⟩

theorem Leaves.listening {who : Attempt D} {s s' : Spot D} (leaves : Leaves who s s')
    {x : Nat × Attempt D} (there : x ∈ s'.listening) : x ∈ s.listening := by
  have some_there := List.count_pos_iff.mpr there
  apply List.count_pos_iff.mp
  by_cases mine : x.2 = who
  · subst mine
    exact Nat.lt_of_lt_of_le some_there (leaves.own x.1)
  · exact Nat.lt_of_lt_of_eq some_there (leaves.others x mine)

/-- The others are attended as before. -/
theorem Attends.leaves {who other : Attempt D} {s s' : Spot D} {k : Nat} {hears : Bool}
    (h : Attends other s k hears) (leaves : Leaves who s s') (apart : other ≠ who) :
    Attends other s' k hears where
  made := Nat.lt_of_lt_of_le h.made leaves.made
  kind := by
    intro e there same
    rcases leaves.entry e there with old | new
    · exact h.kind e old same
    · exact absurd h.made (Nat.not_lt.mpr (same ▸ new))
  alone := by
    intro who'
    by_cases mine : who' = who
    · subst mine
      have nobody := h.alone who'
      have fewer := leaves.own k
      simp only [apart.symm, and_false, if_false] at nobody ⊢
      omega
    · exact (leaves.others (k, who') mine).trans (h.alone who')

theorem release_leaves (who : Attempt D) (s : Spot D) : Leaves who s (s.release who) where
  made := Nat.le_refl _
  entry := fun _ there => Or.inl there
  others := fun x other => List.count_filter (by simpa using other)
  own := fun k => List.filter_sublist.count_le (k, who)

/-- A call at a path that does not begin to listen. -/
theorem serveAt_leaves (who : Attempt D) (ok : Bool) {c : Call D} (s : Spot D)
    (silent : ∀ k, c ≠ .listen k) : Leaves who s (c.serveAt who ok s).2 := by
  have made : ∀ kind, Leaves who s (s.make kind) := by
    intro kind
    refine ⟨Nat.le_succ _, ?_, fun _ _ => rfl, fun _ => Nat.le_refl _⟩
    rintro e ⟨⟩
    exact Or.inr (Nat.le_refl _)
  have removed : Leaves who s s.remove := by
    refine ⟨Nat.le_refl _, ?_, fun _ _ => rfl, fun _ => Nat.le_refl _⟩
    rintro e ⟨⟩
  cases c with
  | create p =>
    simp only [Call.serveAt]
    split
    · split
      · exact made _
      · exact .refl who s
    · exact .refl who s
  | tryLock f =>
    simp only [Call.serveAt]
    split
    · exact ⟨Nat.le_refl _, fun _ there => Or.inl there, fun _ _ => rfl, fun _ => Nat.le_refl _⟩
    · exact .refl who s
  | removeFile p =>
    simp only [Call.serveAt]
    split
    · exact removed
    · exact .refl who s
  | bind p =>
    simp only [Call.serveAt]
    split
    · exact made _
    · exact .refl who s
  | listen k => exact absurd rfl (silent k)
  | closeFile f =>
    exact ⟨Nat.le_refl _, fun _ there => Or.inl there, fun _ _ => rfl, fun _ => Nat.le_refl _⟩
  | closeSocket k =>
    refine ⟨Nat.le_refl _, fun _ there => Or.inl there, fun x other => ?_, fun k' => ?_⟩
    · exact List.count_erase_of_ne fun same => other (congrArg Prod.snd same)
    · exact List.erase_sublist.count_le (k', who)
  | _ => exact .refl who s

theorem serve_leaves {q : Path D} (who : Attempt D) (ok : Bool) {c : Call D} (d : Disk D)
    (silent : ∀ k, c ≠ .listen k) : Leaves who (d q) ((serve who ok c d).2 q) := by
  by_cases here : q = c.path
  · subst here
    rw [serve_here]
    exact serveAt_leaves who ok _ silent
  · rw [serve_elsewhere who ok d here]
    exact .refl who _

/-! ## Where an attempt has a socket -/

omit [DecidableEq D] in
/-- It is in possession of the lock and of what is at the path. -/
theorem At.socket {q : Path D} {ph : Phase D} {x : Stage} (point : At q ph x) {k : Nat}
    {heard : Bool} (own : ph.socket = some (k, heard)) :
    ∃ n, x = .bound n k ∨ x = .live n k := by
  cases point with
  | bound n k' =>
    cases own
    exact ⟨n, Or.inl rfl⟩
  | listening n k' =>
    cases own
    exact ⟨n, Or.inl rfl⟩
  | live n k' =>
    cases own
    exact ⟨n, Or.inr rfl⟩
  | _ => cases own

omit [DecidableEq D] in
/-- No two attempts on a path have a socket there at one time. -/
theorem Tracks.one_socket {q : Path D} {fl fs : Nat → Nat} {w : World D} {s : Binding.Path}
    (h : Tracks q fl fs w s) (owned : Binding.Owned s) {m m' k k' : Nat} {ph ph' : Phase D}
    {heard heard' : Bool} (hm : w.phases ⟨q, m⟩ = some ph) (own : ph.socket = some (k, heard))
    (hm' : w.phases ⟨q, m'⟩ = some ph') (own' : ph'.socket = some (k', heard')) : m = m' := by
  have guarded : ∀ {m k : Nat} {ph : Phase D} {heard : Bool}, w.phases ⟨q, m⟩ = some ph →
      ph.socket = some (k, heard) → ∃ (i : Nat) (x : Stage) (n : Nat),
        s.attempts[i]? = some ⟨m, x⟩ ∧ x.guards = some n := by
    intro m k ph heard hm own
    obtain ⟨i, x, hi, point, _⟩ := h.stands m ph hm
    obtain ⟨n, rfl | rfl⟩ := point.socket own
    · exact ⟨i, _, fl n, hi, rfl⟩
    · exact ⟨i, _, fl n, hi, rfl⟩
  obtain ⟨i, x, n, hi, guards⟩ := guarded hm own
  obtain ⟨j, y, n', hj, guards'⟩ := guarded hm' own'
  obtain rfl := owned.unique hi hj guards guards'
  exact congrArg Binding.Attempt.pid (Option.some.inj (hi.symm.trans hj))

/-- The answers after which an attempt has a socket. -/
inductive Gains (q : Path D) (ph : Phase D) : (c : Call D) → c.Answer → Nat → Bool → Prop where
  | bound (fd : Sock D) : Gains q ph (.bind q) (some fd) fd.number false
  | heard (k : Nat) (was : ph.socket = some (k, false)) : Gains q ph (.listen ⟨q, k⟩) true k true
  | registered (k : Nat) (was : ph.socket = some (k, true)) :
      Gains q ph (.register ⟨q, k⟩) true k true

omit [DecidableEq D] in
theorem At.gains {q : Path D} {ph : Phase D} {x : Stage} (point : At q ph x) {c : Call D}
    {next : c.Answer → Phase D} (asks : ph.asks = some ⟨c, next⟩) (a : c.Answer) {k : Nat}
    {heard : Bool} (own : (next a).socket = some (k, heard)) : Gains q ph c a k heard := by
  cases point with
  | entered =>
    cases asks
    cases a <;> cases own
  | opened n =>
    cases asks
    cases a <;> cases own
  | clear n x hs =>
    cases asks
    cases a <;> cases own
  | addressed n x rest hs opens fails =>
    cases asks
    cases a with
    | true =>
      change (settled (rest true)).socket = _ at own
      rw [opens] at own
      cases own
    | false =>
      change (settled (rest false)).socket = _ at own
      rw [fails] at own
      cases own
  | unbound n x hs =>
    cases asks
    cases a with
    | none => cases own
    | some fd =>
      cases own
      exact .bound fd
  | bound n k' =>
    cases asks
    cases a with
    | true =>
      cases own
      exact .heard k' rfl
    | false => cases own
  | listening n k' =>
    cases asks
    cases a with
    | true =>
      cases own
      exact .registered k' rfl
    | false => cases own
  | unheard n k' rest e left =>
    cases asks
    subst left
    cases own
  | failed e => cases asks
  | live n k' => cases asks
  | gone => cases asks
  | _ =>
    cases asks
    cases own

omit [DecidableEq D] in
theorem At.listens {q : Path D} {ph : Phase D} {x : Stage} (point : At q ph x) {k : Sock D}
    {next : Bool → Phase D} (asks : ph.asks = some ⟨.listen k, next⟩) :
    k.path = q ∧ ph.socket = some (k.number, false) := by
  cases point with
  | bound n k' =>
    cases asks
    exact ⟨rfl, rfl⟩
  | _ => cases asks

omit [DecidableEq D] in
/-- A call of the drop does not lead back into `new`. -/
theorem asks_late {ph : Phase D} {c : Call D} {next : c.Answer → Phase D}
    (asks : ph.asks = some ⟨c, next⟩) (late : ph.isMaking = false) (a : c.Answer) :
    (next a).isMaking = false := by
  cases ph with
  | making rest => cases late
  | dropping rest =>
    cases rest with
    | ret r => cases asks
    | ask c' k =>
      cases asks
      change (dropped (k a)).isMaking = false
      cases k a <;> rfl
  | _ => cases asks

omit [DecidableEq D] in
/-- It is in `new` that an attempt has a socket on which it does not listen yet. -/
theorem making_of_unheard {ph : Phase D} {k : Nat} (own : ph.socket = some (k, false)) :
    ph.isMaking = true := by
  cases ph with
  | making rest => rfl
  | _ => cases own

/-! ## Every step -/

section Step
variable {q : Path D} {m : Nat} {ended : Nat → Bool} {w : World D} {d : Disk D} {after : Phase D}

theorem attended_moved
    (known : ∀ x ∈ (d q).listening, x.1 < (d q).made)
    (others : ∀ m' ph k heard, m' ≠ m → w.phases ⟨q, m'⟩ = some ph →
      ph.socket = some (k, heard) → Attends ⟨q, m'⟩ (d q) k (heard && !ended m'))
    (mine : ∀ k heard, after.socket = some (k, heard) →
      Attends ⟨q, m⟩ (d q) k (heard && !ended m))
    (late : ∀ m', m' ≠ m → ended m' = true → ∃ ph, w.phases ⟨q, m'⟩ = some ph ∧ ph.isMaking = false)
    (settled : ended m = true → after.isMaking = false) :
    Attended q ended (w.moved q m d after) := by
  refine ⟨known, fun m' ph k heard there own => ?_, fun m' finished => ?_⟩
  · simp only [World.moved, Function.update_apply] at there
    split at there
    · rename_i same
      obtain rfl : m' = m := by simpa using same
      obtain rfl := Option.some.inj there
      exact mine k heard own
    · rename_i other
      exact others m' ph k heard (fun same => other (by rw [same])) there own
  · simp only [World.moved, Function.update_apply]
    split
    · rename_i same
      obtain rfl : m' = m := by simpa using same
      exact ⟨after, rfl, settled finished⟩
    · rename_i other
      exact late m' (fun same => other (by rw [same])) finished

/-- Unless it begins to listen, an attempt that goes on has nothing to do with the others. -/
theorem Attended.leaves (h : Attended q ended w) (leaves : Leaves ⟨q, m⟩ (w.disk q) (d q))
    (mine : ∀ k heard, after.socket = some (k, heard) →
      Attends ⟨q, m⟩ (d q) k (heard && !ended m))
    (settled : ended m = true → after.isMaking = false) :
    Attended q ended (w.moved q m d after) := by
  refine attended_moved (fun x there => ?_) (fun m' ph k heard other there own => ?_) mine
    (fun m' _ => h.late m') settled
  · exact Nat.lt_of_lt_of_le (h.known x (leaves.listening there)) leaves.made
  · exact (h.attends m' ph k heard there own).leaves leaves (by simpa using other)

theorem Attended.asks_settled (h : Attended q ended w) {ph : Phase D} {c : Call D}
    {next : c.Answer → Phase D} (before : w.phases ⟨q, m⟩ = some ph)
    (asks : ph.asks = some ⟨c, next⟩) (a : c.Answer) (finished : ended m = true) :
    (next a).isMaking = false := by
  obtain ⟨ph', there, late⟩ := h.late m finished
  obtain rfl := Option.some.inj (before.symm.trans there)
  exact asks_late asks late a

/-- Nobody else has a socket at the path when one begins to listen. -/
theorem Attended.listens {fl fs : Nat → Nat} {s : Binding.Path} {ph : Phase D} {k : Nat}
    (h : Attended q ended w) (tracks : Tracks q fl fs w s) (owned : Binding.Owned s)
    (before : w.phases ⟨q, m⟩ = some ph) (own : ph.socket = some (k, false))
    (now : d q = { w.disk q with listening := (k, ⟨q, m⟩) :: (w.disk q).listening })
    (mine : ∀ k' heard, after.socket = some (k', heard) → k' = k ∧ heard = true) :
    Attended q ended (w.moved q m d after) := by
  have had := h.attends m ph k false before own
  have going : ended m = false := by
    by_contra finished
    obtain ⟨ph', there, late⟩ := h.late m (by simpa using finished)
    obtain rfl := Option.some.inj (before.symm.trans there)
    rw [making_of_unheard own] at late
    cases late
  refine attended_moved (fun x there => ?_) (fun m' ph' k' heard other there own' => ?_)
    (fun k' heard own' => ?_) (fun m' _ => h.late m') fun finished => ?_
  · rw [now] at there ⊢
    rcases List.mem_cons.mp there with rfl | old
    · exact had.made
    · exact h.known x old
  · exact absurd (tracks.one_socket owned there own' before own) other
  · obtain ⟨rfl, rfl⟩ := mine k' heard own'
    rw [now]
    refine ⟨had.made, had.kind, fun who' => ?_⟩
    have nobody := had.alone who'
    simp only [Bool.false_and, Bool.false_eq_true, false_and, if_false] at nobody
    by_cases here : who' = ⟨q, m⟩
    · subst here
      simp [nobody, going]
    · have other : (k', (⟨q, m⟩ : Attempt D)) ≠ (k', who') := fun same =>
        here (congrArg Prod.snd same).symm
      simp [nobody, here, other]
  · rw [going] at finished
    cases finished

theorem call_attended {fl fs : Nat → Nat} {s : Binding.Path} {ph : Phase D} {c : Call D}
    {next : c.Answer → Phase D} (h : Attended q ended w) (tracks : Tracks q fl fs w s)
    (owned : Binding.Owned s) (before : w.phases ⟨q, m⟩ = some ph)
    (asks : ph.asks = some ⟨c, next⟩) (ok : Bool) :
    Attended q ended (w.moved q m (serve ⟨q, m⟩ ok c w.disk).2
      (next (serve ⟨q, m⟩ ok c w.disk).1)) := by
  obtain ⟨i, x, hi, point, _⟩ := tracks.stands m ph before
  by_cases silent : ∀ k, c ≠ .listen k
  · refine h.leaves (serve_leaves _ ok w.disk silent) (fun k heard own => ?_)
      (h.asks_settled before asks _)
    have gains := point.gains asks _ own
    generalize answer : (serve ⟨q, m⟩ ok c w.disk).1 = a at gains
    cases gains with
    | bound fd =>
      rcases bind_cases ⟨q, m⟩ ok q w.disk with ⟨refused, _⟩ | ⟨_, bound, made⟩
      · cases refused.symm.trans answer
      · obtain rfl := Option.some.inj (bound.symm.trans answer)
        rw [made]
        refine ⟨Nat.lt_succ_self _, ?_, fun who' => ?_⟩
        · rintro e ⟨⟩ _
          rfl
        · have fresh : ((w.disk q).made, who') ∉ ((w.disk q).make .socket).listening :=
            fun there => absurd (h.known _ there) (Nat.lt_irrefl _)
          simp [List.count_eq_zero.mpr fresh]
    | heard k was => exact absurd rfl (silent _)
    | registered k was =>
      have same : (serve ⟨q, m⟩ ok (.register ⟨q, k⟩) w.disk).2 q = w.disk q :=
        serve_here ⟨q, m⟩ ok (.register ⟨q, k⟩) w.disk
      rw [same]
      exact h.attends m ph k true before was
  · obtain ⟨⟨p, k⟩, rfl⟩ := not_forall_not.mp silent
    obtain ⟨rfl, own⟩ := point.listens asks
    have here := serve_here ⟨p, m⟩ ok (.listen ⟨p, k⟩) w.disk
    cases ok with
    | false =>
      refine h.leaves ?_ (fun k' heard own' => ?_) (h.asks_settled before asks _)
      · rw [show (serve ⟨p, m⟩ false (.listen ⟨p, k⟩) w.disk).2 p = w.disk p from here]
        exact .refl _ _
      · have gains := point.gains asks _ own'
        generalize answer : (serve ⟨p, m⟩ false (.listen ⟨p, k⟩) w.disk).1 = a at gains
        cases gains with
        | heard k was => cases answer
    | true =>
      refine h.listens tracks owned before own here fun k' heard own' => ?_
      have gains := point.gains asks _ own'
      generalize answer : (serve ⟨p, m⟩ true (.listen ⟨p, k⟩) w.disk).1 = a at gains
      cases gains with
      | heard k was => exact ⟨rfl, rfl⟩

end Step

/-- An accept loop that ends takes its socket with it. -/
theorem Attended.task_ends {q : Path D} {m : Nat} {ended ended' : Nat → Bool} {w : World D}
    {b : RefFsBinding D} (h : Attended q ended w) (before : w.phases ⟨q, m⟩ = some (.live b))
    (own : b.task.path = q) (now : ended' m = true) (others : ∀ m', m' ≠ m → ended' m' = ended m') :
    Attended q ended'
      (w.moved q m (serve ⟨q, m⟩ true (.closeSocket b.task) w.disk).2 (.live b)) := by
  have had := h.attends m _ b.task.number true before rfl
  have leaves : Leaves ⟨q, m⟩ (w.disk q)
      ((serve ⟨q, m⟩ true (.closeSocket b.task) w.disk).2 q) :=
    serve_leaves _ true w.disk (by simp)
  have here : (serve ⟨q, m⟩ true (.closeSocket b.task) w.disk).2 q =
      { w.disk q with listening := (w.disk q).listening.erase (b.task.number, ⟨q, m⟩) } := by
    subst own
    exact serve_here _ true (.closeSocket b.task) w.disk
  refine attended_moved (fun x there => ?_) (fun m' ph k heard other there own' => ?_)
    (fun k heard own' => ?_) (fun m' other finished => ?_) fun _ => rfl
  · exact Nat.lt_of_lt_of_le (h.known x (leaves.listening there)) leaves.made
  · rw [others m' other]
    exact (h.attends m' ph k heard there own').leaves leaves (by simpa using other)
  · cases own'
    rw [here, now]
    refine ⟨had.made, had.kind, fun who' => ?_⟩
    have count := had.alone who'
    by_cases mine : who' = ⟨q, m⟩
    · subst mine
      have once : (w.disk q).listening.count (b.task.number, (⟨q, m⟩ : Attempt D)) ≤ 1 := by
        rw [count]
        split <;> decide
      simp only [Bool.not_true, Bool.and_false, Bool.false_eq_true, false_and, if_false,
        List.count_erase_self]
      omega
    · have other : (b.task.number, who') ≠ (b.task.number, (⟨q, m⟩ : Attempt D)) :=
        fun same => mine (congrArg Prod.snd same)
      simp only [mine, and_false, if_false] at count ⊢
      exact (List.count_erase_of_ne other).trans count
  · rw [others m' other] at finished
    exact h.late m' finished

theorem attended_step {q : Path D} {fl fs : Nat → Nat} {ended ended' : Nat → Bool}
    {w t : World D} {s : Binding.Path} {l : Label D} (h : Attended q ended w)
    (tracks : Tracks q fl fs w s) (owned : Binding.Owned s) (own : l.who.path = q)
    (now : ∀ m, ended' m = (ended m || decide (l = ⟨⟨q, m⟩, .taskEnds⟩)))
    (taken : step w l = some t) : Attended q ended' t := by
  obtain ⟨⟨p, m⟩, act⟩ := l
  obtain rfl : p = q := own
  obtain ⟨after, advanced, phases⟩ := step_advance taken
  have moved : t = w.moved p m t.disk after := by
    cases t
    simp only at phases
    rw [phases]
    rfl
  have same : act ≠ .taskEnds → ended' = ended := by
    intro other
    funext m'
    simp [now, other]
  rw [moved]
  generalize before : w.phases ⟨p, m⟩ = phase, disk : t.disk = d at advanced
  cases advanced with
  | enter =>
    rw [same (by simp)]
    refine h.leaves (.refl _ _) ?_ fun finished => ?_
    · rintro k heard ⟨⟩
    · obtain ⟨ph, there, _⟩ := h.late m finished
      cases before.symm.trans there
  | call answer ph c next asks =>
    rw [same (by simp)]
    exact call_attended h tracks owned before asks answer
  | taskEnds b hears =>
    obtain ⟨i, x, hi, point, _⟩ := tracks.stands m _ before
    have task : b.task.path = p := by
      cases point with
      | live n k => rfl
    refine h.task_ends before task (by simp [now]) fun m' other => ?_
    simp [now, other.symm]
  | drop b =>
    rw [same (by simp)]
    refine h.leaves (.refl _ _) ?_ fun _ => rfl
    rintro k heard ⟨⟩
  | die ph =>
    rw [same (by simp)]
    refine h.leaves ?_ ?_ fun _ => rfl
    · rw [show release ⟨p, m⟩ w.disk p = (w.disk p).release ⟨p, m⟩ from if_pos (Or.inl rfl)]
      exact release_leaves _ _
    · rintro k heard ⟨⟩

/-! ## Runs -/

theorem attended {guard : World D → Label D → Prop} [∀ w l, Decidable (guard w l)] {q : Path D}
    {labels : List (Label D)} {w t : World D} (own : ∀ w l, guard w l → l.who.path = q)
    (owned : ∀ {t}, Steps machine guard w t → ∃ s fl fs, Binding.Owned s ∧ Tracks q fl fs t s)
    (start : machine.init w) (known : ∀ x ∈ (w.disk q).listening, x.1 < (w.disk q).made)
    (run : exec machine guard w labels = some t) : Attended q (ended q labels) t := by
  have fresh : Attended q (ended q []) w := by
    refine ⟨known, fun m ph k heard there => ?_, fun m finished => by cases finished⟩
    rw [start] at there
    cases there
  refine (exec_history (K := fun h u => Steps machine guard w u ∧ Attended q (ended q h) u) ?_
    ⟨.refl, fresh⟩ run).2
  rintro h u l v ⟨path, attended⟩ ok taken
  obtain ⟨s, fl, fs, owned, tracks⟩ := owned path
  refine ⟨path.tail ⟨l, ok, taken⟩, attended_step attended tracks owned (own u l ok) ?_ taken⟩
  intro m
  simp [ended, eq_comm]

/-- The file of a binding is the one at its path, and it is a socket. -/
theorem Attended.reaches {q : Path D} {fl fs : Nat → Nat} {ended : Nat → Bool} {t : World D}
    {s : Binding.Path} (h : Attended q ended t) (tracks : Tracks q fl fs t s)
    (owned : Binding.Owned s) {m : Nat} {b : RefFsBinding D}
    (bound : t.phases ⟨q, m⟩ = some (.live b)) (who : Attempt D) :
    (t.disk q).Reaches who ↔ who = ⟨q, m⟩ ∧ ended m = false := by
  obtain ⟨i, n, k, hi, rfl, _, inside⟩ := tracks.live bound
  have attends := h.attends m _ k true bound rfl
  have number : (t.disk q).entry.map Entry.number = some k :=
    tracks.socket.entry inside (tracks.pathAt.symm.trans (owned.kept i _ _ hi rfl))
  obtain ⟨⟨kind, k'⟩, entry, rfl⟩ := Option.map_eq_some_iff.mp number
  obtain rfl := attends.kind _ entry rfl
  have count : 0 < (t.disk q).listening.count (k', who) ↔ who = ⟨q, m⟩ ∧ ended m = false := by
    rw [attends.alone who]
    split
    · rename_i both
      simpa [and_comm] using both
    · rename_i neither
      simpa [and_comm] using neither
  rw [← count, List.count_pos_iff]
  constructor
  · rintro ⟨k, there, listens⟩
    obtain rfl : k' = k := congrArg Entry.number (Option.some.inj (entry.symm.trans there))
    exact listens
  · exact fun listens => ⟨k', entry, listens⟩

/-- Whatever was at the two paths, whoever listened there, whatever the kernel refuses and
whoever dies: as long as no drop begins, or at least every lock is granted in order, a client
that connects to a path gets to the attempt whose `new` has returned a binding of it, until its
accept loop ends, and to no other. -/
theorem path_leads_home {q : Path D} {labels : List (Label D)} {w t : World D}
    (start : machine.init w) (known : ∀ x ∈ (w.disk q).listening, x.1 < (w.disk q).made)
    (run : exec machine (Contends q) w labels = some t ∨ exec machine (Orderly q) w labels = some t)
    {m : Nat} {b : RefFsBinding D} (bound : t.phases ⟨q, m⟩ = some (.live b)) :
    ∀ who, (t.disk q).Reaches who ↔ who = ⟨q, m⟩ ∧ ⟨⟨q, m⟩, .taskEnds⟩ ∉ labels := by
  obtain ⟨s, fl, fs, owned, tracks⟩ :=
    run.elim (fun run => contends_owned start (exec_steps run))
      fun run => orderly_owned start (exec_steps run)
  have attends : Attended q (ended q labels) t := by
    rcases run with stays | orderly
    · exact attended (fun _ _ ok => ok.1) (contends_owned start) start known stays
    · exact attended (fun _ _ ok => ok.1.1) (orderly_owned start) start known orderly
  intro who
  rw [attends.reaches tracks owned bound who]
  simp [ended]

/-- One owner lets go of its binding, whose accept loop has ended, and another one takes it,
after a third was refused. -/
def handsOn : List (Label Unit) :=
  wholeNew 0 ++ ⟨⟨pathA, 2⟩, .enter⟩ :: List.replicate 3 ⟨⟨pathA, 2⟩, .call true⟩ ++
    ⟨⟨pathA, 0⟩, .taskEnds⟩ :: ⟨⟨pathA, 0⟩, .drop⟩ ::
      List.replicate 4 ⟨⟨pathA, 0⟩, .call true⟩ ++ wholeNew 1

theorem handsOn_run : ∃ t b, exec machine (Orderly pathA) freshDisk handsOn = some t ∧
    t.phases ⟨pathA, 1⟩ = some (.live b) :=
  bound_of_exec (by decide)

/-- The path leads to the second owner, and neither to the first nor to who was refused. -/
theorem path_leads_home_handed_on :
    ∃ t, exec machine (Orderly pathA) freshDisk handsOn = some t ∧
      ∀ who, (t.disk pathA).Reaches who ↔
        who = ⟨pathA, 1⟩ ∧ ⟨⟨pathA, 1⟩, .taskEnds⟩ ∉ handsOn := by
  obtain ⟨t, b, run, phases⟩ := handsOn_run
  refine ⟨t, run, path_leads_home (fun _ => rfl) ?_ (Or.inr run) phases⟩
  rintro x ⟨⟩

end FsBinding
