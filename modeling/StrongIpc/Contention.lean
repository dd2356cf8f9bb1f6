import StrongIpc.Binding

/-!
# A path that nobody lets go of

Any number of processes try to bind a path behind which nobody is, whatever files were left
there. None waits for another: each is through with its five calls or refused on the way.
Once no call is left to be made, one of them has the path and the others were refused,
unless the one that had the lock failed at something else, or died.
-/

namespace Binding

open Roster StepMachine

def Act.calls : Act → Bool
  | .call _ => true
  | _ => false

def Act.isCallOf (i : Nat) (x : Act) : Bool := x == .call i

def Act.enters : Act → Bool
  | .enter _ => true
  | _ => false

def Act.drops : Act → Bool
  | .drop _ => true
  | _ => false

/-- Something other than another's lock puts an end to an attempt. -/
def Act.loses : Act → Bool
  | .fail _ | .die _ => true
  | _ => false

/-- The guard of runs in which no drop begins. -/
def Stays (_ : Path) (x : Act) : Prop := x.drops = false

instance (s : Path) (x : Act) : Decidable (Stays s x) := inferInstanceAs (Decidable (_ = _))

/-- One attempt has the path and all others are over. -/
def Path.WonBy (s : Path) (i : Nat) : Prop :=
  ∃ a n k, s.attempts[i]? = some a ∧ a.stage = .live n k ∧ s.lockAt = some n ∧
    s.pathAt = some k ∧ ∀ (j : Nat) b, j ≠ i → s.attempts[j]? = some b → b.stage = .gone

def Stage.isDropping : Stage → Bool
  | .unlinking _ _ | .closing _ _ => true
  | _ => false

/-- The calls of `new` that are left. -/
def Stage.work : Stage → Nat
  | .entered => 5
  | .opened _ => 4
  | .locked _ => 3
  | .cleared _ => 2
  | .bound _ _ => 1
  | _ => 0

def Path.work (s : Path) : Nat := total (fun a => a.stage.work) s.attempts

/-- The calls that are left to one attempt, also if it is still to come. -/
def Path.workOf (s : Path) (i : Nat) : Nat := (s.attempts[i]?.map fun a => a.stage.work).getD 5

/-- The attempt has neither got the path nor given up. -/
def Stage.isTrying : Stage → Bool
  | .entered | .opened _ | .locked _ | .cleared _ | .bound _ _ => true
  | _ => false

/-! ## What a call of `new` does -/

inductive Tried (s : Path) (i : Nat) (a : Attempt) : Path → Prop where
  | opened (n : Nat) (t : Path) (hs : a.stage = .entered) (now : t.lockAt = some n)
      (was : s.lockAt = none ∨ s.lockAt = some n) (kept : t.pathAt = s.pathAt)
      (rest : t.attempts = s.attempts.set i { a with stage := .opened n }) : Tried s i a t
  | locked (n : Nat) (hs : a.stage = .opened n) (free : s.isHeld n = false) :
      Tried s i a (s.setStage i a (.locked n))
  | refused (n : Nat) (hs : a.stage = .opened n) (held : s.isHeld n = true) :
      Tried s i a (s.setStage i a .gone)
  | cleared (n : Nat) (hs : a.stage = .locked n) :
      Tried s i a ({ s with pathAt := none }.setStage i a (.cleared n))
  | bound (n k files : Nat) (hs : a.stage = .cleared n) (free : s.pathAt = none) :
      Tried s i a ({ s with pathAt := some k, files }.setStage i a (.bound n k))
  | taken (n k : Nat) (hs : a.stage = .cleared n) (used : s.pathAt = some k) :
      Tried s i a (s.setStage i a .gone)
  | ready (n k : Nat) (hs : a.stage = .bound n k) :
      Tried s i a (s.setStage i a (.live n k))

theorem callNext_tried {s t : Path} {i : Nat} {a : Attempt} (h : s.callNext i a = some t) :
    Tried s i a t := by
  rw [Path.callNext] at h
  split at h
  · rename_i hs
    split at h
    · rename_i n hn
      cases h
      exact .opened n _ hs hn (Or.inr hn) rfl rfl
    · rename_i hn
      cases h
      exact .opened s.files _ hs rfl (Or.inl hn) rfl rfl
  · rename_i n hs
    cases h
    cases held : s.isHeld n with
    | true => exact .refused n hs held
    | false => exact .locked n hs held
  · rename_i n hs
    cases h
    exact .cleared n hs
  · rename_i n hs
    split at h
    · rename_i k used
      cases h
      exact .taken n k hs used
    · rename_i free
      cases h
      exact .bound n s.files _ hs free
  · rename_i n k hs
    cases h
    exact .ready n k hs
  · cases h

/-- The attempt goes to a stage with less left to do, and the others stay where they are. -/
theorem Tried.attempts {s t : Path} {i : Nat} {a : Attempt} (h : Tried s i a t) :
    ∃ stage, t.attempts = s.attempts.set i { a with stage } ∧ stage.work < a.stage.work := by
  cases h with
  | opened n t hs now was kept rest => exact ⟨_, rest, by simp [hs, Stage.work]⟩
  | locked n hs => exact ⟨_, rfl, by simp [hs, Stage.work]⟩
  | refused n hs => exact ⟨_, rfl, by simp [hs, Stage.work]⟩
  | cleared n hs => exact ⟨_, rfl, by simp [hs, Stage.work]⟩
  | bound n k files hs => exact ⟨_, rfl, by simp [hs, Stage.work]⟩
  | taken n k hs => exact ⟨_, rfl, by simp [hs, Stage.work]⟩
  | ready n k hs => exact ⟨_, rfl, by simp [hs, Stage.work]⟩

theorem call_enabled {s : Path} {i : Nat} {a : Attempt} (ha : s.attempts[i]? = some a)
    (stuck : step s (.call i) = none) : a.stage.work = 0 := by
  have none_left : s.callNext i a = none := by simpa [step, Path.onAttempt, ha] using stuck
  rw [Path.callNext] at none_left
  cases hs : a.stage with
  | entered | cleared =>
    simp only [hs] at none_left
    split at none_left <;> cases none_left
  | opened | locked | bound =>
    simp only [hs] at none_left
    cases none_left
  | _ => rfl

/-! ## The invariant -/

/-- Whoever opened the lock file opened the one that is still there; the path stays clear
between `remove_file` and `bind`; and nobody is on the way out. -/
structure Race (s : Path) : Prop where
  owned : Owned s
  opened : ∀ (i : Nat) a n, s.attempts[i]? = some a → a.stage = .opened n → s.lockAt = some n
  clear : ∀ (i : Nat) a n, s.attempts[i]? = some a → a.stage = .cleared n → s.pathAt = none
  stays : ∀ (i : Nat) a, s.attempts[i]? = some a → a.stage.isDropping = false

theorem race_start {s : Path} (deserted : ∀ a ∈ s.attempts, a.stage = .gone) : Race s := by
  have gone : ∀ {i : Nat} {a : Attempt}, s.attempts[i]? = some a → a.stage = .gone :=
    fun h => deserted _ (List.mem_of_getElem? h)
  constructor
  · constructor
    · intro i j a b n ha _ held
      rw [gone ha] at held
      cases held
    · intro i a n ha guards
      rw [gone ha] at guards
      cases guards
    · intro i j a b n ha _ guards
      rw [gone ha] at guards
      cases guards
    · intro i a k ha socket
      rw [gone ha] at socket
      cases socket
  · intro i a n ha hs
    rw [gone ha] at hs
    cases hs
  · intro i a n ha hs
    rw [gone ha] at hs
    cases hs
  · intro i a ha
    rw [gone ha]
    rfl

theorem Race.onNamedLock {s : Path} (h : Race s) (x : Act) : OnNamedLock s x := by
  cases x with
  | call i =>
    simp only [OnNamedLock, Binding.onNamedLock]
    split
    · rename_i pid n ha
      have settled : s.attempts.all (fun a => !a.stage.isUnlinking) = true := by
        rw [List.all_eq_true]
        intro b hb
        obtain ⟨j, hj⟩ := List.getElem?_of_mem hb
        have stays := h.stays j b hj
        cases hs : b.stage <;> first | rfl | (rw [hs] at stays; cases stays)
      simp [h.opened i _ n ha rfl, settled]
    · rfl
  | _ => rfl

/-- An attempt that has got past the lock is alone with the path. -/
theorem Race.alone {s : Path} (h : Race s) {i j : Nat} {a b : Attempt} {n m : Nat}
    (ha : s.attempts[i]? = some a) (ga : a.stage.guards = some n) (other : j ≠ i)
    (hb : s.attempts[j]? = some b) : b.stage ≠ .cleared m := by
  intro hs
  exact other (h.owned.unique (n := m) hb ha (by rw [hs]; rfl) ga)

theorem race_call {s t : Path} {i : Nat} {a : Attempt} (h : Race s) (owned : Owned t)
    (ha : s.attempts[i]? = some a) (tried : Tried s i a t) : Race t := by
  have restage : ∀ {stage : Stage}, t.attempts = s.attempts.set i { a with stage } →
      (∀ n, stage = .opened n → t.lockAt = some n) →
      (∀ (j : Nat) b n, j ≠ i → s.attempts[j]? = some b → b.stage = .opened n →
        t.lockAt = some n) →
      (∀ n, stage = .cleared n → t.pathAt = none) →
      (∀ (j : Nat) b n, j ≠ i → s.attempts[j]? = some b → b.stage = .cleared n →
        t.pathAt = none) →
      stage.isDropping = false → Race t := by
    intro stage rest opened opened_other clear clear_other stays
    refine ⟨owned, fun j b n hb hs => ?_, fun j b n hb hs => ?_, fun j b hb => ?_⟩ <;>
      rw [rest] at hb <;> rcases getElem?_set_cases hb with ⟨_, rfl⟩ | ⟨other, old⟩
    · exact opened n hs
    · exact opened_other j b n other old hs
    · exact clear n hs
    · exact clear_other j b n other old hs
    · exact stays
    · exact h.stays j b old
  have same_lock : ∀ (j : Nat) b n, j ≠ i → s.attempts[j]? = some b → b.stage = .opened n →
      s.lockAt = some n := fun j b n _ hb hs => h.opened j b n hb hs
  have same_path : ∀ (j : Nat) b n, j ≠ i → s.attempts[j]? = some b → b.stage = .cleared n →
      s.pathAt = none := fun j b n _ hb hs => h.clear j b n hb hs
  cases tried with
  | opened n t hs now was kept rest =>
    refine restage rest (by rintro m ⟨⟩; exact now) ?_ (by simp) ?_ rfl
    · intro j b m other hb hs
      rw [now]
      rcases was with nothing | same
      · rw [h.opened j b m hb hs] at nothing
        cases nothing
      · exact same.symm.trans (h.opened j b m hb hs)
    · exact fun j b m other hb hs => kept.trans (h.clear j b m hb hs)
  | locked n hs free => exact restage rfl (by simp) same_lock (by simp) same_path rfl
  | refused n hs held => exact restage rfl (by simp) same_lock (by simp) same_path rfl
  | cleared n hs =>
    exact restage rfl (by simp) same_lock (fun _ _ => rfl) (fun _ _ _ _ _ _ => rfl) rfl
  | bound n k files hs free =>
    refine restage rfl (by simp) same_lock (by simp) ?_ rfl
    intro j b m other hb hs'
    exact absurd hs' (h.alone ha (by rw [hs]; rfl) other hb)
  | taken n k hs used => exact restage rfl (by simp) same_lock (by simp) same_path rfl
  | ready n k hs => exact restage rfl (by simp) same_lock (by simp) same_path rfl

/-- Attempts may begin and end. -/
theorem Race.of_entries {s : Path} (h : Race s) {attempts : List Attempt}
    (owned : Owned { s with attempts := attempts })
    (entry : ∀ (j : Nat) b, attempts[j]? = some b →
      (b.stage = .entered ∨ b.stage = .gone) ∨ s.attempts[j]? = some b) :
    Race { s with attempts := attempts } := by
  refine ⟨owned, fun j b n hb hs => ?_, fun j b n hb hs => ?_, fun j b hb => ?_⟩ <;>
    rcases entry j b hb with (new | ended) | old
  · rw [new] at hs
    cases hs
  · rw [ended] at hs
    cases hs
  · exact h.opened j b n old hs
  · rw [new] at hs
    cases hs
  · rw [ended] at hs
    cases hs
  · exact h.clear j b n old hs
  · rw [new]
    rfl
  · rw [ended]
    rfl
  · exact h.stays j b old

theorem race_step {s t : Path} {x : Act} (h : Race s) (ok : Stays s x)
    (taken : step s x = some t) : Race t := by
  have owned : Owned t := owned_step h.owned (step_move taken) (h.onNamedLock x)
  cases x with
  | enter pid =>
    cases taken
    refine h.of_entries owned fun j b hb => ?_
    rcases getElem?_push_cases hb with ⟨_, rfl⟩ | old
    · exact Or.inl (Or.inl rfl)
    · exact Or.inr old
  | call i =>
    obtain ⟨a, ha, next⟩ := onAttempt_some taken
    exact race_call h owned ha (callNext_tried next)
  | fail i =>
    obtain ⟨a, ha, failed⟩ := onAttempt_some taken
    split at failed
    · cases failed
      refine h.of_entries owned fun j b hb => ?_
      rcases getElem?_set_cases hb with ⟨_, rfl⟩ | ⟨_, old⟩
      · exact Or.inl (Or.inr rfl)
      · exact Or.inr old
    · cases failed
  | drop i => cases ok
  | die pid =>
    cases taken
    refine h.of_entries owned fun j b hb => ?_
    rw [List.getElem?_map] at hb
    obtain ⟨a, ha, rfl⟩ := Option.map_eq_some_iff.mp hb
    by_cases mine : a.pid = pid
    · exact Or.inl (Or.inr (by simp [Attempt.die, mine]))
    · exact Or.inr (by simp [Attempt.die, mine, ha])

/-! ## The amount of work -/

theorem work_step {s t : Path} {x : Act} (ok : Stays s x) (taken : step s x = some t) :
    t.work + (if x.calls then 1 else 0) ≤ s.work + if x.enters then 5 else 0 := by
  cases x with
  | enter pid =>
    cases taken
    simp [Path.work, Act.calls, Act.enters, Stage.work]
  | call i =>
    obtain ⟨a, ha, next⟩ := onAttempt_some taken
    obtain ⟨stage, rest, less⟩ := (callNext_tried next).attempts
    have moved := total_set (fun b => b.stage.work) { a with stage } ha
    simp only [Path.work, rest, Act.calls, Act.enters, if_true, Bool.false_eq_true, if_false]
    simp only at moved
    omega
  | fail i =>
    obtain ⟨a, ha, failed⟩ := onAttempt_some taken
    split at failed
    · cases failed
      have moved := total_set (fun b => b.stage.work) { a with stage := .gone } ha
      have ended : Stage.work .gone = 0 := rfl
      simp only [Path.work, Path.setStage, Act.calls, Act.enters, Bool.false_eq_true, if_false]
      simp only at moved
      omega
    · cases failed
  | drop i => cases ok
  | die pid =>
    cases taken
    have less : ∀ a, (Attempt.die pid a).stage.work ≤ a.stage.work := by
      intro a
      rw [Attempt.die]
      split
      · exact Nat.zero_le _
      · exact Nat.le_refl _
    simpa [Path.work, Act.calls, Act.enters] using
      total_map_le (f := fun a => a.stage.work) (fun a _ => less a)

theorem workOf_le (s : Path) (i : Nat) : s.workOf i ≤ 5 := by
  rw [Path.workOf]
  cases s.attempts[i]? with
  | none => exact Nat.le_refl 5
  | some a =>
    change a.stage.work ≤ 5
    cases a.stage <;> simp [Stage.work]

theorem workOf_set {s t : Path} {i j : Nat} {a : Attempt} {stage : Stage}
    (ha : s.attempts[j]? = some a) (rest : t.attempts = s.attempts.set j { a with stage }) :
    t.workOf i = if i = j then stage.work else s.workOf i := by
  rw [Path.workOf, rest]
  split
  · rename_i here
    rw [here, List.getElem?_set_self (List.getElem?_eq_some_iff.mp ha).1]
    rfl
  · rename_i other
    rw [List.getElem?_set_ne (fun same => other same.symm)]
    rfl

/-- An attempt's own call is one of those that were left to it, and nobody gives it more. -/
theorem workOf_step {s t : Path} {x : Act} {i : Nat} (ok : Stays s x) (taken : step s x = some t) :
    t.workOf i + (if x.isCallOf i then 1 else 0) ≤ s.workOf i := by
  cases x with
  | enter pid =>
    cases taken
    change Path.workOf _ i ≤ s.workOf i
    simp only [Path.workOf, List.getElem?_append]
    split
    · exact Nat.le_refl _
    · rename_i outside
      rw [List.getElem?_eq_none (Nat.not_lt.mp outside)]
      exact workOf_le ⟨s.lockAt, s.pathAt, s.files, [⟨pid, .entered⟩]⟩ (i - s.attempts.length)
  | call j =>
    obtain ⟨a, ha, next⟩ := onAttempt_some taken
    obtain ⟨stage, rest, less⟩ := (callNext_tried next).attempts
    rw [workOf_set ha rest]
    by_cases here : i = j
    · subst here
      have own : s.workOf i = a.stage.work := by
        rw [Path.workOf, ha]
        rfl
      simpa [own, Act.isCallOf] using Nat.succ_le_of_lt less
    · simp [here, Act.isCallOf, Ne.symm here]
  | fail j =>
    obtain ⟨a, ha, failed⟩ := onAttempt_some taken
    split at failed
    · cases failed
      change Path.workOf _ i ≤ s.workOf i
      rw [workOf_set (s := s) ha rfl]
      split
      · exact Nat.zero_le _
      · exact Nat.le_refl _
    · cases failed
  | drop j => cases ok
  | die pid =>
    cases taken
    change Path.workOf _ i ≤ s.workOf i
    simp only [Path.workOf, List.getElem?_map]
    cases s.attempts[i]? with
    | none => exact Nat.le_refl 5
    | some a =>
      simp only [Option.map_some, Option.getD_some, Attempt.die]
      split
      · exact Nat.zero_le _
      · exact Nat.le_refl _

/-! ## Who is left -/

/-- Somebody has not given up. -/
def Path.Busy (s : Path) : Prop := ∃ (i : Nat) (a : Attempt), s.attempts[i]? = some a ∧
  a.stage ≠ .gone

theorem busy_step {s t : Path} {x : Act} (h : Race s) (ok : Stays s x) (fine : x.loses = false)
    (taken : step s x = some t) (busy : s.Busy ∨ x.enters = true) : t.Busy := by
  cases x with
  | enter pid =>
    cases taken
    exact ⟨s.attempts.length, ⟨pid, .entered⟩, by simp, by simp⟩
  | call i =>
    obtain ⟨a, ha, next⟩ := onAttempt_some taken
    have here := (List.getElem?_eq_some_iff.mp ha).1
    have stands : ∀ {stage : Stage}, t.attempts = s.attempts.set i { a with stage } →
        stage ≠ .gone → t.Busy :=
      fun rest going => ⟨i, _, by rw [rest, List.getElem?_set_self here], going⟩
    cases callNext_tried next with
    | opened n t hs now was kept rest => exact stands rest (by simp)
    | locked n hs free => exact stands rfl (by simp)
    | refused n hs held =>
      -- the one that has the lock is another
      obtain ⟨b, hb, holds⟩ := List.any_eq_true.mp held
      obtain ⟨j, hj⟩ := List.getElem?_of_mem hb
      have holds : b.stage.holds = some n := by simpa using holds
      have other : i ≠ j := by
        rintro rfl
        obtain rfl : a = b := Option.some.inj (ha.symm.trans hj)
        rw [hs] at holds
        cases holds
      refine ⟨j, b, (List.getElem?_set_ne other).trans hj, fun gone => ?_⟩
      rw [gone] at holds
      cases holds
    | cleared n hs => exact stands rfl (by simp)
    | bound n k files hs free => exact stands rfl (by simp)
    | taken n k hs used =>
      rw [h.clear i a n ha hs] at used
      cases used
    | ready n k hs => exact stands rfl (by simp)
  | drop i => cases ok
  | fail i => cases fine
  | die pid => cases fine

theorem busy_run {s t : Path} {acts : List Act} (h : Race s)
    (run : exec machine Stays s acts = some t) (fine : acts.any Act.loses = false)
    (busy : s.Busy ∨ acts.any Act.enters = true) : t.Busy := by
  induction acts generalizing s with
  | nil =>
    cases run
    simpa using busy
  | cons x rest ih =>
    obtain ⟨r, ok, taken, tail⟩ := exec_cons run
    rw [List.any_cons, Bool.or_eq_false_iff] at fine
    refine ih (race_step h ok taken) tail fine.2 ?_
    rw [List.any_cons, Bool.or_eq_true, ← or_assoc] at busy
    rcases busy with now | later
    · exact Or.inl (busy_step h ok fine.1 taken now)
    · exact Or.inr later

/-- Where no call is left to be made, who has not given up has won. -/
theorem Race.won {s : Path} (h : Race s) (stuck : ∀ i, step s (.call i) = none) {i : Nat}
    {a : Attempt} (ha : s.attempts[i]? = some a) (going : a.stage ≠ .gone) : s.WonBy i := by
  have ended : ∀ (j : Nat) b, s.attempts[j]? = some b →
      b.stage = .gone ∨ ∃ n k, b.stage = .live n k := by
    intro j b hb
    have idle := call_enabled hb (stuck j)
    have stays := h.stays j b hb
    cases hs : b.stage with
    | live n k => exact Or.inr ⟨n, k, rfl⟩
    | gone => exact Or.inl rfl
    | unlinking | closing =>
      rw [hs] at stays
      cases stays
    | _ =>
      rw [hs] at idle
      cases idle
  obtain gone | ⟨n, k, live⟩ := ended i a ha
  · exact absurd gone going
  · have guards : a.stage.guards = some n := by rw [live]; rfl
    refine ⟨a, n, k, ha, live, h.owned.named i a n ha guards,
      h.owned.kept i a k ha (by rw [live]; rfl), fun j b other hb => ?_⟩
    rcases ended j b hb with gone | ⟨m, l, live'⟩
    · exact gone
    · exact absurd (h.owned.unique (n := m) hb ha (by rw [live']; rfl) guards) other

/-- From a path that nobody is behind, and as long as no drop begins, no attempt makes more
than five calls, and none has to wait for its next one; and where no call is left, one attempt
has won, or all are over, which after an attempt takes one that failed or died. -/
theorem one_contender_wins {s t : Path} {acts : List Act}
    (deserted : ∀ a ∈ s.attempts, a.stage = .gone)
    (run : exec machine Stays s acts = some t) :
    (∀ i, acts.count (.call i) ≤ 5) ∧ acts.countP Act.calls ≤ 5 * acts.countP Act.enters ∧
      (∀ (i : Nat) a, t.attempts[i]? = some a → a.stage.isTrying = true →
        (step t (.call i)).isSome = true) ∧
      ((∀ i, step t (.call i) = none) → (∃ i, t.WonBy i) ∨
        (∀ a ∈ t.attempts, a.stage = .gone) ∧
          (acts.any Act.enters = true → acts.any Act.loses = true)) := by
  have idle : s.work = 0 := total_eq_zero fun a ha => by rw [deserted a ha]; rfl
  have keep : ∀ s x t, Race s → Stays s x → machine.step s x = some t →
      Race t ∧ t.work + (if x.calls then 1 else 0) ≤ s.work + if x.enters then 5 else 0 :=
    fun _ _ _ h ok taken => ⟨race_step h ok taken, work_step ok taken⟩
  obtain ⟨race, budget⟩ := exec_budget keep run (race_start deserted)
  refine ⟨fun i => ?_, by omega, fun i a ha trying => ?_, fun stuck => ?_⟩
  · have share : ∀ s x t, True → Stays s x → machine.step s x = some t →
        True ∧ t.workOf i + (if x.isCallOf i then 1 else 0) ≤ s.workOf i :=
      fun _ _ _ _ ok taken => ⟨trivial, workOf_step ok taken⟩
    have own : acts.count (.call i) + t.workOf i ≤ s.workOf i := (exec_share share run trivial).2
    have few := workOf_le s i
    omega
  · by_contra stuck
    have none_left := call_enabled ha (by simpa using stuck)
    cases hs : a.stage <;> simp [hs, Stage.isTrying, Stage.work] at trying none_left
  · by_cases busy : t.Busy
    · obtain ⟨i, a, ha, going⟩ := busy
      exact Or.inl ⟨i, race.won stuck ha going⟩
    · refine Or.inr ⟨fun a ha => ?_, fun came => ?_⟩
      · obtain ⟨i, hi⟩ := List.getElem?_of_mem ha
        by_contra going
        exact busy ⟨i, a, hi, going⟩
      · by_contra fine
        exact busy (busy_run (race_start deserted) run (by simpa using fine) (Or.inr came))

/-- What the last owner left when it died. -/
def leftBehind : Path := ⟨some 0, some 1, 2, [⟨7, .gone⟩]⟩

def won : Path := ⟨some 0, some 2, 3, [⟨7, .gone⟩, ⟨8, .gone⟩, ⟨9, .live 0 2⟩]⟩

def wonRun : List Act :=
  [.enter 8, .enter 9, .call 1, .call 2, .call 2, .call 2, .call 1, .call 2, .call 2]

theorem won_run : exec machine Stays leftBehind wonRun = some won := by decide

/-- Two came at once. -/
theorem one_contender_wins_left : (∀ i, wonRun.count (.call i) ≤ 5) ∧ ∃ i, won.WonBy i := by
  have stuck : ∀ i, step won (.call i) = none := by
    intro i
    match i with
    | 0 | 1 | 2 => rfl
    | _ + 3 => rfl
  obtain ⟨few, _, _, ends⟩ := one_contender_wins (by decide) won_run
  rcases ends stuck with one | ⟨none_left, _⟩
  · exact ⟨few, one⟩
  · exact absurd none_left (by decide)

end Binding
