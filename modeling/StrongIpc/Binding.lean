import StrongIpc.Library.Roster
import StrongIpc.Library.StepMachine

/-!
# Binding a path

`RefFsBinding::new` and its drop on one path, by any number of processes, one
file-system call at a time. Files are named by identity, never reused, so the lock
file that a contender opened and the one the path names now can be told apart. A
process may die between any two calls, which closes its lock files and removes
nothing.
-/

namespace Binding

open Roster StepMachine

/-- Between two calls. `entered` to `live` is `new`, the next two are the drop: the
lock file is unlinked on entering `unlinking`, the socket file on entering `closing`. -/
inductive Stage where
  | entered
  | opened (lock : Nat)
  | locked (lock : Nat)
  | cleared (lock : Nat)
  | bound (lock sock : Nat)
  | live (lock sock : Nat)
  | unlinking (lock sock : Nat)
  | closing (lock sock : Nat)
  | gone
  deriving DecidableEq, Repr

structure Attempt where
  pid : Nat
  stage : Stage
  deriving DecidableEq, Repr

/-- `files` is the number of files ever made, which is the next one's identity. -/
structure Path where
  lockAt : Option Nat
  pathAt : Option Nat
  files : Nat
  attempts : List Attempt
  deriving DecidableEq, Repr

inductive Act where
  | enter (pid : Nat)
  | call (i : Nat)
  | fail (i : Nat)
  | drop (i : Nat)
  | die (pid : Nat)
  deriving DecidableEq, Repr

/-- The lock file that the attempt holds locked. -/
def Stage.holds : Stage → Option Nat
  | .locked n => some n
  | .cleared n => some n
  | .bound n _ => some n
  | .live n _ => some n
  | .unlinking n _ => some n
  | .closing n _ => some n
  | _ => none

/-- The same up to the moment its drop begins. -/
def Stage.guards : Stage → Option Nat
  | .locked n => some n
  | .cleared n => some n
  | .bound n _ => some n
  | .live n _ => some n
  | _ => none

/-- The socket file it has bound and not begun to remove. -/
def Stage.socket : Stage → Option Nat
  | .bound _ k => some k
  | .live _ k => some k
  | _ => none

def Stage.isUnlinking : Stage → Bool
  | .unlinking _ _ => true
  | _ => false

def Path.isHeld (s : Path) (n : Nat) : Bool := s.attempts.any fun a => a.stage.holds = some n

def Path.setStage (s : Path) (i : Nat) (a : Attempt) (stage : Stage) : Path :=
  { s with attempts := s.attempts.set i { a with stage } }

/-- The next call of `new`: `File::create`, `try_lock`, `remove_file` whose result is
ignored, `wire::bind`, and the return. A lock that is taken and a path that is in
use end it. -/
def Path.callNext (s : Path) (i : Nat) (a : Attempt) : Option Path :=
  match a.stage with
  | .entered =>
    match s.lockAt with
    | some n => some (s.setStage i a (.opened n))
    | none => some ({ s with lockAt := some s.files, files := s.files + 1 }.setStage i a
        (.opened s.files))
  | .opened n => some (s.setStage i a (if s.isHeld n then .gone else .locked n))
  | .locked n => some ({ s with pathAt := none }.setStage i a (.cleared n))
  | .cleared n =>
    match s.pathAt with
    | some _ => some (s.setStage i a .gone)
    | none => some ({ s with pathAt := some s.files, files := s.files + 1 }.setStage i a
        (.bound n s.files))
  | .bound n k => some (s.setStage i a (.live n k))
  | _ => none

/-- The next call of the drop; the lock file closes with the struct's fields, last. -/
def Path.dropNext (s : Path) (i : Nat) (a : Attempt) : Option Path :=
  match a.stage with
  | .live n k => some ({ s with lockAt := none }.setStage i a (.unlinking n k))
  | .unlinking n k => some ({ s with pathAt := none }.setStage i a (.closing n k))
  | .closing _ _ => some (s.setStage i a .gone)
  | _ => none

/-- Creating the lock file, binding and registering with the reactor may fail. -/
def Stage.mayFail : Stage → Bool
  | .entered => true
  | .cleared _ => true
  | .bound _ _ => true
  | _ => false

def Attempt.die (pid : Nat) (a : Attempt) : Attempt :=
  if a.pid = pid then { a with stage := .gone } else a

def Path.onAttempt (s : Path) (i : Nat) (f : Attempt → Option Path) : Option Path :=
  match s.attempts[i]? with
  | none => none
  | some a => f a

def step (s : Path) : Act → Option Path
  | .enter pid => some { s with attempts := s.attempts ++ [⟨pid, .entered⟩] }
  | .call i => s.onAttempt i fun a => s.callNext i a
  | .fail i => s.onAttempt i fun a =>
      if a.stage.mayFail then some (s.setStage i a .gone) else none
  | .drop i => s.onAttempt i fun a => s.dropNext i a
  | .die pid => some { s with attempts := s.attempts.map (Attempt.die pid) }

/-- Whatever an earlier owner left at the two paths. -/
def machine : Machine Path Act where
  init s := s.attempts = [] ∧ (∀ n, s.lockAt = some n → n < s.files) ∧
    ∀ k, s.pathAt = some k → k < s.files
  step := step

/-! ## Everything one step can do -/

/-- One call by one attempt, other than a lock that is granted: what the two paths
name afterwards and where the attempt stands. -/
inductive CallMove (s : Path) : Stage → Option Nat → Option Nat → Stage → Prop where
  | made (n : Nat) (was : s.lockAt = none ∨ s.lockAt = some n) :
      CallMove s .entered (some n) s.pathAt (.opened n)
  | cleared (n : Nat) : CallMove s (.locked n) s.lockAt none (.cleared n)
  | bound (n k : Nat) : CallMove s (.cleared n) s.lockAt (some k) (.bound n k)
  | ready (n k : Nat) : CallMove s (.bound n k) s.lockAt s.pathAt (.live n k)
  | unlinkedLock (n k : Nat) : CallMove s (.live n k) none s.pathAt (.unlinking n k)
  | unlinkedSocket (n k : Nat) : CallMove s (.unlinking n k) s.lockAt none (.closing n k)
  | ended (stage : Stage) : CallMove s stage s.lockAt s.pathAt .gone

inductive Move (s : Path) : Act → Path → Prop where
  | enter (pid : Nat) :
      Move s (.enter pid) { s with attempts := s.attempts ++ [⟨pid, .entered⟩] }
  | lock (i : Nat) (a : Attempt) (n : Nat) (ha : s.attempts[i]? = some a)
      (hs : a.stage = .opened n) (free : s.isHeld n = false) :
      Move s (.call i) (s.setStage i a (.locked n))
  | call (x : Act) (i : Nat) (a : Attempt) (stage : Stage) (s' : Path)
      (ha : s.attempts[i]? = some a) (hm : CallMove s a.stage s'.lockAt s'.pathAt stage)
      (rest : s'.attempts = s.attempts.set i { a with stage }) : Move s x s'
  | die (pid : Nat) : Move s (.die pid) { s with attempts := s.attempts.map (Attempt.die pid) }

theorem onAttempt_some {s s' : Path} {i : Nat} {f : Attempt → Option Path}
    (h : s.onAttempt i f = some s') : ∃ a, s.attempts[i]? = some a ∧ f a = some s' := by
  rw [Path.onAttempt] at h
  split at h
  · cases h
  · rename_i a ha
    exact ⟨a, ha, h⟩

theorem callNext_move {s s' : Path} {i : Nat} {a : Attempt} (ha : s.attempts[i]? = some a)
    (h : s.callNext i a = some s') : Move s (.call i) s' := by
  rw [Path.callNext] at h
  split at h
  · rename_i hs
    split at h
    · rename_i n hn
      cases h
      exact .call _ i a (.opened n) _ ha (hs ▸ hn ▸ .made n (Or.inr hn)) rfl
    · rename_i hn
      cases h
      exact .call _ i a (.opened s.files) _ ha (hs ▸ .made s.files (Or.inl hn)) rfl
  · rename_i n hs
    cases hheld : s.isHeld n with
    | true =>
      obtain rfl : s.setStage i a .gone = s' := by simpa [hheld] using h
      exact .call _ i a .gone _ ha (.ended _) rfl
    | false =>
      obtain rfl : s.setStage i a (.locked n) = s' := by simpa [hheld] using h
      exact .lock i a n ha hs hheld
  · rename_i n hs
    cases h
    exact .call _ i a (.cleared n) _ ha (hs ▸ .cleared n) rfl
  · rename_i n hs
    split at h
    · cases h
      exact .call _ i a .gone _ ha (.ended _) rfl
    · cases h
      exact .call _ i a (.bound n s.files) _ ha (hs ▸ .bound n s.files) rfl
  · rename_i n k hs
    cases h
    exact .call _ i a (.live n k) _ ha (hs ▸ .ready n k) rfl
  · cases h

theorem dropNext_move {s s' : Path} {i : Nat} {a : Attempt} (ha : s.attempts[i]? = some a)
    (h : s.dropNext i a = some s') : Move s (.drop i) s' := by
  rw [Path.dropNext] at h
  split at h
  · rename_i n k hs
    cases h
    exact .call _ i a (.unlinking n k) _ ha (hs ▸ .unlinkedLock n k) rfl
  · rename_i n k hs
    cases h
    exact .call _ i a (.closing n k) _ ha (hs ▸ .unlinkedSocket n k) rfl
  · cases h
    exact .call _ i a .gone _ ha (.ended _) rfl
  · cases h

theorem step_move {s s' : Path} {x : Act} (h : step s x = some s') : Move s x s' := by
  cases x with
  | enter pid => cases h; exact .enter pid
  | call i =>
    obtain ⟨a, ha, hf⟩ := onAttempt_some h
    exact callNext_move ha hf
  | fail i =>
    obtain ⟨a, ha, hf⟩ := onAttempt_some h
    split at hf
    · cases hf
      exact .call _ i a .gone _ ha (.ended _) rfl
    · cases hf
  | drop i =>
    obtain ⟨a, ha, hf⟩ := onAttempt_some h
    exact dropNext_move ha hf
  | die pid => cases h; exact .die pid

/-! ## One owner -/

/-- A lock is granted only on the file that the lock path names, and not between
the two removals of a drop. -/
def onNamedLock (s : Path) : Act → Bool
  | .call i =>
    match s.attempts[i]? with
    | some ⟨_, .opened n⟩ =>
      s.isHeld n || (s.lockAt = some n && s.attempts.all fun a => !a.stage.isUnlinking)
    | _ => true
  | _ => true

def OnNamedLock (s : Path) (x : Act) : Prop := onNamedLock s x = true

instance (s : Path) (x : Act) : Decidable (OnNamedLock s x) :=
  inferInstanceAs (Decidable (_ = _))

theorem onNamedLock_grant {s : Path} {i : Nat} {a : Attempt} {n : Nat}
    (ok : OnNamedLock s (.call i)) (ha : s.attempts[i]? = some a) (hs : a.stage = .opened n)
    (free : s.isHeld n = false) :
    s.lockAt = some n ∧ ∀ b ∈ s.attempts, b.stage.isUnlinking = false := by
  obtain ⟨pid, stage⟩ := a
  obtain rfl : stage = .opened n := hs
  simpa [OnNamedLock, onNamedLock, ha, free] using ok

theorem holds_of_guards {stage : Stage} {n : Nat} (h : stage.guards = some n) :
    stage.holds = some n := by
  cases stage <;> first | exact h | cases h

theorem guards_of_socket {stage : Stage} {k : Nat} (h : stage.socket = some k) :
    ∃ n, stage.guards = some n := by
  cases stage <;> first | exact ⟨_, rfl⟩ | cases h

theorem free_of_isHeld {s : Path} {n i : Nat} {a : Attempt} (free : s.isHeld n = false)
    (ha : s.attempts[i]? = some a) : a.stage.holds ≠ some n := by
  have all := List.any_eq_false.mp free a (List.mem_of_getElem? ha)
  simpa using all

/-- Locks exclude each other; a lock held up to the drop is on the file the path
names, with no drop half way; and the socket file bound is the one at the path. -/
structure Owned (s : Path) : Prop where
  exclusive : ∀ (i j : Nat) a b n, s.attempts[i]? = some a → s.attempts[j]? = some b →
    a.stage.holds = some n → b.stage.holds = some n → i = j
  named : ∀ (i : Nat) a n, s.attempts[i]? = some a → a.stage.guards = some n → s.lockAt = some n
  alone : ∀ (i j : Nat) a b n, s.attempts[i]? = some a → s.attempts[j]? = some b →
    a.stage.guards = some n → b.stage.isUnlinking = false
  kept : ∀ (i : Nat) a k, s.attempts[i]? = some a → a.stage.socket = some k → s.pathAt = some k

/-- Two attempts that have got past the lock are one. -/
theorem Owned.unique {s : Path} (h : Owned s) {i j : Nat} {a b : Attempt} {n m : Nat}
    (ha : s.attempts[i]? = some a) (hb : s.attempts[j]? = some b)
    (ga : a.stage.guards = some n) (gb : b.stage.guards = some m) : i = j := by
  have same : n = m := Option.some.inj ((h.named i a n ha ga).symm.trans (h.named j b m hb gb))
  subst same
  exact h.exclusive i j a b n ha hb (holds_of_guards ga) (holds_of_guards gb)

theorem guards_not_unlinking {stage : Stage} {n : Nat} (h : stage.guards = some n) :
    stage.isUnlinking = false := by
  cases stage <;> first | rfl | cases h

/-- One attempt goes to `stage`. What must be shown of it, and of the two paths for
the attempts other than it. -/
theorem Owned.restage {s s' : Path} (h : Owned s) {i : Nat} {a : Attempt} {stage : Stage}
    (rest : s'.attempts = s.attempts.set i { a with stage })
    (exclusive : ∀ (j : Nat) b n, j ≠ i → s.attempts[j]? = some b → stage.holds = some n →
      b.stage.holds ≠ some n)
    (named : ∀ n, stage.guards = some n → s'.lockAt = some n)
    (named_other : ∀ (j : Nat) b n, j ≠ i → s.attempts[j]? = some b → b.stage.guards = some n →
      s'.lockAt = some n ∧ stage.isUnlinking = false)
    (alone : ∀ (j : Nat) b n, j ≠ i → s.attempts[j]? = some b → stage.guards = some n →
      b.stage.isUnlinking = false)
    (kept : ∀ k, stage.socket = some k → s'.pathAt = some k)
    (kept_other : ∀ (j : Nat) b k, j ≠ i → s.attempts[j]? = some b → b.stage.socket = some k →
      s'.pathAt = some k) : Owned s' := by
  have entry : ∀ {j : Nat} {b : Attempt}, s'.attempts[j]? = some b →
      (j = i ∧ b.stage = stage) ∨ (j ≠ i ∧ s.attempts[j]? = some b) := by
    intro j b hb
    rw [rest] at hb
    rcases getElem?_set_cases hb with ⟨here, rfl⟩ | old
    · exact Or.inl ⟨here, rfl⟩
    · exact Or.inr old
  constructor
  · intro j k b c n hb hc held held'
    rcases entry hb with ⟨hj, same⟩ | ⟨hj, old⟩
    · rcases entry hc with ⟨hk, _⟩ | ⟨hk, old'⟩
      · exact hj.trans hk.symm
      · exact absurd held' (exclusive k c n hk old' (same ▸ held))
    · rcases entry hc with ⟨hk, same⟩ | ⟨_, old'⟩
      · exact absurd held (exclusive j b n hj old (same ▸ held'))
      · exact h.exclusive j k b c n old old' held held'
  · intro j b n hb guards
    rcases entry hb with ⟨_, same⟩ | ⟨hj, old⟩
    · exact named n (same ▸ guards)
    · exact (named_other j b n hj old guards).1
  · intro j k b c n hb hc guards
    rcases entry hb with ⟨hj, same⟩ | ⟨hj, old⟩
    · rcases entry hc with ⟨_, same'⟩ | ⟨hk, old'⟩
      · rw [same']
        exact guards_not_unlinking (same ▸ guards)
      · exact alone k c n hk old' (same ▸ guards)
    · rcases entry hc with ⟨_, same'⟩ | ⟨_, old'⟩
      · rw [same']
        exact (named_other j b n hj old guards).2
      · exact h.alone j k b c n old old' guards
  · intro j b k hb socket
    rcases entry hb with ⟨_, same⟩ | ⟨hj, old⟩
    · exact kept k (same ▸ socket)
    · exact kept_other j b k hj old socket

/-- Past its own lock, an attempt is the only one that can have a socket bound. -/
theorem Owned.no_other_socket {s : Path} (h : Owned s) {i j : Nat} {a b : Attempt} {n k : Nat}
    (ha : s.attempts[i]? = some a) (ga : a.stage.guards = some n) (other : j ≠ i)
    (hb : s.attempts[j]? = some b) : b.stage.socket ≠ some k := by
  intro socket
  obtain ⟨m, gb⟩ := guards_of_socket socket
  exact other (h.unique hb ha gb ga)

theorem owned_call {s s' : Path} {i : Nat} {a : Attempt} {stage : Stage} (h : Owned s)
    (ha : s.attempts[i]? = some a) (hm : CallMove s a.stage s'.lockAt s'.pathAt stage)
    (rest : s'.attempts = s.attempts.set i { a with stage }) : Owned s' := by
  have apart : ∀ (j : Nat) b n, j ≠ i → s.attempts[j]? = some b → a.stage.holds = some n →
      b.stage.holds ≠ some n :=
    fun j b n other hb held held' => other (h.exclusive j i b a n hb ha held' held)
  generalize hl : s'.lockAt = lockAt, hp : s'.pathAt = pathAt, hst : a.stage = before at hm
  rw [hst] at apart
  have no_guards : ∀ n, before.guards = some n → ∀ (j : Nat) b m, j ≠ i →
      s.attempts[j]? = some b → b.stage.guards ≠ some m :=
    fun n ga j b m other hb gb => other (h.unique hb ha gb (hst ▸ ga))
  have no_socket : ∀ n, before.guards = some n → ∀ (j : Nat) b k, j ≠ i →
      s.attempts[j]? = some b → b.stage.socket ≠ some k :=
    fun n ga j b k other hb => h.no_other_socket ha (hst ▸ ga) other hb
  cases hm with
  | made n was =>
    refine h.restage rest (by simp [Stage.holds]) (by simp [Stage.guards]) ?_
      (by simp [Stage.guards]) (by simp [Stage.socket]) ?_
    · intro j b m other hb guards
      have named := h.named j b m hb guards
      refine ⟨hl.trans ?_, rfl⟩
      rcases was with nothing | same
      · rw [nothing] at named
        cases named
      · exact same ▸ named
    · exact fun j b k other hb socket => hp.trans (h.kept j b k hb socket)
  | cleared n =>
    have named : s.lockAt = some n := h.named i a n ha (by rw [hst]; rfl)
    refine h.restage rest apart (fun m same => hl.trans (same ▸ named)) ?_ ?_
      (by simp [Stage.socket]) ?_
    · exact fun j b m other hb guards => absurd guards (no_guards n rfl j b m other hb)
    · exact fun j b m other hb _ => h.alone i j a b n ha hb (by rw [hst]; rfl)
    · exact fun j b k other hb socket => absurd socket (no_socket n rfl j b k other hb)
  | bound n k =>
    have named : s.lockAt = some n := h.named i a n ha (by rw [hst]; rfl)
    refine h.restage rest apart (fun m same => hl.trans (same ▸ named)) ?_ ?_
      (fun k' same => hp.trans same) ?_
    · exact fun j b m other hb guards => absurd guards (no_guards n rfl j b m other hb)
    · exact fun j b m other hb _ => h.alone i j a b n ha hb (by rw [hst]; rfl)
    · exact fun j b k' other hb socket => absurd socket (no_socket n rfl j b k' other hb)
  | ready n k =>
    have named : s.lockAt = some n := h.named i a n ha (by rw [hst]; rfl)
    have kept : s.pathAt = some k := h.kept i a k ha (by rw [hst]; rfl)
    refine h.restage rest apart (fun m same => hl.trans (same ▸ named)) ?_ ?_
      (fun k' same => hp.trans (same ▸ kept)) ?_
    · exact fun j b m other hb guards => absurd guards (no_guards n rfl j b m other hb)
    · exact fun j b m other hb _ => h.alone i j a b n ha hb (by rw [hst]; rfl)
    · exact fun j b k' other hb socket => absurd socket (no_socket n rfl j b k' other hb)
  | unlinkedLock n k =>
    refine h.restage rest apart (by simp [Stage.guards]) ?_ (by simp [Stage.guards])
      (by simp [Stage.socket]) ?_
    · exact fun j b m other hb guards => absurd guards (no_guards n rfl j b m other hb)
    · exact fun j b k' other hb socket => absurd socket (no_socket n rfl j b k' other hb)
  | unlinkedSocket n k =>
    -- the socket file removed is nobody's, since nobody got past the lock meanwhile
    have nobody : ∀ (j : Nat) b m, s.attempts[j]? = some b → b.stage.guards ≠ some m := by
      intro j b m hb guards
      have still := h.alone j i b a m hb ha guards
      rw [hst] at still
      cases still
    refine h.restage rest apart (by simp [Stage.guards]) ?_ (by simp [Stage.guards])
      (by simp [Stage.socket]) ?_
    · exact fun j b m other hb guards => absurd guards (nobody j b m hb)
    · intro j b k' other hb socket
      obtain ⟨m, guards⟩ := guards_of_socket socket
      exact absurd guards (nobody j b m hb)
  | ended =>
    refine h.restage rest (by simp [Stage.holds]) (by simp [Stage.guards]) ?_
      (by simp [Stage.guards]) (by simp [Stage.socket]) ?_
    · exact fun j b m other hb guards => ⟨hl.trans (h.named j b m hb guards), rfl⟩
    · exact fun j b k other hb socket => hp.trans (h.kept j b k hb socket)

theorem owned_lock {s : Path} {i : Nat} {a : Attempt} {n : Nat} (h : Owned s)
    (free : s.isHeld n = false) (named : s.lockAt = some n)
    (settled : ∀ b ∈ s.attempts, b.stage.isUnlinking = false) :
    Owned (s.setStage i a (.locked n)) := by
  refine h.restage (i := i) (a := a) rfl ?_ ?_ ?_ ?_ (by simp [Stage.socket]) ?_
  · intro j b m other hb held
    obtain rfl : n = m := Option.some.inj held
    exact free_of_isHeld free hb
  · exact fun m same => same ▸ named
  · exact fun j b m other hb guards => ⟨h.named j b m hb guards, rfl⟩
  · exact fun j b m other hb _ => settled b (List.mem_of_getElem? hb)
  · exact fun j b k other hb socket => h.kept j b k hb socket

/-- Attempts that hold nothing may come into being, and any attempt may turn into one. -/
theorem Owned.of_entries {s : Path} (h : Owned s) {attempts : List Attempt}
    (entry : ∀ (j : Nat) b, attempts[j]? = some b →
      (b.stage = .entered ∨ b.stage = .gone) ∨ s.attempts[j]? = some b) :
    Owned { s with attempts := attempts } := by
  have holder : ∀ {j : Nat} {b : Attempt} {n : Nat}, attempts[j]? = some b →
      b.stage.holds = some n → s.attempts[j]? = some b := by
    intro j b n hb held
    rcases entry j b hb with (new | dead) | old
    · rw [new] at held
      cases held
    · rw [dead] at held
      cases held
    · exact old
  constructor
  · intro i j a b n ha hb held held'
    exact h.exclusive i j a b n (holder ha held) (holder hb held') held held'
  · intro i a n ha guards
    exact h.named i a n (holder ha (holds_of_guards guards)) guards
  · intro i j a b n ha hb guards
    rcases entry j b hb with (new | dead) | old
    · rw [new]
      rfl
    · rw [dead]
      rfl
    · exact h.alone i j a b n (holder ha (holds_of_guards guards)) old guards
  · intro i a k ha socket
    obtain ⟨n, guards⟩ := guards_of_socket socket
    exact h.kept i a k (holder ha (holds_of_guards guards)) socket

theorem owned_step {s s' : Path} {x : Act} (h : Owned s) (m : Move s x s')
    (ok : OnNamedLock s x) : Owned s' := by
  cases m with
  | enter pid =>
    apply h.of_entries
    intro j b hb
    rcases getElem?_push_cases hb with ⟨_, rfl⟩ | old
    · exact Or.inl (Or.inl rfl)
    · exact Or.inr old
  | lock i a n ha hs free =>
    obtain ⟨named, settled⟩ := onNamedLock_grant ok ha hs free
    exact owned_lock h free named settled
  | call x i a stage s' ha hm rest => exact owned_call h ha hm rest
  | die pid =>
    apply h.of_entries
    intro j b hb
    rw [List.getElem?_map] at hb
    obtain ⟨a, ha, rfl⟩ := Option.map_eq_some_iff.mp hb
    by_cases mine : a.pid = pid
    · exact Or.inl (Or.inr (by simp [Attempt.die, mine]))
    · exact Or.inr (by simp [Attempt.die, mine, ha])

/-- In every run whose locks are granted on the file the lock path names and not
in the middle of a drop, no two bindings are live at once, and a live one's socket
file is the one at the path. -/
theorem one_live_binding {s : Path} (h : Reachable machine OnNamedLock s) :
    (∀ (i j : Nat) a b n k m l, s.attempts[i]? = some a → s.attempts[j]? = some b →
      a.stage = .live n k → b.stage = .live m l → i = j) ∧
    ∀ (i : Nat) a n k, s.attempts[i]? = some a → a.stage = .live n k → s.pathAt = some k := by
  have owned : Owned s := by
    refine reachable_invariant ?_ ?_ h
    · rintro s ⟨empty, _, _⟩
      constructor <;> simp [empty]
    · intro s x s' hs ok hstep
      exact owned_step hs (step_move hstep) ok
  constructor
  · intro i j a b n k m l ha hb live live'
    exact owned.unique (n := n) (m := m) ha hb (by rw [live]; rfl) (by rw [live']; rfl)
  · intro i a n k ha live
    exact owned.kept i a k ha (by rw [live]; rfl)

def unused : Path := ⟨none, none, 0, []⟩

theorem unused_init : machine.init unused := ⟨rfl, by simp [unused], by simp [unused]⟩

/-- One owner died, the next one is live and a third was refused. -/
def inherited : Path where
  lockAt := some 0
  pathAt := some 2
  files := 3
  attempts := [⟨7, .gone⟩, ⟨8, .live 0 2⟩, ⟨9, .gone⟩]

theorem inherited_run : exec machine OnNamedLock unused
    [.enter 7, .call 0, .call 0, .call 0, .call 0, .call 0, .die 7, .enter 8, .call 1, .call 1,
      .call 1, .call 1, .call 1, .enter 9, .call 2, .call 2] = some inherited := by
  decide

theorem one_live_binding_inherited :
    (∀ (i j : Nat) a b n k m l, inherited.attempts[i]? = some a →
      inherited.attempts[j]? = some b → a.stage = .live n k → b.stage = .live m l → i = j) ∧
    ∀ (i : Nat) a n k, inherited.attempts[i]? = some a → a.stage = .live n k →
      inherited.pathAt = some k :=
  one_live_binding (exec_reachable unused_init inherited_run)

/-- The second contender opened the lock file before the first owner's drop removed
it, and locked it afterwards; the third made a new one. Both are live. -/
def twoOwners : Path where
  lockAt := some 2
  pathAt := some 4
  files := 5
  attempts := [⟨7, .gone⟩, ⟨8, .live 0 4⟩, ⟨9, .live 2 3⟩]

theorem twoOwners_run : exec machine anyStep unused
    [.enter 7, .call 0, .call 0, .call 0, .call 0, .call 0, .enter 8, .call 1, .drop 0, .drop 0,
      .drop 0, .call 1, .enter 9, .call 2, .call 2, .call 2, .call 2, .call 2, .call 1, .call 1,
      .call 1] = some twoOwners := by
  decide

/-- Two owners are possible, and the second takes the path from the first. -/
theorem two_live_bindings :
    ¬ ∀ s : Path, Reachable machine anyStep s →
      (∀ (i j : Nat) a b n k m l, s.attempts[i]? = some a → s.attempts[j]? = some b →
        a.stage = .live n k → b.stage = .live m l → i = j) ∧
      ∀ (i : Nat) a n k, s.attempts[i]? = some a → a.stage = .live n k → s.pathAt = some k := by
  intro claim
  have both := (claim twoOwners (exec_reachable unused_init twoOwners_run)).1
  have same := both 1 2 ⟨8, .live 0 4⟩ ⟨9, .live 2 3⟩ 0 4 2 3 rfl rfl rfl rfl
  exact absurd same (by decide)

end Binding
