import StrongIpc.Contention
import StrongIpc.Neighbours

/-!
# The programs on one path

`RefFsBinding::new` and its drop as programs over a disk, and the machine of one path that
tells nothing but lock files, socket files and who holds what. Every run of the programs on
a path, whatever the kernel refuses but to unlink a lock file, is step by step a run of that
machine: an attempt that gives up is one that dies there, and what opening an address, a socket
or a listener comes to is not told.
-/

namespace FsBinding

open Interaction Roster StepMachine
open Binding (Stage)

variable {D : Type}

/-! ## The machine's names for files -/

/-- The stage with its lock file and its socket file named otherwise. -/
def rename (fl fs : Nat → Nat) : Stage → Stage
  | .entered => .entered
  | .opened n => .opened (fl n)
  | .locked n => .locked (fl n)
  | .cleared n => .cleared (fl n)
  | .bound n k => .bound (fl n) (fs k)
  | .live n k => .live (fl n) (fs k)
  | .unlinking n k => .unlinking (fl n) (fs k)
  | .closing n k => .closing (fl n) (fs k)
  | .gone => .gone

/-- The lock file that the attempt has opened. -/
def lockOf : Stage → Option Nat
  | .opened n => some n
  | .locked n => some n
  | .cleared n => some n
  | .bound n _ => some n
  | .live n _ => some n
  | .unlinking n _ => some n
  | .closing n _ => some n
  | _ => none

/-- The socket file that it has bound. -/
def socketOf : Stage → Option Nat
  | .bound _ k => some k
  | .live _ k => some k
  | .unlinking _ k => some k
  | .closing _ k => some k
  | _ => none

theorem rename_holds (fl fs : Nat → Nat) (x : Stage) :
    (rename fl fs x).holds = x.holds.map fl := by
  cases x <;> rfl

theorem rename_congr {fl fs fl' fs' : Nat → Nat} {x : Stage}
    (lock : ∀ n, lockOf x = some n → fl' n = fl n)
    (socket : ∀ k, socketOf x = some k → fs' k = fs k) :
    rename fl' fs' x = rename fl fs x := by
  cases x with
  | entered | gone => rfl
  | opened n | locked n | cleared n => simp only [rename, lock n rfl]
  | bound n k | live n k | unlinking n k | closing n k =>
    simp only [rename, lock n rfl, socket k rfl]

theorem lockOf_of_holds {x : Stage} {n : Nat} (h : x.holds = some n) : lockOf x = some n := by
  cases x <;> first | exact h | cases h

/-- Different files of a path have different names, all of which are in use. -/
structure Naming (s : Spot D) (files : Nat) (f : Nat → Nat) : Prop where
  used : ∀ n, n < s.made → f n < files
  apart : ∀ n m, n < s.made → m < s.made → f n = f m → n = m

/-- The name of what there is at the path. -/
def Spot.named (s : Spot D) (f : Nat → Nat) : Option Nat := s.entry.map fun e => f e.number

theorem Naming.mono {s : Spot D} {files files' : Nat} {f : Nat → Nat} (h : Naming s files f)
    (more : files ≤ files') : Naming s files' f :=
  ⟨fun n made => Nat.lt_of_lt_of_le (h.used n made) more, h.apart⟩

theorem Naming.congr {s s' : Spot D} {files : Nat} {f : Nat → Nat} (h : Naming s files f)
    (made : s'.made = s.made) : Naming s' files f :=
  ⟨fun n inside => h.used n (made ▸ inside),
    fun n m inside inside' => h.apart n m (made ▸ inside) (made ▸ inside')⟩

theorem named_congr {s s' : Spot D} (f : Nat → Nat) (entry : s'.entry = s.entry) :
    s'.named f = s.named f := by
  rw [Spot.named, Spot.named, entry]

/-- A new file gets the next name. -/
theorem Naming.make {s : Spot D} {files : Nat} {f : Nat → Nat} (h : Naming s files f)
    (kind : Kind) : Naming (s.make kind) (files + 1) (Function.update f s.made files) := by
  have before : ∀ {n : Nat}, n < (s.make kind).made → n ≠ s.made → n < s.made :=
    fun inside other => Nat.lt_of_le_of_ne (Nat.le_of_lt_succ inside) other
  constructor
  · intro n inside
    by_cases new : n = s.made
    · rw [new, Function.update_self]
      exact Nat.lt_succ_self files
    · rw [Function.update_of_ne new]
      exact Nat.lt_succ_of_lt (h.used n (before inside new))
  · intro n m inside inside' same
    by_cases new : n = s.made <;> by_cases new' : m = s.made
    · exact new.trans new'.symm
    · rw [new, Function.update_self, Function.update_of_ne new'] at same
      exact absurd same.symm (Nat.ne_of_lt (h.used m (before inside' new')))
    · rw [new', Function.update_self, Function.update_of_ne new] at same
      exact absurd same (Nat.ne_of_lt (h.used n (before inside new)))
    · rw [Function.update_of_ne new, Function.update_of_ne new'] at same
      exact h.apart n m (before inside new) (before inside' new') same

theorem update_below {f : Nat → Nat} {made files n : Nat} (inside : n < made) :
    Function.update f made files n = f n :=
  Function.update_of_ne (Nat.ne_of_lt inside) _ _

/-! ## Where a program stands -/

def Phase.isDropping : Phase D → Bool
  | .dropping _ => true
  | _ => false

def World.isDropping (w : World D) (who : Attempt D) : Bool := (w.phases who).any Phase.isDropping

/-- What is left of an attempt's programs at each stage. Whether the path was cleared does
not matter to the program. -/
inductive At (q : Path D) : Phase D → Stage → Prop where
  | entered : At q (settled (new q)) .entered
  | opened (n : Nat) :
      At q (settled ((lockOpened (some ⟨lockPath q, n⟩)).bind (newLocked q))) (.opened n)
  | refused (n : Nat) :
      At q (.making (.ask (.closeFile ⟨lockPath q, n⟩) fun _ => newLocked q none)) .gone
  | locked (n : Nat) : At q (settled (newLocked q (some ⟨lockPath q, n⟩))) (.locked n)
  | clear (n : Nat) (x : Stage) (hs : x = .locked n ∨ x = .cleared n) :
      At q (settled ((bind q).bind (acceptOn q ⟨lockPath q, n⟩))) x
  | addressed (n : Nat) (x : Stage) (k : Bool → Prog D (Except NewError (RefFsBinding D)))
      (hs : x = .locked n ∨ x = .cleared n)
      (opens : k true = .ask (.bind q) fun r => (listenOn r).bind (acceptOn q ⟨lockPath q, n⟩))
      (fails : k false = acceptOn q ⟨lockPath q, n⟩ (.error .socket)) :
      At q (.making (.ask (.socket q) k)) x
  | unbound (n : Nat) (x : Stage) (hs : x = .locked n ∨ x = .cleared n) :
      At q (.making (.ask (.bind q) fun r =>
        (listenOn r).bind (acceptOn q ⟨lockPath q, n⟩))) x
  | bound (n k : Nat) :
      At q (settled ((listenOn (some ⟨q, k⟩)).bind (acceptOn q ⟨lockPath q, n⟩))) (.bound n k)
  | listening (n k : Nat) :
      At q (settled (acceptOn q ⟨lockPath q, n⟩ (.ok ⟨q, k⟩))) (.bound n k)
  | unheard (n k : Nat) (rest : Prog D (Except NewError (RefFsBinding D)))
      (e : NewError) (left : rest = .ask (.closeFile ⟨lockPath q, n⟩) fun _ => .ret (.error e)) :
      At q (.making (.ask (.closeSocket ⟨q, k⟩) fun _ => rest)) (.bound n k)
  | leaving (n : Nat) (e : NewError) (x : Stage) (hs : x.guards = some n) :
      At q (.making (.ask (.closeFile ⟨lockPath q, n⟩) fun _ => .ret (.error e))) x
  | failed (e : NewError) : At q (.failed e) .gone
  | live (n k : Nat) : At q (.live ⟨⟨lockPath q, n⟩, q, ⟨q, k⟩⟩) (.live n k)
  | dropping (n k : Nat) :
      At q (dropped (drop ⟨⟨lockPath q, n⟩, q, ⟨q, k⟩⟩)) (.live n k)
  | unlinked (n k : Nat) :
      At q (.dropping (.ask (.removeFile q) fun _ => .ask (.closeFile ⟨lockPath q, n⟩) fun _ =>
        .ask (.closeSocket ⟨q, k⟩) fun _ => .ret ())) (.unlinking n k)
  | closing (n k : Nat) (x : Stage) (hs : x.holds = some n) :
      At q (.dropping (.ask (.closeFile ⟨lockPath q, n⟩) fun _ =>
        .ask (.closeSocket ⟨q, k⟩) fun _ => .ret ())) x
  | closed (k : Nat) : At q (.dropping (.ask (.closeSocket ⟨q, k⟩) fun _ => .ret ())) .gone
  | gone : At q .gone .gone

/-- What an attempt's stage says is so on the disk. -/
structure Fits (q : Path D) (d : Disk D) (m : Nat) (x : Stage) : Prop where
  lock : ∀ n, lockOf x = some n → n < (d (lockPath q)).made
  socket : ∀ k, socketOf x = some k → k < (d q).made
  holds : ∀ n, x.holds = some n → (n, ⟨q, m⟩) ∈ (d (lockPath q)).locked
  plain : ∀ n, lockOf x = some n → ∀ e ∈ (d (lockPath q)).entry, e.kind = .file

/-- The attempts on `q` and its two files, as the machine of one path has them. -/
structure Tracks (q : Path D) (fl fs : Nat → Nat) (w : World D) (s : Binding.Path) : Prop where
  lock : Naming (w.disk (lockPath q)) s.files fl
  socket : Naming (w.disk q) s.files fs
  lockAt : s.lockAt = (w.disk (lockPath q)).named fl
  pathAt : s.pathAt = (w.disk q).named fs
  pids : ∀ (i j : Nat) a b, s.attempts[i]? = some a → s.attempts[j]? = some b →
    a.pid = b.pid → i = j
  present : ∀ a ∈ s.attempts, w.phases ⟨q, a.pid⟩ ≠ none
  stands : ∀ m ph, w.phases ⟨q, m⟩ = some ph → ∃ (i : Nat) (x : Stage),
    s.attempts[i]? = some ⟨m, rename fl fs x⟩ ∧ At q ph x ∧ Fits q w.disk m x

/-- What one attempt does to the disk takes nothing from the others. -/
structure Spares (q : Path D) (m : Nat) (d d' : Disk D) : Prop where
  lock : (d (lockPath q)).made ≤ (d' (lockPath q)).made
  socket : (d q).made ≤ (d' q).made
  held : ∀ n who, who ≠ ⟨q, m⟩ → (n, who) ∈ (d (lockPath q)).locked →
    (n, who) ∈ (d' (lockPath q)).locked
  plain : (∀ e ∈ (d (lockPath q)).entry, e.kind = .file) →
    ∀ e ∈ (d' (lockPath q)).entry, e.kind = .file

theorem Fits.spared {q : Path D} {d d' : Disk D} {m m' : Nat} {x : Stage} (h : Fits q d m' x)
    (spares : Spares q m d d') (other : m' ≠ m) : Fits q d' m' x where
  lock := fun n opened => Nat.lt_of_lt_of_le (h.lock n opened) spares.lock
  socket := fun k bound => Nat.lt_of_lt_of_le (h.socket k bound) spares.socket
  holds := fun n held => spares.held n _ (by simpa using other) (h.holds n held)
  plain := fun n opened => spares.plain (h.plain n opened)

variable [DecidableEq D]

/-- The world after one attempt has gone on. -/
def World.moved (w : World D) (q : Path D) (m : Nat) (d : Disk D) (ph : Phase D) : World D :=
  ⟨d, Function.update w.phases ⟨q, m⟩ (some ph)⟩

/-- One attempt goes on, and its entry in the machine with it. -/
theorem Tracks.restage {q : Path D} {fl fs fl' fs' : Nat → Nat} {w : World D}
    {s s' : Binding.Path} {d : Disk D} {i m : Nat} {x y : Stage} {ph : Phase D}
    (h : Tracks q fl fs w s) (ha : s.attempts[i]? = some ⟨m, rename fl fs x⟩)
    (spares : Spares q m w.disk d)
    (lock : Naming (d (lockPath q)) s'.files fl') (socket : Naming (d q) s'.files fs')
    (lockAt : s'.lockAt = (d (lockPath q)).named fl') (pathAt : s'.pathAt = (d q).named fs')
    (same : ∀ n, n < (w.disk (lockPath q)).made → fl' n = fl n)
    (same' : ∀ k, k < (w.disk q).made → fs' k = fs k)
    (rest : s'.attempts = s.attempts.set i ⟨m, rename fl' fs' y⟩) (point : At q ph y)
    (fits : Fits q d m y) : Tracks q fl' fs' (w.moved q m d ph) s' := by
  have here := (List.getElem?_eq_some_iff.mp ha).1
  refine ⟨lock, socket, lockAt, pathAt, ?_, ?_, ?_⟩
  · intro j k a b hj hk pid
    rw [rest] at hj hk
    rcases getElem?_set_cases hj with ⟨rfl, rfl⟩ | ⟨other, old⟩
    · rcases getElem?_set_cases hk with ⟨rfl, _⟩ | ⟨_, old'⟩
      · rfl
      · exact h.pids j k _ b ha old' pid
    · rcases getElem?_set_cases hk with ⟨rfl, rfl⟩ | ⟨_, old'⟩
      · exact h.pids j k a _ old ha pid
      · exact h.pids j k a b old old' pid
  · intro a there
    rw [rest] at there
    simp only [World.moved, Function.update_apply]
    split
    · exact Option.some_ne_none _
    · rcases List.mem_or_eq_of_mem_set there with old | rfl
      · exact h.present a old
      · rename_i other
        exact absurd rfl other
  · intro m' ph' hph
    simp only [World.moved, Function.update_apply] at hph
    split at hph
    · rename_i mine
      obtain rfl : m' = m := by simpa using mine
      obtain rfl := Option.some.inj hph
      exact ⟨i, y, by rw [rest, List.getElem?_set_self here], point, fits⟩
    · rename_i mine
      have other : m' ≠ m := fun eq => mine (by rw [eq])
      obtain ⟨j, z, hj, point', fits'⟩ := h.stands m' ph' hph
      have apart : i ≠ j := by
        rintro rfl
        exact other (congrArg Binding.Attempt.pid (Option.some.inj (hj.symm.trans ha)))
      have renamed : rename fl' fs' z = rename fl fs z :=
        rename_congr (fun n opened => same n (fits'.lock n opened))
          fun k bound => same' k (fits'.socket k bound)
      refine ⟨j, z, ?_, point', fits'.spared spares other⟩
      rw [rest, List.getElem?_set_ne apart, renamed]
      exact hj

/-! ## What the machine does -/

theorem call_taken {s t : Binding.Path} {i : Nat} {a : Binding.Attempt}
    (ha : s.attempts[i]? = some a) (next : s.callNext i a = some t) :
    Binding.machine.step s (.call i) = some t := by
  simp only [Binding.machine, Binding.step, Binding.Path.onAttempt, ha]
  exact next

theorem drop_taken {s t : Binding.Path} {i : Nat} {a : Binding.Attempt}
    (ha : s.attempts[i]? = some a) (next : s.dropNext i a = some t) :
    Binding.machine.step s (.drop i) = some t := by
  simp only [Binding.machine, Binding.step, Binding.Path.onAttempt, ha]
  exact next

/-- With a process for each attempt, the death of one is the end of its attempt. -/
theorem die_taken {s : Binding.Path} {i m : Nat} {stage : Stage}
    (pids : ∀ (i j : Nat) a b, s.attempts[i]? = some a → s.attempts[j]? = some b →
      a.pid = b.pid → i = j)
    (ha : s.attempts[i]? = some ⟨m, stage⟩) :
    Binding.machine.step s (.die m) = some { s with attempts := s.attempts.set i ⟨m, .gone⟩ } := by
  have only : s.attempts.map (Binding.Attempt.die m) = s.attempts.set i ⟨m, .gone⟩ := by
    refine List.ext_getElem? fun j => ?_
    rw [List.getElem?_map]
    by_cases here : i = j
    · subst here
      rw [ha, List.getElem?_set_self (List.getElem?_eq_some_iff.mp ha).1]
      simp [Binding.Attempt.die]
    · rw [List.getElem?_set_ne here]
      cases hj : s.attempts[j]? with
      | none => rfl
      | some b =>
        have other : b.pid ≠ m := fun same => here (pids i j _ b ha hj same.symm)
        simp [Binding.Attempt.die, other]
  simp only [Binding.machine, Binding.step, only]

/-- The guard of the machine's steps that match a step of a program. -/
def allowed (dropping named : Bool) (s : Binding.Path) (x : Binding.Act) : Prop :=
  (dropping = true ∨ Binding.Stays s x) ∧ (named = true → Binding.OnNamedLock s x)

instance (dropping named : Bool) (s : Binding.Path) (x : Binding.Act) :
    Decidable (allowed dropping named s x) :=
  inferInstanceAs (Decidable (_ ∧ _))

theorem allowed_call {dropping named : Bool} {s : Binding.Path} {i : Nat}
    {a : Binding.Attempt} (ha : s.attempts[i]? = some a) (other : ∀ n, a.stage ≠ .opened n) :
    allowed dropping named s (.call i) := by
  refine ⟨Or.inr rfl, fun _ => ?_⟩
  simp only [Binding.OnNamedLock, Binding.onNamedLock, ha]
  split
  · rename_i same
    cases same
    exact absurd rfl (other _)
  · rfl

/-- With these steps the machine follows an attempt that goes on so. -/
def Matched (dropping named : Bool) (q : Path D) (m : Nat) (w : World D) (s : Binding.Path)
    (acts : List Binding.Act) (d : Disk D) (ph : Phase D) : Prop :=
  ∃ s' fl fs, exec Binding.machine (allowed dropping named) s acts = some s' ∧
    Tracks q fl fs (w.moved q m d ph) s'

/-- What a call of a program comes to for its attempt. If the path was not cleared when it
was time, the machine clears it just before it binds. -/
inductive Follows (i m : Nat) : List Binding.Act → Prop where
  | untold : Follows i m []
  | called : Follows i m [.call i]
  | caughtUp : Follows i m [.call i, .call i]
  | dropped : Follows i m [.drop i]
  | gaveUp : Follows i m [.die m]

def Followed (dropping named : Bool) (q : Path D) (i m : Nat) (w : World D) (s : Binding.Path)
    (d : Disk D) (ph : Phase D) : Prop :=
  ∃ acts, Follows i m acts ∧ Matched dropping named q m w s acts d ph

/-- Nothing is made or removed, and nothing taken from the others. -/
structure Quiet (q : Path D) (m : Nat) (d d' : Disk D) : Prop where
  lockEntry : (d' (lockPath q)).entry = (d (lockPath q)).entry
  lockMade : (d' (lockPath q)).made = (d (lockPath q)).made
  entry : (d' q).entry = (d q).entry
  made : (d' q).made = (d q).made
  held : ∀ n who, who ≠ ⟨q, m⟩ → (n, who) ∈ (d (lockPath q)).locked →
    (n, who) ∈ (d' (lockPath q)).locked

section Match
variable {q : Path D} {fl fs : Nat → Nat} {w : World D} {s : Binding.Path} {d : Disk D}
  {i m : Nat} {x : Stage} {ph : Phase D} {dropping named : Bool}

omit [DecidableEq D] in
theorem Quiet.spares {d' : Disk D} (h : Quiet q m d d') : Spares q m d d' where
  lock := Nat.le_of_eq h.lockMade.symm
  socket := Nat.le_of_eq h.made.symm
  held := h.held
  plain := fun plain e there => plain e (h.lockEntry ▸ there)

/-- A step of the program that the machine does not tell. -/
theorem Tracks.stays (h : Tracks q fl fs w s) (ha : s.attempts[i]? = some ⟨m, rename fl fs x⟩)
    (fits : Fits q w.disk m x) (quiet : Quiet q m w.disk d)
    (own : ∀ n, x.holds = some n → (n, ⟨q, m⟩) ∈ (d (lockPath q)).locked) (point : At q ph x) :
    Matched dropping named q m w s [] d ph := by
  have rest : s.attempts = s.attempts.set i ⟨m, rename fl fs x⟩ := by
    obtain ⟨inside, same⟩ := List.getElem?_eq_some_iff.mp ha
    rw [← same, List.set_getElem_self]
  refine ⟨s, fl, fs, rfl, h.restage ha quiet.spares (h.lock.congr quiet.lockMade)
    (h.socket.congr quiet.made) (h.lockAt.trans (named_congr fl quiet.lockEntry).symm)
    (h.pathAt.trans (named_congr fs quiet.entry).symm) (fun _ _ => rfl) (fun _ _ => rfl) rest
    point ⟨?_, ?_, own, ?_⟩⟩
  · exact fun n opened => quiet.lockMade ▸ fits.lock n opened
  · exact fun k bound => quiet.made ▸ fits.socket k bound
  · exact fun n opened e there => fits.plain n opened e (quiet.lockEntry ▸ there)

omit [DecidableEq D] in
theorem fits_gone : Fits q d m .gone := by
  constructor
  · rintro n ⟨⟩
  · rintro k ⟨⟩
  · rintro n ⟨⟩
  · rintro n ⟨⟩

/-- Whatever an attempt stumbles over, to the machine it dies. -/
theorem Tracks.givesUp (h : Tracks q fl fs w s)
    (ha : s.attempts[i]? = some ⟨m, rename fl fs x⟩) (quiet : Quiet q m w.disk d)
    (point : At q ph .gone) : Matched dropping named q m w s [.die m] d ph := by
  refine ⟨_, fl, fs, exec_step ⟨Or.inr rfl, fun _ => rfl⟩ (die_taken h.pids ha) [],
    h.restage (y := .gone) ha quiet.spares (h.lock.congr quiet.lockMade)
      (h.socket.congr quiet.made) (h.lockAt.trans (named_congr fl quiet.lockEntry).symm)
      (h.pathAt.trans (named_congr fs quiet.entry).symm) (fun _ _ => rfl) (fun _ _ => rfl) rfl
      point fits_gone⟩

/-! ## What the calls come to -/

theorem quiet_path {who : Attempt D} {ok : Bool} {c : Call D} (about : c.path = q)
    (entry : ((serve who ok c d).2 q).entry = (d q).entry)
    (made : ((serve who ok c d).2 q).made = (d q).made) : Quiet q m d (serve who ok c d).2 := by
  have elsewhere : (serve who ok c d).2 (lockPath q) = d (lockPath q) :=
    serve_elsewhere who ok d (about ▸ lockPath_ne q)
  refine ⟨by rw [elsewhere], by rw [elsewhere], entry, made, fun n who' _ held => ?_⟩
  rw [elsewhere]
  exact held

theorem quiet_lock {who : Attempt D} {ok : Bool} {c : Call D} (about : c.path = lockPath q)
    (entry : ((serve who ok c d).2 (lockPath q)).entry = (d (lockPath q)).entry)
    (made : ((serve who ok c d).2 (lockPath q)).made = (d (lockPath q)).made)
    (held : ∀ n who', who' ≠ ⟨q, m⟩ → (n, who') ∈ (d (lockPath q)).locked →
      (n, who') ∈ ((serve who ok c d).2 (lockPath q)).locked) :
    Quiet q m d (serve who ok c d).2 := by
  have elsewhere : (serve who ok c d).2 q = d q :=
    serve_elsewhere who ok d (about ▸ (lockPath_ne q).symm)
  exact ⟨entry, made, by rw [elsewhere], by rw [elsewhere], held⟩

omit [DecidableEq D] in
theorem opens_cases (s : Spot D) : s.opens = none ∨
    (∃ n, s.entry = some ⟨.file, n⟩ ∧ s.opens = some n) ∨
    (s.entry = none ∧ s.opens = some s.made) := by
  rw [Spot.opens]
  split
  · rename_i entry
    exact Or.inr (Or.inr ⟨entry, rfl⟩)
  · rename_i n entry
    exact Or.inr (Or.inl ⟨n, entry, rfl⟩)
  · exact Or.inl rfl
  · exact Or.inl rfl

theorem create_cases (who : Attempt D) (ok : Bool) (p : Path D) (d : Disk D) :
    ((serve who ok (.create p) d).1 = none ∧ (serve who ok (.create p) d).2 p = d p) ∨
    (∃ n, (d p).entry = some ⟨.file, n⟩ ∧ (serve who ok (.create p) d).1 = some ⟨p, n⟩ ∧
      (serve who ok (.create p) d).2 p = d p) ∨
    ((d p).entry = none ∧ (serve who ok (.create p) d).1 = some ⟨p, (d p).made⟩ ∧
      (serve who ok (.create p) d).2 p = (d p).make .file) := by
  have here : (serve who ok (.create p) d).2 p = ((Call.create p).serveAt who ok (d p)).2 :=
    serve_here who ok (.create p) d
  rw [here, serve_answer]
  cases ok with
  | false => exact Or.inl ⟨rfl, rfl⟩
  | true =>
    simp only [Call.path, Call.serveAt]
    rcases opens_cases (d p) with closed | ⟨n, entry, opens⟩ | ⟨entry, opens⟩
    · simp [closed]
    · exact Or.inr (Or.inl ⟨n, by simp [entry, opens]⟩)
    · exact Or.inr (Or.inr (by simp [entry, opens]))

theorem tryLock_cases (who : Attempt D) (ok : Bool) (f : File D) (d : Disk D) :
    ((serve who ok (.tryLock f) d).1 = false ∧ (serve who ok (.tryLock f) d).2 f.path = d f.path) ∨
    ((serve who ok (.tryLock f) d).1 = true ∧ (d f.path).isFree f.number = true ∧
      (serve who ok (.tryLock f) d).2 f.path =
        { d f.path with locked := (f.number, who) :: (d f.path).locked }) := by
  have here : (serve who ok (.tryLock f) d).2 f.path =
      ((Call.tryLock f).serveAt who ok (d f.path)).2 := serve_here who ok (.tryLock f) d
  rw [here, serve_answer]
  by_cases granted : (ok && (d f.path).isFree f.number) = true
  · have served : (Call.tryLock f).serveAt who ok (d f.path) = (true, _) := if_pos granted
    exact Or.inr ⟨congrArg Prod.fst served, (Bool.and_eq_true_iff.mp granted).2,
      congrArg Prod.snd served⟩
  · have served : (Call.tryLock f).serveAt who ok (d f.path) = (false, _) := if_neg granted
    exact Or.inl ⟨congrArg Prod.fst served, congrArg Prod.snd served⟩

theorem removeFile_cases (who : Attempt D) (ok : Bool) (p : Path D) (d : Disk D) :
    ((serve who ok (.removeFile p) d).2 p = d p ∧ (ok && (d p).isRemovable) = false) ∨
    ((serve who ok (.removeFile p) d).2 p = (d p).remove) := by
  have here : (serve who ok (.removeFile p) d).2 p =
      ((Call.removeFile p).serveAt who ok (d p)).2 := serve_here who ok (.removeFile p) d
  rw [here]
  simp only [Call.serveAt]
  split
  · exact Or.inr rfl
  · rename_i refused
    exact Or.inl ⟨rfl, by simpa using refused⟩

theorem bind_cases (who : Attempt D) (ok : Bool) (p : Path D) (d : Disk D) :
    ((serve who ok (.bind p) d).1 = none ∧ (serve who ok (.bind p) d).2 p = d p) ∨
    ((d p).entry = none ∧ (serve who ok (.bind p) d).1 = some ⟨p, (d p).made⟩ ∧
      (serve who ok (.bind p) d).2 p = (d p).make .socket) := by
  have here : (serve who ok (.bind p) d).2 p = ((Call.bind p).serveAt who ok (d p)).2 :=
    serve_here who ok (.bind p) d
  rw [here, serve_answer]
  by_cases granted : (ok && (d p).entry.isNone) = true
  · have served : (Call.bind p).serveAt who ok (d p) = (some ⟨p, (d p).made⟩, _) :=
      if_pos granted
    exact Or.inr ⟨Option.isNone_iff_eq_none.mp (Bool.and_eq_true_iff.mp granted).2,
      congrArg Prod.fst served, congrArg Prod.snd served⟩
  · have served : (Call.bind p).serveAt who ok (d p) = (none, _) := if_neg granted
    exact Or.inl ⟨congrArg Prod.fst served, congrArg Prod.snd served⟩

/-- Calls about the socket that make and remove no file. -/
def Call.Idles (q : Path D) : Call D → Prop
  | .address p => p = q
  | .socket p => p = q
  | .listen k => k.path = q
  | .register k => k.path = q
  | .closeSocket k => k.path = q
  | _ => False

theorem Call.Idles.quiet {c : Call D} (h : c.Idles q) (ok : Bool) :
    c.path = q ∧ Quiet q m d (serve ⟨q, m⟩ ok c d).2 := by
  have about : c.path = q := by
    cases c <;> first | exact h | cases h
  have idle : (c.serveAt ⟨q, m⟩ ok (d q)).2.entry = (d q).entry ∧
      (c.serveAt ⟨q, m⟩ ok (d q)).2.made = (d q).made := by
    cases c with
    | address | socket | listen | register | closeSocket => cases ok <;> exact ⟨rfl, rfl⟩
    | _ => cases h
  have here := serve_here ⟨q, m⟩ ok c d
  rw [about] at here
  rw [← here] at idle
  exact ⟨about, quiet_path about idle.1 idle.2⟩

/-- Such a call is not told. -/
theorem Tracks.idles (h : Tracks q fl fs w s) (ha : s.attempts[i]? = some ⟨m, rename fl fs x⟩)
    (fits : Fits q w.disk m x) {c : Call D} (idle : c.Idles q) (ok : Bool) (point : At q ph x) :
    Matched dropping named q m w s [] (serve ⟨q, m⟩ ok c w.disk).2 ph := by
  obtain ⟨about, quiet⟩ := idle.quiet (m := m) (d := w.disk) ok
  refine h.stays ha fits quiet (fun n held => ?_) point
  rw [serve_elsewhere ⟨q, m⟩ ok w.disk (about ▸ lockPath_ne q)]
  exact fits.holds n held

theorem closeFile_quiet (n : Nat) (ok : Bool) :
    Quiet q m d (serve ⟨q, m⟩ ok (.closeFile ⟨lockPath q, n⟩) d).2 := by
  have here : (serve ⟨q, m⟩ ok (.closeFile ⟨lockPath q, n⟩) d).2 (lockPath q) =
      { d (lockPath q) with locked := (d (lockPath q)).locked.erase (n, ⟨q, m⟩) } :=
    serve_here ⟨q, m⟩ ok (.closeFile ⟨lockPath q, n⟩) d
  refine quiet_lock rfl (by rw [here]) (by rw [here]) fun n' who other held => ?_
  rw [here]
  exact (List.mem_erase_of_ne fun same => other (congrArg Prod.snd same)).mpr held

omit [DecidableEq D] in
/-- The lock file is left alone. -/
theorem spares_path {d' : Disk D} (elsewhere : d' (lockPath q) = d (lockPath q))
    (made : (d q).made ≤ (d' q).made) : Spares q m d d' := by
  refine ⟨Nat.le_of_eq (by rw [elsewhere]), made, fun _ _ _ held => by rwa [elsewhere],
    fun plain e there => ?_⟩
  rw [elsewhere] at there
  exact plain e there

omit [DecidableEq D] in
theorem Fits.path {d' : Disk D} {y : Stage} (fits : Fits q d m x)
    (elsewhere : d' (lockPath q) = d (lockPath q)) (opened : lockOf y = lockOf x)
    (holds : y.holds = x.holds) (bound : ∀ k, socketOf y = some k → k < (d' q).made) :
    Fits q d' m y where
  lock := fun n own => elsewhere ▸ fits.lock n (opened ▸ own)
  socket := bound
  holds := fun n own => elsewhere ▸ fits.holds n (holds ▸ own)
  plain := fun n own e there => fits.plain n (opened ▸ own) e (elsewhere ▸ there)

/-! ## The points of `new` -/

theorem entered_matched (h : Tracks q fl fs w s) (ha : s.attempts[i]? = some ⟨m, .entered⟩)
    (ok : Bool) :
    Followed dropping named q i m w s (serve ⟨q, m⟩ ok (.create (lockPath q)) w.disk).2
      (settled ((lockOpened (serve ⟨q, m⟩ ok (.create (lockPath q)) w.disk).1).bind
        (newLocked q))) := by
  have elsewhere : (serve ⟨q, m⟩ ok (.create (lockPath q)) w.disk).2 q = w.disk q :=
    serve_elsewhere ⟨q, m⟩ ok w.disk (lockPath_ne q).symm
  have quiet : (serve ⟨q, m⟩ ok (.create (lockPath q)) w.disk).2 (lockPath q) =
      w.disk (lockPath q) → Quiet q m w.disk (serve ⟨q, m⟩ ok (.create (lockPath q)) w.disk).2 :=
    fun same => quiet_lock rfl (by rw [same]) (by rw [same]) fun _ _ _ held => by rwa [same]
  rcases create_cases ⟨q, m⟩ ok (lockPath q) w.disk with
    ⟨refused, same⟩ | ⟨n, entry, opened, same⟩ | ⟨entry, opened, made⟩
  · rw [refused]
    exact ⟨_, .gaveUp, h.givesUp (x := .entered) ha (quiet same) (.failed _)⟩
  · have lockAt : s.lockAt = some (fl n) := by
      rw [h.lockAt, Spot.named, entry]
      rfl
    have next : s.callNext i ⟨m, .entered⟩ =
        some (s.setStage i ⟨m, .entered⟩ (.opened (fl n))) := by
      simp only [Binding.Path.callNext, lockAt]
    rw [opened]
    refine ⟨_, .called, _, fl, fs, exec_step (allowed_call ha (by simp)) (call_taken ha next) [],
      h.restage (x := .entered) (y := .opened n) ha (quiet same).spares
        (by rw [same]; exact h.lock) (by rw [elsewhere]; exact h.socket)
        (by rw [same]; exact h.lockAt) (by rw [elsewhere]; exact h.pathAt) (fun _ _ => rfl)
        (fun _ _ => rfl) rfl (.opened n) ⟨?_, by rintro k ⟨⟩, by rintro k ⟨⟩, ?_⟩⟩
    · rintro _ ⟨⟩
      rw [same]
      exact (w.disk (lockPath q)).numbered _ entry
    · rintro _ ⟨⟩ e there
      rw [same, entry] at there
      cases there
      rfl
  · have lockAt : s.lockAt = none := by
      rw [h.lockAt, Spot.named, entry]
      rfl
    have next : s.callNext i ⟨m, .entered⟩ =
        some ({ s with lockAt := some s.files, files := s.files + 1 }.setStage i ⟨m, .entered⟩
          (.opened s.files)) := by
      simp only [Binding.Path.callNext, lockAt]
    have new : Function.update fl (w.disk (lockPath q)).made s.files
        (w.disk (lockPath q)).made = s.files := Function.update_self _ _ _
    rw [opened]
    refine ⟨_, .called, _, Function.update fl (w.disk (lockPath q)).made s.files, fs,
      exec_step (allowed_call ha (by simp)) (call_taken ha next) [],
      h.restage (x := .entered) (y := .opened (w.disk (lockPath q)).made) ha ?_
        (by rw [made]; exact h.lock.make .file)
        (by rw [elsewhere]; exact h.socket.mono (Nat.le_succ _))
        (by rw [made]; exact congrArg some new.symm) (by rw [elsewhere]; exact h.pathAt)
        (fun _ inside => update_below inside) (fun _ _ => rfl) (by rw [rename, new]; rfl)
        (.opened _) ⟨?_, by rintro k ⟨⟩, by rintro k ⟨⟩, ?_⟩⟩
    · refine ⟨by rw [made]; exact Nat.le_succ _, Nat.le_of_eq (by rw [elsewhere]),
        fun _ _ _ held => ?_, ?_⟩
      · rw [made]
        exact held
      · intro _ e there
        rw [made] at there
        cases there
        rfl
    · rintro _ ⟨⟩
      rw [made]
      exact Nat.lt_succ_self _
    · rintro _ ⟨⟩ e there
      rw [made] at there
      cases there
      rfl

omit [DecidableEq D] in
/-- A lock that the disk grants is free to the machine. -/
theorem Tracks.unheld (h : Tracks q fl fs w s) {n : Nat} (inside : n < (w.disk (lockPath q)).made)
    (free : (w.disk (lockPath q)).isFree n = true) : s.isHeld (fl n) = false := by
  rw [Binding.Path.isHeld, List.any_eq_false]
  intro a there held
  obtain ⟨j, hj⟩ := List.getElem?_of_mem there
  obtain ⟨ph, hph⟩ := Option.ne_none_iff_exists'.mp (h.present a there)
  obtain ⟨k, x, hk, point, fits⟩ := h.stands a.pid ph hph
  obtain rfl : j = k := h.pids j k a _ hj hk rfl
  have stage : a.stage = rename fl fs x :=
    congrArg Binding.Attempt.stage (Option.some.inj (hj.symm.trans hk))
  simp only [stage, rename_holds, decide_eq_true_eq, Option.map_eq_some_iff] at held
  obtain ⟨n', held', same⟩ := held
  have inside' := fits.lock n' (lockOf_of_holds held')
  obtain rfl := h.lock.apart n' n inside' inside same
  have taken := List.all_eq_true.mp free _ (fits.holds n' held')
  simp at taken

omit [DecidableEq D] in
theorem Tracks.lockAt_of_entry (h : Tracks q fl fs w s) {n : Nat}
    (there : (w.disk (lockPath q)).entry.map Entry.number = some n) : s.lockAt = some (fl n) := by
  obtain ⟨e, entry, rfl⟩ := Option.map_eq_some_iff.mp there
  rw [h.lockAt, Spot.named, entry]
  rfl

omit [DecidableEq D] in
theorem At.unlinking {n k : Nat} (point : At q ph (.unlinking n k)) : ph.isDropping = true := by
  cases point with
  | clear n x hs | addressed n x _ hs | unbound n x hs => rcases hs with hs | hs <;> cases hs
  | leaving n e x hs => cases hs
  | unlinked n k | closing n k x hs => rfl

omit [DecidableEq D] in
/-- Who is between the two unlinks of its drop still has its lock. -/
theorem Tracks.none_unlinking (h : Tracks q fl fs w s)
    (nobody : ∀ y ∈ (w.disk (lockPath q)).locked, w.isDropping y.2 = false) :
    ∀ a ∈ s.attempts, a.stage.isUnlinking = false := by
  intro a there
  obtain ⟨j, hj⟩ := List.getElem?_of_mem there
  obtain ⟨ph, hph⟩ := Option.ne_none_iff_exists'.mp (h.present a there)
  obtain ⟨k, x, hk, point, fits⟩ := h.stands a.pid ph hph
  obtain rfl : j = k := h.pids j k a _ hj hk rfl
  have stage : a.stage = rename fl fs x :=
    congrArg Binding.Attempt.stage (Option.some.inj (hj.symm.trans hk))
  rw [stage]
  cases x with
  | unlinking n k =>
    have making := nobody _ (fits.holds n rfl)
    rw [World.isDropping, hph, Option.any_some, point.unlinking] at making
    cases making
  | _ => rfl

theorem opened_matched {n : Nat} (h : Tracks q fl fs w s)
    (ha : s.attempts[i]? = some ⟨m, .opened (fl n)⟩) (fits : Fits q w.disk m (.opened n))
    (ok : Bool)
    (inOrder : named = true → (serve ⟨q, m⟩ ok (.tryLock ⟨lockPath q, n⟩) w.disk).1 = true →
      (w.disk (lockPath q)).entry.map Entry.number = some n ∧
        ∀ y ∈ (w.disk (lockPath q)).locked, w.isDropping y.2 = false)
    (yes : (serve ⟨q, m⟩ ok (.tryLock ⟨lockPath q, n⟩) w.disk).1 = true →
      ph = settled (newLocked q (some ⟨lockPath q, n⟩)))
    (no : (serve ⟨q, m⟩ ok (.tryLock ⟨lockPath q, n⟩) w.disk).1 = false →
      ph = .making (.ask (.closeFile ⟨lockPath q, n⟩) fun _ => newLocked q none)) :
    Followed dropping named q i m w s (serve ⟨q, m⟩ ok (.tryLock ⟨lockPath q, n⟩) w.disk).2 ph := by
  have elsewhere : (serve ⟨q, m⟩ ok (.tryLock ⟨lockPath q, n⟩) w.disk).2 q = w.disk q :=
    serve_elsewhere ⟨q, m⟩ ok w.disk (lockPath_ne q).symm
  rcases tryLock_cases ⟨q, m⟩ ok ⟨lockPath q, n⟩ w.disk with
    ⟨refused, same⟩ | ⟨granted, free, locked⟩
  · rw [no refused]
    have quiet : Quiet q m w.disk (serve ⟨q, m⟩ ok (.tryLock ⟨lockPath q, n⟩) w.disk).2 :=
      quiet_lock rfl (by rw [same]) (by rw [same]) fun _ _ _ held => by rwa [same]
    exact ⟨_, .gaveUp, h.givesUp (x := .opened n) ha quiet (.refused n)⟩
  · have next : s.callNext i ⟨m, .opened (fl n)⟩ =
        some (s.setStage i ⟨m, .opened (fl n)⟩ (.locked (fl n))) := by
      simp only [Binding.Path.callNext, h.unheld (fits.lock n rfl) free, Bool.false_eq_true,
        if_false]
    have named_lock : named = true → Binding.OnNamedLock s (.call i) := by
      intro kept
      obtain ⟨there, nobody⟩ := inOrder kept granted
      simpa [Binding.OnNamedLock, Binding.onNamedLock, ha, h.lockAt_of_entry there] using
        Or.inr (h.none_unlinking nobody)
    rw [yes granted]
    refine ⟨_, .called, _, fl, fs, exec_step ⟨Or.inr rfl, named_lock⟩ (call_taken ha next) [],
      h.restage (x := .opened n) (y := .locked n) ha ?_ (by rw [locked]; exact h.lock.congr rfl)
        (by rw [elsewhere]; exact h.socket) (by rw [locked]; exact h.lockAt)
        (by rw [elsewhere]; exact h.pathAt) (fun _ _ => rfl) (fun _ _ => rfl) rfl (.locked n) ?_⟩
    · refine ⟨Nat.le_of_eq (by rw [locked]), Nat.le_of_eq (by rw [elsewhere]),
        fun _ _ _ held => ?_, fun plain e there => ?_⟩
      · rw [locked]
        exact List.mem_cons_of_mem _ held
      · rw [locked] at there
        exact plain e there
    · refine ⟨?_, by rintro k ⟨⟩, ?_, ?_⟩
      · rintro _ ⟨⟩
        rw [locked]
        exact fits.lock n rfl
      · rintro _ ⟨⟩
        rw [locked]
        exact List.mem_cons_self
      · rintro _ ⟨⟩ e there
        rw [locked] at there
        exact fits.plain n rfl e there

/-- If the path was not cleared, the machine has not cleared it either. -/
theorem locked_matched {n : Nat} (h : Tracks q fl fs w s)
    (ha : s.attempts[i]? = some ⟨m, .locked (fl n)⟩) (fits : Fits q w.disk m (.locked n))
    (ok : Bool) (point : ∀ x, x = .locked n ∨ x = .cleared n → At q ph x) :
    Followed dropping named q i m w s (serve ⟨q, m⟩ ok (.removeFile q) w.disk).2 ph := by
  have elsewhere : (serve ⟨q, m⟩ ok (.removeFile q) w.disk).2 (lockPath q) =
      w.disk (lockPath q) := serve_elsewhere ⟨q, m⟩ ok w.disk (lockPath_ne q)
  rcases removeFile_cases ⟨q, m⟩ ok q w.disk with ⟨same, _⟩ | removed
  · refine ⟨_, .untold, h.stays (x := .locked n) ha fits ?_ ?_ (point _ (Or.inl rfl))⟩
    · exact quiet_path rfl (by rw [same]) (by rw [same])
    · rw [elsewhere]
      exact fits.holds
  · exact ⟨_, .called, _, fl, fs, exec_step (allowed_call ha (by simp)) (call_taken ha rfl) [],
      h.restage (x := .locked n) (y := .cleared n) ha
        (spares_path elsewhere (Nat.le_of_eq (congrArg Spot.made removed).symm))
        (by rw [elsewhere]; exact h.lock) (by rw [removed]; exact h.socket.congr rfl)
        (by rw [elsewhere]; exact h.lockAt) (by rw [removed]; rfl) (fun _ _ => rfl)
        (fun _ _ => rfl) rfl (point _ (Or.inr rfl))
        (fits.path elsewhere rfl rfl (by rintro k ⟨⟩))⟩

/-- The machine catches up with clearing the path, if need be. -/
theorem clears {n : Nat} (hs : x = .locked n ∨ x = .cleared n)
    (ha : s.attempts[i]? = some ⟨m, rename fl fs x⟩) (free : s.pathAt = none) :
    ∃ acts, Follows i m (acts ++ [.call i]) ∧
      exec Binding.machine (allowed dropping named) s acts =
        some { s with attempts := s.attempts.set i ⟨m, .cleared (fl n)⟩ } := by
  rcases hs with rfl | rfl
  · have next : s.callNext i ⟨m, .locked (fl n)⟩ =
        some { s with attempts := s.attempts.set i ⟨m, .cleared (fl n)⟩ } := by
      simp only [Binding.Path.callNext, Binding.Path.setStage, ← free]
    exact ⟨[.call i], .caughtUp,
      exec_step (allowed_call ha (by simp [rename])) (call_taken ha next) []⟩
  · obtain ⟨inside, same⟩ := List.getElem?_eq_some_iff.mp ha
    have rest : s.attempts.set i ⟨m, .cleared (fl n)⟩ = s.attempts := by
      rw [show (⟨m, .cleared (fl n)⟩ : Binding.Attempt) = s.attempts[i] from same.symm,
        List.set_getElem_self]
    rw [rest]
    exact ⟨[], .called, rfl⟩

theorem unbound_matched {n : Nat} (h : Tracks q fl fs w s)
    (hs : x = .locked n ∨ x = .cleared n)
    (ha : s.attempts[i]? = some ⟨m, rename fl fs x⟩) (fits : Fits q w.disk m x)
    (ok : Bool) : Followed dropping named q i m w s (serve ⟨q, m⟩ ok (.bind q) w.disk).2
      (settled ((listenOn (serve ⟨q, m⟩ ok (.bind q) w.disk).1).bind
        (acceptOn q ⟨lockPath q, n⟩))) := by
  have elsewhere : (serve ⟨q, m⟩ ok (.bind q) w.disk).2 (lockPath q) = w.disk (lockPath q) :=
    serve_elsewhere ⟨q, m⟩ ok w.disk (lockPath_ne q)
  have guards : x.guards = some n := by
    rcases hs with rfl | rfl <;> rfl
  have holds := Binding.holds_of_guards guards
  rcases bind_cases ⟨q, m⟩ ok q w.disk with ⟨refused, same⟩ | ⟨entry, bound, made⟩
  · rw [refused]
    refine ⟨_, .untold, h.stays ha fits (quiet_path rfl (by rw [same]) (by rw [same])) ?_
      (.leaving n _ x guards)⟩
    rw [elsewhere]
    exact fits.holds
  · have free : s.pathAt = none := by
      rw [h.pathAt, Spot.named, entry]
      rfl
    have new : Function.update fs (w.disk q).made s.files (w.disk q).made = s.files :=
      Function.update_self _ _ _
    have here := (List.getElem?_eq_some_iff.mp ha).1
    have cleared : ({ s with attempts := s.attempts.set i ⟨m, .cleared (fl n)⟩ } :
        Binding.Path).attempts[i]? = some ⟨m, .cleared (fl n)⟩ := List.getElem?_set_self here
    have next : ({ s with attempts := s.attempts.set i ⟨m, .cleared (fl n)⟩ } :
        Binding.Path).callNext i ⟨m, .cleared (fl n)⟩ =
          some { s with
            pathAt := some s.files
            files := s.files + 1
            attempts := s.attempts.set i ⟨m, .bound (fl n) s.files⟩ } := by
      simp only [Binding.Path.callNext, free, Binding.Path.setStage, List.set_set]
    have clearing : ∃ acts, Follows i m (acts ++ [.call i]) ∧
        exec Binding.machine (allowed dropping named) s acts =
          some { s with attempts := s.attempts.set i ⟨m, .cleared (fl n)⟩ } := clears hs ha free
    obtain ⟨acts, follows, clearing⟩ := clearing
    rw [bound]
    refine ⟨_, follows, _, fl, Function.update fs (w.disk q).made s.files,
      (exec_append clearing _).trans
        (exec_step (allowed_call cleared (by simp)) (call_taken cleared next) []),
      h.restage (y := .bound n (w.disk q).made) ha
        (spares_path elsewhere (by rw [made]; exact Nat.le_succ _))
        (by rw [elsewhere]; exact h.lock.mono (Nat.le_succ _))
        (by rw [made]; exact h.socket.make .socket) (by rw [elsewhere]; exact h.lockAt)
        (by rw [made]; exact congrArg some new.symm) (fun _ _ => rfl)
        (fun _ inside => update_below inside) (by rw [rename, new]) (.bound n _)
        (fits.path elsewhere ?_ (by rw [holds]; rfl) ?_)⟩
    · exact (lockOf_of_holds holds).symm
    · rintro _ ⟨⟩
      rw [made]
      exact Nat.lt_succ_self _

theorem listening_matched {n k : Nat} (h : Tracks q fl fs w s)
    (ha : s.attempts[i]? = some ⟨m, .bound (fl n) (fs k)⟩) (fits : Fits q w.disk m (.bound n k))
    (ok : Bool) (yes : ok = true → ph = .live ⟨⟨lockPath q, n⟩, q, ⟨q, k⟩⟩)
    (no : ok = false → ph = .making (.ask (.closeSocket ⟨q, k⟩) fun _ =>
      .ask (.closeFile ⟨lockPath q, n⟩) fun _ => .ret (.error .register))) :
    Followed dropping named q i m w s (serve ⟨q, m⟩ ok (.register ⟨q, k⟩) w.disk).2 ph := by
  have idle : (Call.register ⟨q, k⟩).Idles q := rfl
  cases ok with
  | false =>
    rw [no rfl]
    exact ⟨_, .untold, h.idles (x := .bound n k) ha fits idle false (.unheard n k _ _ rfl)⟩
  | true =>
    have quiet := (idle.quiet (m := m) (d := w.disk) true).2
    have elsewhere : (serve ⟨q, m⟩ true (.register ⟨q, k⟩) w.disk).2 (lockPath q) =
        w.disk (lockPath q) := serve_elsewhere ⟨q, m⟩ true w.disk (lockPath_ne q)
    rw [yes rfl]
    exact ⟨_, .called, _, fl, fs, exec_step (allowed_call ha (by simp)) (call_taken ha rfl) [],
      h.restage (x := .bound n k) (y := .live n k) ha quiet.spares
        (h.lock.congr quiet.lockMade) (h.socket.congr quiet.made)
        (h.lockAt.trans (named_congr fl quiet.lockEntry).symm)
        (h.pathAt.trans (named_congr fs quiet.entry).symm) (fun _ _ => rfl) (fun _ _ => rfl) rfl
        (.live n k) (fits.path elsewhere rfl rfl fun k' own => quiet.made ▸ fits.socket k' own)⟩

/-! ## The points of the drop -/

theorem dropping_matched {n k : Nat} (h : Tracks q fl fs w s)
    (ha : s.attempts[i]? = some ⟨m, .live (fl n) (fs k)⟩) (fits : Fits q w.disk m (.live n k))
    (point : At q ph (.unlinking n k)) :
    Followed true named q i m w s (serve ⟨q, m⟩ true (.removeFile (lockPath q)) w.disk).2 ph := by
  have elsewhere : (serve ⟨q, m⟩ true (.removeFile (lockPath q)) w.disk).2 q = w.disk q :=
    serve_elsewhere ⟨q, m⟩ true w.disk (lockPath_ne q).symm
  -- nothing but a lock file can be at the lock path, and it is not refused
  have removed : (serve ⟨q, m⟩ true (.removeFile (lockPath q)) w.disk).2 (lockPath q) =
      (w.disk (lockPath q)).remove ∨
      ((serve ⟨q, m⟩ true (.removeFile (lockPath q)) w.disk).2 (lockPath q) =
        w.disk (lockPath q) ∧ (w.disk (lockPath q)).entry = none) := by
    rcases removeFile_cases ⟨q, m⟩ true (lockPath q) w.disk with ⟨same, stuck⟩ | removed
    · refine Or.inr ⟨same, ?_⟩
      cases entry : (w.disk (lockPath q)).entry with
      | none => rfl
      | some e =>
        have plain := fits.plain n rfl e entry
        simp [Spot.isRemovable, entry, plain] at stuck
    · exact Or.inl removed
  have spot : ((serve ⟨q, m⟩ true (.removeFile (lockPath q)) w.disk).2 (lockPath q)).entry = none ∧
      ((serve ⟨q, m⟩ true (.removeFile (lockPath q)) w.disk).2 (lockPath q)).made =
        (w.disk (lockPath q)).made ∧
      ((serve ⟨q, m⟩ true (.removeFile (lockPath q)) w.disk).2 (lockPath q)).locked =
        (w.disk (lockPath q)).locked := by
    rcases removed with removed | ⟨same, nothing⟩
    · rw [removed]
      exact ⟨rfl, rfl, rfl⟩
    · rw [same]
      exact ⟨nothing, rfl, rfl⟩
  obtain ⟨nothing, made, locked⟩ := spot
  refine ⟨_, .dropped, _, fl, fs, exec_step ⟨Or.inl rfl, fun _ => rfl⟩ (drop_taken ha rfl) [],
    h.restage (x := .live n k) (y := .unlinking n k) ha ?_ (h.lock.congr made)
      (by rw [elsewhere]; exact h.socket) (by rw [Spot.named, nothing]; rfl)
      (by rw [elsewhere]; exact h.pathAt) (fun _ _ => rfl) (fun _ _ => rfl) rfl point ?_⟩
  · refine ⟨Nat.le_of_eq made.symm, Nat.le_of_eq (by rw [elsewhere]),
      fun _ _ _ held => by rwa [locked], fun _ e there => ?_⟩
    rw [nothing] at there
    cases there
  · refine ⟨fun n' own => made ▸ fits.lock n' own, fun k' own => ?_,
      fun n' own => locked ▸ fits.holds n' own, fun _ _ e there => ?_⟩
    · rw [elsewhere]
      exact fits.socket k' own
    · rw [nothing] at there
      cases there

theorem unlinked_matched {n k : Nat} (h : Tracks q fl fs w s)
    (ha : s.attempts[i]? = some ⟨m, .unlinking (fl n) (fs k)⟩)
    (fits : Fits q w.disk m (.unlinking n k)) (ok : Bool)
    (point : ∀ x : Stage, x.holds = some n → At q ph x) :
    Followed true named q i m w s (serve ⟨q, m⟩ ok (.removeFile q) w.disk).2 ph := by
  have elsewhere : (serve ⟨q, m⟩ ok (.removeFile q) w.disk).2 (lockPath q) =
      w.disk (lockPath q) := serve_elsewhere ⟨q, m⟩ ok w.disk (lockPath_ne q)
  rcases removeFile_cases ⟨q, m⟩ ok q w.disk with ⟨same, _⟩ | removed
  · refine ⟨_, .untold, h.stays (x := .unlinking n k) ha fits ?_ ?_ (point _ rfl)⟩
    · exact quiet_path rfl (by rw [same]) (by rw [same])
    · rw [elsewhere]
      exact fits.holds
  · exact ⟨_, .dropped, _, fl, fs, exec_step ⟨Or.inl rfl, fun _ => rfl⟩ (drop_taken ha rfl) [],
      h.restage (x := .unlinking n k) (y := .closing n k) ha
        (spares_path elsewhere (Nat.le_of_eq (congrArg Spot.made removed).symm))
        (by rw [elsewhere]; exact h.lock) (by rw [removed]; exact h.socket.congr rfl)
        (by rw [elsewhere]; exact h.lockAt) (by rw [removed]; rfl) (fun _ _ => rfl)
        (fun _ _ => rfl) rfl (point _ rfl)
        (fits.path elsewhere rfl rfl fun k' own => by rw [removed]; exact fits.socket k' own)⟩

/-! ## Every step -/

theorem call_matched (h : Tracks q fl fs w s) (ha : s.attempts[i]? = some ⟨m, rename fl fs x⟩)
    (point : At q ph x) (fits : Fits q w.disk m x) {c : Call D} {next : c.Answer → Phase D}
    (asks : ph.asks = some ⟨c, next⟩) (ok : Bool)
    (unlinks : c = .removeFile (lockPath q) → ok = true)
    (inOrder : named = true → ∀ n, c = .tryLock ⟨lockPath q, n⟩ →
      (serve ⟨q, m⟩ ok (.tryLock ⟨lockPath q, n⟩) w.disk).1 = true →
        (w.disk (lockPath q)).entry.map Entry.number = some n ∧
          ∀ y ∈ (w.disk (lockPath q)).locked, w.isDropping y.2 = false) :
    Followed ph.isDropping named q i m w s (serve ⟨q, m⟩ ok c w.disk).2
      (next (serve ⟨q, m⟩ ok c w.disk).1) := by
  cases point with
  | entered =>
    cases asks
    exact entered_matched h ha ok
  | opened n =>
    cases asks
    refine opened_matched h ha fits ok (fun kept => inOrder kept n rfl) (fun granted => ?_)
      fun refused => ?_
    · rw [granted]
      rfl
    · rw [refused]
      rfl
  | refused n =>
    cases asks
    exact ⟨_, .untold, h.stays ha fits (closeFile_quiet n ok) (by rintro n ⟨⟩) (.failed _)⟩
  | locked n =>
    cases asks
    exact locked_matched h ha fits ok fun x hs => .clear n x hs
  | clear n x hs =>
    have guards : x.guards = some n := by
      rcases hs with rfl | rfl <;> rfl
    cases asks
    cases ok with
    | true =>
      exact ⟨_, .untold, h.idles (c := .address q) ha fits rfl true (.addressed n x _ hs rfl rfl)⟩
    | false =>
      exact ⟨_, .untold, h.idles (c := .address q) ha fits rfl false (.leaving n _ x guards)⟩
  | addressed n x k hs opens fails =>
    have guards : x.guards = some n := by
      rcases hs with rfl | rfl <;> rfl
    cases asks
    cases ok with
    | true =>
      show Followed _ named q _ m w s _ (settled (k true))
      rw [opens]
      exact ⟨_, .untold, h.idles (c := .socket q) ha fits rfl true (.unbound n x hs)⟩
    | false =>
      show Followed _ named q _ m w s _ (settled (k false))
      rw [fails]
      exact ⟨_, .untold, h.idles (c := .socket q) ha fits rfl false (.leaving n _ x guards)⟩
  | unbound n x hs =>
    cases asks
    exact unbound_matched h hs ha fits ok
  | bound n k =>
    cases asks
    cases ok with
    | true =>
      exact ⟨_, .untold, h.idles (c := .listen ⟨q, k⟩) ha fits rfl true (.listening n k)⟩
    | false =>
      exact ⟨_, .untold, h.idles (c := .listen ⟨q, k⟩) ha fits rfl false (.unheard n k _ _ rfl)⟩
  | listening n k =>
    cases asks
    refine listening_matched h ha fits ok ?_ ?_
    · rintro rfl
      rfl
    · rintro rfl
      rfl
  | unheard n k rest e left =>
    cases asks
    subst left
    exact ⟨_, .untold, h.idles (c := .closeSocket ⟨q, k⟩) ha fits rfl ok (.leaving n e _ rfl)⟩
  | leaving n e x hs =>
    cases asks
    exact ⟨_, .gaveUp, h.givesUp ha (closeFile_quiet n ok) (.failed e)⟩
  | dropping n k =>
    cases asks
    obtain rfl := unlinks rfl
    exact dropping_matched h ha fits (.unlinked n k)
  | unlinked n k =>
    cases asks
    exact unlinked_matched h ha fits ok fun x hs => .closing n k x hs
  | closing n k x hs =>
    cases asks
    exact ⟨_, .gaveUp, h.givesUp ha (closeFile_quiet n ok) (.closed k)⟩
  | closed k =>
    cases asks
    exact ⟨_, .untold, h.idles (c := .closeSocket ⟨q, k⟩) ha fits rfl ok .gone⟩
  | failed e => cases asks
  | live n k => cases asks
  | gone => cases asks

omit [DecidableEq D] in
/-- Only the drop unlinks a lock file. -/
theorem At.asks (point : At q ph x) (making : ph.isDropping = false) {c : Call D}
    {next : c.Answer → Phase D} (asks : ph.asks = some ⟨c, next⟩) :
    c ≠ .removeFile (lockPath q) := by
  cases point with
  | locked n =>
    cases asks
    exact fun same => lockPath_ne q (Call.removeFile.inj same).symm
  | dropping n k => cases making
  | unlinked n k => cases making
  | closing n k x hs => cases making
  | closed k => cases making
  | failed e => cases asks
  | live n k => cases asks
  | gone => cases asks
  | _ =>
    cases asks
    intro same
    cases same

theorem enter_matched (h : Tracks q fl fs w s) (absent : w.phases ⟨q, m⟩ = none) :
    Matched dropping named q m w s [.enter m] w.disk (settled (new q)) := by
  have fresh : ∀ a ∈ s.attempts, a.pid ≠ m := by
    rintro a there rfl
    exact h.present a there absent
  have entered : Binding.machine.step s (.enter m) =
      some { s with attempts := s.attempts ++ [⟨m, .entered⟩] } := rfl
  refine ⟨_, fl, fs, exec_step ⟨Or.inr rfl, fun _ => rfl⟩ entered [], h.lock, h.socket,
    h.lockAt, h.pathAt, fun j k a b hj hk pid => ?_, fun a there => ?_, fun m' ph' hph => ?_⟩
  · rcases getElem?_push_cases hj with ⟨rfl, rfl⟩ | old
    · rcases getElem?_push_cases hk with ⟨rfl, _⟩ | old'
      · rfl
      · exact absurd pid.symm (fresh b (List.mem_of_getElem? old'))
    · rcases getElem?_push_cases hk with ⟨rfl, rfl⟩ | old'
      · exact absurd pid (fresh a (List.mem_of_getElem? old))
      · exact h.pids j k a b old old' pid
  · simp only [World.moved, Function.update_apply]
    split
    · exact Option.some_ne_none _
    · rename_i other
      rcases List.mem_append.mp there with old | new
      · exact h.present a old
      · rw [List.mem_singleton.mp new] at other
        exact absurd rfl other
  · simp only [World.moved, Function.update_apply] at hph
    split at hph
    · rename_i mine
      obtain rfl : m' = m := by simpa using mine
      obtain rfl := Option.some.inj hph
      refine ⟨s.attempts.length, .entered, by simp [rename], .entered, ?_⟩
      constructor
      · rintro n ⟨⟩
      · rintro k ⟨⟩
      · rintro n ⟨⟩
      · rintro n ⟨⟩
    · obtain ⟨j, z, hj, point, fits⟩ := h.stands m' ph' hph
      refine ⟨j, z, ?_, point, fits⟩
      exact (List.getElem?_append_left (List.getElem?_eq_some_iff.mp hj).1).trans hj

theorem release_quiet : Quiet q m d (release ⟨q, m⟩ d) := by
  have socket : release ⟨q, m⟩ d q = (d q).release ⟨q, m⟩ := if_pos (Or.inl rfl)
  have lock : release ⟨q, m⟩ d (lockPath q) = (d (lockPath q)).release ⟨q, m⟩ :=
    if_pos (Or.inr rfl)
  refine ⟨by rw [lock]; rfl, by rw [lock]; rfl, by rw [socket]; rfl, by rw [socket]; rfl, ?_⟩
  intro n who other held
  rw [lock]
  exact List.mem_filter.mpr ⟨held, by simpa using other⟩

end Match

/-! ## Runs -/

/-- A drop is not refused to unlink its lock file. -/
def unlinks (w : World D) (l : Label D) : Bool :=
  match l.act, (w.phases l.who).bind Phase.asks with
  | .call ok, some ⟨.removeFile p, _⟩ => ok || p != lockPath l.who.path
  | _, _ => true

/-- The guard of runs on one path in which no drop is refused to unlink its lock file. -/
def Unlinks (q : Path D) (w : World D) (l : Label D) : Prop :=
  l.who.path = q ∧ unlinks w l = true

instance (q : Path D) (w : World D) (l : Label D) : Decidable (Unlinks q w l) :=
  inferInstanceAs (Decidable (_ ∧ _))

/-- A lock is granted on the lock file that is at its path, and not while one who is dropping
has a lock there. -/
def inOrder (w : World D) (l : Label D) : Bool :=
  match l.act, (w.phases l.who).bind Phase.asks with
  | .call ok, some ⟨.tryLock f, _⟩ =>
    !(serve l.who ok (.tryLock f) w.disk).1 ||
      ((w.disk f.path).entry.map Entry.number == some f.number &&
        (w.disk f.path).locked.all fun x => !w.isDropping x.2)
  | _, _ => true

/-- What a step of an attempt is in the machine: steps of the same attempt. -/
def Told (_ : World D) (l : Label D) (_ : World D) (s : Binding.Path)
    (acts : List Binding.Act) : Prop :=
  match l.act with
  | .enter => acts = [.enter l.who.number]
  | .call _ => ∃ (i : Nat) (a : Binding.Attempt), s.attempts[i]? = some a ∧
      a.pid = l.who.number ∧ Follows i l.who.number acts
  | .taskEnds => acts = []
  | .drop => acts = []
  | .die => acts = [.die l.who.number]

theorem Matched.told {dropping named : Bool} {q : Path D} {m : Nat} {w t : World D}
    {s : Binding.Path} {l : Label D} {acts : List Binding.Act} {d : Disk D} {ph : Phase D}
    (h : Matched dropping named q m w s acts d ph) (told : Told w l t s acts) :
    ∃ acts s' fl fs, Told w l t s acts ∧
      exec Binding.machine (allowed dropping named) s acts = some s' ∧
      Tracks q fl fs (w.moved q m d ph) s' := by
  obtain ⟨s', fl, fs, run, tracks⟩ := h
  exact ⟨acts, s', fl, fs, told, run, tracks⟩

theorem step_matched {q : Path D} {fl fs : Nat → Nat} {w t : World D} {s : Binding.Path}
    {l : Label D} (named : Bool) (h : Tracks q fl fs w s) (own : l.who.path = q)
    (ok : unlinks w l = true ∨ w.isDropping l.who = false)
    (kept : named = true → inOrder w l = true) (taken : step w l = some t) :
    ∃ acts s' fl fs, Told w l t s acts ∧
      exec Binding.machine (allowed (w.isDropping l.who) named) s acts = some s' ∧
      Tracks q fl fs t s' := by
  obtain ⟨⟨p, m⟩, act⟩ := l
  obtain rfl : p = q := own
  obtain ⟨after, advanced, phases⟩ := step_advance taken
  have moved : t = w.moved p m t.disk after := by
    cases t
    simp only at phases
    rw [phases]
    rfl
  rw [moved]
  generalize before : w.phases ⟨p, m⟩ = phase, disk : t.disk = d at advanced
  cases advanced with
  | enter => exact (enter_matched h before).told rfl
  | call answer ph c next asks =>
    obtain ⟨i, x, ha, point, fits⟩ := h.stands m ph before
    have dropping : w.isDropping ⟨p, m⟩ = ph.isDropping := by
      simp only [World.isDropping, before, Option.any_some]
    rw [dropping] at ok ⊢
    have followed : Followed ph.isDropping named p i m w s (serve ⟨p, m⟩ answer c w.disk).2
        (next (serve ⟨p, m⟩ answer c w.disk).1) := by
      refine call_matched h ha point fits asks answer (fun same => ?_) fun promised n same => ?_
      · rcases ok with unlinked | making
        · subst same
          simpa [unlinks, before, asks] using unlinked
        · exact absurd same (point.asks making asks)
      · intro granted
        subst same
        have grant := kept promised
        simp only [inOrder, before, Option.bind_some, asks, granted, Bool.not_true, Bool.false_or,
          Bool.and_eq_true, beq_iff_eq, List.all_eq_true] at grant
        exact ⟨grant.1, fun y there => by simpa using grant.2 y there⟩
    obtain ⟨acts, follows, matched⟩ := followed
    exact matched.told ⟨i, _, ha, rfl, follows⟩
  | taskEnds b hears =>
    obtain ⟨i, x, ha, point, fits⟩ := h.stands m _ before
    cases point with
    | live n k =>
      exact (h.idles (x := .live n k) (c := .closeSocket ⟨p, k⟩) ha fits rfl true
        (.live n k)).told rfl
  | drop b =>
    obtain ⟨i, x, ha, point, fits⟩ := h.stands m _ before
    cases point with
    | live n k =>
      have quiet : Quiet p m w.disk w.disk := ⟨rfl, rfl, rfl, rfl, fun _ _ _ held => held⟩
      exact (h.stays (x := .live n k) ha fits quiet fits.holds (.dropping n k)).told rfl
  | die ph =>
    obtain ⟨i, x, ha, point, fits⟩ := h.stands m ph before
    exact (h.givesUp ha release_quiet .gone).told rfl

omit [DecidableEq D] in
/-- To begin with a file is named by its number. -/
theorem start_tracks {q : Path D} {w : World D} (start : ∀ who, w.phases who = none) :
    ∃ s, Binding.machine.init s ∧ Tracks q id id w s := by
  have lockMade := Nat.le_max_left (w.disk (lockPath q)).made (w.disk q).made
  have made := Nat.le_max_right (w.disk (lockPath q)).made (w.disk q).made
  have named : ∀ {spot : Spot D} {n : Nat}, spot.named id = some n → n < spot.made := by
    intro spot n there
    obtain ⟨e, entry, rfl⟩ := Option.map_eq_some_iff.mp there
    exact spot.numbered e entry
  refine ⟨⟨(w.disk (lockPath q)).named id, (w.disk q).named id,
    max (w.disk (lockPath q)).made (w.disk q).made, []⟩, ⟨rfl, ?_, ?_⟩, ?_⟩
  · exact fun n there => Nat.lt_of_lt_of_le (named there) lockMade
  · exact fun n there => Nat.lt_of_lt_of_le (named there) made
  · refine ⟨⟨fun n inside => Nat.lt_of_lt_of_le inside lockMade, fun _ _ _ _ same => same⟩,
      ⟨fun n inside => Nat.lt_of_lt_of_le inside made, fun _ _ _ _ same => same⟩, rfl, rfl,
      ?_, ?_, ?_⟩
    · rintro j k a b hj
      simp at hj
    · rintro a there
      simp at there
    · intro m ph there
      rw [start] at there
      cases there

def Tracked (q : Path D) (w : World D) (s : Binding.Path) : Prop := ∃ fl fs, Tracks q fl fs w s

/-- Every run of the programs on one path is a run of its machine, attempt by attempt and step
by step, if no drop is refused to unlink its lock file. -/
theorem refines_path {q : Path D} {labels : List (Label D)} {w t : World D}
    (start : machine.init w) (run : exec machine (Unlinks q) w labels = some t) :
    ∃ s₀ s, Binding.machine.init s₀ ∧ Tracks q id id w s₀ ∧
      Alongside machine Binding.machine anyStep (Tracked q) Told w s₀ labels t s := by
  obtain ⟨s₀, init, h₀⟩ := start_tracks (q := q) start
  have step : ∀ (h : List (Label D)) (u : World D) (l : Label D) (v : World D) (s : Binding.Path),
      Tracked q u s → Unlinks q u l → machine.step u l = some v →
      ∃ acts s', Told u l v s acts ∧ exec Binding.machine anyStep s acts = some s' ∧
        Tracked q v s' := by
    rintro h u l v s ⟨fl, fs, tracks⟩ ⟨own, ok⟩ taken
    obtain ⟨acts, s', fl', fs', told, acted, tracks'⟩ :=
      step_matched false tracks own (Or.inl ok) (fun no => by cases no) taken
    exact ⟨acts, s', told, exec_mono (fun _ _ _ => trivial) acted, fl', fs', tracks'⟩
  obtain ⟨s, along, _⟩ := exec_alongside (K := fun _ => Tracked q) (fun _ _ _ known => known) step
    ⟨id, id, h₀⟩ run
  exact ⟨s₀, s, init, h₀, along⟩

def freshDisk : World Unit := ⟨fun _ => .unused, fun _ => none⟩

/-- `a` -/
def pathA : Path Unit := ⟨(), [97]⟩

/-- `new` with nothing refused. -/
def wholeNew (n : Nat) : List (Label Unit) :=
  ⟨⟨pathA, n⟩, .enter⟩ :: List.replicate 8 ⟨⟨pathA, n⟩, .call true⟩

/-- A second attempt opens the lock file in time to be granted it after the drop of the
first, whose accept loop had ended, and fails to bind. -/
def dropsOut : List (Label Unit) :=
  wholeNew 0 ++ [⟨⟨pathA, 1⟩, .enter⟩, ⟨⟨pathA, 1⟩, .call true⟩, ⟨⟨pathA, 0⟩, .taskEnds⟩,
    ⟨⟨pathA, 0⟩, .drop⟩] ++ List.replicate 4 ⟨⟨pathA, 0⟩, .call true⟩ ++
    List.replicate 4 ⟨⟨pathA, 1⟩, .call true⟩ ++ List.replicate 2 ⟨⟨pathA, 1⟩, .call false⟩

theorem refines_path_dropped :
    ∃ t, exec machine (Unlinks pathA) freshDisk dropsOut = some t ∧
      ∃ s₀ s, Binding.machine.init s₀ ∧ Tracks pathA id id freshDisk s₀ ∧
        Alongside machine Binding.machine anyStep (Tracked pathA) Told freshDisk s₀ dropsOut t
          s := by
  obtain ⟨t, run⟩ := Option.isSome_iff_exists.mp (show (exec machine (Unlinks pathA) freshDisk
    dropsOut).isSome = true by decide)
  exact ⟨t, run, refines_path (fun _ => rfl) run⟩

/-! ## Runs in which no two bindings come about -/

/-- The guard of runs on one path in which no drop begins. -/
def Contends (q : Path D) (_ : World D) (l : Label D) : Prop := l.who.path = q ∧ l.act ≠ .drop

instance (q : Path D) (w : World D) (l : Label D) : Decidable (Contends q w l) :=
  inferInstanceAs (Decidable (_ ∧ _))

omit [DecidableEq D] in
theorem settled_making (prog : Prog D (Except NewError (RefFsBinding D))) :
    (settled prog).isDropping = false := by
  cases prog with
  | ret r => cases r <;> rfl
  | ask c k => rfl

theorem making_step {w t : World D} {l : Label D} (h : ∀ who, w.isDropping who = false)
    (stays : l.act ≠ .drop) (taken : step w l = some t) (who : Attempt D) :
    t.isDropping who = false := by
  obtain ⟨after, advanced, phases⟩ := step_advance taken
  rw [World.isDropping, phases, Function.update_apply]
  split
  · rw [Option.any_some]
    generalize before : w.phases l.who = phase, act : l.act = x, disk : t.disk = d at advanced
    cases advanced with
    | enter => exact settled_making _
    | call ok ph c next asks =>
      have making := h l.who
      rw [World.isDropping, before] at making
      cases ph with
      | making rest =>
        cases rest with
        | ret r => cases asks
        | ask c' k =>
          cases asks
          exact settled_making _
      | dropping rest => cases making
      | _ => cases asks
    | taskEnds b hears => rfl
    | drop b => exact absurd act stays
    | die ph => rfl
  · exact h who

theorem contends_race {q : Path D} {w t : World D} (start : machine.init w)
    (run : Steps machine (Contends q) w t) : ∃ s fl fs, Binding.Race s ∧ Tracks q fl fs t s := by
  refine (steps_invariant (P := fun t => (∃ s fl fs, Binding.Race s ∧ Tracks q fl fs t s) ∧
    ∀ who, t.isDropping who = false) ?_ run ⟨?_, ?_⟩).1
  · rintro w l t ⟨⟨s, fl, fs, race, h⟩, making⟩ ⟨own, stays⟩ taken
    obtain ⟨acts, s', fl', fs', _, acted, h'⟩ := step_matched false h own
      (Or.inr (making l.who)) (fun no => by cases no) taken
    rw [making l.who] at acted
    refine ⟨⟨s', fl', fs', ?_, h'⟩, making_step making stays taken⟩
    refine steps_invariant (fun s x t race ok taken => ?_) (exec_steps acted) race
    exact Binding.race_step race (ok.1.resolve_left Bool.false_ne_true) taken
  · obtain ⟨s, ⟨nobody, _⟩, h⟩ := start_tracks (q := q) start
    refine ⟨s, id, id, Binding.race_start ?_, h⟩
    simp [nobody]
  · intro who
    rw [World.isDropping, start]
    rfl

/-- The guard of runs on one path in which no drop is refused to unlink its lock file, and
no lock is granted but on the lock file that is there, with no drop still to let go of its. -/
def Orderly (q : Path D) (w : World D) (l : Label D) : Prop :=
  Unlinks q w l ∧ inOrder w l = true

instance (q : Path D) (w : World D) (l : Label D) : Decidable (Orderly q w l) :=
  inferInstanceAs (Decidable (_ ∧ _))

theorem orderly_owned {q : Path D} {w t : World D} (start : machine.init w)
    (run : Steps machine (Orderly q) w t) : ∃ s fl fs, Binding.Owned s ∧ Tracks q fl fs t s := by
  refine steps_invariant (P := fun t => ∃ s fl fs, Binding.Owned s ∧ Tracks q fl fs t s) ?_ run ?_
  · rintro w l t ⟨s, fl, fs, owned, h⟩ ⟨⟨own, ok⟩, inOrder⟩ taken
    obtain ⟨acts, s', fl', fs', _, acted, h'⟩ := step_matched true h own (Or.inl ok)
      (fun _ => inOrder) taken
    refine ⟨s', fl', fs', steps_invariant (fun s x t owned ok taken => ?_) (exec_steps acted)
      owned, h'⟩
    exact Binding.owned_step owned (Binding.step_move taken) (ok.2 rfl)
  · obtain ⟨s, ⟨nobody, _⟩, h⟩ := start_tracks (q := q) start
    refine ⟨s, id, id, (Binding.race_start ?_).owned, h⟩
    simp [nobody]

theorem contends_owned {q : Path D} {w t : World D} (start : machine.init w)
    (run : Steps machine (Contends q) w t) :
    ∃ s fl fs, Binding.Owned s ∧ Tracks q fl fs t s := by
  obtain ⟨s, fl, fs, race, h⟩ := contends_race start run
  exact ⟨s, fl, fs, race.owned, h⟩

omit [DecidableEq D] in
/-- An attempt that is live in the program is live in the machine. -/
theorem Tracks.live {q : Path D} {fl fs : Nat → Nat} {w : World D} {s : Binding.Path} {m : Nat}
    {b : RefFsBinding D} (h : Tracks q fl fs w s) (hb : w.phases ⟨q, m⟩ = some (.live b)) :
    ∃ (i n k : Nat), s.attempts[i]? = some ⟨m, .live (fl n) (fs k)⟩ ∧
      b = ⟨⟨lockPath q, n⟩, q, ⟨q, k⟩⟩ ∧ n < (w.disk (lockPath q)).made ∧
        k < (w.disk q).made := by
  obtain ⟨i, x, hi, point, fits⟩ := h.stands m _ hb
  cases point with
  | live n k => exact ⟨i, n, k, hi, rfl, fits.lock n rfl, fits.socket k rfl⟩

omit [DecidableEq D] in
/-- What a name is of. -/
theorem Naming.entry {spot : Spot D} {files n : Nat} {f : Nat → Nat} (h : Naming spot files f)
    (inside : n < spot.made) (there : spot.named f = some (f n)) :
    spot.entry.map Entry.number = some n := by
  obtain ⟨e, entry, same⟩ := Option.map_eq_some_iff.mp there
  rw [entry, Option.map_some, h.apart e.number n (spot.numbered e entry) inside same]

/-- Whatever was at the two paths, whatever the kernel refuses and whoever dies: as long as no
drop begins, or at least every lock is granted in order, no two of the `new`s on a path have
returned a binding, unless the first of them was let go of or died, and the lock file and the
socket file of a binding are the ones at its two paths. -/
theorem one_binding {q : Path D} {w t : World D} (start : machine.init w)
    (run : Steps machine (Contends q) w t ∨ Steps machine (Orderly q) w t) :
    (∀ m m' b b', t.phases ⟨q, m⟩ = some (.live b) → t.phases ⟨q, m'⟩ = some (.live b') →
      m = m') ∧
    ∀ m b, t.phases ⟨q, m⟩ = some (.live b) →
      (t.disk (lockPath q)).entry.map Entry.number = some b.lockFile.number ∧
      (t.disk q).entry.map Entry.number = some b.task.number := by
  obtain ⟨s, fl, fs, owned, h⟩ := run.elim (contends_owned start) (orderly_owned start)
  constructor
  · intro m m' b b' hb hb'
    obtain ⟨i, n, k, hi, _⟩ := h.live hb
    obtain ⟨j, n', k', hj, _⟩ := h.live hb'
    obtain rfl := owned.unique (n := fl n) (m := fl n') hi hj rfl rfl
    exact congrArg Binding.Attempt.pid (Option.some.inj (hi.symm.trans hj))
  · intro m b hb
    obtain ⟨i, n, k, hi, rfl, opened, bound⟩ := h.live hb
    exact ⟨h.lock.entry opened (h.lockAt.symm.trans (owned.named i _ _ hi rfl)),
      h.socket.entry bound (h.pathAt.symm.trans (owned.kept i _ _ hi rfl))⟩

/-- What `new` returned. -/
def Phase.binding : Phase D → Option (RefFsBinding D)
  | .live b => some b
  | _ => none

def inherits : List (Label Unit) :=
  wholeNew 0 ++ [⟨⟨pathA, 0⟩, .die⟩] ++ wholeNew 1 ++
    ⟨⟨pathA, 2⟩, .enter⟩ :: List.replicate 3 ⟨⟨pathA, 2⟩, .call true⟩

theorem bound_of_exec {guard : World Unit → Label Unit → Prop} [∀ w l, Decidable (guard w l)]
    {labels : List (Label Unit)} {n : Nat}
    (live : ((exec machine guard freshDisk labels).bind fun t =>
      (t.phases ⟨pathA, n⟩).bind Phase.binding).isSome = true) :
    ∃ t b, exec machine guard freshDisk labels = some t ∧
      t.phases ⟨pathA, n⟩ = some (.live b) := by
  obtain ⟨b, there⟩ := Option.isSome_iff_exists.mp live
  obtain ⟨t, run, there⟩ := Option.bind_eq_some_iff.mp there
  obtain ⟨phase, phases, there⟩ := Option.bind_eq_some_iff.mp there
  cases phase with
  | live b' => exact ⟨t, b', run, phases⟩
  | _ => cases there

theorem inherits_run : ∃ t b, exec machine (Contends pathA) freshDisk inherits = some t ∧
    t.phases ⟨pathA, 1⟩ = some (.live b) :=
  bound_of_exec (by decide)

/-- One owner died, the next one has the path and a third was refused. -/
theorem one_binding_inherited :
    ∃ t b, exec machine (Contends pathA) freshDisk inherits = some t ∧
      t.phases ⟨pathA, 1⟩ = some (.live b) ∧
      (∀ m b', t.phases ⟨pathA, m⟩ = some (.live b') → m = 1) ∧
      (t.disk (lockPath pathA)).entry.map Entry.number = some b.lockFile.number ∧
      (t.disk pathA).entry.map Entry.number = some b.task.number := by
  obtain ⟨t, b, run, phases⟩ := inherits_run
  obtain ⟨alone, own⟩ := one_binding (fun _ => rfl) (Or.inl (exec_steps run))
  obtain ⟨lockFile, task⟩ := own 1 b phases
  exact ⟨t, b, run, phases, fun m c other => alone m 1 c b other phases, lockFile, task⟩

end FsBinding
