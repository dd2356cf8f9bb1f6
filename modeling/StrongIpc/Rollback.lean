import StrongIpc.BindingProgram

/-!
# A `RefFsBinding::new` that fails

`new` alone on any disk, with whatever the kernel refuses of its own. It unlinks the
path before it knows that it can bind, and nothing is undone on the way out of an
error: what was at the path is gone if it could be unlinked, and a socket file that
was bound stays without a listener.
-/

namespace FsBinding

open Interaction

/-- The calls of `new` that the kernel has nothing of its own against. -/
structure Granted where
  create : Bool
  tryLock : Bool
  removeFile : Bool
  address : Bool
  socket : Bool
  bind : Bool
  listen : Bool
  register : Bool
  deriving DecidableEq, Repr

/-- Nothing is refused. -/
def Granted.all : Granted := ⟨true, true, true, true, true, true, true, true⟩

variable {D : Type}

def Granted.allows (g : Granted) : Call D → Bool
  | .create _ => g.create
  | .tryLock _ => g.tryLock
  | .removeFile _ => g.removeFile
  | .address _ => g.address
  | .socket _ => g.socket
  | .bind _ => g.bind
  | .listen _ => g.listen
  | .register _ => g.register
  | .closeFile _ => true
  | .closeSocket _ => true

/-- `acquire_lock` succeeds. -/
def Granted.locks (g : Granted) (lock : Spot D) : Bool :=
  g.create && g.tryLock && lock.opens.any lock.isFree

/-- `remove_file` removes what is there. -/
def Granted.removes (g : Granted) (s : Spot D) : Bool :=
  g.removeFile && s.isRemovable

/-- The socket file is made. -/
def Granted.binds (g : Granted) (s : Spot D) : Bool :=
  g.address && g.socket && g.bind && (s.entry.isNone || g.removes s)

def Granted.completes (g : Granted) (s : Spot D) : Bool := g.binds s && g.listen && g.register

variable [DecidableEq D]

/-- A program that nobody else's calls come between. -/
def solo {R : Type} (who : Attempt D) (g : Granted) (prog : Prog D R) (d : Disk D) : R × Disk D :=
  prog.run (fun c => serve who (g.allows c) c) d

theorem solo_bind {R S : Type} (who : Attempt D) (g : Granted) (prog : Prog D R)
    (f : R → Prog D S) (d : Disk D) :
    solo who g (prog.bind f) d = solo who g (f (solo who g prog d).1) (solo who g prog d).2 :=
  Program.run_bind _ prog f d

@[simp] theorem solo_ask {R : Type} (who : Attempt D) (g : Granted) (c : Call D)
    (f : c.Answer → Prog D R) (d : Disk D) :
    solo who g (ask c >>= f) d =
      solo who g (f (serve who (g.allows c) c d).1) (serve who (g.allows c) c d).2 := rfl

@[simp] theorem solo_pure {R : Type} (who : Attempt D) (g : Granted) (r : R) (d : Disk D) :
    solo who g (pure r) d = (r, d) := rfl

theorem solo_returns {R : Type} {P : Call D → Prop} {post : R → Prop} {prog : Prog D R}
    (h : prog.Meets Call.Possible P post) (who : Attempt D) (g : Granted) (d : Disk D) :
    post (solo who g prog d).1 :=
  (Program.run_meets (I := fun _ => True) (fun c d' => serve_possible who (g.allows c) c d')
    (fun _ _ _ _ => trivial) h trivial).1

/-- A program leaves alone what none of its calls is about. -/
theorem solo_elsewhere {R : Type} {P : Call D → Prop} {post : R → Prop} {prog : Prog D R}
    (h : prog.Meets Call.Possible P post) (who : Attempt D) (g : Granted) (d : Disk D) {p : Path D}
    (elsewhere : ∀ c, P c → p ≠ c.path) : (solo who g prog d).2 p = d p := by
  refine (Program.run_meets (I := fun d' : Disk D => d' p = d p) ?_ ?_ h rfl).2
  · exact fun c d' => serve_possible who (g.allows c) c d'
  · intro c d' about same
    rw [serve_elsewhere who (g.allows c) d' (elsewhere c about), same]

/-! ## Its parts -/

theorem create_answer (who : Attempt D) (ok : Bool) (p : Path D) (d : Disk D) :
    (serve who ok (.create p) d).1 = if ok then (d p).opens.map (File.mk p) else none := by
  rw [serve_answer]
  cases ok with
  | false => rfl
  | true =>
    simp only [Call.path, Call.serveAt, if_true]
    cases (d p).opens <;> rfl

/-- Opening a file changes no lock. -/
theorem create_locked (who : Attempt D) (ok : Bool) (p : Path D) (d : Disk D) :
    ((serve who ok (.create p) d).2 p).locked = (d p).locked := by
  have here : (serve who ok (.create p) d).2 p = (Call.serveAt who ok (.create p) (d p)).2 :=
    serve_here who ok (.create p) d
  rw [here]
  simp only [Call.serveAt]
  split
  · split <;> rfl
  · rfl

theorem tryLock_answer (who : Attempt D) (ok : Bool) (f : File D) (d : Disk D) :
    (serve who ok (.tryLock f) d).1 = (ok && (d f.path).isFree f.number) := by
  rw [serve_answer]
  change (Call.serveAt who ok (.tryLock f) (d f.path)).1 = _
  generalize d f.path = s
  simp only [Call.serveAt]
  split
  · rename_i free
    exact free.symm
  · rename_i taken
    exact (Bool.not_eq_true _ ▸ taken).symm

theorem lockOpened_solo (who : Attempt D) (g : Granted) (f : File D) (d : Disk D) :
    ((solo who g (lockOpened (some f)) d).1).isSome =
      (g.tryLock && (d f.path).isFree f.number) := by
  rw [lockOpened, solo_ask]
  simp only [Granted.allows, tryLock_answer]
  cases g.tryLock && (d f.path).isFree f.number with
  | true => rfl
  | false => rfl

theorem acquireLock_solo (who : Attempt D) (g : Granted) (p : Path D) (d : Disk D) :
    ((solo who g (acquireLock p) d).1).isSome = g.locks (d (lockPath p)) := by
  have locked := create_locked who g.create (lockPath p) d
  rw [acquireLock, solo_ask, Granted.locks]
  simp only [Granted.allows, create_answer]
  generalize (serve who g.create (.create (lockPath p)) d).2 = d' at locked ⊢
  cases g.create with
  | false => rfl
  | true =>
    cases (d (lockPath p)).opens with
    | none =>
      simp only [Option.any_none, Bool.and_false]
      rfl
    | some n =>
      simp only [if_true, Option.map_some, lockOpened_solo, Spot.isFree, locked]
      rfl

/-! ## At the path itself -/

theorem removeFile_here (who : Attempt D) (ok : Bool) (p : Path D) (d : Disk D) :
    (serve who ok (.removeFile p) d).2 p =
      if ok && (d p).isRemovable then (d p).remove else d p := by
  have here : (serve who ok (.removeFile p) d).2 p =
      (Call.serveAt who ok (.removeFile p) (d p)).2 := serve_here who ok (.removeFile p) d
  rw [here]
  simp only [Call.serveAt]
  split <;> rfl

@[simp] theorem serve_address (who : Attempt D) (ok : Bool) (p : Path D) (d : Disk D) :
    serve who ok (.address p) d = (ok, d) := by
  simp [serve, Call.serveAt]

@[simp] theorem serve_socket (who : Attempt D) (ok : Bool) (p : Path D) (d : Disk D) :
    serve who ok (.socket p) d = (ok, d) := by
  simp [serve, Call.serveAt]

theorem serve_bind (who : Attempt D) (ok : Bool) (p : Path D) (d : Disk D) :
    serve who ok (.bind p) d =
      if ok && (d p).entry.isNone then
        (some ⟨p, (d p).made⟩, Function.update d p ((d p).make .socket))
      else (none, d) := by
  simp only [serve, Call.serveAt, Call.path]
  by_cases free : (ok && (d p).entry.isNone) = true
  · simp only [free, if_true]
  · simp only [free, Bool.false_eq_true, if_false, Function.update_eq_self]

/-- Before the socket file is made an error of `wire::bind` leaves everything as it is. -/
theorem bind_refused (who : Attempt D) (g : Granted) (p : Path D) (d : Disk D)
    (refused : (g.address && g.socket && g.bind && (d p).entry.isNone) = false) :
    ∃ e, solo who g (bind p) d = (.error e, d) := by
  rw [bind, solo_ask]
  simp only [Granted.allows, serve_address]
  cases ha : g.address with
  | false => exact ⟨.address, rfl⟩
  | true =>
    dsimp only
    rw [solo_ask]
    simp only [Granted.allows, serve_socket]
    cases hs : g.socket with
    | false => exact ⟨.socket, rfl⟩
    | true =>
      dsimp only
      rw [solo_ask]
      rw [ha, hs, Bool.true_and, Bool.true_and] at refused
      simp only [Granted.allows, serve_bind, refused]
      exact ⟨.bind, rfl⟩

/-- The calls that change no entry. -/
def Call.keepsEntry : Call D → Bool
  | .create _ => false
  | .removeFile _ => false
  | .bind _ => false
  | _ => true

theorem serve_entry {who : Attempt D} {ok : Bool} {c : Call D} {d : Disk D}
    (keeps : c.keepsEntry = true) (q : Path D) :
    ((serve who ok c d).2 q).entry = (d q).entry := by
  by_cases here : q = c.path
  · subst here
    rw [serve_here]
    cases c with
    | create p => cases keeps
    | removeFile p => cases keeps
    | bind p => cases keeps
    | tryLock f =>
      simp only [Call.serveAt]
      split <;> rfl
    | listen k =>
      simp only [Call.serveAt]
      split <;> rfl
    | _ => rfl
  · rw [serve_elsewhere who ok d here]

/-- Neither does a program whose calls are of that kind, or about other paths. -/
theorem solo_entry {R : Type} {P : Call D → Prop} {post : R → Prop} {prog : Prog D R}
    (h : prog.Meets Call.Possible P post) (who : Attempt D) (g : Granted) (d : Disk D)
    {q : Path D} (keeps : ∀ c, P c → c.keepsEntry = true ∨ q ≠ c.path) :
    ((solo who g prog d).2 q).entry = (d q).entry := by
  refine (Program.run_meets (I := fun d' : Disk D => (d' q).entry = (d q).entry) ?_ ?_ h rfl).2
  · exact fun c d' => serve_possible who (g.allows c) c d'
  · intro c d' about same
    rcases keeps c about with kept | elsewhere
    · exact (serve_entry kept q).trans same
    · rw [serve_elsewhere who (g.allows c) d' elsewhere, same]

omit [DecidableEq D] in
theorem listenOn_keeps (bound : Option (Sock D)) :
    (listenOn bound).Meets Call.Possible (fun c => c.keepsEntry = true) fun _ => True := by
  cases bound with
  | none => trivial
  | some fd =>
    refine ⟨rfl, fun heard _ => ?_⟩
    cases heard with
    | true => trivial
    | false => exact ⟨rfl, fun _ _ => trivial⟩

omit [DecidableEq D] in
theorem acceptOn_keeps (p : Path D) (lockFile : File D) (r : Except NewError (Sock D)) :
    (acceptOn p lockFile r).Meets Call.Possible (fun c => c.keepsEntry = true) fun _ => True := by
  cases r with
  | error e => exact ⟨rfl, fun _ _ => trivial⟩
  | ok fd =>
    refine ⟨rfl, fun registered _ => ?_⟩
    cases registered with
    | true => trivial
    | false => exact ⟨rfl, fun _ _ => ⟨rfl, fun _ _ => trivial⟩⟩

theorem serve_listen_answer (who : Attempt D) (ok : Bool) (k : Sock D) (d : Disk D) :
    (serve who ok (.listen k) d).1 = ok := by
  cases ok <;> rfl

theorem listenOn_answer (who : Attempt D) (g : Granted) (fd : Sock D) (d : Disk D) :
    (solo who g (listenOn (some fd)) d).1 = if g.listen then .ok fd else .error .listen := by
  rw [listenOn, solo_ask]
  simp only [Granted.allows, serve_listen_answer]
  cases g.listen with
  | true => rfl
  | false => rfl

/-- After that the file is there, whether or not the socket listens. -/
theorem bind_made (who : Attempt D) (g : Granted) (p : Path D) (d : Disk D)
    (made : (g.address && g.socket && g.bind && (d p).entry.isNone) = true) :
    (solo who g (bind p) d).1 = (if g.listen then .ok ⟨p, (d p).made⟩ else .error .listen) ∧
      ((solo who g (bind p) d).2 p).entry = some ⟨.socket, (d p).made⟩ := by
  have granted := made
  simp only [Bool.and_eq_true] at granted
  obtain ⟨⟨⟨address, socket⟩, bound⟩, free⟩ := granted
  have run : solo who g (bind p) d = solo who g (listenOn (some ⟨p, (d p).made⟩))
      (Function.update d p ((d p).make .socket)) := by
    rw [bind, solo_ask]
    simp only [Granted.allows, serve_address, address]
    rw [solo_ask]
    simp only [Granted.allows, serve_socket, socket]
    rw [solo_ask]
    simp only [Granted.allows, serve_bind, bound, free, Bool.and_self, if_true]
  rw [run]
  constructor
  · exact listenOn_answer who g _ _
  · rw [solo_entry (listenOn_keeps _) who g _ fun c => Or.inl, Function.update_self]
    rfl

/-! ## The whole of it -/

theorem acquireLock_refused (who : Attempt D) (g : Granted) (p : Path D) (d : Disk D)
    (refused : g.locks (d (lockPath p)) = false) : (solo who g (acquireLock p) d).1 = none := by
  have answer := acquireLock_solo who g p d
  rw [refused, Option.isSome_eq_false_iff] at answer
  exact Option.isNone_iff_eq_none.mp answer

theorem acquireLock_granted (who : Attempt D) (g : Granted) (p : Path D) (d : Disk D)
    (locked : g.locks (d (lockPath p)) = true) :
    ∃ lockFile, (solo who g (acquireLock p) d).1 = some lockFile ∧ lockFile.path = lockPath p := by
  have answer := acquireLock_solo who g p d
  rw [locked] at answer
  obtain ⟨lockFile, answer⟩ := Option.isSome_iff_exists.mp answer
  have held := solo_returns (acquireLock_meets p) who g d
  exact ⟨lockFile, answer, held lockFile answer⟩

/-- The lock is not taken at the path itself. -/
theorem acquireLock_elsewhere (who : Attempt D) (g : Granted) (p : Path D) (d : Disk D) :
    (solo who g (acquireLock p) d).2 p = d p := by
  refine solo_elsewhere (acquireLock_meets p) who g d ?_
  intro c about
  rw [about]
  exact (lockPath_ne p).symm

theorem new_solo (who : Attempt D) (g : Granted) (p : Path D) (d : Disk D) :
    solo who g (new p) d =
      solo who g (newLocked p (solo who g (acquireLock p) d).1) (solo who g (acquireLock p) d).2 :=
  solo_bind who g (acquireLock p) (newLocked p) d

/-- Without the lock nothing happens at the path. -/
theorem new_refused (who : Attempt D) (g : Granted) (p : Path D) (d : Disk D)
    (refused : g.locks (d (lockPath p)) = false) :
    ∃ e, (solo who g (new p) d).1 = .error e ∧ (solo who g (new p) d).2 p = d p := by
  rw [new_solo, acquireLock_refused who g p d refused]
  exact ⟨_, rfl, acquireLock_elsewhere who g p d⟩

/-- What `remove_file` leaves of what was at the path. -/
def Granted.cleared (g : Granted) (s : Spot D) : Spot D := if g.removes s then s.remove else s

omit [DecidableEq D] in
theorem cleared_made (g : Granted) (s : Spot D) : (g.cleared s).made = s.made := by
  rw [Granted.cleared]
  split <;> rfl

omit [DecidableEq D] in
theorem cleared_isNone (g : Granted) (s : Spot D) :
    (g.cleared s).entry.isNone = (s.entry.isNone || g.removes s) := by
  rw [Granted.cleared]
  split
  · rename_i removed
    simp [Spot.remove, removed]
  · rename_i kept
    simp [kept]

/-- With the lock, `new` goes on at a path that it has tried to clear. -/
theorem new_locked (who : Attempt D) (g : Granted) (p : Path D) (d : Disk D)
    (locked : g.locks (d (lockPath p)) = true) :
    ∃ lockFile d', lockFile.path = lockPath p ∧ d' p = g.cleared (d p) ∧
      solo who g (new p) d =
        solo who g (acceptOn p lockFile (solo who g (bind p) d').1) (solo who g (bind p) d').2 := by
  obtain ⟨lockFile, answer, held⟩ := acquireLock_granted who g p d locked
  have same := acquireLock_elsewhere who g p d
  have run := new_solo who g p d
  rw [answer] at run
  generalize (solo who g (acquireLock p) d).2 = d₁ at same run
  refine ⟨lockFile, (serve who g.removeFile (.removeFile p) d₁).2, held, ?_, ?_⟩
  · rw [removeFile_here, same]
    rfl
  · rw [run, newLocked, solo_ask]
    exact solo_bind who g (bind p) (acceptOn p lockFile) _

/-- Up to `bind` an error leaves the path as `remove_file` left it. -/
theorem new_unbound (who : Attempt D) (g : Granted) (p : Path D) (d : Disk D)
    (locked : g.locks (d (lockPath p)) = true) (unbound : g.binds (d p) = false) :
    ∃ e, (solo who g (new p) d).1 = .error e ∧
      (solo who g (new p) d).2 p = g.cleared (d p) := by
  obtain ⟨lockFile, d', held, cleared, run⟩ := new_locked who g p d locked
  have refused : (g.address && g.socket && g.bind && (d' p).entry.isNone) = false := by
    rw [cleared, cleared_isNone]
    exact unbound
  obtain ⟨e, bound⟩ := bind_refused who g p d' refused
  rw [run, bound]
  refine ⟨e, rfl, ?_⟩
  have elsewhere : p ≠ (Call.closeFile lockFile).path := by
    rw [Call.path, held]
    exact (lockPath_ne p).symm
  rw [acceptOn, solo_ask, solo_pure, serve_elsewhere who _ d' elsewhere, cleared]

theorem serve_register (who : Attempt D) (ok : Bool) (k : Sock D) (d : Disk D) :
    (serve who ok (.register k) d).1 = ok := rfl

theorem acceptOn_answer (who : Attempt D) (g : Granted) (p : Path D) (lockFile : File D)
    (fd : Sock D) (d : Disk D) :
    (solo who g (acceptOn p lockFile (.ok fd)) d).1 =
      if g.register then .ok ⟨lockFile, p, fd⟩ else .error .register := by
  rw [acceptOn, solo_ask]
  simp only [Granted.allows, serve_register]
  cases g.register with
  | true => rfl
  | false => rfl

/-- From `bind` on there is a new socket file at the path, error or not. -/
theorem new_bound (who : Attempt D) (g : Granted) (p : Path D) (d : Disk D)
    (locked : g.locks (d (lockPath p)) = true) (bound : g.binds (d p) = true) :
    ((solo who g (new p) d).2 p).entry = some ⟨.socket, (d p).made⟩ ∧
      ((∃ e, (solo who g (new p) d).1 = .error e) ↔ (g.listen && g.register) = false) := by
  obtain ⟨lockFile, d', _, cleared, run⟩ := new_locked who g p d locked
  have made : (g.address && g.socket && g.bind && (d' p).entry.isNone) = true := by
    rw [cleared, cleared_isNone]
    exact bound
  obtain ⟨answer, entry⟩ := bind_made who g p d' made
  rw [run]
  constructor
  · rw [solo_entry (acceptOn_keeps p lockFile _) who g _ fun c => Or.inl, entry, cleared,
      cleared_made]
  · rw [answer]
    cases g.listen with
    | false => exact iff_of_true ⟨.listen, rfl⟩ rfl
    | true =>
      rw [if_pos rfl, acceptOn_answer]
      cases g.register with
      | false => exact iff_of_true ⟨.register, rfl⟩ rfl
      | true => simp

/-! ## When the path is left alone -/

/-- If `new` returns an error, the path leads to what it led to, and to no socket without
a listener that was not there before. -/
def LeavesAlone (who : Attempt D) (g : Granted) (d : Disk D) : Prop :=
  ∀ e, (solo who g (new who.path) d).1 = .error e →
    ((solo who g (new who.path) d).2 who.path).entry = (d who.path).entry ∧
      ∀ n, ((solo who g (new who.path) d).2 who.path).isStale n = true →
        (d who.path).isStale n = true

/-- The lock is not to be had, or nothing after it fails, or nothing can be removed and
no socket file is made. -/
def Harmless (g : Granted) (lock here : Spot D) : Prop :=
  g.locks lock = true → g.completes here = true ∨ g.removes here = false ∧ g.binds here = false

omit [DecidableEq D] in
theorem entry_of_removes {g : Granted} {s : Spot D} (removed : g.removes s = true) :
    s.entry ≠ none := by
  intro nothing
  simp [Granted.removes, Spot.isRemovable, nothing] at removed

omit [DecidableEq D] in
/-- A file made now is not one that was there. -/
theorem entry_ne_made (s : Spot D) (kind : Kind) : s.entry ≠ some ⟨kind, s.made⟩ := by
  intro same
  exact absurd (s.numbered _ same) (Nat.lt_irrefl s.made)

theorem leavesAlone_of_same {who : Attempt D} {g : Granted} {d : Disk D}
    (same : (solo who g (new who.path) d).2 who.path = d who.path) : LeavesAlone who g d := by
  intro e _
  rw [same]
  exact ⟨rfl, fun n stale => stale⟩

/-- A `new` that fails leaves the path alone if and only if it fails for want of the lock,
or before the socket file is made where there was nothing that it could remove. -/
theorem leavesAlone_iff (who : Attempt D) (g : Granted) (d : Disk D) :
    LeavesAlone who g d ↔ Harmless g (d (lockPath who.path)) (d who.path) := by
  cases locked : g.locks (d (lockPath who.path)) with
  | false =>
    obtain ⟨_, _, same⟩ := new_refused who g who.path d locked
    exact iff_of_true (leavesAlone_of_same same) fun taken => absurd (locked ▸ taken) (by simp)
  | true =>
    cases bound : g.binds (d who.path) with
    | false =>
      obtain ⟨e, failed, after⟩ := new_unbound who g who.path d locked bound
      constructor
      · intro alone _
        have kept := (alone e failed).1
        refine Or.inr ⟨?_, bound⟩
        by_contra removed
        rw [Bool.not_eq_false] at removed
        rw [after, Granted.cleared, if_pos removed] at kept
        exact entry_of_removes removed kept.symm
      · intro harmless
        rcases harmless locked with complete | ⟨kept, _⟩
        · simp [Granted.completes, bound] at complete
        · apply leavesAlone_of_same
          rw [after, Granted.cleared, kept]
          rfl
    | true =>
      obtain ⟨entry, failed⟩ := new_bound who g who.path d locked bound
      constructor
      · intro alone _
        refine Or.inl ?_
        by_contra incomplete
        have fails : (g.listen && g.register) = false := by
          simpa [Granted.completes, bound] using incomplete
        obtain ⟨e, error⟩ := failed.mpr fails
        have kept := (alone e error).1
        exact entry_ne_made _ _ (kept.symm.trans entry)
      · intro harmless e error
        have fails := failed.mp ⟨e, error⟩
        rcases harmless locked with complete | ⟨_, unbound⟩
        · simp [Granted.completes, bound, fails] at complete
        · rw [bound] at unbound
          cases unbound

def door : Attempt Unit := ⟨⟨(), [100]⟩, 0⟩

/-- A regular file at the path, and nothing else. -/
def occupied : Disk Unit := fun p => if p = door.path then Spot.unused.make .file else Spot.unused

/-- With no descriptor left for the socket the file at the path is gone, and with none for
the reactor a socket file that nobody listens on is there. -/
theorem failed_new_clobbers :
    ¬ LeavesAlone door { Granted.all with socket := false } occupied ∧
      ¬ LeavesAlone door { Granted.all with register := false } fun _ => Spot.unused := by
  constructor
  · intro alone
    have kept : none = some (⟨.file, 0⟩ : Entry) := (alone .socket rfl).1
    cases kept
  · intro alone
    have stale : (Spot.unused : Spot Unit).isStale 0 = true := (alone .register rfl).2 0 rfl
    cases stale

end FsBinding
