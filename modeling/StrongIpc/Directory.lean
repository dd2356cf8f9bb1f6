import Mathlib.Logic.Function.Basic

/-!
# Names in directories

What `RefFsBinding` asks the file system for, one call at a time. A path is the
directory that its last name is in, as the kernel resolves it, and that name; a path
that ends in a slash has the empty name, and leads to a directory. There are no links,
hard or symbolic, so a file is named by its path and a number, which no two files made
at one path share.
-/

namespace FsBinding

/-- The bytes of one component of a path. -/
abbrev Name := List UInt8

structure Path (D : Type) where
  dir : D
  name : Name
  deriving DecidableEq, Repr

/-- `".lock"` -/
def lockSuffix : Name := [46, 108, 111, 99, 107]

/-- `RefFsBinding::lock_path`. -/
def lockPath {D : Type} (dir : Path D) : Path D := { dir with name := dir.name ++ lockSuffix }

/-- A lock path leads elsewhere than its path. -/
theorem lockPath_ne {D : Type} (p : Path D) : lockPath p ≠ p := by
  intro same
  have longer := congrArg (fun p : Path D => p.name.length) same
  simp [lockPath, lockSuffix] at longer

theorem lockPath_injective {D : Type} {p q : Path D} (same : lockPath p = lockPath q) : p = q := by
  obtain ⟨dir, name⟩ := p
  obtain ⟨dir', name'⟩ := q
  simpa [lockPath] using same

inductive Kind where
  | file
  | socket
  | directory
  deriving DecidableEq, Repr

structure Entry where
  kind : Kind
  number : Nat
  deriving DecidableEq, Repr

/-- One call of `RefFsBinding::new`, with all that becomes of what it returns. -/
structure Attempt (D : Type) where
  path : Path D
  number : Nat
  deriving DecidableEq, Repr

/-- What there is at a path, and what is known of the files made there, unlinked or not:
which are locked and which are sockets that somebody listens on, and who does. -/
structure Spot (D : Type) where
  entry : Option Entry
  made : Nat
  locked : List (Nat × Attempt D)
  listening : List (Nat × Attempt D)
  numbered : ∀ e ∈ entry, e.number < made

variable {D : Type}

def Spot.isFree (s : Spot D) (n : Nat) : Bool := s.locked.all fun x => x.1 != n

/-- A socket that nobody listens on. -/
def Spot.isStale (s : Spot D) (n : Nat) : Bool :=
  s.entry = some ⟨.socket, n⟩ && s.listening.all fun x => x.1 != n

/-- The file that opening it for writing opens, or makes. -/
def Spot.opens (s : Spot D) : Option Nat :=
  match s.entry with
  | none => some s.made
  | some ⟨.file, n⟩ => some n
  | some ⟨.socket, _⟩ => none
  | some ⟨.directory, _⟩ => none

/-- `unlink` takes what is there. -/
def Spot.isRemovable (s : Spot D) : Bool := s.entry.any fun e => e.kind != .directory

def Spot.make (s : Spot D) (kind : Kind) : Spot D :=
  { s with
    entry := some ⟨kind, s.made⟩
    made := s.made + 1
    numbered := by
      rintro e ⟨⟩
      exact Nat.lt_succ_self s.made }

def Spot.remove (s : Spot D) : Spot D :=
  { s with
    entry := none
    numbered := by
      rintro e ⟨⟩ }

/-- A path where nothing was ever made. -/
def Spot.unused : Spot D where
  entry := none
  made := 0
  locked := []
  listening := []
  numbered := by
    rintro e ⟨⟩

/-! ## The calls -/

/-- An open lock file. -/
structure File (D : Type) where
  path : Path D
  number : Nat
  deriving DecidableEq, Repr

/-- A socket bound at a path. -/
structure Sock (D : Type) where
  path : Path D
  number : Nat
  deriving DecidableEq, Repr

/-- `address` is `SocketAddrUnix::new`, `register` is `AsyncFd::new`, and the last two
are descriptors being closed. -/
inductive Call (D : Type) where
  | create (p : Path D)
  | tryLock (f : File D)
  | removeFile (p : Path D)
  | address (p : Path D)
  | socket (p : Path D)
  | bind (p : Path D)
  | listen (k : Sock D)
  | register (k : Sock D)
  | closeFile (f : File D)
  | closeSocket (k : Sock D)
  deriving DecidableEq, Repr

@[reducible] def Call.Answer : Call D → Type
  | .create _ => Option (File D)
  | .tryLock _ => Bool
  | .removeFile _ => Bool
  | .address _ => Bool
  | .socket _ => Bool
  | .bind _ => Option (Sock D)
  | .listen _ => Bool
  | .register _ => Bool
  | .closeFile _ => Unit
  | .closeSocket _ => Unit

/-- The one path that the call looks at or changes; `socket` is asked for one. -/
def Call.path : Call D → Path D
  | .create p => p
  | .tryLock f => f.path
  | .removeFile p => p
  | .address p => p
  | .socket p => p
  | .bind p => p
  | .listen k => k.path
  | .register k => k.path
  | .closeFile f => f.path
  | .closeSocket k => k.path

/-- A file made or opened at a path is one of that path. -/
def Call.Possible : (c : Call D) → c.Answer → Prop
  | .create p, some f => f.path = p
  | .bind p, some k => k.path = p
  | _, _ => True

variable [DecidableEq D]

/-- The answer at the call's path. With `ok` the kernel has nothing of its own against
the call: a descriptor, memory, a permission or an address that is not too long. A
socket or a directory cannot be opened for writing, `unlink` does not take a directory,
and `bind` takes no path that leads to anything. -/
def Call.serveAt (who : Attempt D) (ok : Bool) : (c : Call D) → Spot D → c.Answer × Spot D
  | .create p, s =>
    match ok, s.opens with
    | true, some n => (some ⟨p, n⟩, if s.entry.isNone then s.make .file else s)
    | _, _ => (none, s)
  | .tryLock f, s =>
    if ok && s.isFree f.number then (true, { s with locked := (f.number, who) :: s.locked })
    else (false, s)
  | .removeFile _, s => if ok && s.isRemovable then (true, s.remove) else (false, s)
  | .address _, s => (ok, s)
  | .socket _, s => (ok, s)
  | .bind p, s =>
    if ok && s.entry.isNone then (some ⟨p, s.made⟩, s.make .socket) else (none, s)
  | .listen k, s =>
    if ok then (true, { s with listening := (k.number, who) :: s.listening }) else (false, s)
  | .register _, s => (ok, s)
  | .closeFile f, s => ((), { s with locked := s.locked.erase (f.number, who) })
  | .closeSocket k, s => ((), { s with listening := s.listening.erase (k.number, who) })

abbrev Disk (D : Type) := Path D → Spot D

def serve (who : Attempt D) (ok : Bool) (c : Call D) (d : Disk D) : c.Answer × Disk D :=
  let (a, spot) := c.serveAt who ok (d c.path)
  (a, Function.update d c.path spot)

/-- The descriptors of an attempt whose process died are closed. -/
def Spot.release (who : Attempt D) (s : Spot D) : Spot D :=
  { s with
    locked := s.locked.filter fun x => x.2 != who
    listening := s.listening.filter fun x => x.2 != who }

/-! ## One path at a time -/

theorem serve_answer (who : Attempt D) (ok : Bool) (c : Call D) (d : Disk D) :
    (serve who ok c d).1 = (c.serveAt who ok (d c.path)).1 := rfl

theorem serve_here (who : Attempt D) (ok : Bool) (c : Call D) (d : Disk D) :
    (serve who ok c d).2 c.path = (c.serveAt who ok (d c.path)).2 :=
  Function.update_self _ _ _

/-- A call changes nothing anywhere else. -/
theorem serve_elsewhere (who : Attempt D) (ok : Bool) {c : Call D} (d : Disk D) {p : Path D}
    (elsewhere : p ≠ c.path) : (serve who ok c d).2 p = d p :=
  Function.update_of_ne elsewhere _ _

/-- The answer and what it changes depend on what is at the call's path alone. -/
theorem serve_local (who : Attempt D) (ok : Bool) {c : Call D} {d e : Disk D}
    (same : e c.path = d c.path) :
    (serve who ok c e).1 = (serve who ok c d).1 ∧
      ∀ r, e r = d r → (serve who ok c e).2 r = (serve who ok c d).2 r := by
  constructor
  · rw [serve_answer, serve_answer, same]
  · intro r agree
    by_cases here : r = c.path
    · subst here
      rw [serve_here, serve_here, same]
    · rw [serve_elsewhere who ok e here, serve_elsewhere who ok d here, agree]

theorem serve_possible (who : Attempt D) (ok : Bool) (c : Call D) (d : Disk D) :
    c.Possible (serve who ok c d).1 := by
  rw [serve_answer]
  cases c with
  | create p =>
    simp only [Call.serveAt]
    split
    · rfl
    · trivial
  | bind p =>
    simp only [Call.serveAt]
    split
    · rfl
    · trivial
  | _ => trivial

end FsBinding
