import StrongIpc.Directory
import StrongIpc.Library.Interaction

/-!
# `RefFsBinding::new` and its drop as programs

What the two do between their calls, and what they close on the way out of an error.
`new` runs on a runtime, as `AsyncFd::new` and `tokio::spawn` require.
-/

namespace FsBinding

open Interaction

abbrev Prog (D : Type) := Program (@Call.Answer D)

variable {D : Type}

def ask (c : Call D) : Prog D c.Answer := .ask c .ret

/-- `io::Error`: the one that `new` makes itself, and those of the calls after the lock. -/
inductive NewError where
  | addrInUse (text : String)
  | address
  | socket
  | bind
  | listen
  | register
  deriving DecidableEq, Repr

/-- `task` is the listening socket, which the accept loop owns. -/
structure RefFsBinding (D : Type) where
  lockFile : File D
  path : Path D
  task : Sock D
  deriving DecidableEq, Repr

/-! ## The functions -/

def lockOpened : Option (File D) → Prog D (Option (File D))
  | none => return none
  | some file => do
    match ← ask (.tryLock file) with
    | true => return some file
    | false =>
      ask (.closeFile file)
      return none

/-- `RefFsBinding::acquire_lock`. -/
def acquireLock (path : Path D) : Prog D (Option (File D)) := do
  lockOpened (← ask (.create (lockPath path)))

/-- The end of `wire::bind`; a socket that is not bound to anything closes unnoticed. -/
def listenOn : Option (Sock D) → Prog D (Except NewError (Sock D))
  | none => return .error .bind
  | some fd => do
    match ← ask (.listen fd) with
    | true => return .ok fd
    | false =>
      ask (.closeSocket fd)
      return .error .listen

/-- `wire::bind`. -/
def bind (path : Path D) : Prog D (Except NewError (Sock D)) := do
  match ← ask (.address path) with
  | false => return .error .address
  | true =>
    match ← ask (.socket path) with
    | false => return .error .socket
    | true => listenOn (← ask (.bind path))

/-- The end of `new`: `Reactive::new` on what `wire::bind` returned, and the return. -/
def acceptOn (path : Path D) (lockFile : File D) :
    Except NewError (Sock D) → Prog D (Except NewError (RefFsBinding D))
  | .error e => do
    ask (.closeFile lockFile)
    return .error e
  | .ok fd => do
    match ← ask (.register fd) with
    | true => return .ok ⟨lockFile, path, fd⟩
    | false =>
      ask (.closeSocket fd)
      ask (.closeFile lockFile)
      return .error .register

def newLocked (path : Path D) :
    Option (File D) → Prog D (Except NewError (RefFsBinding D))
  | none => return .error (.addrInUse "unable to acquire lock file")
  | some lockFile => do
    let _ ← ask (.removeFile path)
    acceptOn path lockFile (← bind path)

/-- `RefFsBinding::new`. -/
def new (path : Path D) : Prog D (Except NewError (RefFsBinding D)) := do
  newLocked path (← acquireLock path)

/-- `RefFsBinding::drop`, and then its fields in their order. -/
def drop (b : RefFsBinding D) : Prog D Unit := do
  let _ ← ask (.removeFile (lockPath b.path))
  let _ ← ask (.removeFile b.path)
  ask (.closeFile b.lockFile)
  ask (.closeSocket b.task)

/-! ## Which paths they are about -/

def Call.Concerns (p : Path D) (c : Call D) : Prop := c.path = p ∨ c.path = lockPath p

/-- The binding of a path has its lock file at the lock path, and its socket there. -/
structure RefFsBinding.Of (p : Path D) (b : RefFsBinding D) : Prop where
  lockFile : b.lockFile.path = lockPath p
  path : b.path = p
  task : b.task.path = p

/-- Of its own path, if it is a binding. -/
def Returns (p : Path D) : Except NewError (RefFsBinding D) → Prop
  | .ok b => b.Of p
  | .error _ => True

theorem acquireLock_meets (p : Path D) :
    (acquireLock p).Meets Call.Possible (fun c => c.path = lockPath p)
      fun file => ∀ f ∈ file, f.path = lockPath p := by
  refine ⟨rfl, fun opened possible => ?_⟩
  cases opened with
  | none =>
    rintro f ⟨⟩
  | some f =>
    have here : f.path = lockPath p := possible
    refine ⟨here, fun locked _ => ?_⟩
    cases locked with
    | true =>
      rintro f' ⟨⟩
      exact here
    | false =>
      refine ⟨here, fun _ _ => ?_⟩
      rintro f' ⟨⟩

theorem bind_meets (p : Path D) :
    (bind p).Meets Call.Possible (fun c => c.path = p) fun r => ∀ fd, r = .ok fd → fd.path = p := by
  refine ⟨rfl, fun fits _ => ?_⟩
  cases fits with
  | false =>
    rintro fd ⟨⟩
  | true =>
    refine ⟨rfl, fun opened _ => ?_⟩
    cases opened with
    | false =>
      rintro fd ⟨⟩
    | true =>
      refine ⟨rfl, fun bound possible => ?_⟩
      cases bound with
      | none =>
        rintro fd ⟨⟩
      | some fd =>
        have here : fd.path = p := possible
        refine ⟨here, fun heard _ => ?_⟩
        cases heard with
        | true =>
          rintro fd' ⟨⟩
          exact here
        | false =>
          refine ⟨here, fun _ _ => ?_⟩
          rintro fd' ⟨⟩

theorem acceptOn_meets {p : Path D} {lockFile : File D} (held : lockFile.path = lockPath p)
    {r : Except NewError (Sock D)} (bound : ∀ fd, r = .ok fd → fd.path = p) :
    (acceptOn p lockFile r).Meets Call.Possible (Call.Concerns p) (Returns p) := by
  cases r with
  | error e => exact ⟨Or.inr held, fun _ _ => trivial⟩
  | ok fd =>
    have here : fd.path = p := bound fd rfl
    refine ⟨Or.inl here, fun registered _ => ?_⟩
    cases registered with
    | true => exact ⟨held, rfl, here⟩
    | false => exact ⟨Or.inl here, fun _ _ => ⟨Or.inr held, fun _ _ => trivial⟩⟩

/-- `new` asks for nothing but what is at its path or at the lock path. -/
theorem new_meets (p : Path D) : (new p).Meets Call.Possible (Call.Concerns p) (Returns p) := by
  refine Program.meets_bind (Program.meets_mono (fun c => Or.inr) (fun file held => ?_)
    (acquireLock_meets p))
  cases file with
  | none => trivial
  | some lockFile =>
    refine ⟨Or.inl rfl, fun _ _ => ?_⟩
    refine Program.meets_bind (p := bind p) (Program.meets_mono (fun c => Or.inl)
      (fun r bound => ?_) (bind_meets p))
    exact acceptOn_meets (held lockFile rfl) bound

theorem drop_meets {p : Path D} {b : RefFsBinding D} (own : b.Of p) :
    (drop b).Meets Call.Possible (Call.Concerns p) fun _ => True := by
  refine ⟨Or.inr (congrArg lockPath own.path), fun _ _ => ?_⟩
  refine ⟨Or.inl own.path, fun _ _ => ?_⟩
  refine ⟨Or.inr own.lockFile, fun _ _ => ?_⟩
  exact ⟨Or.inl own.task, fun _ _ => trivial⟩

end FsBinding
