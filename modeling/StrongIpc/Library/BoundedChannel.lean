/-!
# A bounded multi-producer channel with permits

Each operation is one indivisible step. A slot is taken by a queued message or
by a permit that a waiting producer was granted. The receiver leaving empties
the queue; a permit granted before that may still put its message into the
queue, where nobody will find it. The sending side being gone shows once the
queue is empty.
-/

namespace BoundedChannel

universe u

inductive Refusal where
  | full
  | closed
  deriving DecidableEq, Repr

structure Channel (M : Type u) where
  capacity : Nat
  queue : List M
  permits : Nat
  sending : Bool
  receiving : Bool
  deriving DecidableEq, Repr

namespace Channel
variable {M : Type u}

def new (capacity : Nat) : Channel M := ⟨capacity, [], 0, true, true⟩

def hasRoom (c : Channel M) : Bool := c.queue.length + c.permits < c.capacity

def trySend (c : Channel M) (m : M) : Except Refusal (Channel M) :=
  if !c.receiving then .error .closed
  else if c.hasRoom then .ok { c with queue := c.queue ++ [m] }
  else .error .full

/-- A free slot is set aside for a producer that waits. -/
def grant (c : Channel M) : Option (Channel M) :=
  if c.receiving && c.hasRoom then some { c with permits := c.permits + 1 } else none

def dropPermit (c : Channel M) : Channel M := { c with permits := c.permits - 1 }

def permitSend (c : Channel M) (m : M) : Channel M :=
  { c with queue := c.queue ++ [m], permits := c.permits - 1 }

/-- `none`: the receiver parks; `some none`: the channel is closed and empty. -/
def recv (c : Channel M) : Option (Option M × Channel M) :=
  match c.queue with
  | m :: rest => some (some m, { c with queue := rest })
  | [] => if c.sending then none else some (none, c)

def dropReceiver (c : Channel M) : Channel M := { c with queue := [], receiving := false }

def dropSender (c : Channel M) : Channel M := { c with sending := false }

theorem trySend_ok {c d : Channel M} {m : M} (h : c.trySend m = .ok d) :
    c.receiving = true ∧ c.hasRoom = true ∧ d = { c with queue := c.queue ++ [m] } := by
  rw [trySend] at h
  cases hr : c.receiving with
  | false => simp [hr] at h
  | true =>
    cases room : c.hasRoom with
    | false => simp [hr, room] at h
    | true => exact ⟨rfl, rfl, by simpa [hr, room] using h.symm⟩

theorem trySend_closed {c : Channel M} {m : M} (h : c.trySend m = .error .closed) :
    c.receiving = false := by
  rw [trySend] at h
  cases hr : c.receiving with
  | false => rfl
  | true =>
    cases room : c.hasRoom <;> simp [hr, room] at h

theorem trySend_full {c : Channel M} {m : M} (h : c.trySend m = .error .full) :
    c.hasRoom = false := by
  rw [trySend] at h
  cases room : c.hasRoom with
  | false => rfl
  | true =>
    cases hr : c.receiving <;> simp [hr, room] at h

theorem grant_some {c d : Channel M} (h : c.grant = some d) :
    c.receiving = true ∧ c.hasRoom = true ∧ d = { c with permits := c.permits + 1 } := by
  rw [grant] at h
  split at h
  · rename_i ok
    obtain ⟨receiving, room⟩ := (Bool.and_eq_true _ _).mp ok
    exact ⟨receiving, room, (Option.some.inj h).symm⟩
  · cases h

theorem recv_some {c d : Channel M} {m : M} (h : c.recv = some (some m, d)) :
    c.queue = m :: d.queue ∧ d = { c with queue := d.queue } := by
  rw [recv] at h
  cases hq : c.queue with
  | nil => cases hs : c.sending <;> simp [hq, hs] at h
  | cons n rest =>
    obtain ⟨rfl, rfl⟩ : n = m ∧ { c with queue := rest } = d := by simpa [hq] using h
    exact ⟨rfl, rfl⟩

theorem recv_none {c d : Channel M} (h : c.recv = some (none, d)) :
    c.queue = [] ∧ c.sending = false ∧ d = c := by
  rw [recv] at h
  cases hq : c.queue with
  | nil =>
    cases hs : c.sending with
    | true => simp [hq, hs] at h
    | false => exact ⟨rfl, rfl, by simpa [hq, hs] using h.symm⟩
  | cons n rest => simp [hq] at h

end Channel
end BoundedChannel
