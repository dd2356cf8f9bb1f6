/-!
# Messages and the socket they are sent on

A message is a payload and the descriptors attached to it (`message.rs`). The
socket keeps what was appended to it for good, so that "on the wire" means sent
at some time, not still unread. Which answers one `sendmsg` may give is the
kernel's side of `wire.rs`: all or nothing, in the order of the calls.
-/

namespace Wire

/-- The kernel's `SCM_MAX_FD`. -/
def maxFds : Nat := 253

def maxMessageSize : Nat := 8192

/-- What `SendFd` keeps alive. A `Ref` is named by its `RefInner`; `foreign` is a
`Ref` to some other socket than the one under consideration. -/
inductive SendFd where
  | owned (fd : Nat)
  | ref (inner : Nat)
  | foreign (inner : Nat)
  deriving DecidableEq, Repr

structure Message where
  data : List UInt8
  fds : List SendFd
  deriving DecidableEq, Repr

/-- The `Ref`s to this socket that ride on the message, by `RefInner`. -/
def Message.refs (m : Message) : List Nat :=
  m.fds.filterMap fun
    | .ref inner => some inner
    | .owned _ => none
    | .foreign _ => none

/-- A message together with the call that sends it: through which `RefInner`, and
which of the calls made through that one. The tag is for stating what happens to
a message; no code reads it. -/
structure Sent where
  inner : Nat
  call : Nat
  message : Message
  deriving DecidableEq, Repr

def Sent.tag (p : Sent) : Nat × Nat := (p.inner, p.call)

structure Socket where
  room : Bool
  peerOpen : Bool
  wire : List Sent
  deriving DecidableEq, Repr

/-- `io::Result<()>` of one `sendmsg`, errors by kind: `brokenPipe` for every
peer-gone error, `other` for the rest (`ETOOMANYREFS`, `ENOBUFS`, a reactor that
failed while waiting for room). -/
inductive SendResult where
  | ok
  | wouldBlock
  | brokenPipe
  | invalidInput
  | other
  deriving DecidableEq, Repr

/-- May the kernel give this answer to `sendmsg` of `m` now? More descriptors than
one `SCM_RIGHTS` block carries are refused before anything else is looked at. -/
def Socket.mayAnswer (k : Socket) (m : Message) : SendResult → Bool
  | .ok => k.peerOpen && k.room && m.fds.length ≤ maxFds
  | .wouldBlock => k.peerOpen && !k.room && m.fds.length ≤ maxFds
  | .brokenPipe => !k.peerOpen
  | .invalidInput => maxFds < m.fds.length
  | .other => true

/-- `wire::send_now` under the kernel's answer. -/
def Socket.sendNow (k : Socket) (p : Sent) (r : SendResult) : Option Socket :=
  if k.mayAnswer p.message r then
    some (if r = .ok then { k with wire := k.wire ++ [p] } else k)
  else none

theorem sendNow_cases {k k' : Socket} {p : Sent} {r : SendResult}
    (h : k.sendNow p r = some k') :
    k.mayAnswer p.message r = true ∧
      ((r = .ok ∧ k' = { k with wire := k.wire ++ [p] }) ∨ (r ≠ .ok ∧ k' = k)) := by
  rw [Socket.sendNow] at h
  split at h
  · rename_i allowed
    constructor
    · exact allowed
    · by_cases sent : r = .ok
      · exact Or.inl ⟨sent, by simpa [sent] using h.symm⟩
      · exact Or.inr ⟨sent, by simpa [sent] using h.symm⟩
  · cases h

end Wire
