import Mathlib.Data.List.TakeDrop
import StrongIpc.Wire

/-!
# Receiving

`wire.rs` from the receiving side: one `recvmsg` into a buffer for the payload and one
for the control messages. The kernel copies what fits of the payload, reports the
datagram's true length, puts the credentials before the descriptors, and installs the
longest prefix of these that fits the control buffer and the process's descriptor
table, setting `MSG_CTRUNC` when that is not all of them.
-/

namespace Receive

open Wire

/-! ## The control buffer -/

/-- `CMSG_ALIGN`, to the alignment of a `cmsghdr`. -/
def cmsgAlign (n : Nat) : Nat := (n + 7) / 8 * 8

/-- The aligned size of a `cmsghdr`. -/
def cmsgHeader : Nat := 16

/-- `CMSG_LEN`. -/
def cmsgLen (n : Nat) : Nat := cmsgHeader + n

/-- `CMSG_SPACE`. -/
def cmsgAlignedSpace (n : Nat) : Nat := cmsgHeader + cmsgAlign n

/-- `cmsg_space!` of one message, with the slack to align the buffer. -/
def cmsgSpace (n : Nat) : Nat := cmsgAlignedSpace (n + 8)

def fdSize : Nat := 4

def ucredSize : Nat := 12

def maxAncillaryBufferSize : Nat := cmsgSpace (maxFds * fdSize) + cmsgAlignedSpace ucredSize

/-- What is left of a buffer at this address once it is aligned. -/
def usable (address size : Nat) : Nat := size - (8 - address % 8) % 8

/-! ## `recvmsg` -/

structure UCred where
  pid : Nat
  uid : Nat
  gid : Nat
  deriving DecidableEq, Repr

/-- A datagram in flight, with the open files its descriptors name. -/
structure Datagram where
  payload : List UInt8
  fds : List Nat
  creds : Option UCred
  deriving DecidableEq, Repr

inductive ControlMessage where
  | rights (fds : List Nat)
  | credentials (c : UCred)
  deriving DecidableEq, Repr

/-- The credentials block, the room behind it, and whether it was cut. -/
def putCreds (room : Nat) : Option UCred → List ControlMessage × Nat × Bool
  | none => ([], room, false)
  | some c =>
    if cmsgLen ucredSize ≤ room then
      ([.credentials c], room - cmsgAlignedSpace ucredSize, false)
    else ([], 0, true)

/-- How many descriptors a rights block in this room can list. -/
def fdRoom (room : Nat) : Nat := (room - cmsgHeader) / fdSize

def installed (room slots : Nat) (fds : List Nat) : List Nat := fds.take (min (fdRoom room) slots)

/-- The control messages of a datagram, and `MSG_CTRUNC`. -/
def recvControl (room slots : Nat) (d : Datagram) : List ControlMessage × Bool :=
  let (creds, left, cut) := putCreds room d.creds
  let got := installed left slots d.fds
  (creds ++ if got.isEmpty then [] else [.rights got], cut || got.length < d.fds.length)

/-- The buffer after the payload was copied into it. -/
def overwrite (buf payload : List UInt8) : List UInt8 :=
  payload.take buf.length ++ buf.drop payload.length

/-! ## `recv_now` -/

structure Received where
  bytes : Nat
  fds : List Nat
  creds : Option UCred
  deriving DecidableEq, Repr

def Received.truncated (r : Received) (bufferLen : Nat) : Bool := bufferLen < r.bytes

/-- One turn of the loop over what was drained from the control buffer. -/
def Received.collect (r : Received) : ControlMessage → Received
  | .rights received => { r with fds := r.fds ++ received }
  | .credentials c => { r with creds := some c }

/-- `none` is the `debug_assert` failing; a release build has none. -/
def recvNow (debug : Bool) (buf : List UInt8) (address slots : Nat) (d : Datagram) :
    Option (List UInt8 × Received) :=
  let (control, ctrunc) := recvControl (usable address maxAncillaryBufferSize) slots d
  if debug && ctrunc then none
  else some (overwrite buf d.payload, control.foldl Received.collect ⟨d.payload.length, [], none⟩)

/-! ## What arrives -/

theorem usable_ge (address : Nat) : 1065 ≤ usable address maxAncillaryBufferSize := by
  have size : maxAncillaryBufferSize = 1072 := rfl
  have pad : (8 - address % 8) % 8 < 8 := Nat.mod_lt _ (by omega)
  simp only [usable, size]
  omega

/-- The room that the credentials leave. -/
def rightsRoom (address : Nat) (creds : Option UCred) : Nat :=
  (putCreds (usable address maxAncillaryBufferSize) creds).2.1

theorem putCreds_fit {room : Nat} (fits : cmsgLen ucredSize ≤ room) (creds : Option UCred) :
    putCreds room creds =
      (creds.toList.map .credentials, (putCreds room creds).2.1, false) := by
  cases creds with
  | none => rfl
  | some c => simp [putCreds, fits]

theorem creds_fit (address : Nat) :
    cmsgLen ucredSize ≤ usable address maxAncillaryBufferSize := by
  have room := usable_ge address
  have len : cmsgLen ucredSize = 28 := rfl
  omega

/-- The control buffer is never what cuts a list of descriptors that can be sent. -/
theorem fdRoom_ge (address : Nat) (creds : Option UCred) :
    maxFds ≤ fdRoom (rightsRoom address creds) := by
  have room := usable_ge address
  cases creds with
  | none =>
    simp only [rightsRoom, putCreds, fdRoom, cmsgHeader, fdSize, maxFds]
    omega
  | some c =>
    rw [rightsRoom, putCreds, if_pos (creds_fit address)]
    simp only [fdRoom, cmsgAlignedSpace, cmsgAlign, cmsgHeader, ucredSize, fdSize, maxFds]
    omega

/-- The descriptors that `recvmsg` installs, of a datagram read into the buffers of the
receive loop. -/
def Datagram.arriving (d : Datagram) (address slots : Nat) : List Nat :=
  installed (rightsRoom address d.creds) slots d.fds

theorem arriving_eq_iff {d : Datagram} {address slots : Nat} :
    d.arriving address slots = d.fds ↔
      d.fds.length ≤ slots ∧ d.fds.length ≤ fdRoom (rightsRoom address d.creds) := by
  rw [Datagram.arriving, installed, List.take_eq_self_iff]
  constructor
  · intro fits
    omega
  · rintro ⟨fits, fits'⟩
    omega

theorem recvControl_eq (address slots : Nat) (d : Datagram) :
    recvControl (usable address maxAncillaryBufferSize) slots d =
      (d.creds.toList.map .credentials ++
          (if (d.arriving address slots).isEmpty then [] else [.rights (d.arriving address slots)]),
        decide ((d.arriving address slots).length < d.fds.length)) := by
  rw [recvControl, putCreds_fit (creds_fit address) d.creds]
  rfl

/-- Everything that arrived is passed on, in a release build whether complete or not. -/
theorem recvNow_eq {debug : Bool} {address slots : Nat} {d : Datagram}
    (quiet : debug = true → d.arriving address slots = d.fds) (buf : List UInt8) :
    recvNow debug buf address slots d =
      some (overwrite buf d.payload, ⟨d.payload.length, d.arriving address slots, d.creds⟩) := by
  have passes : (debug && decide ((d.arriving address slots).length < d.fds.length)) = false := by
    cases debug with
    | false => rfl
    | true => simp [quiet rfl]
  rw [recvNow, recvControl_eq]
  simp only [passes, Bool.false_eq_true, if_false, Option.some.injEq, Prod.mk.injEq, true_and]
  cases hc : d.creds <;> cases ha : d.arriving address slots <;> rfl

theorem overwrite_length (buf payload : List UInt8) :
    (overwrite buf payload).length = buf.length := by
  simp only [overwrite, List.length_append, List.length_take, List.length_drop]
  omega

/-- A payload that fits is at the front of the buffer. -/
theorem overwrite_take {buf payload : List UInt8} (fits : payload.length ≤ buf.length) :
    (overwrite buf payload).take payload.length = payload := by
  rw [overwrite, List.take_of_length_le fits]
  exact List.take_left

end Receive
