import StrongIpc.RecvLoop

/-!
# A message through the wire layer

`send_now` packs the descriptors of a message into a control buffer, and `recv_now`
takes them out of another. The stack buffer, the heap buffer and the one of the receive
loop have their sizes from three formulas, and each may start at any address. None of
them is ever too small for what is put into it.
-/

namespace RoundTrip

open Wire Receive

/-! ## `send_now` -/

def expectedFds : Nat := 8

def expectedAncillaryBufferSize : Nat :=
  cmsgSpace (expectedFds * fdSize) + cmsgAlignedSpace ucredSize

/-- What a control message takes of a buffer. -/
def spaceOf : ControlMessage → Nat
  | .rights fds => cmsgAlignedSpace (fds.length * fdSize)
  | .credentials _ => cmsgAlignedSpace ucredSize

def taken : List ControlMessage → Nat
  | [] => 0
  | c :: rest => spaceOf c + taken rest

theorem taken_snoc (messages : List ControlMessage) (c : ControlMessage) :
    taken (messages ++ [c]) = taken messages + spaceOf c := by
  induction messages with
  | nil => simp [taken]
  | cons first rest ih =>
    simp only [List.cons_append, taken, ih]
    omega

/-- `room` is the aligned part of the bytes that the buffer was made from. -/
structure SendAncillaryBuffer where
  room : Nat
  messages : List ControlMessage
  fits : taken messages ≤ room

def SendAncillaryBuffer.new (address size : Nat) : SendAncillaryBuffer where
  room := usable address size
  messages := []
  fits := Nat.zero_le _

/-- `none` is `false`. -/
def SendAncillaryBuffer.push (b : SendAncillaryBuffer) (c : ControlMessage) :
    Option SendAncillaryBuffer :=
  if enough : taken b.messages + spaceOf c ≤ b.room then
    some
      { room := b.room
        messages := b.messages ++ [c]
        fits := by
          rw [taken_snoc]
          exact enough }
  else none

/-- The error that `send_now` makes itself. -/
inductive SendError where
  | invalidInput (text : String)
  deriving DecidableEq, Repr

/-- What `sendmsg` is asked to send. -/
structure Outgoing where
  iov : List UInt8
  control : List ControlMessage
  deriving DecidableEq, Repr

/-- Up to `EXPECTED_FDS` descriptors go into the buffer on the stack. -/
def sendBuffer (stack heap n : Nat) : SendAncillaryBuffer :=
  if n ≤ expectedFds then .new stack expectedAncillaryBufferSize
  else .new heap (cmsgSpace (n * fdSize))

/-- `send_now` up to its `sendmsg`, with its buffers at these addresses. A descriptor is
named by the open file that it leads to, which is what travels. -/
def sendNow (stack heap : Nat) (asFd : SendFd → Nat) (message : Message) :
    Except SendError Outgoing :=
  if message.fds.isEmpty then .ok ⟨message.data, []⟩
  else
    let borrowed := message.fds.map asFd
    match (sendBuffer stack heap borrowed.length).push (.rights borrowed) with
    | none =>
      .error (.invalidInput s!"could not fit {borrowed.length} descriptors in the control buffer")
    | some control => .ok ⟨message.data, control.messages⟩

/-! ## `sendmsg` -/

def rightsOf : ControlMessage → List Nat
  | .rights fds => fds
  | .credentials _ => []

/-- The datagram that is queued, stamped with the credentials if the receiver asked for
them; `none` is `EINVAL`. -/
def Outgoing.datagram (o : Outgoing) (creds : Option UCred) : Option Datagram :=
  let fds := o.control.flatMap rightsOf
  if fds.length ≤ maxFds then some ⟨o.iov, fds, creds⟩ else none

/-! ## The send buffers -/

/-- `cmsg_space!` leaves the length of one alignment over. -/
theorem cmsgSpace_eq (n : Nat) : cmsgSpace n = cmsgAlignedSpace n + 8 := by
  simp only [cmsgSpace, cmsgAlignedSpace, cmsgAlign]
  omega

/-- To align a buffer takes less than that. -/
theorem usable_ge_sub (address size : Nat) : size < usable address size + 8 := by
  have pad : (8 - address % 8) % 8 < 8 := Nat.mod_lt _ (by omega)
  rw [usable]
  omega

theorem cmsgAlignedSpace_mono {n m : Nat} (le : n ≤ m) :
    cmsgAlignedSpace n ≤ cmsgAlignedSpace m := by
  simp only [cmsgAlignedSpace, cmsgAlign]
  omega

/-- A buffer of the size that `cmsg_space!` gives has room for the message, wherever it
starts. -/
theorem cmsgSpace_fits {n size : Nat} (address : Nat) (sized : cmsgSpace n ≤ size) :
    cmsgAlignedSpace n ≤ usable address size := by
  have slack := usable_ge_sub address size
  rw [cmsgSpace_eq] at sized
  omega

/-- The stack buffer has room for as many descriptors as it is used for. -/
theorem stack_fits {n : Nat} (few : n ≤ expectedFds) (address : Nat) :
    cmsgAlignedSpace (n * fdSize) ≤ usable address expectedAncillaryBufferSize := by
  calc cmsgAlignedSpace (n * fdSize)
      ≤ cmsgAlignedSpace (expectedFds * fdSize) :=
        cmsgAlignedSpace_mono (Nat.mul_le_mul_right fdSize few)
    _ ≤ usable address expectedAncillaryBufferSize :=
        cmsgSpace_fits address (Nat.le_add_right _ _)

theorem push_new {address size : Nat} {c : ControlMessage}
    (enough : spaceOf c ≤ usable address size) :
    ∃ b, (SendAncillaryBuffer.new address size).push c = some b ∧ b.messages = [c] := by
  have enough' : taken (SendAncillaryBuffer.new address size).messages + spaceOf c ≤
      (SendAncillaryBuffer.new address size).room := by
    simpa [taken, SendAncillaryBuffer.new] using enough
  exact ⟨_, dif_pos enough', rfl⟩

/-- On either side of `EXPECTED_FDS` the buffer takes the descriptors that it is for. -/
theorem sendBuffer_push (stack heap : Nat) (fds : List Nat) :
    ∃ b, (sendBuffer stack heap fds.length).push (.rights fds) = some b ∧
      b.messages = [.rights fds] := by
  rw [sendBuffer]
  split
  · rename_i few
    exact push_new (stack_fits few stack)
  · exact push_new (cmsgSpace_fits heap (Nat.le_refl _))

/-- The rights block, if there is one. -/
def control (fds : List Nat) : List ControlMessage := if fds.isEmpty then [] else [.rights fds]

/-- The branch that could not fit the descriptors is never taken. -/
theorem sendNow_eq (stack heap : Nat) (asFd : SendFd → Nat) (m : Message) :
    sendNow stack heap asFd m = .ok ⟨m.data, control (m.fds.map asFd)⟩ := by
  rw [sendNow, control, List.isEmpty_map]
  split
  · rfl
  · obtain ⟨b, pushed, messages⟩ := sendBuffer_push stack heap (m.fds.map asFd)
    simp only [pushed, messages]

/-! ## From one side to the other -/

theorem flatMap_control (fds : List Nat) : (control fds).flatMap rightsOf = fds := by
  cases fds with
  | nil => rfl
  | cons fd fds => simp [control, rightsOf]

/-- The kernel refuses what the abstract socket refuses, and queues the rest as it is. -/
theorem datagram_eq (m : Message) (asFd : SendFd → Nat) (creds : Option UCred) :
    Outgoing.datagram ⟨m.data, control (m.fds.map asFd)⟩ creds =
      if m.fds.length ≤ maxFds then some ⟨m.data, m.fds.map asFd, creds⟩ else none := by
  simp only [Outgoing.datagram, flatMap_control, List.length_map]

theorem datagram_none_iff (k : Socket) (m : Message) (asFd : SendFd → Nat)
    (creds : Option UCred) :
    Outgoing.datagram ⟨m.data, control (m.fds.map asFd)⟩ creds = none ↔
      k.mayAnswer m .invalidInput = true := by
  rw [datagram_eq, Socket.mayAnswer, decide_eq_true_iff]
  split
  · rename_i few
    simp [few]
  · rename_i many
    simp only [Nat.not_le.mp many]

/-- What `recv_now` returned, and what it left in the buffer, is the message. -/
structure Intact (asFd : SendFd → Nat) (m : Message) (creds : Option UCred) (buf : List UInt8)
    (r : Received) : Prop where
  bytes : r.bytes = m.data.length
  payload : buf.take r.bytes = m.data
  fds : r.fds = m.fds.map asFd
  creds : r.creds = creds
  whole : r.truncated buf.length = false

/-- With a slot for each of them all the descriptors arrive. -/
theorem arriving_all (asFd : SendFd → Nat) {m : Message} (few : m.fds.length ≤ maxFds)
    (creds : Option UCred) (address : Nat) {slots : Nat} (room : m.fds.length ≤ slots) :
    Datagram.arriving ⟨m.data, m.fds.map asFd, creds⟩ address slots = m.fds.map asFd := by
  rw [arriving_eq_iff]
  simp only [List.length_map]
  exact ⟨room, Nat.le_trans few (fdRoom_ge address creds)⟩

theorem recvNow_intact {asFd : SendFd → Nat} {m : Message} (few : m.fds.length ≤ maxFds)
    (small : m.data.length ≤ maxMessageSize) (creds : Option UCred) (debug : Bool)
    {buf : List UInt8} (full : buf.length = maxMessageSize) (address : Nat) {slots : Nat}
    (room : m.fds.length ≤ slots) :
    (recvControl (usable address maxAncillaryBufferSize) slots
        ⟨m.data, m.fds.map asFd, creds⟩).2 = false ∧
      ∃ buf' r, recvNow debug buf address slots ⟨m.data, m.fds.map asFd, creds⟩ = some (buf', r) ∧
        Intact asFd m creds buf' r := by
  have all := arriving_all asFd few creds address room
  constructor
  · rw [recvControl_eq, all]
    simp
  · refine ⟨_, _, recvNow_eq (fun _ => all) buf, ?_⟩
    rw [all]
    exact
      { bytes := rfl
        payload := overwrite_take (full ▸ small)
        fds := rfl
        creds := rfl
        whole := by
          rw [Received.truncated, overwrite_length, full]
          exact decide_eq_false (Nat.not_lt.mpr small) }

/-- Every message can be handed to the kernel, without a control message if it has no
descriptors. With no more than one block can carry it is queued, and a receive loop whose
process has slots for them receives the whole of it. -/
theorem round_trip (asFd : SendFd → Nat) (m : Message) (stack heap : Nat) :
    ∃ o, sendNow stack heap asFd m = .ok o ∧ (m.fds = [] → o.control = []) ∧
      (m.fds.length ≤ maxFds → m.data.length ≤ maxMessageSize → ∀ creds,
        ∃ d, o.datagram creds = some d ∧ ∀ debug buf address slots,
          buf.length = maxMessageSize → m.fds.length ≤ slots →
            (recvControl (usable address maxAncillaryBufferSize) slots d).2 = false ∧
              ∃ buf' r, recvNow debug buf address slots d = some (buf', r) ∧
                Intact asFd m creds buf' r) := by
  refine ⟨_, sendNow_eq stack heap asFd m, ?_, ?_⟩
  · intro nothing
    rw [nothing]
    rfl
  · intro few small creds
    refine ⟨_, (datagram_eq m asFd creds).trans (if_pos few), ?_⟩
    intro debug buf address slots full room
    exact recvNow_intact few small creds debug full address room

/-- Nine descriptors, one more than the stack buffer is for, at addresses that nothing is
aligned to. -/
theorem round_trip_nine :
    let m : Message := ⟨[1, 2, 3], (List.range 9).map SendFd.owned⟩
    let asFd : SendFd → Nat := fun _ => 5
    ∃ o d buf' r, sendNow 3 7 asFd m = .ok o ∧ o.datagram (some ⟨1, 2, 3⟩) = some d ∧
      recvNow true (List.replicate maxMessageSize 0) 5 9 d = some (buf', r) ∧
      Intact asFd m (some ⟨1, 2, 3⟩) buf' r := by
  intro m asFd
  obtain ⟨o, packed, _, queued⟩ := round_trip asFd m 3 7
  obtain ⟨d, datagram, received⟩ := queued (by decide) (by decide) (some ⟨1, 2, 3⟩)
  obtain ⟨_, buf', r, got, intact⟩ :=
    received true (List.replicate maxMessageSize 0) 5 9 List.length_replicate (by decide)
  exact ⟨o, d, buf', r, packed, datagram, got, intact⟩

/-! ## One after the other -/

/-- A message, where the sender's buffers are, its stamp, and the free slots when it is
received. -/
structure Passage where
  message : Message
  stack : Nat
  heap : Nat
  creds : Option UCred
  slots : Nat

variable (asFd : SendFd → Nat)

/-- It was packed, queued and is there for the loop to receive. -/
def Passage.Arrives (p : Passage) (e : Event) : Prop :=
  ∃ o d, sendNow p.stack p.heap asFd p.message = .ok o ∧ o.datagram p.creds = some d ∧
    e = .datagram d p.slots

/-- What arrives of it. -/
def Passage.event (p : Passage) : Event :=
  .datagram ⟨p.message.data, p.message.fds.map asFd, p.creds⟩ p.slots

def Passage.call (p : Passage) : Call := ⟨p.message.data, p.message.fds.map asFd, p.creds⟩

/-- An empty message would end the loop. -/
structure Passage.Fits (p : Passage) : Prop where
  some_bytes : 0 < p.message.data.length
  small : p.message.data.length ≤ maxMessageSize
  few : p.message.fds.length ≤ maxFds
  room : p.message.fds.length ≤ p.slots

theorem arrives_iff {p : Passage} (fits : p.Fits) (e : Event) :
    p.Arrives asFd e ↔ e = p.event asFd := by
  have queued := (datagram_eq p.message asFd p.creds).trans (if_pos fits.few)
  constructor
  · rintro ⟨o, d, packed, datagram, rfl⟩
    rw [sendNow_eq] at packed
    cases packed
    obtain rfl := Option.some.inj (datagram.symm.trans queued)
    rfl
  · rintro rfl
    exact ⟨_, _, sendNow_eq p.stack p.heap asFd p.message, queued, rfl⟩

theorem arrives_all {passages : List Passage} (fits : ∀ p ∈ passages, p.Fits)
    (events : List Event) : List.Forall₂ (Passage.Arrives asFd) passages events ↔
      events = passages.map fun p => p.event asFd := by
  induction passages generalizing events with
  | nil =>
    constructor
    · intro arrived
      cases arrived
      rfl
    · rintro rfl
      exact .nil
  | cons p rest ih =>
    have first := arrives_iff asFd (fits p List.mem_cons_self)
    have later := ih fun p there => fits p (List.mem_cons_of_mem _ there)
    constructor
    · intro arrived
      cases arrived with
      | cons head tail =>
        obtain rfl := (first _).mp head
        obtain rfl := (later _).mp tail
        rfl
    · rintro rfl
      exact .cons ((first _).mpr rfl) ((later _).mpr rfl)

theorem event_call {p : Passage} (fits : p.Fits) (address : Nat) :
    (p.event asFd).call address = some (p.call asFd) := by
  have inside : Datagram.fits ⟨p.message.data, p.message.fds.map asFd, p.creds⟩ = true :=
    fits_iff.mpr ⟨fits.some_bytes, fits.small⟩
  rw [Passage.event, Event.call, inside, if_pos rfl, arriving_all asFd fits.few _ address fits.room]
  rfl

theorem event_goes_on {p : Passage} (fits : p.Fits) : (p.event asFd).ends = false := by
  simp only [Passage.event, Event.ends, List.isEmpty_eq_false_iff]
  exact List.length_pos_iff.mp fits.some_bytes

/-- Every message can be packed and queued, whatever its buffers are aligned to. The handler is
called with all that arrives, in order, and the loop waits for more. -/
theorem loop_delivers (debug : Bool) (h : Handler) (address : Nat) {passages : List Passage}
    (fits : ∀ p ∈ passages, p.Fits) :
    (∃ events, List.Forall₂ (Passage.Arrives asFd) passages events) ∧
      ∀ events, List.Forall₂ (Passage.Arrives asFd) passages events →
        (recvLoop debug h address start events).1.calls = passages.map (fun p => p.call asFd) ∧
          (recvLoop debug h address start events).2 = .parked := by
  refine ⟨⟨_, (arrives_all asFd fits _).mpr rfl⟩, fun events arrived => ?_⟩
  obtain rfl := (arrives_all asFd fits events).mp arrived
  have going : ∀ e ∈ passages.map (fun p => p.event asFd), (!e.ends) = true := by
    intro e inside
    obtain ⟨p, there, rfl⟩ := List.mem_map.mp inside
    rw [event_goes_on asFd (fits p there)]
    rfl
  have quiet : Quiet debug address (passages.map fun p => p.event asFd) := by
    intro _ d slots inside
    obtain ⟨p, there, same⟩ := List.mem_map.mp inside
    cases same
    exact arriving_all asFd (fits p there).few _ address (fits p there).room
  have all : before (passages.map fun p => p.event asFd) = passages.map fun p => p.event asFd :=
    List.takeWhile_eq_self_iff.mpr going
  have none : last (passages.map fun p => p.event asFd) = [] := by
    rw [last, List.dropWhile_eq_nil_iff.mpr going]
    rfl
  obtain ⟨calls, _, ending⟩ := recvLoop_spec h start_full quiet
  constructor
  · have each : ∀ p ∈ passages, ((Event.call address) ∘ fun p => p.event asFd) p =
        (some ∘ fun p => p.call asFd) p :=
      fun p there => event_call asFd (fits p there) address
    rw [calls, all, List.filterMap_map, List.filterMap_congr each, List.filterMap_eq_map]
    rfl
  · rw [ending, none]
    rfl

/-- Two messages in a row, the second with more descriptors than there are in the stack
buffer of a sender, to a handler that wipes what it was handed. -/
theorem loop_delivers_pair :
    let asFd : SendFd → Nat := fun _ => 5
    let passages : List Passage := [⟨⟨[1, 2, 3], []⟩, 0, 0, none, 0⟩,
      ⟨⟨[4], (List.range 9).map SendFd.owned⟩, 3, 7, some ⟨1, 2, 3⟩, 9⟩]
    let wipes : Handler := ⟨fun _ data => data.map fun _ => 0, by simp⟩
    ∃ events, List.Forall₂ (Passage.Arrives asFd) passages events ∧
      (recvLoop true wipes 3 start events).1.calls = passages.map (fun p => p.call asFd) ∧
        (recvLoop true wipes 3 start events).2 = .parked := by
  intro asFd passages wipes
  have fits : ∀ p ∈ passages, p.Fits := by
    intro p there
    obtain rfl | rfl : p = passages[0] ∨ p = passages[1] := by simpa [passages] using there
    · exact ⟨by decide, by decide, by decide, by decide⟩
    · exact ⟨by decide, by decide, by decide, by decide⟩
  obtain ⟨⟨events, arrived⟩, delivered⟩ := loop_delivers asFd true wipes 3 fits
  exact ⟨events, arrived, delivered events arrived⟩

end RoundTrip
