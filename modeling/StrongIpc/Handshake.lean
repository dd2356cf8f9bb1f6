import StrongIpc.RoundTrip

/-!
# The handshake

`Ref::connect` against whatever listens at the path. It reads one message, into no buffer at
all for the payload and into one for the control messages that is sized for a single
descriptor, takes the first descriptor that arrives and closes the others. The accept loop
of a `RefFsBinding` sends an empty message with one `Ref` on it.
-/

namespace Handshake

open Wire Receive RoundTrip

/-! ## `recv_now` into any buffers -/

/-- An error is the `debug_assert` failing, with the descriptors that are dropped on the way
out of the panic. -/
def recvInto (debug : Bool) (buf : List UInt8) (address size slots : Nat) (d : Datagram) :
    Except (List Nat) (List UInt8 × Received) :=
  let (drained, ctrunc) := recvControl (usable address size) slots d
  let received := drained.foldl Received.collect ⟨d.payload.length, [], none⟩
  if debug && ctrunc then .error received.fds else .ok (overwrite buf d.payload, received)

/-- With the buffers of the receive loop it is what that loop calls. -/
theorem recvInto_loop (debug : Bool) (buf : List UInt8) (address slots : Nat) (d : Datagram) :
    (recvInto debug buf address maxAncillaryBufferSize slots d).toOption =
      recvNow debug buf address slots d := by
  simp only [recvInto, recvNow]
  split <;> rfl

/-- The descriptors that the kernel installs from a control buffer of this size. -/
def arrivingIn (address size slots : Nat) (d : Datagram) : List Nat :=
  installed (putCreds (usable address size) d.creds).2.1 slots d.fds

/-- `MSG_CTRUNC`. -/
def cutIn (address size slots : Nat) (d : Datagram) : Bool :=
  (putCreds (usable address size) d.creds).2.2 ||
    (arrivingIn address size slots d).length < d.fds.length

/-- What is drained from the control buffer adds up to what was installed. -/
theorem drained_fds (address size slots : Nat) (d : Datagram) (bytes : Nat) :
    ((recvControl (usable address size) slots d).1.foldl Received.collect ⟨bytes, [], none⟩).fds =
      arrivingIn address size slots d := by
  have rights : ∀ (r : Received) (got : List Nat), r.fds = [] →
      ((if got.isEmpty then [] else [ControlMessage.rights got]).foldl Received.collect r).fds =
        got := by
    intro r got none_yet
    cases got with
    | nil => exact none_yet
    | cons fd more => simp [Received.collect, none_yet]
  simp only [recvControl, List.foldl_append]
  refine rights _ _ ?_
  cases d.creds with
  | none => rfl
  | some c =>
    rw [putCreds]
    split <;> rfl

theorem recvInto_eq (debug : Bool) (buf : List UInt8) (address size slots : Nat) (d : Datagram) :
    ∃ r, r.fds = arrivingIn address size slots d ∧
      recvInto debug buf address size slots d =
        if debug && cutIn address size slots d then .error r.fds
        else .ok (overwrite buf d.payload, r) :=
  ⟨_, drained_fds address size slots d d.payload.length, rfl⟩

/-! ## `Ref::connect` -/

/-- `cmsg_space!(ScmRights(1))`. -/
def connectBufferSize : Nat := cmsgSpace fdSize

/-- What `wire::connect` and `Reactive::new` may fail at. -/
inductive Refused where
  | address
  | socket
  | connect
  | register
  deriving DecidableEq, Repr

inductive ConnectError where
  | refused (r : Refused)
  | recv
  | unexpectedEof (text : String)
  deriving DecidableEq, Repr

inductive Outcome where
  | waiting
  | panicked
  | failed (e : ConnectError)
  | returned (fd : Nat)
  deriving DecidableEq, Repr

/-- `closed` are the descriptors that it received and dropped, `unread` is what nobody asked
its socket for. -/
structure Connecting where
  outcome : Outcome
  closed : List Nat
  unread : List Event
  deriving DecidableEq, Repr

/-- `.fds.into_iter().next().ok_or(..)`. -/
def takeFirst (fds : List Nat) (rest : List Event) : Connecting :=
  match fds with
  | [] => ⟨.failed (.unexpectedEof "Failed to read Ref fd"), [], rest⟩
  | fd :: more => ⟨.returned fd, more, rest⟩

/-- `fd.recv(&mut [], &mut ancillary).await?` and the rest of `connect`, over what the socket
answers. -/
def receive (debug : Bool) (address : Nat) : List Event → Connecting
  | [] => ⟨.waiting, [], []⟩
  | .wouldBlock :: rest => receive debug address rest
  | .failed :: rest => ⟨.failed .recv, [], rest⟩
  | .hangup :: rest => takeFirst [] rest
  | .datagram d slots :: rest =>
    match recvInto debug [] address connectBufferSize slots d with
    | .error dropped => ⟨.panicked, dropped, rest⟩
    | .ok (_, received) => takeFirst received.fds rest

/-- `Ref::connect` up to `from_fd`. -/
def connect (debug : Bool) (address : Nat) (refused : Option Refused) (events : List Event) :
    Connecting :=
  match refused with
  | some r => ⟨.failed (.refused r), [], events⟩
  | none => receive debug address events

/-! ## The control buffer -/

/-- Alone, a list of two descriptors fits wherever the buffer starts, and one of five never
does. -/
theorem connect_room (address : Nat) :
    2 ≤ fdRoom (usable address connectBufferSize) ∧
      fdRoom (usable address connectBufferSize) ≤ 4 := by
  have size : connectBufferSize = 32 := rfl
  have pad : (8 - address % 8) % 8 < 8 := Nat.mod_lt _ (by omega)
  simp only [usable, size, fdRoom, cmsgHeader, fdSize]
  omega

theorem fdRoom_zero : fdRoom 0 = 0 := by
  simp [fdRoom, cmsgHeader]

/-- Next to the sender's credentials there is room for none. -/
theorem stamped_room (address : Nat) (c : UCred) :
    fdRoom (putCreds (usable address connectBufferSize) (some c)).2.1 = 0 := by
  have size : connectBufferSize = 32 := rfl
  have space : cmsgAlignedSpace ucredSize = 32 := rfl
  rw [putCreds]
  split
  · have small : usable address connectBufferSize ≤ 32 := by
      simp only [usable, size]
      omega
    rw [space, Nat.sub_eq_zero_of_le small]
    exact fdRoom_zero
  · exact fdRoom_zero

/-- The descriptors that reach `Ref::connect`. -/
def reaching (address slots : Nat) (d : Datagram) : List Nat :=
  arrivingIn address connectBufferSize slots d

/-- Nothing is missing of those that were sent. -/
def Whole (address slots : Nat) (d : Datagram) : Prop :=
  d.fds.length ≤ slots ∧ d.fds.length ≤ fdRoom (usable address connectBufferSize)

theorem reaching_stamped {d : Datagram} {c : UCred} (stamped : d.creds = some c)
    (address slots : Nat) : reaching address slots d = [] := by
  rw [reaching, arrivingIn, stamped, installed, stamped_room address c, Nat.zero_min,
    List.take_zero]

theorem reaching_plain {d : Datagram} (plain : d.creds = none) (address slots : Nat) :
    reaching address slots d =
      d.fds.take (min (fdRoom (usable address connectBufferSize)) slots) := by
  rw [reaching, arrivingIn, plain, putCreds, installed]

theorem cut_plain {d : Datagram} (plain : d.creds = none) (address slots : Nat) :
    cutIn address connectBufferSize slots d = false ↔ Whole address slots d := by
  have arrived := reaching_plain plain address slots
  rw [reaching] at arrived
  rw [cutIn, arrived, plain, putCreds, Bool.false_or, decide_eq_false_iff_not, List.length_take,
    Whole]
  omega

/-- The first descriptor gets through if there is a slot for it. -/
theorem reaching_head {d : Datagram} (plain : d.creds = none) {address slots fd : Nat} :
    (reaching address slots d).head? = some fd ↔ d.fds.head? = some fd ∧ 0 < slots := by
  have room := (connect_room address).1
  rw [reaching_plain plain]
  cases slots with
  | zero => simp
  | succ n =>
    have some_room : min (fdRoom (usable address connectBufferSize)) (n + 1) ≠ 0 := by omega
    rw [List.head?_take, if_neg some_room]
    simp

/-! ## Whatever listens -/

/-- What the socket has to say first. -/
def heard (events : List Event) : List Event := events.dropWhile fun e => e = .wouldBlock

/-- The descriptors that come with it. -/
def Outcome.fds : Outcome → List Nat
  | .returned fd => [fd]
  | _ => []

/-- The descriptors of it that the kernel installs. -/
def brought (address : Nat) : Option Event → List Nat
  | some (.datagram d slots) => reaching address slots d
  | _ => []

theorem receive_heard (debug : Bool) (address : Nat) (events : List Event) :
    receive debug address events = receive debug address (heard events) := by
  induction events with
  | nil => rfl
  | cons e rest ih =>
    cases e with
    | wouldBlock => exact ih
    | _ => rfl

theorem heard_waits (waits : Nat) {e : Event} (later : List Event) (something : e ≠ .wouldBlock) :
    heard (List.replicate waits .wouldBlock ++ e :: later) = e :: later := by
  induction waits with
  | zero => simp [heard, something]
  | succ n ih => exact ih

theorem takeFirst_spec (fds : List Nat) (rest : List Event) :
    (takeFirst fds rest).unread = rest ∧
      (takeFirst fds rest).outcome.fds ++ (takeFirst fds rest).closed = fds ∧
      ∀ fd, (takeFirst fds rest).outcome = .returned fd ↔ fds.head? = some fd := by
  cases fds with
  | nil => exact ⟨rfl, rfl, by simp [takeFirst]⟩
  | cons fd more => exact ⟨rfl, rfl, by simp [takeFirst]⟩

/-- One message, and what becomes of its descriptors. -/
theorem receive_datagram (debug : Bool) (address slots : Nat) (d : Datagram)
    (rest : List Event) :
    (receive debug address (.datagram d slots :: rest)).unread = rest ∧
      (receive debug address (.datagram d slots :: rest)).outcome.fds ++
          (receive debug address (.datagram d slots :: rest)).closed = reaching address slots d ∧
      ∀ fd, (receive debug address (.datagram d slots :: rest)).outcome = .returned fd ↔
        (reaching address slots d).head? = some fd ∧
          (debug = true → cutIn address connectBufferSize slots d = false) := by
  obtain ⟨r, fds, got⟩ := recvInto_eq debug [] address connectBufferSize slots d
  rw [receive, got]
  cases failed : debug && cutIn address connectBufferSize slots d with
  | true =>
    obtain ⟨on, cut⟩ := Bool.and_eq_true_iff.mp failed
    exact ⟨rfl, fds, by simp [on, cut]⟩
  | false =>
    have quiet : debug = true → cutIn address connectBufferSize slots d = false := by
      intro on
      simpa [on] using failed
    obtain ⟨unread, all, first⟩ := takeFirst_spec r.fds rest
    refine ⟨unread, all.trans fds, fun fd => (first fd).trans ?_⟩
    rw [fds, ← reaching]
    exact (and_iff_left quiet).symm

/-- Whatever listens at the path, `connect` reads one message and no more. It returns the
first descriptor that was sent with it, of which the process must have had a slot for one and
the sender's credentials must not have taken the room; in a debug build nothing else that was
sent may be missing. What else arrived is closed. -/
theorem connect_takes_one (debug : Bool) (address : Nat) (events : List Event) :
    (connect debug address none events).unread = (heard events).tail ∧
      (connect debug address none events).outcome.fds ++
          (connect debug address none events).closed = brought address (heard events).head? ∧
      ∀ fd, (connect debug address none events).outcome = .returned fd ↔
        ∃ d slots, (heard events).head? = some (.datagram d slots) ∧ d.creds = none ∧
          d.fds.head? = some fd ∧ 0 < slots ∧ (debug = true → Whole address slots d) := by
  simp only [connect]
  rw [receive_heard]
  cases first : heard events with
  | nil => simp [receive, Outcome.fds, brought]
  | cons e rest =>
    cases e with
    | wouldBlock =>
      have skipped := List.head?_dropWhile_not (fun e : Event => decide (e = .wouldBlock)) events
      rw [show events.dropWhile _ = _ from first] at skipped
      simp at skipped
    | failed => simp [receive, Outcome.fds, brought]
    | hangup => simp [receive, takeFirst, Outcome.fds, brought]
    | datagram d slots =>
      obtain ⟨unread, all, returns⟩ := receive_datagram debug address slots d rest
      refine ⟨unread, all, fun fd => (returns fd).trans ?_⟩
      cases stamp : d.creds with
      | some c =>
        rw [reaching_stamped stamp]
        simp [stamp]
      | none =>
        rw [reaching_head stamp, cut_plain stamp]
        simp [stamp, and_assoc]

/-! ## The accept loop of a binding -/

/-- `Message::from_data(vec![])` with `node_ref` on it. -/
def greeting (nodeRef : Nat) : Message := ⟨[], [.ref nodeRef]⟩

/-- Wherever the three buffers start, what the accept loop of a binding sends is what
`connect` is waiting for. Without a free slot the capability is lost on the way. -/
theorem handshake_completes (asFd : SendFd → Nat) (nodeRef stack heap address slots waits : Nat)
    (debug : Bool) (later : List Event) :
    ∃ o d, sendNow stack heap asFd (greeting nodeRef) = .ok o ∧ o.datagram none = some d ∧
      connect debug address none
          (List.replicate waits .wouldBlock ++ .datagram d slots :: later) =
        if 0 < slots then ⟨.returned (asFd (.ref nodeRef)), [], later⟩
        else if debug then ⟨.panicked, [], later⟩
        else ⟨.failed (.unexpectedEof "Failed to read Ref fd"), [], later⟩ := by
  let d : Datagram := ⟨[], [asFd (.ref nodeRef)], none⟩
  refine ⟨_, d, sendNow_eq stack heap asFd _, datagram_eq _ asFd none, ?_⟩
  rw [connect, receive_heard, heard_waits waits later (by simp)]
  obtain ⟨r, fds, got⟩ := recvInto_eq debug [] address connectBufferSize slots d
  rw [← reaching, reaching_plain rfl] at fds
  have whole := cut_plain (d := d) rfl address slots
  have room := (connect_room address).1
  rw [receive, got]
  by_cases free : 0 < slots
  · have all : r.fds = [asFd (.ref nodeRef)] := fds.trans (List.take_of_length_le (by
      show 1 ≤ _
      omega))
    have uncut : cutIn address connectBufferSize slots d = false :=
      whole.mpr ⟨free, Nat.le_trans (Nat.le_succ 1) room⟩
    simp [free, uncut, all, takeFirst]
  · have nothing : r.fds = [] := by
      rw [fds, Nat.eq_zero_of_not_pos free, Nat.min_zero, List.take_zero]
    have cut : cutIn address connectBufferSize slots d = true := by
      rw [← Bool.not_eq_false, whole]
      exact fun fits => free fits.1
    cases debug with
    | true => simp [free, cut, nothing]
    | false => simp [free, nothing, takeFirst]

end Handshake
