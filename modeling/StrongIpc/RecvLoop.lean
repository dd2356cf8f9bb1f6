import Mathlib.Data.List.Basic
import Mathlib.Data.List.TakeWhile
import StrongIpc.Receive

/-!
# The receive loop

`recv_loop` over any sequence of what its socket may answer, with a handler that may
write what it likes into the slice it is lent. One buffer serves every message. What
the handler is called with is compared with what was on the wire, datagram by
datagram.
-/

namespace Receive

open Wire

/-! ## The loop -/

/-- One attempt to receive: a datagram, with the free slots of the descriptor table at
that moment, the end of file, `WouldBlock`, or an error of `readable` or `recvmsg`. -/
inductive Event where
  | datagram (d : Datagram) (slots : Nat)
  | hangup
  | wouldBlock
  | failed
  deriving DecidableEq, Repr

structure Call where
  data : List UInt8
  fds : List Nat
  creds : Option UCred
  deriving DecidableEq, Repr

/-- `writes earlier data` is what the slice holds once the handler is done with it. -/
structure Handler where
  writes : List Call → List UInt8 → List UInt8
  length : ∀ earlier data, (writes earlier data).length = data.length

/-- `closed` are the descriptors that the loop dropped itself. -/
structure Loop where
  buf : List UInt8
  calls : List Call
  closed : List Nat
  deriving DecidableEq, Repr

inductive Ending where
  | parked
  | hungUp
  | failed
  | panicked
  deriving DecidableEq, Repr

/-- `socket.recv(..).await?`, of one attempt. -/
inductive Attempt where
  | again
  | error
  | panic
  | received (buf : List UInt8) (r : Received)
  deriving DecidableEq, Repr

def attempt (debug : Bool) (buf : List UInt8) (address : Nat) : Event → Attempt
  | .datagram d slots =>
    match recvNow debug buf address slots d with
    | none => .panic
    | some (buf, r) => .received buf r
  | .hangup => .received buf ⟨0, [], none⟩
  | .wouldBlock => .again
  | .failed => .error

/-- `&mut buf[..bytes]`; `none` is the panic of an index out of range. -/
def slice (buf : List UInt8) (bytes : Nat) : Option (List UInt8) :=
  if bytes ≤ buf.length then some (buf.take bytes) else none

def Loop.drop (l : Loop) (buf : List UInt8) (r : Received) : Loop :=
  { l with buf, closed := l.closed ++ r.fds }

def Loop.handle (l : Loop) (h : Handler) (buf data : List UInt8) (r : Received) : Loop :=
  { l with
    buf := h.writes l.calls data ++ buf.drop data.length
    calls := l.calls ++ [⟨data, r.fds, r.creds⟩] }

/-- `parked` is where the loop stands when nothing more has come. -/
def recvLoop (debug : Bool) (h : Handler) (address : Nat) : Loop → List Event → Loop × Ending
  | l, [] => (l, .parked)
  | l, e :: rest =>
    match attempt debug l.buf address e with
    | .again => recvLoop debug h address l rest
    | .error => (l, .failed)
    | .panic => (l, .panicked)
    | .received buf r =>
      if r.bytes = 0 then (l.drop buf r, .hungUp)
      else if r.truncated buf.length then recvLoop debug h address (l.drop buf r) rest
      else
        match slice buf r.bytes with
        | none => (l.drop buf r, .panicked)
        | some data => recvLoop debug h address (l.handle h buf data r) rest

def start : Loop := ⟨List.replicate maxMessageSize 0, [], []⟩

/-! ## What the wire says -/

/-- After it nothing is received: a zero-length read, or an error. -/
def Event.ends : Event → Bool
  | .datagram d _ => d.payload.isEmpty
  | .hangup => true
  | .wouldBlock => false
  | .failed => true

/-- A datagram of 1 to `maxMessageSize` bytes. -/
def Datagram.fits (d : Datagram) : Bool := 0 < d.payload.length && d.payload.length ≤ maxMessageSize

/-- The call that an event is worth, with the descriptors that arrive. -/
def Event.call (address : Nat) : Event → Option Call
  | .datagram d slots =>
    if d.fits then some ⟨d.payload, d.arriving address slots, d.creds⟩ else none
  | _ => none

/-- The descriptors that nobody is called with. -/
def Event.waste (address : Nat) : Event → List Nat
  | .datagram d slots => if d.fits then [] else d.arriving address slots
  | _ => []

/-- What comes before the loop ends. -/
def before (events : List Event) : List Event := events.takeWhile fun e => !e.ends

/-- And what ends it. -/
def last (events : List Event) : List Event := (events.dropWhile fun e => !e.ends).take 1

def endingOf : List Event → Ending
  | [] => .parked
  | .failed :: _ => .failed
  | _ => .hungUp

/-! ## One datagram -/

theorem fits_iff {d : Datagram} :
    d.fits = true ↔ 0 < d.payload.length ∧ d.payload.length ≤ maxMessageSize := by
  simp [Datagram.fits]

theorem handle_length {l : Loop} {h : Handler} {buf data : List UInt8} {r : Received}
    (inside : data.length ≤ buf.length) : (l.handle h buf data r).buf.length = buf.length := by
  simp only [Loop.handle, List.length_append, h.length, List.length_drop]
  omega

/-- A debug build only goes on where nothing was cut. -/
def Quiet (debug : Bool) (address : Nat) (events : List Event) : Prop :=
  debug = true → ∀ d slots, .datagram d slots ∈ events → d.arriving address slots = d.fds

theorem Quiet.tail {debug : Bool} {address : Nat} {e : Event} {rest : List Event}
    (h : Quiet debug address (e :: rest)) : Quiet debug address rest :=
  fun on d slots inside => h on d slots (List.mem_cons_of_mem e inside)

/-- What the loop makes of a datagram, whatever was in the buffer. -/
theorem recvLoop_datagram {debug : Bool} {address slots : Nat} {d : Datagram} {rest : List Event}
    (h : Handler) {l : Loop} (full : l.buf.length = maxMessageSize)
    (quiet : Quiet debug address (.datagram d slots :: rest)) :
    recvLoop debug h address l (.datagram d slots :: rest) =
      let buf := overwrite l.buf d.payload
      let r : Received := ⟨d.payload.length, d.arriving address slots, d.creds⟩
      if d.payload.length = 0 then (l.drop buf r, .hungUp)
      else if d.fits then recvLoop debug h address (l.handle h buf d.payload r) rest
      else recvLoop debug h address (l.drop buf r) rest := by
  have received := recvNow_eq (fun on => quiet on d slots List.mem_cons_self) l.buf
  have same := overwrite_length l.buf d.payload
  rw [recvLoop, attempt, received]
  simp only [Received.truncated, same, full]
  split
  · rfl
  · rename_i some_bytes
    by_cases inside : d.payload.length ≤ maxMessageSize
    · have fits : d.fits = true := fits_iff.mpr ⟨by omega, inside⟩
      have data : slice (overwrite l.buf d.payload) d.payload.length = some d.payload := by
        rw [slice, if_pos (by omega), overwrite_take (by omega)]
      have short : ¬ maxMessageSize < d.payload.length := by omega
      simp [fits, data, short]
    · have long : d.fits = false := by simp [Datagram.fits, inside]
      have oversized : maxMessageSize < d.payload.length := by omega
      simp [long, oversized]

/-! ## Any sequence -/

theorem before_cons {e : Event} {rest : List Event} (going : e.ends = false) :
    before (e :: rest) = e :: before rest := by
  simp [before, going]

theorem last_cons {e : Event} {rest : List Event} (going : e.ends = false) :
    last (e :: rest) = last rest := by
  simp [last, going]

theorem before_ended {e : Event} {rest : List Event} (ended : e.ends = true) :
    before (e :: rest) = [] := by
  simp [before, ended]

theorem last_ended {e : Event} {rest : List Event} (ended : e.ends = true) :
    last (e :: rest) = [e] := by
  simp [last, ended]

/-- The calls, the descriptors closed and the way the loop ends, from any buffer. -/
theorem recvLoop_spec {debug : Bool} {address : Nat} (h : Handler) {events : List Event} {l : Loop}
    (full : l.buf.length = maxMessageSize) (quiet : Quiet debug address events) :
    (recvLoop debug h address l events).1.calls =
        l.calls ++ (before events).filterMap (Event.call address) ∧
      (recvLoop debug h address l events).1.closed =
        l.closed ++ (before events ++ last events).flatMap (Event.waste address) ∧
      (recvLoop debug h address l events).2 = endingOf (last events) := by
  induction events generalizing l with
  | nil => simp [recvLoop, before, last, endingOf]
  | cons e rest ih =>
    cases e with
    | hangup =>
      rw [recvLoop, attempt, before_ended rfl, last_ended rfl]
      simp [Loop.drop, Event.waste, endingOf]
    | failed =>
      rw [recvLoop, attempt, before_ended rfl, last_ended rfl]
      simp [Event.waste, endingOf]
    | wouldBlock =>
      rw [recvLoop, attempt, before_cons rfl, last_cons rfl]
      exact ih full quiet.tail
    | datagram d slots =>
      rw [recvLoop_datagram h full quiet]
      by_cases none_read : d.payload.length = 0
      · have ends : (Event.datagram d slots).ends = true := by
          simpa [Event.ends] using none_read
        have unfit : d.fits = false := by simp [Datagram.fits, none_read]
        simp [none_read, before_ended ends, last_ended ends, Loop.drop, Event.waste, unfit,
          endingOf]
      · have going : (Event.datagram d slots).ends = false := by
          simpa [Event.ends] using none_read
        rw [before_cons going, last_cons going]
        simp only [none_read, if_false]
        by_cases fits : d.fits
        · have inside := (fits_iff.mp fits).2
          obtain ⟨calls, closed, ending⟩ := ih
            (l := l.handle h (overwrite l.buf d.payload) d.payload
              ⟨d.payload.length, d.arriving address slots, d.creds⟩)
            (by rw [handle_length (by rw [overwrite_length]; omega), overwrite_length, full])
            quiet.tail
          simp only [fits, if_true, calls, closed, ending]
          simp [Loop.handle, Event.call, Event.waste, fits]
        · obtain ⟨calls, closed, ending⟩ := ih
            (l := l.drop (overwrite l.buf d.payload)
              ⟨d.payload.length, d.arriving address slots, d.creds⟩)
            (by rw [Loop.drop, overwrite_length, full]) quiet.tail
          simp only [fits, Bool.false_eq_true, if_false, calls, closed, ending]
          simp [Loop.drop, Event.call, Event.waste, fits]

theorem start_full : start.buf.length = maxMessageSize := List.length_replicate

/-! ## Exactly the wire's messages -/

/-- Every datagram comes with all its descriptors. -/
def Complete (address : Nat) (events : List Event) : Prop :=
  ∀ d slots, .datagram d slots ∈ events → d.arriving address slots = d.fds

/-- What was on the wire, where it is a message. -/
def Event.message : Event → Option Call
  | .datagram d _ => if d.fits then some ⟨d.payload, d.fds, d.creds⟩ else none
  | _ => none

/-- The descriptors on what is not. -/
def Event.discarded : Event → List Nat
  | .datagram d _ => if d.fits then [] else d.fds
  | _ => []

theorem call_eq_message {address : Nat} {events : List Event} (complete : Complete address events)
    {e : Event} (inside : e ∈ events) : e.call address = e.message := by
  cases e with
  | datagram d slots => rw [Event.call, Event.message, complete d slots inside]
  | _ => rfl

theorem waste_eq_discarded {address : Nat} {events : List Event}
    (complete : Complete address events) {e : Event} (inside : e ∈ events) :
    e.waste address = e.discarded := by
  cases e with
  | datagram d slots => rw [Event.waste, Event.discarded, complete d slots inside]
  | _ => rfl

theorem mem_of_before {e : Event} {events : List Event} (inside : e ∈ before events) :
    e ∈ events :=
  (List.takeWhile_sublist _).subset inside

theorem mem_of_last {e : Event} {events : List Event} (inside : e ∈ last events) : e ∈ events :=
  (List.dropWhile_sublist _).subset (List.mem_of_mem_take inside)

/-- The handler is called, in order, once for each datagram of 1 to `maxMessageSize`
bytes before the first zero-length read or error, with its bytes, descriptors and
credentials; the descriptors of the others read are closed; and no slice is out of range. -/
theorem recvLoop_delivers (debug : Bool) (h : Handler) {address : Nat} {events : List Event}
    (complete : Complete address events) :
    (recvLoop debug h address start events).1.calls = (before events).filterMap Event.message ∧
      (recvLoop debug h address start events).1.closed =
        (before events ++ last events).flatMap Event.discarded ∧
      (recvLoop debug h address start events).2 = endingOf (last events) ∧
      (recvLoop debug h address start events).2 ≠ .panicked := by
  obtain ⟨calls, closed, ending⟩ := recvLoop_spec h start_full fun _ => complete
  refine ⟨?_, ?_, ending, ?_⟩
  · rw [calls]
    exact List.filterMap_congr fun e inside => call_eq_message complete (mem_of_before inside)
  · rw [closed]
    refine List.flatMap_congr fun e inside => waste_eq_discarded complete ?_
    rcases List.mem_append.mp inside with early | late
    · exact mem_of_before early
    · exact mem_of_last late
  · rw [ending]
    unfold endingOf
    split <;> simp

/-- Two messages with an oversized one between them, and one after the end. -/
def traffic : List Event :=
  [.datagram ⟨[1, 2, 3], [10, 11], some ⟨7, 0, 0⟩⟩ 9, .wouldBlock,
    .datagram ⟨List.replicate 9000 5, [12], none⟩ 7, .datagram ⟨[4], [], none⟩ 6,
    .datagram ⟨[], [13], none⟩ 6, .datagram ⟨[6], [], none⟩ 6]

/-- A handler that overwrites all it is lent. -/
def scribbler : Handler where
  writes := fun _ data => data.map fun _ => 255
  length := fun _ _ => List.length_map _

theorem traffic_complete : Complete 3 traffic := by
  intro d slots inside
  simp only [traffic, List.mem_cons, Event.datagram.injEq, reduceCtorEq, List.not_mem_nil,
    or_false, false_or] at inside
  rcases inside with ⟨rfl, rfl⟩ | ⟨rfl, rfl⟩ | ⟨rfl, rfl⟩ | ⟨rfl, rfl⟩ | ⟨rfl, rfl⟩ <;> rfl

theorem recvLoop_delivers_traffic :
    (recvLoop true scribbler 3 start traffic).1.calls =
        (before traffic).filterMap Event.message ∧
      (recvLoop true scribbler 3 start traffic).1.closed =
        (before traffic ++ last traffic).flatMap Event.discarded ∧
      (recvLoop true scribbler 3 start traffic).2 = endingOf (last traffic) ∧
      (recvLoop true scribbler 3 start traffic).2 ≠ .panicked :=
  recvLoop_delivers true scribbler traffic_complete

/-! ## Near the descriptor limit -/

theorem before_append {earlier : List Event} (going : ∀ e ∈ earlier, e.ends = false)
    (e : Event) : before (earlier ++ [e]) = earlier ++ before [e] := by
  induction earlier with
  | nil => rfl
  | cons f rest ih =>
    rw [List.cons_append, before_cons (going f List.mem_cons_self),
      ih fun g inside => going g (List.mem_cons_of_mem f inside), List.cons_append]

/-- In a release build a datagram that the loop comes to is one more call, with the
descriptors that arrived. -/
theorem calls_snoc (h : Handler) (address : Nat) {earlier : List Event}
    (going : ∀ e ∈ earlier, e.ends = false) {d : Datagram} (slots : Nat) (fits : d.fits = true) :
    (recvLoop false h address start (earlier ++ [.datagram d slots])).1.calls =
      (recvLoop false h address start earlier).1.calls ++
        [⟨d.payload, d.arriving address slots, d.creds⟩] := by
  have quiet : ∀ events, Quiet false address events := by
    intro events on
    cases on
  have some_bytes : (Event.datagram d slots).ends = false := by
    have positive := (fits_iff.mp fits).1
    simp only [Event.ends, List.isEmpty_eq_false_iff]
    exact List.length_pos_iff.mp positive
  have whole : before earlier = earlier := by
    rw [before, List.takeWhile_eq_self_iff]
    simpa using going
  have calls := (recvLoop_spec h start_full (quiet (earlier ++ [.datagram d slots]))).1
  have before_calls := (recvLoop_spec h start_full (quiet earlier)).1
  rw [calls, before_calls, before_append going, whole, before_cons some_bytes]
  simp [before, Event.call, fits]

/-- Of a datagram that it comes to, the loop of a release build passes on the whole list
of descriptors if and only if the descriptor table had a free slot for each of them and
the control buffer room, which it has for any list that can be sent. -/
theorem handed_whole_iff (h : Handler) (address : Nat) {earlier : List Event}
    (going : ∀ e ∈ earlier, e.ends = false) {d : Datagram} (slots : Nat) (fits : d.fits = true) :
    ∃ c : Call, (recvLoop false h address start (earlier ++ [.datagram d slots])).1.calls =
        (recvLoop false h address start earlier).1.calls ++ [c] ∧
      (c.fds = d.fds ↔
        d.fds.length ≤ slots ∧ d.fds.length ≤ fdRoom (rightsRoom address d.creds)) ∧
      (d.fds.length ≤ maxFds → (c.fds = d.fds ↔ d.fds.length ≤ slots)) := by
  refine ⟨_, calls_snoc h address going slots fits, arriving_eq_iff, fun sendable => ?_⟩
  have room := fdRoom_ge address d.creds
  constructor
  · intro whole
    exact (arriving_eq_iff.mp whole).1
  · intro free
    exact arriving_eq_iff.mpr ⟨free, by omega⟩

/-- One byte and two descriptors. -/
def pair : Datagram := ⟨[1], [10, 11], none⟩

theorem handed_whole_iff_pair :
    ∃ c : Call, (recvLoop false scribbler 0 start ([.wouldBlock] ++ [.datagram pair 1])).1.calls =
        (recvLoop false scribbler 0 start [.wouldBlock]).1.calls ++ [c] ∧
      (c.fds = pair.fds ↔
        pair.fds.length ≤ 1 ∧ pair.fds.length ≤ fdRoom (rightsRoom 0 pair.creds)) ∧
      (pair.fds.length ≤ maxFds → (c.fds = pair.fds ↔ pair.fds.length ≤ 1)) :=
  handed_whole_iff scribbler 0 (by decide) 1 rfl

/-- With one free slot the handler is called without the second descriptor. -/
theorem handed_half :
    (recvLoop false scribbler 0 start [.datagram pair 1]).1.calls = [⟨[1], [10], none⟩] ∧
      pair.fds = [10, 11] := by
  have quiet : Quiet false 0 [.datagram pair 1] := by
    intro on
    cases on
  constructor
  · rw [(recvLoop_spec scribbler start_full quiet).1]
    rfl
  · rfl

end Receive
