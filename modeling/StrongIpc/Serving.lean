import StrongIpc.Registry

/-!
# Serving a bound path

The task of a `RefFsBinding` that was built with `node_ref`: it accepts a connection,
registers it, sends one empty message with `node_ref` on it, and goes on. Clients come
and go as they like, in this process by `Ref::connect` or in others. A descriptor in
flight is among the `raws` of the socket it names. The first message on a connection
always finds room in its buffer.
-/

namespace Serving

open Roster StepMachine

/-- A message as `sendmsg` took it, with the sockets that its descriptors name. -/
structure Packet where
  data : List UInt8
  fds : List Nat
  deriving DecidableEq, Repr

/-- `accepted` while the loop has its descriptor, `served` after it was dropped, `lost`
when that was because it could not be registered. -/
inductive ConnStage where
  | pending
  | accepted
  | served
  | lost
  deriving DecidableEq, Repr

/-- `Ref::connect`, or a client `elsewhere`; `making` is inside `from_fd`. -/
inductive Client where
  | elsewhere
  | receiving
  | making (i : Nat)
  | returned (h : Nat)
  | failed
  | cancelled
  deriving DecidableEq, Repr

/-- `isOpen` while the client has its end; `sent` is all it was ever sent. -/
structure Conn where
  stage : ConnStage
  isOpen : Bool
  sent : List Packet
  inbox : List Packet
  client : Client
  deriving DecidableEq, Repr

inductive Loop where
  | accepting
  | registering (c : Nat)
  | sending (c : Nat)
  | ended
  deriving DecidableEq, Repr

/-- `nodeRef` is the handle that the task owns; `live` until the binding is dropped. -/
structure State where
  reg : Registry.State
  nodeRef : Nat
  live : Bool
  loop : Loop
  conns : List Conn

inductive Act where
  | reg (x : Registry.Act)
  | connect (inProcess : Bool)
  | hang (c : Nat)
  | take (c : Nat)
  | recv (c : Nat) (slot : Bool)
  | make (c : Nat)
  | accept (ok : Bool)
  | register (ok : Bool)
  | send (ok : Bool)
  | dropBinding
  | abort
  deriving DecidableEq, Repr

def Conn.flight (b : Nat) (k : Conn) : Nat := (k.inbox.flatMap Packet.fds).count b

/-- The descriptors in flight that name a socket. -/
def State.inFlight (s : State) (b : Nat) : Nat := total (Conn.flight b) s.conns

def State.spare (s : State) (b : Nat) : Bool :=
  s.reg.sockets[b]?.any fun k => s.inFlight b < k.raws

def State.allows (s : State) : Registry.Act → Bool
  | .close b => s.spare b
  | .fromFd b => s.spare b
  | .drop h => h != s.nodeRef
  | .make i => s.conns.all fun k => k.client != .making i
  | _ => true

/-- The socket that `node_ref`'s descriptor names. -/
def State.nodeSocket (s : State) : Option Nat :=
  (s.reg.handles[s.nodeRef]?).bind fun y => (s.reg.inners[y.inner]?).map Registry.RefInner.socket

def closeAll (reg : Registry.State) (fds : List Nat) : Option Registry.State :=
  fds.foldlM (fun reg b => Registry.step reg (.close b)) reg

def State.setConn (s : State) (c : Nat) (k : Conn) : State := { s with conns := s.conns.set c k }

/-- The oldest connection that has not been accepted. -/
def State.next (s : State) : Option Nat := s.conns.findIdx? fun k => k.stage = .pending

/-- What the loop sends. -/
def handshake (a : Nat) : Packet := ⟨[], [a]⟩

/-- The task is over, and drops `node_ref`. -/
def State.finish (s : State) : Option State :=
  (Registry.step s.reg (.drop s.nodeRef)).map fun reg => { s with reg, loop := .ended }

/-- The loop has let go of its end of the connection. -/
def State.isShut (s : State) (k : Conn) : Bool :=
  k.stage = .served || k.stage = .lost || s.loop = .ended

def Client.hangUp : Client → Option Client
  | .making _ => none
  | .receiving => some .cancelled
  | client => some client

/-- `Ref::connect` on what it received, or on the end of the connection. Without a free
slot for a descriptor the kernel drops what was sent, which is an error like no descriptor
at all, or a panic in a debug build. -/
def State.recv (s : State) (c : Nat) (k : Conn) (slot : Bool) : Option State :=
  match k.inbox with
  | [] => if s.isShut k then some (s.setConn c { k with client := .failed }) else none
  | p :: rest =>
    match p.fds with
    | [] => some (s.setConn c { k with client := .failed, inbox := rest })
    | b :: more => (closeAll s.reg more).bind fun reg =>
        if slot then
          (Registry.step reg (.fromFd b)).map fun reg' =>
            { s with reg := reg' }.setConn c
              { k with client := .making reg.makers.length, inbox := rest }
        else
          (Registry.step reg (.close b)).map fun reg' =>
            { s with reg := reg' }.setConn c { k with client := .failed, inbox := rest }

/-- A step of `from_fd` in `Ref::connect`. -/
def State.make (s : State) (c : Nat) (k : Conn) (i : Nat) : Option State :=
  match s.reg.makers[i]? with
  | some ⟨_, .statted _⟩ => (Registry.step s.reg (.make i)).map fun reg =>
      { s with reg }.setConn c { k with client := .returned s.reg.handles.length }
  | _ => (Registry.step s.reg (.make i)).map fun reg => { s with reg }

/-- `sendmsg` fails when the client has gone, and may fail when it is there (too many
descriptors in flight, no buffer space); either way the loop drops the connection. -/
def State.send (s : State) (c : Nat) (k : Conn) (ok : Bool) : Option State :=
  if k.isOpen && ok then
    s.nodeSocket.bind fun a => (Registry.step s.reg (.dup a)).map fun reg =>
      { s with reg, loop := .accepting }.setConn c
        { k with
          stage := .served
          sent := k.sent ++ [handshake a]
          inbox := k.inbox ++ [handshake a] }
  else some ({ s with loop := .accepting }.setConn c { k with stage := .served })

def State.onConn (s : State) (c : Nat) (f : Conn → Option State) : Option State :=
  (s.conns[c]?).bind f

def step (s : State) : Act → Option State
  | .reg x =>
    if s.allows x then (Registry.step s.reg x).map fun reg => { s with reg } else none
  | .connect inProcess =>
    if s.loop = .ended then none
    else some { s with
      conns := s.conns ++
        [⟨.pending, true, [], [], if inProcess then .receiving else .elsewhere⟩] }
  | .hang c => s.onConn c fun k =>
      if k.isOpen then
        k.client.hangUp.bind fun client =>
          (closeAll s.reg (k.inbox.flatMap Packet.fds)).map fun reg =>
            { s with reg }.setConn c { k with isOpen := false, inbox := [], client }
      else none
  | .take c => s.onConn c fun k =>
      match k.client, k.inbox with
      | .elsewhere, _ :: rest => some (s.setConn c { k with inbox := rest })
      | _, _ => none
  | .recv c slot => s.onConn c fun k =>
      if k.client = .receiving then s.recv c k slot else none
  | .make c => s.onConn c fun k =>
      match k.client with
      | .making i => s.make c k i
      | _ => none
  | .accept ok =>
    if s.loop = .accepting then
      if ok then
        s.next.bind fun c => s.onConn c fun k =>
          some ({ s with loop := .registering c }.setConn c { k with stage := .accepted })
      else s.finish
    else none
  | .register ok =>
    match s.loop with
    | .registering c => s.onConn c fun k =>
        if ok then some { s with loop := .sending c }
        else (s.setConn c { k with stage := .lost }).finish
    | _ => none
  | .send ok =>
    match s.loop with
    | .sending c => s.onConn c fun k => s.send c k ok
    | _ => none
  | .dropBinding => if s.live then some { s with live := false } else none
  | .abort => if s.live = false ∧ s.loop ≠ .ended then s.finish else none

/-- `RefFsBinding::new` has returned. -/
structure Bound (s : State) : Prop where
  reg : Reachable Registry.machine anyStep s.reg
  held : ∃ y, s.reg.handles[s.nodeRef]? = some y ∧ y.held = true
  live : s.live = true
  loop : s.loop = .accepting
  conns : s.conns = []

def machine : Machine State Act where
  init := Bound
  step := step

/-- No `accept` fails, no registration of what it returned and no `sendmsg` to a client
that is there, and `Ref::connect` has a slot for the descriptor. -/
def unfailing (_ : State) : Act → Prop
  | .accept ok => ok = true
  | .register ok => ok = true
  | .send ok => ok = true
  | .recv _ slot => slot = true
  | _ => True

instance (s : State) (a : Act) : Decidable (unfailing s a) := by
  unfold unfailing
  split <;> infer_instance

/-- The loop's own steps, when nothing fails. -/
def serving (_ : State) (a : Act) : Prop :=
  a = .accept true ∨ a = .register true ∨ a = .send true

/-- The steps of the `Ref::connect` on one connection, when nothing fails. -/
def connecting (c : Nat) (_ : State) (a : Act) : Prop := a = .recv c true ∨ a = .make c

/-! ## The steps, once -/

inductive Move (s : State) : Act → State → Prop
  | reg (x : Registry.Act) (reg : Registry.State) (m : Registry.Move s.reg x reg)
      (allowed : s.allows x = true) : Move s (.reg x) { s with reg }
  | connect (inProcess : Bool) (going : s.loop ≠ .ended) :
      Move s (.connect inProcess) { s with
        conns := s.conns ++
          [⟨.pending, true, [], [], if inProcess then .receiving else .elsewhere⟩] }
  | hang (c : Nat) (k : Conn) (client : Client) (reg : Registry.State) (hk : s.conns[c]? = some k)
      (left : k.client.hangUp = some client)
      (closed : closeAll s.reg (k.inbox.flatMap Packet.fds) = some reg) :
      Move s (.hang c)
        ({ s with reg }.setConn c { k with isOpen := false, inbox := [], client })
  | take (c : Nat) (k : Conn) (p : Packet) (rest : List Packet) (hk : s.conns[c]? = some k)
      (other : k.client = .elsewhere) (first : k.inbox = p :: rest) :
      Move s (.take c) (s.setConn c { k with inbox := rest })
  | recv (c : Nat) (k : Conn) (slot : Bool) (s' : State) (hk : s.conns[c]? = some k)
      (waits : k.client = .receiving) (h : s.recv c k slot = some s') :
      Move s (.recv c slot) s'
  | make (c : Nat) (k : Conn) (i : Nat) (reg : Registry.State) (client : Client)
      (hk : s.conns[c]? = some k) (inside : k.client = .making i)
      (m : Registry.Move s.reg (.make i) reg)
      (result : (client = .making i ∧
          ∀ p id, s.reg.makers[i]? = some p → p.stage ≠ .statted id) ∨
        ∃ p id, s.reg.makers[i]? = some p ∧ p.stage = .statted id ∧
          client = .returned s.reg.handles.length) :
      Move s (.make c) ({ s with reg }.setConn c { k with client })
  | accept (c : Nat) (k : Conn) (idle : s.loop = .accepting) (next : s.next = some c)
      (hk : s.conns[c]? = some k) :
      Move s (.accept true)
        ({ s with loop := .registering c }.setConn c { k with stage := .accepted })
  | refuse (reg : Registry.State) (idle : s.loop = .accepting)
      (m : Registry.Move s.reg (.drop s.nodeRef) reg) :
      Move s (.accept false) { s with reg, loop := .ended }
  | register (c : Nat) (k : Conn) (busy : s.loop = .registering c) (hk : s.conns[c]? = some k) :
      Move s (.register true) { s with loop := .sending c }
  | lose (c : Nat) (k : Conn) (reg : Registry.State) (busy : s.loop = .registering c)
      (hk : s.conns[c]? = some k) (m : Registry.Move s.reg (.drop s.nodeRef) reg) :
      Move s (.register false)
        { s.setConn c { k with stage := .lost } with reg, loop := .ended }
  | send (c : Nat) (k : Conn) (ok : Bool) (s' : State) (busy : s.loop = .sending c)
      (hk : s.conns[c]? = some k) (h : s.send c k ok = some s') : Move s (.send ok) s'
  | dropBinding : Move s .dropBinding { s with live := false }
  | abort (reg : Registry.State) (dropped : s.live = false)
      (m : Registry.Move s.reg (.drop s.nodeRef) reg) :
      Move s .abort { s with reg, loop := .ended }

theorem onConn_some {s s' : State} {c : Nat} {f : Conn → Option State}
    (h : s.onConn c f = some s') : ∃ k, s.conns[c]? = some k ∧ f k = some s' :=
  Option.bind_eq_some_iff.mp h

theorem finish_some {s s' : State} (h : s.finish = some s') :
    ∃ reg, Registry.Move s.reg (.drop s.nodeRef) reg ∧ s' = { s with reg, loop := .ended } := by
  obtain ⟨reg, hreg, rfl⟩ := Option.map_eq_some_iff.mp h
  exact ⟨reg, Registry.step_move hreg, rfl⟩

theorem setConn_self {s : State} {c : Nat} {k : Conn} (hk : s.conns[c]? = some k) :
    s.setConn c k = s := by
  obtain ⟨inside, rfl⟩ := List.getElem?_eq_some_iff.mp hk
  rw [State.setConn, List.set_getElem_self]

theorem make_move {s s' : State} {c i : Nat} {k : Conn} (hk : s.conns[c]? = some k)
    (inside : k.client = .making i) (h : s.make c k i = some s') : Move s (.make c) s' := by
  rw [State.make] at h
  split at h
  · rename_i a id hi
    obtain ⟨reg, hreg, rfl⟩ := Option.map_eq_some_iff.mp h
    exact .make c k i reg _ hk inside (Registry.step_move hreg)
      (Or.inr ⟨⟨a, .statted id⟩, id, hi, rfl, rfl⟩)
  · rename_i early
    obtain ⟨reg, hreg, rfl⟩ := Option.map_eq_some_iff.mp h
    have same : { k with client := .making i } = k := by
      rw [← inside]
    have stays : { s with reg }.setConn c { k with client := .making i } = { s with reg } := by
      rw [same]
      exact setConn_self hk
    rw [← stays]
    refine .make c k i reg _ hk inside (Registry.step_move hreg) (Or.inl ⟨rfl, ?_⟩)
    intro p id hp statted
    exact early p.socket id (statted ▸ hp)

theorem step_move {s s' : State} {a : Act} (h : step s a = some s') : Move s a s' := by
  cases a with
  | reg x =>
    rw [step] at h
    split at h
    · rename_i allowed
      obtain ⟨reg, hreg, rfl⟩ := Option.map_eq_some_iff.mp h
      exact .reg x reg (Registry.step_move hreg) allowed
    · cases h
  | connect inProcess =>
    rw [step] at h
    split at h <;> cases h
    rename_i going
    exact .connect inProcess going
  | hang c =>
    obtain ⟨k, hk, h⟩ := onConn_some h
    split at h
    · obtain ⟨client, left, h⟩ := Option.bind_eq_some_iff.mp h
      obtain ⟨reg, closed, rfl⟩ := Option.map_eq_some_iff.mp h
      exact .hang c k client reg hk left closed
    · cases h
  | take c =>
    obtain ⟨k, hk, h⟩ := onConn_some h
    split at h
    · rename_i p rest other first
      cases h
      exact .take c k p rest hk other first
    · cases h
  | recv c slot =>
    obtain ⟨k, hk, h⟩ := onConn_some h
    split at h
    · rename_i waits
      exact .recv c k slot s' hk waits h
    · cases h
  | make c =>
    obtain ⟨k, hk, h⟩ := onConn_some h
    split at h
    · rename_i i inside
      exact make_move hk inside h
    · cases h
  | accept ok =>
    rw [step] at h
    split at h
    · rename_i idle
      cases ok with
      | true =>
        obtain ⟨c, next, h⟩ := Option.bind_eq_some_iff.mp h
        obtain ⟨k, hk, h⟩ := onConn_some h
        cases h
        exact .accept c k idle next hk
      | false =>
        obtain ⟨reg, m, rfl⟩ := finish_some h
        exact .refuse reg idle m
    · cases h
  | register ok =>
    rw [step] at h
    split at h
    · rename_i c busy
      obtain ⟨k, hk, h⟩ := onConn_some h
      cases ok with
      | true =>
        cases h
        exact .register c k busy hk
      | false =>
        obtain ⟨reg, m, rfl⟩ := finish_some h
        exact .lose c k reg busy hk m
    · cases h
  | send ok =>
    rw [step] at h
    split at h
    · rename_i c busy
      obtain ⟨k, hk, h⟩ := onConn_some h
      exact .send c k ok s' busy hk h
    · cases h
  | dropBinding =>
    rw [step] at h
    split at h <;> cases h
    exact .dropBinding
  | abort =>
    rw [step] at h
    split at h
    · rename_i allowed
      obtain ⟨reg, m, rfl⟩ := finish_some h
      exact .abort reg allowed.1 m
    · cases h

end Serving
