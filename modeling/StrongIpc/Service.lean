import StrongIpc.ServingInvariants

/-!
# A bound path serves its clients

Left to itself the loop greets whoever is waiting, each of its steps leaving it less to
do, and `Ref::connect` on a greeted connection returns `node_ref`. The first failure of
an `accept` or of a registration ends the service and leaves the binding; a failure to
send or to receive the descriptor costs one client its capability.
-/

namespace Serving

open Roster StepMachine

/-! ## What the loop does by itself -/

def Loop.weight : Loop → Nat
  | .registering _ => 2
  | .sending _ => 1
  | _ => 0

def Conn.weight (k : Conn) : Nat := if k.stage = .pending then 3 else 0

/-- The steps that the loop is still to take. -/
def State.work (s : State) : Nat := total Conn.weight s.conns + s.loop.weight

/-- The connections of a later state have the clients of an earlier one. -/
def Keeps (s t : State) : Prop :=
  t.live = s.live ∧ ∀ (c : Nat) k, s.conns[c]? = some k →
    ∃ l, t.conns[c]? = some l ∧ l.isOpen = k.isOpen ∧ l.client = k.client

theorem Keeps.trans {s t u : State} (h : Keeps s t) (h' : Keeps t u) : Keeps s u := by
  refine ⟨h'.1.trans h.1, fun c k hk => ?_⟩
  obtain ⟨l, hl, isOpen, client⟩ := h.2 c k hk
  obtain ⟨n, hn, isOpen', client'⟩ := h'.2 c l hl
  exact ⟨n, hn, isOpen'.trans isOpen, client'.trans client⟩

theorem Served.socket {s : State} {a : Nat} (h : Served a s) : ∃ k, s.reg.sockets[a]? = some k := by
  obtain ⟨y, x, hy, hx, aims, _⟩ := h.node
  have known := h.faithful.inner_id y.inner x hx
  obtain ⟨k, hk, _⟩ := Option.map_eq_some_iff.mp known
  exact ⟨k, aims ▸ hk⟩

/-- `node_ref` keeps its socket open, so `sendmsg` can put a descriptor of it in flight. -/
theorem Served.dup {s : State} {a : Nat} (h : Served a s) (going : s.loop ≠ .ended) :
    ∃ reg, Registry.step s.reg (.dup a) = some reg := by
  obtain ⟨k, hk⟩ := h.socket
  obtain ⟨y, x, hy, hx, aims, mine, held⟩ := h.node
  have named := h.faithful.held_named hy (held going)
  rw [mine] at named
  exact ⟨s.reg.setRaws a k (k.raws + 1), by simp [Registry.step, hk, named]⟩

/-- A bound path serves its clients, as far as a state of a run shows it. -/
structure Serves (a : Nat) (s : State) : Prop where
  socket : s.nodeSocket = some a
  running : s.live = true → s.loop ≠ .ended
  once : ∀ (c : Nat) k, s.conns[c]? = some k → k.sent = [] ∨ k.sent = [handshake a]
  greeted : ∀ (c : Nat) k, s.conns[c]? = some k → k.stage = .served → k.isOpen = true →
    k.sent = [handshake a]
  succeeds : ∀ (c : Nat) k, s.conns[c]? = some k → k.client = .failed → s.live = false
  same : ∀ (c : Nat) k j y z, s.conns[c]? = some k → k.client = .returned j →
    s.reg.handles[j]? = some y → s.reg.handles[s.nodeRef]? = some z → y.held = true →
    z.held = true → y.isSame z = true
  reaches : s.live = true → ∃ t, Steps machine serving s t ∧ t.live = true ∧
    ∀ (c : Nat) k, s.conns[c]? = some k → ∃ l, t.conns[c]? = some l ∧ l.isOpen = k.isOpen ∧
      l.client = k.client ∧ l.stage = .served ∧ (k.isOpen = true → l.sent = [handshake a])
  connects : s.live = true → ∀ (c : Nat) k, s.conns[c]? = some k → k.client = .receiving →
    k.stage = .served → ∃ t l j y z, Steps machine (connecting c) s t ∧ t.conns[c]? = some l ∧
      l.client = .returned j ∧ t.reg.handles[j]? = some y ∧ t.reg.handles[t.nodeRef]? = some z ∧
      y.held = true ∧ z.held = true ∧ y.isSame z = true

/-- A capability to a node, and a binding of it. -/
def node : Registry.State where
  sockets := [⟨(1, 5), 0⟩]
  makers := [⟨0, .done⟩]
  inners := [⟨0, (1, 5), .filed⟩]
  handles := [⟨0, 0, true⟩]
  refs := AList.insert (1, 5) 0 ∅

def bound : State := ⟨node, 0, true, .accepting, []⟩

/-- A client has connected, and the `accept` that was to return it has failed. -/
def deserted : State where
  reg := { node with handles := [⟨0, 0, false⟩] }
  nodeRef := 0
  live := true
  loop := .ended
  conns := [⟨.pending, true, [], [], .receiving⟩]

end Serving
