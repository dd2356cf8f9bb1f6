import StrongIpc.Serving

/-!
# What holds of a served path while nothing fails

While nothing has failed but sends to clients that were gone, every connection was sent
nothing yet or the one message that names the socket of `node_ref`, and is in nobody's
hands but the loop's. A socket has a descriptor for each one in flight that names it.
-/

namespace Serving

open Roster StepMachine

/-! ## One connection -/

def inHand (m : Registry.Maker) : Prop := m.stage = .entered ∨ ∃ id, m.stage = .statted id

/-- What is true of the connection number `c` while the loop sends the socket `a`. -/
structure Good (reg : Registry.State) (live : Bool) (loop : Loop) (a c : Nat) (k : Conn) :
    Prop where
  sent : k.sent = [] ∨ k.sent = [handshake a]
  unsent : k.stage = .pending ∨ k.stage = .accepted → k.sent = []
  greeted : k.stage = .served → k.isOpen = true → k.sent = [handshake a]
  inbox : k.inbox = [] ∨ k.inbox = k.sent
  waiting : k.client = .receiving → k.inbox = k.sent ∧ k.isOpen = true
  making : ∀ i, k.client = .making i → ∃ m, reg.makers[i]? = some m ∧ m.socket = a ∧ inHand m
  returned : ∀ h, k.client = .returned h → ∃ y, reg.handles[h]? = some y ∧ y.socket = a
  failed : k.client = .failed → live = false
  busy : k.stage = .accepted → loop ≠ .ended → loop = .registering c ∨ loop = .sending c
  kept : k.stage ≠ .lost

theorem Good.transport {reg reg' : Registry.State} {live live' : Bool} {loop loop' : Loop}
    {a c : Nat} {k : Conn} (h : Good reg live loop a c k)
    (makers : ∀ i m, k.client = .making i → reg.makers[i]? = some m → reg'.makers[i]? = some m)
    (handles : ∀ (j : Nat) y, reg.handles[j]? = some y →
      ∃ y', reg'.handles[j]? = some y' ∧ y'.socket = y.socket)
    (alive : live' = true → live = true)
    (busy : k.stage = .accepted → loop' ≠ .ended → loop' = .registering c ∨ loop' = .sending c) :
    Good reg' live' loop' a c k where
  sent := h.sent
  unsent := h.unsent
  greeted := h.greeted
  inbox := h.inbox
  waiting := h.waiting
  making := by
    intro i inside
    obtain ⟨m, hm, mine, open_⟩ := h.making i inside
    exact ⟨m, makers i m inside hm, mine, open_⟩
  returned := by
    intro j done
    obtain ⟨y, hy, mine⟩ := h.returned j done
    obtain ⟨y', hy', same⟩ := handles j y hy
    exact ⟨y', hy', same.trans mine⟩
  failed := by
    intro failed
    by_contra still
    have dead := h.failed failed
    rw [alive (by simpa using still)] at dead
    cases dead
  busy := busy
  kept := h.kept

/-- The loop alone moved on. -/
theorem Good.reloop {reg : Registry.State} {live live' : Bool} {loop loop' : Loop} {a c : Nat}
    {k : Conn} (h : Good reg live loop a c k) (alive : live' = true → live = true)
    (busy : k.stage = .accepted → loop' ≠ .ended → loop' = .registering c ∨ loop' = .sending c) :
    Good reg live' loop' a c k :=
  h.transport (fun _ _ _ hm => hm) (fun _ y hy => ⟨y, hy, rfl⟩) alive busy

/-- The client alone moved on, taking from its inbox or not. -/
theorem Good.reclient {reg reg' : Registry.State} {live : Bool} {loop : Loop} {a c : Nat} {k : Conn}
    (h : Good reg live loop a c k) {client : Client} {inbox : List Packet}
    (taken : inbox = [] ∨ inbox = k.inbox)
    (waiting : client = .receiving → inbox = k.sent ∧ k.isOpen = true)
    (making : ∀ i, client = .making i →
      ∃ m, reg'.makers[i]? = some m ∧ m.socket = a ∧ inHand m)
    (returned : ∀ j, client = .returned j → ∃ y, reg'.handles[j]? = some y ∧ y.socket = a)
    (failed : client = .failed → live = false) :
    Good reg' live loop a c { k with inbox, client } where
  sent := h.sent
  unsent := h.unsent
  greeted := h.greeted
  inbox := by
    rcases taken with empty | same
    · exact Or.inl empty
    · exact same ▸ h.inbox
  waiting := waiting
  making := making
  returned := returned
  failed := failed
  busy := h.busy
  kept := h.kept

/-! ## All of them -/

/-- The loop has `node_ref` as long as it runs, and runs as long as the binding lives;
no two `from_fd`s are one. -/
structure Served (a : Nat) (s : State) : Prop where
  faithful : Registry.Faithful s.reg
  node : ∃ y x, s.reg.handles[s.nodeRef]? = some y ∧ s.reg.inners[y.inner]? = some x ∧
    x.socket = a ∧ y.socket = a ∧ (s.loop ≠ .ended → y.held = true)
  running : s.live = true → s.loop ≠ .ended
  working : ∀ c, s.loop = .registering c ∨ s.loop = .sending c →
    ∃ k, s.conns[c]? = some k ∧ k.stage = .accepted
  apart : ∀ (c d : Nat) k l i, s.conns[c]? = some k → s.conns[d]? = some l →
    k.client = .making i → l.client = .making i → c = d
  conns : ∀ (c : Nat) k, s.conns[c]? = some k → Good s.reg s.live s.loop a c k

theorem handles_kept {s s' : Registry.State} {x : Registry.Act} (m : Registry.Move s x s') :
    ∀ (j : Nat) y, s.handles[j]? = some y →
      ∃ y', s'.handles[j]? = some y' ∧ y'.socket = y.socket := by
  intro j y hy
  obtain ⟨y', hy', _, same, _⟩ := Registry.handle_kept m hy
  exact ⟨y', hy', same⟩

theorem node_kept {s : State} {a : Nat} {loop' : Loop} {reg : Registry.State} {x : Registry.Act}
    (h : Served a s) (m : Registry.Move s.reg x reg)
    (keeps : loop' ≠ .ended → s.loop ≠ .ended ∧ x ≠ .drop s.nodeRef) :
    ∃ y x, reg.handles[s.nodeRef]? = some y ∧ reg.inners[y.inner]? = some x ∧ x.socket = a ∧
      y.socket = a ∧ (loop' ≠ .ended → y.held = true) := by
  obtain ⟨y, x, hy, hx, aims, mine, held⟩ := h.node
  obtain ⟨y', hy', inner, socket, same⟩ := Registry.handle_kept m hy
  obtain ⟨x', hx', aim⟩ := Registry.inner_kept m hx
  refine ⟨y', x', hy', inner ▸ hx', aim.trans aims, socket.trans mine, fun going => ?_⟩
  obtain ⟨was, other⟩ := keeps going
  rw [same other]
  exact held was

/-- A step of the registry that is not a `Ref::connect`'s own, nor the loop's end. -/
theorem served_reg {s : State} {a : Nat} {reg : Registry.State} {x : Registry.Act}
    (h : Served a s) (m : Registry.Move s.reg x reg) (keeps : x ≠ .drop s.nodeRef)
    (others : ∀ k ∈ s.conns, ∀ i, x = .make i → k.client ≠ .making i) :
    Served a { s with reg } where
  faithful := Registry.faithful_step h.faithful m
  node := by
    have node := node_kept h m fun going : s.loop ≠ .ended => ⟨going, keeps⟩
    exact node
  running := h.running
  working := h.working
  apart := h.apart
  conns := by
    intro c k hk
    have good := h.conns c k hk
    refine good.transport ?_ (handles_kept m) (fun alive => alive) good.busy
    intro i p inside hp
    refine Registry.maker_same m (fun mine => ?_) hp
    exact others k (List.mem_of_getElem? hk) i mine inside

/-- A connection rewritten, the loop being where it was. -/
theorem served_setConn {s : State} {a c : Nat} {k k' : Conn} (h : Served a s)
    (hk : s.conns[c]? = some k) (good : Good s.reg s.live s.loop a c k')
    (stage : k'.stage = k.stage)
    (alone : ∀ i, k'.client = .making i → k.client = .making i ∨
      ∀ (d : Nat) l, s.conns[d]? = some l → l.client ≠ .making i) :
    Served a (s.setConn c k') where
  faithful := h.faithful
  node := h.node
  running := h.running
  working := by
    intro d busy
    obtain ⟨l, hl, accepted⟩ := h.working d busy
    by_cases same : c = d
    · subst same
      obtain rfl : k = l := Option.mem_unique hk hl
      exact ⟨k', List.getElem?_set_self (lt_of_getElem? hk), stage.trans accepted⟩
    · exact ⟨l, (List.getElem?_set_ne same).trans hl, accepted⟩
  apart := by
    intro d e l n i hl hn making making'
    rcases getElem?_set_cases hl with ⟨rfl, rfl⟩ | ⟨_, old⟩ <;>
      rcases getElem?_set_cases hn with ⟨rfl, rfl⟩ | ⟨_, old'⟩
    · rfl
    · rcases alone i making with before | absent
      · exact h.apart d e k n i hk old' before making'
      · exact absurd making' (absent e n old')
    · rcases alone i making' with before | absent
      · exact h.apart d e l k i old hk making before
      · exact absurd making (absent d l old)
    · exact h.apart d e l n i old old' making making'
  conns := by
    intro d l hl
    rcases getElem?_set_cases hl with ⟨rfl, rfl⟩ | ⟨_, old⟩
    · exact good
    · exact h.conns d l old

/-! ## Every step -/

theorem closes_some {s : State} {a c : Nat} {k : Conn} {reg : Registry.State}
    (good : Good s.reg s.live s.loop a c k)
    (closed : closeAll s.reg (k.inbox.flatMap Packet.fds) = some reg) :
    k.inbox = [] ∧ reg = s.reg ∨ k.inbox = [handshake a] ∧ Registry.Move s.reg (.close a) reg := by
  have one : k.inbox = [handshake a] → k.inbox = [handshake a] ∧
      Registry.Move s.reg (.close a) reg := by
    intro full
    have first : Registry.step s.reg (.close a) = some reg := by
      simpa [full, handshake, closeAll] using closed
    exact ⟨full, Registry.step_move first⟩
  have none_yet : k.inbox = [] → k.inbox = [] ∧ reg = s.reg := by
    intro empty
    have same : s.reg = reg := by simpa [empty, closeAll] using closed
    exact ⟨empty, same.symm⟩
  rcases good.inbox with empty | full
  · exact Or.inl (none_yet empty)
  · rcases good.sent with nothing | greeting
    · exact Or.inl (none_yet (full.trans nothing))
    · exact Or.inr (one (full.trans greeting))

/-- What `Ref::connect` receives in a served run is the handshake. -/
theorem recv_cases {s s' : State} {a c : Nat} {k : Conn} (good : Good s.reg s.live s.loop a c k)
    (running : s.live = true → s.loop ≠ .ended) (waits : k.client = .receiving)
    (h : s.recv c k true = some s') :
    (k.inbox = [] ∧ s.live = false ∧ s' = s.setConn c { k with client := .failed, inbox := [] }) ∨
      ∃ reg, k.inbox = [handshake a] ∧ Registry.Move s.reg (.fromFd a) reg ∧
        s' = { s with reg }.setConn c
          { k with client := .making s.reg.makers.length, inbox := [] } := by
  obtain ⟨full, opened⟩ := good.waiting waits
  rcases good.sent with nothing | greeting
  · have empty := full.trans nothing
    rw [State.recv, empty] at h
    simp only at h
    split at h
    · rename_i shut
      cases h
      refine Or.inl ⟨empty, ?_, rfl⟩
      simp only [State.isShut, Bool.or_eq_true, decide_eq_true_eq] at shut
      rcases shut with (served | lost) | ended
      · rw [good.greeted served opened] at nothing
        cases nothing
      · exact absurd lost good.kept
      · by_contra alive
        exact running (by simpa using alive) ended
    · cases h
  · have whole := full.trans greeting
    rw [State.recv, whole] at h
    simp only [handshake, closeAll, List.foldlM_nil, Option.pure_def, Option.bind_some,
      if_true] at h
    obtain ⟨reg, hreg, rfl⟩ := Option.map_eq_some_iff.mp h
    exact Or.inr ⟨reg, whole, Registry.step_move hreg, rfl⟩

theorem Served.nodeSocket {a : Nat} {s : State} (h : Served a s) : s.nodeSocket = some a := by
  obtain ⟨y, x, hy, hx, aims, _⟩ := h.node
  simp [State.nodeSocket, hy, hx, aims]

/-- The loop sends the handshake, or drops the connection of a client that has gone. -/
theorem send_cases {s s' : State} {a c : Nat} {k : Conn} (h : Served a s)
    (sent : s.send c k true = some s') :
    (k.isOpen = true ∧ ∃ reg, Registry.Move s.reg (.dup a) reg ∧
      s' = { s with reg, loop := .accepting }.setConn c
        { k with
          stage := .served
          sent := k.sent ++ [handshake a]
          inbox := k.inbox ++ [handshake a] }) ∨
      (k.isOpen = false ∧
        s' = { s with loop := .accepting }.setConn c { k with stage := .served }) := by
  rw [State.send, Bool.and_true] at sent
  split at sent
  · rename_i opened
    rw [h.nodeSocket, Option.bind_some] at sent
    obtain ⟨reg, hreg, rfl⟩ := Option.map_eq_some_iff.mp sent
    exact Or.inl ⟨opened, reg, Registry.step_move hreg, rfl⟩
  · rename_i gone
    cases sent
    exact Or.inr ⟨by simpa using gone, rfl⟩

/-- Once the loop has moved on from a connection it was at, it is at no other. -/
theorem served_reloop {s : State} {a c : Nat} {k k' : Conn} {loop' : Loop} (h : Served a s)
    (going : s.loop ≠ .ended) (hk : s.conns[c]? = some k) (client : k'.client = k.client)
    (good : Good s.reg s.live loop' a c k')
    (working : ∀ d, loop' = .registering d ∨ loop' = .sending d → d = c ∧ k'.stage = .accepted)
    (others : ∀ (d : Nat) l, d ≠ c → s.conns[d]? = some l → l.stage = .accepted →
      loop' ≠ .ended → loop' = .registering d ∨ loop' = .sending d)
    (runs : s.live = true → loop' ≠ .ended) :
    Served a ({ s with loop := loop' }.setConn c k') where
  faithful := h.faithful
  node := by
    obtain ⟨y, x, hy, hx, aims, mine, held⟩ := h.node
    exact ⟨y, x, hy, hx, aims, mine, fun _ => held going⟩
  running := runs
  working := by
    intro d busy
    obtain ⟨rfl, accepted⟩ := working d busy
    exact ⟨k', List.getElem?_set_self (lt_of_getElem? hk), accepted⟩
  apart := by
    intro d e l n i hl hn making making'
    have old : ∀ {d : Nat} {l : Conn}, (s.conns.set c k')[d]? = some l →
        ∃ l', s.conns[d]? = some l' ∧ l'.client = l.client := by
      intro d l hl
      rcases getElem?_set_cases hl with ⟨rfl, rfl⟩ | ⟨_, old⟩
      · exact ⟨k, hk, client.symm⟩
      · exact ⟨l, old, rfl⟩
    obtain ⟨l', hl', same⟩ := old hl
    obtain ⟨n', hn', same'⟩ := old hn
    exact h.apart d e l' n' i hl' hn' (same.trans making) (same'.trans making')
  conns := by
    intro d l hl
    rcases getElem?_set_cases hl with ⟨rfl, rfl⟩ | ⟨other, old⟩
    · exact good
    · exact (h.conns d l old).reloop (fun alive => alive) fun accepted =>
        others d l other old accepted

/-- What `hang` leaves of the client. -/
theorem hangUp_some {client client' : Client} (h : client.hangUp = some client') :
    client' ≠ .receiving ∧ (∀ i, client' ≠ .making i) ∧
      (client' = client ∨ client' = .cancelled) := by
  cases client <;> cases h <;> simp

theorem served_connect {s : State} {a : Nat} (h : Served a s) (client : Client)
    (new : client = .receiving ∨ client = .elsewhere) :
    Served a { s with conns := s.conns ++ [⟨.pending, true, [], [], client⟩] } where
  faithful := h.faithful
  node := h.node
  running := h.running
  working := by
    intro c busy
    obtain ⟨k, hk, accepted⟩ := h.working c busy
    exact ⟨k, (List.getElem?_append_left (lt_of_getElem? hk)).trans hk, accepted⟩
  apart := by
    intro c d k l i hk hl making making'
    rcases getElem?_push_cases hk with ⟨_, rfl⟩ | old
    · simp_all
    · rcases getElem?_push_cases hl with ⟨_, rfl⟩ | old'
      · simp_all
      · exact h.apart c d k l i old old' making making'
  conns := by
    intro c k hk
    rcases getElem?_push_cases hk with ⟨_, rfl⟩ | old
    · rcases new with rfl | rfl <;> constructor <;> simp
    · exact h.conns c k old

theorem served_hang {s : State} {a c : Nat} {k : Conn} {client : Client} {reg : Registry.State}
    (h : Served a s) (hk : s.conns[c]? = some k) (left : k.client.hangUp = some client)
    (closed : closeAll s.reg (k.inbox.flatMap Packet.fds) = some reg) :
    Served a ({ s with reg }.setConn c { k with isOpen := false, inbox := [], client }) := by
  have stepped : Served a { s with reg } := by
    rcases closes_some (h.conns c k hk) closed with ⟨_, rfl⟩ | ⟨_, m⟩
    · exact h
    · exact served_reg h m (by simp) (by simp)
  obtain ⟨idle, unmade, end_⟩ := hangUp_some left
  have good := stepped.conns c k hk
  refine served_setConn stepped hk ?_ rfl fun i making => absurd making (unmade i)
  constructor
  · exact good.sent
  · exact good.unsent
  · simp
  · exact Or.inl rfl
  · exact fun waits => absurd waits idle
  · exact fun i making => absurd making (unmade i)
  · intro j returned
    rcases end_ with rfl | rfl
    · exact good.returned j returned
    · cases returned
  · intro failed
    rcases end_ with rfl | rfl
    · exact good.failed failed
    · cases failed
  · exact good.busy
  · exact good.kept

theorem served_take {s : State} {a c : Nat} {k : Conn} {p : Packet} {rest : List Packet}
    (h : Served a s) (hk : s.conns[c]? = some k) (other : k.client = .elsewhere)
    (first : k.inbox = p :: rest) : Served a (s.setConn c { k with inbox := rest }) := by
  have good := h.conns c k hk
  have last : rest = [] := by
    rcases good.inbox with empty | whole
    · rw [first] at empty
      cases empty
    · rcases good.sent with nothing | greeting
      · rw [first, nothing] at whole
        cases whole
      · rw [first, greeting] at whole
        exact (List.cons.inj whole).2
  refine served_setConn h hk ?_ rfl fun i making => Or.inl making
  exact good.reclient (Or.inl last) (by simp [other]) good.making good.returned good.failed

/-- The connection as it would be with its client in another process. -/
def Conn.foreign (k : Conn) : Conn := { k with client := .elsewhere }

theorem served_foreign {s : State} {a c : Nat} {k : Conn} (h : Served a s)
    (hk : s.conns[c]? = some k) : Served a (s.setConn c k.foreign) := by
  refine served_setConn h hk ?_ rfl (by simp [Conn.foreign])
  exact (h.conns c k hk).reclient (Or.inr rfl) (by simp) (by simp) (by simp) (by simp)

theorem setConn_twice (s : State) (c : Nat) (k k' : Conn) :
    (s.setConn c k).setConn c k' = s.setConn c k' := by
  simp [State.setConn]

/-- A step of the registry that `Ref::connect` takes on one connection: the others are
as they would be with that client in another process. -/
theorem served_own {s : State} {a c : Nat} {k k' : Conn} {reg : Registry.State}
    {x : Registry.Act} (h : Served a s) (hk : s.conns[c]? = some k)
    (m : Registry.Move s.reg x reg) (keeps : x ≠ .drop s.nodeRef)
    (others : ∀ (d : Nat) l i, d ≠ c → s.conns[d]? = some l → x = .make i → l.client ≠ .making i)
    (good : Good reg s.live s.loop a c k') (stage : k'.stage = k.stage)
    (alone : ∀ (d : Nat) l i, d ≠ c → s.conns[d]? = some l → k'.client = .making i →
      l.client ≠ .making i) :
    Served a ({ s with reg }.setConn c k') := by
  have inside := lt_of_getElem? hk
  have away := served_foreign h hk
  have stepped : Served a { s.setConn c k.foreign with reg } := by
    refine served_reg away m keeps ?_
    intro l hl i made
    obtain ⟨d, hd⟩ := List.getElem?_of_mem hl
    rcases getElem?_set_cases hd with ⟨_, rfl⟩ | ⟨apart, old⟩
    · simp [Conn.foreign]
    · exact others d l i apart old made
  have back : Served a ({ s.setConn c k.foreign with reg }.setConn c k') := by
    refine served_setConn stepped (List.getElem?_set_self inside) good stage ?_
    intro i making
    refine Or.inr fun d l hl => ?_
    rcases getElem?_set_cases hl with ⟨_, rfl⟩ | ⟨apart, old⟩
    · simp [Conn.foreign]
    · exact alone d l i apart old making
  have whole : { s.setConn c k.foreign with reg }.setConn c k' = { s with reg }.setConn c k' :=
    setConn_twice { s with reg } c k.foreign k'
  exact whole ▸ back

theorem served_recv {s s' : State} {a c : Nat} {k : Conn} (h : Served a s)
    (hk : s.conns[c]? = some k) (waits : k.client = .receiving) (hs : s.recv c k true = some s') :
    Served a s' := by
  have good := h.conns c k hk
  rcases recv_cases good h.running waits hs with ⟨empty, dead, rfl⟩ | ⟨reg, whole, m, rfl⟩
  · refine served_setConn h hk ?_ rfl (by simp)
    exact good.reclient (Or.inl rfl) (by simp) (by simp) (by simp) fun _ => dead
  · refine served_own h hk m (by simp) (by simp) ?_ rfl ?_
    · refine good.reclient (Or.inl rfl) (by simp) (fun i making => ?_) (by simp) (by simp)
      cases m with
      | fromFd _ raws hr some_raw =>
        obtain rfl : s.reg.makers.length = i := by simpa using making
        exact ⟨⟨a, .entered⟩, by simp, rfl, Or.inl rfl⟩
    · intro d l i _ old making made
      obtain rfl : s.reg.makers.length = i := by simpa using making
      obtain ⟨p, hp, _⟩ := (h.conns d l old).making _ made
      exact absurd (lt_of_getElem? hp) (by omega)

theorem served_make {s : State} {a c i : Nat} {k : Conn} {reg : Registry.State} {client : Client}
    (h : Served a s) (hk : s.conns[c]? = some k) (inside : k.client = .making i)
    (m : Registry.Move s.reg (.make i) reg)
    (result : (client = .making i ∧
        ∀ p id, s.reg.makers[i]? = some p → p.stage ≠ .statted id) ∨
      ∃ p id, s.reg.makers[i]? = some p ∧ p.stage = .statted id ∧
        client = .returned s.reg.handles.length) :
    Served a ({ s with reg }.setConn c { k with client }) := by
  have good := h.conns c k hk
  obtain ⟨p, hp, mine, stage⟩ := good.making i inside
  have apart : ∀ (d : Nat) l j, d ≠ c → s.conns[d]? = some l → j = i → l.client ≠ .making j := by
    rintro d l j other hl rfl made
    exact other (h.apart d c l k j hl hk made inside)
  refine served_own h hk m (by simp) (fun d l j other hl same => ?_) ?_ rfl ?_
  · exact apart d l j other hl (by simpa using same.symm)
  · refine good.reclient (Or.inr rfl) ?_ ?_ ?_ ?_
    · rcases result with ⟨rfl, _⟩ | ⟨_, _, _, _, rfl⟩ <;> simp
    · intro j making
      rcases result with ⟨rfl, early⟩ | ⟨_, _, _, _, rfl⟩
      · obtain rfl : i = j := by simpa using making
        rcases stage with entered | ⟨id, statted⟩
        · obtain ⟨p', hp', same, stage⟩ := Registry.made_entered m hp entered
          exact ⟨p', hp', same.trans mine, Or.inr stage⟩
        · exact absurd statted (early p id hp)
      · cases making
    · intro j returned
      rcases result with ⟨rfl, _⟩ | ⟨q, id, hq, statted, rfl⟩
      · cases returned
      · obtain rfl : s.reg.handles.length = j := by simpa using returned
        obtain rfl : p = q := Option.mem_unique hp hq
        obtain ⟨r, hr⟩ := Registry.made_handle m hp statted
        exact ⟨_, hr, mine⟩
    · rcases result with ⟨rfl, _⟩ | ⟨_, _, _, _, rfl⟩ <;> simp
  · intro d l j other hl making
    rcases result with ⟨rfl, _⟩ | ⟨_, _, _, _, rfl⟩
    · exact apart d l j other hl (by simpa using making.symm)
    · cases making

theorem next_some {s : State} {c : Nat} {k : Conn} (next : s.next = some c)
    (hk : s.conns[c]? = some k) : k.stage = .pending := by
  obtain ⟨inside, waits, _⟩ := List.findIdx?_eq_some_iff_getElem.mp next
  obtain ⟨_, rfl⟩ := List.getElem?_eq_some_iff.mp hk
  simpa using waits

/-- An accepted connection is the one that the loop is at. -/
theorem Served.at {s : State} {a c : Nat} {k : Conn} (h : Served a s) (hk : s.conns[c]? = some k)
    (accepted : k.stage = .accepted) (going : s.loop ≠ .ended) :
    s.loop = .registering c ∨ s.loop = .sending c :=
  (h.conns c k hk).busy accepted going

theorem served_accept {s : State} {a c : Nat} {k : Conn} (h : Served a s)
    (idle : s.loop = .accepting) (next : s.next = some c) (hk : s.conns[c]? = some k) :
    Served a ({ s with loop := .registering c }.setConn c { k with stage := .accepted }) := by
  have good := h.conns c k hk
  have waited := next_some next hk
  refine served_reloop h (by simp [idle]) hk rfl ?_ (by simp) ?_ (by simp)
  · constructor
    · exact good.sent
    · exact fun _ => good.unsent (Or.inl waited)
    · simp
    · exact good.inbox
    · exact good.waiting
    · exact good.making
    · exact good.returned
    · exact good.failed
    · simp
    · simp
  · intro d l _ hl accepted _
    rcases h.at hl accepted (by simp [idle]) with busy | busy
    · rw [idle] at busy
      cases busy
    · rw [idle] at busy
      cases busy

theorem served_register {s : State} {a c : Nat} {k : Conn} (h : Served a s)
    (busy : s.loop = .registering c) (hk : s.conns[c]? = some k) :
    Served a { s with loop := .sending c } := by
  obtain ⟨k', hk', accepted⟩ := h.working c (Or.inl busy)
  obtain rfl : k = k' := Option.mem_unique hk hk'
  have good := h.conns c k hk
  have stays : { s with loop := .sending c }.setConn c k = { s with loop := .sending c } :=
    setConn_self hk
  rw [← stays]
  refine served_reloop h (by simp [busy]) hk rfl ?_ ?_ ?_ (by simp)
  · exact good.reloop (fun alive => alive) (by simp)
  · rintro d (same | same)
    · cases same
    · cases same
      exact ⟨rfl, accepted⟩
  · intro d l other hl accepted' _
    rcases h.at hl accepted' (by simp [busy]) with busy' | busy'
    · rw [busy] at busy'
      cases busy'
      exact absurd rfl other
    · rw [busy] at busy'
      cases busy'

theorem served_send {s s' : State} {a c : Nat} {k : Conn} (h : Served a s)
    (busy : s.loop = .sending c) (hk : s.conns[c]? = some k) (hs : s.send c k true = some s') :
    Served a s' := by
  obtain ⟨k', hk', accepted⟩ := h.working c (Or.inr busy)
  obtain rfl : k = k' := Option.mem_unique hk hk'
  have others : ∀ (d : Nat) l, d ≠ c → s.conns[d]? = some l → l.stage = .accepted →
      Loop.accepting ≠ .ended → Loop.accepting = .registering d ∨ Loop.accepting = .sending d := by
    intro d l other hl accepted' _
    rcases h.at hl accepted' (by simp [busy]) with busy' | busy'
    · rw [busy] at busy'
      cases busy'
    · rw [busy] at busy'
      cases busy'
      exact absurd rfl other
  rcases send_cases h hs with ⟨opened, reg, m, rfl⟩ | ⟨gone, rfl⟩
  · have stepped : Served a { s with reg } := served_reg h m (by simp) (by simp)
    have good := stepped.conns c k hk
    have unsent := good.unsent (Or.inr accepted)
    have empty : k.inbox = [] := by
      rcases good.inbox with empty | whole
      · exact empty
      · exact whole.trans unsent
    refine served_reloop stepped (by simp [busy]) hk rfl ?_ (by simp) others (by simp)
    constructor
    · simp [unsent]
    · simp
    · simp [unsent]
    · simp [unsent, empty]
    · simp [unsent, empty, opened]
    · exact good.making
    · exact good.returned
    · exact good.failed
    · simp
    · simp
  · have good := h.conns c k hk
    refine served_reloop h (by simp [busy]) hk rfl ?_ (by simp) others (by simp)
    constructor
    · exact good.sent
    · simp
    · simp [gone]
    · exact good.inbox
    · exact good.waiting
    · exact good.making
    · exact good.returned
    · exact good.failed
    · simp
    · simp

theorem served_step {s s' : State} {a : Nat} {x : Act} (h : Served a s) (g : unfailing s x)
    (m : Move s x s') : Served a s' := by
  cases m with
  | reg x reg m allowed =>
    refine served_reg h m ?_ ?_
    · rintro rfl
      simp [State.allows] at allowed
    · rintro k hk i rfl
      simpa using List.all_eq_true.mp allowed k hk
  | connect inProcess going =>
    exact served_connect h _ (by cases inProcess <;> simp)
  | hang c k client reg hk left closed => exact served_hang h hk left closed
  | take c k p rest hk other first => exact served_take h hk other first
  | recv c k slot s' hk waits hs =>
    obtain rfl : slot = true := g
    exact served_recv h hk waits hs
  | make c k i reg client hk inside m result => exact served_make h hk inside m result
  | accept c k idle next hk => exact served_accept h idle next hk
  | refuse reg idle m => exact absurd g (by simp [unfailing])
  | register c k busy hk => exact served_register h busy hk
  | lose c k reg busy hk m => exact absurd g (by simp [unfailing])
  | send c k ok s' busy hk hs =>
    obtain rfl : ok = true := g
    exact served_send h busy hk hs
  | dropBinding =>
    refine ⟨h.faithful, h.node, by simp, h.working, h.apart, fun c k hk => ?_⟩
    exact (h.conns c k hk).reloop (by simp) (h.conns c k hk).busy
  | abort reg dropped m =>
    refine ⟨Registry.faithful_step h.faithful m, ?_, by simp [dropped], by simp, h.apart, ?_⟩
    · have node := node_kept h m fun going : Loop.ended ≠ .ended => absurd rfl going
      exact node
    · intro c k hk
      exact (h.conns c k hk).transport (fun i p _ hp => Registry.maker_same m (by simp) hp)
        (handles_kept m) (fun alive => alive) (by simp)

theorem bound_served {s : State} (h : Bound s) : ∃ a, Served a s := by
  have faithful := Registry.faithful h.reg
  obtain ⟨y, hy, held⟩ := h.held
  obtain ⟨x, hx, aims⟩ := faithful.aimed s.nodeRef y hy
  refine ⟨y.socket, faithful, ⟨y, x, hy, hx, aims, rfl, fun _ => held⟩, ?_, ?_, ?_, ?_⟩
  · simp [h.loop]
  · simp [h.loop]
  · simp [h.conns]
  · simp [h.conns]

/-! ## The descriptors in flight -/

def rawsOf (reg : Registry.State) (b : Nat) : Nat := (reg.sockets[b]?).elim 0 Registry.Sock.raws

theorem spare_iff {s : State} {b : Nat} : s.spare b = true ↔ s.inFlight b < rawsOf s.reg b := by
  cases hb : s.reg.sockets[b]? <;> simp [State.spare, rawsOf, hb]

theorem rawsOf_set {reg : Registry.State} {b : Nat} {k : Registry.Sock}
    (hk : reg.sockets[b]? = some k) (n c : Nat) :
    rawsOf (reg.setRaws b k n) c = if b = c then n else rawsOf reg c := by
  by_cases same : b = c
  · subst same
    simp [rawsOf, Registry.State.setRaws, List.getElem?_set_self (lt_of_getElem? hk)]
  · simp [rawsOf, Registry.State.setRaws, List.getElem?_set_ne same, same]

/-- A step of the registry takes a descriptor of a socket from outside only by
closing it or by making a capability of it. -/
theorem rawsOf_kept {s s' : Registry.State} {x : Registry.Act} (m : Registry.Move s x s') {b : Nat}
    (other : x ≠ .close b) (other' : x ≠ .fromFd b) : rawsOf s b ≤ rawsOf s' b := by
  cases m with
  | openSocket id unused =>
    cases hb : s.sockets[b]? with
    | none => simp [rawsOf, hb]
    | some k => simp [rawsOf, hb, List.getElem?_append_left (lt_of_getElem? hb)]
  | dup c k hk named =>
    rw [rawsOf_set hk]
    split
    · rename_i same
      subst same
      simp [rawsOf, hk]
    · exact le_rfl
  | close c k hk some_raw =>
    rw [rawsOf_set hk, if_neg]
    rintro rfl
    exact other rfl
  | fromFd c k hk some_raw =>
    have moved := rawsOf_set hk (k.raws - 1) b
    rw [if_neg] at moved
    · exact le_of_eq moved.symm
    · rintro rfl
      exact other' rfl
  | _ => exact le_rfl

theorem rawsOf_close {s s' : Registry.State} {a : Nat} (m : Registry.Move s (.close a) s') :
    rawsOf s a = rawsOf s' a + 1 := by
  cases m with
  | close _ k hk some_raw =>
    rw [rawsOf_set hk, if_pos rfl]
    simp only [rawsOf, hk, Option.elim_some]
    omega

theorem rawsOf_fromFd {s s' : Registry.State} {a : Nat} (m : Registry.Move s (.fromFd a) s') :
    rawsOf s a = rawsOf s' a + 1 := by
  cases m with
  | fromFd _ k hk some_raw =>
    have moved := rawsOf_set hk (k.raws - 1) a
    rw [if_pos rfl] at moved
    have before : rawsOf s a = k.raws := by simp [rawsOf, hk]
    have after : rawsOf { s.setRaws a k (k.raws - 1) with
      makers := s.makers ++ [⟨a, .entered⟩] } a = k.raws - 1 := moved
    omega

theorem rawsOf_dup {s s' : Registry.State} {a : Nat} (m : Registry.Move s (.dup a) s') :
    rawsOf s' a = rawsOf s a + 1 := by
  cases m with
  | dup _ k hk named =>
    rw [rawsOf_set hk, if_pos rfl]
    simp [rawsOf, hk]

theorem rawsOf_less {s s' : Registry.State} {x : Registry.Act} {a : Nat}
    (m : Registry.Move s x s') (only : x = .close a ∨ x = .fromFd a) (b : Nat) :
    rawsOf s b ≤ rawsOf s' b + if a = b then 1 else 0 := by
  by_cases same : a = b
  · subst same
    rw [if_pos rfl]
    rcases only with rfl | rfl
    · exact le_of_eq (rawsOf_close m)
    · exact le_of_eq (rawsOf_fromFd m)
  · rw [if_neg same]
    refine rawsOf_kept m ?_ ?_ <;> rcases only with rfl | rfl <;> simp [same]

/-- Every descriptor in flight is one from outside this crate. -/
def Afloat (s : State) : Prop := ∀ b, s.inFlight b ≤ rawsOf s.reg b

theorem flight_handshake (a b : Nat) : ([handshake a].flatMap Packet.fds).count b =
    if a = b then 1 else 0 := by
  simp [handshake, List.count_singleton]

theorem afloat_reg {s : State} {reg : Registry.State} {x : Registry.Act} (h : Afloat s)
    (m : Registry.Move s.reg x reg) (allowed : s.allows x = true) : Afloat { s with reg } := by
  intro b
  have enough := h b
  have same : State.inFlight { s with reg } b = s.inFlight b := rfl
  rw [same]
  by_cases closes : x = .close b
  · subst closes
    have lowered := rawsOf_close m
    have spare := spare_iff.mp allowed
    simp only
    omega
  · by_cases takes : x = .fromFd b
    · subst takes
      have lowered := rawsOf_fromFd m
      have spare := spare_iff.mp allowed
      simp only
      omega
    · exact Nat.le_trans enough (rawsOf_kept m closes takes)

theorem afloat_end {s : State} {reg : Registry.State} {n : Nat} (h : Afloat s)
    (m : Registry.Move s.reg (.drop n) reg) : Afloat { s with reg, loop := .ended } :=
  fun b => Nat.le_trans (h b) (rawsOf_kept m (by simp) (by simp))

/-- A connection rewritten together with the registry. -/
theorem afloat_own {s : State} {c : Nat} {k k' : Conn} {reg : Registry.State} {loop : Loop}
    (h : Afloat s) (hk : s.conns[c]? = some k)
    (covered : ∀ b, k'.flight b + rawsOf s.reg b ≤ k.flight b + rawsOf reg b) :
    Afloat ({ s with reg, loop }.setConn c k') := by
  intro b
  have enough := h b
  have moved := total_set (Conn.flight b) k' hk
  have least := covered b
  have now : ({ s with reg, loop }.setConn c k').inFlight b =
    total (Conn.flight b) (s.conns.set c k') := rfl
  simp only [State.inFlight] at enough
  rw [now]
  simp only [State.setConn]
  omega

theorem afloat_step {s s' : State} {a : Nat} {x : Act} (h : Afloat s) (served : Served a s)
    (g : unfailing s x) (m : Move s x s') : Afloat s' := by
  cases m with
  | reg x reg m allowed => exact afloat_reg h m allowed
  | connect inProcess going =>
    intro b
    have enough := h b
    simpa [State.inFlight, Conn.flight] using enough
  | hang c k client reg hk left closed =>
    rcases closes_some (served.conns c k hk) closed with ⟨_, rfl⟩ | ⟨whole, m⟩
    · exact afloat_own h hk fun b => by simp [Conn.flight]
    · refine afloat_own h hk fun b => ?_
      have less := rawsOf_less m (Or.inl rfl) b
      simp only [Conn.flight, whole, flight_handshake]
      simp only [List.flatMap_nil, List.count_nil]
      omega
  | take c k p rest hk other first =>
    refine afloat_own h hk fun b => ?_
    simp only [Conn.flight, first, List.flatMap_cons, List.count_append]
    omega
  | recv c k slot s' hk waits hs =>
    obtain rfl : slot = true := g
    rcases recv_cases (served.conns c k hk) served.running waits hs with
      ⟨empty, _, rfl⟩ | ⟨reg, whole, m, rfl⟩
    · exact afloat_own h hk fun b => by simp [Conn.flight]
    · refine afloat_own h hk fun b => ?_
      have less := rawsOf_less m (Or.inr rfl) b
      simp only [Conn.flight, whole, flight_handshake]
      simp only [List.flatMap_nil, List.count_nil]
      omega
  | make c k i reg client hk inside m result =>
    refine afloat_own h hk fun b => ?_
    have kept := rawsOf_kept m (b := b) (by simp) (by simp)
    simpa [Conn.flight] using kept
  | accept c k idle next hk => exact afloat_own h hk fun b => le_rfl
  | refuse reg idle m => exact afloat_end h m
  | register c k busy hk => exact h
  | lose c k reg busy hk m =>
    refine afloat_own h hk fun b => ?_
    have kept := rawsOf_kept m (b := b) (by simp) (by simp)
    simpa [Conn.flight] using kept
  | send c k ok s' busy hk hs =>
    obtain rfl : ok = true := g
    rcases send_cases served hs with ⟨_, reg, m, rfl⟩ | ⟨_, rfl⟩
    · refine afloat_own h hk fun b => ?_
      simp only [Conn.flight, List.flatMap_append, List.count_append, flight_handshake]
      by_cases same : a = b
      · subst same
        rw [rawsOf_dup m]
        simp only [if_pos]
        omega
      · have kept := rawsOf_kept m (b := b) (by simp) (by simp)
        simp only [if_neg same]
        omega
    · exact afloat_own h hk fun b => le_rfl
  | dropBinding => exact h
  | abort reg dropped m => exact afloat_end h m

/-! ## Every run -/

/-- What is known of every state of a run in which nothing fails. -/
def Sound (a : Nat) (s : State) : Prop := Served a s ∧ Afloat s

theorem sound_step {s t : State} {a : Nat} {x : Act} (h : Sound a s) (g : unfailing s x)
    (ht : machine.step s x = some t) : Sound a t :=
  ⟨served_step h.1 g (step_move ht), afloat_step h.2 h.1 g (step_move ht)⟩

theorem sound {s : State} (h : Reachable machine unfailing s) : ∃ a, Sound a s := by
  refine reachable_invariant (P := fun s => ∃ a, Sound a s) ?_ ?_ h
  · intro s bound
    obtain ⟨a, served⟩ := bound_served bound
    exact ⟨a, served, fun b => by simp [State.inFlight, bound.conns]⟩
  · rintro s x t ⟨a, sound⟩ g ht
    exact ⟨a, sound_step sound g ht⟩

end Serving
