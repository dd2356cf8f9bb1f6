import StrongIpc.Library.StepMachine
import StrongIpc.RoundTrip

/-!
# Parties that hand capabilities to each other

Any number of nodes and of parties that hold `Ref`s and descriptors to them, send on
these, put them on messages, receive them in their handlers, bind them to paths and
connect to paths. A party is a process, or any part of one that shares nothing with the
rest; one that dies is one that drops what it has and aborts its nodes. Outboxes and
the registry are left to the modules about one socket: here a message is sent when it
is on the wire, and a `Ref` counts for the descriptor that it owns.
-/

namespace Network

open Receive RoundTrip StepMachine Wire

/-- `ending` is `parked` as long as the loop runs. -/
structure Node (P : Type) where
  owner : P
  wire : List Datagram
  loop : Loop
  busy : Bool
  ending : Ending
  deriving DecidableEq, Repr

/-- The accept loop of a `RefFsBinding` and the `Ref` that it gives away. -/
structure Door (P : Type) where
  binder : P
  ref : Nat
  deriving DecidableEq, Repr

/-- A node is named by its place in `nodes`, and so is whatever else a descriptor may
name, as a node whose loop is over. `welcomes` are the answers to `connect`s. -/
structure World (P : Type) where
  nodes : List (Node P)
  held : List (P × Nat)
  doors : List (Option (Door P))
  welcomes : List (P × Nat)
  deriving DecidableEq, Repr

inductive Act where
  | open
  | openOther
  | clone (s : Nat)
  | drop (s : Nat)
  | send (s : Nat) (m : Message) (stack heap : Nat)
  | bind (s : Nat)
  | unbind (k : Nat)
  | connect (k : Nat)
  | greet (i : Nat) (got : Bool)
  | recv (s slots : Nat)
  | handled (s : Nat)
  | hangup (s : Nat)
  | stop (s : Nat) (e : Ending)
  deriving DecidableEq, Repr

structure Label (P : Type) where
  who : P
  act : Act
  deriving DecidableEq, Repr

/-- What does not change: the build, where the control buffers start, the handlers, and
what the kernel stamps messages with. -/
structure Setting (P : Type) where
  debug : Bool
  address : Nat
  handler : Nat → Handler
  creds : P → Option UCred

variable {P : Type}

/-- The node that the descriptor leads to. -/
def asFd : SendFd → Nat
  | .owned s => s
  | .ref s => s
  | .foreign s => s

def Node.fresh (p : P) : Node P := ⟨p, [], start, false, .parked⟩

/-- What is not a node, as a node that is over. -/
def Node.other (p : P) : Node P := ⟨p, [], start, false, .failed⟩

def Node.isIdle (n : Node P) : Bool := n.ending = .parked && !n.busy

/-- The receiving end is closed, with all that is unread. -/
def Node.finish (n : Node P) (e : Ending) : Node P :=
  { n with wire := [], busy := false, ending := e }

/-- One turn of the loop. -/
def Node.turn (c : Setting P) (s slots : Nat) (n : Node P) (d : Datagram) : Loop × Ending :=
  recvLoop c.debug (c.handler s) c.address n.loop [.datagram d slots]

/-- The calls of the handler that are new. -/
def Node.since (n : Node P) (loop : Loop) : List Call := loop.calls.drop n.loop.calls.length

def World.setNode (w : World P) (s : Nat) (n : Node P) : World P :=
  { w with nodes := w.nodes.set s n }

/-- What is new is named by its maker. -/
def World.add (w : World P) (n : Node P) : World P :=
  { w with nodes := w.nodes ++ [n], held := w.held ++ [(n.owner, w.nodes.length)] }

/-- Everything that names a node, with the party that has it or is to get it. -/
def World.claims (w : World P) : List (P × Nat) :=
  w.held ++ w.welcomes ++ w.doors.flatMap (fun k => k.toList.map fun k => (k.binder, k.ref)) ++
    w.nodes.flatMap fun n => n.wire.flatMap fun d => d.fds.map fun s => (n.owner, s)

def World.isNamed (w : World P) (s : Nat) : Bool := w.claims.any fun x => x.2 = s

/-- `recv_loop` takes the next datagram. -/
def World.recv (w : World P) (c : Setting P) (s slots : Nat) (n : Node P) : Option (World P) :=
  match n.wire with
  | [] => none
  | d :: rest =>
    let (loop, ending) := n.turn c s slots d
    if ending = .parked then
      some
        { w.setNode s { n with wire := rest, loop, busy := !(n.since loop).isEmpty } with
          held := w.held ++ (n.since loop).flatMap fun call => call.fds.map fun f => (n.owner, f) }
    else some (w.setNode s ({ n with loop }.finish ending))

variable [DecidableEq P]

def World.holds (w : World P) (p : P) (s : Nat) : Bool := w.held.contains (p, s)

/-- The message that `who` sends. -/
def World.put (w : World P) (c : Setting P) (who : P) (s : Nat) (n : Node P) (m : Message)
    (stack heap : Nat) : Option (World P) :=
  match sendNow stack heap asFd m with
  | .error _ => none
  | .ok o => (o.datagram (c.creds who)).map fun d => w.setNode s { n with wire := n.wire ++ [d] }

def World.onNode (w : World P) (s : Nat) (f : Node P → Option (World P)) : Option (World P) :=
  match w.nodes[s]? with
  | none => none
  | some n => f n

def step (c : Setting P) (w : World P) (l : Label P) : Option (World P) :=
  match l.act with
  | .open => some (w.add (.fresh l.who))
  | .openOther => some (w.add (.other l.who))
  | .clone s => if w.holds l.who s then some { w with held := (l.who, s) :: w.held } else none
  | .drop s =>
    if w.holds l.who s then some { w with held := w.held.erase (l.who, s) } else none
  | .send s m stack heap =>
    w.onNode s fun n =>
      if w.holds l.who s && (m.fds.all fun f => w.holds l.who (asFd f)) && n.ending = .parked then
        w.put c l.who s n m stack heap
      else none
  | .bind s =>
    if w.holds l.who s then
      some { w with held := w.held.erase (l.who, s), doors := w.doors ++ [some ⟨l.who, s⟩] }
    else none
  | .unbind k =>
    match w.doors[k]? with
    | some (some door) =>
      if door.binder = l.who then some { w with doors := w.doors.set k none } else none
    | _ => none
  | .connect k =>
    match w.doors[k]? with
    | some (some door) => some { w with welcomes := w.welcomes ++ [(l.who, door.ref)] }
    | _ => none
  | .greet i got =>
    match w.welcomes[i]? with
    | none => none
    | some x =>
      if x.1 = l.who then
        some
          { w with
            welcomes := w.welcomes.eraseIdx i
            held := if got then x :: w.held else w.held }
      else none
  | .recv s slots =>
    w.onNode s fun n => if n.owner = l.who && n.isIdle then w.recv c s slots n else none
  | .handled s =>
    w.onNode s fun n =>
      if n.owner = l.who && n.busy then some (w.setNode s { n with busy := false }) else none
  | .hangup s =>
    w.onNode s fun n =>
      if n.owner = l.who && n.isIdle && n.wire.isEmpty && !w.isNamed s then
        some (w.setNode s (n.finish .hungUp))
      else none
  | .stop s e =>
    w.onNode s fun n =>
      if n.owner = l.who && n.ending = .parked && e ≠ .parked then some (w.setNode s (n.finish e))
      else none

/-- Nothing names a node that there is not, no loop has lost its buffer, and nothing is
unread where no loop is. -/
structure Valid (w : World P) : Prop where
  named : ∀ x ∈ w.claims, x.2 < w.nodes.length
  full : ∀ n ∈ w.nodes, n.loop.buf.length = maxMessageSize
  stopped : ∀ n ∈ w.nodes, n.ending ≠ .parked → n.wire = [] ∧ n.busy = false

/-- Any world, however it came about. -/
def machine (c : Setting P) : Machine (World P) (Label P) where
  init w := Valid w
  step := step c

theorem machine_step (c : Setting P) : (machine c).step = step c := rfl

/-! ## One turn of a loop -/

/-- What a loop makes of one datagram. -/
inductive Turn (l : Loop) (address slots : Nat) (d : Datagram) : Loop × Ending → Prop where
  | ended (l' : Loop) (e : Ending) (calls : l'.calls = l.calls) (stopped : e ≠ .parked) :
      Turn l address slots d (l', e)
  | dropped (l' : Loop) (calls : l'.calls = l.calls) (long : maxMessageSize < d.payload.length) :
      Turn l address slots d (l', .parked)
  | called (l' : Loop) (fits : d.fits = true)
      (calls : l'.calls = l.calls ++ [⟨d.payload, d.arriving address slots, d.creds⟩]) :
      Turn l address slots d (l', .parked)

/-- A debug build panics where descriptors were cut. -/
theorem recvNow_panics {buf : List UInt8} {address slots : Nat} {d : Datagram}
    (cut : d.arriving address slots ≠ d.fds) : recvNow true buf address slots d = none := by
  have shorter : (d.arriving address slots).length < d.fds.length := by
    have prefixed : d.arriving address slots = d.fds.take (min _ slots) := rfl
    by_contra whole
    apply cut
    rw [prefixed] at whole ⊢
    rw [List.length_take] at whole
    exact List.take_of_length_le (by omega)
  rw [recvNow, recvControl_eq]
  simp [shorter]

theorem turn_cases (debug : Bool) (h : Handler) (address slots : Nat) (d : Datagram) {l : Loop}
    (full : l.buf.length = maxMessageSize) :
    Turn l address slots d (recvLoop debug h address l [.datagram d slots]) ∧
      (recvLoop debug h address l [.datagram d slots]).1.buf.length = maxMessageSize := by
  by_cases quiet : debug = true → d.arriving address slots = d.fds
  · have whole : Quiet debug address [.datagram d slots] := by
      intro on e slots' inside
      cases List.mem_singleton.mp inside
      exact quiet on
    rw [recvLoop_datagram h full whole]
    dsimp only
    split
    · exact ⟨.ended _ _ rfl (by simp), (overwrite_length _ _).trans full⟩
    · rename_i some_bytes
      split
      · rename_i fits
        refine ⟨.called _ fits rfl, ?_⟩
        have inside := (fits_iff.mp fits).2
        rw [recvLoop, handle_length (by rw [overwrite_length]; omega), overwrite_length, full]
      · rename_i unfit
        refine ⟨.dropped _ rfl ?_, (overwrite_length _ _).trans full⟩
        simp only [Datagram.fits, Bool.and_eq_true, decide_eq_true_eq, not_and] at unfit
        exact Nat.not_le.mp (unfit (Nat.pos_of_ne_zero some_bytes))
  · have build : debug = true := by
      by_contra off
      exact quiet fun on => absurd on off
    subst build
    have cut : d.arriving address slots ≠ d.fds := fun same => quiet fun _ => same
    rw [recvLoop, attempt, recvNow_panics cut]
    exact ⟨.ended _ _ rfl (by simp), full⟩

/-! ## Everything one step can do -/

/-- Why a loop is over: it read an empty message, or `recvmsg` or a debug build failed at
one; nobody has a descriptor of the node left and all is read; or its party wanted so. -/
inductive Cause (w : World P) (s : Nat) (n : Node P) : Act → Ending → Prop where
  | datagram (slots : Nat) (e : Ending) (unread : n.wire ≠ []) : Cause w s n (.recv s slots) e
  | unnamed (all_read : n.wire = []) (unnamed : w.isNamed s = false) :
      Cause w s n (.hangup s) .hungUp
  | stopped (e : Ending) : Cause w s n (.stop s e) e

inductive Move (c : Setting P) (w : World P) : Label P → World P → Prop where
  | opened (p : P) : Move c w ⟨p, .open⟩ (w.add (.fresh p))
  | other (p : P) : Move c w ⟨p, .openOther⟩ (w.add (.other p))
  | cloned (p : P) (s : Nat) (held : (p, s) ∈ w.held) :
      Move c w ⟨p, .clone s⟩ { w with held := (p, s) :: w.held }
  | dropped (p : P) (s : Nat) (held : (p, s) ∈ w.held) :
      Move c w ⟨p, .drop s⟩ { w with held := w.held.erase (p, s) }
  | sent (p : P) (s : Nat) (m : Message) (stack heap : Nat) (n : Node P)
      (hn : w.nodes[s]? = some n) (held : (p, s) ∈ w.held)
      (attached : ∀ f ∈ m.fds, (p, asFd f) ∈ w.held) (going : n.ending = .parked)
      (few : m.fds.length ≤ maxFds) :
      Move c w ⟨p, .send s m stack heap⟩
        (w.setNode s { n with wire := n.wire ++ [⟨m.data, m.fds.map asFd, c.creds p⟩] })
  | bound (p : P) (s : Nat) (held : (p, s) ∈ w.held) :
      Move c w ⟨p, .bind s⟩
        { w with held := w.held.erase (p, s), doors := w.doors ++ [some ⟨p, s⟩] }
  | unbound (k : Nat) (door : Door P) (hk : w.doors[k]? = some (some door)) :
      Move c w ⟨door.binder, .unbind k⟩ { w with doors := w.doors.set k none }
  | connected (p : P) (k : Nat) (door : Door P) (hk : w.doors[k]? = some (some door)) :
      Move c w ⟨p, .connect k⟩ { w with welcomes := w.welcomes ++ [(p, door.ref)] }
  | greeted (p : P) (s i : Nat) (got : Bool) (hi : w.welcomes[i]? = some (p, s)) :
      Move c w ⟨p, .greet i got⟩
        { w with
          welcomes := w.welcomes.eraseIdx i
          held := if got then (p, s) :: w.held else w.held }
  | turned (s slots : Nat) (n : Node P) (d : Datagram) (rest : List Datagram) (loop : Loop)
      (hn : w.nodes[s]? = some n) (idle : n.isIdle = true) (wire : n.wire = d :: rest)
      (turn : Turn n.loop c.address slots d (loop, .parked))
      (full : loop.buf.length = maxMessageSize) :
      Move c w ⟨n.owner, .recv s slots⟩
        { w.setNode s { n with wire := rest, loop, busy := !(n.since loop).isEmpty } with
          held := w.held ++
            (n.since loop).flatMap fun call => call.fds.map fun f => (n.owner, f) }
  | handled (s : Nat) (n : Node P) (hn : w.nodes[s]? = some n) (busy : n.busy = true) :
      Move c w ⟨n.owner, .handled s⟩ (w.setNode s { n with busy := false })
  | finished (s : Nat) (n : Node P) (loop : Loop) (a : Act) (e : Ending)
      (hn : w.nodes[s]? = some n) (going : n.ending = .parked) (cause : Cause w s n a e)
      (stopped : e ≠ .parked) (calls : loop.calls = n.loop.calls)
      (full : loop.buf.length = maxMessageSize) :
      Move c w ⟨n.owner, a⟩ (w.setNode s ({ n with loop }.finish e))

omit [DecidableEq P] in
theorem onNode_some {w t : World P} {s : Nat} {f : Node P → Option (World P)}
    (h : w.onNode s f = some t) : ∃ n, w.nodes[s]? = some n ∧ f n = some t := by
  rw [World.onNode] at h
  split at h
  · cases h
  · rename_i n hn
    exact ⟨n, hn, h⟩

omit [DecidableEq P] in
theorem put_eq (c : Setting P) (w : World P) (who : P) (s : Nat) (n : Node P) (m : Message)
    (stack heap : Nat) :
    w.put c who s n m stack heap =
      if m.fds.length ≤ maxFds then
        some (w.setNode s { n with wire := n.wire ++ [⟨m.data, m.fds.map asFd, c.creds who⟩] })
      else none := by
  rw [World.put, sendNow_eq]
  dsimp only
  rw [datagram_eq]
  split <;> rfl

theorem recv_move {c : Setting P} {w t : World P} {s slots : Nat} {n : Node P} (hv : Valid w)
    (hn : w.nodes[s]? = some n) (idle : n.isIdle = true) (h : w.recv c s slots n = some t) :
    Move c w ⟨n.owner, .recv s slots⟩ t := by
  have going : n.ending = .parked := by
    simp only [Node.isIdle, Bool.and_eq_true, decide_eq_true_eq] at idle
    exact idle.1
  rw [World.recv] at h
  split at h
  · cases h
  · rename_i d rest wire
    obtain ⟨turn, full⟩ := turn_cases c.debug (c.handler s) c.address slots d
      (hv.full n (List.mem_of_getElem? hn))
    have same : n.turn c s slots d = recvLoop c.debug (c.handler s) c.address n.loop
        [.datagram d slots] := rfl
    rw [← same] at turn full
    generalize n.turn c s slots d = r at h turn full
    obtain ⟨loop, ending⟩ := r
    dsimp only at h
    split at h
    · rename_i parked
      subst parked
      cases h
      exact .turned s slots n d rest loop hn idle wire turn full
    · rename_i stopped
      cases h
      have calls : loop.calls = n.loop.calls := by
        cases turn with
        | ended _ _ calls _ => exact calls
        | dropped _ _ _ => exact absurd rfl stopped
        | called _ _ _ => exact absurd rfl stopped
      exact .finished s n loop _ ending hn going (.datagram slots ending (by simp [wire])) stopped
        calls full

theorem step_move {c : Setting P} {w t : World P} {l : Label P} (hv : Valid w)
    (h : step c w l = some t) : Move c w l t := by
  obtain ⟨who, act⟩ := l
  cases act with
  | «open» =>
    cases h
    exact .opened who
  | openOther =>
    cases h
    exact .other who
  | clone s =>
    obtain ⟨held, rfl⟩ := by simpa [step, World.holds] using h
    exact .cloned who s held
  | drop s =>
    obtain ⟨held, rfl⟩ := by simpa [step, World.holds] using h
    exact .dropped who s held
  | send s m stack heap =>
    obtain ⟨n, hn, h⟩ := onNode_some h
    obtain ⟨⟨⟨held, attached⟩, going⟩, h⟩ := by simpa [World.holds] using h
    rw [put_eq] at h
    obtain ⟨few, rfl⟩ := by simpa using h
    exact .sent who s m stack heap n hn held attached going few
  | bind s =>
    obtain ⟨held, rfl⟩ := by simpa [step, World.holds] using h
    exact .bound who s held
  | unbind k =>
    simp only [step] at h
    split at h
    · rename_i door hk
      obtain ⟨rfl, rfl⟩ := by simpa using h
      exact .unbound k door hk
    · cases h
  | connect k =>
    simp only [step] at h
    split at h
    · rename_i door hk
      cases h
      exact .connected who k door hk
    · cases h
  | greet i got =>
    simp only [step] at h
    split at h
    · cases h
    · rename_i x hi
      obtain ⟨p, s⟩ := x
      obtain ⟨rfl, rfl⟩ := by simpa using h
      exact .greeted p s i got hi
  | recv s slots =>
    obtain ⟨n, hn, h⟩ := onNode_some h
    obtain ⟨⟨rfl, idle⟩, turned⟩ := by simpa using h
    exact recv_move hv hn idle turned
  | handled s =>
    obtain ⟨n, hn, h⟩ := onNode_some h
    obtain ⟨⟨rfl, busy⟩, rfl⟩ := by simpa using h
    exact .handled s n hn busy
  | hangup s =>
    obtain ⟨n, hn, h⟩ := onNode_some h
    obtain ⟨⟨⟨⟨rfl, idle⟩, all_read⟩, unnamed⟩, rfl⟩ := by simpa using h
    have going : n.ending = .parked := by
      simp only [Node.isIdle, Bool.and_eq_true, decide_eq_true_eq] at idle
      exact idle.1
    exact .finished s n n.loop _ _ hn going (.unnamed all_read unnamed) (by simp) rfl
      (hv.full n (List.mem_of_getElem? hn))
  | stop s e =>
    obtain ⟨n, hn, h⟩ := onNode_some h
    obtain ⟨⟨⟨rfl, going⟩, stopped⟩, rfl⟩ := by simpa using h
    exact .finished s n n.loop _ _ hn going (.stopped e) stopped rfl
      (hv.full n (List.mem_of_getElem? hn))

/-! ## Steps that can be taken -/

omit [DecidableEq P] in
theorem turn_called {c : Setting P} {n : Node P} {d : Datagram} {slots : Nat} (s : Nat)
    (full : n.loop.buf.length = maxMessageSize) (fits : d.fits = true)
    (whole : d.arriving c.address slots = d.fds) :
    ∃ loop, n.turn c s slots d = (loop, .parked) ∧
      loop.calls = n.loop.calls ++ [⟨d.payload, d.fds, d.creds⟩] := by
  have quiet : Quiet c.debug c.address [.datagram d slots] := by
    intro _ e slots' inside
    cases List.mem_singleton.mp inside
    exact whole
  have some_bytes : d.payload.length ≠ 0 := Nat.ne_of_gt (fits_iff.mp fits).1
  have turned := recvLoop_datagram (c.handler s) full quiet
  rw [Node.turn, turned, if_neg some_bytes, if_pos fits, whole]
  exact ⟨_, rfl, rfl⟩

theorem send_step {c : Setting P} {w : World P} {p : P} {s : Nat} {m : Message} {n : Node P}
    (hn : w.nodes[s]? = some n) (going : n.ending = .parked) (held : (p, s) ∈ w.held)
    (attached : ∀ f ∈ m.fds, (p, asFd f) ∈ w.held) (few : m.fds.length ≤ maxFds) :
    step c w ⟨p, .send s m 0 0⟩ =
      some (w.setNode s { n with wire := n.wire ++ [⟨m.data, m.fds.map asFd, c.creds p⟩] }) := by
  have allowed : (w.holds p s && (m.fds.all fun f => w.holds p (asFd f)) &&
      decide (n.ending = .parked)) = true := by
    simpa [World.holds, held, going] using attached
  simp only [step, World.onNode, hn, allowed, if_true, put_eq, few]

theorem recv_step {c : Setting P} {w : World P} {s slots : Nat} {n : Node P} {d : Datagram}
    {rest : List Datagram} {loop : Loop} {call : Call} (hn : w.nodes[s]? = some n)
    (idle : n.isIdle = true) (wire : n.wire = d :: rest)
    (turn : n.turn c s slots d = (loop, .parked)) (calls : loop.calls = n.loop.calls ++ [call]) :
    step c w ⟨n.owner, .recv s slots⟩ =
      some
        { w.setNode s { n with wire := rest, loop, busy := true } with
          held := w.held ++ call.fds.map fun f => (n.owner, f) } := by
  have new : n.since loop = [call] := by rw [Node.since, calls, List.drop_left]
  simp only [step, World.onNode, hn, idle, World.recv, wire, turn, new, decide_true,
    Bool.and_self, if_true, List.isEmpty_cons, Bool.not_false, List.flatMap_cons,
    List.flatMap_nil, List.append_nil]

theorem handled_step {c : Setting P} {w : World P} {s : Nat} {n : Node P}
    (hn : w.nodes[s]? = some n) (busy : n.busy = true) :
    step c w ⟨n.owner, .handled s⟩ = some (w.setNode s { n with busy := false }) := by
  simp only [step, World.onNode, hn, busy, decide_true, Bool.and_self, if_true]

/-! ## An example -/

def World.empty : World P := ⟨[], [], [], []⟩

omit [DecidableEq P] in
theorem empty_valid : Valid (World.empty : World P) where
  named := fun x hx => by cases hx
  full := fun n hn => by cases hn
  stopped := fun n hn => by cases hn

def plain : Setting Nat := ⟨false, 0, fun _ => scribbler, fun _ => none⟩

end Network
