import StrongIpc.Outbox

/-!
# The two ways a `Ref` sends

`Ref::try_send` and `Ref::send` on the clones of one `Ref`, with the `RefInner`
behind them: the `OnceLock` that holds its outbox, every outbox that callers
racing to build it made, and the drain task of each. One step is one access to
`pending`, one `OnceLock` access, one channel operation or one `sendmsg`; between
two of them a call touches nothing that others see. The socket is shared with
other `RefInner`s and other processes, whose messages are `Act.other`.

A message that is dropped goes to `trash`; the `Ref`s inside it are somebody
else's business.
-/

namespace RefSender

open BoundedChannel OutboxTraffic StepMachine Wire

inductive Kind where
  | trySend
  | send
  deriving DecidableEq, Repr

inductive Outcome where
  | ok
  | full
  | tooLarge
  | closed
  deriving DecidableEq, Repr

/-- What the call wants the outbox for: `try_send` to push, `send` to wait for room. -/
inductive Next where
  | push
  | reserve
  deriving DecidableEq, Repr

def Next.op : Next → Op
  | .push => .claim
  | .reserve => .reserving

/-- What a call does next. `getting` to `gotten` are `RefInner::outbox`: the first
`get`, `Outbox::build`, `set`, the drop of a value that lost the race, the second
`get`. `taken` is a returned error whose message was taken back and dropped. -/
inductive Stage where
  | entered
  | gate (o : Nat)
  | inline
  | getting (next : Next)
  | building (next : Next)
  | setting (next : Next) (o : Nat)
  | losing (next : Next) (o : Nat)
  | gotten (next : Next)
  | queueing (o : Nat) (op : Op)
  | returned (r : Outcome)
  | taken
  | panicked
  | cancelled
  deriving DecidableEq, Repr

def Stage.isOver : Stage → Bool
  | .returned _ => true
  | .taken => true
  | .panicked => true
  | .cancelled => true
  | _ => false

structure Call where
  kind : Kind
  message : Message
  onRuntime : Bool
  stage : Stage
  deriving DecidableEq, Repr

/-- An outbox that was built, with the descriptor its drain task sends on. -/
structure Box where
  dup : Nat
  outbox : Outbox Sent
  deriving DecidableEq, Repr

/-- One `RefInner` as far as sending goes. `once` is the `OnceLock`, naming one of
the outboxes ever built; `alive` until the drop of its fields has reached it. -/
structure Sender where
  runtime : Bool
  once : Option Nat
  boxes : List Box
  calls : List Call
  alive : Bool
  trash : List Message
  deriving DecidableEq, Repr

structure World where
  socket : Socket
  sender : Sender
  deriving DecidableEq, Repr

inductive Act where
  | room (b : Bool)
  | peerClose
  | other (p : Sent)
  | enter (kind : Kind) (m : Message) (onRuntime : Bool)
  | call (i : Nat)
  | sendNow (i : Nat) (r : SendResult)
  | build (i : Nat) (dup : Option Nat)
  | grant (i : Nat)
  | cancel (i : Nat)
  | take (i : Nat)
  | drain (o : Nat) (a : DrainAct)
  | release
  | sweep
  deriving DecidableEq, Repr

/-! ## One call -/

/-- `Outbox::push` and `Outbox::send` returning into `try_send` and `send`. -/
def settle (kind : Kind) (o : Nat) : Op → Stage
  | .done .accepted => .returned .ok
  | .done (.refused .full) =>
    match kind with
    | .trySend => .returned .full
    | .send => .getting .reserve
  | .done (.refused .closed) => .returned .closed
  | .done .cancelled => .cancelled
  | op => .queueing o op

def afterInline : SendResult → Stage
  | .ok => .returned .ok
  | .wouldBlock => .getting .push
  | _ => .returned .closed

/-- `inline_ok` once `backed_up` is known. -/
def inlineOk (m : Message) (backedUp : Bool) : Bool := m.fds.length ≤ maxFds && !backedUp

/-- The steps that change nothing but where the call stands. -/
def Sender.walk (s : Sender) (c : Call) : Option Stage :=
  match c.stage with
  | .entered =>
    if maxMessageSize < c.message.data.length then some (.returned .tooLarge)
    else match s.once with
      | none => some (if inlineOk c.message false then .inline else .getting .push)
      | some o => some (.gate o)
  | .gate o =>
    match s.boxes[o]? with
    | none => none
    | some b => some (if inlineOk c.message b.outbox.isBackedUp then .inline else .getting .push)
  | .getting next =>
    match s.once with
    | none => some (.building next)
    | some o => some (.queueing o next.op)
  | .setting next o =>
    match s.once with
    | none => none
    | some _ => some (.losing next o)
  | .gotten next =>
    match s.once with
    | none => none
    | some o => some (.queueing o next.op)
  | _ => none

def Sender.setStage (s : Sender) (i : Nat) (c : Call) (stage : Stage) : Sender :=
  { s with calls := s.calls.set i { c with stage } }

def Sender.setBox (s : Sender) (o : Nat) (b : Box) (outbox : Outbox Sent) : Sender :=
  { s with boxes := s.boxes.set o { b with outbox } }

def Sender.discard (s : Sender) (ms : List Message) : Sender :=
  { s with trash := s.trash ++ ms }

def Sender.setOnce (s : Sender) (o : Nat) : Sender := { s with once := some o }

def Sender.addBox (s : Sender) (dup : Nat) : Sender :=
  { s with boxes := s.boxes ++ [⟨dup, OutboxTraffic.build⟩] }

def Sender.addCall (s : Sender) (c : Call) : Sender := { s with calls := s.calls ++ [c] }

def Sender.retire (s : Sender) : Sender := { s with alive := false }

/-- The last sender of an outbox's channel is gone. With no receiver either, the
channel goes too, and what a late permit put there with it. -/
def closeBox (b : Outbox Sent) : Outbox Sent × List Message :=
  if b.channel.receiving then ({ b with channel := b.channel.dropSender }, [])
  else ({ b with channel := { b.channel.dropSender with queue := [] } },
    b.channel.queue.map Sent.message)

/-- A step of a call that the environment has no say in. -/
def Sender.advance (s : Sender) (me i : Nat) (c : Call) : Option Sender :=
  match c.stage, s.once with
  | .setting next o, none => some ((s.setOnce o).setStage i c (.gotten next))
  | .losing next o, _ =>
    match s.boxes[o]? with
    | none => none
    | some b => some (((s.setBox o b (closeBox b.outbox).1).setStage i c (.gotten next)).discard
        (closeBox b.outbox).2)
  | .queueing o op, _ =>
    match s.boxes[o]? with
    | none => none
    | some b => (b.outbox.opStep ⟨me, i, c.message⟩ op).map fun (outbox, op') =>
        (s.setBox o b outbox).setStage i c (settle c.kind o op')
  | _, _ => (s.walk c).map fun stage => s.setStage i c stage

/-- A change of permits on behalf of a parked call. -/
def Sender.park (s : Sender) (i : Nat) (c : Call)
    (f : Outbox Sent → Op → Option (Outbox Sent × Op)) : Option Sender :=
  match c.stage with
  | .queueing o op =>
    match s.boxes[o]? with
    | none => none
    | some b => (f b.outbox op).map fun (outbox, op') =>
        (s.setBox o b outbox).setStage i c (settle c.kind o op')
  | _ => none

/-- `Outbox::build`: `Handle::current` panics outside a runtime; else the dup, the
reactor registration and the spawn, or the error of the first that fails. -/
def Sender.buildOutbox (s : Sender) (i : Nat) (c : Call) (dup : Option Nat) : Option Sender :=
  match c.stage with
  | .building next =>
    if !s.runtime && !c.onRuntime then
      some ((s.setStage i c .panicked).discard [c.message])
    else match dup with
      | none => some (s.setStage i c (.returned .closed))
      | some d => some ((s.addBox d).setStage i c (.setting next s.boxes.length))
  | _ => none

/-! ## The machine -/

/-- The message that the drain task has received and not yet dropped. -/
def taskHeld : Drain Sent → List Message
  | .sending p => [p.message]
  | .accounting p _ => [p.message]
  | _ => []

def boxHeld (b : Outbox Sent) : List Message := taskHeld b.drain ++ b.channel.queue.map Sent.message

/-- What the drain task drops when it takes this step. -/
def drained (b : Outbox Sent) : DrainAct → List Message
  | .account =>
    match b.drain with
    | .accounting p _ => [p.message]
    | _ => []
  | .finish => b.channel.queue.map Sent.message
  | .abort => boxHeld b
  | _ => []

/-- The drain task's `sendmsg` is the only one of its steps that touches the socket. -/
def drainSocket (k : Socket) (b : Outbox Sent) : DrainAct → Option Socket
  | .sendmsg r =>
    match b.drain with
    | .sending p => k.sendNow p r
    | _ => none
  | _ => some k

def Sender.drainBox (k : Socket) (s : Sender) (o : Nat) (a : DrainAct) : Option World :=
  match s.boxes[o]? with
  | none => none
  | some b =>
    match drainSocket k b.outbox a, b.outbox.drainStep a with
    | some k', some outbox => some ⟨k', (s.setBox o b outbox).discard (drained b.outbox a)⟩
    | _, _ => none

/-- The fields of the `RefInner` are dropped; nobody borrows it any more. -/
def Sender.releaseOnce (s : Sender) : Option Sender :=
  if s.alive && s.calls.all fun c => c.stage.isOver then
    match s.once with
    | none => some s.retire
    | some o =>
      match s.boxes[o]? with
      | none => none
      | some b => some ((s.retire.setBox o b (closeBox b.outbox).1).discard (closeBox b.outbox).2)
  else none

def Sender.sendInline (k : Socket) (s : Sender) (me i : Nat) (c : Call) (r : SendResult) :
    Option World :=
  if c.stage = .inline then
    match k.sendNow ⟨me, i, c.message⟩ r with
    | none => none
    | some k' => some ⟨k', (s.setStage i c (afterInline r)).discard
        (if r = .ok then [c.message] else [])⟩
  else none

/-- A returned error gives its message back. -/
def Sender.takeBack (s : Sender) (i : Nat) (c : Call) : Option Sender :=
  match c.stage with
  | .returned .ok => none
  | .returned _ => some ((s.setStage i c .taken).discard [c.message])
  | _ => none

def World.onCall (w : World) (i : Nat) (f : Call → Option Sender) : Option World :=
  match w.sender.calls[i]? with
  | none => none
  | some c => (f c).map fun s => { w with sender := s }

def step (me : Nat) (w : World) : Act → Option World
  | .room b => some { w with socket := { w.socket with room := b } }
  | .peerClose => some { w with socket := { w.socket with peerOpen := false } }
  | .other p =>
    if p.inner = me then none
    else some { w with socket := { w.socket with wire := w.socket.wire ++ [p] } }
  | .enter kind m onRuntime =>
    if w.sender.alive then
      some { w with sender := w.sender.addCall ⟨kind, m, onRuntime, .entered⟩ }
    else none
  | .call i => w.onCall i fun c => w.sender.advance me i c
  | .sendNow i r =>
    match w.sender.calls[i]? with
    | none => none
    | some c => w.sender.sendInline w.socket me i c r
  | .build i dup => w.onCall i fun c => w.sender.buildOutbox i c dup
  | .grant i => w.onCall i fun c => w.sender.park i c Outbox.opGrant
  | .cancel i => w.onCall i fun c =>
      (w.sender.park i c Outbox.opCancel).map fun s => s.discard [c.message]
  | .take i => w.onCall i fun c => w.sender.takeBack i c
  | .drain o a => w.sender.drainBox w.socket o a
  | .release => w.sender.releaseOnce.map fun s => { w with sender := s }
  | .sweep =>
    match w.sender.trash with
    | [] => none
    | _ :: rest => some { w with sender := { w.sender with trash := rest } }

/-- A `RefInner` as `from_fd` leaves it, on a socket that others may have used. -/
def fresh (runtime : Bool) : Sender := ⟨runtime, none, [], [], true, []⟩

def machine (me : Nat) : Machine World Act where
  init w := ∃ runtime, w.sender = fresh runtime ∧ ∀ p ∈ w.socket.wire, p.inner ≠ me
  step := step me

/-! ## Everything one step can do -/

inductive Move (me : Nat) (w : World) : Act → World → Prop where
  | room (b : Bool) : Move me w (.room b) { w with socket := { w.socket with room := b } }
  | peerClose : Move me w .peerClose { w with socket := { w.socket with peerOpen := false } }
  | other (p : Sent) (foreign : p.inner ≠ me) :
      Move me w (.other p) { w with socket := { w.socket with wire := w.socket.wire ++ [p] } }
  | enter (kind : Kind) (m : Message) (onRuntime : Bool) (alive : w.sender.alive = true) :
      Move me w (.enter kind m onRuntime)
        { w with sender := w.sender.addCall ⟨kind, m, onRuntime, .entered⟩ }
  | walk (i : Nat) (c : Call) (stage : Stage) (hc : w.sender.calls[i]? = some c)
      (hw : w.sender.walk c = some stage) :
      Move me w (.call i) { w with sender := w.sender.setStage i c stage }
  | set (i : Nat) (c : Call) (next : Next) (o : Nat) (hc : w.sender.calls[i]? = some c)
      (hs : c.stage = .setting next o) (unset : w.sender.once = none) :
      Move me w (.call i)
        { w with sender := (w.sender.setOnce o).setStage i c (.gotten next) }
  | lose (i : Nat) (c : Call) (next : Next) (o : Nat) (b : Box)
      (hc : w.sender.calls[i]? = some c) (hs : c.stage = .losing next o)
      (hb : w.sender.boxes[o]? = some b) :
      Move me w (.call i) { w with
        sender := ((w.sender.setBox o b (closeBox b.outbox).1).setStage i c (.gotten next)).discard
          (closeBox b.outbox).2 }
  | queue (i : Nat) (c : Call) (o : Nat) (op op' : Op) (b : Box) (outbox : Outbox Sent)
      (hc : w.sender.calls[i]? = some c) (hs : c.stage = .queueing o op)
      (hb : w.sender.boxes[o]? = some b)
      (hm : OpMove b.outbox ⟨me, i, c.message⟩ op outbox op') :
      Move me w (.call i) { w with
        sender := (w.sender.setBox o b outbox).setStage i c (settle c.kind o op') }
  | inline (i : Nat) (c : Call) (r : SendResult) (k : Socket)
      (hc : w.sender.calls[i]? = some c) (hs : c.stage = .inline)
      (hk : w.socket.sendNow ⟨me, i, c.message⟩ r = some k) :
      Move me w (.sendNow i r) ⟨k, (w.sender.setStage i c (afterInline r)).discard
        (if r = .ok then [c.message] else [])⟩
  | built (i : Nat) (c : Call) (next : Next) (d : Nat) (hc : w.sender.calls[i]? = some c)
      (hs : c.stage = .building next) :
      Move me w (.build i (some d)) { w with
        sender := (w.sender.addBox d).setStage i c (.setting next w.sender.boxes.length) }
  | buildFailed (i : Nat) (c : Call) (next : Next) (hc : w.sender.calls[i]? = some c)
      (hs : c.stage = .building next) :
      Move me w (.build i none) { w with sender := w.sender.setStage i c (.returned .closed) }
  | noRuntime (i : Nat) (c : Call) (next : Next) (dup : Option Nat)
      (hc : w.sender.calls[i]? = some c) (hs : c.stage = .building next)
      (bare : w.sender.runtime = false ∧ c.onRuntime = false) :
      Move me w (.build i dup)
        { w with sender := (w.sender.setStage i c .panicked).discard [c.message] }
  | grant (i : Nat) (c : Call) (o : Nat) (op op' : Op) (b : Box) (outbox : Outbox Sent)
      (hc : w.sender.calls[i]? = some c) (hs : c.stage = .queueing o op)
      (hb : w.sender.boxes[o]? = some b) (hm : ParkMove b.outbox op outbox op')
      (parked : op' = .granted) :
      Move me w (.grant i) { w with
        sender := (w.sender.setBox o b outbox).setStage i c (settle c.kind o op') }
  | cancel (i : Nat) (c : Call) (o : Nat) (op op' : Op) (b : Box) (outbox : Outbox Sent)
      (hc : w.sender.calls[i]? = some c) (hs : c.stage = .queueing o op)
      (hb : w.sender.boxes[o]? = some b) (hm : ParkMove b.outbox op outbox op')
      (gone : op' = .done .cancelled) :
      Move me w (.cancel i) { w with
        sender := ((w.sender.setBox o b outbox).setStage i c (settle c.kind o op')).discard
          [c.message] }
  | take (i : Nat) (c : Call) (r : Outcome) (hc : w.sender.calls[i]? = some c)
      (hs : c.stage = .returned r) (failed : r ≠ .ok) :
      Move me w (.take i) { w with sender := (w.sender.setStage i c .taken).discard [c.message] }
  | drain (o : Nat) (a : DrainAct) (b : Box) (k : Socket) (outbox : Outbox Sent)
      (hb : w.sender.boxes[o]? = some b) (hk : drainSocket w.socket b.outbox a = some k)
      (hm : DrainMove b.outbox a outbox) :
      Move me w (.drain o a) ⟨k, (w.sender.setBox o b outbox).discard (drained b.outbox a)⟩
  | releaseBare (alive : w.sender.alive = true)
      (allOver : ∀ c ∈ w.sender.calls, c.stage.isOver = true)
      (unset : w.sender.once = none) :
      Move me w .release { w with sender := w.sender.retire }
  | release (o : Nat) (b : Box) (alive : w.sender.alive = true)
      (allOver : ∀ c ∈ w.sender.calls, c.stage.isOver = true) (hset : w.sender.once = some o)
      (hb : w.sender.boxes[o]? = some b) :
      Move me w .release { w with
        sender := (w.sender.retire.setBox o b (closeBox b.outbox).1).discard
          (closeBox b.outbox).2 }
  | sweep (m : Message) (rest : List Message) (ht : w.sender.trash = m :: rest) :
      Move me w .sweep { w with sender := { w.sender with trash := rest } }

theorem onCall_some {w w' : World} {i : Nat} {f : Call → Option Sender}
    (h : w.onCall i f = some w') :
    ∃ c s, w.sender.calls[i]? = some c ∧ f c = some s ∧ w' = { w with sender := s } := by
  rw [World.onCall] at h
  split at h
  · cases h
  · rename_i c hc
    obtain ⟨s, hs, rfl⟩ := Option.map_eq_some_iff.mp h
    exact ⟨c, s, hc, hs, rfl⟩

theorem park_some {s t : Sender} {i : Nat} {c : Call}
    {f : Outbox Sent → Op → Option (Outbox Sent × Op)} (h : s.park i c f = some t) :
    ∃ o op op' b outbox, c.stage = .queueing o op ∧ s.boxes[o]? = some b ∧
      f b.outbox op = some (outbox, op') ∧
      t = (s.setBox o b outbox).setStage i c (settle c.kind o op') := by
  rw [Sender.park] at h
  split at h
  · rename_i o op hs
    split at h
    · cases h
    · rename_i b hb
      obtain ⟨⟨outbox, op'⟩, hf, rfl⟩ := Option.map_eq_some_iff.mp h
      exact ⟨o, op, op', b, outbox, hs, hb, hf, rfl⟩
  · cases h

theorem advance_move {me i : Nat} {w : World} {c : Call} {s : Sender}
    (hc : w.sender.calls[i]? = some c) (h : w.sender.advance me i c = some s) :
    Move me w (.call i) { w with sender := s } := by
  rw [Sender.advance] at h
  split at h
  · rename_i next o hs unset
    cases h
    exact .set i c next o hc hs unset
  · rename_i next o hs
    split at h
    · cases h
    · rename_i b hb
      cases h
      exact .lose i c next o b hc hs hb
  · rename_i o op hs
    split at h
    · cases h
    · rename_i b hb
      obtain ⟨⟨outbox, op'⟩, hop, rfl⟩ := Option.map_eq_some_iff.mp h
      exact .queue i c o op op' b outbox hc hs hb (opStep_move hop)
  · obtain ⟨stage, hw, rfl⟩ := Option.map_eq_some_iff.mp h
    exact .walk i c stage hc hw

theorem build_move {me i : Nat} {w : World} {c : Call} {dup : Option Nat} {s : Sender}
    (hc : w.sender.calls[i]? = some c) (h : w.sender.buildOutbox i c dup = some s) :
    Move me w (.build i dup) { w with sender := s } := by
  rw [Sender.buildOutbox] at h
  split at h
  · rename_i next hs
    split at h
    · rename_i bare
      cases h
      exact .noRuntime i c next dup hc hs (by simpa using bare)
    · cases dup with
      | none =>
        cases h
        exact .buildFailed i c next hc hs
      | some d =>
        cases h
        exact .built i c next d hc hs
  · cases h

theorem release_move {me : Nat} {w : World} {s : Sender} (h : w.sender.releaseOnce = some s) :
    Move me w .release { w with sender := s } := by
  rw [Sender.releaseOnce] at h
  split at h
  · rename_i free
    obtain ⟨alive, allOver⟩ := (Bool.and_eq_true _ _).mp free
    have allOver := List.all_eq_true.mp allOver
    split at h
    · rename_i unset
      cases h
      exact .releaseBare alive allOver unset
    · rename_i o hset
      split at h
      · cases h
      · rename_i b hb
        cases h
        exact .release o b alive allOver hset hb
  · cases h

theorem step_move {me : Nat} {w w' : World} {a : Act} (h : step me w a = some w') :
    Move me w a w' := by
  cases a with
  | room b => cases h; exact .room b
  | peerClose => cases h; exact .peerClose
  | other p =>
    rw [step] at h
    split at h
    · cases h
    · rename_i foreign
      cases h
      exact .other p foreign
  | enter kind m onRuntime =>
    rw [step] at h
    split at h
    · rename_i alive
      cases h
      exact .enter kind m onRuntime alive
    · cases h
  | call i =>
    obtain ⟨c, s, hc, hs, rfl⟩ := onCall_some h
    exact advance_move hc hs
  | sendNow i r =>
    rw [step] at h
    split at h
    · cases h
    · rename_i c hc
      rw [Sender.sendInline] at h
      split at h
      · rename_i hs
        split at h
        · cases h
        · rename_i k hk
          cases h
          exact .inline i c r k hc hs hk
      · cases h
  | build i dup =>
    obtain ⟨c, s, hc, hs, rfl⟩ := onCall_some h
    exact build_move hc hs
  | grant i =>
    obtain ⟨c, s, hc, hs, rfl⟩ := onCall_some h
    obtain ⟨o, op, op', b, outbox, stage, hb, hf, rfl⟩ := park_some hs
    exact .grant i c o op op' b outbox hc stage hb (opGrant_move hf) (opGrant_granted hf)
  | cancel i =>
    obtain ⟨c, s, hc, hs, rfl⟩ := onCall_some h
    obtain ⟨t, ht, rfl⟩ := Option.map_eq_some_iff.mp hs
    obtain ⟨o, op, op', b, outbox, stage, hb, hf, rfl⟩ := park_some ht
    exact .cancel i c o op op' b outbox hc stage hb (opCancel_move hf) (opCancel_gone hf)
  | take i =>
    obtain ⟨c, s, hc, hs, rfl⟩ := onCall_some h
    rw [Sender.takeBack] at hs
    split at hs
    · cases hs
    · rename_i r failed stage
      cases hs
      exact .take i c r hc stage failed
    · cases hs
  | drain o a =>
    replace h : w.sender.drainBox w.socket o a = some w' := h
    rw [Sender.drainBox] at h
    split at h
    · cases h
    · rename_i b hb
      split at h
      · rename_i k outbox hk hd
        cases h
        exact .drain o a b k outbox hb hk (drainStep_move hd)
      · cases h
  | release =>
    obtain ⟨s, hs, rfl⟩ := Option.map_eq_some_iff.mp h
    exact release_move hs
  | sweep =>
    rw [step] at h
    split at h
    · cases h
    · rename_i m rest ht
      cases h
      exact .sweep m rest ht

end RefSender
