import StrongIpc.Sender

/-!
# One socket and every `RefInner` it ever has

The sending socket of one node, from the moment `Node::new_raw` has made it:
`from_fd` on descriptors of it, clones and drops of `Ref`s, the calls made through
each `RefInner`, death watches, the drops of `RefInner`s field by field, and the
receive loop at the other end. The descriptors this crate holds are in `fds`;
`raws` counts all others that name the socket, in callers' hands, attached to
messages, in flight or in other processes. While one of them is open nobody else's
socket has this one's identity, so its entry in the registry is `entry`; `fstat` and
`ppoll` do not fail.

`hands` lists the `Ref`s in variables, by `RefInner`, together with those on a
message that no send has been given yet or that was given back or is being dropped.
What is sent through the `RefInner` number `g` is tagged `g + 1`; the tag 0 is for
what others send.
-/

namespace Capability

open OutboxTraffic Roster StepMachine Wire

/-- `from_fd`: before the registry is entered, and, on a hit, before the redundant
descriptor is closed. -/
inductive MakerStage where
  | entered
  | hit
  | done
  deriving DecidableEq, Repr

structure Maker where
  fd : Nat
  stage : MakerStage
  deriving DecidableEq, Repr

/-- `dropping` from the moment the strong count is zero, `unfiled` after the body of
`RefInner::drop`, then the fields in the order of their declaration: `closed` after
`fd`, `emptied` after `outbox`, `dropped` after `death`. -/
inductive InnerStage where
  | live
  | dropping
  | unfiled
  | closed
  | emptied
  | dropped
  deriving DecidableEq, Repr

/-- `death_notification`: the `is_dead` check, then `death_watch` as for the outbox.
`stuck` is a registration that could not be made. -/
inductive WatchStage where
  | asking
  | getting
  | building
  | setting (d : Nat)
  | losing (d : Nat)
  | waiting
  | stuck
  | finished
  deriving DecidableEq, Repr

structure Inner where
  fd : Nat
  strong : Nat
  stage : InnerStage
  sender : RefSender.Sender
  death : Option Nat
  watches : List WatchStage
  deriving DecidableEq, Repr

inductive Loop where
  | receiving
  | handling
  | ended
  deriving DecidableEq, Repr

/-- `read` is how much of the wire `recv_loop` has received; `armed` while there is a
`Node`, whose drop aborts the loop. -/
structure State where
  raws : Nat
  socket : Socket
  read : Nat
  loop : Loop
  armed : Bool
  makers : List Maker
  inners : List Inner
  hands : List Nat
  entry : Option Nat
  fds : List Nat
  deriving DecidableEq, Repr

inductive Act where
  | dup
  | close
  | room (b : Bool)
  | other (m : Message)
  | fromFd (d : Nat)
  | make (i : Nat) (runtime : Bool)
  | clone (g : Nat)
  | drop (g : Nat)
  | unfile (g : Nat)
  | dropFd (g : Nat)
  | dropOutbox (g : Nat)
  | dropDeath (g : Nat)
  | send (g : Nat) (a : RefSender.Act)
  | watch (g : Nat)
  | watchStep (g i : Nat)
  | watchBuild (g i : Nat) (d : Option Nat)
  | leave (g i : Nat)
  | recv
  | handled
  | hangup
  | recvFails
  | panic
  | toService
  | abort
  deriving DecidableEq, Repr

/-! ## Who holds what -/

/-- Some descriptor names the socket. -/
def State.isNamed (s : State) : Bool := 0 < s.raws || !s.fds.isEmpty

/-- Something borrows a `Ref` to this `RefInner`. -/
def Inner.isBorrowed (x : Inner) : Bool :=
  (x.sender.calls.any fun c => !c.stage.isOver) || x.watches.any fun w => w != .finished

/-- Every `Ref` that is borrowed is still somewhere in `rest`. -/
def State.leavesEnough (s : State) (rest : List Nat) : Bool :=
  (List.range s.inners.length).all fun g =>
    (s.inners[g]?.all fun x => !x.isBorrowed) || rest.contains g

def State.setInner (s : State) (g : Nat) (x : Inner) : State :=
  { s with inners := s.inners.set g x }

def State.setMaker (s : State) (i : Nat) (m : Maker) (stage : MakerStage) : State :=
  { s with makers := s.makers.set i { m with stage } }

def Inner.setWatch (x : Inner) (i : Nat) (stage : WatchStage) : Inner :=
  { x with watches := x.watches.set i stage }

def State.openFd (s : State) (d : Nat) : State := { s with fds := d :: s.fds }

def State.closeFd (s : State) (d : Nat) : State := { s with fds := s.fds.erase d }

/-! ## `from_fd`, `clone`, `drop` -/

/-- The entry's `Weak`, upgraded. -/
def State.upgrade (s : State) : Option (Nat × Inner) :=
  match s.entry with
  | none => none
  | some g =>
    match s.inners[g]? with
    | none => none
    | some x => if 0 < x.strong then some (g, x) else none

def newInner (fd : Nat) (runtime : Bool) : Inner :=
  ⟨fd, 1, .live, RefSender.fresh runtime, none, []⟩

def State.fileNew (s : State) (i : Nat) (m : Maker) (runtime : Bool) : State :=
  { s.setMaker i m .done with
    inners := s.inners ++ [newInner m.fd runtime]
    hands := s.inners.length :: s.hands
    entry := some s.inners.length }

def State.gain (s : State) (g : Nat) (x : Inner) : State :=
  { s.setInner g { x with strong := x.strong + 1 } with hands := g :: s.hands }

/-- One `Ref` is dropped, the last one with the `RefInner` behind it. -/
def State.lose (s : State) (g : Nat) (x : Inner) : State :=
  { s.setInner g { x with
      strong := x.strong - 1
      stage := if x.strong = 1 then .dropping else x.stage } with
    hands := s.hands.erase g }

def State.makeNext (s : State) (i : Nat) (m : Maker) (runtime : Bool) : Option State :=
  match m.stage with
  | .entered =>
    match s.upgrade with
    | some (g, x) => some ((s.gain g x).setMaker i m .hit)
    | none => some (s.fileNew i m runtime)
  | .hit => some ((s.setMaker i m .done).closeFd m.fd)
  | .done => none

/-! ## The drop of a `RefInner` -/

/-- `remove_if` under the entry's own lock. -/
def State.removeDead (s : State) : Option Nat :=
  match s.entry with
  | none => none
  | some g => if s.inners[g]?.any fun x => 0 < x.strong then some g else none

def State.unfile (s : State) (g : Nat) (x : Inner) : Option State :=
  if x.stage = .dropping then
    some { s.setInner g { x with stage := .unfiled } with entry := s.removeDead }
  else none

def State.dropFd (s : State) (g : Nat) (x : Inner) : Option State :=
  if x.stage = .unfiled then some ((s.setInner g { x with stage := .closed }).closeFd x.fd)
  else none

def State.dropOutbox (s : State) (g : Nat) (x : Inner) : Option State :=
  if x.stage = .closed then
    x.sender.releaseOnce.map fun sender => s.setInner g { x with sender, stage := .emptied }
  else none

def State.dropDeath (s : State) (g : Nat) (x : Inner) : Option State :=
  if x.stage = .emptied then
    match x.death with
    | none => some (s.setInner g { x with stage := .dropped })
    | some d => some ((s.setInner g { x with stage := .dropped, death := none }).closeFd d)
  else none

/-! ## Calls -/

/-- The steps of a call, of a drain task and of a message being dropped. A message is
sent with the `Ref`s that its caller put on it. -/
def State.mayTake (s : State) (g : Nat) : RefSender.Act → Bool
  | .room _ => false
  | .peerClose => false
  | .other _ => false
  | .release => false
  | .enter _ m _ =>
    (m.refs.all fun k => m.refs.count k ≤ s.hands.count k) &&
      s.leavesEnough (s.hands.diff m.refs) && (s.hands.diff m.refs).contains g
  | .build _ (some d) => !s.fds.contains d
  | _ => true

def handsAfter (hands : List Nat) (before : RefSender.Sender) : RefSender.Act → List Nat
  | .enter _ m _ => hands.diff m.refs
  | .sweep =>
    match before.trash with
    | [] => hands
    | m :: _ => m.refs ++ hands
  | _ => hands

/-- The drain task that is spawned gets its dup; the one that ends drops it. -/
def fdsAfter (fds : List Nat) (before after : RefSender.Sender) : RefSender.Act → List Nat
  | .build _ (some d) => if before.boxes.length < after.boxes.length then d :: fds else fds
  | .drain o a =>
    match before.boxes[o]? with
    | none => fds
    | some b => if a.isLast then fds.erase b.dup else fds
  | _ => fds

/-- The `Ref`s of a message that was sent, as descriptors in flight. -/
def inFlight (before after : Socket) : Nat :=
  total (fun p => p.message.refs.length) (after.wire.drop before.wire.length)

def State.taken (s : State) (g : Nat) (x : Inner) (a : RefSender.Act) (w : RefSender.World) :
    State :=
  { s.setInner g { x with sender := w.sender } with
    socket := w.socket
    raws := s.raws + inFlight s.socket w.socket
    hands := handsAfter s.hands x.sender a
    fds := fdsAfter s.fds x.sender w.sender a }

def State.view (s : State) (x : Inner) : RefSender.World := ⟨s.socket, x.sender⟩

def State.take (s : State) (g : Nat) (x : Inner) (a : RefSender.Act) : Option State :=
  if s.mayTake g a then (RefSender.step (g + 1) (s.view x) a).map (s.taken g x a) else none

/-! ## Death watches -/

/-- A step of a watch that the environment has no say in. -/
def State.watchNext (s : State) (g : Nat) (x : Inner) (i : Nat) : WatchStage → Option State
  | .asking =>
    some (s.setInner g (x.setWatch i (if s.socket.peerOpen then .getting else .finished)))
  | .getting =>
    match x.death with
    | none => some (s.setInner g (x.setWatch i .building))
    | some _ => some (s.setInner g (x.setWatch i .waiting))
  | .setting d =>
    match x.death with
    | none => some (s.setInner g { x.setWatch i .waiting with death := some d })
    | some _ => some (s.setInner g (x.setWatch i (.losing d)))
  | .losing d => some ((s.setInner g (x.setWatch i .waiting)).closeFd d)
  | _ => none

def State.watchBuilt (s : State) (g : Nat) (x : Inner) (i : Nat) : Option Nat → Option State
  | none => some (s.setInner g (x.setWatch i .stuck))
  | some d =>
    if s.fds.contains d then none
    else some ((s.setInner g (x.setWatch i (.setting d))).openFd d)

/-! ## The receive loop -/

/-- The loop's future is dropped, and its end of the socket with it. -/
def State.endLoop (s : State) : State :=
  { s with loop := .ended, socket := { s.socket with peerOpen := false } }

/-- One message: an empty one ends the loop, an oversized one is skipped. -/
def State.received (s : State) (m : Message) : State :=
  if m.data = [] then ({ s with read := s.read + 1 }).endLoop
  else if maxMessageSize < m.data.length then { s with read := s.read + 1 }
  else { s with read := s.read + 1, loop := .handling }

/-! ## The machine -/

def State.onInner (s : State) (g : Nat) (f : Inner → Option State) : Option State :=
  match s.inners[g]? with
  | none => none
  | some x => f x

def State.onWatch (s : State) (g i : Nat) (f : Inner → WatchStage → Option State) :
    Option State :=
  s.onInner g fun x =>
    match x.watches[i]? with
    | none => none
    | some w => f x w

def step (s : State) : Act → Option State
  | .dup => if s.isNamed then some { s with raws := s.raws + 1 } else none
  | .close => if 0 < s.raws then some { s with raws := s.raws - 1 } else none
  | .room b => some { s with socket := { s.socket with room := b } }
  | .other m =>
    if 0 < s.raws && s.socket.peerOpen then
      some { s with socket := { s.socket with wire := s.socket.wire ++ [⟨0, 0, m⟩] } }
    else none
  | .fromFd d =>
    if 0 < s.raws && !s.fds.contains d then
      some { s.openFd d with raws := s.raws - 1, makers := s.makers ++ [⟨d, .entered⟩] }
    else none
  | .make i runtime =>
    match s.makers[i]? with
    | none => none
    | some m => s.makeNext i m runtime
  | .clone g => s.onInner g fun x => if s.hands.contains g then some (s.gain g x) else none
  | .drop g => s.onInner g fun x =>
      if s.hands.contains g && s.leavesEnough (s.hands.erase g) then some (s.lose g x) else none
  | .unfile g => s.onInner g (s.unfile g)
  | .dropFd g => s.onInner g (s.dropFd g)
  | .dropOutbox g => s.onInner g (s.dropOutbox g)
  | .dropDeath g => s.onInner g (s.dropDeath g)
  | .send g a => s.onInner g fun x => s.take g x a
  | .watch g => s.onInner g fun x =>
      if s.hands.contains g then
        some (s.setInner g { x with watches := x.watches ++ [.asking] })
      else none
  | .watchStep g i => s.onWatch g i fun x w => s.watchNext g x i w
  | .watchBuild g i d => s.onWatch g i fun x w =>
      if w = .building then s.watchBuilt g x i d else none
  | .leave g i => s.onWatch g i fun x w =>
      if w = .waiting ∨ w = .stuck then some (s.setInner g (x.setWatch i .finished)) else none
  | .recv =>
    match s.socket.wire[s.read]? with
    | none => none
    | some p => if s.loop = .receiving then some (s.received p.message) else none
  | .handled => if s.loop = .handling then some { s with loop := .receiving } else none
  | .hangup =>
    if s.loop = .receiving ∧ s.socket.wire.length ≤ s.read ∧ s.isNamed = false then
      some s.endLoop
    else none
  | .recvFails => if s.loop = .receiving then some s.endLoop else none
  | .panic => if s.loop = .handling then some s.endLoop else none
  | .toService => if s.armed then some { s with armed := false } else none
  | .abort => if s.armed then some { s.endLoop with armed := false } else none

/-- `socketpair`, with the sending end still a bare descriptor. -/
def opened (room : Bool) : State :=
  ⟨1, ⟨room, true, []⟩, 0, .receiving, true, [], [], [], none, []⟩

def machine : Machine State Act where
  init s := ∃ room, s = opened room
  step := step

/-! ## Everything one step can do -/

/-- A step of a watch that opens and closes nothing. -/
inductive WatchWalk (x : Inner) : WatchStage → WatchStage → Prop where
  | dead : WatchWalk x .asking .finished
  | alive : WatchWalk x .asking .getting
  | unset (hd : x.death = none) : WatchWalk x .getting .building
  | found (d : Nat) (hd : x.death = some d) : WatchWalk x .getting .waiting
  | late (d e : Nat) (hd : x.death = some e) : WatchWalk x (.setting d) (.losing d)
  | failed : WatchWalk x .building .stuck
  | hungUp : WatchWalk x .waiting .finished
  | gaveUp : WatchWalk x .stuck .finished

inductive Move (s : State) : Act → State → Prop where
  | dup (named : s.isNamed = true) : Move s .dup { s with raws := s.raws + 1 }
  | close (some_raw : 0 < s.raws) : Move s .close { s with raws := s.raws - 1 }
  | room (b : Bool) : Move s (.room b) { s with socket := { s.socket with room := b } }
  | other (m : Message) (some_raw : 0 < s.raws) (peerOpen : s.socket.peerOpen = true) :
      Move s (.other m)
        { s with socket := { s.socket with wire := s.socket.wire ++ [⟨0, 0, m⟩] } }
  | fromFd (d : Nat) (some_raw : 0 < s.raws) (unused : d ∉ s.fds) :
      Move s (.fromFd d)
        { s.openFd d with raws := s.raws - 1, makers := s.makers ++ [⟨d, .entered⟩] }
  | revive (i : Nat) (runtime : Bool) (m : Maker) (g : Nat) (x : Inner)
      (hm : s.makers[i]? = some m) (hs : m.stage = .entered) (hx : s.inners[g]? = some x)
      (held : 0 < x.strong) : Move s (.make i runtime) ((s.gain g x).setMaker i m .hit)
  | file (i : Nat) (runtime : Bool) (m : Maker) (hm : s.makers[i]? = some m)
      (hs : m.stage = .entered) : Move s (.make i runtime) (s.fileNew i m runtime)
  | finish (i : Nat) (runtime : Bool) (m : Maker) (hm : s.makers[i]? = some m)
      (hs : m.stage = .hit) : Move s (.make i runtime) ((s.setMaker i m .done).closeFd m.fd)
  | clone (g : Nat) (x : Inner) (hx : s.inners[g]? = some x) (held : g ∈ s.hands) :
      Move s (.clone g) (s.gain g x)
  | drop (g : Nat) (x : Inner) (hx : s.inners[g]? = some x) (held : g ∈ s.hands)
      (enough : s.leavesEnough (s.hands.erase g) = true) : Move s (.drop g) (s.lose g x)
  | unfile (g : Nat) (x : Inner) (hx : s.inners[g]? = some x) (hs : x.stage = .dropping) :
      Move s (.unfile g)
        { s.setInner g { x with stage := .unfiled } with entry := s.removeDead }
  | dropFd (g : Nat) (x : Inner) (hx : s.inners[g]? = some x) (hs : x.stage = .unfiled) :
      Move s (.dropFd g) ((s.setInner g { x with stage := .closed }).closeFd x.fd)
  | dropOutbox (g : Nat) (x : Inner) (sender : RefSender.Sender) (hx : s.inners[g]? = some x)
      (hs : x.stage = .closed) (hr : x.sender.releaseOnce = some sender) :
      Move s (.dropOutbox g) (s.setInner g { x with sender, stage := .emptied })
  | dropUnwatched (g : Nat) (x : Inner) (hx : s.inners[g]? = some x) (hs : x.stage = .emptied)
      (hd : x.death = none) : Move s (.dropDeath g) (s.setInner g { x with stage := .dropped })
  | dropDeath (g : Nat) (x : Inner) (d : Nat) (hx : s.inners[g]? = some x)
      (hs : x.stage = .emptied) (hd : x.death = some d) :
      Move s (.dropDeath g)
        ((s.setInner g { x with stage := .dropped, death := none }).closeFd d)
  | take (g : Nat) (a : RefSender.Act) (x : Inner) (w : RefSender.World)
      (hx : s.inners[g]? = some x) (may : s.mayTake g a = true)
      (hw : RefSender.step (g + 1) (s.view x) a = some w) : Move s (.send g a) (s.taken g x a w)
  | watch (g : Nat) (x : Inner) (hx : s.inners[g]? = some x) (held : g ∈ s.hands) :
      Move s (.watch g) (s.setInner g { x with watches := x.watches ++ [.asking] })
  | rewatch (a : Act) (g i : Nat) (x : Inner) (old new : WatchStage)
      (hx : s.inners[g]? = some x) (hi : x.watches[i]? = some old) (walk : WatchWalk x old new) :
      Move s a (s.setInner g (x.setWatch i new))
  | keep (g i : Nat) (x : Inner) (d : Nat) (hx : s.inners[g]? = some x)
      (hi : x.watches[i]? = some (.setting d)) (hd : x.death = none) :
      Move s (.watchStep g i) (s.setInner g { x.setWatch i .waiting with death := some d })
  | lost (g i : Nat) (x : Inner) (d : Nat) (hx : s.inners[g]? = some x)
      (hi : x.watches[i]? = some (.losing d)) :
      Move s (.watchStep g i) ((s.setInner g (x.setWatch i .waiting)).closeFd d)
  | built (g i : Nat) (x : Inner) (d : Nat) (hx : s.inners[g]? = some x)
      (hi : x.watches[i]? = some .building) (unused : d ∉ s.fds) :
      Move s (.watchBuild g i (some d)) ((s.setInner g (x.setWatch i (.setting d))).openFd d)
  | recv (p : Sent) (hp : s.socket.wire[s.read]? = some p) (hl : s.loop = .receiving) :
      Move s .recv (s.received p.message)
  | handled (hl : s.loop = .handling) : Move s .handled { s with loop := .receiving }
  | hangup (hl : s.loop = .receiving) (all_read : s.socket.wire.length ≤ s.read)
      (unnamed : s.isNamed = false) : Move s .hangup s.endLoop
  | recvFails (hl : s.loop = .receiving) : Move s .recvFails s.endLoop
  | panic (hl : s.loop = .handling) : Move s .panic s.endLoop
  | toService (armed : s.armed = true) : Move s .toService { s with armed := false }
  | abort (armed : s.armed = true) : Move s .abort { s.endLoop with armed := false }

theorem onInner_some {s t : State} {g : Nat} {f : Inner → Option State}
    (h : s.onInner g f = some t) : ∃ x, s.inners[g]? = some x ∧ f x = some t := by
  rw [State.onInner] at h
  split at h
  · cases h
  · rename_i x hx
    exact ⟨x, hx, h⟩

theorem onWatch_some {s t : State} {g i : Nat} {f : Inner → WatchStage → Option State}
    (h : s.onWatch g i f = some t) :
    ∃ x w, s.inners[g]? = some x ∧ x.watches[i]? = some w ∧ f x w = some t := by
  obtain ⟨x, hx, hf⟩ := onInner_some h
  split at hf
  · cases hf
  · rename_i w hw
    exact ⟨x, w, hx, hw, hf⟩

theorem upgrade_some {s : State} {g : Nat} {x : Inner} (h : s.upgrade = some (g, x)) :
    s.inners[g]? = some x ∧ 0 < x.strong := by
  rw [State.upgrade] at h
  split at h
  · cases h
  · split at h
    · cases h
    · rename_i hx
      split at h
      · rename_i held
        cases h
        exact ⟨hx, held⟩
      · cases h

theorem make_move {s t : State} {i : Nat} {m : Maker} {runtime : Bool}
    (hm : s.makers[i]? = some m) (h : s.makeNext i m runtime = some t) :
    Move s (.make i runtime) t := by
  rw [State.makeNext] at h
  split at h
  · rename_i hs
    split at h
    · rename_i g x up
      cases h
      obtain ⟨hx, held⟩ := upgrade_some up
      exact .revive i runtime m g x hm hs hx held
    · cases h
      exact .file i runtime m hm hs
  · rename_i hs
    cases h
    exact .finish i runtime m hm hs
  · cases h

theorem dropDeath_move {s t : State} {g : Nat} {x : Inner} (hx : s.inners[g]? = some x)
    (h : s.dropDeath g x = some t) : Move s (.dropDeath g) t := by
  rw [State.dropDeath] at h
  split at h
  · rename_i hs
    split at h
    · rename_i hd
      cases h
      exact .dropUnwatched g x hx hs hd
    · rename_i d hd
      cases h
      exact .dropDeath g x d hx hs hd
  · cases h

theorem watch_move {s t : State} {g i : Nat} {x : Inner} {w : WatchStage}
    (hx : s.inners[g]? = some x) (hi : x.watches[i]? = some w)
    (h : s.watchNext g x i w = some t) : Move s (.watchStep g i) t := by
  cases w with
  | asking =>
    obtain rfl := Option.some.inj h
    split
    · exact .rewatch _ g i x _ _ hx hi .alive
    · exact .rewatch _ g i x _ _ hx hi .dead
  | getting =>
    rw [State.watchNext] at h
    split at h
    · rename_i hd
      cases h
      exact .rewatch _ g i x _ _ hx hi (.unset hd)
    · rename_i d hd
      cases h
      exact .rewatch _ g i x _ _ hx hi (.found d hd)
  | setting d =>
    rw [State.watchNext] at h
    split at h
    · rename_i hd
      cases h
      exact .keep g i x d hx hi hd
    · rename_i e hd
      cases h
      exact .rewatch _ g i x _ _ hx hi (.late d e hd)
  | losing d =>
    obtain rfl := Option.some.inj h
    exact .lost g i x d hx hi
  | _ => cases h

theorem watchBuilt_move {s t : State} {g i : Nat} {x : Inner} {d : Option Nat}
    (hx : s.inners[g]? = some x) (hi : x.watches[i]? = some .building)
    (h : s.watchBuilt g x i d = some t) : Move s (.watchBuild g i d) t := by
  cases d with
  | none =>
    cases h
    exact .rewatch _ g i x _ _ hx hi .failed
  | some d =>
    rw [State.watchBuilt] at h
    split at h
    · cases h
    · rename_i unused
      cases h
      exact .built g i x d hx hi (by simpa using unused)

theorem step_move {s t : State} {a : Act} (h : step s a = some t) : Move s a t := by
  cases a with
  | dup =>
    obtain ⟨named, rfl⟩ := by simpa [step] using h
    exact .dup named
  | close =>
    obtain ⟨some_raw, rfl⟩ := by simpa [step] using h
    exact .close some_raw
  | room b =>
    cases h
    exact .room b
  | other m =>
    obtain ⟨⟨some_raw, peerOpen⟩, rfl⟩ := by simpa [step] using h
    exact .other m some_raw peerOpen
  | fromFd d =>
    obtain ⟨⟨some_raw, unused⟩, rfl⟩ := by simpa [step] using h
    exact .fromFd d some_raw unused
  | make i runtime =>
    rw [step] at h
    split at h
    · cases h
    · rename_i m hm
      exact make_move hm h
  | clone g =>
    obtain ⟨x, hx, h⟩ := onInner_some h
    obtain ⟨held, rfl⟩ := by simpa using h
    exact .clone g x hx held
  | drop g =>
    obtain ⟨x, hx, h⟩ := onInner_some h
    obtain ⟨⟨held, enough⟩, rfl⟩ := by simpa using h
    exact .drop g x hx held enough
  | unfile g =>
    obtain ⟨x, hx, h⟩ := onInner_some h
    obtain ⟨hs, rfl⟩ := by simpa [State.unfile] using h
    exact .unfile g x hx hs
  | dropFd g =>
    obtain ⟨x, hx, h⟩ := onInner_some h
    obtain ⟨hs, rfl⟩ := by simpa [State.dropFd] using h
    exact .dropFd g x hx hs
  | dropOutbox g =>
    obtain ⟨x, hx, h⟩ := onInner_some h
    obtain ⟨hs, sender, hr, rfl⟩ := by simpa [State.dropOutbox] using h
    exact .dropOutbox g x sender hx hs hr
  | dropDeath g =>
    obtain ⟨x, hx, h⟩ := onInner_some h
    exact dropDeath_move hx h
  | send g a =>
    obtain ⟨x, hx, h⟩ := onInner_some h
    obtain ⟨may, w, hw, rfl⟩ := by simpa [State.take] using h
    exact .take g a x w hx may hw
  | watch g =>
    obtain ⟨x, hx, h⟩ := onInner_some h
    obtain ⟨held, rfl⟩ := by simpa using h
    exact .watch g x hx held
  | watchStep g i =>
    obtain ⟨x, w, hx, hi, h⟩ := onWatch_some h
    exact watch_move hx hi h
  | watchBuild g i d =>
    obtain ⟨x, w, hx, hi, h⟩ := onWatch_some h
    split at h
    · rename_i building
      subst building
      exact watchBuilt_move hx hi h
    · cases h
  | leave g i =>
    obtain ⟨x, w, hx, hi, h⟩ := onWatch_some h
    obtain ⟨rfl | rfl, rfl⟩ := by simpa using h
    · exact .rewatch _ g i x _ _ hx hi .hungUp
    · exact .rewatch _ g i x _ _ hx hi .gaveUp
  | recv =>
    rw [step] at h
    split at h
    · cases h
    · rename_i p hp
      obtain ⟨hl, rfl⟩ := by simpa using h
      exact .recv p hp hl
  | handled =>
    obtain ⟨hl, rfl⟩ := by simpa [step] using h
    exact .handled hl
  | hangup =>
    obtain ⟨⟨hl, all_read, unnamed⟩, rfl⟩ := by simpa [step] using h
    exact .hangup hl all_read unnamed
  | recvFails =>
    obtain ⟨hl, rfl⟩ := by simpa [step] using h
    exact .recvFails hl
  | panic =>
    obtain ⟨hl, rfl⟩ := by simpa [step] using h
    exact .panic hl
  | toService =>
    obtain ⟨armed, rfl⟩ := by simpa [step] using h
    exact .toService armed
  | abort =>
    obtain ⟨armed, rfl⟩ := by simpa [step] using h
    exact .abort armed

end Capability
