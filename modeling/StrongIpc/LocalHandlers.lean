import StrongIpc.Registry

/-!
# Handlers of local nodes, by the socket that reaches them

`Node::new_raw`, the receive loops with their `LocalEntry`s and the lookups of
`Ref::local_handler`, on top of the registry. A handler is one allocation, whose
address may be given to another once nothing refers to it, strongly or weakly. The
entry of `LOCALS` also records which node's `LocalEntry` filed it, which no code
reads. A `new_raw` that fails is a socket opened and closed again.
-/

namespace LocalHandlers

open Registry Roster StepMachine

/-- `users` counts the shares other than those of nodes being built or running. -/
structure Handler where
  address : Nat
  type : Nat
  users : Nat
  deriving DecidableEq, Repr

/-- What is filed under a socket's identity. -/
structure Filing where
  handler : Nat
  filer : Nat
  deriving DecidableEq, Repr

structure LocalEntry where
  id : SocketId
  filed : Nat
  deriving DecidableEq, Repr

/-- `paired` to `filing` are `new_raw`; the receive loop has its share of the handler
until it ends, and its `LocalEntry` a moment longer. -/
inductive NodeStage where
  | paired
  | making (i : Nat)
  | filing (h : Nat)
  | running (entry : LocalEntry)
  | ending (entry : LocalEntry)
  | ended
  deriving DecidableEq, Repr

structure Node where
  socket : Nat
  handler : Nat
  stage : NodeStage
  deriving DecidableEq, Repr

/-- `local_handler` between taking the `Weak` out and upgrading it. -/
inductive LookupStage where
  | cloned (handler : Nat)
  | returned (found : Option Nat)
  deriving DecidableEq, Repr

def LookupStage.isReturned : LookupStage → Bool
  | .returned _ => true
  | .cloned _ => false

structure Lookup where
  handle : Nat
  type : Nat
  stage : LookupStage
  deriving DecidableEq, Repr

structure World where
  reg : State
  handlers : List Handler
  nodes : List Node
  lookups : List Lookup
  locals : AList fun _ : SocketId => Filing

inductive Act where
  | reg (x : Registry.Act)
  | alloc (address type : Nat)
  | share (w : Nat)
  | unshare (w : Nat)
  | newRaw (w : Nat) (id : SocketId)
  | build (n : Nat)
  | endLoop (n : Nat)
  | dropEntry (n : Nat)
  | get (h type : Nat)
  | upgrade (j : Nat)
  deriving DecidableEq, Repr

/-- The node's sending end has not been handed out yet. -/
def NodeStage.isPrivate : NodeStage → Bool
  | .paired => true
  | .making _ => true
  | .filing _ => true
  | _ => false

/-- The node has a share of its handler. -/
def NodeStage.keeps : NodeStage → Bool
  | .ending _ => false
  | .ended => false
  | _ => true

/-- The `LocalEntry` that has not been dropped. -/
def NodeStage.entry : NodeStage → Option LocalEntry
  | .running e => some e
  | .ending e => some e
  | _ => none

def World.isPrivate (s : World) (a : Nat) : Bool :=
  s.nodes.any fun n => n.socket = a && n.stage.isPrivate

/-- Whether a `Weak` to the handler can be upgraded. -/
def World.isStrong (s : World) (w : Nat) : Bool :=
  (s.handlers[w]?.any fun k => 0 < k.users) ||
    s.nodes.any fun n => n.handler = w && n.stage.keeps

/-- Whether the handler's allocation is referred to at all. -/
def World.isPinned (s : World) (w : Nat) : Bool :=
  s.isStrong w || (s.locals.entries.any fun e => e.2.handler = w) ||
    s.lookups.any fun l => l.stage = .cloned w

def World.addressOf (s : World) (w : Nat) : Option Nat := (s.handlers[w]?).map Handler.address

/-- Until a node has been handed out, nobody else gets at its socket; and a `Ref` is
borrowed while a lookup on it goes on. -/
def World.allows (s : World) : Registry.Act → Bool
  | .dup a => !s.isPrivate a
  | .close a => !s.isPrivate a
  | .fromFd a => !s.isPrivate a
  | .make i => s.reg.makers[i]?.all fun m => !s.isPrivate m.socket
  | .clone h => s.reg.handles[h]?.all fun y => !s.isPrivate y.socket
  | .drop h => (s.reg.handles[h]?.all fun y => !s.isPrivate y.socket) &&
      s.lookups.all fun l => l.handle != h || l.stage.isReturned
  | _ => true

def World.setNode (s : World) (n : Nat) (p : Node) (stage : NodeStage) : World :=
  { s with nodes := s.nodes.set n { p with stage } }

def World.setUsers (s : World) (w : Nat) (k : Handler) (users : Nat) : World :=
  { s with handlers := s.handlers.set w { k with users } }

def World.setLookup (s : World) (j : Nat) (l : Lookup) (stage : LookupStage) : World :=
  { s with lookups := s.lookups.set j { l with stage } }

/-- `LocalEntry::file`. -/
def World.file (s : World) (n : Nat) (p : Node) (id : SocketId) (address : Nat) : World :=
  { s with locals := s.locals.insert id ⟨p.handler, n⟩ }.setNode n p (.running ⟨id, address⟩)

/-- `LocalEntry::drop`. -/
def World.unfile (s : World) (e : LocalEntry) : AList fun _ : SocketId => Filing :=
  match s.locals.lookup e.id with
  | none => s.locals
  | some x => if s.addressOf x.handler = some e.filed then s.locals.erase e.id else s.locals

/-- The stage of a node whose maker takes a step: the one that enters the registry
gives it its handle. -/
def World.made (s : World) (i : Nat) (m : Maker) : NodeStage :=
  match m.stage with
  | .statted _ => .filing s.reg.handles.length
  | _ => .making i

/-- The next step of `new_raw`. -/
def World.buildNext (s : World) (n : Nat) (p : Node) : Option World :=
  match p.stage with
  | .paired => (Registry.step s.reg (.fromFd p.socket)).map fun reg =>
      { s with reg }.setNode n p (.making s.reg.makers.length)
  | .making i =>
    match s.reg.makers[i]? with
    | none => none
    | some m => (Registry.step s.reg (.make i)).map fun reg =>
        { s with reg }.setNode n p (s.made i m)
  | .filing h =>
    match s.reg.handles[h]? with
    | none => none
    | some y =>
      match s.reg.inners[y.inner]?, s.addressOf p.handler with
      | some x, some address => some (s.file n p x.id address)
      | _, _ => none
  | _ => none

/-- `LOCALS.get(&id)?.clone()`. -/
def World.get (s : World) (id : SocketId) : LookupStage :=
  match s.locals.lookup id with
  | none => .returned none
  | some x => .cloned x.handler

def step (s : World) : Act → Option World
  | .reg x =>
    if s.allows x then (Registry.step s.reg x).map fun reg => { s with reg } else none
  | .alloc address type =>
    if (List.range s.handlers.length).all fun w =>
      !s.isPinned w || s.addressOf w != some address
    then some { s with handlers := s.handlers ++ [⟨address, type, 1⟩] } else none
  | .share w =>
    match s.handlers[w]? with
    | none => none
    | some k => if s.isStrong w then some (s.setUsers w k (k.users + 1)) else none
  | .unshare w =>
    match s.handlers[w]? with
    | none => none
    | some k => if 0 < k.users then some (s.setUsers w k (k.users - 1)) else none
  | .newRaw w id =>
    match s.handlers[w]? with
    | none => none
    | some k =>
      if 0 < k.users then (Registry.step s.reg (.openSocket id)).map fun reg =>
        { s with reg, nodes := s.nodes ++ [⟨s.reg.sockets.length, w, .paired⟩] }
      else none
  | .build n =>
    match s.nodes[n]? with
    | none => none
    | some p => s.buildNext n p
  | .endLoop n =>
    match s.nodes[n]? with
    | some ⟨a, w, .running e⟩ => some (s.setNode n ⟨a, w, .running e⟩ (.ending e))
    | _ => none
  | .dropEntry n =>
    match s.nodes[n]? with
    | some ⟨a, w, .ending e⟩ =>
      some { s.setNode n ⟨a, w, .ending e⟩ .ended with locals := s.unfile e }
    | _ => none
  | .get h type =>
    match s.reg.handles[h]? with
    | none => none
    | some y =>
      match s.reg.inners[y.inner]? with
      | none => none
      | some x =>
        if y.held && !s.isPrivate y.socket then
          some { s with lookups := s.lookups ++ [⟨h, type, s.get x.id⟩] }
        else none
  | .upgrade j =>
    match s.lookups[j]? with
    | some ⟨h, type, .cloned w⟩ =>
      match s.handlers[w]? with
      | none => none
      | some k =>
        if s.isStrong w && k.type = type then
          some ((s.setUsers w k (k.users + 1)).setLookup j ⟨h, type, .cloned w⟩
            (.returned (some w)))
        else some (s.setLookup j ⟨h, type, .cloned w⟩ (.returned none))
    | _ => none

def empty : World := ⟨Registry.empty, [], [], [], ∅⟩

def machine : Machine World Act where
  init s := s = empty
  step := step

/-! ## Everything one step can do -/

/-- Steps on handlers, nodes and lookups that leave the registry alone come last. -/
inductive Move (s : World) : Act → World → Prop where
  | reg (x : Registry.Act) (reg : State) (ok : s.allows x = true)
      (hm : Registry.Move s.reg x reg) : Move s (.reg x) { s with reg }
  | newRaw (w : Nat) (id : SocketId) (k : Handler) (reg : State) (hk : s.handlers[w]? = some k)
      (used : 0 < k.users) (hm : Registry.Move s.reg (.openSocket id) reg) :
      Move s (.newRaw w id)
        { s with reg, nodes := s.nodes ++ [⟨s.reg.sockets.length, w, .paired⟩] }
  | enter (n : Nat) (p : Node) (reg : State) (hp : s.nodes[n]? = some p) (hs : p.stage = .paired)
      (hm : Registry.Move s.reg (.fromFd p.socket) reg) :
      Move s (.build n) ({ s with reg }.setNode n p (.making s.reg.makers.length))
  | make (n : Nat) (p : Node) (i : Nat) (m : Maker) (reg : State) (hp : s.nodes[n]? = some p)
      (hs : p.stage = .making i) (hi : s.reg.makers[i]? = some m)
      (hm : Registry.Move s.reg (.make i) reg) :
      Move s (.build n) ({ s with reg }.setNode n p (s.made i m))
  | file (n : Nat) (p : Node) (h : Nat) (y : Handle) (x : RefInner) (address : Nat)
      (hp : s.nodes[n]? = some p) (hs : p.stage = .filing h) (hy : s.reg.handles[h]? = some y)
      (hx : s.reg.inners[y.inner]? = some x) (ha : s.addressOf p.handler = some address) :
      Move s (.build n) (s.file n p x.id address)
  | alloc (address type : Nat) (free : ∀ (w : Nat) k, s.handlers[w]? = some k →
      s.isPinned w = true → k.address ≠ address) :
      Move s (.alloc address type) { s with handlers := s.handlers ++ [⟨address, type, 1⟩] }
  | share (w : Nat) (k : Handler) (hk : s.handlers[w]? = some k) (strong : s.isStrong w = true) :
      Move s (.share w) (s.setUsers w k (k.users + 1))
  | unshare (w : Nat) (k : Handler) (hk : s.handlers[w]? = some k) (used : 0 < k.users) :
      Move s (.unshare w) (s.setUsers w k (k.users - 1))
  | endLoop (n : Nat) (p : Node) (e : LocalEntry) (hp : s.nodes[n]? = some p)
      (hs : p.stage = .running e) : Move s (.endLoop n) (s.setNode n p (.ending e))
  | dropEntry (n : Nat) (p : Node) (e : LocalEntry) (hp : s.nodes[n]? = some p)
      (hs : p.stage = .ending e) :
      Move s (.dropEntry n) { s.setNode n p .ended with locals := s.unfile e }
  | get (h type : Nat) (y : Handle) (x : RefInner) (hy : s.reg.handles[h]? = some y)
      (hx : s.reg.inners[y.inner]? = some x) (held : y.held = true)
      (out : s.isPrivate y.socket = false) :
      Move s (.get h type) { s with lookups := s.lookups ++ [⟨h, type, s.get x.id⟩] }
  | found (j : Nat) (l : Lookup) (w : Nat) (k : Handler) (hl : s.lookups[j]? = some l)
      (hs : l.stage = .cloned w) (hk : s.handlers[w]? = some k) (strong : s.isStrong w = true)
      (typed : k.type = l.type) :
      Move s (.upgrade j) ((s.setUsers w k (k.users + 1)).setLookup j l (.returned (some w)))
  | missed (j : Nat) (l : Lookup) (w : Nat) (k : Handler) (hl : s.lookups[j]? = some l)
      (hs : l.stage = .cloned w) (hk : s.handlers[w]? = some k)
      (why : s.isStrong w = true → k.type ≠ l.type) :
      Move s (.upgrade j) (s.setLookup j l (.returned none))

theorem buildNext_move {s s' : World} {n : Nat} {p : Node} (hp : s.nodes[n]? = some p)
    (h : s.buildNext n p = some s') : Move s (.build n) s' := by
  rw [World.buildNext] at h
  split at h
  · rename_i hs
    obtain ⟨reg, hreg, rfl⟩ := Option.map_eq_some_iff.mp h
    exact .enter n p reg hp hs (Registry.step_move hreg)
  · rename_i i hs
    split at h
    · cases h
    · rename_i m hi
      obtain ⟨reg, hreg, rfl⟩ := Option.map_eq_some_iff.mp h
      exact .make n p i m reg hp hs hi (Registry.step_move hreg)
  · rename_i i hs
    split at h
    · cases h
    · rename_i y hy
      split at h
      · rename_i x address hx ha
        cases h
        exact .file n p i y x address hp hs hy hx ha
      · cases h
  · cases h

theorem step_move {s s' : World} {a : Act} (h : step s a = some s') : Move s a s' := by
  cases a with
  | reg x =>
    rw [step] at h
    split at h
    · rename_i ok
      obtain ⟨reg, hreg, rfl⟩ := Option.map_eq_some_iff.mp h
      exact .reg x reg ok (Registry.step_move hreg)
    · cases h
  | alloc address type =>
    rw [step] at h
    split at h
    · rename_i free
      cases h
      refine .alloc address type fun w k hk pinned => ?_
      have here := List.all_eq_true.mp free w (List.mem_range.mpr (lt_of_getElem? hk))
      simpa [World.addressOf, hk, pinned] using here
    · cases h
  | share w =>
    rw [step] at h
    split at h
    · cases h
    · rename_i k hk
      split at h
      · rename_i strong
        cases h
        exact .share w k hk strong
      · cases h
  | unshare w =>
    rw [step] at h
    split at h
    · cases h
    · rename_i k hk
      split at h
      · rename_i used
        cases h
        exact .unshare w k hk used
      · cases h
  | newRaw w id =>
    rw [step] at h
    split at h
    · cases h
    · rename_i k hk
      split at h
      · rename_i used
        obtain ⟨reg, hreg, rfl⟩ := Option.map_eq_some_iff.mp h
        exact .newRaw w id k reg hk used (Registry.step_move hreg)
      · cases h
  | build n =>
    rw [step] at h
    split at h
    · cases h
    · rename_i p hp
      exact buildNext_move hp h
  | endLoop n =>
    rw [step] at h
    split at h
    · rename_i a w e hp
      cases h
      exact .endLoop n _ e hp rfl
    · cases h
  | dropEntry n =>
    rw [step] at h
    split at h
    · rename_i a w e hp
      cases h
      exact .dropEntry n _ e hp rfl
    · cases h
  | get i type =>
    rw [step] at h
    split at h
    · cases h
    · rename_i y hy
      split at h
      · cases h
      · rename_i x hx
        split at h
        · rename_i both
          cases h
          have both := (Bool.and_eq_true _ _).mp both
          exact .get i type y x hy hx both.1 (by simpa using both.2)
        · cases h
  | upgrade j =>
    rw [step] at h
    split at h
    · rename_i i type w hl
      split at h
      · cases h
      · rename_i k hk
        split at h
        · rename_i both
          cases h
          have both := (Bool.and_eq_true _ _).mp both
          exact .found j _ w k hl rfl hk both.1 (by simpa using both.2)
        · rename_i fails
          cases h
          refine .missed j _ w k hl rfl hk fun strong typed => fails ?_
          simp [strong, typed]
    · cases h

end LocalHandlers
