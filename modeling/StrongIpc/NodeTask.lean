import StrongIpc.Hangup
import StrongIpc.Registry

/-!
# What a node's receive task leaves behind, and in which order

The task that `Node::new_raw` spawns owns the node's socket, its `LocalEntry` and the
`Tombstone` that declares the node dead. Once polled it drops them as locals are
dropped, the innermost first, however it ends; before its first poll it drops what the
block captured, in whatever order the compiler chose. Any number of nodes share
`LOCALS`, in which an entry also records the node that filed it, which no code reads.
-/

namespace NodeTask

open Hangup Registry Roster StepMachine

/-- What the task holds and drops: the futures of a handler call and of a receive that
are suspended, what was received, the locals and arguments of `recv_loop`, then
`_local` and `_tombstone`. -/
inductive Part where
  | call
  | recv
  | received
  | control
  | buf
  | socket
  | handler
  | entry
  | tombstone
  deriving DecidableEq, Repr

/-- What the async block captures. -/
def captures : List Part := [.tombstone, .entry, .handler, .socket]

/-- What the block and `recv_loop` hold between two receives, in drop order. -/
def locals : List Part := [.control, .buf, .socket, .handler, .entry, .tombstone]

/-- `filed` is between `LocalEntry::file` and `tokio::spawn`. -/
inductive TaskStage where
  | filed
  | unpolled
  | receiving
  | handling
  | ending (parts : List Part)
  deriving DecidableEq, Repr

structure LocalEntry where
  id : SocketId
  filed : Nat
  deriving DecidableEq, Repr

/-- `line` is the `Ref`s' end of the socket; `entry` is absent without the feature or
the socket's identity, and `calls` counts handler calls begun. -/
structure Node where
  line : End
  dead : Bool
  entry : Option LocalEntry
  calls : Nat
  stage : TaskStage
  deriving DecidableEq, Repr

/-- The address of the `Weak` that is filed. -/
structure Filing where
  address : Nat
  filer : Nat
  deriving DecidableEq, Repr

structure Nodes where
  nodes : List Node
  LOCALS : AList fun _ : SocketId => Filing

/-- What a receive comes back with; `longer` than the buffer. -/
inductive Reading where
  | message
  | longer
  | empty
  | failed
  deriving DecidableEq, Repr

inductive Act where
  | newRaw (entry : Option LocalEntry)
  | spawn (n : Nat)
  | poll (n : Nat)
  | send (n : Nat)
  | receive (n : Nat) (r : Reading)
  | handled (n : Nat)
  | unwind (n : Nat)
  | cancel (n : Nat) (order : List Part)
  | drop (n : Nat)
  deriving DecidableEq, Repr

def Act.node : Act → Option Nat
  | .newRaw _ => none
  | .spawn n | .poll n | .send n | .receive n _ | .handled n | .unwind n | .cancel n _
  | .drop n => some n

/-- `LocalEntry::file`. -/
def Nodes.file (s : Nodes) : Option LocalEntry → AList fun _ : SocketId => Filing
  | none => s.LOCALS
  | some e => s.LOCALS.insert e.id ⟨e.filed, s.nodes.length⟩

/-- `LocalEntry::drop`. -/
def Nodes.unfile (s : Nodes) : Option LocalEntry → AList fun _ : SocketId => Filing
  | none => s.LOCALS
  | some e =>
    match s.LOCALS.lookup e.id with
    | none => s.LOCALS
    | some existing =>
      if existing.address = e.filed then s.LOCALS.erase e.id else s.LOCALS

def Node.setStage (p : Node) (stage : TaskStage) : Node := { p with stage }

/-- `recv_loop` on what it received. -/
def Node.receive (p : Node) : Reading → Node
  | .message => { p with calls := p.calls + 1, stage := .handling }
  | .longer => p
  | .empty => p.setStage (.ending (.received :: locals))
  | .failed => p.setStage (.ending locals)

/-- What is suspended or running on top of the locals. -/
def TaskStage.onTop : TaskStage → Option Part
  | .receiving => some .recv
  | .handling => some .call
  | _ => none

/-- What dropping a part does to the node itself. -/
def Node.dropPart (p : Node) (rest : List Part) : Part → Node
  | .socket => { p with line := p.line.close, stage := .ending rest }
  | .tombstone => { p with dead := true, stage := .ending rest }
  | _ => p.setStage (.ending rest)

/-- A panic in a handler or in the receive is `unwind`; dropping the `Node`, or the
runtime, is `cancel`. -/
def Node.step (p : Node) : Act → Option Node
  | .newRaw _ => none
  | .spawn _ => if p.stage = .filed then some (p.setStage .unpolled) else none
  | .poll _ => if p.stage = .unpolled then some (p.setStage .receiving) else none
  | .send _ => (p.line.step .send).map fun line => { p with line }
  | .receive _ r =>
    if p.stage = .receiving then
      (p.line.step .farReads).map fun line => { p with line }.receive r
    else none
  | .handled _ => if p.stage = .handling then some (p.setStage .receiving) else none
  | .unwind _ => p.stage.onTop.map fun top => p.setStage (.ending (top :: locals))
  | .cancel _ order =>
    match p.stage.onTop with
    | some top => some (p.setStage (.ending (top :: locals)))
    | none =>
      if p.stage = .unpolled ∧ order.Perm captures then some (p.setStage (.ending order))
      else none
  | .drop _ =>
    match p.stage with
    | .ending (part :: rest) => some (p.dropPart rest part)
    | _ => none

/-- The one thing a task does to `LOCALS`. -/
def Nodes.unfiling (s : Nodes) (p : Node) : Act → AList fun _ : SocketId => Filing
  | .drop _ =>
    match p.stage with
    | .ending (.entry :: _) => s.unfile p.entry
    | _ => s.LOCALS
  | _ => s.LOCALS

def Nodes.onTask (s : Nodes) (n : Nat) (a : Act) : Option Nodes :=
  match s.nodes[n]? with
  | none => none
  | some p => (p.step a).map fun q => ⟨s.nodes.set n q, s.unfiling p a⟩

def step (s : Nodes) : Act → Option Nodes
  | .newRaw entry => some ⟨s.nodes ++ [⟨open_, false, entry, 0, .filed⟩], s.file entry⟩
  | .spawn n => s.onTask n (.spawn n)
  | .poll n => s.onTask n (.poll n)
  | .send n => s.onTask n (.send n)
  | .receive n r => s.onTask n (.receive n r)
  | .handled n => s.onTask n (.handled n)
  | .unwind n => s.onTask n (.unwind n)
  | .cancel n order => s.onTask n (.cancel n order)
  | .drop n => s.onTask n (.drop n)

def fresh : Nodes := ⟨[], ∅⟩

def machine : Machine Nodes Act where
  init s := s = fresh
  step := step

/-! ## What is held -/

/-- Everything the task has not dropped yet. -/
def TaskStage.held : TaskStage → List Part
  | .filed => captures
  | .unpolled => captures
  | .receiving => .recv :: NodeTask.locals
  | .handling => .call :: NodeTask.locals
  | .ending parts => parts

/-- A handler call has begun and its future has not been dropped. -/
def Node.isCalling (p : Node) : Bool := p.stage.held.contains .call

/-- Dropping it changes nothing that a dead node promises. -/
def Part.isInert : Part → Bool
  | .call | .socket | .entry => false
  | _ => true

/-- Nothing that matters is dropped after the tombstone. -/
def sheltered : List Part → Bool
  | [] => true
  | .tombstone :: rest => rest.all Part.isInert
  | _ :: rest => sheltered rest

/-- A task dropped before its first poll drops the tombstone after socket and entry. -/
def tombstoneLast (s : Nodes) : Act → Prop
  | .cancel n order =>
    (s.nodes[n]?.all fun p => p.stage != .unpolled || sheltered order) = true
  | _ => True

instance (s : Nodes) (a : Act) : Decidable (tombstoneLast s a) := by
  unfold tombstoneLast
  split <;> infer_instance

/-! ## The steps, once -/

def TaskStage.isEnding : TaskStage → Bool
  | .ending _ => true
  | _ => false

/-- `live` steps are between two stages that are not the end; `finish` is every end of
a task that was polled. -/
inductive Node.Move (p : Node) : Act → Node → Prop
  | live (a : Act) (line : End) (calls : Nat) (next : TaskStage)
      (before : p.stage.isEnding = false) (after : next.isEnding = false)
      (same : line.closed = p.line.closed) : Move p a { p with line, calls, stage := next }
  | send (n : Nat) (line : End) (same : line.closed = p.line.closed) :
      Move p (.send n) { p with line }
  | finish (a : Act) (line : End) (top : List Part) (before : p.stage.isEnding = false)
      (same : line.closed = p.line.closed) (none : .tombstone ∉ top) :
      Move p a { p with line, stage := .ending (top ++ locals) }
  | abandon (n : Nat) (order : List Part) (unpolled : p.stage = .unpolled)
      (perm : order.Perm captures) :
      Move p (.cancel n order) (p.setStage (.ending order))
  | drop (n : Nat) (part : Part) (rest : List Part) (parts : p.stage = .ending (part :: rest)) :
      Move p (.drop n) (p.dropPart rest part)

theorem Node.receive_move {p : Node} {n : Nat} {r : Reading} {line : End}
    (receiving : p.stage = .receiving) (same : line.closed = p.line.closed) :
    p.Move (.receive n r) ({ p with line }.receive r) := by
  have before : p.stage.isEnding = false := by simp [receiving, TaskStage.isEnding]
  cases r with
  | message => exact .live _ line (p.calls + 1) .handling before rfl same
  | longer => exact .live _ line p.calls p.stage before before same
  | empty => exact .finish _ line [.received] before same (by decide)
  | failed => exact .finish _ line [] before same (by decide)

theorem Node.unwound_move {p : Node} {a : Act} {top : Part} (htop : p.stage.onTop = some top) :
    p.Move a (p.setStage (.ending (top :: locals))) := by
  have before : p.stage.isEnding = false := by
    cases hs : p.stage <;> simp_all [TaskStage.onTop, TaskStage.isEnding]
  have none : .tombstone ∉ [top] := by
    cases hs : p.stage <;> simp_all [TaskStage.onTop] <;> subst htop <;> simp
  exact .finish a p.line [top] before rfl none

theorem Node.step_move {p q : Node} {a : Act} (h : p.step a = some q) : p.Move a q := by
  cases a with
  | newRaw entry => cases h
  | spawn n =>
    rw [step] at h
    split at h <;> cases h
    rename_i filed
    exact .live _ p.line p.calls .unpolled (by simp [filed, TaskStage.isEnding]) rfl rfl
  | poll n =>
    rw [step] at h
    split at h <;> cases h
    rename_i unpolled
    exact .live _ p.line p.calls .receiving (by simp [unpolled, TaskStage.isEnding]) rfl rfl
  | send n =>
    obtain ⟨line, hline, rfl⟩ := Option.map_eq_some_iff.mp h
    rw [End.step] at hline
    split at hline <;> cases hline
    exact .send n _ rfl
  | receive n r =>
    rw [step] at h
    split at h
    · rename_i receiving
      obtain ⟨line, hline, rfl⟩ := Option.map_eq_some_iff.mp h
      rw [End.step] at hline
      split at hline <;> cases hline
      exact receive_move receiving rfl
    · cases h
  | handled n =>
    rw [step] at h
    split at h <;> cases h
    rename_i handling
    exact .live _ p.line p.calls .receiving (by simp [handling, TaskStage.isEnding]) rfl rfl
  | unwind n =>
    obtain ⟨top, htop, rfl⟩ := Option.map_eq_some_iff.mp h
    exact unwound_move htop
  | cancel n order =>
    rw [step] at h
    split at h
    · rename_i top htop
      cases h
      exact unwound_move htop
    · split at h <;> cases h
      rename_i unpolled
      exact .abandon n order unpolled.1 unpolled.2
  | drop n =>
    rw [step] at h
    split at h <;> cases h
    rename_i part rest parts
    exact .drop n part rest parts

inductive Move (s : Nodes) : Act → Nodes → Prop
  | newRaw (entry : Option LocalEntry) :
      Move s (.newRaw entry) ⟨s.nodes ++ [⟨open_, false, entry, 0, .filed⟩], s.file entry⟩
  | task (n : Nat) (p q : Node) (a : Act) (hn : s.nodes[n]? = some p) (m : p.Move a q)
      (order : a.node = some n) : Move s a ⟨s.nodes.set n q, s.unfiling p a⟩

theorem move_onTask {s s' : Nodes} {n : Nat} {a : Act} (h : s.onTask n a = some s')
    (order : a.node = some n) : Move s a s' := by
  unfold Nodes.onTask at h
  split at h
  · cases h
  · rename_i p hn
    obtain ⟨q, hq, rfl⟩ := Option.map_eq_some_iff.mp h
    exact .task n p q a hn (Node.step_move hq) order

theorem step_move {s s' : Nodes} {a : Act} (h : step s a = some s') : Move s a s' := by
  cases a with
  | newRaw entry => cases h; exact .newRaw entry
  | spawn n => exact move_onTask h rfl
  | poll n => exact move_onTask h rfl
  | send n => exact move_onTask h rfl
  | receive n r => exact move_onTask h rfl
  | handled n => exact move_onTask h rfl
  | unwind n => exact move_onTask h rfl
  | cancel n order => exact move_onTask h rfl
  | drop n => exact move_onTask h rfl

/-! ## One task -/

/-- The tombstone goes when nothing else of note is left, and as long as the socket is
open the task holds it. -/
structure Node.Sealed (p : Node) : Prop where
  order : ∀ parts, p.stage = .ending parts → sheltered parts = true
  dead : p.dead = true → ∃ parts, p.stage = .ending parts ∧ parts.all Part.isInert = true
  holds : p.line.closed = false → .socket ∈ p.stage.held

theorem sheltered_append {top parts : List Part} (none : .tombstone ∉ top) :
    sheltered (top ++ parts) = sheltered parts := by
  induction top with
  | nil => rfl
  | cons part rest ih =>
    obtain ⟨other, none⟩ := List.ne_and_not_mem_of_not_mem_cons none
    rw [← ih none]
    cases part <;> first | rfl | exact absurd rfl other

theorem sheltered_tail {part : Part} {rest : List Part} (h : sheltered (part :: rest) = true) :
    sheltered rest = true := by
  cases part with
  | tombstone =>
    induction rest with
    | nil => rfl
    | cons part rest ih =>
      obtain ⟨_, inert⟩ := Bool.and_eq_true_iff.mp h
      cases part with
      | tombstone => exact inert
      | _ => exact ih inert
  | _ => exact h

theorem held_of_live {stage : TaskStage} (live : stage.isEnding = false) :
    .socket ∈ stage.held ∧ .entry ∈ stage.held := by
  cases stage with
  | ending parts => cases live
  | _ => decide

theorem Node.Sealed.alive {p : Node} (h : p.Sealed) (live : p.stage.isEnding = false) :
    p.dead = false := by
  by_contra dead
  obtain ⟨parts, hparts, -⟩ := h.dead (by simpa using dead)
  rw [hparts] at live
  cases live

theorem Node.Sealed.step {p q : Node} {a : Act} (h : p.Sealed) (m : p.Move a q)
    (ok : ∀ n order, a = .cancel n order → p.stage = .unpolled → sheltered order = true) :
    q.Sealed := by
  cases m with
  | live a line calls next before after same =>
    constructor
    · rintro parts rfl
      cases after
    · intro dead
      have alive := h.alive before
      rw [alive] at dead
      cases dead
    · exact fun _ => (held_of_live after).1
  | send n line same =>
    constructor
    · exact h.order
    · exact h.dead
    · exact fun opened => h.holds (same ▸ opened)
  | finish a line top before same none =>
    constructor
    · intro parts hp
      rw [← TaskStage.ending.inj hp]
      exact sheltered_append none
    · intro dead
      have alive := h.alive before
      rw [alive] at dead
      cases dead
    · exact fun _ => List.mem_append_right top (by decide)
  | abandon n order unpolled perm =>
    constructor
    · intro parts hp
      rw [← TaskStage.ending.inj hp]
      exact ok n order rfl unpolled
    · intro dead
      have alive := h.alive (by simp [unpolled, TaskStage.isEnding])
      rw [setStage, alive] at dead
      cases dead
    · exact fun _ => perm.mem_iff.mpr (by decide)
  | drop n part rest parts =>
    have order := h.order _ parts
    have inert : p.dead = true → rest.all Part.isInert = true := by
      intro dead
      obtain ⟨parts', hparts', inert⟩ := h.dead dead
      obtain rfl : part :: rest = parts' := TaskStage.ending.inj (parts.symm.trans hparts')
      exact (Bool.and_eq_true_iff.mp inert).2
    have holds := h.holds
    rw [parts] at holds
    cases part with
    | socket =>
      exact ⟨fun _ hp => TaskStage.ending.inj hp ▸ order, fun dead => ⟨rest, rfl, inert dead⟩,
        fun opened => by cases opened⟩
    | tombstone =>
      refine ⟨fun _ hp => TaskStage.ending.inj hp ▸ sheltered_tail order,
        fun _ => ⟨rest, rfl, order⟩, fun opened => ?_⟩
      exact List.mem_of_ne_of_mem (by decide) (holds opened)
    | _ =>
      refine ⟨fun _ hp => TaskStage.ending.inj hp ▸ order, fun dead => ⟨rest, rfl, inert dead⟩,
        fun opened => ?_⟩
      exact List.mem_of_ne_of_mem (by decide) (holds opened)

/-! ## All of them -/

theorem unfile_lookup {s : Nodes} {e : Option LocalEntry} {id : SocketId} {x : Filing}
    (h : (s.unfile e).lookup id = some x) :
    s.LOCALS.lookup id = some x ∧ e ≠ some ⟨id, x.address⟩ := by
  cases e with
  | none => exact ⟨h, by simp⟩
  | some e =>
    rw [Nodes.unfile] at h
    split at h
    · rename_i vacant
      refine ⟨h, ?_⟩
      rintro ⟨⟩
      rw [h] at vacant
      cases vacant
    · rename_i existing found
      split at h
      · by_cases same : id = e.id
        · rw [same, AList.lookup_erase] at h
          cases h
        · rw [AList.lookup_erase_ne same] at h
          exact ⟨h, fun mine => same (by rw [Option.some.inj mine])⟩
      · rename_i other
        refine ⟨h, ?_⟩
        rintro ⟨⟩
        rw [h] at found
        exact other (by rw [Option.some.inj found])

theorem unfiling_lookup {s : Nodes} {p : Node} {a : Act} {id : SocketId} {x : Filing}
    (h : (s.unfiling p a).lookup id = some x) : s.LOCALS.lookup id = some x := by
  unfold Nodes.unfiling at h
  split at h
  · split at h
    · exact (unfile_lookup h).1
    · exact h
  · exact h

/-- Whatever is filed, its filer still holds the `LocalEntry` for it. -/
def Claimed (s : Nodes) : Prop :=
  ∀ id x, s.LOCALS.lookup id = some x → ∃ p, s.nodes[x.filer]? = some p ∧
    .entry ∈ p.stage.held ∧ p.entry = some ⟨id, x.address⟩

theorem entry_kept {p q : Node} {a : Act} (m : p.Move a q) : q.entry = p.entry := by
  cases m with
  | drop n part rest parts => cases part <;> rfl
  | _ => rfl

/-- A task lets go of its `LocalEntry` by dropping it. -/
theorem entry_held {p q : Node} {a : Act} (m : p.Move a q) (before : .entry ∈ p.stage.held)
    (other : ∀ n rest, a = .drop n → p.stage ≠ .ending (.entry :: rest)) :
    .entry ∈ q.stage.held := by
  cases m with
  | live a line calls next _ after _ => exact (held_of_live after).2
  | send n line _ => exact before
  | finish a line top _ _ _ => exact List.mem_append_right top (by decide)
  | abandon n order _ perm => exact perm.mem_iff.mpr (by decide)
  | drop n part rest parts =>
    rw [parts] at before
    have later : part ≠ .entry → .entry ∈ rest :=
      fun apart => List.mem_of_ne_of_mem apart.symm before
    cases part with
    | entry => exact absurd parts (other n rest rfl)
    | _ => exact later (by decide)

theorem claimed_step {s s' : Nodes} {a : Act} (h : Claimed s) (m : Move s a s') : Claimed s' := by
  intro id x filed
  cases m with
  | newRaw entry =>
    have old : s.LOCALS.lookup id = some x → ∃ p,
        (s.nodes ++ [⟨open_, false, entry, 0, .filed⟩])[x.filer]? = some p ∧
          .entry ∈ p.stage.held ∧ p.entry = some ⟨id, x.address⟩ := by
      intro filed
      obtain ⟨p, hp, rest⟩ := h id x filed
      exact ⟨p, by rw [List.getElem?_append_left (lt_of_getElem? hp), hp], rest⟩
    cases entry with
    | none => exact old filed
    | some e =>
      by_cases same : id = e.id
      · subst same
        obtain rfl : (⟨e.filed, s.nodes.length⟩ : Filing) = x := by
          simpa [Nodes.file] using filed
        exact ⟨⟨open_, false, some e, 0, .filed⟩, by simp, by simp [TaskStage.held, captures], rfl⟩
      · exact old (by simpa [Nodes.file, AList.lookup_insert_ne same] using filed)
  | task n p q a hn move order =>
    obtain ⟨p', hp', held, mine⟩ := h id x (unfiling_lookup filed)
    by_cases same : x.filer = n
    · rw [same] at hp' ⊢
      obtain rfl : p = p' := Option.mem_unique hn hp'
      refine ⟨q, by simp [lt_of_getElem? hn], entry_held move held ?_, entry_kept move ▸ mine⟩
      rintro m rest rfl parts
      have filed : (s.unfile p.entry).lookup id = some x := by
        simpa [Nodes.unfiling, parts] using filed
      exact (unfile_lookup filed).2 mine
    · exact ⟨p', by rw [List.getElem?_set_ne (Ne.symm same), hp'], held, mine⟩

theorem sealed_step {s s' : Nodes} {a : Act} (h : ∀ p ∈ s.nodes, p.Sealed)
    (ok : tombstoneLast s a) (m : Move s a s') : ∀ p ∈ s'.nodes, p.Sealed := by
  intro r hr
  cases m with
  | newRaw entry =>
    rcases List.mem_append.mp hr with old | new
    · exact h r old
    · rw [List.mem_singleton.mp new]
      exact ⟨by simp, by simp, fun _ => by simp [TaskStage.held, captures]⟩
  | task n p q a hn move order =>
    rcases List.mem_or_eq_of_mem_set hr with old | rfl
    · exact h r old
    · refine (h p (List.mem_of_getElem? hn)).step move ?_
      rintro k dropped rfl unpolled
      obtain rfl : k = n := Option.some.inj order
      simpa [tombstoneLast, hn, unpolled] using ok

theorem claimed {guard : Nodes → Act → Prop} {s : Nodes} (h : Reachable machine guard s) :
    Claimed s := by
  refine reachable_invariant ?_ ?_ h
  · rintro s rfl id x filed
    simp [fresh] at filed
  · intro s a s' hs _ hstep
    exact claimed_step hs (step_move hstep)

theorem sealed {s : Nodes} (h : Reachable machine tombstoneLast s) : ∀ p ∈ s.nodes, p.Sealed := by
  refine reachable_invariant (P := fun s => ∀ p ∈ s.nodes, p.Sealed) ?_ ?_ h
  · rintro s rfl
    simp [fresh]
  · intro s a s' hs ok hstep
    exact sealed_step hs ok (step_move hstep)

theorem Node.Sealed.inert {p : Node} (h : p.Sealed) (dead : p.dead = true) {part : Part}
    (held : part ∈ p.stage.held) : part.isInert = true := by
  obtain ⟨parts, hparts, inert⟩ := h.dead dead
  rw [hparts] at held
  exact List.all_eq_true.mp inert part held

/-! ## No call after the end -/

/-- Past its end, between calls, having begun `calls` of them. -/
def Node.isOver (calls : Nat) (p : Node) : Prop :=
  p.stage.isEnding = true ∧ p.isCalling = false ∧ p.calls = calls

theorem isOver_move {p q : Node} {a : Act} {calls : Nat} (m : p.Move a q)
    (h : p.isOver calls) : q.isOver calls := by
  obtain ⟨ending, quiet, same⟩ := h
  cases m with
  | live a line calls next before _ _ =>
    rw [ending] at before
    cases before
  | send n line _ => exact ⟨ending, quiet, same⟩
  | finish a line top before _ _ =>
    rw [ending] at before
    cases before
  | abandon n order unpolled _ =>
    rw [unpolled] at ending
    cases ending
  | drop n part rest parts =>
    simp only [Node.isCalling, parts, TaskStage.held] at quiet
    have after : rest.contains .call = false := (Bool.or_eq_false_iff.mp quiet).2
    cases part <;> exact ⟨rfl, after, same⟩

theorem isOver_step {s s' : Nodes} {a : Act} (m : Move s a s') {n calls : Nat}
    (h : ∃ p, s.nodes[n]? = some p ∧ p.isOver calls) :
    ∃ p, s'.nodes[n]? = some p ∧ p.isOver calls := by
  obtain ⟨p, hp, past⟩ := h
  cases m with
  | newRaw entry => exact ⟨p, by rw [List.getElem?_append_left (lt_of_getElem? hp), hp], past⟩
  | task k q r a hk move order =>
    by_cases same : k = n
    · subst same
      obtain rfl : q = p := Option.mem_unique hk hp
      exact ⟨r, by simp [lt_of_getElem? hk], isOver_move move past⟩
    · exact ⟨p, by rw [List.getElem?_set_ne same, hp], past⟩

theorem isOver_steps {guard : Nodes → Act → Prop} {s t : Nodes} (run : Steps machine guard s t)
    {n calls : Nat} (h : ∃ p, s.nodes[n]? = some p ∧ p.isOver calls) :
    ∃ p, t.nodes[n]? = some p ∧ p.isOver calls := by
  refine steps_invariant (P := fun s => ∃ p, s.nodes[n]? = some p ∧ p.isOver calls) ?_ run h
  intro _ _ _ h _ hstep
  exact isOver_step (step_move hstep) h

/-- In every state in which a node reports dead its socket is closed, so that `is_dead`
holds of every `Ref` to it, nothing it filed is in `LOCALS`, no handler call is in
progress, and none is begun from then on. -/
theorem dead_is_torn_down {s : Nodes} (h : Reachable machine tombstoneLast s) {n : Nat} {p : Node}
    (hp : s.nodes[n]? = some p) (dead : p.dead = true) :
    p.line.closed = true ∧ p.line.isDead = true ∧
      (∀ id x, s.LOCALS.lookup id = some x → x.filer ≠ n) ∧
      p.isCalling = false ∧
      ∀ t, Steps machine anyStep s t →
        ∃ q, t.nodes[n]? = some q ∧ q.isCalling = false ∧ q.calls = p.calls := by
  have hs : p.Sealed := sealed h p (List.mem_of_getElem? hp)
  have closed : p.line.closed = true := by
    by_contra opened
    have inert := hs.inert dead (hs.holds (by simpa using opened))
    cases inert
  have quiet : p.isCalling = false := by
    by_contra calling
    have held : .call ∈ p.stage.held := by simpa [Node.isCalling] using calling
    have inert := hs.inert dead held
    cases inert
  refine ⟨closed, isDead_iff.mpr (Or.inl (isGone_iff.mpr (Or.inl closed))), ?_, quiet, ?_⟩
  · rintro id x filed rfl
    obtain ⟨p', hp', held, _⟩ := claimed h id x filed
    obtain rfl : p = p' := Option.mem_unique hp hp'
    have inert := hs.inert dead held
    cases inert
  · intro t run
    have past : p.isOver p.calls := by
      obtain ⟨parts, hparts, _⟩ := hs.dead dead
      exact ⟨by rw [hparts]; rfl, quiet, rfl⟩
    obtain ⟨q, hq, _, quiet', calls⟩ := isOver_steps run ⟨p, hp, past⟩
    exact ⟨q, hq, quiet', calls⟩

/-- Its handler panicked in the second call, after a message that was too long. -/
def panicked : Node := ⟨⟨0, 1, true, true, true, true⟩, true, some ⟨(7, 9), 40⟩, 2, .ending []⟩

/-- With another that was dropped unpolled, the tombstone last. -/
def torn : Nodes := ⟨[panicked, ⟨⟨0, 0, true, true, true, false⟩, true, none, 0, .ending []⟩], ∅⟩

theorem torn_run : exec machine tombstoneLast fresh
    ([.newRaw (some ⟨(7, 9), 40⟩), .spawn 0, .newRaw none, .send 0, .poll 0, .receive 0 .message,
      .spawn 1, .handled 0, .send 0, .send 0, .receive 0 .longer, .send 0, .receive 0 .message,
      .unwind 0, .cancel 1 [.entry, .handler, .socket, .tombstone]] ++
      List.replicate 7 (.drop 0) ++ List.replicate 4 (.drop 1)) = some torn := by
  rfl

theorem dead_is_torn_down_torn :
    panicked.line.closed = true ∧ panicked.line.isDead = true ∧
      (∀ id x, torn.LOCALS.lookup id = some x → x.filer ≠ 0) ∧
      panicked.isCalling = false ∧
      ∀ t, Steps machine anyStep torn t →
        ∃ q, t.nodes[0]? = some q ∧ q.isCalling = false ∧ q.calls = panicked.calls :=
  dead_is_torn_down (exec_reachable rfl torn_run) rfl rfl

/-- Dropped before its first poll in the order of its captures. -/
def tombstoneFirst : Nodes :=
  ⟨[⟨open_, true, some ⟨(7, 9), 40⟩, 0, .ending [.entry, .handler, .socket]⟩],
    (∅ : AList fun _ : SocketId => Filing).insert (7, 9) ⟨40, 0⟩⟩

theorem dead_before_closed :
    ∃ (s : Nodes) (p : Node), Reachable machine anyStep s ∧ s.nodes[0]? = some p ∧
      p.dead = true ∧ p.line.isDead = false ∧ s.LOCALS.lookup (7, 9) = some ⟨40, 0⟩ := by
  refine ⟨tombstoneFirst, _, exec_reachable rfl (?_ : exec machine anyStep fresh
    [.newRaw (some ⟨(7, 9), 40⟩), .spawn 0, .cancel 0 captures, .drop 0] = some tombstoneFirst),
    rfl, rfl, rfl, ?_⟩
  · rfl
  · rfl

end NodeTask
