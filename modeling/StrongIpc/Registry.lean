import Mathlib.Data.List.AList
import StrongIpc.Library.Roster
import StrongIpc.Library.StepMachine

/-!
# The registry of live capabilities

`Ref::from_fd`, clones, drops and `RefInner::drop` on descriptors of any sockets,
by any number of threads, with the kernel handing out socket identities. A socket
here is one open file description, and its identity number is free again once no
descriptor names it: `raws` counts the descriptors outside this crate, in this
process or another. An `Arc` counts its handles, so that a `Weak` can be upgraded
while one is held; `fstat` succeeds.
-/

namespace Registry

open Roster StepMachine

abbrev SocketId := Nat × Nat

structure Sock where
  id : SocketId
  raws : Nat
  deriving DecidableEq, Repr

/-- `from_fd`: before `fstat`, before the registry is entered, and, on a hit, before
the redundant descriptor is closed. -/
inductive MakerStage where
  | entered
  | statted (id : SocketId)
  | hit
  | done
  deriving DecidableEq, Repr

structure Maker where
  socket : Nat
  stage : MakerStage
  deriving DecidableEq, Repr

/-- `unfiled` is after the body of `RefInner::drop`, `closed` after its fields. -/
inductive InnerStage where
  | filed
  | unfiled
  | closed
  deriving DecidableEq, Repr

structure RefInner where
  socket : Nat
  id : SocketId
  stage : InnerStage
  deriving DecidableEq, Repr

/-- A `Ref`, with the socket that the descriptor it was built from names. -/
structure Handle where
  inner : Nat
  socket : Nat
  held : Bool
  deriving DecidableEq, Repr

structure State where
  sockets : List Sock
  makers : List Maker
  inners : List RefInner
  handles : List Handle
  refs : AList fun _ : SocketId => Nat

inductive Act where
  | openSocket (id : SocketId)
  | dup (a : Nat)
  | close (a : Nat)
  | fromFd (a : Nat)
  | make (i : Nat)
  | clone (h : Nat)
  | drop (h : Nat)
  | unfile (r : Nat)
  | closeFd (r : Nat)
  deriving DecidableEq, Repr

def Maker.hasFd (m : Maker) : Bool := m.stage != .done

def RefInner.hasFd (x : RefInner) : Bool := x.stage != .closed

/-- Some descriptor names the socket. -/
def State.isNamed (s : State) (a : Nat) : Bool :=
  (s.sockets[a]?.any fun k => 0 < k.raws) ||
    (s.makers.any fun m => m.socket = a && m.hasFd) ||
    s.inners.any fun x => x.socket = a && x.hasFd

/-- Whether a `Weak` to this `RefInner` can be upgraded. -/
def State.isHeld (s : State) (r : Nat) : Bool := s.handles.any fun h => h.held && h.inner = r

/-- `is_same`. -/
def Handle.isSame (h k : Handle) : Bool := h.inner = k.inner

def State.setRaws (s : State) (a : Nat) (k : Sock) (raws : Nat) : State :=
  { s with sockets := s.sockets.set a { k with raws } }

def State.setMaker (s : State) (i : Nat) (m : Maker) (stage : MakerStage) : State :=
  { s with makers := s.makers.set i { m with stage } }

def State.setInner (s : State) (r : Nat) (x : RefInner) (stage : InnerStage) : State :=
  { s with inners := s.inners.set r { x with stage } }

def State.addHandle (s : State) (h : Handle) : State := { s with handles := s.handles ++ [h] }

def State.file (s : State) (x : RefInner) : State :=
  { s with inners := s.inners ++ [x], refs := s.refs.insert x.id s.inners.length }

/-- The entry is vacant, or filed by one that cannot be revived. -/
def State.fileNew (s : State) (i : Nat) (m : Maker) (id : SocketId) : State :=
  ((s.file ⟨m.socket, id, .filed⟩).setMaker i m .done).addHandle ⟨s.inners.length, m.socket, true⟩

/-- `remove_if` under the entry's own lock. -/
def State.removeDead (s : State) (id : SocketId) : AList fun _ : SocketId => Nat :=
  match s.refs.lookup id with
  | none => s.refs
  | some r => if s.isHeld r then s.refs else s.refs.erase id

def State.makeNext (s : State) (i : Nat) (m : Maker) : Option State :=
  match m.stage with
  | .entered =>
    match s.sockets[m.socket]? with
    | none => none
    | some k => some (s.setMaker i m (.statted k.id))
  | .statted id =>
    match s.refs.lookup id with
    | none => some (s.fileNew i m id)
    | some r =>
      if s.isHeld r then some ((s.setMaker i m .hit).addHandle ⟨r, m.socket, true⟩)
      else some (s.fileNew i m id)
  | .hit => some (s.setMaker i m .done)
  | .done => none

def step (s : State) : Act → Option State
  | .openSocket id =>
    if (List.range s.sockets.length).all fun a =>
      !s.isNamed a || s.sockets[a]?.all fun k => k.id != id
    then some { s with sockets := s.sockets ++ [⟨id, 1⟩] } else none
  | .dup a =>
    match s.sockets[a]? with
    | none => none
    | some k => if s.isNamed a then some (s.setRaws a k (k.raws + 1)) else none
  | .close a =>
    match s.sockets[a]? with
    | none => none
    | some k => if 0 < k.raws then some (s.setRaws a k (k.raws - 1)) else none
  | .fromFd a =>
    match s.sockets[a]? with
    | none => none
    | some k =>
      if 0 < k.raws then
        some { s.setRaws a k (k.raws - 1) with makers := s.makers ++ [⟨a, .entered⟩] }
      else none
  | .make i =>
    match s.makers[i]? with
    | none => none
    | some m => s.makeNext i m
  | .clone h =>
    match s.handles[h]? with
    | none => none
    | some x => if x.held then some (s.addHandle x) else none
  | .drop h =>
    match s.handles[h]? with
    | none => none
    | some x =>
      if x.held then some { s with handles := s.handles.set h { x with held := false } } else none
  | .unfile r =>
    match s.inners[r]? with
    | none => none
    | some x =>
      if x.stage = .filed ∧ s.isHeld r = false then
        some { s.setInner r x .unfiled with refs := s.removeDead x.id }
      else none
  | .closeFd r =>
    match s.inners[r]? with
    | none => none
    | some x => if x.stage = .unfiled then some (s.setInner r x .closed) else none

def empty : State := ⟨[], [], [], [], ∅⟩

def machine : Machine State Act where
  init s := s = empty
  step := step

/-! ## Everything one step can do -/

inductive Move (s : State) : Act → State → Prop where
  | openSocket (id : SocketId)
      (unused : ∀ (a : Nat) k, s.sockets[a]? = some k → s.isNamed a = true → k.id ≠ id) :
      Move s (.openSocket id) { s with sockets := s.sockets ++ [⟨id, 1⟩] }
  | dup (a : Nat) (k : Sock) (hk : s.sockets[a]? = some k) (named : s.isNamed a = true) :
      Move s (.dup a) (s.setRaws a k (k.raws + 1))
  | close (a : Nat) (k : Sock) (hk : s.sockets[a]? = some k) (some_raw : 0 < k.raws) :
      Move s (.close a) (s.setRaws a k (k.raws - 1))
  | fromFd (a : Nat) (k : Sock) (hk : s.sockets[a]? = some k) (some_raw : 0 < k.raws) :
      Move s (.fromFd a)
        { s.setRaws a k (k.raws - 1) with makers := s.makers ++ [⟨a, .entered⟩] }
  | stat (i : Nat) (m : Maker) (k : Sock) (hm : s.makers[i]? = some m) (hs : m.stage = .entered)
      (hk : s.sockets[m.socket]? = some k) : Move s (.make i) (s.setMaker i m (.statted k.id))
  | hit (i : Nat) (m : Maker) (id : SocketId) (r : Nat) (hm : s.makers[i]? = some m)
      (hs : m.stage = .statted id) (filed : s.refs.lookup id = some r)
      (held : s.isHeld r = true) :
      Move s (.make i) ((s.setMaker i m .hit).addHandle ⟨r, m.socket, true⟩)
  | file (i : Nat) (m : Maker) (id : SocketId) (hm : s.makers[i]? = some m)
      (hs : m.stage = .statted id)
      (dead : ∀ r, s.refs.lookup id = some r → s.isHeld r = false) :
      Move s (.make i) (s.fileNew i m id)
  | finish (i : Nat) (m : Maker) (hm : s.makers[i]? = some m) (hs : m.stage = .hit) :
      Move s (.make i) (s.setMaker i m .done)
  | clone (h : Nat) (x : Handle) (hx : s.handles[h]? = some x) (held : x.held = true) :
      Move s (.clone h) (s.addHandle x)
  | drop (h : Nat) (x : Handle) (hx : s.handles[h]? = some x) (held : x.held = true) :
      Move s (.drop h) { s with handles := s.handles.set h { x with held := false } }
  | unfile (r : Nat) (x : RefInner) (hx : s.inners[r]? = some x) (hs : x.stage = .filed)
      (free : s.isHeld r = false) :
      Move s (.unfile r) { s.setInner r x .unfiled with refs := s.removeDead x.id }
  | closeFd (r : Nat) (x : RefInner) (hx : s.inners[r]? = some x) (hs : x.stage = .unfiled) :
      Move s (.closeFd r) (s.setInner r x .closed)

theorem makeNext_move {s s' : State} {i : Nat} {m : Maker} (hm : s.makers[i]? = some m)
    (h : s.makeNext i m = some s') : Move s (.make i) s' := by
  rw [State.makeNext] at h
  split at h
  · rename_i hs
    split at h
    · cases h
    · rename_i k hk
      cases h
      exact .stat i m k hm hs hk
  · rename_i id hs
    split at h
    · rename_i vacant
      cases h
      exact .file i m id hm hs fun r filed => by simp [vacant] at filed
    · rename_i r filed
      split at h
      · rename_i held
        cases h
        exact .hit i m id r hm hs filed held
      · rename_i dead
        cases h
        refine .file i m id hm hs fun r' filed' => ?_
        obtain rfl : r = r' := Option.mem_unique filed filed'
        simpa using dead
  · rename_i hs
    cases h
    exact .finish i m hm hs
  · cases h

theorem step_move {s s' : State} {x : Act} (h : step s x = some s') : Move s x s' := by
  cases x with
  | openSocket id =>
    rw [step] at h
    split at h
    · rename_i unused
      cases h
      refine .openSocket id fun a k hk named => ?_
      have here := List.all_eq_true.mp unused a (List.mem_range.mpr (lt_of_getElem? hk))
      simpa [hk, named] using here
    · cases h
  | dup a =>
    rw [step] at h
    split at h
    · cases h
    · rename_i k hk
      split at h
      · rename_i named
        cases h
        exact .dup a k hk named
      · cases h
  | close a =>
    rw [step] at h
    split at h
    · cases h
    · rename_i k hk
      split at h
      · rename_i some_raw
        cases h
        exact .close a k hk some_raw
      · cases h
  | fromFd a =>
    rw [step] at h
    split at h
    · cases h
    · rename_i k hk
      split at h
      · rename_i some_raw
        cases h
        exact .fromFd a k hk some_raw
      · cases h
  | make i =>
    rw [step] at h
    split at h
    · cases h
    · rename_i m hm
      exact makeNext_move hm h
  | clone i =>
    rw [step] at h
    split at h
    · cases h
    · rename_i x hx
      split at h
      · rename_i held
        cases h
        exact .clone i x hx held
      · cases h
  | drop i =>
    rw [step] at h
    split at h
    · cases h
    · rename_i x hx
      split at h
      · rename_i held
        cases h
        exact .drop i x hx held
      · cases h
  | unfile r =>
    rw [step] at h
    split at h
    · cases h
    · rename_i x hx
      split at h
      · rename_i free
        cases h
        exact .unfile r x hx free.1 free.2
      · cases h
  | closeFd r =>
    rw [step] at h
    split at h
    · cases h
    · rename_i x hx
      split at h
      · rename_i hs
        cases h
        exact .closeFd r x hx hs
      · cases h

/-! ## Which sockets are open -/

theorem isNamed_iff {s : State} {a : Nat} : s.isNamed a = true ↔
    (∃ k, s.sockets[a]? = some k ∧ 0 < k.raws) ∨
      (∃ m ∈ s.makers, m.socket = a ∧ m.hasFd = true) ∨
      ∃ x ∈ s.inners, x.socket = a ∧ x.hasFd = true := by
  cases hk : s.sockets[a]? <;> simp [State.isNamed, hk, or_assoc]

theorem named_of_raw {s : State} {a : Nat} {k : Sock} (hk : s.sockets[a]? = some k)
    (some_raw : 0 < k.raws) : s.isNamed a = true :=
  isNamed_iff.mpr (Or.inl ⟨k, hk, some_raw⟩)

theorem named_of_maker {s : State} {i : Nat} {m : Maker} (hm : s.makers[i]? = some m)
    (fd : m.hasFd = true) : s.isNamed m.socket = true :=
  isNamed_iff.mpr (Or.inr (Or.inl ⟨m, List.mem_of_getElem? hm, rfl, fd⟩))

theorem named_of_inner {s : State} {r : Nat} {x : RefInner} (hx : s.inners[r]? = some x)
    (fd : x.hasFd = true) : s.isNamed x.socket = true :=
  isNamed_iff.mpr (Or.inr (Or.inr ⟨x, List.mem_of_getElem? hx, rfl, fd⟩))

/-- Every descriptor after a change names a socket that one named before. -/
theorem named_back {s s' : State} {a : Nat} (h : s'.isNamed a = true)
    (raws : ∀ k, s'.sockets[a]? = some k → 0 < k.raws → s.isNamed a = true)
    (makers : ∀ m ∈ s'.makers, m.hasFd = true → s.isNamed m.socket = true)
    (inners : ∀ x ∈ s'.inners, x.hasFd = true → s.isNamed x.socket = true) :
    s.isNamed a = true := by
  rcases isNamed_iff.mp h with ⟨k, hk, some_raw⟩ | ⟨m, hm, rfl, fd⟩ | ⟨x, hx, rfl, fd⟩
  · exact raws k hk some_raw
  · exact makers m hm fd
  · exact inners x hx fd

theorem mem_named {s : State} :
    (∀ (a : Nat) k, s.sockets[a]? = some k → 0 < k.raws → s.isNamed a = true) ∧
      (∀ m ∈ s.makers, m.hasFd = true → s.isNamed m.socket = true) ∧
      ∀ x ∈ s.inners, x.hasFd = true → s.isNamed x.socket = true := by
  refine ⟨fun a k hk some_raw => named_of_raw hk some_raw, fun m hm fd => ?_, fun x hx fd => ?_⟩
  · obtain ⟨i, hi⟩ := List.getElem?_of_mem hm
    exact named_of_maker hi fd
  · obtain ⟨r, hr⟩ := List.getElem?_of_mem hx
    exact named_of_inner hr fd

/-- A step opens at most the socket it makes. -/
theorem named_move {s s' : State} {x : Act} (m : Move s x s') {a : Nat}
    (h : s'.isNamed a = true) : s.isNamed a = true ∨ a = s.sockets.length := by
  obtain ⟨raws, makers, inners⟩ := mem_named (s := s)
  have remade : ∀ {i : Nat} {n : Maker} {stage : MakerStage}, s.makers[i]? = some n →
      n.hasFd = true → ∀ p ∈ s.makers.set i { n with stage }, p.hasFd = true →
      s.isNamed p.socket = true := by
    intro i n stage hn fd p hp hfd
    rcases List.mem_or_eq_of_mem_set hp with old | rfl
    · exact makers p old hfd
    · have named : s.isNamed n.socket = true := named_of_maker hn fd
      exact named
  cases m with
  | openSocket id unused =>
    by_cases new : a = s.sockets.length
    · exact Or.inr new
    · refine Or.inl (named_back h (fun k hk some_raw => ?_) makers inners)
      rcases getElem?_push_cases hk with ⟨last, _⟩ | old
      · exact absurd last new
      · exact raws a k old some_raw
  | dup b k hk named =>
    refine Or.inl (named_back h (fun k' hk' some_raw => ?_) makers inners)
    rcases getElem?_set_cases hk' with ⟨rfl, _⟩ | ⟨_, old⟩
    · exact named
    · exact raws a k' old some_raw
  | close b k hk some_raw =>
    refine Or.inl (named_back h (fun k' hk' _ => ?_) makers inners)
    rcases getElem?_set_cases hk' with ⟨rfl, _⟩ | ⟨_, old⟩
    · exact named_of_raw hk some_raw
    · exact raws a k' old ‹_›
  | fromFd b k hk some_raw =>
    refine Or.inl (named_back h (fun k' hk' _ => ?_) (fun p hp fd => ?_) inners)
    · rcases getElem?_set_cases hk' with ⟨rfl, _⟩ | ⟨_, old⟩
      · exact named_of_raw hk some_raw
      · exact raws a k' old ‹_›
    · rcases List.mem_append.mp hp with old | last
      · exact makers p old fd
      · rw [List.mem_singleton.mp last]
        exact named_of_raw hk some_raw
  | stat i n k hn hs hk =>
    exact Or.inl (named_back h (raws a) (remade hn (by simp [Maker.hasFd, hs])) inners)
  | hit i n id r hn hs filed held =>
    exact Or.inl (named_back h (raws a) (remade hn (by simp [Maker.hasFd, hs])) inners)
  | file i n id hn hs dead =>
    have fd : n.hasFd = true := by simp [Maker.hasFd, hs]
    refine Or.inl (named_back h (raws a) (remade hn fd) fun x hx hfd => ?_)
    rcases List.mem_append.mp hx with old | last
    · exact inners x old hfd
    · rw [List.mem_singleton.mp last]
      exact named_of_maker hn fd
  | finish i n hn hs =>
    exact Or.inl (named_back h (raws a) (remade hn (by simp [Maker.hasFd, hs])) inners)
  | clone i y hy held => exact Or.inl h
  | drop i y hy held => exact Or.inl h
  | unfile r y hy hs free =>
    refine Or.inl (named_back h (raws a) makers fun x hx hfd => ?_)
    rcases List.mem_or_eq_of_mem_set hx with old | rfl
    · exact inners x old hfd
    · have named : s.isNamed y.socket = true := named_of_inner hy (by simp [RefInner.hasFd, hs])
      exact named
  | closeFd r y hy hs =>
    refine Or.inl (named_back h (raws a) makers fun x hx hfd => ?_)
    rcases List.mem_or_eq_of_mem_set hx with old | rfl
    · exact inners x old hfd
    · cases hfd

/-- What `fstat` reports for a descriptor of this socket. -/
def State.idOf (s : State) (a : Nat) : Option SocketId := (s.sockets[a]?).map Sock.id

theorem idOf_length (s : State) : s.idOf s.sockets.length = none := by
  simp [State.idOf]

theorem idOf_setRaws {s : State} {a : Nat} {k : Sock} (hk : s.sockets[a]? = some k) (n b : Nat) :
    (s.setRaws a k n).idOf b = s.idOf b := by
  simp only [State.idOf, State.setRaws, List.getElem?_set]
  by_cases same : a = b
  · subst same
    obtain ⟨inside, rfl⟩ := List.getElem?_eq_some_iff.mp hk
    simp [inside]
  · simp [same]

/-- Identities do not change, and a new socket has one. -/
theorem idOf_move {s s' : State} {x : Act} (m : Move s x s') {a : Nat} {id : SocketId}
    (h : s.idOf a = some id) : s'.idOf a = some id := by
  cases m with
  | openSocket id' unused =>
    obtain ⟨k, hk, rfl⟩ := Option.map_eq_some_iff.mp h
    simp [State.idOf, List.getElem?_append_left (lt_of_getElem? hk), hk]
  | dup b k hk named => exact (idOf_setRaws hk _ a).trans h
  | close b k hk some_raw => exact (idOf_setRaws hk _ a).trans h
  | fromFd b k hk some_raw => exact (idOf_setRaws hk _ a).trans h
  | _ => exact h

theorem idOf_back {s s' : State} {x : Act} (m : Move s x s') {a : Nat} {id : SocketId}
    (h : s'.idOf a = some id) (old : a ≠ s.sockets.length) : s.idOf a = some id := by
  cases m with
  | openSocket id' unused =>
    obtain ⟨k, hk, rfl⟩ := Option.map_eq_some_iff.mp h
    rcases getElem?_push_cases hk with ⟨last, _⟩ | hk
    · exact absurd last old
    · simp [State.idOf, hk]
  | dup b k hk named => exact (idOf_setRaws hk _ a).symm.trans h
  | close b k hk some_raw => exact (idOf_setRaws hk _ a).symm.trans h
  | fromFd b k hk some_raw => exact (idOf_setRaws hk _ a).symm.trans h
  | _ => exact h

/-- An open socket was open with that identity, or the step made it. -/
theorem open_move {s s' : State} {x : Act} (m : Move s x s') {a : Nat} {id : SocketId}
    (hid : s'.idOf a = some id) (named : s'.isNamed a = true) :
    (s.idOf a = some id ∧ s.isNamed a = true) ∨ (x = .openSocket id ∧ a = s.sockets.length) := by
  by_cases new : a = s.sockets.length
  · have same : s'.idOf a = s.idOf a → False := by
      intro same
      rw [same, new, idOf_length] at hid
      cases hid
    cases m with
    | openSocket id' unused =>
      subst new
      obtain rfl : id' = id := by simpa [State.idOf] using hid
      exact Or.inr ⟨rfl, rfl⟩
    | dup c k hk named => exact (same (idOf_setRaws hk _ _)).elim
    | close c k hk some_raw => exact (same (idOf_setRaws hk _ _)).elim
    | fromFd c k hk some_raw => exact (same (idOf_setRaws hk _ _)).elim
    | _ => exact (same rfl).elim
  · exact Or.inl ⟨idOf_back m hid new, (named_move m named).resolve_right new⟩

/-! ## What a step leaves in place -/

theorem sockets_grow {s s' : State} {x : Act} (m : Move s x s') :
    s.sockets.length ≤ s'.sockets.length := by
  cases m <;>
    simp [State.setRaws, State.setMaker, State.addHandle, State.fileNew, State.file, State.setInner]

theorem inner_kept {s s' : State} {x : Act} (m : Move s x s') {r : Nat} {z : RefInner}
    (hz : s.inners[r]? = some z) : ∃ z', s'.inners[r]? = some z' ∧ z'.socket = z.socket := by
  have restaged : ∀ {q : Nat} {w : RefInner} (stage : InnerStage), s.inners[q]? = some w →
      ∃ z', (s.inners.set q { w with stage })[r]? = some z' ∧ z'.socket = z.socket := by
    intro q w stage hw
    by_cases same : q = r
    · subst same
      obtain rfl : w = z := Option.mem_unique hw hz
      exact ⟨_, List.getElem?_set_self (lt_of_getElem? hz), rfl⟩
    · exact ⟨z, (List.getElem?_set_ne same).trans hz, rfl⟩
  cases m with
  | file j n id hn hst dead =>
    exact ⟨z, (List.getElem?_append_left (lt_of_getElem? hz)).trans hz, rfl⟩
  | unfile q w hw hst free => exact restaged .unfiled hw
  | closeFd q w hw hst => exact restaged .closed hw
  | _ => exact ⟨z, hz, rfl⟩

theorem maker_kept {s s' : State} {x : Act} (m : Move s x s') {i : Nat} {p : Maker}
    (hp : s.makers[i]? = some p) : ∃ p', s'.makers[i]? = some p' ∧ p'.socket = p.socket := by
  have restaged : ∀ {j : Nat} {n : Maker} (stage : MakerStage), s.makers[j]? = some n →
      ∃ p', (s.makers.set j { n with stage })[i]? = some p' ∧ p'.socket = p.socket := by
    intro j n stage hn
    by_cases same : j = i
    · subst same
      obtain rfl : n = p := Option.mem_unique hn hp
      exact ⟨_, List.getElem?_set_self (lt_of_getElem? hp), rfl⟩
    · exact ⟨p, (List.getElem?_set_ne same).trans hp, rfl⟩
  cases m with
  | fromFd a k hk some_raw =>
    exact ⟨p, (List.getElem?_append_left (lt_of_getElem? hp)).trans hp, rfl⟩
  | stat j n k hn hst hk => exact restaged _ hn
  | hit j n id r hn hst filed live => exact restaged _ hn
  | file j n id hn hst dead => exact restaged _ hn
  | finish j n hn hst => exact restaged _ hn
  | _ => exact ⟨p, hp, rfl⟩

/-- Only its own steps change a `from_fd`. -/
theorem maker_same {s s' : State} {x : Act} (m : Move s x s') {i : Nat}
    {p : Maker} (other : x ≠ .make i) (hp : s.makers[i]? = some p) :
    s'.makers[i]? = some p := by
  have apart : ∀ {j : Nat}, x = .make j → j ≠ i := by
    rintro j rfl rfl
    exact other rfl
  cases m with
  | fromFd a k hk some_raw => exact (List.getElem?_append_left (lt_of_getElem? hp)).trans hp
  | stat j n k hn hs hk => exact (List.getElem?_set_ne (apart rfl)).trans hp
  | hit j n id r hn hs filed held => exact (List.getElem?_set_ne (apart rfl)).trans hp
  | file j n id hn hs dead => exact (List.getElem?_set_ne (apart rfl)).trans hp
  | finish j n hn hs => exact (List.getElem?_set_ne (apart rfl)).trans hp
  | _ => exact hp

/-- A handle stays where it is, and is held until it is dropped. -/
theorem handle_kept {s s' : State} {x : Act} (m : Move s x s') {i : Nat} {y : Handle}
    (hy : s.handles[i]? = some y) :
    ∃ y', s'.handles[i]? = some y' ∧ y'.inner = y.inner ∧ y'.socket = y.socket ∧
      (x ≠ .drop i → y' = y) := by
  have pushed : ∀ z : Handle, ∃ y', (s.handles ++ [z])[i]? = some y' ∧ y'.inner = y.inner ∧
      y'.socket = y.socket ∧ (x ≠ .drop i → y' = y) :=
    fun z => ⟨y, (List.getElem?_append_left (lt_of_getElem? hy)).trans hy, rfl, rfl, fun _ => rfl⟩
  cases m with
  | hit j n id r hn hst filed live => exact pushed _
  | file j n id hn hst dead => exact pushed _
  | clone j z hz live => exact pushed _
  | drop j z hz live =>
    by_cases same : j = i
    · subst same
      obtain rfl : z = y := Option.mem_unique hz hy
      exact ⟨_, List.getElem?_set_self (lt_of_getElem? hy), rfl, rfl, fun other => absurd rfl other⟩
    · exact ⟨y, (List.getElem?_set_ne same).trans hy, rfl, rfl, fun _ => rfl⟩
  | _ => exact ⟨y, hy, rfl, rfl, fun _ => rfl⟩

/-- The step of `from_fd` in the registry gives it its handle. -/
theorem made_handle {s s' : State} {i : Nat} {p : Maker} {id : SocketId}
    (m : Move s (.make i) s') (hp : s.makers[i]? = some p) (hs : p.stage = .statted id) :
    ∃ r, s'.handles[s.handles.length]? = some ⟨r, p.socket, true⟩ := by
  have mine : ∀ {n : Maker}, s.makers[i]? = some n → n = p :=
    fun hn => Option.mem_unique hn hp
  cases m with
  | stat _ n k hn hst hk =>
    rw [mine hn, hs] at hst
    cases hst
  | hit _ n id' r hn hst filed live =>
    obtain rfl := mine hn
    exact ⟨r, by simp [State.setMaker, State.addHandle]⟩
  | file _ n id' hn hst dead =>
    obtain rfl := mine hn
    exact ⟨s.inners.length, by simp [State.fileNew, State.file, State.setMaker, State.addHandle]⟩
  | finish _ n hn hst =>
    rw [mine hn, hs] at hst
    cases hst

theorem made_entered {s s' : State} {i : Nat} {p : Maker}
    (m : Move s (.make i) s') (hp : s.makers[i]? = some p) (hs : p.stage = .entered) :
    ∃ p', s'.makers[i]? = some p' ∧ p'.socket = p.socket ∧ ∃ id, p'.stage = .statted id := by
  have mine : ∀ {n : Maker}, s.makers[i]? = some n → n = p :=
    fun hn => Option.mem_unique hn hp
  cases m with
  | stat _ n k hn hst hk =>
    obtain rfl := mine hn
    exact ⟨_, List.getElem?_set_self (lt_of_getElem? hp), rfl, k.id, rfl⟩
  | hit _ n id r hn hst filed live =>
    rw [mine hn, hs] at hst
    cases hst
  | file _ n id hn hst dead =>
    rw [mine hn, hs] at hst
    cases hst
  | finish _ n hn hst =>
    rw [mine hn, hs] at hst
    cases hst

/-! ## What the registry recognises -/

/-- Open sockets differ in identity; whoever read or filed an identity has that of
its own socket; an entry is that of a `RefInner` not yet unfiled; a held capability
is the one that the registry has under its socket's identity; and every capability
sends to the socket it was built for. -/
structure Faithful (s : State) : Prop where
  distinct : ∀ (a b : Nat) id, s.idOf a = some id → s.idOf b = some id →
    s.isNamed a = true → s.isNamed b = true → a = b
  maker_id : ∀ (i : Nat) m id, s.makers[i]? = some m → m.stage = .statted id →
    s.idOf m.socket = some id
  inner_id : ∀ (r : Nat) x, s.inners[r]? = some x → s.idOf x.socket = some x.id
  entry : ∀ id r, s.refs.lookup id = some r → ∃ x, s.inners[r]? = some x ∧ x.stage = .filed ∧
    x.id = id
  held : ∀ (h : Nat) y, s.handles[h]? = some y → y.held = true → ∃ x,
    s.inners[y.inner]? = some x ∧ x.stage = .filed ∧ x.socket = y.socket ∧
      s.refs.lookup x.id = some y.inner
  aimed : ∀ (h : Nat) y, s.handles[h]? = some y → ∃ x, s.inners[y.inner]? = some x ∧
    x.socket = y.socket

theorem isHeld_of {s : State} {h : Nat} {y : Handle} (hy : s.handles[h]? = some y)
    (held : y.held = true) : s.isHeld y.inner = true :=
  List.any_eq_true.mpr ⟨y, List.mem_of_getElem? hy, by simp [held]⟩

/-- A socket that a step makes has an identity that no open socket has. -/
theorem born_move {s s' : State} {x : Act} (m : Move s x s') {id : SocketId}
    (born : s'.idOf s.sockets.length = some id) {b : Nat} (named : s.isNamed b = true) :
    s.idOf b ≠ some id := by
  have same : s'.idOf s.sockets.length = s.idOf s.sockets.length → s.idOf b ≠ some id := by
    intro same
    rw [same, idOf_length] at born
    cases born
  cases m with
  | openSocket id' unused =>
    intro hb
    obtain ⟨k, hk, rfl⟩ := Option.map_eq_some_iff.mp hb
    apply unused b k hk named
    simpa [State.idOf] using born.symm
  | dup c k hk named => exact same (idOf_setRaws hk _ _)
  | close c k hk some_raw => exact same (idOf_setRaws hk _ _)
  | fromFd c k hk some_raw => exact same (idOf_setRaws hk _ _)
  | _ => exact same rfl

theorem distinct_step {s s' : State} {x : Act} (h : Faithful s) (m : Move s x s') :
    ∀ (a b : Nat) id, s'.idOf a = some id → s'.idOf b = some id →
      s'.isNamed a = true → s'.isNamed b = true → a = b := by
  intro a b id ha hb na nb
  by_cases new : a = s.sockets.length
  · by_cases new' : b = s.sockets.length
    · exact new.trans new'.symm
    · have named := (named_move m nb).resolve_right new'
      exact absurd (idOf_back m hb new') (born_move m (new ▸ ha) named)
  · have named := (named_move m na).resolve_right new
    by_cases new' : b = s.sockets.length
    · exact absurd (idOf_back m ha new) (born_move m (new' ▸ hb) named)
    · exact h.distinct a b id (idOf_back m ha new) (idOf_back m hb new') named
        ((named_move m nb).resolve_right new')

theorem lookup_removeDead {s : State} {id id' : SocketId} {r : Nat}
    (h : (s.removeDead id).lookup id' = some r) : s.refs.lookup id' = some r ∧
      (id' = id → s.isHeld r = true) := by
  rw [State.removeDead] at h
  split at h
  · rename_i vacant
    constructor
    · exact h
    · intro same
      rw [same, vacant] at h
      cases h
  · rename_i q filed
    split at h
    · rename_i held
      constructor
      · exact h
      · intro same
        rw [same, filed] at h
        exact Option.some.inj h ▸ held
    · by_cases same : id' = id
      · subst same
        simp at h
      · rw [AList.lookup_erase_ne same] at h
        exact ⟨h, fun same' => absurd same' same⟩

theorem removeDead_held {s : State} {id id' : SocketId} {r : Nat}
    (h : s.refs.lookup id' = some r) (held : s.isHeld r = true) :
    (s.removeDead id).lookup id' = some r := by
  rw [State.removeDead]
  split
  · exact h
  · rename_i q filed
    split
    · exact h
    · rename_i dead
      have other : id' ≠ id := by
        rintro rfl
        obtain rfl : q = r := Option.mem_unique filed h
        exact dead held
      rw [AList.lookup_erase_ne other]
      exact h

/-- What the entry under an identity says of the handle that has it. -/
theorem Faithful.held_entry {s : State} (h : Faithful s) {i : Nat} {y : Handle} {id : SocketId}
    (hy : s.handles[i]? = some y) (held : y.held = true) (hid : s.idOf y.socket = some id) :
    s.refs.lookup id = some y.inner := by
  obtain ⟨x, hx, _, same, filed⟩ := h.held i y hy held
  have mine := h.inner_id y.inner x hx
  rw [same, hid] at mine
  exact Option.some.inj mine ▸ filed

/-- A `RefInner` that a handle keeps has its descriptor open. -/
theorem Faithful.held_named {s : State} (h : Faithful s) {i : Nat} {y : Handle}
    (hy : s.handles[i]? = some y) (held : y.held = true) : s.isNamed y.socket = true := by
  obtain ⟨x, hx, filed, same, _⟩ := h.held i y hy held
  have named := named_of_inner hx (by simp [RefInner.hasFd, filed])
  exact same ▸ named

/-- A hit finds the capability to the very socket that the descriptor names. -/
theorem Faithful.hit_socket {s : State} (h : Faithful s) {i : Nat} {m : Maker} {id : SocketId}
    {r : Nat} (hm : s.makers[i]? = some m) (hs : m.stage = .statted id)
    (filed : s.refs.lookup id = some r) :
    ∃ x, s.inners[r]? = some x ∧ x.stage = .filed ∧ x.id = id ∧ x.socket = m.socket := by
  obtain ⟨x, hx, live, rfl⟩ := h.entry id r filed
  have named : s.isNamed x.socket = true := named_of_inner hx (by simp [RefInner.hasFd, live])
  have named' : s.isNamed m.socket = true := named_of_maker hm (by simp [Maker.hasFd, hs])
  refine ⟨x, hx, live, rfl, ?_⟩
  exact h.distinct x.socket m.socket x.id (h.inner_id r x hx) (h.maker_id i m _ hm hs) named named'

theorem maker_id_step {s s' : State} {x : Act} (h : Faithful s) (m : Move s x s') :
    ∀ (i : Nat) p id, s'.makers[i]? = some p → p.stage = .statted id →
      s'.idOf p.socket = some id := by
  intro i p id hp hs
  have old : s.makers[i]? = some p → s'.idOf p.socket = some id :=
    fun hp => idOf_move m (h.maker_id i p id hp hs)
  cases m with
  | fromFd a k hk some_raw =>
    rcases getElem?_push_cases hp with ⟨_, rfl⟩ | hp
    · cases hs
    · exact old hp
  | stat j n k hn hst hk =>
    rcases getElem?_set_cases hp with ⟨_, rfl⟩ | ⟨_, hp⟩
    · obtain rfl : k.id = id := MakerStage.statted.inj hs
      simp [State.idOf, State.setMaker, hk]
    · exact old hp
  | hit j n id' r hn hst filed held =>
    rcases getElem?_set_cases hp with ⟨_, rfl⟩ | ⟨_, hp⟩
    · cases hs
    · exact old hp
  | file j n id' hn hst dead =>
    rcases getElem?_set_cases hp with ⟨_, rfl⟩ | ⟨_, hp⟩
    · cases hs
    · exact old hp
  | finish j n hn hst =>
    rcases getElem?_set_cases hp with ⟨_, rfl⟩ | ⟨_, hp⟩
    · cases hs
    · exact old hp
  | _ => exact old hp

theorem inner_id_step {s s' : State} {x : Act} (h : Faithful s) (m : Move s x s') :
    ∀ (r : Nat) y, s'.inners[r]? = some y → s'.idOf y.socket = some y.id := by
  intro r y hy
  have old : s.inners[r]? = some y → s'.idOf y.socket = some y.id :=
    fun hy => idOf_move m (h.inner_id r y hy)
  cases m with
  | file j n id hn hst dead =>
    rcases getElem?_push_cases hy with ⟨_, rfl⟩ | hy
    · exact h.maker_id j n id hn hst
    · exact old hy
  | unfile q z hz hst free =>
    rcases getElem?_set_cases hy with ⟨_, rfl⟩ | ⟨_, hy⟩
    · exact h.inner_id q z hz
    · exact old hy
  | closeFd q z hz hst =>
    rcases getElem?_set_cases hy with ⟨_, rfl⟩ | ⟨_, hy⟩
    · exact h.inner_id q z hz
    · exact old hy
  | _ => exact old hy

/-- An entry stays that of a `RefInner` not yet unfiled. -/
theorem entry_step {s s' : State} {x : Act} (h : Faithful s) (m : Move s x s') :
    ∀ id r, s'.refs.lookup id = some r → ∃ y, s'.inners[r]? = some y ∧ y.stage = .filed ∧
      y.id = id := by
  intro id r filed
  cases m with
  | file j n id' hn hst dead =>
    by_cases same : id = id'
    · subst same
      have new : s.inners.length = r := by
        simpa [State.fileNew, State.file, State.setMaker, State.addHandle] using filed
      subst new
      exact ⟨⟨n.socket, id, .filed⟩, by simp [State.fileNew, State.file, State.setMaker,
        State.addHandle], rfl, rfl⟩
    · have old : s.refs.lookup id = some r := (AList.lookup_insert_ne same).symm.trans filed
      obtain ⟨y, hy, live, hid⟩ := h.entry id r old
      exact ⟨y, (List.getElem?_append_left (lt_of_getElem? hy)).trans hy, live, hid⟩
  | unfile q z hz hst free =>
    obtain ⟨old, spared⟩ := lookup_removeDead filed
    obtain ⟨y, hy, live, rfl⟩ := h.entry id r old
    have other : q ≠ r := by
      rintro rfl
      obtain rfl : z = y := Option.mem_unique hz hy
      rw [spared rfl] at free
      cases free
    exact ⟨y, (List.getElem?_set_ne other).trans hy, live, rfl⟩
  | closeFd q z hz hst =>
    obtain ⟨y, hy, live, hid⟩ := h.entry id r filed
    have other : q ≠ r := by
      rintro rfl
      obtain rfl : z = y := Option.mem_unique hz hy
      rw [live] at hst
      cases hst
    exact ⟨y, (List.getElem?_set_ne other).trans hy, live, hid⟩
  | _ => exact h.entry id r filed

/-- What a held handle rests on survives a step that leaves its `RefInner` filed. -/
theorem held_step {s s' : State} {x : Act} (h : Faithful s) (m : Move s x s') :
    ∀ (i : Nat) y, s'.handles[i]? = some y → y.held = true → ∃ z,
      s'.inners[y.inner]? = some z ∧ z.stage = .filed ∧ z.socket = y.socket ∧
        s'.refs.lookup z.id = some y.inner := by
  intro i y hy held
  cases m with
  | hit j n id r hn hst filed live =>
    rcases getElem?_push_cases hy with ⟨_, rfl⟩ | hy
    · obtain ⟨z, hz, unfiled, rfl, same⟩ := h.hit_socket hn hst filed
      exact ⟨z, hz, unfiled, same, filed⟩
    · exact h.held i y hy held
  | file j n id hn hst dead =>
    rcases getElem?_push_cases hy with ⟨_, rfl⟩ | hy
    · refine ⟨⟨n.socket, id, .filed⟩, ?_, rfl, rfl, ?_⟩
      · simp [State.fileNew, State.file, State.setMaker, State.addHandle]
      · simp [State.fileNew, State.file, State.setMaker, State.addHandle]
    · obtain ⟨z, hz, live, same, filed⟩ := h.held i y hy held
      -- an entry with a handle to it is a hit, so the new one has another identity
      have other : z.id ≠ id := by
        rintro rfl
        have keeps : s.isHeld y.inner = true := isHeld_of hy held
        rw [dead y.inner filed] at keeps
        cases keeps
      refine ⟨z, (List.getElem?_append_left (lt_of_getElem? hz)).trans hz, live, same, ?_⟩
      exact (AList.lookup_insert_ne other).trans filed
  | clone j z hz live =>
    rcases getElem?_push_cases hy with ⟨_, rfl⟩ | hy
    · exact h.held j y hz held
    · exact h.held i y hy held
  | drop j z hz live =>
    rcases getElem?_set_cases hy with ⟨_, rfl⟩ | ⟨_, hy⟩
    · cases held
    · exact h.held i y hy held
  | unfile q w hw hst free =>
    obtain ⟨z, hz, live, same, filed⟩ := h.held i y hy held
    have keeps : s.isHeld y.inner = true := isHeld_of hy held
    have other : q ≠ y.inner := by
      rintro rfl
      rw [keeps] at free
      cases free
    exact ⟨z, (List.getElem?_set_ne other).trans hz, live, same, removeDead_held filed keeps⟩
  | closeFd q w hw hst =>
    obtain ⟨z, hz, live, same, filed⟩ := h.held i y hy held
    have other : q ≠ y.inner := by
      rintro rfl
      obtain rfl : w = z := Option.mem_unique hw hz
      rw [live] at hst
      cases hst
    exact ⟨z, (List.getElem?_set_ne other).trans hz, live, same, filed⟩
  | _ => exact h.held i y hy held

theorem aimed_step {s s' : State} {x : Act} (h : Faithful s) (m : Move s x s') :
    ∀ (i : Nat) y, s'.handles[i]? = some y → ∃ z, s'.inners[y.inner]? = some z ∧
      z.socket = y.socket := by
  intro i y hy
  have old : ∀ {j : Nat} {w : Handle}, s.handles[j]? = some w → w.inner = y.inner →
      w.socket = y.socket → ∃ z, s'.inners[y.inner]? = some z ∧ z.socket = y.socket := by
    intro j w hw same same'
    obtain ⟨z, hz, aim⟩ := h.aimed j w hw
    obtain ⟨z', hz', kept⟩ := inner_kept m hz
    exact ⟨z', same ▸ hz', kept.trans (aim.trans same')⟩
  cases m with
  | hit j n id r hn hst filed live =>
    rcases getElem?_push_cases hy with ⟨_, rfl⟩ | hy
    · obtain ⟨z, hz, _, _, same⟩ := h.hit_socket hn hst filed
      exact ⟨z, hz, same⟩
    · exact old hy rfl rfl
  | file j n id hn hst dead =>
    rcases getElem?_push_cases hy with ⟨_, rfl⟩ | hy
    · refine ⟨⟨n.socket, id, .filed⟩, ?_, rfl⟩
      simp [State.fileNew, State.file, State.setMaker, State.addHandle]
    · exact old hy rfl rfl
  | clone j z hz live =>
    rcases getElem?_push_cases hy with ⟨_, rfl⟩ | hy
    · exact old hz rfl rfl
    · exact old hy rfl rfl
  | drop j z hz live =>
    rcases getElem?_set_cases hy with ⟨_, rfl⟩ | ⟨_, hy⟩
    · exact old hz rfl rfl
    · exact old hy rfl rfl
  | _ => exact old hy rfl rfl

theorem empty_faithful : Faithful empty where
  distinct := by simp [empty, State.idOf]
  maker_id := by simp [empty]
  inner_id := by simp [empty]
  entry := by simp [empty]
  held := by simp [empty]
  aimed := by simp [empty]

theorem faithful_step {s s' : State} {x : Act} (h : Faithful s) (m : Move s x s') : Faithful s' :=
  ⟨distinct_step h m, maker_id_step h m, inner_id_step h m, entry_step h m, held_step h m,
    aimed_step h m⟩

theorem faithful {guard : State → Act → Prop} {s : State} (h : Reachable machine guard s) :
    Faithful s := by
  refine reachable_invariant ?_ ?_ h
  · rintro s rfl
    exact empty_faithful
  · intro s x s' hs _ hstep
    exact faithful_step hs (step_move hstep)

theorem Faithful.isSame_iff {s : State} (inv : Faithful s) {i j : Nat} {y z : Handle}
    (hy : s.handles[i]? = some y) (hz : s.handles[j]? = some z)
    (held : y.held = true) (held' : z.held = true) :
    y.isSame z = true ↔ y.socket = z.socket := by
  obtain ⟨x, hx, _, mine, filed⟩ := inv.held i y hy held
  constructor
  · intro same
    have same : y.inner = z.inner := by simpa [Handle.isSame] using same
    obtain ⟨x', hx', _, his, _⟩ := inv.held j z hz held'
    obtain rfl : x = x' := Option.some.inj (hx.symm.trans (same ▸ hx'))
    exact mine.symm.trans his
  · intro same
    have hid : s.idOf y.socket = some x.id := mine ▸ inv.inner_id y.inner x hx
    have entry := inv.held_entry hz held' (same ▸ hid)
    have both : y.inner = z.inner := Option.mem_unique filed entry
    simpa [Handle.isSame] using both

/-- Two capabilities held at one time are the same if and only if the descriptors
they were built from name the same socket. -/
theorem same_iff_same_socket {s : State} {i j : Nat} {y z : Handle}
    (h : Reachable machine anyStep s) (hy : s.handles[i]? = some y) (hz : s.handles[j]? = some z)
    (held : y.held = true) (held' : z.held = true) :
    y.isSame z = true ↔ y.socket = z.socket :=
  (faithful h).isSame_iff hy hz held held'

/-- A capability, and the same one received again on another descriptor. -/
def recognised : State where
  sockets := [⟨(1, 5), 0⟩]
  makers := [⟨0, .done⟩, ⟨0, .hit⟩]
  inners := [⟨0, (1, 5), .filed⟩]
  handles := [⟨0, 0, true⟩, ⟨0, 0, true⟩]
  refs := AList.insert (1, 5) 0 ∅

theorem recognised_run : exec machine anyStep empty
    [.openSocket (1, 5), .dup 0, .fromFd 0, .make 0, .make 0, .fromFd 0, .make 1, .make 1] =
      some recognised := rfl

theorem same_iff_same_socket_recognised :
    (⟨0, 0, true⟩ : Handle).isSame ⟨0, 0, true⟩ = true ↔ (0 : Nat) = 0 :=
  same_iff_same_socket (exec_reachable rfl recognised_run)
    (show recognised.handles[0]? = some ⟨0, 0, true⟩ from rfl)
    (show recognised.handles[1]? = some ⟨0, 0, true⟩ from rfl) rfl rfl

end Registry
