import StrongIpc.Registry

/-!
# The registry mirrors what is alive

A `from_fd` whose `fstat` fails makes a `RefInner` without an identity, which is never
filed and unfiles nothing. Beside any number of those, an entry of `REFS` is that of a
`RefInner` that still holds its socket open, and once nobody is inside `from_fd` or
`RefInner::drop` the entries are those of the live ones exactly.
-/

namespace Registry

open Roster StepMachine

/-- A `RefInner` with `id: None`. Its descriptor is among the `raws` of its socket. -/
structure Stray where
  socket : Nat
  handles : Nat
  hasFd : Bool
  deriving DecidableEq, Repr

structure Whole where
  reg : State
  strays : List Stray

inductive WholeAct where
  | reg (x : Act)
  | misstat (a : Nat)
  | cloneStray (k : Nat)
  | dropStray (k : Nat)
  | closeStray (k : Nat)
  deriving DecidableEq, Repr

/-- The descriptors of a socket that strays hold. -/
def Whole.kept (w : Whole) (a : Nat) : Nat :=
  w.strays.countP fun y => y.hasFd && y.socket = a

/-- One that no stray holds. -/
def Whole.spare (w : Whole) (a : Nat) : Bool :=
  w.reg.sockets[a]?.any fun k => w.kept a < k.raws

def Whole.allows (w : Whole) : Act → Bool
  | .close a => w.spare a
  | .fromFd a => w.spare a
  | _ => true

def wholeStep (w : Whole) : WholeAct → Option Whole
  | .reg x => if w.allows x then (step w.reg x).map fun reg => { w with reg } else none
  | .misstat a =>
    if w.spare a then some { w with strays := w.strays ++ [⟨a, 1, true⟩] } else none
  | .cloneStray k =>
    match w.strays[k]? with
    | none => none
    | some y =>
      if 0 < y.handles then
        some { w with strays := w.strays.set k { y with handles := y.handles + 1 } }
      else none
  | .dropStray k =>
    match w.strays[k]? with
    | none => none
    | some y =>
      if 0 < y.handles then
        some { w with strays := w.strays.set k { y with handles := y.handles - 1 } }
      else none
  | .closeStray k =>
    match w.strays[k]? with
    | none => none
    | some y =>
      if y.handles = 0 ∧ y.hasFd = true then
        (step w.reg (.close y.socket)).map fun reg =>
          ⟨reg, w.strays.set k { y with hasFd := false }⟩
      else none

def wholeMachine : Machine Whole WholeAct where
  init w := w = ⟨empty, []⟩
  step := wholeStep

/-- A step on the whole is one on what is filed, or none at all. -/
theorem reg_step {w w' : Whole} {a : WholeAct} (h : wholeStep w a = some w') :
    w'.reg = w.reg ∨ ∃ x, step w.reg x = some w'.reg := by
  cases a with
  | reg x =>
    rw [wholeStep] at h
    split at h
    · obtain ⟨reg, hreg, rfl⟩ := Option.map_eq_some_iff.mp h
      exact Or.inr ⟨x, hreg⟩
    · cases h
  | misstat a =>
    rw [wholeStep] at h
    split at h <;> cases h
    exact Or.inl rfl
  | cloneStray k =>
    rw [wholeStep] at h
    split at h
    · cases h
    · split at h <;> cases h
      exact Or.inl rfl
  | dropStray k =>
    rw [wholeStep] at h
    split at h
    · cases h
    · split at h <;> cases h
      exact Or.inl rfl
  | closeStray k =>
    rw [wholeStep] at h
    split at h
    · cases h
    · rename_i y hk
      split at h
      · obtain ⟨reg, hreg, rfl⟩ := Option.map_eq_some_iff.mp h
        exact Or.inr ⟨.close y.socket, hreg⟩
      · cases h

theorem reg_reachable {guard : Whole → WholeAct → Prop} {w : Whole}
    (h : Reachable wholeMachine guard w) : Reachable machine anyStep w.reg := by
  refine reachable_invariant (P := fun w => Reachable machine anyStep w.reg) ?_ ?_ h
  · rintro w rfl
    exact reachable_init rfl
  · intro w a w' hw _ hstep
    rcases reg_step hstep with same | ⟨x, hx⟩
    · rw [same]
      exact hw
    · exact reachable_step hw trivial hx

theorem isHeld_iff {s : State} {r : Nat} : s.isHeld r = true ↔
    ∃ (h : Nat) (y : Handle), s.handles[h]? = some y ∧ y.held = true ∧ y.inner = r := by
  constructor
  · intro held
    obtain ⟨y, hy, mine⟩ := List.any_eq_true.mp held
    obtain ⟨h, hh⟩ := List.getElem?_of_mem hy
    exact ⟨h, y, hh, by simpa using mine⟩
  · rintro ⟨h, y, hy, held, rfl⟩
    exact isHeld_of hy held

/-- A live `RefInner` is the one under its own key. -/
theorem Faithful.live_entry {s : State} (h : Faithful s) {r : Nat} (live : s.isHeld r = true) :
    ∃ x, s.inners[r]? = some x ∧ s.refs.lookup x.id = some r := by
  obtain ⟨i, y, hy, held, rfl⟩ := isHeld_iff.mp live
  obtain ⟨x, hx, _, _, filed⟩ := h.held i y hy held
  exact ⟨x, hx, filed⟩

/-- Nobody is inside `from_fd` or `RefInner::drop`. -/
structure Settled (s : State) : Prop where
  made : ∀ m ∈ s.makers, m.stage = .done
  dropped : ∀ (r : Nat) x, s.inners[r]? = some x → s.isHeld r = true ∨ x.stage = .closed

/-- Every key is the identity of a socket that a `RefInner` not through its drop holds
open, every live filed `RefInner` is what its key upgrades to, and with no construction
or drop in progress each has exactly one entry and there is no other. -/
theorem entries_are_live {w : Whole} (h : Reachable wholeMachine anyStep w) :
    (∀ id r, w.reg.refs.lookup id = some r → ∃ x, w.reg.inners[r]? = some x ∧
        x.stage = .filed ∧ w.reg.idOf x.socket = some id ∧ w.reg.isNamed x.socket = true) ∧
      (∀ r, w.reg.isHeld r = true → ∃ x, w.reg.inners[r]? = some x ∧
        w.reg.refs.lookup x.id = some r) ∧
      (Settled w.reg →
        (∀ id r, w.reg.refs.lookup id = some r → w.reg.isHeld r = true) ∧
          ∀ r, w.reg.isHeld r = true → ∃! id, w.reg.refs.lookup id = some r) := by
  have inv := faithful (reg_reachable h)
  refine ⟨fun id r filed => ?_, fun r live => inv.live_entry live, fun settled => ⟨?_, ?_⟩⟩
  · obtain ⟨x, hx, unfiled, rfl⟩ := inv.entry id r filed
    exact ⟨x, hx, unfiled, inv.inner_id r x hx,
      named_of_inner hx (by simp [RefInner.hasFd, unfiled])⟩
  · intro id r filed
    obtain ⟨x, hx, unfiled, _⟩ := inv.entry id r filed
    rcases settled.dropped r x hx with live | closed
    · exact live
    · rw [unfiled] at closed
      cases closed
  · intro r live
    obtain ⟨x, hx, filed⟩ := inv.live_entry live
    refine ⟨x.id, filed, fun id filed' => ?_⟩
    obtain ⟨x', hx', _, same⟩ := inv.entry id r filed'
    obtain rfl : x = x' := Option.mem_unique hx hx'
    exact same.symm

/-- The second generation for one key, the first torn down after it was filed, beside
one that could not be filed. -/
def succeeded : Whole where
  reg :=
    { sockets := [⟨(1, 5), 1⟩]
      makers := [⟨0, .done⟩, ⟨0, .done⟩]
      inners := [⟨0, (1, 5), .closed⟩, ⟨0, (1, 5), .filed⟩]
      handles := [⟨0, 0, false⟩, ⟨1, 0, true⟩]
      refs := (AList.insert (1, 5) 0 ∅).insert (1, 5) 1 }
  strays := [⟨0, 1, true⟩]

theorem succeeded_run : exec wholeMachine anyStep ⟨empty, []⟩
    [.reg (.openSocket (1, 5)), .reg (.dup 0), .reg (.dup 0), .reg (.fromFd 0), .reg (.make 0),
      .reg (.make 0), .reg (.drop 0), .reg (.fromFd 0), .reg (.make 1), .reg (.make 1),
      .misstat 0, .reg (.unfile 0), .cloneStray 0, .reg (.closeFd 0), .dropStray 0] =
      some succeeded := rfl

theorem entries_are_live_succeeded :
    (∀ id r, succeeded.reg.refs.lookup id = some r → ∃ x, succeeded.reg.inners[r]? = some x ∧
        x.stage = .filed ∧ succeeded.reg.idOf x.socket = some id ∧
          succeeded.reg.isNamed x.socket = true) ∧
      (∀ r, succeeded.reg.isHeld r = true → ∃ x, succeeded.reg.inners[r]? = some x ∧
        succeeded.reg.refs.lookup x.id = some r) ∧
      (Settled succeeded.reg →
        (∀ id r, succeeded.reg.refs.lookup id = some r → succeeded.reg.isHeld r = true) ∧
          ∀ r, succeeded.reg.isHeld r = true → ∃! id, succeeded.reg.refs.lookup id = some r) :=
  entries_are_live (exec_reachable rfl succeeded_run)

end Registry
