import StrongIpc.Registry
import StrongIpc.SenderInvariants

/-!
# Which runtime an outbox is built on

`Ref::from_fd` inside and outside a runtime context, on descriptors of any sockets, and
the sends through the `Ref`s it returns. A `RefInner` captures the runtime of the call
that files it, and a hit hands out that `RefInner` whatever context it was made in.
A handle is blessed when the `from_fd` that returned it, or the one whose `Ref` it was
cloned from, was made inside a runtime.
-/

namespace Runtimes

open Registry Roster StepMachine

/-- The call number `call` of the `RefInner` was made on the handle. -/
structure Via where
  handle : Nat
  inner : Nat
  call : Nat
  deriving DecidableEq, Repr

/-- `inside` is by maker, `blessed` by handle, `senders` by `RefInner` and `wires` by
socket of the registry's lists. -/
structure World where
  reg : Registry.State
  inside : List Bool
  blessed : List Bool
  senders : List RefSender.Sender
  wires : List Wire.Socket
  via : List Via

inductive Act where
  | reg (x : Registry.Act)
  | fromFd (a : Nat) (inside : Bool)
  | make (i : Nat)
  | call (h : Nat) (kind : RefSender.Kind) (m : Wire.Message) (onRuntime : Bool)
  | send (r : Nat) (a : RefSender.Act)
  deriving DecidableEq, Repr

def World.isBlessed (w : World) (h : Nat) : Bool := w.blessed[h]? = some true

def World.stageOf (w : World) (v : Via) : Option RefSender.Stage :=
  ((w.senders[v.inner]?).bind fun s => s.calls[v.call]?).map RefSender.Call.stage

/-- No call borrows the handle any more. -/
def World.isIdle (w : World) (h : Nat) : Bool :=
  w.via.all fun v => v.handle != h || (w.stageOf v).all RefSender.Stage.isOver

/-- The registry's steps that have steps of their own here are left to these. -/
def World.allows (w : World) : Registry.Act → Bool
  | .fromFd _ => false
  | .make _ => false
  | .drop h => w.isIdle h
  | _ => true

def World.after (w : World) (reg : Registry.State) : Registry.Act → World
  | .openSocket _ => { w with reg, wires := w.wires ++ [⟨true, true, []⟩] }
  | .clone h => { w with reg, blessed := w.blessed ++ [w.isBlessed h] }
  | _ => { w with reg }

/-- A step of `from_fd`: whatever handle and whatever `RefInner` it makes are of its
context. -/
def World.made (w : World) (inside : Bool) (reg : Registry.State) : World :=
  { w with
    reg
    blessed := w.blessed ++ List.replicate (reg.handles.length - w.reg.handles.length) inside
    senders := w.senders ++
      List.replicate (reg.inners.length - w.reg.inners.length) (RefSender.fresh inside) }

/-- A step of a `RefInner` on its socket. -/
def World.onSender (w : World) (r : Nat) (a : RefSender.Act) : Option World :=
  match w.reg.inners[r]?, w.senders[r]? with
  | some x, some s =>
    match w.wires[x.socket]? with
    | none => none
    | some k => (RefSender.step r ⟨k, s⟩ a).map fun t =>
        { w with senders := w.senders.set r t.sender, wires := w.wires.set x.socket t.socket }
  | _, _ => none

/-- Calls are made on handles, and a `RefInner`'s fields go after its descriptor. -/
def World.permits (w : World) (r : Nat) : RefSender.Act → Bool
  | .enter _ _ _ => false
  | .release => w.reg.inners[r]?.any fun x => x.stage = .closed
  | _ => true

def World.callsOf (w : World) (r : Nat) : Nat := (w.senders[r]?.map fun s => s.calls.length).getD 0

def step (w : World) : Act → Option World
  | .reg x =>
    if w.allows x then (Registry.step w.reg x).map fun reg => w.after reg x else none
  | .fromFd a inside => (Registry.step w.reg (.fromFd a)).map fun reg =>
      { w with reg, inside := w.inside ++ [inside] }
  | .make i =>
    match w.inside[i]? with
    | none => none
    | some inside => (Registry.step w.reg (.make i)).map fun reg => w.made inside reg
  | .call h kind m onRuntime =>
    match w.reg.handles[h]? with
    | none => none
    | some y =>
      if y.held then
        (w.onSender y.inner (.enter kind m onRuntime)).map fun w' =>
          { w' with via := w.via ++ [⟨h, y.inner, w.callsOf y.inner⟩] }
      else none
  | .send r a => if w.permits r a then w.onSender r a else none

def start : World := ⟨empty, [], [], [], [], []⟩

def machine : Machine World Act where
  init w := w = start
  step := step

/-- Its outbox exists, or can be built from any thread. -/
def IsServed (s : RefSender.Sender) : Prop := s.runtime = true ∨ s.once ≠ none

instance (s : RefSender.Sender) : Decidable (IsServed s) :=
  inferInstanceAs (Decidable (_ ∨ _))

/-- The registry would answer this call, made inside a runtime, with a `RefInner` from
outside any that has no outbox yet. -/
def World.losesRuntime (w : World) (i : Nat) : Bool :=
  match w.reg.makers[i]?, w.inside[i]? with
  | some ⟨_, .statted id⟩, some true =>
    (w.reg.refs.lookup id).any fun r =>
      w.reg.isHeld r && w.senders[r]?.any fun s => !decide (IsServed s)
  | _, _ => false

def keepsRuntime (w : World) : Act → Prop
  | .make i => w.losesRuntime i = false
  | _ => True

instance (w : World) (a : Act) : Decidable (keepsRuntime w a) := by
  unfold keepsRuntime
  split <;> infer_instance

/-! ## The steps, once -/

inductive Move (w : World) : Act → World → Prop
  | reg (x : Registry.Act) (reg : Registry.State) (m : Registry.Move w.reg x reg)
      (allowed : w.allows x = true) : Move w (.reg x) (w.after reg x)
  | fromFd (a : Nat) (inside : Bool) (reg : Registry.State)
      (m : Registry.Move w.reg (.fromFd a) reg) :
      Move w (.fromFd a inside) { w with reg, inside := w.inside ++ [inside] }
  | make (i : Nat) (inside : Bool) (reg : Registry.State) (hi : w.inside[i]? = some inside)
      (m : Registry.Move w.reg (.make i) reg) : Move w (.make i) (w.made inside reg)
  | call (h : Nat) (kind : RefSender.Kind) (m : Wire.Message) (onRuntime : Bool) (y : Handle)
      (s : RefSender.Sender) (hy : w.reg.handles[h]? = some y)
      (hs : w.senders[y.inner]? = some s) (wires : List Wire.Socket) :
      Move w (.call h kind m onRuntime)
        { w with
          senders := w.senders.set y.inner (s.addCall ⟨kind, m, onRuntime, .entered⟩)
          wires
          via := w.via ++ [⟨h, y.inner, s.calls.length⟩] }
  | send (r : Nat) (a : RefSender.Act) (k : Wire.Socket) (s : RefSender.Sender)
      (t : RefSender.World) (hs : w.senders[r]? = some s) (m : RefSender.Move r ⟨k, s⟩ a t)
      (wires : List Wire.Socket) :
      Move w (.send r a) { w with senders := w.senders.set r t.sender, wires }

theorem onSender_some {w w' : World} {r : Nat} {a : RefSender.Act} (h : w.onSender r a = some w') :
    ∃ k s t wires, w.senders[r]? = some s ∧ RefSender.Move r ⟨k, s⟩ a t ∧
      w' = { w with senders := w.senders.set r t.sender, wires } := by
  rw [World.onSender] at h
  split at h
  · rename_i x s hx hs
    split at h
    · cases h
    · rename_i k hk
      obtain ⟨t, ht, rfl⟩ := Option.map_eq_some_iff.mp h
      exact ⟨k, s, t, _, hs, RefSender.step_move ht, rfl⟩
  · cases h

theorem step_move {w w' : World} {a : Act} (h : step w a = some w') : Move w a w' := by
  cases a with
  | reg x =>
    rw [step] at h
    split at h
    · rename_i allowed
      obtain ⟨reg, hreg, rfl⟩ := Option.map_eq_some_iff.mp h
      exact .reg x reg (Registry.step_move hreg) allowed
    · cases h
  | fromFd a inside =>
    obtain ⟨reg, hreg, rfl⟩ := Option.map_eq_some_iff.mp h
    exact .fromFd a inside reg (Registry.step_move hreg)
  | make i =>
    rw [step] at h
    split at h
    · cases h
    · rename_i inside hi
      obtain ⟨reg, hreg, rfl⟩ := Option.map_eq_some_iff.mp h
      exact .make i inside reg hi (Registry.step_move hreg)
  | call j kind m onRuntime =>
    rw [step] at h
    split at h
    · cases h
    · rename_i y hy
      split at h
      · obtain ⟨t, ht, rfl⟩ := Option.map_eq_some_iff.mp h
        obtain ⟨k, s, u, wires, hs, move, rfl⟩ := onSender_some ht
        cases move
        simp only [World.callsOf, hs, Option.map_some, Option.getD_some]
        exact .call j kind m onRuntime y s hy hs wires
      · cases h
  | send r a =>
    rw [step] at h
    split at h
    · obtain ⟨k, s, t, wires, hs, move, rfl⟩ := onSender_some h
      exact .send r a k s t hs move wires
    · cases h

/-! ## One `RefInner` -/

/-- The call has not panicked, and will not when it builds. -/
structure IsFit (runtime : Bool) (c : RefSender.Call) : Prop where
  unharmed : c.stage ≠ .panicked
  building : ∀ next, c.stage = .building next → runtime = true

theorem runtime_move {r : Nat} {w w' : RefSender.World} {a : RefSender.Act}
    (m : RefSender.Move r w a w') : w'.sender.runtime = w.sender.runtime := by
  cases m <;> rfl

theorem served_move {r : Nat} {w w' : RefSender.World} {a : RefSender.Act}
    (m : RefSender.Move r w a w') (h : IsServed w.sender) : IsServed w'.sender := by
  rcases h with runtime | built
  · exact Or.inl ((runtime_move m).trans runtime)
  · rcases RefSender.once_move m with same | ⟨_, _, o, _, _, _, now⟩
    · exact Or.inr (same ▸ built)
    · exact Or.inr (by simp [now])

theorem fit_of {runtime : Bool} {c : RefSender.Call} {stage : RefSender.Stage}
    (unharmed : stage ≠ .panicked) (idle : ∀ next, stage ≠ .building next) :
    IsFit runtime { c with stage } :=
  ⟨unharmed, fun next busy => absurd busy (idle next)⟩

theorem settle_fit (runtime : Bool) (c : RefSender.Call) (o : Nat) (op : OutboxTraffic.Op) :
    IsFit runtime { c with stage := RefSender.settle c.kind o op } := by
  apply fit_of
  · unfold RefSender.settle
    split <;> first | split <;> simp | simp
  · intro next
    unfold RefSender.settle
    split <;> first | split <;> simp | simp

/-- A call goes to build only where nothing was built. -/
theorem walk_fit {s : RefSender.Sender} {c : RefSender.Call} {stage : RefSender.Stage}
    (served : IsServed s) (h : s.walk c = some stage) : IsFit s.runtime { c with stage } := by
  rw [RefSender.Sender.walk] at h
  split at h
  · split at h
    · cases h
      exact fit_of (by simp) (by simp)
    · split at h <;> cases h
      · split <;> exact fit_of (by simp) (by simp)
      · exact fit_of (by simp) (by simp)
  · split at h <;> cases h
    split <;> exact fit_of (by simp) (by simp)
  · split at h <;> cases h
    · rename_i unset
      constructor
      · simp
      · exact fun _ _ => served.resolve_right fun built => built unset
    · exact fit_of (by simp) (by simp)
  · split at h <;> cases h
    exact fit_of (by simp) (by simp)
  · split at h <;> cases h
    exact fit_of (by simp) (by simp)
  · cases h

theorem call_kept {r : Nat} {w w' : RefSender.World} {a : RefSender.Act}
    (m : RefSender.Move r w a w') {i : Nat} {c : RefSender.Call}
    (hc : w.sender.calls[i]? = some c) : ∃ c', w'.sender.calls[i]? = some c' := by
  have grows : w.sender.calls.length ≤ w'.sender.calls.length := by
    cases m <;> simp [RefSender.Sender.addCall]
  have inside : i < w'.sender.calls.length := Nat.lt_of_lt_of_le (lt_of_getElem? hc) grows
  exact ⟨_, List.getElem?_eq_getElem inside⟩

theorem fit_move {r : Nat} {w w' : RefSender.World} {a : RefSender.Act}
    (m : RefSender.Move r w a w') (served : IsServed w.sender) {i : Nat} {c : RefSender.Call}
    (hc : w.sender.calls[i]? = some c) (fit : IsFit w.sender.runtime c) :
    ∃ c', w'.sender.calls[i]? = some c' ∧ IsFit w'.sender.runtime c' := by
  rw [runtime_move m]
  have restaged : ∀ {j : Nat} {d : RefSender.Call} {stage : RefSender.Stage},
      w.sender.calls[j]? = some d → (d = c → IsFit w.sender.runtime { d with stage }) →
      ∃ c', (w.sender.calls.set j { d with stage })[i]? = some c' ∧
        IsFit w.sender.runtime c' := by
    intro j d stage hd fits
    by_cases same : j = i
    · subst same
      exact ⟨_, List.getElem?_set_self (lt_of_getElem? hc), fits (Option.mem_unique hd hc)⟩
    · exact ⟨c, (List.getElem?_set_ne same).trans hc, fit⟩
  cases m with
  | enter kind m onRuntime alive =>
    exact ⟨c, (List.getElem?_append_left (lt_of_getElem? hc)).trans hc, fit⟩
  | walk j d stage hd hw => exact restaged hd fun _ => walk_fit served hw
  | set j d next o hd hs unset => exact restaged hd fun _ => fit_of (by simp) (by simp)
  | lose j d next o b hd hs hb => exact restaged hd fun _ => fit_of (by simp) (by simp)
  | queue j d o op op' b outbox hd hs hb hm => exact restaged hd fun _ => settle_fit _ d o op'
  | inline j d ans k hd hs hk =>
    exact restaged hd fun _ => fit_of (by cases ans <;> simp [RefSender.afterInline])
      (by cases ans <;> simp [RefSender.afterInline])
  | built j d next dup hd hs => exact restaged hd fun _ => fit_of (by simp) (by simp)
  | buildFailed j d next hd hs => exact restaged hd fun _ => fit_of (by simp) (by simp)
  | noRuntime j d next dup hd hs bare =>
    refine restaged hd fun same => ?_
    have captured := fit.building next (same ▸ hs)
    rw [bare.1] at captured
    cases captured
  | grant j d o op op' b outbox hd hs hb hm => exact restaged hd fun _ => settle_fit _ d o op'
  | cancel j d o op op' b outbox hd hs hb hm => exact restaged hd fun _ => settle_fit _ d o op'
  | take j d r hd hs failed => exact restaged hd fun _ => fit_of (by simp) (by simp)
  | _ => exact ⟨c, hc, fit⟩

/-! ## All of them -/

/-- What is under a blessed handle can build its outbox, and no call made on one panics. -/
structure Kept (w : World) : Prop where
  faithful : Faithful w.reg
  makers : w.inside.length = w.reg.makers.length
  handles : w.blessed.length = w.reg.handles.length
  inners : w.senders.length = w.reg.inners.length
  served : ∀ (h : Nat) y, w.reg.handles[h]? = some y → w.isBlessed h = true →
    ∃ s, w.senders[y.inner]? = some s ∧ IsServed s
  calls : ∀ v ∈ w.via, ∃ y s c, w.reg.handles[v.handle]? = some y ∧ y.inner = v.inner ∧
    w.senders[v.inner]? = some s ∧ s.calls[v.call]? = some c ∧
      (w.isBlessed v.handle = true → IsFit s.runtime c)

theorem start_kept : Kept start where
  faithful := empty_faithful
  makers := rfl
  handles := rfl
  inners := rfl
  served := by simp [start, empty]
  calls := by simp [start]

/-- Blessings given to handles that come later change no earlier one. -/
theorem isBlessed_append {w w' : World} {later : List Bool} (same : w'.blessed = w.blessed ++ later)
    {h : Nat} (inside : h < w.blessed.length) : w'.isBlessed h = w.isBlessed h := by
  simp [World.isBlessed, same, List.getElem?_append_left inside]

/-- The calls on record stay in their places when handles and `RefInner`s are added. -/
theorem Kept.calls_grow {w w' : World} (h : Kept w) (later : List Bool)
    (more : List RefSender.Sender) (blessed : w'.blessed = w.blessed ++ later)
    (senders : w'.senders = w.senders ++ more) (via : w'.via = w.via)
    (kept : ∀ (j : Nat) y, w.reg.handles[j]? = some y →
      ∃ y', w'.reg.handles[j]? = some y' ∧ y'.inner = y.inner) :
    ∀ v ∈ w'.via, ∃ y s c, w'.reg.handles[v.handle]? = some y ∧ y.inner = v.inner ∧
      w'.senders[v.inner]? = some s ∧ s.calls[v.call]? = some c ∧
        (w'.isBlessed v.handle = true → IsFit s.runtime c) := by
  intro v hv
  obtain ⟨y, s, c, hy, mine, hs, hc, fit⟩ := h.calls v (via ▸ hv)
  obtain ⟨y', hy', same⟩ := kept v.handle y hy
  have inside : v.handle < w.blessed.length := by
    rw [h.handles]
    exact lt_of_getElem? hy
  refine ⟨y', s, c, hy', same.trans mine, ?_, hc, ?_⟩
  · rw [senders, List.getElem?_append_left (lt_of_getElem? hs), hs]
  · rw [isBlessed_append blessed inside]
    exact fit

theorem handles_kept {s s' : Registry.State} {x : Registry.Act} (m : Registry.Move s x s') :
    ∀ (j : Nat) y, s.handles[j]? = some y →
      ∃ y', s'.handles[j]? = some y' ∧ y'.inner = y.inner := by
  intro j y hy
  obtain ⟨y', hy', same, _⟩ := handle_kept m hy
  exact ⟨y', hy', same⟩

/-- What the steps that are not `from_fd`'s make of the registry's lists. -/
theorem reg_lists {w : World} {reg : Registry.State} {x : Registry.Act}
    (m : Registry.Move w.reg x reg) (allowed : w.allows x = true) :
    reg.makers.length = w.reg.makers.length ∧ reg.inners.length = w.reg.inners.length ∧
      ((∃ (j : Nat) (y : Handle), x = .clone j ∧ w.reg.handles[j]? = some y ∧
          reg.handles = w.reg.handles ++ [y]) ∨
        (∀ j, x ≠ .clone j) ∧ reg.handles.length = w.reg.handles.length) := by
  cases m with
  | clone j y hy held => exact ⟨rfl, rfl, Or.inl ⟨j, y, rfl, hy, rfl⟩⟩
  | drop j y hy held => exact ⟨rfl, rfl, Or.inr ⟨by simp, List.length_set⟩⟩
  | unfile r y hy hs free => exact ⟨rfl, List.length_set, Or.inr ⟨by simp, rfl⟩⟩
  | closeFd r y hy hs => exact ⟨rfl, List.length_set, Or.inr ⟨by simp, rfl⟩⟩
  | fromFd => cases allowed
  | stat => cases allowed
  | hit => cases allowed
  | file => cases allowed
  | finish => cases allowed
  | _ => exact ⟨rfl, rfl, Or.inr ⟨by simp, rfl⟩⟩

theorem after_other (w : World) (reg : Registry.State) {x : Registry.Act}
    (other : ∀ j, x ≠ .clone j) :
    (w.after reg x).blessed = w.blessed ∧ (w.after reg x).reg = reg ∧
      (w.after reg x).inside = w.inside ∧ (w.after reg x).senders = w.senders ∧
      (w.after reg x).via = w.via := by
  cases x with
  | clone j => exact absurd rfl (other j)
  | _ => exact ⟨rfl, rfl, rfl, rfl, rfl⟩

theorem kept_reg {w : World} {reg : Registry.State} {x : Registry.Act} (h : Kept w)
    (m : Registry.Move w.reg x reg) (allowed : w.allows x = true) : Kept (w.after reg x) := by
  obtain ⟨makers, inners, ⟨j, y, rfl, hy, pushed⟩ | ⟨other, handles⟩⟩ := reg_lists m allowed
  · constructor
    · exact faithful_step h.faithful m
    · exact h.makers.trans makers.symm
    · simp [World.after, pushed, h.handles]
    · exact h.inners.trans inners.symm
    · intro k z hz blessed
      have hz : (w.reg.handles ++ [y])[k]? = some z := pushed ▸ hz
      rcases getElem?_push_cases hz with ⟨rfl, rfl⟩ | old
      · apply h.served j z hy
        simpa [World.isBlessed, World.after, ← h.handles] using blessed
      · apply h.served k z old
        have inside : k < w.blessed.length := by
          rw [h.handles]
          exact lt_of_getElem? old
        rwa [isBlessed_append rfl inside] at blessed
    · exact h.calls_grow _ [] rfl (List.append_nil _).symm rfl (handles_kept m)
  · obtain ⟨blessed, same, inside, senders, via⟩ := after_other w reg other
    have untouched : ∀ k, (w.after reg x).isBlessed k = w.isBlessed k := by
      intro k
      rw [World.isBlessed, blessed]
      rfl
    constructor
    · rw [same]
      exact faithful_step h.faithful m
    · rw [inside, same]
      exact h.makers.trans makers.symm
    · rw [blessed, same]
      exact h.handles.trans handles.symm
    · rw [senders, same]
      exact h.inners.trans inners.symm
    · intro k z hz isBlessed
      rw [same] at hz
      rw [senders]
      have old : k < w.reg.handles.length := handles ▸ lt_of_getElem? hz
      obtain ⟨z', hz', kept⟩ := handles_kept m k _ (List.getElem?_eq_getElem old)
      obtain rfl : z = z' := Option.mem_unique hz hz'
      rw [kept]
      exact h.served k _ (List.getElem?_eq_getElem old) (untouched k ▸ isBlessed)
    · refine h.calls_grow [] [] ?_ ?_ via ?_
      · rw [blessed, List.append_nil]
      · rw [senders, List.append_nil]
      · rw [same]
        exact handles_kept m

/-- A step of `from_fd` leaves the lists as they are, adds the handle of a hit, or adds a
`RefInner` and its handle. -/
theorem make_lists {s s' : Registry.State} {i : Nat} (m : Registry.Move s (.make i) s') :
    s'.makers.length = s.makers.length ∧
      ((s'.handles = s.handles ∧ s'.inners = s.inners) ∨
        (∃ (p : Maker) (id : SocketId) (r : Nat), s.makers[i]? = some p ∧ p.stage = .statted id ∧
          s.refs.lookup id = some r ∧ s.isHeld r = true ∧ s'.inners = s.inners ∧
          s'.handles = s.handles ++ [⟨r, p.socket, true⟩]) ∨
        ∃ (y : Handle) (x : RefInner), y.inner = s.inners.length ∧
          s'.handles = s.handles ++ [y] ∧ s'.inners = s.inners ++ [x]) := by
  cases m with
  | stat _ p k hp hs hk => exact ⟨List.length_set, Or.inl ⟨rfl, rfl⟩⟩
  | hit _ p id r hp hs filed held =>
    exact ⟨List.length_set, Or.inr (Or.inl ⟨p, id, r, hp, hs, filed, held, rfl, rfl⟩)⟩
  | file _ p id hp hs dead => exact ⟨List.length_set, Or.inr (Or.inr ⟨_, _, rfl, rfl, rfl⟩)⟩
  | finish _ p hp hs => exact ⟨List.length_set, Or.inl ⟨rfl, rfl⟩⟩

/-- A hit that the guard allows a call inside a runtime. -/
theorem Kept.hit_served {w : World} (h : Kept w) {i : Nat} {p : Maker} {id : SocketId} {r : Nat}
    (ok : keepsRuntime w (.make i)) (hi : w.inside[i]? = some true)
    (hp : w.reg.makers[i]? = some p) (hs : p.stage = .statted id)
    (filed : w.reg.refs.lookup id = some r) (held : w.reg.isHeld r = true) :
    ∃ s, w.senders[r]? = some s ∧ IsServed s := by
  obtain ⟨x, hx, _⟩ := h.faithful.entry id r filed
  have inside : r < w.senders.length := by
    rw [h.inners]
    exact lt_of_getElem? hx
  refine ⟨w.senders[r], List.getElem?_eq_getElem inside, ?_⟩
  obtain ⟨a, stage⟩ := p
  obtain rfl : stage = .statted id := hs
  by_contra bare
  have loses : w.losesRuntime i = true := by
    simp [World.losesRuntime, hp, hi, filed, held, List.getElem?_eq_getElem inside, bare]
  rw [show w.losesRuntime i = false from ok] at loses
  cases loses

theorem kept_make {w : World} {i : Nat} {inside : Bool} {reg : Registry.State} (h : Kept w)
    (ok : keepsRuntime w (.make i)) (hi : w.inside[i]? = some inside)
    (m : Registry.Move w.reg (.make i) reg) : Kept (w.made inside reg) := by
  obtain ⟨makers, lists⟩ := make_lists m
  have handles := h.handles
  have inners := h.inners
  have old : ∀ {k : Nat} {z : Handle}, w.reg.handles[k]? = some z →
      (w.made inside reg).isBlessed k = true →
      ∃ s, (w.made inside reg).senders[z.inner]? = some s ∧ IsServed s := by
    intro k z hz blessed
    have early : k < w.blessed.length := by
      rw [handles]
      exact lt_of_getElem? hz
    rw [isBlessed_append rfl early] at blessed
    obtain ⟨s, hs, served⟩ := h.served k z hz blessed
    exact ⟨s, (List.getElem?_append_left (lt_of_getElem? hs)).trans hs, served⟩
  have calls := h.calls_grow _ _ (rfl : (w.made inside reg).blessed = _) rfl rfl (handles_kept m)
  have faithful := faithful_step h.faithful m
  rcases lists with ⟨sameh, samei⟩ | ⟨p, id, r, hp, hs, filed, held, samei, pushed⟩ |
    ⟨y, x, mine, pushed, grown⟩
  · constructor
    · exact faithful
    · exact h.makers.trans makers.symm
    · simp [World.made, sameh, handles]
    · simp [World.made, samei, inners]
    · intro k z hz blessed
      exact old (sameh ▸ hz) blessed
    · exact calls
  · constructor
    · exact faithful
    · exact h.makers.trans makers.symm
    · simp [World.made, pushed, handles]
    · simp [World.made, samei, inners]
    · intro k z hz blessed
      have hz : (w.reg.handles ++ [⟨r, p.socket, true⟩])[k]? = some z := pushed ▸ hz
      rcases getElem?_push_cases hz with ⟨rfl, rfl⟩ | hz
      · obtain rfl : inside = true := by
          simpa [World.isBlessed, World.made, pushed, ← handles] using blessed
        obtain ⟨s, hsend, served⟩ := h.hit_served ok hi hp hs filed held
        exact ⟨s, (List.getElem?_append_left (lt_of_getElem? hsend)).trans hsend, served⟩
      · exact old hz blessed
    · exact calls
  · constructor
    · exact faithful
    · exact h.makers.trans makers.symm
    · simp [World.made, pushed, handles]
    · simp [World.made, grown, inners]
    · intro k z hz blessed
      have hz : (w.reg.handles ++ [y])[k]? = some z := pushed ▸ hz
      rcases getElem?_push_cases hz with ⟨rfl, rfl⟩ | hz
      · obtain rfl : inside = true := by
          simpa [World.isBlessed, World.made, pushed, ← handles] using blessed
        refine ⟨RefSender.fresh true, ?_, Or.inl rfl⟩
        simp [World.made, grown, mine, ← inners]
      · exact old hz blessed
    · exact calls

/-- A `RefInner` that goes on being served, in its place. -/
theorem kept_sender {w : World} {r : Nat} {s t : RefSender.Sender} {wires : List Wire.Socket}
    (h : Kept w) (hs : w.senders[r]? = some s) (served : IsServed s → IsServed t)
    (calls : ∀ (i : Nat) c, s.calls[i]? = some c → ∃ c', t.calls[i]? = some c' ∧
      (IsServed s → IsFit s.runtime c → IsFit t.runtime c')) :
    Kept { w with senders := w.senders.set r t, wires } := by
  have other : ∀ {q : Nat} {u : RefSender.Sender}, w.senders[q]? = some u →
      ∃ u', (w.senders.set r t)[q]? = some u' ∧ (q = r ∧ u = s ∧ u' = t ∨ u' = u) := by
    intro q u hu
    by_cases same : r = q
    · subst same
      exact ⟨t, List.getElem?_set_self (lt_of_getElem? hu),
        Or.inl ⟨rfl, Option.mem_unique hu hs, rfl⟩⟩
    · exact ⟨u, (List.getElem?_set_ne same).trans hu, Or.inr rfl⟩
  constructor
  · exact h.faithful
  · exact h.makers
  · exact h.handles
  · exact List.length_set.trans h.inners
  · intro k y hy blessed
    obtain ⟨u, hu, was⟩ := h.served k y hy blessed
    obtain ⟨u', hu', ⟨_, rfl, rfl⟩ | rfl⟩ := other hu
    · exact ⟨u', hu', served was⟩
    · exact ⟨u', hu', was⟩
  · intro v hv
    obtain ⟨y, u, c, hy, mine, hu, hc, fit⟩ := h.calls v hv
    obtain ⟨u', hu', ⟨_, rfl, rfl⟩ | rfl⟩ := other hu
    · obtain ⟨c', hc', keeps⟩ := calls v.call c hc
      refine ⟨y, u', c', hy, mine, hu', hc', fun blessed => ?_⟩
      obtain ⟨u₀, hu₀, was⟩ := h.served v.handle y hy blessed
      rw [mine] at hu₀
      obtain rfl : u = u₀ := Option.mem_unique hu hu₀
      exact keeps was (fit blessed)
    · exact ⟨y, u', c, hy, mine, hu', hc, fit⟩

theorem kept_step {w w' : World} {a : Act} (h : Kept w) (ok : keepsRuntime w a)
    (m : Move w a w') : Kept w' := by
  cases m with
  | reg x reg m allowed => exact kept_reg h m allowed
  | fromFd a inside reg m =>
    have faithful := faithful_step h.faithful m
    cases m
    constructor
    · exact faithful
    · simp [h.makers]
    · exact h.handles
    · exact h.inners
    · exact h.served
    · exact h.calls
  | make i inside reg hi m => exact kept_make h ok hi m
  | call j kind m onRuntime y s hy hs wires =>
    have kept : Kept { w with
        senders := w.senders.set y.inner (s.addCall ⟨kind, m, onRuntime, .entered⟩), wires } := by
      refine kept_sender h hs (fun served => served) fun i c hc => ?_
      exact ⟨c, (List.getElem?_append_left (lt_of_getElem? hc)).trans hc, fun _ fit => fit⟩
    refine { kept with calls := fun v hv => ?_ }
    rcases List.mem_append.mp hv with old | new
    · exact kept.calls v old
    · rw [List.mem_singleton.mp new]
      refine ⟨y, _, ⟨kind, m, onRuntime, .entered⟩, hy, rfl,
        List.getElem?_set_self (lt_of_getElem? hs), ?_, fun _ => ?_⟩
      · simp
      · exact ⟨by simp, by simp⟩
  | send r a k s t hs m wires =>
    refine kept_sender h hs (served_move m) fun i c hc => ?_
    by_cases served : IsServed s ∧ IsFit s.runtime c
    · obtain ⟨c', hc', fit⟩ := fit_move m served.1 hc served.2
      exact ⟨c', hc', fun _ _ => fit⟩
    · obtain ⟨c', hc'⟩ := call_kept m hc
      exact ⟨c', hc', fun was fit => absurd ⟨was, fit⟩ served⟩

theorem kept {w : World} (h : Reachable machine keepsRuntime w) : Kept w := by
  refine reachable_invariant ?_ ?_ h
  · rintro w rfl
    exact start_kept
  · intro w a w' hw ok hstep
    exact kept_step hw ok (step_move hstep)

/-- No call on a `Ref` that a `from_fd` inside a runtime returned panics for want of a
runtime, as long as the registry does not answer such a `from_fd` with a `RefInner` from
outside any runtime that has no outbox yet. -/
theorem never_without_runtime {w : World} (h : Reachable machine keepsRuntime w) {v : Via}
    (hv : v ∈ w.via) (blessed : w.isBlessed v.handle = true) :
    ∃ stage, w.stageOf v = some stage ∧ stage ≠ .panicked := by
  obtain ⟨_, s, c, _, _, hs, hc, fit⟩ := (kept h).calls v hv
  refine ⟨c.stage, ?_, (fit blessed).unharmed⟩
  simp [World.stageOf, hs, hc]

def note : Wire.Message := ⟨[1], []⟩

/-- Filed inside a runtime, recognised outside, cloned from there, and its outbox built
on the runtime from a thread that has none. -/
def captured : World where
  reg :=
    { sockets := [⟨(1, 5), 0⟩]
      makers := [⟨0, .done⟩, ⟨0, .hit⟩]
      inners := [⟨0, (1, 5), .filed⟩]
      handles := [⟨0, 0, true⟩, ⟨0, 0, true⟩, ⟨0, 0, true⟩]
      refs := AList.insert (1, 5) 0 ∅ }
  inside := [true, false]
  blessed := [true, false, true]
  senders :=
    [⟨true, none, [⟨9, OutboxTraffic.build⟩], [⟨.trySend, note, false, .setting .push 0⟩], true,
      []⟩]
  wires := [⟨false, true, []⟩]
  via := [⟨2, 0, 0⟩]

theorem captured_run : exec machine keepsRuntime start
    [.reg (.openSocket (1, 5)), .reg (.dup 0), .fromFd 0 true, .make 0, .make 0, .fromFd 0 false,
      .make 1, .make 1, .reg (.clone 0), .send 0 (.room false), .call 2 .trySend note false,
      .send 0 (.call 0), .send 0 (.sendNow 0 .wouldBlock), .send 0 (.call 0),
      .send 0 (.build 0 (some 9))] = some captured := rfl

theorem never_without_runtime_captured :
    ∃ stage, captured.stageOf ⟨2, 0, 0⟩ = some stage ∧ stage ≠ .panicked :=
  never_without_runtime (exec_reachable rfl captured_run) (List.mem_singleton.mpr rfl) rfl

/-- Filed outside any runtime, and recognised by a `from_fd` inside one. -/
def bare : World where
  reg :=
    { sockets := [⟨(1, 5), 0⟩]
      makers := [⟨0, .done⟩, ⟨0, .hit⟩]
      inners := [⟨0, (1, 5), .filed⟩]
      handles := [⟨0, 0, true⟩, ⟨0, 0, true⟩]
      refs := AList.insert (1, 5) 0 ∅ }
  inside := [false, true]
  blessed := [false, true]
  senders := [⟨false, none, [], [⟨.trySend, note, false, .panicked⟩], true, [note]⟩]
  wires := [⟨false, true, []⟩]
  via := [⟨1, 0, 0⟩]

theorem bare_run : exec machine anyStep start
    [.reg (.openSocket (1, 5)), .reg (.dup 0), .fromFd 0 false, .make 0, .make 0, .fromFd 0 true,
      .make 1, .make 1, .send 0 (.room false), .call 1 .trySend note false, .send 0 (.call 0),
      .send 0 (.sendNow 0 .wouldBlock), .send 0 (.call 0), .send 0 (.build 0 (some 9))] =
      some bare := rfl

theorem interning_loses_the_runtime :
    ∃ (w : World) (v : Via), Reachable machine anyStep w ∧ v ∈ w.via ∧
      w.isBlessed v.handle = true ∧ w.stageOf v = some .panicked :=
  ⟨bare, ⟨1, 0, 0⟩, exec_reachable rfl bare_run, List.mem_singleton.mpr rfl, rfl, rfl⟩

end Runtimes
