import StrongIpc.Library.Roster
import StrongIpc.Library.StepMachine

/-!
# Two answers to "is the node gone?"

`Ref::is_dead` asks the kernel with one `ppoll`; `Ref::death_notification` waits in
`Reactive::hangup` for the reactor to say so. The far end may do with its socket what
it likes. What `poll` reports follows the kernel: HUP when both directions are shut
down or the far end has closed, ERR on a pending error, RDHUP with readable when the
far end will send nothing more. The reactor's readiness collects what `epoll` reported
at some earlier time, and clearing it leaves closed states as they are.
-/

namespace Hangup

open Roster StepMachine

/-! ## The socket -/

/-- The `Ref`'s end of the socket. `rcvShut` when the far end sends nothing more,
`sndShut` when it receives nothing more; `queued` is unread here, `unread` over there. -/
structure End where
  queued : Nat
  unread : Nat
  rcvShut : Bool
  sndShut : Bool
  closed : Bool
  error : Bool
  deriving DecidableEq, Repr

structure Flags where
  readable : Bool
  rdHup : Bool
  hup : Bool
  err : Bool
  nval : Bool
  deriving DecidableEq, Repr

/-- Hung up for good. -/
def End.isGone (e : End) : Bool := e.closed || (e.rcvShut && e.sndShut)

def End.poll (e : End) : Flags :=
  ⟨0 < e.queued || e.rcvShut, e.rcvShut, e.isGone, e.error, false⟩

/-- `is_hung_up`, on what `poll` answered; `none` when it failed. -/
def isHungUp : Option Flags → Bool
  | none => false
  | some f => f.hup || f.err || f.nval

/-- `Ref::is_dead`. -/
def End.isDead (e : End) : Bool := isHungUp (some e.poll)

def End.shutWrite (e : End) : End := { e with rcvShut := true }

def End.shutRead (e : End) : End := { e with sndShut := true }

/-- Closing with unread data leaves an error pending. -/
def End.close (e : End) : End :=
  { e with rcvShut := true, sndShut := true, closed := true, error := e.error || 0 < e.unread }

def open_ : End := ⟨0, 0, false, false, false, false⟩

/-! ## The reactor -/

structure Ready where
  readable : Bool
  readClosed : Bool
  error : Bool
  deriving DecidableEq, Repr

def Ready.empty : Ready := ⟨false, false, false⟩

/-- What an event says, in the reactor's terms. -/
def Ready.ofEvent (f : Flags) : Ready := ⟨f.readable, f.hup || (f.readable && f.rdHup), f.err⟩

def Ready.join (r r' : Ready) : Ready :=
  ⟨r.readable || r'.readable, r.readClosed || r'.readClosed, r.error || r'.error⟩

/-- Anything of `Interest::READABLE | Interest::ERROR`. -/
def Ready.isAny (r : Ready) : Bool := r.readable || r.readClosed || r.error

/-- `clear_ready` of what was seen; closed states are final. -/
def Ready.clear (r seen : Ready) : Ready :=
  { r with readable := r.readable && !seen.readable, error := r.error && !seen.error }

/-- The condition under which `hangup` returns. -/
def Ready.isDeath (r : Ready) : Bool := r.readClosed || r.error

/-! ## The waiters -/

/-- `death_notification`: the `is_dead` check, `getting` to `setting` as `death_watch`
has it, then the loop of `hangup` on the watch `k`. -/
inductive Stage where
  | asking
  | getting
  | building
  | setting (k : Nat)
  | awaiting (k : Nat)
  | woken (k : Nat) (r : Ready)
  | clearing (k : Nat) (r : Ready)
  | stuck
  | completed
  | cancelled
  deriving DecidableEq, Repr

/-- `events` are what `epoll` reported and the reactor has not yet taken in, each for
one of the watches ever built; `once` is the `OnceLock`. -/
structure State where
  line : End
  events : List (Nat × Flags)
  watches : List Ready
  once : Option Nat
  waiters : List Stage
  deriving DecidableEq, Repr

inductive Act where
  | talk
  | shutWrite
  | shutRead
  | shutBoth
  | close
  | farReads
  | send
  | take
  | takeError
  | epoll (k : Nat)
  | dispatch
  | wait
  | ask (i : Nat)
  | get (i : Nat)
  | build (i : Nat) (ok : Bool)
  | set (i : Nat)
  | ready (i : Nat)
  | fail (i : Nat)
  | inspect (i : Nat)
  | clear (i : Nat) (stale : Bool)
  | cancel (i : Nat)
  deriving DecidableEq, Repr

def State.setStage (s : State) (i : Nat) (stage : Stage) : State :=
  { s with waiters := s.waiters.set i stage }

/-- What the far end does, what is sent to it, and what is read here. -/
def End.step (e : End) : Act → Option End
  | .talk => if e.rcvShut then none else some { e with queued := e.queued + 1 }
  | .shutWrite => if e.closed then none else some e.shutWrite
  | .shutRead => if e.closed then none else some e.shutRead
  | .shutBoth => if e.closed then none else some e.shutWrite.shutRead
  | .close => if e.closed then none else some e.close
  | .farReads => if e.closed then none else some { e with unread := e.unread - 1 }
  | .send => if e.sndShut then none else some { e with unread := e.unread + 1 }
  | .take => some { e with queued := e.queued - 1 }
  | .takeError => some { e with error := false }
  | _ => none

/-- The waiter's own steps, and what the reactor does to it. -/
def State.waiterStep (s : State) (i : Nat) : Stage → Act → Option State
  | .asking, .ask _ => some (s.setStage i (if s.line.isDead then .completed else .getting))
  | .getting, .get _ =>
    match s.once with
    | none => some (s.setStage i .building)
    | some k => some (s.setStage i (.awaiting k))
  | .building, .build _ ok =>
    if ok then
      some ({ s with watches := s.watches ++ [Ready.empty] }.setStage i (.setting s.watches.length))
    else some (s.setStage i .stuck)
  | .setting k, .set _ =>
    match s.once with
    | none => some ({ s with once := some k }.setStage i (.awaiting k))
    | some k' => some (s.setStage i (.awaiting k'))
  | .awaiting k, .ready _ =>
    match s.watches[k]? with
    | none => none
    | some r => if r.isAny then some (s.setStage i (.woken k r)) else none
  | .awaiting _, .fail _ => some (s.setStage i .completed)
  | .woken k r, .inspect _ =>
    some (s.setStage i (if r.isDeath then .completed else .clearing k r))
  | .clearing k r, .clear _ stale =>
    match s.watches[k]? with
    | none => none
    | some now =>
      some ({ s with watches := s.watches.set k (if stale then now else now.clear r) }.setStage i
        (.awaiting k))
  | .completed, .cancel _ => none
  | .cancelled, .cancel _ => none
  | _, .cancel _ => some (s.setStage i .cancelled)
  | _, _ => none

def State.onWaiter (s : State) (i : Nat) (a : Act) : Option State :=
  match s.waiters[i]? with
  | none => none
  | some stage => s.waiterStep i stage a

def step (s : State) : Act → Option State
  | .epoll k =>
    if k < s.watches.length then some { s with events := s.events ++ [(k, s.line.poll)] } else none
  | .dispatch =>
    match s.events with
    | [] => none
    | (k, f) :: rest =>
      match s.watches[k]? with
      | none => none
      | some r =>
        some { s with events := rest, watches := s.watches.set k (r.join (.ofEvent f)) }
  | .wait => some { s with waiters := s.waiters ++ [.asking] }
  | .ask i => s.onWaiter i (.ask i)
  | .get i => s.onWaiter i (.get i)
  | .build i ok => s.onWaiter i (.build i ok)
  | .set i => s.onWaiter i (.set i)
  | .ready i => s.onWaiter i (.ready i)
  | .fail i => s.onWaiter i (.fail i)
  | .inspect i => s.onWaiter i (.inspect i)
  | .clear i stale => s.onWaiter i (.clear i stale)
  | .cancel i => s.onWaiter i (.cancel i)
  | a => (s.line.step a).map fun line => { s with line }

def quiet : State := ⟨open_, [], [], none, []⟩

def machine : Machine State Act where
  init s := s = quiet
  step := step

/-- The reactor itself reports no error. -/
def Act.isSound : Act → Bool
  | .fail _ => false
  | _ => true

def sound (_ : State) (a : Act) : Prop := a.isSound = true

/-- And the far end does not stop sending while it still receives. -/
def noHalfClose (s : State) (a : Act) : Prop :=
  a.isSound = true ∧ (a = .shutWrite → s.line.sndShut = true)

instance (s : State) (a : Act) : Decidable (sound s a) := by
  unfold sound
  infer_instance

instance (s : State) (a : Act) : Decidable (noHalfClose s a) := by
  unfold noHalfClose
  infer_instance

/-! ## The steps, once -/

/-- The waiter has been told of a death, rightly or wrongly. -/
def Stage.isTold : Stage → Bool
  | .woken _ r | .clearing _ r => r.isDeath
  | .completed => true
  | _ => false

/-- What a waiter's step leaves of the socket, of the watches and of its own stage. -/
structure WaiterMove (s : State) (i : Nat) (stage : Stage) (a : Act) (s' : State) : Prop where
  line : s'.line = s.line
  events : s'.events = s.events
  waiters : ∃ next, s'.waiters = s.waiters.set i next ∧
    (next.isTold = true → a.isSound = true →
      s.line.isDead = true ∨ stage.isTold = true ∨ ∃ r ∈ s.watches, r.isDeath = true)
  watches : ∀ r ∈ s'.watches, r.isDeath = true → ∃ r' ∈ s.watches, r'.isDeath = true

/-- A step that touches no watch. -/
theorem WaiterMove.setStage {s : State} {i : Nat} {stage next : Stage} {a : Act}
    (told : next.isTold = true → a.isSound = true →
      s.line.isDead = true ∨ stage.isTold = true ∨ ∃ r ∈ s.watches, r.isDeath = true) :
    WaiterMove s i stage a (s.setStage i next) where
  line := rfl
  events := rfl
  waiters := ⟨next, rfl, told⟩
  watches := fun r hr death => ⟨r, hr, death⟩

theorem Ready.clear_isDeath {r seen : Ready} (h : (r.clear seen).isDeath = true) :
    r.isDeath = true := by
  simp only [clear, isDeath, Bool.or_eq_true, Bool.and_eq_true] at h ⊢
  rcases h with closed | ⟨error, -⟩
  · exact Or.inl closed
  · exact Or.inr error

theorem waiter_move {s s' : State} {i : Nat} {stage : Stage} {a : Act}
    (h : s.waiterStep i stage a = some s') : WaiterMove s i stage a s' := by
  unfold State.waiterStep at h
  split at h
  · -- `ask`
    cases h
    apply WaiterMove.setStage
    intro told _
    by_cases dead : s.line.isDead
    · exact Or.inl dead
    · simp [dead, Stage.isTold] at told
  · -- `get`
    split at h <;> cases h
    · apply WaiterMove.setStage
      simp [Stage.isTold]
    · apply WaiterMove.setStage
      simp [Stage.isTold]
  · -- `build`
    split at h <;> cases h
    · constructor
      · rfl
      · rfl
      · exact ⟨_, rfl, by simp [Stage.isTold]⟩
      · intro r hr death
        rcases List.mem_append.mp hr with old | new
        · exact ⟨r, old, death⟩
        · rw [List.mem_singleton.mp new] at death
          cases death
    · apply WaiterMove.setStage
      simp [Stage.isTold]
  · -- `set`
    split at h <;> cases h
    · exact ⟨rfl, rfl, ⟨_, rfl, by simp [Stage.isTold]⟩, fun r hr death => ⟨r, hr, death⟩⟩
    · apply WaiterMove.setStage
      simp [Stage.isTold]
  · -- `ready`
    split at h
    · cases h
    · rename_i r hr
      split at h <;> cases h
      apply WaiterMove.setStage
      exact fun death _ => Or.inr (Or.inr ⟨r, List.mem_of_getElem? hr, death⟩)
  · -- `fail`
    cases h
    apply WaiterMove.setStage
    simp [Act.isSound]
  · -- `inspect`
    rename_i r _
    cases h
    apply WaiterMove.setStage
    intro told _
    by_cases death : r.isDeath
    · exact Or.inr (Or.inl death)
    · simp [death, Stage.isTold] at told
  · -- `clear`
    split at h
    · cases h
    · rename_i now hnow
      cases h
      constructor
      · rfl
      · rfl
      · exact ⟨_, rfl, by simp [Stage.isTold]⟩
      · intro r hr death
        rcases List.mem_or_eq_of_mem_set hr with old | rfl
        · exact ⟨r, old, death⟩
        · refine ⟨now, List.mem_of_getElem? hnow, ?_⟩
          split at death
          · exact death
          · exact Ready.clear_isDeath death
  · cases h
  · cases h
  · cases h
    apply WaiterMove.setStage
    simp [Stage.isTold]
  · cases h

inductive Move (s : State) : Act → State → Prop
  | line (a : Act) (line' : End) (h : s.line.step a = some line') :
      Move s a { s with line := line' }
  | epoll (k : Nat) (hk : k < s.watches.length) :
      Move s (.epoll k) { s with events := s.events ++ [(k, s.line.poll)] }
  | dispatch (k : Nat) (f : Flags) (rest : List (Nat × Flags)) (r : Ready)
      (next : s.events = (k, f) :: rest) (hk : s.watches[k]? = some r) :
      Move s .dispatch
        { s with events := rest, watches := s.watches.set k (r.join (.ofEvent f)) }
  | wait : Move s .wait { s with waiters := s.waiters ++ [.asking] }
  | waiter (i : Nat) (stage : Stage) (a : Act) (s' : State) (hi : s.waiters[i]? = some stage)
      (m : WaiterMove s i stage a s') : Move s a s'

theorem move_onWaiter {s s' : State} {i : Nat} {a : Act} (h : s.onWaiter i a = some s') :
    Move s a s' := by
  unfold State.onWaiter at h
  split at h
  · cases h
  · rename_i stage hi
    exact .waiter i stage a s' hi (waiter_move h)

theorem move_line {s s' : State} {a : Act}
    (h : (s.line.step a).map (fun line => { s with line }) = some s') : Move s a s' := by
  obtain ⟨line', hline, rfl⟩ := Option.map_eq_some_iff.mp h
  exact .line a line' hline

theorem step_move {s s' : State} {a : Act} (h : step s a = some s') : Move s a s' := by
  cases a with
  | epoll k =>
    rw [step] at h
    split at h
    · rename_i hk
      cases h
      exact .epoll k hk
    · cases h
  | dispatch =>
    rw [step] at h
    split at h
    · cases h
    · rename_i k f rest next
      split at h
      · cases h
      · rename_i r hk
        cases h
        exact .dispatch k f rest r next hk
  | wait => cases h; exact .wait
  | ask i => exact move_onWaiter h
  | get i => exact move_onWaiter h
  | build i ok => exact move_onWaiter h
  | set i => exact move_onWaiter h
  | ready i => exact move_onWaiter h
  | fail i => exact move_onWaiter h
  | inspect i => exact move_onWaiter h
  | clear i stale => exact move_onWaiter h
  | cancel i => exact move_onWaiter h
  | talk => exact move_line h
  | shutWrite => exact move_line h
  | shutRead => exact move_line h
  | shutBoth => exact move_line h
  | close => exact move_line h
  | farReads => exact move_line h
  | send => exact move_line h
  | take => exact move_line h
  | takeError => exact move_line h

/-! ## Hung up once is hung up for good -/

theorem isGone_iff {e : End} :
    e.isGone = true ↔ e.closed = true ∨ e.rcvShut = true ∧ e.sndShut = true := by
  simp [End.isGone]

theorem isDead_iff {e : End} : e.isDead = true ↔ e.isGone = true ∨ e.error = true := by
  simp [End.isDead, isHungUp, End.poll]

theorem End.gone_stays {e e' : End} {a : Act} (h : e.step a = some e') (gone : e.isGone = true) :
    e'.isGone = true := by
  rw [isGone_iff] at gone ⊢
  unfold End.step at h
  split at h <;> grind [End.shutWrite, End.shutRead, End.close]

theorem gone_stays {s s' : State} {a : Act} (m : Move s a s') (gone : s.line.isGone = true) :
    s'.line.isGone = true := by
  cases m with
  | line _ line' h => exact End.gone_stays h gone
  | waiter i stage _ _ hi w => exact w.line ▸ gone
  | _ => exact gone

theorem gone_for_good {guard : State → Act → Prop} {s t : State} (run : Steps machine guard s t)
    (gone : s.line.isGone = true) : t.line.isGone = true := by
  refine steps_invariant (P := fun s => s.line.isGone = true) ?_ run gone
  intro _ _ _ gone _ hstep
  exact gone_stays (step_move hstep) gone

/-- An error comes with a close, and where the far end stops sending it is gone. -/
structure End.Whole (e : End) : Prop where
  error : e.error = true → e.isGone = true
  rcvShut : e.rcvShut = true → e.isGone = true

theorem End.Whole.step {e e' : End} {a : Act} (w : e.Whole) (h : e.step a = some e')
    (ok : a = .shutWrite → e.sndShut = true) : e'.Whole := by
  have error := w.error
  have rcvShut := w.rcvShut
  simp only [isGone_iff] at error rcvShut
  constructor <;> rw [isGone_iff] <;> unfold End.step at h <;> split at h <;>
    grind [End.shutWrite, End.shutRead, End.close]

/-! ## Whoever was told was told the truth -/

theorem event_isDeath {e : End} (h : (Ready.ofEvent e.poll).isDeath = true) :
    e.isGone = true ∨ e.rcvShut = true ∨ e.error = true := by
  simp only [Ready.isDeath, Ready.ofEvent, End.poll, Bool.or_eq_true, Bool.and_eq_true] at h
  rcases h with (gone | ⟨-, shut⟩) | error
  · exact Or.inl gone
  · exact Or.inr (Or.inl shut)
  · exact Or.inr (Or.inr error)

theorem Ready.join_isDeath {r r' : Ready} (h : (r.join r').isDeath = true) :
    r.isDeath = true ∨ r'.isDeath = true := by
  simp only [join, isDeath, Bool.or_eq_true] at h ⊢
  rcases h with (closed | closed) | error | error
  · exact Or.inl (Or.inl closed)
  · exact Or.inr (Or.inl closed)
  · exact Or.inl (Or.inr error)
  · exact Or.inr (Or.inr error)

/-- Wherever news of a death has come, from the event to the waiter, there is one. -/
structure Truthful (s : State) : Prop where
  whole : s.line.Whole
  events : ∀ e ∈ s.events, (Ready.ofEvent e.2).isDeath = true → s.line.isGone = true
  watches : ∀ r ∈ s.watches, r.isDeath = true → s.line.isGone = true
  waiters : ∀ w ∈ s.waiters, w.isTold = true → s.line.isGone = true

theorem End.Whole.isGone {e : End} (w : e.Whole) (dead : e.isDead = true) : e.isGone = true := by
  rcases isDead_iff.mp dead with gone | error
  · exact gone
  · exact w.error error

theorem truthful_step {s s' : State} {a : Act} (h : Truthful s) (ok : noHalfClose s a)
    (m : Move s a s') : Truthful s' := by
  have stays : s.line.isGone = true → s'.line.isGone = true := gone_stays m
  cases m with
  | line a line' hline =>
    constructor
    · exact h.whole.step hline ok.2
    · exact fun e he death => stays (h.events e he death)
    · exact fun r hr death => stays (h.watches r hr death)
    · exact fun w hw told => stays (h.waiters w hw told)
  | epoll k hk =>
    constructor
    · exact h.whole
    · intro e he death
      rcases List.mem_append.mp he with old | new
      · exact h.events e old death
      · rw [List.mem_singleton.mp new] at death
        rcases event_isDeath death with gone | shut | error
        · exact gone
        · exact h.whole.rcvShut shut
        · exact h.whole.error error
    · exact h.watches
    · exact h.waiters
  | dispatch k f rest r next hk =>
    have hevents := h.events
    rw [next] at hevents
    constructor
    · exact h.whole
    · exact fun e he => hevents e (List.mem_cons_of_mem _ he)
    · intro q hq death
      rcases List.mem_or_eq_of_mem_set hq with old | rfl
      · exact h.watches q old death
      · rcases Ready.join_isDeath death with before | now
        · exact h.watches r (List.mem_of_getElem? hk) before
        · exact hevents (k, f) List.mem_cons_self now
    · exact h.waiters
  | wait =>
    constructor
    · exact h.whole
    · exact h.events
    · exact h.watches
    · intro w hw told
      rcases List.mem_append.mp hw with old | new
      · exact h.waiters w old told
      · rw [List.mem_singleton.mp new] at told
        cases told
  | waiter i stage a _ hi w =>
    obtain ⟨next, hwaiters, news⟩ := w.waiters
    have watches : ∀ r ∈ s'.watches, r.isDeath = true → s.line.isGone = true := by
      intro r hr death
      obtain ⟨r', hr', death'⟩ := w.watches r hr death
      exact h.watches r' hr' death'
    constructor
    · exact w.line ▸ h.whole
    · rw [w.events, w.line]
      exact h.events
    · rw [w.line]
      exact watches
    · intro v hv told
      rw [w.line]
      rw [hwaiters] at hv
      rcases List.mem_or_eq_of_mem_set hv with old | rfl
      · exact h.waiters v old told
      · rcases news told ok.1 with dead | told' | ⟨r, hr, death⟩
        · exact h.whole.isGone dead
        · exact h.waiters stage (List.mem_of_getElem? hi) told'
        · exact h.watches r hr death

theorem truthful {s : State} (h : Reachable machine noHalfClose s) : Truthful s := by
  refine reachable_invariant ?_ ?_ h
  · rintro s rfl
    exact ⟨⟨by decide, by decide⟩, by simp [quiet], by simp [quiet], by simp [quiet]⟩
  · intro s a s' hs ok hstep
    exact truthful_step hs ok (step_move hstep)

/-- Nothing that is more than something to read. -/
def Act.isReadable : Act → Bool
  | .shutWrite | .shutRead | .shutBoth | .close | .fail _ => false
  | _ => true

def readable (_ : State) (a : Act) : Prop := a.isReadable = true

/-- Nothing has been shut down, closed or broken. -/
def End.isUp (e : End) : Bool := !e.closed && !e.rcvShut && !e.sndShut && !e.error

theorem up_stays {s s' : State} {a : Act} (m : Move s a s') (ok : readable s a)
    (up : s.line.isUp = true) : s'.line.isUp = true := by
  cases m with
  | line a line' h =>
    unfold readable at ok
    unfold End.step at h
    split at h <;> grind [Act.isReadable, End.isUp]
  | waiter i stage a _ hi w => exact w.line ▸ up
  | _ => exact up

/-- A death notification that completes agrees with `is_dead` then and ever after, and
things to read never complete one, as long as the far end goes all at once. -/
theorem notification_agrees {s : State} (h : Reachable machine noHalfClose s) :
    (∀ i : Nat, s.waiters[i]? = some .completed →
      s.line.isDead = true ∧ ∀ t, Steps machine anyStep s t → t.line.isDead = true) ∧
    (s.line.isUp = true → ∀ t, Steps machine readable s t →
      ∀ i : Nat, t.waiters[i]? ≠ some .completed) := by
  constructor
  · intro i hi
    have gone : s.line.isGone = true := (truthful h).waiters _ (List.mem_of_getElem? hi) rfl
    constructor
    · exact isDead_iff.mpr (Or.inl gone)
    · intro t run
      apply isDead_iff.mpr
      apply Or.inl
      exact gone_for_good run gone
  · intro up t run i hi
    have up' : t.line.isUp = true := by
      refine steps_invariant (P := fun s => s.line.isUp = true) ?_ run up
      intro _ _ _ up ok hstep
      exact up_stays (step_move hstep) ok up
    have sound : ∀ s a, readable s a → noHalfClose s a := by
      intro _ a ok
      cases a <;> simp_all [readable, noHalfClose, Act.isReadable, Act.isSound]
    have gone : t.line.isGone = true :=
      (truthful (reachable_steps h (steps_mono sound run))).waiters _ (List.mem_of_getElem? hi) rfl
    simp only [isGone_iff] at gone
    simp only [End.isUp, Bool.and_eq_true, Bool.not_eq_true'] at up'
    obtain ⟨⟨⟨closed, shut⟩, -⟩, -⟩ := up'
    simp [closed, shut] at gone

/-- The far end talked back twice and was read, then closed on unread data. -/
def toldOfClose : State :=
  ⟨⟨1, 1, true, true, true, true⟩, [], [⟨true, true, true⟩], some 0, [.completed, .completed]⟩

theorem toldOfClose_run : exec machine noHalfClose quiet
    [.wait, .ask 0, .get 0, .build 0 true, .set 0, .talk, .epoll 0, .dispatch, .ready 0,
      .inspect 0, .take, .clear 0 false, .send, .talk, .close, .epoll 0, .dispatch, .ready 0,
      .inspect 0, .wait, .ask 1] = some toldOfClose := by
  decide

theorem notification_agrees_close :
    (∀ i : Nat, toldOfClose.waiters[i]? = some .completed →
      toldOfClose.line.isDead = true ∧
        ∀ t, Steps machine anyStep toldOfClose t → t.line.isDead = true) ∧
    (toldOfClose.line.isUp = true → ∀ t, Steps machine readable toldOfClose t →
      ∀ i : Nat, t.waiters[i]? ≠ some .completed) :=
  notification_agrees (exec_reachable rfl toldOfClose_run)

/-- The far end stopped sending and still receives. -/
def halfClosed : State :=
  ⟨⟨0, 0, true, false, false, false⟩, [], [⟨true, true, false⟩], some 0, [.completed]⟩

theorem half_close_completes :
    ∃ s, Reachable machine sound s ∧ s.waiters[0]? = some .completed ∧ s.line.isDead = false := by
  refine ⟨halfClosed, exec_reachable rfl (?_ : exec machine sound quiet
    [.wait, .ask 0, .get 0, .build 0 true, .set 0, .shutWrite, .epoll 0, .dispatch, .ready 0,
      .inspect 0] = some halfClosed), ?_⟩
  · decide
  · decide

end Hangup
