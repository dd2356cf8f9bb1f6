import StrongIpc.Outbox

/-!
# The backlog counter over whole runs

Any number of `Outbox::push` and `Outbox::send` calls on one outbox, interleaved
with its drain task step by step; the answers of `sendmsg` are arbitrary. The
counter is exact as long as the drain task never leaves messages behind. When it
ends on an error with messages still queued, or is dropped with its runtime with
one in hand or any queued, they stay counted and nobody is left to count them
down.
-/

namespace Backlog

open BoundedChannel OutboxTraffic Roster StepMachine Wire

universe u
variable {M : Type u}

structure Caller (M : Type u) where
  message : M
  op : Op
  deriving DecidableEq, Repr

def Caller.claims (c : Caller M) : Nat := c.op.claims

structure Traffic (M : Type u) where
  outbox : Outbox M
  callers : List (Caller M)
  deriving DecidableEq, Repr

/-- `cancel` is a parked `send` future being dropped, `close` the `Outbox` itself
being dropped, which its callers' borrows allow only when no call is in progress. -/
inductive Act (M : Type u) where
  | push (m : M)
  | send (m : M)
  | step (i : Nat)
  | grant (i : Nat)
  | cancel (i : Nat)
  | close
  | drain (a : DrainAct)

def Op.isOver : Op → Bool
  | .done _ => true
  | _ => false

def Traffic.caller (t : Traffic M) (i : Nat)
    (f : Outbox M → M → Op → Option (Outbox M × Op)) : Option (Traffic M) :=
  match t.callers[i]? with
  | none => none
  | some c => (f t.outbox c.message c.op).map fun (b, op) =>
      ⟨b, t.callers.set i { c with op }⟩

def Traffic.enter (t : Traffic M) (m : M) (op : Op) : Option (Traffic M) :=
  if t.outbox.channel.sending then some { t with callers := t.callers ++ [⟨m, op⟩] } else none

def step (t : Traffic M) : Act M → Option (Traffic M)
  | .push m => t.enter m .claim
  | .send m => t.enter m .reserving
  | .step i => t.caller i Outbox.opStep
  | .grant i => t.caller i fun b _ op => b.opGrant op
  | .cancel i => t.caller i fun b _ op => b.opCancel op
  | .close =>
    if t.callers.all fun c => Op.isOver c.op then
      some { t with outbox := { t.outbox with channel := t.outbox.channel.dropSender } }
    else none
  | .drain a => (t.outbox.drainStep a).map fun b => { t with outbox := b }

def machine : Machine (Traffic M) (Act M) where
  init t := t = ⟨build, []⟩
  step := step

/-- The count is what is counted, the counts in callers' hands, and `lost`. -/
def Balanced (lost : Nat) (t : Traffic M) : Prop :=
  t.outbox.pending = t.outbox.counted + total Caller.claims t.callers + lost

theorem build_balanced : Balanced 0 (⟨build, []⟩ : Traffic M) := rfl

theorem enter_balanced {lost : Nat} {t t' : Traffic M} {m : M} {op : Op} (h : Balanced lost t)
    (entered : t.enter m op = some t') (none_yet : op.claims = 0) : Balanced lost t' := by
  rw [Traffic.enter] at entered
  split at entered
  · cases entered
    simpa [Balanced, Caller.claims, none_yet] using h
  · cases entered

/-- A caller's move trades its own claim; everybody else's share is slack. -/
theorem caller_balanced {lost : Nat} {t t' : Traffic M} {i : Nat}
    {f : Outbox M → M → Op → Option (Outbox M × Op)} (h : Balanced lost t)
    (moved : t.caller i f = some t')
    (fair : ∀ m op b' op' slack, f t.outbox m op = some (b', op') →
      t.outbox.pending = t.outbox.counted + op.claims + slack →
      b'.pending = b'.counted + op'.claims + slack) : Balanced lost t' := by
  rw [Traffic.caller] at moved
  split at moved
  · cases moved
  · rename_i c hc
    cases hf : f t.outbox c.message c.op with
    | none => simp [hf] at moved
    | some result =>
      obtain ⟨b', op'⟩ := result
      obtain rfl : _ = t' := by simpa [hf] using moved
      have own : c.op.claims ≤ total Caller.claims t.callers := le_total Caller.claims hc
      have trade := total_set Caller.claims { c with op := op' } hc
      have share := fair c.message c.op b' op'
        (total Caller.claims t.callers - c.op.claims + lost) hf
        (by unfold Balanced at h; omega)
      simp only [Balanced, Caller.claims] at trade ⊢
      omega

/-- What the step leaves uncounted for good. -/
def abandoned (t : Traffic M) (a : Act M) : Nat :=
  match a with
  | .drain d => t.outbox.strands d
  | _ => 0

theorem step_balanced {lost : Nat} {t t' : Traffic M} {a : Act M} (h : Balanced lost t)
    (ht : step t a = some t') : Balanced (lost + abandoned t a) t' := by
  cases a with
  | push m => exact enter_balanced h ht rfl
  | send m => exact enter_balanced h ht rfl
  | step i =>
    exact caller_balanced h ht fun m op b' op' slack hf => (opStep_move hf).balance
  | grant i =>
    refine caller_balanced (f := fun b _ op => b.opGrant op) h ht
      fun m op b' op' slack hf balance => ?_
    obtain ⟨hd, hp, hq, _, _, none_before, none_after, _⟩ := (opGrant_move hf).effect
    simp only [Outbox.counted, hd, hp, hq] at balance ⊢
    omega
  | cancel i =>
    refine caller_balanced (f := fun b _ op => b.opCancel op) h ht
      fun m op b' op' slack hf balance => ?_
    obtain ⟨hd, hp, hq, _, _, none_before, none_after, _⟩ := (opCancel_move hf).effect
    simp only [Outbox.counted, hd, hp, hq] at balance ⊢
    omega
  | close =>
    simp only [step] at ht
    split at ht
    · cases ht
      exact h
    · cases ht
  | drain d =>
    obtain ⟨b, hb, rfl⟩ : ∃ b, t.outbox.drainStep d = some b ∧ _ = t' := by
      simpa [step] using ht
    have after := (drainStep_move hb).balance
      (show t.outbox.pending = t.outbox.counted + (total Caller.claims t.callers + lost) by
        unfold Balanced at h; omega)
    simp only [Balanced, abandoned]
    omega

/-- The drain task leaves only an empty channel behind, and is not dropped with
a message in hand. -/
def leavesNothing (t : Traffic M) (a : Act M) : Prop := abandoned t a = 0

instance (t : Traffic M) (a : Act M) : Decidable (leavesNothing t a) :=
  inferInstanceAs (Decidable (abandoned t a = 0))

/-- Nobody is inside `push` or `send`, and no message is queued or in hand. -/
structure Quiet (t : Traffic M) : Prop where
  allOver : ∀ c ∈ t.callers, ∃ r, c.op = .done r
  empty : t.outbox.channel.queue = []
  idle : t.outbox.drain.held = 0

/-- In every state of every run whose drain task leaves no message behind, the
counter is exact, so it is zero when nothing is waiting. -/
theorem pending_exact {t : Traffic M} (h : Reachable machine leavesNothing t) :
    t.outbox.pending = t.outbox.channel.queue.length + t.outbox.drain.held +
        total Caller.claims t.callers ∧
      (Quiet t → t.outbox.pending = 0 ∧ t.outbox.isBackedUp = false) := by
  have balanced : Balanced 0 t := by
    refine reachable_invariant ?_ ?_ h
    · rintro s rfl
      exact build_balanced
    · intro s a s' hs nothing hstep
      have after := step_balanced hs hstep
      rwa [nothing] at after
  have exact_count : t.outbox.pending = t.outbox.channel.queue.length + t.outbox.drain.held +
      total Caller.claims t.callers := balanced
  constructor
  · exact exact_count
  · intro quiet
    have no_claims : total Caller.claims t.callers = 0 := by
      apply total_eq_zero
      intro c hc
      obtain ⟨r, done⟩ := quiet.allOver c hc
      simp [Caller.claims, done, Op.claims]
    have zero : t.outbox.pending = 0 := by
      rw [exact_count, quiet.empty, quiet.idle, no_claims]
      rfl
    exact ⟨zero, by simp [Outbox.isBackedUp, zero]⟩

/-- One message pushed and sent, with the drain task waiting for the next. -/
def oneSent : Traffic Nat where
  outbox := ⟨0, .new depth, .receiving⟩
  callers := [⟨7, .done .accepted⟩]

theorem oneSent_run : exec machine leavesNothing ⟨build, []⟩
    [.push 7, .step 0, .step 0, .drain .recv, .drain (.sendmsg .ok), .drain .account] =
      some oneSent := rfl

theorem pending_exact_oneSent :
    oneSent.outbox.pending = oneSent.outbox.channel.queue.length + oneSent.outbox.drain.held +
        total Caller.claims oneSent.callers ∧
      (Quiet oneSent → oneSent.outbox.pending = 0 ∧ oneSent.outbox.isBackedUp = false) :=
  pending_exact (exec_reachable rfl oneSent_run)

/-- Two messages were queued and the first send failed: the second is gone with
the channel's receiver and its count stays. -/
def leaked : Traffic Nat where
  outbox := ⟨1, ⟨depth, [], 0, true, false⟩, .ended⟩
  callers := [⟨7, .done .accepted⟩, ⟨8, .done .accepted⟩]

theorem leaked_run : exec machine anyStep ⟨build, []⟩
    [.push 7, .push 8, .step 0, .step 0, .step 1, .step 1, .drain .recv,
      .drain (.sendmsg .brokenPipe), .drain .account, .drain .finish] = some leaked := rfl

/-- The counter is not exact on every run: one send that fails with a message
still queued leaves it at one for good, and the inline path shut. -/
theorem pending_leaks :
    ¬ ∀ t : Traffic Nat, Reachable machine anyStep t →
      t.outbox.pending = t.outbox.channel.queue.length + t.outbox.drain.held +
          total Caller.claims t.callers ∧
        (Quiet t → t.outbox.pending = 0 ∧ t.outbox.isBackedUp = false) := by
  intro claim
  have wrong := (claim leaked (exec_reachable rfl leaked_run)).1
  exact absurd wrong (by decide)

end Backlog
