import StrongIpc.Backlog

/-!
# How long the backlog gets

A slot of the channel is a queued message or a permit that some `send` call holds, so
the queue, the permits and whatever the drain task left behind share `depth` slots; the
message in the drain task's hand, or the one whose send failed, is the one more. The
runs are those of the backlog, counting the messages that `sendmsg` took.
-/

namespace Backlog

open BoundedChannel OutboxTraffic Roster StepMachine Wire

universe u
variable {M : Type u}

structure Watched (M : Type u) where
  traffic : Traffic M
  sent : Nat
  deriving DecidableEq, Repr

def Act.sent : Act M → Nat
  | .drain (.sendmsg .ok) => 1
  | _ => 0

def watchedStep (w : Watched M) (a : Act M) : Option (Watched M) :=
  (step w.traffic a).map fun t => ⟨t, w.sent + a.sent⟩

def watched : Machine (Watched M) (Act M) where
  init w := w = ⟨⟨build, []⟩, 0⟩
  step := watchedStep

/-! ## What a call holds -/

def Op.permits : Op → Nat
  | .granted => 1
  | .claimSlot => 1
  | .place => 1
  | _ => 0

def Op.accepted : Op → Nat
  | .done .accepted => 1
  | _ => 0

/-- Inside `Outbox::push`. -/
def Op.pushing : Op → Nat
  | .claim => 1
  | .offer => 1
  | .giveBack _ => 1
  | _ => 0

def Caller.permits (c : Caller M) : Nat := Op.permits c.op

def Caller.accepted (c : Caller M) : Nat := Op.accepted c.op

def Caller.pushing (c : Caller M) : Nat := Op.pushing c.op

theorem claims_le (op : Op) : op.claims ≤ Op.pushing op + Op.permits op := by
  cases op <;> simp [Op.claims, Op.pushing, Op.permits]

theorem total_claims_le (l : List (Caller M)) :
    total Caller.claims l ≤ total Caller.pushing l + total Caller.permits l := by
  induction l with
  | nil => exact Nat.le_refl 0
  | cons c rest ih =>
    have own := claims_le c.op
    simp only [total_cons, Caller.claims, Caller.pushing, Caller.permits] at ih ⊢
    omega

/-- What a call's step does to the slots: permits and acceptances move with the call,
and a slot is only taken where there was room. -/
structure Shift (b : Outbox M) (op : Op) (b' : Outbox M) (op' : Op) : Prop where
  drain : b'.drain = b.drain
  capacity : b'.channel.capacity = b.channel.capacity
  receiving : b'.channel.receiving = b.channel.receiving
  permits : b'.channel.permits + Op.permits op = b.channel.permits + Op.permits op'
  queue : b'.channel.queue.length + Op.accepted op = b.channel.queue.length + Op.accepted op'
  room : b'.channel.queue.length + b'.channel.permits ≤
      b.channel.queue.length + b.channel.permits ∨
    b.channel.receiving = true ∧ b.channel.hasRoom = true ∧
      b'.channel.queue.length + b'.channel.permits =
        b.channel.queue.length + b.channel.permits + 1

/-- A permit that is given back unused. -/
theorem dropPermit_shift {b : Outbox M} {op op' : Op} (had : Op.permits op = 1)
    (own : Op.permits op ≤ b.channel.permits) (left : Op.permits op' = 0)
    (same : Op.accepted op' = Op.accepted op) :
    Shift b op { b with channel := b.channel.dropPermit } op' := by
  rw [had] at own
  refine ⟨rfl, rfl, rfl, ?_, by rw [same]; rfl, Or.inl ?_⟩
  · simp only [Channel.dropPermit, had, left]
    omega
  · simp only [Channel.dropPermit]
    omega

theorem opMove_shift {b b' : Outbox M} {m : M} {op op' : Op} (h : OpMove b m op b' op')
    (own : Op.permits op ≤ b.channel.permits) : Shift b op b' op' := by
  cases h with
  | queued alive room =>
    refine ⟨rfl, rfl, rfl, rfl, ?_, Or.inr ⟨alive, room, ?_⟩⟩
    · simp [Op.accepted]
    · simp only [List.length_append, List.length_singleton]
      omega
  | reserved alive room =>
    exact ⟨rfl, rfl, rfl, rfl, rfl, Or.inr ⟨alive, room, rfl⟩⟩
  | grantLost gone => exact dropPermit_shift rfl own rfl rfl
  | placed =>
    simp only [Op.permits] at own
    refine ⟨rfl, rfl, rfl, ?_, ?_, Or.inl ?_⟩
    · simp only [Channel.permitSend, Op.permits]
      omega
    · simp [Channel.permitSend, Op.accepted]
    · simp only [Channel.permitSend, List.length_append, List.length_singleton]
      omega
  | _ => exact ⟨rfl, rfl, rfl, rfl, rfl, Or.inl (Nat.le_refl _)⟩

theorem parkMove_shift {b b' : Outbox M} {op op' : Op} (h : ParkMove b op b' op')
    (own : Op.permits op ≤ b.channel.permits) : Shift b op b' op' := by
  cases h with
  | granted alive room => exact ⟨rfl, rfl, rfl, rfl, rfl, Or.inr ⟨alive, room, rfl⟩⟩
  | cancelled => exact ⟨rfl, rfl, rfl, rfl, rfl, Or.inl (Nat.le_refl _)⟩
  | returned => exact dropPermit_shift rfl own rfl rfl

/-! ## The slots over a run -/

/-- The message in hand that `sendmsg` has not answered for. -/
def Drain.unsent : Drain M → Nat
  | .sending _ => 1
  | _ => 0

/-- The drain task takes no further message. -/
def Drain.isDoomed : Drain M → Bool
  | .accounting _ sent => !sent
  | .leaving => true
  | .ended => true
  | _ => false

/-- A task at an `await` has not failed, and nothing has answered for what it holds. -/
theorem parked_drain {d : Drain M} (parked : d.isParked = true) :
    d.held = Drain.unsent d ∧ Drain.isDoomed d = false ∧ d ≠ .ended ∧ d.held ≤ 1 := by
  cases d with
  | receiving => exact ⟨rfl, rfl, by simp, Nat.zero_le 1⟩
  | sending m => exact ⟨rfl, rfl, by simp, Nat.le_refl 1⟩
  | _ => cases parked

/-- `lost` were queued when the drain task left or was dropped, the send of `failed`
failed, and `cut` was in its hand when it was dropped. -/
structure Bounded (lost failed cut : Nat) (w : Watched M) : Prop where
  balanced : Balanced (lost + cut) w.traffic
  capacity : w.traffic.outbox.channel.capacity = depth
  permits : w.traffic.outbox.channel.permits = total Caller.permits w.traffic.callers
  room : lost + w.traffic.outbox.channel.queue.length + w.traffic.outbox.channel.permits ≤ depth
  receiving : w.traffic.outbox.channel.receiving = true → lost = 0
  accepted : total Caller.accepted w.traffic.callers =
    w.sent + failed + cut + Drain.unsent w.traffic.outbox.drain +
      w.traffic.outbox.channel.queue.length + lost
  once : failed + cut ≤ 1
  doomed : failed = 1 → Drain.isDoomed w.traffic.outbox.drain = true
  dropped : cut = 1 → w.traffic.outbox.drain = .ended

theorem bounded_enter {lost failed cut sent : Nat} {t t' : Traffic M} {m : M} {op : Op}
    (h : Bounded lost failed cut ⟨t, sent⟩) (entered : t.enter m op = some t')
    (nothing : op.claims = 0 ∧ Op.permits op = 0 ∧ Op.accepted op = 0) :
    Bounded lost failed cut ⟨t', sent⟩ := by
  have balanced := enter_balanced h.balanced entered nothing.1
  rw [Traffic.enter] at entered
  split at entered
  · cases entered
    constructor
    · exact balanced
    · exact h.capacity
    · simpa [Caller.permits, nothing.2.1] using h.permits
    · exact h.room
    · exact h.receiving
    · simpa [Caller.accepted, nothing.2.2] using h.accepted
    · exact h.once
    · exact h.doomed
    · exact h.dropped
  · cases entered

/-- A call's move trades its own permit and acceptance. -/
theorem bounded_caller {lost failed cut sent : Nat} {t t' : Traffic M} {i : Nat}
    {f : Outbox M → M → Op → Option (Outbox M × Op)} (h : Bounded lost failed cut ⟨t, sent⟩)
    (moved : t.caller i f = some t') (balanced : Balanced (lost + cut) t')
    (shift : ∀ m op b' op', f t.outbox m op = some (b', op') →
      Op.permits op ≤ t.outbox.channel.permits → Shift t.outbox op b' op') :
    Bounded lost failed cut ⟨t', sent⟩ := by
  rw [Traffic.caller] at moved
  split at moved
  · cases moved
  · rename_i c hc
    obtain ⟨⟨b', op'⟩, hf, rfl⟩ := Option.map_eq_some_iff.mp moved
    have permits := h.permits
    have accepted := h.accepted
    have room := h.room
    have capacity := h.capacity
    have own : Op.permits c.op ≤ t.outbox.channel.permits := by
      have := le_total Caller.permits hc
      simp only [Caller.permits] at this permits
      omega
    have move := shift c.message c.op b' op' hf own
    have held := total_set Caller.permits { c with op := op' } hc
    have done := total_set Caller.accepted { c with op := op' } hc
    have := move.permits
    have := move.queue
    simp only [Caller.permits, Caller.accepted] at held done permits accepted
    constructor
    · exact balanced
    · exact move.capacity.trans capacity
    · simp only at permits ⊢
      omega
    · rcases move.room with less | ⟨alive, spare, more⟩
      · simp only at room ⊢
        omega
      · have nothing_lost := h.receiving alive
        simp only [Channel.hasRoom, decide_eq_true_eq] at spare capacity
        simp only at nothing_lost ⊢
        omega
    · exact fun alive => h.receiving (move.receiving ▸ alive)
    · simp only [move.drain] at accepted ⊢
      omega
    · exact h.once
    · intro broken
      rw [move.drain]
      exact h.doomed broken
    · intro gone
      rw [move.drain]
      exact h.dropped gone

/-- The task going away takes what is queued with it; what it held was sent, or failed,
or is dropped now. -/
theorem bounded_drop {lost failed cut sent : Nat} {t : Traffic M} (more : Nat)
    (h : Bounded lost failed cut ⟨t, sent⟩)
    (balanced : Balanced (lost + t.outbox.channel.queue.length + (cut + more))
      { t with outbox := { t.outbox with
        channel := t.outbox.channel.dropReceiver, drain := .ended } })
    (hand : more = Drain.unsent t.outbox.drain) (once : failed + (cut + more) ≤ 1) :
    Bounded (lost + t.outbox.channel.queue.length) failed (cut + more)
      ⟨{ t with outbox := { t.outbox with
        channel := t.outbox.channel.dropReceiver, drain := .ended } }, sent⟩ := by
  have room := h.room
  have accepted := h.accepted
  simp only at room accepted
  refine ⟨balanced, h.capacity, h.permits, ?_, ?_, ?_, once, fun _ => rfl, fun _ => rfl⟩
  · simp only [Channel.dropReceiver, List.length_nil]
    omega
  · intro alive
    cases alive
  · simp only [Channel.dropReceiver, List.length_nil, Drain.unsent]
    omega

theorem bounded_drain {lost failed cut sent : Nat} {t : Traffic M} {b' : Outbox M}
    {d : DrainAct} (h : Bounded lost failed cut ⟨t, sent⟩) (m : DrainMove t.outbox d b')
    (balanced : Balanced (lost + cut + t.outbox.strands d) { t with outbox := b' }) :
    ∃ lost' failed' cut', Bounded lost' failed' cut'
      ⟨{ t with outbox := b' }, sent + (Act.drain d : Act M).sent⟩ := by
  have room := h.room
  have accepted := h.accepted
  have receiving := h.receiving
  have once := h.once
  have doomed := h.doomed
  have dropped := h.dropped
  cases m with
  | took m rest idle hq =>
    simp only [hq, idle, List.length_cons, Drain.unsent] at room accepted dropped
    refine ⟨lost, failed, cut, balanced, h.capacity, h.permits, ?_, receiving, ?_, once, ?_, ?_⟩
    · simp only
      omega
    · simp only [Drain.unsent, Act.sent]
      omega
    · intro broken
      rw [idle] at doomed
      cases doomed broken
    · intro gone
      cases dropped gone
  | closed idle empty gone =>
    simp only [idle, Drain.unsent] at accepted dropped
    exact ⟨lost, failed, cut, balanced, h.capacity, h.permits, room, receiving, accepted, once,
      fun _ => rfl, fun gone => by cases dropped gone⟩
  | retry m busy =>
    exact ⟨lost, failed, cut, balanced, h.capacity, h.permits, room, receiving, accepted, once,
      doomed, dropped⟩
  | answered m r busy final =>
    simp only [busy, Drain.unsent, Drain.isDoomed] at accepted doomed dropped
    have whole : failed = 0 ∧ cut = 0 := by
      have sound : failed ≠ 1 := fun broken => by cases doomed broken
      have kept : cut ≠ 1 := fun gone => by cases dropped gone
      omega
    obtain ⟨rfl, rfl⟩ := whole
    by_cases ok : r = .ok
    · subst ok
      refine ⟨lost, 0, 0, balanced, h.capacity, h.permits, room, receiving, ?_, once,
        fun broken => (by cases broken), fun gone => (by cases gone)⟩
      simp only [Drain.unsent, Act.sent]
      omega
    · have none_sent : (Act.drain (.sendmsg r) : Act M).sent = 0 := by
        cases r <;> first | rfl | exact absurd rfl ok
      refine ⟨lost, 1, 0, balanced, h.capacity, h.permits, room, receiving, ?_, Nat.le_refl 1,
        fun _ => ?_, fun gone => by cases gone⟩
      · simp only [Drain.unsent, none_sent]
        omega
      · simp [Drain.isDoomed, ok]
  | accounted m sent busy =>
    simp only [busy, Drain.unsent, Drain.isDoomed] at accepted doomed dropped
    refine ⟨lost, failed, cut, balanced, h.capacity, h.permits, room, receiving, ?_, once, ?_,
      fun gone => by cases dropped gone⟩
    · cases sent <;> exact accepted
    · intro broken
      have unsent := doomed broken
      cases sent with
      | true => cases unsent
      | false => rfl
  | left leaving =>
    refine ⟨_, failed, _, bounded_drop 0 h ?_ (by rw [leaving]; rfl) once⟩
    have same : lost + t.outbox.channel.queue.length + (cut + 0) =
        lost + cut + t.outbox.channel.queue.length := by omega
    rw [same]
    exact balanced
  | aborted parked =>
    obtain ⟨hand, sound, running, few⟩ := parked_drain parked
    have whole : failed = 0 ∧ cut = 0 := by
      have unbroken : failed ≠ 1 := fun broken => by cases sound.symm.trans (doomed broken)
      have kept : cut ≠ 1 := fun gone => running (dropped gone)
      omega
    obtain ⟨rfl, rfl⟩ := whole
    refine ⟨_, 0, _, bounded_drop t.outbox.drain.held h ?_ hand (by omega)⟩
    have same : lost + t.outbox.channel.queue.length + (0 + t.outbox.drain.held) =
        lost + 0 + t.outbox.strands .abort := by
      simp only [Outbox.strands, Outbox.counted]
      omega
    rw [same]
    exact balanced

theorem bounded_step {lost failed cut : Nat} {w w' : Watched M} {a : Act M}
    (h : Bounded lost failed cut w) (hw : watchedStep w a = some w') :
    ∃ lost' failed' cut', Bounded lost' failed' cut' w' := by
  obtain ⟨t, ht, rfl⟩ := Option.map_eq_some_iff.mp hw
  have balanced := step_balanced h.balanced ht
  cases a with
  | push m => exact ⟨lost, failed, cut, bounded_enter h ht ⟨rfl, rfl, rfl⟩⟩
  | send m => exact ⟨lost, failed, cut, bounded_enter h ht ⟨rfl, rfl, rfl⟩⟩
  | step i =>
    refine ⟨lost, failed, cut, bounded_caller h ht balanced ?_⟩
    intro m op b' op' hf own
    exact opMove_shift (opStep_move hf) own
  | grant i =>
    refine ⟨lost, failed, cut, bounded_caller (f := fun b _ op => b.opGrant op) h ht balanced ?_⟩
    intro m op b' op' hf own
    exact parkMove_shift (opGrant_move hf) own
  | cancel i =>
    refine ⟨lost, failed, cut, bounded_caller (f := fun b _ op => b.opCancel op) h ht balanced ?_⟩
    intro m op b' op' hf own
    exact parkMove_shift (opCancel_move hf) own
  | close =>
    simp only [step] at ht
    split at ht
    · cases ht
      exact ⟨lost, failed, cut, balanced, h.capacity, h.permits, h.room, h.receiving, h.accepted,
        h.once, h.doomed, h.dropped⟩
    · cases ht
  | drain d =>
    obtain ⟨b, hb, rfl⟩ := Option.map_eq_some_iff.mp ht
    exact bounded_drain h (drainStep_move hb) balanced

theorem bounded {guard : Watched M → Act M → Prop} {w : Watched M}
    (h : Reachable watched guard w) : ∃ lost failed cut, Bounded lost failed cut w := by
  refine reachable_invariant (P := fun w => ∃ lost failed cut, Bounded lost failed cut w) ?_ ?_ h
  · rintro w rfl
    exact ⟨0, 0, 0, build_balanced, rfl, rfl, Nat.zero_le depth, fun _ => rfl, rfl, Nat.zero_le 1,
      fun broken => (by cases broken), fun gone => (by cases gone)⟩
  · rintro w a w' ⟨lost, failed, cut, hb⟩ _ hw
    exact bounded_step hb hw

theorem Bounded.pending_le {lost failed cut : Nat} {w : Watched M}
    (h : Bounded lost failed cut w) :
    w.traffic.outbox.pending ≤ depth + 1 + total Caller.pushing w.traffic.callers := by
  have balanced : _ = _ := h.balanced
  have claims := total_claims_le w.traffic.callers
  have once := h.once
  have dropped := h.dropped
  have held : w.traffic.outbox.drain.held + cut ≤ 1 := by
    cases hd : w.traffic.outbox.drain with
    | ended =>
      simp only [Drain.held]
      omega
    | _ =>
      have kept : cut ≠ 1 := fun gone => by cases hd ▸ dropped gone
      simp only [Drain.held]
      omega
  have room := h.room
  have permits := h.permits
  simp only [Outbox.counted] at balanced
  omega

theorem Bounded.accepted_le {lost failed cut : Nat} {w : Watched M}
    (h : Bounded lost failed cut w) :
    total Caller.accepted w.traffic.callers ≤ w.sent + (depth + 1) := by
  have accepted := h.accepted
  have room := h.room
  have once := h.once
  have doomed := h.doomed
  have dropped := h.dropped
  have one : failed + cut + Drain.unsent w.traffic.outbox.drain ≤ 1 := by
    cases hd : w.traffic.outbox.drain with
    | sending m =>
      rw [hd] at doomed dropped
      have whole : failed ≠ 1 := fun broken => by cases doomed broken
      have kept : cut ≠ 1 := fun gone => by cases dropped gone
      simp only [Drain.unsent]
      omega
    | _ => exact once
  omega

/-- At most `depth + 1` accepted messages are not on the wire yet, the counter is at
most that and one for each call inside `push`, it is never lowered from zero, and a
push is refused as full only when queued messages and permits fill the channel. -/
theorem backlog_bounded {w : Watched M} (h : Reachable watched anyStep w) :
    total Caller.accepted w.traffic.callers ≤ w.sent + (depth + 1) ∧
      w.traffic.outbox.pending ≤ depth + 1 + total Caller.pushing w.traffic.callers ∧
      (∀ m sent, w.traffic.outbox.drain = .accounting m sent → 0 < w.traffic.outbox.pending) ∧
      (∀ (i : Nat) c e, w.traffic.callers[i]? = some c → c.op = .giveBack e →
        0 < w.traffic.outbox.pending) ∧
      ∀ (i : Nat) c b', w.traffic.callers[i]? = some c →
        w.traffic.outbox.opStep c.message c.op = some (b', .giveBack .full) →
        w.traffic.outbox.channel.queue.length + total Caller.permits w.traffic.callers = depth := by
  obtain ⟨lost, failed, cut, hb⟩ := bounded h
  have balanced : _ = _ := hb.balanced
  simp only [Outbox.counted] at balanced
  refine ⟨hb.accepted_le, hb.pending_le, fun m sent busy => ?_, fun i c e hc giving => ?_,
    fun i c b' hc refused => ?_⟩
  · simp only [busy, Drain.held] at balanced
    omega
  · have own := le_total Caller.claims hc
    simp only [Caller.claims, giving, Op.claims] at own balanced
    omega
  · have crowded : w.traffic.outbox.channel.hasRoom = false := by
      generalize hop : c.op = op at refused
      cases opStep_move refused with
      | bounced e honest crowded => exact crowded rfl
    have room := hb.room
    have permits := hb.permits
    have capacity := hb.capacity
    simp only [Channel.hasRoom, decide_eq_false_iff_not] at crowded
    omega

/-- One message in hand, seven queued, a permit held, and a push that found no slot. -/
def crowd : Watched Nat where
  traffic :=
    { outbox := ⟨9, ⟨depth, [1, 2, 3, 4, 5, 6, 7], 1, true, true⟩, .sending 0⟩
      callers := (List.range 8).map (⟨·, .done .accepted⟩) ++ [⟨8, .claimSlot⟩, ⟨9, .offer⟩] }
  sent := 0

theorem crowd_run : exec watched anyStep ⟨⟨build, []⟩, 0⟩
    ([.push 0, .step 0, .step 0, .drain .recv] ++
      ([1, 2, 3, 4, 5, 6, 7].flatMap fun i => [.push i, .step i, .step i]) ++
      [.send 8, .step 8, .push 9, .step 9]) = some crowd := rfl

theorem backlog_bounded_crowd :
    total Caller.accepted crowd.traffic.callers ≤ crowd.sent + (depth + 1) ∧
      crowd.traffic.outbox.pending ≤ depth + 1 + total Caller.pushing crowd.traffic.callers ∧
      (∀ m sent, crowd.traffic.outbox.drain = .accounting m sent →
        0 < crowd.traffic.outbox.pending) ∧
      (∀ (i : Nat) c e, crowd.traffic.callers[i]? = some c → c.op = .giveBack e →
        0 < crowd.traffic.outbox.pending) ∧
      ∀ (i : Nat) c b', crowd.traffic.callers[i]? = some c →
        crowd.traffic.outbox.opStep c.message c.op = some (b', .giveBack .full) →
        crowd.traffic.outbox.channel.queue.length + total Caller.permits crowd.traffic.callers =
          depth :=
  backlog_bounded (exec_reachable rfl crowd_run)

end Backlog
