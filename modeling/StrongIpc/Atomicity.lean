import StrongIpc.BacklogBounds
import StrongIpc.Delivery
import StrongIpc.SendProgram

/-!
# A send that fails leaves nothing behind

What a call does to a counter, to the free slots of a channel and to what is queued or
on the wire is the sum of what its own steps do, whoever else is at it in between. The
sums are read off the place where the call stands: a claim taken is given back, a slot
set aside is left or used, and one step alone puts the message anywhere.
-/

namespace Atomicity

open BoundedChannel OutboxTraffic RefSender Roster SendProgram StepMachine Wire

/-- The call that takes the step, or on whose behalf it is taken. -/
def actor : Act → Option Nat
  | .call i => some i
  | .sendNow i _ => some i
  | .build i _ => some i
  | .grant i => some i
  | .cancel i => some i
  | .take i => some i
  | _ => none

def mine (i : Nat) (a : Act) : Bool := actor a = some i

/-- An outbox that is not built yet is as `Outbox::build` will make it. -/
def outboxOf (w : World) (o : Nat) : Outbox Sent :=
  (w.sender.boxes[o]?).elim OutboxTraffic.build Box.outbox

def pendingOf (o : Nat) (w : World) : Int := (outboxOf w o).pending

def freeSlots (o : Nat) (w : World) : Int :=
  (outboxOf w o).channel.capacity -
    ((outboxOf w o).channel.queue.length + (outboxOf w o).channel.permits : Nat)

def inQueue (o : Nat) (p : Sent) (w : World) : Int := (outboxOf w o).channel.queue.count p

def onWireCopies (p : Sent) (w : World) : Int := w.socket.wire.count p

/-- In the channel of whichever outbox. -/
def queuedCopies (p : Sent) (w : World) : Int :=
  total (fun b : Box => b.outbox.channel.queue.count p) w.sender.boxes

/-- What a call inside the outbox has in hand. -/
def share (f : Op → Nat) (o : Nat) (c : Call) : Nat :=
  match c.stage with
  | .queueing p op => if p = o then f op else 0
  | _ => 0

/-! ## Outboxes, built or not -/

theorem outboxOf_built {w : World} {o : Nat} {b : Box} (hb : w.sender.boxes[o]? = some b) :
    outboxOf w o = b.outbox := by
  simp [outboxOf, hb]

theorem outboxOf_same {w w' : World} (same : w'.sender.boxes = w.sender.boxes) (o : Nat) :
    outboxOf w' o = outboxOf w o := by
  simp [outboxOf, same]

theorem outboxOf_set {w w' : World} {o : Nat} {b : Box} {x : Outbox Sent}
    (hb : w.sender.boxes[o]? = some b)
    (set : w'.sender.boxes = w.sender.boxes.set o { b with outbox := x }) (p : Nat) :
    outboxOf w' p = if o = p then x else outboxOf w p := by
  by_cases same : o = p
  · subst same
    simp [outboxOf, set, List.getElem?_set_self (lt_of_getElem? hb)]
  · simp [outboxOf, set, List.getElem?_set_ne same, same]

/-- Building an outbox changes none. -/
theorem outboxOf_push {w w' : World} {d : Nat}
    (push : w'.sender.boxes = w.sender.boxes ++ [⟨d, OutboxTraffic.build⟩]) (o : Nat) :
    outboxOf w' o = outboxOf w o := by
  by_cases inside : o < w.sender.boxes.length
  · simp [outboxOf, push, List.getElem?_append_left inside]
  · have absent : w.sender.boxes[o]? = none := List.getElem?_eq_none (by omega)
    cases new : w'.sender.boxes[o]? with
    | none => simp [outboxOf, new, absent]
    | some b =>
      rw [push] at new
      rcases getElem?_push_cases new with ⟨_, rfl⟩ | old
      · simp [outboxOf, push, new, absent]
      · exact absurd (lt_of_getElem? old) inside

/-- The same count, the same queue and the same slots. -/
structure Level (b b' : Outbox Sent) : Prop where
  pending : b'.pending = b.pending
  capacity : b'.channel.capacity = b.channel.capacity
  queue : b'.channel.queue = b.channel.queue
  permits : b'.channel.permits = b.channel.permits

theorem level_refl (b : Outbox Sent) : Level b b := ⟨rfl, rfl, rfl, rfl⟩

theorem level_of_eq {b b' : Outbox Sent} (same : b' = b) : Level b b' := same ▸ level_refl b

theorem level_close {b : Outbox Sent} (empty : b.channel.queue = []) :
    Level b (closeBox b).1 := by
  rw [closeBox]
  split
  · exact ⟨rfl, rfl, rfl, rfl⟩
  · exact ⟨rfl, rfl, empty.symm, rfl⟩

theorem level_set {w w' : World} {o : Nat} {b : Box} {x : Outbox Sent}
    (hb : w.sender.boxes[o]? = some b)
    (set : w'.sender.boxes = w.sender.boxes.set o { b with outbox := x })
    (level : Level b.outbox x) (p : Nat) : Level (outboxOf w p) (outboxOf w' p) := by
  rw [outboxOf_set hb set]
  split
  · rename_i same
    subst same
    exact (outboxOf_built hb).symm ▸ level
  · exact level_refl _

theorem copies_set {w w' : World} {o : Nat} {b : Box} {x : Outbox Sent}
    (hb : w.sender.boxes[o]? = some b)
    (set : w'.sender.boxes = w.sender.boxes.set o { b with outbox := x }) (p : Sent) :
    queuedCopies p w' + b.outbox.channel.queue.count p =
      queuedCopies p w + x.channel.queue.count p := by
  have trade := total_set (fun b : Box => b.outbox.channel.queue.count p) { b with outbox := x } hb
  simp only [queuedCopies, set] at trade ⊢
  omega

theorem copies_level {w w' : World} {o : Nat} {b : Box} {x : Outbox Sent}
    (hb : w.sender.boxes[o]? = some b)
    (set : w'.sender.boxes = w.sender.boxes.set o { b with outbox := x })
    (level : Level b.outbox x) (p : Sent) : queuedCopies p w' = queuedCopies p w := by
  have trade := copies_set hb set p
  rw [level.queue] at trade
  omega

/-! ## The steps of a call -/

/-- A step of the call, at whose end it stands at `stage`. -/
inductive OwnMove (me : Nat) (w w' : World) (i : Nat) (c : Call) (stage : Stage) : Prop where
  | quiet (level : ∀ o, Level (outboxOf w o) (outboxOf w' o))
      (copies : ∀ p, queuedCopies p w' = queuedCopies p w)
      (outside : ∀ o op, c.stage ≠ .queueing o op)
      (opens : ∀ o op, stage = .queueing o op → ∃ next : Next, op = next.op)
      (wire : w'.socket.wire = w.socket.wire) (unaccepted : stage ≠ .returned .ok)
  | inline (level : ∀ o, Level (outboxOf w o) (outboxOf w' o))
      (copies : ∀ p, queuedCopies p w' = queuedCopies p w) (hs : c.stage = .inline)
      (wire : w'.socket.wire = w.socket.wire ++ [⟨me, i, c.message⟩])
      (accepted : stage = .returned .ok)
  | op (o : Nat) (op op' : Op) (b : Box) (x : Outbox Sent) (hs : c.stage = .queueing o op)
      (hs' : stage = settle c.kind o op') (hb : w.sender.boxes[o]? = some b)
      (set : w'.sender.boxes = w.sender.boxes.set o { b with outbox := x })
      (wire : w'.socket.wire = w.socket.wire)
      (move : OpMove b.outbox ⟨me, i, c.message⟩ op x op' ∨ ParkMove b.outbox op x op')

theorem copies_same {w w' : World} (same : w'.sender.boxes = w.sender.boxes) (p : Sent) :
    queuedCopies p w' = queuedCopies p w := by
  rw [queuedCopies, same]
  rfl

/-- A step that leaves every outbox as it is. -/
theorem quiet_same {me i : Nat} {w w' : World} {c : Call} {stage : Stage}
    (same : w'.sender.boxes = w.sender.boxes) (outside : ∀ o op, c.stage ≠ .queueing o op)
    (opens : ∀ o op, stage = .queueing o op → ∃ next : Next, op = next.op)
    (wire : w'.socket.wire = w.socket.wire) (unaccepted : stage ≠ .returned .ok) :
    OwnMove me w w' i c stage :=
  .quiet (fun o => level_of_eq (outboxOf_same same o)) (copies_same same) outside opens wire
    unaccepted

theorem own_move {me i : Nat} {w w' : World} {a : Act} (hu : Upkeep me w) (m : Move me w a w')
    (acts : actor a = some i) : ∃ c stage, w.sender.calls[i]? = some c ∧
      w'.sender.calls = w.sender.calls.set i { c with stage } ∧ c.stage ≠ .returned .ok ∧
      OwnMove me w w' i c stage := by
  cases m with
  | walk j c stage hc hw =>
    cases acts
    obtain ⟨_, _, opens, outside⟩ := walk_spec hw
    have busy := walk_busy hw
    refine ⟨c, stage, hc, rfl, fun ok => ?_, quiet_same rfl outside opens rfl (walk_not_ok hw)⟩
    rw [ok] at busy
    cases busy
  | set j c next o hc hs unset =>
    cases acts
    exact ⟨c, .gotten next, hc, rfl, by simp [hs], quiet_same rfl (by simp [hs]) (by simp) rfl
      (by simp)⟩
  | lose j c next o b hc hs hb =>
    cases acts
    have own : c.stage.owns = some o := by rw [hs]; rfl
    have untouched := (hu.sound o b hb).untouched (hu.linked.owns_built i c o hc own).2
    have level := level_close untouched.nothing_queued
    exact ⟨c, .gotten next, hc, rfl, by simp [hs], .quiet (level_set hb rfl level)
      (copies_level hb rfl level) (by simp [hs]) (by simp) rfl (by simp)⟩
  | queue j c o op op' b x hc hs hb hm =>
    cases acts
    exact ⟨c, _, hc, rfl, by simp [hs], .op o op op' b x hs rfl hb rfl rfl (Or.inl hm)⟩
  | inline j c r k hc hs hk =>
    cases acts
    obtain ⟨_, ⟨rfl, rfl⟩ | ⟨bad, rfl⟩⟩ := sendNow_cases hk
    · exact ⟨c, .returned .ok, hc, rfl, by simp [hs],
        .inline (fun _ => level_refl _) (fun _ => rfl) hs rfl rfl⟩
    · refine ⟨c, afterInline r, hc, rfl, by simp [hs], quiet_same rfl (by simp [hs]) ?_ rfl ?_⟩
      · cases r <;> simp [afterInline]
      · cases r <;> simp_all [afterInline]
  | built j c next d hc hs =>
    cases acts
    refine ⟨c, .setting next w.sender.boxes.length, hc, rfl, by simp [hs],
      .quiet (fun p => level_of_eq (outboxOf_push rfl p)) (fun p => ?_) (by simp [hs]) (by simp)
        rfl (by simp)⟩
    simp [queuedCopies, OutboxTraffic.build, Channel.new]
  | buildFailed j c next hc hs =>
    cases acts
    exact ⟨c, .returned .closed, hc, rfl, by simp [hs],
      quiet_same rfl (by simp [hs]) (by simp) rfl (by simp)⟩
  | noRuntime j c next dup hc hs bare =>
    cases acts
    exact ⟨c, .panicked, hc, rfl, by simp [hs],
      quiet_same rfl (by simp [hs]) (by simp) rfl (by simp)⟩
  | grant j c o op op' b x hc hs hb hm parked =>
    cases acts
    exact ⟨c, _, hc, rfl, by simp [hs], .op o op op' b x hs rfl hb rfl rfl (Or.inr hm)⟩
  | cancel j c o op op' b x hc hs hb hm gone =>
    cases acts
    exact ⟨c, _, hc, rfl, by simp [hs], .op o op op' b x hs rfl hb rfl rfl (Or.inr hm)⟩
  | take j c r hc hs failed =>
    cases acts
    exact ⟨c, .taken, hc, rfl, by simp [hs, failed],
      quiet_same rfl (by simp [hs]) (by simp) rfl (by simp)⟩
  | _ => cases acts

/-- What a step that is no call's does: a call may begin, and no slot changes hands. -/
theorem other_move {me : Nat} {w w' : World} {a : Act} (m : Move me w a w')
    (acts : actor a = none) :
    (w'.sender.calls = w.sender.calls ∨
      ∃ c : Call, c.stage = .entered ∧ w'.sender.calls = w.sender.calls ++ [c]) ∧
      ∀ o, (outboxOf w' o).channel.permits = (outboxOf w o).channel.permits := by
  have kept : ∀ {p : Nat} {b : Box} {x : Outbox Sent}, w.sender.boxes[p]? = some b →
      w'.sender.boxes = w.sender.boxes.set p { b with outbox := x } →
      x.channel.permits = b.outbox.channel.permits →
      ∀ o, (outboxOf w' o).channel.permits = (outboxOf w o).channel.permits := by
    intro p b x hb set same o
    rw [outboxOf_set hb set]
    split
    · rename_i here
      subst here
      rw [outboxOf_built hb, same]
    · rfl
  have closed : ∀ b : Outbox Sent, (closeBox b).1.channel.permits = b.channel.permits := by
    intro b
    rw [closeBox]
    split <;> rfl
  cases m with
  | enter kind m onRuntime alive => exact ⟨Or.inr ⟨_, rfl, rfl⟩, fun _ => rfl⟩
  | drain p a b k x hb hk hm =>
    refine ⟨Or.inl rfl, kept hb rfl ?_⟩
    cases hm <;> rfl
  | release p b alive allOver hset hb => exact ⟨Or.inl rfl, kept hb rfl (closed b.outbox)⟩
  | room b => exact ⟨Or.inl rfl, fun _ => rfl⟩
  | peerClose => exact ⟨Or.inl rfl, fun _ => rfl⟩
  | other p foreign => exact ⟨Or.inl rfl, fun _ => rfl⟩
  | releaseBare alive allOver unset => exact ⟨Or.inl rfl, fun _ => rfl⟩
  | sweep m rest ht => exact ⟨Or.inl rfl, fun _ => rfl⟩
  | _ => cases acts

/-! ## What a call has in hand -/

theorem share_settle {f : Op → Nat} (done : ∀ r, f (.done r) = 0) (c : Call) (o : Nat) (op : Op) :
    share f o { c with stage := settle c.kind o op } = f op := by
  cases op with
  | done r =>
    rw [done]
    cases r with
    | refused e => cases e <;> cases hk : c.kind <;> simp [settle, share]
    | _ => rfl
  | _ => simp [settle, share]

theorem share_settle_other {f : Op → Nat} (c : Call) {o p : Nat} (op : Op) (other : o ≠ p) :
    share f p { c with stage := settle c.kind o op } = 0 := by
  cases op with
  | done r =>
    cases r with
    | refused e => cases e <;> cases hk : c.kind <;> simp [settle, share]
    | _ => rfl
  | _ => simp [settle, share, other]

theorem share_queueing {f : Op → Nat} {c : Call} {o : Nat} {op : Op}
    (hs : c.stage = .queueing o op) (p : Nat) : share f p c = if o = p then f op else 0 := by
  simp [share, hs]

theorem share_outside {f : Op → Nat} {c : Call} (outside : ∀ o op, c.stage ≠ .queueing o op)
    (p : Nat) : share f p c = 0 := by
  rw [share]
  split
  · rename_i o op hs
    exact absurd hs (outside o op)
  · rfl

theorem share_opens {f : Op → Nat} (start : ∀ next : Next, f next.op = 0) {c : Call}
    (opens : ∀ o op, c.stage = .queueing o op → ∃ next : Next, op = next.op) (p : Nat) :
    share f p c = 0 := by
  rw [share]
  split
  · rename_i o op hs
    obtain ⟨next, rfl⟩ := opens o op hs
    simp [start]
  · rfl

/-- The permits of a channel are those that the calls inside hold. -/
def Permitted (w : World) : Prop := ∀ o,
  (outboxOf w o).channel.permits = total (share Backlog.Op.permits o) w.sender.calls

theorem permits_start (next : Next) : Backlog.Op.permits next.op = 0 := by
  cases next <;> rfl

theorem op_shift {b x : Outbox Sent} {m : Sent} {op op' : Op}
    (h : OpMove b m op x op' ∨ ParkMove b op x op')
    (own : Backlog.Op.permits op ≤ b.channel.permits) :
    Backlog.Shift b op x op' := by
  rcases h with h | h
  · exact Backlog.opMove_shift h own
  · exact Backlog.parkMove_shift h own

theorem Permitted.own {w : World} (h : Permitted w) {i o : Nat} {c : Call} {op : Op} {b : Box}
    (hc : w.sender.calls[i]? = some c) (hs : c.stage = .queueing o op)
    (hb : w.sender.boxes[o]? = some b) :
    Backlog.Op.permits op ≤ b.outbox.channel.permits := by
  have all := h o
  have own := le_total (share Backlog.Op.permits o) hc
  rw [share_queueing hs, if_pos rfl] at own
  rw [outboxOf_built hb] at all
  omega

theorem permitted_step {me : Nat} {w w' : World} {a : Act} (hu : Upkeep me w) (h : Permitted w)
    (m : Move me w a w') : Permitted w' := by
  intro p
  have before := h p
  cases acts : actor a with
  | none =>
    obtain ⟨calls, permits⟩ := other_move m acts
    rcases calls with same | ⟨c, new, grown⟩
    · rw [permits, same]
      exact before
    · have nothing : share Backlog.Op.permits p c = 0 := share_outside (by simp [new]) p
      rw [permits, grown, total_append, total_cons, total_nil, nothing]
      exact before
  | some i =>
    obtain ⟨c, stage, hc, calls, _, own⟩ := own_move hu m acts
    have trade := total_set (share Backlog.Op.permits p) { c with stage } hc
    rw [calls]
    cases own with
    | quiet level copies outside opens wire unaccepted =>
      have was : share Backlog.Op.permits p c = 0 := share_outside outside p
      have is : share Backlog.Op.permits p { c with stage } = 0 :=
        share_opens permits_start opens p
      rw [(level p).permits]
      omega
    | inline level copies hs wire accepted =>
      subst accepted
      have was : share Backlog.Op.permits p c = 0 := share_outside (by simp [hs]) p
      have is : share Backlog.Op.permits p { c with stage := .returned .ok } = 0 := rfl
      rw [(level p).permits]
      omega
    | op o op op' b x hs hs' hb set wire move =>
      have shift := op_shift move (h.own hc hs hb)
      have moved := shift.permits
      subst hs'
      rw [outboxOf_set hb set]
      by_cases same : o = p
      · subst same
        rw [share_settle (by simp [Backlog.Op.permits]), share_queueing hs, if_pos rfl] at trade
        rw [outboxOf_built hb] at before
        rw [if_pos rfl]
        omega
      · rw [share_settle_other c op' same, share_queueing hs, if_neg same] at trade
        rw [if_neg same]
        omega

theorem permitted {me : Nat} {guard : World → Act → Prop} {w : World}
    (h : Reachable (machine me) guard w) : Permitted w := by
  refine reachable_invariant_with (P := Permitted) (fun _ => upkeep) ?_ ?_ h
  · rintro w ⟨runtime, hw, _⟩ o
    simp [outboxOf, hw, fresh, OutboxTraffic.build, Channel.new]
  · intro w a w' hu hp _ hstep
    exact permitted_step hu hp (step_move hstep)

/-! ## The account of one call -/

/-- What is known of every state of a run. -/
def Sound (me : Nat) (w : World) : Prop := Upkeep me w ∧ Permitted w

def account (f : Op → Nat) (o i : Nat) (w : World) : Int :=
  ((w.sender.calls[i]?).elim 0 (share f o) : Nat)

theorem account_call {f : Op → Nat} {o i : Nat} {w : World} {c : Call}
    (hc : w.sender.calls[i]? = some c) : account f o i w = share f o c := by
  simp [account, hc]

/-- The steps of others do not touch a call. -/
theorem others_call {me i : Nat} {w w' : World} {a : Act} (hu : Upkeep me w)
    (m : Move me w a w') (other : mine i a = false) :
    w'.sender.calls[i]? = w.sender.calls[i]? ∨
      w.sender.calls[i]? = none ∧ ∃ c, w'.sender.calls[i]? = some c ∧ c.stage = .entered := by
  cases acts : actor a with
  | none =>
    rcases (other_move m acts).1 with same | ⟨c, new, grown⟩
    · exact Or.inl (by rw [same])
    · by_cases inside : i < w.sender.calls.length
      · exact Or.inl (by rw [grown, List.getElem?_append_left inside])
      · have absent : w.sender.calls[i]? = none := List.getElem?_eq_none (by omega)
        cases now : w'.sender.calls[i]? with
        | none => exact Or.inl absent.symm
        | some d =>
          rw [grown] at now
          rcases getElem?_push_cases now with ⟨_, rfl⟩ | old
          · exact Or.inr ⟨absent, d, rfl, new⟩
          · exact absurd (lt_of_getElem? old) inside
  | some j =>
    obtain ⟨c, stage, _, calls, _⟩ := own_move hu m acts
    have apart : j ≠ i := by
      rintro rfl
      simp [mine, acts] at other
    exact Or.inl (by rw [calls, List.getElem?_set_ne apart])

theorem account_others {me i : Nat} {f : Op → Nat} {w w' : World} {a : Act} (hu : Upkeep me w)
    (m : Move me w a w') (other : mine i a = false) (o : Nat) :
    account f o i w' = account f o i w := by
  rcases others_call hu m other with same | ⟨absent, c, hc, new⟩
  · rw [account, same]
    rfl
  · have nothing : share f o c = 0 := share_outside (by simp [new]) o
    simp [account, absent, hc, nothing]

theorem accepted_others {me i : Nat} {w w' : World} {a : Act} (hu : Upkeep me w)
    (m : Move me w a w') (other : mine i a = false) :
    w'.sender.accepted i = w.sender.accepted i := by
  rcases others_call hu m other with same | ⟨absent, c, hc, new⟩
  · rw [Sender.accepted, same]
    rfl
  · simp [Sender.accepted, absent, hc, new]

/-- A step of a call that puts its message nowhere: the count and the slots of every
outbox move with what the call has in hand, and nothing else moves. -/
structure Idle (me i : Nat) (w w' : World) : Prop where
  pending : ∀ o, pendingOf o w' - pendingOf o w =
    account Op.claims o i w' - account Op.claims o i w
  slots : ∀ o, freeSlots o w' - freeSlots o w =
    account Backlog.Op.permits o i w - account Backlog.Op.permits o i w'
  queue : ∀ o p, inQueue o p w' = inQueue o p w
  wire : w'.socket.wire = w.socket.wire

theorem op_queue {b x : Outbox Sent} {m : Sent} {op op' : Op}
    (h : OpMove b m op x op' ∨ ParkMove b op x op') : x.drain = b.drain ∧
      x.channel.queue = b.channel.queue ++ (if op' = .done .accepted then [m] else []) := by
  rcases h with h | h
  · exact ⟨h.effect.1, h.effect.2.2.2⟩
  · obtain ⟨drain, _, queue, _, _, _, _, refused⟩ := h.effect
    rw [if_neg refused, List.append_nil]
    exact ⟨drain, queue⟩

theorem op_balance {b x : Outbox Sent} {m : Sent} {op op' : Op}
    (h : OpMove b m op x op' ∨ ParkMove b op x op') (slack : Nat)
    (balance : b.pending = b.counted + op.claims + slack) :
    x.pending = x.counted + op'.claims + slack := by
  rcases h with h | h
  · exact h.balance balance
  · exact park_fair h slack balance

theorem own_idle {me i : Nat} {w w' : World} {a : Act} (h : Sound me w) (m : Move me w a w')
    (acts : mine i a = true) (refused : w'.sender.accepted i = 0) : Idle me i w w' := by
  obtain ⟨hu, hp⟩ := h
  obtain ⟨c, stage, hc, calls, busy, own⟩ := own_move hu m (by simpa [mine] using acts)
  have hc' : w'.sender.calls[i]? = some { c with stage } := by
    rw [calls]
    exact List.getElem?_set_self (lt_of_getElem? hc)
  cases own with
  | quiet level copies outside opens wire unaccepted =>
    have none_claimed : ∀ o, account Op.claims o i w' = account Op.claims o i w := by
      intro o
      rw [account_call hc, account_call hc', share_outside outside o,
        share_opens next_claims opens o]
    have none_held : ∀ o, account Backlog.Op.permits o i w' = account Backlog.Op.permits o i w := by
      intro o
      rw [account_call hc, account_call hc', share_outside outside o,
        share_opens permits_start opens o]
    refine ⟨fun o => ?_, fun o => ?_, fun o p => ?_, wire⟩
    · rw [none_claimed, pendingOf, pendingOf, (level o).pending]
      omega
    · rw [none_held, freeSlots, freeSlots, (level o).capacity, (level o).queue, (level o).permits]
      omega
    · rw [inQueue, inQueue, (level o).queue]
  | inline level copies hs wire accepted =>
    subst accepted
    rw [accepted_ok hc' rfl] at refused
    cases refused
  | op o op op' b x hs hs' hb set wire move =>
    subst hs'
    have unaccepted : op' ≠ .done .accepted := by
      rintro rfl
      rw [accepted_ok hc' rfl] at refused
      cases refused
    have shift := op_shift move (hp.own hc hs hb)
    obtain ⟨drain, queue⟩ := op_queue move
    rw [if_neg unaccepted, List.append_nil] at queue
    have moved := shift.permits
    have covers := hu.covered o b hb
    have own := le_total (Call.claims o) hc
    rw [claims_queueing hs] at own
    have balance := op_balance move (b.outbox.pending - b.outbox.counted - op.claims)
      (by omega)
    refine ⟨fun p => ?_, fun p => ?_, fun p q => ?_, wire⟩
    · rw [account_call hc, account_call hc', share_queueing hs, pendingOf, pendingOf,
        outboxOf_set hb set]
      by_cases same : o = p
      · subst same
        rw [share_settle (by simp [Op.claims]), if_pos rfl, if_pos rfl, outboxOf_built hb]
        simp only [Outbox.counted, drain, queue] at balance covers
        omega
      · rw [share_settle_other c op' same, if_neg same, if_neg same]
        omega
    · rw [account_call hc, account_call hc', share_queueing hs, freeSlots, freeSlots,
        outboxOf_set hb set]
      by_cases same : o = p
      · subst same
        rw [share_settle (by simp [Backlog.Op.permits]), if_pos rfl, if_pos rfl, outboxOf_built hb,
          queue, shift.capacity]
        omega
      · rw [share_settle_other c op' same, if_neg same, if_neg same]
        omega
    · rw [inQueue, inQueue, outboxOf_set hb set]
      split
      · rename_i same
        subst same
        rw [outboxOf_built hb, queue]
      · rfl

/-- A step of a call puts its message somewhere exactly if it is the one that accepts it,
and takes nothing away. -/
structure Places (i : Nat) (p : Sent) (w w' : World) : Prop where
  wire : onWireCopies p w ≤ onWireCopies p w'
  queues : queuedCopies p w ≤ queuedCopies p w'
  once : onWireCopies p w' + queuedCopies p w' - (onWireCopies p w + queuedCopies p w) =
    (w'.sender.accepted i : Int) - w.sender.accepted i

theorem own_places {me i : Nat} {message : Message} {w w' : World} {a : Act} (h : Sound me w)
    (m : Move me w a w') (acts : mine i a = true)
    (same : ∀ c, w.sender.calls[i]? = some c → c.message = message) :
    Places i ⟨me, i, message⟩ w w' := by
  obtain ⟨hu, hp⟩ := h
  obtain ⟨c, stage, hc, calls, busy, own⟩ := own_move hu m (by simpa [mine] using acts)
  obtain rfl := same c hc
  have before := accepted_busy hc busy
  have hc' : w'.sender.calls[i]? = some { c with stage } := by
    rw [calls]
    exact List.getElem?_set_self (lt_of_getElem? hc)
  cases own with
  | quiet level copies outside opens wire unaccepted =>
    have after := accepted_busy hc' unaccepted
    have still : onWireCopies ⟨me, i, c.message⟩ w' = onWireCopies ⟨me, i, c.message⟩ w := by
      rw [onWireCopies, onWireCopies, wire]
    have kept := copies ⟨me, i, c.message⟩
    exact ⟨by omega, by omega, by omega⟩
  | inline level copies hs wire accepted =>
    have after := accepted_ok hc' accepted
    have more : onWireCopies ⟨me, i, c.message⟩ w' = onWireCopies ⟨me, i, c.message⟩ w + 1 := by
      rw [onWireCopies, onWireCopies, wire]
      simp
    have kept := copies ⟨me, i, c.message⟩
    exact ⟨by omega, by omega, by omega⟩
  | op o op op' b x hs hs' hb set wire move =>
    subst hs'
    have still : onWireCopies ⟨me, i, c.message⟩ w' = onWireCopies ⟨me, i, c.message⟩ w := by
      rw [onWireCopies, onWireCopies, wire]
    have trade := copies_set hb set ⟨me, i, c.message⟩
    rw [(op_queue move).2, List.count_append] at trade
    by_cases accepted : op' = .done .accepted
    · subst accepted
      have after := accepted_ok hc' rfl
      simp only [if_pos, List.count_singleton_self] at trade
      exact ⟨by omega, by omega, by omega⟩
    · have after := accepted_busy hc' fun ok => accepted (settle_ok ok)
      simp only [if_neg accepted, List.count_nil] at trade
      exact ⟨by omega, by omega, by omega⟩

/-! ## No other copy, ever -/

/-- A message is in the order at most once, and only after its call has returned `Ok`. -/
theorem order_step {me : Nat} {w w' : World} {a : Act} (hu : Upkeep me w)
    (h : ∀ i, w.order.count (me, i) ≤ w.sender.accepted i) (m : Move me w a w') :
    ∀ i, w'.order.count (me, i) ≤ w'.sender.accepted i := by
  intro i
  have old := h i
  rcases (hu.flow m).tally with ⟨o, b, _, _, _, steady, fewer, _⟩ | ⟨more, both⟩
  · have less := fewer.count_le (me, i)
    rw [steady i]
    omega
  · obtain ⟨accepted, count⟩ := both i
    omega

theorem order_le {me : Nat} {guard : World → Act → Prop} {w : World}
    (h : Reachable (machine me) guard w) (i : Nat) :
    w.onWire (me, i) + w.queued (me, i) + w.inHand (me, i) ≤ w.sender.accepted i := by
  rw [← count_order (upkeep h)]
  refine reachable_invariant_with (Q := Upkeep me)
    (P := fun w => ∀ i, w.order.count (me, i) ≤ w.sender.accepted i) (fun _ => upkeep) ?_ ?_ h i
  · rintro w ⟨runtime, hw, others⟩ i
    have absent : w.order.count (me, i) = 0 := by
      refine List.count_eq_zero.mpr fun here => ?_
      rw [World.order, hw] at here
      simp only [fresh, Sender.line, List.map_nil, List.append_nil, List.mem_map] at here
      obtain ⟨p, hp, tag⟩ := here
      exact others p hp (congrArg Prod.fst tag)
    omega
  · intro w a w' hu hw _ hstep
    exact order_step hu hw (step_move hstep)

/-! ## Whole runs -/

theorem sound {me : Nat} {w : World} (h : Reachable (machine me) anyStep w) : Sound me w :=
  ⟨upkeep h, permitted h⟩

theorem accepted_back {me i : Nat} {w w' : World} {a : Act} (m : Move me w a w')
    (h : w'.sender.accepted i = 0) : w.sender.accepted i = 0 := by
  by_contra was
  cases hc : w.sender.calls[i]? with
  | none => simp [Sender.accepted, hc] at was
  | some c =>
    by_cases ok : c.stage = .returned .ok
    · rw [accepted_ok (ok_stays m hc ok) ok] at h
      cases h
    · exact was (accepted_busy hc ok)

theorem message_back {me i : Nat} {message : Message} {w w' : World} {a : Act}
    (m : Move me w a w') (h : ∀ c, w'.sender.calls[i]? = some c → c.message = message) :
    ∀ c, w.sender.calls[i]? = some c → c.message = message := by
  intro c hc
  obtain ⟨c', hc', onward⟩ := call_onward m hc
  have later := h c' hc'
  cases onward with
  | still same => exact same ▸ later
  | on _ kept _ _ => exact kept ▸ later

section Runs
variable {me i : Nat} {w₀ w : World} {labels : List Act} {c : Call}

/-- Sums over the steps of a call that has not been accepted in the end. -/
theorem idle_net {f g : World → Int} (start : (machine me).init w₀)
    (run : exec (machine me) anyStep w₀ labels = some w) (refused : w.sender.accepted i = 0)
    (own : ∀ s t, Idle me i s t → f t - f s = g t - g s)
    (others : ∀ s t a, Sound me s → Move me s a t → mine i a = false → g t = g s) :
    net (machine me) (mine i) f w₀ labels = g w - g w₀ := by
  refine (net_account (P := Reachable (machine me) anyStep) (Q := fun w => w.sender.accepted i = 0)
    ?_ ?_ ?_ ?_ run (reachable_init start) refused).2
  · exact fun s a t hs ok ht => reachable_step hs ok ht
  · exact fun s a t ht => accepted_back (step_move ht)
  · exact fun s a t hs later ht acts => own s t (own_idle (sound hs) (step_move ht) acts later)
  · exact fun s a t hs _ ht other => others s t a (sound hs) (step_move ht) other

theorem account_init (start : (machine me).init w₀) (f : Op → Nat) (o : Nat) :
    account f o i w₀ = 0 := by
  obtain ⟨runtime, hw, _⟩ := start
  simp [account, hw, fresh]

/-- A call that is over has nothing in hand. -/
theorem account_over (hc : w.sender.calls[i]? = some c) (finished : c.stage.isOver = true)
    (f : Op → Nat) (o : Nat) : account f o i w = 0 := by
  rw [account_call hc, share_outside]
  · rfl
  · intro p op hs
    rw [hs] at finished
    cases finished

theorem undone (start : (machine me).init w₀)
    (run : exec (machine me) anyStep w₀ labels = some w) (hc : w.sender.calls[i]? = some c)
    (finished : c.stage.isOver = true) (refused : c.stage ≠ .returned .ok) (o : Nat) :
    net (machine me) (mine i) (pendingOf o) w₀ labels = 0 ∧
      net (machine me) (mine i) (freeSlots o) w₀ labels = 0 ∧
      ∀ p, net (machine me) (mine i) (inQueue o p) w₀ labels = 0 := by
  have unaccepted := accepted_busy hc refused
  refine ⟨?_, ?_, fun p => ?_⟩
  · rw [idle_net (g := account Op.claims o i) start run unaccepted (fun _ _ idle => idle.pending o)
      fun _ _ _ h m other => account_others h.1 m other o]
    rw [account_over hc finished, account_init start]
    rfl
  · have moved := idle_net (f := freeSlots o) (g := fun w => -account Backlog.Op.permits o i w)
      start run unaccepted
      (fun s t idle => by have := idle.slots o; omega)
      fun s t a h m other => by
        have := account_others (f := Backlog.Op.permits) h.1 m other o
        omega
    rw [moved, account_over hc finished, account_init start]
    rfl
  · exact idle_net (f := inQueue o p) (g := fun _ => 0) start run unaccepted
      (fun _ _ idle => by have := idle.queue o p; omega) fun _ _ _ _ _ _ => rfl

theorem unsent (start : (machine me).init w₀)
    (run : exec (machine me) anyStep w₀ labels = some w) (hc : w.sender.calls[i]? = some c)
    (refused : c.stage ≠ .returned .ok) (p : Sent) :
    net (machine me) (mine i) (onWireCopies p) w₀ labels = 0 :=
  idle_net (f := onWireCopies p) (g := fun _ => 0) start run (accepted_busy hc refused)
    (fun s t idle => by rw [onWireCopies, onWireCopies, idle.wire]; omega) fun _ _ _ _ _ _ => rfl

theorem placed_once (start : (machine me).init w₀)
    (run : exec (machine me) anyStep w₀ labels = some w) (hc : w.sender.calls[i]? = some c)
    (ok : c.stage = .returned .ok) :
    (net (machine me) (mine i) (onWireCopies ⟨me, i, c.message⟩) w₀ labels = 1 ∧
      net (machine me) (mine i) (queuedCopies ⟨me, i, c.message⟩) w₀ labels = 0) ∨
    (net (machine me) (mine i) (onWireCopies ⟨me, i, c.message⟩) w₀ labels = 0 ∧
      net (machine me) (mine i) (queuedCopies ⟨me, i, c.message⟩) w₀ labels = 1) := by
  have known : ∀ d, w.sender.calls[i]? = some d → d.message = c.message := by
    intro d hd
    rw [Option.mem_unique hd hc]
  have places : ∀ s a t, (∀ d, t.sender.calls[i]? = some d → d.message = c.message) →
      Reachable (machine me) anyStep s → (machine me).step s a = some t → mine i a = true →
      Places i ⟨me, i, c.message⟩ s t :=
    fun s a t later hs ht acts =>
      own_places (sound hs) (step_move ht) acts (message_back (step_move ht) later)
  have keep : ∀ s a t, Reachable (machine me) anyStep s → anyStep s a →
      (machine me).step s a = some t → Reachable (machine me) anyStep t :=
    fun s a t hs allowed ht => reachable_step hs allowed ht
  have back : ∀ s a t, (machine me).step s a = some t →
      (∀ d, t.sender.calls[i]? = some d → d.message = c.message) →
      ∀ d, s.sender.calls[i]? = some d → d.message = c.message :=
    fun s a t ht => message_back (step_move ht)
  have wire := (net_nonneg (f := onWireCopies ⟨me, i, c.message⟩) keep back
    (fun s a t hs later ht acts => (places s a t later hs ht acts).wire)
    run (reachable_init start) known).2
  have queues := (net_nonneg (f := queuedCopies ⟨me, i, c.message⟩) keep back
    (fun s a t hs later ht acts => (places s a t later hs ht acts).queues)
    run (reachable_init start) known).2
  have both := (net_account (g := fun w => (w.sender.accepted i : Int)) keep back
    (fun s a t hs later ht acts => (places s a t later hs ht acts).once)
    (fun s a t hs _ ht other => by rw [accepted_others (sound hs).1 (step_move ht) other])
    run (reachable_init start) known).2
  have began : w₀.sender.accepted i = 0 := by
    obtain ⟨runtime, hw, _⟩ := start
    simp [Sender.accepted, hw, fresh]
  rw [net_add, accepted_ok hc ok, began] at both
  omega

end Runs

/-- What becomes of call number `i` of a run, and what it leaves behind. What is left of the
program of a call that has returned is the value it returned. -/
structure Atomic (me : Nat) (w₀ w : World) (labels : List Act) (i : Nat) (c : Call) : Prop where
  argument : (entered labels)[i]? = some (c.kind, c.message)
  returns : ∀ r, c.stage = .returned r → ∃ v, rest c.kind c.message c.stage = some (.ret v) ∧
    Interaction.Program.Leads Access.Possible (program c.kind c.message) (.ret v) ∧ v.outcome = r
  value : ∀ r, c.stage = .returned r → ∀ v,
    Interaction.Program.Leads Access.Possible (program c.kind c.message) (.ret v) →
      v.outcome = r → v.intoMessage = if r = .ok then none else some c.message
  absent : c.stage.isOver = true → c.stage ≠ .returned .ok →
    w.onWire (me, i) = 0 ∧ w.queued (me, i) = 0 ∧ w.inHand (me, i) = 0
  unsent : c.stage.isOver = true → c.stage ≠ .returned .ok →
    ∀ p, net (machine me) (mine i) (onWireCopies p) w₀ labels = 0
  undone : c.stage.isOver = true → c.stage ≠ .returned .ok → ∀ o,
    net (machine me) (mine i) (pendingOf o) w₀ labels = 0 ∧
      net (machine me) (mine i) (freeSlots o) w₀ labels = 0 ∧
      ∀ p, net (machine me) (mine i) (inQueue o p) w₀ labels = 0
  placed : c.stage = .returned .ok →
    (net (machine me) (mine i) (onWireCopies ⟨me, i, c.message⟩) w₀ labels = 1 ∧
      net (machine me) (mine i) (queuedCopies ⟨me, i, c.message⟩) w₀ labels = 0) ∨
    (net (machine me) (mine i) (onWireCopies ⟨me, i, c.message⟩) w₀ labels = 0 ∧
      net (machine me) (mine i) (queuedCopies ⟨me, i, c.message⟩) w₀ labels = 1)
  once : w.onWire (me, i) + w.queued (me, i) + w.inHand (me, i) ≤ 1

/-- A call that returned an error gives its message back and, like one whose future was
dropped, leaves no copy of it, no count and no slot taken; one that returned `Ok` put its
message on the wire or in a channel, once. -/
theorem sends_are_atomic {me : Nat} {w₀ w : World} {labels : List Act} {i : Nat} {c : Call}
    (start : (machine me).init w₀) (run : exec (machine me) anyStep w₀ labels = some w)
    (hc : w.sender.calls[i]? = some c) : Atomic me w₀ w labels i c := by
  have reachable := exec_reachable start run
  have few := order_le reachable i
  refine ⟨?_, fun r hs => returned_value reachable hc hs, ?_, ?_, ?_, ?_,
    placed_once start run hc, ?_⟩
  · have calls := run_entered run
    obtain ⟨runtime, hw, _⟩ := start
    simp only [hw, fresh, List.map_nil, List.nil_append] at calls
    rw [← calls, List.getElem?_map, hc]
    rfl
  · rintro _ _ v path rfl
    exact program_gives_back path
  · intro _ refused
    rw [accepted_busy hc refused] at few
    omega
  · exact fun _ refused => unsent start run hc refused
  · exact fun finished refused => undone start run hc finished refused
  · have one : w.sender.accepted i ≤ 1 := by
      by_cases ok : c.stage = .returned .ok
      · exact Nat.le_of_eq (accepted_ok hc ok)
      · rw [accepted_busy hc ok]
        exact Nat.zero_le 1
    omega

def blockedRun : List Act :=
  [.enter .send (note 1) true, .call 0, .sendNow 0 .other, .enter .trySend (note 2) true, .call 1,
    .sendNow 1 .wouldBlock, .call 1, .build 1 (some 9), .call 1, .call 1, .call 1, .call 1]

/-- One call failed at its `sendmsg`; the other met a full buffer, and queued its message. -/
def oneQueued : World where
  socket := ⟨false, true, []⟩
  sender :=
    { fresh true with
      once := some 0
      boxes := [⟨9, ⟨1, ⟨depth, [⟨0, 1, note 2⟩], 0, true, true⟩, .receiving⟩⟩]
      calls := [⟨.send, note 1, true, .returned .closed⟩,
        ⟨.trySend, note 2, true, .returned .ok⟩] }

theorem oneQueued_run : exec (machine 0) anyStep blocked blockedRun = some oneQueued := by
  decide

theorem sends_are_atomic_oneQueued :
    Atomic 0 blocked oneQueued blockedRun 0 ⟨.send, note 1, true, .returned .closed⟩ ∧
      Atomic 0 blocked oneQueued blockedRun 1 ⟨.trySend, note 2, true, .returned .ok⟩ :=
  ⟨sends_are_atomic blocked_init oneQueued_run rfl, sends_are_atomic blocked_init oneQueued_run rfl⟩

end Atomicity
