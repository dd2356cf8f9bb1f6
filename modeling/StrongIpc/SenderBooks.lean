import StrongIpc.BacklogBounds
import StrongIpc.Delivery

/-!
# A sender's books

What holds of the outboxes of a sender in every run and is only needed to see that no call
gets stuck: that counts and permits are exactly those of calls inside, where a call can be
after the race for the `OnceLock`, and who can have an outbox that can still be sent to.
-/

namespace RefSender

open BoundedChannel OutboxTraffic Roster StepMachine Wire

/-! ## What the outboxes have on their books -/

/-- What the call has of something that is had inside outbox `o` only. -/
def Call.holds (f : Op → Nat) (o : Nat) (c : Call) : Nat :=
  match c.stage with
  | .queueing p op => if p = o then f op else 0
  | _ => 0

def held (f : Op → Nat) (calls : List Call) (o : Nat) : Nat := total (Call.holds f o) calls

/-- Nobody has it who has only just come in, or who is out again. -/
structure Inside (f : Op → Nat) : Prop where
  starts : ∀ next : Next, f next.op = 0
  ends : ∀ r, f (.done r) = 0

theorem inside_permits : Inside Backlog.Op.permits where
  starts next := by cases next <;> rfl
  ends _ := rfl

theorem inside_claims : Inside Op.claims where
  starts := next_claims
  ends _ := rfl

theorem holds_idle {f : Op → Nat} {c : Call}
    (nothing : ∀ p op, c.stage = .queueing p op → f op = 0) (o : Nat) : Call.holds f o c = 0 := by
  rw [Call.holds]
  split
  · rename_i p op hs
    rw [nothing p op hs, ite_self]
  · rfl

theorem holds_settle {f : Op → Nat} (h : Inside f) (c : Call) (o p : Nat) (op : Op) :
    Call.holds f p { c with stage := settle c.kind o op } = if o = p then f op else 0 := by
  cases op with
  | done r =>
    rw [h.ends, ite_self]
    refine holds_idle (fun q op' inside => ?_) p
    cases r with
    | refused e => cases e <;> cases hk : c.kind <;> simp [settle, hk] at inside
    | _ => cases inside
  | _ => rfl

/-- The call had nothing of it, and has nothing then. -/
theorem held_restage {f : Op → Nat} {calls : List Call} {i : Nat} {c : Call} {stage : Stage}
    (hc : calls[i]? = some c) (before : ∀ p op, c.stage = .queueing p op → f op = 0)
    (after : ∀ p op, stage = .queueing p op → f op = 0) (o : Nat) :
    held f (calls.set i { c with stage }) o = held f calls o := by
  refine total_set_same (Call.holds f o) hc ?_
  rw [holds_idle before, holds_idle after]

theorem held_settle {f : Op → Nat} (h : Inside f) {calls : List Call} {i o : Nat} {c : Call}
    {op : Op} (hc : calls[i]? = some c) (hs : c.stage = .queueing o op) (op' : Op) (p : Nat) :
    held f (calls.set i { c with stage := settle c.kind o op' }) p +
        (if o = p then f op else 0) = held f calls p + if o = p then f op' else 0 := by
  have traded := total_set (Call.holds f p) { c with stage := settle c.kind o op' } hc
  have had : Call.holds f p c = if o = p then f op else 0 := by rw [Call.holds, hs]
  rw [holds_settle h, had] at traded
  exact traded

/-- As long as somebody receives, `pending` is what is queued, in hand or claimed, and each
permit is some call's. -/
structure Ledger (calls : List Call) (o : Nat) (b : Outbox Sent) : Prop where
  capacity : b.channel.capacity = depth
  permits : b.channel.permits = held Backlog.Op.permits calls o
  pending : b.drain ≠ .ended → b.pending = b.counted + held Op.claims calls o

def Booked (s : Sender) : Prop :=
  ∀ (o : Nat) (b : Box), s.boxes[o]? = some b → Ledger s.calls o b.outbox

theorem Ledger.same {calls calls' : List Call} {o : Nat} {b : Outbox Sent} (h : Ledger calls o b)
    (same : ∀ {f : Op → Nat}, Inside f → held f calls' o = held f calls o) :
    Ledger calls' o b where
  capacity := h.capacity
  permits := h.permits.trans (same inside_permits).symm
  pending going := (same inside_claims).symm ▸ h.pending going

theorem Ledger.close {calls : List Call} {o : Nat} {b : Outbox Sent} (h : Ledger calls o b)
    (receives : b.channel.receiving = false ↔ b.drain = .ended) :
    Ledger calls o (closeBox b).1 := by
  obtain ⟨pending, drain, _, _, queue⟩ := closeBox_spec b
  have slots : (closeBox b).1.channel.capacity = b.channel.capacity ∧
      (closeBox b).1.channel.permits = b.channel.permits := by
    rw [closeBox]
    split <;> exact ⟨rfl, rfl⟩
  refine ⟨slots.1.trans h.capacity, slots.2.trans h.permits, fun going => ?_⟩
  have alive : b.channel.receiving = true := by
    by_contra gone
    exact going (drain.trans (receives.mp (Bool.eq_false_iff.mpr gone)))
  rw [if_pos alive] at queue
  rw [pending, h.pending (drain ▸ going), Outbox.counted, Outbox.counted, drain, queue]

theorem Ledger.drain {calls : List Call} {o : Nat} {b x : Outbox Sent} {a : DrainAct}
    (h : Ledger calls o b) (hm : DrainMove b a x) : Ledger calls o x := by
  have slots : x.channel.capacity = b.channel.capacity ∧
      x.channel.permits = b.channel.permits := by
    cases hm <;> exact ⟨rfl, rfl⟩
  refine ⟨slots.1.trans h.capacity, slots.2.trans h.permits, fun going => ?_⟩
  obtain ⟨before, ended⟩ := hm.ended_iff
  have goes_on : a.isLast = false := by simpa [ended] using going
  have after := hm.balance (h.pending before)
  rwa [strands_none goes_on] at after

/-- What the call gives or takes in the outbox is put down to it. -/
theorem Ledger.settle {calls : List Call} {i o : Nat} {c : Call} {op op' : Op}
    {b x : Outbox Sent} (h : Ledger calls o b) (hc : calls[i]? = some c)
    (hs : c.stage = .queueing o op)
    (shift : Backlog.Op.permits op ≤ b.channel.permits → Backlog.Shift b op x op')
    (fair : ∀ slack, b.pending = b.counted + op.claims + slack →
      x.pending = x.counted + op'.claims + slack) :
    Ledger (calls.set i { c with stage := settle c.kind o op' }) o x := by
  have trade : ∀ {f : Op → Nat}, Inside f →
      held f (calls.set i { c with stage := RefSender.settle c.kind o op' }) o + f op =
        held f calls o + f op' ∧ f op ≤ held f calls o := by
    intro f inside
    have traded := held_settle inside hc hs op' o
    have own := le_total (Call.holds f o) hc
    rw [if_pos rfl, if_pos rfl] at traded
    simp only [Call.holds, hs, if_true] at own
    exact ⟨traded, own⟩
  obtain ⟨permits, own⟩ := trade inside_permits
  obtain ⟨claims, claimed⟩ := trade inside_claims
  have move := shift (h.permits ▸ own)
  refine ⟨move.capacity.trans h.capacity, ?_, fun going => ?_⟩
  · have moved := move.permits
    have before := h.permits
    omega
  · have before := h.pending (move.drain ▸ going)
    have after := fair (held Op.claims calls o - op.claims) (by omega)
    omega

theorem Booked.restage {s : Sender} (h : Booked s) {i : Nat} {c : Call} (stage : Stage)
    (hc : s.calls[i]? = some c)
    (before : ∀ {f : Op → Nat}, Inside f → ∀ p op, c.stage = .queueing p op → f op = 0)
    (after : ∀ {f : Op → Nat}, Inside f → ∀ p op, stage = .queueing p op → f op = 0) :
    Booked (s.setStage i c stage) := by
  intro o b hb
  exact (h o b hb).same fun inside => held_restage hc (before inside) (after inside) o

theorem Booked.setBox {s : Sender} (h : Booked s) {o : Nat} {b : Box} {x : Outbox Sent}
    (hb : s.boxes[o]? = some b) (new : Ledger s.calls o b.outbox → Ledger s.calls o x) :
    Booked (s.setBox o b x) := by
  intro p b' hb'
  rcases getElem?_set_cases hb' with ⟨rfl, rfl⟩ | ⟨_, old⟩
  · exact new (h p b hb)
  · exact h p b' old

theorem Booked.settle {s : Sender} (h : Booked s) {i o : Nat} {c : Call} {op op' : Op} {b : Box}
    {x : Outbox Sent} (hc : s.calls[i]? = some c) (hs : c.stage = .queueing o op)
    (hb : s.boxes[o]? = some b)
    (shift : Backlog.Op.permits op ≤ b.outbox.channel.permits → Backlog.Shift b.outbox op x op')
    (fair : ∀ slack, b.outbox.pending = b.outbox.counted + op.claims + slack →
      x.pending = x.counted + op'.claims + slack) :
    Booked ((s.setBox o b x).setStage i c (settle c.kind o op')) := by
  intro p b' hb'
  rcases getElem?_set_cases hb' with ⟨rfl, rfl⟩ | ⟨other, old⟩
  · exact (h p b hb).settle hc hs shift fair
  · refine (h p b' old).same fun {f} inside => ?_
    have traded := held_settle inside hc hs op' p
    rw [if_neg (Ne.symm other), if_neg (Ne.symm other)] at traded
    exact traded

/-- Nobody is inside an outbox that there is not yet. -/
theorem held_unbuilt {s : Sender} (h : Linked s) {f : Op → Nat} :
    held f s.calls s.boxes.length = 0 := by
  refine total_eq_zero fun c hc => ?_
  obtain ⟨i, hi⟩ := List.getElem?_of_mem hc
  rw [Call.holds]
  split
  · rename_i p op hs
    have built := h.once_built p (h.queueing_once hi hs)
    rw [if_neg (by omega)]
  · rfl

theorem booked_step {me : Nat} {w w' : World} {a : Act} (hl : Linked w.sender)
    (hs : Sound w.sender) (h : Booked w.sender) (m : Move me w a w') : Booked w'.sender := by
  cases m with
  | enter kind m onRuntime alive =>
    intro o b hb
    refine (h o b hb).same fun {f} inside => ?_
    simp [held, addCall_calls, Call.holds]
  | walk i c stage hc hw =>
    obtain ⟨_, _, opens, outside⟩ := walk_spec hw
    refine h.restage _ hc (fun _ p op hs => absurd hs (outside p op)) (fun inside p op hs => ?_)
    obtain ⟨next, rfl⟩ := opens p op hs
    exact inside.starts next
  | set i c next o hc hst unset =>
    have moved : Booked (w.sender.setStage i c (.gotten next)) :=
      h.restage _ hc (by simp [hst]) (by simp)
    exact moved
  | lose i c next o b hc hst hb =>
    have closed := h.setBox hb fun ledger => ledger.close (hs o b hb).receiving
    have moved := closed.restage (.gotten next) hc (by simp [hst]) (by simp)
    exact moved
  | queue i c o op op' b x hc hst hb hm =>
    exact h.settle hc hst hb (fun own => Backlog.opMove_shift hm own) fun _ => hm.balance
  | inline i c r k hc hst hk =>
    have moved := h.restage (afterInline r) hc (by simp [hst])
      (by cases r <;> simp [afterInline])
    exact moved
  | built i c next d hc hst =>
    have grown : Booked (w.sender.addBox d) := by
      intro o b hb
      rcases getElem?_push_cases hb with ⟨rfl, rfl⟩ | old
      · have nobody : ∀ {f : Op → Nat}, held f w.sender.calls w.sender.boxes.length = 0 :=
          held_unbuilt hl
        exact ⟨rfl, nobody.symm, fun _ => by rw [addBox_calls, nobody]; rfl⟩
      · exact h o b old
    exact grown.restage _ hc (by simp [hst]) (by simp)
  | buildFailed i c next hc hst => exact h.restage _ hc (by simp [hst]) (by simp)
  | noRuntime i c next dup hc hst bare =>
    have moved := h.restage .panicked hc (by simp [hst]) (by simp)
    exact moved
  | grant i c o op op' b x hc hst hb hm =>
    exact h.settle hc hst hb (fun own => Backlog.parkMove_shift hm own) (park_fair hm)
  | cancel i c o op op' b x hc hst hb hm =>
    have moved := h.settle hc hst hb (fun own => Backlog.parkMove_shift hm own) (park_fair hm)
    exact moved
  | take i c r hc hst failed =>
    have moved := h.restage .taken hc (by simp [hst]) (by simp)
    exact moved
  | drain o a b k x hb hk hm =>
    have moved := h.setBox hb fun ledger => ledger.drain hm
    exact moved
  | release o b alive allOver hset hb =>
    have closed := h.setBox hb fun ledger => ledger.close (hs o b hb).receiving
    exact closed
  | _ => exact h

theorem booked {me : Nat} {guard : World → Act → Prop} {w : World}
    (h : Reachable (machine me) guard w) : Booked w.sender := by
  refine reachable_invariant_with (Q := Upkeep me) (P := fun w => Booked w.sender)
    (fun _ => upkeep) ?_ ?_ h
  · rintro w ⟨runtime, hw, _⟩ o b hb
    simp [hw, fresh] at hb
  · intro w a w' hu hb _ hstep
    exact booked_step hu.linked hu.sound hb (step_move hstep)

/-! ## Where a call can be -/

/-- The call has lost the race to set the `OnceLock`, or won it. -/
def Stage.raced : Stage → Bool
  | .losing _ _ | .gotten _ => true
  | _ => false

def Stage.isDone : Stage → Bool
  | .queueing _ (.done _) => true
  | _ => false

structure Placed (s : Sender) (c : Call) : Prop where
  settled : c.stage.isDone = false
  raced : c.stage.raced = true → s.once ≠ none
  inline : c.stage = .inline → c.message.fds.length ≤ maxFds

def AllPlaced (s : Sender) : Prop := ∀ c ∈ s.calls, Placed s c

theorem settle_placed (kind : Kind) (o : Nat) (op : Op) :
    (settle kind o op).isDone = false ∧ (settle kind o op).raced = false ∧
      settle kind o op ≠ .inline := by
  cases op with
  | done r =>
    cases r with
    | refused e => cases e <;> cases kind <;> exact ⟨rfl, rfl, by simp [settle]⟩
    | _ => exact ⟨rfl, rfl, by simp [settle]⟩
  | _ => exact ⟨rfl, rfl, by simp [settle]⟩

theorem walk_placed {s : Sender} {c : Call} {stage : Stage} (h : s.walk c = some stage) :
    stage.isDone = false ∧ (stage.raced = true → s.once ≠ none) := by
  have opens := (walk_spec h).2.2.1
  constructor
  · cases stage with
    | queueing o op =>
      obtain ⟨next, rfl⟩ := opens o op rfl
      cases next <;> rfl
    | _ => rfl
  · intro raced
    cases stage with
    | losing next o =>
      rw [Sender.walk] at h
      split at h
      case h_4 =>
        split at h
        · cases h
        · rename_i once
          simp [once]
      all_goals grind
    | gotten next => rw [Sender.walk] at h; grind
    | _ => cases raced

theorem AllPlaced.restage {s t : Sender} (h : AllPlaced s) {i : Nat} {c : Call} (stage : Stage)
    (ht : t.calls = s.calls.set i { c with stage }) (once : s.once ≠ none → t.once ≠ none)
    (settled : stage.isDone = false) (raced : stage.raced = true → t.once ≠ none)
    (inline : stage = .inline → c.message.fds.length ≤ maxFds) : AllPlaced t := by
  intro d hd
  rw [ht] at hd
  rcases List.mem_or_eq_of_mem_set hd with old | rfl
  · obtain ⟨settled, raced, inline⟩ := h d old
    exact ⟨settled, fun late => once (raced late), inline⟩
  · exact ⟨settled, raced, inline⟩

theorem placed_step {me : Nat} {w w' : World} {a : Act} (h : AllPlaced w.sender)
    (m : Move me w a w') : AllPlaced w'.sender := by
  cases m with
  | enter kind m onRuntime alive =>
    intro c hc
    rcases List.mem_append.mp hc with old | new
    · exact ⟨(h c old).settled, (h c old).raced, (h c old).inline⟩
    · rw [List.mem_singleton.mp new]
      exact ⟨rfl, by simp [Stage.raced], by simp⟩
  | walk i c stage hc hw =>
    obtain ⟨settled, raced⟩ := walk_placed hw
    exact h.restage _ rfl id settled raced (walk_quiet hw).2
  | set i c next o hc hs unset =>
    exact h.restage (.gotten next) rfl (by simp) rfl (by simp) (by simp)
  | lose i c next o b hc hs hb =>
    have once := (h c (List.mem_of_getElem? hc)).raced (by rw [hs]; rfl)
    exact h.restage (.gotten next) rfl id rfl (fun _ => once) (by simp)
  | queue i c o op op' b x hc hs hb hm =>
    obtain ⟨settled, early, past⟩ := settle_placed c.kind o op'
    exact h.restage _ rfl id settled (by simp [early]) fun inline => absurd inline past
  | inline i c r k hc hs hk =>
    exact h.restage (afterInline r) rfl id (by cases r <;> rfl)
      (by cases r <;> simp [afterInline, Stage.raced]) (by cases r <;> simp [afterInline])
  | built i c next d hc hs =>
    exact h.restage (.setting next _) rfl id rfl (by simp [Stage.raced]) (by simp)
  | buildFailed i c next hc hs =>
    exact h.restage (.returned .closed) rfl id rfl (by simp [Stage.raced]) (by simp)
  | noRuntime i c next dup hc hs bare =>
    exact h.restage .panicked rfl id rfl (by simp [Stage.raced]) (by simp)
  | grant i c o op op' b x hc hs hb hm =>
    obtain ⟨settled, early, past⟩ := settle_placed c.kind o op'
    exact h.restage _ rfl id settled (by simp [early]) fun inline => absurd inline past
  | cancel i c o op op' b x hc hs hb hm =>
    obtain ⟨settled, early, past⟩ := settle_placed c.kind o op'
    exact h.restage _ rfl id settled (by simp [early]) fun inline => absurd inline past
  | take i c r hc hs failed =>
    exact h.restage .taken rfl id rfl (by simp [Stage.raced]) (by simp)
  | _ => exact fun c hc => ⟨(h c hc).settled, (h c hc).raced, (h c hc).inline⟩

theorem allPlaced {me : Nat} {guard : World → Act → Prop} {w : World}
    (h : Reachable (machine me) guard w) : AllPlaced w.sender := by
  refine reachable_invariant (P := fun w => AllPlaced w.sender) ?_ ?_ h
  · rintro w ⟨runtime, hw, _⟩ c hc
    simp [hw, fresh] at hc
  · intro w a w' hp _ hstep
    exact placed_step hp (step_move hstep)

/-! ## Who has an outbox -/

/-- An outbox to which there is a sender is the one that all use, or somebody's who may still
put it there. -/
def Tended (s : Sender) : Prop :=
  ∀ (o : Nat) (b : Box), s.boxes[o]? = some b → b.outbox.channel.sending = true →
    (s.once = some o ∧ s.alive = true) ∨
      ∃ (i : Nat) (c : Call), s.calls[i]? = some c ∧ c.stage.owns = some o

theorem sending_back {me : Nat} {w : World} {a : Act} {o : Nat} {b x : Outbox Sent}
    (hm : BoxMove me w o b a x) (sends : x.channel.sending = true) : b.channel.sending = true := by
  cases hm with
  | still => exact sends
  | queue i c op op' _ hc hs hm => exact hm.effect.2.1.symm.trans sends
  | park _ i c op op' _ hc hs hm => exact hm.effect.2.2.2.1.symm.trans sends
  | drain a _ hm => cases hm <;> exact sends
  | lost _ i c next hc hs =>
    rw [(closeBox_spec b).2.2.2.1] at sends
    cases sends
  | released alive allOver hset =>
    rw [(closeBox_spec b).2.2.2.1] at sends
    cases sends

/-- A call that has an outbox keeps it, puts it where all find it, or closes it. -/
theorem owns_next {me : Nat} {w w' : World} {a : Act} (m : Move me w a w') {i o : Nat} {c : Call}
    (hl : Linked w.sender) (hc : w.sender.calls[i]? = some c) (owned : c.stage.owns = some o) :
    (∃ c', w'.sender.calls[i]? = some c' ∧ c'.stage.owns = some o) ∨
      (w'.sender.once = some o ∧ w'.sender.alive = true) ∨
      ∀ b, w'.sender.boxes[o]? = some b → b.outbox.channel.sending = false := by
  have living : w.sender.alive = true := by
    refine hl.alive_of_call hc ?_
    cases hs : c.stage <;> simp_all [Stage.owns, Stage.isOver]
  have restaged : ∀ {j : Nat} {d : Call} {stage : Stage}, w.sender.calls[j]? = some d →
      (d.stage.owns = none ∨ stage.owns = d.stage.owns) →
        ∃ c', (w.sender.calls.set j { d with stage })[i]? = some c' ∧
          c'.stage.owns = some o := by
    intro j d stage hd keeps
    by_cases here : j = i
    · subst here
      obtain rfl : d = c := Option.mem_unique hd hc
      refine ⟨_, List.getElem?_set_self (lt_of_getElem? hd), ?_⟩
      rcases keeps with nothing | same
      · rw [nothing] at owned
        cases owned
      · exact same.trans owned
    · exact ⟨c, (List.getElem?_set_ne here).trans hc, owned⟩
  cases m with
  | enter kind m onRuntime alive =>
    exact Or.inl ⟨c, (List.getElem?_append_left (lt_of_getElem? hc)).trans hc, owned⟩
  | walk j d stage hd hw => exact Or.inl (restaged hd (Or.inr (walk_spec hw).2.1))
  | set j d next p hd hs unset =>
    by_cases here : j = i
    · subst here
      obtain rfl : d = c := Option.mem_unique hd hc
      rw [hs] at owned
      obtain rfl := Option.some.inj owned
      exact Or.inr (Or.inl ⟨rfl, living⟩)
    · exact Or.inl ⟨c, (List.getElem?_set_ne here).trans hc, owned⟩
  | lose j d next p b hd hs hb =>
    by_cases here : j = i
    · subst here
      obtain rfl : d = c := Option.mem_unique hd hc
      rw [hs] at owned
      obtain rfl := Option.some.inj owned
      refine Or.inr (Or.inr fun b' hb' => ?_)
      rcases getElem?_set_cases hb' with ⟨_, rfl⟩ | ⟨other, _⟩
      · exact (closeBox_spec b.outbox).2.2.2.1
      · exact absurd rfl other
    · exact Or.inl ⟨c, (List.getElem?_set_ne here).trans hc, owned⟩
  | queue j d p op op' b x hd hs hb hm => exact Or.inl (restaged hd (Or.inl (by rw [hs]; rfl)))
  | inline j d r k hd hs hk => exact Or.inl (restaged hd (Or.inl (by rw [hs]; rfl)))
  | built j d next fd hd hs => exact Or.inl (restaged hd (Or.inl (by rw [hs]; rfl)))
  | buildFailed j d next hd hs => exact Or.inl (restaged hd (Or.inl (by rw [hs]; rfl)))
  | noRuntime j d next dup hd hs bare => exact Or.inl (restaged hd (Or.inl (by rw [hs]; rfl)))
  | grant j d p op op' b x hd hs hb hm => exact Or.inl (restaged hd (Or.inl (by rw [hs]; rfl)))
  | cancel j d p op op' b x hd hs hb hm => exact Or.inl (restaged hd (Or.inl (by rw [hs]; rfl)))
  | take j d r hd hs failed => exact Or.inl (restaged hd (Or.inl (by rw [hs]; rfl)))
  | _ => exact Or.inl ⟨c, hc, owned⟩

/-- What all use stays so until the last of them is gone, who closes it. -/
theorem once_next {me : Nat} {w w' : World} {a : Act} (m : Move me w a w') {o : Nat}
    (once : w.sender.once = some o) (alive : w.sender.alive = true) :
    (w'.sender.once = some o ∧ w'.sender.alive = true) ∨
      ∀ b, w'.sender.boxes[o]? = some b → b.outbox.channel.sending = false := by
  cases m with
  | set j d next p hd hs unset =>
    rw [unset] at once
    cases once
  | releaseBare alive allOver unset =>
    rw [unset] at once
    cases once
  | release p b alive allOver hset hb =>
    obtain rfl := Option.some.inj (hset.symm.trans once)
    refine Or.inr fun b' hb' => ?_
    rcases getElem?_set_cases hb' with ⟨_, rfl⟩ | ⟨other, _⟩
    · exact (closeBox_spec b.outbox).2.2.2.1
    · exact absurd rfl other
  | _ => exact Or.inl ⟨once, alive⟩

theorem tended_step {me : Nat} {w w' : World} {a : Act} (hl : Linked w.sender)
    (h : Tended w.sender) (m : Move me w a w') : Tended w'.sender := by
  intro o b' hb' sends
  have shut : ¬ ∀ b, w'.sender.boxes[o]? = some b → b.outbox.channel.sending = false := by
    intro closed
    rw [closed b' hb'] at sends
    cases sends
  rcases box_move m hb' with ⟨d, _, last⟩ | ⟨b, hb, _, hm⟩
  · -- there was no such outbox, so that somebody has just built it
    cases m with
    | built i c next fd hc hs =>
      refine Or.inr ⟨i, _, List.getElem?_set_self (lt_of_getElem? hc), ?_⟩
      rw [last]
      rfl
    | _ => exact absurd (lt_of_getElem? hb') (by simp [last])
  · rcases h o b hb (sending_back hm sends) with ⟨once, alive⟩ | ⟨i, c, hc, owned⟩
    · exact (once_next m once alive).elim Or.inl fun closed => absurd closed shut
    · rcases owns_next m hl hc owned with ⟨c', hc', mine⟩ | used | closed
      · exact Or.inr ⟨i, c', hc', mine⟩
      · exact Or.inl used
      · exact absurd closed shut

theorem tended {me : Nat} {guard : World → Act → Prop} {w : World}
    (h : Reachable (machine me) guard w) : Tended w.sender := by
  refine reachable_invariant_with (Q := Upkeep me) (P := fun w => Tended w.sender)
    (fun _ => upkeep) ?_ ?_ h
  · rintro w ⟨runtime, hw, _⟩ o b hb
    simp [hw, fresh] at hb
  · intro w a w' hu ht _ hstep
    exact tended_step hu.linked ht (step_move hstep)

end RefSender
