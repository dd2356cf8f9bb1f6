import StrongIpc.Sender

/-!
# What holds of a sender in every reachable state

Who may use which outbox, who has its `Sender` half, that an outbox nobody was
given is untouched, and that `pending` never falls below what is waiting. These
hold in every run, whatever the kernel answers.
-/

namespace RefSender

open BoundedChannel OutboxTraffic Roster StepMachine Wire

/-- The outbox a call was given by the `OnceLock`. -/
def Stage.uses : Stage → Option Nat
  | .gate o => some o
  | .queueing o _ => some o
  | _ => none

/-- The outbox a call built and has not put anywhere yet. -/
def Stage.owns : Stage → Option Nat
  | .setting _ o => some o
  | .losing _ o => some o
  | _ => none

@[simp] theorem setStage_boxes (s : Sender) (i : Nat) (c : Call) (stage : Stage) :
    (s.setStage i c stage).boxes = s.boxes := rfl
@[simp] theorem setStage_once (s : Sender) (i : Nat) (c : Call) (stage : Stage) :
    (s.setStage i c stage).once = s.once := rfl
@[simp] theorem setStage_calls (s : Sender) (i : Nat) (c : Call) (stage : Stage) :
    (s.setStage i c stage).calls = s.calls.set i { c with stage } := rfl
@[simp] theorem setBox_calls (s : Sender) (o : Nat) (b : Box) (x : Outbox Sent) :
    (s.setBox o b x).calls = s.calls := rfl
@[simp] theorem setBox_once (s : Sender) (o : Nat) (b : Box) (x : Outbox Sent) :
    (s.setBox o b x).once = s.once := rfl
@[simp] theorem setBox_boxes (s : Sender) (o : Nat) (b : Box) (x : Outbox Sent) :
    (s.setBox o b x).boxes = s.boxes.set o { b with outbox := x } := rfl
@[simp] theorem discard_boxes (s : Sender) (ms : List Message) :
    (s.discard ms).boxes = s.boxes := rfl
@[simp] theorem discard_once (s : Sender) (ms : List Message) :
    (s.discard ms).once = s.once := rfl
@[simp] theorem discard_calls (s : Sender) (ms : List Message) :
    (s.discard ms).calls = s.calls := rfl

@[simp] theorem setOnce_boxes (s : Sender) (o : Nat) : (s.setOnce o).boxes = s.boxes := rfl
@[simp] theorem setOnce_calls (s : Sender) (o : Nat) : (s.setOnce o).calls = s.calls := rfl
@[simp] theorem setOnce_once (s : Sender) (o : Nat) : (s.setOnce o).once = some o := rfl
@[simp] theorem addBox_boxes (s : Sender) (d : Nat) :
    (s.addBox d).boxes = s.boxes ++ [⟨d, OutboxTraffic.build⟩] := rfl
@[simp] theorem addBox_calls (s : Sender) (d : Nat) : (s.addBox d).calls = s.calls := rfl
@[simp] theorem addBox_once (s : Sender) (d : Nat) : (s.addBox d).once = s.once := rfl
@[simp] theorem addCall_boxes (s : Sender) (c : Call) : (s.addCall c).boxes = s.boxes := rfl
@[simp] theorem addCall_calls (s : Sender) (c : Call) : (s.addCall c).calls = s.calls ++ [c] := rfl
@[simp] theorem addCall_once (s : Sender) (c : Call) : (s.addCall c).once = s.once := rfl
@[simp] theorem retire_boxes (s : Sender) : s.retire.boxes = s.boxes := rfl
@[simp] theorem retire_calls (s : Sender) : s.retire.calls = s.calls := rfl
@[simp] theorem retire_once (s : Sender) : s.retire.once = s.once := rfl

@[simp] theorem next_claims (next : Next) : next.op.claims = 0 := by
  cases next <;> rfl

/-! ## Moves of a call on its own -/

/-- A walk ends where a call uses no outbox or the one in the `OnceLock`, with no
count claimed, and owning what it owned. -/
theorem walk_spec {s : Sender} {c : Call} {stage : Stage} (h : s.walk c = some stage) :
    (stage.uses = none ∨ stage.uses = s.once) ∧ stage.owns = c.stage.owns ∧
      (∀ o op, stage = .queueing o op → ∃ next : Next, op = next.op) ∧
      (∀ o op, c.stage ≠ .queueing o op) := by
  rw [Sender.walk] at h
  split at h
  case h_1 hs =>
    split at h
    · cases h
      simp [hs, Stage.uses, Stage.owns]
    · split at h
      · cases h
        cases inlineOk c.message false <;> simp [hs, Stage.uses, Stage.owns]
      · rename_i o once
        cases h
        simp [hs, Stage.uses, Stage.owns, once]
  case h_2 o hs =>
    split at h
    · cases h
    · rename_i b _
      cases h
      cases inlineOk c.message b.outbox.isBackedUp <;> simp [hs, Stage.uses, Stage.owns]
  case h_3 next hs =>
    split at h
    · cases h
      simp [hs, Stage.uses, Stage.owns]
    · rename_i o once
      cases h
      refine ⟨Or.inr once.symm, by simp [hs, Stage.owns], ?_, by simp [hs]⟩
      intro o' op same
      obtain ⟨_, rfl⟩ := Stage.queueing.inj same
      exact ⟨next, rfl⟩
  case h_4 next o hs =>
    split at h
    · cases h
    · cases h
      simp [hs, Stage.uses, Stage.owns]
  case h_5 next hs =>
    split at h
    · cases h
    · rename_i o once
      cases h
      refine ⟨Or.inr once.symm, by simp [hs, Stage.owns], ?_, by simp [hs]⟩
      intro o' op same
      obtain ⟨_, rfl⟩ := Stage.queueing.inj same
      exact ⟨next, rfl⟩
  case h_6 => cases h

theorem settle_owns (kind : Kind) (o : Nat) (op : Op) : (settle kind o op).owns = none := by
  cases op with
  | done r =>
    cases r with
    | refused e => cases e <;> cases kind <;> rfl
    | _ => rfl
  | _ => rfl

theorem settle_uses (kind : Kind) (o : Nat) (op : Op) :
    (settle kind o op).uses = none ∨ (settle kind o op).uses = some o := by
  cases op with
  | done r =>
    cases r with
    | refused e => cases e <;> cases kind <;> exact Or.inl rfl
    | _ => exact Or.inl rfl
  | _ => exact Or.inr rfl

theorem afterInline_spec (r : SendResult) :
    (afterInline r).uses = none ∧ (afterInline r).owns = none := by
  cases r <;> exact ⟨rfl, rfl⟩

/-! ## Who may use which outbox -/

structure Linked (s : Sender) : Prop where
  once_built : ∀ o, s.once = some o → o < s.boxes.length
  uses_once : ∀ (i : Nat) c o, s.calls[i]? = some c → c.stage.uses = some o → s.once = some o
  owns_built : ∀ (i : Nat) c o, s.calls[i]? = some c → c.stage.owns = some o →
    o < s.boxes.length ∧ s.once ≠ some o
  owns_apart : ∀ (i j : Nat) c d o, s.calls[i]? = some c → s.calls[j]? = some d →
    c.stage.owns = some o → d.stage.owns = some o → i = j
  alive : s.alive = true ∨ ∀ c ∈ s.calls, c.stage.isOver = true

theorem fresh_linked (runtime : Bool) : Linked (fresh runtime) where
  once_built := by simp [fresh]
  uses_once := by simp [fresh]
  owns_built := by simp [fresh]
  owns_apart := by simp [fresh]
  alive := Or.inl rfl

/-- A call that is not over keeps the sender alive. -/
theorem Linked.alive_of_call {s : Sender} (h : Linked s) {i : Nat} {c : Call}
    (hc : s.calls[i]? = some c) (busy : c.stage.isOver = false) : s.alive = true := by
  rcases h.alive with living | allOver
  · exact living
  · have done := allOver c (List.mem_of_getElem? hc)
    rw [busy] at done
    cases done

/-- A call inside an outbox is inside the one in the `OnceLock`. -/
theorem Linked.queueing_once {s : Sender} (h : Linked s) {i : Nat} {c : Call} {o : Nat} {op : Op}
    (hc : s.calls[i]? = some c) (hs : c.stage = .queueing o op) : s.once = some o := by
  apply h.uses_once i c o hc
  rw [hs]
  rfl

theorem Linked.queueing_alive {s : Sender} (h : Linked s) {i : Nat} {c : Call} {o : Nat} {op : Op}
    (hc : s.calls[i]? = some c) (hs : c.stage = .queueing o op) : s.alive = true := by
  apply h.alive_of_call hc
  rw [hs]
  rfl

/-- A call moves on; what it owns then is in nobody else's hands. -/
theorem Linked.setStage {s : Sender} (h : Linked s) (i : Nat) (c : Call) (stage : Stage)
    (uses : ∀ o, stage.uses = some o → s.once = some o)
    (owns : ∀ o, stage.owns = some o → o < s.boxes.length ∧ s.once ≠ some o ∧
      ∀ (j : Nat) d, j ≠ i → s.calls[j]? = some d → d.stage.owns ≠ some o)
    (alive : s.alive = true ∨ stage.isOver = true) : Linked (s.setStage i c stage) where
  once_built := h.once_built
  uses_once := by
    intro j d o hj hu
    rcases getElem?_set_cases hj with ⟨_, rfl⟩ | ⟨_, hj⟩
    · exact uses o hu
    · exact h.uses_once j d o hj hu
  owns_built := by
    intro j d o hj ho
    rcases getElem?_set_cases hj with ⟨_, rfl⟩ | ⟨_, hj⟩
    · obtain ⟨built, unset, _⟩ := owns o ho
      exact ⟨built, unset⟩
    · exact h.owns_built j d o hj ho
  owns_apart := by
    intro j k d e o hj hk hd he
    rcases getElem?_set_cases hj with ⟨hi, hd'⟩ | ⟨other, old⟩
    · subst hd'
      rcases getElem?_set_cases hk with ⟨hi', _⟩ | ⟨other, old⟩
      · exact hi.trans hi'.symm
      · exact absurd he ((owns o hd).2.2 k e other old)
    · rcases getElem?_set_cases hk with ⟨_, he'⟩ | ⟨_, old'⟩
      · subst he'
        exact absurd hd ((owns o he).2.2 j d other old)
      · exact h.owns_apart j k d e o old old' hd he
  alive := by
    rcases h.alive with living | allOver
    · exact Or.inl living
    · rcases alive with living | done
      · exact Or.inl living
      · apply Or.inr
        intro d hd
        rcases List.mem_or_eq_of_mem_set hd with old | rfl
        · exact allOver d old
        · exact done

/-- The same for a call that keeps what it owns or lets go of it. -/
theorem Linked.setStage_keep {s : Sender} (h : Linked s) {i : Nat} {c : Call}
    (hc : s.calls[i]? = some c) (stage : Stage)
    (uses : ∀ o, stage.uses = some o → s.once = some o)
    (owns : stage.owns = none ∨ stage.owns = c.stage.owns)
    (alive : s.alive = true ∨ stage.isOver = true) : Linked (s.setStage i c stage) := by
  refine h.setStage i c stage uses ?_ alive
  intro o ho
  rcases owns with nothing | same
  · rw [nothing] at ho
    cases ho
  · have mine : c.stage.owns = some o := same ▸ ho
    obtain ⟨built, unset⟩ := h.owns_built i c o hc mine
    refine ⟨built, unset, fun j d other hj hd => ?_⟩
    exact other (h.owns_apart j i d c o hj hc hd mine)

theorem Linked.setBox {s : Sender} (h : Linked s) (o : Nat) (b : Box) (x : Outbox Sent) :
    Linked (s.setBox o b x) where
  once_built := by simpa using h.once_built
  uses_once := h.uses_once
  owns_built := by simpa using h.owns_built
  owns_apart := h.owns_apart
  alive := h.alive

theorem Linked.addBox {s : Sender} (h : Linked s) (d : Nat) : Linked (s.addBox d) where
  once_built := by
    intro o ho
    have := h.once_built o ho
    simp only [addBox_boxes, List.length_append, List.length_singleton]
    omega
  uses_once := h.uses_once
  owns_built := by
    intro i c o hc ho
    obtain ⟨built, unset⟩ := h.owns_built i c o hc ho
    refine ⟨?_, unset⟩
    simp only [addBox_boxes, List.length_append, List.length_singleton]
    omega
  owns_apart := h.owns_apart
  alive := h.alive

theorem Linked.setOnce {s : Sender} (h : Linked s) (o : Nat) (built : o < s.boxes.length)
    (unset : s.once = none)
    (free : ∀ (i : Nat) c, s.calls[i]? = some c → c.stage.owns ≠ some o) :
    Linked (s.setOnce o) where
  once_built := by
    rintro o' ⟨⟩
    exact built
  uses_once := by
    intro i c o' hc hu
    have impossible := h.uses_once i c o' hc hu
    rw [unset] at impossible
    cases impossible
  owns_built := by
    intro i c o' hc ho
    constructor
    · exact (h.owns_built i c o' hc ho).1
    · rintro ⟨⟩
      exact free i c hc ho
  owns_apart := h.owns_apart
  alive := h.alive

theorem Linked.addCall {s : Sender} (h : Linked s) (c : Call) (uses : c.stage.uses = none)
    (owns : c.stage.owns = none) (alive : s.alive = true) : Linked (s.addCall c) where
  once_built := h.once_built
  uses_once := by
    intro j d o hj hu
    rcases getElem?_push_cases hj with ⟨_, rfl⟩ | hj
    · rw [uses] at hu
      cases hu
    · exact h.uses_once j d o hj hu
  owns_built := by
    intro j d o hj ho
    rcases getElem?_push_cases hj with ⟨_, rfl⟩ | hj
    · rw [owns] at ho
      cases ho
    · exact h.owns_built j d o hj ho
  owns_apart := by
    intro j k d e o hj hk hd he
    rcases getElem?_push_cases hj with ⟨_, rfl⟩ | hj
    · rw [owns] at hd
      cases hd
    · rcases getElem?_push_cases hk with ⟨_, rfl⟩ | hk
      · rw [owns] at he
        cases he
      · exact h.owns_apart j k d e o hj hk hd he
  alive := Or.inl alive

theorem Linked.retire {s : Sender} (h : Linked s)
    (allOver : ∀ c ∈ s.calls, c.stage.isOver = true) : Linked s.retire :=
  ⟨h.once_built, h.uses_once, h.owns_built, h.owns_apart, Or.inr allOver⟩

theorem Linked.discard {s : Sender} (h : Linked s) (ms : List Message) : Linked (s.discard ms) :=
  ⟨h.once_built, h.uses_once, h.owns_built, h.owns_apart, h.alive⟩

theorem walk_busy {s : Sender} {c : Call} {stage : Stage} (h : s.walk c = some stage) :
    c.stage.isOver = false := by
  cases hs : c.stage <;> simp_all [Sender.walk, Stage.isOver]

/-- A call inside the outbox it was given stays inside that one or is done with it. -/
theorem Linked.settled {s : Sender} (h : Linked s) {i : Nat} {c : Call} {o : Nat} {op : Op}
    (hc : s.calls[i]? = some c) (hs : c.stage = .queueing o op) (op' : Op) (b : Box)
    (x : Outbox Sent) : Linked ((s.setBox o b x).setStage i c (settle c.kind o op')) := by
  have once := h.queueing_once hc hs
  have living := h.queueing_alive hc hs
  refine (h.setBox o b x).setStage_keep hc _ ?_ (Or.inl (settle_owns _ _ _)) (Or.inl living)
  intro o' ho
  rcases settle_uses c.kind o op' with unused | own
  · rw [unused] at ho
    cases ho
  · rw [own] at ho
    cases ho
    exact once

theorem linked_step {me : Nat} {w w' : World} {a : Act} (h : Linked w.sender)
    (m : Move me w a w') : Linked w'.sender := by
  cases m with
  | room b => exact h
  | peerClose => exact h
  | other p foreign => exact h
  | enter kind m onRuntime alive => exact h.addCall _ rfl rfl alive
  | walk i c stage hc hw =>
    obtain ⟨uses, owns, _, _⟩ := walk_spec hw
    refine h.setStage_keep hc stage ?_ (Or.inr owns)
      (Or.inl (h.alive_of_call hc (walk_busy hw)))
    intro o ho
    rcases uses with unused | once
    · rw [unused] at ho
      cases ho
    · exact once.symm.trans ho
  | set i c next o hc hs unset =>
    have mine : c.stage.owns = some o := by rw [hs]; rfl
    have moved : Linked (w.sender.setStage i c (.gotten next)) :=
      h.setStage_keep hc _ (by simp [Stage.uses]) (Or.inl rfl)
        (Or.inl (h.alive_of_call hc (by rw [hs]; rfl)))
    apply moved.setOnce o (h.owns_built i c o hc mine).1 unset
    intro j d hj hd
    rcases getElem?_set_cases hj with ⟨_, rfl⟩ | ⟨other, hj⟩
    · cases hd
    · exact other (h.owns_apart j i d c o hj hc hd mine)
  | lose i c next o b hc hs hb =>
    exact ((h.setBox o b (closeBox b.outbox).1).setStage_keep hc (.gotten next)
      (by simp [Stage.uses]) (Or.inl rfl)
      (Or.inl (h.alive_of_call hc (by rw [hs]; rfl)))).discard _
  | queue i c o op op' b outbox hc hs hb hm => exact h.settled hc hs op' b outbox
  | inline i c r k hc hs hk =>
    obtain ⟨uses, owns⟩ := afterInline_spec r
    exact (h.setStage_keep hc (afterInline r) (by simp [uses]) (Or.inl owns)
      (Or.inl (h.alive_of_call hc (by rw [hs]; rfl)))).discard _
  | built i c next d hc hs =>
    refine (h.addBox d).setStage i c (.setting next w.sender.boxes.length)
      (by simp [Stage.uses]) ?_ (Or.inl (h.alive_of_call hc (by rw [hs]; rfl)))
    rintro o ⟨⟩
    refine ⟨by simp, fun once => ?_, fun j e _ hj ho => ?_⟩
    · exact absurd (h.once_built _ once) (by omega)
    · exact absurd (h.owns_built j e _ hj ho).1 (by omega)
  | buildFailed i c next hc hs =>
    exact h.setStage_keep hc (.returned .closed) (by simp [Stage.uses]) (Or.inl rfl) (Or.inr rfl)
  | noRuntime i c next dup hc hs bare =>
    exact (h.setStage_keep hc .panicked (by simp [Stage.uses]) (Or.inl rfl)
      (Or.inr rfl)).discard _
  | grant i c o op op' b outbox hc hs hb hm => exact h.settled hc hs op' b outbox
  | cancel i c o op op' b outbox hc hs hb hm => exact (h.settled hc hs op' b outbox).discard _
  | take i c r hc hs failed =>
    exact (h.setStage_keep hc .taken (by simp [Stage.uses]) (Or.inl rfl) (Or.inr rfl)).discard _
  | drain o a b k outbox hb hk hm => exact (h.setBox o b outbox).discard _
  | releaseBare alive allOver unset => exact h.retire allOver
  | release o b alive allOver hset hb =>
    exact ((h.retire allOver).setBox o b (closeBox b.outbox).1).discard _
  | sweep m rest ht => exact ⟨h.once_built, h.uses_once, h.owns_built, h.owns_apart, h.alive⟩

theorem linked {me : Nat} {guard : World → Act → Prop} {w : World}
    (h : Reachable (machine me) guard w) : Linked w.sender := by
  refine reachable_invariant (P := fun w => Linked w.sender) ?_ ?_ h
  · rintro w ⟨runtime, hw, _⟩
    exact hw ▸ fresh_linked runtime
  · intro w a w' hl _ hstep
    exact linked_step hl (step_move hstep)

/-! ## One outbox -/

/-- Everything a step can do to the outbox built as number `o`. -/
inductive BoxMove (me : Nat) (w : World) (o : Nat) (b : Outbox Sent) :
    Act → Outbox Sent → Prop where
  | still (a : Act) : BoxMove me w o b a b
  | queue (i : Nat) (c : Call) (op op' : Op) (x : Outbox Sent)
      (hc : w.sender.calls[i]? = some c) (hs : c.stage = .queueing o op)
      (hm : OpMove b ⟨me, i, c.message⟩ op x op') : BoxMove me w o b (.call i) x
  | park (a : Act) (i : Nat) (c : Call) (op op' : Op) (x : Outbox Sent)
      (hc : w.sender.calls[i]? = some c) (hs : c.stage = .queueing o op)
      (hm : ParkMove b op x op') : BoxMove me w o b a x
  | drain (a : DrainAct) (x : Outbox Sent) (hm : DrainMove b a x) : BoxMove me w o b (.drain o a) x
  | lost (a : Act) (i : Nat) (c : Call) (next : Next) (hc : w.sender.calls[i]? = some c)
      (hs : c.stage = .losing next o) : BoxMove me w o b a (closeBox b).1
  | released (alive : w.sender.alive = true)
      (allOver : ∀ c ∈ w.sender.calls, c.stage.isOver = true)
      (hset : w.sender.once = some o) : BoxMove me w o b .release (closeBox b).1

theorem box_still {me : Nat} {w : World} {a : Act} {o : Nat} {b : Box}
    (hb : w.sender.boxes[o]? = some b) :
    (∃ d, b = ⟨d, OutboxTraffic.build⟩ ∧ o = w.sender.boxes.length) ∨
      ∃ b', w.sender.boxes[o]? = some b' ∧ b.dup = b'.dup ∧ BoxMove me w o b'.outbox a b.outbox :=
  Or.inr ⟨b, hb, rfl, .still a⟩

/-- The box rewritten by the step made the move, all others are as they were. -/
theorem box_set {me : Nat} {w : World} {a : Act} {o j : Nat} {b b' : Box} {x : Outbox Sent}
    (hb : w.sender.boxes[o]? = some b) (hm : BoxMove me w o b.outbox a x)
    (hb' : (w.sender.setBox o b x).boxes[j]? = some b') :
    (∃ d, b' = ⟨d, OutboxTraffic.build⟩ ∧ j = w.sender.boxes.length) ∨
      ∃ b, w.sender.boxes[j]? = some b ∧ b'.dup = b.dup ∧ BoxMove me w j b.outbox a b'.outbox := by
  rcases getElem?_set_cases hb' with ⟨rfl, rfl⟩ | ⟨_, old⟩
  · exact Or.inr ⟨b, hb, rfl, hm⟩
  · exact box_still old

/-- An outbox after a step is a new one or what the step made of the old one. -/
theorem box_move {me : Nat} {w w' : World} {a : Act} (m : Move me w a w') {o : Nat} {b' : Box}
    (hb' : w'.sender.boxes[o]? = some b') :
    (∃ d, b' = ⟨d, OutboxTraffic.build⟩ ∧ o = w.sender.boxes.length) ∨
      ∃ b, w.sender.boxes[o]? = some b ∧ b'.dup = b.dup ∧
        BoxMove me w o b.outbox a b'.outbox := by
  cases m with
  | queue i c o op op' b outbox hc hs hb hm =>
    exact box_set hb (.queue i c op op' outbox hc hs hm) hb'
  | grant i c o op op' b outbox hc hs hb hm =>
    exact box_set hb (.park _ i c op op' outbox hc hs hm) hb'
  | cancel i c o op op' b outbox hc hs hb hm =>
    exact box_set hb (.park _ i c op op' outbox hc hs hm) hb'
  | drain o a b k outbox hb hk hm => exact box_set hb (.drain a outbox hm) hb'
  | lose i c next o b hc hs hb => exact box_set hb (.lost _ i c next hc hs) hb'
  | release o b alive allOver hset hb => exact box_set hb (.released alive allOver hset) hb'
  | built i c next d hc hs =>
    rcases getElem?_push_cases hb' with ⟨last, rfl⟩ | old
    · exact Or.inl ⟨d, rfl, last⟩
    · exact box_still old
  | _ => exact box_still hb'

theorem closeBox_spec (b : Outbox Sent) :
    (closeBox b).1.pending = b.pending ∧ (closeBox b).1.drain = b.drain ∧
      (closeBox b).1.channel.receiving = b.channel.receiving ∧
      (closeBox b).1.channel.sending = false ∧
      (closeBox b).1.channel.queue = (if b.channel.receiving then b.channel.queue else []) := by
  rw [closeBox]
  cases hr : b.channel.receiving <;> simp [Channel.dropSender, hr]

/-- An outbox that no message ever reached. -/
structure Untouched (b : Outbox Sent) : Prop where
  nothing_counted : b.pending = 0
  nothing_queued : b.channel.queue = []
  nothing_held : b.drain.held = 0

theorem build_untouched : Untouched (OutboxTraffic.build : Outbox Sent) := ⟨rfl, rfl, rfl⟩

theorem untouched_close {b : Outbox Sent} (h : Untouched b) : Untouched (closeBox b).1 := by
  obtain ⟨pending, drain, _, _, queue⟩ := closeBox_spec b
  refine ⟨pending ▸ h.nothing_counted, ?_, drain ▸ h.nothing_held⟩
  rw [queue, h.nothing_queued]
  simp

/-- The drain task of an untouched outbox can only find the channel closed and leave, or
be dropped. -/
theorem untouched_drain {b x : Outbox Sent} {a : DrainAct} (h : Untouched b)
    (hm : DrainMove b a x) : Untouched x := by
  have idle := h.nothing_held
  cases hm with
  | took p rest _ hq =>
    have empty := h.nothing_queued
    rw [hq] at empty
    cases empty
  | closed _ _ _ => exact ⟨h.nothing_counted, h.nothing_queued, rfl⟩
  | retry p busy => exact h
  | answered p r busy final => simp [busy, Drain.held] at idle
  | accounted p sent busy => simp [busy, Drain.held] at idle
  | left _ => exact ⟨h.nothing_counted, rfl, rfl⟩
  | aborted _ => exact ⟨h.nothing_counted, rfl, rfl⟩

/-- What holds of each outbox of a sender, whichever it is: its channel has a
receiver until the drain task ends, it is untouched unless it is the one in the
`OnceLock`, and it has a sender for as long as somebody may use it. -/
structure Kept (s : Sender) (o : Nat) (b : Outbox Sent) : Prop where
  receiving : b.channel.receiving = false ↔ b.drain = .ended
  untouched : s.once ≠ some o → Untouched b
  sending : s.once = some o → s.alive = true → b.channel.sending = true
  owned : ∀ (i : Nat) c, s.calls[i]? = some c → c.stage.owns = some o → b.channel.sending = true

def Sound (s : Sender) : Prop := ∀ o b, s.boxes[o]? = some b → Kept s o b.outbox

theorem receiving_step {me : Nat} {w : World} {o : Nat} {b x : Outbox Sent} {a : Act}
    (hm : BoxMove me w o b a x) (h : b.channel.receiving = false ↔ b.drain = .ended) :
    x.channel.receiving = false ↔ x.drain = .ended := by
  cases hm with
  | still => exact h
  | queue i c op op' _ hc hs hm =>
    obtain ⟨drain, _, receiving, _⟩ := hm.effect
    rw [drain, receiving]
    exact h
  | park a i c op op' _ hc hs hm =>
    obtain ⟨drain, _, _, _, receiving, _⟩ := hm.effect
    rw [drain, receiving]
    exact h
  | lost a i c next hc hs =>
    obtain ⟨_, drain, receiving, _, _⟩ := closeBox_spec b
    rw [drain, receiving]
    exact h
  | released alive allOver hset =>
    obtain ⟨_, drain, receiving, _, _⟩ := closeBox_spec b
    rw [drain, receiving]
    exact h
  | drain a _ hm =>
    cases hm with
    | took p rest idle hq => simpa [idle] using h
    | closed idle empty gone => simpa [idle] using h
    | retry p busy => exact h
    | answered p r busy final => simpa [busy] using h
    | accounted p sent busy => cases sent <;> simpa [busy] using h
    | left leaving => simp [Channel.dropReceiver]
    | aborted parked => simp [Channel.dropReceiver]

theorem untouched_step {me : Nat} {w : World} {o : Nat} {b x : Outbox Sent} {a : Act}
    (hm : BoxMove me w o b a x) (hl : Linked w.sender) (other : w.sender.once ≠ some o)
    (h : Untouched b) : Untouched x := by
  cases hm with
  | still => exact h
  | queue i c op op' _ hc hs hm => exact absurd (hl.queueing_once hc hs) other
  | park a i c op op' _ hc hs hm => exact absurd (hl.queueing_once hc hs) other
  | drain a _ hm => exact untouched_drain h hm
  | lost a i c next hc hs => exact untouched_close h
  | released alive allOver hset => exact absurd hset other

/-- The `OnceLock` keeps what it has, or is given what one of the calls built. -/
theorem once_move {me : Nat} {w w' : World} {a : Act} (m : Move me w a w') :
    w'.sender.once = w.sender.once ∨
      ∃ (i : Nat) (c : Call) (o : Nat), w.sender.calls[i]? = some c ∧ c.stage.owns = some o ∧
        w.sender.once = none ∧ w'.sender.once = some o := by
  cases m with
  | set i c next o hc hs unset => exact Or.inr ⟨i, c, o, hc, by rw [hs]; rfl, unset, rfl⟩
  | _ => exact Or.inl rfl

theorem alive_move {me : Nat} {w w' : World} {a : Act} (m : Move me w a w')
    (h : w'.sender.alive = true) : w.sender.alive = true := by
  cases m with
  | releaseBare => cases h
  | release => cases h
  | _ => exact h

/-- A call owns what it owned, or the outbox just built. -/
theorem owns_move {me : Nat} {w w' : World} {a : Act} (m : Move me w a w') {i : Nat} {c' : Call}
    {o : Nat} (hc' : w'.sender.calls[i]? = some c') (owned : c'.stage.owns = some o) :
    (∃ c, w.sender.calls[i]? = some c ∧ c.stage.owns = some o) ∨ o = w.sender.boxes.length := by
  have restaged : ∀ {j : Nat} {c : Call} {stage : Stage}, w.sender.calls[j]? = some c →
      (stage.owns = none ∨ stage.owns = c.stage.owns) →
      (w.sender.calls.set j { c with stage })[i]? = some c' →
      (∃ c, w.sender.calls[i]? = some c ∧ c.stage.owns = some o) ∨
        o = w.sender.boxes.length := by
    intro j c stage hc keeps hset
    rcases getElem?_set_cases hset with ⟨rfl, rfl⟩ | ⟨_, old⟩
    · rcases keeps with nothing | same
      · rw [show _ = none from nothing] at owned
        cases owned
      · exact Or.inl ⟨c, hc, same ▸ owned⟩
    · exact Or.inl ⟨c', old, owned⟩
  cases m with
  | enter kind m onRuntime alive =>
    rcases getElem?_push_cases hc' with ⟨_, rfl⟩ | old
    · cases owned
    · exact Or.inl ⟨c', old, owned⟩
  | walk j c stage hc hw => exact restaged hc (Or.inr (walk_spec hw).2.1) hc'
  | set j c next o hc hs unset => exact restaged hc (Or.inl rfl) hc'
  | lose j c next o b hc hs hb => exact restaged hc (Or.inl rfl) hc'
  | queue j c o op op' b outbox hc hs hb hm => exact restaged hc (Or.inl (settle_owns _ _ _)) hc'
  | inline j c r k hc hs hk => exact restaged hc (Or.inl (afterInline_spec r).2) hc'
  | built j c next d hc hs =>
    rcases getElem?_set_cases hc' with ⟨_, rfl⟩ | ⟨_, old⟩
    · exact Or.inr (by simpa [Stage.owns] using owned.symm)
    · exact Or.inl ⟨c', old, owned⟩
  | buildFailed j c next hc hs => exact restaged hc (Or.inl rfl) hc'
  | noRuntime j c next dup hc hs bare => exact restaged hc (Or.inl rfl) hc'
  | grant j c o op op' b outbox hc hs hb hm => exact restaged hc (Or.inl (settle_owns _ _ _)) hc'
  | cancel j c o op op' b outbox hc hs hb hm => exact restaged hc (Or.inl (settle_owns _ _ _)) hc'
  | take j c r hc hs failed => exact restaged hc (Or.inl rfl) hc'
  | _ => exact Or.inl ⟨c', hc', owned⟩

/-- Whoever had the `Sender` half of an outbox after the step had it before. -/
theorem sending_step {me : Nat} {w w' : World} {a : Act} (m : Move me w a w')
    (hl : Linked w.sender) {o : Nat} {b b' : Box} (hb : w.sender.boxes[o]? = some b)
    (hb' : w'.sender.boxes[o]? = some b') (had : b.outbox.channel.sending = true)
    (held : (w'.sender.once = some o ∧ w'.sender.alive = true) ∨
      ∃ (i : Nat) (c : Call), w'.sender.calls[i]? = some c ∧ c.stage.owns = some o) :
    b'.outbox.channel.sending = true := by
  have rewritten : ∀ {p : Nat} {y : Box} {x : Outbox Sent}, w.sender.boxes[p]? = some y →
      x.channel.sending = y.outbox.channel.sending →
      (w.sender.boxes.set p { y with outbox := x })[o]? = some b' →
      b'.outbox.channel.sending = true := by
    intro p y x hy same hset
    rcases getElem?_set_cases hset with ⟨rfl, rfl⟩ | ⟨_, old⟩
    · obtain rfl : y = b := Option.mem_unique hy hb
      exact same.trans had
    · obtain rfl : b' = b := Option.mem_unique old hb
      exact had
  have unchanged : w'.sender.boxes[o]? = w.sender.boxes[o]? →
      b'.outbox.channel.sending = true := by
    intro same
    obtain rfl : b' = b := Option.some.inj (hb'.symm.trans (same.trans hb))
    exact had
  cases m with
  | queue i c p op op' y x hc hs hy hm => exact rewritten hy hm.effect.2.1 hb'
  | grant i c p op op' y x hc hs hy hm => exact rewritten hy hm.effect.2.2.2.1 hb'
  | cancel i c p op op' y x hc hs hy hm => exact rewritten hy hm.effect.2.2.2.1 hb'
  | drain p a y k x hy hk hm => exact rewritten hy (by cases hm <;> rfl) hb'
  | built i c next d hc hs =>
    exact unchanged (List.getElem?_append_left (lt_of_getElem? hb))
  | lose i c next p y hc hs hy =>
    by_cases mine : o = p
    · -- the loser was the only one to have this half, and gives it up here
      subst mine
      have own : c.stage.owns = some o := by rw [hs]; rfl
      rcases held with ⟨once, _⟩ | ⟨j, d, hd, ho⟩
      · exact absurd once (hl.owns_built i c o hc own).2
      · rcases getElem?_set_cases hd with ⟨_, rfl⟩ | ⟨other, old⟩
        · cases ho
        · exact absurd (hl.owns_apart j i d c o old hc ho own) other
    · exact unchanged (List.getElem?_set_ne (Ne.symm mine))
  | release p y alive allOver hset hy =>
    by_cases mine : o = p
    · subst mine
      rcases held with ⟨_, living⟩ | ⟨j, d, hd, ho⟩
      · cases living
      · exact absurd hset (hl.owns_built j d o hd ho).2
    · exact unchanged (List.getElem?_set_ne (Ne.symm mine))
  | _ => exact unchanged rfl

theorem sound_step {me : Nat} {w w' : World} {a : Act} (hl : Linked w.sender)
    (h : Sound w.sender) (m : Move me w a w') : Sound w'.sender := by
  intro o b' hb'
  rcases box_move m hb' with ⟨d, rfl, last⟩ | ⟨b, hb, _, hm⟩
  · exact ⟨by simp [OutboxTraffic.build, Channel.new], fun _ => build_untouched, fun _ _ => rfl,
      fun _ _ _ _ => rfl⟩
  · obtain ⟨receiving, untouched, sending, owned⟩ := h o b hb
    refine ⟨receiving_step hm receiving, fun other' => ?_, fun once' living' => ?_, ?_⟩
    · have other : w.sender.once ≠ some o := by
        rcases once_move m with same | ⟨_, _, _, _, _, unset, _⟩
        · rwa [same] at other'
        · simp [unset]
      exact untouched_step hm hl other (untouched other)
    · refine sending_step m hl hb hb' ?_ (Or.inl ⟨once', living'⟩)
      rcases once_move m with same | ⟨i, c, p, hc, ho, _, hset⟩
      · exact sending (same ▸ once') (alive_move m living')
      · rw [once'] at hset
        exact owned i c hc (Option.some.inj hset ▸ ho)
    · intro i c' hc' ho
      refine sending_step m hl hb hb' ?_ (Or.inr ⟨i, c', hc', ho⟩)
      rcases owns_move m hc' ho with ⟨c, hc, old⟩ | fresh
      · exact owned i c hc old
      · exact absurd (lt_of_getElem? hb) (by omega)

theorem sound {me : Nat} {guard : World → Act → Prop} {w : World}
    (h : Reachable (machine me) guard w) : Sound w.sender := by
  refine reachable_invariant_with (Q := fun w => Linked w.sender)
    (P := fun w => Sound w.sender) (fun _ => linked) ?_ ?_ h
  · rintro w ⟨runtime, hw, _⟩ o b hb
    simp [hw, fresh] at hb
  · intro w a w' hl hs _ hstep
    exact sound_step hl hs (step_move hstep)

/-! ## The count covers what is waiting -/

/-- The count that a call has taken from outbox `o` and still has in hand. -/
def Call.claims (o : Nat) (c : Call) : Nat :=
  match c.stage with
  | .queueing p op => if p = o then op.claims else 0
  | _ => 0

/-- Nothing waits uncounted: this is what keeps the inline path shut. -/
def Covered (s : Sender) : Prop :=
  ∀ o b, s.boxes[o]? = some b →
    b.outbox.counted + total (Call.claims o) s.calls ≤ b.outbox.pending

theorem settle_claims (c : Call) (o : Nat) (op : Op) :
    Call.claims o { c with stage := settle c.kind o op } = op.claims := by
  cases op with
  | done r =>
    cases r with
    | refused e => cases e <;> cases hk : c.kind <;> simp [settle, Call.claims, Op.claims]
    | _ => rfl
  | _ => simp [settle, Call.claims]

theorem settle_claims_other (c : Call) {o p : Nat} (op : Op) (other : o ≠ p) :
    Call.claims p { c with stage := settle c.kind o op } = 0 := by
  cases op with
  | done r =>
    cases r with
    | refused e => cases e <;> cases hk : c.kind <;> simp [settle, Call.claims]
    | _ => rfl
  | _ => simp [settle, Call.claims, other]

theorem claims_queueing {c : Call} {o : Nat} {op : Op} (hs : c.stage = .queueing o op) :
    Call.claims o c = op.claims := by
  simp [Call.claims, hs]

theorem claims_other {c : Call} {o p : Nat} {op : Op} (hs : c.stage = .queueing o op)
    (other : o ≠ p) : Call.claims p c = 0 := by
  simp [Call.claims, hs, other]

theorem Covered.setStage {s : Sender} (h : Covered s) {i : Nat} {c : Call} (stage : Stage)
    (hc : s.calls[i]? = some c) (none_taken : ∀ o, Call.claims o { c with stage } = 0) :
    Covered (s.setStage i c stage) := by
  intro o b hb
  have trade := total_set (Call.claims o) { c with stage } hc
  have := h o b hb
  have := none_taken o
  simp only [setStage_calls]
  omega

theorem Covered.setBox {s : Sender} (h : Covered s) {o : Nat} {b : Box} {x : Outbox Sent}
    (hb : s.boxes[o]? = some b)
    (fair : ∀ n, b.outbox.counted + n ≤ b.outbox.pending → x.counted + n ≤ x.pending) :
    Covered (s.setBox o b x) := by
  intro p b' hb'
  rcases getElem?_set_cases hb' with ⟨rfl, rfl⟩ | ⟨_, old⟩
  · exact fair _ (h p b hb)
  · exact h p b' old

theorem fair_close {b : Outbox Sent} (n : Nat) (h : b.counted + n ≤ b.pending) :
    (closeBox b).1.counted + n ≤ (closeBox b).1.pending := by
  obtain ⟨pending, drain, _, _, queue⟩ := closeBox_spec b
  have shorter : (closeBox b).1.channel.queue.length ≤ b.channel.queue.length := by
    rw [queue]
    cases b.channel.receiving <;> simp
  simp only [Outbox.counted, pending, drain] at h ⊢
  omega

theorem fair_drain {b x : Outbox Sent} {a : DrainAct} (hm : DrainMove b a x) (n : Nat)
    (h : b.counted + n ≤ b.pending) : x.counted + n ≤ x.pending := by
  have exact_count : b.pending = b.counted + (b.pending - b.counted) := by omega
  have after := hm.balance exact_count
  omega

/-- The step of a call in the outbox trades what the call has in hand with the
count; everybody else's share is slack. -/
theorem Covered.settled {s : Sender} (h : Covered s) {i : Nat} {c : Call} {o : Nat}
    {op op' : Op} {b : Box} {x : Outbox Sent} (hc : s.calls[i]? = some c)
    (hs : c.stage = .queueing o op) (hb : s.boxes[o]? = some b)
    (fair : ∀ slack, b.outbox.pending = b.outbox.counted + op.claims + slack →
      x.pending = x.counted + op'.claims + slack) :
    Covered ((s.setBox o b x).setStage i c (settle c.kind o op')) := by
  intro p b' hb'
  have trade := total_set (Call.claims p) { c with stage := settle c.kind o op' } hc
  simp only [setStage_calls, setBox_calls]
  rcases getElem?_set_cases hb' with ⟨rfl, rfl⟩ | ⟨other, old⟩
  · have before := h p b hb
    have own := le_total (Call.claims p) hc
    rw [claims_queueing hs] at trade own
    rw [settle_claims] at trade
    have after := fair (b.outbox.pending - b.outbox.counted - op.claims) (by omega)
    show x.counted + _ ≤ x.pending
    omega
  · have := h p b' old
    rw [claims_other hs (Ne.symm other), settle_claims_other c op' (Ne.symm other)] at trade
    omega

theorem park_fair {b x : Outbox Sent} {op op' : Op} (hm : ParkMove b op x op') (slack : Nat)
    (h : b.pending = b.counted + op.claims + slack) :
    x.pending = x.counted + op'.claims + slack := by
  obtain ⟨drain, pending, queue, _, _, before, after, _⟩ := hm.effect
  simp only [Outbox.counted, drain, pending, queue, before, after] at h ⊢
  exact h

theorem covered_step {me : Nat} {w w' : World} {a : Act} (hl : Linked w.sender)
    (h : Covered w.sender) (m : Move me w a w') : Covered w'.sender := by
  cases m with
  | enter kind m onRuntime alive =>
    intro o b hb
    have := h o b hb
    simp only [addCall_calls, total_append, total_cons, total_nil]
    have none_yet : Call.claims o ⟨kind, m, onRuntime, .entered⟩ = 0 := rfl
    omega
  | walk i c stage hc hw =>
    obtain ⟨_, _, opens, _⟩ := walk_spec hw
    apply h.setStage _ hc
    intro o
    rw [Call.claims]
    split
    · rename_i p op hs
      obtain ⟨next, rfl⟩ := opens p op hs
      split <;> simp
    · rfl
  | set i c next o hc hs unset =>
    have moved : Covered (w.sender.setStage i c (.gotten next)) := h.setStage _ hc fun _ => rfl
    exact moved
  | lose i c next o b hc hs hb =>
    have closed : Covered (w.sender.setBox o b (closeBox b.outbox).1) := h.setBox hb fair_close
    exact closed.setStage (.gotten next) hc fun _ => rfl
  | queue i c o op op' b x hc hs hb hm => exact h.settled hc hs hb fun _ => hm.balance
  | inline i c r k hc hs hk =>
    apply h.setStage (afterInline r) hc
    intro o
    cases r <;> rfl
  | built i c next d hc hs =>
    have grown : Covered (w.sender.addBox d) := by
      intro o b hb
      rcases getElem?_push_cases hb with ⟨rfl, rfl⟩ | old
      · -- nobody is inside an outbox that has only just been built
        have nobody : total (Call.claims w.sender.boxes.length) w.sender.calls = 0 := by
          apply total_eq_zero
          intro e he
          obtain ⟨j, hj⟩ := List.getElem?_of_mem he
          rw [Call.claims]
          split
          · rename_i p op hq
            have once := hl.queueing_once hj hq
            have built := hl.once_built p once
            rw [if_neg (by omega)]
          · rfl
        simp only [addBox_calls, nobody]
        decide
      · exact h o b old
    exact grown.setStage _ hc fun _ => rfl
  | buildFailed i c next hc hs => exact h.setStage _ hc fun _ => rfl
  | noRuntime i c next dup hc hs bare =>
    exact h.setStage .panicked hc fun _ => rfl
  | grant i c o op op' b x hc hs hb hm => exact h.settled hc hs hb (park_fair hm)
  | cancel i c o op op' b x hc hs hb hm => exact h.settled hc hs hb (park_fair hm)
  | take i c r hc hs failed => exact h.setStage .taken hc fun _ => rfl
  | drain o a b k x hb hk hm => exact h.setBox hb (fair_drain hm)
  | release o b alive allOver hset hb => exact h.setBox hb fair_close
  | _ => exact h

theorem covered {me : Nat} {guard : World → Act → Prop} {w : World}
    (h : Reachable (machine me) guard w) : Covered w.sender := by
  refine reachable_invariant_with (Q := fun w => Linked w.sender)
    (P := fun w => Covered w.sender) (fun _ => linked) ?_ ?_ h
  · rintro w ⟨runtime, hw, _⟩ o b hb
    simp [hw, fresh] at hb
  · intro w a w' hl hs _ hstep
    exact covered_step hl hs (step_move hstep)

end RefSender
