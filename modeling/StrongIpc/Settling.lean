import StrongIpc.SenderBooks

/-!
# Every send comes to an end

A call may be refused by the socket, race for the outbox, find the queue full, be handed
back its message, wait for a slot and be overtaken there. Still no call costs more than so
many steps, its own and those of the drain task for its message, whatever happens in
between; and as long as the socket has room something can always be done about a call that
is not over, or a message that is not sent.
-/

namespace RefSender

open BoundedChannel OutboxTraffic Roster StepMachine Wire

/-- The steps of the calls and the drain tasks, but for a drain task's finding that there is
no room, which it may as often as it is woken. -/
def Act.own : Act → Bool
  | .call _ | .sendNow _ _ | .build _ _ | .grant _ => true
  | .drain _ (.sendmsg r) => r ≠ .wouldBlock
  | .drain _ a => a ≠ .abort
  | _ => false

/-- A drain task fails to send, or is dropped with its runtime. -/
def Act.breaks : Act → Bool
  | .drain _ (.sendmsg r) => r ≠ .ok && r ≠ .wouldBlock
  | .drain _ a => a = .abort
  | _ => false

def Act.enters : Act → Bool
  | .enter _ _ _ => true
  | _ => false

/-! ## What is left to do -/

/-- Three of these are for the message, once it is queued. -/
def opWork : Op → Nat
  | .claim => 17
  | .offer => 16
  | .giveBack _ => 15
  | .reserving => 7
  | .granted => 6
  | .claimSlot => 5
  | .place => 4
  | .done _ => 0

def Next.work (next : Next) : Nat := opWork next.op

def Stage.work : Stage → Nat
  | .entered => 27
  | .gate _ => 26
  | .inline => 25
  | .getting next => next.work + 7
  | .building next => next.work + 6
  | .setting next _ => next.work + 3
  | .losing next _ => next.work + 2
  | .gotten next => next.work + 1
  | .queueing _ op => opWork op
  | _ => 0

def drainWork : Drain Sent → Nat
  | .receiving => 2
  | .sending _ => 4
  | .accounting _ _ => 3
  | .leaving => 1
  | .ended => 0

def boxWork (b : Outbox Sent) : Nat := 3 * b.channel.queue.length + drainWork b.drain

def Sender.work (s : Sender) : Nat :=
  total (fun c => c.stage.work) s.calls + total (fun b => boxWork b.outbox) s.boxes

theorem work_setStage {s : Sender} {i : Nat} {c : Call} (hc : s.calls[i]? = some c)
    (stage : Stage) : (s.setStage i c stage).work + c.stage.work = s.work + stage.work := by
  have traded := total_set (fun c => c.stage.work) { c with stage } hc
  simp only [Sender.work, setStage_calls, setStage_boxes] at traded ⊢
  omega

theorem work_setBox {s : Sender} {o : Nat} {b : Box} (hb : s.boxes[o]? = some b)
    (x : Outbox Sent) : (s.setBox o b x).work + boxWork b.outbox = s.work + boxWork x := by
  have traded := total_set (fun b => boxWork b.outbox) { b with outbox := x } hb
  simp only [Sender.work, setBox_calls, setBox_boxes] at traded ⊢
  omega

theorem work_addBox (s : Sender) (d : Nat) : (s.addBox d).work = s.work + 2 := by
  simp only [Sender.work, addBox_calls, addBox_boxes, total_append, total_cons, total_nil]
  rfl

theorem work_close (b : Outbox Sent) : boxWork (closeBox b).1 ≤ boxWork b := by
  obtain ⟨_, drain, _, _, queue⟩ := closeBox_spec b
  have shorter : (closeBox b).1.channel.queue.length ≤ b.channel.queue.length := by
    rw [queue]
    split <;> simp
  simp only [boxWork, drain]
  omega

/-- To be told that the queue is full, and then wait for a slot, is less than what `push`
was thought to take. -/
theorem settle_work {b x : Outbox Sent} {p : Sent} {op op' : Op} (hm : OpMove b p op x op')
    (kind : Kind) (o : Nat) :
    (settle kind o op').work + boxWork x + 1 ≤ opWork op + boxWork b := by
  cases hm with
  | gaveBack e =>
    have waits : (settle kind o (.done (.refused e))).work ≤ 14 := by
      cases e <;> cases kind <;> simp [settle, Stage.work, Next.work, Next.op, opWork]
    simp only [opWork, boxWork]
    omega
  | queued alive room =>
    simp only [settle, Stage.work, opWork, boxWork, List.length_append, List.length_singleton]
    omega
  | placed =>
    simp only [settle, Stage.work, opWork, boxWork, Channel.permitSend, List.length_append,
      List.length_singleton]
    omega
  | _ =>
    simp only [settle, Stage.work, opWork, boxWork, Channel.dropPermit]
    omega

theorem park_work {b x : Outbox Sent} {op op' : Op} (hm : ParkMove b op x op') (kind : Kind)
    (o : Nat) : (settle kind o op').work + boxWork x + 1 ≤ opWork op + boxWork b := by
  cases hm <;> simp only [settle, Stage.work, opWork, boxWork, Channel.dropPermit] <;> omega

theorem drain_work {b x : Outbox Sent} {a : DrainAct} (hm : DrainMove b a x) :
    boxWork x + (if (Act.drain 0 a).own then 1 else 0) ≤ boxWork b := by
  cases hm with
  | took p rest idle hq =>
    simp [boxWork, idle, hq, drainWork, Act.own]
    omega
  | closed idle empty gone => simp [boxWork, idle, drainWork, Act.own]
  | retry p busy => simp [Act.own]
  | answered p r busy final => simp [boxWork, busy, drainWork, Act.own, final]
  | accounted p sent busy => cases sent <;> simp [boxWork, busy, drainWork, Act.own]
  | left leaving => simp [boxWork, leaving, drainWork, Act.own, Channel.dropReceiver]
  | aborted parked => simp [boxWork, drainWork, Act.own, Channel.dropReceiver]

theorem walk_work {s : Sender} {c : Call} {stage : Stage} (h : s.walk c = some stage) :
    stage.work + 1 ≤ c.stage.work := by
  rw [Sender.walk] at h
  split at h
  case h_1 hs =>
    split at h
    · cases h
      simp [hs, Stage.work]
    · split at h
      · cases h
        split <;> simp [hs, Stage.work, Next.work, Next.op, opWork]
      · cases h
        simp [hs, Stage.work]
  case h_2 o hs =>
    split at h
    · cases h
    · cases h
      split <;> simp [hs, Stage.work, Next.work, Next.op, opWork]
  case h_3 next hs =>
    split at h
    · cases h
      simp [hs, Stage.work]
    · cases h
      simp only [hs, Stage.work, Next.work]
      omega
  case h_4 next o hs =>
    split at h
    · cases h
    · cases h
      simp [hs, Stage.work]
  case h_5 next hs =>
    split at h
    · cases h
    · cases h
      simp [hs, Stage.work, Next.work]
  case h_6 => cases h

/-- A step of the calls or the drain tasks leaves less to do, and any other leaves no more,
but for a new call. -/
theorem work_move {me : Nat} {w w' : World} {a : Act} (m : Move me w a w') :
    w'.sender.work + (if a.own then 1 else 0) ≤
      w.sender.work + if a.enters then 27 else 0 := by
  have less : ∀ {i : Nat} {c : Call} (stage : Stage), w.sender.calls[i]? = some c →
      stage.work + 1 ≤ c.stage.work → (w.sender.setStage i c stage).work + 1 ≤ w.sender.work := by
    intro i c stage hc cheaper
    have traded := work_setStage hc stage
    omega
  have inside : ∀ {i o : Nat} {c : Call} {b : Box} {x : Outbox Sent} (stage : Stage),
      w.sender.calls[i]? = some c → w.sender.boxes[o]? = some b →
        stage.work + boxWork x + 1 ≤ c.stage.work + boxWork b.outbox →
          ((w.sender.setBox o b x).setStage i c stage).work + 1 ≤ w.sender.work := by
    intro i o c b x stage hc hb cheaper
    have traded := work_setBox hb x
    have moved := work_setStage (s := w.sender.setBox o b x) hc stage
    omega
  cases m with
  | enter kind m onRuntime alive =>
    simp only [Sender.work, addCall_calls, addCall_boxes, total_append, total_cons, total_nil,
      Stage.work, Act.own, Act.enters, Bool.false_eq_true, if_false, if_true]
    omega
  | walk i c stage hc hw => exact less stage hc (walk_work hw)
  | set i c next o hc hs unset =>
    exact less (.gotten next) hc (by simp [hs, Stage.work])
  | lose i c next o b hc hs hb =>
    have closed := work_close b.outbox
    exact inside (.gotten next) hc hb (by simp only [hs, Stage.work]; omega)
  | queue i c o op op' b x hc hs hb hm =>
    refine inside _ hc hb ?_
    rw [hs]
    exact settle_work hm c.kind o
  | inline i c r k hc hs hk =>
    refine less (afterInline r) hc ?_
    rw [hs]
    cases r <;> simp [afterInline, Stage.work, Next.work, Next.op, opWork]
  | built i c next d hc hs =>
    have added := work_addBox w.sender d
    have moved := work_setStage (s := w.sender.addBox d) hc (.setting next w.sender.boxes.length)
    simp only [hs, Stage.work, Act.own, Act.enters, Bool.false_eq_true, if_false, if_true]
      at moved ⊢
    omega
  | buildFailed i c next hc hs =>
    exact less (.returned .closed) hc (by simp [hs, Stage.work])
  | noRuntime i c next dup hc hs bare =>
    exact less .panicked hc (by simp [hs, Stage.work])
  | grant i c o op op' b x hc hs hb hm =>
    refine inside _ hc hb ?_
    rw [hs]
    exact park_work hm c.kind o
  | cancel i c o op op' b x hc hs hb hm gone =>
    refine Nat.le_of_succ_le (inside (settle c.kind o op') hc hb ?_)
    rw [hs]
    exact park_work hm c.kind o
  | take i c r hc hs failed =>
    have moved := work_setStage hc .taken
    simp only [hs, Stage.work] at moved
    exact Nat.le_of_eq moved
  | drain o a b k x hb hk hm =>
    have traded := work_setBox hb x
    have less := drain_work hm
    have own : (Act.drain o a).own = (Act.drain 0 a).own := by cases a <;> rfl
    rw [own]
    show (w.sender.setBox o b x).work + _ ≤ w.sender.work + 0
    omega
  | release o b alive allOver hset hb =>
    have traded := work_setBox (s := w.sender.retire) hb (closeBox b.outbox).1
    have closed := work_close b.outbox
    show ((w.sender.retire).setBox o b (closeBox b.outbox).1).work + 0 ≤ w.sender.work + 0
    have same : w.sender.retire.work = w.sender.work := rfl
    omega
  | _ => exact Nat.le_refl _

/-! ## Something can always be done -/

/-- The drain task of the outbox that all use waits for messages that nobody has sent yet, and
the inline path is open. -/
structure Waits (s : Sender) (o : Nat) (b : Outbox Sent) : Prop where
  once : s.once = some o
  alive : s.alive = true
  drain : b.drain = .receiving
  sending : b.channel.sending = true
  queue : b.channel.queue = []
  permits : b.channel.permits = 0
  pending : b.pending = 0

/-- All calls are over, and no drain task is left but for the one that waits. -/
structure Settled (s : Sender) : Prop where
  calls : ∀ c ∈ s.calls, c.stage.isOver = true
  boxes : ∀ (o : Nat) (b : Box), s.boxes[o]? = some b →
    b.outbox.drain = .ended ∨ Waits s o b.outbox

/-- The kernel has an answer other than that there is no room. -/
theorem answers {k : Socket} (room : k.room = true) (p : Sent) :
    ∃ r k', r ≠ .wouldBlock ∧ r ≠ .other ∧ k.sendNow p r = some k' := by
  by_cases live : k.peerOpen = true
  · by_cases few : p.message.fds.length ≤ maxFds
    · exact ⟨.ok, _, by simp, by simp, if_pos (by simp [Socket.mayAnswer, live, room, few])⟩
    · have many : maxFds < p.message.fds.length := Nat.not_le.mp few
      exact ⟨.invalidInput, _, by simp, by simp, if_pos (by simp [Socket.mayAnswer, many])⟩
  · exact ⟨.brokenPipe, _, by simp, by simp, if_pos (by simp [Socket.mayAnswer, live])⟩

/-- Nothing can be done, but for failures that the kernel may make up at any time. -/
def Stuck (me : Nat) (w : World) : Prop :=
  ∀ a, a.own = true → noOther a = true → step me w a = none

theorem stuck_box {me : Nat} {w : World} (stuck : Stuck me w) (room : w.socket.room = true)
    {o : Nat} {b : Box} (hb : w.sender.boxes[o]? = some b) :
    b.outbox.drain = .ended ∨ b.outbox.drain = .receiving ∧
      b.outbox.channel.sending = true ∧ b.outbox.channel.queue = [] := by
  have blocked : ∀ {a : DrainAct} {k : Socket} {x : Outbox Sent}, (Act.drain o a).own = true →
      noOther (.drain o a) = true → drainSocket w.socket b.outbox a = some k →
        b.outbox.drainStep a = some x → False := by
    intro a k x own known hk hx
    have none := stuck _ own known
    simp [step, Sender.drainBox, hb, hk, hx] at none
  cases hd : b.outbox.drain with
  | ended => exact Or.inl rfl
  | receiving =>
    refine Or.inr ⟨rfl, ?_⟩
    cases hq : b.outbox.channel.queue with
    | cons p rest =>
      exact (blocked (a := .recv) rfl rfl rfl
        (by simp [Outbox.drainStep, hd, Channel.recv, hq]; rfl)).elim
    | nil =>
      refine ⟨?_, rfl⟩
      by_contra silent
      exact blocked (a := .recv) rfl rfl rfl
        (by simp [Outbox.drainStep, hd, Channel.recv, hq, silent]; rfl)
  | sending p =>
    obtain ⟨r, k, final, known, answer⟩ := answers room p
    refine (blocked (a := .sendmsg r) (by simpa [Act.own] using final)
      (by cases r <;> first | rfl | exact absurd rfl known)
      (by simpa [drainSocket, hd] using answer) (by simp [Outbox.drainStep, hd]; rfl)).elim
  | accounting p sent =>
    exact (blocked (a := .account) rfl rfl rfl (by simp [Outbox.drainStep, hd]; rfl)).elim
  | leaving =>
    exact (blocked (a := .finish) rfl rfl rfl (by simp [Outbox.drainStep, hd]; rfl)).elim

/-- Every outbox that a call may come to is there. -/
theorem Linked.box {s : Sender} (h : Linked s) {i o : Nat} {c : Call} (hc : s.calls[i]? = some c)
    (named : c.stage.uses = some o ∨ c.stage.owns = some o) : ∃ b, s.boxes[o]? = some b := by
  have built : o < s.boxes.length := by
    rcases named with uses | owns
    · exact h.once_built o (h.uses_once i c o hc uses)
    · exact (h.owns_built i c o hc owns).1
  exact ⟨_, List.getElem?_eq_getElem built⟩

/-- A call that cannot go on is over, or it waits for a slot. -/
theorem stuck_call {me : Nat} {w : World} (hu : Upkeep me w) (hp : AllPlaced w.sender)
    (stuck : Stuck me w) (room : w.socket.room = true) {i : Nat} {c : Call}
    (hc : w.sender.calls[i]? = some c) :
    c.stage.isOver = true ∨ ∃ o b, c.stage = .queueing o .reserving ∧
      w.sender.boxes[o]? = some b ∧ b.outbox.channel.receiving = true ∧
        b.outbox.channel.hasRoom = false := by
  have still : w.sender.advance me i c = none := by
    have none := stuck (.call i) rfl rfl
    simpa [step, World.onCall, hc] using none
  have placed := hp c (List.mem_of_getElem? hc)
  have box := fun {o : Nat} => hu.linked.box (o := o) hc
  cases hs : c.stage with
  | entered =>
    cases once : w.sender.once <;> simp [Sender.advance, Sender.walk, hs, once] at still
    all_goals split at still <;> cases still
  | gate o =>
    obtain ⟨b, hb⟩ := box (o := o) (Or.inl (by rw [hs]; rfl))
    simp [Sender.advance, Sender.walk, hs, hb] at still
  | inline =>
    obtain ⟨r, k, _, known, answer⟩ := answers room ⟨me, i, c.message⟩
    have none := stuck (.sendNow i r) rfl (by cases r <;> first | rfl | exact absurd rfl known)
    simp [step, hc, Sender.sendInline, hs, answer] at none
  | getting next =>
    cases once : w.sender.once <;> simp [Sender.advance, Sender.walk, hs, once] at still
  | building next =>
    have none := stuck (.build i (some 0)) rfl rfl
    simp only [step, World.onCall, hc, Sender.buildOutbox, hs] at none
    split at none <;> cases none
  | setting next o =>
    cases once : w.sender.once <;> simp [Sender.advance, Sender.walk, hs, once] at still
  | losing next o =>
    obtain ⟨b, hb⟩ := box (o := o) (Or.inr (by rw [hs]; rfl))
    simp [Sender.advance, hs, hb] at still
  | gotten next =>
    obtain ⟨o, once⟩ := Option.ne_none_iff_exists'.mp (placed.raced (by rw [hs]; rfl))
    simp [Sender.advance, Sender.walk, hs, once] at still
  | queueing o op =>
    obtain ⟨b, hb⟩ := box (o := o) (Or.inl (by rw [hs]; rfl))
    have waits : b.outbox.opStep ⟨me, i, c.message⟩ op = none := by
      simpa [Sender.advance, hs, hb] using still
    cases op with
    | reserving =>
      refine Or.inr ⟨o, b, rfl, hb, ?_⟩
      simp only [Outbox.opStep, Channel.grant] at waits
      split at waits
      · rename_i alive
        exact ⟨alive, by simpa [alive] using waits⟩
      · cases waits
    | offer =>
      simp only [Outbox.opStep] at waits
      split at waits <;> cases waits
    | granted =>
      simp only [Outbox.opStep] at waits
      split at waits <;> cases waits
    | done r =>
      have settled := placed.settled
      rw [hs] at settled
      cases settled
    | _ => cases waits
  | _ => exact Or.inl rfl

/-- Nobody waits for a slot of a channel that is empty and of which nobody has a permit. -/
theorem stuck_settled {me : Nat} {guard : World → Act → Prop} {w : World}
    (h : Reachable (machine me) guard w) (stuck : Stuck me w) (room : w.socket.room = true) :
    Settled w.sender := by
  have hu := upkeep h
  have hp := allPlaced h
  have idle : ∀ {f : Op → Nat}, Inside f → ∀ o, held f w.sender.calls o = 0 := by
    intro f inside o
    refine total_eq_zero fun c hc => ?_
    obtain ⟨i, hi⟩ := List.getElem?_of_mem hc
    refine holds_idle (fun p op hs => ?_) o
    rcases stuck_call hu hp stuck room hi with isOver | ⟨_, _, waits, _⟩
    · rw [hs] at isOver
      cases isOver
    · obtain ⟨_, rfl⟩ := Stage.queueing.inj (hs.symm.trans waits)
      exact inside.starts .reserve
  have rests : ∀ {o : Nat} {b : Box}, w.sender.boxes[o]? = some b → b.outbox.drain ≠ .ended →
      b.outbox.drain = .receiving ∧ b.outbox.channel.sending = true ∧
        b.outbox.channel.queue = [] ∧ b.outbox.channel.permits = 0 ∧ b.outbox.pending = 0 := by
    intro o b ho going
    obtain ⟨receiving, sending, queue⟩ := (stuck_box stuck room ho).resolve_left going
    have ledger := booked h o b ho
    refine ⟨receiving, sending, queue, ledger.permits.trans (idle inside_permits o), ?_⟩
    rw [ledger.pending going, idle inside_claims, Outbox.counted, receiving, queue]
    rfl
  have ended : ∀ c ∈ w.sender.calls, c.stage.isOver = true := by
    intro c hc
    obtain ⟨i, hi⟩ := List.getElem?_of_mem hc
    rcases stuck_call hu hp stuck room hi with isOver | ⟨o, b, _, ho, alive, full⟩
    · exact isOver
    · have going : b.outbox.drain ≠ .ended := by
        intro ended
        have gone := (hu.sound o b ho).receiving.mpr ended
        rw [alive] at gone
        cases gone
      obtain ⟨_, _, queue, permits, _⟩ := rests ho going
      have slots := (booked h o b ho).capacity
      simp [Channel.hasRoom, queue, permits, slots, depth] at full
  refine ⟨ended, fun o b ho => ?_⟩
  by_cases finished : b.outbox.drain = .ended
  · exact Or.inl finished
  · obtain ⟨receiving, sending, queue, permits, pending⟩ := rests ho finished
    rcases tended h o b ho sending with ⟨once, alive⟩ | ⟨i, c, hc, owned⟩
    · exact Or.inr ⟨once, alive, receiving, sending, queue, permits, pending⟩
    · have isOver := ended c (List.mem_of_getElem? hc)
      cases hs : c.stage <;> simp_all [Stage.owns, Stage.isOver]

theorem settled_stuck {me : Nat} {w : World} (h : Settled w.sender) : Stuck me w := by
  intro a own known
  cases taken : step me w a with
  | none => rfl
  | some t =>
    have over_already : ∀ {i : Nat} {c : Call}, w.sender.calls[i]? = some c →
        c.stage.isOver = true := fun hc => h.calls _ (List.mem_of_getElem? hc)
    cases step_move taken with
    | drain o a b k x hb hk hm =>
      have lasting : a ≠ .abort := by
        rintro rfl
        cases own
      rcases h.boxes o b hb with ended | waits
      · exact absurd ended hm.ended_iff.1
      · have idle := waits.drain
        have sending := waits.sending
        have queue := waits.queue
        cases hm <;> simp_all
    | walk i c stage hc hw =>
      have busy := walk_busy hw
      rw [over_already hc] at busy
      cases busy
    | set i c next o hc hs unset => simpa [hs, Stage.isOver] using over_already hc
    | lose i c next o b hc hs hb => simpa [hs, Stage.isOver] using over_already hc
    | queue i c o op op' b x hc hs hb hm => simpa [hs, Stage.isOver] using over_already hc
    | inline i c r k hc hs hk => simpa [hs, Stage.isOver] using over_already hc
    | built i c next d hc hs => simpa [hs, Stage.isOver] using over_already hc
    | buildFailed i c next hc hs => simpa [hs, Stage.isOver] using over_already hc
    | noRuntime i c next dup hc hs bare => simpa [hs, Stage.isOver] using over_already hc
    | grant i c o op op' b x hc hs hb hm => simpa [hs, Stage.isOver] using over_already hc
    | _ => cases own

/-- The drain task of a live `Ref`'s outbox has ended only if one broke. -/
theorem unbroken_receives {me : Nat} {labels : List Act} {w t : World} (start : (machine me).init w)
    (run : exec (machine me) anyStep w labels = some t) (whole : ∀ a ∈ labels, a.breaks = false)
    {o : Nat} {b : Box} (once : t.sender.once = some o) (alive : t.sender.alive = true)
    (hb : t.sender.boxes[o]? = some b) : b.outbox.drain ≠ .ended := by
  have reached : Reachable (machine me) (fun _ a => a.breaks = false) t :=
    ⟨w, start, steps_mono (fun _ a => whole a) (exec_steps_within run)⟩
  have hu := upkeep reached
  have hh : AllHonest t.sender := by
    refine reachable_invariant_with (Q := Upkeep me) (P := fun w => AllHonest w.sender)
      (fun _ => upkeep) ?_ ?_ reached
    · rintro w ⟨runtime, hw, _⟩ o b hb
      simp [hw, fresh] at hb
    · intro w a w' hu hh whole hstep
      apply honest_step hu hh (step_move hstep)
      · rintro o b p r rfl _ _
        cases r <;> simp_all [Act.breaks]
      · rintro o b rfl _
        cases whole
  intro ended
  have gone := (hu.sound o b hb).receiving.mpr ended
  rw [hh.receives hu hb ((hu.sound o b hb).sending once alive)] at gone
  cases gone

/-- In any run there are at most 27 steps of the calls and the drain tasks for each call that
was made, and as long as the socket has room they can go on until every call is over,
every message that is still to be sent has been, and every drain task has ended but the one
of a live `Ref`'s outbox, which waits. It has ended too only if a drain task failed to send
or was dropped. -/
theorem sends_settle {me : Nat} {labels : List Act} {w t : World} (start : (machine me).init w)
    (run : exec (machine me) anyStep w labels = some t) :
    labels.countP Act.own ≤ 27 * labels.countP Act.enters ∧
      (t.socket.room = true → (Stuck me t ↔ Settled t.sender)) ∧
      (Settled t.sender → ∀ (o : Nat) (b : Box), t.sender.once = some o → t.sender.alive = true →
        t.sender.boxes[o]? = some b →
          Waits t.sender o b.outbox ∨ ∃ a ∈ labels, a.breaks = true) := by
  have keep : ∀ s a t, True → anyStep s a → (machine me).step s a = some t →
      True ∧ t.sender.work + (if a.own then 1 else 0) ≤
        s.sender.work + if a.enters then 27 else 0 :=
    fun s a t _ _ taken => ⟨trivial, work_move (step_move taken)⟩
  obtain ⟨_, bound⟩ := exec_budget keep run trivial
  have nothing : w.sender.work = 0 := by
    obtain ⟨runtime, same, _⟩ := start
    rw [same]
    rfl
  have reached : Reachable (machine me) anyStep t := exec_reachable start run
  refine ⟨by omega, fun room => ⟨fun stuck => ?_, settled_stuck⟩, ?_⟩
  · exact stuck_settled reached stuck room
  · intro settled o b once alive hb
    by_cases broken : ∃ a ∈ labels, a.breaks = true
    · exact Or.inr broken
    · have whole : ∀ a ∈ labels, a.breaks = false := by simpa using broken
      have going := unbroken_receives start run whole once alive hb
      exact Or.inl ((settled.boxes o b hb).resolve_left going)

/-- Two messages, both through the queue, to the end. -/
def bothPassed : List Act :=
  [.enter .trySend (note 1) true, .call 0, .sendNow 0 .wouldBlock, .call 0, .build 0 (some 9),
    .call 0, .call 0, .call 0, .call 0, .enter .send (note 2) true, .call 1, .drain 0 .recv,
    .call 1, .room true, .call 1, .drain 0 (.sendmsg .ok), .call 1, .call 1, .drain 0 .account,
    .drain 0 .recv, .drain 0 (.sendmsg .ok), .drain 0 .account]

def rested : World where
  socket := ⟨true, true, [⟨0, 0, note 1⟩, ⟨0, 1, note 2⟩]⟩
  sender :=
    { fresh true with
      once := some 0
      boxes := [⟨9, ⟨0, ⟨depth, [], 0, true, true⟩, .receiving⟩⟩]
      calls := [⟨.trySend, note 1, true, .returned .ok⟩, ⟨.send, note 2, true, .returned .ok⟩]
      trash := [note 1, note 2] }

theorem rested_settled : Settled rested.sender where
  calls := by decide
  boxes := by
    intro o b hb
    obtain ⟨inside, rfl⟩ := List.getElem?_eq_some_iff.mp hb
    obtain rfl : o = 0 := Nat.lt_one_iff.mp inside
    exact Or.inr ⟨rfl, rfl, rfl, rfl, rfl, rfl, rfl⟩

theorem sends_settle_rested :
    bothPassed.countP Act.own ≤ 27 * bothPassed.countP Act.enters ∧ Stuck 0 rested ∧
      ∀ (o : Nat) (b : Box), rested.sender.once = some o → rested.sender.alive = true →
        rested.sender.boxes[o]? = some b →
          Waits rested.sender o b.outbox ∨ ∃ a ∈ bothPassed, a.breaks = true := by
  have run : exec (machine 0) anyStep blocked bothPassed = some rested := by decide
  obtain ⟨bound, quiet, waits⟩ := sends_settle blocked_init run
  exact ⟨bound, (quiet rfl).mpr rested_settled, waits rested_settled⟩

/-- When nothing is left to do, and the peer is there, every accepted message is on the wire,
provided no drain task was made to send more descriptors than one message carries or was
dropped. -/
theorem accepted_arrives {me : Nat} {w : World} {i : Nat} {c : Call}
    (h : Reachable (machine me) Delivers w) (room : w.socket.room = true)
    (live : w.socket.peerOpen = true) (stuck : Stuck me w) (hc : w.sender.calls[i]? = some c)
    (ok : c.stage = .returned .ok) : w.onWire (me, i) = 1 := by
  have settled := stuck_settled h stuck room
  have honest := honest (fun _ _ ok => (Delivers.lasting ok).toCarried) h live
  have empty : ∀ b ∈ w.sender.boxes, b.outbox.channel.queue = [] ∧ hand b.outbox.drain = [] := by
    intro b hb
    obtain ⟨o, ho⟩ := List.getElem?_of_mem hb
    rcases settled.boxes o b ho with ended | waits
    · exact ⟨((honest o b ho).finished (Or.inr ended)).2, by rw [ended]; rfl⟩
    · exact ⟨waits.queue, by rw [waits.drain]; rfl⟩
  have queued : w.queued (me, i) = 0 := total_eq_zero fun b hb => by simp [(empty b hb).1]
  have held : w.inHand (me, i) = 0 := total_eq_zero fun b hb => by simp [(empty b hb).2]
  have somewhere := delivered (fun _ _ => Delivers.lasting) h live i
  rw [count_order (upkeep h), queued, held, accepted_ok hc ok] at somewhere
  exact somewhere

theorem accepted_arrives_rested : rested.onWire (0, 1) = 1 := by
  have run : exec (machine 0) Delivers blocked bothPassed = some rested := by decide
  exact accepted_arrives (exec_reachable blocked_init run) rfl rfl (settled_stuck rested_settled)
    (show rested.sender.calls[1]? = some ⟨.send, note 2, true, .returned .ok⟩ from rfl) rfl

end RefSender
