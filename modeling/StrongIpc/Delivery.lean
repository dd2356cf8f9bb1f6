import StrongIpc.Ordering

/-!
# What `Ok` and `Closed` promise

An accepted message is in exactly one place until the peer closes, and `Closed`
is said only when it has, in the runs where the drain task is never made to send
more descriptors than one message can carry. Such a message is refused by the
kernel with the peer alive; the drain task then drops it and leaves, with
everything queued behind it, and every later send finds its channel closed. So it
does when the runtime goes away and drops the task. Where `Closed` is at issue the
kernel must besides not fail for reasons of its own.
-/

namespace RefSender

open BoundedChannel OutboxTraffic Roster StepMachine Wire

/-! ## The conditions -/

/-- The message in the drain task's hand can be sent at all. -/
def Sender.handFits (s : Sender) (o : Nat) : Bool :=
  match s.boxes[o]? with
  | none => true
  | some b => (hand b.outbox.drain).all fun p => p.message.fds.length ≤ maxFds

/-- The drain task does not try to send too many descriptors to a live peer. -/
def fits (w : World) : Act → Bool
  | .drain o (.sendmsg _) => !w.socket.peerOpen || w.sender.handFits o
  | _ => true

/-- `sendmsg` fails for want of room, for a closed peer or for too many
descriptors, and for no other reason. -/
def noOther : Act → Bool
  | .sendNow _ .other => false
  | .drain _ (.sendmsg .other) => false
  | _ => true

/-- The runtime that the drain tasks were spawned on keeps running. -/
def keepsRunning : Act → Bool
  | .drain _ .abort => false
  | _ => true

/-- Somebody may still queue messages in this outbox. -/
def Sender.isFed (s : Sender) (o : Nat) : Bool :=
  match s.boxes[o]? with
  | none => false
  | some b => b.outbox.channel.sending

/-- Nor does building an outbox fail, nor is the drain task of one still in use dropped
with its runtime, while the peer lives. -/
def unfailing (w : World) (a : Act) : Bool :=
  !w.socket.peerOpen || match a with
    | .build _ none => false
    | .drain o .abort => !w.sender.isFed o
    | a => noOther a

def Assumed (_ : World) (a : Act) : Prop := noOther a = true ∧ keepsRunning a = true

def Delivers (w : World) (a : Act) : Prop :=
  noOther a = true ∧ keepsRunning a = true ∧ fits w a = true

def Honours (w : World) (a : Act) : Prop := unfailing w a = true ∧ fits w a = true

instance (w : World) (a : Act) : Decidable (Assumed w a) :=
  inferInstanceAs (Decidable (_ ∧ _))

instance (w : World) (a : Act) : Decidable (Delivers w a) :=
  inferInstanceAs (Decidable (_ ∧ _))

instance (w : World) (a : Act) : Decidable (Honours w a) :=
  inferInstanceAs (Decidable (_ ∧ _))

/-- What both conditions say of the drain task. -/
structure Carried (w : World) (a : Act) : Prop where
  answer : w.socket.peerOpen = true → ∀ o r, a = .drain o (.sendmsg r) →
    r ≠ .other ∧ w.sender.handFits o = true
  spared : w.socket.peerOpen = true → ∀ o, a = .drain o .abort → w.sender.isFed o = false

/-- No drain task at all is dropped, even one that only has a backlog to send. -/
structure Lasting (w : World) (a : Act) : Prop extends Carried w a where
  running : w.socket.peerOpen = true → keepsRunning a = true

theorem Delivers.lasting {w : World} {a : Act} (h : Delivers w a) : Lasting w a := by
  obtain ⟨known, running, fit⟩ := h
  refine ⟨⟨?_, ?_⟩, fun _ => running⟩
  · rintro live o r rfl
    refine ⟨?_, by simpa [fits, live] using fit⟩
    rintro rfl
    cases known
  · rintro _ o rfl
    cases running

theorem Honours.carried {w : World} {a : Act} (h : Honours w a) : Carried w a := by
  obtain ⟨known, fit⟩ := h
  constructor
  · rintro live o r rfl
    refine ⟨?_, by simpa [fits, live] using fit⟩
    rintro rfl
    simp [unfailing, live, noOther] at known
  · rintro live o rfl
    simpa [unfailing, live] using known

theorem peer_move {me : Nat} {w w' : World} {a : Act} (m : Move me w a w')
    (live : w'.socket.peerOpen = true) : w.socket.peerOpen = true := by
  cases m with
  | peerClose => cases live
  | inline i c r k hc hs hk =>
    obtain ⟨_, ⟨_, rfl⟩ | ⟨_, rfl⟩⟩ := sendNow_cases hk
    · exact live
    · exact live
  | drain o a b k x hb hk hm =>
    cases a with
    | sendmsg r =>
      cases hd : b.outbox.drain with
      | sending p =>
        obtain ⟨_, ⟨_, rfl⟩ | ⟨_, rfl⟩⟩ := sendNow_cases
          (show w.socket.sendNow p r = some k by simpa [drainSocket, hd] using hk)
        · exact live
        · exact live
      | _ => simp [drainSocket, hd] at hk
    | _ => exact (Option.some.inj hk) ▸ live
  | _ => exact live

/-- A live peer's socket takes a message that fits or is full. -/
theorem live_answer {k k' : Socket} {p : Sent} {r : SendResult} (hk : k.sendNow p r = some k')
    (live : k.peerOpen = true) (known : r ≠ .other) (fit : p.message.fds.length ≤ maxFds) :
    r = .ok ∨ r = .wouldBlock := by
  obtain ⟨may, _⟩ := sendNow_cases hk
  cases r with
  | ok => exact Or.inl rfl
  | wouldBlock => exact Or.inr rfl
  | brokenPipe => simp [Socket.mayAnswer, live] at may
  | invalidInput =>
    have : maxFds < p.message.fds.length := by simpa [Socket.mayAnswer] using may
    omega
  | other => exact absurd rfl known

/-- The drain task's send to a live peer succeeds or waits. -/
theorem drain_answer {w : World} {o : Nat} {b : Box} {p : Sent} {r : SendResult} {k : Socket}
    (hcar : Carried w (.drain o (.sendmsg r))) (live : w.socket.peerOpen = true)
    (hb : w.sender.boxes[o]? = some b) (busy : b.outbox.drain = .sending p)
    (hk : drainSocket w.socket b.outbox (.sendmsg r) = some k) : r = .ok ∨ r = .wouldBlock := by
  obtain ⟨known, fit⟩ := hcar.answer live o r rfl
  apply live_answer (p := p) (by simpa [drainSocket, busy] using hk) live known
  simpa [Sender.handFits, hb, hand, busy] using fit

/-! ## Why a drain task ends -/

/-- A drain task has not failed, and one that leaves or is gone had every sender gone
and left nothing queued. -/
structure Honest (b : Outbox Sent) : Prop where
  succeeded : ∀ p, b.drain ≠ .accounting p false
  finished : b.drain = .leaving ∨ b.drain = .ended →
    b.channel.sending = false ∧ b.channel.queue = []

def AllHonest (s : Sender) : Prop := ∀ (o : Nat) (b : Box), s.boxes[o]? = some b → Honest b.outbox

theorem honest_drain {b x : Outbox Sent} {a : DrainAct} (h : Honest b) (hm : DrainMove b a x)
    (answer : ∀ p r, a = .sendmsg r → b.drain = .sending p → r = .ok ∨ r = .wouldBlock)
    (spared : a = .abort → b.channel.sending = false) : Honest x := by
  cases hm with
  | took p rest idle hq => exact ⟨by simp, by simp⟩
  | closed idle empty gone => exact ⟨by simp, fun _ => ⟨gone, empty⟩⟩
  | retry p busy => exact h
  | answered p r busy final =>
    rcases answer p r rfl busy with rfl | again
    · exact ⟨by simp, by simp⟩
    · exact absurd again final
  | accounted p sent busy =>
    cases sent with
    | false => exact absurd busy (h.succeeded p)
    | true => exact ⟨by simp, by simp⟩
  | left leaving => exact ⟨by simp, fun _ => ⟨(h.finished (Or.inl leaving)).1, rfl⟩⟩
  | aborted parked => exact ⟨by simp, fun _ => ⟨spared rfl, rfl⟩⟩

theorem honest_close {b : Outbox Sent} (h : Honest b) : Honest (closeBox b).1 := by
  obtain ⟨_, drain, _, sending, queue⟩ := closeBox_spec b
  refine ⟨drain ▸ h.succeeded, fun left => ⟨sending, ?_⟩⟩
  have empty := (h.finished (drain ▸ left)).2
  rw [queue, empty]
  simp

theorem honest_step {me : Nat} {w w' : World} {a : Act} (hu : Upkeep me w)
    (h : AllHonest w.sender) (m : Move me w a w')
    (answer : ∀ (o : Nat) (b : Box) p r, a = .drain o (.sendmsg r) →
      w.sender.boxes[o]? = some b → b.outbox.drain = .sending p → r = .ok ∨ r = .wouldBlock)
    (spared : ∀ (o : Nat) (b : Box), a = .drain o .abort → w.sender.boxes[o]? = some b →
      b.outbox.channel.sending = false) : AllHonest w'.sender := by
  intro o b' hb'
  rcases box_move m hb' with ⟨d, rfl, _⟩ | ⟨b, hb, _, hm⟩
  · exact ⟨by simp [OutboxTraffic.build], by simp [OutboxTraffic.build]⟩
  · have old := h o b hb
    generalize hx : b'.outbox = x at hm
    cases hm with
    | still => exact old
    | queue i c op op' _ hc hs hm =>
      have sends := hu.queueing_sends hc hs hb
      obtain ⟨drain, _, _, _⟩ := hm.effect
      constructor
      · exact drain ▸ old.succeeded
      · intro left
        have gone := (old.finished (drain ▸ left)).1
        rw [sends] at gone
        cases gone
    | park _ i c op op' _ hc hs hm =>
      obtain ⟨drain, _, queue, sending, _⟩ := hm.effect
      exact ⟨drain ▸ old.succeeded, fun left =>
        ⟨sending.trans (old.finished (drain ▸ left)).1,
          queue.trans (old.finished (drain ▸ left)).2⟩⟩
    | drain a _ hm =>
      exact honest_drain old hm (fun p r ha busy => answer o b p r (ha ▸ rfl) hb busy)
        fun ha => spared o b (ha ▸ rfl) hb
    | lost _ i c next hc hs => exact honest_close old
    | released alive allOver hset => exact honest_close old

theorem honest {me : Nat} {guard : World → Act → Prop} (carried : ∀ w a, guard w a → Carried w a)
    {w : World} (h : Reachable (machine me) guard w) (live : w.socket.peerOpen = true) :
    AllHonest w.sender := by
  refine reachable_invariant_with (Q := Upkeep me)
    (P := fun w => w.socket.peerOpen = true → AllHonest w.sender) (fun _ => upkeep) ?_ ?_ h live
  · rintro w ⟨runtime, hw, _⟩ _ o b hb
    simp [hw, fresh] at hb
  · intro w a w' hu hh ok hstep live'
    have m := step_move hstep
    have live := peer_move m live'
    apply honest_step hu (hh live) m
    · rintro o b p r rfl hb busy
      cases m with
      | drain _ _ b' k x hb' hk hm =>
        obtain rfl : b' = b := Option.mem_unique hb' hb
        exact drain_answer (carried w _ ok) live hb busy hk
    · rintro o b rfl hb
      simpa [Sender.isFed, hb] using (carried w _ ok).spared live o rfl

/-- The drain task of an outbox that has its sender is still there. -/
theorem AllHonest.receives {me : Nat} {w : World} (h : AllHonest w.sender) (hu : Upkeep me w)
    {o : Nat} {b : Box} (hb : w.sender.boxes[o]? = some b)
    (sends : b.outbox.channel.sending = true) : b.outbox.channel.receiving = true := by
  by_contra gone
  have ended := (hu.sound o b hb).receiving.mp (Bool.eq_false_iff.mpr gone)
  have silent := ((h o b hb).finished (Or.inr ended)).1
  rw [sends] at silent
  cases silent

/-- A live peer's sender loses nothing. -/
theorem no_loss {me : Nat} {w w' : World} {a : Act} (hu : Upkeep me w)
    (hh : AllHonest w.sender) (m : Move me w a w') (hl : Lasting w a)
    (live : w.socket.peerOpen = true) {o : Nat} {b : Box} (once : w.sender.once = some o)
    (hb : w.sender.boxes[o]? = some b) (lossy : Lossy w.sender o b.outbox a) :
    w.sender.line = [] := by
  cases lossy with
  | failed p r busy bad final =>
    cases m with
    | drain _ _ b' k x hb' hk hm =>
      obtain rfl : b' = b := Option.mem_unique hb' hb
      rcases drain_answer hl.toCarried live hb busy hk with sent | again
      · exact absurd sent bad
      · exact absurd again final
  | left leaving =>
    obtain ⟨_, empty⟩ := (hh o b hb).finished (Or.inl leaving)
    rw [line_once once hb]
    simp [line, hand, leaving, empty]
  | aborted parked => cases hl.running live
  | closed alive gone =>
    have receiving := hh.receives hu hb ((hu.sound o b hb).sending once alive)
    rw [gone] at receiving
    cases receiving

/-! ## Where an accepted message is -/

def World.onWire (w : World) (t : Nat × Nat) : Nat := (w.socket.wire.map Sent.tag).count t

/-- In the channel of some outbox. -/
def World.queued (w : World) (t : Nat × Nat) : Nat :=
  total (fun b : Box => (b.outbox.channel.queue.map Sent.tag).count t) w.sender.boxes

/-- In the hand of some drain task, its send still to come. -/
def World.inHand (w : World) (t : Nat × Nat) : Nat :=
  total (fun b : Box => ((hand b.outbox.drain).map Sent.tag).count t) w.sender.boxes

theorem count_order {me : Nat} {w : World} (hu : Upkeep me w) (t : Nat × Nat) :
    w.order.count t = w.onWire t + w.queued t + w.inHand t := by
  have empty : ∀ (o : Nat) (b : Box), w.sender.once ≠ some o → w.sender.boxes[o]? = some b →
      hand b.outbox.drain = [] ∧ b.outbox.channel.queue = [] := by
    intro o b other hb
    have none_here := line_untouched ((hu.sound o b hb).untouched other)
    exact List.append_eq_nil_iff.mp none_here
  rw [World.order, List.count_append, World.onWire]
  cases once : w.sender.once with
  | none =>
    have unused : ∀ b ∈ w.sender.boxes, hand b.outbox.drain = [] ∧
        b.outbox.channel.queue = [] := by
      intro b hb
      obtain ⟨o, ho⟩ := List.getElem?_of_mem hb
      exact empty o b (by simp [once]) ho
    have queued : w.queued t = 0 := total_eq_zero fun b hb => by simp [(unused b hb).2]
    have held : w.inHand t = 0 := total_eq_zero fun b hb => by simp [(unused b hb).1]
    rw [line_unset once, queued, held]
    rfl
  | some o =>
    obtain ⟨b, hb⟩ : ∃ b, w.sender.boxes[o]? = some b :=
      ⟨_, List.getElem?_eq_getElem (hu.linked.once_built o once)⟩
    have others : ∀ (j : Nat) (b : Box), j ≠ o → w.sender.boxes[j]? = some b →
        hand b.outbox.drain = [] ∧ b.outbox.channel.queue = [] := by
      intro j b apart hj
      refine empty j b ?_ hj
      rw [once]
      exact fun same => apart (Option.some.inj same).symm
    have queued : w.queued t = _ :=
      total_single hb fun j b apart hj => by simp [(others j b apart hj).2]
    have held : w.inHand t = _ :=
      total_single hb fun j b apart hj => by simp [(others j b apart hj).1]
    rw [line_once once hb, queued, held, line, List.map_append, List.count_append]
    omega

/-- Every message accepted is somewhere once, and no other is anywhere. -/
def Delivered (me : Nat) (w : World) : Prop :=
  ∀ i, w.order.count (me, i) = w.sender.accepted i

theorem delivered_step {me : Nat} {w w' : World} {a : Act} (hu : Upkeep me w)
    (hh : AllHonest w.sender) (h : Delivered me w) (m : Move me w a w') (hl : Lasting w a)
    (live : w.socket.peerOpen = true) : Delivered me w' := by
  intro i
  have old := h i
  rcases (hu.flow m).tally with ⟨o, b, once, hb, lossy, steady, _, kept⟩ | ⟨more, both⟩
  · rw [kept (no_loss hu hh m hl live once hb lossy), steady i]
    exact old
  · obtain ⟨accepted, count⟩ := both i
    omega

theorem delivered {me : Nat} {guard : World → Act → Prop}
    (lasting : ∀ w a, guard w a → Lasting w a) {w : World}
    (h : Reachable (machine me) guard w) (live : w.socket.peerOpen = true) : Delivered me w := by
  refine reachable_invariant_with
    (Q := fun w => Upkeep me w ∧ (w.socket.peerOpen = true → AllHonest w.sender))
    (P := fun w => w.socket.peerOpen = true → Delivered me w) ?_ ?_ ?_ h live
  · exact fun w hw => ⟨upkeep hw, honest (fun w a ok => (lasting w a ok).toCarried) hw⟩
  · rintro w ⟨runtime, hw, others⟩ _ i
    rw [World.order, hw, Sender.accepted]
    apply List.count_eq_zero.mpr
    intro mine
    obtain ⟨p, hp, same⟩ := List.mem_map.mp (List.mem_append.mp mine |>.resolve_right (by
      simp [fresh, Sender.line]))
    exact others p hp (congrArg Prod.fst same)
  · rintro w a w' ⟨hu, hh⟩ hp ok hstep live'
    have m := step_move hstep
    have live := peer_move m live'
    exact delivered_step hu (hh live) (hp live) m (lasting w a ok) live

/-- Until the peer closes, a message whose call returned `Ok` is once on the wire,
in a channel or in a drain task's hand, provided no drain task is made to send
more descriptors than one message carries. -/
theorem accepted_is_somewhere {me : Nat} {w : World} {i : Nat} {c : Call}
    (h : Reachable (machine me) Delivers w) (hc : w.sender.calls[i]? = some c)
    (ok : c.stage = .returned .ok) :
    w.onWire (me, i) + w.queued (me, i) + w.inHand (me, i) = 1 ∨
      w.socket.peerOpen = false := by
  cases live : w.socket.peerOpen with
  | false => exact Or.inr rfl
  | true =>
    apply Or.inl
    rw [← count_order (upkeep h), delivered (fun _ _ => Delivers.lasting) h live i,
      accepted_ok hc ok]

theorem bothSent_delivers : exec (machine 0) Delivers blocked
    [.enter .trySend (note 1) true, .call 0, .sendNow 0 .wouldBlock, .call 0, .build 0 (some 9),
      .call 0, .call 0, .call 0, .call 0, .enter .send (note 2) true, .call 1, .drain 0 .recv,
      .call 1, .room true, .call 1, .drain 0 (.sendmsg .ok), .call 1, .call 1,
      .drain 0 .account, .drain 0 .recv, .drain 0 (.sendmsg .ok)] = some bothSent := by
  decide

theorem accepted_is_somewhere_bothSent :
    bothSent.onWire (0, 1) + bothSent.queued (0, 1) + bothSent.inHand (0, 1) = 1 ∨
      bothSent.socket.peerOpen = false :=
  accepted_is_somewhere (exec_reachable blocked_init bothSent_delivers)
    (show bothSent.sender.calls[1]? = some ⟨.send, note 2, true, .returned .ok⟩ from rfl) rfl

/-- One descriptor more than a message can carry. -/
def overfull : Message := ⟨[0], List.replicate 254 (.owned 5)⟩

/-- Both messages were accepted; the kernel refused the first, the drain task left
with the second still queued, and the peer is there. -/
def bothLost : World where
  socket := ⟨false, true, []⟩
  sender :=
    { fresh true with
      once := some 0
      boxes := [⟨9, ⟨1, ⟨depth, [], 0, true, false⟩, .ended⟩⟩]
      calls := [⟨.trySend, overfull, true, .returned .ok⟩,
        ⟨.trySend, note 2, true, .returned .ok⟩]
      trash := [overfull, note 2] }

set_option maxRecDepth 8000 in
theorem bothLost_run : exec (machine 0) Assumed blocked
    [.enter .trySend overfull true, .call 0, .call 0, .build 0 (some 9), .call 0, .call 0,
      .call 0, .call 0, .enter .trySend (note 2) true, .call 1, .call 1, .call 1, .call 1,
      .call 1, .drain 0 .recv, .drain 0 (.sendmsg .invalidInput), .drain 0 .account,
      .drain 0 .finish] = some bothLost := by
  decide

/-- A queued message with too many descriptors discards itself and what is behind it. -/
theorem accepted_is_lost :
    ¬ ∀ w : World, Reachable (machine 0) Assumed w → ∀ (i : Nat) c,
      w.sender.calls[i]? = some c → c.stage = .returned .ok →
        w.onWire (0, i) + w.queued (0, i) + w.inHand (0, i) = 1 ∨ w.socket.peerOpen = false := by
  intro claim
  have wrong := claim bothLost (exec_reachable blocked_init bothLost_run) 1
    ⟨.trySend, note 2, true, .returned .ok⟩ rfl rfl
  exact absurd wrong (by decide)

/-! ## When `Closed` is said -/

/-- The call reports `Closed`, or is giving its count back in order to. -/
def Stage.saysClosed : Stage → Bool
  | .returned .closed => true
  | .queueing _ (.giveBack .closed) => true
  | _ => false

theorem forall_restage {P : Call → Prop} {s : Sender} (h : ∀ c ∈ s.calls, P c) {i : Nat}
    {c : Call} {stage : Stage} (new : P { c with stage }) :
    ∀ d ∈ s.calls.set i { c with stage }, P d := by
  intro d hd
  rcases List.mem_or_eq_of_mem_set hd with old | rfl
  · exact h d old
  · exact new

theorem walk_quiet {s : Sender} {c : Call} {stage : Stage} (h : s.walk c = some stage) :
    stage.saysClosed = false ∧ (stage = .inline → c.message.fds.length ≤ maxFds) := by
  rw [Sender.walk] at h
  split at h
  case h_1 =>
    split at h
    · cases h
      exact ⟨rfl, by simp⟩
    · split at h
      · cases hi : inlineOk c.message false with
        | true =>
          obtain rfl : Stage.inline = stage := by simpa [hi] using h
          exact ⟨rfl, fun _ => by simpa [inlineOk] using hi⟩
        | false =>
          obtain rfl : Stage.getting .push = stage := by simpa [hi] using h
          exact ⟨rfl, by simp⟩
      · cases h
        exact ⟨rfl, by simp⟩
  case h_2 =>
    split at h
    · cases h
    · rename_i b _
      cases hi : inlineOk c.message b.outbox.isBackedUp with
      | true =>
        obtain rfl : Stage.inline = stage := by simpa [hi] using h
        have both := (Bool.and_eq_true _ _).mp hi
        exact ⟨rfl, fun _ => by simpa using both.1⟩
      | false =>
        obtain rfl : Stage.getting .push = stage := by simpa [hi] using h
        exact ⟨rfl, by simp⟩
  case h_3 next _ =>
    split at h
    · cases h
      exact ⟨rfl, by simp⟩
    · cases h
      exact ⟨by cases next <;> rfl, by simp⟩
  case h_4 =>
    split at h
    · cases h
    · cases h
      exact ⟨rfl, by simp⟩
  case h_5 next _ =>
    split at h
    · cases h
    · cases h
      exact ⟨by cases next <;> rfl, by simp⟩
  case h_6 => cases h

/-- An operation that meets a receiver reports `Closed` only if it was about to. -/
theorem settle_quiet (kind : Kind) (o : Nat) {op : Op}
    (h : op ≠ .done (.refused .closed)) (h' : op ≠ .giveBack .closed) :
    (settle kind o op).saysClosed = false ∧ settle kind o op ≠ .inline := by
  cases op with
  | done r =>
    cases r with
    | refused e => cases e <;> cases kind <;> simp_all [settle, Stage.saysClosed]
    | _ => simp [settle, Stage.saysClosed]
  | giveBack e => cases e <;> simp_all [settle, Stage.saysClosed]
  | _ => simp [settle, Stage.saysClosed]

theorem open_quiet {b x : Outbox Sent} {p : Sent} {op op' : Op} (hm : OpMove b p op x op')
    (receiving : b.channel.receiving = true) (before : op ≠ .giveBack .closed) :
    op' ≠ .done (.refused .closed) ∧ op' ≠ .giveBack .closed := by
  cases hm with
  | bounced e gone _ =>
    cases e with
    | full => simp
    | closed => simp [gone rfl] at receiving
  | gaveBack e =>
    cases e with
    | full => simp
    | closed => exact absurd rfl before
  | turnedAway gone => simp [gone] at receiving
  | grantLost gone => simp [gone] at receiving
  | _ => simp

/-- Nobody has been told `Closed`, and whoever is on the inline path has a message
that fits. -/
structure Unclosed (s : Sender) : Prop where
  open_calls : ∀ c ∈ s.calls, c.stage.saysClosed = false
  inline_fits : ∀ c ∈ s.calls, c.stage = .inline → c.message.fds.length ≤ maxFds

theorem Unclosed.restage {s t : Sender} (h : Unclosed s) {i : Nat} {c : Call} (stage : Stage)
    (ht : t.calls = s.calls.set i { c with stage }) (quiet : stage.saysClosed = false)
    (inline : stage = .inline → c.message.fds.length ≤ maxFds) : Unclosed t where
  open_calls := ht ▸ forall_restage h.open_calls quiet
  inline_fits := ht ▸ forall_restage h.inline_fits inline

theorem unclosed_step {me : Nat} {w w' : World} {a : Act} (hu : Upkeep me w)
    (hh : AllHonest w.sender) (h : Unclosed w.sender) (m : Move me w a w')
    (unfails : unfailing w a = true) (live : w.socket.peerOpen = true) : Unclosed w'.sender := by
  cases m with
  | enter kind m onRuntime alive =>
    have new : ∀ c ∈ w.sender.calls ++ [⟨kind, m, onRuntime, .entered⟩],
        c ∈ w.sender.calls ∨ c.stage = .entered := by
      intro c hc
      rcases List.mem_append.mp hc with old | last
      · exact Or.inl old
      · exact Or.inr (by rw [List.mem_singleton.mp last])
    constructor
    · intro c hc
      rcases new c hc with old | entered
      · exact h.open_calls c old
      · rw [entered]
        rfl
    · intro c hc inline
      rcases new c hc with old | entered
      · exact h.inline_fits c old inline
      · rw [entered] at inline
        cases inline
  | walk i c stage hc hw =>
    obtain ⟨quiet, inline⟩ := walk_quiet hw
    exact h.restage _ rfl quiet inline
  | set i c next o hc hs unset => exact h.restage (.gotten next) rfl rfl (by simp)
  | lose i c next o b hc hs hb => exact h.restage (.gotten next) rfl rfl (by simp)
  | queue i c o op op' b x hc hs hb hm =>
    have receiving := hh.receives hu hb (hu.queueing_sends hc hs hb)
    have before : op ≠ .giveBack .closed := by
      rintro rfl
      have quiet := h.open_calls c (List.mem_of_getElem? hc)
      rw [hs] at quiet
      cases quiet
    obtain ⟨refused, giving⟩ := open_quiet hm receiving before
    obtain ⟨quiet, past⟩ := settle_quiet c.kind o refused giving
    exact h.restage _ rfl quiet fun inline => absurd inline past
  | inline i c r k hc hs hk =>
    have fit := h.inline_fits c (List.mem_of_getElem? hc) hs
    have known : r ≠ .other := by
      rintro rfl
      simp [unfailing, live, noOther] at unfails
    rcases live_answer hk live known fit with rfl | rfl
    · exact h.restage (.returned .ok) rfl rfl (by simp)
    · exact h.restage (.getting .push) rfl rfl (by simp)
  | built i c next d hc hs => exact h.restage (.setting next _) rfl rfl (by simp)
  | buildFailed i c next hc hs => simp [unfailing, live] at unfails
  | noRuntime i c next dup hc hs bare => exact h.restage .panicked rfl rfl (by simp)
  | grant i c o op op' b x hc hs hb hm =>
    obtain ⟨quiet, past⟩ : (settle c.kind o op').saysClosed = false ∧
        settle c.kind o op' ≠ .inline := by
      cases hm <;> exact settle_quiet _ _ (by simp) (by simp)
    exact h.restage _ rfl quiet fun inline => absurd inline past
  | cancel i c o op op' b x hc hs hb hm =>
    obtain ⟨quiet, past⟩ : (settle c.kind o op').saysClosed = false ∧
        settle c.kind o op' ≠ .inline := by
      cases hm <;> exact settle_quiet _ _ (by simp) (by simp)
    exact h.restage _ rfl quiet fun inline => absurd inline past
  | take i c r hc hs failed => exact h.restage .taken rfl rfl (by simp)
  | _ => exact ⟨h.open_calls, h.inline_fits⟩

/-- `Closed` is the peer being gone, provided that while the peer is there no
drain task is made to send more descriptors than one message carries, `sendmsg`
fails only as documented, outboxes can be built, and no runtime goes away with the
drain task of an outbox that is in use. -/
theorem closed_means_gone {me : Nat} {w : World} {i : Nat} {c : Call}
    (h : Reachable (machine me) Honours w) (hc : w.sender.calls[i]? = some c)
    (closed : c.stage = .returned .closed) : w.socket.peerOpen = false := by
  have unclosed : w.socket.peerOpen = true → Unclosed w.sender := by
    refine reachable_invariant_with
      (Q := fun w => Upkeep me w ∧ (w.socket.peerOpen = true → AllHonest w.sender))
      (P := fun w => w.socket.peerOpen = true → Unclosed w.sender) ?_ ?_ ?_ h
    · exact fun w hw => ⟨upkeep hw, honest (fun _ _ => Honours.carried) hw⟩
    · rintro w ⟨runtime, hw, _⟩ _
      exact ⟨by simp [hw, fresh], by simp [hw, fresh]⟩
    · rintro w a w' ⟨hu, hh⟩ hp ok hstep live'
      have m := step_move hstep
      have live := peer_move m live'
      exact unclosed_step hu (hh live) (hp live) m ok.1 live
  by_contra live
  have quiet := (unclosed (Bool.not_eq_false _ ▸ live)).open_calls c (List.mem_of_getElem? hc)
  rw [closed] at quiet
  cases quiet

/-- The peer closed and the next send found out. -/
def toldClosed : World where
  socket := ⟨false, false, []⟩
  sender := { fresh true with calls := [⟨.trySend, note 1, true, .returned .closed⟩] }

theorem toldClosed_run : exec (machine 0) Honours blocked
    [.enter .trySend (note 1) true, .peerClose, .call 0, .sendNow 0 .brokenPipe] =
      some toldClosed := by
  decide

theorem closed_means_gone_toldClosed : toldClosed.socket.peerOpen = false :=
  closed_means_gone (exec_reachable blocked_init toldClosed_run)
    (show toldClosed.sender.calls[0]? = some ⟨.trySend, note 1, true, .returned .closed⟩ from rfl)
    rfl

/-- The drain task left over a message with too many descriptors; the next send
finds the channel closed and the peer there. -/
def wronglyClosed : World where
  socket := ⟨false, true, []⟩
  sender :=
    { fresh true with
      once := some 0
      boxes := [⟨9, ⟨0, ⟨depth, [], 0, true, false⟩, .ended⟩⟩]
      calls := [⟨.trySend, overfull, true, .returned .ok⟩,
        ⟨.trySend, note 2, true, .returned .closed⟩]
      trash := [overfull] }

set_option maxRecDepth 8000 in
theorem wronglyClosed_run : exec (machine 0) Assumed blocked
    [.enter .trySend overfull true, .call 0, .call 0, .build 0 (some 9), .call 0, .call 0,
      .call 0, .call 0, .drain 0 .recv, .drain 0 (.sendmsg .invalidInput), .drain 0 .account,
      .drain 0 .finish, .enter .trySend (note 2) true, .call 1, .call 1, .sendNow 1 .wouldBlock,
      .call 1, .call 1, .call 1, .call 1] = some wronglyClosed := by
  decide

/-- `Closed` is also what follows a message with too many descriptors. -/
theorem closed_with_peer_open :
    ¬ ∀ w : World, Reachable (machine 0) anyStep w → ∀ (i : Nat) c,
      w.sender.calls[i]? = some c → c.stage = .returned .closed →
        w.socket.peerOpen = false := by
  intro claim
  have wrong := claim wronglyClosed
    (reachable_unguarded (exec_reachable blocked_init wronglyClosed_run)) 1
    ⟨.trySend, note 2, true, .returned .closed⟩ rfl rfl
  exact absurd wrong (by decide)

end RefSender
