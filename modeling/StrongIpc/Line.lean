import StrongIpc.SenderInvariants

/-!
# What is accepted and not yet sent

The line of a sender is the message its drain task is about to send, followed by
the queue. A step sends a message from the head of the line, adds one at its end,
sends one past an empty or non-empty line, or loses some of it. Losing takes a
failed send, a drain task that leaves or is dropped, or a channel nobody receives
from.
-/

namespace RefSender

open BoundedChannel OutboxTraffic Roster StepMachine Wire

/-- The message in hand, until the answer to its `sendmsg` is in. -/
def hand : Drain Sent → List Sent
  | .sending p => [p]
  | _ => []

def line (b : Outbox Sent) : List Sent := hand b.drain ++ b.channel.queue

def Sender.line (s : Sender) : List Sent :=
  match s.once with
  | none => []
  | some o =>
    match s.boxes[o]? with
    | none => []
    | some b => RefSender.line b.outbox

/-- One for a call that returned `Ok`. -/
def Sender.accepted (s : Sender) (i : Nat) : Nat :=
  match s.calls[i]? with
  | none => 0
  | some c => if c.stage = .returned .ok then 1 else 0

/-- No call returned `Ok` that had not. -/
def Steady (w w' : World) : Prop := ∀ i, w'.sender.accepted i = w.sender.accepted i

/-- How a step can lose accepted messages. -/
inductive Lossy (s : Sender) (o : Nat) (b : Outbox Sent) : Act → Prop where
  | failed (p : Sent) (r : SendResult) (busy : b.drain = .sending p) (bad : r ≠ .ok)
      (final : r ≠ .wouldBlock) : Lossy s o b (.drain o (.sendmsg r))
  | left (leaving : b.drain = .leaving) : Lossy s o b (.drain o .finish)
  | aborted (parked : b.drain.isParked = true) : Lossy s o b (.drain o .abort)
  | closed (alive : s.alive = true) (gone : b.channel.receiving = false) : Lossy s o b .release

/-- What a step does to the wire and the line. -/
inductive Flow (me : Nat) (w : World) (a : Act) (w' : World) : Prop where
  | still (steady : Steady w w') (wire : w'.socket.wire = w.socket.wire)
      (same : w'.sender.line = w.sender.line)
  | lose (o : Nat) (b : Box) (once : w.sender.once = some o) (hb : w.sender.boxes[o]? = some b)
      (lossy : Lossy w.sender o b.outbox a) (steady : Steady w w')
      (wire : w'.socket.wire = w.socket.wire)
      (rest : w'.sender.line.Sublist w.sender.line)
  | push (i : Nat) (c : Call) (o : Nat) (op : Op) (hc : w.sender.calls[i]? = some c)
      (hs : c.stage = .queueing o op) (ha : a = .call i)
      (accepted : w'.sender.calls = w.sender.calls.set i { c with stage := .returned .ok })
      (wire : w'.socket.wire = w.socket.wire)
      (longer : w'.sender.line = w.sender.line ++ [⟨me, i, c.message⟩])
  | foreign (p : Sent) (foreign : p.inner ≠ me) (steady : Steady w w')
      (wire : w'.socket.wire = w.socket.wire ++ [p]) (same : w'.sender.line = w.sender.line)
  | inline (i : Nat) (c : Call) (hc : w.sender.calls[i]? = some c) (hs : c.stage = .inline)
      (accepted : w'.sender.calls = w.sender.calls.set i { c with stage := .returned .ok })
      (wire : w'.socket.wire = w.socket.wire ++ [⟨me, i, c.message⟩])
      (same : w'.sender.line = w.sender.line)
  | sent (p : Sent) (steady : Steady w w') (wire : w'.socket.wire = w.socket.wire ++ [p])
      (head : w.sender.line = p :: w'.sender.line)

theorem accepted_ok {s : Sender} {i : Nat} {c : Call} (hc : s.calls[i]? = some c)
    (ok : c.stage = .returned .ok) : s.accepted i = 1 := by
  simp [Sender.accepted, hc, ok]

theorem accepted_busy {s : Sender} {i : Nat} {c : Call} (hc : s.calls[i]? = some c)
    (busy : c.stage ≠ .returned .ok) : s.accepted i = 0 := by
  simp [Sender.accepted, hc, busy]

theorem accepted_set_other {s t : Sender} {i j : Nat} {d : Call}
    (ht : t.calls = s.calls.set j d) (other : i ≠ j) : t.accepted i = s.accepted i := by
  simp only [Sender.accepted, ht, List.getElem?_set_ne other.symm]

theorem accepted_enter (s : Sender) {c : Call} (new : c.stage ≠ .returned .ok) (i : Nat) :
    (s.addCall c).accepted i = s.accepted i := by
  by_cases inside : i < s.calls.length
  · simp only [Sender.accepted, addCall_calls, List.getElem?_append_left inside]
  · have absent : s.calls[i]? = none := List.getElem?_eq_none (by omega)
    cases hn : (s.addCall c).calls[i]? with
    | none => simp only [Sender.accepted, hn, absent]
    | some d =>
      rcases getElem?_push_cases hn with ⟨_, rfl⟩ | old
      · rw [accepted_busy hn new]
        simp only [Sender.accepted, absent]
      · rw [absent] at old
        cases old

theorem steady_calls {w w' : World} (same : w'.sender.calls = w.sender.calls) : Steady w w' := by
  intro i
  simp only [Sender.accepted, same]

theorem steady_restage {w w' : World} {j : Nat} {c : Call} (stage : Stage)
    (hc : w.sender.calls[j]? = some c) (busy : c.stage ≠ .returned .ok)
    (refused : stage ≠ .returned .ok)
    (ht : w'.sender.calls = w.sender.calls.set j { c with stage }) : Steady w w' := by
  intro i
  by_cases same : i = j
  · subst same
    have after : w'.sender.calls[i]? = some { c with stage } := by
      rw [ht]
      exact List.getElem?_set_self (lt_of_getElem? hc)
    rw [accepted_busy hc busy, accepted_busy after refused]
  · exact accepted_set_other ht same

theorem line_once {s : Sender} {o : Nat} {b : Box} (once : s.once = some o)
    (hb : s.boxes[o]? = some b) : s.line = line b.outbox := by
  simp only [Sender.line, once, hb]

theorem line_unset {s : Sender} (unset : s.once = none) : s.line = [] := by
  simp only [Sender.line, unset]

theorem line_setBox {s : Sender} {o : Nat} {b : Box} (x : Outbox Sent) (once : s.once = some o)
    (hb : s.boxes[o]? = some b) : (s.setBox o b x).line = line x := by
  have inside : o < s.boxes.length := lt_of_getElem? hb
  refine line_once (b := { b with outbox := x }) once ?_
  simp [inside]

theorem line_setBox_other {s : Sender} {o : Nat} (b : Box) (x : Outbox Sent)
    (other : s.once ≠ some o) : (s.setBox o b x).line = s.line := by
  cases once : s.once with
  | none => simp only [Sender.line, setBox_once, once]
  | some p =>
    have apart : o ≠ p := fun same => other (same ▸ once)
    simp only [Sender.line, setBox_once, once, setBox_boxes, List.getElem?_set_ne apart]

theorem line_congr {s t : Sender} (once : t.once = s.once) (boxes : t.boxes = s.boxes) :
    t.line = s.line := by
  simp only [Sender.line, once, boxes]

theorem line_untouched {b : Outbox Sent} (h : Untouched b) : line b = [] := by
  have idle := h.nothing_held
  cases hd : b.drain <;> simp_all [line, hand, h.nothing_queued, Drain.held]

/-- With nothing counted there is no line, which is what the inline path asks. -/
theorem line_uncounted {b : Outbox Sent} (h : b.counted = 0) : line b = [] := by
  simp only [Outbox.counted] at h
  have queue : b.channel.queue = [] := List.length_eq_zero_iff.mp (by omega)
  cases hd : b.drain <;> simp_all [line, hand, Drain.held]

theorem settle_ok {kind : Kind} {o : Nat} {op : Op} (h : settle kind o op = .returned .ok) :
    op = .done .accepted := by
  cases op with
  | done r =>
    cases r with
    | refused e => cases e <;> cases kind <;> cases h
    | accepted => rfl
    | cancelled => cases h
  | _ => cases h

theorem queue_flow {me : Nat} {w : World} {i : Nat} {c : Call} {o : Nat} {op op' : Op} {b : Box}
    {x : Outbox Sent} (hl : Linked w.sender) (hc : w.sender.calls[i]? = some c)
    (hs : c.stage = .queueing o op) (hb : w.sender.boxes[o]? = some b)
    (hm : OpMove b.outbox ⟨me, i, c.message⟩ op x op') :
    Flow me w (.call i) { w with
      sender := (w.sender.setBox o b x).setStage i c (settle c.kind o op') } := by
  have once : w.sender.once = some o := hl.queueing_once hc hs
  have after : ((w.sender.setBox o b x).setStage i c (settle c.kind o op')).line = line x :=
    line_setBox x once hb
  have before : w.sender.line = line b.outbox := line_once once hb
  obtain ⟨drain, _, _, queue⟩ := hm.effect
  by_cases accepted : op' = .done .accepted
  · subst accepted
    refine .push i c o op hc hs rfl rfl rfl ?_
    rw [after, before, line, line, drain, queue, if_pos rfl, List.append_assoc]
  · have unaccepted : settle c.kind o op' ≠ .returned .ok := fun ok => accepted (settle_ok ok)
    refine .still (steady_restage _ hc (by simp [hs]) unaccepted rfl) rfl ?_
    rw [after, before, line, line, drain, queue, if_neg accepted, List.append_nil]

theorem park_flow {me : Nat} {w : World} {a : Act} {i : Nat} {c : Call} {o : Nat} {op op' : Op}
    {b : Box} {x : Outbox Sent} {s : Sender} (hl : Linked w.sender)
    (hc : w.sender.calls[i]? = some c) (hs : c.stage = .queueing o op)
    (hb : w.sender.boxes[o]? = some b) (hm : ParkMove b.outbox op x op')
    (sameOnce : s.once = w.sender.once) (sameBoxes : s.boxes = (w.sender.setBox o b x).boxes)
    (restaged : s.calls = w.sender.calls.set i { c with stage := settle c.kind o op' }) :
    Flow me w a { w with sender := s } := by
  have once : w.sender.once = some o := hl.queueing_once hc hs
  obtain ⟨drain, _, queue, _, _, _, _, refused⟩ := hm.effect
  have unaccepted : settle c.kind o op' ≠ .returned .ok := fun ok => refused (settle_ok ok)
  refine .still (steady_restage _ hc (by simp [hs]) unaccepted restaged) rfl ?_
  calc
    s.line = (w.sender.setBox o b x).line := line_congr sameOnce sameBoxes
    _ = line x := line_setBox x once hb
    _ = line b.outbox := by rw [line, line, drain, queue]
    _ = w.sender.line := (line_once once hb).symm

/-- Closing the channel loses something only when nobody receives from it. -/
theorem line_close (b : Outbox Sent) :
    line (closeBox b).1 = line b ∨
      (b.channel.receiving = false ∧ (line (closeBox b).1).Sublist (line b)) := by
  obtain ⟨_, drain, _, _, queue⟩ := closeBox_spec b
  cases hr : b.channel.receiving with
  | true => exact Or.inl (by simp only [line, drain, queue, hr, if_true])
  | false =>
    refine Or.inr ⟨rfl, ?_⟩
    simp only [line, drain, queue, hr, Bool.false_eq_true, if_false, List.append_nil]
    exact List.sublist_append_left _ _

theorem drain_flow {me : Nat} {w : World} {o : Nat} {a : DrainAct} {b : Box} {k : Socket}
    {x : Outbox Sent} (hs : Sound w.sender) (hb : w.sender.boxes[o]? = some b)
    (hk : drainSocket w.socket b.outbox a = some k) (hm : DrainMove b.outbox a x) :
    Flow me w (.drain o a) ⟨k, (w.sender.setBox o b x).discard (drained b.outbox a)⟩ := by
  have steady : Steady w ⟨k, (w.sender.setBox o b x).discard (drained b.outbox a)⟩ :=
    steady_calls rfl
  by_cases once : w.sender.once = some o
  · have after : ((w.sender.setBox o b x).discard (drained b.outbox a)).line = line x :=
      line_setBox x once hb
    have before : w.sender.line = line b.outbox := line_once once hb
    cases hm with
    | took p rest idle hq =>
      obtain rfl : w.socket = k := Option.some.inj hk
      refine .still steady rfl ?_
      rw [after, before]
      simp [line, hand, idle, hq]
    | closed idle empty gone =>
      obtain rfl : w.socket = k := Option.some.inj hk
      refine .still steady rfl ?_
      rw [after, before]
      simp [line, hand, idle]
    | retry p busy =>
      obtain ⟨_, ⟨again, _⟩ | ⟨_, rfl⟩⟩ := sendNow_cases (by simpa [drainSocket, busy] using hk)
      · cases again
      · exact .still steady rfl (after.trans before.symm)
    | answered p r busy final =>
      obtain ⟨_, ⟨rfl, rfl⟩ | ⟨bad, rfl⟩⟩ :=
        sendNow_cases (show w.socket.sendNow p r = some k by simpa [drainSocket, busy] using hk)
      · refine .sent p steady rfl ?_
        rw [before, show _ = _ from after]
        simp [line, hand, busy]
      · refine .lose o b once hb (.failed p r busy bad final) steady rfl ?_
        rw [before, show _ = _ from after]
        simp [line, hand, busy]
    | accounted p sent busy =>
      obtain rfl : w.socket = k := Option.some.inj hk
      refine .still steady rfl ?_
      rw [after, before]
      cases sent <;> simp [line, hand, busy]
    | left leaving =>
      obtain rfl : w.socket = k := Option.some.inj hk
      refine .lose o b once hb (.left leaving) steady rfl ?_
      rw [before, show _ = _ from after]
      simp [line, hand, Channel.dropReceiver]
    | aborted parked =>
      obtain rfl : w.socket = k := Option.some.inj hk
      refine .lose o b once hb (.aborted parked) steady rfl ?_
      rw [before, show _ = _ from after]
      simp [line, hand, Channel.dropReceiver]
  · -- an outbox that is not in use has nothing in hand to send
    have idle := ((hs o b hb).untouched once).nothing_held
    have same : w.socket = k := by
      cases a with
      | sendmsg r =>
        cases hd : b.outbox.drain <;> simp_all [drainSocket, Drain.held]
      | _ => exact Option.some.inj hk
    subst same
    exact .still steady rfl (line_setBox_other b x once)

theorem walk_not_ok {s : Sender} {c : Call} {stage : Stage} (h : s.walk c = some stage) :
    stage ≠ .returned .ok := by
  rintro rfl
  rw [Sender.walk] at h
  split at h
  case h_1 =>
    split at h
    · cases h
    · split at h
      · cases hi : inlineOk c.message false <;> simp [hi] at h
      · cases h
  case h_2 =>
    split at h
    · cases h
    · rename_i b _
      cases hi : inlineOk c.message b.outbox.isBackedUp <;> simp [hi] at h
  case h_6 => cases h
  all_goals
    split at h
    · cases h
    · cases h

theorem step_flow {me : Nat} {w w' : World} {a : Act} (hl : Linked w.sender)
    (hs : Sound w.sender) (m : Move me w a w') : Flow me w a w' := by
  cases m with
  | other p foreign => exact .foreign p foreign (steady_calls rfl) rfl rfl
  | enter kind m onRuntime alive =>
    exact .still (accepted_enter w.sender (by simp)) rfl rfl
  | walk i c stage hc hw =>
    have busy := walk_busy hw
    refine .still (steady_restage _ hc (fun ok => ?_) (walk_not_ok hw) rfl) rfl rfl
    rw [ok] at busy
    cases busy
  | buildFailed i c next hc hst =>
    exact .still (steady_restage _ hc (by simp [hst]) (by simp) rfl) rfl rfl
  | noRuntime i c next dup hc hst bare =>
    exact .still (steady_restage .panicked hc (by simp [hst]) (by simp) rfl) rfl rfl
  | take i c r hc hst failed =>
    exact .still (steady_restage .taken hc (by simp [hst, failed]) (by simp) rfl) rfl rfl
  | set i c next o hc hst unset =>
    refine .still (steady_restage (.gotten next) hc (by simp [hst]) (by simp) rfl) rfl ?_
    have mine : c.stage.owns = some o := by rw [hst]; rfl
    have built := (hl.owns_built i c o hc mine).1
    have hb : w.sender.boxes[o]? = some w.sender.boxes[o] := List.getElem?_eq_getElem built
    have fresh := (hs o _ hb).untouched (by simp [unset])
    calc
      ((w.sender.setOnce o).setStage i c (.gotten next)).line
          = line (w.sender.boxes[o]).outbox := line_once rfl hb
      _ = [] := line_untouched fresh
      _ = w.sender.line := (line_unset unset).symm
  | lose i c next o b hc hst hb =>
    have mine : c.stage.owns = some o := by rw [hst]; rfl
    refine .still (steady_restage (.gotten next) hc (by simp [hst]) (by simp) rfl) rfl ?_
    exact (line_setBox_other b _ (hl.owns_built i c o hc mine).2)
  | queue i c o op op' b x hc hst hb hm => exact queue_flow hl hc hst hb hm
  | inline i c r k hc hst hk =>
    obtain ⟨_, ⟨rfl, rfl⟩ | ⟨bad, rfl⟩⟩ := sendNow_cases hk
    · exact .inline i c hc hst rfl rfl rfl
    · refine .still (steady_restage (afterInline r) hc (by simp [hst]) ?_ rfl) rfl rfl
      cases r <;> simp_all [afterInline]
  | built i c next d hc hst =>
    refine .still (steady_restage (.setting next w.sender.boxes.length) hc (by simp [hst])
      (by simp) rfl) rfl ?_
    cases once : w.sender.once with
    | none => simp [Sender.line, once]
    | some o =>
      have built := hl.once_built o once
      simp [Sender.line, once, List.getElem?_append_left built]
  | grant i c o op op' b x hc hst hb hm => exact park_flow hl hc hst hb hm rfl rfl rfl
  | cancel i c o op op' b x hc hst hb hm => exact park_flow hl hc hst hb hm rfl rfl rfl
  | drain o a b k x hb hk hm => exact drain_flow hs hb hk hm
  | release o b alive allOver hset hb =>
    have after : ((w.sender.retire.setBox o b (closeBox b.outbox).1).discard
        (closeBox b.outbox).2).line = line (closeBox b.outbox).1 :=
      line_setBox (s := w.sender.retire) _ hset hb
    have before : w.sender.line = line b.outbox := line_once hset hb
    rcases line_close b.outbox with same | ⟨gone, shorter⟩
    · exact .still (steady_calls rfl) rfl (after.trans (same.trans before.symm))
    · refine .lose o b hset hb (.closed alive gone) (steady_calls rfl) rfl ?_
      rw [before, show _ = _ from after]
      exact shorter
  | _ => exact .still (steady_calls rfl) rfl rfl

end RefSender
