import StrongIpc.Line

/-!
# First in, first out, across the inline path and the queue

Fix a call that has returned `Ok` and call every call late that begins
afterwards. The wire followed by the line is one sequence in which no late
message is ahead of that call's message: queueing adds at its end, draining
moves the boundary between the two, and the inline path inserts at the boundary,
which a late call does only while the message is not behind it.
-/

namespace RefSender

open BoundedChannel OutboxTraffic Roster StepMachine Wire

/-- Everything sent or accepted, in the order in which it is or will be on the wire. -/
def World.order (w : World) : List (Nat × Nat) :=
  w.socket.wire.map Sent.tag ++ w.sender.line.map Sent.tag

/-- The call that is accepted, and no other, has one acceptance more. -/
theorem accepted_more {s t : Sender} {j : Nat} {c : Call} (hc : s.calls[j]? = some c)
    (busy : c.stage ≠ .returned .ok)
    (ht : t.calls = s.calls.set j { c with stage := .returned .ok }) (i : Nat) :
    t.accepted i = s.accepted i + if i = j then 1 else 0 := by
  by_cases same : i = j
  · subst same
    have after : t.calls[i]? = some { c with stage := .returned .ok } := by
      rw [ht]
      exact List.getElem?_set_self (lt_of_getElem? hc)
    rw [accepted_busy hc busy, accepted_ok after rfl, if_pos rfl]
  · rw [accepted_set_other ht same, if_neg same, Nat.add_zero]

theorem count_new (me i j : Nat) (m : Message) :
    [Sent.tag ⟨me, j, m⟩].count (me, i) = if i = j then 1 else 0 := by
  by_cases same : i = j
  · simp [Sent.tag, same]
  · simp [Sent.tag, same, Ne.symm same]

/-- A step that loses something accepts nothing; any other adds to the order what it
accepts. -/
theorem Flow.tally {me : Nat} {w w' : World} {a : Act} (flow : Flow me w a w') :
    (∃ o b, w.sender.once = some o ∧ w.sender.boxes[o]? = some b ∧ Lossy w.sender o b.outbox a ∧
      Steady w w' ∧ List.Sublist w'.order w.order ∧ (w.sender.line = [] → w'.order = w.order)) ∨
    ∃ more : Nat → Nat, ∀ i, w'.sender.accepted i = w.sender.accepted i + more i ∧
      w'.order.count (me, i) = w.order.count (me, i) + more i := by
  cases flow with
  | still steady wire same =>
    refine Or.inr ⟨fun _ => 0, fun i => ⟨steady i, ?_⟩⟩
    rw [World.order, World.order, wire, same]
    rfl
  | lose o b once hb lossy steady wire rest =>
    refine Or.inl ⟨o, b, once, hb, lossy, steady, ?_, fun empty => ?_⟩
    · rw [World.order, World.order, wire]
      exact List.Sublist.append_left (rest.map _) _
    · rw [empty] at rest
      rw [World.order, World.order, wire, empty, List.sublist_nil.mp rest]
  | push j c o op hc hs ha accepted wire longer =>
    refine Or.inr ⟨_, fun i => ⟨accepted_more hc (by simp [hs]) accepted i, ?_⟩⟩
    rw [World.order, wire, longer, List.map_append, ← List.append_assoc, List.count_append]
    exact congrArg _ (count_new me i j c.message)
  | foreign p foreign steady wire same =>
    refine Or.inr ⟨fun _ => 0, fun i => ⟨steady i, ?_⟩⟩
    have apart : p.tag ≠ (me, i) := fun hp => foreign (congrArg Prod.fst hp)
    rw [World.order, World.order, wire, same]
    simp [List.count_append, apart]
  | inline j c hc hs accepted wire same =>
    refine Or.inr ⟨_, fun i => ⟨accepted_more hc (by simp [hs]) accepted i, ?_⟩⟩
    have new := count_new me i j c.message
    rw [World.order, World.order, wire, same, List.map_append, List.count_append,
      List.count_append, List.count_append]
    simp only [List.map_cons, List.map_nil]
    omega
  | sent p steady wire head =>
    refine Or.inr ⟨fun _ => 0, fun i => ⟨steady i, ?_⟩⟩
    have same : w'.order = w.order := by simp [World.order, wire, head]
    rw [same]
    rfl

theorem calls_grow {me : Nat} {w w' : World} {a : Act} (m : Move me w a w') :
    w.sender.calls.length ≤ w'.sender.calls.length := by
  cases m <;> simp

/-- A call that returned `Ok` stays as it is. -/
theorem ok_stays {me : Nat} {w w' : World} {a : Act} (m : Move me w a w') {i : Nat} {c : Call}
    (hc : w.sender.calls[i]? = some c) (ok : c.stage = .returned .ok) :
    w'.sender.calls[i]? = some c := by
  have elsewhere : ∀ {j : Nat} {d e : Call}, w.sender.calls[j]? = some d →
      d.stage ≠ .returned .ok → (w.sender.calls.set j e)[i]? = some c := by
    intro j d e hd busy
    have apart : j ≠ i := by
      rintro rfl
      obtain rfl : d = c := Option.mem_unique hd hc
      exact busy ok
    rw [List.getElem?_set_ne apart]
    exact hc
  cases m with
  | enter kind m onRuntime alive => exact (List.getElem?_append_left (lt_of_getElem? hc)).trans hc
  | walk j d stage hd hw =>
    apply elsewhere hd
    intro same
    have busy := walk_busy hw
    rw [same] at busy
    cases busy
  | set j d next o hd hs unset => exact elsewhere hd (by simp [hs])
  | lose j d next o b hd hs hb => exact elsewhere hd (by simp [hs])
  | queue j d o op op' b x hd hs hb hm => exact elsewhere hd (by simp [hs])
  | inline j d r k hd hs hk => exact elsewhere hd (by simp [hs])
  | built j d next n hd hs => exact elsewhere hd (by simp [hs])
  | buildFailed j d next hd hs => exact elsewhere hd (by simp [hs])
  | noRuntime j d next dup hd hs bare => exact elsewhere hd (by simp [hs])
  | grant j d o op op' b x hd hs hb hm => exact elsewhere hd (by simp [hs])
  | cancel j d o op op' b x hd hs hb hm => exact elsewhere hd (by simp [hs])
  | take j d r hd hs failed => exact elsewhere hd (by simp [hs, failed])
  | _ => exact hc

theorem walk_inline {s : Sender} {c : Call} (hl : Linked s) (hcov : Covered s) {i : Nat}
    (hc : s.calls[i]? = some c) (hw : s.walk c = some .inline) : s.line = [] := by
  rw [Sender.walk] at hw
  split at hw
  case h_1 hs =>
    split at hw
    · cases hw
    · split at hw
      · rename_i unset
        exact line_unset unset
      · cases hw
  case h_2 o hs =>
    split at hw
    · cases hw
    · rename_i b hb
      have once : s.once = some o := hl.uses_once i c o hc (by rw [hs]; rfl)
      have drained : b.outbox.isBackedUp = false := by
        by_contra busy
        simp [inlineOk, Bool.not_eq_false _ ▸ busy] at hw
      have zero : b.outbox.pending = 0 := by simpa [Outbox.isBackedUp] using drained
      have := hcov o b hb
      rw [line_once once hb]
      exact line_uncounted (by omega)
  case h_3 =>
    split at hw
    · cases hw
    · cases hw
  case h_4 =>
    split at hw
    · cases hw
    · cases hw
  case h_5 =>
    split at hw
    · cases hw
    · cases hw
  case h_6 => cases hw

/-- The inline path opens to a call only while the line is empty. -/
theorem inline_move {me : Nat} {w w' : World} {a : Act} (hl : Linked w.sender)
    (hcov : Covered w.sender) (m : Move me w a w') {j : Nat} {d : Call}
    (hd : w'.sender.calls[j]? = some d) (inline : d.stage = .inline) :
    w.sender.calls[j]? = some d ∨ w'.sender.line = [] := by
  have elsewhere : ∀ {i : Nat} {c : Call} {stage : Stage}, stage ≠ .inline →
      (w.sender.calls.set i { c with stage })[j]? = some d → w.sender.calls[j]? = some d := by
    intro i c stage past hset
    rcases getElem?_set_cases hset with ⟨_, rfl⟩ | ⟨_, old⟩
    · exact absurd inline past
    · exact old
  have settled : ∀ (kind : Kind) (o : Nat) (op : Op), settle kind o op ≠ .inline := by
    intro kind o op
    cases op with
    | done r =>
      cases r with
      | refused e => cases e <;> cases kind <;> simp [settle]
      | _ => simp [settle]
    | _ => simp [settle]
  cases m with
  | enter kind m onRuntime alive =>
    rcases getElem?_push_cases hd with ⟨_, rfl⟩ | old
    · cases inline
    · exact Or.inl old
  | walk i c stage hc hw =>
    by_cases opens : stage = .inline
    · subst opens
      have empty : w.sender.line = [] := walk_inline hl hcov hc hw
      exact Or.inr empty
    · exact Or.inl (elsewhere opens hd)
  | set i c next o hc hs unset => exact Or.inl (elsewhere (by simp) hd)
  | lose i c next o b hc hs hb => exact Or.inl (elsewhere (by simp) hd)
  | queue i c o op op' b x hc hs hb hm => exact Or.inl (elsewhere (settled _ _ _) hd)
  | inline i c r k hc hs hk => exact Or.inl (elsewhere (by cases r <;> simp [afterInline]) hd)
  | built i c next n hc hs => exact Or.inl (elsewhere (by simp) hd)
  | buildFailed i c next hc hs => exact Or.inl (elsewhere (by simp) hd)
  | noRuntime i c next dup hc hs bare => exact Or.inl (elsewhere (by simp) hd)
  | grant i c o op op' b x hc hs hb hm => exact Or.inl (elsewhere (settled _ _ _) hd)
  | cancel i c o op op' b x hc hs hb hm => exact Or.inl (elsewhere (settled _ _ _) hd)
  | take i c r hc hs failed => exact Or.inl (elsewhere (by simp) hd)
  | _ => exact Or.inl hd

/-- Only calls that have begun have anything on the wire or in the line. -/
def Begun (me : Nat) (w : World) : Prop :=
  ∀ t ∈ w.order, t.1 = me → t.2 < w.sender.calls.length

theorem mem_order_wired {w w' : World} {p : Sent} {t : Nat × Nat}
    (wire : w'.socket.wire = w.socket.wire ++ [p]) (same : w'.sender.line = w.sender.line)
    (ht : t ∈ w'.order) : t ∈ w.order ∨ t = p.tag := by
  rw [World.order, wire, same] at ht
  simp only [List.map_append, List.map_cons, List.map_nil, List.mem_append,
    List.mem_singleton] at ht
  rcases ht with (old | new) | old
  · exact Or.inl (List.mem_append_left _ old)
  · exact Or.inr new
  · exact Or.inl (List.mem_append_right _ old)

theorem begun_step {me : Nat} {w w' : World} {a : Act} (h : Begun me w) (m : Move me w a w')
    (flow : Flow me w a w') : Begun me w' := by
  have grow := calls_grow m
  have kept : ∀ t ∈ w'.order, (t ∈ w.order ∨ t.1 ≠ me ∨ ∃ i c, t = (me, i) ∧
      w.sender.calls[i]? = some c) := by
    intro t ht
    cases flow with
    | still _ wire same =>
      rw [World.order, wire, same] at ht
      exact Or.inl ht
    | lose o b once hb lossy _ wire rest =>
      rw [World.order, wire] at ht
      have sub : List.Sublist (w.socket.wire.map Sent.tag ++ w'.sender.line.map Sent.tag)
          w.order := List.Sublist.append_left (rest.map _) _
      exact Or.inl (sub.subset ht)
    | push i c o op hc hs ha accepted wire longer =>
      rw [World.order, wire, longer, List.map_append, ← List.append_assoc] at ht
      rcases List.mem_append.mp ht with old | new
      · exact Or.inl old
      · exact Or.inr (Or.inr ⟨i, c, by simpa [Sent.tag] using new, hc⟩)
    | foreign p foreign _ wire same =>
      rcases mem_order_wired wire same ht with old | rfl
      · exact Or.inl old
      · exact Or.inr (Or.inl foreign)
    | inline i c hc hs accepted wire same =>
      rcases mem_order_wired wire same ht with old | rfl
      · exact Or.inl old
      · exact Or.inr (Or.inr ⟨i, c, rfl, hc⟩)
    | sent p _ wire head =>
      have same : w'.order = w.order := by simp [World.order, wire, head]
      exact Or.inl (same ▸ ht)
  intro t ht mine
  rcases kept t ht with old | foreign | ⟨i, c, rfl, hc⟩
  · exact Nat.lt_of_lt_of_le (h t old mine) grow
  · exact absurd mine foreign
  · exact Nat.lt_of_lt_of_le (lt_of_getElem? hc) grow

/-- What holds of a sender at every moment, used by the results about runs. -/
structure Upkeep (me : Nat) (w : World) : Prop where
  linked : Linked w.sender
  sound : Sound w.sender
  covered : Covered w.sender

theorem upkeep {me : Nat} {guard : World → Act → Prop} {w : World}
    (h : Reachable (machine me) guard w) : Upkeep me w :=
  ⟨linked h, sound h, covered h⟩

/-- An outbox that a call is inside has its sender. -/
theorem Upkeep.queueing_sends {me : Nat} {w : World} (h : Upkeep me w) {i : Nat} {c : Call}
    {o : Nat} {op : Op} {b : Box} (hc : w.sender.calls[i]? = some c)
    (hs : c.stage = .queueing o op) (hb : w.sender.boxes[o]? = some b) :
    b.outbox.channel.sending = true :=
  (h.sound o b hb).sending (h.linked.queueing_once hc hs) (h.linked.queueing_alive hc hs)

theorem Upkeep.flow {me : Nat} {w w' : World} {a : Act} (h : Upkeep me w)
    (m : Move me w a w') : Flow me w a w' :=
  step_flow h.linked h.sound m

theorem begun {me : Nat} {guard : World → Act → Prop} {w : World}
    (h : Reachable (machine me) guard w) : Begun me w := by
  refine reachable_invariant_with (Q := Upkeep me) (fun _ => upkeep) ?_ ?_ h
  · rintro w ⟨runtime, hw, others⟩ t ht mine
    simp only [World.order, hw, fresh, Sender.line, List.map_nil, List.append_nil,
      List.mem_map] at ht
    obtain ⟨p, hp, rfl⟩ := ht
    exact absurd mine (others p hp)
  · intro w a w' hu hb _ hstep
    exact begun_step hb (step_move hstep) (hu.flow (step_move hstep))

/-- A call other than one that has returned `Ok`. -/
theorem other_call {me i j : Nat} {w : World} {c d : Call} (hc : w.sender.calls[i]? = some c)
    (ok : c.stage = .returned .ok) (hd : w.sender.calls[j]? = some d)
    (busy : d.stage ≠ .returned .ok) : (me, j) ≠ (me, i) := by
  rintro ⟨⟩
  obtain rfl : d = c := Option.mem_unique hd hc
  exact busy ok

/-- What was accepted and has left the line does not come back to it. -/
theorem line_behind {me i : Nat} {w w' : World} {a : Act} (flow : Flow me w a w') {c : Call}
    (hc : w.sender.calls[i]? = some c) (ok : c.stage = .returned .ok)
    (hin : (me, i) ∈ w'.sender.line.map Sent.tag) : (me, i) ∈ w.sender.line.map Sent.tag := by
  cases flow with
  | still _ wire same => exact same ▸ hin
  | lose o b once hb lossy _ wire rest => exact (rest.map _).subset hin
  | push j d o op hd hs ha accepted wire longer =>
    rw [longer, List.map_append, List.mem_append] at hin
    rcases hin with old | new
    · exact old
    · exact absurd (List.mem_singleton.mp new).symm (other_call hc ok hd (by simp [hs]))
  | foreign p foreign _ wire same => exact same ▸ hin
  | inline j d hd hs accepted wire same => exact same ▸ hin
  | sent p _ wire head =>
    rw [head]
    exact List.mem_cons_of_mem _ hin

/-- What was accepted gets to the wire from the line. -/
theorem wire_from_line {me i : Nat} {w w' : World} {a : Act} (flow : Flow me w a w') {c : Call}
    (hc : w.sender.calls[i]? = some c) (ok : c.stage = .returned .ok) :
    w'.socket.wire = w.socket.wire ∨
      ∃ p, w'.socket.wire = w.socket.wire ++ [p] ∧
        (p.tag = (me, i) → (me, i) ∈ w.sender.line.map Sent.tag) := by
  cases flow with
  | still _ wire same => exact Or.inl wire
  | lose o b once hb lossy _ wire rest => exact Or.inl wire
  | push j d o op hd hs ha accepted wire longer => exact Or.inl wire
  | foreign p foreign _ wire same =>
    exact Or.inr ⟨p, wire, fun mine => absurd (congrArg Prod.fst mine) foreign⟩
  | inline j d hd hs accepted wire same =>
    exact Or.inr ⟨_, wire, fun mine => absurd mine (other_call hc ok hd (by simp [hs]))⟩
  | sent p _ wire head =>
    refine Or.inr ⟨p, wire, fun mine => ?_⟩
    rw [head, ← mine]
    exact List.mem_cons_self

/-- The call `i` has returned `Ok` when the calls from `late` on had not begun. -/
structure Ahead (me i late : Nat) (w : World) : Prop where
  returned : ∃ c, w.sender.calls[i]? = some c ∧ c.stage = .returned .ok
  ordered : NotAhead (me, i) (fun t => t.1 = me ∧ late ≤ t.2) w.order
  shut : (me, i) ∈ w.sender.line.map Sent.tag → ∀ (j : Nat) d, late ≤ j →
    w.sender.calls[j]? = some d → d.stage ≠ .inline

theorem ahead_step {me i late : Nat} {w w' : World} {a : Act} (hu : Upkeep me w)
    (h : Ahead me i late w) (m : Move me w a w') : Ahead me i late w' := by
  obtain ⟨⟨c, hc, ok⟩, ordered, shut⟩ := h
  have flow := hu.flow m
  refine ⟨⟨c, ok_stays m hc ok, ok⟩, ?_, ?_⟩
  · cases flow with
    | still _ wire same =>
      rw [World.order, wire, same]
      exact ordered
    | lose o b once hb lossy _ wire rest =>
      rw [World.order, wire]
      exact notAhead_sublist ordered (List.Sublist.append_left (rest.map _) _)
    | push j d o op hd hs ha accepted wire longer =>
      rw [World.order, wire, longer, List.map_append, ← List.append_assoc]
      exact notAhead_push ordered (other_call hc ok hd (by simp [hs]))
    | foreign p foreign _ wire same =>
      rw [World.order, wire, same, List.map_append, List.append_assoc]
      apply notAhead_insert ordered (fun same => foreign (congrArg Prod.fst same))
      exact fun late_p => absurd late_p.1 foreign
    | inline j d hd hs accepted wire same =>
      rw [World.order, wire, same, List.map_append, List.append_assoc]
      apply notAhead_insert ordered (other_call hc ok hd (by simp [hs]))
      exact fun late_j hin => shut hin j d late_j.2 hd hs
    | sent p _ wire head =>
      have same : w'.order = w.order := by simp [World.order, wire, head]
      rw [same]
      exact ordered
  · intro hin j d late_j hd inline
    rcases inline_move hu.linked hu.covered m hd inline with old | empty
    · exact shut (line_behind flow hc ok hin) j d late_j old inline
    · rw [empty] at hin
      cases hin

theorem ahead_start {me i : Nat} {w : World} {c : Call} (hb : Begun me w)
    (hc : w.sender.calls[i]? = some c) (ok : c.stage = .returned .ok) :
    Ahead me i w.sender.calls.length w := by
  refine ⟨⟨c, hc, ok⟩, notAhead_of_absent fun t ht late => ?_, fun _ k d late hd => ?_⟩
  · have := hb t ht late.1
    omega
  · exact absurd (lt_of_getElem? hd) (by omega)

/-- A call that returned `Ok` has its message on the wire before that of any call
that began later, on every schedule; and while its message is in the queue or in
the drain task's hand, no later call is on the inline path. -/
theorem accepted_first {me i j : Nat} {w w' : World} {c : Call}
    (h : Reachable (machine me) anyStep w) (hc : w.sender.calls[i]? = some c)
    (ok : c.stage = .returned .ok) (later : w.sender.calls.length ≤ j)
    (run : Steps (machine me) anyStep w w') :
    Before (w'.socket.wire.map Sent.tag) (me, i) (me, j) ∧
      ((me, i) ∈ w'.sender.line.map Sent.tag →
        ∀ d, w'.sender.calls[j]? = some d → d.stage ≠ .inline) := by
  have inside := lt_of_getElem? hc
  have start : Ahead me i w.sender.calls.length w := ahead_start (begun h) hc ok
  have finish : Ahead me i w.sender.calls.length w' :=
    steps_invariant_with (Q := Upkeep me) (fun _ => upkeep)
      (fun _ _ _ hu hp _ hstep => ahead_step hu hp (step_move hstep)) h run start
  constructor
  · refine before_of_notAhead (notAhead_sublist finish.ordered (List.sublist_append_left _ _))
      ⟨rfl, later⟩ ?_
    rintro ⟨⟩
    omega
  · exact fun hin d hd => finish.shut hin j d later hd

/-- A capability nobody has sent on, whose socket has no room. -/
def blocked : World := ⟨⟨false, true, []⟩, fresh true⟩

theorem blocked_init : (machine 0).init blocked :=
  ⟨true, rfl, fun _ hp => by cases hp⟩

def note (n : UInt8) : Message := ⟨[n], []⟩

/-- One message found no room and is in the queue. -/
def firstQueued : World where
  socket := ⟨false, true, []⟩
  sender :=
    { fresh true with
      once := some 0
      boxes := [⟨9, ⟨1, ⟨depth, [⟨0, 0, note 1⟩], 0, true, true⟩, .receiving⟩⟩]
      calls := [⟨.trySend, note 1, true, .returned .ok⟩] }

theorem firstQueued_run : exec (machine 0) anyStep blocked
    [.enter .trySend (note 1) true, .call 0, .sendNow 0 .wouldBlock, .call 0, .build 0 (some 9),
      .call 0, .call 0, .call 0, .call 0] = some firstQueued := by
  decide

/-- Room came back while the first message was in hand; the second call queued. -/
def bothSent : World where
  socket := ⟨true, true, [⟨0, 0, note 1⟩, ⟨0, 1, note 2⟩]⟩
  sender :=
    { fresh true with
      once := some 0
      boxes := [⟨9, ⟨1, ⟨depth, [], 0, true, true⟩, .accounting ⟨0, 1, note 2⟩ true⟩⟩]
      calls := [⟨.trySend, note 1, true, .returned .ok⟩, ⟨.send, note 2, true, .returned .ok⟩]
      trash := [note 1] }

theorem bothSent_run : exec (machine 0) anyStep firstQueued
    [.enter .send (note 2) true, .call 1, .drain 0 .recv, .call 1, .room true, .call 1,
      .drain 0 (.sendmsg .ok), .call 1, .call 1, .drain 0 .account, .drain 0 .recv,
      .drain 0 (.sendmsg .ok)] = some bothSent := by
  decide

theorem accepted_first_bothSent :
    Before (bothSent.socket.wire.map Sent.tag) (0, 0) (0, 1) ∧
      ((0, 0) ∈ bothSent.sender.line.map Sent.tag →
        ∀ d, bothSent.sender.calls[1]? = some d → d.stage ≠ .inline) :=
  accepted_first (exec_reachable blocked_init firstQueued_run)
    (show firstQueued.sender.calls[0]? = some ⟨.trySend, note 1, true, .returned .ok⟩ from rfl)
    rfl (by decide) (exec_steps bothSent_run)

end RefSender
