import StrongIpc.SenderInvariants

/-!
# What a sender holds

Which messages a sender keeps, and with them the `Ref`s that ride on them, and
which descriptors its drain tasks keep. A step moves a message from one place to
another; one comes in with a call and one goes out when it is dropped. A dup is
held from the step that spawns its drain task to the one that ends it.
-/

namespace RefSender

open BoundedChannel OutboxTraffic Roster StepMachine Wire

/-- The call's message has gone neither into a channel, nor onto the wire, nor back. -/
def Stage.holds : Stage → Bool
  | .returned .ok => false
  | .taken => false
  | .panicked => false
  | .cancelled => false
  | _ => true

def Call.held (c : Call) : List Message := if c.stage.holds then [c.message] else []

def Sender.messages (s : Sender) : List Message :=
  s.calls.flatMap Call.held ++ s.boxes.flatMap (fun b => boxHeld b.outbox) ++ s.trash

/-- What comes in with a step. -/
def brought : Act → List Message
  | .enter _ m _ => [m]
  | _ => []

/-- What is gone after a step. -/
def Sender.swept (s : Sender) : Act → List Message
  | .sweep => s.trash.take 1
  | _ => []

section Messages

variable (f : Message → Nat)

theorem weigh_setStage {s : Sender} {i : Nat} {c : Call} (stage : Stage)
    (hc : s.calls[i]? = some c) :
    total f (s.setStage i c stage).messages + (if c.stage.holds then f c.message else 0) =
      total f s.messages + if stage.holds then f c.message else 0 := by
  have held : ∀ e : Call, total f e.held = if e.stage.holds then f e.message else 0 := by
    intro e
    rw [Call.held]
    split <;> simp
  have trade := total_set (fun c : Call => total f c.held) { c with stage } hc
  simp only [Sender.messages, total_append, total_flatMap, Sender.setStage, held] at trade ⊢
  omega

/-- The call goes on and keeps its message. -/
theorem weigh_pass {s : Sender} {i : Nat} {c : Call} (stage : Stage) (hc : s.calls[i]? = some c)
    (before : c.stage.holds = true) (after : stage.holds = true) :
    total f (s.setStage i c stage).messages = total f s.messages := by
  have move := weigh_setStage f stage hc
  rw [if_pos before, if_pos after] at move
  omega

/-- The call parts with its message. -/
theorem weigh_part {s : Sender} {i : Nat} {c : Call} (stage : Stage) (hc : s.calls[i]? = some c)
    (before : c.stage.holds = true) (after : stage.holds = false) :
    total f (s.setStage i c stage).messages + f c.message = total f s.messages := by
  have move := weigh_setStage f stage hc
  rw [if_pos before, after] at move
  simpa using move

theorem weigh_setBox {s : Sender} {o : Nat} {b : Box} (x : Outbox Sent)
    (hb : s.boxes[o]? = some b) :
    total f (s.setBox o b x).messages + total f (boxHeld b.outbox) =
      total f s.messages + total f (boxHeld x) := by
  have trade := total_set (fun b : Box => total f (boxHeld b.outbox)) { b with outbox := x } hb
  simp only [Sender.messages, total_append, total_flatMap, Sender.setBox] at trade ⊢
  omega

theorem weigh_discard (s : Sender) (ms : List Message) :
    total f (s.discard ms).messages = total f s.messages + total f ms := by
  simp only [Sender.messages, Sender.discard, total_append]
  omega

theorem weigh_close (b : Outbox Sent) :
    total f (boxHeld (closeBox b).1) + total f (closeBox b).2 = total f (boxHeld b) := by
  rw [closeBox]
  split
  · simp [boxHeld, Channel.dropSender]
  · simp [boxHeld]

theorem weigh_drain {b x : Outbox Sent} {a : DrainAct} (hm : DrainMove b a x) :
    total f (boxHeld x) + total f (drained b a) = total f (boxHeld b) := by
  cases hm with
  | took p rest idle hq => simp [boxHeld, taskHeld, drained, idle, hq]
  | closed idle empty gone => simp [boxHeld, taskHeld, drained, idle]
  | retry p busy => simp [drained]
  | answered p r busy final => simp [boxHeld, taskHeld, drained, busy]
  | accounted p sent busy =>
    cases sent <;> simp [boxHeld, taskHeld, drained, busy] <;> omega
  | left leaving => simp [boxHeld, taskHeld, drained, leaving, Channel.dropReceiver]
  | aborted parked => simp [boxHeld, taskHeld, drained, Channel.dropReceiver]

/-- The message changes hands exactly when the channel accepts it. -/
theorem weigh_queue {b x : Outbox Sent} {p : Sent} {op op' : Op} (hm : OpMove b p op x op') :
    total f (boxHeld x) =
      total f (boxHeld b) + if op' = .done .accepted then f p.message else 0 := by
  obtain ⟨drain, _, _, queue⟩ := hm.effect
  simp only [boxHeld, drain, queue, List.map_append, total_append]
  split
  · simp only [List.map_cons, List.map_nil, total_cons, total_nil]
    omega
  · simp

theorem weigh_park {b x : Outbox Sent} {op op' : Op} (hm : ParkMove b op x op') :
    total f (boxHeld x) = total f (boxHeld b) := by
  obtain ⟨drain, _, queue, _⟩ := hm.effect
  simp only [boxHeld, drain, queue]

theorem settle_holds (kind : Kind) (o : Nat) {op : Op} (kept : op ≠ .done .cancelled) :
    (settle kind o op).holds = !decide (op = .done .accepted) := by
  cases op with
  | done r =>
    cases r with
    | refused e => cases e <;> cases kind <;> rfl
    | accepted => rfl
    | cancelled => exact absurd rfl kept
  | _ => rfl

theorem opMove_kept {b x : Outbox Sent} {p : Sent} {op op' : Op} (hm : OpMove b p op x op') :
    op' ≠ .done .cancelled := by
  cases hm <;> simp

theorem walk_holds {s : Sender} {c : Call} {stage : Stage} (h : s.walk c = some stage) :
    c.stage.holds = true ∧ stage.holds = true := by
  have inlined : ∀ backedUp,
      (if inlineOk c.message backedUp then Stage.inline else .getting .push).holds = true := by
    intro backedUp
    split <;> rfl
  rw [Sender.walk] at h
  split at h
  case h_1 hs =>
    rw [hs]
    split at h
    · cases h
      exact ⟨rfl, rfl⟩
    · split at h
      · cases h
        exact ⟨rfl, inlined _⟩
      · cases h
        exact ⟨rfl, rfl⟩
  case h_2 hs =>
    rw [hs]
    split at h
    · cases h
    · cases h
      exact ⟨rfl, inlined _⟩
  case h_6 => cases h
  all_goals
    rename_i hs
    rw [hs]
    split at h
    · cases h
      try exact ⟨rfl, rfl⟩
    · cases h
      exact ⟨rfl, rfl⟩

/-- A message that a call or an outbox parts with is somewhere else afterwards. -/
theorem weigh_step {me : Nat} {w w' : World} {a : Act} (m : Move me w a w') :
    total f w'.sender.messages + total f (w.sender.swept a) =
      total f w.sender.messages + total f (brought a) := by
  cases m with
  | enter kind m onRuntime alive =>
    simp [Sender.messages, Sender.addCall, Call.held, Stage.holds, brought, Sender.swept]
    omega
  | walk i c stage hc hw =>
    obtain ⟨before, after⟩ := walk_holds hw
    exact weigh_pass f stage hc before after
  | set i c next o hc hs unset =>
    exact weigh_pass f (s := w.sender.setOnce o) (.gotten next) hc (by rw [hs]; rfl) rfl
  | lose i c next o b hc hs hb =>
    have pass := weigh_pass f (s := w.sender.setBox o b (closeBox b.outbox).1)
      (.gotten next) hc (by rw [hs]; rfl) rfl
    have box := weigh_setBox f (closeBox b.outbox).1 hb
    have close := weigh_close f b.outbox
    simp only [brought, Sender.swept, total_nil, weigh_discard]
    omega
  | queue i c o op op' b x hc hs hb hm =>
    have box := weigh_setBox f x hb
    have through := weigh_queue f hm
    have before : c.stage.holds = true := by rw [hs]; rfl
    have after := settle_holds c.kind o (opMove_kept hm)
    simp only [brought, Sender.swept, total_nil]
    by_cases accepted : op' = .done .accepted
    · have part := weigh_part f (s := w.sender.setBox o b x) (settle c.kind o op') hc before
        (after.trans (by simp [accepted]))
      rw [if_pos accepted] at through
      simp only at through
      omega
    · have pass := weigh_pass f (s := w.sender.setBox o b x) (settle c.kind o op') hc before
        (after.trans (by simp [accepted]))
      rw [if_neg accepted] at through
      omega
  | inline i c r k hc hs hk =>
    have before : c.stage.holds = true := by rw [hs]; rfl
    simp only [brought, Sender.swept, total_nil, weigh_discard]
    cases r with
    | ok =>
      have part := weigh_part f (afterInline .ok) hc before rfl
      simp only [if_true, total_cons, total_nil]
      omega
    | _ => exact weigh_pass f (afterInline _) hc before rfl
  | built i c next d hc hs =>
    have pass := weigh_pass f (s := w.sender.addBox d)
      (.setting next w.sender.boxes.length) hc (by rw [hs]; rfl) rfl
    have grown : total f (w.sender.addBox d).messages = total f w.sender.messages := by
      simp [Sender.messages, Sender.addBox, boxHeld, taskHeld, OutboxTraffic.build, Channel.new]
    exact pass.trans grown
  | buildFailed i c next hc hs => exact weigh_pass f (.returned .closed) hc (by rw [hs]; rfl) rfl
  | noRuntime i c next dup hc hs bare =>
    have part := weigh_part f (.panicked) hc (by rw [hs]; rfl) rfl
    simp only [brought, Sender.swept, total_cons, total_nil, weigh_discard]
    omega
  | grant i c o op op' b x hc hs hb hm parked =>
    subst parked
    have pass := weigh_pass f (s := w.sender.setBox o b x) (settle c.kind o .granted) hc
      (by rw [hs]; rfl) rfl
    have box := weigh_setBox f x hb
    have same := weigh_park f hm
    simp only [brought, Sender.swept, total_nil]
    omega
  | cancel i c o op op' b x hc hs hb hm gone =>
    subst gone
    have part := weigh_part f (s := w.sender.setBox o b x)
      (settle c.kind o (.done .cancelled)) hc (by rw [hs]; rfl) rfl
    have box := weigh_setBox f x hb
    have same := weigh_park f hm
    simp only [brought, Sender.swept, total_cons, total_nil, weigh_discard]
    omega
  | take i c r hc hs failed =>
    have before : c.stage.holds = true := by
      rw [hs]
      cases r with
      | ok => exact absurd rfl failed
      | _ => rfl
    have part := weigh_part f (.taken) hc before rfl
    simp only [brought, Sender.swept, total_cons, total_nil, weigh_discard]
    omega
  | drain o a b k x hb hk hm =>
    have box := weigh_setBox f x hb
    have through := weigh_drain f hm
    simp only [brought, Sender.swept, total_nil, weigh_discard]
    omega
  | release o b alive allOver hset hb =>
    have box := weigh_setBox f (closeBox b.outbox).1 (s := w.sender.retire) hb
    have close := weigh_close f b.outbox
    have same : total f w.sender.retire.messages = total f w.sender.messages := rfl
    simp only [brought, Sender.swept, total_nil, weigh_discard]
    omega
  | sweep m rest ht =>
    simp [Sender.messages, Sender.swept, brought, ht]
    omega
  | _ => rfl

end Messages

/-! ## Descriptors of drain tasks -/

def Box.fds (b : Box) : List Nat := if b.outbox.drain = .ended then [] else [b.dup]

def Sender.descriptors (s : Sender) : List Nat := s.boxes.flatMap Box.fds

/-- The dup that a step hands to the drain task it spawns. -/
def duped (before after : Sender) : Act → List Nat
  | .build _ (some d) => if before.boxes.length < after.boxes.length then [d] else []
  | _ => []

/-- The dup that is closed by the drain task that a step ends. -/
def Sender.shut (s : Sender) : Act → List Nat
  | .drain o a =>
    match s.boxes[o]? with
    | none => []
    | some b => if a.isLast then [b.dup] else []
  | _ => []

theorem fds_setBox {s : Sender} {o : Nat} {b : Box} (x : Outbox Sent) (hb : s.boxes[o]? = some b)
    (running : x.drain = .ended ↔ b.outbox.drain = .ended) (d : Nat) :
    (s.setBox o b x).descriptors.count d = s.descriptors.count d := by
  rw [Sender.descriptors, Sender.descriptors, count_flatMap, count_flatMap, setBox_boxes]
  apply total_set_same _ hb
  simp only [Box.fds, running]

theorem close_running (b : Outbox Sent) : (closeBox b).1.drain = .ended ↔ b.drain = .ended := by
  rw [(closeBox_spec b).2.1]

theorem fds_last {s : Sender} {o : Nat} {b : Box} {a : DrainAct} {x : Outbox Sent}
    (hb : s.boxes[o]? = some b) (hm : DrainMove b.outbox a x) (last : a.isLast = true) (d : Nat) :
    (s.setBox o b x).descriptors.count d + [b.dup].count d = s.descriptors.count d := by
  rw [Sender.descriptors, Sender.descriptors, count_flatMap, count_flatMap, setBox_boxes]
  have trade := total_set (fun b : Box => b.fds.count d) { b with outbox := x } hb
  obtain ⟨going, ended⟩ := hm.ended_iff
  have after : Box.fds { b with outbox := x } = [] := by simp [Box.fds, ended.mpr last]
  have before : b.fds = [b.dup] := by simp [Box.fds, going]
  rw [after, before] at trade
  simpa using trade

theorem fds_step {me : Nat} {w w' : World} {a : Act} (m : Move me w a w') (d : Nat) :
    w'.sender.descriptors.count d + (w.sender.shut a).count d =
      w.sender.descriptors.count d + (duped w.sender w'.sender a).count d := by
  have parked : ∀ {b x : Outbox Sent} {op op' : Op}, ParkMove b op x op' →
      (x.drain = .ended ↔ b.drain = .ended) := fun hm => by rw [hm.effect.1]
  cases m with
  | lose i c next o b hc hs hb =>
    exact fds_setBox (closeBox b.outbox).1 hb (close_running b.outbox) d
  | queue i c o op op' b x hc hs hb hm => exact fds_setBox x hb (by rw [hm.effect.1]) d
  | grant i c o op op' b x hc hs hb hm => exact fds_setBox x hb (parked hm) d
  | cancel i c o op op' b x hc hs hb hm => exact fds_setBox x hb (parked hm) d
  | built i c next n hc hs =>
    simp [Sender.descriptors, Sender.shut, duped, Sender.setStage, Sender.addBox, Box.fds,
      OutboxTraffic.build]
  | noRuntime i c next dup hc hs bare =>
    cases dup with
    | none => rfl
    | some n => simp [Sender.descriptors, Sender.shut, duped, Sender.setStage, Sender.discard]
  | drain o a b k x hb hk hm =>
    simp only [Sender.shut, hb, duped, List.count_nil, Nat.add_zero]
    cases last : a.isLast with
    | true => exact fds_last hb hm last d
    | false =>
      obtain ⟨going, ended⟩ := hm.ended_iff
      exact fds_setBox x hb (iff_of_false (by simp [ended, last]) going) d
  | release o b alive allOver hset hb =>
    exact fds_setBox (s := w.sender.retire) (closeBox b.outbox).1 hb (close_running b.outbox) d
  | _ => rfl

/-! ## Borrows -/

def Sender.isBusy (s : Sender) : Bool := s.calls.any fun c => !c.stage.isOver

theorem busy_of_call {s : Sender} {i : Nat} {c : Call} (hc : s.calls[i]? = some c)
    (busy : c.stage.isOver = false) : s.isBusy = true :=
  List.any_eq_true.mpr ⟨c, List.mem_of_getElem? hc, by simp [busy]⟩

/-- A step other than the beginning of a call belongs to a call already going on. -/
theorem busy_step {me : Nat} {w w' : World} {a : Act} (m : Move me w a w')
    (going : ∀ kind m onRuntime, a ≠ .enter kind m onRuntime)
    (busy : w'.sender.isBusy = true) : w.sender.isBusy = true := by
  cases m with
  | enter kind m onRuntime alive => exact absurd rfl (going kind m onRuntime)
  | walk i c stage hc hw => exact busy_of_call hc (walk_busy hw)
  | set i c next o hc hs unset => exact busy_of_call hc (by rw [hs]; rfl)
  | lose i c next o b hc hs hb => exact busy_of_call hc (by rw [hs]; rfl)
  | queue i c o op op' b x hc hs hb hm => exact busy_of_call hc (by rw [hs]; rfl)
  | inline i c r k hc hs hk => exact busy_of_call hc (by rw [hs]; rfl)
  | built i c next d hc hs => exact busy_of_call hc (by rw [hs]; rfl)
  | buildFailed i c next hc hs => exact busy_of_call hc (by rw [hs]; rfl)
  | noRuntime i c next dup hc hs bare => exact busy_of_call hc (by rw [hs]; rfl)
  | grant i c o op op' b x hc hs hb hm => exact busy_of_call hc (by rw [hs]; rfl)
  | cancel i c o op op' b x hc hs hb hm => exact busy_of_call hc (by rw [hs]; rfl)
  | take i c r hc hs failed =>
    obtain ⟨d, hd, going_on⟩ := List.any_eq_true.mp busy
    rcases List.mem_or_eq_of_mem_set hd with old | rfl
    · exact List.any_eq_true.mpr ⟨d, old, going_on⟩
    · cases going_on
  | _ => exact busy

end RefSender
