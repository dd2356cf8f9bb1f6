import StrongIpc.Delivery
import StrongIpc.Views

/-!
# From one `RefInner` to the next

A capability that is dropped and obtained again has a new `RefInner`, which knows
nothing of what the old one's drain task still has to send. Order is kept from one
to the next in the runs where every call begins at a moment when no other outbox of
the socket holds an accepted message. Otherwise the new `RefInner` may send inline,
with room just come back, before the old drain task has been woken.
-/

namespace Capability

open OutboxTraffic RefSender Roster StepMachine Wire

/-! ## The conditions -/

/-- No outbox of another `RefInner` holds an accepted message. -/
def State.othersEmpty (s : State) (h : Nat) : Bool :=
  (List.range s.inners.length).all fun g =>
    g == h || s.inners[g]?.all fun x => x.sender.line.isEmpty

def orderly (s : State) : Act → Bool
  | .send h (.enter _ _ _) => s.othersEmpty h
  | _ => true

/-- A call begins only when the other outboxes have nothing left to send. -/
def Orderly (s : State) (a : Act) : Prop := orderly s a = true

/-- `sendmsg` by a drain task fails for want of room or because the node is gone, and no
runtime goes away with the drain task. -/
def unlost (w : World) (a : RefSender.Act) : Bool :=
  !w.socket.peerOpen || match a with
    | .drain o (.sendmsg r) => r != .other && w.sender.handFits o
    | a => keepsRunning a

def lossless (s : State) : Act → Bool
  | .send g a => s.inners[g]?.all fun x => unlost (s.view x) a
  | _ => true

/-- No drain task loses a message while the node listens. -/
def Lossless (s : State) (a : Act) : Prop := lossless s a = true

/-- Both conditions. -/
def Sure (s : State) (a : Act) : Prop := Orderly s a ∧ Lossless s a

instance (s : State) (a : Act) : Decidable (Orderly s a) := inferInstanceAs (Decidable (_ = _))

instance (s : State) (a : Act) : Decidable (Sure s a) :=
  inferInstanceAs (Decidable (_ = true ∧ _ = true))

theorem Lossless.lasting {s : State} {g : Nat} {a : RefSender.Act} {x : Inner}
    (h : Lossless s (.send g a)) (hx : s.inners[g]? = some x) : Lasting (s.view x) a := by
  have kept : unlost (s.view x) a = true := by
    simpa [Lossless, lossless, hx] using h
  refine ⟨⟨?_, ?_⟩, fun live => ?_⟩
  · rintro live o r rfl
    simpa [unlost, live] using kept
  · rintro live o rfl
    simp [unlost, live, keepsRunning] at kept
  · cases a with
    | drain o d =>
      cases d with
      | abort => simpa [unlost, live] using kept
      | _ => rfl
    | _ => rfl

theorem others_empty {s : State} {g h : Nat} {x : Inner} (empty : s.othersEmpty h = true)
    (hx : s.inners[g]? = some x) (other : g ≠ h) : x.sender.line = [] := by
  have here := List.all_eq_true.mp empty g (List.mem_range.mpr (lt_of_getElem? hx))
  simpa [other, hx] using here

/-! ## What is seen of a socket -/

def State.wireTags (s : State) : List (Nat × Nat) := s.socket.wire.map Sent.tag

/-- What the outboxes of the `RefInner` number `g` still have to send. -/
def State.lineTags (s : State) (g : Nat) : List (Nat × Nat) :=
  match s.inners[g]? with
  | none => []
  | some x => x.sender.line.map Sent.tag

def State.begunCalls (s : State) (h : Nat) : Nat :=
  match s.inners[h]? with
  | none => 0
  | some x => x.sender.calls.length

theorem lineTags_some {s : State} {g : Nat} {x : Inner} (hx : s.inners[g]? = some x) :
    s.lineTags g = x.sender.line.map Sent.tag := by
  simp only [State.lineTags, hx]

theorem begunCalls_some {s : State} {h : Nat} {x : Inner} (hx : s.inners[h]? = some x) :
    s.begunCalls h = x.sender.calls.length := by
  simp only [State.begunCalls, hx]

theorem Projected.upkeep {s : State} (h : Projected anyStep s) {g : Nat} {x : Inner}
    (hx : s.inners[g]? = some x) : Upkeep (g + 1) (s.view x) :=
  RefSender.upkeep (h.own_run g x hx)

/-- Whatever is on the wire was sent by a call that has begun. -/
theorem on_wire_begun {s : State} (hp : Projected anyStep s) {h j : Nat}
    (there : (h + 1, j) ∈ s.wireTags) : j < s.begunCalls h := by
  cases hz : s.inners[h]? with
  | none =>
    obtain ⟨p, hw, tag⟩ := List.mem_map.mp there
    have numbered := hp.numbered p hw
    have mine : p.inner = h + 1 := congrArg Prod.fst tag
    have absent := List.getElem?_eq_none_iff.mp hz
    omega
  | some z =>
    rw [begunCalls_some hz]
    exact begun (hp.own_run h z hz) (h + 1, j) (List.mem_append_left _ there) rfl

theorem calls_enter {me : Nat} {w w' : World} {a : RefSender.Act} (m : RefSender.Move me w a w')
    (more : w'.sender.calls.length ≠ w.sender.calls.length) :
    ∃ kind m onRuntime, a = .enter kind m onRuntime := by
  cases m with
  | enter kind m onRuntime alive => exact ⟨kind, m, onRuntime, rfl⟩
  | walk | set | lose | queue | inline | built | buildFailed | noRuntime | grant | cancel | take =>
    exact absurd (by simp) more
  | _ => exact absurd rfl more

/-- Only the beginning of a call through it adds to a `RefInner`'s calls. -/
theorem begun_enter {s t : State} {a : Act} (hp : Projected anyStep s) (hm : Move s a t)
    {h j : Nat} (before : ¬ j < s.begunCalls h) (after : j < t.begunCalls h) :
    ∃ kind m onRuntime, a = .send h (.enter kind m onRuntime) := by
  cases hz : s.inners[h]? with
  | none =>
    apply absurd after
    cases hy : t.inners[h]? with
    | none => simp [State.begunCalls, hy]
    | some y =>
      rcases inners_move hm with same | ⟨i, m, runtime, rfl⟩
      · have absent := List.getElem?_eq_none_iff.mp hz
        have inside := lt_of_getElem? hy
        omega
      · rcases getElem?_push_cases hy with ⟨_, rfl⟩ | old
        · rw [begunCalls_some hy]
          exact Nat.not_lt_zero j
        · rw [hz] at old
          cases old
  | some z =>
    rw [begunCalls_some hz] at before
    obtain ⟨y, hy, same | ⟨b, hb, whose⟩⟩ := sees_step hm hp.stamped hz
    · rw [begunCalls_some hy, show y.sender = z.sender from congrArg World.sender same] at after
      exact absurd after before
    · rw [begunCalls_some hy] at after
      have more : (t.view y).sender.calls.length ≠ (s.view z).sender.calls.length := by
        simp only [State.view]
        omega
      obtain ⟨kind, m, onRuntime, rfl⟩ := calls_enter (RefSender.step_move hb) more
      rcases whose with outside | own
      · cases outside
      · exact ⟨kind, m, onRuntime, own⟩

/-! ## A call that has returned -/

/-- The call `i` through the `RefInner` number `g` has returned `Ok`. -/
def Accepted (g i : Nat) (s : State) : Prop :=
  ∃ x c, s.inners[g]? = some x ∧ x.sender.calls[i]? = some c ∧ c.stage = .returned .ok

/-- Its message does not come back to the outbox, and gets to the wire from there. -/
theorem accepted_step {g i : Nat} {s t : State} {a : Act} (hp : Projected anyStep s)
    (h : Accepted g i s) (m : Move s a t) :
    Accepted g i t ∧ ((g + 1, i) ∈ t.lineTags g → (g + 1, i) ∈ s.lineTags g) ∧
      (t.wireTags = s.wireTags ∨ ∃ tag, t.wireTags = s.wireTags ++ [tag] ∧
        (tag = (g + 1, i) → (g + 1, i) ∈ s.lineTags g)) := by
  obtain ⟨x, c, hx, hc, ok⟩ := h
  obtain ⟨y, hy, same | ⟨b, hb, _⟩⟩ := sees_step m hp.stamped hx
  · have sender : y.sender = x.sender := congrArg World.sender same
    have socket : t.socket = s.socket := congrArg World.socket same
    refine ⟨⟨y, c, hy, sender ▸ hc, ok⟩, ?_, Or.inl (by rw [State.wireTags, socket]; rfl)⟩
    rw [lineTags_some hy, lineTags_some hx, sender]
    exact id
  · have moved := RefSender.step_move hb
    have flow := (hp.upkeep hx).flow moved
    refine ⟨⟨y, c, hy, ok_stays moved hc ok, ok⟩, ?_, ?_⟩
    · rw [lineTags_some hy, lineTags_some hx]
      exact line_behind flow hc ok
    · rcases wire_from_line flow hc ok with still | ⟨p, more, from_line⟩
      · exact Or.inl (congrArg (List.map Sent.tag) still)
      · refine Or.inr ⟨p.tag, ?_, fun mine => ?_⟩
        · exact (congrArg (List.map Sent.tag) more).trans (by simp [State.wireTags, State.view])
        · rw [lineTags_some hx]
          exact from_line mine

/-! ## A later call through another `RefInner` -/

/-- Nothing of the later call is ahead, and once that has begun, the earlier message is
no longer in its outbox. -/
structure Behind (g i h j : Nat) (s : State) : Prop where
  accepted : Accepted g i s
  ordered : NotAhead (g + 1, i) (fun tag => tag = (h + 1, j)) s.wireTags
  gone : j < s.begunCalls h → (g + 1, i) ∉ s.lineTags g

theorem behind_step {g i h j : Nat} (other : g ≠ h) {s t : State} {a : Act}
    (hp : Projected anyStep s) (hb : Behind g i h j s) (ok : Orderly s a) (m : Move s a t) :
    Behind g i h j t := by
  obtain ⟨accepted, ordered, gone⟩ := hb
  obtain ⟨accepted', behind, wire⟩ := accepted_step hp accepted m
  refine ⟨accepted', ?_, fun begun => ?_⟩
  · rcases wire with same | ⟨tag, more, from_line⟩
    · rw [same]
      exact ordered
    · rw [more]
      by_cases mine : tag = (g + 1, i)
      · -- sent from the line, so the later call has not begun
        apply notAhead_of_absent
        intro b hin late
        subst late
        rcases List.mem_append.mp hin with old | new
        · exact gone (on_wire_begun hp old) (from_line mine)
        · have same := (List.mem_singleton.mp new).trans mine
          have : h + 1 = g + 1 := congrArg Prod.fst same
          omega
      · exact notAhead_push ordered mine
  · by_cases before : j < s.begunCalls h
    · exact fun hin => gone before (behind hin)
    · -- the call begins here, where the condition finds the other outboxes empty
      obtain ⟨kind, message, onRuntime, rfl⟩ := begun_enter hp m before begun
      obtain ⟨x, c, hx, _, _⟩ := accepted
      have empty : x.sender.line = [] := others_empty ok hx other
      intro hin
      have there := behind hin
      rw [lineTags_some hx, empty] at there
      cases there

/-- What is to be shown of an earlier and a later message at any moment. -/
structure Follows (g i h j : Nat) (s : State) : Prop where
  ordered : Before s.wireTags (g + 1, i) (h + 1, j)
  gone : (h + 1, j) ∈ s.wireTags → (g + 1, i) ∉ s.lineTags g

theorem follows_other {guard : State → Act → Prop}
    (orderly : ∀ s a, guard s a → Orderly s a) {s t : State} {g i h j : Nat} (other : g ≠ h)
    (start : Reachable machine guard s) (accepted : Accepted g i s) (later : s.begunCalls h ≤ j)
    (run : Steps machine guard s t) : Follows g i h j t := by
  have not_yet : ¬ j < s.begunCalls h := by omega
  have begin_here : Behind g i h j s := by
    refine ⟨accepted, notAhead_of_absent ?_, fun begun => absurd begun not_yet⟩
    rintro tag there rfl
    exact not_yet (on_wire_begun (projected_any start) there)
  have finish : Behind g i h j t :=
    steps_invariant_with (Q := Projected anyStep) (fun _ => projected_any)
      (fun _ _ _ hp hb ok hstep => behind_step other hp hb (orderly _ _ ok) (step_move hstep))
      start run begin_here
  refine ⟨before_of_notAhead finish.ordered rfl fun same => ?_, fun there => ?_⟩
  · have : g + 1 = h + 1 := congrArg Prod.fst same
    omega
  · exact finish.gone (on_wire_begun (projected_any (reachable_steps start run)) there)

/-! ## A later call through the same `RefInner` -/

def AheadIn (g i late : Nat) (s : State) : Prop :=
  ∃ x, s.inners[g]? = some x ∧ Ahead (g + 1) i late (s.view x)

theorem aheadIn_step {g i late : Nat} {s t : State} {a : Act} (hp : Projected anyStep s)
    (h : AheadIn g i late s) (m : Move s a t) : AheadIn g i late t := by
  obtain ⟨x, hx, ahead⟩ := h
  obtain ⟨y, hy, same | ⟨b, hb, _⟩⟩ := sees_step m hp.stamped hx
  · exact ⟨y, hy, same ▸ ahead⟩
  · exact ⟨y, hy, ahead_step (hp.upkeep hx) ahead (RefSender.step_move hb)⟩

theorem follows_same {guard : State → Act → Prop} {s t : State} {g i j : Nat}
    (start : Reachable machine guard s) (accepted : Accepted g i s) (later : s.begunCalls g ≤ j)
    (run : Steps machine guard s t) : Follows g i g j t := by
  obtain ⟨x, c, hx, hc, ok⟩ := accepted
  rw [begunCalls_some hx] at later
  have inside := lt_of_getElem? hc
  have begin_here : AheadIn g i x.sender.calls.length s :=
    ⟨x, hx, ahead_start (begun ((projected_any start).own_run g x hx)) hc ok⟩
  have finish : AheadIn g i x.sender.calls.length t :=
    steps_invariant_with (Q := Projected anyStep) (fun _ => projected_any)
      (fun _ _ _ hp ha _ hstep => aheadIn_step hp ha (step_move hstep)) start run begin_here
  obtain ⟨y, hy, ahead⟩ := finish
  have ordered := ahead.ordered
  constructor
  · refine before_of_notAhead (notAhead_sublist ordered (List.sublist_append_left _ _))
      ⟨rfl, later⟩ ?_
    rintro ⟨⟩
    omega
  · intro there
    rw [lineTags_some hy]
    intro waiting
    exact (List.pairwise_append.mp ordered).2.2 _ there _ waiting ⟨rfl, later⟩ rfl

theorem follows {guard : State → Act → Prop} (orderly : ∀ s a, guard s a → Orderly s a)
    {s t : State} {g i h j : Nat} (start : Reachable machine guard s)
    (accepted : Accepted g i s) (later : s.begunCalls h ≤ j) (run : Steps machine guard s t) :
    Follows g i h j t := by
  by_cases other : g = h
  · subst other
    exact follows_same start accepted later run
  · exact follows_other orderly other start accepted later run

/-! ## Where nothing is lost -/

theorem projected_lasting {guard : State → Act → Prop}
    (lossless : ∀ s a, guard s a → Lossless s a) {s : State} (h : Reachable machine guard s) :
    Projected Lasting s := by
  refine projected (fun s g x b ok hx => (lossless s _ ok).lasting hx) ?_ h
  intro w b outside
  refine ⟨⟨?_, ?_⟩, fun _ => ?_⟩
  · rintro _ o r rfl
    cases outside
  · rintro _ o rfl
    cases outside
  · cases b <;> first | rfl | cases outside

/-- While the node listens, an accepted message that is not waiting is on the wire. -/
theorem accepted_on_wire {s : State} (hc : Projected Lasting s) {g i : Nat}
    (accepted : Accepted g i s) (live : s.socket.peerOpen = true)
    (gone : (g + 1, i) ∉ s.lineTags g) : (g + 1, i) ∈ s.wireTags := by
  obtain ⟨x, c, hx, hcall, ok⟩ := accepted
  have everywhere := delivered (fun _ _ => id) (hc.own_run g x hx) live i
  have once : (s.view x).sender.accepted i = 1 := accepted_ok hcall ok
  have somewhere : (g + 1, i) ∈ (s.view x).order := List.count_pos_iff.mp (by omega)
  rw [lineTags_some hx] at gone
  exact (List.mem_append.mp somewhere).resolve_right gone

theorem present {guard : State → Act → Prop} (orderly : ∀ s a, guard s a → Orderly s a)
    (lossless : ∀ s a, guard s a → Lossless s a) {s t : State} {g i h j : Nat}
    (start : Reachable machine guard s) (accepted : Accepted g i s)
    (later : s.begunCalls h ≤ j) (run : Steps machine guard s t)
    (there : (h + 1, j) ∈ t.wireTags) : (g + 1, i) ∈ t.wireTags := by
  have kept : ∀ {t : State}, Steps machine guard s t → Accepted g i t := fun run =>
    steps_invariant_with (Q := Projected anyStep) (fun _ => projected_any)
      (fun _ _ _ hp ha _ hstep => (accepted_step hp ha (step_move hstep)).1) start run accepted
  induction run with
  | refl =>
    have := on_wire_begun (projected_any start) there
    omega
  | @tail u t path next ih =>
    obtain ⟨a, ok, hstep⟩ := next
    have whole := path.tail ⟨a, ok, hstep⟩
    have hp := projected_any (reachable_steps start path)
    rcases wire_step (step_move hstep) hp.stamped with same | ⟨p, _, more, live⟩
    · have tags : t.wireTags = u.wireTags := congrArg (List.map Sent.tag) same
      rw [tags] at there ⊢
      exact ih there
    · by_cases before : (h + 1, j) ∈ u.wireTags
      · have tags : t.wireTags = u.wireTags ++ [p.tag] :=
          (congrArg (List.map Sent.tag) more).trans (by simp [State.wireTags])
        rw [tags]
        exact List.mem_append_left _ (ih before)
      · have hc := projected_lasting lossless (reachable_steps start whole)
        exact accepted_on_wire hc (kept whole) live
          ((follows orderly start accepted later whole).gone there)

/-- In a run whose calls all begin with the other outboxes of the socket empty, a message
accepted earlier is on the wire before one accepted later, through whichever `Ref`s to
the socket: it is never behind it, it is not waiting any more when the later one is on
the wire, and it is there then too if no drain task loses a message. -/
theorem order_survives {guard : State → Act → Prop} (orderly : ∀ s a, guard s a → Orderly s a)
    {s t : State} {g i h j : Nat} (start : Reachable machine guard s)
    (accepted : Accepted g i s) (later : s.begunCalls h ≤ j) (run : Steps machine guard s t) :
    Before t.wireTags (g + 1, i) (h + 1, j) ∧
      ((h + 1, j) ∈ t.wireTags → (g + 1, i) ∉ t.lineTags g) ∧
      ((∀ s a, guard s a → Lossless s a) → (h + 1, j) ∈ t.wireTags →
        (g + 1, i) ∈ t.wireTags) := by
  obtain ⟨ordered, gone⟩ := follows orderly start accepted later run
  refine ⟨ordered, gone, fun lossless there => ?_⟩
  exact present orderly lossless start accepted later run there

/-- A message through the first `Ref` found no room; the caller has another descriptor. -/
def waiting : State where
  raws := 1
  socket := ⟨false, true, []⟩
  read := 0
  loop := .receiving
  armed := true
  makers := [⟨10, .done⟩]
  inners :=
    [{ fd := 10
       strong := 1
       stage := .live
       sender :=
        { fresh true with
          once := some 0
          boxes := [⟨11, ⟨1, ⟨depth, [⟨1, 0, note 1⟩], 0, true, true⟩, .receiving⟩⟩]
          calls := [⟨.trySend, note 1, true, .returned .ok⟩] }
       death := none
       watches := [] }]
  hands := [0]
  entry := some 0
  fds := [11, 10]

def toWaiting : List Act :=
  [.dup, .fromFd 10, .make 0 true, .send 0 (.enter .trySend (note 1) true), .send 0 (.call 0),
    .send 0 (.sendNow 0 .wouldBlock), .send 0 (.call 0), .send 0 (.build 0 (some 11)),
    .send 0 (.call 0), .send 0 (.call 0), .send 0 (.call 0), .send 0 (.call 0)]

theorem waiting_run : exec machine Sure (opened false) toWaiting = some waiting := by
  decide

theorem waiting_accepted : Accepted 0 0 waiting := ⟨_, _, rfl, rfl, rfl⟩

/-- The drain task was done before the second `Ref` was built and sent on. -/
def succeeded : State where
  raws := 0
  socket := ⟨true, true, [⟨1, 0, note 1⟩, ⟨2, 0, note 2⟩]⟩
  read := 0
  loop := .receiving
  armed := true
  makers := [⟨10, .done⟩, ⟨12, .done⟩]
  inners :=
    [{ fd := 10
       strong := 0
       stage := .dropped
       sender :=
        { runtime := true
          once := some 0
          boxes := [⟨11, ⟨1, ⟨depth, [], 0, false, true⟩, .accounting ⟨1, 0, note 1⟩ true⟩⟩]
          calls := [⟨.trySend, note 1, true, .returned .ok⟩]
          alive := false
          trash := [] }
       death := none
       watches := [] },
     { fd := 12
       strong := 1
       stage := .live
       sender :=
        { fresh true with
          calls := [⟨.trySend, note 2, true, .returned .ok⟩]
          trash := [note 2] }
       death := none
       watches := [] }]
  hands := [1]
  entry := some 1
  fds := [12, 11]

theorem succeeded_run : exec machine Sure waiting
    [.drop 0, .unfile 0, .dropFd 0, .dropOutbox 0, .dropDeath 0, .room true,
      .send 0 (.drain 0 .recv), .send 0 (.drain 0 (.sendmsg .ok)), .fromFd 12, .make 1 true,
      .send 1 (.enter .trySend (note 2) true), .send 1 (.call 0), .send 1 (.sendNow 0 .ok)] =
    some succeeded := by
  decide

theorem order_survives_succeeded :
    Before succeeded.wireTags (1, 0) (2, 0) ∧
      ((2, 0) ∈ succeeded.wireTags → (1, 0) ∉ succeeded.lineTags 0) ∧
      ((∀ s a, Sure s a → Lossless s a) → (2, 0) ∈ succeeded.wireTags →
        (1, 0) ∈ succeeded.wireTags) := by
  have start : Reachable machine Sure waiting := exec_reachable ⟨false, rfl⟩ waiting_run
  have run : Steps machine Sure waiting succeeded := exec_steps succeeded_run
  exact order_survives (fun _ _ ok => ok.1) start waiting_accepted (Nat.le_refl 0) run

/-- The second `Ref`'s message went out inline while the first's drain task still had its
message in hand. -/
def overtaken : State where
  raws := 0
  socket := ⟨true, true, [⟨2, 0, note 2⟩, ⟨1, 0, note 1⟩]⟩
  read := 0
  loop := .receiving
  armed := true
  makers := [⟨10, .done⟩, ⟨12, .done⟩]
  inners := succeeded.inners
  hands := [1]
  entry := some 1
  fds := [12, 11]

theorem overtaken_run : exec machine anyStep waiting
    [.drop 0, .unfile 0, .dropFd 0, .dropOutbox 0, .dropDeath 0, .send 0 (.drain 0 .recv),
      .send 0 (.drain 0 (.sendmsg .wouldBlock)), .room true, .fromFd 12, .make 1 true,
      .send 1 (.enter .trySend (note 2) true), .send 1 (.call 0), .send 1 (.sendNow 0 .ok),
      .send 0 (.drain 0 (.sendmsg .ok))] = some overtaken := by
  decide

theorem order_overtaken :
    Reachable machine anyStep waiting ∧ Accepted 0 0 waiting ∧ waiting.begunCalls 1 ≤ 0 ∧
      Steps machine anyStep waiting overtaken ∧ Accepted 1 0 overtaken ∧
      ¬ Before overtaken.wireTags (1, 0) (2, 0) := by
  refine ⟨reachable_unguarded (exec_reachable ⟨false, rfl⟩ waiting_run), waiting_accepted,
    Nat.le_refl 0, exec_steps overtaken_run, ⟨_, _, rfl, rfl, rfl⟩, fun before => ?_⟩
  have wrong : 1 < 0 := before 1 0 rfl rfl
  omega

end Capability
