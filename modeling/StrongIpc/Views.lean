import StrongIpc.Capability
import StrongIpc.Line

/-!
# Each `RefInner` on its own

Seen from one `RefInner`, a run on the socket is a run of its own sender: what the
others send is put on the wire by somebody else, and the rest of their steps does
not show. Whatever holds of one sender in every run so holds of each of them.
-/

namespace RefSender

open BoundedChannel OutboxTraffic Roster StepMachine Wire

/-- The steps that are not taken by the `RefInner`'s own calls and drain tasks. -/
def Act.isOutside : Act → Bool
  | .room _ => true
  | .peerClose => true
  | .other _ => true
  | .release => true
  | _ => false

/-- What is about to be sent through a `RefInner` bears its number. -/
def Stamped (me : Nat) (s : Sender) : Prop :=
  ∀ (o : Nat) (b : Box), s.boxes[o]? = some b → ∀ p ∈ line b.outbox, p.inner = me

theorem line_drain {b x : Outbox Sent} {a : DrainAct} (hm : DrainMove b a x) {p : Sent}
    (hp : p ∈ line x) : p ∈ line b := by
  cases hm with
  | took q rest idle hq => simpa [line, hand, idle, hq] using hp
  | closed idle empty gone => simpa [line, hand, idle] using hp
  | retry q busy => exact hp
  | answered q r busy final =>
    have queued : p ∈ b.channel.queue := by simpa [line, hand] using hp
    exact List.mem_append_right _ queued
  | accounted q sent busy => cases sent <;> simpa [line, hand, busy] using hp
  | left leaving => simp [line, hand, Channel.dropReceiver] at hp
  | aborted parked => simp [line, hand, Channel.dropReceiver] at hp

theorem line_closed {b : Outbox Sent} {p : Sent} (hp : p ∈ line (closeBox b).1) : p ∈ line b := by
  rcases line_close b with same | ⟨_, shorter⟩
  · exact same ▸ hp
  · exact shorter.subset hp

theorem stamped_step {me : Nat} {w w' : World} {a : Act} (h : Stamped me w.sender)
    (m : Move me w a w') : Stamped me w'.sender := by
  intro o b' hb' p hp
  rcases box_move m hb' with ⟨d, rfl, _⟩ | ⟨b, hb, _, hm⟩
  · cases hp
  · have before := h o b hb
    generalize b'.outbox = x at hm hp
    cases hm with
    | still => exact before p hp
    | queue i c op op' _ hc hs hm =>
      obtain ⟨drain, _, _, queue⟩ := hm.effect
      rw [line, drain, queue, ← List.append_assoc] at hp
      rcases List.mem_append.mp hp with old | new
      · exact before p old
      · split at new
        · rw [List.mem_singleton.mp new]
        · cases new
    | park a i c op op' _ hc hs hm =>
      obtain ⟨drain, _, queue, _⟩ := hm.effect
      rw [line, drain, queue] at hp
      exact before p hp
    | drain a _ hm => exact before p (line_drain hm hp)
    | lost a i c next hc hs => exact before p (line_closed hp)
    | released alive allOver hset => exact before p (line_closed hp)

theorem stamped {me : Nat} {guard : World → Act → Prop} {w : World}
    (h : Reachable (machine me) guard w) : Stamped me w.sender := by
  refine reachable_invariant (P := fun w => Stamped me w.sender) ?_ ?_ h
  · rintro w ⟨runtime, hw, _⟩ o b hb
    simp [hw, fresh] at hb
  · intro w a w' hs _ hstep
    exact stamped_step hs (step_move hstep)

/-- What a `sendmsg` leaves on the socket. -/
theorem sent_socket {k k' : Socket} {p : Sent} {r : SendResult} (h : k.sendNow p r = some k') :
    k' = k ∨ (k.peerOpen = true ∧ k' = { k with wire := k.wire ++ [p] }) := by
  obtain ⟨may, ⟨sent, same⟩ | ⟨_, same⟩⟩ := sendNow_cases h
  · subst sent
    simp only [Socket.mayAnswer, Bool.and_eq_true] at may
    exact Or.inr ⟨may.1.1, same⟩
  · exact Or.inl same

/-- All that a step of its own does to the socket is to send one message on it. -/
theorem socket_move {me : Nat} {w w' : World} {a : Act} (h : Stamped me w.sender)
    (m : Move me w a w') (own : a.isOutside = false) :
    w'.socket = w.socket ∨
      ∃ p, p.inner = me ∧ w.socket.peerOpen = true ∧
        w'.socket = { w.socket with wire := w.socket.wire ++ [p] } := by
  cases m with
  | room b => cases own
  | peerClose => cases own
  | other p foreign => cases own
  | inline i c r k hc hs hk =>
    rcases sent_socket hk with same | sent
    · exact Or.inl same
    · exact Or.inr ⟨_, rfl, sent⟩
  | drain o a b k x hb hk hm =>
    cases a with
    | sendmsg r =>
      cases hd : b.outbox.drain with
      | sending p =>
        have mine : p.inner = me := h o b hb p (by simp [line, hand, hd])
        rcases sent_socket (show w.socket.sendNow p r = some k by
          simpa [drainSocket, hd] using hk) with same | sent
        · exact Or.inl same
        · exact Or.inr ⟨p, mine, sent⟩
      | _ => simp [drainSocket, hd] at hk
    | _ => exact Or.inl (Option.some.inj hk).symm
  | _ => exact Or.inl rfl

end RefSender

namespace Capability

open OutboxTraffic Roster StepMachine Wire

theorem mayTake_own {s : State} {g : Nat} {a : RefSender.Act} (may : s.mayTake g a = true) :
    a.isOutside = false := by
  cases a <;> first | rfl | cases may

/-- What one `RefInner` sees of a step: nothing, or a step of its own sender. -/
def Sees (s t : State) (a : Act) (g : Nat) (x : Inner) : Prop :=
  ∃ y, t.inners[g]? = some y ∧ (t.view y = s.view x ∨
    ∃ b, RefSender.step (g + 1) (s.view x) b = some (t.view y) ∧
      (b.isOutside = true ∨ a = .send g b))

theorem sees_nothing {s t : State} {a : Act} {g : Nat} {x : Inner} (hx : s.inners[g]? = some x)
    (inners : t.inners = s.inners) (socket : t.socket = s.socket) : Sees s t a g x :=
  ⟨x, inners ▸ hx, Or.inl (by rw [State.view, State.view, socket])⟩

/-- A step that rewrites a `RefInner` and leaves its sender and the socket alone. -/
theorem sees_rewrite {s t : State} {a : Act} {g k : Nat} {x z y : Inner}
    (hx : s.inners[g]? = some x) (hz : s.inners[k]? = some z)
    (inners : t.inners = s.inners.set k y) (sender : y.sender = z.sender)
    (socket : t.socket = s.socket) : Sees s t a g x := by
  by_cases same : g = k
  · subst same
    obtain rfl : z = x := Option.mem_unique hz hx
    refine ⟨y, ?_, Or.inl (by rw [State.view, State.view, socket, sender])⟩
    rw [inners]
    exact List.getElem?_set_self (lt_of_getElem? hx)
  · refine ⟨x, ?_, Or.inl (by rw [State.view, State.view, socket])⟩
    rw [inners, List.getElem?_set_ne (Ne.symm same)]
    exact hx

theorem sees_end {s t : State} {a : Act} {g : Nat} {x : Inner} (hx : s.inners[g]? = some x)
    (inners : t.inners = s.inners) (socket : t.socket = { s.socket with peerOpen := false }) :
    Sees s t a g x := by
  refine ⟨x, inners ▸ hx, Or.inr ⟨.peerClose, ?_, Or.inl rfl⟩⟩
  rw [State.view, State.view, socket]
  rfl

theorem sees_release {s t : State} {a : Act} {g k : Nat} {x z : Inner}
    {sender : RefSender.Sender} (hx : s.inners[g]? = some x) (hz : s.inners[k]? = some z)
    (hr : z.sender.releaseOnce = some sender)
    (ht : t = s.setInner k { z with sender, stage := .emptied }) : Sees s t a g x := by
  subst ht
  by_cases same : g = k
  · subst same
    obtain rfl : z = x := Option.mem_unique hz hx
    refine ⟨{ z with sender, stage := .emptied },
      List.getElem?_set_self (lt_of_getElem? hx), Or.inr ⟨.release, ?_, Or.inl rfl⟩⟩
    simp [RefSender.step, State.view, hr, State.setInner]
  · refine ⟨x, ?_, Or.inl rfl⟩
    exact (List.getElem?_set_ne (Ne.symm same)).trans hx

theorem sees_take {s : State} {g k : Nat} {x z : Inner} {b : RefSender.Act} {w : RefSender.World}
    (hx : s.inners[g]? = some x) (hz : s.inners[k]? = some z) (may : s.mayTake k b = true)
    (hw : RefSender.step (k + 1) (s.view z) b = some w)
    (stamped : RefSender.Stamped (k + 1) z.sender) :
    Sees s (s.taken k z b w) (.send k b) g x := by
  by_cases same : g = k
  · subst same
    obtain rfl : z = x := Option.mem_unique hz hx
    exact ⟨{ z with sender := w.sender }, List.getElem?_set_self (lt_of_getElem? hx),
      Or.inr ⟨b, hw, Or.inr rfl⟩⟩
  · have elsewhere : (s.taken k z b w).inners[g]? = some x :=
      (List.getElem?_set_ne (Ne.symm same)).trans hx
    refine ⟨x, elsewhere, ?_⟩
    rcases RefSender.socket_move stamped (RefSender.step_move hw) (mayTake_own may) with
      still | ⟨p, mine, _, sent⟩
    · exact Or.inl (by simp only [State.view, State.taken, still])
    · refine Or.inr ⟨.other p, ?_, Or.inl rfl⟩
      have foreign : p.inner ≠ g + 1 := by omega
      simp only [RefSender.step, if_neg foreign, State.view, State.taken, sent]

theorem sees_step {s t : State} {a : Act} (m : Move s a t)
    (stamped : ∀ k z, s.inners[k]? = some z → RefSender.Stamped (k + 1) z.sender)
    {g : Nat} {x : Inner} (hx : s.inners[g]? = some x) : Sees s t a g x := by
  cases m with
  | room b => exact ⟨x, hx, Or.inr ⟨.room b, rfl, Or.inl rfl⟩⟩
  | other m some_raw peerOpen =>
    refine ⟨x, hx, Or.inr ⟨.other ⟨0, 0, m⟩, ?_, Or.inl rfl⟩⟩
    simp [RefSender.step, State.view]
  | revive i runtime m k z hm hs hz held => exact sees_rewrite hx hz rfl rfl rfl
  | file i runtime m hm hs =>
    refine ⟨x, ?_, Or.inl rfl⟩
    exact (List.getElem?_append_left (lt_of_getElem? hx)).trans hx
  | clone k z hz held => exact sees_rewrite hx hz rfl rfl rfl
  | drop k z hz held enough => exact sees_rewrite hx hz rfl rfl rfl
  | unfile k z hz hs => exact sees_rewrite hx hz rfl rfl rfl
  | dropFd k z hz hs => exact sees_rewrite hx hz rfl rfl rfl
  | dropOutbox k z sender hz hs hr => exact sees_release hx hz hr rfl
  | dropUnwatched k z hz hs hd => exact sees_rewrite hx hz rfl rfl rfl
  | dropDeath k z d hz hs hd => exact sees_rewrite hx hz rfl rfl rfl
  | take k b z w hz may hw => exact sees_take hx hz may hw (stamped k z hz)
  | watch k z hz held => exact sees_rewrite hx hz rfl rfl rfl
  | rewatch a k i z old new hz hi walk => exact sees_rewrite hx hz rfl rfl rfl
  | keep k i z d hz hi hd => exact sees_rewrite hx hz rfl rfl rfl
  | lost k i z d hz hi => exact sees_rewrite hx hz rfl rfl rfl
  | built k i z d hz hi unused => exact sees_rewrite hx hz rfl rfl rfl
  | recv p hp hl =>
    rw [State.received]
    split
    · exact sees_end hx rfl rfl
    · split <;> exact sees_nothing hx rfl rfl
  | hangup hl all_read unnamed => exact sees_end hx rfl rfl
  | recvFails hl => exact sees_end hx rfl rfl
  | panic hl => exact sees_end hx rfl rfl
  | abort armed => exact sees_end hx rfl rfl
  | _ => exact sees_nothing hx rfl rfl

/-! ## Where a `RefInner` comes from -/

theorem received_wire (s : State) (m : Message) : (s.received m).socket.wire = s.socket.wire := by
  rw [State.received]
  split
  · rfl
  · split <;> rfl

theorem inners_move {s t : State} {a : Act} (m : Move s a t) :
    t.inners.length = s.inners.length ∨
      ∃ i m runtime, t = s.fileNew i m runtime := by
  cases m with
  | file i runtime m hm hs => exact Or.inr ⟨i, m, runtime, rfl⟩
  | recv p hp hl =>
    apply Or.inl
    rw [State.received]
    split
    · rfl
    · split <;> rfl
  | revive | clone | drop | unfile | dropFd | dropOutbox | dropUnwatched | dropDeath | take | watch
    | rewatch | keep | lost | built => exact Or.inl (List.length_set)
  | _ => exact Or.inl rfl

/-- Nothing on the wire bears a number that has not been given yet. -/
def Numbered (s : State) : Prop := ∀ p ∈ s.socket.wire, p.inner ≤ s.inners.length

/-- A step puts at most one message on the wire, and that while the node listens. -/
theorem wire_step {s t : State} {a : Act} (m : Move s a t)
    (stamped : ∀ k z, s.inners[k]? = some z → RefSender.Stamped (k + 1) z.sender) :
    t.socket.wire = s.socket.wire ∨
      ∃ p : Sent, p.inner ≤ s.inners.length ∧ t.socket.wire = s.socket.wire ++ [p] ∧
        t.socket.peerOpen = true := by
  cases m with
  | other m some_raw peerOpen => exact Or.inr ⟨⟨0, 0, m⟩, Nat.zero_le _, rfl, peerOpen⟩
  | take k b z w hz may hw =>
    have inside := lt_of_getElem? hz
    rcases RefSender.socket_move (stamped k z hz) (RefSender.step_move hw) (mayTake_own may) with
      still | ⟨q, mine, live, sent⟩
    · exact Or.inl (congrArg Socket.wire still)
    · refine Or.inr ⟨q, by omega, congrArg Socket.wire sent, ?_⟩
      exact (congrArg Socket.peerOpen sent).trans live
  | recv q hq hl => exact Or.inl (received_wire s q.message)
  | _ => exact Or.inl rfl

theorem numbered_step {s t : State} {a : Act} (h : Numbered s) (m : Move s a t)
    (stamped : ∀ k z, s.inners[k]? = some z → RefSender.Stamped (k + 1) z.sender) :
    Numbered t := by
  have grow : s.inners.length ≤ t.inners.length := by
    rcases inners_move m with same | ⟨i, m, runtime, rfl⟩
    · omega
    · simp [State.fileNew]
  intro p hp
  rcases wire_step m stamped with same | ⟨q, low, more, _⟩
  · rw [same] at hp
    exact Nat.le_trans (h p hp) grow
  · rw [more] at hp
    rcases List.mem_append.mp hp with old | new
    · exact Nat.le_trans (h p old) grow
    · rw [List.mem_singleton.mp new]
      exact Nat.le_trans low grow

/-- Every `RefInner` has lived through a run of its own sender. -/
structure Projected (guard' : RefSender.World → RefSender.Act → Prop) (s : State) : Prop where
  numbered : Numbered s
  own_run : ∀ g x, s.inners[g]? = some x →
    Reachable (RefSender.machine (g + 1)) guard' (s.view x)

theorem Projected.stamped {guard' : RefSender.World → RefSender.Act → Prop} {s : State}
    (h : Projected guard' s) (k : Nat) (z : Inner) (hz : s.inners[k]? = some z) :
    RefSender.Stamped (k + 1) z.sender :=
  RefSender.stamped (h.own_run k z hz)

theorem projected_step {guard' : RefSender.World → RefSender.Act → Prop} {s t : State} {a : Act}
    (h : Projected guard' s) (hm : Move s a t)
    (own : ∀ g x b, a = .send g b → s.inners[g]? = some x → guard' (s.view x) b)
    (outside : ∀ w b, b.isOutside = true → guard' w b) : Projected guard' t := by
  have stamped := h.stamped
  constructor
  · exact numbered_step h.numbered hm stamped
  · intro g y hy
    have old : ∀ x, s.inners[g]? = some x →
        Reachable (RefSender.machine (g + 1)) guard' (t.view y) := by
      intro x hx
      obtain ⟨y', hy', sees⟩ := sees_step hm stamped hx
      obtain rfl : y' = y := Option.mem_unique hy' hy
      rcases sees with same | ⟨b, hb, apart | mine⟩
      · exact same ▸ h.own_run g x hx
      · exact reachable_step (h.own_run g x hx) (outside _ b apart) hb
      · exact reachable_step (h.own_run g x hx) (own g x b mine hx) hb
    rcases inners_move hm with same | ⟨i, m, runtime, rfl⟩
    · have inside : g < s.inners.length := same ▸ lt_of_getElem? hy
      exact old _ (List.getElem?_eq_getElem inside)
    · rcases getElem?_push_cases hy with ⟨last, rfl⟩ | hx
      · refine reachable_init ⟨runtime, rfl, fun p hp => ?_⟩
        have := h.numbered p hp
        omega
      · exact old y hx

theorem projected {guard : State → Act → Prop}
    {guard' : RefSender.World → RefSender.Act → Prop}
    (own : ∀ s g x b, guard s (.send g b) → s.inners[g]? = some x → guard' (s.view x) b)
    (outside : ∀ w b, RefSender.Act.isOutside b = true → guard' w b) {s : State}
    (h : Reachable machine guard s) : Projected guard' s := by
  refine reachable_invariant (P := Projected guard') ?_ ?_ h
  · rintro s ⟨room, rfl⟩
    exact ⟨by simp [Numbered, opened], by simp [opened]⟩
  · intro s a t hp ok hstep
    exact projected_step hp (step_move hstep) (fun g x b same hx => own s g x b (same ▸ ok) hx)
      outside

/-- With nothing asked of the steps. -/
theorem projected_any {guard : State → Act → Prop} {s : State} (h : Reachable machine guard s) :
    Projected anyStep s :=
  projected (fun _ _ _ _ _ _ => trivial) (fun _ _ _ => trivial) h

end Capability
