import Mathlib.Data.List.Forall2
import StrongIpc.Library.Mailbox
import StrongIpc.Library.Roster
import StrongIpc.Claims

/-!
# Each node is a mailbox

Whatever all the parties do in between, the handler of a node gets what was sent to the
node, in the order in which it was sent, each message once and with the credentials of
the party that sent it. A loop that hangs up has left nothing out.
-/

namespace Network

open Receive Roster StepMachine Wire

variable {P : Type}

/-- What the step puts on the wire of the node. -/
def sentTo (c : Setting P) (s : Nat) (l : Label P) : Option Datagram :=
  match l.act with
  | .send k m _ _ => if k = s then some ⟨m.data, m.fds.map asFd, c.creds l.who⟩ else none
  | _ => none

/-- The call that the datagram is worth, with as many of its descriptors as there were slots. -/
def Passed (call : Call) (d : Datagram) : Prop :=
  ∃ k, call = ⟨d.payload, d.fds.take k, d.creds⟩

/-- The mailbox that a node has been, `named` as long as there is a descriptor of it. What is
unread in it when the loop is over is gone. -/
structure Serves (n : Node P) (named : Bool) (b : Mailbox.Box Datagram) : Prop where
  named : b.named = named
  going : b.life = .going ↔ n.ending = .parked
  unread : n.ending = .parked → n.wire = b.posted.drop b.read
  calls : List.Forall₂ Passed n.loop.calls ((b.posted.take b.read).filter Datagram.fits)

/-- The loop of the node has seen its hangup. -/
def hungUp (s : Nat) (l : Label P) : Bool := l.act = .hangup s

/-- What the steps of a run have had to do with the node. -/
structure Traced (c : Setting P) (s : Nat) (labels : List (Label P)) (b : Mailbox.Box Datagram) :
    Prop where
  posted : b.posted = labels.filterMap (sentTo c s)
  quit : labels.any (hungUp s) = true → b.life = .quit

/-- There is no such node yet, or it has been this mailbox. -/
structure Simulates (c : Setting P) (s : Nat) (labels : List (Label P)) (w : World P)
    (b : Mailbox.Box Datagram) : Prop where
  valid : Valid w
  sound : Mailbox.Sound b
  traced : Traced c s labels b
  serves : (w.nodes[s]? = none ∧ b = Mailbox.fresh) ∨
    ∃ n, w.nodes[s]? = some n ∧ Serves n (w.isNamed s) b

/-! ## One node, one step -/

theorem Traced.next {c : Setting P} {s : Nat} {labels : List (Label P)}
    {b b' : Mailbox.Box Datagram} {l : Label P} (h : Traced c s labels b)
    (posted : b'.posted = b.posted ++ (sentTo c s l).toList)
    (kept : b.life = .quit → b'.life = .quit) (quit : hungUp s l = true → b'.life = .quit) :
    Traced c s (labels ++ [l]) b' := by
  constructor
  · rw [posted, h.posted, List.filterMap_append]
    cases put : sentTo c s l <;> simp [put]
  · rw [List.any_append, List.any_cons, List.any_nil, Bool.or_false, Bool.or_eq_true]
    rintro (before | now)
    · exact kept (h.quit before)
    · exact quit now

/-- The node may have lost its name besides. -/
theorem serves_forget {n : Node P} {named now : Bool} {b : Mailbox.Box Datagram}
    (h : Serves n named b) (falls : now = true → named = true) :
    ∃ b', Steps (Mailbox.machine Datagram) anyStep b b' ∧ Serves n now b' ∧
      b'.posted = b.posted ∧ b'.life = b.life :=
  ⟨_, Mailbox.named_next b fun kept => h.named.trans (falls kept),
    ⟨rfl, h.going, h.unread, h.calls⟩, rfl, rfl⟩

theorem serves_post {n : Node P} {b : Mailbox.Box Datagram} (h : Serves n true b)
    (sound : Mailbox.Sound b) (going : n.ending = .parked) (d : Datagram) :
    Steps (Mailbox.machine Datagram) anyStep b { b with posted := b.posted ++ [d] } ∧
      Serves { n with wire := n.wire ++ [d] } true { b with posted := b.posted ++ [d] } := by
  refine ⟨Mailbox.post_next (h.going.mpr going) h.named d, h.named, h.going, fun _ => ?_, ?_⟩
  · show n.wire ++ [d] = (b.posted ++ [d]).drop b.read
    rw [h.unread going, List.drop_append_of_le_length sound.within]
  · show List.Forall₂ Passed _ (((b.posted ++ [d]).take b.read).filter _)
    rw [List.take_append_of_le_length sound.within]
    exact h.calls

theorem serves_take {n : Node P} {named : Bool} {b : Mailbox.Box Datagram} {d : Datagram}
    {rest : List Datagram} {address slots : Nat} {loop : Loop} (h : Serves n named b)
    (going : n.ending = .parked) (wire : n.wire = d :: rest)
    (turn : Turn n.loop address slots d (loop, .parked)) (busy : Bool) :
    Steps (Mailbox.machine Datagram) anyStep b { b with read := b.read + 1 } ∧
      Serves { n with wire := rest, loop, busy } named { b with read := b.read + 1 } := by
  have unread : b.posted.drop b.read = d :: rest := (h.unread going).symm.trans wire
  have inside : b.read < b.posted.length := by
    by_contra past
    rw [List.drop_of_length_le (Nat.not_lt.mp past)] at unread
    cases unread
  obtain ⟨first, later⟩ :=
    List.cons_eq_cons.mp ((List.drop_eq_getElem_cons inside).symm.trans unread)
  refine ⟨Mailbox.take_next (h.going.mpr going) inside, h.named, h.going, fun _ => later.symm, ?_⟩
  show List.Forall₂ Passed loop.calls ((b.posted.take (b.read + 1)).filter _)
  rw [List.take_add_one, List.getElem?_eq_getElem inside, first, Option.toList_some,
    List.filter_append, List.filter_singleton]
  cases turn with
  | ended _ _ _ stopped => exact absurd rfl stopped
  | dropped _ calls long =>
    have unfit : d.fits = false := by
      simp only [Datagram.fits, Bool.and_eq_false_iff, decide_eq_false_iff_not]
      exact Or.inr (Nat.not_le.mpr long)
    rw [calls, unfit]
    simpa using h.calls
  | called _ fits calls =>
    rw [calls, fits]
    exact List.rel_append h.calls (.cons ⟨_, rfl⟩ .nil)

theorem serves_end {n : Node P} {named : Bool} {b : Mailbox.Box Datagram} {loop : Loop}
    {e : Ending} {life : Mailbox.Life} (h : Serves n named b) (calls : loop.calls = n.loop.calls)
    (stopped : e ≠ .parked) (ended : life ≠ .going) :
    Serves (({ n with loop }).finish e) named { b with life } where
  named := h.named
  going := ⟨fun going => absurd going ended, fun parked => absurd parked stopped⟩
  unread := fun parked => absurd parked stopped
  calls := calls ▸ h.calls

/-! ## One step of the system -/

/-- The step has nothing to do with the node but that it may take its name. -/
theorem simulates_rest {c : Setting P} {s : Nat} {labels : List (Label P)} {w t : World P}
    {b : Mailbox.Box Datagram} {l : Label P} (h : Simulates c s labels w b) (valid : Valid t)
    (falls : s < w.nodes.length → t.isNamed s = true → w.isNamed s = true)
    (same : t.nodes[s]? = w.nodes[s]?) (unsent : sentTo c s l = none)
    (unhung : hungUp s l = false) :
    ∃ b', Steps (Mailbox.machine Datagram) anyStep b b' ∧ Simulates c s (labels ++ [l]) t b' := by
  have traced : ∀ b' : Mailbox.Box Datagram, b'.posted = b.posted → b'.life = b.life →
      Traced c s (labels ++ [l]) b' := by
    intro b' posted life
    refine h.traced.next ?_ (fun quit => life.trans quit) (fun hung => ?_)
    · rw [posted, unsent, Option.toList_none, List.append_nil]
    · rw [unhung] at hung
      cases hung
  rcases h.serves with ⟨none, fresh⟩ | ⟨n, hn, serves⟩
  · exact ⟨b, .refl, valid, h.sound, traced b rfl rfl, Or.inl ⟨same.trans none, fresh⟩⟩
  · obtain ⟨b', run, serves', posted, life⟩ := serves_forget serves (falls (lt_of_getElem? hn))
    exact ⟨b', run, valid, Mailbox.sound_steps h.sound run, traced b' posted life,
      Or.inr ⟨n, same.trans hn, serves'⟩⟩

/-- The step rewrites the node, and may take its name besides. -/
theorem simulates_here {c : Setting P} {s : Nat} {labels : List (Label P)} {w t : World P}
    {b : Mailbox.Box Datagram} {l : Label P} {n n' : Node P} (h : Simulates c s labels w b)
    (valid : Valid t) (falls : t.isNamed s = true → w.isNamed s = true)
    (hn : w.nodes[s]? = some n) (nodes : t.nodes = w.nodes.set s n')
    (here : Serves n (w.isNamed s) b →
      ∃ b', Steps (Mailbox.machine Datagram) anyStep b b' ∧ Serves n' (w.isNamed s) b' ∧
        b'.posted = b.posted ++ (sentTo c s l).toList ∧ (b.life = .quit → b'.life = .quit) ∧
        (hungUp s l = true → b'.life = .quit)) :
    ∃ b', Steps (Mailbox.machine Datagram) anyStep b b' ∧ Simulates c s (labels ++ [l]) t b' := by
  rcases h.serves with ⟨none, _⟩ | ⟨m, hm, serves⟩
  · simp [hn] at none
  · obtain rfl : m = n := Option.mem_unique hm hn
    obtain ⟨b', run, serves', posted, kept, quit⟩ := here serves
    have traced := h.traced.next posted kept quit
    obtain ⟨b'', lost, serves'', posted', life⟩ := serves_forget serves' falls
    have whole := run.trans lost
    refine ⟨b'', whole, valid, Mailbox.sound_steps h.sound whole, ?_, ?_⟩
    · exact ⟨posted'.trans traced.posted, fun hung => life.trans (traced.quit hung)⟩
    · exact Or.inr ⟨n', nodes ▸ List.getElem?_set_self (lt_of_getElem? hn), serves''⟩

theorem named_add (w : World P) (n : Node P) : (w.add n).isNamed w.nodes.length = true := by
  simp only [World.isNamed, List.any_eq_true, decide_eq_true_eq]
  refine ⟨(n.owner, w.nodes.length), mem_claims.mpr (Or.inl ?_), rfl⟩
  exact List.mem_append_right _ List.mem_cons_self

theorem simulates_add {c : Setting P} {s : Nat} {labels : List (Label P)} {w : World P}
    {b : Mailbox.Box Datagram} {l : Label P} {n : Node P} (h : Simulates c s labels w b)
    (valid : Valid (w.add n)) (falls : s < w.nodes.length → (w.add n).isNamed s = true →
      w.isNamed s = true)
    (unsent : sentTo c s l = none) (unhung : hungUp s l = false)
    (born : ∃ b', Steps (Mailbox.machine Datagram) anyStep Mailbox.fresh b' ∧ Serves n true b' ∧
      b'.posted = []) :
    ∃ b', Steps (Mailbox.machine Datagram) anyStep b b' ∧
      Simulates c s (labels ++ [l]) (w.add n) b' := by
  by_cases here : s = w.nodes.length
  · subst here
    rcases h.serves with ⟨_, rfl⟩ | ⟨m, hm, _⟩
    · obtain ⟨b', run, serves, posted⟩ := born
      refine ⟨b', run, valid, Mailbox.sound_steps h.sound run, ?_, Or.inr ⟨n, ?_, ?_⟩⟩
      · refine h.traced.next ?_ (fun quit => by cases quit) (fun hung => ?_)
        · rw [posted, unsent]
          rfl
        · rw [unhung] at hung
          cases hung
      · exact List.getElem?_concat_length
      · rw [named_add]
        exact serves
    · exact absurd (lt_of_getElem? hm) (Nat.lt_irrefl _)
  · refine simulates_rest h valid falls ?_ unsent unhung
    rw [World.add, List.getElem?_append]
    split
    · rfl
    · rename_i past
      rw [List.getElem?_eq_none_iff.mpr (Nat.not_lt.mp past)]
      refine List.getElem?_eq_none_iff.mpr ?_
      rw [List.length_singleton]
      omega

variable [DecidableEq P]

theorem simulates_move {c : Setting P} {s : Nat} {labels : List (Label P)} {w t : World P}
    {b : Mailbox.Box Datagram} {l : Label P} (h : Simulates c s labels w b) (m : Move c w l t) :
    ∃ b', Steps (Mailbox.machine Datagram) anyStep b b' ∧ Simulates c s (labels ++ [l]) t b' := by
  have valid := valid_move h.valid m
  have falls : s < w.nodes.length → t.isNamed s = true → w.isNamed s = true := named_move m
  have elsewhere : ∀ {k : Nat} {n' : Node P}, k ≠ s → t.nodes = w.nodes.set k n' →
      t.nodes[s]? = w.nodes[s]? := by
    intro k n' other nodes
    rw [nodes, List.getElem?_set_ne other]
  cases m with
  | opened p =>
    exact simulates_add h valid falls rfl rfl
      ⟨Mailbox.fresh, .refl, ⟨rfl, by simp [Mailbox.fresh, Node.fresh], fun _ => rfl, .nil⟩, rfl⟩
  | other p =>
    exact simulates_add h valid falls rfl rfl
      ⟨_, Mailbox.stop_next rfl, ⟨rfl, by simp [Node.other], fun _ => rfl, .nil⟩, rfl⟩
  | sent p k m stack heap n hn held attached going few =>
    by_cases here : k = s
    · subst here
      refine simulates_here h valid (falls (lt_of_getElem? hn)) hn rfl fun serves => ?_
      have named : w.isNamed k = true := by
        simp only [World.isNamed, List.any_eq_true, decide_eq_true_eq]
        exact ⟨(p, k), mem_claims.mpr (Or.inl held), rfl⟩
      rw [named] at serves ⊢
      obtain ⟨run, serves'⟩ := serves_post serves h.sound going ⟨m.data, m.fds.map asFd, c.creds p⟩
      exact ⟨_, run, serves', by simp [sentTo], id, by simp [hungUp]⟩
    · exact simulates_rest h valid falls (elsewhere here rfl) (if_neg here) (by simp [hungUp])
  | turned k slots n d rest loop hn idle wire turn full =>
    by_cases here : k = s
    · subst here
      refine simulates_here h valid (falls (lt_of_getElem? hn)) hn rfl fun serves => ?_
      obtain ⟨run, serves'⟩ := serves_take serves (isIdle_iff.mp idle).1 wire turn _
      exact ⟨_, run, serves', by simp [sentTo], id, by simp [hungUp]⟩
    · exact simulates_rest h valid falls (elsewhere here rfl) rfl (by simp [hungUp])
  | handled k n hn busy =>
    by_cases here : k = s
    · subst here
      refine simulates_here h valid (falls (lt_of_getElem? hn)) hn rfl fun serves => ?_
      exact ⟨b, .refl, ⟨serves.named, serves.going, serves.unread, serves.calls⟩, by simp [sentTo],
        id, by simp [hungUp]⟩
    · exact simulates_rest h valid falls (elsewhere here rfl) rfl (by simp [hungUp])
  | finished k n loop a e hn going cause stopped calls full =>
    have unsent : sentTo c s ⟨n.owner, a⟩ = none := by cases cause <;> rfl
    by_cases here : k = s
    · subst here
      refine simulates_here h valid (falls (lt_of_getElem? hn)) hn rfl fun serves => ?_
      have running : b.life = .going := serves.going.mpr going
      have unquit : b.life ≠ .quit := by simp [running]
      cases cause with
      | unnamed all_read unnamed =>
        have read : b.posted.length ≤ b.read :=
          List.drop_eq_nil_iff.mp ((serves.unread going).symm.trans all_read)
        refine ⟨_, Mailbox.quit_next running read (serves.named.trans unnamed),
          serves_end serves calls stopped (by simp), ?_, fun _ => rfl, fun _ => rfl⟩
        rw [unsent, Option.toList_none, List.append_nil]
      | _ =>
        refine ⟨_, Mailbox.stop_next running, serves_end serves calls stopped (by simp), ?_,
          fun quit => absurd quit unquit, by simp [hungUp]⟩
        rw [unsent, Option.toList_none, List.append_nil]
    · refine simulates_rest h valid falls (elsewhere here rfl) unsent ?_
      cases cause with
      | unnamed _ _ => exact decide_eq_false fun same => here (Act.hangup.inj same)
      | _ => simp [hungUp]
  | _ => exact simulates_rest h valid falls rfl rfl (by simp [hungUp])

/-- In any run a node that was made in it is a mailbox in which everything that was sent to
the node was put, in this order, and which had a name as long as a descriptor of the node
was anywhere. -/
theorem node_mailbox {c : Setting P} {labels : List (Label P)} {w t : World P} (start : Valid w)
    (run : exec (machine c) anyStep w labels = some t) {s : Nat} (made : w.nodes.length ≤ s) :
    ∃ b, Steps (Mailbox.machine Datagram) anyStep Mailbox.fresh b ∧ Simulates c s labels t b := by
  have before : Simulates c s [] w Mailbox.fresh :=
    { valid := start
      sound := Mailbox.sound_fresh
      traced := ⟨rfl, fun hung => by cases hung⟩
      serves := Or.inl ⟨List.getElem?_eq_none_iff.mpr made, rfl⟩ }
  exact exec_simulate (R := Simulates c s)
    (fun _ _ _ _ _ related taken => simulates_move related (step_move related.valid taken))
    before run

/-- The handler of a node is called, in order, once for each message of 1 to
`maxMessageSize` bytes that the loop has taken of those sent to the node, with its bytes,
with the credentials of its sender and with the first so many of its descriptors. What the
loop has not taken is unread until the loop is over. A loop that has seen its hangup had
taken all, and there is no descriptor of its node any more. -/
theorem called_in_order {c : Setting P} {labels : List (Label P)} {w t : World P}
    (start : Valid w) (run : exec (machine c) anyStep w labels = some t) {s : Nat} {n : Node P}
    (made : w.nodes.length ≤ s) (hn : t.nodes[s]? = some n) :
    ∃ read, List.Forall₂ Passed n.loop.calls
        (((labels.filterMap (sentTo c s)).take read).filter Datagram.fits) ∧
      (n.ending = .parked → n.wire = (labels.filterMap (sentTo c s)).drop read) ∧
      (labels.any (hungUp s) = true →
        read = (labels.filterMap (sentTo c s)).length ∧ t.isNamed s = false) := by
  obtain ⟨b, _, h⟩ := node_mailbox start run made
  rcases h.serves with ⟨none, _⟩ | ⟨m, hm, serves⟩
  · simp [hn] at none
  · obtain rfl : m = n := Option.mem_unique hm hn
    rw [← h.traced.posted]
    refine ⟨b.read, serves.calls, serves.unread, fun hung => ?_⟩
    obtain ⟨all, unnamed⟩ := h.sound.quit (h.traced.quit hung)
    exact ⟨all, serves.named.symm.trans unnamed⟩

/-- The only capability is dropped while a message is unread. -/
theorem called_in_order_abandoned :
    ∃ t n,
      exec (machine plain) anyStep .empty
        [⟨0, .open⟩, ⟨0, .send 0 ⟨[1], []⟩ 0 0⟩, ⟨0, .drop 0⟩, ⟨0, .recv 0 1⟩, ⟨0, .handled 0⟩,
          ⟨0, .hangup 0⟩] = some t ∧
      t.nodes[0]? = some n ∧ List.Forall₂ Passed n.loop.calls [⟨[1], [], none⟩] ∧
      t.isNamed 0 = false := by
  let d : Datagram := ⟨[1], [], none⟩
  let w (n : Node Nat) : World Nat := ⟨[n], [], [], []⟩
  have whole : d.arriving plain.address 1 = d.fds := by decide
  obtain ⟨loop, turn, calls⟩ := turn_called (c := plain)
    (n := { Node.fresh 0 with wire := [d] }) 0 start_full rfl whole
  have opened : (machine plain).step .empty ⟨0, .open⟩ =
      some ⟨[.fresh 0], [(0, 0)], [], []⟩ := rfl
  have sent : (machine plain).step ⟨[.fresh 0], [(0, 0)], [], []⟩ ⟨0, .send 0 ⟨[1], []⟩ 0 0⟩ =
      some ⟨[{ Node.fresh 0 with wire := [d] }], [(0, 0)], [], []⟩ := rfl
  have dropped : (machine plain).step ⟨[{ Node.fresh 0 with wire := [d] }], [(0, 0)], [], []⟩
      ⟨0, .drop 0⟩ = some (w { Node.fresh 0 with wire := [d] }) := rfl
  have received := recv_step (c := plain) (w := w { Node.fresh 0 with wire := [d] })
    rfl rfl rfl turn calls
  have handled := handled_step (c := plain) (s := 0)
    (w := w { Node.fresh 0 with loop, busy := true }) rfl rfl
  have hung : (machine plain).step (w { Node.fresh 0 with loop }) ⟨0, .hangup 0⟩ =
      some (w (({ Node.fresh 0 with loop }).finish .hungUp)) := rfl
  rw [← machine_step] at received handled
  have run : exec (machine plain) anyStep .empty
      [⟨0, .open⟩, ⟨0, .send 0 ⟨[1], []⟩ 0 0⟩, ⟨0, .drop 0⟩, ⟨0, .recv 0 1⟩, ⟨0, .handled 0⟩,
        ⟨0, .hangup 0⟩] = some _ :=
    (exec_step trivial opened _).trans <| (exec_step trivial sent _).trans <|
      (exec_step trivial dropped _).trans <| (exec_step trivial received _).trans <|
      (exec_step trivial handled _).trans <| exec_step trivial hung []
  obtain ⟨read, served, _, ended⟩ := called_in_order empty_valid run (Nat.zero_le 0) rfl
  obtain ⟨rfl, unnamed⟩ := ended rfl
  exact ⟨_, _, run, rfl, served, unnamed⟩

end Network
