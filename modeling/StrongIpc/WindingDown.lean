import StrongIpc.Library.Roster
import StrongIpc.Claims

/-!
# When everybody leaves

Capabilities may be on messages to each other's nodes, in any circles. Still, if all that
happens is that what is there is received, dropped, unbound and closed, in whatever order,
it comes to an end, and at the end no loop runs.
-/

namespace Network

open Receive Roster StepMachine Wire

variable {P : Type}

/-- Nothing is made, sent or asked for, and no loop is stopped from outside. -/
def Act.leaves : Act → Bool
  | .drop _ | .unbind _ | .greet _ _ | .recv _ _ | .handled _ | .hangup _ => true
  | _ => false

/-- The guard of runs in which there is nothing new. -/
def Leaving (_ : World P) (l : Label P) : Prop := l.act.leaves = true

instance (w : World P) (l : Label P) : Decidable (Leaving w l) :=
  inferInstanceAs (Decidable (l.act.leaves = true))

structure Gone (w : World P) : Prop where
  held : w.held = []
  answered : w.welcomes = []
  shut : ∀ door, some door ∉ w.doors
  stopped : ∀ n ∈ w.nodes, n.ending ≠ .parked

/-! ## There is less and less to do -/

def unreadWork (d : Datagram) : Nat := d.fds.length + 2

def nodeWork (n : Node P) : Nat :=
  total unreadWork n.wire + (if n.busy then 1 else 0) + (if n.ending = .parked then 1 else 0)

def doorWork (k : Option (Door P)) : Nat := if k.isSome then 1 else 0

def World.work (w : World P) : Nat :=
  total nodeWork w.nodes + w.held.length + 2 * w.welcomes.length + total doorWork w.doors

theorem work_setNode {w : World P} {s : Nat} {n n' : Node P} (hn : w.nodes[s]? = some n)
    (held : List (P × Nat)) (less : nodeWork n' + held.length < nodeWork n + w.held.length) :
    { w.setNode s n' with held }.work < w.work := by
  have traded := total_set nodeWork n' hn
  simp only [World.work, World.setNode]
  omega

/-- The handler holds no more than was on the message. -/
theorem since_length {n : Node P} {address slots : Nat} {d : Datagram} {loop : Loop} {e : Ending}
    (turn : Turn n.loop address slots d (loop, e)) :
    ((n.since loop).flatMap fun call => call.fds.map fun f => (n.owner, f)).length ≤
      d.fds.length := by
  cases turn with
  | ended _ _ calls _ => simp [Node.since, calls]
  | dropped _ calls _ => simp [Node.since, calls]
  | called _ _ calls =>
    rw [Node.since, calls, List.drop_left, List.flatMap_singleton, List.length_map]
    exact List.length_take_le' _ _

theorem nodeWork_finish {n : Node P} {loop : Loop} {e : Ending} (going : n.ending = .parked)
    (stopped : e ≠ .parked) : nodeWork (({ n with loop }).finish e) < nodeWork n := by
  simp only [nodeWork, Node.finish, total_nil, stopped, going, if_true, if_false,
    Bool.false_eq_true]
  omega

variable [DecidableEq P]

theorem work_move {c : Setting P} {w t : World P} {l : Label P} (leaving : Leaving w l)
    (m : Move c w l t) : t.work < w.work := by
  cases m with
  | dropped p s held =>
    have fewer := List.length_erase_of_mem held
    have some_held := List.length_pos_of_mem held
    simp only [World.work]
    omega
  | unbound k door hk =>
    have traded := total_set doorWork none hk
    simp only [World.work, doorWork, Option.isSome_some, Option.isSome_none, if_true,
      Bool.false_eq_true, if_false] at traded ⊢
    omega
  | greeted p s i got hi =>
    have fewer := List.length_eraseIdx_of_lt (lt_of_getElem? hi)
    have some_welcome := lt_of_getElem? hi
    have held : (if got then (p, s) :: w.held else w.held).length ≤ w.held.length + 1 := by
      split <;> simp
    simp only [World.work]
    omega
  | turned s slots n d rest loop hn idle wire turn full =>
    have passed := since_length turn
    refine work_setNode hn _ ?_
    simp only [nodeWork, wire, total_cons, unreadWork, List.length_append,
      (isIdle_iff.mp idle).2, Bool.false_eq_true, if_false]
    have busy : (if (!(n.since loop).isEmpty) = true then 1 else 0) ≤ 1 := by split <;> simp
    omega
  | handled s n hn busy =>
    refine work_setNode hn _ ?_
    simp only [nodeWork, busy, if_true, Bool.false_eq_true, if_false]
    omega
  | finished s n loop a e hn going cause stopped calls full =>
    exact work_setNode hn _ (Nat.add_lt_add_right (nodeWork_finish going stopped) _)
  | _ => cases leaving

/-! ## There is always something to do -/

omit [DecidableEq P] in
/-- A loop that waits can take whatever is unread. -/
theorem recv_some (c : Setting P) (w : World P) (s slots : Nat) {n : Node P} {d : Datagram}
    {rest : List Datagram} (wire : n.wire = d :: rest) : ∃ t, w.recv c s slots n = some t := by
  simp only [World.recv, wire]
  split
  · exact ⟨_, rfl⟩
  · exact ⟨_, rfl⟩

theorem leaves_or_gone (c : Setting P) {w : World P} (hv : Valid w) :
    Gone w ∨ ∃ l t, Leaving w l ∧ step c w l = some t := by
  by_contra none
  rw [not_or] at none
  obtain ⟨remains, stuck⟩ := none
  have blocked : ∀ l t, Leaving w l → step c w l ≠ some t := by
    intro l t leaving taken
    exact stuck ⟨l, t, leaving, taken⟩
  have held : w.held = [] := by
    refine List.eq_nil_iff_forall_not_mem.mpr fun x hx => ?_
    exact blocked ⟨x.1, .drop x.2⟩ _ rfl (if_pos (List.contains_iff_mem.mpr hx))
  have answered : w.welcomes = [] := by
    cases all : w.welcomes with
    | nil => rfl
    | cons x rest =>
      refine absurd ?_ (blocked ⟨x.1, .greet 0 false⟩ { w with welcomes := rest } rfl)
      simp [step, all]
  have shut : ∀ door, some door ∉ w.doors := by
    intro door there
    obtain ⟨k, hk⟩ := List.getElem?_of_mem there
    refine blocked ⟨door.binder, .unbind k⟩ { w with doors := w.doors.set k none } rfl ?_
    simp [step, hk]
  have ready : ∀ n ∈ w.nodes, n.busy = false := by
    intro n hn
    obtain ⟨s, hs⟩ := List.getElem?_of_mem hn
    by_contra busy
    exact blocked ⟨n.owner, .handled s⟩ _ rfl (handled_step hs (by simpa using busy))
  have all_read : ∀ n ∈ w.nodes, n.wire = [] := by
    intro n hn
    obtain ⟨s, hs⟩ := List.getElem?_of_mem hn
    by_contra unread
    obtain ⟨d, rest, wire⟩ := List.exists_cons_of_ne_nil unread
    have going : n.ending = .parked := by
      by_contra stopped
      exact unread (hv.stopped n hn stopped).1
    have idle : n.isIdle = true := isIdle_iff.mpr ⟨going, ready n hn⟩
    obtain ⟨t, taken⟩ := recv_some c w s 0 wire
    refine blocked ⟨n.owner, .recv s 0⟩ t rfl ?_
    simp only [step, World.onNode, hs, idle, decide_true, Bool.and_self, if_true, taken]
  -- so nothing names any node, and a loop that runs could be told so
  have nothing : w.claims = [] := by
    refine List.eq_nil_iff_forall_not_mem.mpr fun x hx => ?_
    rcases mem_claims.mp hx with here | here | ⟨door, here, _⟩ | ⟨n, here, d, hd, _⟩
    · simp [held] at here
    · simp [answered] at here
    · exact shut door here
    · simp [all_read n here] at hd
  refine remains ⟨held, answered, shut, fun n hn going => ?_⟩
  obtain ⟨s, hs⟩ := List.getElem?_of_mem hn
  have idle : n.isIdle = true := isIdle_iff.mpr ⟨going, ready n hn⟩
  refine blocked ⟨n.owner, .hangup s⟩ (w.setNode s (n.finish .hungUp)) rfl ?_
  simp [step, World.onNode, hs, idle, all_read n hn, World.isNamed, nothing]

theorem gone_stuck {c : Setting P} {w : World P} {l : Label P} (hv : Valid w) (h : Gone w)
    (leaving : Leaving w l) : step c w l = none := by
  cases taken : step c w l with
  | none => rfl
  | some t =>
    have unheld : ∀ {x : P × Nat}, x ∉ w.held := fun here => by simp [h.held] at here
    cases step_move hv taken with
    | dropped p s held => exact absurd held unheld
    | unbound k door hk => exact absurd (List.mem_of_getElem? hk) (h.shut door)
    | greeted p s i got hi => simp [h.answered] at hi
    | turned s slots n d rest loop hn idle wire turn full =>
      exact absurd (isIdle_iff.mp idle).1 (h.stopped n (List.mem_of_getElem? hn))
    | handled s n hn busy =>
      have there := List.mem_of_getElem? hn
      rw [(hv.stopped n there (h.stopped n there)).2] at busy
      cases busy
    | finished s n loop a e hn going cause stopped calls full =>
      exact absurd going (h.stopped n (List.mem_of_getElem? hn))
    | _ => cases leaving

/-- However everybody leaves, it takes no more steps than there was work, and it can go no
further exactly where nothing is held, offered or bound and every loop is over. -/
theorem winds_down {c : Setting P} {labels : List (Label P)} {w t : World P} (start : Valid w)
    (run : exec (machine c) Leaving w labels = some t) :
    labels.length ≤ w.work ∧ ((∀ l, Leaving t l → step c t l = none) ↔ Gone t) := by
  have keep : ∀ s a t, Valid s → Leaving s a → (machine c).step s a = some t →
      Valid t ∧ World.work t < World.work s := by
    intro s a t hv leaving taken
    have m := step_move hv taken
    exact ⟨valid_move hv m, work_move leaving m⟩
  obtain ⟨valid, bound⟩ := exec_work keep run start
  refine ⟨by omega, fun stuck => ?_, fun gone l leaving => ?_⟩
  · rcases leaves_or_gone c valid with gone | ⟨l, u, leaving, taken⟩
    · exact gone
    · rw [stuck l leaving] at taken
      cases taken
  · exact gone_stuck valid gone leaving

/-- Two nodes, to neither of which there is a capability but on a message to the other. -/
def circle : World Nat :=
  ⟨[{ Node.fresh 0 with wire := [⟨[1], [1], none⟩] },
      { Node.fresh 1 with wire := [⟨[2], [0], none⟩] }], [], [], []⟩

theorem winds_down_circle :
    [Label.mk 0 (.recv 0 1)].length ≤ circle.work ∧
      ∃ t, exec (machine plain) Leaving circle [⟨0, .recv 0 1⟩] = some t ∧
        ((∀ l, Leaving t l → step plain t l = none) ↔ Gone t) := by
  have valid : Valid circle :=
    { named := by decide
      full := by
        intro n hn
        simp only [circle, List.mem_cons, List.not_mem_nil, or_false] at hn
        rcases hn with rfl | rfl <;> exact start_full
      stopped := by
        intro n hn stopped
        simp only [circle, List.mem_cons, List.not_mem_nil, or_false] at hn
        rcases hn with rfl | rfl <;> exact absurd rfl stopped }
  have whole : Datagram.arriving ⟨[1], [1], none⟩ plain.address 1 = [1] := by decide
  obtain ⟨loop, turn, calls⟩ := turn_called (c := plain)
    (n := { Node.fresh 0 with wire := [⟨[1], [1], none⟩] }) 0 start_full rfl whole
  have received := recv_step (c := plain) (w := circle) rfl rfl rfl turn calls
  rw [← machine_step] at received
  have leaving : Leaving circle ⟨0, .recv 0 1⟩ := rfl
  have run := exec_step (M := machine plain) leaving received []
  obtain ⟨bound, stuck⟩ := winds_down valid run
  exact ⟨bound, _, run, stuck⟩

end Network
