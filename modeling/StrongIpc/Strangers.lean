import StrongIpc.Claims

/-!
# Strangers never meet

There is no namespace in which capabilities are looked up: a party can only send to the
nodes that somebody handed it. So whoever comes to have a capability to a node of another
party was linked with it before, by a chain of parties each of which had one to a node of
the next or the other way round, or by somebody's `connect` to a path.
-/

namespace Network

open Introductions Receive RoundTrip StepMachine Wire

variable {P : Type}

/-- The guard of runs in which parties connect only to paths of those they are linked with. -/
def Within (E : P → P → Prop) (w : World P) (l : Label P) : Prop :=
  ∀ p q, meets w l p q → E p q

section

variable [DecidableEq P]

/-- Whatever equivalence has the acquaintances of a world and the parties that meet at paths,
it has all acquaintances that ever come of it. -/
theorem knows_within {c : Setting P} {E : P → P → Prop} (equivalence : Equivalence E)
    {w t : World P} (start : Valid w) (old : ∀ p q, w.knows p q → E p q)
    (h : Steps (machine c) (Within E) w t) {p q : P} (hk : t.knows p q) : E p q := by
  have inside : Valid t ∧ ∀ p q, t.knows p q → E p q := by
    refine steps_invariant (P := fun w => Valid w ∧ ∀ p q, w.knows p q → E p q) ?_ h ⟨start, old⟩
    rintro w l t ⟨hv, old⟩ within step
    have m := step_move hv step
    refine ⟨valid_move hv m, fun p q hk => ?_⟩
    have before : ∀ p q, Knows t.home w.has p q → E p q := by
      rintro p q ⟨s, had, there⟩
      exact old p q ⟨s, had, (home_nodes (nodes_move hv m) (hv.named _ had) q).mp there⟩
    have unique : ∀ s p q, t.home s p → t.home s q → p = q := fun _ _ _ => home_unique
    obtain ⟨s, had, there⟩ := hk
    exact knows_spread equivalence unique (fun p q s offered => within p q ⟨s, offered⟩) before
      ⟨s, claims_move m (p, s) had, there⟩
  exact inside.2 p q hk

/-- In the course of the run the one connects to a path of the other. -/
def met (c : Setting P) : World P → List (Label P) → P → P → Prop
  | _, [], _, _ => False
  | w, l :: rest, p, q => meets w l p q ∨ ∃ t, step c w l = some t ∧ met c t rest p q

theorem exec_within {c : Setting P} {E : P → P → Prop} {labels : List (Label P)} {w t : World P}
    (h : exec (machine c) anyStep w labels = some t)
    (within : ∀ p q, met c w labels p q → E p q) : Steps (machine c) (Within E) w t := by
  induction labels generalizing w with
  | nil =>
    cases h
    exact .refl
  | cons l rest ih =>
    obtain ⟨u, _, step, tail⟩ := exec_cons h
    refine .head ⟨l, fun p q now => within p q (Or.inl now), step⟩ (ih tail ?_)
    exact fun p q later => within p q (Or.inr ⟨u, step, later⟩)

/-- In any run from any world, whoever comes to have a capability to a node of another party
was linked with it before, by parties that had capabilities to each other's nodes or that
one of them connected to in the run. -/
theorem strangers_never_meet {c : Setting P} {labels : List (Label P)} {w t : World P}
    (start : Valid w) (h : exec (machine c) anyStep w labels = some t) {p q : P}
    (hk : t.knows p q) :
    Relation.EqvGen (fun p q => w.knows p q ∨ met c w labels p q) p q := by
  refine knows_within (Relation.EqvGen.is_equivalence _) start ?_ (exec_within h ?_) hk
  · exact fun p q acquainted => .rel p q (Or.inl acquainted)
  · exact fun p q meeting => .rel p q (Or.inr meeting)

end

/-- The one has bound a node of its own to a path, to which the other connects. -/
theorem strangers_never_meet_at_path :
    Relation.EqvGen (fun p q => (World.empty : World Nat).knows p q ∨ met plain .empty
      [⟨0, .open⟩, ⟨0, .bind 0⟩, ⟨1, .connect 0⟩, ⟨1, .greet 0 true⟩] p q) 1 0 := by
  have ran : exec (machine plain) anyStep .empty
      [⟨0, .open⟩, ⟨0, .bind 0⟩, ⟨1, .connect 0⟩, ⟨1, .greet 0 true⟩] =
        some ⟨[.fresh 0], [(1, 0)], [some ⟨0, 0⟩], []⟩ := rfl
  exact strangers_never_meet empty_valid ran
    ⟨0, mem_claims.mpr (Or.inl List.mem_cons_self), .fresh 0, rfl, rfl⟩

/-! ## Whoever is linked can meet -/

/-- No door is open, nothing is unread, and every node's loop waits. -/
structure AtRest (w : World P) : Prop where
  valid : Valid w
  shut : ∀ door, some door ∉ w.doors
  answered : w.welcomes = []
  waits : ∀ n ∈ w.nodes, n.wire = [] ∧ n.isIdle = true

/-- The guard of runs in which nobody connects to a path. -/
def Alone (_ : World P) (l : Label P) : Prop := ∀ k, l.act ≠ .connect k

/-- `p` holds a capability to a node of `q`. -/
def World.reaches (w : World P) (p q : P) : Prop := ∃ s, (p, s) ∈ w.held ∧ w.home s q

structure Grows (w t : World P) : Prop where
  held : ∀ x ∈ w.held, x ∈ t.held
  home : ∀ s p, w.home s p → t.home s p

theorem Grows.refl (w : World P) : Grows w w := ⟨fun _ => id, fun _ _ => id⟩

theorem Grows.trans {w t u : World P} (first : Grows w t) (next : Grows t u) : Grows w u where
  held := fun x hx => next.held x (first.held x hx)
  home := fun s p hs => next.home s p (first.home s p hs)

theorem Grows.reaches {w t : World P} (h : Grows w t) {p q : P} (hp : w.reaches p q) :
    t.reaches p q := by
  obtain ⟨s, held, there⟩ := hp
  exact ⟨s, h.held _ held, h.home s q there⟩

theorem AtRest.knows_iff {w : World P} (h : AtRest w) {p q : P} : w.knows p q ↔ w.reaches p q := by
  constructor
  · rintro ⟨s, had, there⟩
    refine ⟨s, ?_, there⟩
    rcases mem_claims.mp had with held | welcome | ⟨door, hk, _⟩ | ⟨n, hn, d, hd, _⟩
    · exact held
    · rw [h.answered] at welcome
      cases welcome
    · exact absurd hk (h.shut door)
    · rw [(h.waits n hn).1] at hd
      cases hd
  · rintro ⟨s, held, there⟩
    exact ⟨s, mem_claims.mpr (Or.inl held), there⟩

/-- A message of one byte with one descriptor. -/
def introduction (f : Nat) : Message := ⟨[0], [.owned f]⟩

variable [DecidableEq P]

theorem open_steps {c : Setting P} {w : World P} (h : AtRest w) (p : P) :
    ∃ t, Steps (machine c) Alone w t ∧ AtRest t ∧ Grows w t ∧
      (p, w.nodes.length) ∈ t.held ∧ t.home w.nodes.length p := by
  have opened : step c w ⟨p, .open⟩ = some (w.add (.fresh p)) := rfl
  have valid := valid_move h.valid (step_move h.valid opened)
  have alone : Alone w ⟨p, .open⟩ := fun k => by simp
  refine ⟨w.add (.fresh p), .single ⟨⟨p, .open⟩, alone, opened⟩, ?_, ?_, ?_, ?_⟩
  · refine ⟨valid, h.shut, h.answered, fun n hn => ?_⟩
    rcases List.mem_append.mp hn with old | new
    · exact h.waits n old
    · rw [List.mem_singleton.mp new]
      exact ⟨rfl, rfl⟩
  · refine ⟨fun x hx => List.mem_append_left _ hx, ?_⟩
    rintro s q ⟨n, hn, owner⟩
    exact ⟨n, (List.getElem?_append_left (List.getElem?_eq_some_iff.mp hn).1).trans hn, owner⟩
  · exact List.mem_append_right _ List.mem_cons_self
  · exact ⟨.fresh p, List.getElem?_concat_length, rfl⟩

/-- The message of an introduction is sent, received and handled. -/
theorem introduce_run {c : Setting P} {w : World P} (h : AtRest w) {p : P} {s f : Nat}
    {n : Node P} (hn : w.nodes[s]? = some n) (held : (p, s) ∈ w.held) (held' : (p, f) ∈ w.held) :
    ∃ loop, Steps (machine c) Alone w
      { w.setNode s { n with loop } with held := w.held ++ [(n.owner, f)] } := by
  obtain ⟨wire, idle⟩ := h.waits n (List.mem_of_getElem? hn)
  obtain ⟨going, ready⟩ := isIdle_iff.mp idle
  have inside := (List.getElem?_eq_some_iff.mp hn).1
  have one : 1 ≤ maxFds := by decide
  have whole : Datagram.arriving ⟨[0], [f], c.creds p⟩ c.address 1 = [f] :=
    arriving_eq_iff.mpr ⟨Nat.le_refl 1, Nat.le_trans one (fdRoom_ge c.address (c.creds p))⟩
  obtain ⟨loop, turn, calls⟩ := turn_called (c := c) (d := ⟨[0], [f], c.creds p⟩) s
    (h.valid.full n (List.mem_of_getElem? hn)) rfl whole
  have sent : step c w ⟨p, .send s (introduction f) 0 0⟩ =
      some (w.setNode s { n with wire := [⟨[0], [f], c.creds p⟩] }) := by
    have sent := send_step (c := c) (m := introduction f) hn going held
      (by simpa [introduction, asFd] using held') one
    rw [wire] at sent
    exact sent
  have received := recv_step (c := c)
    (w := w.setNode s { n with wire := [⟨[0], [f], c.creds p⟩] }) (List.getElem?_set_self inside)
    idle rfl turn calls
  have handled := handled_step (c := c)
    (w := { w.setNode s { n with wire := [], loop, busy := true } with
      held := w.held ++ [(n.owner, f)] }) (List.getElem?_set_self inside) rfl
  simp only [World.setNode, List.set_set] at received handled
  refine ⟨loop, .head ⟨⟨p, .send s (introduction f) 0 0⟩, fun k => by simp, sent⟩
    (.head ⟨⟨n.owner, .recv s 1⟩, fun k => by simp, received⟩
      (.single ⟨⟨n.owner, .handled s⟩, fun k => by simp, handled.trans ?_⟩))⟩
  simp only [World.setNode, wire, ready]

/-- Whoever holds a capability to a node of `q` can hand `q` whatever it holds. -/
theorem introduce_steps {c : Setting P} {w : World P} (h : AtRest w) {p q : P} {s f : Nat}
    (held : (p, s) ∈ w.held) (there : w.home s q) (held' : (p, f) ∈ w.held) :
    ∃ t, Steps (machine c) Alone w t ∧ AtRest t ∧ Grows w t ∧ (q, f) ∈ t.held := by
  obtain ⟨n, hn, rfl⟩ := there
  obtain ⟨loop, run⟩ := introduce_run (c := c) h hn held held'
  obtain ⟨wire, idle⟩ := h.waits n (List.mem_of_getElem? hn)
  refine ⟨_, run, ⟨valid_steps h.valid run, h.shut, h.answered, ?_⟩, ⟨?_, ?_⟩, ?_⟩
  · intro m hm
    rcases List.mem_or_eq_of_mem_set hm with old | rfl
    · exact h.waits m old
    · exact ⟨wire, idle⟩
  · exact fun x hx => List.mem_append_left _ hx
  · rintro k r ⟨m, hm, owner⟩
    by_cases here : s = k
    · subst here
      rw [hn] at hm
      cases hm
      exact ⟨_, List.getElem?_set_self (List.getElem?_eq_some_iff.mp hn).1, owner⟩
    · exact ⟨m, (List.getElem?_set_ne here).trans hm, owner⟩
  · exact List.mem_append_right _ List.mem_cons_self

/-- Whoever is held a capability to can be made to hold one back. -/
theorem answer_steps {c : Setting P} {w : World P} (h : AtRest w) {p q : P}
    (hp : w.reaches p q) :
    ∃ t, Steps (machine c) Alone w t ∧ AtRest t ∧ Grows w t ∧ t.reaches q p := by
  obtain ⟨s, held, there⟩ := hp
  obtain ⟨u, opened, rest, grows, mine, home⟩ := open_steps (c := c) h p
  obtain ⟨t, handed, rest', grows', theirs⟩ :=
    introduce_steps (c := c) rest (grows.held _ held) (grows.home s q there) mine
  exact ⟨t, opened.trans handed, rest', grows.trans grows',
    w.nodes.length, theirs, grows'.home _ p home⟩

/-- Two who have a chain between them can come to hold capabilities to each other's nodes. -/
theorem linked_steps {c : Setting P} {w : World P} {p q : P}
    (chain : Relation.EqvGen w.knows p q) {v : World P} (h : AtRest v) (grows : Grows w v)
    (rest : AtRest w) :
    ∃ t, Steps (machine c) Alone v t ∧ AtRest t ∧ Grows v t ∧ t.reaches p q := by
  induction chain generalizing v with
  | rel p q acquainted => exact ⟨v, .refl, h, .refl v, grows.reaches (rest.knows_iff.mp acquainted)⟩
  | refl p =>
    obtain ⟨t, opened, rest', grows', mine, home⟩ := open_steps (c := c) h p
    exact ⟨t, opened, rest', grows', _, mine, home⟩
  | symm p q _ ih =>
    obtain ⟨u, first, rest', grows', there⟩ := ih h grows
    obtain ⟨t, next, rest'', grows'', back⟩ := answer_steps (c := c) rest' there
    exact ⟨t, first.trans next, rest'', grows'.trans grows'', back⟩
  | trans p q r _ _ ih ih' =>
    obtain ⟨u, first, rest₁, grows₁, to_first⟩ := ih h grows
    obtain ⟨v', back, rest₂, grows₂, from_middle⟩ := answer_steps (c := c) rest₁ to_first
    obtain ⟨x, next, rest₃, grows₃, to_next⟩ :=
      ih' rest₂ (grows.trans (grows₁.trans grows₂))
    -- the one in the middle holds capabilities to both and hands on the one to the last
    obtain ⟨k, held, there⟩ := grows₃.reaches from_middle
    obtain ⟨s, theirs, home⟩ := to_next
    obtain ⟨t, last, rest₄, grows₄, mine⟩ := introduce_steps (c := c) rest₃ held there theirs
    exact ⟨t, ((first.trans back).trans next).trans last, rest₄,
      ((grows₁.trans grows₂).trans grows₃).trans grows₄, s, mine, grows₄.home s r home⟩

/-- As long as nobody connects to a path, one party can come to hold a capability to a node
of another exactly if there is a chain of parties between them each of which holds one to
a node of the next or the other way round. -/
theorem can_meet_iff {c : Setting P} {w : World P} (rest : AtRest w) (p q : P) :
    (∃ t, Steps (machine c) Alone w t ∧ t.reaches p q) ↔ Relation.EqvGen w.reaches p q := by
  have same : w.knows = w.reaches := by
    funext p q
    exact propext rest.knows_iff
  constructor
  · rintro ⟨t, run, s, held, there⟩
    have within : Steps (machine c) (Within (Relation.EqvGen w.reaches)) w t := by
      refine steps_mono (fun v l alone p q meeting => ?_) run
      obtain ⟨_, k, connects, _⟩ := meeting
      exact absurd connects (alone k)
    exact knows_within (Relation.EqvGen.is_equivalence _) rest.valid
      (fun p q acquainted => .rel p q (rest.knows_iff.mp acquainted)) within
      ⟨s, mem_claims.mpr (Or.inl held), there⟩
  · intro chain
    rw [← same] at chain
    obtain ⟨t, run, _, _, reached⟩ := linked_steps (c := c) chain rest (.refl w) rest
    exact ⟨t, run, reached⟩

def two : World Nat := ⟨[.fresh 0, .fresh 1], [(2, 0), (2, 1)], [], []⟩

/-- Two parties that hold nothing are brought together by a third. -/
theorem can_meet_through_third :
    ∃ t, Steps (machine plain) Alone two t ∧ t.reaches 0 1 := by
  have rest : AtRest two :=
    { valid :=
        { named := by decide
          full := by
            intro n hn
            simp only [two, List.mem_cons, List.not_mem_nil, or_false] at hn
            rcases hn with rfl | rfl <;> exact start_full
          stopped := by
            intro n hn stopped
            simp only [two, List.mem_cons, List.not_mem_nil, or_false] at hn
            rcases hn with rfl | rfl <;> exact absurd rfl stopped }
      shut := by simp [two]
      answered := rfl
      waits := by
        intro n hn
        simp only [two, List.mem_cons, List.not_mem_nil, or_false] at hn
        rcases hn with rfl | rfl <;> exact ⟨rfl, rfl⟩ }
  refine (can_meet_iff rest 0 1).mpr ?_
  have first : two.reaches 2 0 := ⟨0, by decide, .fresh 0, rfl, rfl⟩
  have second : two.reaches 2 1 := ⟨1, by decide, .fresh 1, rfl, rfl⟩
  exact .trans _ _ _ (.symm _ _ (.rel _ _ first)) (.rel _ _ second)

end Network
