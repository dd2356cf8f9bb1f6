import StrongIpc.Claims

/-!
# A capability that is kept inside

Some parties have all the descriptors of a node that there are. As long as none of them
sends one to a node outside, and nobody outside connects to a path that it is bound to,
whatever else anybody does, the handler of the node hears from none but these parties, as
the kernel's word about the sender of each message says.
-/

namespace Network

open Introductions Receive StepMachine Wire

variable {P : Type}

/-- The guard of runs in which the capability is handed to insiders only. -/
def Keeps (S : P → Prop) (s : Nat) (w : World P) (l : Label P) : Prop :=
  (∀ p k q, S p → hands l p s k → w.home k q → S q) ∧ ∀ p q, offers w l p q s → S p

def FromInside (c : Setting P) (S : P → Prop) (creds : Option UCred) : Prop :=
  ∃ p, S p ∧ creds = c.creds p

/-- What the handler was called with after these calls came from inside, as did all that is
unread. -/
structure Heard (c : Setting P) (S : P → Prop) (calls : List Call) (n : Node P) : Prop where
  unread : ∀ d ∈ n.wire, FromInside c S d.creds
  calls : ∃ new, n.loop.calls = calls ++ new ∧ ∀ call ∈ new, FromInside c S call.creds

structure Confined (c : Setting P) (S : P → Prop) (s : Nat) (calls : List Call) (w : World P) :
    Prop where
  valid : Valid w
  claims : ∀ p, w.has p s → S p
  heard : ∃ n, w.nodes[s]? = some n ∧ Heard c S calls n

variable [DecidableEq P]

/-- No claim to the capability gets outside. -/
theorem has_keeps {c : Setting P} {S : P → Prop} {s : Nat} {w t : World P} {l : Label P}
    (hv : Valid w) (m : Move c w l t) (keeps : Keeps S s w l) (made : s < w.nodes.length)
    (inside : ∀ p, w.has p s → S p) {p : P} (hp : t.has p s) : S p := by
  refine (claims_move m (p, s) hp).inside (Nat.ne_of_lt made) inside ?_ keeps.2
  intro q k r hq hand there
  obtain ⟨same, d, stack, heap, act, _⟩ := hand
  refine keeps.1 q k r hq ⟨same, d, stack, heap, act, ‹_›⟩ ?_
  -- the node that is sent to was there before
  cases m with
  | sent p' k' d' stack' heap' n hn held attached going few =>
    cases act
    exact (home_nodes (nodes_move hv (.sent p' k d stack heap n hn held attached going few))
      (List.getElem?_eq_some_iff.mp hn).1 r).mp there
  | finished k' n loop a e hn going cause stopped calls full => cases cause <;> cases act
  | _ => cases act

theorem heard_move {c : Setting P} {S : P → Prop} {s : Nat} {calls : List Call} {w t : World P}
    {l : Label P} (h : Confined c S s calls w) (m : Move c w l t) :
    ∃ n, t.nodes[s]? = some n ∧ Heard c S calls n := by
  obtain ⟨n, hn, heard⟩ := h.heard
  have made := (List.getElem?_eq_some_iff.mp hn).1
  have rewritten : ∀ {k : Nat} {x x' : Node P}, w.nodes[k]? = some x →
      (k = s → Heard c S calls x → Heard c S calls x') →
        ∃ n, (w.nodes.set k x')[s]? = some n ∧ Heard c S calls n := by
    intro k x x' hx new
    by_cases here : k = s
    · subst here
      obtain rfl : x = n := Option.mem_unique hx hn
      exact ⟨x', List.getElem?_set_self made, new rfl heard⟩
    · exact ⟨n, (List.getElem?_set_ne here).trans hn, heard⟩
  cases m with
  | opened p => exact ⟨n, (List.getElem?_append_left made).trans hn, heard⟩
  | other p => exact ⟨n, (List.getElem?_append_left made).trans hn, heard⟩
  | sent p k d stack heap x hx held attached going few =>
    refine rewritten hx fun here old => ⟨fun e he => ?_, old.calls⟩
    rcases List.mem_append.mp he with before | now
    · exact old.unread e before
    · rw [List.mem_singleton.mp now]
      subst here
      exact ⟨p, h.claims p (mem_claims.mpr (Or.inl held)), rfl⟩
  | turned k slots x d rest loop hx idle wire turn full =>
    refine rewritten hx fun _ old => ?_
    obtain ⟨new, same, inside⟩ := old.calls
    have unread : ∀ e ∈ rest, FromInside c S e.creds :=
      fun e he => old.unread e (wire ▸ List.mem_cons_of_mem d he)
    cases turn with
    | ended _ _ _ stopped => exact absurd rfl stopped
    | dropped _ kept _ => exact ⟨unread, new, kept.trans same, inside⟩
    | called _ _ more =>
      refine ⟨unread, new ++ [_], by rw [more, same, List.append_assoc], fun call hc => ?_⟩
      rcases List.mem_append.mp hc with before | now
      · exact inside call before
      · rw [List.mem_singleton.mp now]
        exact old.unread d (wire ▸ List.mem_cons_self)
  | handled k x hx busy => exact rewritten hx fun _ old => ⟨old.unread, old.calls⟩
  | finished k x loop a e hx going cause stopped kept full =>
    refine rewritten hx fun _ old => ⟨fun e he => (by cases he), ?_⟩
    obtain ⟨new, same, inside⟩ := old.calls
    exact ⟨new, kept.trans same, inside⟩
  | _ => exact ⟨n, hn, heard⟩

theorem confined_step {c : Setting P} {S : P → Prop} {s : Nat} {calls : List Call}
    {w t : World P} {l : Label P} (h : Confined c S s calls w) (keeps : Keeps S s w l)
    (taken : (machine c).step w l = some t) : Confined c S s calls t := by
  have m := step_move h.valid taken
  obtain ⟨n, hn, _⟩ := h.heard
  have made := (List.getElem?_eq_some_iff.mp hn).1
  exact ⟨valid_move h.valid m, fun p => has_keeps h.valid m keeps made h.claims, heard_move h m⟩

/-- Where some parties have all the descriptors of a node, of which nothing is unread, and
hand them to no others, they are the only ones that ever have any, and every new call of
the handler is with the credentials of one of them. -/
theorem confined {c : Setting P} {S : P → Prop} {s : Nat} {w t : World P} {n : Node P}
    (start : Valid w) (hn : w.nodes[s]? = some n) (read : n.wire = [])
    (inside : ∀ p, w.has p s → S p) (run : Steps (machine c) (Keeps S s) w t) :
    (∀ p, t.has p s → S p) ∧ ∃ n' new, t.nodes[s]? = some n' ∧
      n'.loop.calls = n.loop.calls ++ new ∧
      ∀ call ∈ new, ∃ p, S p ∧ call.creds = c.creds p := by
  have before : Confined c S s n.loop.calls w :=
    { valid := start
      claims := inside
      heard := ⟨n, hn, by simp [read], [], by simp, by simp⟩ }
  have after := steps_invariant (P := Confined c S s n.loop.calls)
    (fun _ _ _ h keeps taken => confined_step h keeps taken) run before
  obtain ⟨n', hn', heard⟩ := after.heard
  obtain ⟨new, same, all⟩ := heard.calls
  exact ⟨after.claims, n', new, hn', same, all⟩

/-- The kernel tells the parties apart. -/
def stamped : Setting Nat := { plain with creds := fun p => some ⟨p, p, p⟩ }

/-- The only other party with a capability sends a message. -/
theorem confined_heard :
    ∃ t n new, Steps (machine stamped) (Keeps (· = 1) 0) ⟨[.fresh 0], [(1, 0)], [], []⟩ t ∧
      t.nodes[0]? = some n ∧ n.loop.calls = new ∧ new ≠ [] ∧
      ∀ call ∈ new, ∃ p, p = 1 ∧ call.creds = stamped.creds p := by
  let d : Datagram := ⟨[1], [], some ⟨1, 1, 1⟩⟩
  have valid : Valid (⟨[.fresh 0], [(1, 0)], [], []⟩ : World Nat) :=
    { named := by decide
      full := by
        intro n hn
        rw [List.mem_singleton.mp hn]
        exact start_full
      stopped := by
        intro n hn stopped
        rw [List.mem_singleton.mp hn] at stopped
        exact absurd rfl stopped }
  have inside : ∀ p, World.has (⟨[.fresh 0], [(1, 0)], [], []⟩ : World Nat) p 0 → p = 1 := by
    intro p hp
    simpa [World.has, World.claims, Node.fresh] using hp
  have keeps : ∀ {w : World Nat} {l : Label Nat}, l.act = .send 0 ⟨[1], []⟩ 0 0 ∨
      l.act = .recv 0 1 → Keeps (· = 1) 0 w l := by
    intro w l act
    constructor
    · rintro p k q _ ⟨_, m, stack, heap, same, on⟩
      rcases act with now | now
      · rw [now] at same
        cases same
        cases on
      · rw [now] at same
        cases same
    · rintro p q ⟨k, same, _⟩
      rcases act with now | now <;> rw [now] at same <;> cases same
  have whole : d.arriving stamped.address 1 = d.fds := by decide
  obtain ⟨loop, turn, calls⟩ := turn_called (c := stamped)
    (n := { Node.fresh 0 with wire := [d] }) 0 start_full rfl whole
  have sent : (machine stamped).step ⟨[.fresh 0], [(1, 0)], [], []⟩ ⟨1, .send 0 ⟨[1], []⟩ 0 0⟩ =
      some ⟨[{ Node.fresh 0 with wire := [d] }], [(1, 0)], [], []⟩ := rfl
  have received := recv_step (c := stamped)
    (w := ⟨[{ Node.fresh 0 with wire := [d] }], [(1, 0)], [], []⟩) rfl rfl rfl turn calls
  rw [← machine_step] at received
  have run : Steps (machine stamped) (Keeps (· = 1) 0) ⟨[.fresh 0], [(1, 0)], [], []⟩ _ :=
    .head ⟨_, keeps (Or.inl rfl), sent⟩ (.single ⟨_, keeps (Or.inr rfl), received⟩)
  obtain ⟨_, n, new, hn, same, all⟩ := confined valid rfl rfl inside run
  obtain rfl := Option.some.inj hn
  have one : new = [⟨d.payload, d.fds, d.creds⟩] := same.symm.trans calls
  exact ⟨_, _, new, run, hn, same, by simp [one], all⟩

end Network
