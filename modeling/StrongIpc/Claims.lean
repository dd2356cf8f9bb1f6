import StrongIpc.Library.Introductions
import StrongIpc.Network

/-!
# What one step does to the claims

A claim is a descriptor or a `Ref` that a party has or is about to get. The claims after a
step are old ones, those of a party to what it made, those handed on through a node by
somebody who had them, and the answers to a `connect`.
-/

namespace Network

open Introductions Receive RoundTrip StepMachine Wire

variable {P : Type}

/-! ## Claims -/

theorem mem_claims {w : World P} {x : P × Nat} :
    x ∈ w.claims ↔ x ∈ w.held ∨ x ∈ w.welcomes ∨
      (∃ door, some door ∈ w.doors ∧ x = (door.binder, door.ref)) ∨
      ∃ n ∈ w.nodes, ∃ d ∈ n.wire, ∃ s ∈ d.fds, x = (n.owner, s) := by
  simp only [World.claims, List.mem_append, List.mem_flatMap, List.mem_map, Option.mem_toList,
    or_assoc]
  constructor
  · rintro (held | welcome | ⟨k, hk, door, rfl, rfl⟩ | ⟨n, hn, d, hd, s, hs, rfl⟩)
    · exact Or.inl held
    · exact Or.inr (Or.inl welcome)
    · exact Or.inr (Or.inr (Or.inl ⟨door, hk, rfl⟩))
    · exact Or.inr (Or.inr (Or.inr ⟨n, hn, d, hd, s, hs, rfl⟩))
  · rintro (held | welcome | ⟨door, hk, rfl⟩ | ⟨n, hn, d, hd, s, hs, rfl⟩)
    · exact Or.inl held
    · exact Or.inr (Or.inl welcome)
    · exact Or.inr (Or.inr (Or.inl ⟨some door, hk, door, rfl, rfl⟩))
    · exact Or.inr (Or.inr (Or.inr ⟨n, hn, d, hd, s, hs, rfl⟩))

/-- The party in whose hands the node's handler is. -/
def World.home (w : World P) (s : Nat) (p : P) : Prop :=
  ∃ n, w.nodes[s]? = some n ∧ n.owner = p

def World.has (w : World P) (p : P) (s : Nat) : Prop := (p, s) ∈ w.claims

/-- `p` has, or is being sent, a capability to a node of `q`. -/
def World.knows (w : World P) : P → P → Prop := Knows w.home w.has

theorem home_unique {w : World P} {s : Nat} {p q : P} (hp : w.home s p) (hq : w.home s q) :
    p = q := by
  obtain ⟨n, hn, rfl⟩ := hp
  obtain ⟨m, hm, rfl⟩ := hq
  rw [Option.mem_unique hn hm]

/-- What holds of all claims and of all that is new holds of all claims after. -/
theorem claims_within {C : P → Nat → Prop} {w t : World P} (old : ∀ x ∈ w.claims, C x.1 x.2)
    (held : ∀ x ∈ t.held, x ∈ w.held ∨ C x.1 x.2)
    (welcomes : ∀ x ∈ t.welcomes, x ∈ w.welcomes ∨ C x.1 x.2)
    (doors : ∀ d, some d ∈ t.doors → some d ∈ w.doors ∨ C d.binder d.ref)
    (nodes : ∀ n ∈ t.nodes, n ∈ w.nodes ∨ ∀ d ∈ n.wire, ∀ f ∈ d.fds, C n.owner f) :
    ∀ x ∈ t.claims, C x.1 x.2 := by
  intro x hx
  rcases mem_claims.mp hx with here | here | ⟨d, here, rfl⟩ | ⟨n, here, d, hd, f, hf, rfl⟩
  · rcases held x here with had | new
    · exact old x (mem_claims.mpr (Or.inl had))
    · exact new
  · rcases welcomes x here with had | new
    · exact old x (mem_claims.mpr (Or.inr (Or.inl had)))
    · exact new
  · rcases doors d here with had | new
    · exact old _ (mem_claims.mpr (Or.inr (Or.inr (Or.inl ⟨d, had, rfl⟩))))
    · exact new
  · rcases nodes n here with had | new
    · exact old _ (mem_claims.mpr (Or.inr (Or.inr (Or.inr ⟨n, had, d, hd, f, hf, rfl⟩))))
    · exact new d hd f hf

/-- What is unread at a node its party is about to get. -/
theorem claims_unread {w : World P} {s f : Nat} {n : Node P} {d : Datagram}
    (hn : w.nodes[s]? = some n) (hd : d ∈ n.wire) (hf : f ∈ d.fds) : w.has n.owner f :=
  mem_claims.mpr (Or.inr (Or.inr (Or.inr ⟨n, List.mem_of_getElem? hn, d, hd, f, hf, rfl⟩)))

/-- A turn of the loop passes on none but the descriptors of the datagram. -/
theorem since_fds {n : Node P} {address slots : Nat} {d : Datagram} {loop : Loop} {e : Ending}
    (turn : Turn n.loop address slots d (loop, e)) {call : Call} (new : call ∈ n.since loop)
    {f : Nat} (hf : f ∈ call.fds) : f ∈ d.fds := by
  have same : loop.calls = n.loop.calls → n.since loop = [] := by
    intro calls
    rw [Node.since, calls, List.drop_length]
  cases turn with
  | ended _ _ calls _ => simp [same calls] at new
  | dropped _ calls _ => simp [same calls] at new
  | called _ _ calls =>
    rw [Node.since, calls, List.drop_left, List.mem_singleton] at new
    subst new
    exact List.mem_of_mem_take hf

/-! ## One step -/

/-- The step is a `connect` of `p` to a door of `q` behind which there is this capability. -/
def offers (w : World P) (l : Label P) (p q : P) (s : Nat) : Prop :=
  ∃ k, l.act = .connect k ∧ w.doors[k]? = some (some ⟨q, s⟩) ∧ p = l.who

/-- The step is a `connect` of the one to a door of the other. -/
def meets (w : World P) (l : Label P) (p q : P) : Prop := ∃ s, offers w l p q s

/-- `p` sends node `k` a message with this capability on it. -/
def hands (l : Label P) (p : P) (s k : Nat) : Prop :=
  p = l.who ∧ ∃ m stack heap, l.act = .send k m stack heap ∧ s ∈ m.fds.map asFd

variable [DecidableEq P]

omit [DecidableEq P] in
/-- What was made for a party is its own. -/
theorem claims_add {w : World P} {n : Node P} (unread : n.wire = [])
    {hands : P → Nat → Nat → Prop} {offers : P → P → Nat → Prop} :
    ∀ x ∈ (w.add n).claims,
      Spread (w.add n).home (· = w.nodes.length) hands offers w.has x.1 x.2 := by
  have mine : (w.add n).home w.nodes.length n.owner := ⟨n, List.getElem?_concat_length, rfl⟩
  refine claims_within (fun x had => .kept x.1 x.2 had) ?_ (fun _ => Or.inl) (fun _ => Or.inl) ?_
  · intro x hx
    rcases List.mem_append.mp hx with old | new
    · exact Or.inl old
    · rw [List.mem_singleton.mp new]
      exact Or.inr (.own _ _ mine rfl)
  · intro m hm
    rcases List.mem_append.mp hm with old | new
    · exact Or.inl old
    · rw [List.mem_singleton.mp new, unread]
      exact Or.inr fun d hd => by cases hd

omit [DecidableEq P] in
/-- One node is rewritten, and what is unread there was unread before or is handed on. -/
theorem claims_setNode {w : World P} {s : Nat} {n' : Node P} {C : P → Nat → Prop}
    (old : ∀ x ∈ w.claims, C x.1 x.2)
    (unread : ∀ d ∈ n'.wire, ∀ f ∈ d.fds, C n'.owner f) :
    ∀ x ∈ (w.setNode s n').claims, C x.1 x.2 := by
  refine claims_within old (fun _ => Or.inl) (fun _ => Or.inl) (fun _ => Or.inl) ?_
  intro m hm
  rcases List.mem_or_eq_of_mem_set hm with had | rfl
  · exact Or.inl had
  · exact Or.inr unread

theorem claims_move {c : Setting P} {w t : World P} {l : Label P} (m : Move c w l t) :
    ∀ x ∈ t.claims,
      Spread t.home (· = w.nodes.length) (hands l) (offers w l) w.has x.1 x.2 := by
  have kept : ∀ x ∈ w.claims,
      Spread t.home (· = w.nodes.length) (hands l) (offers w l) w.has x.1 x.2 :=
    fun x had => .kept x.1 x.2 had
  have holds : ∀ {q : P} {s : Nat}, (q, s) ∈ w.held → w.has q s :=
    fun held => mem_claims.mpr (Or.inl held)
  cases m with
  | opened q => exact claims_add rfl
  | other q => exact claims_add rfl
  | cloned q s held =>
    refine claims_within kept ?_ (fun _ => Or.inl) (fun _ => Or.inl) (fun _ => Or.inl)
    intro x hx
    rcases List.mem_cons.mp hx with rfl | old
    · exact Or.inl held
    · exact Or.inl old
  | dropped q s held =>
    exact claims_within kept (fun x hx => Or.inl (List.mem_of_mem_erase hx)) (fun _ => Or.inl)
      (fun _ => Or.inl) (fun _ => Or.inl)
  | sent q s m stack heap n hn held attached going few =>
    have there : ∀ n', n'.owner = n.owner → World.home (w.setNode s n') s n.owner :=
      fun n' same => ⟨n', List.getElem?_set_self (List.getElem?_eq_some_iff.mp hn).1, same⟩
    refine claims_setNode kept ?_
    intro d hd f hf
    rcases List.mem_append.mp hd with old | new
    · exact kept _ (claims_unread hn old hf)
    · rw [List.mem_singleton.mp new] at hf
      obtain ⟨a, ha, rfl⟩ := List.mem_map.mp hf
      exact .handed q _ _ s ⟨rfl, m, stack, heap, rfl, hf⟩ (holds (attached a ha)) (holds held)
        (there _ rfl)
  | bound q s held =>
    refine claims_within kept (fun x hx => Or.inl (List.mem_of_mem_erase hx)) (fun _ => Or.inl) ?_
      (fun _ => Or.inl)
    intro d hd
    rcases List.mem_append.mp hd with old | new
    · exact Or.inl old
    · cases List.mem_singleton.mp new
      exact Or.inr (kept _ (holds held))
  | unbound k door hk =>
    refine claims_within kept (fun _ => Or.inl) (fun _ => Or.inl) ?_ (fun _ => Or.inl)
    intro d hd
    rcases List.mem_or_eq_of_mem_set hd with old | new
    · exact Or.inl old
    · cases new
  | connected q k door hk =>
    refine claims_within kept (fun _ => Or.inl) ?_ (fun _ => Or.inl) (fun _ => Or.inl)
    intro x hx
    rcases List.mem_append.mp hx with old | new
    · exact Or.inl old
    · rw [List.mem_singleton.mp new]
      refine Or.inr (.met q door.binder door.ref ⟨k, rfl, hk, rfl⟩ ?_)
      exact mem_claims.mpr (Or.inr (Or.inr (Or.inl ⟨door, List.mem_of_getElem? hk, rfl⟩)))
  | greeted q s i got hi =>
    refine claims_within kept ?_ (fun x hx => Or.inl (List.mem_of_mem_eraseIdx hx))
      (fun _ => Or.inl) (fun _ => Or.inl)
    intro x hx
    have offered : w.has q s :=
      mem_claims.mpr (Or.inr (Or.inl (List.mem_of_getElem? hi)))
    cases got with
    | false => exact Or.inl hx
    | true =>
      rcases List.mem_cons.mp hx with rfl | old
      · exact Or.inr (kept _ offered)
      · exact Or.inl old
  | turned s slots n d rest loop hn idle wire turn full =>
    have unread : ∀ e ∈ n.wire, ∀ f ∈ e.fds, w.has n.owner f :=
      fun e he f hf => claims_unread hn he hf
    rw [wire] at unread
    refine claims_within kept ?_ (fun _ => Or.inl) (fun _ => Or.inl) ?_
    · intro x hx
      rcases List.mem_append.mp hx with old | new
      · exact Or.inl old
      · obtain ⟨call, hcall, passed⟩ := List.mem_flatMap.mp new
        obtain ⟨f, hf, rfl⟩ := List.mem_map.mp passed
        exact Or.inr (kept _ (unread d List.mem_cons_self f (since_fds turn hcall hf)))
    · intro m hm
      rcases List.mem_or_eq_of_mem_set hm with old | rfl
      · exact Or.inl old
      · exact Or.inr fun e he f hf => kept _ (unread e (List.mem_cons_of_mem d he) f hf)
  | handled s n hn busy =>
    exact claims_setNode kept fun d hd f hf => kept _ (claims_unread hn hd hf)
  | finished s n loop a e hn going cause stopped calls full =>
    exact claims_setNode kept fun d hd => by cases hd

/-! ## Any number of steps -/

/-- What a loop must not lose, and what must be gone when it is over. -/
structure Sound (n : Node P) : Prop where
  full : n.loop.buf.length = maxMessageSize
  stopped : n.ending ≠ .parked → n.wire = [] ∧ n.busy = false

/-- What a step makes of the nodes. -/
inductive Nodes (w t : World P) : Prop where
  | same (nodes : t.nodes = w.nodes)
  | added (n : Node P) (nodes : t.nodes = w.nodes ++ [n]) (sound : Sound n)
  | rewritten (s : Nat) (n n' : Node P) (hn : w.nodes[s]? = some n)
      (nodes : t.nodes = w.nodes.set s n') (owner : n'.owner = n.owner) (sound : Sound n')

omit [DecidableEq P] in
theorem isIdle_iff {n : Node P} : n.isIdle = true ↔ n.ending = .parked ∧ n.busy = false := by
  simp [Node.isIdle]

theorem nodes_move {c : Setting P} {w t : World P} {l : Label P} (hv : Valid w)
    (m : Move c w l t) : Nodes w t := by
  cases m with
  | opened q => exact .added (.fresh q) rfl ⟨start_full, fun stopped => absurd rfl stopped⟩
  | other q => exact .added (.other q) rfl ⟨start_full, fun _ => ⟨rfl, rfl⟩⟩
  | sent q s m stack heap n hn held attached going few =>
    exact .rewritten s n _ hn rfl rfl
      ⟨hv.full n (List.mem_of_getElem? hn), fun stopped => absurd going stopped⟩
  | turned s slots n d rest loop hn idle wire turn full =>
    exact .rewritten s n _ hn rfl rfl ⟨full, fun stopped => absurd (isIdle_iff.mp idle).1 stopped⟩
  | handled s n hn busy =>
    refine .rewritten s n _ hn rfl rfl ⟨hv.full n (List.mem_of_getElem? hn), fun stopped => ?_⟩
    exact ⟨(hv.stopped n (List.mem_of_getElem? hn) stopped).1, rfl⟩
  | finished s n loop a e hn going cause stopped calls full =>
    exact .rewritten s n _ hn rfl rfl ⟨full, fun _ => ⟨rfl, rfl⟩⟩
  | _ => exact .same rfl

omit [DecidableEq P] in
/-- Nodes stay where they are and with whom they are. -/
theorem home_nodes {w t : World P} (h : Nodes w t) {s : Nat} (there : s < w.nodes.length) (p : P) :
    t.home s p ↔ w.home s p := by
  cases h with
  | same nodes => rw [World.home, World.home, nodes]
  | added n nodes _ => rw [World.home, World.home, nodes, List.getElem?_append_left there]
  | rewritten k n n' hn nodes owner _ =>
    rw [World.home, World.home, nodes]
    by_cases here : k = s
    · subst here
      rw [List.getElem?_set_self there, hn]
      simp [owner]
    · rw [List.getElem?_set_ne here]

omit [DecidableEq P] in
theorem length_nodes {w t : World P} (h : Nodes w t) : w.nodes.length ≤ t.nodes.length := by
  cases h with
  | same nodes => rw [nodes]
  | added n nodes _ => simp [nodes]
  | rewritten k n n' hn nodes owner _ => simp [nodes]

omit [DecidableEq P] in
theorem sound_nodes {w t : World P} (h : Nodes w t) (hw : ∀ n ∈ w.nodes, Sound n) :
    ∀ n ∈ t.nodes, Sound n := by
  intro m hm
  cases h with
  | same nodes => exact hw m (nodes ▸ hm)
  | added n nodes sound =>
    rw [nodes] at hm
    rcases List.mem_append.mp hm with old | new
    · exact hw m old
    · rw [List.mem_singleton.mp new]
      exact sound
  | rewritten k n n' hn nodes owner sound =>
    rw [nodes] at hm
    rcases List.mem_or_eq_of_mem_set hm with old | rfl
    · exact hw m old
    · exact sound

theorem valid_move {c : Setting P} {w t : World P} {l : Label P} (hv : Valid w)
    (m : Move c w l t) : Valid t := by
  have nodes := nodes_move hv m
  have grows := length_nodes nodes
  have sound := sound_nodes nodes fun n hn => ⟨hv.full n hn, hv.stopped n hn⟩
  refine ⟨?_, fun n hn => (sound n hn).full, fun n hn => (sound n hn).stopped⟩
  intro x hx
  have old : ∀ {p : P} {s : Nat}, w.has p s → s < t.nodes.length :=
    fun had => Nat.lt_of_lt_of_le (hv.named _ had) grows
  cases claims_move m x hx with
  | kept _ _ had => exact old had
  | own _ _ mine _ =>
    obtain ⟨n, hn, _⟩ := mine
    exact (List.getElem?_eq_some_iff.mp hn).1
  | handed _ _ _ _ _ had _ _ => exact old had
  | met _ _ _ _ had => exact old had

/-- A node that nothing names is never named again. -/
theorem named_move {c : Setting P} {w t : World P} {l : Label P} (m : Move c w l t) {s : Nat}
    (old : s < w.nodes.length) (h : t.isNamed s = true) : w.isNamed s = true := by
  simp only [World.isNamed, List.any_eq_true, decide_eq_true_eq] at h ⊢
  obtain ⟨⟨p, _⟩, there, rfl⟩ := h
  obtain ⟨q, had⟩ := (claims_move m _ there).had (Nat.ne_of_lt old)
  exact ⟨_, had, rfl⟩

theorem valid_steps {c : Setting P} {guard : World P → Label P → Prop} {w t : World P}
    (hv : Valid w) (h : Steps (machine c) guard w t) : Valid t :=
  steps_invariant (P := Valid) (fun _ _ _ hw _ step => valid_move hw (step_move hw step)) h hv

end Network
