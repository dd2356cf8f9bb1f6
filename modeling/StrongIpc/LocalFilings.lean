import StrongIpc.LocalLookups

/-!
# That a live node is found

A `LocalEntry` recognises what it filed by the handler's address. Two nodes that
share a handler, the first still ending when the second is given its socket's
identity, file the same identity and address, and the first takes the second's
entry out. As long as no node is filed while an equal `LocalEntry` is still to be
dropped, an entry is removed by the node that filed it and by no other.
-/

namespace LocalHandlers

open Registry Roster StepMachine

/-- No node is filed under the identity and the handler address of another whose
entry is still to be dropped. -/
def filesAfresh (s : World) : Act → Bool
  | .build n =>
    match s.nodes[n]? with
    | some ⟨k, w, .filing _⟩ => s.nodes.all fun q => q.stage.entry.all fun e =>
        s.reg.idOf k != some e.id || s.addressOf w != some e.filed
    | _ => true
  | _ => true

def FilesAfresh (s : World) (a : Act) : Prop := filesAfresh s a = true

instance (s : World) (a : Act) : Decidable (FilesAfresh s a) :=
  inferInstanceAs (Decidable (_ = _))

theorem filesAfresh_other {s : World} {n m : Nat} {p q : Node} {i : Nat} {e : LocalEntry}
    (ok : FilesAfresh s (.build n)) (hp : s.nodes[n]? = some p) (hs : p.stage = .filing i)
    (hq : s.nodes[m]? = some q) (he : q.stage.entry = some e)
    (hid : s.reg.idOf p.socket = some e.id) : s.addressOf p.handler ≠ some e.filed := by
  obtain ⟨k, w, stage⟩ := p
  obtain rfl : stage = .filing i := hs
  intro same
  have all : ∀ q ∈ s.nodes, (q.stage.entry.all fun e =>
      s.reg.idOf k != some e.id || s.addressOf w != some e.filed) = true := by
    simpa [FilesAfresh, filesAfresh, hp] using ok
  have here := all q (List.mem_of_getElem? hq)
  have hid : s.reg.idOf k = some e.id := hid
  have same : s.addressOf w = some e.filed := same
  simp [he, hid, same] at here

theorem addressOf_kept {s s' : World} {a : Act} (m : Move s a s') {w address : Nat}
    (h : s.addressOf w = some address) : s'.addressOf w = some address := by
  obtain ⟨k, hk, rfl⟩ := Option.map_eq_some_iff.mp h
  obtain ⟨k', hk', same, _⟩ := handlers_kept m hk
  exact Option.map_eq_some_iff.mpr ⟨k', hk', same⟩

theorem idOf_kept {s s' : World} {a : Act} (m : Move s a s') {k : Nat} {id : SocketId}
    (h : s.reg.idOf k = some id) : s'.reg.idOf k = some id := by
  rcases reg_move m with same | ⟨x, hm⟩
  · rw [same]
    exact h
  · exact idOf_move hm h

/-- The identity under which a node is filed is its sending end's. -/
theorem Tended.filing_id {s : World} (h : Tended s) {n : Nat} {p : Node} {i : Nat} {y : Handle}
    {x : RefInner} (hp : s.nodes[n]? = some p) (hs : p.stage = .filing i)
    (hy : s.reg.handles[i]? = some y) (hx : s.reg.inners[y.inner]? = some x) :
    s.reg.idOf p.socket = some x.id ∧ s.reg.isNamed p.socket = true := by
  obtain ⟨y', hy', held, mine⟩ := (h.tracked n p hp).2 i hs
  obtain rfl : y = y' := Option.mem_unique hy hy'
  obtain ⟨x', hx', _, aim, _⟩ := h.registry.held i y hy held
  obtain rfl : x = x' := Option.mem_unique hx hx'
  refine ⟨?_, mine ▸ h.registry.held_named hy held⟩
  rw [← mine, ← aim]
  exact h.registry.inner_id y.inner x hx

/-- A `LocalEntry` after a step was there before, or the step filed it. -/
theorem entry_move {s s' : World} {a : Act} (m : Move s a s') {n : Nat} {p : Node} {e : LocalEntry}
    (hp : s'.nodes[n]? = some p) (he : p.stage.entry = some e) :
    (∃ q, s.nodes[n]? = some q ∧ q.stage.entry = some e ∧ q.socket = p.socket ∧
      q.handler = p.handler ∧ (p.stage = .running e → q.stage = .running e)) ∨
      ∃ (q : Node) (i : Nat) (y : Handle) (x : RefInner), a = .build n ∧ s.nodes[n]? = some q ∧
        q.stage = .filing i ∧ s.reg.handles[i]? = some y ∧ s.reg.inners[y.inner]? = some x ∧
        s.addressOf q.handler = some e.filed ∧ e.id = x.id ∧ q.socket = p.socket ∧
        q.handler = p.handler ∧ s'.locals.lookup e.id = some ⟨p.handler, n⟩ := by
  have old : s.nodes[n]? = some p → ∃ q, s.nodes[n]? = some q ∧ q.stage.entry = some e ∧
      q.socket = p.socket ∧ q.handler = p.handler ∧
        (p.stage = .running e → q.stage = .running e) :=
    fun hp => ⟨p, hp, he, rfl, rfl, id⟩
  cases m with
  | newRaw w id k reg hk used hm =>
    rcases getElem?_push_cases hp with ⟨_, rfl⟩ | hp
    · cases he
    · exact Or.inl (old hp)
  | enter j q reg hq hs hm =>
    rcases getElem?_set_cases hp with ⟨_, rfl⟩ | ⟨_, hp⟩
    · cases he
    · exact Or.inl (old hp)
  | make j q i q' reg hq hs hi hm =>
    rcases getElem?_set_cases hp with ⟨_, rfl⟩ | ⟨_, hp⟩
    · cases hst : q'.stage <;> simp [World.made, hst, NodeStage.entry] at he
    · exact Or.inl (old hp)
  | file j q i y x address hq hs hy hx ha =>
    rcases getElem?_set_cases hp with ⟨rfl, rfl⟩ | ⟨_, hp⟩
    · obtain rfl : ⟨x.id, address⟩ = e := Option.some.inj he
      refine Or.inr ⟨q, i, y, x, rfl, hq, hs, hy, hx, ha, rfl, rfl, rfl, ?_⟩
      simp [World.file, World.setNode]
    · exact Or.inl (old hp)
  | endLoop j q f hq hs =>
    rcases getElem?_set_cases hp with ⟨rfl, rfl⟩ | ⟨_, hp⟩
    · obtain rfl : f = e := Option.some.inj he
      exact Or.inl ⟨q, hq, by rw [hs]; rfl, rfl, rfl, fun h => by cases h⟩
    · exact Or.inl (old hp)
  | dropEntry j q f hq hs =>
    rcases getElem?_set_cases hp with ⟨_, rfl⟩ | ⟨_, hp⟩
    · cases he
    · exact Or.inl (old hp)
  | _ => exact Or.inl (old hp)

/-- Each `LocalEntry` names its node's socket and handler, no two are equal, and
that of a node still running with its socket open is the one in the map. -/
structure Filed (s : World) : Prop where
  named : ∀ (n : Nat) p e, s.nodes[n]? = some p → p.stage.entry = some e →
    s.reg.idOf p.socket = some e.id ∧ s.addressOf p.handler = some e.filed
  unequal : ∀ (m n : Nat) p q e, s.nodes[m]? = some p → s.nodes[n]? = some q →
    p.stage.entry = some e → q.stage.entry = some e → m = n
  present : ∀ (n : Nat) p e, s.nodes[n]? = some p → p.stage = .running e →
    s.reg.isNamed p.socket = true → s.locals.lookup e.id = some ⟨p.handler, n⟩
  owned : ∀ id x, s.locals.lookup id = some x → ∃ p e, s.nodes[x.filer]? = some p ∧
    p.stage.entry = some e ∧ e.id = id ∧ p.handler = x.handler

theorem named_step {s s' : World} {a : Act} (ht : Tended s) (h : Filed s) (m : Move s a s') :
    ∀ (n : Nat) p e, s'.nodes[n]? = some p → p.stage.entry = some e →
      s'.reg.idOf p.socket = some e.id ∧ s'.addressOf p.handler = some e.filed := by
  intro n p e hp he
  rcases entry_move m hp he with ⟨q, hq, hqe, socket, handler, _⟩ |
    ⟨q, i, y, x, _, hq, hs, hy, hx, ha, hid, socket, handler, _⟩
  · obtain ⟨hid, ha⟩ := h.named n q e hq hqe
    exact ⟨idOf_kept m (socket ▸ hid), addressOf_kept m (handler ▸ ha)⟩
  · have here := (ht.filing_id hq hs hy hx).1
    exact ⟨idOf_kept m (socket ▸ hid ▸ here), addressOf_kept m (handler ▸ ha)⟩

theorem unequal_step {s s' : World} {a : Act} (ht : Tended s) (h : Filed s) (m : Move s a s')
    (ok : FilesAfresh s a) : ∀ (i j : Nat) p q e, s'.nodes[i]? = some p → s'.nodes[j]? = some q →
      p.stage.entry = some e → q.stage.entry = some e → i = j := by
  intro i j p q e hp hq hpe hqe
  rcases entry_move m hp hpe with ⟨p₀, hp₀, hpe₀, _⟩ |
    ⟨p₀, k, y, x, here, hp₀, hs, hy, hx, ha, hid, _⟩
  · rcases entry_move m hq hqe with ⟨q₀, hq₀, hqe₀, _⟩ |
      ⟨q₀, k, y, x, here, hq₀, hs, hy, hx, ha, hid, _⟩
    · exact h.unequal i j p₀ q₀ e hp₀ hq₀ hpe₀ hqe₀
    · have mine := (ht.filing_id hq₀ hs hy hx).1
      exact absurd ha (filesAfresh_other (here ▸ ok) hq₀ hs hp₀ hpe₀ (hid ▸ mine))
  · rcases entry_move m hq hqe with ⟨q₀, hq₀, hqe₀, _⟩ |
      ⟨q₀, k', y', x', here', _, _, _, _, _, _, _⟩
    · have mine := (ht.filing_id hp₀ hs hy hx).1
      exact absurd ha (filesAfresh_other (here ▸ ok) hp₀ hs hq₀ hqe₀ (hid ▸ mine))
    · exact Act.build.inj (here.symm.trans here')

theorem open_back {s s' : World} {a : Act} (m : Move s a s') {k : Nat}
    (old : k < s.reg.sockets.length) (h : s'.reg.isNamed k = true) : s.reg.isNamed k = true := by
  rcases reg_move m with same | ⟨x, hm⟩
  · exact same ▸ h
  · exact (named_move hm h).resolve_right (by omega)

theorem unfile_spared {s : World} {e : LocalEntry} {id : SocketId} {x : Filing}
    (h : s.locals.lookup id = some x)
    (spared : id = e.id → s.addressOf x.handler ≠ some e.filed) :
    (s.unfile e).lookup id = some x := by
  rw [World.unfile]
  split
  · exact h
  · rename_i z filed
    split
    · rename_i mine
      have other : id ≠ e.id := by
        rintro rfl
        obtain rfl : z = x := Option.mem_unique filed h
        exact spared rfl mine
      rw [AList.lookup_erase_ne other]
      exact h
    · exact h

theorem present_step {s s' : World} {a : Act} (ht : Tended s) (h : Filed s) (m : Move s a s') :
    ∀ (n : Nat) p e, s'.nodes[n]? = some p → p.stage = .running e →
      s'.reg.isNamed p.socket = true → s'.locals.lookup e.id = some ⟨p.handler, n⟩ := by
  intro n p e hp hs named
  rcases entry_move m hp (show p.stage.entry = some e by rw [hs]; rfl) with
    ⟨q, hq, hqe, socket, handler, run⟩ | ⟨q, i, y, x, _, _, _, _, _, _, _, _, _, filed⟩
  · have hq_run := run hs
    have opened : s.reg.isNamed q.socket = true :=
      open_back m (ht.placed n q hq) (socket ▸ named)
    have before := h.present n q e hq hq_run opened
    rw [← handler]
    obtain ⟨hid, ha⟩ := h.named n q e hq hqe
    cases m with
    | file j r i y x address hr hrs hy hx hra =>
      -- filed under another identity, since this node's socket is still open
      have other : e.id ≠ x.id := by
        intro same
        obtain ⟨rid, rnamed⟩ := ht.filing_id hr hrs hy hx
        have both := ht.registry.distinct q.socket r.socket x.id (same ▸ hid) rid opened rnamed
        obtain rfl := ht.apart n j q r hq hr both
        obtain rfl : q = r := Option.mem_unique hq hr
        rw [hq_run] at hrs
        cases hrs
      exact (AList.lookup_insert_ne other).trans before
    | dropEntry j r f hr hrs =>
      apply unfile_spared before
      intro same mine
      have equal : f = e := by
        obtain ⟨id, filed⟩ := f
        obtain ⟨id', filed'⟩ := e
        obtain rfl : id' = id := same
        obtain rfl : filed' = filed := Option.mem_unique ha mine
        rfl
      obtain rfl := h.unequal j n r q e hr hq (by rw [hrs, equal]; rfl) hqe
      obtain rfl : q = r := Option.mem_unique hq hr
      rw [hq_run] at hrs
      cases hrs
    | _ => exact before
  · exact filed

theorem owned_step {s s' : World} {a : Act} (h : Filed s) (m : Move s a s') :
    ∀ id x, s'.locals.lookup id = some x → ∃ p e, s'.nodes[x.filer]? = some p ∧
      p.stage.entry = some e ∧ e.id = id ∧ p.handler = x.handler := by
  intro id x filed
  have restaged : ∀ {n : Nat} {q : Node} (stage : NodeStage), s.nodes[n]? = some q →
      (∀ e, q.stage.entry = some e → s.locals.lookup id = some x → n = x.filer →
        stage.entry = some e) → s.locals.lookup id = some x →
      ∃ p e, (s.nodes.set n { q with stage })[x.filer]? = some p ∧ p.stage.entry = some e ∧
        e.id = id ∧ p.handler = x.handler := by
    intro n q stage hq keeps filed
    obtain ⟨p, e, hp, he, hid, handler⟩ := h.owned id x filed
    by_cases same : n = x.filer
    · subst same
      obtain rfl : q = p := Option.mem_unique hq hp
      exact ⟨_, e, List.getElem?_set_self (lt_of_getElem? hq), keeps e he filed rfl, hid, handler⟩
    · exact ⟨p, e, (List.getElem?_set_ne same).trans hp, he, hid, handler⟩
  cases m with
  | newRaw w id' k reg hk used hm =>
    obtain ⟨p, e, hp, rest⟩ := h.owned id x filed
    exact ⟨p, e, (List.getElem?_append_left (lt_of_getElem? hp)).trans hp, rest⟩
  | enter j q reg hq hs hm =>
    exact restaged _ hq (fun e he => by simp [hs, NodeStage.entry] at he) filed
  | make j q i q' reg hq hs hi hm =>
    exact restaged _ hq (fun e he => by simp [hs, NodeStage.entry] at he) filed
  | file j q i y z address hq hs hy hz ha =>
    by_cases same : id = z.id
    · subst same
      obtain rfl : (⟨q.handler, j⟩ : Filing) = x := by
        simpa [World.file, World.setNode] using filed
      exact ⟨_, ⟨z.id, address⟩, List.getElem?_set_self (lt_of_getElem? hq), rfl, rfl, rfl⟩
    · apply restaged _ hq (fun e he => by simp [hs, NodeStage.entry] at he)
      exact (AList.lookup_insert_ne same).symm.trans filed
  | endLoop j q f hq hs =>
    exact restaged _ hq (fun e he _ _ => by simpa [hs, NodeStage.entry] using he) filed
  | dropEntry j q f hq hs =>
    refine restaged _ hq (fun e he before same => ?_) (lookup_unfile filed)
    -- the entry that this node filed is gone with its `LocalEntry`
    exfalso
    obtain ⟨p, e', hp, he', hid, handler⟩ := h.owned id x before
    obtain rfl : q = p := Option.some.inj (hq.symm.trans (same ▸ hp))
    obtain rfl : f = e' := by simpa [hs, NodeStage.entry] using he'
    have mine := (h.named j q f hq (by rw [hs]; rfl)).2
    have filed : (s.unfile f).lookup id = some x := filed
    rw [World.unfile, hid, before] at filed
    simp [← handler, mine] at filed
  | _ => exact h.owned id x filed

theorem filed {s : World} (h : Reachable machine FilesAfresh s) : Filed s := by
  refine reachable_invariant_with (Q := Tended) (fun _ => tended) ?_ ?_ h
  · rintro s rfl
    exact ⟨by simp [empty], by simp [empty], by simp [empty], by simp [empty]⟩
  · intro s a s' ht hf ok hstep
    have m := step_move hstep
    exact ⟨named_step ht hf m, unequal_step ht hf m ok, present_step ht hf m, owned_step hf m⟩

/-- A lookup was made on a capability that had been handed out. -/
def Public (s : World) : Prop :=
  ∀ (j : Nat) l, s.lookups[j]? = some l → ∃ y, s.reg.handles[l.handle]? = some y ∧
    y.socket < s.reg.sockets.length ∧ s.isPrivate y.socket = false

theorem idOf_inside {s : State} {k : Nat} {id : SocketId} (h : s.idOf k = some id) :
    k < s.sockets.length := by
  obtain ⟨x, hx, _⟩ := Option.map_eq_some_iff.mp h
  exact lt_of_getElem? hx

/-- A lookup after a step was there before, on the same capability, or is new. -/
theorem lookup_back {s s' : World} {a : Act} (m : Move s a s') {j : Nat} {l : Lookup}
    (hl : s'.lookups[j]? = some l) :
    (∃ l₀, s.lookups[j]? = some l₀ ∧ l₀.handle = l.handle ∧ l₀.type = l.type) ∨
      ∃ (y : Handle) (x : RefInner), s.reg.handles[l.handle]? = some y ∧
        s.reg.inners[y.inner]? = some x ∧ y.held = true ∧ s.isPrivate y.socket = false ∧
        l.stage = s.get x.id ∧ s'.reg = s.reg ∧ s'.nodes = s.nodes ∧
        s'.handlers = s.handlers := by
  cases m with
  | get h type y x hy hx held out =>
    rcases getElem?_push_cases hl with ⟨_, rfl⟩ | old
    · exact Or.inr ⟨y, x, hy, hx, held, out, rfl, rfl, rfl, rfl⟩
    · exact Or.inl ⟨l, old, rfl, rfl⟩
  | found i k v q hk hs hq strong typed =>
    rcases getElem?_set_cases hl with ⟨rfl, rfl⟩ | ⟨_, old⟩
    · exact Or.inl ⟨k, hk, rfl, rfl⟩
    · exact Or.inl ⟨l, old, rfl, rfl⟩
  | missed i k v q hk hs hq why =>
    rcases getElem?_set_cases hl with ⟨rfl, rfl⟩ | ⟨_, old⟩
    · exact Or.inl ⟨k, hk, rfl, rfl⟩
    · exact Or.inl ⟨l, old, rfl, rfl⟩
  | _ => exact Or.inl ⟨l, hl, rfl, rfl⟩

theorem public_step {s s' : World} {a : Act} (ht : Tended s) (h : Public s) (m : Move s a s') :
    Public s' := by
  intro j l hl
  have kept : ∀ {y : Handle}, s.reg.handles[l.handle]? = some y →
      y.socket < s.reg.sockets.length → s.isPrivate y.socket = false →
      ∃ y, s'.reg.handles[l.handle]? = some y ∧ y.socket < s'.reg.sockets.length ∧
        s'.isPrivate y.socket = false := by
    intro y hy inside out
    obtain ⟨y', hy', _, socket, _⟩ := handle_kept m hy
    refine ⟨y', hy', socket ▸ Nat.lt_of_lt_of_le inside (sockets_grow m), ?_⟩
    apply Bool.eq_false_iff.mpr
    intro still
    obtain ⟨p, hp, here, unready⟩ := isPrivate_iff.mp still
    obtain ⟨n, hn⟩ := List.getElem?_of_mem hp
    rcases private_back m hn unready with ⟨q, hq, same, unready⟩ | new
    · refine absurd (isPrivate_iff.mpr ⟨q, List.mem_of_getElem? hq, ?_, unready⟩)
        (Bool.eq_false_iff.mp out)
      exact same.trans (here.trans socket)
    · omega
  rcases lookup_back m hl with ⟨l₀, hl₀, same, _⟩ | ⟨y, x, hy, hx, held, out, _⟩
  · obtain ⟨y, hy, inside, out⟩ := h j l₀ hl₀
    exact kept (same ▸ hy) inside out
  · obtain ⟨z, hz, aim⟩ := ht.registry.aimed l.handle y hy
    exact kept hy (aim ▸ idOf_inside (ht.registry.inner_id y.inner z hz)) out

/-- What a lookup through a capability to node `p` has come to, as long as the
node's loop has not ended: the handler in hand, or what the type asked for allows. -/
def Found (s : World) (l : Lookup) (w : Nat) : Prop :=
  (∀ v, l.stage = .cloned v → v = w) ∧
    ∀ r, l.stage = .returned r → (s.handlers[w]?).map Handler.type = some l.type → r = some w

def AllFound (s : World) : Prop :=
  ∀ (j : Nat) l y (n : Nat) (p : Node) e, s.lookups[j]? = some l →
    s.reg.handles[l.handle]? = some y → s.nodes[n]? = some p → p.stage = .running e →
      p.socket = y.socket → Found s l p.handler

theorem typeOf_kept {s s' : World} {a : Act} (m : Move s a s') {w type : Nat}
    (known : w < s.handlers.length) (h : (s'.handlers[w]?).map Handler.type = some type) :
    (s.handlers[w]?).map Handler.type = some type := by
  obtain ⟨k, hk⟩ : ∃ k, s.handlers[w]? = some k := ⟨_, List.getElem?_eq_getElem known⟩
  obtain ⟨k', hk', _, same⟩ := handlers_kept m hk
  rw [hk'] at h
  rw [hk, Option.map_some, ← same]
  exact h

theorem strong_of_running {s : World} {n : Nat} {p : Node} {e : LocalEntry}
    (hp : s.nodes[n]? = some p) (hs : p.stage = .running e) : s.isStrong p.handler = true :=
  isStrong_iff.mpr (Or.inr ⟨p, List.mem_of_getElem? hp, rfl, by rw [hs]; rfl⟩)

/-- What the map has for a capability that reaches a running node. -/
theorem get_running {s : World} (ht : Tended s) (hf : Filed s) {n i : Nat} {p : Node}
    {e : LocalEntry} {y : Handle} {x : RefInner} (hp : s.nodes[n]? = some p)
    (hs : p.stage = .running e) (hy : s.reg.handles[i]? = some y) (held : y.held = true)
    (here : p.socket = y.socket) (hx : s.reg.inners[y.inner]? = some x) :
    s.get x.id = .cloned p.handler := by
  obtain ⟨x', hx', _, aim, _⟩ := ht.registry.held i y hy held
  obtain rfl : x = x' := Option.mem_unique hx hx'
  have hid := (hf.named n p e hp (by rw [hs]; rfl)).1
  have same : e.id = x.id := by
    have mine := ht.registry.inner_id y.inner x hx
    rw [aim, ← here, hid] at mine
    exact Option.some.inj mine
  have open_here : s.reg.isNamed p.socket = true := here ▸ ht.registry.held_named hy held
  rw [World.get, ← same, hf.present n p e hp hs open_here]

theorem found_step {s s' : World} {a : Act} (ht : Tended s) (hk : Known s) (hf : Filed s)
    (hpub : Public s) (h : AllFound s) (m : Move s a s') : AllFound s' := by
  intro j l y' n p e hl hy' hp hs here'
  rcases entry_move m hp (show p.stage.entry = some e by rw [hs]; rfl) with
    ⟨q, hq, _, socket, handler, run⟩ | ⟨q, i, yq, xq, rfl, hq, hqs, _, _, _, _, socket, _, _⟩
  · -- the node was running: look at what the lookup does
    have hq_run := run hs
    rw [← handler]
    rcases lookup_back m hl with ⟨l₀, hl₀, same, same_type⟩ |
      ⟨y, x, hy, hx, held, _, hget, hreg, _, _⟩
    · obtain ⟨y, hy, _, _⟩ := hpub j l₀ hl₀
      obtain ⟨y₁, hy₁, _, aim, _⟩ := handle_kept m hy
      obtain rfl : y₁ = y' := Option.some.inj (hy₁.symm.trans (same ▸ hy'))
      have before := h j l₀ y n q e hl₀ hy hq hq_run (socket.trans (here'.trans aim))
      have unmoved : s'.lookups = s.lookups → Found s' l q.handler := by
        intro hlookups
        rw [hlookups] at hl
        obtain rfl : l₀ = l := Option.mem_unique hl₀ hl
        exact ⟨before.1, fun r hr typed =>
          before.2 r hr (typeOf_kept m (hk.built n q hq) typed)⟩
      cases m with
      | get i type z x hz hx held out =>
        rcases getElem?_push_cases hl with ⟨last, _⟩ | old
        · exact absurd (lt_of_getElem? hl₀) (by omega)
        · obtain rfl : l₀ = l := Option.mem_unique hl₀ old
          exact before
      | found i l₁ v k hl₁ hst hk₁ strong typed =>
        rcases getElem?_set_cases hl with ⟨rfl, rfl⟩ | ⟨_, old⟩
        · obtain rfl : l₁ = l₀ := Option.mem_unique hl₁ hl₀
          constructor
          · simp
          · intro r hr _
            obtain rfl : some v = r := LookupStage.returned.inj hr
            exact congrArg some (before.1 v hst)
        · obtain rfl : l₀ = l := Option.mem_unique hl₀ old
          refine ⟨before.1, fun r hr typed' => before.2 r hr ?_⟩
          exact typeOf_kept (.found i l₁ v k hl₁ hst hk₁ strong typed) (hk.built n q hq) typed'
      | missed i l₁ v k hl₁ hst hk₁ why =>
        rcases getElem?_set_cases hl with ⟨rfl, rfl⟩ | ⟨_, old⟩
        · -- the upgrade succeeds on a running node, so another type was asked for
          obtain rfl : l₁ = l₀ := Option.mem_unique hl₁ hl₀
          constructor
          · simp
          · intro r _ typed
            obtain rfl := before.1 v hst
            have differ := why (strong_of_running hq hq_run)
            have typed : (s.handlers[q.handler]?).map Handler.type = some l₁.type := typed
            rw [hk₁] at typed
            exact absurd (Option.some.inj typed) differ
        · obtain rfl : l₀ = l := Option.mem_unique hl₀ old
          exact before
      | _ => exact unmoved rfl
    · obtain rfl : y = y' := Option.some.inj (hy.symm.trans (hreg ▸ hy'))
      have found := get_running ht hf hq hq_run hy held (socket.trans here') hx
      constructor
      · intro v hv
        rw [hget, found] at hv
        exact (LookupStage.cloned.inj hv).symm
      · intro r hr
        rw [hget, found] at hr
        cases hr
  · -- the node has only now been filed, and nobody had its capability before
    exfalso
    have unready : s.isPrivate q.socket = true :=
      isPrivate_iff.mpr ⟨q, List.mem_of_getElem? hq, rfl, by rw [hqs]; rfl⟩
    have out : ∃ y, s.reg.handles[l.handle]? = some y ∧ s.isPrivate y.socket = false := by
      rcases lookup_back m hl with ⟨l₀, hl₀, same, _⟩ | ⟨y, x, hy, _, _, out, _⟩
      · obtain ⟨y, hy, _, out⟩ := hpub j l₀ hl₀
        exact ⟨y, same ▸ hy, out⟩
      · exact ⟨y, hy, out⟩
    obtain ⟨y, hy, out⟩ := out
    obtain ⟨y₁, hy₁, _, aim, _⟩ := handle_kept m hy
    obtain rfl : y₁ = y' := Option.mem_unique hy₁ hy'
    rw [socket.trans (here'.trans aim), out] at unready
    cases unready

theorem all_found {s : World} (h : Reachable machine FilesAfresh s) : AllFound s := by
  refine reachable_invariant_with
    (Q := fun s => (Tended s ∧ Known s) ∧ Filed s)
    (P := fun s => Public s ∧ AllFound s)
    (fun _ hs => ⟨⟨tended hs, known hs⟩, filed hs⟩) ?_ ?_ h |>.2
  · rintro s rfl
    exact ⟨by simp [Public, empty], by simp [AllFound, empty]⟩
  · rintro s a s' ⟨⟨ht, hk⟩, hf⟩ ⟨hpub, hall⟩ _ hstep
    have m := step_move hstep
    exact ⟨public_step ht hpub m, found_step ht hk hf hpub hall m⟩

/-- The drop of a `LocalEntry` takes out only what its own node filed. -/
theorem Filed.only_own {s : World} (h : Filed s) {m : Nat} {q : Node} {f : LocalEntry}
    {id : SocketId} {x : Filing} (hq : s.nodes[m]? = some q) (hs : q.stage = .ending f)
    (filed : s.locals.lookup id = some x) (gone : (s.unfile f).lookup id ≠ some x) :
    x.filer = m := by
  by_contra other
  refine gone (unfile_spared filed fun same mine => other ?_)
  obtain ⟨p, e, hp, he, hid, handler⟩ := h.owned id x filed
  have address := (h.named x.filer p e hp he).2
  have equal : e = f := by
    obtain ⟨id₁, filed₁⟩ := e
    obtain ⟨id₂, filed₂⟩ := f
    obtain rfl : id₁ = id₂ := hid.trans same
    obtain rfl : filed₁ = filed₂ := by
      rw [handler, mine] at address
      exact (Option.some.inj address).symm
    rfl
  exact h.unequal x.filer m p q f hp hq (equal ▸ he) (by rw [hs]; rfl)

/-- In every run in which no node is filed like one whose entry is still to be
dropped: the drop of a `LocalEntry` takes out only what its own node filed, the map
has the handler of every running node for every capability to it, and a lookup for
the handler's type returns it. -/
theorem live_node_found {s : World} (h : Reachable machine FilesAfresh s) :
    (∀ (m : Nat) q f id x, s.nodes[m]? = some q → q.stage = .ending f →
      s.locals.lookup id = some x → (s.unfile f).lookup id ≠ some x → x.filer = m) ∧
    ∀ (n : Nat) p e, s.nodes[n]? = some p → p.stage = .running e →
      (∀ (i : Nat) y x, s.reg.handles[i]? = some y → y.held = true → y.socket = p.socket →
        s.reg.inners[y.inner]? = some x →
          s.get x.id = .cloned p.handler ∧ s.isStrong p.handler = true) ∧
      ∀ (j : Nat) l y r, s.lookups[j]? = some l → s.reg.handles[l.handle]? = some y →
        y.socket = p.socket → (s.handlers[p.handler]?).map Handler.type = some l.type →
          l.stage = .returned r → r = some p.handler := by
  have hf := filed h
  constructor
  · exact fun m q f id x hq hs filed gone => hf.only_own hq hs filed gone
  · intro n p e hp hs
    constructor
    · intro i y x hy held here hx
      exact ⟨get_running (tended h) hf hp hs hy held here.symm hx, strong_of_running hp hs⟩
    · intro j l y r hl hy here typed returned
      exact (all_found h j l y n p e hl hy hp hs here.symm).2 r returned typed

theorem answered_afresh : exec machine FilesAfresh empty
    [.alloc 100 7, .newRaw 0 (1, 5), .build 0, .build 0, .build 0, .build 0, .get 0 7,
      .upgrade 0] = some answered := rfl

theorem live_node_found_answered :
    (∀ (m : Nat) q f id x, answered.nodes[m]? = some q → q.stage = .ending f →
      answered.locals.lookup id = some x → (answered.unfile f).lookup id ≠ some x →
        x.filer = m) ∧
    ∀ (n : Nat) p e, answered.nodes[n]? = some p → p.stage = .running e →
      (∀ (i : Nat) y x, answered.reg.handles[i]? = some y → y.held = true →
        y.socket = p.socket → answered.reg.inners[y.inner]? = some x →
          answered.get x.id = .cloned p.handler ∧ answered.isStrong p.handler = true) ∧
      ∀ (j : Nat) l y r, answered.lookups[j]? = some l →
        answered.reg.handles[l.handle]? = some y → y.socket = p.socket →
          (answered.handlers[p.handler]?).map Handler.type = some l.type →
            l.stage = .returned r → r = some p.handler :=
  live_node_found (exec_reachable rfl answered_afresh)

/-- Two nodes share a handler; the first, whose socket's identity the second was
given, ends late and takes the second's entry with it. -/
def mislaid : World where
  reg := ⟨[⟨(1, 5), 0⟩, ⟨(1, 5), 0⟩], [⟨0, .done⟩, ⟨1, .done⟩],
    [⟨0, (1, 5), .closed⟩, ⟨1, (1, 5), .filed⟩], [⟨0, 0, false⟩, ⟨1, 1, true⟩],
    AList.insert (1, 5) 1 ∅⟩
  handlers := [⟨100, 7, 1⟩]
  nodes := [⟨0, 0, .ended⟩, ⟨1, 0, .running ⟨(1, 5), 100⟩⟩]
  lookups := [⟨1, 7, .returned none⟩]
  locals := ∅

theorem mislaid_run : exec machine anyStep empty
    [.alloc 100 7, .newRaw 0 (1, 5), .build 0, .build 0, .build 0, .build 0, .reg (.drop 0),
      .reg (.unfile 0), .reg (.closeFd 0), .newRaw 0 (1, 5), .build 1, .build 1, .build 1,
      .build 1, .endLoop 0, .dropEntry 0, .get 1 7] = some mislaid := rfl

/-- A running node can be lost to lookups. -/
theorem live_node_lost :
    ¬ ∀ s : World, Reachable machine anyStep s → ∀ (n : Nat) p e, s.nodes[n]? = some p →
      p.stage = .running e → ∀ (j : Nat) l y r, s.lookups[j]? = some l →
        s.reg.handles[l.handle]? = some y → y.socket = p.socket →
          (s.handlers[p.handler]?).map Handler.type = some l.type →
            l.stage = .returned r → r = some p.handler := by
  intro claim
  have wrong := claim mislaid (exec_reachable rfl mislaid_run) 1 ⟨1, 0, .running ⟨(1, 5), 100⟩⟩
    ⟨(1, 5), 100⟩ rfl rfl 0 ⟨1, 7, .returned none⟩ ⟨1, 1, true⟩ none rfl rfl rfl rfl rfl
  cases wrong

end LocalHandlers
