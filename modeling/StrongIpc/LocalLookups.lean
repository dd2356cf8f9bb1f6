import StrongIpc.LocalHandlers

/-!
# Whose handler a lookup finds

The entry of a node outlives its sending end's socket while its receive loop is
busy, and the kernel may give the identity it is filed under to any socket opened
meanwhile. Two conditions keep lookups right: that no socket other than a node's is
opened under an identity whose filed handler is still alive, and that no node is
filed with the identity and the handler address of another whose entry is still to
be dropped.
-/

namespace LocalHandlers

open Registry Roster StepMachine

/-! ## What holds in every run -/

theorem isPrivate_iff {s : World} {a : Nat} : s.isPrivate a = true ↔
    ∃ p ∈ s.nodes, p.socket = a ∧ p.stage.isPrivate = true := by
  simp [World.isPrivate]

theorem isStrong_iff {s : World} {w : Nat} : s.isStrong w = true ↔
    (∃ k, s.handlers[w]? = some k ∧ 0 < k.users) ∨
      ∃ p ∈ s.nodes, p.handler = w ∧ p.stage.keeps = true := by
  cases hk : s.handlers[w]? <;> simp [World.isStrong, hk]

theorem reg_move {s s' : World} {a : Act} (m : Move s a s') :
    s'.reg = s.reg ∨ ∃ x, Registry.Move s.reg x s'.reg := by
  cases m with
  | reg x reg ok hm => exact Or.inr ⟨x, hm⟩
  | newRaw w id k reg hk used hm => exact Or.inr ⟨_, hm⟩
  | enter n p reg hp hs hm => exact Or.inr ⟨_, hm⟩
  | make n p i q reg hp hs hi hm => exact Or.inr ⟨_, hm⟩
  | _ => exact Or.inl rfl

/-- A step keeps every node's socket and handler. -/
theorem node_kept {s s' : World} {a : Act} (m : Move s a s') {n : Nat} {p : Node}
    (hp : s.nodes[n]? = some p) :
    ∃ p', s'.nodes[n]? = some p' ∧ p'.socket = p.socket ∧ p'.handler = p.handler := by
  have restaged : ∀ {j : Nat} {q : Node} (stage : NodeStage), s.nodes[j]? = some q →
      ∃ p', (s.nodes.set j { q with stage })[n]? = some p' ∧ p'.socket = p.socket ∧
        p'.handler = p.handler := by
    intro j q stage hq
    by_cases same : j = n
    · subst same
      obtain rfl : q = p := Option.mem_unique hq hp
      exact ⟨_, List.getElem?_set_self (lt_of_getElem? hp), rfl, rfl⟩
    · exact ⟨p, (List.getElem?_set_ne same).trans hp, rfl, rfl⟩
  cases m with
  | newRaw w id k reg hk used hm =>
    exact ⟨p, (List.getElem?_append_left (lt_of_getElem? hp)).trans hp, rfl, rfl⟩
  | enter j q reg hq hs hm => exact restaged _ hq
  | make j q i q' reg hq hs hi hm => exact restaged _ hq
  | file j q h y x address hq hs hy hx ha => exact restaged _ hq
  | endLoop j q e hq hs => exact restaged _ hq
  | dropEntry j q e hq hs => exact restaged _ hq
  | _ => exact ⟨p, hp, rfl, rfl⟩

/-- A node that is still being built after the step was, or has only just begun. -/
theorem private_back {s s' : World} {a : Act} (m : Move s a s') {n : Nat} {p : Node}
    (hp : s'.nodes[n]? = some p) (out : p.stage.isPrivate = true) :
    (∃ q, s.nodes[n]? = some q ∧ q.socket = p.socket ∧ q.stage.isPrivate = true) ∨
      p.socket = s.reg.sockets.length := by
  have restaged : ∀ {j : Nat} {q : Node} {stage : NodeStage}, s.nodes[j]? = some q →
      (stage.isPrivate = true → q.stage.isPrivate = true) →
      (s.nodes.set j { q with stage })[n]? = some p →
      (∃ q, s.nodes[n]? = some q ∧ q.socket = p.socket ∧ q.stage.isPrivate = true) ∨
        p.socket = s.reg.sockets.length := by
    intro j q stage hq still hset
    rcases getElem?_set_cases hset with ⟨rfl, rfl⟩ | ⟨_, old⟩
    · exact Or.inl ⟨q, hq, rfl, still out⟩
    · exact Or.inl ⟨p, old, rfl, out⟩
  cases m with
  | newRaw w id k reg hk used hm =>
    rcases getElem?_push_cases hp with ⟨_, rfl⟩ | old
    · exact Or.inr rfl
    · exact Or.inl ⟨p, old, rfl, out⟩
  | enter j q reg hq hs hm => exact restaged hq (fun _ => by rw [hs]; rfl) hp
  | make j q i q' reg hq hs hi hm => exact restaged hq (fun _ => by rw [hs]; rfl) hp
  | file j q h y x address hq hs hy hx ha => exact restaged hq (fun h => by cases h) hp
  | endLoop j q e hq hs => exact restaged hq (fun h => by cases h) hp
  | dropEntry j q e hq hs => exact restaged hq (fun h => by cases h) hp
  | _ => exact Or.inl ⟨p, hp, rfl, out⟩

/-- Nothing that could not be upgraded can be later. -/
theorem strong_back {s s' : World} {a : Act} (m : Move s a s') {w : Nat}
    (known : w < s.handlers.length) (h : s'.isStrong w = true) : s.isStrong w = true := by
  have users : ∀ {v : Nat} {k : Handler} {n : Nat}, s.handlers[v]? = some k →
      (0 < n → s.isStrong v = true) → ∀ k', (s.handlers.set v { k with users := n })[w]? = some k' →
      0 < k'.users → s.isStrong w = true := by
    intro v k n hk ok k' hset used
    rcases getElem?_set_cases hset with ⟨rfl, rfl⟩ | ⟨_, old⟩
    · exact ok used
    · exact isStrong_iff.mpr (Or.inl ⟨k', old, used⟩)
  have kept : ∀ p ∈ s.nodes, p.handler = w → p.stage.keeps = true → s.isStrong w = true :=
    fun p hp hw keeps => isStrong_iff.mpr (Or.inr ⟨p, hp, hw, keeps⟩)
  have restaged : ∀ {n : Nat} {q : Node} {stage : NodeStage}, s.nodes[n]? = some q →
      (stage.keeps = true → q.stage.keeps = true) →
      ∀ p ∈ s.nodes.set n { q with stage }, p.handler = w → p.stage.keeps = true →
        s.isStrong w = true := by
    intro n q stage hq still p hp hw keeps
    rcases List.mem_or_eq_of_mem_set hp with old | rfl
    · exact kept p old hw keeps
    · exact kept q (List.mem_of_getElem? hq) hw (still keeps)
  have raw : ∀ {v : Nat} {k : Handler}, s.handlers[v]? = some k → 0 < k.users →
      s.isStrong v = true := fun hk used => isStrong_iff.mpr (Or.inl ⟨_, hk, used⟩)
  rcases isStrong_iff.mp h with ⟨k', hk', used⟩ | ⟨p, hp, hw, keeps⟩
  · cases m with
    | alloc address type free =>
      rcases getElem?_push_cases hk' with ⟨last, _⟩ | old
      · omega
      · exact raw old used
    | share v k hk strong => exact users hk (fun _ => strong) k' hk' used
    | unshare v k hk used' => exact users hk (fun _ => raw hk used') k' hk' used
    | found j l v k hl hs hk strong typed => exact users hk (fun _ => strong) k' hk' used
    | _ => exact raw hk' used
  · cases m with
    | newRaw v id k reg hk used hm =>
      rcases List.mem_append.mp hp with old | last
      · exact kept p old hw keeps
      · obtain rfl := List.mem_singleton.mp last
        exact hw ▸ raw hk used
    | enter n q reg hq hs hm => exact restaged hq (fun _ => by rw [hs]; rfl) p hp hw keeps
    | make n q i q' reg hq hs hi hm => exact restaged hq (fun _ => by rw [hs]; rfl) p hp hw keeps
    | file n q h y x address hq hs hy hx ha =>
      exact restaged hq (fun _ => by rw [hs]; rfl) p hp hw keeps
    | endLoop n q e hq hs => exact restaged hq (fun h => by cases h) p hp hw keeps
    | dropEntry n q e hq hs => exact restaged hq (fun h => by cases h) p hp hw keeps
    | _ => exact kept p hp hw keeps

/-- Handlers stay allocated where they are. -/
theorem handlers_kept {s s' : World} {a : Act} (m : Move s a s') {w : Nat} {k : Handler}
    (hk : s.handlers[w]? = some k) :
    ∃ k', s'.handlers[w]? = some k' ∧ k'.address = k.address ∧ k'.type = k.type := by
  have recounted : ∀ {v : Nat} {k₀ : Handler} (n : Nat), s.handlers[v]? = some k₀ →
      ∃ k', (s.handlers.set v { k₀ with users := n })[w]? = some k' ∧ k'.address = k.address ∧
        k'.type = k.type := by
    intro v k₀ n hv
    by_cases same : v = w
    · subst same
      obtain rfl : k₀ = k := Option.mem_unique hv hk
      exact ⟨_, List.getElem?_set_self (lt_of_getElem? hk), rfl, rfl⟩
    · exact ⟨k, (List.getElem?_set_ne same).trans hk, rfl, rfl⟩
  cases m with
  | alloc address type free =>
    exact ⟨k, (List.getElem?_append_left (lt_of_getElem? hk)).trans hk, rfl, rfl⟩
  | share v k₀ hv strong => exact recounted _ hv
  | unshare v k₀ hv used => exact recounted _ hv
  | found j l v k₀ hl hs hv strong typed => exact recounted _ hv
  | _ => exact ⟨k, hk, rfl, rfl⟩

theorem handle_kept {s s' : World} {a : Act} (m : Move s a s') {h : Nat} {y : Handle}
    (hy : s.reg.handles[h]? = some y) :
    ∃ y', s'.reg.handles[h]? = some y' ∧ y'.inner = y.inner ∧ y'.socket = y.socket ∧
      (a ≠ .reg (.drop h) → y' = y) := by
  cases m with
  | reg x reg ok hm =>
    obtain ⟨y', hy', inner, socket, same⟩ := Registry.handle_kept hm hy
    exact ⟨y', hy', inner, socket, fun other => same fun drop => other (congrArg Act.reg drop)⟩
  | newRaw w id k reg hk used hm =>
    obtain ⟨y', hy', inner, socket, same⟩ := Registry.handle_kept hm hy
    exact ⟨y', hy', inner, socket, fun _ => same (by simp)⟩
  | enter n p reg hp hs hm =>
    obtain ⟨y', hy', inner, socket, same⟩ := Registry.handle_kept hm hy
    exact ⟨y', hy', inner, socket, fun _ => same (by simp)⟩
  | make n p i q reg hp hs hi hm =>
    obtain ⟨y', hy', inner, socket, same⟩ := Registry.handle_kept hm hy
    exact ⟨y', hy', inner, socket, fun _ => same (by simp)⟩
  | _ => exact ⟨y, hy, rfl, rfl, fun _ => rfl⟩

theorem maker_kept {s s' : World} {a : Act} (m : Move s a s') {i : Nat} {p : Maker}
    (hp : s.reg.makers[i]? = some p) :
    ∃ p', s'.reg.makers[i]? = some p' ∧ p'.socket = p.socket := by
  rcases reg_move m with same | ⟨x, hm⟩
  · rw [same]
    exact ⟨p, hp, rfl⟩
  · exact Registry.maker_kept hm hp

theorem sockets_grow {s s' : World} {a : Act} (m : Move s a s') :
    s.reg.sockets.length ≤ s'.reg.sockets.length := by
  rcases reg_move m with same | ⟨x, hm⟩
  · rw [same]
  · exact Registry.sockets_grow hm

/-- What a node that is being built has got so far. -/
def Tracked (s : World) (p : Node) : Prop :=
  (∀ i, p.stage = .making i → ∃ q, s.reg.makers[i]? = some q ∧ q.socket = p.socket) ∧
    ∀ h, p.stage = .filing h → ∃ y, s.reg.handles[h]? = some y ∧ y.held = true ∧
      y.socket = p.socket

/-- The bookkeeping of nodes: each has a socket of its own, and what it is building
is where it left it. -/
structure Tended (s : World) : Prop where
  registry : Faithful s.reg
  tracked : ∀ (n : Nat) p, s.nodes[n]? = some p → Tracked s p
  placed : ∀ (n : Nat) p, s.nodes[n]? = some p → p.socket < s.reg.sockets.length
  apart : ∀ (m n : Nat) p q, s.nodes[m]? = some p → s.nodes[n]? = some q →
    p.socket = q.socket → m = n

/-- Nobody drops the handle of a node being built. -/
theorem tracked_kept {s s' : World} {a : Act} {n : Nat} {p : Node} (h : Tracked s p)
    (m : Move s a s') (hp : s.nodes[n]? = some p) : Tracked s' p := by
  constructor
  · intro i hs
    obtain ⟨q, hq, same⟩ := h.1 i hs
    obtain ⟨q', hq', kept⟩ := maker_kept m hq
    exact ⟨q', hq', kept.trans same⟩
  · intro i hs
    obtain ⟨y, hy, held, same⟩ := h.2 i hs
    obtain ⟨y', hy', _, _, still⟩ := handle_kept m hy
    have spared : a ≠ .reg (.drop i) := by
      rintro rfl
      cases m with
      | reg x reg ok hm =>
        have out : s.isPrivate y.socket = true :=
          isPrivate_iff.mpr ⟨p, List.mem_of_getElem? hp, same.symm, by rw [hs]; rfl⟩
        simp [World.allows, hy, out] at ok
    exact ⟨y, still spared ▸ hy', held, same⟩

theorem tracked_step {s s' : World} {a : Act} (h : Tended s) (m : Move s a s') :
    ∀ (n : Nat) p, s'.nodes[n]? = some p → Tracked s' p := by
  intro n p hp
  have old : s.nodes[n]? = some p → Tracked s' p :=
    fun hp => tracked_kept (h.tracked n p hp) m hp
  have idle : (∀ i, p.stage ≠ .making i) → (∀ i, p.stage ≠ .filing i) → Tracked s' p :=
    fun no no' => ⟨fun i hs => absurd hs (no i), fun i hs => absurd hs (no' i)⟩
  cases m with
  | newRaw w id k reg hk used hm =>
    rcases getElem?_push_cases hp with ⟨_, rfl⟩ | hp
    · exact idle (by simp) (by simp)
    · exact old hp
  | enter j q reg hq hs hm =>
    rcases getElem?_set_cases hp with ⟨_, rfl⟩ | ⟨_, hp⟩
    · refine ⟨fun i same => ?_, by simp⟩
      obtain rfl : s.reg.makers.length = i := NodeStage.making.inj same
      cases hm with
      | fromFd _ k hk some_raw => exact ⟨⟨q.socket, .entered⟩, by simp [World.setNode], rfl⟩
    · exact old hp
  | make j q i q' reg hq hs hi hm =>
    rcases getElem?_set_cases hp with ⟨_, rfl⟩ | ⟨_, hp⟩
    · obtain ⟨q₀, hq₀, mine⟩ := (h.tracked j q hq).1 i hs
      obtain rfl : q' = q₀ := Option.mem_unique hi hq₀
      obtain ⟨q₁, hq₁, kept⟩ := Registry.maker_kept hm hi
      cases hst : q'.stage with
      | statted id =>
        obtain ⟨r, hr⟩ := made_handle hm hi hst
        constructor
        · simp [World.made, hst]
        · intro k same
          obtain rfl : s.reg.handles.length = k := by simpa [World.made, hst] using same
          exact ⟨_, hr, rfl, mine⟩
      | _ =>
        refine ⟨fun k same => ?_, by simp [World.made, hst]⟩
        obtain rfl : i = k := by simpa [World.made, hst] using same
        exact ⟨q₁, hq₁, kept.trans mine⟩
    · exact old hp
  | file j q i y x address hq hs hy hx ha =>
    rcases getElem?_set_cases hp with ⟨_, rfl⟩ | ⟨_, hp⟩
    · exact idle (by simp) (by simp)
    · exact old hp
  | endLoop j q e hq hs =>
    rcases getElem?_set_cases hp with ⟨_, rfl⟩ | ⟨_, hp⟩
    · exact idle (by simp) (by simp)
    · exact old hp
  | dropEntry j q e hq hs =>
    rcases getElem?_set_cases hp with ⟨_, rfl⟩ | ⟨_, hp⟩
    · exact idle (by simp) (by simp)
    · exact old hp
  | _ => exact old hp

/-- A node after a step is one from before, or the one the step began. -/
theorem node_back {s s' : World} {a : Act} (m : Move s a s') {n : Nat} {p : Node}
    (hp : s'.nodes[n]? = some p) :
    (∃ q, s.nodes[n]? = some q ∧ q.socket = p.socket ∧ q.handler = p.handler) ∨
      (n = s.nodes.length ∧ p.socket = s.reg.sockets.length ∧
        s'.reg.sockets.length = s.reg.sockets.length + 1) := by
  by_cases new : n < s.nodes.length
  · obtain ⟨q, hq⟩ : ∃ q, s.nodes[n]? = some q := ⟨_, List.getElem?_eq_getElem new⟩
    obtain ⟨p', hp', socket, handler⟩ := node_kept m hq
    obtain rfl : p' = p := Option.mem_unique hp' hp
    exact Or.inl ⟨q, hq, socket.symm, handler.symm⟩
  · have longer : n < s'.nodes.length := lt_of_getElem? hp
    cases m with
    | newRaw w id k reg hk used hm =>
      rcases getElem?_push_cases hp with ⟨last, rfl⟩ | old
      · refine Or.inr ⟨last, rfl, ?_⟩
        cases hm with
        | openSocket _ unused => simp
      · exact absurd (lt_of_getElem? old) new
    | _ => exact absurd longer (by simpa [World.setNode, World.setUsers, World.file,
        World.setLookup] using new)

theorem tended_step {s s' : World} {a : Act} (h : Tended s) (m : Move s a s') : Tended s' := by
  have grow := sockets_grow m
  refine ⟨?_, tracked_step h m, fun n p hp => ?_, fun i j p q hp hq same => ?_⟩
  · rcases reg_move m with same | ⟨x, hm⟩
    · exact same ▸ h.registry
    · exact faithful_step h.registry hm
  · rcases node_back m hp with ⟨q, hq, socket, _⟩ | ⟨_, socket, longer⟩
    · have := h.placed n q hq
      omega
    · omega
  · rcases node_back m hp with ⟨p₀, hp₀, sp, _⟩ | ⟨lastp, sp, _⟩
    · rcases node_back m hq with ⟨q₀, hq₀, sq, _⟩ | ⟨_, sq, _⟩
      · exact h.apart i j p₀ q₀ hp₀ hq₀ (sp.trans (same.trans sq.symm))
      · have := h.placed i p₀ hp₀
        omega
    · rcases node_back m hq with ⟨q₀, hq₀, sq, _⟩ | ⟨lastq, _, _⟩
      · have := h.placed j q₀ hq₀
        omega
      · omega

theorem tended {guard : World → Act → Prop} {s : World} (h : Reachable machine guard s) :
    Tended s := by
  refine reachable_invariant ?_ ?_ h
  · rintro s rfl
    exact ⟨empty_faithful, by simp [empty], by simp [empty], by simp [empty]⟩
  · intro s a s' hs _ hstep
    exact tended_step hs (step_move hstep)

/-- A node stays unreachable until its entry is filed. -/
theorem private_kept {s s' : World} {a : Act} (m : Move s a s') {k : Nat}
    (h : s.isPrivate k = true) : s'.isPrivate k = true ∨
      ∃ (n : Nat) (p : Node) (i : Nat), a = .build n ∧ s.nodes[n]? = some p ∧
        p.stage = .filing i ∧ p.socket = k := by
  obtain ⟨p, hp, here, out⟩ := isPrivate_iff.mp h
  obtain ⟨n, hn⟩ := List.getElem?_of_mem hp
  have still : ∀ {r : Node}, s'.nodes[n]? = some r → r.socket = p.socket →
      r.stage.isPrivate = true → s'.isPrivate k = true :=
    fun hp' socket out' => isPrivate_iff.mpr
      ⟨_, List.mem_of_getElem? hp', socket.trans here, out'⟩
  have restaged : ∀ {j : Nat} {q : Node} {stage : NodeStage}, s.nodes[j]? = some q →
      (j = n → stage.isPrivate = true) → s'.nodes = s.nodes.set j { q with stage } →
      s'.isPrivate k = true := by
    intro j q stage hq keeps hset
    by_cases same : j = n
    · subst same
      obtain rfl : q = p := Option.mem_unique hq hn
      refine still (r := { q with stage }) ?_ rfl (keeps rfl)
      rw [hset]
      exact List.getElem?_set_self (lt_of_getElem? hn)
    · refine still (r := p) ?_ rfl out
      rw [hset, List.getElem?_set_ne same]
      exact hn
  have shared : ∀ {j : Nat} {q : Node}, s.nodes[j]? = some q → q.stage.isPrivate = false →
      j ≠ n := by
    intro j q hq hs same
    subst same
    obtain rfl : q = p := Option.mem_unique hq hn
    rw [hs] at out
    cases out
  cases m with
  | newRaw w id q reg hk used hm =>
    exact Or.inl (still ((List.getElem?_append_left (lt_of_getElem? hn)).trans hn) rfl out)
  | enter j q reg hq hs hm => exact Or.inl (restaged hq (fun _ => rfl) rfl)
  | make j q i q' reg hq hs hi hm =>
    refine Or.inl (restaged hq (fun _ => ?_) rfl)
    cases hst : q'.stage <;> simp [World.made, hst, NodeStage.isPrivate]
  | file j q i y x address hq hs hy hx ha =>
    by_cases same : j = n
    · subst same
      obtain rfl : q = p := Option.mem_unique hq hn
      exact Or.inr ⟨j, q, i, rfl, hq, hs, here⟩
    · exact Or.inl (restaged hq (fun same' => absurd same' same) rfl)
  | endLoop j q e hq hs =>
    exact Or.inl (restaged hq (fun same => absurd same (shared hq (by rw [hs]; rfl))) rfl)
  | dropEntry j q e hq hs =>
    exact Or.inl (restaged hq (fun same => absurd same (shared hq (by rw [hs]; rfl))) rfl)
  | _ => exact Or.inl (still hn rfl out)

theorem lookup_unfile {s : World} {e : LocalEntry} {id : SocketId} {x : Filing}
    (h : (s.unfile e).lookup id = some x) : s.locals.lookup id = some x := by
  rw [World.unfile] at h
  split at h
  · exact h
  · split at h
    · by_cases same : id = e.id
      · subst same
        simp at h
      · rwa [AList.lookup_erase_ne same] at h
    · exact h

/-- Handlers referred to are allocated. -/
structure Known (s : World) : Prop where
  filed : ∀ id x, s.locals.lookup id = some x → x.handler < s.handlers.length
  taken : ∀ (j : Nat) l w, s.lookups[j]? = some l → l.stage = .cloned w → w < s.handlers.length
  built : ∀ (n : Nat) p, s.nodes[n]? = some p → p.handler < s.handlers.length

theorem handlers_grow {s s' : World} {a : Act} (m : Move s a s') :
    s.handlers.length ≤ s'.handlers.length := by
  cases m <;> simp [World.setNode, World.setUsers, World.setLookup, World.file]

/-- A lookup after a step has its `Weak` from before, or took it out just now. -/
theorem lookup_move {s s' : World} {a : Act} (m : Move s a s') {j : Nat} {l : Lookup} {w : Nat}
    (hl : s'.lookups[j]? = some l) (cloned : l.stage = .cloned w) :
    s.lookups[j]? = some l ∨ ∃ (y : Handle) (x : RefInner) (f : Filing),
      s.reg.handles[l.handle]? = some y ∧ s.reg.inners[y.inner]? = some x ∧ y.held = true ∧
        s.isPrivate y.socket = false ∧ s.locals.lookup x.id = some f ∧ f.handler = w ∧
        s'.reg = s.reg ∧ s'.nodes = s.nodes ∧ s'.handlers = s.handlers := by
  cases m with
  | get h type y x hy hx held out =>
    rcases getElem?_push_cases hl with ⟨_, rfl⟩ | old
    · cases hf : s.locals.lookup x.id with
      | none => simp [World.get, hf] at cloned
      | some f =>
        have same : f.handler = w := by simpa [World.get, hf] using cloned
        exact Or.inr ⟨y, x, f, hy, hx, held, out, hf, same, rfl, rfl, rfl⟩
    · exact Or.inl old
  | found i k v q hk hs hq strong typed =>
    rcases getElem?_set_cases hl with ⟨_, rfl⟩ | ⟨_, old⟩
    · cases cloned
    · exact Or.inl old
  | missed i k v q hk hs hq why =>
    rcases getElem?_set_cases hl with ⟨_, rfl⟩ | ⟨_, old⟩
    · cases cloned
    · exact Or.inl old
  | _ => exact Or.inl hl

theorem known_step {s s' : World} {a : Act} (h : Known s) (m : Move s a s') : Known s' := by
  have grow := handlers_grow m
  refine ⟨fun id x filed => ?_, fun j l w hl cloned => ?_, fun n p hp => ?_⟩
  · have old : s.locals.lookup id = some x → x.handler < s'.handlers.length :=
      fun filed => Nat.lt_of_lt_of_le (h.filed id x filed) grow
    cases m with
    | file j q i y z address hq hs hy hx ha =>
      by_cases same : id = z.id
      · subst same
        have new : (⟨q.handler, j⟩ : Filing) = x := by
          simpa [World.file, World.setNode] using filed
        exact new ▸ h.built j q hq
      · exact old ((AList.lookup_insert_ne same).symm.trans filed)
    | dropEntry j q e hq hs => exact old (lookup_unfile filed)
    | _ => exact old filed
  · rcases lookup_move m hl cloned with old | ⟨y, x, f, _, _, _, _, filed, rfl, _, _, _⟩
    · exact Nat.lt_of_lt_of_le (h.taken j l w old cloned) grow
    · exact Nat.lt_of_lt_of_le (h.filed x.id f filed) grow
  · rcases node_back m hp with ⟨q, hq, _, handler⟩ | ⟨last, _, _⟩
    · have := h.built n q hq
      omega
    · subst last
      cases m with
      | newRaw w id k reg hk used hm =>
        rcases getElem?_push_cases hp with ⟨_, rfl⟩ | old
        · exact lt_of_getElem? hk
        · exact absurd (lt_of_getElem? old) (by omega)
      | _ => exact absurd (lt_of_getElem? hp) (by simp [World.setNode, World.setUsers,
          World.setLookup, World.file])

theorem known {guard : World → Act → Prop} {s : World} (h : Reachable machine guard s) :
    Known s := by
  refine reachable_invariant ?_ ?_ h
  · rintro s rfl
    exact ⟨by simp [empty], by simp [empty], by simp [empty]⟩
  · intro s a s' hs _ hstep
    exact known_step hs (step_move hstep)

/-! ## Nobody else's handler -/

/-- No socket other than a node's is opened under an identity whose filed handler
can still be upgraded. -/
def noLiveFiling (s : World) : Act → Bool
  | .reg (.openSocket id) => (s.locals.lookup id).all fun x => !s.isStrong x.handler
  | _ => true

def NoLiveFiling (s : World) (a : Act) : Prop := noLiveFiling s a = true

instance (s : World) (a : Act) : Decidable (NoLiveFiling s a) :=
  inferInstanceAs (Decidable (_ = _))

/-- `w` is the handler of the node whose sending end is `k`, or gone. -/
def Answers (s : World) (k w : Nat) : Prop :=
  (∃ p ∈ s.nodes, p.socket = k ∧ p.handler = w) ∨ s.isStrong w = false

theorem owner_kept {s s' : World} {a : Act} (m : Move s a s') {k w : Nat}
    (h : ∃ p ∈ s.nodes, p.socket = k ∧ p.handler = w) :
    ∃ p ∈ s'.nodes, p.socket = k ∧ p.handler = w := by
  obtain ⟨p, hp, rfl, rfl⟩ := h
  obtain ⟨n, hn⟩ := List.getElem?_of_mem hp
  obtain ⟨p', hp', socket, handler⟩ := node_kept m hn
  exact ⟨p', List.mem_of_getElem? hp', socket, handler⟩

theorem answers_kept {s s' : World} {a : Act} (m : Move s a s') {k w : Nat}
    (known : w < s.handlers.length) (h : Answers s k w) : Answers s' k w := by
  rcases h with owner | gone
  · exact Or.inl (owner_kept m owner)
  · refine Or.inr (Bool.eq_false_iff.mpr fun strong => ?_)
    rw [strong_back m known strong] at gone
    cases gone

/-- What is filed under an open socket's identity, what a lookup has taken out and
what it has returned belong to the node at the other end, or are of no use. -/
structure Trusted (s : World) : Prop where
  filed : ∀ k id x, s.reg.idOf k = some id → s.reg.isNamed k = true → s.isPrivate k = false →
    s.locals.lookup id = some x → Answers s k x.handler
  taken : ∀ (j : Nat) l w, s.lookups[j]? = some l → l.stage = .cloned w →
    ∃ y, s.reg.handles[l.handle]? = some y ∧ Answers s y.socket w
  given : ∀ (j : Nat) l w, s.lookups[j]? = some l → l.stage = .returned (some w) →
    ∃ y, s.reg.handles[l.handle]? = some y ∧ ∃ p ∈ s.nodes, p.socket = y.socket ∧ p.handler = w

theorem filed_step {s s' : World} {a : Act} (ht : Tended s) (hk : Known s) (h : Trusted s)
    (m : Move s a s') (ok : NoLiveFiling s a) :
    ∀ k id x, s'.reg.idOf k = some id → s'.reg.isNamed k = true → s'.isPrivate k = false →
      s'.locals.lookup id = some x → Answers s' k x.handler := by
  intro k id x hid named out filed
  have old : s.reg.idOf k = some id → s.reg.isNamed k = true → s.isPrivate k = false →
      s.locals.lookup id = some x → Answers s' k x.handler := fun hid named out filed =>
    answers_kept m (hk.filed id x filed) (h.filed k id x hid named out filed)
  -- only a node that has just been filed became reachable
  have still_out : (∀ n, a ≠ .build n) → s.isPrivate k = false := by
    intro other
    by_contra inside
    rcases private_kept m (Bool.not_eq_false _ ▸ inside) with still | ⟨n, _, _, same, _⟩
    · rw [still] at out
      cases out
    · exact other n same
  have building : ∀ {n : Nat} {p : Node}, s.nodes[n]? = some p → (∀ i, p.stage ≠ .filing i) →
      a = .build n → s.isPrivate k = false := by
    intro n p hp unfiled here
    by_contra inside
    rcases private_kept m (Bool.not_eq_false _ ▸ inside) with still | ⟨n', q, i, same, hq, hs, _⟩
    · rw [still] at out
      cases out
    · obtain rfl : n = n' := Act.build.inj (here.symm.trans same)
      obtain rfl : p = q := Option.mem_unique hp hq
      exact unfiled i hs
  cases m with
  | reg y reg allowed hm =>
    rcases open_move hm hid named with ⟨hid, named⟩ | ⟨rfl, _⟩
    · exact old hid named (still_out (by simp)) filed
    · have filed : s.locals.lookup id = some x := filed
      have gone : s.isStrong x.handler = false := by
        simpa [NoLiveFiling, noLiveFiling, filed] using ok
      exact Or.inr gone
  | newRaw w id' q reg hq used hm =>
    rcases open_move hm hid named with ⟨hid, named⟩ | ⟨_, new⟩
    · exact old hid named (still_out (by simp)) filed
    · refine absurd ?_ (Bool.eq_false_iff.mp out)
      exact isPrivate_iff.mpr ⟨⟨s.reg.sockets.length, w, .paired⟩,
        List.mem_append_right s.nodes List.mem_cons_self, new.symm, rfl⟩
  | enter n p reg hp hs hm =>
    rcases open_move hm hid named with ⟨hid, named⟩ | ⟨impossible, _⟩
    · exact old hid named (building hp (by simp [hs]) rfl) filed
    · cases impossible
  | make n p i q reg hp hs hi hm =>
    rcases open_move hm hid named with ⟨hid, named⟩ | ⟨impossible, _⟩
    · exact old hid named (building hp (by simp [hs]) rfl) filed
    · cases impossible
  | file n p i y z address hp hs hy hz ha =>
    obtain ⟨y', hy', held, mine⟩ := (ht.tracked n p hp).2 i hs
    obtain rfl : y = y' := Option.mem_unique hy hy'
    obtain ⟨z', hz', _, aim, _⟩ := ht.registry.held i y hy held
    obtain rfl : z = z' := Option.mem_unique hz hz'
    have here : s.reg.idOf p.socket = some z.id := by
      rw [← mine, ← aim]
      exact ht.registry.inner_id y.inner z hz
    by_cases same : id = z.id
    · subst same
      have new : (⟨p.handler, n⟩ : Filing) = x := by
        simpa [World.file, World.setNode] using filed
      have open_here : s.reg.isNamed p.socket = true := mine ▸ ht.registry.held_named hy held
      have only : k = p.socket :=
        ht.registry.distinct k p.socket z.id hid here named open_here
      refine Or.inl ⟨{ p with stage := .running ⟨z.id, address⟩ }, ?_, only.symm, ?_⟩
      · exact List.mem_of_getElem? (List.getElem?_set_self (lt_of_getElem? hp))
      · exact congrArg Filing.handler new
    · have filed : s.locals.lookup id = some x := (AList.lookup_insert_ne same).symm.trans filed
      refine old hid named ?_ filed
      by_contra inside
      rcases private_kept (.file n p i y z address hp hs hy hz ha)
        (Bool.not_eq_false _ ▸ inside) with still | ⟨n', q, _, same', hq, _, here'⟩
      · rw [still] at out
        cases out
      · obtain rfl : n = n' := Act.build.inj same'
        obtain rfl : p = q := Option.mem_unique hp hq
        have hid : s.reg.idOf k = some id := hid
        rw [← here', here] at hid
        exact same (Option.some.inj hid).symm
  | dropEntry n p e hp hs => exact old hid named (still_out (by simp)) (lookup_unfile filed)
  | _ => exact old hid named (still_out (by simp)) filed

theorem taken_step {s s' : World} {a : Act} (ht : Tended s) (hk : Known s) (h : Trusted s)
    (m : Move s a s') :
    ∀ (j : Nat) l w, s'.lookups[j]? = some l → l.stage = .cloned w →
      ∃ y, s'.reg.handles[l.handle]? = some y ∧ Answers s' y.socket w := by
  intro j l w hl cloned
  rcases lookup_move m hl cloned with old | ⟨y, x, f, hy, hx, held, out, filed, rfl, _, _, _⟩
  · obtain ⟨y, hy, answers⟩ := h.taken j l w old cloned
    obtain ⟨y', hy', _, socket, _⟩ := handle_kept m hy
    exact ⟨y', hy', socket ▸ answers_kept m (hk.taken j l w old cloned) answers⟩
  · obtain ⟨x', hx', _, aim, _⟩ := ht.registry.held l.handle y hy held
    obtain rfl : x = x' := Option.mem_unique hx hx'
    have here : s.reg.idOf y.socket = some x.id := aim ▸ ht.registry.inner_id y.inner x hx
    have answers := h.filed y.socket x.id f here (ht.registry.held_named hy held) out filed
    obtain ⟨y', hy', _, socket, _⟩ := handle_kept m hy
    exact ⟨y', hy', socket ▸ answers_kept m (hk.filed x.id f filed) answers⟩

theorem given_step {s s' : World} {a : Act} (h : Trusted s) (m : Move s a s') :
    ∀ (j : Nat) l w, s'.lookups[j]? = some l → l.stage = .returned (some w) →
      ∃ y, s'.reg.handles[l.handle]? = some y ∧
        ∃ p ∈ s'.nodes, p.socket = y.socket ∧ p.handler = w := by
  intro j l w hl given
  have old : s.lookups[j]? = some l → ∃ y, s'.reg.handles[l.handle]? = some y ∧
      ∃ p ∈ s'.nodes, p.socket = y.socket ∧ p.handler = w := by
    intro hl
    obtain ⟨y, hy, owner⟩ := h.given j l w hl given
    obtain ⟨y', hy', _, socket, _⟩ := handle_kept m hy
    exact ⟨y', hy', socket ▸ owner_kept m owner⟩
  cases m with
  | get i type y x hy hx held out =>
    rcases getElem?_push_cases hl with ⟨_, rfl⟩ | hl
    · cases hf : s.locals.lookup x.id <;> simp [World.get, hf] at given
    · exact old hl
  | found i k v q hk hs hq strong typed =>
    rcases getElem?_set_cases hl with ⟨_, rfl⟩ | ⟨_, hl⟩
    · obtain rfl : v = w := by simpa using given
      obtain ⟨y, hy, owner | gone⟩ := h.taken i k v hk hs
      · exact ⟨y, hy, owner⟩
      · rw [strong] at gone
        cases gone
    · exact old hl
  | missed i k v q hk hs hq why =>
    rcases getElem?_set_cases hl with ⟨_, rfl⟩ | ⟨_, hl⟩
    · cases given
    · exact old hl
  | _ => exact old hl

/-- Whatever a lookup returns is the handler of the node whose sending end the
capability sends to, provided no other socket is opened under an identity whose
filed handler is still alive. -/
theorem found_own_handler {s : World} {j : Nat} {l : Lookup} {w : Nat}
    (h : Reachable machine NoLiveFiling s) (hl : s.lookups[j]? = some l)
    (found : l.stage = .returned (some w)) :
    ∃ y x p, s.reg.handles[l.handle]? = some y ∧ s.reg.inners[y.inner]? = some x ∧
      p ∈ s.nodes ∧ p.socket = x.socket ∧ p.handler = w := by
  have trusted : Trusted s := by
    refine reachable_invariant_with (Q := fun s => Tended s ∧ Known s)
      (fun _ hs => ⟨tended hs, known hs⟩) ?_ ?_ h
    · rintro s rfl
      exact ⟨by simp [empty], by simp [empty], by simp [empty]⟩
    · rintro s a s' ⟨ht, hk⟩ hp ok hstep
      have m := step_move hstep
      exact ⟨filed_step ht hk hp m ok, taken_step ht hk hp m, given_step hp m⟩
  obtain ⟨y, hy, p, hp, socket, handler⟩ := trusted.given j l w hl found
  obtain ⟨x, hx, aim⟩ := (tended h).registry.aimed l.handle y hy
  exact ⟨y, x, p, hy, hx, hp, socket.trans aim.symm, handler⟩

/-- A node asked for its handler through the capability that reaches it. -/
def answered : World where
  reg := ⟨[⟨(1, 5), 0⟩], [⟨0, .done⟩], [⟨0, (1, 5), .filed⟩], [⟨0, 0, true⟩],
    AList.insert (1, 5) 0 ∅⟩
  handlers := [⟨100, 7, 2⟩]
  nodes := [⟨0, 0, .running ⟨(1, 5), 100⟩⟩]
  lookups := [⟨0, 7, .returned (some 0)⟩]
  locals := AList.insert (1, 5) ⟨0, 0⟩ ∅

theorem answered_run : exec machine NoLiveFiling empty
    [.alloc 100 7, .newRaw 0 (1, 5), .build 0, .build 0, .build 0, .build 0, .get 0 7,
      .upgrade 0] = some answered := rfl

theorem found_own_handler_answered :
    ∃ y x p, answered.reg.handles[0]? = some y ∧ answered.reg.inners[y.inner]? = some x ∧
      p ∈ answered.nodes ∧ p.socket = x.socket ∧ p.handler = 0 :=
  found_own_handler (exec_reachable rfl answered_run)
    (show answered.lookups[0]? = some ⟨0, 7, .returned (some 0)⟩ from rfl) rfl

/-- The node's socket is closed while its loop is busy, its identity goes to a
socket from elsewhere, and a capability to that one finds the node's handler. -/
def misled : World where
  reg := ⟨[⟨(1, 5), 0⟩, ⟨(1, 5), 0⟩], [⟨0, .done⟩, ⟨1, .done⟩],
    [⟨0, (1, 5), .closed⟩, ⟨1, (1, 5), .filed⟩], [⟨0, 0, false⟩, ⟨1, 1, true⟩],
    AList.insert (1, 5) 1 ∅⟩
  handlers := [⟨100, 7, 2⟩]
  nodes := [⟨0, 0, .running ⟨(1, 5), 100⟩⟩]
  lookups := [⟨1, 7, .returned (some 0)⟩]
  locals := AList.insert (1, 5) ⟨0, 0⟩ ∅

theorem misled_run : exec machine anyStep empty
    [.alloc 100 7, .newRaw 0 (1, 5), .build 0, .build 0, .build 0, .build 0, .reg (.drop 0),
      .reg (.unfile 0), .reg (.closeFd 0), .reg (.openSocket (1, 5)), .reg (.fromFd 1),
      .reg (.make 1), .reg (.make 1), .get 1 7, .upgrade 0] = some misled := rfl

/-- A lookup can return the handler of a node that the capability does not reach. -/
theorem found_foreign_handler :
    ¬ ∀ s : World, Reachable machine anyStep s → ∀ (j : Nat) l w, s.lookups[j]? = some l →
      l.stage = .returned (some w) →
        ∃ y x p, s.reg.handles[l.handle]? = some y ∧ s.reg.inners[y.inner]? = some x ∧
          p ∈ s.nodes ∧ p.socket = x.socket ∧ p.handler = w := by
  intro claim
  obtain ⟨y, x, p, hy, hx, hp, socket, _⟩ := claim misled (exec_reachable rfl misled_run) 0
    ⟨1, 7, .returned (some 0)⟩ 0 rfl rfl
  obtain rfl : ⟨1, 1, true⟩ = y := Option.some.inj hy
  obtain rfl : ⟨1, (1, 5), .filed⟩ = x := Option.some.inj hx
  obtain rfl : p = ⟨0, 0, .running ⟨(1, 5), 100⟩⟩ := List.mem_singleton.mp hp
  exact absurd socket (by decide)

end LocalHandlers
