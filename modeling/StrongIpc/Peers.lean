import Mathlib.Logic.Function.Basic
import StrongIpc.Registry

/-!
# A table keyed by capabilities

`Hash` and `Eq` of a `Ref` go by the address of its `RefInner`, which the allocator gives
to another one as soon as this one is gone. A `HashMap<Ref, V>` keeps its keys alive, and
so has one entry for each socket for which there is one, which any `Ref` to that socket
finds, whenever and on whatever descriptor it came.
-/

namespace Peers

open Registry Roster StepMachine

/-- `addresses` are those of the `RefInner`s, and the keys of the table `Ref`s in it, which
nobody else drops. -/
structure State (V : Type) where
  registry : Registry.State
  addresses : List Nat
  table : List (Nat × V)

/-- `address` is where a `RefInner` is put, if one is made. -/
inductive Act (V : Type) where
  | registry (a : Registry.Act) (address : Nat)
  | insert (h : Nat) (v : V)
  | remove (h : Nat)
  deriving DecidableEq, Repr

variable {V : Type}

/-! ## `Ref`s as keys -/

/-- `identity`. -/
def State.identity (s : State V) (h : Nat) : Option Nat :=
  match s.registry.handles[h]? with
  | none => none
  | some y => s.addresses[y.inner]?

def State.find (s : State V) (h : Nat) : Option Nat :=
  s.table.findIdx? fun e => s.identity e.1 = s.identity h

def State.get (s : State V) (h : Nat) : Option V :=
  match s.find h with
  | none => none
  | some i => s.table[i]?.map Prod.snd

def State.isKey (s : State V) (h : Nat) : Bool := s.table.any fun e => e.1 = h

/-- Whether the caller has this `Ref`. -/
def State.owns (s : State V) (h : Nat) : Bool :=
  (s.registry.handles[h]?.any fun y => y.held) && !s.isKey h

/-- No `RefInner` that is not gone is at this address. -/
def State.isFree (s : State V) (address : Nat) : Bool :=
  (List.range s.registry.inners.length).all fun r =>
    s.registry.inners[r]?.all (fun x => x.stage = .closed) || s.addresses[r]? != some address

def State.registryNext (s : State V) (address : Nat) (registry : Registry.State) :
    Option (State V) :=
  if s.registry.inners.length < registry.inners.length then
    if s.isFree address then some { s with registry, addresses := s.addresses ++ [address] }
    else none
  else some { s with registry }

/-- A key is dropped by nobody but the table. -/
def State.spares (s : State V) : Registry.Act → Bool
  | .drop h => !s.isKey h
  | _ => true

/-- A `Ref` is dropped, and the table is this then. -/
def State.dropRef (s : State V) (h : Nat) (table : List (Nat × V)) : Option (State V) :=
  match Registry.step s.registry (.drop h) with
  | none => none
  | some registry => some { s with registry, table }

/-- An equal key that is there stays, and the new one is dropped. -/
def State.insert (s : State V) (h : Nat) (v : V) : Option (State V) :=
  match s.find h with
  | none => some { s with table := s.table ++ [(h, v)] }
  | some i =>
    match s.table[i]? with
    | none => none
    | some e => s.dropRef h (s.table.set i (e.1, v))

def State.remove (s : State V) (h : Nat) : Option (State V) :=
  match s.find h with
  | none => some s
  | some i =>
    match s.table[i]? with
    | none => none
    | some e => s.dropRef e.1 (s.table.eraseIdx i)

def step (s : State V) : Act V → Option (State V)
  | .registry a address =>
    if s.spares a then
      match Registry.step s.registry a with
      | none => none
      | some registry => s.registryNext address registry
    else none
  | .insert h v => if s.owns h then s.insert h v else none
  | .remove h => if s.owns h then s.remove h else none

def empty : State V := ⟨Registry.empty, [], []⟩

def machine (V : Type) : Machine (State V) (Act V) where
  init s := s = empty
  step := step

/-! ## What the table is for -/

def State.socketOf (s : State V) (h : Nat) : Option Nat :=
  s.registry.handles[h]?.map Handle.socket

/-- A value for each socket, after the step. -/
def writes (s : State V) (m : Nat → Option V) : Act V → Nat → Option V
  | .registry _ _ => m
  | .insert h v =>
    match s.socketOf h with
    | none => m
    | some a => Function.update m a (some v)
  | .remove h =>
    match s.socketOf h with
    | none => m
    | some a => Function.update m a none

/-- And after a run. -/
def written : State V → List (Act V) → (Nat → Option V) → Nat → Option V
  | _, [], m => m
  | s, a :: rest, m =>
    match step s a with
    | none => m
    | some t => written t rest (writes s m a)

/-! ## Addresses -/

/-- No two `RefInner`s that are not gone are at one address. -/
structure Apart (s : State V) : Prop where
  faithful : Faithful s.registry
  sized : s.addresses.length = s.registry.inners.length
  apart : ∀ (q r : Nat) x y, s.registry.inners[q]? = some x → s.registry.inners[r]? = some y →
    x.stage ≠ .closed → y.stage ≠ .closed → s.addresses[q]? = s.addresses[r]? → q = r

theorem isFree_iff {s : State V} {address : Nat} : s.isFree address = true ↔
    ∀ (r : Nat) x, s.registry.inners[r]? = some x → x.stage ≠ .closed →
      s.addresses[r]? ≠ some address := by
  rw [State.isFree, List.all_eq_true]
  constructor
  · intro free r x hx going
    have here := free r (List.mem_range.mpr (lt_of_getElem? hx))
    simpa [hx, going] using here
  · intro free r _
    cases hx : s.registry.inners[r]? with
    | none => simp
    | some x =>
      by_cases closed : x.stage = .closed
      · simp [closed]
      · simpa [closed] using free r x hx closed

/-- What the registry does to the `RefInner`s: it makes one, or gets one closer to its end. -/
theorem inner_back {s t : Registry.State} {a : Registry.Act} (m : Registry.Move s a t) :
    (t.inners.length = s.inners.length ∧
      ∀ (r : Nat) x, t.inners[r]? = some x → ∃ y, s.inners[r]? = some y ∧
        (x.stage ≠ .closed → y.stage ≠ .closed)) ∨
      ∃ x, t.inners = s.inners ++ [x] := by
  have same : ∀ {t : Registry.State}, t.inners = s.inners →
      ∀ (r : Nat) x, t.inners[r]? = some x → ∃ y, s.inners[r]? = some y ∧
        (x.stage ≠ .closed → y.stage ≠ .closed) := by
    intro t inners r x hx
    exact ⟨x, inners ▸ hx, id⟩
  have restaged : ∀ {q : Nat} {w : RefInner} {stage : InnerStage}, s.inners[q]? = some w →
      w.stage ≠ .closed → ∀ (r : Nat) x, (s.inners.set q { w with stage })[r]? = some x →
        ∃ y, s.inners[r]? = some y ∧ (x.stage ≠ .closed → y.stage ≠ .closed) := by
    intro q w stage hw going r x hx
    rcases getElem?_set_cases hx with ⟨rfl, _⟩ | ⟨_, old⟩
    · exact ⟨w, hw, fun _ => going⟩
    · exact ⟨x, old, id⟩
  cases m with
  | file i n id hn hs dead => exact Or.inr ⟨_, rfl⟩
  | unfile r x hx hs free =>
    exact Or.inl ⟨List.length_set, restaged hx (by simp [hs])⟩
  | closeFd r x hx hs => exact Or.inl ⟨List.length_set, restaged hx (by simp [hs])⟩
  | _ => exact Or.inl ⟨rfl, same rfl⟩

theorem apart_registry {s t : State V} {address : Nat} {a : Registry.Act}
    {registry : Registry.State} (h : Apart s) (m : Registry.Move s.registry a registry)
    (next : s.registryNext address registry = some t) : Apart t := by
  have faithful := faithful_step h.faithful m
  rw [State.registryNext] at next
  rcases inner_back m with ⟨length, back⟩ | ⟨x, inners⟩
  · rw [if_neg (by omega)] at next
    cases next
    refine ⟨faithful, h.sized.trans length.symm, fun q r x y hx hy going going' same => ?_⟩
    obtain ⟨x', hx', before⟩ := back q x hx
    obtain ⟨y', hy', before'⟩ := back r y hy
    exact h.apart q r x' y' hx' hy' (before going) (before' going') same
  · rw [if_pos (by simp [inners])] at next
    obtain ⟨free, rfl⟩ := by simpa using next
    have free := isFree_iff.mp free
    have there : ∀ {r : Nat} {y : RefInner}, s.registry.inners[r]? = some y →
        (s.addresses ++ [address])[r]? = s.addresses[r]? := by
      intro r y hy
      exact List.getElem?_append_left (h.sized ▸ lt_of_getElem? hy)
    have last : (s.addresses ++ [address])[s.registry.inners.length]? = some address := by
      rw [← h.sized]
      exact List.getElem?_concat_length
    refine ⟨faithful, ?_, fun q r y z hy hz going going' same => ?_⟩
    · simp [inners, h.sized]
    · rw [inners] at hy hz
      rcases getElem?_push_cases hy with ⟨rfl, _⟩ | hy
      · rcases getElem?_push_cases hz with ⟨rfl, _⟩ | hz
        · rfl
        · rw [last, there hz] at same
          exact absurd same.symm (free r z hz going')
      · rcases getElem?_push_cases hz with ⟨rfl, _⟩ | hz
        · rw [last, there hy] at same
          exact absurd same (free q y hy going)
        · rw [there hy, there hz] at same
          exact h.apart q r y z hy hz going going' same

theorem identity_some {s : State V} {i : Nat} {y : Handle}
    (hy : s.registry.handles[i]? = some y) : s.identity i = s.addresses[y.inner]? := by
  rw [State.identity, hy]

/-- Of `Ref`s that are held the addresses agree exactly where the sockets do. -/
theorem Apart.identity_iff {s : State V} (h : Apart s) {i j : Nat} {y z : Handle}
    (hy : s.registry.handles[i]? = some y) (hz : s.registry.handles[j]? = some z)
    (held : y.held = true) (held' : z.held = true) :
    s.identity i = s.identity j ↔ y.socket = z.socket := by
  rw [identity_some hy, identity_some hz, ← h.faithful.isSame_iff hy hz held held',
    Handle.isSame, decide_eq_true_iff]
  constructor
  · intro same
    obtain ⟨p, hp, filed, _⟩ := h.faithful.held i y hy held
    obtain ⟨q, hq, filed', _⟩ := h.faithful.held j z hz held'
    exact h.apart _ _ p q hp hq (by simp [filed]) (by simp [filed']) same
  · intro same
    rw [same]

/-! ## Entries -/

/-- The keys are held, no two of them for one socket, and the entries are the values that
the sockets have. -/
structure Keyed (s : State V) (m : Nat → Option V) : Prop where
  apart : Apart s
  keys : ∀ e ∈ s.table, ∃ y, s.registry.handles[e.1]? = some y ∧ y.held = true
  unique : ∀ (i j : Nat) e f, s.table[i]? = some e → s.table[j]? = some f →
    s.socketOf e.1 = s.socketOf f.1 → i = j
  entry : ∀ a v, m a = some v ↔ ∃ e ∈ s.table, s.socketOf e.1 = some a ∧ e.2 = v

theorem socketOf_some {s : State V} {h : Nat} {y : Handle}
    (hy : s.registry.handles[h]? = some y) : s.socketOf h = some y.socket := by
  rw [State.socketOf, hy, Option.map_some]

/-- A key is equal to a `Ref` that is held exactly if it is for the same socket. -/
theorem Keyed.equal_iff {s : State V} {m : Nat → Option V} (k : Keyed s m) {h : Nat} {y : Handle}
    (hy : s.registry.handles[h]? = some y) (held : y.held = true) {e : Nat × V}
    (he : e ∈ s.table) :
    s.identity e.1 = s.identity h ↔ s.socketOf e.1 = some y.socket := by
  obtain ⟨z, hz, held'⟩ := k.keys e he
  rw [k.apart.identity_iff hz hy held' held, socketOf_some hz, Option.some.injEq]

theorem Keyed.find_none {s : State V} {m : Nat → Option V} (k : Keyed s m) {h : Nat} {y : Handle}
    (hy : s.registry.handles[h]? = some y) (held : y.held = true) (absent : s.find h = none) :
    m y.socket = none := by
  cases said : m y.socket with
  | none => rfl
  | some v =>
    obtain ⟨e, he, mine, _⟩ := (k.entry _ _).mp said
    have other := List.findIdx?_eq_none_iff.mp absent e he
    rw [decide_eq_false_iff_not] at other
    exact absurd ((k.equal_iff hy held he).mpr mine) other

theorem Keyed.find_some {s : State V} {m : Nat → Option V} (k : Keyed s m) {h i : Nat} {y : Handle}
    (hy : s.registry.handles[h]? = some y) (held : y.held = true) (found : s.find h = some i) :
    ∃ e, s.table[i]? = some e ∧ s.socketOf e.1 = some y.socket ∧ m y.socket = some e.2 := by
  obtain ⟨inside, same, _⟩ := List.findIdx?_eq_some_iff_getElem.mp found
  have there : s.table[i] ∈ s.table := List.getElem_mem inside
  have mine := (k.equal_iff hy held there).mp (by simpa using same)
  exact ⟨_, List.getElem?_eq_getElem inside, mine, (k.entry _ _).mpr ⟨_, there, mine, rfl⟩⟩

/-- Whatever `Ref` it is asked with, the table has the value of the socket. -/
theorem Keyed.get_eq {s : State V} {m : Nat → Option V} (k : Keyed s m) {h : Nat} {y : Handle}
    (hy : s.registry.handles[h]? = some y) (held : y.held = true) : s.get h = m y.socket := by
  rw [State.get]
  split
  · rename_i absent
    exact (k.find_none hy held absent).symm
  · rename_i i found
    obtain ⟨e, he, _, said⟩ := k.find_some hy held found
    rw [he, said, Option.map_some]

/-! ## What a step makes of the entries -/

theorem socketOf_kept {s t : State V} {a : Registry.Act}
    (m : Registry.Move s.registry a t.registry) {h : Nat} {y : Handle}
    (hy : s.registry.handles[h]? = some y) : t.socketOf h = s.socketOf h := by
  obtain ⟨y', hy', _, same, _⟩ := handle_kept m hy
  rw [socketOf_some hy, socketOf_some hy', same]

/-- `place` is where the entries were. Their keys have not been dropped. -/
theorem Keyed.rewrite {s t : State V} {m m' : Nat → Option V} (k : Keyed s m) (apart : Apart t)
    {a : Registry.Act} (move : Registry.Move s.registry a t.registry) (place : Nat → Nat)
    (once : ∀ i j, place i = place j → i = j)
    (back : ∀ (i : Nat) f, t.table[i]? = some f → ∃ e, s.table[place i]? = some e ∧ e.1 = f.1)
    (spared : ∀ f ∈ t.table, a ≠ .drop f.1)
    (entry : ∀ a v, m' a = some v ↔ ∃ e ∈ t.table, s.socketOf e.1 = some a ∧ e.2 = v) :
    Keyed t m' := by
  have known : ∀ f ∈ t.table, ∃ y, s.registry.handles[f.1]? = some y ∧ y.held = true := by
    intro f hf
    obtain ⟨i, hi⟩ := List.getElem?_of_mem hf
    obtain ⟨e, he, same⟩ := back i f hi
    exact same ▸ k.keys e (List.mem_of_getElem? he)
  have sockets : ∀ f ∈ t.table, t.socketOf f.1 = s.socketOf f.1 := by
    intro f hf
    obtain ⟨y, hy, _⟩ := known f hf
    exact socketOf_kept move hy
  refine ⟨apart, fun f hf => ?_, fun i j f g hf hg same => ?_, fun a v => ?_⟩
  · obtain ⟨y, hy, held⟩ := known f hf
    obtain ⟨y', hy', _, _, kept⟩ := handle_kept move hy
    exact ⟨y', hy', kept (spared f hf) ▸ held⟩
  · obtain ⟨e, he, ef⟩ := back i f hf
    obtain ⟨e', he', eg⟩ := back j g hg
    rw [sockets f (List.mem_of_getElem? hf), sockets g (List.mem_of_getElem? hg), ← ef, ← eg]
      at same
    exact once i j (k.unique _ _ e e' he he' same)
  · rw [entry]
    constructor
    · rintro ⟨e, he, mine, value⟩
      exact ⟨e, he, (sockets e he).trans mine, value⟩
    · rintro ⟨e, he, mine, value⟩
      exact ⟨e, he, (sockets e he).symm.trans mine, value⟩

theorem registryNext_eq {s t : State V} {address : Nat} {registry : Registry.State}
    (next : s.registryNext address registry = some t) :
    t.registry = registry ∧ t.table = s.table := by
  rw [State.registryNext] at next
  split at next
  · obtain ⟨_, rfl⟩ := by simpa using next
    exact ⟨rfl, rfl⟩
  · cases next
    exact ⟨rfl, rfl⟩

theorem isKey_iff {s : State V} {h : Nat} : s.isKey h = true ↔ ∃ e ∈ s.table, e.1 = h := by
  simp [State.isKey, List.any_eq_true]

theorem keyed_registry {s t : State V} {m : Nat → Option V} {a : Registry.Act} {address : Nat}
    {registry : Registry.State} (k : Keyed s m) (spares : s.spares a = true)
    (move : Registry.Move s.registry a registry)
    (next : s.registryNext address registry = some t) : Keyed t m := by
  have apart := apart_registry k.apart move next
  obtain ⟨rfl, table⟩ := registryNext_eq next
  refine k.rewrite apart move id (fun _ _ => id) ?_ ?_ ?_
  · intro i f hf
    exact ⟨f, table ▸ hf, rfl⟩
  · rintro f hf rfl
    have free : s.isKey f.1 = false := by simpa [State.spares] using spares
    rw [isKey_iff.mpr ⟨f, table ▸ hf, rfl⟩] at free
    cases free
  · intro a v
    rw [k.entry, table]

/-- Dropping a `Ref` leaves no two `RefInner`s at one address. -/
theorem apart_drop {s t : State V} {h : Nat} {table : List (Nat × V)} (ha : Apart s)
    (dropped : s.dropRef h table = some t) :
    Apart t ∧ Registry.Move s.registry (.drop h) t.registry ∧ t.table = table := by
  rw [State.dropRef] at dropped
  split at dropped
  · cases dropped
  · rename_i registry taken
    cases dropped
    have move := Registry.step_move taken
    have inners : registry.inners = s.registry.inners := by
      cases move
      rfl
    refine ⟨⟨faithful_step ha.faithful move, ?_, ?_⟩, move, rfl⟩
    · rw [inners]
      exact ha.sized
    · rw [inners]
      exact ha.apart

theorem owns_iff {s : State V} {h : Nat} : s.owns h = true ↔
    (∃ y, s.registry.handles[h]? = some y ∧ y.held = true) ∧ s.isKey h = false := by
  cases hy : s.registry.handles[h]? <;> simp [State.owns, hy]

/-- A value for a socket that has none. -/
theorem keyed_push {s : State V} {m : Nat → Option V} {h : Nat} {y : Handle} (k : Keyed s m)
    (hy : s.registry.handles[h]? = some y) (held : y.held = true) (absent : s.find h = none)
    (v : V) :
    Keyed { s with table := s.table ++ [(h, v)] } (Function.update m y.socket (some v)) := by
  have last : s.socketOf h = some y.socket := socketOf_some hy
  have new : ∀ e ∈ s.table, s.socketOf e.1 ≠ some y.socket := by
    intro e he mine
    have said := (k.entry y.socket e.2).mpr ⟨e, he, mine, rfl⟩
    rw [k.find_none hy held absent] at said
    cases said
  refine ⟨⟨k.apart.faithful, k.apart.sized, k.apart.apart⟩, ?_, ?_, ?_⟩
  · intro e he
    rcases List.mem_append.mp he with old | pushed
    · exact k.keys e old
    · rw [List.mem_singleton.mp pushed]
      exact ⟨y, hy, held⟩
  · intro i j e f he hf same
    rcases getElem?_push_cases he with ⟨rfl, rfl⟩ | he
    · rcases getElem?_push_cases hf with ⟨rfl, _⟩ | hf
      · rfl
      · exact absurd (same.symm.trans last) (new f (List.mem_of_getElem? hf))
    · rcases getElem?_push_cases hf with ⟨rfl, rfl⟩ | hf
      · exact absurd (same.trans last) (new e (List.mem_of_getElem? he))
      · exact k.unique i j e f he hf same
  · intro a w
    by_cases here : a = y.socket
    · subst here
      rw [Function.update_self, Option.some.injEq]
      constructor
      · rintro rfl
        exact ⟨(h, v), List.mem_append_right _ List.mem_cons_self, last, rfl⟩
      · rintro ⟨e, he, mine, rfl⟩
        rcases List.mem_append.mp he with old | pushed
        · exact absurd mine (new e old)
        · rw [List.mem_singleton.mp pushed]
    · rw [Function.update_of_ne here, k.entry]
      constructor
      · rintro ⟨e, he, mine, value⟩
        exact ⟨e, List.mem_append_left _ he, mine, value⟩
      · rintro ⟨e, he, mine, value⟩
        rcases List.mem_append.mp he with old | pushed
        · exact ⟨e, old, mine, value⟩
        · rw [List.mem_singleton.mp pushed] at mine
          exact absurd (Option.some.inj (mine.symm.trans last)) here

/-- The entry for a socket is the only one. -/
theorem Keyed.only {s : State V} {m : Nat → Option V} (k : Keyed s m) {i j a : Nat} {e f : Nat × V}
    (he : s.table[i]? = some e) (mine : s.socketOf e.1 = some a) (hf : s.table[j]? = some f)
    (other : j ≠ i) : s.socketOf f.1 ≠ some a :=
  fun same => other (k.unique j i f e hf he (same.trans mine.symm))

/-- The entry for another socket is another one. -/
theorem other_entry {s : State V} {i j a b : Nat} {e f : Nat × V} (he : s.table[i]? = some e)
    (mine : s.socketOf e.1 = some a) (hf : s.table[j]? = some f)
    (theirs : s.socketOf f.1 = some b) (apart : b ≠ a) : j ≠ i := by
  rintro rfl
  obtain rfl : e = f := Option.mem_unique he hf
  exact apart (Option.some.inj (theirs.symm.trans mine))

/-- Another value for a socket that has one. -/
theorem keyed_replace {s t : State V} {m : Nat → Option V} {h i a : Nat} {e : Nat × V} {v : V}
    (k : Keyed s m) (outside : s.isKey h = false) (he : s.table[i]? = some e)
    (mine : s.socketOf e.1 = some a) (next : s.dropRef h (s.table.set i (e.1, v)) = some t) :
    Keyed t (Function.update m a (some v)) := by
  obtain ⟨apart, move, table⟩ := apart_drop k.apart next
  have back : ∀ (j : Nat) f, t.table[j]? = some f →
      (j = i ∧ f = (e.1, v)) ∨ (j ≠ i ∧ s.table[j]? = some f) := by
    intro j f hf
    rw [table] at hf
    exact getElem?_set_cases hf
  refine k.rewrite apart move id (fun _ _ => id) ?_ ?_ ?_
  · intro j f hf
    rcases back j f hf with ⟨rfl, rfl⟩ | ⟨_, old⟩
    · exact ⟨e, he, rfl⟩
    · exact ⟨f, old, rfl⟩
  · intro f hf same
    obtain rfl : h = f.1 := Registry.Act.drop.inj same
    obtain ⟨j, hj⟩ := List.getElem?_of_mem hf
    have key : s.isKey f.1 = true := by
      rcases back j f hj with ⟨_, rfl⟩ | ⟨_, old⟩
      · exact isKey_iff.mpr ⟨e, List.mem_of_getElem? he, rfl⟩
      · exact isKey_iff.mpr ⟨f, List.mem_of_getElem? old, rfl⟩
    rw [outside] at key
    cases key
  · intro b w
    by_cases here : b = a
    · subst here
      rw [Function.update_self, Option.some.injEq]
      constructor
      · rintro rfl
        have put : t.table[i]? = some (e.1, v) := table ▸ List.getElem?_set_self (lt_of_getElem? he)
        exact ⟨(e.1, v), List.mem_of_getElem? put, mine, rfl⟩
      · rintro ⟨f, hf, same, rfl⟩
        obtain ⟨j, hj⟩ := List.getElem?_of_mem hf
        rcases back j f hj with ⟨_, rfl⟩ | ⟨other, old⟩
        · rfl
        · exact absurd same (k.only he mine old other)
    · rw [Function.update_of_ne here, k.entry]
      constructor
      · rintro ⟨f, hf, same, value⟩
        obtain ⟨j, hj⟩ := List.getElem?_of_mem hf
        have other : j ≠ i := other_entry he mine hj same here
        have kept : t.table[j]? = some f := table ▸ (List.getElem?_set_ne other.symm).trans hj
        exact ⟨f, List.mem_of_getElem? kept, same, value⟩
      · rintro ⟨f, hf, same, value⟩
        obtain ⟨j, hj⟩ := List.getElem?_of_mem hf
        rcases back j f hj with ⟨_, rfl⟩ | ⟨_, old⟩
        · exact absurd (Option.some.inj (same.symm.trans mine)) here
        · exact ⟨f, List.mem_of_getElem? old, same, value⟩

/-- The entry for a socket is taken out, and its key dropped. -/
theorem keyed_take {s t : State V} {m : Nat → Option V} {i a : Nat} {e : Nat × V}
    (k : Keyed s m) (he : s.table[i]? = some e) (mine : s.socketOf e.1 = some a)
    (next : s.dropRef e.1 (s.table.eraseIdx i) = some t) :
    Keyed t (Function.update m a none) := by
  obtain ⟨apart, move, table⟩ := apart_drop k.apart next
  have left : ∀ f, f ∈ t.table ↔ ∃ j, j ≠ i ∧ s.table[j]? = some f := by
    intro f
    rw [table]
    exact List.mem_eraseIdx_iff_getElem?
  refine k.rewrite apart move (fun j => if j < i then j else j + 1) ?_ ?_ ?_ ?_
  · intro j l same
    split at same <;> split at same <;> omega
  · intro j f hf
    rw [table, List.getElem?_eraseIdx] at hf
    refine ⟨f, ?_, rfl⟩
    split at hf
    · rename_i early
      rw [if_pos early]
      exact hf
    · rename_i late
      rw [if_neg late]
      exact hf
  · intro f hf same
    obtain ⟨j, other, hj⟩ := (left f).mp hf
    have key : e.1 = f.1 := Registry.Act.drop.inj same
    exact k.only he mine hj other (key ▸ mine)
  · intro b w
    by_cases here : b = a
    · subst here
      rw [Function.update_self]
      constructor
      · intro none
        cases none
      · rintro ⟨f, hf, same, _⟩
        obtain ⟨j, other, hj⟩ := (left f).mp hf
        exact absurd same (k.only he mine hj other)
    · rw [Function.update_of_ne here, k.entry]
      constructor
      · rintro ⟨f, hf, same, value⟩
        obtain ⟨j, hj⟩ := List.getElem?_of_mem hf
        exact ⟨f, (left f).mpr ⟨j, other_entry he mine hj same here, hj⟩, same, value⟩
      · rintro ⟨f, hf, same, value⟩
        obtain ⟨j, _, hj⟩ := (left f).mp hf
        exact ⟨f, List.mem_of_getElem? hj, same, value⟩

/-! ## Any number of steps -/

theorem keyed_step {s t : State V} {m : Nat → Option V} {a : Act V} (k : Keyed s m)
    (next : step s a = some t) : Keyed t (writes s m a) := by
  cases a with
  | registry a address =>
    simp only [step] at next
    split at next
    · rename_i spares
      split at next
      · cases next
      · rename_i registry taken
        exact keyed_registry k spares (Registry.step_move taken) next
    · cases next
  | insert h v =>
    obtain ⟨owned, next⟩ := by simpa [step] using next
    obtain ⟨⟨y, hy, held⟩, outside⟩ := owns_iff.mp owned
    rw [writes, socketOf_some hy]
    rw [State.insert] at next
    split at next
    · rename_i absent
      cases next
      exact keyed_push k hy held absent v
    · rename_i i found
      obtain ⟨e, he, mine, _⟩ := k.find_some hy held found
      rw [he] at next
      exact keyed_replace k outside he mine next
  | remove h =>
    obtain ⟨owned, next⟩ := by simpa [step] using next
    obtain ⟨⟨y, hy, held⟩, _⟩ := owns_iff.mp owned
    rw [writes, socketOf_some hy]
    rw [State.remove] at next
    split at next
    · rename_i absent
      cases next
      have nothing := k.find_none hy held absent
      rw [← nothing, Function.update_eq_self]
      exact k
    · rename_i i found
      obtain ⟨e, he, mine, _⟩ := k.find_some hy held found
      rw [he] at next
      exact keyed_take k he mine next

theorem keyed_exec {labels : List (Act V)} {s t : State V} {m : Nat → Option V} (k : Keyed s m)
    (run : exec (machine V) anyStep s labels = some t) : Keyed t (written s labels m) := by
  induction labels generalizing s m with
  | nil =>
    cases run
    exact k
  | cons a rest ih =>
    obtain ⟨u, _, taken, tail⟩ := exec_cons run
    rw [written, show step s a = some u from taken]
    exact ih (keyed_step k taken) tail

theorem empty_keyed : Keyed (empty : State V) fun _ => none where
  apart := ⟨empty_faithful, rfl, by simp [empty, Registry.empty]⟩
  keys := by simp [empty]
  unique := by simp [empty]
  entry := by simp [empty]

/-- In any run, a table asked with any `Ref` that is held has the value that was put in last
with a `Ref` to the same socket, if that was not removed since, and none otherwise; and it
has no two entries for one socket. So it is however the `Ref`s came, in whatever order they
are dropped, and wherever `RefInner`s are put. -/
theorem get_is_last_written {labels : List (Act V)} {s : State V}
    (run : exec (machine V) anyStep empty labels = some s) :
    (∀ (h : Nat) y, s.registry.handles[h]? = some y → y.held = true →
      s.get h = written empty labels (fun _ => none) y.socket) ∧
    ∀ (i j : Nat) e f, s.table[i]? = some e → s.table[j]? = some f →
      s.socketOf e.1 = s.socketOf f.1 → i = j := by
  have keyed := keyed_exec empty_keyed run
  exact ⟨fun h y hy held => keyed.get_eq hy held, keyed.unique⟩

/-- A capability is received and put in as a key, and then received once more. -/
def greetings : List (Act Nat) :=
  [.registry (.openSocket (1, 5)) 0, .registry (.dup 0) 0, .registry (.fromFd 0) 0,
    .registry (.make 0) 0, .registry (.make 0) 64, .insert 0 7, .registry (.fromFd 0) 0,
    .registry (.make 1) 0, .registry (.make 1) 0]

theorem get_is_last_written_twice :
    ∃ s, exec (machine Nat) anyStep empty greetings = some s ∧
      s.get 1 = written empty greetings (fun _ => none) 0 ∧ s.get 1 = some 7 := by
  have run : exec (machine Nat) anyStep empty greetings =
      some ⟨recognised, [64], [(0, 7)]⟩ := rfl
  have found := (get_is_last_written run).1 1 ⟨0, 0, true⟩ rfl rfl
  exact ⟨_, run, found, rfl⟩

end Peers
