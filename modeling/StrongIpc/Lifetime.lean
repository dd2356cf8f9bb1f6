import StrongIpc.RefCounts
import StrongIpc.Views

/-!
# A node lives exactly as long as it can be reached

Every descriptor this crate holds for the socket has one owner: a `from_fd` or a
death watch still under construction, a `RefInner`, or a drain task. With the
`Ref`s counted, none is left once the last `Ref` is gone and the drain tasks have
ended. The receive loop, left alone, ends when no descriptor at all names the
socket, and then it does.
-/

namespace Capability

open OutboxTraffic RefSender Roster StepMachine Wire

def Maker.fds (m : Maker) : List Nat := if m.stage = .done then [] else [m.fd]

def WatchStage.fds : WatchStage → List Nat
  | .setting d => [d]
  | .losing d => [d]
  | _ => []

/-- The field `fd`, until it is dropped. -/
def InnerStage.fds (fd : Nat) : InnerStage → List Nat
  | .live => [fd]
  | .dropping => [fd]
  | .unfiled => [fd]
  | .closed => []
  | .emptied => []
  | .dropped => []

/-- Its own descriptor until it is dropped, the death-watch dup it keeps, and the dups
of its drain tasks that have not ended. -/
def Inner.kept (x : Inner) : List Nat :=
  x.stage.fds x.fd ++ x.death.toList ++ x.sender.descriptors

/-- The dups of death watches not yet kept or dropped. -/
def Inner.building (x : Inner) : List Nat := x.watches.flatMap WatchStage.fds

def Inner.owned (d : Nat) (x : Inner) : Nat := x.kept.count d + x.building.count d

def Owned (s : State) : Prop :=
  ∀ d, s.fds.count d = total (Inner.owned d) s.inners + total (fun m => m.fds.count d) s.makers

/-! ## Each descriptor has one owner -/

theorem count_erase_add {fds : List Nat} {e : Nat} (there : e ∈ fds) (d : Nat) :
    (fds.erase e).count d + [e].count d = fds.count d := by
  have positive := List.count_pos_iff.mpr there
  rw [List.count_erase, List.count_singleton]
  by_cases same : e = d
  · subst same
    simp
    omega
  · simp [same]

theorem Owned.inner_le {s : State} (h : Owned s) {g : Nat} {x : Inner}
    (hx : s.inners[g]? = some x) (d : Nat) : x.owned d ≤ s.fds.count d := by
  have share := le_total (Inner.owned d) hx
  have := h d
  omega

theorem Owned.there {s : State} (h : Owned s) {g : Nat} {x : Inner} {d : Nat}
    (hx : s.inners[g]? = some x) (own : d ∈ x.kept ∨ d ∈ x.building) : d ∈ s.fds := by
  have share := h.inner_le hx d
  refine List.count_pos_iff.mp (Nat.lt_of_lt_of_le ?_ share)
  rcases own with kept | building
  · have := List.count_pos_iff.mpr kept
    simp only [Inner.owned]
    omega
  · have := List.count_pos_iff.mpr building
    simp only [Inner.owned]
    omega

theorem Owned.maker_there {s : State} (h : Owned s) {i : Nat} {m : Maker} {d : Nat}
    (hm : s.makers[i]? = some m) (own : d ∈ m.fds) : d ∈ s.fds := by
  have share := le_total (fun m : Maker => m.fds.count d) hm
  have positive := List.count_pos_iff.mpr own
  have := h d
  exact List.count_pos_iff.mp (by omega)

/-- Rewriting a `RefInner` trades its descriptors for those it has then. -/
theorem Owned.set {s t : State} {g : Nat} {x y : Inner} (h : Owned s)
    (hx : s.inners[g]? = some x) (inners : t.inners = s.inners.set g y)
    (makers : t.makers = s.makers)
    (balance : ∀ d, t.fds.count d + x.owned d = s.fds.count d + y.owned d) : Owned t := by
  intro d
  have trade := total_set (Inner.owned d) y hx
  have before := h d
  have mine := balance d
  rw [inners, makers]
  omega

theorem Owned.keep {s t : State} {g : Nat} {x y : Inner} (h : Owned s)
    (hx : s.inners[g]? = some x) (inners : t.inners = s.inners.set g y)
    (makers : t.makers = s.makers) (fds : t.fds = s.fds)
    (same : ∀ d, y.owned d = x.owned d) : Owned t :=
  h.set hx inners makers fun d => by rw [fds, same]

theorem Owned.congr {s t : State} (h : Owned s) (inners : t.inners = s.inners)
    (makers : t.makers = s.makers) (fds : t.fds = s.fds) : Owned t := by
  intro d
  rw [inners, makers, fds]
  exact h d

theorem Owned.setMaker {s : State} {i : Nat} {m : Maker} (h : Owned s)
    (hm : s.makers[i]? = some m) (stage : MakerStage)
    (same : Maker.fds { m with stage } = m.fds) : Owned (s.setMaker i m stage) := by
  intro d
  have kept := total_set_same (fun m : Maker => m.fds.count d) hm
    (b := { m with stage }) (by rw [same])
  exact (h d).trans (by simp only [State.setMaker, kept])

theorem owned_file {s : State} {i : Nat} {m : Maker} (h : Owned s) (hm : s.makers[i]? = some m)
    (hs : m.stage = .entered) (runtime : Bool) : Owned (s.fileNew i m runtime) := by
  intro d
  have trade := total_set (fun m : Maker => m.fds.count d) { m with stage := .done } hm
  have before := h d
  have gave : m.fds = [m.fd] := by simp [Maker.fds, hs]
  have took : Inner.owned d (newInner m.fd runtime) = [m.fd].count d := by
    simp [Inner.owned, Inner.kept, Inner.building, newInner, InnerStage.fds, Sender.descriptors,
      fresh]
  have out : Maker.fds { m with stage := .done } = [] := rfl
  rw [gave, out] at trade
  simp only [State.fileNew, State.setMaker, total_append, total_cons, total_nil, took,
    List.count_nil] at trade ⊢
  omega

theorem owned_finish {s : State} {i : Nat} {m : Maker} (h : Owned s)
    (hm : s.makers[i]? = some m) (hs : m.stage = .hit) :
    Owned ((s.setMaker i m .done).closeFd m.fd) := by
  have gave : m.fds = [m.fd] := by simp [Maker.fds, hs]
  have there : m.fd ∈ s.fds := h.maker_there hm (by simp [gave])
  intro d
  have trade := total_set (fun m : Maker => m.fds.count d) { m with stage := .done } hm
  have before := h d
  have closed := count_erase_add there d
  have out : Maker.fds { m with stage := .done } = [] := rfl
  rw [gave, out] at trade
  simp only [State.setMaker, State.closeFd, List.count_nil] at trade ⊢
  omega

theorem building_set {x : Inner} {i : Nat} {old : WatchStage} (hi : x.watches[i]? = some old)
    (new : WatchStage) (d : Nat) :
    (x.setWatch i new).building.count d + old.fds.count d =
      x.building.count d + new.fds.count d := by
  rw [Inner.building, Inner.building, count_flatMap, count_flatMap]
  exact total_set (fun w : WatchStage => w.fds.count d) new hi

theorem walk_fds {x : Inner} {old new : WatchStage} (walk : WatchWalk x old new) :
    new.fds = old.fds := by
  cases walk <;> rfl

/-! ## A step of a call or a drain task -/

theorem shut_le {me : Nat} {w w' : World} {a : RefSender.Act} (m : RefSender.Move me w a w')
    (d : Nat) : (w.sender.shut a).count d ≤ w.sender.descriptors.count d := by
  have step := fds_step m d
  cases a with
  | drain o a =>
    have spawned : duped w.sender w'.sender (.drain o a) = [] := rfl
    rw [spawned, List.count_nil] at step
    omega
  | _ => exact Nat.zero_le _

theorem fds_count (fds : List Nat) (before after : Sender) (a : RefSender.Act)
    (there : ∀ e ∈ before.shut a, e ∈ fds) (d : Nat) :
    (fdsAfter fds before after a).count d + (before.shut a).count d =
      fds.count d + (duped before after a).count d := by
  cases a with
  | build i dup =>
    cases dup with
    | none => rfl
    | some n =>
      simp only [fdsAfter, Sender.shut, duped]
      split
      · simp only [List.count_cons, List.count_nil]
        omega
      · rfl
  | drain o a =>
    cases hb : before.boxes[o]? with
    | none => simp [fdsAfter, Sender.shut, duped, hb]
    | some b =>
      cases last : a.isLast with
      | true =>
        have closed := count_erase_add (there b.dup (by simp [Sender.shut, hb, last])) d
        simpa [fdsAfter, Sender.shut, duped, hb, last] using closed
      | false => simp [fdsAfter, Sender.shut, duped, hb, last]
  | _ => rfl

theorem shut_there {s : State} {g : Nat} {a : RefSender.Act} {x : Inner} {w : World}
    (h : Owned s) (hx : s.inners[g]? = some x)
    (m : RefSender.Move (g + 1) (s.view x) a w) : ∀ e ∈ x.sender.shut a, e ∈ s.fds := by
  intro e he
  refine h.there hx (Or.inl (List.mem_append_right _ ?_))
  have le := shut_le m e
  have positive := List.count_pos_iff.mpr he
  exact List.count_pos_iff.mp (Nat.lt_of_lt_of_le positive le)

theorem owned_take {s : State} {g : Nat} {a : RefSender.Act} {x : Inner} {w : World}
    (h : Owned s) (hx : s.inners[g]? = some x)
    (hw : RefSender.step (g + 1) (s.view x) a = some w) : Owned (s.taken g x a w) := by
  have m := RefSender.step_move hw
  refine h.set hx rfl rfl fun d => ?_
  have table := fds_count s.fds x.sender w.sender a (shut_there h hx m) d
  have tasks := fds_step m d
  simp only [State.taken, Inner.owned, Inner.kept, Inner.building, List.count_append,
    State.view] at tasks ⊢
  omega

/-- A field of a `RefInner` is dropped, and one descriptor with it. -/
theorem owned_close {s : State} (h : Owned s) {g : Nat} {x y : Inner} {e : Nat}
    (hx : s.inners[g]? = some x) (own : e ∈ x.kept ∨ e ∈ x.building)
    (less : ∀ d, y.owned d + [e].count d = x.owned d) : Owned ((s.setInner g y).closeFd e) := by
  refine h.set hx rfl rfl fun d => ?_
  have closed := count_erase_add (h.there hx own) d
  have mine := less d
  simp only [State.closeFd, State.setInner]
  omega

theorem release_fds {x : Inner} {sender : Sender} (hr : x.sender.releaseOnce = some sender)
    (d : Nat) : sender.descriptors.count d = x.sender.descriptors.count d := by
  have closed := fds_step (release_anywhere hr) d
  simpa [Sender.shut, duped] using closed

theorem owned_step {s t : State} {a : Act} (hp : AllProper s) (h : Owned s) (m : Move s a t) :
    Owned t := by
  cases m with
  | fromFd d some_raw unused =>
    intro e
    have before := h e
    have new : Maker.fds ⟨d, .entered⟩ = [d] := rfl
    simp only [State.openFd, total_append, total_cons, total_nil, new, List.count_cons,
      List.count_nil] at before ⊢
    omega
  | revive i runtime m g x hm hs hx held =>
    have gained : Owned (s.gain g x) := h.keep hx rfl rfl rfl fun _ => rfl
    exact gained.setMaker hm .hit (by simp [Maker.fds, hs])
  | file i runtime m hm hs => exact owned_file h hm hs runtime
  | finish i runtime m hm hs => exact owned_finish h hm hs
  | clone g x hx held => exact h.keep hx rfl rfl rfl fun _ => rfl
  | drop g x hx held enough =>
    refine h.keep hx rfl rfl rfl fun d => ?_
    by_cases last : x.strong = 1
    · have live : x.stage = .live := (hp g x hx).held.mpr (by omega)
      simp [Inner.owned, Inner.kept, Inner.building, last, live, InnerStage.fds]
    · simp [Inner.owned, Inner.kept, Inner.building, last]
  | unfile g x hx hs =>
    refine h.keep hx rfl rfl rfl fun d => ?_
    simp [Inner.owned, Inner.kept, Inner.building, hs, InnerStage.fds]
  | dropFd g x hx hs =>
    apply owned_close h hx (Or.inl (by simp [Inner.kept, hs, InnerStage.fds]))
    intro d
    simp only [Inner.owned, Inner.kept, Inner.building, hs, InnerStage.fds, List.count_append,
      List.count_nil]
    omega
  | dropOutbox g x sender hx hs hr =>
    refine h.keep hx rfl rfl rfl fun d => ?_
    have same := release_fds hr d
    simp only [Inner.owned, Inner.kept, Inner.building, hs, InnerStage.fds, List.count_append,
      same]
  | dropUnwatched g x hx hs hd =>
    refine h.keep hx rfl rfl rfl fun d => ?_
    simp [Inner.owned, Inner.kept, Inner.building, hs, InnerStage.fds]
  | dropDeath g x d hx hs hd =>
    apply owned_close h hx (Or.inl (by simp [Inner.kept, hd]))
    intro e
    simp only [Inner.owned, Inner.kept, Inner.building, hs, hd, InnerStage.fds,
      List.count_append, List.count_nil, Option.toList]
    omega
  | take g a x w hx may hw => exact owned_take h hx hw
  | watch g x hx held =>
    refine h.keep hx rfl rfl rfl fun d => ?_
    simp [Inner.owned, Inner.kept, Inner.building, WatchStage.fds]
  | rewatch a g i x old new hx hi walk =>
    refine h.keep hx rfl rfl rfl fun d => ?_
    have same := building_set hi new d
    rw [walk_fds walk] at same
    have kept : (x.setWatch i new).kept = x.kept := rfl
    rw [Inner.owned, Inner.owned, kept]
    omega
  | keep g i x d hx hi hd =>
    refine h.keep hx rfl rfl rfl fun e => ?_
    have moved := building_set hi .waiting e
    have same : Inner.building { x.setWatch i .waiting with death := some d } =
      (x.setWatch i .waiting).building := rfl
    have given : WatchStage.waiting.fds = [] ∧ (WatchStage.setting d).fds = [d] := ⟨rfl, rfl⟩
    rw [Inner.owned, Inner.owned, same]
    rw [given.1, given.2] at moved
    simp only [Inner.kept, Inner.setWatch, hd, List.count_append, List.count_nil,
      Option.toList] at moved ⊢
    omega
  | lost g i x d hx hi =>
    have own : d ∈ x.building :=
      List.mem_flatMap.mpr ⟨_, List.mem_of_getElem? hi, List.mem_singleton_self d⟩
    apply owned_close h hx (Or.inr own)
    intro e
    have moved := building_set hi .waiting e
    have given : WatchStage.waiting.fds = [] ∧ (WatchStage.losing d).fds = [d] := ⟨rfl, rfl⟩
    have kept : (x.setWatch i .waiting).kept = x.kept := rfl
    rw [given.1, given.2, List.count_nil] at moved
    rw [Inner.owned, Inner.owned, kept]
    omega
  | built g i x d hx hi unused =>
    refine h.set hx rfl rfl fun e => ?_
    have moved := building_set hi (.setting d) e
    have given : WatchStage.building.fds = [] ∧ (WatchStage.setting d).fds = [d] := ⟨rfl, rfl⟩
    have kept : (x.setWatch i (.setting d)).kept = x.kept := rfl
    rw [given.1, given.2, List.count_nil] at moved
    rw [Inner.owned, Inner.owned, kept]
    simp only [State.openFd, State.setInner, List.count_cons, List.count_nil] at moved ⊢
    omega
  | recv p hp hl =>
    rw [State.received]
    split
    · exact h.congr rfl rfl rfl
    · split <;> exact h.congr rfl rfl rfl
  | _ => exact h.congr rfl rfl rfl

theorem owned {guard : State → Act → Prop} {s : State} (h : Reachable machine guard s) :
    Owned s := by
  refine reachable_invariant_with (Q := AllProper) (P := Owned) (fun _ => proper) ?_ ?_ h
  · rintro s ⟨room, rfl⟩ d
    rfl
  · intro s a t hp ho _ hstep
    exact owned_step hp ho (step_move hstep)

/-! ## Between constructions -/

/-- No `from_fd` is under way, and no death watch between its dup and keeping or
dropping it. -/
structure Settled (s : State) : Prop where
  makers : ∀ m ∈ s.makers, m.stage = .done
  watches : ∀ x ∈ s.inners, ∀ w ∈ x.watches, ∀ d, w ≠ .setting d ∧ w ≠ .losing d

/-- No `Ref` is in a variable or on a message, and no drop of one is still running. -/
structure NoRefs (s : State) : Prop where
  hands : s.hands = []
  messages : ∀ x ∈ s.inners, ∀ m ∈ x.sender.messages, m.refs = []
  dropped : ∀ x ∈ s.inners, x.stage = .live ∨ x.stage = .dropped

def DrainsEnded (s : State) : Prop :=
  ∀ x ∈ s.inners, ∀ b ∈ x.sender.boxes, b.outbox.drain = .ended

theorem Settled.built {s : State} (h : Settled s) {x : Inner} (hx : x ∈ s.inners) :
    x.building = [] := by
  apply List.flatMap_eq_nil_iff.mpr
  intro w hw
  cases w with
  | setting d => exact absurd rfl (h.watches x hx _ hw d).1
  | losing d => exact absurd rfl (h.watches x hx _ hw d).2
  | _ => rfl

theorem settled_fds {s : State} (h : Owned s) (hs : Settled s) :
    s.fds.Perm (s.inners.flatMap Inner.kept) := by
  apply List.perm_iff_count.mpr
  intro d
  have makers : total (fun m : Maker => m.fds.count d) s.makers = 0 :=
    total_eq_zero fun m hm => by simp [Maker.fds, hs.makers m hm]
  have inners : total (Inner.owned d) s.inners = total (fun x => x.kept.count d) s.inners :=
    total_congr fun x hx => by simp [Inner.owned, hs.built hx]
  rw [count_flatMap, h d, makers, inners, Nat.add_zero]

theorem NoRefs.zero {s : State} (h : NoRefs s) (hc : Counted s.inners s.hands) {g : Nat}
    {x : Inner} (hx : s.inners[g]? = some x) : x.strong = 0 := by
  have own := hc g
  have nothing : total (Inner.carries g) s.inners = 0 := by
    refine total_eq_zero fun z hz => total_eq_zero fun m hm => ?_
    rw [h.messages z hz m hm, List.count_nil]
  rw [strongOf_some hx, nothing, h.hands, List.count_nil] at own
  omega

theorem NoRefs.kept_nothing {s : State} (h : NoRefs s) (hc : Counted s.inners s.hands)
    (hp : AllProper s) (ended : DrainsEnded s) {x : Inner} (hx : x ∈ s.inners) :
    x.kept = [] := by
  obtain ⟨g, hg⟩ := List.getElem?_of_mem hx
  have zero := h.zero hc hg
  obtain ⟨held, _, buried⟩ := hp g x hg
  have dropped : x.stage = .dropped := by
    rcases h.dropped x hx with live | dropped
    · have := held.mp live
      omega
    · exact dropped
  have tasks : x.sender.descriptors = [] :=
    List.flatMap_eq_nil_iff.mpr fun b hb => by simp [Box.fds, ended x hx b hb]
  simp [Inner.kept, dropped, InnerStage.fds, buried dropped, tasks]

theorem nothing_left {s : State} (h : Owned s) (hc : Counted s.inners s.hands)
    (hp : AllProper s) (hs : Settled s) (hn : NoRefs s) (ended : DrainsEnded s) : s.fds = [] := by
  have perm := settled_fds h hs
  have none_kept : s.inners.flatMap Inner.kept = [] :=
    List.flatMap_eq_nil_iff.mpr fun x hx => hn.kept_nothing hc hp ended hx
  rw [none_kept] at perm
  exact perm.eq_nil

/-! ## The task of a losing racer -/

theorem boxes_grow {me : Nat} {w w' : World} {a : RefSender.Act}
    (m : RefSender.Move me w a w') : w.sender.boxes.length ≤ w'.sender.boxes.length := by
  cases m <;> simp

/-- The `OnceLock` of the `RefInner` is taken, and not by outbox `o`. -/
def Passed (g o : Nat) (s : State) : Prop :=
  ∃ x, s.inners[g]? = some x ∧ o < x.sender.boxes.length ∧ x.sender.once ≠ none ∧
    x.sender.once ≠ some o

theorem passed_step {g o : Nat} {s t : State} {a : Act} (hp : Projected anyStep s)
    (h : Passed g o s) (m : Move s a t) : Passed g o t := by
  obtain ⟨x, hx, built, taken, other⟩ := h
  obtain ⟨y, hy, same | ⟨b, hb, _⟩⟩ := sees_step m hp.stamped hx
  · have sender : y.sender = x.sender := congrArg World.sender same
    exact ⟨y, hy, by rw [sender]; exact ⟨built, taken, other⟩⟩
  · have moved := RefSender.step_move hb
    have grown : x.sender.boxes.length ≤ y.sender.boxes.length := boxes_grow moved
    rcases once_move moved with once | ⟨_, _, _, _, _, unset, _⟩
    · have once : y.sender.once = x.sender.once := once
      exact ⟨y, hy, by omega, by rw [once]; exact ⟨taken, other⟩⟩
    · exact absurd unset taken

/-- The drain task of an outbox whose builder finds the `OnceLock` taken never has a
message. -/
theorem loser_untouched {guard : State → Act → Prop} {s t : State}
    (h : Reachable machine guard s) (run : Steps machine guard s t) {g i o : Nat} {x : Inner}
    {c : Call} (hx : s.inners[g]? = some x) (hc : x.sender.calls[i]? = some c)
    (owns : c.stage.owns = some o) (taken : x.sender.once ≠ none) :
    ∃ y b, t.inners[g]? = some y ∧ y.sender.boxes[o]? = some b ∧ y.sender.once ≠ some o ∧
      Untouched b.outbox := by
  have linked := linked ((projected_any h).own_run g x hx)
  obtain ⟨built, other⟩ := linked.owns_built i c o hc owns
  have start : Passed g o s := ⟨x, hx, built, taken, other⟩
  have finish : Passed g o t :=
    steps_invariant_with (Q := Projected anyStep) (fun _ => projected_any)
      (fun _ _ _ hp hs _ hstep => passed_step hp hs (step_move hstep)) h run start
  obtain ⟨y, hy, inside, _, apart⟩ := finish
  have hb := List.getElem?_eq_getElem inside
  have sound := sound ((projected_any (reachable_steps h run)).own_run g y hy)
  exact ⟨y, _, hy, hb, apart, (sound o _ hb).untouched apart⟩

/-! ## Nobody can reach the node any more -/

theorem unnamed_iff {s : State} : s.isNamed = false ↔ s.raws = 0 ∧ s.fds = [] := by
  simp [State.isNamed]

/-- The invariants that say where `Ref`s and descriptors are. -/
structure Kept (s : State) : Prop where
  counted : Counted s.inners s.hands
  proper : AllProper s
  owned : Owned s

theorem kept {guard : State → Act → Prop} {s : State} (h : Reachable machine guard s) : Kept s :=
  ⟨counted h, proper h, owned h⟩

/-- A borrowed `Ref` keeps its `RefInner` alive, and that keeps its descriptor open. -/
theorem Kept.borrowed {s : State} (h : Kept s) {g : Nat} {x : Inner}
    (hx : s.inners[g]? = some x) (borrowed : x.isBorrowed = true) : s.fds ≠ [] := by
  obtain ⟨held, there, _⟩ := h.proper g x hx
  have live := held.mpr (h.counted.positive hx (there borrowed))
  have own : x.fd ∈ s.fds :=
    h.owned.there hx (Or.inl (by simp [Inner.kept, live, InnerStage.fds]))
  exact List.ne_nil_of_mem own

/-- With no call going on and no drain task running, nothing is built or sent. -/
theorem quiet_step {me : Nat} {w w' : World} {a : RefSender.Act} (m : RefSender.Move me w a w')
    (own : a.isOutside = false) (idle : w.sender.isBusy = false)
    (ended : w.sender.descriptors = []) :
    duped w.sender w'.sender a = [] ∧ w'.socket.wire = w.socket.wire := by
  have nobody : ∀ {i : Nat} {c : Call}, w.sender.calls[i]? = some c → c.stage.isOver = false →
      False := by
    intro i c hc going
    have busy := busy_of_call hc going
    rw [idle] at busy
    cases busy
  cases m with
  | room b => cases own
  | peerClose => cases own
  | other p foreign => cases own
  | inline i c r k hc hs hk => exact (nobody hc (by rw [hs]; rfl)).elim
  | built i c next d hc hs => exact (nobody hc (by rw [hs]; rfl)).elim
  | noRuntime i c next dup hc hs bare => exact (nobody hc (by rw [hs]; rfl)).elim
  | drain o a b k x hb hk hm =>
    have done : b.outbox.drain = .ended := by
      have none_here := List.flatMap_eq_nil_iff.mp ended b (List.mem_of_getElem? hb)
      by_contra running
      simp [Box.fds, running] at none_here
    have still : w.socket = k := by
      cases a with
      | sendmsg r => simp [drainSocket, done] at hk
      | _ => exact Option.some.inj hk
    exact ⟨rfl, by rw [still]⟩
  | _ => exact ⟨rfl, rfl⟩

theorem unnamed_take {s : State} (h : Kept s) {g : Nat} {a : RefSender.Act} {x : Inner}
    {w : World} (hx : s.inners[g]? = some x) (may : s.mayTake g a = true)
    (hw : RefSender.step (g + 1) (s.view x) a = some w) (none_raw : s.raws = 0)
    (closed : s.fds = []) :
    (s.taken g x a w).raws = 0 ∧ (s.taken g x a w).fds = [] ∧ w.socket.wire = s.socket.wire := by
  have m := RefSender.step_move hw
  have idle : x.sender.isBusy = false := by
    by_contra busy
    refine h.borrowed hx ?_ closed
    rw [Inner.isBorrowed, show (x.sender.calls.any _) = true from Bool.not_eq_false _ ▸ busy,
      Bool.true_or]
  have ended : x.sender.descriptors = [] := by
    apply List.eq_nil_iff_forall_not_mem.mpr
    intro d hd
    have there := h.owned.there hx (Or.inl (List.mem_append_right _ hd))
    rw [closed] at there
    cases there
  obtain ⟨spawned, wire⟩ := quiet_step m (mayTake_own may) idle ended
  refine ⟨?_, ?_, wire⟩
  · simp only [State.taken, inFlight, none_raw, show w.socket.wire = s.socket.wire from wire,
      List.drop_length, total_nil]
  · apply List.eq_nil_iff_forall_not_mem.mpr
    intro d hd
    have table := fds_count s.fds x.sender w.sender a (shut_there h.owned hx m) d
    have positive := List.count_pos_iff.mpr hd
    rw [show duped x.sender w.sender a = [] from spawned, closed, List.count_nil] at table
    simp only [State.taken, closed] at positive
    omega

/-- A socket that no descriptor names is never named again, and nothing more is sent. -/
theorem unnamed_step {s t : State} {a : Act} (h : Kept s) (m : Move s a t)
    (unnamed : s.isNamed = false) :
    t.isNamed = false ∧ t.socket.wire = s.socket.wire := by
  obtain ⟨none_raw, closed⟩ := unnamed_iff.mp unnamed
  have maker : ∀ {i : Nat} {m : Maker}, s.makers[i]? = some m → m.stage ≠ .done → False := by
    intro i m hm busy
    have there := h.owned.maker_there hm (d := m.fd) (by simp [Maker.fds, busy])
    rw [closed] at there
    cases there
  have same : ∀ {t : State}, t.raws = s.raws → t.fds = s.fds → t.isNamed = false :=
    fun raws fds => unnamed_iff.mpr ⟨raws.trans none_raw, fds.trans closed⟩
  have fewer : ∀ {t : State} {d : Nat}, t.raws = s.raws → t.fds = s.fds.erase d →
      t.isNamed = false := by
    intro t d raws fds
    exact unnamed_iff.mpr ⟨raws.trans none_raw, by rw [fds, closed]; rfl⟩
  cases m with
  | dup named =>
    rw [unnamed] at named
    cases named
  | close some_raw => omega
  | other m some_raw peerOpen => omega
  | fromFd d some_raw unused => omega
  | revive i runtime m g x hm hs hx held => exact (maker hm (by simp [hs])).elim
  | file i runtime m hm hs => exact (maker hm (by simp [hs])).elim
  | finish i runtime m hm hs => exact (maker hm (by simp [hs])).elim
  | dropFd g x hx hs => exact ⟨fewer rfl rfl, rfl⟩
  | dropDeath g x d hx hs hd => exact ⟨fewer rfl rfl, rfl⟩
  | lost g i x d hx hi => exact ⟨fewer rfl rfl, rfl⟩
  | take g a x w hx may hw =>
    obtain ⟨raws, fds, wire⟩ := unnamed_take h hx may hw none_raw closed
    exact ⟨unnamed_iff.mpr ⟨raws, fds⟩, wire⟩
  | built g i x d hx hi unused =>
    exact absurd closed (h.borrowed hx (borrowed_watch hi (by simp)))
  | recv p hp hl =>
    refine ⟨?_, received_wire s p.message⟩
    rw [State.received]
    split
    · exact same rfl rfl
    · split <;> exact same rfl rfl
  | _ => exact ⟨same rfl rfl, rfl⟩

/-! ## The receive loop -/

/-- The loop is not ended by an empty message, a failing `recvmsg`, a panicking handler
or the drop of an armed `Node`. -/
def undisturbed (s : State) : Act → Bool
  | .recv => s.socket.wire[s.read]?.all fun p => p.message.data != []
  | .recvFails => false
  | .panic => false
  | .abort => false
  | _ => true

def Undisturbed (s : State) (a : Act) : Prop := undisturbed s a = true

instance (s : State) (a : Act) : Decidable (Undisturbed s a) := inferInstanceAs (Decidable (_ = _))

/-- The loop has ended only because nothing was left that could reach it. -/
def EndedAlone (s : State) : Prop :=
  s.loop = .ended → s.isNamed = false ∧ s.socket.wire.length ≤ s.read

theorem endedAlone_step {s t : State} {a : Act} (hk : Kept s) (h : EndedAlone s)
    (ok : Undisturbed s a) (m : Move s a t) : EndedAlone t := by
  have stays := unnamed_step hk m
  have idle : t.loop = s.loop → t.read = s.read → EndedAlone t := by
    intro loop read done
    obtain ⟨unnamed, all_read⟩ := h (loop.symm.trans done)
    obtain ⟨still, wire⟩ := stays unnamed
    exact ⟨still, by rw [wire, read]; exact all_read⟩
  cases m with
  | recv p hp hl =>
    intro done
    have filled : p.message.data ≠ [] := by simpa [Undisturbed, undisturbed, hp] using ok
    rw [State.received, if_neg filled] at done
    split at done
    · rw [show s.loop = .ended from done] at hl
      cases hl
    · cases done
  | handled hl =>
    intro done
    cases done
  | hangup hl all_read unnamed =>
    intro _
    exact ⟨unnamed, all_read⟩
  | recvFails hl => cases ok
  | panic hl => cases ok
  | abort armed => cases ok
  | _ => exact idle rfl rfl

theorem endedAlone {guard : State → Act → Prop} (left_alone : ∀ s a, guard s a → Undisturbed s a)
    {s : State} (h : Reachable machine guard s) : EndedAlone s := by
  refine reachable_invariant_with (Q := Kept) (P := EndedAlone) (fun _ => kept) ?_ ?_ h
  · rintro s ⟨room, rfl⟩ done
    cases done
  · intro s a t hk he ok hstep
    exact endedAlone_step hk he (left_alone s a ok) (step_move hstep)

/-- The steps of the loop itself. -/
def LoopOnly (_ : State) (a : Act) : Prop := a = .recv ∨ a = .handled ∨ a = .hangup

/-- A loop that nobody can reach receives what is left and hangs up. -/
theorem receiving_ends (unread : Nat) : ∀ s : State, s.isNamed = false → s.loop = .receiving →
    s.socket.wire.length - s.read = unread →
    ∃ t, Steps machine LoopOnly s t ∧ t.loop = .ended := by
  induction unread with
  | zero =>
    intro s unnamed hl all_read
    have hung : step s .hangup = some s.endLoop := by
      rw [step, if_pos ⟨hl, by omega, unnamed⟩]
    exact ⟨s.endLoop, .single ⟨.hangup, Or.inr (Or.inr rfl), hung⟩, rfl⟩
  | succ unread ih =>
    intro s unnamed hl left
    have inside : s.read < s.socket.wire.length := by omega
    obtain ⟨p, hp⟩ : ∃ p, s.socket.wire[s.read]? = some p :=
      ⟨_, List.getElem?_eq_getElem inside⟩
    have received : step s .recv = some (s.received p.message) := by
      simp only [step, hp, if_pos hl]
    have first : Next machine LoopOnly s (s.received p.message) := ⟨.recv, Or.inl rfl, received⟩
    rw [State.received] at first
    split at first
    · exact ⟨_, .single first, rfl⟩
    · split at first
      · obtain ⟨t, run, done⟩ := ih { s with read := s.read + 1 } unnamed hl
          (show s.socket.wire.length - (s.read + 1) = unread by omega)
        exact ⟨t, .head first run, done⟩
      · obtain ⟨t, run, done⟩ := ih { s with read := s.read + 1, loop := .receiving } unnamed rfl
          (show s.socket.wire.length - (s.read + 1) = unread by omega)
        refine ⟨t, .head first (.head ⟨.handled, Or.inr (Or.inl rfl), ?_⟩ run), done⟩
        rfl

theorem loop_ends {s : State} (unnamed : s.isNamed = false) (going : s.loop ≠ .ended) :
    ∃ t, Steps machine LoopOnly s t ∧ t.loop = .ended := by
  cases hl : s.loop with
  | receiving => exact receiving_ends _ s unnamed hl rfl
  | handling =>
    obtain ⟨t, run, done⟩ := receiving_ends _ { s with loop := .receiving } unnamed rfl rfl
    have handled : step s .handled = some { s with loop := .receiving } := by
      rw [step, if_pos hl]
    exact ⟨t, .head ⟨.handled, Or.inr (Or.inl rfl), handled⟩ run, done⟩
  | ended => exact absurd hl going

/-- In every run: between constructions the descriptors held are those of the `RefInner`s,
their kept death watches and their drain tasks; the drain task of an outbox that is not in
the `OnceLock` has no message, and a losing racer's never gets there; with the last `Ref`
gone and the drain tasks ended nothing is held. The receive loop, left alone, ends only when
no descriptor at all names the socket; once none does none ever will, and the loop comes to
its end. -/
theorem lives_while_reached {guard : State → Act → Prop} {s : State}
    (h : Reachable machine guard s) :
    (Settled s → s.fds.Perm (s.inners.flatMap Inner.kept)) ∧
      (∀ (g o : Nat) (x : Inner) (b : Box), s.inners[g]? = some x →
        x.sender.boxes[o]? = some b → x.sender.once ≠ some o → Untouched b.outbox) ∧
      (∀ (g i o : Nat) (x : Inner) (c : Call), s.inners[g]? = some x →
        x.sender.calls[i]? = some c → c.stage.owns = some o → x.sender.once ≠ none →
        ∀ t, Steps machine guard s t →
          ∃ y b, t.inners[g]? = some y ∧ y.sender.boxes[o]? = some b ∧
            y.sender.once ≠ some o ∧ Untouched b.outbox) ∧
      (NoRefs s → Settled s → DrainsEnded s → s.fds = []) ∧
      ((∀ s a, guard s a → Undisturbed s a) → s.loop = .ended →
        s.isNamed = false ∧ s.socket.wire.length ≤ s.read) ∧
      (s.isNamed = false → (∀ t, Steps machine guard s t → t.isNamed = false) ∧
        (s.loop ≠ .ended → ∃ t, Steps machine LoopOnly s t ∧ t.loop = .ended)) := by
  have hk := kept h
  refine ⟨settled_fds hk.owned, ?_, ?_, ?_, ?_, ?_⟩
  · intro g o x b hx hb other
    exact (sound ((projected_any h).own_run g x hx) o b hb).untouched other
  · intro g i o x c hx hc owns taken t run
    exact loser_untouched h run hx hc owns taken
  · intro hn hs ended
    exact nothing_left hk.owned hk.counted hk.proper hs hn ended
  · exact fun left_alone => endedAlone left_alone h
  · intro unnamed
    refine ⟨fun t run => ?_, loop_ends unnamed⟩
    exact steps_invariant_with (Q := Kept) (P := fun s => s.isNamed = false) (fun _ => kept)
      (fun _ _ _ hk hu _ hstep => (unnamed_step hk (step_move hstep) hu).1) h run unnamed

/-- Two callers raced to build the outbox, one of them with a `Ref` on its message, and a
death watch is kept; the second caller has just found the `OnceLock` taken. -/
def raced : State where
  raws := 0
  socket := ⟨false, true, []⟩
  read := 0
  loop := .receiving
  armed := true
  makers := [⟨10, .done⟩]
  inners :=
    [{ fd := 10
       strong := 2
       stage := .live
       sender :=
        { fresh true with
          once := some 0
          boxes := [⟨11, OutboxTraffic.build⟩, ⟨12, OutboxTraffic.build⟩]
          calls := [⟨.trySend, ⟨[1], []⟩, true, .gotten .push⟩,
            ⟨.send, ⟨[2], [.ref 0]⟩, true, .losing .push 1⟩] }
       death := some 13
       watches := [.waiting] }]
  hands := [0]
  entry := some 0
  fds := [13, 12, 11, 10]

theorem raced_run : exec machine Undisturbed (opened false)
    [.fromFd 10, .make 0 true, .clone 0, .send 0 (.enter .trySend ⟨[1], []⟩ true),
      .send 0 (.enter .send ⟨[2], [.ref 0]⟩ true), .send 0 (.call 0),
      .send 0 (.sendNow 0 .wouldBlock), .send 0 (.call 0), .send 0 (.call 1),
      .send 0 (.sendNow 1 .wouldBlock), .send 0 (.call 1), .send 0 (.build 0 (some 11)),
      .send 0 (.build 1 (some 12)), .send 0 (.call 0), .send 0 (.call 1), .watch 0,
      .watchStep 0 0, .watchStep 0 0, .watchBuild 0 0 (some 13), .watchStep 0 0] =
    some raced := by
  decide

/-- Both messages were queued and sent after the last `Ref` in hands was dropped, the one
on the second message came back from there and was dropped in its turn, and the loop has
read them both. -/
def abandoned : State where
  raws := 0
  socket := ⟨true, false, [⟨1, 0, ⟨[1], []⟩⟩, ⟨1, 1, ⟨[2], [.ref 0]⟩⟩]⟩
  read := 2
  loop := .ended
  armed := false
  makers := [⟨10, .done⟩]
  inners :=
    [{ fd := 10
       strong := 0
       stage := .dropped
       sender :=
        { runtime := true
          once := some 0
          boxes := [⟨11, ⟨0, ⟨depth, [], 0, false, false⟩, .ended⟩⟩,
            ⟨12, ⟨0, ⟨depth, [], 0, false, false⟩, .ended⟩⟩]
          calls := [⟨.trySend, ⟨[1], []⟩, true, .returned .ok⟩,
            ⟨.send, ⟨[2], [.ref 0]⟩, true, .returned .ok⟩]
          alive := false
          trash := [] }
       death := none
       watches := [.finished] }]
  hands := []
  entry := none
  fds := []

theorem abandoned_run : exec machine Undisturbed raced
    [.send 0 (.call 1), .send 0 (.call 0), .send 0 (.call 0), .send 0 (.call 0),
      .send 0 (.drain 1 .recv), .send 0 (.drain 1 .finish), .send 0 (.call 1),
      .send 0 (.call 1), .send 0 (.call 1), .leave 0 0, .drop 0, .room true,
      .send 0 (.drain 0 .recv), .send 0 (.drain 0 (.sendmsg .ok)), .send 0 (.drain 0 .account),
      .send 0 .sweep, .send 0 (.drain 0 .recv), .send 0 (.drain 0 (.sendmsg .ok)),
      .send 0 (.drain 0 .account), .send 0 .sweep, .drop 0, .unfile 0, .dropFd 0,
      .dropOutbox 0, .dropDeath 0, .send 0 (.drain 0 .recv), .send 0 (.drain 0 .finish), .recv,
      .handled, .toService, .recv, .handled, .close, .hangup] = some abandoned := by
  decide

theorem lives_while_reached_abandoned :
    raced.fds.Perm [10, 13, 11, 12] ∧
      (∃ y b, abandoned.inners[0]? = some y ∧ y.sender.boxes[1]? = some b ∧
        y.sender.once ≠ some 1 ∧ Untouched b.outbox) ∧
      abandoned.fds = [] ∧ abandoned.isNamed = false ∧
      abandoned.socket.wire.length ≤ abandoned.read := by
  have start : Reachable machine Undisturbed raced := exec_reachable ⟨false, rfl⟩ raced_run
  have run : Steps machine Undisturbed raced abandoned := exec_steps abandoned_run
  obtain ⟨held, _, loser, _⟩ := lives_while_reached start
  obtain ⟨_, _, _, nothing, alone, _⟩ := lives_while_reached (reachable_steps start run)
  refine ⟨held ⟨by simp [raced], by simp [raced]⟩, ?_, ?_, ?_⟩
  · exact loser 0 1 1 _ _ rfl rfl rfl (by simp) abandoned run
  · refine nothing ⟨rfl, ?_, ?_⟩ ⟨?_, ?_⟩ ?_
    · simp [abandoned, Sender.messages, Call.held, Stage.holds, boxHeld, taskHeld]
    · simp [abandoned]
    · simp [abandoned]
    · simp [abandoned]
    · simp [abandoned, DrainsEnded]
  · exact alone (fun _ _ ok => ok) rfl

end Capability
