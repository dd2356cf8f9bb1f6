import StrongIpc.Capability
import StrongIpc.Holdings

/-!
# Every `Ref` is counted

The strong count of a `RefInner` is the number of its `Ref`s in hands and on the
messages that any `RefInner`'s calls, channels and drain tasks hold. The last one
to go is what starts the drop of the `RefInner`, and no `Ref` that a call or a
watch borrows is the last one to go.
-/

namespace Capability

open OutboxTraffic RefSender Roster StepMachine Wire

/-- The `Ref`s to the `RefInner` number `k` on the messages held here. -/
def Inner.carries (k : Nat) (x : Inner) : Nat :=
  total (fun m => m.refs.count k) x.sender.messages

def strongOf (inners : List Inner) (k : Nat) : Nat :=
  match inners[k]? with
  | none => 0
  | some x => x.strong

def Counted (inners : List Inner) (hands : List Nat) : Prop :=
  ∀ k, hands.count k + total (Inner.carries k) inners = strongOf inners k

theorem strongOf_some {inners : List Inner} {g : Nat} {x : Inner} (hx : inners[g]? = some x) :
    strongOf inners g = x.strong := by
  simp only [strongOf, hx]

theorem strongOf_set {inners : List Inner} {g : Nat} {x : Inner} (hx : inners[g]? = some x)
    (y : Inner) (k : Nat) :
    strongOf (inners.set g y) k = if k = g then y.strong else strongOf inners k := by
  by_cases same : k = g
  · subst same
    rw [if_pos rfl]
    exact strongOf_some (List.getElem?_set_self (lt_of_getElem? hx))
  · rw [if_neg same]
    simp only [strongOf, List.getElem?_set_ne (Ne.symm same)]

/-- Rewriting one `RefInner` keeps the balance if its own share of it is kept. -/
theorem Counted.set {inners : List Inner} {hands hands' : List Nat} {g : Nat} {x : Inner}
    (h : Counted inners hands) (hx : inners[g]? = some x) (y : Inner)
    (share : ∀ k, hands'.count k + y.carries k + (if k = g then x.strong else 0) =
      hands.count k + x.carries k + if k = g then y.strong else 0) :
    Counted (inners.set g y) hands' := by
  intro k
  have before := h k
  have trade := total_set (Inner.carries k) y hx
  have mine := share k
  rw [strongOf_set hx]
  by_cases same : k = g
  · subst same
    rw [strongOf_some hx] at before
    rw [if_pos rfl, if_pos rfl] at mine
    rw [if_pos rfl]
    omega
  · rw [if_neg same, if_neg same] at mine
    rw [if_neg same]
    omega

theorem Counted.keep {inners : List Inner} {hands : List Nat} {g : Nat} {x y : Inner}
    (h : Counted inners hands) (hx : inners[g]? = some x) (strong : y.strong = x.strong)
    (sender : ∀ k, y.carries k = x.carries k) : Counted (inners.set g y) hands :=
  h.set hx y fun k => by rw [strong, sender]

theorem Counted.gain {inners : List Inner} {hands : List Nat} {g : Nat} {x : Inner}
    (h : Counted inners hands) (hx : inners[g]? = some x) :
    Counted (inners.set g { x with strong := x.strong + 1 }) (g :: hands) := by
  apply h.set hx _
  intro k
  have same : Inner.carries k { x with strong := x.strong + 1 } = x.carries k := rfl
  rw [same, List.count_cons]
  by_cases own : k = g
  · subst own
    simp
    omega
  · simp [own, Ne.symm own]

theorem Counted.lose {inners : List Inner} {hands : List Nat} {g : Nat} {x y : Inner}
    (h : Counted inners hands) (hx : inners[g]? = some x) (held : g ∈ hands)
    (strong : y.strong = x.strong - 1) (sender : y.sender = x.sender) :
    Counted (inners.set g y) (hands.erase g) := by
  have positive := List.count_pos_iff.mpr held
  have own := h g
  rw [strongOf_some hx] at own
  apply h.set hx y
  intro k
  have same : y.carries k = x.carries k := by rw [Inner.carries, Inner.carries, sender]
  rw [same, List.count_erase]
  by_cases mine : k = g
  · subst mine
    simp
    omega
  · simp [mine, Ne.symm mine]

theorem Counted.file {inners : List Inner} {hands : List Nat} (h : Counted inners hands)
    (fd : Nat) (runtime : Bool) :
    Counted (inners ++ [newInner fd runtime]) (inners.length :: hands) := by
  intro k
  have before := h k
  have nothing : Inner.carries k (newInner fd runtime) = 0 := rfl
  rw [total_append, total_cons, total_nil, nothing, List.count_cons]
  by_cases new : k = inners.length
  · subst new
    have none_yet : strongOf inners inners.length = 0 := by simp [strongOf]
    have one : strongOf (inners ++ [newInner fd runtime]) inners.length = 1 := by
      simp [strongOf, newInner]
    rw [none_yet] at before
    rw [one]
    simp
    omega
  · have same : strongOf (inners ++ [newInner fd runtime]) k = strongOf inners k := by
      rcases Nat.lt_or_ge k inners.length with inside | past
      · simp only [strongOf, List.getElem?_append_left inside]
      · have absent : (inners ++ [newInner fd runtime])[k]? = none :=
          List.getElem?_eq_none (by simp; omega)
        simp only [strongOf, absent, List.getElem?_eq_none past]
    rw [same]
    simpa [Ne.symm new] using before

/-! ## A step of a call -/

theorem mayTake_enter {s : State} {g : Nat} {kind : Kind} {m : Message} {onRuntime : Bool}
    (may : s.mayTake g (.enter kind m onRuntime) = true) :
    (∀ k, m.refs.count k ≤ s.hands.count k) ∧ s.leavesEnough (s.hands.diff m.refs) = true ∧
      g ∈ s.hands.diff m.refs := by
  simp only [State.mayTake, Bool.and_eq_true, List.all_eq_true, decide_eq_true_eq,
    List.contains_iff_mem] at may
  obtain ⟨⟨there, enough⟩, own⟩ := may
  refine ⟨fun k => ?_, enough, own⟩
  by_cases rides : k ∈ m.refs
  · exact there k rides
  · rw [List.count_eq_zero.mpr rides]
    exact Nat.zero_le _

theorem hands_count {s : State} {g : Nat} {a : RefSender.Act} (may : s.mayTake g a = true)
    (before : Sender) (k : Nat) :
    (handsAfter s.hands before a).count k + total (fun m => m.refs.count k) (brought a) =
      s.hands.count k + total (fun m => m.refs.count k) (before.swept a) := by
  cases a with
  | enter kind m onRuntime =>
    have there := (mayTake_enter may).1 k
    simp only [handsAfter, brought, Sender.swept, total_cons, total_nil, count_diff]
    omega
  | sweep =>
    cases ht : before.trash with
    | nil => simp [handsAfter, brought, Sender.swept, ht]
    | cons m rest =>
      simp [handsAfter, brought, Sender.swept, ht]
      omega
  | _ => rfl

theorem counted_take {s : State} {g : Nat} {a : RefSender.Act} {x : Inner} {w : World}
    (h : Counted s.inners s.hands) (hx : s.inners[g]? = some x) (may : s.mayTake g a = true)
    (hw : RefSender.step (g + 1) (s.view x) a = some w) :
    Counted (s.inners.set g { x with sender := w.sender }) (handsAfter s.hands x.sender a) := by
  apply h.set hx _
  intro k
  have moved := weigh_step (fun m => m.refs.count k) (RefSender.step_move hw)
  have handed := hands_count may x.sender k
  simp only [Inner.carries]
  simp only [State.view] at moved
  omega

/-- The release of an outbox is a move on any socket. -/
theorem release_anywhere {sender sender' : Sender} (hr : sender.releaseOnce = some sender') :
    RefSender.Move 0 ⟨⟨true, true, []⟩, sender⟩ .release ⟨⟨true, true, []⟩, sender'⟩ :=
  release_move hr

theorem release_carries {x : Inner} {sender : Sender} (hr : x.sender.releaseOnce = some sender)
    (k : Nat) : total (fun m => m.refs.count k) sender.messages = x.carries k := by
  have moved := weigh_step (fun m => m.refs.count k) (release_anywhere hr)
  simpa [brought, Sender.swept, Inner.carries] using moved

theorem received_inners (s : State) (m : Message) :
    (s.received m).inners = s.inners ∧ (s.received m).hands = s.hands := by
  rw [State.received]
  split
  · exact ⟨rfl, rfl⟩
  · split <;> exact ⟨rfl, rfl⟩

theorem counted_step {s t : State} {a : Act} (h : Counted s.inners s.hands) (m : Move s a t) :
    Counted t.inners t.hands := by
  cases m with
  | revive i runtime m g x hm hs hx held => exact h.gain hx
  | file i runtime m hm hs => exact h.file m.fd runtime
  | clone g x hx held => exact h.gain hx
  | drop g x hx held enough => exact h.lose hx held rfl rfl
  | unfile g x hx hs => exact h.keep hx rfl fun _ => rfl
  | dropFd g x hx hs => exact h.keep hx rfl fun _ => rfl
  | dropOutbox g x sender hx hs hr => exact h.keep hx rfl (release_carries hr)
  | dropUnwatched g x hx hs hd => exact h.keep hx rfl fun _ => rfl
  | dropDeath g x d hx hs hd => exact h.keep hx rfl fun _ => rfl
  | take g a x w hx may hw => exact counted_take h hx may hw
  | watch g x hx held => exact h.keep hx rfl fun _ => rfl
  | rewatch a g i x old new hx hi walk => exact h.keep hx rfl fun _ => rfl
  | keep g i x d hx hi hd => exact h.keep hx rfl fun _ => rfl
  | lost g i x d hx hi => exact h.keep hx rfl fun _ => rfl
  | built g i x d hx hi unused => exact h.keep hx rfl fun _ => rfl
  | recv p hp hl =>
    obtain ⟨inners, hands⟩ := received_inners s p.message
    rw [inners, hands]
    exact h
  | _ => exact h

theorem counted {guard : State → Act → Prop} {s : State} (h : Reachable machine guard s) :
    Counted s.inners s.hands := by
  refine reachable_invariant (P := fun s => Counted s.inners s.hands) ?_ ?_ h
  · rintro s ⟨room, rfl⟩ k
    rfl
  · intro s a t hc _ hstep
    exact counted_step hc (step_move hstep)

/-- Whoever holds a `Ref` finds its `RefInner` with a positive count. -/
theorem Counted.positive {inners : List Inner} {hands : List Nat} (h : Counted inners hands)
    {g : Nat} {x : Inner} (hx : inners[g]? = some x) (held : g ∈ hands) : 0 < x.strong := by
  have positive := List.count_pos_iff.mpr held
  have own := h g
  rw [strongOf_some hx] at own
  omega

/-! ## Each `RefInner` -/

/-- What holds of each `RefInner`: it is live while a `Ref` to it is left, and while
something borrows it one is in hands; a dropped one has no death watch. -/
structure Proper (s : State) (g : Nat) (x : Inner) : Prop where
  held : x.stage = .live ↔ 0 < x.strong
  borrowed : x.isBorrowed = true → g ∈ s.hands
  buried : x.stage = .dropped → x.death = none

def AllProper (s : State) : Prop := ∀ g x, s.inners[g]? = some x → Proper s g x

theorem AllProper.set {s t : State} {g : Nat} {y : Inner} (h : AllProper s)
    (inners : t.inners = s.inners.set g y)
    (others : ∀ k x, k ≠ g → s.inners[k]? = some x → x.isBorrowed = true → k ∈ s.hands →
      k ∈ t.hands) (new : Proper t g y) : AllProper t := by
  intro k x hk
  rw [inners] at hk
  rcases getElem?_set_cases hk with ⟨rfl, rfl⟩ | ⟨other, old⟩
  · exact new
  · obtain ⟨held, borrowed, buried⟩ := h k x old
    exact ⟨held, fun b => others k x other old b (borrowed b), buried⟩

/-- The same where the `Ref`s in hands are as they were. -/
theorem AllProper.set_same {s t : State} {g : Nat} {y : Inner} (h : AllProper s)
    (inners : t.inners = s.inners.set g y) (hands : t.hands = s.hands) (new : Proper t g y) :
    AllProper t :=
  h.set inners (fun _ _ _ _ _ held => hands ▸ held) new

theorem AllProper.congr {s t : State} (h : AllProper s) (inners : t.inners = s.inners)
    (hands : t.hands = s.hands) : AllProper t := by
  intro g x hx
  rw [inners] at hx
  obtain ⟨held, borrowed, buried⟩ := h g x hx
  exact ⟨held, fun b => hands ▸ borrowed b, buried⟩

theorem enough_for {s : State} {rest : List Nat} (enough : s.leavesEnough rest = true) {g : Nat}
    {x : Inner} (hx : s.inners[g]? = some x) (borrowed : x.isBorrowed = true) : g ∈ rest := by
  have inside := List.mem_range.mpr (lt_of_getElem? hx)
  have free := List.all_eq_true.mp enough g inside
  simpa [hx, borrowed] using free

theorem borrowed_watch {x : Inner} {i : Nat} {w : WatchStage} (hi : x.watches[i]? = some w)
    (going : w ≠ .finished) : x.isBorrowed = true := by
  have some_watch : (x.watches.any fun w => w != .finished) = true :=
    List.any_eq_true.mpr ⟨w, List.mem_of_getElem? hi, by simpa using going⟩
  rw [Inner.isBorrowed, some_watch, Bool.or_true]

theorem walk_going {x : Inner} {old new : WatchStage} (walk : WatchWalk x old new) :
    old ≠ .finished := by
  cases walk <;> simp

theorem borrowed_sender {x y : Inner} (h : y.isBorrowed = true) (watches : y.watches = x.watches)
    (busy : y.sender.isBusy = true → x.sender.isBusy = true) : x.isBorrowed = true := by
  rcases (Bool.or_eq_true _ _).mp h with call | watch
  · rw [Inner.isBorrowed, show (x.sender.calls.any _) = true from busy call, Bool.true_or]
  · rw [Inner.isBorrowed, ← watches, watch, Bool.or_true]

theorem release_busy {x : Inner} {sender : Sender} (hr : x.sender.releaseOnce = some sender)
    (busy : sender.isBusy = true) : x.sender.isBusy = true := by
  exact busy_step (release_anywhere hr) (by simp) busy

/-- Only a call that begins takes a `Ref` out of hands, and it leaves enough. -/
theorem hands_enough {s : State} {g : Nat} {a : RefSender.Act} (may : s.mayTake g a = true)
    (before : Sender) {k : Nat} {z : Inner} (hk : s.inners[k]? = some z)
    (borrowed : z.isBorrowed = true) (held : k ∈ s.hands) : k ∈ handsAfter s.hands before a := by
  cases a with
  | enter kind m onRuntime => exact enough_for (mayTake_enter may).2.1 hk borrowed
  | sweep =>
    cases ht : before.trash with
    | nil => simpa [handsAfter, ht] using held
    | cons m rest => simp [handsAfter, ht, held]
  | _ => exact held

theorem proper_take {s : State} {g : Nat} {a : RefSender.Act} {x : Inner} {w : World}
    (h : AllProper s) (hx : s.inners[g]? = some x) (may : s.mayTake g a = true)
    (hw : RefSender.step (g + 1) (s.view x) a = some w) : AllProper (s.taken g x a w) := by
  obtain ⟨held, borrowed, buried⟩ := h g x hx
  apply h.set rfl (fun k z _ hk b there => hands_enough may x.sender hk b there)
  refine ⟨held, fun b => ?_, buried⟩
  by_cases enters : ∃ kind m onRuntime, a = .enter kind m onRuntime
  · obtain ⟨kind, m, onRuntime, rfl⟩ := enters
    exact (mayTake_enter may).2.2
  · have going : ∀ kind m onRuntime, a ≠ .enter kind m onRuntime :=
      fun kind m onRuntime same => enters ⟨kind, m, onRuntime, same⟩
    have before : x.isBorrowed = true :=
      borrowed_sender b rfl (busy_step (RefSender.step_move hw) going)
    exact hands_enough may x.sender hx before (borrowed before)

theorem proper_lose {s : State} {g : Nat} {x : Inner} (h : AllProper s)
    (hc : Counted s.inners s.hands) (hx : s.inners[g]? = some x) (held : g ∈ s.hands)
    (enough : s.leavesEnough (s.hands.erase g) = true) : AllProper (s.lose g x) := by
  obtain ⟨alive, borrowed, buried⟩ := h g x hx
  have positive := hc.positive hx held
  have live : x.stage = .live := alive.mpr positive
  refine h.set rfl (fun k z _ hk b _ => enough_for enough hk b) ⟨?_, fun b => ?_, ?_⟩
  · by_cases last : x.strong = 1
    · simp [last]
    · simp only [last, if_false, live, true_iff]
      omega
  · exact enough_for enough hx b
  · by_cases last : x.strong = 1
    · simp [last]
    · simp [last, live]

/-- A `RefInner` in the middle of its drop goes on with it. -/
theorem AllProper.bury {s t : State} {g : Nat} {x : Inner} (h : AllProper s)
    (hx : s.inners[g]? = some x) (gone : x.stage ≠ .live) (y : Inner) (stays : y.stage ≠ .live)
    (strong : y.strong = x.strong) (borrows : y.isBorrowed = true → x.isBorrowed = true)
    (buried : y.stage = .dropped → y.death = none) (inners : t.inners = s.inners.set g y)
    (hands : t.hands = s.hands) : AllProper t := by
  obtain ⟨held, borrowed, _⟩ := h g x hx
  refine h.set_same inners hands ⟨?_, fun b => hands ▸ borrowed (borrows b), buried⟩
  rw [strong, ← held]
  simp [gone, stays]

theorem proper_step {s t : State} {a : Act} (hc : Counted s.inners s.hands) (h : AllProper s)
    (m : Move s a t) : AllProper t := by
  have gained : ∀ {g : Nat} {x : Inner}, s.inners[g]? = some x → 0 < x.strong →
      AllProper (s.gain g x) := by
    intro g x hx positive
    obtain ⟨held, borrowed, buried⟩ := h g x hx
    apply h.set rfl (fun k z _ _ _ there => List.mem_cons_of_mem _ there)
    have live := held.mpr positive
    exact ⟨by simp [live], fun _ => List.mem_cons_self, buried⟩
  cases m with
  | revive i runtime m g x hm hs hx positive => exact (gained hx positive).congr rfl rfl
  | file i runtime m hm hs =>
    intro k z hk
    rcases getElem?_push_cases hk with ⟨rfl, rfl⟩ | old
    · exact ⟨by simp [newInner], fun _ => List.mem_cons_self, by simp [newInner]⟩
    · obtain ⟨held, borrowed, buried⟩ := h k z old
      exact ⟨held, fun b => List.mem_cons_of_mem _ (borrowed b), buried⟩
  | clone g x hx held => exact gained hx (hc.positive hx held)
  | drop g x hx held enough => exact proper_lose h hc hx held enough
  | unfile g x hx hs =>
    exact h.bury hx (by simp [hs]) { x with stage := .unfiled } (by simp) rfl id (by simp) rfl rfl
  | dropFd g x hx hs =>
    exact h.bury hx (by simp [hs]) { x with stage := .closed } (by simp) rfl id (by simp) rfl rfl
  | dropOutbox g x sender hx hs hr =>
    exact h.bury hx (by simp [hs]) { x with sender, stage := .emptied } (by simp) rfl
      (fun b => borrowed_sender b rfl (release_busy hr)) (by simp) rfl rfl
  | dropUnwatched g x hx hs hd =>
    exact h.bury hx (by simp [hs]) { x with stage := .dropped } (by simp) rfl id (fun _ => hd)
      rfl rfl
  | dropDeath g x d hx hs hd =>
    exact h.bury hx (by simp [hs]) { x with stage := .dropped, death := none } (by simp) rfl id
      (fun _ => rfl) rfl rfl
  | take g a x w hx may hw => exact proper_take h hx may hw
  | watch g x hx there =>
    obtain ⟨held, borrowed, buried⟩ := h g x hx
    exact h.set_same rfl rfl ⟨held, fun _ => there, buried⟩
  | rewatch a g i x old new hx hi walk =>
    obtain ⟨held, borrowed, buried⟩ := h g x hx
    exact h.set_same rfl rfl
      ⟨held, fun _ => borrowed (borrowed_watch hi (walk_going walk)), buried⟩
  | keep g i x d hx hi hd =>
    obtain ⟨held, borrowed, buried⟩ := h g x hx
    have there := borrowed (borrowed_watch hi (by simp))
    refine h.set_same rfl rfl ⟨held, fun _ => there, fun gone => ?_⟩
    have live := held.mpr (hc.positive hx there)
    rw [show x.stage = .dropped from gone] at live
    cases live
  | lost g i x d hx hi =>
    obtain ⟨held, borrowed, buried⟩ := h g x hx
    exact h.set_same rfl rfl ⟨held, fun _ => borrowed (borrowed_watch hi (by simp)), buried⟩
  | built g i x d hx hi unused =>
    obtain ⟨held, borrowed, buried⟩ := h g x hx
    exact h.set_same rfl rfl ⟨held, fun _ => borrowed (borrowed_watch hi (by simp)), buried⟩
  | recv p hp hl =>
    obtain ⟨inners, hands⟩ := received_inners s p.message
    exact h.congr inners hands
  | _ => exact h.congr rfl rfl

theorem proper {guard : State → Act → Prop} {s : State} (h : Reachable machine guard s) :
    AllProper s := by
  refine reachable_invariant_with (Q := fun s => Counted s.inners s.hands) (P := AllProper)
    (fun _ => counted) ?_ ?_ h
  · rintro s ⟨room, rfl⟩ g x hx
    simp [opened] at hx
  · intro s a t hc hp _ hstep
    exact proper_step hc hp (step_move hstep)

end Capability
