import StrongIpc.Library.Unwinding
import StrongIpc.Rollback

/-!
# Bindings on different paths

Any number of `RefFsBinding::new` calls and drops on any paths, interleaved one call at
a time over one disk, whatever the kernel refuses and whoever dies. A binding has two
names, its path and that with `.lock` behind it. Two bindings that share none of the
four do not notice each other; where the path of one is the lock path of the other, the
`unlink`s of both are without mercy.
-/

namespace FsBinding

open Interaction StepMachine

variable {D : Type}

/-- Inside `new`, inside the drop, and what comes of them. -/
inductive Phase (D : Type) where
  | making (rest : Prog D (Except NewError (RefFsBinding D)))
  | failed (e : NewError)
  | live (b : RefFsBinding D)
  | dropping (rest : Prog D Unit)
  | gone

def settled : Prog D (Except NewError (RefFsBinding D)) → Phase D
  | .ret (.ok b) => .live b
  | .ret (.error e) => .failed e
  | .ask c k => .making (.ask c k)

def dropped : Prog D Unit → Phase D
  | .ret () => .gone
  | .ask c k => .dropping (.ask c k)

/-- The next call, and where the attempt stands with its answer. -/
def Phase.asks : Phase D → Option (Σ c : Call D, c.Answer → Phase D)
  | .making (.ask c k) => some ⟨c, fun a => settled (k a)⟩
  | .dropping (.ask c k) => some ⟨c, fun a => dropped (k a)⟩
  | _ => none

/-- `taskEnds` is the end of a binding's accept loop before its drop: an accept or a
registration has failed, or its runtime is gone. -/
inductive Act where
  | enter
  | call (ok : Bool)
  | taskEnds
  | drop
  | die
  deriving DecidableEq, Repr

structure Label (D : Type) where
  who : Attempt D
  act : Act
  deriving DecidableEq, Repr

structure World (D : Type) where
  disk : Disk D
  phases : Attempt D → Option (Phase D)

variable [DecidableEq D]

/-- The descriptors that an attempt may have are of files at its two paths. -/
def release (who : Attempt D) (d : Disk D) : Disk D := fun r =>
  if r = who.path ∨ r = lockPath who.path then (d r).release who else d r

/-- What an attempt does depends on where it stands and on the disk. The accept loop takes its
socket with it, and the binding stays. -/
def advance (who : Attempt D) (d : Disk D) : Act → Option (Phase D) → Option (Phase D × Disk D)
  | .enter, none => some (settled (new who.path), d)
  | .call ok, some phase => phase.asks.map fun ⟨c, next⟩ =>
      (next (serve who ok c d).1, (serve who ok c d).2)
  | .taskEnds, some (.live b) =>
    if (b.task.number, who) ∈ (d b.task.path).listening then
      some (.live b, (serve who true (.closeSocket b.task) d).2)
    else none
  | .drop, some (.live b) => some (dropped (drop b), d)
  | .die, some _ => some (.gone, release who d)
  | _, _ => none

def step (w : World D) (l : Label D) : Option (World D) :=
  (advance l.who w.disk l.act (w.phases l.who)).map fun (phase, disk) =>
    ⟨disk, Function.update w.phases l.who (some phase)⟩

/-- Any disk, with nobody at work. -/
def machine : Machine (World D) (Label D) where
  init w := ∀ who, w.phases who = none
  step := step

/-! ## An attempt and its own two paths -/

/-- What is left of the attempt's programs is about its own paths. -/
def Phase.Concerns (p : Path D) : Phase D → Prop
  | .making rest => rest.Meets Call.Possible (Call.Concerns p) (Returns p)
  | .live b => b.Of p
  | .dropping rest => rest.Meets Call.Possible (Call.Concerns p) fun _ => True
  | _ => True

omit [DecidableEq D] in
theorem settled_concerns {p : Path D} {rest : Prog D (Except NewError (RefFsBinding D))}
    (h : rest.Meets Call.Possible (Call.Concerns p) (Returns p)) : (settled rest).Concerns p := by
  cases rest with
  | ret r =>
    cases r with
    | ok b => exact h
    | error e => trivial
  | ask c k => exact h

omit [DecidableEq D] in
theorem dropped_concerns {p : Path D} {rest : Prog D Unit}
    (h : rest.Meets Call.Possible (Call.Concerns p) fun _ => True) :
    (dropped rest).Concerns p := by
  cases rest with
  | ret r => trivial
  | ask c k => exact h

omit [DecidableEq D] in
theorem asks_concerns {p : Path D} {phase : Phase D} {c : Call D} {next : c.Answer → Phase D}
    (h : phase.Concerns p) (asks : phase.asks = some ⟨c, next⟩) :
    c.Concerns p ∧ ∀ a, c.Possible a → (next a).Concerns p := by
  cases phase with
  | making rest =>
    cases rest with
    | ret r => cases asks
    | ask c' k =>
      cases asks
      exact ⟨h.1, fun a possible => settled_concerns (h.2 a possible)⟩
  | dropping rest =>
    cases rest with
    | ret r => cases asks
    | ask c' k =>
      cases asks
      exact ⟨h.1, fun a possible => dropped_concerns (h.2 a possible)⟩
  | _ => cases asks

/-- What one attempt's step can be. -/
inductive Advance (who : Attempt D) (d : Disk D) :
    Act → Option (Phase D) → Phase D → Disk D → Prop where
  | enter : Advance who d .enter none (settled (new who.path)) d
  | call (ok : Bool) (phase : Phase D) (c : Call D) (next : c.Answer → Phase D)
      (asks : phase.asks = some ⟨c, next⟩) :
      Advance who d (.call ok) (some phase) (next (serve who ok c d).1) (serve who ok c d).2
  | taskEnds (b : RefFsBinding D) (hears : (b.task.number, who) ∈ (d b.task.path).listening) :
      Advance who d .taskEnds (some (.live b)) (.live b) (serve who true (.closeSocket b.task) d).2
  | drop (b : RefFsBinding D) : Advance who d .drop (some (.live b)) (dropped (drop b)) d
  | die (phase : Phase D) : Advance who d .die (some phase) .gone (release who d)

theorem advance_some {who : Attempt D} {d d' : Disk D} {act : Act} {before : Option (Phase D)}
    {after : Phase D} (h : advance who d act before = some (after, d')) :
    Advance who d act before after d' := by
  cases act with
  | enter =>
    cases before with
    | none => cases h; exact .enter
    | some phase => cases h
  | call ok =>
    cases before with
    | none => cases h
    | some phase =>
      obtain ⟨⟨c, next⟩, asks, same⟩ := Option.map_eq_some_iff.mp h
      cases same
      exact .call ok phase c next asks
  | taskEnds =>
    cases before with
    | none => cases h
    | some phase =>
      cases phase with
      | live b =>
        simp only [advance] at h
        split at h
        · cases h
          exact .taskEnds b ‹_›
        · cases h
      | _ => cases h
  | drop =>
    cases before with
    | none => cases h
    | some phase =>
      cases phase with
      | live b => cases h; exact .drop b
      | _ => cases h
  | die =>
    cases before with
    | none => cases h
    | some phase => cases h; exact .die phase

theorem advance_concerns {who : Attempt D} {d d' : Disk D} {act : Act}
    {before : Option (Phase D)} {after : Phase D} (m : Advance who d act before after d')
    (own : ∀ phase ∈ before, phase.Concerns who.path) : after.Concerns who.path := by
  cases m with
  | enter => exact settled_concerns (new_meets who.path)
  | call ok phase c next asks =>
    exact (asks_concerns (own phase rfl) asks).2 _ (serve_possible who ok c d)
  | taskEnds b hears => exact own (.live b) rfl
  | drop b => exact dropped_concerns (drop_meets (own _ rfl))
  | die phase => trivial

/-- No other path is looked at or changed. -/
theorem advance_elsewhere {who : Attempt D} {d d' : Disk D} {act : Act}
    {before : Option (Phase D)} {after : Phase D} (m : Advance who d act before after d')
    (own : ∀ phase ∈ before, phase.Concerns who.path) {r : Path D} (apart : r ≠ who.path)
    (apart' : r ≠ lockPath who.path) : d' r = d r := by
  cases m with
  | enter => rfl
  | call ok phase c next asks =>
    apply serve_elsewhere
    rcases (asks_concerns (own phase rfl) asks).1 with here | here
    · exact here ▸ apart
    · exact here ▸ apart'
  | taskEnds b hears =>
    have task : (Call.closeSocket b.task).path = who.path := (own (.live b) rfl).task
    apply serve_elsewhere
    rw [task]
    exact apart
  | drop b => rfl
  | die phase => exact if_neg (not_or.mpr ⟨apart, apart'⟩)

/-- On a disk that is the same at its two paths an attempt does the same. -/
theorem advance_local {who : Attempt D} {d d' e : Disk D} {act : Act}
    {before : Option (Phase D)} {after : Phase D} (m : Advance who d act before after d')
    (own : ∀ phase ∈ before, phase.Concerns who.path) (same : e who.path = d who.path)
    (same' : e (lockPath who.path) = d (lockPath who.path)) :
    ∃ e', advance who e act before = some (after, e') ∧ e' who.path = d' who.path ∧
      e' (lockPath who.path) = d' (lockPath who.path) := by
  cases m with
  | enter => exact ⟨e, rfl, same, same'⟩
  | call ok phase c next asks =>
    have here : e c.path = d c.path := by
      rcases (asks_concerns (own phase rfl) asks).1 with here | here
      · rw [here, same]
      · rw [here, same']
    obtain ⟨answer, after⟩ := serve_local who ok here
    refine ⟨(serve who ok c e).2, ?_, after _ same, after _ same'⟩
    simp only [advance, asks, Option.map_some, answer]
  | taskEnds b hears =>
    have here : e b.task.path = d b.task.path := by
      rw [(own (.live b) rfl).task, same]
    obtain ⟨_, after⟩ := serve_local who true (c := .closeSocket b.task) here
    refine ⟨(serve who true (.closeSocket b.task) e).2, ?_, after _ same, after _ same'⟩
    simp only [advance, here, hears, if_true]
  | drop b => exact ⟨e, rfl, same, same'⟩
  | die phase =>
    refine ⟨release who e, rfl, ?_, ?_⟩
    · simp only [release, same]
    · simp only [release, same']

/-! ## Every step -/

/-- Every attempt is about its own paths. -/
def Sound (w : World D) : Prop := ∀ who, ∀ phase ∈ w.phases who, phase.Concerns who.path

theorem step_advance {w t : World D} {l : Label D} (h : step w l = some t) :
    ∃ after, Advance l.who w.disk l.act (w.phases l.who) after t.disk ∧
      t.phases = Function.update w.phases l.who (some after) := by
  obtain ⟨⟨after, disk⟩, advanced, rfl⟩ := Option.map_eq_some_iff.mp h
  exact ⟨after, advance_some advanced, rfl⟩

theorem sound_step {w t : World D} {l : Label D} (hw : Sound w) (h : step w l = some t) :
    Sound t := by
  obtain ⟨after, advanced, phases⟩ := step_advance h
  intro who phase there
  rw [phases, Function.update_apply] at there
  split at there
  · rename_i mine
    subst mine
    obtain rfl : after = phase := Option.some.inj there
    exact advance_concerns advanced (hw l.who)
  · exact hw who phase there

theorem sound {guard : World D → Label D → Prop} {w : World D}
    (h : Reachable machine guard w) : Sound w := by
  refine reachable_invariant (P := Sound) ?_ ?_ h
  · intro w start who phase there
    rw [start who] at there
    cases there
  · exact fun w l t hw _ hstep => sound_step hw hstep

/-! ## What a path's attempts see -/

structure View (D : Type) where
  socket : Spot D
  lock : Spot D
  phases : Nat → Option (Phase D)

/-- The two files of a path, and the attempts on it. -/
def view (q : Path D) (w : World D) : View D :=
  ⟨w.disk q, w.disk (lockPath q), fun n => w.phases ⟨q, n⟩⟩

/-- The four names are four. -/
def Apart (p q : Path D) : Prop := p ≠ lockPath q ∧ q ≠ lockPath p

instance (p q : Path D) : Decidable (Apart p q) := inferInstanceAs (Decidable (_ ∧ _))

theorem view_others {p q : Path D} (distinct : p ≠ q) (apart : Apart p q) {w t : World D}
    {l : Label D} (hw : Sound w) (other : l.who.path = p) (h : step w l = some t) :
    view q t = view q w := by
  obtain ⟨after, advanced, phases⟩ := step_advance h
  have socket : t.disk q = w.disk q :=
    advance_elsewhere advanced (hw l.who) (other ▸ distinct.symm) (other ▸ apart.2)
  have lock : t.disk (lockPath q) = w.disk (lockPath q) := by
    refine advance_elsewhere advanced (hw l.who) (other ▸ apart.1.symm) ?_
    intro same
    exact distinct (other ▸ (lockPath_injective same).symm)
  have same : ∀ n, t.phases ⟨q, n⟩ = w.phases ⟨q, n⟩ := by
    intro n
    rw [phases]
    apply Function.update_of_ne
    intro mine
    exact distinct (other ▸ mine ▸ rfl)
  simp only [view, socket, lock, same]

theorem view_own {q : Path D} {w v t : World D} {l : Label D} (hw : Sound w)
    (own : l.who.path = q) (seen : view q v = view q w) (h : step w l = some t) :
    ∃ u, step v l = some u ∧ view q u = view q t := by
  obtain ⟨after, advanced, phases⟩ := step_advance h
  subst own
  simp only [view, View.mk.injEq] at seen
  obtain ⟨socket, lock, same⟩ := seen
  have mine : v.phases l.who = w.phases l.who := congrFun same l.who.number
  obtain ⟨disk, advanced', socket', lock'⟩ := advance_local advanced (hw l.who) socket lock
  refine ⟨⟨disk, Function.update v.phases l.who (some after)⟩, ?_, ?_⟩
  · rw [step, mine, advanced']
    rfl
  · have same' : ∀ n, Function.update v.phases l.who (some after) ⟨l.who.path, n⟩ =
        t.phases ⟨l.who.path, n⟩ := by
      intro n
      rw [phases, Function.update_apply, Function.update_apply]
      split
      · rfl
      · exact congrFun same n
    simp only [view, socket', lock', same']

/-- Attempts on these two paths and no others. -/
def between (p q : Path D) (_ : World D) (l : Label D) : Prop := l.who.path = p ∨ l.who.path = q

instance (p q : Path D) (w : World D) (l : Label D) : Decidable (between p q w l) :=
  inferInstanceAs (Decidable (_ ∨ _))

/-- Attempts on this path alone. -/
def only (q : Path D) (_ : World D) (l : Label D) : Prop := l.who.path = q

instance (q : Path D) (w : World D) (l : Label D) : Decidable (only q w l) :=
  inferInstanceAs (Decidable (_ = _))

/-- Whatever the attempts on `p` do, they change neither file of `q`, and the attempts on
`q` fare as they would without them. -/
structure Independent (p q : Path D) : Prop where
  untouched : ∀ w, Reachable machine (between p q) w → ∀ l t, l.who.path = p →
    step w l = some t →
      t.disk q = w.disk q ∧ t.disk (lockPath q) = w.disk (lockPath q)
  unnoticed : ∀ w labels t, machine.init w → exec machine (between p q) w labels = some t →
    ∃ u, exec machine (only q) w (labels.filter fun l => l.who.path = q) = some u ∧
      view q u = view q t

theorem independent_of_apart {p q : Path D} (distinct : p ≠ q) (apart : Apart p q) :
    Independent p q where
  untouched := by
    intro w hw l t other h
    have same := view_others distinct apart (sound hw) other h
    simp only [view, View.mk.injEq] at same
    exact ⟨same.1, same.2.1⟩
  unnoticed := by
    intro w labels t start run
    have reachable : Reachable machine (between p q) w := reachable_init start
    refine exec_view (P := Sound) (between p q) (only q) (view q) (fun l => l.who.path = q)
      ?_ ?_ ?_ run ?_ rfl
    · exact fun w l t hw _ h => sound_step hw h
    · intro w l t hw ok theirs h
      refine view_others distinct apart hw ?_ h
      exact ok.resolve_right (by simpa using theirs)
    · intro w v l t hw _ mine seen h
      have own : l.who.path = q := by simpa using mine
      exact ⟨own, view_own hw own seen h⟩
    · exact sound reachable

end FsBinding
