import StrongIpc.Neighbours

/-!
# Where two bindings meet

If the path of one binding is the lock path of another, each of the two can lose a file
to the other's `unlink`s while it is live: the drop of the one takes the socket file of
the other for its lock file, and the `new` of the other takes the lock file of the one
for what an earlier owner left.
-/

namespace FsBinding

open Interaction StepMachine

variable {D : Type} [DecidableEq D]

/-! ## A `new` that succeeds -/

theorem create_entry (who : Attempt D) {p : Path D} {d : Disk D} {n : Nat}
    (opens : (d p).opens = some n) :
    ((serve who true (.create p) d).2 p).entry = some ⟨.file, n⟩ := by
  have here : (serve who true (.create p) d).2 p = (Call.serveAt who true (.create p) (d p)).2 :=
    serve_here who true (.create p) d
  rw [here]
  simp only [Call.serveAt, opens]
  split
  · rename_i nothing
    rw [Option.isNone_iff_eq_none] at nothing
    simp only [Spot.opens, nothing, Option.some.injEq] at opens
    simp only [Spot.make, opens]
  · rename_i something
    rw [Spot.opens] at opens
    split at opens
    · rename_i nothing
      simp [nothing] at something
    · rename_i entry
      cases opens
      exact entry
    · cases opens
    · cases opens

omit [DecidableEq D] in
theorem lockOpened_keeps (opened : Option (File D)) :
    (lockOpened opened).Meets Call.Possible (fun c => c.keepsEntry = true) fun _ => True := by
  cases opened with
  | none => trivial
  | some file =>
    refine ⟨rfl, fun locked _ => ?_⟩
    cases locked with
    | true => trivial
    | false => exact ⟨rfl, fun _ _ => trivial⟩

/-- A lock that is taken is on a regular file at the lock path. -/
theorem acquireLock_entry (who : Attempt D) (g : Granted) (p : Path D) (d : Disk D)
    (locked : g.locks (d (lockPath p)) = true) :
    ∃ n, ((solo who g (acquireLock p) d).2 (lockPath p)).entry = some ⟨.file, n⟩ := by
  simp only [Granted.locks, Bool.and_eq_true, Option.any_eq_true] at locked
  obtain ⟨⟨create, _⟩, n, opens, _⟩ := locked
  refine ⟨n, ?_⟩
  rw [acquireLock, solo_ask, solo_entry (lockOpened_keeps _) who g _ fun c => Or.inl]
  simp only [Granted.allows, create]
  exact create_entry who opens

omit [DecidableEq D] in
/-- Past the lock `new` makes and removes files at its path only. -/
theorem newLocked_keeps (p : Path D) (lockFile : Option (File D)) :
    (newLocked p lockFile).Meets Call.Possible (fun c => c.keepsEntry = true ∨ c.path = p)
      fun _ => True := by
  cases lockFile with
  | none => trivial
  | some lockFile =>
    refine ⟨Or.inr rfl, fun _ _ => ?_⟩
    refine Program.meets_bind (p := bind p) (Program.meets_mono (fun c => Or.inr)
      (fun r _ => ?_) (bind_meets p))
    exact Program.meets_mono (fun c => Or.inl) (fun _ _ => trivial) (acceptOn_keeps p lockFile r)

/-- With nothing refused and nothing in the way there is a binding, its socket file at
the path and its lock file at the lock path. -/
theorem new_succeeds (who : Attempt D) (p : Path D) (d : Disk D)
    (lock : (d (lockPath p)).opens.any (d (lockPath p)).isFree = true)
    (free : (d p).entry = none ∨ (d p).isRemovable = true) :
    ∃ b, (solo who .all (new p) d).1 = .ok b ∧ b.Of p ∧
      (∃ n, ((solo who .all (new p) d).2 p).entry = some ⟨.socket, n⟩) ∧
      ∃ n, ((solo who .all (new p) d).2 (lockPath p)).entry = some ⟨.file, n⟩ := by
  have locked : Granted.all.locks (d (lockPath p)) = true := lock
  have bound : Granted.all.binds (d p) = true := by
    rcases free with nothing | removable
    · simp [Granted.binds, Granted.all, nothing]
    · simp [Granted.binds, Granted.removes, Granted.all, removable]
  obtain ⟨entry, failed⟩ := new_bound who .all p d locked bound
  have returns := solo_returns (new_meets p) who .all d
  cases hr : (solo who .all (new p) d).1 with
  | error e => cases failed.mp ⟨e, hr⟩
  | ok b =>
    rw [hr] at returns
    refine ⟨b, rfl, returns, ⟨_, entry⟩, ?_⟩
    obtain ⟨n, file⟩ := acquireLock_entry who .all p d locked
    refine ⟨n, ?_⟩
    rw [new_solo, solo_entry (newLocked_keeps p _) who .all _ ?_, file]
    intro c about
    rcases about with kept | here
    · exact Or.inl kept
    · exact Or.inr (here ▸ lockPath_ne p)

/-! ## Runs of one attempt -/

/-- The attempt's calls until its program goes on as `f`. -/
theorem making_steps {R : Type} {guard : World D → Label D → Prop} {who : Attempt D}
    (allowed : ∀ w act, guard w ⟨who, act⟩) (g : Granted) (prog : Prog D R)
    (f : R → Prog D (Except NewError (RefFsBinding D))) {w : World D}
    (here : w.phases who = some (settled (prog.bind f))) :
    Steps machine guard w ⟨(solo who g prog w.disk).2,
      Function.update w.phases who (some (settled (f (solo who g prog w.disk).1)))⟩ := by
  induction prog generalizing w with
  | ret r =>
    have same : Function.update w.phases who (some (settled (f r))) = w.phases := by
      have bound : some (settled (f r)) = w.phases who := here.symm
      rw [bound, Function.update_eq_self]
    change Steps machine guard w ⟨w.disk, Function.update w.phases who (some (settled (f r)))⟩
    rw [same]
    exact .refl
  | ask c k ih =>
    have later := ih (serve who (g.allows c) c w.disk).1
      (w := ⟨(serve who (g.allows c) c w.disk).2, Function.update w.phases who
        (some (settled ((k (serve who (g.allows c) c w.disk).1).bind f)))⟩)
      (Function.update_self _ _ _)
    simp only [Function.update_idem] at later
    refine .head ⟨⟨who, .call (g.allows c)⟩, allowed _ _, ?_⟩ later
    simp only [machine, step, here, Program.bind, settled, advance, Phase.asks, Option.map_some]

theorem entered {guard : World D → Label D → Prop} {who : Attempt D}
    (allowed : ∀ w act, guard w ⟨who, act⟩) {w : World D} (absent : w.phases who = none) :
    Steps machine guard w
      ⟨w.disk, Function.update w.phases who (some (settled (new who.path)))⟩ := by
  refine .single ⟨⟨who, .enter⟩, allowed _ _, ?_⟩
  simp only [machine, step, absent, advance, Option.map_some]

/-- A whole `new`. -/
theorem new_steps {guard : World D → Label D → Prop} {who : Attempt D}
    (allowed : ∀ w act, guard w ⟨who, act⟩) (g : Granted) {w : World D}
    (absent : w.phases who = none) {b : RefFsBinding D}
    (result : (solo who g (new who.path) w.disk).1 = .ok b) :
    Steps machine guard w ⟨(solo who g (new who.path) w.disk).2,
      Function.update w.phases who (some (.live b))⟩ := by
  have calls := making_steps allowed g (new who.path) .ret
    (w := ⟨w.disk, Function.update w.phases who (some (settled (new who.path)))⟩)
    (by rw [Program.bind_ret]; exact Function.update_self _ _ _)
  simp only [Function.update_idem, result] at calls
  exact (entered allowed absent).trans calls

/-! ## Two bindings -/

def blank : World D := ⟨fun _ => Spot.unused, fun _ => none⟩

/-- Some step of an attempt on `p` takes a file away from a live binding of `q`. -/
def Tramples (p q : Path D) : Prop :=
  ∃ w, Reachable machine (between p q) w ∧ (∃ n b, w.phases ⟨q, n⟩ = some (.live b)) ∧
    ∃ l t r, l.who.path = p ∧ step w l = some t ∧ (r = q ∨ r = lockPath q) ∧
      (w.disk r).entry ≠ none ∧ (t.disk r).entry = none

omit [DecidableEq D] in
theorem isRemovable_of_entry {s : Spot D} {kind : Kind} {n : Nat} (entry : s.entry = some ⟨kind, n⟩)
    (plain : kind ≠ .directory) : s.isRemovable = true := by
  simp [Spot.isRemovable, entry, plain]

/-- A step that unlinks what can be unlinked. -/
theorem removeFile_step {w : World D} (who : Attempt D) {r : Path D} {phase : Phase D}
    {next : Bool → Phase D} (here : w.phases who = some phase)
    (asks : phase.asks = some ⟨.removeFile r, next⟩) {kind : Kind} {n : Nat}
    (entry : (w.disk r).entry = some ⟨kind, n⟩) (plain : kind ≠ .directory) :
    ∃ t, step w ⟨who, .call true⟩ = some t ∧ (w.disk r).entry ≠ none ∧
      (t.disk r).entry = none := by
  have after := removeFile_here who true r w.disk
  rw [isRemovable_of_entry entry plain] at after
  have answered : step w ⟨who, .call true⟩ = some
      ⟨(serve who true (.removeFile r) w.disk).2, Function.update w.phases who
        (some (next (serve who true (.removeFile r) w.disk).1))⟩ := by
    simp only [step, here, advance, asks, Option.map_some]
  refine ⟨_, answered, ?_, congrArg Spot.entry after⟩
  rw [entry]
  exact Option.some_ne_none _

theorem drop_step {w : World D} {who : Attempt D} {b : RefFsBinding D}
    (live : w.phases who = some (.live b)) :
    ∃ t, step w ⟨who, .drop⟩ = some t ∧ t.disk = w.disk ∧
      t.phases = Function.update w.phases who (some (dropped (drop b))) := by
  refine ⟨⟨w.disk, Function.update w.phases who (some (dropped (drop b)))⟩, ?_, rfl, rfl⟩
  simp only [step, live, advance, Option.map_some]

/-- A `new` for which there is room leads to a live binding, and touches no other path. -/
theorem new_reaches {guard : World D → Label D → Prop} {w : World D}
    (hw : Reachable machine guard w) (who : Attempt D) (allowed : ∀ v act, guard v ⟨who, act⟩)
    (absent : w.phases who = none) (lock : w.disk (lockPath who.path) = Spot.unused)
    (free : (w.disk who.path).entry = none ∨ (w.disk who.path).isRemovable = true) :
    ∃ t b, Reachable machine guard t ∧ t.phases = Function.update w.phases who (some (.live b)) ∧
      b.Of who.path ∧ (∃ n, (t.disk who.path).entry = some ⟨.socket, n⟩) ∧
      (∃ n, (t.disk (lockPath who.path)).entry = some ⟨.file, n⟩) ∧
      ∀ r, r ≠ who.path → r ≠ lockPath who.path → t.disk r = w.disk r := by
  have open' :
      (w.disk (lockPath who.path)).opens.any (w.disk (lockPath who.path)).isFree = true := by
    rw [lock]
    rfl
  obtain ⟨b, made, own, socket, file⟩ := new_succeeds who who.path w.disk open' free
  have run := new_steps allowed .all absent made
  refine ⟨_, b, reachable_steps hw run, rfl, own, socket, file, fun r apart apart' => ?_⟩
  refine solo_elsewhere (new_meets who.path) who .all w.disk ?_
  rintro c (here | here)
  · exact here ▸ apart
  · exact here ▸ apart'

omit [DecidableEq D] in
theorem lockPath_lockPath_ne (p : Path D) : lockPath (lockPath p) ≠ p := by
  intro same
  have longer := congrArg (fun r : Path D => r.name.length) same
  simp [lockPath, lockSuffix] at longer

omit [DecidableEq D] in
theorem attempt_ne {p q : Path D} (distinct : p ≠ q) (n m : Nat) :
    (⟨p, n⟩ : Attempt D) ≠ ⟨q, m⟩ := by
  rintro ⟨⟩
  exact distinct rfl

omit [DecidableEq D] in
/-- The drop unlinks the lock path first. -/
theorem drop_asks {p : Path D} {b : RefFsBinding D} (own : b.Of p) :
    ∃ next, (dropped (drop b)).asks = some ⟨.removeFile (lockPath p), next⟩ := by
  obtain ⟨held, rfl, bound⟩ := own
  exact ⟨_, rfl⟩

omit [DecidableEq D] in
/-- Once it has the lock, `new` unlinks the path first. -/
theorem newLocked_asks (p : Path D) (lockFile : File D) :
    ∃ next, (settled (newLocked p (some lockFile))).asks = some ⟨.removeFile p, next⟩ :=
  ⟨_, rfl⟩

/-- A `new` whose lock is to be had comes to unlink its path. -/
theorem lock_reaches {guard : World D → Label D → Prop} {w : World D}
    (hw : Reachable machine guard w) (who : Attempt D) (allowed : ∀ v act, guard v ⟨who, act⟩)
    (absent : w.phases who = none) (lock : w.disk (lockPath who.path) = Spot.unused) :
    ∃ t lockFile, Reachable machine guard t ∧ t.disk who.path = w.disk who.path ∧
      t.phases =
        Function.update w.phases who (some (settled (newLocked who.path (some lockFile)))) := by
  have locked : Granted.all.locks (w.disk (lockPath who.path)) = true := by
    rw [lock]
    rfl
  obtain ⟨lockFile, answer, _⟩ := acquireLock_granted who .all who.path w.disk locked
  have calls := making_steps allowed .all (acquireLock who.path) (newLocked who.path)
    (w := ⟨w.disk, Function.update w.phases who (some (settled (new who.path)))⟩)
    (Function.update_self _ _ _)
  simp only [Function.update_idem, answer] at calls
  exact ⟨_, lockFile, reachable_steps hw ((entered allowed absent).trans calls),
    acquireLock_elsewhere who .all who.path w.disk, rfl⟩

/-- The drop of the one takes the socket file of the other for its lock file. -/
theorem tramples_lockPath (p : Path D) : Tramples p (lockPath p) := by
  have start : Reachable machine (between p (lockPath p)) (blank : World D) :=
    reachable_init fun _ => rfl
  have other : ∀ n m, (⟨lockPath p, n⟩ : Attempt D) ≠ ⟨p, m⟩ := attempt_ne (lockPath_ne p)
  -- a binding on `p`, and then one on its lock path
  obtain ⟨w₁, b, h₁, phases₁, own, _, ⟨n, lockFile⟩, kept⟩ :=
    new_reaches start ⟨p, 0⟩ (fun _ _ => Or.inl rfl) rfl rfl (Or.inl rfl)
  have unused : w₁.disk (lockPath (lockPath p)) = Spot.unused :=
    kept _ (lockPath_lockPath_ne p) (lockPath_ne (lockPath p))
  have absent : w₁.phases ⟨lockPath p, 0⟩ = none := by
    rw [phases₁]
    exact Function.update_of_ne (other 0 0) _ _
  obtain ⟨w₂, b', h₂, phases₂, _, ⟨m, socket⟩, _, _⟩ :=
    new_reaches h₁ ⟨lockPath p, 0⟩ (fun _ _ => Or.inr rfl) absent unused
      (Or.inr (isRemovable_of_entry lockFile (by decide)))
  -- the drop of the first
  have live : w₂.phases ⟨p, 0⟩ = some (.live b) := by
    rw [phases₂, phases₁, Function.update_of_ne (other 0 0).symm, Function.update_self]
  have live' : w₂.phases ⟨lockPath p, 0⟩ = some (.live b') := by
    rw [phases₂, Function.update_self]
  obtain ⟨w₃, dropping, disk, phases₃⟩ := drop_step live
  have live'' : w₃.phases ⟨lockPath p, 0⟩ = some (.live b') := by
    rw [phases₃, Function.update_of_ne (other 0 0), live']
  rw [← disk] at socket
  obtain ⟨next, asks⟩ := drop_asks own
  obtain ⟨t, taken, there, gone⟩ := removeFile_step (w := w₃) ⟨p, 0⟩
    (by rw [phases₃]; exact Function.update_self _ _ _) asks socket (by decide)
  exact ⟨w₃, reachable_step h₂ (Or.inl rfl) dropping, ⟨0, b', live''⟩, ⟨⟨p, 0⟩, .call true⟩, t,
    lockPath p, rfl, taken, Or.inl rfl, there, gone⟩

/-- The `new` of the one takes the lock file of the other for what was left at its path. -/
theorem lockPath_tramples (q : Path D) : Tramples (lockPath q) q := by
  have start : Reachable machine (between (lockPath q) q) (blank : World D) :=
    reachable_init fun _ => rfl
  have other : ∀ n m, (⟨lockPath q, n⟩ : Attempt D) ≠ ⟨q, m⟩ := attempt_ne (lockPath_ne q)
  -- a binding on `q`, and then a `new` on its lock path
  obtain ⟨w₁, b, h₁, phases₁, _, _, ⟨n, lockFile⟩, kept⟩ :=
    new_reaches start ⟨q, 0⟩ (fun _ _ => Or.inr rfl) rfl rfl (Or.inl rfl)
  have unused : w₁.disk (lockPath (lockPath q)) = Spot.unused :=
    kept _ (lockPath_lockPath_ne q) (lockPath_ne (lockPath q))
  have absent : w₁.phases ⟨lockPath q, 0⟩ = none := by
    rw [phases₁]
    exact Function.update_of_ne (other 0 0) _ _
  obtain ⟨w₂, file, h₂, same, phases₂⟩ :=
    lock_reaches h₁ ⟨lockPath q, 0⟩ (fun _ _ => Or.inl rfl) absent unused
  have held : (w₂.disk (lockPath q)).entry = some ⟨.file, n⟩ :=
    (congrArg Spot.entry same).trans lockFile
  have live : w₂.phases ⟨q, 0⟩ = some (.live b) := by
    rw [phases₂, phases₁, Function.update_of_ne (other 0 0).symm, Function.update_self]
  obtain ⟨next, asks⟩ := newLocked_asks (lockPath q) file
  obtain ⟨t, taken, there, gone⟩ := removeFile_step (w := w₂) ⟨lockPath q, 0⟩
    (by rw [phases₂]; exact Function.update_self _ _ _) asks held (by decide)
  exact ⟨w₂, h₂, ⟨0, b, live⟩, ⟨⟨lockPath q, 0⟩, .call true⟩, t, lockPath q, rfl, taken,
    Or.inr rfl, there, gone⟩

theorem not_independent_of_tramples {p q : Path D} (h : Tramples p q) : ¬ Independent p q := by
  intro independent
  obtain ⟨w, hw, _, l, t, r, other, taken, own, there, gone⟩ := h
  obtain ⟨socket, lock⟩ := independent.untouched w hw l t other taken
  apply there
  rcases own with rfl | rfl
  · rw [← socket]
    exact gone
  · rw [← lock]
    exact gone

/-- Distinct paths are independent exactly when neither is the lock path of the other. -/
theorem independent_iff {p q : Path D} (distinct : p ≠ q) : Independent p q ↔ Apart p q := by
  constructor
  · intro independent
    refine ⟨?_, ?_⟩
    · rintro rfl
      exact not_independent_of_tramples (lockPath_tramples q) independent
    · rintro rfl
      exact not_independent_of_tramples (tramples_lockPath p) independent
  · exact independent_of_apart distinct

theorem independent_iff_ab : Independent (⟨(), [97]⟩ : Path Unit) ⟨(), [98]⟩ :=
  (independent_iff (by decide)).mpr (by decide)

/-- A binding on `a.lock` loses its socket file to the drop of one on `a`. -/
theorem drop_takes_neighbour :
    (⟨(), [97]⟩ : Path Unit) ≠ ⟨(), [97, 46, 108, 111, 99, 107]⟩ ∧
      Tramples (⟨(), [97]⟩ : Path Unit) ⟨(), [97, 46, 108, 111, 99, 107]⟩ ∧
      ¬ Independent (⟨(), [97]⟩ : Path Unit) ⟨(), [97, 46, 108, 111, 99, 107]⟩ := by
  have tramples := tramples_lockPath (⟨(), [97]⟩ : Path Unit)
  exact ⟨by decide, tramples, not_independent_of_tramples tramples⟩

end FsBinding
