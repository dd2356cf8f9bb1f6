import StrongIpc.Library.Pool

/-!
# The descriptor limit

`fd_limit`, `set_fd_limit` and `maximize_fd_limit`: one `getrlimit` and at most one
`setrlimit`, which has the soft and the hard limit in one. To leave the hard limit alone a
call writes back the one that it has read. As long as nobody else moves the hard limit, each
call takes effect at once, however many of them are under way.
-/

namespace FdLimits

open Interaction Pool StepMachine

/-- `RLIM_INFINITY` is `none`. -/
structure Rlimit where
  current : Option UInt64
  maximum : Option UInt64
  deriving DecidableEq, Repr

variable {w : Nat}

/-- `as_count`, with a `usize` of `w` bits. -/
def asCount (value : Option UInt64) : BitVec w :=
  match value with
  | none => .allOnes w
  | some v => if v.toNat ≤ (BitVec.allOnes w).toNat then .ofNat w v.toNat else .allOnes w

/-- `as_rlim`. -/
def asRlim (count : BitVec w) : Option UInt64 :=
  if count ≠ .allOnes w then
    some (if count.toNat < UInt64.size then .ofNat count.toNat else .ofNat (UInt64.size - 1))
  else none

theorem asCount_asRlim (narrow : w ≤ 64) (count : BitVec w) : asCount (asRlim count) = count := by
  have fits : count.toNat < UInt64.size :=
    Nat.lt_of_lt_of_le count.isLt (Nat.pow_le_pow_right (by decide) narrow)
  by_cases unlimited : count = .allOnes w
  · simp [asCount, asRlim, unlimited]
  · have same : (UInt64.ofNat count.toNat).toNat = count.toNat := UInt64.toNat_ofNat_of_lt' fits
    have inside : count.toNat ≤ (BitVec.allOnes w).toNat := by
      rw [BitVec.toNat_allOnes]
      exact Nat.le_sub_one_of_lt count.isLt
    simp only [asCount, asRlim, ne_eq, unlimited, not_false_eq_true, if_true, fits, same, inside,
      BitVec.ofNat_toNat, BitVec.setWidth_eq]

/-! ## The functions -/

inductive Call where
  | getrlimit
  | setrlimit (limit : Rlimit)
  deriving DecidableEq, Repr

@[reducible] def Call.Answer : Call → Type
  | .getrlimit => Rlimit
  | .setrlimit _ => Bool

/-- An `io::Error` is `none`. -/
abbrev Outcome (w : Nat) := Option (BitVec w)

abbrev Prog (w : Nat) := Program (@Call.Answer) (Outcome w)

/-- `fd_limit`. -/
def fdLimit : Prog w :=
  .ask .getrlimit fun limit => .ret (some (asCount limit.current))

/-- `set_fd_limit`. -/
def setFdLimit (limit : BitVec w) : Prog w :=
  let current := asRlim limit
  .ask .getrlimit fun hard =>
    .ask (.setrlimit ⟨current, hard.maximum⟩) fun moved =>
      .ret (if moved then some (asCount current) else none)

/-- `maximize_fd_limit`. -/
def maximizeFdLimit : Prog w :=
  .ask .getrlimit fun limit =>
    if limit.current ≠ limit.maximum then
      .ask (.setrlimit ⟨limit.maximum, limit.maximum⟩) fun moved =>
        .ret (if moved then some (asCount limit.maximum) else none)
    else .ret (some (asCount limit.maximum))

inductive Fn (w : Nat) where
  | fdLimit
  | setFdLimit (limit : BitVec w)
  | maximizeFdLimit
  deriving DecidableEq, Repr

def Fn.program : Fn w → Prog w
  | .fdLimit => FdLimits.fdLimit
  | .setFdLimit limit => FdLimits.setFdLimit limit
  | .maximizeFdLimit => FdLimits.maximizeFdLimit

/-! ## The kernel -/

/-- `a ≤ b`. -/
def within : Option UInt64 → Option UInt64 → Bool
  | _, none => true
  | none, some _ => false
  | some a, some b => a ≤ b

theorem within_refl (a : Option UInt64) : within a a = true := by
  cases a with
  | none => rfl
  | some a => simp [within]

/-- The soft limit stays within the hard one, and who has no privilege cannot raise that.
With `ok` the kernel has nothing of its own against it. -/
def serve (privileged ok : Bool) : (c : Call) → Rlimit → c.Answer × Rlimit
  | .getrlimit, s => (s, s)
  | .setrlimit limit, s =>
    if ok && within limit.current limit.maximum && (privileged || within limit.maximum s.maximum)
    then (true, limit) else (false, s)

/-- With the hard limit given. -/
def Under (hard : Option UInt64) (s : Rlimit) : Prop :=
  s.maximum = hard ∧ within s.current s.maximum = true

instance (hard : Option UInt64) : DecidablePred (Under hard) := fun _ =>
  inferInstanceAs (Decidable (_ ∧ _))

/-! ## What the functions are for -/

/-- To read the soft limit, to move it within the hard one or to that, or to fail and to
leave it. The hard limit is not touched. -/
def perform (ok : Bool) : Fn w → Rlimit → Outcome w × Rlimit
  | .fdLimit, s => (some (asCount s.current), s)
  | .setFdLimit limit, s =>
    if ok && within (asRlim limit) s.maximum then
      (some limit, { s with current := asRlim limit })
    else (none, s)
  | .maximizeFdLimit, s =>
    if ok then (some (asCount s.maximum), { s with current := s.maximum }) else (none, s)

/-- A call is refused only if the kernel refuses its last question. -/
def Grants (ok ok' : Bool) : Prop := ok = true → ok' = true

theorem performs_fdLimit (hard : Option UInt64) (privileged : Bool) :
    Performs (serve privileged) Grants (Under hard) (fun ok => perform ok .fdLimit) (@fdLimit w) :=
  performs_reads (fun s => s) (fun _ _ => rfl) fun _ _ =>
    Or.inr ⟨true, _, fun _ _ => rfl, rfl, rfl⟩

/-- The end of a call that has read the hard limit: it is still that. -/
theorem performs_setrlimit {hard : Option UInt64} {privileged : Bool}
    {op : Bool → Rlimit → Outcome w × Rlimit} {current : Option UInt64} {r : Outcome w}
    (moved : ∀ s, Under hard s → within current hard = true → op true s = (r, { s with current }))
    (refused : ∀ ok s, Under hard s → (ok && within current hard) = false → op ok s = (none, s)) :
    Performs (serve privileged) Grants (Under hard) op
      (.ask (.setrlimit ⟨current, hard⟩) fun moved => .ret (if moved then r else none)) := by
  refine performs_last fun ok s h => ?_
  have answer : serve privileged ok (.setrlimit ⟨current, hard⟩) s =
      if ok && within current hard then (true, { s with current }) else (false, s) := by
    simp [serve, ← h.1, within_refl]
  rw [answer]
  split
  · rename_i granted
    have inside := (Bool.and_eq_true_iff.mp granted).2
    exact ⟨⟨h.1, h.1.symm ▸ inside⟩, true, r, fun _ => rfl, rfl, moved s h inside⟩
  · rename_i denied
    exact ⟨h, ok, none, id, rfl, refused ok s h (by simpa using denied)⟩

theorem performs_setFdLimit (narrow : w ≤ 64) (hard : Option UInt64) (privileged : Bool)
    (limit : BitVec w) :
    Performs (serve privileged) Grants (Under hard) (fun ok => perform ok (.setFdLimit limit))
      (setFdLimit limit) := by
  refine performs_reads (fun s => s) (fun _ _ => rfl) ?_
  rintro s ⟨rfl, soft⟩
  refine Or.inl (performs_setrlimit (fun s' h inside => ?_) fun ok s' h denied => ?_)
  · simp [perform, h.1, inside, asCount_asRlim narrow]
  · simp only [perform, h.1, denied, Bool.false_eq_true, if_false]

theorem performs_maximizeFdLimit (hard : Option UInt64) (privileged : Bool) :
    Performs (serve privileged) Grants (Under hard) (fun ok => perform ok .maximizeFdLimit)
      (@maximizeFdLimit w) := by
  refine performs_reads (fun s => s) (fun _ _ => rfl) ?_
  rintro ⟨current, maximum⟩ ⟨rfl, soft⟩
  by_cases there : current = maximum
  · subst there
    exact Or.inr ⟨true, _, fun _ _ => rfl, if_neg fun below => below rfl, rfl⟩
  · refine Or.inl ?_
    rw [if_pos there]
    refine performs_setrlimit (fun s' h inside => ?_) fun ok s' h denied => ?_
    · simp [perform, h.1]
    · obtain rfl : ok = false := by simpa [within_refl] using denied
      rfl

theorem performs_program (narrow : w ≤ 64) (hard : Option UInt64) (privileged : Bool)
    (fn : Fn w) :
    Performs (serve privileged) Grants (Under hard) (fun ok => perform ok fn) fn.program := by
  cases fn with
  | fdLimit => exact performs_fdLimit hard privileged
  | setFdLimit limit => exact performs_setFdLimit narrow hard privileged limit
  | maximizeFdLimit => exact performs_maximizeFdLimit hard privileged

/-! ## Any number of calls -/

def machine (w : Nat) (privileged : Bool) :
    Machine (World (Fn w) Rlimit (@Call.Answer) (Outcome w)) (Label (Fn w) Bool Rlimit) :=
  Pool.machine Fn.program (serve privileged)

/-- As long as nobody else moves the hard limit, any number of calls that are under way at
one time, whatever the kernel refuses and whoever else moves the soft limit, can be told from
calls that do what they are for at once neither by their results nor by the limits: label by
label, with one question of each call the call, and everybody else's moves as they are. None of
them moves the hard limit. -/
theorem limit_calls_atomic (narrow : w ≤ 64) {privileged : Bool} {hard : Option UInt64}
    {labels : List (Label (Fn w) Bool Rlimit)}
    {s t : World (Fn w) Rlimit (@Call.Answer) (Outcome w)}
    (start : (machine w privileged).init s) (known : Under hard s.state)
    (run : exec (machine w privileged) (Kept (Under hard)) s labels = some t) :
    Under hard t.state ∧ Alongside (machine w privileged) (atomic perform) (Kept (Under hard)) Seen
      (Told Grants) s s.seen labels t t.seen :=
  seen_atomic (performs_program narrow hard privileged) start known run

/-- A process as it often is. -/
def usual : World (Fn 64) Rlimit (@Call.Answer) (Outcome 64) :=
  ⟨⟨some 1024, some 4096⟩, fun _ => none⟩

def threeCalls : List (Label (Fn 64) Bool Rlimit) :=
  [.enter 0 .maximizeFdLimit, .enter 1 (.setFdLimit 2048), .ask 0 true, .ask 1 true, .ask 1 true,
    .outside ⟨some 512, some 4096⟩, .enter 2 .fdLimit, .ask 0 true, .ask 2 true]

/-- The limit is raised in between reading and raising it, and lowered by somebody else. -/
theorem limit_calls_atomic_three :
    ∃ t, exec (machine 64 false) (Kept (Under (some 4096))) usual threeCalls = some t ∧
      Under (some 4096) t.state ∧
      Alongside (machine 64 false) (atomic perform) (Kept (Under (some 4096))) Seen (Told Grants)
        usual usual.seen threeCalls t t.seen := by
  obtain ⟨t, run⟩ := Option.isSome_iff_exists.mp (show (exec (machine 64 false)
    (Kept (Under (some 4096))) usual threeCalls).isSome = true by decide)
  exact ⟨t, run, limit_calls_atomic (by decide) (fun _ => rfl) (by decide) run⟩

-- a hard limit that was lowered in between is raised again, by who may
example : (exec (machine 64 true) anyStep usual [.enter 0 .maximizeFdLimit, .ask 0 true,
    .outside ⟨some 512, some 512⟩, .ask 0 true]).map World.state =
      some ⟨some 4096, some 4096⟩ := by
  decide

end FdLimits
