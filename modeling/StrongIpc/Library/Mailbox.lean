import StrongIpc.Library.StepMachine

/-!
# Mailboxes that live as long as they have a name

What a receiver of messages is for, in its own terms. As long as a mailbox has a name,
messages can be posted to it; a name once forgotten never comes back. Its reader takes the
messages in their order, and quits when it has taken all and there is no name any more. It
may also be stopped at any time.
-/

namespace Mailbox

open StepMachine

universe u
variable {M : Type u}

inductive Life where
  | going
  | quit
  | stopped
  deriving DecidableEq, Repr

structure Box (M : Type u) where
  named : Bool
  posted : List M
  read : Nat
  life : Life
  deriving DecidableEq, Repr

inductive Act (M : Type u) where
  | post (m : M)
  | forget
  | take
  | quit
  | stop
  deriving DecidableEq, Repr

def step (b : Box M) : Act M → Option (Box M)
  | .post m =>
    if b.life = .going ∧ b.named = true then some { b with posted := b.posted ++ [m] } else none
  | .forget => if b.named then some { b with named := false } else none
  | .take =>
    if b.life = .going ∧ b.read < b.posted.length then some { b with read := b.read + 1 } else none
  | .quit =>
    if b.life = .going ∧ b.posted.length ≤ b.read ∧ b.named = false then
      some { b with life := .quit }
    else none
  | .stop => if b.life = .going then some { b with life := .stopped } else none

def fresh : Box M := ⟨true, [], 0, .going⟩

def machine (M : Type u) : Machine (Box M) (Act M) where
  init b := b = fresh
  step := step

/-! ## Single steps -/

theorem post_taken {b : Box M} (going : b.life = .going) (named : b.named = true) (m : M) :
    step b (.post m) = some { b with posted := b.posted ++ [m] } :=
  if_pos ⟨going, named⟩

theorem take_taken {b : Box M} (going : b.life = .going) (unread : b.read < b.posted.length) :
    step b .take = some { b with read := b.read + 1 } :=
  if_pos ⟨going, unread⟩

theorem quit_taken {b : Box M} (going : b.life = .going) (all_read : b.posted.length ≤ b.read)
    (unnamed : b.named = false) : step b .quit = some { b with life := .quit } :=
  if_pos ⟨going, all_read, unnamed⟩

theorem stop_taken {b : Box M} (going : b.life = .going) :
    step b .stop = some { b with life := .stopped } :=
  if_pos going

/-- A name may be forgotten, and never comes back. -/
theorem forget_exec (b : Box M) {k : Bool} (falls : k = true → b.named = true) :
    exec (machine M) anyStep b (if b.named && !k then [.forget] else []) =
      some { b with named := k } := by
  obtain ⟨named, posted, read, life⟩ := b
  cases named with
  | true =>
    cases k with
    | true => rfl
    | false => rfl
  | false =>
    cases k with
    | true => exact absurd (falls rfl) Bool.false_ne_true
    | false => rfl

theorem post_next {b : Box M} (going : b.life = .going) (named : b.named = true) (m : M) :
    Steps (machine M) anyStep b { b with posted := b.posted ++ [m] } :=
  .single ⟨.post m, trivial, post_taken going named m⟩

theorem named_next (b : Box M) {k : Bool} (falls : k = true → b.named = true) :
    Steps (machine M) anyStep b { b with named := k } :=
  exec_steps (forget_exec b falls)

theorem take_next {b : Box M} (going : b.life = .going) (unread : b.read < b.posted.length) :
    Steps (machine M) anyStep b { b with read := b.read + 1 } :=
  .single ⟨.take, trivial, take_taken going unread⟩

theorem quit_next {b : Box M} (going : b.life = .going) (all_read : b.posted.length ≤ b.read)
    (unnamed : b.named = false) : Steps (machine M) anyStep b { b with life := .quit } :=
  .single ⟨.quit, trivial, quit_taken going all_read unnamed⟩

theorem stop_next {b : Box M} (going : b.life = .going) :
    Steps (machine M) anyStep b { b with life := .stopped } :=
  .single ⟨.stop, trivial, stop_taken going⟩

/-! ## Whole runs -/

/-- No more is taken than was posted, and a reader that has quit has taken all of it. -/
structure Sound (b : Box M) : Prop where
  within : b.read ≤ b.posted.length
  quit : b.life = .quit → b.read = b.posted.length ∧ b.named = false

theorem sound_step {b c : Box M} {a : Act M} (h : Sound b) (next : step b a = some c) :
    Sound c := by
  cases a with
  | post m =>
    obtain ⟨⟨going, _⟩, rfl⟩ := by simpa [step] using next
    refine ⟨?_, fun quit => ?_⟩
    · have := h.within
      simp only [List.length_append, List.length_singleton]
      omega
    · rw [going] at quit
      cases quit
  | forget =>
    obtain ⟨_, rfl⟩ := by simpa [step] using next
    exact ⟨h.within, fun quit => ⟨(h.quit quit).1, rfl⟩⟩
  | take =>
    obtain ⟨⟨going, unread⟩, rfl⟩ := by simpa [step] using next
    refine ⟨unread, fun quit => ?_⟩
    rw [going] at quit
    cases quit
  | quit =>
    obtain ⟨⟨_, all_read, unnamed⟩, rfl⟩ := by simpa [step] using next
    exact ⟨h.within, fun _ => ⟨Nat.le_antisymm h.within all_read, unnamed⟩⟩
  | stop =>
    obtain ⟨_, rfl⟩ := by simpa [step] using next
    refine ⟨h.within, fun quit => ?_⟩
    cases quit

theorem sound_fresh : Sound (fresh : Box M) := ⟨Nat.le_refl 0, fun quit => by cases quit⟩

theorem sound_steps {b c : Box M} (h : Sound b) (run : Steps (machine M) anyStep b c) : Sound c :=
  steps_invariant (P := Sound) (fun _ _ _ hs _ next => sound_step hs next) run h

end Mailbox
