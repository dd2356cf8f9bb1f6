import StrongIpc.Library.Roster
import StrongIpc.Library.StepMachine

/-!
# The latch behind `Node::is_dead`

`death.rs`: any number of calls of `Death::wait` and of `Death::declare`, one step
an access to the flag or to the `Notify`. Of the `Notify` no more is relied on
than that `notify_waiters` wakes every waiter enabled before it and stores nothing
for later ones; whether one created before and enabled after it is woken is left
open.
-/

namespace Death

open Roster StepMachine

/-- `created` is after `notified()`, `enabled` after `enable`, and `parked` after the
flag was found down. A `Notified` knows whether `notify_waiters` came since it was
made, and once enabled, whether it was woken. -/
inductive WaitStage where
  | created (since : Bool)
  | enabled (woken : Bool)
  | parked (woken : Bool)
  | returned
  | cancelled
  deriving DecidableEq, Repr

inductive DeclareStage where
  | storing
  | notifying
  | done
  deriving DecidableEq, Repr

structure Latch where
  dead : Bool
  waits : List WaitStage
  declares : List DeclareStage
  deriving DecidableEq, Repr

inductive Act where
  | wait
  | enable (i : Nat) (heeds : Bool)
  | check (i : Nat)
  | resume (i : Nat)
  | cancel (i : Nat)
  | declare
  | store (j : Nat)
  | notify (j : Nat)
  deriving DecidableEq, Repr

/-- `notify_waiters`, for one waiter. -/
def WaitStage.notified : WaitStage → WaitStage
  | .created _ => .created true
  | .enabled _ => .enabled true
  | .parked _ => .parked true
  | .returned => .returned
  | .cancelled => .cancelled

def WaitStage.isOver : WaitStage → Bool
  | .returned => true
  | .cancelled => true
  | _ => false

def Latch.setWait (s : Latch) (i : Nat) (stage : WaitStage) : Latch :=
  { s with waits := s.waits.set i stage }

def Latch.setDeclare (s : Latch) (j : Nat) (stage : DeclareStage) : Latch :=
  { s with declares := s.declares.set j stage }

def step (s : Latch) : Act → Option Latch
  | .wait => some { s with waits := s.waits ++ [.created false] }
  | .enable i heeds =>
    match s.waits[i]? with
    | some (.created since) => some (s.setWait i (.enabled (heeds && since)))
    | _ => none
  | .check i =>
    match s.waits[i]? with
    | some (.enabled woken) => some (s.setWait i (if s.dead then .returned else .parked woken))
    | _ => none
  | .resume i =>
    match s.waits[i]? with
    | some (.parked true) => some (s.setWait i .returned)
    | _ => none
  | .cancel i =>
    match s.waits[i]? with
    | none => none
    | some w => if w.isOver then none else some (s.setWait i .cancelled)
  | .declare => some { s with declares := s.declares ++ [.storing] }
  | .store j =>
    match s.declares[j]? with
    | some .storing => some { s.setDeclare j .notifying with dead := true }
    | _ => none
  | .notify j =>
    match s.declares[j]? with
    | some .notifying =>
      some { s.setDeclare j .done with waits := s.waits.map WaitStage.notified }
    | _ => none

def machine : Machine Latch Act where
  init s := s = ⟨false, [], []⟩
  step := step

/-! ## Everything one step can do -/

inductive Move (s : Latch) : Act → Latch → Prop where
  | wait : Move s .wait { s with waits := s.waits ++ [.created false] }
  | enable (i : Nat) (heeds since : Bool) (hi : s.waits[i]? = some (.created since)) :
      Move s (.enable i heeds) (s.setWait i (.enabled (heeds && since)))
  | seen (i : Nat) (woken : Bool) (hi : s.waits[i]? = some (.enabled woken))
      (dead : s.dead = true) : Move s (.check i) (s.setWait i .returned)
  | park (i : Nat) (woken : Bool) (hi : s.waits[i]? = some (.enabled woken))
      (alive : s.dead = false) : Move s (.check i) (s.setWait i (.parked woken))
  | resume (i : Nat) (hi : s.waits[i]? = some (.parked true)) :
      Move s (.resume i) (s.setWait i .returned)
  | cancel (i : Nat) (w : WaitStage) (hi : s.waits[i]? = some w) :
      Move s (.cancel i) (s.setWait i .cancelled)
  | declare : Move s .declare { s with declares := s.declares ++ [.storing] }
  | store (j : Nat) (hj : s.declares[j]? = some .storing) :
      Move s (.store j) { s.setDeclare j .notifying with dead := true }
  | notify (j : Nat) (hj : s.declares[j]? = some .notifying) :
      Move s (.notify j) { s.setDeclare j .done with waits := s.waits.map WaitStage.notified }

theorem step_move {s s' : Latch} {a : Act} (h : step s a = some s') : Move s a s' := by
  cases a with
  | wait => cases h; exact .wait
  | enable i heeds =>
    rw [step] at h
    split at h
    · rename_i since hi
      cases h
      exact .enable i heeds since hi
    · cases h
  | check i =>
    rw [step] at h
    split at h
    · rename_i woken hi
      cases h
      by_cases dead : s.dead = true
      · rw [if_pos dead]
        exact .seen i woken hi dead
      · rw [if_neg dead]
        exact .park i woken hi (Bool.not_eq_true _ ▸ dead)
    · cases h
  | resume i =>
    rw [step] at h
    split at h
    · rename_i hi
      cases h
      exact .resume i hi
    · cases h
  | cancel i =>
    rw [step] at h
    split at h
    · cases h
    · rename_i w hi
      split at h
      · cases h
      · cases h
        exact .cancel i w hi
  | declare => cases h; exact .declare
  | store j =>
    rw [step] at h
    split at h
    · rename_i hj
      cases h
      exact .store j hj
    · cases h
  | notify j =>
    rw [step] at h
    split at h
    · rename_i hj
      cases h
      exact .notify j hj
    · cases h

/-! ## No waiter is missed -/

theorem dead_stays {s s' : Latch} {a : Act} (m : Move s a s') (dead : s.dead = true) :
    s'.dead = true := by
  cases m with
  | store j hj => rfl
  | _ => exact dead

/-- `notify_waiters` has come since it was made, or it has returned. -/
def WaitStage.told : WaitStage → Bool
  | .created since => since
  | .enabled woken => woken
  | .parked woken => woken
  | .returned => true
  | .cancelled => false

/-- The flag is up once any `declare` has stored it; whoever was told comes after
that; and once a `declare` is through, nobody is parked and not woken. -/
structure Heard (s : Latch) : Prop where
  stored : ∀ d ∈ s.declares, d ≠ .storing → s.dead = true
  told : ∀ w ∈ s.waits, w.told = true → s.dead = true
  roused : ∀ d ∈ s.declares, d = .done → WaitStage.parked false ∉ s.waits

theorem Heard.setWait {s : Latch} (h : Heard s) {i : Nat} {stage : WaitStage}
    (told : stage.told = true → s.dead = true)
    (roused : stage = .parked false → ∀ d ∈ s.declares, d ≠ .done) : Heard (s.setWait i stage) where
  stored := h.stored
  told := by
    intro w hw
    rcases List.mem_or_eq_of_mem_set hw with old | rfl
    · exact h.told w old
    · exact told
  roused := by
    intro d hd done hw
    rcases List.mem_or_eq_of_mem_set hw with old | new
    · exact h.roused d hd done old
    · exact roused new.symm d hd done

theorem heard_step {s s' : Latch} {a : Act} (h : Heard s) (m : Move s a s') : Heard s' := by
  cases m with
  | wait =>
    constructor
    · exact h.stored
    · intro w hw
      rcases List.mem_append.mp hw with old | new
      · exact h.told w old
      · simp [List.mem_singleton.mp new, WaitStage.told]
    · intro d hd done hw
      rcases List.mem_append.mp hw with old | new
      · exact h.roused d hd done old
      · cases List.mem_singleton.mp new
  | enable i heeds since hi =>
    apply h.setWait
    · intro woken
      have since : since = true := (Bool.and_eq_true_iff.mp woken).2
      exact h.told _ (List.mem_of_getElem? hi) since
    · simp
  | seen i woken hi dead =>
    apply h.setWait
    · exact fun _ => dead
    · simp
  | park i woken hi alive =>
    apply h.setWait
    · intro woken
      exact h.told _ (List.mem_of_getElem? hi) woken
    · intro _ d hd done
      -- the flag was down, so no `declare` has come as far as that
      have dead := h.stored d hd (by simp [done])
      rw [alive] at dead
      cases dead
  | resume i hi =>
    apply h.setWait
    · exact fun _ => h.told _ (List.mem_of_getElem? hi) rfl
    · simp
  | cancel i w hi =>
    apply h.setWait
    · simp [WaitStage.told]
    · simp
  | declare =>
    constructor
    · intro d hd late
      rcases List.mem_append.mp hd with old | new
      · exact h.stored d old late
      · exact absurd (List.mem_singleton.mp new) late
    · exact h.told
    · intro d hd done
      rcases List.mem_append.mp hd with old | new
      · exact h.roused d old done
      · rw [done] at new
        cases List.mem_singleton.mp new
  | store j hj =>
    constructor
    · exact fun _ _ _ => rfl
    · exact fun _ _ _ => rfl
    · intro d hd done
      rcases List.mem_or_eq_of_mem_set hd with old | rfl
      · exact h.roused d old done
      · cases done
  | notify j hj =>
    have dead : s.dead = true := h.stored _ (List.mem_of_getElem? hj) (by simp)
    constructor
    · exact fun _ _ _ => dead
    · exact fun _ _ _ => dead
    · intro _ _ _ hw
      obtain ⟨v, _, same⟩ := List.mem_map.mp hw
      cases v <;> cases same

theorem heard {guard : Latch → Act → Prop} {s : Latch} (h : Reachable machine guard s) :
    Heard s := by
  refine reachable_invariant ?_ ?_ h
  · rintro s rfl
    exact ⟨by simp, by simp, by simp⟩
  · intro s a s' hs _ hstep
    exact heard_step hs (step_move hstep)

/-- Death is a latch: once up the flag stays up, a `wait` returns only when it is up,
and once a `declare` is through, whoever is parked has been woken. -/
theorem no_waiter_missed {s : Latch} (h : Reachable machine anyStep s) :
    (∀ t, Steps machine anyStep s t → s.dead = true → t.dead = true) ∧
      (∀ i : Nat, s.waits[i]? = some .returned → s.dead = true) ∧
      ∀ (i j : Nat) (woken : Bool), s.declares[j]? = some .done →
        s.waits[i]? = some (.parked woken) → woken = true := by
  have hs := heard h
  refine ⟨fun t run => ?_, fun i hi => ?_, fun i j woken hj hi => ?_⟩
  · exact steps_invariant (fun _ _ _ dead _ hstep => dead_stays (step_move hstep) dead) run
  · exact hs.told _ (List.mem_of_getElem? hi) rfl
  · cases woken with
    | true => rfl
    | false =>
      exact absurd (List.mem_of_getElem? hi) (hs.roused _ (List.mem_of_getElem? hj) rfl)

/-- One waiter was parked, one came between the store and the notification, and one
was cancelled. -/
def told : Latch := ⟨true, [.returned, .returned, .cancelled], [.done]⟩

theorem told_run : exec machine anyStep ⟨false, [], []⟩
    [.wait, .enable 0 false, .check 0, .wait, .wait, .enable 2 true, .declare, .store 0,
      .enable 1 false, .check 1, .notify 0, .cancel 2, .resume 0] = some told := by
  decide

theorem no_waiter_missed_told :
    (∀ t, Steps machine anyStep told t → told.dead = true → t.dead = true) ∧
      (∀ i : Nat, told.waits[i]? = some .returned → told.dead = true) ∧
      ∀ (i j : Nat) (woken : Bool), told.declares[j]? = some .done →
        told.waits[i]? = some (.parked woken) → woken = true :=
  no_waiter_missed (exec_reachable rfl told_run)

end Death
