import StrongIpc.Library.BoundedChannel
import StrongIpc.Library.Roster
import StrongIpc.Library.StepMachine
import StrongIpc.Wire

/-!
# The outbox and its backlog counter

`outbox.rs`: the channel, the counter `pending` that gates the inline path, the
drain task, and the two ways in, `Outbox::push` and `Outbox::send`. Every access
to `pending` and every channel operation is a step of its own, so the state of a
call says which of its accesses are behind it. Messages are opaque here.

Counting up is unbounded, since 2^64 calls would have to be in progress at once
for it to wrap; counting down wraps as the atomic does.
-/

namespace OutboxTraffic

open BoundedChannel Roster StepMachine Wire

universe u
variable {M : Type u}

/-- `DEPTH`. -/
def depth : Nat := 8

def fetchAdd (n : Nat) : Nat := n + 1

def fetchSub (n : Nat) : Nat := if n = 0 then UInt64.size - 1 else n - 1

/-- Where `Outbox::drain` stands. The message in hand is dropped only when the
loop comes round again or returns, after `pending` was lowered. -/
inductive Drain (M : Type u) where
  | receiving
  | sending (m : M)
  | accounting (m : M) (sent : Bool)
  | leaving
  | ended
  deriving DecidableEq, Repr

/-- The message in hand whose send has not been accounted for. -/
def Drain.held : Drain M → Nat
  | .sending _ => 1
  | .accounting _ _ => 1
  | .receiving => 0
  | .leaving => 0
  | .ended => 0

/-- At an `await`: waiting for a message, or for room to send the one in hand. -/
def Drain.isParked : Drain M → Bool
  | .receiving => true
  | .sending _ => true
  | .accounting _ _ => false
  | .leaving => false
  | .ended => false

structure Outbox (M : Type u) where
  pending : Nat
  channel : Channel M
  drain : Drain M
  deriving DecidableEq, Repr

def build : Outbox M := ⟨0, .new depth, .receiving⟩

def Outbox.isBackedUp (b : Outbox M) : Bool := b.pending != 0

/-- What is handed to the drain task and not yet accounted for by it. -/
def Outbox.counted (b : Outbox M) : Nat := b.channel.queue.length + b.drain.held

/-! ## The drain task -/

/-- `abort` is the runtime going away: it drops its tasks where they wait, this one
with its receiver and the message in hand. -/
inductive DrainAct where
  | recv
  | sendmsg (r : SendResult)
  | account
  | finish
  | abort
  deriving DecidableEq, Repr

/-- The step is the task's last, in whichever way it comes to its end. -/
def DrainAct.isLast : DrainAct → Bool
  | .finish => true
  | .abort => true
  | _ => false

def Outbox.drainStep (b : Outbox M) : DrainAct → Option (Outbox M)
  | .recv =>
    match b.drain, b.channel.recv with
    | .receiving, some (some m, c) => some { b with channel := c, drain := .sending m }
    | .receiving, some (none, c) => some { b with channel := c, drain := .leaving }
    | _, _ => none
  | .sendmsg r =>
    match b.drain with
    | .sending m =>
      some (if r = .wouldBlock then b else { b with drain := .accounting m (r = .ok) })
    | _ => none
  | .account =>
    match b.drain with
    | .accounting _ sent =>
      some { b with
        pending := fetchSub b.pending
        drain := if sent then .receiving else .leaving }
    | _ => none
  | .finish =>
    match b.drain with
    | .leaving => some { b with channel := b.channel.dropReceiver, drain := .ended }
    | _ => none
  | .abort =>
    if b.drain.isParked then
      some { b with channel := b.channel.dropReceiver, drain := .ended }
    else none

/-! ## The calls -/

inductive OpResult where
  | accepted
  | refused (e : Refusal)
  | cancelled
  deriving DecidableEq, Repr

/-- Where a call stands: `claim`, `offer` and `giveBack` are `Outbox::push`, the
next four `Outbox::send`. A permit may be set aside for a parked call before the
call is polled again. -/
inductive Op where
  | claim
  | offer
  | giveBack (e : Refusal)
  | reserving
  | granted
  | claimSlot
  | place
  | done (r : OpResult)
  deriving DecidableEq, Repr

/-- A count taken and neither handed over with a message nor given back. -/
def Op.claims : Op → Nat
  | .offer => 1
  | .giveBack _ => 1
  | .place => 1
  | .claim => 0
  | .reserving => 0
  | .granted => 0
  | .claimSlot => 0
  | .done _ => 0

/-- The next step of a call with message `m`; a parked call has none. -/
def Outbox.opStep (b : Outbox M) (m : M) : Op → Option (Outbox M × Op)
  | .claim => some ({ b with pending := fetchAdd b.pending }, .offer)
  | .offer =>
    match b.channel.trySend m with
    | .ok c => some ({ b with channel := c }, .done .accepted)
    | .error e => some (b, .giveBack e)
  | .giveBack e => some ({ b with pending := fetchSub b.pending }, .done (.refused e))
  | .reserving =>
    if b.channel.receiving then b.channel.grant.map fun c => ({ b with channel := c }, .claimSlot)
    else some (b, .done (.refused .closed))
  | .granted =>
    if b.channel.receiving then some (b, .claimSlot)
    else some ({ b with channel := b.channel.dropPermit }, .done (.refused .closed))
  | .claimSlot => some ({ b with pending := fetchAdd b.pending }, .place)
  | .place => some ({ b with channel := b.channel.permitSend m }, .done .accepted)
  | .done _ => none

/-- A freed slot is set aside for a parked call. -/
def Outbox.opGrant (b : Outbox M) : Op → Option (Outbox M × Op)
  | .reserving => b.channel.grant.map fun c => ({ b with channel := c }, .granted)
  | _ => none

/-- The future of a parked call is dropped. -/
def Outbox.opCancel (b : Outbox M) : Op → Option (Outbox M × Op)
  | .reserving => some (b, .done .cancelled)
  | .granted => some ({ b with channel := b.channel.dropPermit }, .done .cancelled)
  | _ => none

/-! ## What one step does -/

theorem fetchSub_add_one (n : Nat) : fetchSub (n + 1) = n := by
  simp [fetchSub]

/-- Everything one step of a call can do: the state it leaves and where it stands then. -/
inductive OpMove (b : Outbox M) (m : M) : Op → Outbox M → Op → Prop where
  | claimed : OpMove b m .claim { b with pending := fetchAdd b.pending } .offer
  | queued (alive : b.channel.receiving = true) (room : b.channel.hasRoom = true) :
      OpMove b m .offer
        { b with channel := { b.channel with queue := b.channel.queue ++ [m] } } (.done .accepted)
  | bounced (e : Refusal) (honest : e = .closed → b.channel.receiving = false)
      (crowded : e = .full → b.channel.hasRoom = false) : OpMove b m .offer b (.giveBack e)
  | gaveBack (e : Refusal) :
      OpMove b m (.giveBack e) { b with pending := fetchSub b.pending } (.done (.refused e))
  | reserved (alive : b.channel.receiving = true) (room : b.channel.hasRoom = true) :
      OpMove b m .reserving
        { b with channel := { b.channel with permits := b.channel.permits + 1 } } .claimSlot
  | turnedAway (gone : b.channel.receiving = false) :
      OpMove b m .reserving b (.done (.refused .closed))
  | resumed (alive : b.channel.receiving = true) : OpMove b m .granted b .claimSlot
  | grantLost (gone : b.channel.receiving = false) :
      OpMove b m .granted { b with channel := b.channel.dropPermit } (.done (.refused .closed))
  | slotClaimed : OpMove b m .claimSlot { b with pending := fetchAdd b.pending } .place
  | placed : OpMove b m .place { b with channel := b.channel.permitSend m } (.done .accepted)

theorem opStep_move {b b' : Outbox M} {m : M} {op op' : Op}
    (h : b.opStep m op = some (b', op')) : OpMove b m op b' op' := by
  cases op with
  | claim =>
    obtain ⟨rfl, rfl⟩ : _ = b' ∧ _ = op' := by simpa [Outbox.opStep] using h
    exact .claimed
  | offer =>
    cases ho : b.channel.trySend m with
    | ok c =>
      obtain ⟨rfl, rfl⟩ : _ = b' ∧ _ = op' := by simpa [Outbox.opStep, ho] using h
      obtain ⟨alive, room, rfl⟩ := Channel.trySend_ok ho
      exact .queued alive room
    | error e =>
      obtain ⟨rfl, rfl⟩ : _ = b' ∧ _ = op' := by simpa [Outbox.opStep, ho] using h
      exact .bounced e (fun he => Channel.trySend_closed (he ▸ ho))
        (fun he => Channel.trySend_full (he ▸ ho))
  | giveBack e =>
    obtain ⟨rfl, rfl⟩ : _ = b' ∧ _ = op' := by simpa [Outbox.opStep] using h
    exact .gaveBack e
  | reserving =>
    cases hr : b.channel.receiving with
    | true =>
      obtain ⟨c, hc, rfl, rfl⟩ : ∃ c, b.channel.grant = some c ∧ _ = b' ∧ _ = op' := by
        simpa [Outbox.opStep, hr] using h
      obtain ⟨alive, room, rfl⟩ := Channel.grant_some hc
      exact .reserved alive room
    | false =>
      obtain ⟨rfl, rfl⟩ : _ = b' ∧ _ = op' := by simpa [Outbox.opStep, hr] using h
      exact .turnedAway hr
  | granted =>
    cases hr : b.channel.receiving with
    | true =>
      obtain ⟨rfl, rfl⟩ : _ = b' ∧ _ = op' := by simpa [Outbox.opStep, hr] using h
      exact .resumed hr
    | false =>
      obtain ⟨rfl, rfl⟩ : _ = b' ∧ _ = op' := by simpa [Outbox.opStep, hr] using h
      exact .grantLost hr
  | claimSlot =>
    obtain ⟨rfl, rfl⟩ : _ = b' ∧ _ = op' := by simpa [Outbox.opStep] using h
    exact .slotClaimed
  | place =>
    obtain ⟨rfl, rfl⟩ : _ = b' ∧ _ = op' := by simpa [Outbox.opStep] using h
    exact .placed
  | done r => simp [Outbox.opStep] at h

/-- A step of a call leaves the drain task and both ends of the channel alone, and
queues the call's message exactly when it is the step that accepts it. -/
theorem OpMove.effect {b b' : Outbox M} {m : M} {op op' : Op} (h : OpMove b m op b' op') :
    b'.drain = b.drain ∧ b'.channel.sending = b.channel.sending ∧
      b'.channel.receiving = b.channel.receiving ∧
      b'.channel.queue = b.channel.queue ++ (if op' = .done .accepted then [m] else []) := by
  cases h <;> simp [Channel.dropPermit, Channel.permitSend]

/-- The count and what is counted change together. -/
theorem OpMove.balance {b b' : Outbox M} {m : M} {op op' : Op} (h : OpMove b m op b' op')
    {slack : Nat} (balance : b.pending = b.counted + op.claims + slack) :
    b'.pending = b'.counted + op'.claims + slack := by
  cases h with
  | gaveBack e =>
    have positive : b.pending = (b.counted + slack) + 1 := by
      simp only [Op.claims] at balance
      omega
    simp only [Op.claims, Outbox.counted, positive, fetchSub_add_one] at balance ⊢
    omega
  | claimed => simp only [fetchAdd, Op.claims, Outbox.counted] at balance ⊢; omega
  | slotClaimed => simp only [fetchAdd, Op.claims, Outbox.counted] at balance ⊢; omega
  | queued =>
    simp only [Op.claims, Outbox.counted, List.length_append, List.length_singleton] at balance ⊢
    omega
  | placed =>
    simp only [Op.claims, Outbox.counted, Channel.permitSend, List.length_append,
      List.length_singleton] at balance ⊢
    omega
  | bounced e => exact balance
  | reserved => exact balance
  | turnedAway => exact balance
  | resumed => exact balance
  | grantLost => exact balance

/-- Setting a slot aside for a parked call, and dropping its future, touch permits only. -/
inductive ParkMove (b : Outbox M) : Op → Outbox M → Op → Prop where
  | granted (alive : b.channel.receiving = true) (room : b.channel.hasRoom = true) :
      ParkMove b .reserving
        { b with channel := { b.channel with permits := b.channel.permits + 1 } } .granted
  | cancelled : ParkMove b .reserving b (.done .cancelled)
  | returned :
      ParkMove b .granted { b with channel := b.channel.dropPermit } (.done .cancelled)

theorem opGrant_move {b b' : Outbox M} {op op' : Op} (h : b.opGrant op = some (b', op')) :
    ParkMove b op b' op' := by
  cases op with
  | reserving =>
    obtain ⟨c, hc, rfl, rfl⟩ : ∃ c, b.channel.grant = some c ∧ _ = b' ∧ _ = op' := by
      simpa [Outbox.opGrant] using h
    obtain ⟨alive, room, rfl⟩ := Channel.grant_some hc
    exact .granted alive room
  | _ => simp [Outbox.opGrant] at h

theorem opCancel_move {b b' : Outbox M} {op op' : Op} (h : b.opCancel op = some (b', op')) :
    ParkMove b op b' op' := by
  cases op with
  | reserving =>
    obtain ⟨rfl, rfl⟩ : _ = b' ∧ _ = op' := by simpa [Outbox.opCancel] using h
    exact .cancelled
  | granted =>
    obtain ⟨rfl, rfl⟩ : _ = b' ∧ _ = op' := by simpa [Outbox.opCancel] using h
    exact .returned
  | _ => simp [Outbox.opCancel] at h

theorem opGrant_granted {b b' : Outbox M} {op op' : Op} (h : b.opGrant op = some (b', op')) :
    op' = .granted := by
  cases op with
  | reserving =>
    obtain ⟨c, _, _, rfl⟩ : ∃ c, b.channel.grant = some c ∧ _ = b' ∧ _ = op' := by
      simpa [Outbox.opGrant] using h
    rfl
  | _ => simp [Outbox.opGrant] at h

theorem opCancel_gone {b b' : Outbox M} {op op' : Op} (h : b.opCancel op = some (b', op')) :
    op' = .done .cancelled := by
  cases op with
  | reserving =>
    obtain ⟨_, rfl⟩ : _ = b' ∧ _ = op' := by simpa [Outbox.opCancel] using h
    rfl
  | granted =>
    obtain ⟨_, rfl⟩ : _ = b' ∧ _ = op' := by simpa [Outbox.opCancel] using h
    rfl
  | _ => simp [Outbox.opCancel] at h

theorem ParkMove.effect {b b' : Outbox M} {op op' : Op} (h : ParkMove b op b' op') :
    b'.drain = b.drain ∧ b'.pending = b.pending ∧ b'.channel.queue = b.channel.queue ∧
      b'.channel.sending = b.channel.sending ∧ b'.channel.receiving = b.channel.receiving ∧
      op.claims = 0 ∧ op'.claims = 0 ∧ op' ≠ .done .accepted := by
  cases h <;> simp [Channel.dropPermit, Op.claims]

/-- Everything one step of the drain task can do. -/
inductive DrainMove (b : Outbox M) : DrainAct → Outbox M → Prop where
  | took (m : M) (rest : List M) (idle : b.drain = .receiving) (hq : b.channel.queue = m :: rest) :
      DrainMove b .recv
        { b with channel := { b.channel with queue := rest }, drain := .sending m }
  | closed (idle : b.drain = .receiving) (empty : b.channel.queue = [])
      (gone : b.channel.sending = false) : DrainMove b .recv { b with drain := .leaving }
  | retry (m : M) (busy : b.drain = .sending m) : DrainMove b (.sendmsg .wouldBlock) b
  | answered (m : M) (r : SendResult) (busy : b.drain = .sending m) (final : r ≠ .wouldBlock) :
      DrainMove b (.sendmsg r) { b with drain := .accounting m (r = .ok) }
  | accounted (m : M) (sent : Bool) (busy : b.drain = .accounting m sent) :
      DrainMove b .account
        { b with
          pending := fetchSub b.pending
          drain := if sent then .receiving else .leaving }
  | left (leaving : b.drain = .leaving) :
      DrainMove b .finish { b with channel := b.channel.dropReceiver, drain := .ended }
  | aborted (parked : b.drain.isParked = true) :
      DrainMove b .abort { b with channel := b.channel.dropReceiver, drain := .ended }

theorem drainStep_move {b b' : Outbox M} {a : DrainAct} (h : b.drainStep a = some b') :
    DrainMove b a b' := by
  cases a with
  | recv =>
    rw [Outbox.drainStep] at h
    split at h
    · rename_i m c idle hrecv
      obtain ⟨hq, hc⟩ := Channel.recv_some hrecv
      rw [hc] at h
      cases h
      exact .took m c.queue idle hq
    · rename_i c idle hrecv
      obtain ⟨empty, gone, rfl⟩ := Channel.recv_none hrecv
      cases h
      exact .closed idle empty gone
    · cases h
  | sendmsg r =>
    rw [Outbox.drainStep] at h
    split at h
    · rename_i m busy
      by_cases again : r = .wouldBlock
      · subst again
        obtain rfl : b = b' := by simpa using h
        exact .retry m busy
      · obtain rfl : _ = b' := by simpa [again] using h
        exact .answered m r busy again
    · cases h
  | account =>
    rw [Outbox.drainStep] at h
    split at h
    · rename_i m sent busy
      cases h
      exact .accounted m sent busy
    · cases h
  | finish =>
    rw [Outbox.drainStep] at h
    split at h
    · rename_i leaving
      cases h
      exact .left leaving
    · cases h
  | abort =>
    rw [Outbox.drainStep] at h
    split at h
    · rename_i parked
      cases h
      exact .aborted parked
    · cases h

/-- A task that takes a step has not come to its end; it does with its last. -/
theorem DrainMove.ended_iff {b b' : Outbox M} {a : DrainAct} (h : DrainMove b a b') :
    b.drain ≠ .ended ∧ (b'.drain = .ended ↔ a.isLast = true) := by
  cases h with
  | took m rest idle hq => simp [idle, DrainAct.isLast]
  | closed idle empty gone => simp [idle, DrainAct.isLast]
  | retry m busy => simp [busy, DrainAct.isLast]
  | answered m r busy final => simp [busy, DrainAct.isLast]
  | accounted m sent busy => cases sent <;> simp [busy, DrainAct.isLast]
  | left leaving => simp [leaving, DrainAct.isLast]
  | aborted parked =>
    refine ⟨fun done => ?_, iff_of_true rfl rfl⟩
    rw [done] at parked
    cases parked

/-- What goes uncounted when the drain task takes this step: all that is queued when
it leaves, and the message in hand too when it is dropped. -/
def Outbox.strands (b : Outbox M) : DrainAct → Nat
  | .finish => b.channel.queue.length
  | .abort => b.counted
  | _ => 0

theorem strands_none {b : Outbox M} {a : DrainAct} (goes_on : a.isLast = false) :
    b.strands a = 0 := by
  cases a <;> first | rfl | cases goes_on

/-- The drain task keeps count and counted together, until it leaves or is dropped:
what is waiting at that moment stays counted for good. -/
theorem DrainMove.balance {b b' : Outbox M} {a : DrainAct} (h : DrainMove b a b') {slack : Nat}
    (balance : b.pending = b.counted + slack) :
    b'.pending = b'.counted + (slack + b.strands a) := by
  cases h with
  | took m rest idle hq =>
    simp only [Outbox.counted, idle, hq, Drain.held, List.length_cons, Outbox.strands] at balance ⊢
    omega
  | closed idle empty gone =>
    simp only [Outbox.counted, idle, Drain.held, Outbox.strands] at balance ⊢
    omega
  | retry m busy => exact balance
  | answered m r busy final =>
    simp only [Outbox.counted, busy, Drain.held, Outbox.strands] at balance ⊢
    omega
  | accounted m sent busy =>
    have positive : b.pending = (b.channel.queue.length + slack) + 1 := by
      simp only [Outbox.counted, busy, Drain.held] at balance
      omega
    have released : (if sent then Drain.receiving else Drain.leaving : Drain M).held = 0 := by
      cases sent <;> rfl
    simp only [Outbox.counted, positive, fetchSub_add_one, released, Outbox.strands]
    omega
  | left leaving =>
    simp only [Outbox.counted, leaving, Drain.held, Channel.dropReceiver, List.length_nil,
      Outbox.strands] at balance ⊢
    omega
  | aborted parked =>
    simp only [Outbox.counted, Drain.held, Channel.dropReceiver, List.length_nil,
      Outbox.strands] at balance ⊢
    omega

end OutboxTraffic
