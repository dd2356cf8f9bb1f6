import StrongIpc.Library.Interaction
import StrongIpc.SenderInvariants

/-!
# `try_send` and `send` as programs

What the two functions do between their accesses to shared state, the errors they return
and the message that is moved through both. A stage of a call is a place in its program,
and a step of the call answers what the program asks there.
-/

namespace SendProgram

open BoundedChannel Interaction OutboxTraffic RefSender Roster StepMachine Wire

/-! ## The errors -/

/-- `mpsc::error::TrySendError`. -/
inductive MpscError where
  | full (m : Message)
  | closed (m : Message)
  deriving DecidableEq, Repr

def MpscError.message : MpscError → Message
  | .full m => m
  | .closed m => m

inductive SendError where
  | tooLarge (m : Message)
  | closed (m : Message)
  deriving DecidableEq, Repr

inductive TrySendError where
  | full (m : Message)
  | tooLarge (m : Message)
  | closed (m : Message)
  deriving DecidableEq, Repr

def SendError.intoMessage : SendError → Message
  | .tooLarge m => m
  | .closed m => m

def TrySendError.intoMessage : TrySendError → Message
  | .full m => m
  | .tooLarge m => m
  | .closed m => m

/-! ## The accesses -/

/-- `expect` is the `get` that cannot find the `OnceLock` empty; `dropBuilt` drops an
outbox that `set` refused. -/
inductive Access where
  | get
  | isBackedUp (o : Nat)
  | sendNow (m : Message)
  | build
  | set (o : Nat)
  | dropBuilt (o : Nat)
  | expect
  | fetchAdd (o : Nat)
  | fetchSub (o : Nat)
  | trySend (o : Nat) (m : Message)
  | reserve (o : Nat)
  | permitSend (o : Nat) (m : Message)
  deriving DecidableEq, Repr

def Access.Answer : Access → Type
  | .get => Option Nat
  | .isBackedUp _ => Bool
  | .sendNow _ => SendResult
  | .build => Option Nat
  | .set _ => Bool
  | .dropBuilt _ => Unit
  | .expect => Nat
  | .fetchAdd _ => Unit
  | .fetchSub _ => Unit
  | .trySend _ _ => Except MpscError Unit
  | .reserve _ => Bool
  | .permitSend _ _ => Unit

/-- The channel's error gives back the message that it did not take. -/
def Access.Possible : (x : Access) → x.Answer → Prop
  | .trySend _ m, .error e => e.message = m
  | _, _ => True

abbrev Prog := Program Access.Answer

def ask (x : Access) : Prog x.Answer := .ask x .ret

/-! ## The functions -/

/-- The end of `RefInner::outbox` with what `Outbox::build` made. -/
def setBuilt (o : Nat) : Prog (Option Nat) := do
  match ← ask (.set o) with
  | true => return some (← ask .expect)
  | false =>
    ask (.dropBuilt o)
    return some (← ask .expect)

def buildOn : Prog (Option Nat) := do
  match ← ask .build with
  | none => return none
  | some o => setBuilt o

/-- `RefInner::outbox`; `none` is the error of `Outbox::build`. -/
def outbox : Prog (Option Nat) := do
  match ← ask .get with
  | some o => return some o
  | none => buildOn

/-- The end of `Outbox::push` with the answer of the channel. -/
def offered (o : Nat) : Except MpscError Unit → Prog (Except TrySendError Unit)
  | .ok () => return .ok ()
  | .error e => do
    ask (.fetchSub o)
    return .error (match e with
      | .full m => .full m
      | .closed m => .closed m)

/-- `Outbox::push`. -/
def push (o : Nat) (m : Message) : Prog (Except TrySendError Unit) := do
  ask (.fetchAdd o)
  offered o (← ask (.trySend o m))

/-- `Outbox::send`. -/
def queue (o : Nat) (m : Message) : Prog (Except SendError Unit) := do
  match ← ask (.reserve o) with
  | false => return .error (.closed m)
  | true =>
    ask (.fetchAdd o)
    ask (.permitSend o m)
    return .ok ()

def backedUp : Prog Bool := do
  match ← ask .get with
  | none => return false
  | some o => ask (.isBackedUp o)

/-- The end of `Ref::try_send`, past the inline attempt. -/
def pushTo (m : Message) : Option Nat → Prog (Except TrySendError Unit)
  | none => return .error (.closed m)
  | some o => push o m

def pushOn (m : Message) : Prog (Except TrySendError Unit) := do
  pushTo m (← outbox)

def attempted (m : Message) : SendResult → Prog (Except TrySendError Unit)
  | .ok => return .ok ()
  | .wouldBlock => pushOn m
  | _ => return .error (.closed m)

def gated (m : Message) (busy : Bool) : Prog (Except TrySendError Unit) := do
  if inlineOk m busy then
    attempted m (← ask (.sendNow m))
  else
    pushOn m

/-- `Ref::try_send`. -/
def trySend (m : Message) : Prog (Except TrySendError Unit) := do
  if maxMessageSize < m.data.length then
    return .error (.tooLarge m)
  else
    gated m (← backedUp)

/-- The end of `Ref::send`, with the outbox. -/
def queueTo (m : Message) : Option Nat → Prog (Except SendError Unit)
  | none => return .error (.closed m)
  | some o => queue o m

def tried : Except TrySendError Unit → Prog (Except SendError Unit)
  | .ok () => return .ok ()
  | .error (.closed m) => return .error (.closed m)
  | .error (.tooLarge m) => return .error (.tooLarge m)
  | .error (.full m) => do queueTo m (← outbox)

/-- `Ref::send`. -/
def send (m : Message) : Prog (Except SendError Unit) := do
  tried (← trySend m)

/-! ## What they return -/

/-- An error has the message in it. -/
def GivesBack (m : Message) : Except TrySendError Unit → Prop
  | .ok () => True
  | .error e => e.intoMessage = m

def GivesBackSend (m : Message) : Except SendError Unit → Prop
  | .ok () => True
  | .error e => e.intoMessage = m

theorem push_gives_back (o : Nat) (m : Message) :
    (push o m).Always Access.Possible (GivesBack m) := by
  intro _ _ taken possible
  cases taken with
  | ok => trivial
  | error e =>
    intro _ _
    cases e with
    | full m' => exact possible
    | closed m' => exact possible

theorem queue_gives_back (o : Nat) (m : Message) :
    (queue o m).Always Access.Possible (GivesBackSend m) := by
  intro permit _
  cases permit with
  | false => rfl
  | true =>
    intro _ _ _ _
    trivial

theorem pushOn_gives_back (m : Message) :
    (pushOn m).Always Access.Possible (GivesBack m) := by
  refine Program.always_bind (Program.always_of_forall (fun built => ?_) outbox)
  cases built with
  | none => rfl
  | some o => exact push_gives_back o m

theorem trySend_gives_back (m : Message) :
    (trySend m).Always Access.Possible (GivesBack m) := by
  rw [trySend]
  split
  · rfl
  · refine Program.always_bind (Program.always_of_forall (fun busy => ?_) backedUp)
    rw [gated]
    split
    · intro r _
      cases r with
      | ok => trivial
      | wouldBlock => exact pushOn_gives_back m
      | brokenPipe => rfl
      | invalidInput => rfl
      | other => rfl
    · exact pushOn_gives_back m

/-- Every exit of `send` that is an error has the caller's message in it, through both
layers of errors. -/
theorem send_gives_back (m : Message) :
    (send m).Always Access.Possible (GivesBackSend m) := by
  refine Program.always_bind (Program.always_mono (fun r back => ?_) (trySend_gives_back m))
  cases r with
  | ok => trivial
  | error e =>
    cases e with
    | closed m' => exact back
    | tooLarge m' => exact back
    | full m' =>
      obtain rfl : m' = m := back
      refine Program.always_bind (Program.always_of_forall (fun built => ?_) outbox)
      cases built with
      | none => rfl
      | some o => exact queue_gives_back o m'

/-! ## Where a call is in its program -/

/-- What the caller gets. -/
inductive Returned where
  | trySend (r : Except TrySendError Unit)
  | send (r : Except SendError Unit)

/-- `into_message`, of an error. -/
def Returned.intoMessage : Returned → Option Message
  | .trySend (.ok ()) => none
  | .trySend (.error e) => some e.intoMessage
  | .send (.ok ()) => none
  | .send (.error e) => some e.intoMessage

def Returned.outcome : Returned → Outcome
  | .trySend (.ok ()) => .ok
  | .trySend (.error (.full _)) => .full
  | .trySend (.error (.tooLarge _)) => .tooLarge
  | .trySend (.error (.closed _)) => .closed
  | .send (.ok ()) => .ok
  | .send (.error (.tooLarge _)) => .tooLarge
  | .send (.error (.closed _)) => .closed

def afterTry : Kind → Except TrySendError Unit → Prog Returned
  | .trySend, r => return .trySend r
  | .send, r => do return .send (← tried r)

/-- The whole of a call. -/
def program (kind : Kind) (m : Message) : Prog Returned := do
  afterTry kind (← trySend m)

theorem program_trySend (m : Message) : program .trySend m = Returned.trySend <$> trySend m := rfl

theorem program_send (m : Message) : program .send m = Returned.send <$> send m :=
  (Program.bind_assoc (trySend m) tried fun r => .ret (Returned.send r)).symm

/-- The rest of a call that is about to be given its outbox by `p`. -/
def onOutbox (kind : Kind) (m : Message) (next : Next) (p : Prog (Option Nat)) :
    Option (Prog Returned) :=
  match next, kind with
  | .push, _ => some ((p.bind (pushTo m)).bind (afterTry kind))
  | .reserve, .send => some ((p.bind (queueTo m)).bind fun r => .ret (.send r))
  | .reserve, .trySend => none

/-- The rest of a call inside `Outbox::send`. -/
def onQueue (kind : Kind) (p : Prog (Except SendError Unit)) : Option (Prog Returned) :=
  match kind with
  | .trySend => none
  | .send => some (p.bind fun r => .ret (.send r))

/-- The value of an outcome. -/
def value (m : Message) : Kind → Outcome → Option Returned
  | .trySend, .ok => some (.trySend (.ok ()))
  | .trySend, .full => some (.trySend (.error (.full m)))
  | .trySend, .tooLarge => some (.trySend (.error (.tooLarge m)))
  | .trySend, .closed => some (.trySend (.error (.closed m)))
  | .send, .ok => some (.send (.ok ()))
  | .send, .full => none
  | .send, .tooLarge => some (.send (.error (.tooLarge m)))
  | .send, .closed => some (.send (.error (.closed m)))

def refusal (m : Message) : Refusal → MpscError
  | .full => .full m
  | .closed => .closed m

/-- What a call that stands there is still to do. -/
def rest (kind : Kind) (m : Message) : Stage → Option (Prog Returned)
  | .entered => some (program kind m)
  | .gate o => some (((ask (.isBackedUp o)).bind (gated m)).bind (afterTry kind))
  | .inline => some (((ask (.sendNow m)).bind (attempted m)).bind (afterTry kind))
  | .getting next => onOutbox kind m next outbox
  | .building next => onOutbox kind m next buildOn
  | .setting next o => onOutbox kind m next (setBuilt o)
  | .losing next o => onOutbox kind m next do
      ask (.dropBuilt o)
      return some (← ask .expect)
  | .gotten next => onOutbox kind m next do return some (← ask .expect)
  | .queueing o .claim => some ((push o m).bind (afterTry kind))
  | .queueing o .offer => some (((ask (.trySend o m)).bind (offered o)).bind (afterTry kind))
  | .queueing o (.giveBack e) => some ((offered o (.error (refusal m e))).bind (afterTry kind))
  | .queueing o .reserving => onQueue kind (queue o m)
  | .queueing o .granted => onQueue kind (queue o m)
  | .queueing o .claimSlot => onQueue kind do
      ask (.fetchAdd o)
      ask (.permitSend o m)
      return .ok ()
  | .queueing o .place => onQueue kind do
      ask (.permitSend o m)
      return .ok ()
  | .queueing _ (.done _) => none
  | .returned r => (value m kind r).map .ret
  | .taken => none
  | .panicked => none
  | .cancelled => none

/-- The program of a call that goes from one stage to the other goes on by answers. -/
def Follows (kind : Kind) (m : Message) (stage stage' : Stage) : Prop :=
  ∀ p, rest kind m stage = some p →
    ∃ p', rest kind m stage' = some p' ∧ Program.Leads Access.Possible p p'

theorem follows_of {kind : Kind} {m : Message} {stage stage' : Stage} {x : Access}
    {k : x.Answer → Prog Returned} (a : x.Answer) (here : rest kind m stage = some (.ask x k))
    (there : rest kind m stage' = some (k a)) (possible : x.Possible a) :
    Follows kind m stage stage' := by
  intro p hp
  obtain rfl : Program.ask x k = p := Option.some.inj (here.symm.trans hp)
  exact ⟨k a, there, .single (.answer x k a possible)⟩

theorem follows_self {kind : Kind} {m : Message} {stage stage' : Stage}
    (same : rest kind m stage' = rest kind m stage) : Follows kind m stage stage' :=
  fun p hp => ⟨p, same.trans hp, .refl⟩

theorem follows_none {kind : Kind} {m : Message} {stage stage' : Stage}
    (nothing : rest kind m stage = none) : Follows kind m stage stage' := by
  intro p hp
  rw [nothing] at hp
  cases hp

theorem outbox_follows {kind : Kind} {m : Message} {next : Next} {stage stage' : Stage}
    {p p' : Prog (Option Nat)} {x : Access} {k : x.Answer → Prog (Option Nat)} (a : x.Answer)
    (here : rest kind m stage = onOutbox kind m next p) (asks : p = .ask x k)
    (there : ∀ q, onOutbox kind m next p' = some q → rest kind m stage' = some q)
    (answered : p' = k a) (possible : x.Possible a) : Follows kind m stage stage' := by
  subst asks answered
  cases next with
  | push => exact follows_of a here (there _ rfl) possible
  | reserve =>
    cases kind with
    | trySend => exact follows_none here
    | send => exact follows_of a here (there _ rfl) possible

/-- Once it has its outbox, a call is at the start of `Outbox::push` or `Outbox::send`. -/
theorem rest_op (kind : Kind) (m : Message) (next : Next) (o : Nat) :
    rest kind m (.queueing o next.op) = onOutbox kind m next (.ret (some o)) := by
  cases next with
  | push => rfl
  | reserve => cases kind <;> rfl

/-- Without one it returns that the peer is gone. -/
theorem rest_closed {kind : Kind} {m : Message} {next : Next} {p : Prog Returned}
    (h : onOutbox kind m next (.ret none) = some p) : rest kind m (.returned .closed) = some p := by
  cases next <;> cases kind <;> cases h <;> rfl

theorem walk_follows {s : Sender} {c : Call} {stage : Stage} (h : s.walk c = some stage) :
    Follows c.kind c.message c.stage stage := by
  have opened : ∀ busy : Bool, rest c.kind c.message
      (if inlineOk c.message busy then .inline else .getting .push) =
        some ((gated c.message busy).bind (afterTry c.kind)) := by
    intro busy
    cases ok : inlineOk c.message busy <;> simp [gated, ok] <;> rfl
  rw [Sender.walk] at h
  split at h
  case h_1 hs =>
    rw [hs]
    split at h
    · rename_i large
      cases h
      refine follows_self ?_
      simp only [rest, program, trySend, if_pos large]
      cases c.kind <;> rfl
    · rename_i small
      have asks : rest c.kind c.message .entered =
          some ((backedUp.bind (gated c.message)).bind (afterTry c.kind)) := by
        simp only [rest, program, trySend, if_neg small]
        rfl
      split at h
      · cases h
        exact follows_of (x := .get) none asks (opened false) trivial
      · rename_i o _
        cases h
        exact follows_of (x := .get) (some o) asks rfl trivial
  case h_2 o hs =>
    rw [hs]
    split at h
    · cases h
    · rename_i b _
      cases h
      exact follows_of (x := .isBackedUp o) b.outbox.isBackedUp rfl (opened _) trivial
  case h_3 next hs =>
    rw [hs]
    split at h
    · cases h
      exact outbox_follows (x := .get) none rfl rfl (fun _ same => same) rfl trivial
    · rename_i o _
      cases h
      exact outbox_follows (x := .get) (some o) rfl rfl (fun _ same => (rest_op _ _ _ o).trans same)
        rfl trivial
  case h_4 next o hs =>
    rw [hs]
    split at h
    · cases h
    · cases h
      exact outbox_follows (x := .set o) false rfl rfl (fun _ same => same) rfl trivial
  case h_5 next hs =>
    rw [hs]
    split at h
    · cases h
    · rename_i o _
      cases h
      exact outbox_follows (x := .expect) o rfl rfl (fun _ same => (rest_op _ _ _ o).trans same)
        rfl trivial
  case h_6 => cases h

theorem inline_follows (kind : Kind) (m : Message) (r : SendResult) :
    Follows kind m .inline (afterInline r) := by
  refine follows_of (x := .sendNow m) r rfl ?_ trivial
  cases r <;> cases kind <;> rfl

/-- The steps inside `Outbox::push` and `Outbox::send`. -/
theorem op_follows {b b' : Outbox Sent} {kind : Kind} {me i o : Nat} {m : Message} {op op' : Op}
    (h : OpMove b ⟨me, i, m⟩ op b' op') :
    Follows kind m (.queueing o op) (settle kind o op') := by
  have reserve : ∀ {op op'} {p p' : Prog (Except SendError Unit)} {x : Access}
      {k : x.Answer → Prog (Except SendError Unit)} (a : x.Answer),
      rest kind m (.queueing o op) = onQueue kind p → p = .ask x k →
      (∀ q, onQueue kind p' = some q → rest kind m (settle kind o op') = some q) → p' = k a →
      x.Possible a → Follows kind m (.queueing o op) (settle kind o op') := by
    intro op op' p p' x k a here asks there answered possible
    subst asks answered
    cases kind with
    | trySend => exact follows_none here
    | send => exact follows_of a here (there _ rfl) possible
  have closed : ∀ q, onQueue kind (.ret (.error (.closed m))) = some q →
      rest kind m (settle kind o (.done (.refused .closed))) = some q := by
    intro q hq
    cases kind with
    | trySend => cases hq
    | send => exact hq
  have finished : ∀ q, onQueue kind (.ret (.ok ())) = some q →
      rest kind m (settle kind o (.done .accepted)) = some q := by
    intro q hq
    cases kind with
    | trySend => cases hq
    | send => exact hq
  cases h with
  | claimed => exact follows_of (x := .fetchAdd o) () rfl rfl trivial
  | queued alive room =>
    refine follows_of (x := .trySend o m) (.ok ()) rfl ?_ trivial
    cases kind <;> rfl
  | bounced e honest crowded =>
    refine follows_of (x := .trySend o m) (.error (refusal m e)) rfl rfl ?_
    cases e <;> rfl
  | gaveBack e =>
    refine follows_of (x := .fetchSub o) () rfl ?_ trivial
    cases e <;> cases kind <;> rfl
  | reserved alive room =>
    exact reserve (x := .reserve o) true rfl rfl (fun _ same => same) rfl trivial
  | turnedAway gone => exact reserve (x := .reserve o) false rfl rfl closed rfl trivial
  | resumed alive => exact reserve (x := .reserve o) true rfl rfl (fun _ same => same) rfl trivial
  | grantLost gone => exact reserve (x := .reserve o) false rfl rfl closed rfl trivial
  | slotClaimed => exact reserve (x := .fetchAdd o) () rfl rfl (fun _ same => same) rfl trivial
  | placed => exact reserve (x := .permitSend o m) () rfl rfl finished rfl trivial

/-! ## Every call, in every run -/

/-- The call is over without a value that the caller could look at. -/
def isGone : Stage → Bool
  | .taken => true
  | .panicked => true
  | .cancelled => true
  | _ => false

theorem isGone_of_busy {stage : Stage} (busy : stage.isOver = false) : isGone stage = false := by
  cases stage with
  | taken => cases busy
  | panicked => cases busy
  | cancelled => cases busy
  | _ => rfl

/-- A step leaves a call as it is, or takes it on in its program or out of it. -/
inductive Onward (c c' : Call) : Prop where
  | still (same : c' = c)
  | on (kind : c'.kind = c.kind) (message : c'.message = c.message) (was : isGone c.stage = false)
      (goes : isGone c'.stage = true ∨ Follows c.kind c.message c.stage c'.stage)

theorem call_onward {me : Nat} {w w' : World} {a : Act} (m : Move me w a w') {i : Nat} {c : Call}
    (hc : w.sender.calls[i]? = some c) : ∃ c', w'.sender.calls[i]? = some c' ∧ Onward c c' := by
  have restaged : ∀ {j : Nat} {d : Call} {stage stage' : Stage}, w.sender.calls[j]? = some d →
      d.stage = stage → isGone stage = false →
      (isGone stage' = true ∨ Follows d.kind d.message stage stage') →
      ∃ c', (w.sender.calls.set j { d with stage := stage' })[i]? = some c' ∧ Onward c c' := by
    intro j d stage stage' hd hs was goes
    subst hs
    by_cases same : j = i
    · subst same
      obtain rfl : d = c := Option.mem_unique hd hc
      exact ⟨_, List.getElem?_set_self (lt_of_getElem? hc), .on rfl rfl was goes⟩
    · exact ⟨c, (List.getElem?_set_ne same).trans hc, .still rfl⟩
  cases m with
  | enter kind m onRuntime alive =>
    exact ⟨c, (List.getElem?_append_left (lt_of_getElem? hc)).trans hc, .still rfl⟩
  | walk j d stage hd hw =>
    exact restaged hd rfl (isGone_of_busy (walk_busy hw)) (Or.inr (walk_follows hw))
  | set j d next o hd hs unset =>
    exact restaged hd hs rfl (Or.inr (outbox_follows (x := .set o) true rfl rfl
      (fun _ same => same) rfl trivial))
  | lose j d next o b hd hs hb =>
    exact restaged hd hs rfl (Or.inr (outbox_follows (x := .dropBuilt o) () rfl rfl
      (fun _ same => same) rfl trivial))
  | queue j d o op op' b x hd hs hb hm => exact restaged hd hs rfl (Or.inr (op_follows hm))
  | inline j d r k hd hs hk => exact restaged hd hs rfl (Or.inr (inline_follows _ _ r))
  | built j d next n hd hs =>
    exact restaged hd hs rfl (Or.inr (outbox_follows (x := .build) (some w.sender.boxes.length)
      rfl rfl (fun _ same => same) rfl trivial))
  | buildFailed j d next hd hs =>
    exact restaged hd hs rfl (Or.inr (outbox_follows (x := .build) none rfl rfl
      (fun _ => rest_closed) rfl trivial))
  | noRuntime j d next dup hd hs bare => exact restaged hd hs rfl (Or.inl rfl)
  | grant j d o op op' b x hd hs hb hm parked =>
    subst parked
    cases hm with
    | granted alive room => exact restaged hd hs rfl (Or.inr (follows_self rfl))
  | cancel j d o op op' b x hd hs hb hm gone =>
    subst gone
    exact restaged hd hs rfl (Or.inl rfl)
  | take j d r hd hs failed => exact restaged hd hs rfl (Or.inl rfl)
  | _ => exact ⟨c, hc, .still rfl⟩

/-- What a call is still to do is what its program comes to after some answers. -/
def Placed (c : Call) : Prop :=
  ∃ p, rest c.kind c.message c.stage = some p ∧
    Program.Leads Access.Possible (program c.kind c.message) p

theorem placed_onward {c c' : Call} (h : isGone c.stage = false → Placed c) (m : Onward c c')
    (there : isGone c'.stage = false) : Placed c' := by
  cases m with
  | still same =>
    subst same
    exact h there
  | on kind message was goes =>
    obtain ⟨p, here, path⟩ := h was
    rcases goes with gone | follows
    · rw [there] at gone
      cases gone
    · obtain ⟨p', here', path'⟩ := follows p here
      refine ⟨p', ?_, ?_⟩
      · rw [kind, message]
        exact here'
      · rw [kind, message]
        exact path.trans path'

/-- The entry of the list after a step is an old one, or that of a call just begun. -/
theorem call_back {me : Nat} {w w' : World} {a : Act} (m : Move me w a w') {i : Nat} {c' : Call}
    (hc' : w'.sender.calls[i]? = some c') :
    (∃ c, w.sender.calls[i]? = some c) ∨ c'.stage = .entered := by
  by_cases inside : i < w.sender.calls.length
  · exact Or.inl ⟨_, List.getElem?_eq_getElem inside⟩
  · refine Or.inr ?_
    have outside := lt_of_getElem? hc'
    cases m with
    | enter kind m onRuntime alive =>
      rcases getElem?_push_cases hc' with ⟨_, rfl⟩ | old
      · rfl
      · exact absurd (lt_of_getElem? old) inside
    | _ => exact absurd (by simpa using outside) inside

theorem placed {me : Nat} {guard : World → Act → Prop} {w : World}
    (h : Reachable (machine me) guard w) : ∀ (i : Nat) c, w.sender.calls[i]? = some c →
      isGone c.stage = false → Placed c := by
  refine reachable_invariant (P := fun w => ∀ (i : Nat) c, w.sender.calls[i]? = some c →
    isGone c.stage = false → Placed c) ?_ ?_ h
  · rintro w ⟨runtime, hw, _⟩ i c hc
    simp [hw, fresh] at hc
  · intro w a w' old _ hstep i c' hc' there
    have m := step_move hstep
    rcases call_back m hc' with ⟨c, hc⟩ | entered
    · obtain ⟨d, hd, onward⟩ := call_onward m hc
      obtain rfl : d = c' := Option.mem_unique hd hc'
      exact placed_onward (old i c hc) onward there
    · exact ⟨_, by rw [entered]; rfl, .refl⟩

/-- What a call has returned is what its program comes to. -/
theorem returned_value {me : Nat} {guard : World → Act → Prop} {w : World} {i : Nat} {c : Call}
    {r : Outcome} (h : Reachable (machine me) guard w) (hc : w.sender.calls[i]? = some c)
    (hs : c.stage = .returned r) :
    ∃ v, rest c.kind c.message c.stage = some (.ret v) ∧
      Program.Leads Access.Possible (program c.kind c.message) (.ret v) ∧ v.outcome = r := by
  obtain ⟨p, here, path⟩ := placed h i c hc (by rw [hs]; rfl)
  have said := here
  rw [hs] at said
  obtain ⟨v, hv, rfl⟩ := Option.map_eq_some_iff.mp said
  refine ⟨v, here, path, ?_⟩
  cases kind : c.kind <;> cases r <;> rw [kind] at hv <;> cases hv <;> rfl

/-- Whatever becomes of a call, an error it returns gives back the message it was given. -/
theorem program_gives_back {kind : Kind} {m : Message} {v : Returned}
    (h : Program.Leads Access.Possible (program kind m) (.ret v)) :
    v.intoMessage = if v.outcome = .ok then none else some m := by
  cases kind with
  | trySend =>
    have gives : (program .trySend m).Always Access.Possible
        fun v => v.intoMessage = if v.outcome = .ok then none else some m := by
      rw [program_trySend]
      refine Program.always_bind (Program.always_mono (fun r back => ?_) (trySend_gives_back m))
      cases r with
      | ok => rfl
      | error e =>
        obtain rfl : e.intoMessage = m := back
        cases e <;> rfl
    exact Program.always_leads gives h
  | send =>
    have gives : (program .send m).Always Access.Possible
        fun v => v.intoMessage = if v.outcome = .ok then none else some m := by
      rw [program_send]
      refine Program.always_bind (Program.always_mono (fun r back => ?_) (send_gives_back m))
      cases r with
      | ok => rfl
      | error e =>
        obtain rfl : e.intoMessage = m := back
        cases e <;> rfl
    exact Program.always_leads gives h

/-- The calls that a run begins, with what they are given. -/
def entered (labels : List Act) : List (Kind × Message) :=
  labels.filterMap fun
    | .enter kind m _ => some (kind, m)
    | _ => none

def argument (c : Call) : Kind × Message := (c.kind, c.message)

theorem step_entered {me : Nat} {w w' : World} {a : Act} (m : Move me w a w') :
    w'.sender.calls.map argument = w.sender.calls.map argument ++ entered [a] := by
  have restaged : ∀ {j : Nat} {d : Call} {stage : Stage}, w.sender.calls[j]? = some d →
      (w.sender.calls.set j { d with stage }).map argument = w.sender.calls.map argument ++ [] := by
    intro j d stage hd
    obtain ⟨inside, rfl⟩ := List.getElem?_eq_some_iff.mp hd
    apply List.ext_getElem
    · simp
    · intro n _ _
      by_cases same : j = n
      · subst same
        simp [argument]
      · simp [List.getElem_set_ne same]
  cases m with
  | enter kind m onRuntime alive => simp [entered, argument]
  | walk j d stage hd hw => exact restaged hd
  | set j d next o hd hs unset => exact restaged hd
  | lose j d next o b hd hs hb => exact restaged hd
  | queue j d o op op' b x hd hs hb hm => exact restaged hd
  | inline j d r k hd hs hk => exact restaged hd
  | built j d next n hd hs => exact restaged hd
  | buildFailed j d next hd hs => exact restaged hd
  | noRuntime j d next dup hd hs bare => exact restaged hd
  | grant j d o op op' b x hd hs hb hm => exact restaged hd
  | cancel j d o op op' b x hd hs hb hm => exact restaged hd
  | take j d r hd hs failed => exact restaged hd
  | _ => exact (List.append_nil _).symm

/-- The calls of a run are those it began, with the messages they were given. -/
theorem run_entered {me : Nat} {guard : World → Act → Prop} [∀ w a, Decidable (guard w a)]
    {labels : List Act} {w w' : World} (h : exec (machine me) guard w labels = some w') :
    w'.sender.calls.map argument = w.sender.calls.map argument ++ entered labels := by
  induction labels generalizing w with
  | nil =>
    cases h
    simp [entered]
  | cons a tail ih =>
    obtain ⟨u, _, hstep, later⟩ := exec_cons h
    have split : entered (a :: tail) = entered [a] ++ entered tail :=
      List.filterMap_append (l := [a])
    rw [ih later, step_entered (step_move hstep), split, List.append_assoc]

end SendProgram
