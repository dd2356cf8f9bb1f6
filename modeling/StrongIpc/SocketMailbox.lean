import StrongIpc.Library.Mailbox
import StrongIpc.Lifetime

/-!
# One socket is a mailbox

The inline sends, the outboxes with their drain tasks, the registry that several `from_fd`s
race for, `RefInner`s that drop field by field while others are made, death watches and
the receive loop: whatever of this happens on a socket, in whatever order, is step by step a
run of a mailbox that has a name as long as any descriptor names the socket.
-/

namespace Capability

open OutboxTraffic RefSender Roster StepMachine Wire

/-- What is to be seen of the socket in the mailbox. -/
structure Shows (s : State) (b : Mailbox.Box Message) : Prop where
  named : b.named = s.isNamed
  posted : b.posted = s.socket.wire.map fun p => p.message
  read : b.read = s.read
  going : b.life = .going ↔ s.loop ≠ .ended

/-- What a step does to the mailbox: what it puts on the wire is posted; then the last
descriptor may go, a message be read and the loop end. -/
def shown (s : State) (a : Act) (t : State) : List (Mailbox.Act Message) :=
  (t.socket.wire.drop s.socket.wire.length).map (fun p => .post p.message) ++
    ((if s.isNamed && !t.isNamed then [.forget] else []) ++
      ((if s.read < t.read then [.take] else []) ++
        if s.loop ≠ .ended ∧ t.loop = .ended then [if a = .hangup then .quit else .stop] else []))

/-- The mailbox does just that. -/
def Told (s : State) (a : Act) (t : State) (_ : Mailbox.Box Message)
    (acts : List (Mailbox.Act Message)) : Prop :=
  acts = shown s a t

/-- Nothing sent, and no descriptor gone. -/
theorem shown_loop {s t : State} (a : Act) (wire : t.socket.wire = s.socket.wire)
    (named : t.isNamed = s.isNamed) :
    shown s a t = (if s.read < t.read then [.take] else []) ++
      if s.loop ≠ .ended ∧ t.loop = .ended then [if a = .hangup then .quit else .stop] else [] := by
  simp [shown, wire, named]

/-- A loop that is over has closed its end. -/
def Shut (s : State) : Prop := s.loop = .ended → s.socket.peerOpen = false

theorem shut_move {s t : State} {a : Act} (hp : Projected anyStep s) (h : Shut s)
    (m : Move s a t) : Shut t := by
  intro done
  cases m with
  | take g a x w hx may hw =>
    have closed : s.socket.peerOpen = false := h done
    rcases socket_move (hp.stamped g x hx) (RefSender.step_move hw) (mayTake_own may) with
      same | ⟨q, _, live, _⟩
    · exact (congrArg Socket.peerOpen same).trans closed
    · exact absurd (live.symm.trans closed) (by simp)
  | recv p hp hl =>
    rw [State.received] at done ⊢
    split at done
    · rw [if_pos ‹_›]
      rfl
    · split at done
      · rw [show s.loop = .ended from done] at hl
        cases hl
      · cases done
  | hangup hl all_read unnamed => rfl
  | recvFails hl => rfl
  | panic hl => rfl
  | abort armed => rfl
  | handled hl => cases done
  | _ => exact h done

theorem named_falls {s t : State} {a : Act} (hk : Kept s) (m : Move s a t)
    (named : t.isNamed = true) : s.isNamed = true := by
  by_contra unnamed
  rw [(unnamed_step hk m (Bool.not_eq_true _ ▸ unnamed)).1] at named
  cases named

/-- A step that the receive loop has no part in puts at most one message into the mailbox,
and may take its name. -/
theorem shows_idle {s t : State} {a : Act} {b : Mailbox.Box Message} (hp : Projected anyStep s)
    (hk : Kept s) (shut : Shut t) (h : Shows s b) (m : Move s a t) (loop : t.loop = s.loop)
    (read : t.read = s.read) :
    ∃ b', exec (Mailbox.machine Message) anyStep b (shown s a t) = some b' ∧ Shows t b' ∧
      b'.life = b.life := by
  have going : b.life = .going ↔ t.loop ≠ .ended := by
    rw [loop]
    exact h.going
  have quiet : shown s a t =
      (t.socket.wire.drop s.socket.wire.length).map (fun p => .post p.message) ++
        if b.named && !t.isNamed then [.forget] else [] := by
    simp [shown, loop, read, h.named]
  have falls : t.isNamed = true → b.named = true :=
    fun kept => h.named.trans (named_falls hk m kept)
  rw [quiet]
  rcases wire_step m hp.stamped with same | ⟨p, _, more, live⟩
  · rw [same, List.drop_length]
    refine ⟨_, Mailbox.forget_exec b falls, ⟨rfl, ?_, h.read.trans read.symm, going⟩, rfl⟩
    rw [same]
    exact h.posted
  · have named : b.named = true := by
      rw [h.named]
      by_contra unnamed
      have wire := (unnamed_step hk m (Bool.not_eq_true _ ▸ unnamed)).2
      rw [more] at wire
      simp at wire
    have running : b.life = .going := by
      refine going.mpr fun done => ?_
      rw [shut done] at live
      cases live
    rw [more, List.drop_left]
    refine ⟨_, (exec_step trivial (Mailbox.post_taken running named p.message) _).trans
      (Mailbox.forget_exec { b with posted := b.posted ++ [p.message] } falls),
      ⟨rfl, ?_, h.read.trans read.symm, going⟩, rfl⟩
    rw [more, List.map_append, ← h.posted]
    rfl

/-- The loop ends. -/
theorem shows_end {s : State} {b : Mailbox.Box Message} (h : Shows s b) (life : Mailbox.Life)
    (ended : life ≠ .going) : Shows s.endLoop { b with life } where
  named := h.named
  posted := h.posted
  read := h.read
  going := ⟨fun going => absurd going ended, fun running => absurd rfl running⟩

/-- Ending the loop is one step of the mailbox, if it has not ended. -/
theorem shown_end {s : State} {a : Act} (running : s.loop ≠ .ended) :
    shown s a s.endLoop = [if a = .hangup then .quit else .stop] := by
  rw [shown_loop (s := s) (t := s.endLoop) a rfl rfl]
  simp [State.endLoop, running]

theorem shows_stop {s : State} {a : Act} {b : Mailbox.Box Message} (h : Shows s b)
    (running : s.loop ≠ .ended) (other : a ≠ .hangup) :
    ∃ b', exec (Mailbox.machine Message) anyStep b (shown s a s.endLoop) = some b' ∧
      Shows s.endLoop b' := by
  rw [shown_end running, if_neg other]
  exact ⟨_, exec_step trivial (Mailbox.stop_taken (h.going.mpr running)) [],
    shows_end h .stopped (by simp)⟩

theorem shows_recv {s : State} {b : Mailbox.Box Message} (h : Shows s b) {p : Sent}
    (hp : s.socket.wire[s.read]? = some p) (hl : s.loop = .receiving) :
    ∃ b', exec (Mailbox.machine Message) anyStep b (shown s .recv (s.received p.message)) =
      some b' ∧ Shows (s.received p.message) b' := by
  have running : b.life = .going := h.going.mpr (by simp [hl])
  have unread : b.read < b.posted.length := by
    rw [h.posted, h.read, List.length_map]
    exact lt_of_getElem? hp
  have taken := Mailbox.take_taken running unread
  have read : b.read + 1 = s.read + 1 := congrArg (· + 1) h.read
  rw [State.received]
  split
  · have ended : Shows { s with read := s.read + 1 } { b with read := b.read + 1 } :=
      ⟨h.named, h.posted, read, h.going⟩
    have told : shown s .recv { s with read := s.read + 1 }.endLoop = [.take, .stop] := by
      rw [shown_loop (s := s) (t := State.endLoop { s with read := s.read + 1 }) .recv rfl rfl]
      simp [State.endLoop, hl]
    rw [told]
    exact ⟨_, (exec_step trivial taken _).trans (exec_step trivial (Mailbox.stop_taken
      (b := { b with read := b.read + 1 }) running) []), shows_end ended .stopped (by simp)⟩
  · split
    · have told : shown s .recv { s with read := s.read + 1 } = [.take] := by
        rw [shown_loop (s := s) (t := { s with read := s.read + 1 }) .recv rfl rfl]
        simp [hl]
      rw [told]
      exact ⟨{ b with read := b.read + 1 }, exec_step trivial taken [], h.named, h.posted, read,
        h.going⟩
    · have told : shown s .recv { s with read := s.read + 1, loop := .handling } = [.take] := by
        rw [shown_loop (s := s) (t := { s with read := s.read + 1, loop := .handling }) .recv rfl
          rfl]
        simp
      rw [told]
      exact ⟨{ b with read := b.read + 1 }, exec_step trivial taken [], h.named, h.posted, read,
        fun _ => by simp, fun _ => running⟩

/-- What has been done, and what is to be seen of it. -/
structure Simulates (labels : List Act) (s : State) (b : Mailbox.Box Message) : Prop where
  reached : Reachable machine anyStep s
  shut : Shut s
  seen : Shows s b
  quit : .hangup ∈ labels → b.life = .quit

theorem simulates_step {labels : List Act} {s t : State} {a : Act} {b : Mailbox.Box Message}
    (h : Simulates labels s b) (hstep : step s a = some t) :
    ∃ b', exec (Mailbox.machine Message) anyStep b (shown s a t) = some b' ∧
      Simulates (labels ++ [a]) t b' := by
  have m := step_move hstep
  have hp := projected_any h.reached
  have shut := shut_move hp h.shut m
  have reached : Reachable machine anyStep t := reachable_step h.reached trivial hstep
  have running : s.loop ≠ .ended → b.life = .going := h.seen.going.mpr
  -- nothing but a hangup makes the mailbox quit
  have next : ∀ {b' : Mailbox.Box Message}, Shows t b' → a ≠ .hangup →
      (b.life = .quit → b'.life = .quit) → Simulates (labels ++ [a]) t b' := by
    intro b' seen other kept
    refine ⟨reached, shut, seen, fun hung => ?_⟩
    rcases List.mem_append.mp hung with before | now
    · exact kept (h.quit before)
    · exact absurd (List.mem_singleton.mp now).symm other
  have not_quit : s.loop ≠ .ended → ∀ {P : Prop}, b.life = .quit → P := by
    intro going P quit
    rw [running going] at quit
    cases quit
  have idle : t.loop = s.loop → t.read = s.read → a ≠ .hangup →
      ∃ b', exec (Mailbox.machine Message) anyStep b (shown s a t) = some b' ∧
        Simulates (labels ++ [a]) t b' := by
    intro loop read other
    obtain ⟨b', run, seen, life⟩ := shows_idle hp (kept h.reached) shut h.seen m loop read
    exact ⟨b', run, next seen other fun quit => life.trans quit⟩
  have stops : s.loop ≠ .ended → t = s.endLoop → a ≠ .hangup →
      ∃ b', exec (Mailbox.machine Message) anyStep b (shown s a t) = some b' ∧
        Simulates (labels ++ [a]) t b' := by
    rintro going rfl other
    obtain ⟨b', run, seen⟩ := shows_stop h.seen going other
    exact ⟨b', run, next seen other (not_quit going)⟩
  cases m with
  | recv p hp hl =>
    obtain ⟨b', run, seen⟩ := shows_recv h.seen hp hl
    exact ⟨b', run, next seen (by simp) (not_quit (by simp [hl]))⟩
  | hangup hl all_read unnamed =>
    have read : b.posted.length ≤ b.read := by
      rw [h.seen.posted, h.seen.read, List.length_map]
      exact all_read
    have quit := Mailbox.quit_taken (running (by simp [hl])) read (h.seen.named.trans unnamed)
    rw [shown_end (by simp [hl]), if_pos rfl]
    exact ⟨_, exec_step trivial quit [], reached, shut, shows_end h.seen _ (by simp), fun _ => rfl⟩
  | recvFails hl => exact stops (by simp [hl]) rfl (by simp)
  | panic hl => exact stops (by simp [hl]) rfl (by simp)
  | handled hl =>
    have told : shown s .handled { s with loop := .receiving } = [] := by
      rw [shown_loop (s := s) (t := { s with loop := .receiving }) .handled rfl rfl]
      simp
    rw [told]
    refine ⟨b, rfl, next ⟨h.seen.named, h.seen.posted, h.seen.read, ?_⟩ (by simp) id⟩
    exact h.seen.going.trans (by simp [hl])
  | abort armed =>
    have told : shown s .abort { s.endLoop with armed := false } = shown s .abort s.endLoop := rfl
    rw [told]
    by_cases stopped : s.loop = .ended
    · have silent : shown s .abort s.endLoop = [] := by
        rw [shown_loop (s := s) (t := s.endLoop) .abort rfl rfl]
        simp [State.endLoop, stopped]
      rw [silent]
      refine ⟨b, rfl, next ⟨h.seen.named, h.seen.posted, h.seen.read, ?_⟩ (by simp) id⟩
      exact h.seen.going.trans (by simp [stopped, State.endLoop])
    · obtain ⟨b', run, seen⟩ := shows_stop (a := .abort) h.seen stopped (by simp)
      exact ⟨b', run, next ⟨seen.named, seen.posted, seen.read, seen.going⟩ (by simp)
        (not_quit stopped)⟩
  | rewatch a g i x old new hx hi walk =>
    refine idle rfl rfl ?_
    rintro rfl
    obtain ⟨⟨hl, _⟩, same⟩ := by simpa [step] using hstep
    have done : s.loop = .ended := congrArg State.loop same.symm
    rw [hl] at done
    cases done
  | _ => exact idle rfl rfl (by simp)

/-- Every run on a socket, of all that sends, receives and drops there, is a run of a
mailbox, step by step: what a step shows is what the mailbox does in it, and after every step
there are the same messages in the same order, as many of them taken, a name exactly as long as
there is a descriptor of the socket, and a reader going exactly as long as the receive loop. A
hangup makes it quit. -/
theorem socket_mailbox {labels : List Act} {room : Bool} {s : State}
    (run : exec machine anyStep (opened room) labels = some s) :
    ∃ b, Alongside machine (Mailbox.machine Message) anyStep Shows Told (opened room)
        Mailbox.fresh labels s b ∧
      (.hangup ∈ labels → b.life = .quit) := by
  have start : Simulates [] (opened room) Mailbox.fresh :=
    { reached := reachable_init ⟨room, rfl⟩
      shut := fun done => by cases done
      seen := ⟨rfl, rfl, rfl, by simp [Mailbox.fresh, opened]⟩
      quit := fun hung => by cases hung }
  have step : ∀ (h : List Act) (s : State) (a : Act) (t : State) (b : Mailbox.Box Message),
      Simulates h s b → anyStep s a → machine.step s a = some t →
      ∃ acts b', Told s a t b acts ∧ exec (Mailbox.machine Message) anyStep b acts = some b' ∧
        Simulates (h ++ [a]) t b' := by
    intro h s a t b known _ taken
    obtain ⟨b', run, known'⟩ := simulates_step known taken
    exact ⟨_, b', rfl, run, known'⟩
  obtain ⟨b, along, h⟩ := exec_alongside (fun _ _ _ known => known.seen) step start run
  exact ⟨b, along, h.quit⟩

/-- A `Ref` that is sent on and dropped before the message is read. -/
def onceSent : State where
  raws := 0
  socket := ⟨true, false, [⟨1, 0, ⟨[1], []⟩⟩]⟩
  read := 1
  loop := .ended
  armed := true
  makers := [⟨10, .done⟩]
  inners :=
    [{ fd := 10
       strong := 0
       stage := .dropped
       sender :=
        { runtime := true
          once := none
          boxes := []
          calls := [⟨.trySend, ⟨[1], []⟩, true, .returned .ok⟩]
          alive := false
          trash := [] }
       death := none
       watches := [] }]
  hands := []
  entry := none
  fds := []

def onceSentRun : List Act :=
  [.fromFd 10, .make 0 true, .send 0 (.enter .trySend ⟨[1], []⟩ true), .send 0 (.call 0),
    .send 0 (.sendNow 0 .ok), .send 0 .sweep, .drop 0, .unfile 0, .dropFd 0, .dropOutbox 0,
    .dropDeath 0, .recv, .handled, .hangup]

theorem socket_mailbox_onceSent :
    ∃ b, Alongside machine (Mailbox.machine Message) anyStep Shows Told (opened true)
        Mailbox.fresh onceSentRun onceSent b ∧
      b.life = .quit := by
  have run : exec machine anyStep (opened true) onceSentRun = some onceSent := by decide
  obtain ⟨b, along, quit⟩ := socket_mailbox run
  exact ⟨b, along, quit (by decide)⟩

end Capability
