import SerialLink.Proofs.Connection

/-!
# What the flag of a connection tells

A connection is used by its owner, and meanwhile the peer calls and sends: these are its acts
(`Connection.Act`), of which a list is done one after the other (`Connection.run`).  An attempt to make the
connection ends in one of four ways (`Connection.Attempted`), and every act is such an attempt, or ends the
connection, or leaves alone whether there is one (`Connection.course_perform`).

So a connection that is established has a role, but it may have no socket any more (`Connection.Stranded`).
When that is the case follows from the acts (`Connection.stranded_after_iff`): a call that was made from an
established connection has given up its socket and got no other.  Who does not call from an established
connection is spared that (`Connection.isOpen_of_established`).

To close a connection twice is like closing it once: the listener that was shut down once more differs from
the other, but no act ever shows it (`Connection.Alike.run`).  `Connection.honest_after` puts this together.
-/

namespace SerialLink

open Tcp

namespace Tcp.Socket

theorem socket_readFailure (bytes : Bytes) (error : SystemError) (s : Socket) (h : Host) :
    (readFailure bytes error s h).value.socket = s := by
  unfold readFailure
  split <;> rfl

/-- A socket is the same, or still is one end of a connection. -/
inductive Keeps (s : Socket) : Socket → Prop
  | same : Keeps s s
  | stream (e f : Endpoint) (before : s = .stream e) : Keeps s (.stream f)

variable {s t : Socket}

theorem Keeps.isOpen_eq (keeps : s.Keeps t) : t.isOpen = s.isOpen := by
  cases keeps with
  | same => rfl
  | stream e f before =>
    rw [before]
    rfl

/-- Reading closes no socket. -/
theorem keeps_receive (count : Nat) (h : Host) (s : Socket) : s.Keeps (s.receive count h).value.socket := by
  unfold receive
  split
  · exact .same
  split
  · exact .same
  split
  · rw [socket_readFailure]
    exact .same
  split
  · split
    · exact .stream _ _ rfl
    · exact .stream _ _ rfl
    · rw [socket_readFailure]
      exact .stream _ _ rfl
    · exact .stream _ _ rfl
  · exact .same
  · rw [socket_readFailure]
    exact .same

/-- Whether a socket is closed or one end of a connection, and was not there to be called. -/
def isEnd : Socket → Bool
  | .closed | .stream _ => true
  | _ => false

theorem Keeps.isEnd (keeps : s.Keeps t) (ends : s.isEnd) : t.isEnd := by
  cases keeps with
  | same => exact ends
  | stream => rfl

theorem isEnd_shutdown (ends : s.isEnd) : s.shutdown.isEnd := by
  cases s with
  | closed | stream => rfl
  | listener | unconnected => cases ends

/-- What is shut down is not shut down any further. -/
theorem shutdown_shutdown (ends : s.isEnd) : s.shutdown.shutdown = s.shutdown := by
  cases s with
  | closed | stream => rfl
  | listener | unconnected => cases ends

/-- Two sockets are the same but for how often they were shut down when nobody was waited for any more. -/
inductive Alike : Socket → Socket → Prop
  | same (s : Socket) : Alike s s
  | unconnected (first second : Bool) : Alike (.unconnected first) (.unconnected second)

theorem Alike.listen (alike : s.Alike t) (address : Address) (h : Host) :
    ∃ ok s' t' h' trace, s.listen address h = ⟨(ok, s', h'), trace⟩ ∧
      t.listen address h = ⟨(ok, t', h'), trace⟩ ∧ s'.Alike t' := by
  cases alike with
  | same => exact ⟨_, _, _, _, _, rfl, rfl, .same _⟩
  | unconnected first second =>
    unfold Socket.listen
    split
    · exact ⟨_, _, _, _, _, rfl, rfl, .unconnected first second⟩
    · exact ⟨_, _, _, _, _, rfl, rfl, .same _⟩

theorem Alike.accept (alike : s.Alike t) (h : Host) :
    ∃ endpoint s' t' h' trace, s.accept h = ⟨⟨endpoint, s', h'⟩, trace⟩ ∧
      t.accept h = ⟨⟨endpoint, t', h'⟩, trace⟩ ∧ s'.Alike t' := by
  cases alike with
  | same => exact ⟨_, _, _, _, _, rfl, rfl, .same _⟩
  | unconnected first second => exact ⟨_, _, _, _, _, rfl, rfl, .unconnected first second⟩

theorem Alike.shutdown (alike : s.Alike t) : s.shutdown.Alike t.shutdown := by
  cases alike with
  | same => exact .same _
  | unconnected => exact .same _

theorem alike_shutdown (s : Socket) : s.shutdown.Alike s.shutdown.shutdown := by
  cases s with
  | closed => exact .same _
  | listener => exact .unconnected false true
  | unconnected => exact .same _
  | stream e => exact .same _

end Tcp.Socket

namespace Connection

/-! ### Acts -/

/-- What is done with a connection, by its owner or from outside. -/
inductive Act
  | listen (address : Address)
  | accept
  | bindAndAccept (address : Address)
  | connect (address : Address)
  | send (packet : Packet)
  | receive
  | close
  | destroy
  /-- The operating system will answer otherwise. -/
  | expect (host : Host)
  /-- The peer calls. -/
  | call (e : Endpoint)
  | arrive (tag : Nat) (segment : Segment)
  deriving DecidableEq, Inhabited, Repr

/-- What is told of an act. -/
inductive Told
  | nothing
  | success (ok : Bool)
  | arrival (arrival : Arrival)
  deriving DecidableEq, Inhabited, Repr

/-- Does one thing with a connection. -/
def perform (act : Act) (c : Connection) : Traced (Told × Connection) :=
  match act with
  | .listen address => Prod.map .success id <$> c.listen address
  | .accept => Prod.map .success id <$> c.accept
  | .bindAndAccept address => Prod.map .success id <$> c.bindAndAccept address
  | .connect address => Prod.map .success id <$> c.connect address
  | .send packet => Prod.map .success id <$> c.send packet
  | .receive => Prod.map .arrival id <$> c.receive
  | .close => return (.nothing, c.close)
  | .destroy => return (.nothing, c.destroy)
  | .expect host => return (.nothing, { c with host })
  | .call e => return (.success (c.call e).1, (c.call e).2)
  | .arrive tag segment => return (.nothing, c.arriveAt tag segment)

/-- Does one thing after the other with a connection. -/
def run : List Act → Connection → Traced (List Told × Connection)
  | [], c => return ([], c)
  | act :: acts, c => do
    let (told, c) ← c.perform act
    let (more, c) ← c.run acts
    return (told :: more, c)

/-- What a connection is after some acts. -/
def after (c : Connection) (acts : List Act) : Connection := (c.run acts).value.2

@[simp] theorem after_nil (c : Connection) : c.after [] = c := rfl

theorem after_cons (c : Connection) (act : Act) (acts : List Act) :
    c.after (act :: acts) = (c.perform act).value.2.after acts := rfl

/-- No act of a list does a certain thing to the connection, as it is by then. -/
def Spared (does : Connection → Act → Prop) (c : Connection) (acts : List Act) : Prop :=
  ∀ before act later, acts = before ++ act :: later → ¬ does (c.after before) act

variable {does sets clears : Connection → Act → Prop} {c d : Connection}

theorem spared_cons {act : Act} {acts : List Act} :
    Spared does c (act :: acts) ↔ ¬ does c act ∧ Spared does (c.perform act).value.2 acts := by
  constructor
  · intro spared
    refine ⟨spared [] act acts rfl, fun before other later eq => ?_⟩
    exact spared (act :: before) other later (congrArg (act :: ·) eq)
  · rintro ⟨first, rest⟩ before other later eq
    cases before with
    | nil =>
      obtain ⟨rfl, rfl⟩ := List.cons.inj eq
      exact first
    | cons _ before =>
      obtain ⟨rfl, behind⟩ := List.cons.inj eq
      exact rest before other later behind

/-- An act of a list does something to the connection as it is by then, and what is done later does not undo
it. -/
def Lasts (sets clears : Connection → Act → Prop) (c : Connection) (acts : List Act) : Prop :=
  ∃ before act later, acts = before ++ act :: later ∧ sets (c.after before) act ∧
    Spared clears (c.after (before ++ [act])) later

theorem lasts_cons {act : Act} {acts : List Act} :
    Lasts sets clears c (act :: acts) ↔ sets c act ∧ Spared clears (c.perform act).value.2 acts ∨
      Lasts sets clears (c.perform act).value.2 acts := by
  constructor
  · rintro ⟨before, other, later, eq, set, spared⟩
    cases before with
    | nil =>
      obtain ⟨rfl, rfl⟩ := List.cons.inj eq
      exact .inl ⟨set, spared⟩
    | cons _ before =>
      obtain ⟨rfl, behind⟩ := List.cons.inj eq
      exact .inr ⟨before, other, later, behind, set, spared⟩
  · rintro (⟨set, spared⟩ | ⟨before, other, later, eq, set, spared⟩)
    · exact ⟨[], act, acts, rfl, set, spared⟩
    · exact ⟨act :: before, other, later, congrArg (act :: ·) eq, set, spared⟩

/-- What every act keeps is kept by a list of acts. -/
theorem after_keeps {holds : Connection → Prop} (step : ∀ c act, holds c → holds (c.perform act).value.2)
    (first : holds c) (acts : List Act) : holds (c.after acts) := by
  induction acts generalizing c with
  | nil => exact first
  | cons act acts ih => exact ih (step c act first)

/-- What some acts set and others clear is there after a list of acts if it was set and not cleared since, or
was there from the start. -/
theorem after_iff {holds : Connection → Prop}
    (step : ∀ c act, holds (c.perform act).value.2 ↔ sets c act ∨ holds c ∧ ¬ clears c act)
    (c : Connection) (acts : List Act) :
    holds (c.after acts) ↔ Lasts sets clears c acts ∨ holds c ∧ Spared clears c acts := by
  induction acts generalizing c with
  | nil =>
    have never : ¬ Lasts sets clears c [] := by
      rintro ⟨before, act, later, eq, -⟩
      exact absurd eq.symm (by simp)
    have spared : Spared clears c [] := fun before act later eq => absurd eq.symm (by simp)
    rw [after_nil, or_iff_right never, and_iff_left spared]
  | cons act acts ih =>
    -- The first act has set it, or it was there before and is not cleared: both must last to the end.
    rw [after_cons, ih, step, lasts_cons, spared_cons, or_and_right, ← or_assoc, and_assoc]
    exact or_congr_left or_comm

/-! ### Attempts -/

/-- Whether a call gives the former socket up and gets no other. -/
def Misses (c : Connection) (address : Address) : Prop :=
  Address.isPlainHost address.host.untilZero ∧ (c.host.descriptors = false ∨ c.host.answering = Option.none)

/-- How an attempt to make a connection in a role ends: nothing came of it, or the former socket was given up
for none or for one that cannot be used, or the connection is made. -/
inductive Attempted (role : Role) (misses : Prop) (c : Connection) : Bool × Connection → Prop
  | kept (d : Connection) (established : d.established = c.established) (same : d.role = c.role)
      (stream : d.stream = c.stream) (hits : ¬ misses) : Attempted role misses c (false, d)
  | lost (d : Connection) (established : d.established = c.established) (same : d.role = c.role)
      (stream : d.stream = .closed) (missed : misses) : Attempted role misses c (false, d)
  | useless (d : Connection) (e : Endpoint) (established : d.established = c.established)
      (same : d.role = c.role) (stream : d.stream = .stream e) (hits : ¬ misses) :
      Attempted role misses c (false, d)
  | made (d : Connection) (e : Endpoint) (established : d.established = true) (given : d.role = role)
      (stream : d.stream = .stream e) (hits : ¬ misses) : Attempted role misses c (true, d)

variable {role : Role} {misses : Prop} {x : Bool × Connection}

/-- An attempt does not depend on the listener, nor on how the operating system will answer. -/
theorem Attempted.of_waiting {listener : Socket} {host : Host}
    (attempted : Attempted role misses { c with listener, host } x) : Attempted role misses c x := by
  cases attempted with
  | kept d established same stream hits => exact .kept d established same stream hits
  | lost d established same stream missed => exact .lost d established same stream missed
  | useless d e established same stream hits => exact .useless d e established same stream hits
  | made d e established given stream hits => exact .made d e established given stream hits

/-- What has got a socket becomes usable, unless the socket is useless. -/
theorem attempted_establish {e : Endpoint} (established : d.established = c.established) (same : d.role = c.role)
    (stream : d.stream = .stream e) (hits : ¬ misses) (notice : Notice) :
    Attempted role misses c (do
      let (ok, d) ← d.establish role
      if ok then Traced.note notice
      return (ok, d) : Traced (Bool × Connection)).value := by
  unfold establish
  simp only [Traced.value_bind]
  cases (Socket.setNoDelay d.host d.stream).value.1 with
  | true => exact .made _ e rfl rfl stream hits
  | false => exact .useless _ e established same stream hits

theorem attempted_accept (c : Connection) : Attempted .master False c c.accept.value := by
  unfold accept
  rw [Traced.value_bind]
  split
  · exact .kept _ rfl rfl rfl not_false
  · next e _ => refine attempted_establish (e := e) ?_ ?_ ?_ not_false _ <;> rfl

theorem attempted_bindAndAccept (address : Address) (c : Connection) :
    Attempted .master False c (c.bindAndAccept address).value := by
  unfold bindAndAccept
  rw [Traced.value_bind]
  dsimp only
  split
  · exact (attempted_accept _).of_waiting
  · exact .kept _ rfl rfl rfl not_false

theorem attempted_connect (address : Address) (c : Connection) :
    Attempted .slave (c.Misses address) c (c.connect address).value := by
  unfold connect
  simp only [Traced.value_bind]
  unfold Socket.connect Misses
  -- An address that cannot be called leaves the socket alone; whatever fails later finds it given up.
  cases plain : Address.isPlainHost address.host.untilZero with
  | false => exact .kept _ rfl rfl rfl (by simp)
  | true =>
    cases left : c.host.descriptors with
    | false => exact .lost _ rfl rfl rfl (by simp)
    | true =>
      cases answers : c.host.answering with
      | none => exact .lost _ rfl rfl rfl (by simp)
      | some e => refine attempted_establish (e := e) ?_ ?_ ?_ (by simp) _ <;> rfl

/-! ### What acts do -/

/-- Whether an act makes the connection. -/
def Makes (c : Connection) : Act → Prop
  | .accept => c.accept.value.1
  | .bindAndAccept address => (c.bindAndAccept address).value.1
  | .connect address => (c.connect address).value.1
  | _ => False

/-- Whether an act ends the connection. -/
def Ends (_ : Connection) (act : Act) : Prop := act = .close ∨ act = .destroy

/-- Whether an act takes the socket of a connection that stays established. -/
def Strands (c : Connection) (act : Act) : Prop :=
  ∃ address, act = .connect address ∧ c.established ∧ c.Misses address

/-- Whether an act ends the connection or is an attempt that leaves it with a socket. -/
def Mends (c : Connection) : Act → Prop
  | .accept => c.accept.value.2.stream.isOpen
  | .bindAndAccept address => (c.bindAndAccept address).value.2.stream.isOpen
  | .connect address => (c.connect address).value.2.stream.isOpen
  | act => c.Ends act

/-- Whether a connection that is established has a role. -/
def Linked (c : Connection) : Prop := c.established → c.role ≠ .disabled

/-- Whether a connection is established without a socket. -/
def Stranded (c : Connection) : Prop := c.established ∧ c.stream.isOpen = false

/-- Whether an act is no attempt and does not end the connection. -/
def Act.passes : Act → Bool
  | .accept | .bindAndAccept _ | .connect _ | .close | .destroy => false
  | _ => true

/-- What an act comes to: an attempt, the end of the connection, or nothing that bears on whether there is
one. -/
inductive Course (c : Connection) (act : Act) (d : Connection) : Prop
  | attempt (role : Role) (misses : Prop) (ok : Bool) (attempted : Attempted role misses c (ok, d))
      (linked : role ≠ .disabled) (makes : c.Makes act ↔ ok) (ends : ¬ c.Ends act)
      (strands : c.Strands act ↔ c.established ∧ misses) (mends : c.Mends act ↔ d.stream.isOpen)
  | ending (closed : d.established = false) (stream : d.stream = c.stream.shutdown ∨ d.stream = .closed)
      (ends : c.Ends act)
  | passing (established : d.established = c.established) (same : d.role = c.role)
      (stream : c.stream.Keeps d.stream) (passes : act.passes)

theorem call_eq (e : Endpoint) (c : Connection) : ∃ listener, (c.call e).2 = { c with listener } := by
  unfold call
  split
  · split <;> exact ⟨_, rfl⟩
  · exact ⟨_, rfl⟩

theorem arriveAt_eq (tag : Nat) (segment : Segment) (c : Connection) :
    ∃ listener stream, c.arriveAt tag segment = { c with listener, stream } ∧ c.stream.Keeps stream := by
  unfold arriveAt
  dsimp only
  split
  · next stream _ => exact ⟨_, _, rfl, .stream _ _ stream⟩
  · next stream _ => exact ⟨_, _, rfl, .stream _ _ stream⟩
  · exact ⟨_, _, rfl, .same⟩
  · exact ⟨_, _, rfl, .same⟩

theorem course_perform (c : Connection) (act : Act) : Course c act (c.perform act).value.2 := by
  cases act with
  | accept =>
    exact .attempt .master False _ (attempted_accept c) (by decide) Iff.rfl (by simp [Ends]) (by simp [Strands])
      Iff.rfl
  | bindAndAccept address =>
    exact .attempt .master False _ (attempted_bindAndAccept address c) (by decide) Iff.rfl (by simp [Ends])
      (by simp [Strands]) Iff.rfl
  | connect address =>
    exact .attempt .slave (c.Misses address) _ (attempted_connect address c) (by decide) Iff.rfl (by simp [Ends])
      (by simp [Strands]) Iff.rfl
  | close => exact .ending rfl (.inl rfl) (.inl rfl)
  | destroy => exact .ending rfl (.inr rfl) (.inr rfl)
  | listen address => exact .passing rfl rfl .same rfl
  | send packet =>
    refine .passing (established_send packet c) (role_send packet c) ?_ rfl
    show c.stream.Keeps (c.send packet).value.2.stream
    rcases stream_send packet c with same | ⟨e, before, after⟩
    · rw [same]
      exact .same
    · rw [after]
      exact .stream e _ before
  | receive => exact .passing rfl rfl (Socket.keeps_receive Packet.size c.host c.stream) rfl
  | expect host => exact .passing rfl rfl .same rfl
  | call e =>
    obtain ⟨listener, called⟩ := call_eq e c
    show Course c _ (c.call e).2
    rw [called]
    exact .passing rfl rfl .same rfl
  | arrive tag segment =>
    obtain ⟨listener, stream, arrived, keeps⟩ := arriveAt_eq tag segment c
    show Course c _ (c.arriveAt tag segment)
    rw [arrived]
    exact .passing rfl rfl keeps rfl

/-- An act that passes does nothing to whether there is a connection. -/
theorem idle_of_passes {act : Act} (passes : act.passes) :
    ¬ c.Makes act ∧ ¬ c.Ends act ∧ ¬ c.Strands act ∧ ¬ c.Mends act := by
  cases act with
  | accept | bindAndAccept | connect | close | destroy => cases passes
  | _ => simp [Makes, Ends, Strands, Mends]

/-- An act that ends the connection does nothing else to it. -/
theorem only_ends {act : Act} (ends : c.Ends act) : ¬ c.Makes act ∧ ¬ c.Strands act ∧ c.Mends act := by
  rcases ends with rfl | rfl <;> simp [Makes, Ends, Strands, Mends]

/-- **A connection is established by an attempt that makes it, and until it is ended.**  No attempt that fails
changes that, whatever becomes of the socket. -/
theorem established_perform (c : Connection) (act : Act) :
    (c.perform act).value.2.established ↔ c.Makes act ∨ c.established ∧ ¬ c.Ends act := by
  cases course_perform c act with
  | attempt role misses ok attempted linked makes ends strands mends =>
    rw [makes, and_iff_left ends]
    generalize (c.perform act).value.2 = d at attempted
    cases attempted with
    | kept _ established | lost _ established | useless _ _ established => simp [established]
    | made _ _ established => simp [established]
  | ending closed _ ends => simp [closed, ends, (only_ends ends).1]
  | passing established same stream passes =>
    obtain ⟨makes, ends, -, -⟩ := idle_of_passes (c := c) passes
    simp [established, makes, ends]

theorem linked_perform {act : Act} (linked : c.Linked) : (c.perform act).value.2.Linked := by
  unfold Linked
  cases course_perform c act with
  | attempt role misses ok attempted given =>
    generalize (c.perform act).value.2 = d at attempted
    cases attempted with
    | kept _ established same | lost _ established same | useless _ _ established same =>
      rw [established, same]
      exact linked
    | made _ _ _ same =>
      rw [same]
      exact fun _ => given
  | ending closed => simp [closed]
  | passing established same =>
    rw [established, same]
    exact linked

/-- A connection is stranded by a call that takes its socket, and until another attempt gets one or the
connection is ended. -/
theorem stranded_perform (c : Connection) (act : Act) :
    (c.perform act).value.2.Stranded ↔ c.Strands act ∨ c.Stranded ∧ ¬ c.Mends act := by
  unfold Stranded
  cases course_perform c act with
  | attempt role misses ok attempted linked makes ends strands mends =>
    rw [strands, mends]
    generalize (c.perform act).value.2 = d at attempted
    cases attempted with
    | kept _ established _ stream hits => simp [established, stream, hits]
    | lost _ established _ stream missed =>
      -- Whether there was a socket before does not matter: it is gone now.
      have shut : Socket.closed.isOpen = false := rfl
      simp only [established, stream, missed, shut, and_true, Bool.false_eq_true, not_false_eq_true]
      exact (or_iff_left_of_imp And.left).symm
    | useless _ _ established _ stream hits => simp [stream, hits, Socket.isOpen]
    | made _ _ _ _ stream hits => simp [stream, hits, Socket.isOpen]
  | ending closed _ ends =>
    obtain ⟨-, strands, mends⟩ := only_ends ends
    simp [closed, strands, mends]
  | passing established same stream passes =>
    obtain ⟨-, -, strands, mends⟩ := idle_of_passes (c := c) passes
    rw [established, stream.isOpen_eq, or_iff_right strands, and_iff_left mends]

/-- The socket of a connection is never one that is called. -/
theorem isEnd_perform {act : Act} (ends : c.stream.isEnd) : (c.perform act).value.2.stream.isEnd := by
  cases course_perform c act with
  | attempt role misses ok attempted =>
    generalize (c.perform act).value.2 = d at attempted
    cases attempted with
    | kept _ _ _ stream | lost _ _ _ stream | useless _ _ _ _ stream | made _ _ _ _ stream =>
      rw [stream]
      first | exact ends | rfl
  | ending _ stream =>
    rcases stream with stream | stream
    · rw [stream]
      exact Socket.isEnd_shutdown ends
    · rw [stream]
      rfl
  | passing _ _ stream => exact stream.isEnd ends

/-! ### Runs of acts -/

theorem established_after_iff (c : Connection) (acts : List Act) :
    (c.after acts).established ↔ Lasts Makes Ends c acts ∨ c.established ∧ Spared Ends c acts := by
  have law := @after_iff Makes Ends fun c => c.established
  exact law established_perform c acts

theorem linked_after (linked : c.Linked) (acts : List Act) : (c.after acts).Linked :=
  after_keeps (fun _ _ => linked_perform) linked acts

theorem isEnd_after (ends : c.stream.isEnd) (acts : List Act) : (c.after acts).stream.isEnd := by
  have keeps := @after_keeps c fun c => c.stream.isEnd
  exact keeps (fun _ _ => isEnd_perform) ends acts

/-- **A connection is established without a socket after a call from an established connection that took the
socket, until it is mended.** -/
theorem stranded_after_iff (c : Connection) (acts : List Act) :
    (c.after acts).Stranded ↔ Lasts Strands Mends c acts ∨ c.Stranded ∧ Spared Mends c acts :=
  after_iff stranded_perform c acts

/-- Who never calls from an established connection has a socket whenever it is established. -/
theorem isOpen_of_established {acts : List Act}
    (careful : Spared (fun c act => c.established ∧ ∃ address, act = .connect address) none acts)
    (established : (none.after acts).established) : (none.after acts).stream.isOpen := by
  cases isOpen : (none.after acts).stream.isOpen with
  | true => rfl
  | false =>
    rcases (stranded_after_iff none acts).mp ⟨established, isOpen⟩ with
      ⟨before, act, later, eq, strands, -⟩ | ⟨⟨never, -⟩, -⟩
    · obtain ⟨address, rfl, established, -⟩ := strands
      exact absurd ⟨established, address, rfl⟩ (careful before _ later eq)
    · cases never

theorem send_of_not_established (packet : Packet) (closed : c.established = false) :
    c.send packet = ⟨(false, c), [.refused packet]⟩ := by
  unfold send
  rw [closed]
  rfl

/-- A stranded connection takes no packet and gives none, though it is established. -/
theorem mute_of_stranded (stranded : c.Stranded) :
    (∀ packet, c.send packet = ⟨(false, c), [.refused packet]⟩) ∧
      c.receive.value = (.failure .connectionTerminated, c) := by
  obtain ⟨listener, stream, established, role, host⟩ := c
  obtain ⟨established, shut⟩ := stranded
  cases stream with
  | closed =>
    refine ⟨fun packet => ?_, rfl⟩
    cases established
    rfl
  | listener | unconnected | stream => cases shut

/-! ### Closing twice -/

/-- Two connections are the same but for how often the listener was shut down. -/
structure Alike (c d : Connection) : Prop where
  listener : c.listener.Alike d.listener
  stream : d.stream = c.stream
  established : d.established = c.established
  role : d.role = c.role
  host : d.host = c.host

/-- The same is told and happens, and the connections are alike afterwards. -/
structure Resembles {α : Type} (x y : Traced (α × Connection)) : Prop where
  told : y.value.1 = x.value.1
  trace : y.trace = x.trace
  after : x.value.2.Alike y.value.2

theorem Alike.refl (c : Connection) : c.Alike c := ⟨.same _, rfl, rfl, rfl, rfl⟩

theorem Alike.eq_with (alike : c.Alike d) :
    ∃ listener, d = { c with listener } ∧ c.listener.Alike listener := by
  obtain ⟨listener, stream, established, role, host⟩ := alike
  refine ⟨d.listener, ?_, listener⟩
  rw [← stream, ← established, ← role, ← host]

theorem alike_close (ends : c.stream.isEnd) : c.close.Alike c.close.close :=
  ⟨Socket.alike_shutdown c.listener, Socket.shutdown_shutdown ends, rfl, rfl, rfl⟩

namespace Resembles

variable {α β : Type}

theorem pure (alike : c.Alike d) (a : α) : Resembles (pure (a, c)) (pure (a, d)) := ⟨rfl, rfl, alike⟩

/-- What comes first may be the same. -/
theorem behind (x : Traced α) {f g : α → Traced (β × Connection)} (next : ∀ a, Resembles (f a) (g a)) :
    Resembles (x >>= f) (x >>= g) :=
  ⟨(next x.value).told, congrArg (x.trace ++ ·) (next x.value).trace, (next x.value).after⟩

variable {x y : Traced (α × Connection)}

theorem bind {f : α × Connection → Traced (β × Connection)} (first : Resembles x y)
    (next : ∀ a c d, c.Alike d → Resembles (f (a, c)) (f (a, d))) : Resembles (x >>= f) (y >>= f) := by
  obtain ⟨told, trace, after⟩ := first
  have value : y.value = (x.value.1, y.value.2) := by rw [← told]
  have next := next x.value.1 _ _ after
  refine ⟨?_, ?_, ?_⟩
  · rw [Traced.value_bind, Traced.value_bind, value]
    exact next.told
  · rw [Traced.trace_bind, Traced.trace_bind, value, trace, next.trace]
  · rw [Traced.value_bind, Traced.value_bind, value]
    exact next.after

theorem map (resembles : Resembles x y) (f : α → β) :
    Resembles (Prod.map f id <$> x) (Prod.map f id <$> y) := by
  obtain ⟨told, trace, after⟩ := resembles
  exact ⟨congrArg f told, by rw [Traced.trace_map, Traced.trace_map, trace], after⟩

end Resembles

namespace Alike

theorem establish (alike : c.Alike d) (role : Role) : Resembles (c.establish role) (d.establish role) := by
  obtain ⟨listener, rfl, waiting⟩ := alike.eq_with
  refine .behind _ fun set => ?_
  dsimp only
  split
  · exact ⟨rfl, rfl, waiting, rfl, rfl, rfl, rfl⟩
  · exact ⟨rfl, rfl, waiting, rfl, rfl, rfl, rfl⟩

theorem listen (alike : c.Alike d) (address : Address) : Resembles (c.listen address) (d.listen address) := by
  obtain ⟨listener, rfl, waiting⟩ := alike.eq_with
  obtain ⟨ok, s, t, host, trace, first, second, waiting⟩ := waiting.listen address c.host
  unfold Connection.listen
  simp only [first, second]
  exact .behind _ fun _ => ⟨rfl, rfl, ⟨waiting, rfl, rfl, rfl, rfl⟩⟩

theorem accept (alike : c.Alike d) : Resembles c.accept d.accept := by
  obtain ⟨listener, rfl, waiting⟩ := alike.eq_with
  obtain ⟨endpoint, s, t, host, trace, first, second, waiting⟩ := waiting.accept c.host
  unfold Connection.accept
  simp only [first, second]
  cases endpoint with
  | none => exact ⟨rfl, rfl, ⟨waiting, rfl, rfl, rfl, rfl⟩⟩
  -- Both listeners are closed once somebody was accepted.
  | some e => exact ⟨rfl, rfl, .refl _⟩

theorem bindAndAccept (alike : c.Alike d) (address : Address) :
    Resembles (c.bindAndAccept address) (d.bindAndAccept address) := by
  refine (alike.listen address).bind fun ok c d alike => ?_
  cases ok with
  | false => exact .pure alike false
  | true => exact alike.accept

theorem connect (alike : c.Alike d) (address : Address) : Resembles (c.connect address) (d.connect address) := by
  obtain ⟨listener, rfl, waiting⟩ := alike.eq_with
  refine .behind _ fun _ => .behind _ fun called => ?_
  obtain ⟨ok, stream, host⟩ := called
  cases ok with
  | false => exact ⟨rfl, rfl, waiting, rfl, rfl, rfl, rfl⟩
  | true =>
    have called : Alike { c with stream, host } { c with listener, stream, host } := ⟨waiting, rfl, rfl, rfl, rfl⟩
    refine (called.establish .slave).bind fun ok c d alike => ?_
    cases ok with
    | false => exact .pure alike false
    | true => exact .behind _ fun _ => .pure alike true

theorem send (alike : c.Alike d) (packet : Packet) : Resembles (c.send packet) (d.send packet) := by
  obtain ⟨listener, rfl, waiting⟩ := alike.eq_with
  unfold Connection.send
  dsimp only
  split
  · exact .behind _ fun _ => ⟨rfl, rfl, waiting, rfl, rfl, rfl, rfl⟩
  · exact .behind _ fun sent => .behind _ fun _ => ⟨rfl, rfl, waiting, rfl, rfl, rfl, rfl⟩

theorem receive (alike : c.Alike d) : Resembles c.receive d.receive := by
  obtain ⟨listener, rfl, waiting⟩ := alike.eq_with
  exact .behind _ fun received => ⟨rfl, rfl, waiting, rfl, rfl, rfl, rfl⟩

theorem close (alike : c.Alike d) : c.close.Alike d.close := by
  obtain ⟨listener, rfl, waiting⟩ := alike.eq_with
  exact ⟨waiting.shutdown, rfl, rfl, rfl, rfl⟩

/-- Nobody calls a listener that was shut down. -/
theorem call (alike : c.Alike d) (e : Endpoint) :
    (d.call e).1 = (c.call e).1 ∧ (c.call e).2.Alike (d.call e).2 := by
  obtain ⟨listener, rfl, waiting⟩ := alike.eq_with
  obtain ⟨former, stream, established, role, host⟩ := c
  cases waiting with
  | same => exact ⟨rfl, .refl _⟩
  | unconnected => exact ⟨rfl, alike⟩

/-- Nothing comes to a listener that was shut down. -/
theorem arriveAt (alike : c.Alike d) (tag : Nat) (segment : Segment) :
    (c.arriveAt tag segment).Alike (d.arriveAt tag segment) := by
  obtain ⟨listener, rfl, waiting⟩ := alike.eq_with
  obtain ⟨former, stream, established, role, host⟩ := c
  cases waiting with
  | same => exact .refl _
  | unconnected first second =>
    cases stream with
    | stream e => exact ⟨.unconnected first second, rfl, rfl, rfl, rfl⟩
    | closed | listener | unconnected => exact alike

end Alike

theorem Alike.perform (alike : c.Alike d) (act : Act) : Resembles (c.perform act) (d.perform act) := by
  cases act with
  | listen address => exact (alike.listen address).map _
  | accept => exact alike.accept.map _
  | bindAndAccept address => exact (alike.bindAndAccept address).map _
  | connect address => exact (alike.connect address).map _
  | send packet => exact (alike.send packet).map _
  | receive => exact alike.receive.map _
  | close => exact .pure alike.close _
  | destroy =>
    obtain ⟨listener, rfl, waiting⟩ := alike.eq_with
    exact .pure (.refl _) _
  | expect host =>
    obtain ⟨listener, rfl, waiting⟩ := alike.eq_with
    exact ⟨rfl, rfl, waiting, rfl, rfl, rfl, rfl⟩
  | call e =>
    -- Also a peer who calls is turned away by both.
    obtain ⟨told, after⟩ := alike.call e
    exact ⟨congrArg Told.success told, rfl, after⟩
  | arrive tag segment => exact .pure (alike.arriveAt tag segment) _

/-- Connections that are alike stay so, and tell the same, whatever is done with them. -/
theorem Alike.run (alike : c.Alike d) (acts : List Act) : Resembles (c.run acts) (d.run acts) := by
  induction acts generalizing c d with
  | nil => exact .pure alike _
  | cons act acts ih =>
    refine (alike.perform act).bind fun told c d alike => ?_
    exact (ih alike).bind fun more c d alike => .pure alike _

/-! ### What the flag tells -/

/-- What closing a connection comes to. -/
structure Closes (c : Connection) : Prop where
  established : c.close.established = false
  role : c.close.role = c.role
  /-- To close it once more changes nothing that anyone could tell. -/
  twice : ∀ later, Resembles (c.close.run later) (c.close.close.run later)
  /-- It takes no packet until it is made again. -/
  refuses : ∀ later, Spared Makes c.close later → ∀ packet,
    (c.close.after later).send packet = ⟨(false, c.close.after later), [.refused packet]⟩

theorem closes (ends : c.stream.isEnd) : c.Closes := by
  refine ⟨rfl, rfl, (alike_close ends).run, fun later unmade packet => send_of_not_established packet ?_⟩
  cases established : (c.close.after later).established with
  | false => rfl
  | true =>
    rcases (established_after_iff c.close later).mp established with
      ⟨before, act, behind, eq, makes, -⟩ | ⟨still, -⟩
    · exact absurd makes (unmade before act behind eq)
    · cases still

/-- What a connection is after some acts: what its flag tells of it, and how it is given up. -/
structure Honest (acts : List Act) (c : Connection) : Prop where
  role : c.established → c.role = .master ∨ c.role = .slave
  /-- It is established without a socket if and only if that comes of a call from an established
  connection. -/
  stranded : c.established ∧ c.stream.isOpen = false ↔
    ∃ before address later, acts = before ++ .connect address :: later ∧
      (none.after before).established ∧ (none.after before).Misses address ∧
      Spared Mends (none.after (before ++ [.connect address])) later
  /-- A call that fails leaves the flag, whatever becomes of the socket. -/
  failed : ∀ address, (c.connect address).value.1 = false →
    (c.connect address).value.2.established = c.established
  closes : c.Closes
  destroyed : c.destroy = { none with host := c.host }

/-- **Whenever a connection is established it has a role, and a socket unless it was called from while it was
established.**  A call that fails does not take the flag back.  Closing keeps the role, may be repeated, and lets
nothing be sent any more; what is destroyed is as it was in the beginning. -/
theorem honest_after (acts : List Act) : Honest acts (none.after acts) := by
  constructor
  case role =>
    intro established
    have linked := linked_after (c := none) nofun acts established
    cases role : (none.after acts).role with
    | disabled => exact absurd role linked
    | master => exact .inl rfl
    | slave => exact .inr rfl
  case stranded =>
    have never : ¬ none.Stranded := nofun
    refine (stranded_after_iff none acts).trans ?_
    rw [or_iff_left fun stranded => never stranded.1]
    constructor
    · rintro ⟨before, _, later, eq, ⟨address, rfl, established, misses⟩, spared⟩
      exact ⟨before, address, later, eq, established, misses, spared⟩
    · rintro ⟨before, address, later, eq, established, misses, spared⟩
      exact ⟨before, _, later, eq, ⟨address, rfl, established, misses⟩, spared⟩
  case failed =>
    intro address failed
    have attempted := attempted_connect address (none.after acts)
    generalize ((none.after acts).connect address).value = x at attempted failed
    cases attempted with
    | kept _ established | lost _ established | useless _ _ established => exact established
    | made => cases failed
  case closes => exact Connection.closes (isEnd_after (c := none) rfl acts)
  case destroyed => rfl

/-- Calls of which the first is answered and the second is not. -/
def secondCall : List Act :=
  [.expect { answering := some {} }, .connect ⟨home, 8765⟩, .connect ⟨home, 8765⟩]

theorem honest_after_secondCall :
    (none.after secondCall).role ≠ .disabled ∧
      (∃ before address later, secondCall = before ++ .connect address :: later ∧
        (none.after before).established ∧ (none.after before).Misses address) ∧
      ((none.after secondCall).connect ⟨home, 8765⟩).value.2.established = true ∧
      ((none.after secondCall).close.send (Packet.version 0)).value.1 = false := by
  obtain ⟨role, stranded, failed, closes, -⟩ := honest_after secondCall
  obtain ⟨before, address, later, eq, established, misses, -⟩ := stranded.mp (by decide)
  have still := failed ⟨home, 8765⟩ (by decide)
  have refused := closes.refuses [] (fun before act later eq => absurd eq.symm (by simp)) (Packet.version 0)
  refine ⟨?_, ⟨before, address, later, eq, established, misses⟩, still, congrArg (·.value.1) refused⟩
  rcases role (by decide) with master | slave
  · rw [master]
    decide
  · rw [slave]
    decide

/-- A connection that is established has no socket after its second call was not answered. -/
theorem stranded_secondCall :
    (none.run secondCall).value.1 = [.nothing, .success true, .success false] ∧
      (none.after secondCall).established = true ∧ (none.after secondCall).stream.isOpen = false := by
  decide

end Connection

end SerialLink
