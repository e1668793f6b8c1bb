import Rendezvous.Proofs.Assembly
import Rendezvous.Proofs.Deframing
import Rendezvous.Proofs.Emission
import Rendezvous.Proofs.WireFormat

/-!
# What is passed on arrives unchanged

A relay understands what it passes on: it decodes every frame, and what leaves it was encoded
anew.  On plain streams this cannot be seen from outside.  A frame that is passed on reaches
the stream of every other member as it came, behind its length and behind whatever waited for
that member before, and whoever takes the frames off such a stream finds the messages that
were sent, in whatever chunks the stream arrives.

The argument follows the frame.  Only one frame decodes to its message, so encoding it gives
the frame back; the outbox has the message behind all others; the writer overtakes nothing;
the stream takes whole frames; and the reader finds frames where they were put.

## Main Definitions

* `Relay.PassesThrough` — what becomes of a message that is accepted for a connection

## Main Statements

* `Assembly.Sound.outbox?_receive` — what passing a message on does to the outbox of a member
* `Framing.parses_octetsOf` — messages on a stream are found as they were put there
* `Assembly.forwarded_unchanged` — the frame itself, from one stream to the other
-/

namespace Rendezvous

/-- **A message passes through** a relay to a connection as these octets, between two states: from
then on its writer writes what was ahead of it, then the message, and then what is accepted
later; by itself it comes so far; on a stream the message becomes the octets; and a stream
without a limit takes them.  So the stream of the writer has taken the frames of what it wrote
before, then the octets, and then the frames of what it wrote later. -/
structure Relay.PassesThrough (r s : Relay) (q : PeerId) (m : Message) (b : Octets) : Prop where
  inTurn : ∀ {w v : Writer} {t : Relay} {more : List Message}, w.peer = q →
    w.Proceeds s more v t → ∃ since, v.messages = w.messages ++ since ∧
      (since <+: w.ahead r ∨ ∃ later, since = w.ahead r ++ m :: later ∧ later <+: more)
  written : ∀ {w : Writer}, w.peer = q → w.isRunning → w.device.works → ∀ now,
    (w.run now s).1.messages = w.messages ++ w.ahead r ++ [m]
  octets : ∀ {before later : List Message} {k k' : Sink},
    k.writeMessages (before ++ m :: later) = (.ok (), k') →
      k'.taken = k.taken ++ Framing.octetsOf before ++ b ++ Framing.octetsOf later
  goesOut : ∀ {k : Sink}, k.isUnlimited → ∀ before later : List Message,
    ∃ k', k.writeMessages (before ++ m :: later) = (.ok (), k')
  onStream : ∀ {w v : Writer} {t : Relay} {more : List Message} {k k' : Sink}, w.peer = q →
    w.Proceeds s more v t → v.writeTo k = (.ok (), k') →
      (∃ since, since <+: w.ahead r ∧
        k'.taken = k.taken ++ Framing.octetsOf (w.messages ++ since)) ∨
      ∃ later, later <+: more ∧ k'.taken =
        k.taken ++ Framing.octetsOf (w.messages ++ w.ahead r) ++ b ++ Framing.octetsOf later
  reaches : ∀ {w : Writer} {k : Sink}, w.peer = q → w.isRunning → w.device.works →
    k.isUnlimited → ∀ now, ∃ k', (w.run now s).1.writeTo k = (.ok (), k') ∧
      k'.taken = k.taken ++ Framing.octetsOf (w.messages ++ w.ahead r) ++ b

/-- The front of one list with another behind it ends within the first, or goes on into the
second. -/
theorem prefix_append_cons {α : Type} {since before more : List α} {a : α}
    (h : since <+: before ++ a :: more) :
    since <+: before ∨ ∃ later, since = before ++ a :: later ∧ later <+: more := by
  rcases List.prefix_or_prefix_of_prefix h (List.prefix_append before (a :: more)) with within |
    ⟨rest, rfl⟩
  · exact .inl within
  · cases rest with
    | nil => exact .inl (by simp)
    | cons b later =>
        obtain ⟨rfl, part⟩ := List.cons_prefix_cons.1 ((List.prefix_append_right_inj before).1 h)
        exact .inr ⟨later, rfl, part⟩

namespace Relay

variable {r s : Relay} {q : PeerId} {m : Message} {f : Octets}

/-- What a writer writes in turn once a message waits behind all others. -/
theorem inTurn_of_waiting {w v : Writer} {t : Relay} {more : List Message}
    (ahead : w.ahead s = w.ahead r ++ [m]) (proceeds : w.Proceeds s more v t) :
    ∃ since, v.messages = w.messages ++ since ∧
      (since <+: w.ahead r ∨ ∃ later, since = w.ahead r ++ m :: later ∧ later <+: more) := by
  obtain ⟨since, messages, part⟩ := proceeds.messages
  rw [ahead, List.append_assoc] at part
  exact ⟨since, messages, prefix_append_cons part⟩

/-- **What waits behind all others passes through**, and as it came. -/
theorem passesThrough_of_waiting (waits : s.waiting q = r.waiting q ++ [m])
    (decoded : Message.decode f = .ok m) :
    r.PassesThrough s q m (Octets.ofWord f.length ++ f) := by
  have ahead {w : Writer} (own : w.peer = q) : w.ahead s = w.ahead r ++ [m] := by
    rw [Writer.ahead, Writer.ahead, own, waits, List.append_assoc]
  -- The frame of the message is the frame that came, since no other decodes to it.
  have octets (later : List Message) : Framing.octetsOf (m :: later) =
      Octets.ofWord f.length ++ f ++ Framing.octetsOf later := by
    rw [(Message.eq_encode_of_decode decoded).1]
    rfl
  have written {w : Writer} (own : w.peer = q) (running : w.isRunning) (works : w.device.works)
      (now : Nat) : (w.run now s).1.messages = w.messages ++ w.ahead r ++ [m] := by
    rw [Writer.messages_run works running, ahead own, List.append_assoc]
  refine ⟨fun own proceeds => inTurn_of_waiting (ahead own) proceeds, written, fun wrote => ?_,
    fun unlimited before later => ?_, fun own proceeds wrote => ?_,
    fun {w k} own running works unlimited now => ?_⟩
  · rw [Sink.taken_of_writeMessages wrote, Framing.octetsOf_append, octets]
    simp only [List.append_assoc]
  · obtain ⟨k', wrote, -⟩ :=
      Sink.putAll_of_isUnlimited unlimited ((before ++ m :: later).map .message)
    exact ⟨k', wrote⟩
  · obtain ⟨since, messages, part | ⟨later, rfl, part⟩⟩ := inTurn_of_waiting (ahead own) proceeds
    · exact .inl ⟨since, part, messages ▸ Writer.taken_of_writeTo wrote⟩
    · refine .inr ⟨later, part, ?_⟩
      rw [Writer.taken_of_writeTo wrote, messages, ← List.append_assoc, Framing.octetsOf_append,
        octets]
      simp only [List.append_assoc]
  · obtain ⟨k', wrote, taken⟩ := Writer.writeTo_of_isUnlimited unlimited (w.run now s).1
    refine ⟨k', wrote, ?_⟩
    rw [taken, written own running works, Framing.octetsOf_append, octets, ← List.append_assoc]
    exact congrArg (_ ++ ·) (List.append_nil _)

end Relay

/-! ### Into the outbox -/

namespace Assembly

variable {a : Assembly} {p q : PeerId} {m : Message} {n : SessionName} {f : Octets}

/-- **Passing a message on** offers it to every other member once, and nothing else. -/
theorem Sound.outbox?_receive (h : a.Sound) (decoded : Message.decode f = .ok m)
    (relayable : m.relayable) (about : m.session? = some n.text)
    (sender : p ∈ a.relay.membersOf n) (member : q ∈ a.relay.membersOf n) (other : q ≠ p) :
    (a.step (.receive p f)).relay.outbox? q =
      (a.relay.outbox? q).map fun o => (o.offer m).2 := by
  obtain ⟨x, hx⟩ := isLive_iff.1 (h.living n p sender)
  obtain ⟨rfl, -, settled⟩ := h.serves p x hx
  obtain ⟨line, hline, listed⟩ := Relay.exists_line (h.attended n q member)
  rw [step_receive hx]
  obtain ⟨-, -, _, -, -, -, -, broken⟩ | ⟨m', s, y, t, decoded', reports, acts, received⟩ :=
    settled.receive_cases h.relay f
  · -- A member breaks no rule by sending to its session.
    obtain ⟨v, broken, -⟩ := broken m decoded
    have inside : n.text ∈ (a.relay.sessionsOf x.peer).map SessionName.text :=
      List.mem_map_of_mem (h.relay.mem_sessionsOf_iff.2 sender)
    rw [Relay.violation?_of_relayable relayable about, Relay.memberViolation?, if_pos inside]
      at broken
    cases broken
  · obtain rfl : m = m' := by
      rw [decoded] at decoded'
      cases decoded'
      rfl
    rw [received]
    cases acts with
    | @forwarded k m t _ _ about' forwards =>
        obtain rfl : n = k := SessionName.ext (Option.some.inj (about.symm.trans about'))
        have hears : q ∈ s.membersOf n ∧ q ≠ x.peer :=
          ⟨(Relay.membersOf_congr reports.sessions).symm ▸ member, other⟩
        have told := forwards.tells.lines q
        rw [Participant.peer_track, if_pos hears, reports.lines, hline] at told
        unfold Relay.outbox?
        rw [told, hline]
        simp [Line.told, listed]
    | joined _ _ _ _ | left _ _ _ | told | nothing _ => cases relayable

/-- Where the outbox accepts it, the message waits behind all others. -/
theorem Sound.waiting_receive (h : a.Sound) (decoded : Message.decode f = .ok m)
    (relayable : m.relayable) (about : m.session? = some n.text)
    (sender : p ∈ a.relay.membersOf n) (member : q ∈ a.relay.membersOf n) (other : q ≠ p)
    (accepted : (a.relay.offer q m).1) :
    (a.step (.receive p f)).relay.waiting q = a.relay.waiting q ++ [m] := by
  obtain ⟨line, hline, -⟩ := Relay.exists_line (h.attended n q member)
  have before : a.relay.outbox? q = some line.outbox := by rw [Relay.outbox?, hline]; rfl
  have after := h.outbox?_receive decoded relayable about sender member other
  rw [before, Option.map_some] at after
  rw [Relay.waiting_of_outbox? after, Relay.waiting_of_outbox? before, Outbox.pending_offer,
    if_pos ((Relay.offer_fst_iff hline m).1 accepted)]

end Assembly

/-! ### Off the stream -/

/-- **Messages on a stream are found as they were put there**, as far as their frames are
allowed. -/
theorem Framing.parses_octetsOf {max : Nat} {ms : List Message}
    (fits : ∀ m ∈ ms, m.encode.length ≤ max ∧ m.encode.length < 4294967296) :
    Parses max (octetsOf ms) (ms.map Message.encode) .closed := by
  induction ms with
  | nil => exact .closed
  | cons m rest ih =>
      obtain ⟨⟨allowed, word⟩, others⟩ := List.forall_mem_cons.1 fits
      exact .frame word allowed (ih others)

namespace Assembly

/-- **What is passed on arrives unchanged.**  After whatever run, let a member of a session send a
frame that decodes to negotiation traffic of that session.  To every other member whose outbox
accepts the message it passes through as the length of the frame and the frame itself.  And from
whatever chunks of the octets of such messages, as far as their frames are allowed, a reader
gets frames that decode to just these messages, and then finds the end. -/
theorem forwarded_unchanged (policy : Policy) :
    (∀ (ss : List Step) (p q : PeerId) (f : Octets) (m : Message) (n : SessionName),
      Message.decode f = .ok m → m.relayable → m.session? = some n.text →
      p ∈ (run policy ss).relay.membersOf n → q ∈ (run policy ss).relay.membersOf n → q ≠ p →
      ((run policy ss).relay.offer q m).1 →
      (run policy ss).relay.PassesThrough ((run policy ss).step (.receive p f)).relay q m
        (Octets.ofWord f.length ++ f)) ∧
    ∀ (max : Nat) (ms : List Message) (chunks : List Octets),
      (∀ m ∈ ms, (∃ f, Message.decode f = .ok m) ∧ m.encode.length ≤ max ∧
        m.encode.length < 4294967296) →
      chunks.flatten = Framing.octetsOf ms →
      ∃ frames, FrameReader.readAll { max } { arrivals := chunks.map .octets, ended := true } =
          (frames, .closed) ∧
        frames.map Message.decode = ms.map .ok := by
  constructor
  · intro ss p q f m n decoded relayable about sender member other accepted
    exact Relay.passesThrough_of_waiting ((sound_run policy ss).waiting_receive decoded relayable
      about sender member other accepted) decoded
  · intro max ms chunks sent whole
    have fits := fun m hm => (sent m hm).2
    refine ⟨ms.map Message.encode, ?_, ?_⟩
    · exact FrameReader.readAll_of_parses (Framing.parses_octetsOf fits) { max } chunks rfl whole
    · rw [List.map_map]
      refine List.map_congr_left fun m hm => ?_
      obtain ⟨f, decoded⟩ := (sent m hm).1
      rw [Function.comp_apply, ← (Message.eq_encode_of_decode decoded).1, decoded]

/-- The session of a pair. -/
def pair : SessionName := ⟨"pair", by decide, by decide⟩

/-- Two connections are in one session, and an answer already waits for the second. -/
def pairing : List Step :=
  [.connect ⟨1⟩ 8 0, .connect ⟨2⟩ 8 0,
    .receive ⟨1⟩ (Message.joinRequest pair.text).encode,
    .receive ⟨2⟩ (Message.joinRequest pair.text).encode,
    .receive ⟨1⟩ (Message.answer pair.text [7]).encode]

/-- What the first of the two offers. -/
def proposal : Message := .offer pair.text [1, 2]

/-- The offer passes through to the second of the two, whose reader finds it although its octets
arrive in two chunks, the first of which ends within the length. -/
theorem forwarded_unchanged_pair :
    (run {} pairing).relay.PassesThrough
      ((run {} pairing).step (.receive ⟨1⟩ proposal.encode)).relay ⟨2⟩ proposal
      ([0, 0, 0, 15] ++ proposal.encode) ∧
    ∃ frames, FrameReader.readAll { max := 15 } {
          arrivals := [.octets [0, 0, 0], .octets (15 :: proposal.encode)], ended := true } =
        (frames, .closed) ∧
      frames.map Message.decode = [.ok proposal] := by
  constructor
  · exact (forwarded_unchanged {}).1 pairing ⟨1⟩ ⟨2⟩ proposal.encode proposal pair
      (by decide +kernel) rfl rfl (by decide +kernel) (by decide +kernel) (by decide +kernel)
      (by decide +kernel)
  · refine (forwarded_unchanged {}).2 15 [proposal] [[0, 0, 0], 15 :: proposal.encode] ?_
      (by decide +kernel)
    intro m hm
    rw [List.mem_singleton.1 hm]
    exact ⟨⟨proposal.encode, by decide +kernel⟩, by decide +kernel, by decide +kernel⟩

end Assembly

end Rendezvous
