import Rendezvous.Proofs.Deframing
import Rendezvous.Proofs.Diagnosis
import Rendezvous.Proofs.Rejections
import Rendezvous.Proofs.Wording

/-!
# Errors that quote what was sent

Both ends read frames up to the same length, unless they are told otherwise.  So a client should be
able to read whatever it is answered, and mostly it is: an error says in a few words what is wrong
with a frame, and what it quotes is the tag of the frame, a count of octets, a limit that was
reached, or the valid name of a session, which is short.

There is one exception.  A message to a session that its sender has not joined is answered with an
error that quotes the name as it was sent, and what was sent need not be a name: nobody has looked
at its length.  The error is 51 octets longer than the name, and a frame can name a session with all
but five of its octets.  So for a few lengths the name fits into a frame and the error does not; the
client's reader then turns down the answer, and with it the connection.  A request to join, by
contrast, is answered without quoting if the name is too long.

## Main Definitions

* `Relay.fault?` — what is wrong with a frame, by the member lists

## Main Statements

* `Relay.utf8ByteSize_fault` — how long an error is
* `Relay.encode_fault_le_iff` — when the frame of an error is allowed
* `Assembly.error_readable_iff` — when a client can read what it is answered
-/

namespace Rendezvous

namespace Message

theorem length_encode_error (reason : String) :
    (error reason).encode.length = reason.utf8ByteSize + 5 := by
  simp [encode, encodeFields, encodeText, encodeBlob, Octets.ofWord]

/-- A name is shorter than the frame that names it. -/
theorem utf8ByteSize_session_le {m : Message} {session : String}
    (about : m.session? = some session) : session.utf8ByteSize + 5 ≤ m.encode.length := by
  cases m with
  | listSessions | sessionList _ | error _ => cases about
  | _ =>
      cases about
      simp [encode, encodeFields, encodeText, encodeBlob, Octets.ofWord]

/-- Why a frame does not decode is said in a few words. -/
theorem utf8ByteSize_decodeError_le {frame : Octets} {e : DecodeError}
    (undecodable : decode frame = .error e) (small : frame.length ≤ Limits.defaultFrame) :
    (Fault.decode e).message.utf8ByteSize ≤ 128 := by
  have words (text : String) (few : text.utf8ByteSize ≤ 64) :
      ("Decode error: " ++ text).utf8ByteSize ≤ 128 := by
    have intro : "Decode error: ".utf8ByteSize = 14 := by decide
    rw [String.utf8ByteSize_append, intro]
    omega
  have verdict := judged frame
  rw [undecodable] at verdict
  cases verdict with
  | empty | invalid _ | short _ _ => exact words _ (by decide)
  | @unknown tag rest strange =>
      have digits : (DecodeError.hexOctet tag).utf8ByteSize ≤ 4 * 2 := by
        have two : (DecodeError.hexOctet tag).length = 2 := String.length_ofList
        rw [← two]
        exact utf8ByteSize_le _
      have text : "unknown message tag 0x".utf8ByteSize = 22 := by decide
      have few : ("unknown message tag 0x" ++ DecodeError.hexOctet tag).utf8ByteSize ≤ 64 := by
        rw [String.utf8ByteSize_append, text]
        omega
      exact words _ few
  | @trailing m extra fits more =>
      have count : extra.length < 10 ^ 6 := by
        have part : extra.length ≤ (m.encode ++ extra).length := by simp
        exact (part.trans small).trans_lt (by decide)
      have digits := utf8ByteSize_toString_le (by decide) count
      have text : " trailing bytes after message".utf8ByteSize = 29 := by decide
      have few : (toString extra.length ++ " trailing bytes after message").utf8ByteSize ≤ 64 := by
        rw [String.utf8ByteSize_append, text]
        omega
      exact words _ few

end Message

namespace Relay

variable {r : Relay} {p : PeerId} {max : Nat} {frame : Octets} {f : Fault}

/-- **What is wrong with a frame** from a connection that may be in so many sessions, by the member
lists: it is no message, or the message in it breaks a rule. -/
def fault? (r : Relay) (p : PeerId) (maxSessions : Nat) (frame : Octets) : Option Fault :=
  match Message.decode frame with
  | .error e => some (.decode e)
  | .ok m => (r.violation? p maxSessions m).map .rule

theorem utf8ByteSize_notJoined (session : String) :
    (Fault.rule (.notJoined session)).message.utf8ByteSize = session.utf8ByteSize + 46 := by
  have before : "not a member of session `".utf8ByteSize = 25 := by decide
  have after : "`".utf8ByteSize = 1 := by decide
  have whole := utf8ByteSize_quoting "not a member of session `" session "`"
  rw [before, after] at whole
  refine whole.trans ?_
  omega

/-- That only the relay sends such messages is said in a few words. -/
theorem utf8ByteSize_unexpected_le (kind : Message.Kind) :
    (Fault.rule (.unexpectedMessage kind.name)).message.utf8ByteSize ≤ 128 := by
  have name : kind.name.utf8ByteSize ≤ 32 := by cases kind <;> decide
  have before : "unexpected ".utf8ByteSize = 11 := by decide
  have after : " message from client".utf8ByteSize = 20 := by decide
  have whole := utf8ByteSize_quoting "unexpected " kind.name " message from client"
  rw [before, after] at whole
  refine whole.trans_le ?_
  omega

/-- **An error is short, or it quotes a name** that was in a frame. -/
theorem utf8ByteSize_fault (small : frame.length ≤ Limits.defaultFrame)
    (wrong : r.fault? p max frame = some f) :
    f.message.utf8ByteSize ≤ 4 * (3 * 256) + 84 ∨
      ∃ session, f = .rule (.notJoined session) ∧
        session.utf8ByteSize + 5 ≤ Limits.defaultFrame := by
  unfold fault? at wrong
  cases decoded : Message.decode frame with
  | error e =>
      rw [decoded] at wrong
      cases wrong
      exact .inl ((Message.utf8ByteSize_decodeError_le decoded small).trans (by decide))
  | ok m =>
      rw [decoded] at wrong
      obtain ⟨v, broken, rfl⟩ := Option.map_eq_some_iff.1 wrong
      have sent := (Message.eq_encode_of_decode decoded).1
      -- Only members leave and send.
      have outside {session : String} (about : m.session? = some session)
          (broken : r.memberViolation? p session = some v) :
          ∃ name, Fault.rule v = .rule (.notJoined name) ∧
            name.utf8ByteSize + 5 ≤ Limits.defaultFrame := by
        unfold memberViolation? at broken
        split at broken
        · cases broken
        · cases broken
          exact ⟨session, rfl, (Message.utf8ByteSize_session_le about).trans (sent ▸ small)⟩
      cases m with
      | joinRequest session => exact .inl (utf8ByteSize_joinViolation_le broken)
      | leaveNotice _ | offer _ _ | answer _ _ | iceCandidate _ _ | endOfCandidates _ =>
          exact .inr (outside rfl broken)
      | listSessions | error _ => cases broken
      | peerJoined _ _ | peerLeft _ _ | joined _ _ | sessionList _ =>
          cases broken
          exact .inl ((utf8ByteSize_unexpected_le _).trans (by decide))

/-- An error is not much longer than a frame may be. -/
theorem utf8ByteSize_fault_le (small : frame.length ≤ Limits.defaultFrame)
    (wrong : r.fault? p max frame = some f) :
    f.message.utf8ByteSize ≤ Limits.defaultFrame + 41 := by
  obtain short | ⟨session, rfl, fits⟩ := utf8ByteSize_fault small wrong
  · exact short.trans (by decide)
  · rw [utf8ByteSize_notJoined]
    omega

/-- **The frame of an error is allowed** unless the error quotes a name that is too long. -/
theorem encode_fault_le_iff (small : frame.length ≤ Limits.defaultFrame)
    (wrong : r.fault? p max frame = some f) :
    (Message.error f.message).encode.length ≤ Limits.defaultFrame ↔
      ∀ session, f = .rule (.notJoined session) →
        session.utf8ByteSize + 51 ≤ Limits.defaultFrame := by
  rw [Message.length_encode_error]
  unfold Limits.defaultFrame
  constructor
  · rintro fits session rfl
    rw [utf8ByteSize_notJoined] at fits
    omega
  · intro quoted
    obtain short | ⟨session, rfl, -⟩ := utf8ByteSize_fault small wrong
    · omega
    · have fits := quoted session rfl
      rw [utf8ByteSize_notJoined]
      omega

end Relay

namespace Participant

variable {x : Participant} {r : Relay} {frame : Octets}

/-- **A frame with which something is wrong is answered with that**, and otherwise nobody is
offered an error. -/
theorem Settled.receive_fault (h : x.Settled r) (sound : r.Sound) (listed : r.isListed x.peer)
    (frame : Octets) :
    match r.fault? x.peer x.maxSessions frame with
    | some f => r.Answers x.peer (.error f.message) (x.receive r frame).2
    | none => r.Faultless (x.receive r frame).2 := by
  unfold Relay.fault?
  cases decoded : Message.decode frame with
  | error e => exact (receive_of_undecodable listed decoded).2
  | ok m =>
      cases broken : r.violation? x.peer x.maxSessions m with
      | some v =>
          dsimp only
          rw [broken]
          exact (h.receive_of_violation sound listed decoded broken).2
      | none =>
          dsimp only
          rw [broken]
          exact (h.receive_of_permitted sound listed decoded broken).2

end Participant

namespace Assembly

open Relay (Answers Faultless)

/-- **When a client can read what it is answered.**  After every run, let a live connection send any
frame of at most the length that both ends read unless they are told otherwise.  Nobody is offered
an error unless something is wrong with the frame; then the connection is offered one that says so.
The frame of this error is of an allowed length exactly if it does not quote the name of a session
that is longer than 262,093 octets.  A client that has received it, in whatever chunks and whatever
comes behind it, reads it exactly then, and decodes it to the error; and otherwise its reader fails,
because the frame is too large. -/
theorem error_readable_iff (policy : Policy) (ss : List Step) (p : PeerId) (x : Participant)
    (hx : (run policy ss).live.get? p = some x) (frame : Octets)
    (small : frame.length ≤ Limits.defaultFrame) :
    let r := (run policy ss).relay
    let s := (x.receive r frame).2
    (r.fault? p x.maxSessions frame = none → r.Faultless s) ∧
      ∀ f, r.fault? p x.maxSessions frame = some f →
        let reply := Message.error f.message
        r.Answers p reply s ∧
        (reply.encode.length ≤ Limits.defaultFrame ↔ ∀ session, f = .rule (.notJoined session) →
          session.utf8ByteSize ≤ 262093) ∧
        ∀ (client : FrameReader) (chunks : List Octets) (ended : Bool) (behind : Octets),
          client.max = Limits.defaultFrame →
          client.buffered ++ chunks.flatten = Framing.frame reply.encode ++ behind →
          (client.read { arrivals := chunks.map .octets, ended }).1 =
            (if reply.encode.length ≤ Limits.defaultFrame then .frame reply.encode
              else .failed (.frameTooLarge reply.encode.length Limits.defaultFrame)) ∧
          Message.decode reply.encode = .ok reply := by
  have sound := sound_run policy ss
  generalize run policy ss = a at hx sound
  obtain ⟨rfl, listed, settled⟩ := sound.serves p x hx
  intro r s
  have answered := settled.receive_fault sound.relay listed frame
  refine ⟨fun fine => ?_, fun f wrong => ?_⟩
  · rwa [fine] at answered
  rw [wrong] at answered
  intro reply
  have length : reply.encode.length = f.message.utf8ByteSize + 5 := Message.length_encode_error _
  have longest := Relay.utf8ByteSize_fault_le small wrong
  unfold Limits.defaultFrame at longest
  refine ⟨answered, ?_, fun client chunks ended behind limit whole => ⟨?_, ?_⟩⟩
  · rw [Relay.encode_fault_le_iff small wrong]
    unfold Limits.defaultFrame
    exact forall_congr' fun session => imp_congr_right fun _ => by omega
  · have word : reply.encode.length < 4294967296 := by omega
    rw [FrameReader.read_chunks ended chunks client word whole, limit]
  · have fits : Message.FitsWord f.message := by
      unfold Message.FitsWord
      omega
    exact Message.decode_encode fits

/-- A client leaves a session that it has not joined, and can read why that is wrong. -/
theorem error_readable_iff_stranger :
    let r := (run {} [.connect ⟨1⟩ 8 0]).relay
    let reply := Message.error (Fault.rule (.notJoined "hall")).message
    ∃ frame, Message.decode frame = .ok (.leaveNotice "hall") ∧
      r.Answers ⟨1⟩ reply (({ peer := ⟨1⟩ } : Participant).receive r frame).2 ∧
      (({} : FrameReader).read { arrivals := [.octets (Framing.frame reply.encode)] }).1 =
        .frame reply.encode := by
  intro r reply
  obtain ⟨frame, sent⟩ : ∃ frame, frame = (Message.leaveNotice "hall").encode := ⟨_, rfl⟩
  have decoded : Message.decode frame = .ok (.leaveNotice "hall") := by
    rw [sent]
    decide +kernel
  have small : frame.length ≤ Limits.defaultFrame := by
    rw [sent]
    decide +kernel
  have there : (run {} [.connect ⟨1⟩ 8 0]).live.get? ⟨1⟩ = some { peer := ⟨1⟩ } := by
    decide +kernel
  have wrong : r.fault? ⟨1⟩ 0 frame = some (.rule (.notJoined "hall")) := by
    unfold Relay.fault?
    rw [decoded]
    decide +kernel
  obtain ⟨answers, fits, reads⟩ := (error_readable_iff {} _ ⟨1⟩ _ there frame small).2 _ wrong
  have short : reply.encode.length ≤ Limits.defaultFrame := by decide +kernel
  have read := (reads {} [Framing.frame reply.encode] false [] rfl rfl).1
  exact ⟨frame, decoded, answers, read.trans (if_pos short)⟩

/-- Whoever has just connected is in no session, and is told so if it leaves one; if the name fills
its frame, it cannot read what it is told. -/
theorem stranger_not_answered {name : String} (fills : name.utf8ByteSize = 262139) :
    let r := (run {} [.connect ⟨1⟩ 8 0]).relay
    let reply := Message.error (Fault.rule (.notJoined name)).message
    ∃ frame, frame = (Message.leaveNotice name).encode ∧ frame.length = Limits.defaultFrame ∧
      r.Answers ⟨1⟩ reply (({ peer := ⟨1⟩ } : Participant).receive r frame).2 ∧
      (({} : FrameReader).read { arrivals := [.octets (Framing.frame reply.encode)] }).1 =
        .failed (.frameTooLarge 262190 Limits.defaultFrame) := by
  intro r reply
  have fits : (Message.leaveNotice name).Encodable := fills.trans_lt (by decide)
  have decoded := Message.decode_encode fits
  have size : (Message.leaveNotice name).encode.length = Limits.defaultFrame := by
    simp [Message.encode, Message.encodeFields, Message.encodeText, Message.encodeBlob,
      Octets.ofWord, fills, Limits.defaultFrame]
  have length : reply.encode.length = 262190 := by
    rw [Message.length_encode_error, Relay.utf8ByteSize_notJoined, fills]
  generalize (Message.leaveNotice name).encode = frame at decoded size
  have there : (run {} [.connect ⟨1⟩ 8 0]).live.get? ⟨1⟩ = some { peer := ⟨1⟩ } := by
    decide +kernel
  have nowhere : r.sessionsOf ⟨1⟩ = [] := by decide +kernel
  have broken : r.violation? ⟨1⟩ 0 (.leaveNotice name) = some (.notJoined name) := by
    show r.memberViolation? ⟨1⟩ name = _
    unfold Relay.memberViolation?
    rw [nowhere, List.map_nil, if_neg List.not_mem_nil]
  have sound := sound_run {} [.connect ⟨1⟩ 8 0]
  obtain ⟨-, listed, settled⟩ := sound.serves ⟨1⟩ _ there
  refine ⟨frame, rfl, size, ?_, ?_⟩
  · exact (settled.receive_of_violation sound.relay listed decoded broken).2
  · have word : reply.encode.length < 4294967296 := length.trans_lt (by decide)
    have whole : [Framing.frame reply.encode].flatten = Framing.frame reply.encode ++ [] := rfl
    have read := FrameReader.read_chunks false [Framing.frame reply.encode] {} word whole
    rw [length] at read
    exact read.trans (if_neg (by decide))

/-- A text that is as long as a text in a frame can be. -/
def endless : String := String.ofList (List.replicate 262139 'a')

theorem utf8ByteSize_endless : endless.utf8ByteSize = 262139 := by
  have size (n : Nat) : (String.ofList (List.replicate n 'a')).utf8ByteSize = n := by
    rw [String.utf8ByteSize_ofList]
    induction n with
    | zero => rfl
    | succ n ih =>
        rw [List.replicate_succ, String.utf8Len_cons, ih]
        rfl
  exact size 262139

/-- **A client can be answered by an error that it cannot read.**  It leaves a session with a name
that fills its frame; the answer, which quotes the name, is 46 octets longer than a frame may
be. -/
theorem error_not_readable :
    let r := (run {} [.connect ⟨1⟩ 8 0]).relay
    let reply := Message.error (Fault.rule (.notJoined endless)).message
    ∃ frame, frame = (Message.leaveNotice endless).encode ∧
      frame.length = Limits.defaultFrame ∧
      r.Answers ⟨1⟩ reply (({ peer := ⟨1⟩ } : Participant).receive r frame).2 ∧
      (({} : FrameReader).read { arrivals := [.octets (Framing.frame reply.encode)] }).1 =
        .failed (.frameTooLarge 262190 Limits.defaultFrame) :=
  stranger_not_answered utf8ByteSize_endless

end Assembly

end Rendezvous
