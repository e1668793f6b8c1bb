import Mathlib.Data.List.TakeWhile
import Rendezvous.Client

/-!
# What a client hands out

A client takes in what the relay sends in two ways.  It is asked for the next message, or it
waits for the acknowledgement of a join, and then reads on until something ends the wait.  What
arrives meanwhile is put aside and handed out later, before anything that is still to be read.

However the two are mixed, every message that was read is handed out once and in its turn, but
for the one frame with which a wait came to its end.  So what was handed out and what is put
aside are together what was read.

## Main Definitions

* `Arrival.ending?` — what ends a wait, and with which outcome
* `Arrival.reading` — what is answered when an arrival is read
* `Client.Call`, `Client.answer`, `Client.answerAll` — what is asked of a client
* `Client.reads`, `Client.ledger` — what a call takes in, and what each of several calls does
* `Client.Call.keeps` — the messages that a call owes to whoever asks for them

## Main Statements

* `Client.await_append`, `Client.await_cases` — a wait reads up to the first arrival that ends it
* `Client.balances` — one call keeps what is read and what is handed out in balance
* `Client.handed_out_in_turn` — nothing is lost, doubled or overtaken
* `Client.received_in_turn` — what the next call for a message answers
-/

namespace Rendezvous

namespace Arrival

/-- The message that arrived, if it was one. -/
def message? : Arrival → Option Message
  | octets b => (Message.decode b).toOption
  | failure _ => none

/-- **What a call for the next message answers** when it is this arrival that is read. -/
def reading : Arrival → Except Fault (Option Message)
  | octets b =>
    match Message.decode b with
    | .ok m => .ok (some m)
    | .error e => .error (.decode e)
  | failure text => .error (.io text)

/-- **What ends the wait for the acknowledgement of a join**, and its outcome: the acknowledgement
itself, an error message, which counts as a refusal, a frame that is no message, or a failure. -/
def ending? (session : String) : Arrival → Option (Except Fault String)
  | failure text => some (.error (.io text))
  | octets b =>
    match Message.decode b with
    | .error e => some (.error (.decode e))
    | .ok (.error reason) => some (.error (.rejected reason))
    | .ok (.joined s peer) => if s = session then some (.ok peer) else none
    | .ok _ => none

/-- Whether a wait goes on. -/
def isPassing (session : String) (a : Arrival) : Bool := (a.ending? session).isNone

end Arrival

namespace Client

/-- A new client, to which all this will arrive. -/
def opened (script : List Arrival) : Client := { inbound := script }

/-- What may be asked of a client. -/
inductive Call where
  | join (session : String)
  | receive

/-- What is answered. -/
inductive Reply where
  | joined (outcome : Except Fault String)
  | received (outcome : Except Fault (Option Message))

/-- The message that is handed out, if one is. -/
def Reply.message? : Reply → Option Message
  | received (.ok m) => m
  | received (.error _) | joined _ => none

/-- Answer a call. -/
def answer (c : Client) : Call → Reply × Client
  | .join session => (.joined (c.join session).1, (c.join session).2)
  | .receive => (.received c.receive.1, c.receive.2)

/-- Answer calls one after the other. -/
def answerAll (c : Client) : List Call → List Reply × Client
  | [] => ([], c)
  | q :: rest => ((c.answer q).1 :: ((c.answer q).2.answerAll rest).1,
      ((c.answer q).2.answerAll rest).2)

/-- **What a call takes in**: the arrivals that are no longer to come afterwards. -/
def reads (c : Client) (q : Call) : List Arrival :=
  c.inbound.take (c.inbound.length - (c.answer q).2.inbound.length)

/-- Several calls, each with what it takes in. -/
def ledger (c : Client) : List Call → List (Call × List Arrival)
  | [] => []
  | q :: rest => (q, c.reads q) :: (c.answer q).2.ledger rest

/-- **The messages that a call owes** of what it takes in: all of them, but for the arrival that
ends a wait. -/
def Call.keeps : Call × List Arrival → List Message
  | (.join session, read) => (read.takeWhile (Arrival.isPassing session)).filterMap Arrival.message?
  | (.receive, read) => read.filterMap Arrival.message?

variable {c : Client} {session : String} {arrivals : List Arrival}

/-! ### Waiting -/

/-- What does not end a wait is a message, and is put aside. -/
theorem await_cons_of_isPassing {a : Arrival} (h : a.isPassing session)
    (arrivals : List Arrival) : ∃ m, a.message? = some m ∧
      await session (a :: arrivals) = await.aside m (await session arrivals) := by
  unfold Arrival.isPassing at h
  cases a with
  | failure text => cases h
  | octets b =>
      rw [Arrival.ending?] at h
      rw [Arrival.message?, await]
      cases decoded : Message.decode b with
      | error e => simp [decoded] at h
      | ok m =>
          refine ⟨m, rfl, ?_⟩
          cases m with
          | error reason => simp [decoded] at h
          | joined s peer =>
              have other : ¬ s = session := fun same => by simp [decoded, same] at h
              exact if_neg other
          | _ => rfl

/-- What ends a wait decides its outcome. -/
theorem await_cons_of_ending {a : Arrival} {outcome : Except Fault String}
    (h : a.ending? session = some outcome) :
    await session (a :: arrivals) = (outcome, [], arrivals) := by
  cases a with
  | failure text => cases h; rfl
  | octets b =>
      rw [Arrival.ending?] at h
      rw [await]
      cases decoded : Message.decode b with
      | error e => rw [decoded] at h; cases h; rfl
      | ok m =>
          rw [decoded] at h
          cases m with
          | error reason => cases h; rfl
          | joined s peer =>
              dsimp only at h ⊢
              split at h
              · rename_i same
                cases h
                rw [if_pos same]
              · cases h
          | _ => cases h

/-- What passes before the arrival that ends a wait is put aside, and what comes after it is still
to come. -/
theorem await_append {waited : List Arrival} {last : Arrival} {outcome : Except Fault String}
    (passing : ∀ a ∈ waited, a.isPassing session) (ends : last.ending? session = some outcome)
    (rest : List Arrival) : await session (waited ++ last :: rest) =
      (outcome, waited.filterMap Arrival.message?, rest) := by
  induction waited with
  | nil => exact await_cons_of_ending ends
  | cons a later ih =>
      obtain ⟨passes, others⟩ := List.forall_mem_cons.1 passing
      obtain ⟨m, hm, aside⟩ := await_cons_of_isPassing passes (later ++ last :: rest)
      rw [List.cons_append, aside, ih others, List.filterMap_cons_some hm]
      rfl

/-- **A wait reads up to the first arrival that ends it**, which decides the outcome, and puts
aside what comes before.  If nothing ends it, the relay has closed. -/
theorem await_cases (session : String) (arrivals : List Arrival) :
    (∃ waited last rest outcome, arrivals = waited ++ last :: rest ∧
      (∀ a ∈ waited, a.isPassing session) ∧ last.ending? session = some outcome ∧
      await session arrivals = (outcome, waited.filterMap Arrival.message?, rest)) ∨
    (∀ a ∈ arrivals, a.isPassing session) ∧ await session arrivals =
      (.error .connectionClosed, arrivals.filterMap Arrival.message?, []) := by
  induction arrivals with
  | nil => exact .inr ⟨nofun, rfl⟩
  | cons a later ih =>
      cases h : a.ending? session with
      | some outcome =>
          exact .inl ⟨[], a, later, outcome, rfl, nofun, h, await_cons_of_ending h⟩
      | none =>
          have passes : a.isPassing session := by simp [Arrival.isPassing, h]
          obtain ⟨waited, last, rest, outcome, rfl, passing, ends, -⟩ | ⟨passing, all⟩ := ih
          · have front : ∀ b ∈ a :: waited, b.isPassing session :=
              List.forall_mem_cons.2 ⟨passes, passing⟩
            exact .inl ⟨a :: waited, last, rest, outcome, rfl, front, ends,
              await_append front ends rest⟩
          · obtain ⟨m, hm, aside⟩ := await_cons_of_isPassing passes later
            refine .inr ⟨List.forall_mem_cons.2 ⟨passes, passing⟩, ?_⟩
            rw [aside, all, List.filterMap_cons_some hm]
            rfl

/-- A client that can write joins by waiting. -/
theorem join_eq (works : c.failure = none) (session : String) :
    c.join session = ((await session c.inbound).1, { c with
      inbound := (await session c.inbound).2.2
      pending := c.pending ++ (await session c.inbound).2.1
      written := c.written ++ [(Message.joinRequest session).encode] }) := by
  unfold join send sendFrame
  rw [works]

/-! ### One call -/

/-- What a call takes in is what is in front of the rest. -/
theorem reads_eq {q : Call} {front : List Arrival}
    (h : c.inbound = front ++ (c.answer q).2.inbound) : c.reads q = front := by
  unfold reads
  rw [h, List.length_append, Nat.add_sub_cancel, List.take_left]

/-- **A join takes in what its wait reads**, up to the first arrival that ends it or else all that
is to come. -/
theorem reads_join (works : c.failure = none) (session : String) :
    (∃ waited last outcome, c.reads (.join session) = waited ++ [last] ∧
      (∀ a ∈ waited, a.isPassing session) ∧ last.ending? session = some outcome ∧
      (c.join session).1 = outcome ∧
      (c.join session).2.pending = c.pending ++ waited.filterMap Arrival.message? ∧
      c.inbound = waited ++ [last] ++ (c.join session).2.inbound) ∨
    c.reads (.join session) = c.inbound ∧ (∀ a ∈ c.inbound, a.isPassing session) ∧
      (c.join session).1 = .error .connectionClosed ∧
      (c.join session).2.pending = c.pending ++ c.inbound.filterMap Arrival.message? ∧
      (c.join session).2.inbound = [] := by
  have joined := join_eq works session
  obtain ⟨waited, last, rest, outcome, inbound, passing, ends, wait⟩ | ⟨passing, wait⟩ :=
    await_cases session c.inbound
  · rw [wait] at joined
    have whole : c.inbound = waited ++ [last] ++ (c.join session).2.inbound := by
      rw [joined, inbound, List.append_assoc]
      rfl
    refine .inl ⟨waited, last, outcome, reads_eq whole, passing, ends, ?_, ?_, whole⟩
    · rw [joined]
    · rw [joined]
  · rw [wait] at joined
    have nothing : (c.join session).2.inbound = [] := by rw [joined]
    refine .inr ⟨reads_eq ?_, passing, ?_, ?_, nothing⟩
    · show c.inbound = c.inbound ++ (c.join session).2.inbound
      rw [nothing, List.append_nil]
    · rw [joined]
    · rw [joined]

/-- **One call keeps the balance**: what it takes in comes off the front, and what is handed out
and put aside is what was put aside before and what is owed of what was taken in. -/
structure Balances (c : Client) (q : Call) : Prop where
  works : (c.answer q).2.failure = none
  inbound : c.inbound = c.reads q ++ (c.answer q).2.inbound
  messages : (c.answer q).1.message?.toList ++ (c.answer q).2.pending =
    c.pending ++ Call.keeps (q, c.reads q)

theorem Balances.of_answer {q : Call} {reply : Reply} {d : Client} (front : List Arrival)
    (answers : c.answer q = (reply, d)) (works : d.failure = none)
    (inbound : c.inbound = front ++ d.inbound)
    (messages : reply.message?.toList ++ d.pending = c.pending ++ Call.keeps (q, front)) :
    c.Balances q := by
  have taken : c.reads q = front := reads_eq (by rw [answers]; exact inbound)
  refine ⟨?_, ?_, ?_⟩ <;> rw [answers]
  · exact works
  · rw [taken]
    exact inbound
  · rw [taken]
    exact messages

theorem balances_join (works : c.failure = none) (session : String) :
    c.Balances (.join session) := by
  have writes : (c.join session).2.failure = none := by rw [join_eq works session]; exact works
  obtain ⟨waited, last, outcome, -, passing, ends, -, pending, inbound⟩ |
    ⟨-, passing, -, pending, inbound⟩ := reads_join works session
  · have stops : ¬ last.isPassing session := by simp [Arrival.isPassing, ends]
    refine .of_answer _ rfl writes inbound ?_
    show (c.join session).2.pending = _
    rw [pending, Call.keeps, List.takeWhile_append_of_pos passing,
      List.takeWhile_cons_of_neg stops, List.append_nil]
  · refine .of_answer c.inbound rfl writes ?_ ?_
    · show c.inbound = c.inbound ++ (c.join session).2.inbound
      rw [inbound, List.append_nil]
    · show (c.join session).2.pending = _
      rw [pending, Call.keeps, List.takeWhile_eq_self_iff.2 passing]

/-- What was put aside first is handed out first. -/
theorem receive_of_pending {m : Message} {later : List Message} (aside : c.pending = m :: later) :
    c.receive = (.ok (some m), { c with pending := later }) := by
  unfold receive
  rw [aside]

/-- With nothing put aside, the next arrival is read. -/
theorem receive_of_inbound {a : Arrival} (aside : c.pending = [])
    (coming : c.inbound = a :: arrivals) :
    c.receive = (a.reading, { c with inbound := arrivals }) := by
  unfold receive
  rw [aside]
  dsimp only
  rw [coming]
  cases a with
  | failure text => rfl
  | octets b =>
      rw [Arrival.reading]
      dsimp only
      cases Message.decode b <;> rfl

/-- With nothing put aside and nothing to come, the relay has closed. -/
theorem receive_of_ended (aside : c.pending = []) (ended : c.inbound = []) :
    c.receive = (.ok none, c) := by
  unfold receive
  rw [aside]
  dsimp only
  rw [ended]

/-- What is read and handed out is the message that arrived, if it was one. -/
theorem message?_received_reading (a : Arrival) :
    (Reply.received a.reading).message? = a.message? := by
  cases a with
  | failure text => rfl
  | octets b =>
      rw [Arrival.reading, Arrival.message?]
      cases Message.decode b <;> rfl

theorem answer_receive {outcome : Except Fault (Option Message)} {d : Client}
    (hands : c.receive = (outcome, d)) : c.answer .receive = (.received outcome, d) := by
  rw [answer, hands]

theorem balances_receive (works : c.failure = none) : c.Balances .receive := by
  cases aside : c.pending with
  | cons m later =>
      refine .of_answer [] (answer_receive (receive_of_pending aside)) works rfl ?_
      rw [aside]
      exact (List.append_nil _).symm
  | nil =>
      cases coming : c.inbound with
      | nil =>
          exact .of_answer [] (answer_receive (receive_of_ended aside coming)) works rfl
            (List.append_nil c.pending).symm
      | cons a later =>
          refine .of_answer [a] (answer_receive (receive_of_inbound aside coming)) works coming ?_
          rw [message?_received_reading, Call.keeps]
          show _ ++ c.pending = _
          rw [aside, List.append_nil, List.filterMap_cons, List.filterMap_nil]
          cases a.message? <;> rfl

/-- **One call keeps the balance**, whatever it is. -/
theorem balances (works : c.failure = none) (q : Call) : c.Balances q := by
  cases q with
  | join session => exact balances_join works session
  | receive => exact balances_receive works

/-! ### Calls in turn -/

/-- What calls take in, one after the other, comes off the front. -/
theorem inbound_eq_ledger (works : c.failure = none) (calls : List Call) :
    c.inbound = (c.ledger calls).flatMap Prod.snd ++ (c.answerAll calls).2.inbound := by
  induction calls generalizing c with
  | nil => rfl
  | cons q rest ih =>
      have one := balances works q
      calc c.inbound = c.reads q ++ (c.answer q).2.inbound := one.inbound
        _ = c.reads q ++ (((c.answer q).2.ledger rest).flatMap Prod.snd ++
              ((c.answer q).2.answerAll rest).2.inbound) := by rw [← ih one.works]
        _ = _ := (List.append_assoc _ _ _).symm

/-- What calls hand out and leave aside is what was put aside before and what they owe. -/
theorem handed_out_eq_ledger (works : c.failure = none) (calls : List Call) :
    (c.answerAll calls).1.filterMap Reply.message? ++ (c.answerAll calls).2.pending =
      c.pending ++ (c.ledger calls).flatMap Call.keeps := by
  induction calls generalizing c with
  | nil => exact (List.append_nil _).symm
  | cons q rest ih =>
      have one := balances works q
      have head : ((c.answer q).1 :: ((c.answer q).2.answerAll rest).1).filterMap Reply.message? =
          (c.answer q).1.message?.toList ++
            ((c.answer q).2.answerAll rest).1.filterMap Reply.message? := by
        rw [List.filterMap_cons]
        cases (c.answer q).1.message? <;> rfl
      calc ((c.answer q).1 :: ((c.answer q).2.answerAll rest).1).filterMap Reply.message? ++
              ((c.answer q).2.answerAll rest).2.pending
        _ = (c.answer q).1.message?.toList ++
              (((c.answer q).2.answerAll rest).1.filterMap Reply.message? ++
                ((c.answer q).2.answerAll rest).2.pending) := by rw [head, List.append_assoc]
        _ = (c.answer q).1.message?.toList ++ (c.answer q).2.pending ++
              ((c.answer q).2.ledger rest).flatMap Call.keeps := by
            rw [ih one.works, List.append_assoc]
        _ = c.pending ++ (Call.keeps (q, c.reads q) ++
              ((c.answer q).2.ledger rest).flatMap Call.keeps) := by
            rw [one.messages, List.append_assoc]

/-- **What the next call answers**, after any calls for messages and joins: the oldest message
that is owed and was not handed out; if there is none, what is found on reading the next arrival;
and none at all once everything has been read. -/
theorem received_in_turn (script : List Arrival) (calls : List Call) :
    let c := ((opened script).answerAll calls).2
    let owed := ((opened script).ledger calls).flatMap Call.keeps
    let handed := ((opened script).answerAll calls).1.filterMap Reply.message?
    let read := ((opened script).ledger calls).flatMap Prod.snd
    (∀ m later, owed = handed ++ m :: later → c.receive.1 = .ok (some m)) ∧
    (owed = handed → ∀ a later, script = read ++ a :: later → c.receive.1 = a.reading) ∧
    (owed = handed → script = read → c.receive.1 = .ok none) := by
  intro c owed handed read
  have works : (opened script).failure = none := rfl
  have left : handed ++ c.pending = owed := handed_out_eq_ledger works calls
  have unread : read ++ c.inbound = script := (inbound_eq_ledger works calls).symm
  have nothing (all : owed = handed) : c.pending = [] :=
    List.append_right_eq_self.1 (left.trans all)
  refine ⟨fun m later front => ?_, fun all a later next => ?_, fun all ended => ?_⟩
  · rw [receive_of_pending (List.append_cancel_left (left.trans front))]
  · rw [receive_of_inbound (nothing all) (List.append_cancel_left (unread.trans next))]
  · rw [receive_of_ended (nothing all) (List.append_right_eq_self.1 (unread.trans ended))]

/-- News that arrives before an acknowledgement is handed out after it, and before what arrives
later. -/
example : ((opened [.octets (Message.peerLeft "hall" "7").encode,
      .octets (Message.joined "lobby" "9").encode,
      .octets (Message.peerJoined "lobby" "4").encode]).answerAll
        [.join "lobby", .receive, .receive, .receive]).1.map Reply.message? =
    [none, some (.peerLeft "hall" "7"), some (.peerJoined "lobby" "4"), none] := by
  decide +kernel

end Client

end Rendezvous
