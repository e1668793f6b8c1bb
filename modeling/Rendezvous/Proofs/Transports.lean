import Rendezvous.Proofs.Deframing
import Rendezvous.WebSocket.Endpoint

/-!
# The same frames by either transport

A program that reads frames need not know how they travel.  On a WebSocket every frame is a message,
binary or text, and what else is met with is passed by.  On a plain stream every frame stands behind
its length, and the octets arrive in whatever chunks.  Both readers find the same: the frames in
order, up to the first that is longer than they take, which both refuse in the same words, and the
end if there is none.

It does not matter which layer of a WebSocket refuses a frame that is too long, as long as the
lower one takes no less than the reader; where it takes more, the frame gets as far as the reader.
Whatever gets past the lower layer is a sign of life, whether or not it is a frame and whether or
not the reader takes it.

## Main Definitions

* `Framing.found` — what a reader finds of frames that are sent one after the other
* `WebSocket.Incoming.payload?` — the frame that a message carries
* `WebSocket.Endpoint.readAll` — read frames until there is none
* `WebSocket.Endpoint.Listens` — an end at which messages can be read

## Main Statements

* `WebSocket.Endpoint.alive_consume` — what is a sign of life
* `WebSocket.Endpoint.Listens.readAll_eq` — what is found on a WebSocket
* `Framing.parses_found` — what is found on a stream
* `WebSocket.transports_agree` — both, side by side
-/

namespace Rendezvous

/-- **What is found of frames** that are sent one after the other before the sender closes, where no
frame may be longer than `max`. -/
def Framing.found (max : Nat) (frames : List Octets) : List Octets × Reading :=
  (frames.takeWhile fun b => b.length ≤ max,
    match frames.find? fun b => max < b.length with
    | some b => .failed (.frameTooLarge b.length max)
    | none => .closed)

section Found

variable {max : Nat} {b : Octets} {frames : List Octets}

theorem Framing.found_cons_fits (fits : b.length ≤ max) :
    found max (b :: frames) = (b :: (found max frames).1, (found max frames).2) := by
  simp [found, fits]

theorem Framing.found_cons_exceeds (exceeds : max < b.length) :
    found max (b :: frames) = ([], .failed (.frameTooLarge b.length max)) := by
  simp [found, exceeds]

/-! ### On a stream -/

/-- **Frames on a stream** are found as they were put there. -/
theorem Framing.parses_found (words : ∀ b ∈ frames, b.length < 4294967296) :
    Parses max (frames.flatMap frame) (found max frames).1 (found max frames).2 := by
  induction frames with
  | nil => exact .closed
  | cons b rest ih =>
      obtain ⟨word, later⟩ := List.forall_mem_cons.1 words
      rw [List.flatMap_cons]
      by_cases fits : b.length ≤ max
      · rw [found_cons_fits fits]
        exact .frame word fits (ih later)
      · have exceeds := Nat.lt_of_not_le fits
        rw [found_cons_exceeds exceeds, frame, List.append_assoc]
        exact .tooLarge word exceeds

end Found

namespace WebSocket

/-- The frame that a message carries, if it carries one. -/
def Incoming.payload? : Incoming → Option Octets
  | parcel (.binary b) => some b
  | parcel (.text s) => some (Octets.ofText s)
  | parcel (.ping _) | parcel (.pong _) | parcel (.close _) | raw _ => none

namespace Endpoint

variable {e d : Endpoint} {i : Incoming} {is rest : List Incoming} {b : Octets} {found : Reading}

/-! ### One message -/

/-- What consuming a message leaves as it is. -/
structure Keeps (e d : Endpoint) : Prop where
  arrived : d.arrived = e.arrived
  max : d.max = e.max
  layerMax : d.layerMax = e.layerMax
  watched : d.watched = e.watched
  vanished : d.vanished = e.vanished

theorem Keeps.refl (e : Endpoint) : e.Keeps e := ⟨rfl, rfl, rfl, rfl, rfl⟩

theorem keeps_mark (e : Endpoint) : e.Keeps e.mark := by
  unfold mark
  split
  · exact ⟨rfl, rfl, rfl, rfl, rfl⟩
  · exact .refl e

theorem keeps_answerPing (e : Endpoint) (b : Octets) : e.Keeps (e.answerPing b).2 := by
  unfold answerPing put
  split
  · split <;> exact ⟨rfl, rfl, rfl, rfl, rfl⟩
  · exact .refl e

theorem Keeps.trans {c : Endpoint} (first : e.Keeps d) (second : d.Keeps c) : e.Keeps c where
  arrived := second.arrived.trans first.arrived
  max := second.max.trans first.max
  layerMax := second.layerMax.trans first.layerMax
  watched := second.watched.trans first.watched
  vanished := second.vanished.trans first.vanished

theorem keeps_consume (e : Endpoint) (i : Incoming) : e.Keeps (e.consume i).2 := by
  unfold consume
  cases e.refusal? i with
  | some error => exact ⟨rfl, rfl, rfl, rfl, rfl⟩
  | none =>
      have marked := keeps_mark e
      dsimp only
      split
      · exact marked
      · exact marked
      · rename_i b
        have answered := marked.trans (keeps_answerPing e.mark b)
        generalize e.mark.answerPing b = answer at answered
        obtain ⟨outcome, d⟩ := answer
        cases outcome with
        | ok _ => exact answered
        | error f =>
            exact ⟨answered.arrived, answered.max, answered.layerMax, answered.watched,
              answered.vanished⟩
      · exact marked
      · exact marked
      · exact ⟨marked.arrived, marked.max, marked.layerMax, marked.watched, marked.vanished⟩

/-! ### Signs of life -/

theorem alive_mark (e : Endpoint) : e.mark.alive = (e.alive || e.watched) := by
  unfold mark
  cases watched : e.watched <;> simp

theorem alive_answerPing (e : Endpoint) (b : Octets) : (e.answerPing b).2.alive = e.alive := by
  unfold answerPing put
  split
  · split <;> rfl
  · rfl

/-- **Whatever gets past the lower layer is a sign of life**, where somebody watches for one, and
nothing else is. -/
theorem alive_consume (e : Endpoint) (i : Incoming) :
    (e.consume i).2.alive = (e.alive || (e.watched && (e.refusal? i).isNone)) := by
  unfold consume
  cases e.refusal? i with
  | some error => simp
  | none =>
      have marked := alive_mark e
      simp only [Option.isNone_none, Bool.and_true]
      split
      · exact marked
      · exact marked
      · rename_i b
        have answered := (alive_answerPing e.mark b).trans marked
        generalize e.mark.answerPing b = answer at answered
        obtain ⟨outcome, d⟩ := answer
        cases outcome <;> exact answered
      · exact marked
      · exact marked
      · exact marked

/-- Looking for a frame unmakes no sign of life. -/
theorem alive_readFrom (alive : e.alive = true) (is : List Incoming) :
    (readFrom is e).2.alive = true := by
  induction is generalizing e with
  | nil =>
      unfold readFrom
      dsimp only
      split
      · exact alive
      · split <;> exact alive
  | cons i rest ih =>
      have still : ({ e with arrived := rest }.consume i).2.alive = true := by
        rw [alive_consume]
        exact Bool.or_eq_true_iff.2 (.inl alive)
      unfold readFrom
      generalize { e with arrived := rest }.consume i = consumed at still
      obtain ⟨_ | found, d⟩ := consumed
      · exact ih still
      · exact still

/-! ### Ends that listen -/

/-- **Messages can be read at an end**: nothing has ended it, and the other end is there. -/
structure Listens (e : Endpoint) : Prop where
  goesOn : e.ended = false
  stage : e.stage = .established ∨ e.stage = .closedHere
  present : e.vanished = false

theorem Listens.read_eq (h : e.Listens) : e.read = readFrom e.arrived e := by
  unfold read
  rw [h.goesOn]
  rcases h.stage with stage | stage <;> rw [stage] <;> rfl

theorem Listens.mark (h : e.Listens) : e.mark.Listens := by
  unfold Endpoint.mark
  split
  · exact ⟨h.goesOn, h.stage, h.present⟩
  · exact h

theorem Listens.answerPing (h : e.Listens) (b : Octets) :
    ∃ d, e.answerPing b = (.ok (), d) ∧ d.Listens := by
  unfold Endpoint.answerPing put
  rw [h.present]
  split
  · exact ⟨_, rfl, h.goesOn, h.stage, rfl⟩
  · exact ⟨e, rfl, h⟩

/-- What the lower layer refuses of what carries a frame is too long for it. -/
theorem refusal?_of_payload? (carries : i.payload? = some b) :
    e.refusal? i = if e.layerMax < b.length then some (.messageTooLong b.length e.layerMax)
      else none := by
  match i, carries with
  | .parcel (.binary c), carries =>
    cases carries
    rfl
  | .parcel (.text s), carries =>
    cases carries
    rfl

/-- A frame is found, if the lower layer lets it through. -/
theorem consume_payload (through : e.refusal? i = none) (carries : i.payload? = some b) :
    e.consume i = (some (e.deliver b), e.mark) := by
  have same : e.mark.deliver b = e.deliver b := by rw [deliver, (keeps_mark e).max, deliver]
  unfold consume
  rw [through]
  match i, carries with
  | .parcel (.binary c), carries =>
    cases carries
    rw [← same]
  | .parcel (.text s), carries =>
    cases carries
    rw [← same]

theorem consume_closing (through : e.refusal? i = none) (closes : i.isClosing) :
    (e.consume i).1 = some .closed := by
  unfold consume
  rw [through]
  match i, closes with
  | .parcel (.close _), _ => rfl

/-- Anything else is passed by. -/
theorem Listens.consume_other (h : e.Listens) (through : e.refusal? i = none)
    (bare : i.payload? = none) (goesOn : i.isClosing = false) :
    ∃ d, e.consume i = (none, d) ∧ d.Listens := by
  unfold consume
  rw [through]
  match i, bare, goesOn with
  | .parcel (.ping b), _, _ =>
    obtain ⟨d, answered, listens⟩ := h.mark.answerPing b
    exact ⟨d, by simp only [answered], listens⟩
  | .parcel (.pong _), _, _ | .raw _, _, _ => exact ⟨_, rfl, h.mark⟩

/-! ### All messages -/

/-- A frame that is found is taken off what has arrived. -/
theorem length_arrived_readFrom (h : readFrom is e = (.frame b, d)) :
    d.arrived.length < is.length := by
  induction is generalizing e with
  | nil =>
      unfold readFrom at h
      dsimp only at h
      split at h
      · cases h
      · split at h <;> cases h
  | cons i rest ih =>
      have left := (keeps_consume { e with arrived := rest } i).arrived
      unfold readFrom at h
      generalize { e with arrived := rest }.consume i = consumed at h left
      obtain ⟨_ | found, c⟩ := consumed
      · exact Nat.lt_succ_of_lt (ih h)
      · cases h
        rw [left]
        exact Nat.lt_succ_self _

theorem length_arrived_lt (h : e.read = (.frame b, d)) : d.arrived.length < e.arrived.length := by
  unfold read at h
  split at h
  · cases h
  · split at h
    · exact length_arrived_readFrom h
    · exact length_arrived_readFrom h
    · split at h <;> cases h
    · cases h
    · cases h

/-- **Read frames until there is none**: the frames, and what is found instead of a further one. -/
def readAll (e : Endpoint) : List Octets × Reading :=
  match h : e.read with
  | (.frame b, d) =>
    have := length_arrived_lt h
    (b :: d.readAll.1, d.readAll.2)
  | (last, _) => ([], last)
termination_by e.arrived.length

theorem readAll_of_frame (h : e.read = (.frame b, d)) :
    e.readAll = (b :: d.readAll.1, d.readAll.2) := by
  rw [readAll]
  split
  · rename_i found
    rw [h] at found
    cases found
    rfl
  · rename_i other found
    rw [h] at found
    cases found
    exact (other b rfl).elim

theorem readAll_of_last (h : e.read.1 = found) (last : ∀ b, found ≠ .frame b) :
    e.readAll = ([], found) := by
  rw [readAll]
  split
  · rename_i same
    rw [same] at h
    exact absurd h.symm (last _)
  · rename_i same
    rw [same] at h
    cases h
    rfl

theorem readAll_congr (same : e.read = d.read) : e.readAll = d.readAll := by
  cases reads : d.read with
  | mk found c =>
      by_cases frame : ∃ b, found = .frame b
      · obtain ⟨b, rfl⟩ := frame
        rw [readAll_of_frame (same.trans reads), readAll_of_frame reads]
      · have last : ∀ b, found ≠ .frame b := fun b same => frame ⟨b, same⟩
        rw [readAll_of_last (by rw [same, reads]) last, readAll_of_last (by rw [reads]) last]

/-- **A message gets as far as the reader**, or else it is a frame and both layers take no more than
the same length. -/
def Reaches (e : Endpoint) (i : Incoming) : Prop :=
  e.refusal? i = none ∨ i.payload?.isSome ∧ e.layerMax = e.max

instance (e : Endpoint) (i : Incoming) : Decidable (e.Reaches i) :=
  inferInstanceAs (Decidable (_ ∨ _))

/-- **Reading goes on** at the same end with what else has arrived. -/
structure GoesOn (e : Endpoint) (rest : List Incoming) (d : Endpoint) : Prop where
  listens : d.Listens
  arrived : d.arrived = rest
  max : d.max = e.max
  layerMax : d.layerMax = e.layerMax

theorem GoesOn.reaches (h : e.GoesOn rest d) (reaches : e.Reaches i) : d.Reaches i := by
  unfold Reaches refusal? at reaches ⊢
  rwa [h.max, h.layerMax]

/-- The first message decides what is found, unless it is passed by. -/
theorem Listens.read_cons (h : e.Listens) (arrived : e.arrived = i :: rest) :
    e.read = match { e with arrived := rest }.consume i with
      | (some found, d) => (found, d)
      | (none, d) => readFrom rest d := by
  rw [h.read_eq, arrived]
  rfl

/-- A frame that is not too long is found. -/
theorem Listens.read_frame (h : e.Listens) (arrived : e.arrived = i :: rest)
    (carries : i.payload? = some b) (reaches : e.Reaches i) (fits : b.length ≤ e.max) :
    ∃ d, e.read = (.frame b, d) ∧ e.GoesOn rest d := by
  have through : { e with arrived := rest }.refusal? i = none := by
    rcases reaches with through | ⟨-, same⟩
    · exact through
    · rw [refusal?_of_payload? carries]
      exact if_neg (Nat.not_lt.2 (same ▸ fits))
  have listens : ({ e with arrived := rest } : Endpoint).Listens :=
    ⟨h.goesOn, h.stage, h.present⟩
  have kept := keeps_mark { e with arrived := rest }
  refine ⟨_, ?_, listens.mark, kept.arrived, kept.max, kept.layerMax⟩
  rw [h.read_cons arrived, consume_payload through carries]
  simp only [deliver, if_neg (Nat.not_lt.2 fits)]

/-- A frame that is too long is refused, by whichever layer. -/
theorem Listens.read_tooLarge (h : e.Listens) (arrived : e.arrived = i :: rest)
    (carries : i.payload? = some b) (reaches : e.Reaches i) (exceeds : e.max < b.length) :
    e.read.1 = .failed (.frameTooLarge b.length e.max) := by
  rw [h.read_cons arrived]
  cases refused : { e with arrived := rest }.refusal? i with
  | none =>
      rw [consume_payload refused carries]
      simp only [deliver, if_pos exceeds]
  | some error =>
      obtain ⟨-, same⟩ := reaches.resolve_left fun through => by
        rw [show e.refusal? i = some error from refused] at through
        cases through
      rw [refusal?_of_payload? carries, same, if_pos exceeds] at refused
      cases refused
      unfold consume
      rw [refusal?_of_payload? carries, same, if_pos exceeds]
      rfl

theorem Listens.read_closing (h : e.Listens) (arrived : e.arrived = i :: rest)
    (closes : i.isClosing) (reaches : e.Reaches i) : e.read.1 = .closed := by
  have bare : i.payload? = none := by
    match i, closes with
    | .parcel (.close _), _ => rfl
  have through : { e with arrived := rest }.refusal? i = none :=
    reaches.resolve_right fun ⟨carries, _⟩ => by rw [bare] at carries; cases carries
  have found := consume_closing through closes
  rw [h.read_cons arrived]
  generalize { e with arrived := rest }.consume i = consumed at found
  obtain ⟨_, d⟩ := consumed
  cases found
  rfl

/-- Anything else is passed by. -/
theorem Listens.read_other (h : e.Listens) (arrived : e.arrived = i :: rest)
    (bare : i.payload? = none) (goesOn : i.isClosing = false) (reaches : e.Reaches i) :
    ∃ d, e.read = d.read ∧ e.GoesOn rest d := by
  have through : { e with arrived := rest }.refusal? i = none :=
    reaches.resolve_right fun ⟨carries, _⟩ => by rw [bare] at carries; cases carries
  have kept := keeps_consume { e with arrived := rest } i
  have listening : ({ e with arrived := rest } : Endpoint).Listens :=
    ⟨h.goesOn, h.stage, h.present⟩
  obtain ⟨d, passed, listens⟩ := listening.consume_other through bare goesOn
  rw [passed] at kept
  refine ⟨d, ?_, listens, kept.arrived, kept.max, kept.layerMax⟩
  rw [h.read_cons arrived, passed, listens.read_eq, kept.arrived]

/-- **What is found on a WebSocket** whose other end closes: the frames in order, up to the first
that is too long. -/
theorem Listens.readAll_eq {body : Octets} (h : e.Listens)
    (arrived : e.arrived = is ++ [.parcel (.close body)])
    (closesLast : ∀ i ∈ is, i.isClosing = false) (reaches : ∀ i ∈ e.arrived, e.Reaches i) :
    e.readAll = Framing.found e.max (is.filterMap Incoming.payload?) := by
  induction is generalizing e with
  | nil =>
      have closed := h.read_closing arrived rfl (reaches _ (by rw [arrived]; exact .head _))
      exact readAll_of_last closed nofun
  | cons i rest ih =>
      have first : e.Reaches i := reaches i (by rw [arrived]; exact .head _)
      obtain ⟨open', later⟩ := List.forall_mem_cons.1 closesLast
      have goesOn {d : Endpoint} (on : e.GoesOn (rest ++ [.parcel (.close body)]) d) :
          d.readAll = Framing.found e.max (rest.filterMap Incoming.payload?) := by
        rw [← on.max]
        refine ih on.listens on.arrived later fun j mem => on.reaches (reaches j ?_)
        rw [on.arrived] at mem
        rw [arrived]
        exact List.mem_cons_of_mem i mem
      cases carries : i.payload? with
      | none =>
          obtain ⟨d, same, on⟩ := h.read_other arrived carries open' first
          rw [readAll_congr same, goesOn on, List.filterMap_cons_none carries]
      | some b =>
          rw [List.filterMap_cons_some carries]
          by_cases fits : b.length ≤ e.max
          · obtain ⟨d, found, on⟩ := h.read_frame arrived carries first fits
            rw [readAll_of_frame found, goesOn on, Framing.found_cons_fits fits]
          · have exceeds := Nat.lt_of_not_le fits
            rw [readAll_of_last (h.read_tooLarge arrived carries first exceeds) nofun,
              Framing.found_cons_exceeds exceeds]

/-- **A look that consumes anything is a sign of life**, whatever it finds. -/
theorem Listens.alive_read (h : e.Listens) (watched : e.watched = true)
    (arrived : e.arrived = i :: rest) (through : e.refusal? i = none) :
    e.read.2.alive = true := by
  have alive : ({ e with arrived := rest }.consume i).2.alive = true := by
    rw [alive_consume, show ({ e with arrived := rest } : Endpoint).refusal? i = none from through]
    simp [watched]
  rw [h.read_cons arrived]
  generalize { e with arrived := rest }.consume i = consumed at alive
  obtain ⟨_ | found, d⟩ := consumed
  · exact alive_readFrom alive rest
  · exact alive

end Endpoint

/-- **Both transports present the same frames.**  Let frames be sent over a WebSocket, each as a
binary message or as a text, with whatever pings, pongs and bare frames in between, and then the
closing; and let the same frames be sent over a stream, which arrives in whatever chunks and then
ends.  Then both readers find the same: the frames in order up to the first that is too long, which
both refuse with its length and theirs, or the end if there is none.  And on the WebSocket every
message that is consumed is a sign of life for whoever watches, be it a frame, one that is refused,
or something that is passed by; and so is every look for a frame that consumes anything. -/
theorem transports_agree {max : Nat} {e : Endpoint} {sent : List Incoming} {body : Octets}
    {frames chunks : List Octets} (listens : e.Listens) (limit : e.max = max)
    (arrived : e.arrived = sent ++ [.parcel (.close body)])
    (closesLast : ∀ i ∈ sent, i.isClosing = false) (reaches : ∀ i ∈ e.arrived, e.Reaches i)
    (carried : sent.filterMap Incoming.payload? = frames)
    (words : ∀ b ∈ frames, b.length < 4294967296)
    (whole : chunks.flatten = frames.flatMap Framing.frame) :
    e.readAll = Framing.found max frames ∧
    FrameReader.readAll { max } { arrivals := chunks.map .octets, ended := true } =
      Framing.found max frames ∧
    (∀ (d : Endpoint) (i : Incoming),
      (d.consume i).2.alive = (d.alive || (d.watched && (d.refusal? i).isNone))) ∧
    ∀ (d : Endpoint) (i : Incoming) (rest : List Incoming), d.Listens → d.watched = true →
      d.arrived = i :: rest → d.refusal? i = none → d.read.2.alive = true := by
  refine ⟨?_, ?_, Endpoint.alive_consume, fun d i rest listens watched arrived through =>
    listens.alive_read watched arrived through⟩
  · rw [listens.readAll_eq arrived closesLast reaches, carried, limit]
  · exact FrameReader.readAll_of_parses (Framing.parses_found words) { max } chunks rfl whole

/-- Between a ping, a bare frame and a pong there are a binary message, a text, and one message that
is longer than the reader takes; another one is behind it. -/
def banter : List Incoming :=
  [.parcel (.ping [7]), .parcel (.binary [1, 2]), .raw [9], .parcel (.text "hi"),
    .parcel (.pong []), .parcel (.binary [1, 2, 3, 4, 5]), .parcel (.binary [3])]

/-- Both readers find two frames of the banter and refuse the third, in whatever chunks. -/
theorem transports_agree_banter :
    let e : Endpoint := { max := 4, arrived := banter ++ [.parcel (.close [])] }
    let chunks : List Octets :=
      [[0, 0], [0, 2, 1, 2, 0, 0, 0, 2, 104], [105, 0, 0, 0, 5, 1, 2, 3, 4], [5, 0, 0, 0, 1, 3]]
    e.readAll = ([[1, 2], [104, 105]], .failed (.frameTooLarge 5 4)) ∧
    FrameReader.readAll { max := 4 } { arrivals := chunks.map .octets, ended := true } =
      ([[1, 2], [104, 105]], .failed (.frameTooLarge 5 4)) := by
  intro e chunks
  have found : Framing.found 4 [[1, 2], [104, 105], [1, 2, 3, 4, 5], [3]] =
      ([[1, 2], [104, 105]], .failed (.frameTooLarge 5 4)) := by decide
  obtain ⟨socket, stream, -⟩ :=
    @transports_agree 4 e banter [] [[1, 2], [104, 105], [1, 2, 3, 4, 5], [3]] chunks
      ⟨rfl, .inl rfl, rfl⟩ rfl rfl (by decide) (by decide +kernel) (by decide +kernel) (by decide)
      (by decide)
  exact ⟨socket.trans found, stream.trans found⟩

end WebSocket

end Rendezvous
