import Rendezvous.Framing

/-!
# Frames, however their octets arrive

The octets of a stream arrive in chunks that have nothing to do with its frames: one chunk may
end within a length, another within a frame, and a third may hold several frames.  What a
reader finds is nevertheless decided by the stream as a whole.

The frames of a whole stream are found greedily: as long as what remains begins with a length
that is allowed and with so many octets after it, these octets are the next frame.  What
remains then says how the stream ends.  A reader that has all of a stream in its buffer finds
just that.  A reader that gets the stream in chunks finds the same, since the buffer answers
as soon as it can, and more octets behind do not change its answer.

## Main Definitions

* `Framing.Parses` — the frames of a whole stream, and how it ends
* `FrameReader.readAll` — read frames until there is none

## Main Statements

* `FrameReader.attempt_supply` — more octets do not change what the buffer says
* `FrameReader.readFrom_chunks` — chunks do not matter to one read
* `FrameReader.readAll_eq_iff_parses` — nor do they matter to all of them
-/

namespace Rendezvous

/-! ### Whole streams -/

/-- **The frames of a stream** that comes to its end, and what is found after the last of them,
where no frame may be longer than `max`. -/
inductive Framing.Parses (max : Nat) : Octets → List Octets → Reading → Prop
  /-- Nothing remains. -/
  | closed : Parses max [] [] .closed
  /-- What remains begins with a complete frame. -/
  | frame {b rest : Octets} {frames : List Octets} {last : Reading}
      (word : b.length < 4294967296) (fits : b.length ≤ max)
      (later : Parses max rest frames last) :
      Parses max (Octets.ofWord b.length ++ b ++ rest) (b :: frames) last
  /-- What remains announces a frame that is too long, whether or not it is there. -/
  | tooLarge {length : Nat} {rest : Octets} (word : length < 4294967296)
      (exceeds : max < length) :
      Parses max (Octets.ofWord length ++ rest) [] (.failed (.frameTooLarge length max))
  /-- What remains is part of a length. -/
  | partOfLength {rest : Octets} (remains : rest ≠ []) (short : rest.length < 4) :
      Parses max rest [] (.failed .connectionClosed)
  /-- What remains is a length and part of the frame that it announces. -/
  | partOfFrame {length : Nat} {rest : Octets} (word : length < 4294967296)
      (fits : length ≤ max) (short : rest.length < length) :
      Parses max (Octets.ofWord length ++ rest) [] (.failed .connectionClosed)

/-- Every stream has its frames and its end. -/
theorem Framing.exists_parses (max : Nat) (stream : Octets) :
    ∃ frames last, Parses max stream frames last := by
  induction hl : stream.length using Nat.strongRecOn generalizing stream with
  | ind size ih =>
      cases hw : Octets.word? stream with
      | none =>
          have short := Octets.word?_eq_none_iff.1 hw
          by_cases remains : stream = []
          · subst remains
            exact ⟨[], _, .closed⟩
          · exact ⟨[], _, .partOfLength remains short⟩
      | some found =>
          obtain ⟨length, rest⟩ := found
          obtain ⟨word, rfl⟩ := Octets.word?_eq_some hw
          by_cases exceeds : max < length
          · exact ⟨[], _, .tooLarge word exceeds⟩
          have fits : length ≤ max := Nat.le_of_not_lt exceeds
          by_cases short : rest.length < length
          · exact ⟨[], _, .partOfFrame word fits short⟩
          have all : (rest.take length).length = length := by
            rw [List.length_take]
            omega
          have fewer : (rest.drop length).length < size := by
            rw [← hl, List.length_append, Octets.length_ofWord, List.length_drop]
            omega
          obtain ⟨frames, last, later⟩ := ih _ fewer (rest.drop length) rfl
          have parsed := Parses.frame (b := rest.take length) (by omega) (by omega) later
          rw [all, List.append_assoc, List.take_append_drop] at parsed
          exact ⟨_, last, parsed⟩

/-- The octets that an arrival brings. -/
def Arrival.delivered : Arrival → Octets
  | octets b => b
  | failure _ => []

namespace FrameReader

variable {r s : FrameReader} {b rest : Octets} {found : Reading} {length : Nat}

/-- A reader to whose buffer more octets have come. -/
def supply (r : FrameReader) (more : Octets) : FrameReader :=
  { r with buffered := r.buffered ++ more }

@[simp] theorem supply_nil (r : FrameReader) : r.supply [] = r := by simp [supply]

theorem supply_append (r : FrameReader) (b c : Octets) :
    r.supply (b ++ c) = (r.supply b).supply c := by
  simp [supply]

/-! ### What the buffer says -/

theorem attempt_frame (hr : r.buffered = Octets.ofWord b.length ++ b ++ rest)
    (word : b.length < 4294967296) (fits : b.length ≤ r.max) :
    r.attempt = some (.frame b, { r with buffered := rest }) := by
  unfold attempt
  rw [split_frame hr word fits]

theorem attempt_tooLarge (hr : r.buffered = Octets.ofWord length ++ rest)
    (word : length < 4294967296) (exceeds : r.max < length) :
    r.attempt = some (.failed (.frameTooLarge length r.max), r) := by
  unfold attempt split
  rw [hr, Octets.word?_ofWord word]
  dsimp only
  rw [if_pos exceeds]

theorem attempt_partOfLength (short : r.buffered.length < 4) : r.attempt = none := by
  unfold attempt split
  rw [Octets.word?_eq_none_iff.2 short]

theorem attempt_partOfFrame (hr : r.buffered = Octets.ofWord length ++ rest)
    (word : length < 4294967296) (fits : length ≤ r.max) (short : rest.length < length) :
    r.attempt = none := by
  unfold attempt split
  rw [hr, Octets.word?_ofWord word]
  dsimp only
  rw [if_neg (Nat.not_lt.2 fits), Octets.cut?_eq_none_iff.2 short]

/-- **The buffer says something** about its first frame only, which is complete or too long. -/
theorem attempt_cases (h : r.attempt = some (found, s)) :
    (∃ b, found = .frame b ∧ b.length < 4294967296 ∧ b.length ≤ r.max ∧
      r.buffered = Octets.ofWord b.length ++ b ++ s.buffered ∧
      s = { r with buffered := s.buffered }) ∨
    ∃ length rest, found = .failed (.frameTooLarge length r.max) ∧ length < 4294967296 ∧
      r.max < length ∧ r.buffered = Octets.ofWord length ++ rest ∧ s = r := by
  unfold attempt split at h
  cases announced : Octets.word? r.buffered with
  | none =>
      rw [announced] at h
      cases h
  | some start =>
      obtain ⟨length, rest⟩ := start
      obtain ⟨word, whole⟩ := Octets.word?_eq_some announced
      rw [announced] at h
      dsimp only at h
      by_cases exceeds : r.max < length
      · rw [if_pos exceeds] at h
        cases h
        exact .inr ⟨length, rest, rfl, word, exceeds, whole, rfl⟩
      · rw [if_neg exceeds] at h
        cases cut : Octets.cut? length rest with
        | none =>
            rw [cut] at h
            cases h
        | some parts =>
            obtain ⟨b, left⟩ := parts
            obtain ⟨rfl, rfl⟩ := Octets.cut?_eq_some cut
            rw [cut] at h
            cases h
            refine .inl ⟨b, rfl, word, Nat.le_of_not_lt exceeds, ?_, rfl⟩
            rw [whole, List.append_assoc]

/-- **More octets do not change what the buffer says.** -/
theorem attempt_supply (h : r.attempt = some (found, s)) (more : Octets) :
    (r.supply more).attempt = some (found, s.supply more) := by
  rcases attempt_cases h with ⟨b, rfl, word, fits, whole, rest⟩ |
    ⟨length, rest, rfl, word, exceeds, whole, rfl⟩
  · have longer : (r.supply more).buffered =
        Octets.ofWord b.length ++ b ++ (s.buffered ++ more) := by
      rw [supply, whole, List.append_assoc]
    rw [attempt_frame longer word fits, rest]
    rfl
  · have longer : (s.supply more).buffered = Octets.ofWord length ++ (rest ++ more) := by
      rw [supply, whole, List.append_assoc]
    exact attempt_tooLarge longer word exceeds

/-! ### One read -/

theorem readFrom_of_attempt (ended : Bool) (arrivals : List Arrival)
    (h : r.attempt = some (found, s)) : readFrom ended arrivals r = (found, s, arrivals) := by
  cases arrivals <;> simp only [readFrom, h]

/-- Where the buffer says nothing and nothing arrives, the stream is at its end. -/
theorem readFrom_of_silence (ended : Bool) (h : r.attempt = none) :
    readFrom ended [] r = (r.atEnd ended, r, []) := by
  simp only [readFrom, h]

/-- What a reader with nothing in front of it leaves: nothing. -/
theorem readFrom_nil_left (ended : Bool) (r : FrameReader) : (readFrom ended [] r).2.2 = [] := by
  unfold readFrom
  split <;> rfl

/-- **What a reader finds in chunks is what it finds when all of them have arrived**, and what it
leaves is the same. -/
theorem readFrom_chunks (ended : Bool) (chunks : List Octets) (r : FrameReader) :
    ∃ (s : FrameReader) (left : List Octets), readFrom ended (chunks.map .octets) r =
        ((readFrom ended [] (r.supply chunks.flatten)).1, s, left.map .octets) ∧
      s.supply left.flatten = (readFrom ended [] (r.supply chunks.flatten)).2.1 := by
  induction chunks generalizing r with
  | nil =>
      have nothing := readFrom_nil_left ended r
      simp only [List.map_nil, List.flatten_nil, supply_nil]
      generalize readFrom ended [] r = reading at nothing
      obtain ⟨found, s, left⟩ := reading
      obtain rfl : left = [] := nothing
      exact ⟨s, [], rfl, supply_nil s⟩
  | cons c rest ih =>
      cases said : r.attempt with
      | some answer =>
          -- The buffer answers at once, and with all of the chunks it would answer the same.
          obtain ⟨found, s⟩ := answer
          rw [readFrom_of_attempt ended _ said,
            readFrom_of_attempt ended [] (attempt_supply said (c :: rest).flatten)]
          exact ⟨s, c :: rest, rfl, rfl⟩
      | none =>
          obtain ⟨s, left, read, same⟩ := ih (r.supply c)
          rw [← supply_append, ← List.flatten_cons] at read same
          refine ⟨s, left, ?_, same⟩
          simp only [List.map_cons, readFrom, said]
          exact read

/-- **A frame that has arrived is found**, in whatever chunks and whatever is behind it, unless it
is longer than the reader takes. -/
theorem read_chunks (ended : Bool) (chunks : List Octets) (r : FrameReader)
    (word : b.length < 4294967296)
    (whole : r.buffered ++ chunks.flatten = Framing.frame b ++ rest) :
    (r.read { arrivals := chunks.map .octets, ended }).1 =
      if b.length ≤ r.max then .frame b else .failed (.frameTooLarge b.length r.max) := by
  obtain ⟨s, left, read, -⟩ := readFrom_chunks ended chunks r
  have found : (r.read { arrivals := chunks.map .octets, ended }).1 =
      (readFrom ended [] (r.supply chunks.flatten)).1 := by
    simp only [FrameReader.read, read]
  rw [found]
  split
  · rename_i fits
    rw [readFrom_of_attempt ended []
      (attempt_frame (r := r.supply chunks.flatten) whole word fits)]
  · rename_i exceeds
    have announced : (r.supply chunks.flatten).buffered =
        Octets.ofWord b.length ++ (b ++ rest) := by
      rw [← List.append_assoc]
      exact whole
    rw [readFrom_of_attempt ended [] (attempt_tooLarge announced word (Nat.lt_of_not_le exceeds))]
    rfl

/-! ### All reads -/

/-- The octets that are there: those in the buffer and those that arrive. -/
def stock (r : FrameReader) (arrivals : List Arrival) : Octets :=
  r.buffered ++ arrivals.flatMap Arrival.delivered

/-- A frame that the buffer holds is taken off its front. -/
theorem buffered_of_attempt (h : r.attempt = some (.frame b, s)) :
    r.buffered = Framing.frame b ++ s.buffered := by
  rcases attempt_cases h with ⟨c, same, -, -, whole, -⟩ | ⟨_, _, same, -⟩
  · cases same
    exact whole
  · cases same

/-- At the end of the arrivals there is no frame. -/
theorem atEnd_ne_frame (ended : Bool) (r : FrameReader) (b : Octets) :
    r.atEnd ended ≠ .frame b := by
  unfold atEnd
  split
  · exact nofun
  · split <;> exact nofun

/-- **A frame that is found is taken off the octets that are there.** -/
theorem stock_of_readFrom {ended : Bool} {arrivals left : List Arrival}
    (h : readFrom ended arrivals r = (.frame b, s, left)) :
    r.stock arrivals = Framing.frame b ++ s.stock left := by
  fun_induction readFrom ended arrivals r with
  | case1 r found t said =>
      cases h
      simp [stock, buffered_of_attempt said]
  | case2 r said => exact absurd (congrArg Prod.fst h) (atEnd_ne_frame ended r b)
  | case3 a rest r found t said =>
      cases h
      simp only [stock, buffered_of_attempt said, List.append_assoc]
  | case4 rest r said c ih =>
      rw [← ih h]
      simp [stock, Arrival.delivered]
  | case5 rest r said text => cases h

theorem length_stock_lt {i j : Inflow} (h : r.read i = (.frame b, s, j)) :
    (s.stock j.arrivals).length < (r.stock i.arrivals).length := by
  have found : readFrom i.ended i.arrivals r = (.frame b, s, j.arrivals) := by
    unfold read at h
    generalize readFrom i.ended i.arrivals r = reading at h ⊢
    obtain ⟨found, left, arrivals⟩ := reading
    cases h
    rfl
  rw [stock_of_readFrom found, List.length_append, Framing.frame, List.length_append,
    Octets.length_ofWord]
  omega

/-- **Read frames until there is none**: the frames, and what is found instead of a further one. -/
def readAll (r : FrameReader) (i : Inflow) : List Octets × Reading :=
  match h : r.read i with
  | (.frame b, s, j) =>
    have := length_stock_lt h
    (b :: (s.readAll j).1, (s.readAll j).2)
  | (last, _, _) => ([], last)
termination_by (r.stock i.arrivals).length

theorem readAll_of_frame {i j : Inflow} (h : r.read i = (.frame b, s, j)) :
    r.readAll i = (b :: (s.readAll j).1, (s.readAll j).2) := by
  rw [readAll]
  split
  · rename_i found
    rw [h] at found
    cases found
    rfl
  · rename_i other found
    rw [h] at found
    cases found
    exact (other b rfl).elim

theorem readAll_of_last {i j : Inflow} (h : r.read i = (found, s, j))
    (last : ∀ b, found ≠ .frame b) : r.readAll i = ([], found) := by
  rw [readAll]
  split
  · rename_i same
    rw [h] at same
    cases same
    exact absurd rfl (last _)
  · rename_i same
    rw [h] at same
    cases same
    rfl

/-- A frame that is complete among what is there is the next that is found, in whatever chunks. -/
theorem read_chunks_frame {chunks : List Octets} (word : b.length < 4294967296)
    (fits : b.length ≤ r.max)
    (whole : r.buffered ++ chunks.flatten = Octets.ofWord b.length ++ b ++ rest) :
    ∃ (s : FrameReader) (left : List Octets), s.max = r.max ∧ s.buffered ++ left.flatten = rest ∧
      r.read { arrivals := chunks.map .octets, ended := true } =
        (.frame b, s, { arrivals := left.map .octets, ended := true }) := by
  obtain ⟨s, left, read, same⟩ := readFrom_chunks true chunks r
  have said : (r.supply chunks.flatten).attempt = some (.frame b, { r with buffered := rest }) :=
    attempt_frame (r := r.supply chunks.flatten) whole word fits
  rw [readFrom_of_attempt true [] said] at read same
  dsimp only at same
  have limit : (s.supply left.flatten).max = r.max := by rw [same]
  have left' : (s.supply left.flatten).buffered = rest := by rw [same]
  refine ⟨s, left, limit, left', ?_⟩
  simp only [FrameReader.read, read]

/-- What is found instead of a frame is found in whatever chunks. -/
theorem readAll_chunks_last {chunks : List Octets} {last : Reading}
    (none : ∀ b, last ≠ .frame b)
    (whole : (readFrom true [] (r.supply chunks.flatten)).1 = last) :
    r.readAll { arrivals := chunks.map .octets, ended := true } = ([], last) := by
  obtain ⟨s, left, read, -⟩ := readFrom_chunks true chunks r
  rw [whole] at read
  refine readAll_of_last (s := s) (j := { arrivals := left.map .octets, ended := true }) ?_ none
  simp only [FrameReader.read, read]

/-- **A reader finds the frames of the stream and its end**, in whatever chunks it arrives. -/
theorem readAll_of_parses {max : Nat} {stream : Octets} {frames : List Octets} {last : Reading}
    (h : Framing.Parses max stream frames last) (r : FrameReader) (chunks : List Octets)
    (limit : r.max = max) (whole : r.buffered ++ chunks.flatten = stream) :
    r.readAll { arrivals := chunks.map .octets, ended := true } = (frames, last) := by
  -- Where no frame is found, the reader answers as it would if all had arrived.
  induction h generalizing r chunks with
  | closed =>
      have silent : (r.supply chunks.flatten).attempt = none :=
        attempt_partOfLength (by simp [supply, whole])
      refine readAll_chunks_last nofun ?_
      rw [readFrom_of_silence true silent]
      simp [atEnd, supply, whole]
  | frame word fits later ih =>
      obtain ⟨s, left, same, rest, read⟩ := read_chunks_frame word (limit ▸ fits) whole
      rw [readAll_of_frame read, ih s left (same.trans limit) rest]
  | tooLarge word exceeds =>
      have said := attempt_tooLarge (r := r.supply chunks.flatten) whole word (limit ▸ exceeds)
      refine readAll_chunks_last nofun ?_
      rw [readFrom_of_attempt true [] said, ← limit]
      rfl
  | partOfLength remains short =>
      have silent : (r.supply chunks.flatten).attempt = none :=
        attempt_partOfLength (by simpa [supply, whole] using short)
      refine readAll_chunks_last nofun ?_
      rw [readFrom_of_silence true silent]
      simp [atEnd, supply, whole, remains]
  | partOfFrame word fits short =>
      have silent : (r.supply chunks.flatten).attempt = none :=
        attempt_partOfFrame (r := r.supply chunks.flatten) whole word (limit ▸ fits) short
      refine readAll_chunks_last nofun ?_
      rw [readFrom_of_silence true silent]
      simp [atEnd, supply, whole, Octets.ofWord]

/-- **Framing does not depend on how the octets arrive.**  Cut a stream that comes to its end into
whatever chunks, and let a reader read frames until there is none: it finds exactly the frames
of the whole stream, and then exactly what the stream ends with. -/
theorem readAll_eq_iff_parses (max : Nat) (chunks : List Octets) (frames : List Octets)
    (last : Reading) :
    readAll { max } { arrivals := chunks.map .octets, ended := true } = (frames, last) ↔
      Framing.Parses max chunks.flatten frames last := by
  constructor
  · intro h
    obtain ⟨frames', last', parses⟩ := Framing.exists_parses max chunks.flatten
    rw [readAll_of_parses parses { max } chunks rfl rfl] at h
    cases h
    exact parses
  · intro parses
    exact readAll_of_parses parses { max } chunks rfl rfl

end FrameReader

end Rendezvous
