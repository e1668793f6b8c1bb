import Rendezvous.Proofs.Diagnosis

/-!
# The count of a list is tested early

A list of texts announces how many there are.  Each takes four octets at least, so a count that
exceeds a quarter of what is left cannot be met, and the decoder turns it down before it makes room
for the texts.  A *patient* decoder does not test the count and reads text by text.  It may read
many of them, and it may meet octets that are no text on the way, but it never gets to the end: the
texts that it would have to find are longer than the frame.

So the test decides nothing.  The two decoders differ at most in the reason for which they turn
down a frame, and only if the test turns it down.  What the test is for is the room that is made
for the texts: it is never more than a quarter of the frame.

## Main Definitions

* `Message.decodePatiently` — decoding without the test of the count
* `Message.announced?` — the count that a frame announces, and what is left after it
* `Message.slots?` — the room that is made for the texts of a list

## Main Statements

* `Message.Reader.textsAfter_of_tight` — what becomes of a count that cannot be met
* `Message.decodePatiently_eq` — where the test is passed, it makes no difference
* `Message.count_test_decides_nothing` — the test is only an early exit
-/

namespace Rendezvous

namespace Message

/-- **Decode a frame without a test of the count** of a list: so many texts are read as are
announced, or up to the first that is not there. -/
def decodePatiently (frame : Octets) : Except DecodeError Message :=
  decodeWith (fun _ _ => true) frame

/-- The count that the frame of a list announces, and the octets that are left after it. -/
def announced? : Octets → Option (Nat × Octets)
  | [] => none
  | tag :: fields => if tag = Kind.sessionList.tag then Octets.word? fields else none

/-- **How much room is made for the texts of a list** before the first of them is read: as much as
the count asks for, once it has passed the test. -/
def slots? (frame : Octets) : Option Nat :=
  ((announced? frame).filter fun a => countFits a.1 a.2.length).map Prod.fst

variable {frame rest : Octets} {count : Nat}

theorem announced?_eq_some_iff :
    announced? frame = some (count, rest) ↔
      count < 4294967296 ∧ frame = Kind.sessionList.tag :: (Octets.ofWord count ++ rest) := by
  cases frame with
  | nil => exact iff_of_false nofun nofun
  | cons tag fields =>
      simp only [announced?]
      rw [List.cons.injEq]
      by_cases list : tag = Kind.sessionList.tag
      · rw [if_pos list, and_iff_right list]
        constructor
        · exact Octets.word?_eq_some
        · rintro ⟨fits, rfl⟩
          exact Octets.word?_ofWord fits rest
      · rw [if_neg list]
        exact iff_of_false nofun fun same => list same.2.1

theorem slots?_eq_some_iff {slots : Nat} :
    slots? frame = some slots ↔
      ∃ rest, announced? frame = some (slots, rest) ∧ countFits slots rest.length := by
  simp [slots?, Option.filter_eq_some_iff]

namespace Reader

/-! ### Counts that cannot be met -/

/-- **A count that cannot be met is not met**: on the way there is a text that is none, or else the
octets come to an end. -/
theorem textsAfter_of_tight (tight : countFits count rest.length = false) :
    ∃ e, textsAfter count [] rest = .error e ∧
      (e = .invalidText ∧ Spoilt (List.replicate count .text) rest ∨
        e = .unexpectedEnd ∧ ¬ Spoilt (List.replicate count .text) rest) := by
  cases read : textsAfter count [] rest with
  | ok found =>
      -- So many texts are longer than what is left.
      obtain ⟨texts, left⟩ := found
      obtain ⟨new, -, rfl, -, rfl⟩ := (textsAfter_eq_ok_iff count []).1 read
      rw [countFits_length] at tight
      cases tight
  | error e =>
      refine ⟨e, rfl, ?_⟩
      rw [← List.append_nil (List.replicate count Field.text)]
      exact ((follows_textsAfter count []).failed read).imp (And.imp_right fun spoilt => spoilt [])
        (And.imp_right fun sound => sound [])

/-- Only lists have a count to be tested. -/
theorem fields_eq_of_ne {kind : Kind} (other : kind ≠ .sessionList)
    (test test' : Nat → Nat → Bool) : fields test kind = fields test' kind := by
  cases kind with
  | sessionList => exact absurd rfl other
  | _ => rfl

/-- After the count of a list its test is made, and then the texts are read. -/
theorem fields_sessionList (test : Nat → Nat → Bool) (fits : count < 4294967296) :
    fields test .sessionList (Octets.ofWord count ++ rest) =
      if test count rest.length then (textsAfter count []).map .sessionList rest
      else .error .unexpectedEnd := by
  have counted : word (Octets.ofWord count ++ rest) = .ok (count, rest) :=
    (inverts_word _ _ _).2 ⟨fits, rfl⟩
  have read : texts test (Octets.ofWord count ++ rest) =
      if test count rest.length then textsAfter count [] rest else .error .unexpectedEnd :=
    andThen_of_ok counted
  show (texts test).map sessionList _ = _
  unfold Reader.map andThen
  rw [read]
  by_cases passed : test count rest.length
  · rw [if_pos passed, if_pos passed]
  · rw [if_neg passed, if_neg passed]

end Reader

/-! ### Both decoders -/

/-- A frame is decoded in the same way if its fields are read in the same way. -/
theorem decodeWith_congr {test test' : Nat → Nat → Bool}
    (same : ∀ (kind : Kind) (fields : Octets), frame = kind.tag :: fields →
      Reader.fields test kind fields = Reader.fields test' kind fields) :
    decodeWith test frame = decodeWith test' frame := by
  cases frame with
  | nil => rfl
  | cons tag fields =>
      cases announced : Kind.ofTag? tag with
      | none => simp only [decodeWith, announced]
      | some kind =>
          obtain rfl := Kind.ofTag?_eq_some_iff.1 announced
          simp only [decodeWith, Kind.ofTag?_tag, same kind fields rfl]

/-- **Where the test is passed, it makes no difference.** -/
theorem decodePatiently_eq
    (passed : ∀ count rest, announced? frame = some (count, rest) → countFits count rest.length) :
    decodePatiently frame = decode frame := by
  apply decodeWith_congr
  rintro kind fields rfl
  by_cases list : kind = .sessionList
  · subst list
    cases counted : Octets.word? fields with
    | none =>
        -- There is no count, so there is nothing to be tested.
        have short : Reader.word fields = .error .unexpectedEnd := by
          unfold Reader.word
          rw [counted]
        have failed (test : Nat → Nat → Bool) :
            Reader.fields test .sessionList fields = .error .unexpectedEnd :=
          Reader.andThen_of_error (Reader.andThen_of_error short)
        rw [failed, failed]
    | some found =>
        obtain ⟨count, rest⟩ := found
        obtain ⟨fits, rfl⟩ := Octets.word?_eq_some counted
        have met := passed count rest (announced?_eq_some_iff.2 ⟨fits, rfl⟩)
        rw [Reader.fields_sessionList _ fits, Reader.fields_sessionList _ fits, if_pos rfl,
          if_pos met]
  · rw [Reader.fields_eq_of_ne list]

/-- **Where the test is not passed**, there is no message for the patient decoder either. -/
theorem decode_of_tight (announced : announced? frame = some (count, rest))
    (tight : countFits count rest.length = false) :
    decode frame = .error .unexpectedEnd ∧
      ∃ e, decodePatiently frame = .error e ∧
        (e = .invalidText ∧ Spoilt (List.replicate count .text) rest ∨
          e = .unexpectedEnd ∧ ¬ Spoilt (List.replicate count .text) rest) := by
  obtain ⟨fits, rfl⟩ := announced?_eq_some_iff.1 announced
  constructor
  · apply decode_of_fields_error
    rw [Reader.fields_sessionList _ fits, if_neg (Bool.eq_false_iff.1 tight)]
  · obtain ⟨e, failed, why⟩ := Reader.textsAfter_of_tight tight
    refine ⟨e, decodeWith_of_fields_error ?_, why⟩
    rw [Reader.fields_sessionList _ fits, if_pos rfl]
    exact Reader.andThen_of_error failed

/-- **The test of the count is only an early exit.**  Whatever the frame, the patient decoder finds
the message that the decoder finds, and both turn down the same frames.  They agree on the reason as
well, unless the test turns the frame down: then the decoder says that it ends too early, and the
patient decoder says the same, or that a text is none, if there is such a text among those that lie
inside the frame.  And the room that is made for the texts of a list, which is as many slots as the
list turns out to have texts, is at most a quarter of the frame. -/
theorem count_test_decides_nothing (frame : Octets) :
    (∀ m, decodePatiently frame = .ok m ↔ decode frame = .ok m) ∧
    ((∃ e, decodePatiently frame = .error e) ↔ ∃ e, decode frame = .error e) ∧
    ((∀ count rest, announced? frame = some (count, rest) → count ≤ rest.length / 4) →
      decodePatiently frame = decode frame) ∧
    (∀ count rest, announced? frame = some (count, rest) → rest.length / 4 < count →
      decode frame = .error .unexpectedEnd ∧
      (decodePatiently frame = .error .unexpectedEnd ∨
        decodePatiently frame = .error .invalidText) ∧
      (decodePatiently frame = .error .invalidText ↔
        ∃ raw, HoldsText (List.replicate count .text) rest raw ∧ ∀ s, raw ≠ Octets.ofText s)) ∧
    (∀ slots, slots? frame = some slots → slots ≤ frame.length / 4) ∧
    ∀ names, decode frame = .ok (.sessionList names) → slots? frame = some names.length := by
  have turned {count : Nat} {rest : Octets} (announced : announced? frame = some (count, rest))
      (exceeds : rest.length / 4 < count) :=
    decode_of_tight announced (decide_eq_false (Nat.not_le.2 exceeds))
  have agree (met : ∀ count rest, announced? frame = some (count, rest) → count ≤ rest.length / 4) :
      decodePatiently frame = decode frame :=
    decodePatiently_eq fun count rest announced => decide_eq_true (met count rest announced)
  -- Either the two agree, or both fail.
  have together : decodePatiently frame = decode frame ∨
      (∃ e, decodePatiently frame = .error e) ∧ ∃ e, decode frame = .error e := by
    by_cases met : ∀ count rest, announced? frame = some (count, rest) → count ≤ rest.length / 4
    · exact .inl (agree met)
    · simp only [Classical.not_forall, Nat.not_le] at met
      obtain ⟨count, rest, announced, exceeds⟩ := met
      obtain ⟨failed, e, failed', -⟩ := turned announced exceeds
      exact .inr ⟨⟨e, failed'⟩, _, failed⟩
  refine ⟨fun m => ?_, ?_, agree, fun count rest announced exceeds => ?_, fun slots made => ?_,
    fun names decoded => ?_⟩
  · obtain same | ⟨⟨e, failed⟩, e', failed'⟩ := together
    · rw [same]
    · rw [failed, failed']
      exact iff_of_false nofun nofun
  · obtain same | ⟨failed, failed'⟩ := together
    · rw [same]
    · exact iff_of_true failed failed'
  · obtain ⟨failed, e, failed', why⟩ := turned announced exceeds
    refine ⟨failed, ?_, ?_⟩
    · rw [failed']
      obtain ⟨rfl, -⟩ | ⟨rfl, -⟩ := why
      · exact .inr rfl
      · exact .inl rfl
    · simp only [← Octets.text?_eq_none_iff]
      rw [failed']
      obtain ⟨rfl, spoilt⟩ | ⟨rfl, sound⟩ := why
      · exact iff_of_true rfl spoilt
      · exact iff_of_false nofun sound
  · obtain ⟨rest, announced, met⟩ := slots?_eq_some_iff.1 made
    obtain ⟨-, rfl⟩ := announced?_eq_some_iff.1 announced
    have quarter : slots ≤ rest.length / 4 := of_decide_eq_true met
    rw [List.length_cons, List.length_append]
    omega
  · obtain ⟨rfl, few, -⟩ := eq_encode_of_decode decoded
    exact slots?_eq_some_iff.2 ⟨names.flatMap encodeText,
      announced?_eq_some_iff.2 ⟨few, rfl⟩, by simpa using Reader.countFits_length names []⟩

end Message

end Rendezvous
