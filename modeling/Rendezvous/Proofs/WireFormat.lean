import Rendezvous.Message.Decoding

/-!
# Frames and messages determine each other

Decoding accepts exactly the frames that encoding makes.  Every field is written in one
way only, and says itself where it ends, so the argument goes field by field: a reader
*inverts* a written form if it takes off the front the written forms of the values that
fit, whatever follows them, and nothing else.  Readers one after the other invert written
forms one after the other, and so on up to whole messages.

A value fits if its length or count fits the word it is announced by.  Above that, the
written form no longer says what was written.

## Main Definitions

* `Message.Reader.Inverts` — a reader takes off exactly what was written

## Main Statements

* `Message.Reader.inverts_blob`, `Message.Reader.inverts_text`,
  `Message.Reader.inverts_texts` — fields
* `Message.Reader.fields_eq_ok`, `Message.Reader.fields_encodeFields` — the fields of a
  message, in both directions
* `Message.decode_exactly_encode` — whole frames
-/

namespace Rendezvous

namespace Message

namespace Reader

/-- **A reader inverts a written form**: of the values that fit it takes the written form off
the front, and it takes off nothing else. -/
def Inverts {α : Type} (read : Reader α) (write : α → Octets) (Fits : α → Prop) : Prop :=
  ∀ b a rest, read b = .ok (a, rest) ↔ Fits a ∧ b = write a ++ rest

variable {α β γ : Type} {r : Reader α} {w : α → Octets} {P : α → Prop}

/-! ### One reader after the other -/

theorem andThen_eq_ok_iff {f : α → Reader β} {b rest : Octets} {c : β} :
    r.andThen f b = .ok (c, rest) ↔ ∃ a mid, r b = .ok (a, mid) ∧ f a mid = .ok (c, rest) := by
  unfold andThen
  cases h : r b with
  | error e => simp
  | ok found =>
      obtain ⟨a, mid⟩ := found
      constructor
      · intro next
        exact ⟨a, mid, rfl, next⟩
      · rintro ⟨_, _, ⟨⟩, next⟩
        exact next

theorem map_eq_ok_iff {f : α → β} {b rest : Octets} {c : β} :
    r.map f b = .ok (c, rest) ↔ ∃ a, f a = c ∧ r b = .ok (a, rest) := by
  unfold map
  rw [andThen_eq_ok_iff]
  constructor
  · rintro ⟨a, mid, h, e⟩
    cases e
    exact ⟨a, rfl, h⟩
  · rintro ⟨a, rfl, h⟩
    exact ⟨a, rest, h, rfl⟩

/-- What is made of a value is read where the value is written. -/
theorem Inverts.map (h : Inverts r w P) (f : α → β) {b rest : Octets} {c : β} :
    r.map f b = .ok (c, rest) ↔ ∃ a, f a = c ∧ P a ∧ b = w a ++ rest := by
  rw [map_eq_ok_iff]
  refine exists_congr fun a => and_congr_right fun _ => ?_
  exact h b a rest

/-- What is made of two values is read where one is written after the other. -/
theorem Inverts.map₂ {r' : Reader β} {w' : β → Octets} {P' : β → Prop} (h : Inverts r w P)
    (h' : Inverts r' w' P') (f : α → β → γ) {b rest : Octets} {c : γ} :
    (r.andThen fun a => r'.map (f a)) b = .ok (c, rest) ↔
      ∃ a a', f a a' = c ∧ (P a ∧ P' a') ∧ b = (w a ++ w' a') ++ rest := by
  rw [andThen_eq_ok_iff]
  constructor
  · rintro ⟨a, mid, first, second⟩
    obtain ⟨fits, rfl⟩ := (h b a mid).1 first
    obtain ⟨a', made, fits', rfl⟩ := (h'.map (f a)).1 second
    exact ⟨a, a', made, ⟨fits, fits'⟩, (List.append_assoc _ _ _).symm⟩
  · rintro ⟨a, a', made, ⟨fits, fits'⟩, rfl⟩
    refine ⟨a, w' a' ++ rest, (h _ _ _).2 ⟨fits, List.append_assoc _ _ _⟩, ?_⟩
    exact (h'.map (f a)).2 ⟨a', made, fits', rfl⟩

/-! ### Fields -/

theorem inverts_word : Inverts word Octets.ofWord fun n => n < 4294967296 := by
  intro b n rest
  unfold word
  constructor
  · intro h
    split at h
    · rename_i found heq
      cases h
      exact Octets.word?_eq_some heq
    · cases h
  · rintro ⟨fits, rfl⟩
    rw [Octets.word?_ofWord fits]

theorem inverts_stretch (n : Nat) : Inverts (stretch n) id fun s => s.length = n := by
  intro b s rest
  unfold stretch
  constructor
  · intro h
    split at h
    · rename_i found heq
      cases h
      exact Octets.cut?_eq_some heq
    · cases h
  · rintro ⟨rfl, rfl⟩
    rw [id, Octets.cut?_append]

/-- **An opaque field** is read exactly where one is written. -/
theorem inverts_blob : Inverts blob encodeBlob fun s => s.length < 4294967296 := by
  intro b s rest
  unfold blob encodeBlob
  rw [andThen_eq_ok_iff]
  constructor
  · rintro ⟨n, mid, length, octets⟩
    obtain ⟨fits, rfl⟩ := (inverts_word _ _ _).1 length
    obtain ⟨rfl, rfl⟩ := (inverts_stretch n _ _ _).1 octets
    exact ⟨fits, (List.append_assoc _ _ _).symm⟩
  · rintro ⟨fits, rfl⟩
    refine ⟨s.length, s ++ rest, (inverts_word _ _ _).2 ⟨fits, List.append_assoc _ _ _⟩, ?_⟩
    exact (inverts_stretch _ _ _ _).2 ⟨rfl, rfl⟩

/-- **A text field** is read exactly where one is written: octets that are no text are no
field, and no text has two encodings. -/
theorem inverts_text : Inverts text encodeText FitsWord := by
  intro b s rest
  unfold text
  rw [andThen_eq_ok_iff]
  constructor
  · rintro ⟨raw, mid, field, decoded⟩
    obtain ⟨fits, rfl⟩ := (inverts_blob _ _ _).1 field
    cases valid : Octets.text? raw with
    | none =>
        rw [valid] at decoded
        cases decoded
    | some t =>
        rw [valid] at decoded
        cases decoded
        rw [Octets.text?_eq_some_iff] at valid
        subst valid
        exact ⟨fits, rfl⟩
  · rintro ⟨fits, rfl⟩
    refine ⟨Octets.ofText s, rest, (inverts_blob _ _ _).2 ⟨fits, rfl⟩, ?_⟩
    rw [Octets.text?_ofText]
    rfl

/-- So many texts are read one after the other, exactly where they are written. -/
theorem textsAfter_eq_ok_iff (n : Nat) (read : List String) {b rest : Octets}
    {ss : List String} :
    textsAfter n read b = .ok (ss, rest) ↔
      ∃ new : List String, ss = read.reverse ++ new ∧ new.length = n ∧ (∀ s ∈ new, FitsWord s) ∧
        b = new.flatMap encodeText ++ rest := by
  induction n generalizing read b with
  | zero =>
      constructor
      · intro h
        cases h
        exact ⟨[], by simp, rfl, nofun, rfl⟩
      · rintro ⟨new, rfl, none, -, rfl⟩
        rw [List.length_eq_zero_iff] at none
        subst none
        simp [textsAfter, pure]
  | succ n ih =>
      rw [textsAfter, andThen_eq_ok_iff]
      constructor
      · rintro ⟨s, mid, first, others⟩
        obtain ⟨fits, rfl⟩ := (inverts_text _ _ _).1 first
        obtain ⟨new, rfl, rfl, fit, rfl⟩ := (ih _).1 others
        refine ⟨s :: new, by simp, rfl, ?_, by simp⟩
        intro t ht
        rcases List.mem_cons.1 ht with rfl | ht
        · exact fits
        · exact fit t ht
      · rintro ⟨new, rfl, count, fit, rfl⟩
        obtain ⟨s, later, rfl⟩ := List.exists_cons_of_length_eq_add_one count
        refine ⟨s, later.flatMap encodeText ++ rest, ?_, ?_⟩
        · exact (inverts_text _ _ _).2 ⟨fit s List.mem_cons_self, by simp⟩
        · refine (ih _).2 ⟨later, by simp, by simpa using count, ?_, rfl⟩
          intro t ht
          exact fit t (List.mem_cons_of_mem s ht)

/-- **A list of texts** is read exactly where one is written and passes the test of its count. -/
theorem texts_eq_ok_iff (test : Nat → Nat → Bool) {b rest : Octets} {ss : List String} :
    texts test b = .ok (ss, rest) ↔
      (ss.length < 4294967296 ∧ ∀ s ∈ ss, FitsWord s) ∧
        test ss.length (ss.flatMap encodeText ++ rest).length ∧ b = encodeTexts ss ++ rest := by
  unfold texts encodeTexts
  rw [andThen_eq_ok_iff]
  constructor
  · rintro ⟨n, mid, count, others⟩
    obtain ⟨fits, rfl⟩ := (inverts_word _ _ _).1 count
    split at others
    · rename_i passed
      obtain ⟨new, rfl, rfl, fit, rfl⟩ := (textsAfter_eq_ok_iff _ _).1 others
      exact ⟨⟨fits, fit⟩, passed, (List.append_assoc _ _ _).symm⟩
    · cases others
  · rintro ⟨⟨fits, fit⟩, passed, rfl⟩
    refine ⟨ss.length, ss.flatMap encodeText ++ rest, ?_, ?_⟩
    · exact (inverts_word _ _ _).2 ⟨fits, List.append_assoc _ _ _⟩
    · rw [if_pos passed]
      exact (textsAfter_eq_ok_iff _ _).2 ⟨ss, rfl, rfl, fit, rfl⟩

/-- Every text takes at least the four octets of its length. -/
theorem le_length_flatMap_encodeText (ss : List String) :
    4 * ss.length ≤ (ss.flatMap encodeText).length := by
  induction ss with
  | nil => exact Nat.le_refl _
  | cons s rest ih =>
      simp only [List.flatMap_cons, List.length_append, List.length_cons, encodeText, encodeBlob,
        Octets.length_ofWord]
      omega

/-- Texts that are there pass the test of their count. -/
theorem countFits_length (ss : List String) (rest : Octets) :
    countFits ss.length (ss.flatMap encodeText ++ rest).length := by
  have enough := le_length_flatMap_encodeText ss
  simp only [countFits, List.length_append, decide_eq_true_eq]
  omega

/-- **A list of texts** is read exactly where one is written; the test turns none of them down. -/
theorem inverts_texts : Inverts (texts countFits) encodeTexts fun ss =>
    ss.length < 4294967296 ∧ ∀ s ∈ ss, FitsWord s := by
  intro b ss rest
  rw [texts_eq_ok_iff]
  refine and_congr_right fun _ => ?_
  exact and_iff_right (countFits_length ss rest)

/-! ### Messages -/

/-- **What is read as the fields of a message are its fields**, as they are written. -/
theorem fields_eq_ok {kind : Kind} {b rest : Octets} {m : Message}
    (h : fields countFits kind b = .ok (m, rest)) :
    m.kind = kind ∧ m.Encodable ∧ b = m.encodeFields ++ rest := by
  cases kind with
  | joinRequest | leaveNotice | endOfCandidates | error =>
      obtain ⟨s, rfl, fits, rfl⟩ := (inverts_text.map _).1 h
      exact ⟨rfl, fits, rfl⟩
  | offer | answer | iceCandidate =>
      obtain ⟨s, c, rfl, fits, rfl⟩ := (inverts_text.map₂ inverts_blob _).1 h
      exact ⟨rfl, fits, rfl⟩
  | peerJoined | peerLeft | joined =>
      obtain ⟨s, p, rfl, fits, rfl⟩ := (inverts_text.map₂ inverts_text _).1 h
      exact ⟨rfl, fits, rfl⟩
  | listSessions =>
      cases h
      exact ⟨rfl, trivial, rfl⟩
  | sessionList =>
      obtain ⟨ss, rfl, fits, rfl⟩ := (inverts_texts.map _).1 h
      exact ⟨rfl, fits, rfl⟩

/-- **The fields of a message are read back**, whatever follows them. -/
theorem fields_encodeFields {m : Message} (h : m.Encodable) (rest : Octets) :
    fields countFits m.kind (m.encodeFields ++ rest) = .ok (m, rest) := by
  cases m with
  | joinRequest s | leaveNotice s | endOfCandidates s | error s =>
      exact (inverts_text.map _).2 ⟨s, rfl, h, rfl⟩
  | offer s c | answer s c | iceCandidate s c =>
      exact (inverts_text.map₂ inverts_blob _).2 ⟨s, c, rfl, h, rfl⟩
  | peerJoined s p | peerLeft s p | joined s p =>
      exact (inverts_text.map₂ inverts_text _).2 ⟨s, p, rfl, h, rfl⟩
  | listSessions => rfl
  | sessionList ss => exact (inverts_texts.map _).2 ⟨ss, rfl, h, rfl⟩

end Reader

/-- **The frame of a message decodes to it** if every length and count of it fits a word. -/
theorem decode_encode {m : Message} (h : m.Encodable) : decode m.encode = .ok m := by
  have read := Reader.fields_encodeFields h []
  rw [List.append_nil] at read
  simp only [decode, decodeWith, encode, Kind.ofTag?_tag, read]

/-- **What decodes to a message is its frame**: every length, count and text is written as
encoding writes it, and nothing follows. -/
theorem eq_encode_of_decode {f : Octets} {m : Message} (h : decode f = .ok m) :
    f = m.encode ∧ m.Encodable := by
  unfold decode decodeWith at h
  split at h
  · cases h
  · rename_i tag rest
    split at h
    · cases h
    · rename_i kind announced
      split at h
      · cases h
      · rename_i found read
        cases h
        obtain ⟨same, fits, rfl⟩ := Reader.fields_eq_ok read
        rw [Kind.ofTag?_eq_some_iff] at announced
        rw [announced, ← same, List.append_nil]
        exact ⟨rfl, fits⟩
      · cases h

/-- **Decoding and encoding are inverse to each other**: a frame decodes to a message exactly if
it is the frame of that message and every length and count of the message fits a word.  So such
messages are read back, no two frames mean the same, and the frames that decode are those that
encoding makes. -/
theorem decode_exactly_encode :
    (∀ f m, decode f = .ok m ↔ f = m.encode ∧ m.Encodable) ∧
    (∀ m, m.Encodable → decode m.encode = .ok m) ∧
    (∀ f g m, decode f = .ok m → decode g = .ok m → f = g) ∧
    ∀ f, (∃ m, decode f = .ok m) ↔ ∃ m : Message, m.Encodable ∧ m.encode = f := by
  refine ⟨?_, fun m => decode_encode, ?_, ?_⟩
  · intro f m
    constructor
    · exact eq_encode_of_decode
    · rintro ⟨rfl, fits⟩
      exact decode_encode fits
  · intro f g m hf hg
    rw [(eq_encode_of_decode hf).1, (eq_encode_of_decode hg).1]
  · intro f
    constructor
    · rintro ⟨m, h⟩
      obtain ⟨rfl, fits⟩ := eq_encode_of_decode h
      exact ⟨m, fits, rfl⟩
    · rintro ⟨m, fits, rfl⟩
      exact ⟨m, decode_encode fits⟩

end Message

end Rendezvous
