import Rendezvous.Proofs.WireFormat

/-!
# Why a frame does not decode

A frame that is no message has one thing wrong with it, and the verdict says exactly which.  It is
empty; its first octet announces nothing; it ends too early; a text in it is none; or it goes on
after the message.  The first two and the last can be read off the frame by themselves.  The other
two are told apart by the *layout* of the fields that the first octet announces: a text that is
none is reported if it lies wholly inside the frame, together with all that comes before it, and
otherwise the frame has ended too early.

Two properties of readers carry the argument, and both pass from readers to readers one after the
other.  A reader is *steadfast* if its verdict stands when more octets arrive, unless the verdict
was that there are too few; so the beginning of a frame cannot fail in any other way.  A reader
*follows* a layout if it fails on a text that is none, or for want of octets where there is no
such text.

## Main Definitions

* `Message.Field`, `Message.Kind.layout` — the fields of a message, kind by kind
* `Message.HoldsText` — a text field lies wholly inside a frame
* `Message.Reader.Steadfast` — more octets change no verdict but one
* `Message.Reader.Follows` — a reader fails as a layout has it
* `Message.Judged` — what is wrong with a frame, case by case

## Main Statements

* `Message.Reader.steadfast_fields`, `Message.Reader.follows_fields` — the fields of a message
* `Message.judged` — every verdict is right
* `Message.decode_errors_exact` — when each error is reported, and that frames one after the other
  can be told apart
-/

namespace Rendezvous

/-- Octets are no text if they are not the encoding of any. -/
theorem Octets.text?_eq_none_iff {b : Octets} : text? b = none ↔ ∀ s, b ≠ ofText s := by
  rw [Option.eq_none_iff_forall_ne_some]
  exact forall_congr' fun s => not_congr text?_eq_some_iff

namespace Message

/-! ### Layouts -/

/-- What a field of a message is. -/
inductive Field where
  | text
  | blob
  | texts

/-- The fields of a message of a given kind, in order. -/
def Kind.layout : Kind → List Field
  | .joinRequest | .leaveNotice | .endOfCandidates | .error => [.text]
  | .offer | .answer | .iceCandidate => [.text, .blob]
  | .peerJoined | .peerLeft | .joined => [.text, .text]
  | .listSessions => []
  | .sessionList => [.texts]

/-- **A text field lies wholly inside** octets that are laid out in this way: its length is there,
then all its octets, and before it all the fields that come first.  A list is made of as many texts
as it announces, if there are enough octets for their lengths. -/
inductive HoldsText : List Field → Octets → Octets → Prop
  | here {layout : List Field} {raw rest : Octets} (fits : raw.length < 4294967296) :
      HoldsText (.text :: layout) (encodeBlob raw ++ rest) raw
  | afterText {layout : List Field} {first rest raw : Octets} (fits : first.length < 4294967296)
      (later : HoldsText layout rest raw) :
      HoldsText (.text :: layout) (encodeBlob first ++ rest) raw
  | afterBlob {layout : List Field} {first rest raw : Octets} (fits : first.length < 4294967296)
      (later : HoldsText layout rest raw) :
      HoldsText (.blob :: layout) (encodeBlob first ++ rest) raw
  | inTexts {layout : List Field} {count : Nat} {rest raw : Octets} (fits : count < 4294967296)
      (room : count ≤ rest.length / 4)
      (later : HoldsText (List.replicate count .text ++ layout) rest raw) :
      HoldsText (.texts :: layout) (Octets.ofWord count ++ rest) raw

/-- A text field lies wholly inside the octets that is no text. -/
def Spoilt (layout : List Field) (b : Octets) : Prop :=
  ∃ raw, HoldsText layout b raw ∧ Octets.text? raw = none

variable {layout : List Field} {b raw rest : Octets}

theorem not_spoilt_nil (b : Octets) : ¬ Spoilt [] b := by
  rintro ⟨raw, holds, -⟩
  cases holds

theorem not_spoilt_iff :
    ¬ Spoilt layout b ↔ ∀ raw, HoldsText layout b raw → ∃ s, raw = Octets.ofText s := by
  simp [Spoilt, Octets.text?_eq_none_iff]

/-- A text field that lies inside is written there, length and octets. -/
theorem HoldsText.isInfix (holds : HoldsText layout b raw) : encodeBlob raw <:+: b := by
  induction holds with
  | here fits => exact (List.prefix_append _ _).isInfix
  | afterText fits later ih => exact ih.trans (List.suffix_append _ _).isInfix
  | afterBlob fits later ih => exact ih.trans (List.suffix_append _ _).isInfix
  | inTexts fits room later ih => exact ih.trans (List.suffix_append _ _).isInfix

namespace Reader

variable {α β : Type} {r : Reader α} {f : α → Reader β} {e : DecodeError}

theorem andThen_of_ok {a : α} (h : r b = .ok (a, rest)) : r.andThen f b = f a rest := by
  unfold andThen
  rw [h]

theorem andThen_of_error (h : r b = .error e) : r.andThen f b = .error e := by
  unfold andThen
  rw [h]

/-! ### More octets -/

/-- **More octets change nothing** of what a reader says, unless it says that there are too few:
it finds the same and leaves the new octets behind what it left, or fails in the same way. -/
def Steadfast (r : Reader α) : Prop :=
  ∀ b more, r b = .error .unexpectedEnd ∨
    r (b ++ more) = (r b).map fun found => (found.1, found.2 ++ more)

theorem steadfast_pure (a : α) : Steadfast (pure a) := fun _ _ => .inr rfl

theorem Steadfast.andThen (h : Steadfast r) (hf : ∀ a, Steadfast (f a)) :
    Steadfast (r.andThen f) := by
  intro b more
  cases first : r b with
  | error e =>
      rw [andThen_of_error first]
      rcases h b more with short | same
      · rw [first] at short
        cases short
        exact .inl rfl
      · rw [first] at same
        exact .inr (andThen_of_error same)
  | ok found =>
      obtain ⟨a, rest⟩ := found
      rw [andThen_of_ok first]
      rcases h b more with short | same
      · rw [first] at short
        cases short
      · rw [first] at same
        rw [andThen_of_ok same]
        exact hf a rest more

theorem Steadfast.map (h : Steadfast r) (g : α → β) : Steadfast (r.map g) :=
  h.andThen fun a => steadfast_pure (g a)

theorem steadfast_word : Steadfast word := by
  intro b more
  cases found : word b with
  | error e =>
      unfold word at found
      split at found <;> cases found
      exact .inl rfl
  | ok taken =>
      obtain ⟨n, rest⟩ := taken
      obtain ⟨fits, rfl⟩ := (inverts_word _ _ _).1 found
      exact .inr ((inverts_word _ _ _).2 ⟨fits, List.append_assoc _ _ _⟩)

theorem steadfast_stretch (n : Nat) : Steadfast (stretch n) := by
  intro b more
  cases found : stretch n b with
  | error e =>
      unfold stretch at found
      split at found <;> cases found
      exact .inl rfl
  | ok taken =>
      obtain ⟨s, rest⟩ := taken
      obtain ⟨fits, rfl⟩ := (inverts_stretch n _ _ _).1 found
      exact .inr ((inverts_stretch n _ _ _).2 ⟨fits, List.append_assoc _ _ _⟩)

theorem steadfast_blob : Steadfast blob := steadfast_word.andThen steadfast_stretch

theorem steadfast_text : Steadfast text := by
  refine steadfast_blob.andThen fun raw => ?_
  cases Octets.text? raw with
  | none => exact fun _ _ => .inr rfl
  | some s => exact steadfast_pure s

theorem steadfast_textsAfter (n : Nat) (read : List String) : Steadfast (textsAfter n read) := by
  induction n generalizing read with
  | zero => exact steadfast_pure _
  | succ n ih => exact steadfast_text.andThen fun s => ih (s :: read)

/-- A count that is met stays met when more octets arrive. -/
theorem steadfast_texts : Steadfast (texts countFits) := by
  refine steadfast_word.andThen fun count b more => ?_
  by_cases room : countFits count b.length
  · have roomier : countFits count (b ++ more).length := by
      simp only [countFits, List.length_append, decide_eq_true_eq] at room ⊢
      omega
    rw [if_pos room, if_pos roomier]
    exact steadfast_textsAfter count [] b more
  · exact .inl (if_neg room)

/-- **The fields of a message** are read in the same way when more octets arrive. -/
theorem steadfast_fields (k : Kind) : Steadfast (fields countFits k) := by
  cases k with
  | joinRequest | leaveNotice | endOfCandidates | error => exact steadfast_text.map _
  | offer | answer | iceCandidate => exact steadfast_text.andThen fun _ => steadfast_blob.map _
  | peerJoined | peerLeft | joined => exact steadfast_text.andThen fun _ => steadfast_text.map _
  | listSessions => exact steadfast_pure _
  | sessionList => exact steadfast_texts.map _

/-! ### Octets that are no text -/

theorem word_eq_error (h : word b = .error e) : e = .unexpectedEnd := by
  unfold word at h
  split at h <;> cases h
  rfl

theorem blob_eq_error (h : blob b = .error e) : e = .unexpectedEnd := by
  unfold blob andThen at h
  split at h
  · rename_i failed
    cases h
    exact word_eq_error failed
  · unfold stretch at h
    split at h <;> cases h
    rfl

/-- What a text field holds can be read as an opaque one. -/
theorem holdsText_text_iff :
    HoldsText (.text :: layout) b raw ↔
      ∃ first rest, blob b = .ok (first, rest) ∧ (raw = first ∨ HoldsText layout rest raw) := by
  constructor
  · intro holds
    cases holds with
    | here fits => exact ⟨_, _, (inverts_blob _ _ _).2 ⟨fits, rfl⟩, .inl rfl⟩
    | afterText fits later => exact ⟨_, _, (inverts_blob _ _ _).2 ⟨fits, rfl⟩, .inr later⟩
  · rintro ⟨first, rest, field, here⟩
    obtain ⟨fits, rfl⟩ := (inverts_blob _ _ _).1 field
    rcases here with rfl | later
    · exact .here fits
    · exact .afterText fits later

theorem holdsText_blob_iff :
    HoldsText (.blob :: layout) b raw ↔
      ∃ first rest, blob b = .ok (first, rest) ∧ HoldsText layout rest raw := by
  constructor
  · intro holds
    cases holds with
    | afterBlob fits later => exact ⟨_, _, (inverts_blob _ _ _).2 ⟨fits, rfl⟩, later⟩
  · rintro ⟨first, rest, field, later⟩
    obtain ⟨fits, rfl⟩ := (inverts_blob _ _ _).1 field
    exact .afterBlob fits later

theorem holdsText_texts_iff :
    HoldsText (.texts :: layout) b raw ↔
      ∃ count rest, word b = .ok (count, rest) ∧ countFits count rest.length ∧
        HoldsText (List.replicate count .text ++ layout) rest raw := by
  constructor
  · intro holds
    cases holds with
    | inTexts fits room later =>
        exact ⟨_, _, (inverts_word _ _ _).2 ⟨fits, rfl⟩, decide_eq_true room, later⟩
  · rintro ⟨count, rest, field, room, later⟩
    obtain ⟨fits, rfl⟩ := (inverts_word _ _ _).1 field
    exact .inTexts fits (of_decide_eq_true room) later

/-- **A reader follows a layout**: if it finds something, the texts it took are texts, and what
comes later is as it was; if it fails, there is a text that is none, or there are too few octets
and no such text, whatever comes later. -/
structure Follows (r : Reader α) (layout : List Field) : Prop where
  found {b rest : Octets} {a : α} (h : r b = .ok (a, rest)) (later : List Field) :
    Spoilt (layout ++ later) b ↔ Spoilt later rest
  failed {b : Octets} {e : DecodeError} (h : r b = .error e) :
    e = .invalidText ∧ (∀ later, Spoilt (layout ++ later) b) ∨
      e = .unexpectedEnd ∧ ∀ later, ¬ Spoilt (layout ++ later) b

theorem follows_pure (a : α) : Follows (pure a) [] where
  found h _ := by
    cases h
    rfl
  failed h := by cases h

theorem Follows.andThen {next : List Field} (h : Follows r layout)
    (hf : ∀ a, Follows (f a) next) : Follows (r.andThen f) (layout ++ next) where
  found {b rest c} both later := by
    obtain ⟨a, mid, first, second⟩ := andThen_eq_ok_iff.1 both
    rw [List.append_assoc, h.found first]
    exact (hf a).found second later
  failed {b e} fails := by
    cases first : r b with
    | error e' =>
        rw [andThen_of_error first] at fails
        cases fails
        simpa only [List.append_assoc] using
          (h.failed first).imp (.imp_right fun spoilt later => spoilt (next ++ later))
            (.imp_right fun sound later => sound (next ++ later))
    | ok found =>
        obtain ⟨a, mid⟩ := found
        rw [andThen_of_ok first] at fails
        simpa only [List.append_assoc, h.found first] using (hf a).failed fails

theorem Follows.map (h : Follows r layout) (g : α → β) : Follows (r.map g) layout := by
  have := h.andThen fun a => follows_pure (g a)
  rwa [List.append_nil] at this

theorem follows_blob : Follows blob [.blob] where
  found {b rest first} field later := by
    refine exists_congr fun raw => and_congr_left fun _ => ?_
    simp [holdsText_blob_iff, field, and_assoc]
  failed {b e} fails := by
    refine .inr ⟨blob_eq_error fails, ?_⟩
    rintro later ⟨raw, holds, -⟩
    obtain ⟨_, _, field, -⟩ := holdsText_blob_iff.1 holds
    rw [fails] at field
    cases field

theorem spoilt_text_of_blob {first : Octets} (field : blob b = .ok (first, rest)) :
    Spoilt (.text :: layout) b ↔ Octets.text? first = none ∨ Spoilt layout rest := by
  simp [Spoilt, holdsText_text_iff, field, and_assoc, or_and_right, exists_or]

theorem follows_text : Follows text [.text] where
  found {b rest s} read later := by
    obtain ⟨first, mid, field, decoded⟩ := andThen_eq_ok_iff.1 read
    rw [List.singleton_append, spoilt_text_of_blob field]
    cases valid : Octets.text? first with
    | none =>
        rw [valid] at decoded
        cases decoded
    | some t =>
        rw [valid] at decoded
        cases decoded
        simp
  failed {b e} fails := by
    cases field : blob b with
    | error e' =>
        refine .inr ⟨?_, ?_⟩
        · rw [text, andThen_of_error field] at fails
          cases fails
          exact blob_eq_error field
        · rintro later ⟨raw, holds, -⟩
          obtain ⟨_, _, field', -⟩ := holdsText_text_iff.1 holds
          rw [field] at field'
          cases field'
    | ok found =>
        obtain ⟨first, mid⟩ := found
        rw [text, andThen_of_ok field] at fails
        cases valid : Octets.text? first with
        | none =>
            rw [valid] at fails
            cases fails
            exact .inl ⟨rfl, fun later => (spoilt_text_of_blob field).2 (.inl valid)⟩
        | some t =>
            rw [valid] at fails
            cases fails

theorem follows_textsAfter (n : Nat) (read : List String) :
    Follows (textsAfter n read) (List.replicate n .text) := by
  induction n generalizing read with
  | zero => exact follows_pure _
  | succ n ih => exact follows_text.andThen fun s => ih (s :: read)

theorem spoilt_texts_of_word {count : Nat} (field : word b = .ok (count, rest)) :
    Spoilt (.texts :: layout) b ↔
      countFits count rest.length ∧ Spoilt (List.replicate count .text ++ layout) rest := by
  simp [Spoilt, holdsText_texts_iff, field, and_assoc]

theorem follows_texts : Follows (texts countFits) [.texts] where
  found {b rest ss} read later := by
    obtain ⟨count, mid, field, others⟩ := andThen_eq_ok_iff.1 read
    split at others
    · rename_i room
      rw [List.singleton_append, spoilt_texts_of_word field, and_iff_right room]
      exact (follows_textsAfter count []).found others later
    · cases others
  failed {b e} fails := by
    cases field : word b with
    | error e' =>
        refine .inr ⟨?_, ?_⟩
        · rw [texts, andThen_of_error field] at fails
          cases fails
          exact word_eq_error field
        · rintro later ⟨raw, holds, -⟩
          obtain ⟨_, _, field', -⟩ := holdsText_texts_iff.1 holds
          rw [field] at field'
          cases field'
    | ok found =>
        obtain ⟨count, mid⟩ := found
        rw [texts, andThen_of_ok field] at fails
        simp only [List.singleton_append, spoilt_texts_of_word field]
        split at fails
        · rename_i room
          simpa only [and_iff_right room] using (follows_textsAfter count []).failed fails
        · rename_i tight
          cases fails
          exact .inr ⟨rfl, fun later fits => tight fits.1⟩

/-- **The fields of a message** are read as their layout has it. -/
theorem follows_fields (k : Kind) : Follows (fields countFits k) k.layout := by
  cases k with
  | joinRequest | leaveNotice | endOfCandidates | error => exact follows_text.map _
  | offer | answer | iceCandidate => exact follows_text.andThen fun _ => follows_blob.map _
  | peerJoined | peerLeft | joined => exact follows_text.andThen fun _ => follows_text.map _
  | listSessions => exact follows_pure _
  | sessionList => exact follows_texts.map _

/-- The fields of a message fail on a text exactly if there is one that is none. -/
theorem fields_eq_invalidText_iff {k : Kind} :
    fields countFits k b = .error .invalidText ↔ Spoilt k.layout b := by
  rw [← List.append_nil k.layout]
  cases read : fields countFits k b with
  | ok found =>
      obtain ⟨m, rest⟩ := found
      rw [(follows_fields k).found read []]
      exact iff_of_false nofun (not_spoilt_nil rest)
  | error e =>
      rcases (follows_fields k).failed read with ⟨rfl, spoilt⟩ | ⟨rfl, sound⟩
      · exact iff_of_true rfl (spoilt [])
      · exact iff_of_false nofun (sound [])

/-- The fields of a message fail otherwise only for want of octets. -/
theorem fields_eq_error {k : Kind} (h : fields countFits k b = .error e) :
    e = .invalidText ∨ e = .unexpectedEnd :=
  ((follows_fields k).failed h).imp And.left And.left

end Reader

/-! ### The verdict -/

/-- **What is wrong with a frame**, or the message it is the frame of. -/
inductive Judged : Octets → Except DecodeError Message → Prop
  | empty : Judged [] (.error .emptyFrame)
  | unknown {tag : UInt8} {rest : Octets} (strange : ∀ k : Kind, tag ≠ k.tag) :
      Judged (tag :: rest) (.error (.unknownTag tag))
  | message {m : Message} (fits : m.Encodable) : Judged m.encode (.ok m)
  | trailing {m : Message} {extra : Octets} (fits : m.Encodable) (more : extra ≠ []) :
      Judged (m.encode ++ extra) (.error (.trailing extra.length))
  | invalid {k : Kind} {rest : Octets} (spoilt : Spoilt k.layout rest) :
      Judged (k.tag :: rest) (.error .invalidText)
  | short {k : Kind} {rest : Octets} (sound : ¬ Spoilt k.layout rest)
      (unfinished : ∀ m : Message, m.Encodable → ¬ m.encode <+: k.tag :: rest) :
      Judged (k.tag :: rest) (.error .unexpectedEnd)

theorem Kind.tag_injective : Function.Injective Kind.tag := by
  intro k l h
  rw [← Option.some_inj, ← Kind.ofTag?_tag, ← Kind.ofTag?_tag, h]

theorem decode_of_unknown {tag : UInt8} (h : Kind.ofTag? tag = none) :
    decode (tag :: b) = .error (.unknownTag tag) := by
  simp only [decode, decodeWith, h]

theorem decodeWith_of_fields_error {test : Nat → Nat → Bool} {k : Kind} {e : DecodeError}
    (h : Reader.fields test k rest = .error e) : decodeWith test (k.tag :: rest) = .error e := by
  simp only [decodeWith, Kind.ofTag?_tag, h]

theorem decode_of_fields_error {k : Kind} {e : DecodeError}
    (h : Reader.fields countFits k rest = .error e) : decode (k.tag :: rest) = .error e :=
  decodeWith_of_fields_error h

/-- Octets after a message are counted. -/
theorem decode_encode_append {m : Message} {extra : Octets} (fits : m.Encodable)
    (more : extra ≠ []) : decode (m.encode ++ extra) = .error (.trailing extra.length) := by
  obtain ⟨x, later, rfl⟩ := List.exists_cons_of_ne_nil more
  simp only [encode, List.cons_append, decode, decodeWith, Kind.ofTag?_tag,
    Reader.fields_encodeFields fits]

theorem encode_eq_of_fields {k : Kind} {m : Message}
    (h : Reader.fields countFits k b = .ok (m, rest)) :
    m.Encodable ∧ k.tag :: b = m.encode ++ rest := by
  obtain ⟨rfl, fits, rfl⟩ := Reader.fields_eq_ok h
  exact ⟨fits, rfl⟩

/-- The message at the front of a frame is what its fields are read as. -/
theorem fields_of_encode_prefix {k : Kind} {m : Message} (fits : m.Encodable)
    (h : m.encode <+: k.tag :: b) :
    ∃ extra, Reader.fields countFits k b = .ok (m, extra) := by
  obtain ⟨extra, same⟩ := h
  rw [encode, List.cons_append, List.cons.injEq] at same
  obtain ⟨tags, rfl⟩ := same
  obtain rfl := Kind.tag_injective tags
  exact ⟨extra, Reader.fields_encodeFields fits extra⟩

/-- **Every verdict is right.** -/
theorem judged (f : Octets) : Judged f (decode f) := by
  rcases f with _ | ⟨tag, b⟩
  · exact .empty
  cases announced : Kind.ofTag? tag with
  | none =>
      rw [decode_of_unknown announced]
      refine .unknown fun k same => ?_
      rw [same, Kind.ofTag?_tag] at announced
      cases announced
  | some k =>
      obtain rfl := Kind.ofTag?_eq_some_iff.1 announced
      cases read : Reader.fields countFits k b with
      | ok found =>
          obtain ⟨m, extra⟩ := found
          obtain ⟨fits, same⟩ := encode_eq_of_fields read
          rw [same]
          by_cases more : extra = []
          · subst more
            rw [List.append_nil, decode_encode fits]
            exact .message fits
          · rw [decode_encode_append fits more]
            exact .trailing fits more
      | error e =>
          rw [decode_of_fields_error read]
          rcases Reader.fields_eq_error read with rfl | rfl
          · exact .invalid (Reader.fields_eq_invalidText_iff.1 read)
          · refine .short ?_ ?_
            · intro spoilt
              rw [Reader.fields_eq_invalidText_iff.2 spoilt] at read
              cases read
            · intro m fits begins
              obtain ⟨extra, found⟩ := fields_of_encode_prefix fits begins
              rw [found] at read
              cases read

/-- A frame has one verdict. -/
theorem Judged.decode_eq {f : Octets} {v : Except DecodeError Message} (h : Judged f v) :
    decode f = v := by
  cases h with
  | empty => rfl
  | unknown strange =>
      refine decode_of_unknown (Option.eq_none_iff_forall_ne_some.2 fun k announced => ?_)
      exact strange k (Kind.ofTag?_eq_some_iff.1 announced)
  | message fits => exact decode_encode fits
  | trailing fits more => exact decode_encode_append fits more
  | invalid spoilt => exact decode_of_fields_error (Reader.fields_eq_invalidText_iff.2 spoilt)
  | @short k b sound unfinished =>
      cases read : Reader.fields countFits k b with
      | ok found =>
          obtain ⟨fits, same⟩ := encode_eq_of_fields read
          exact absurd ⟨_, same.symm⟩ (unfinished _ fits)
      | error e =>
          rcases Reader.fields_eq_error read with rfl | rfl
          · exact absurd (Reader.fields_eq_invalidText_iff.1 read) sound
          · exact decode_of_fields_error read

theorem decode_eq_iff {f : Octets} {v : Except DecodeError Message} :
    decode f = v ↔ Judged f v := by
  constructor
  · rintro rfl
    exact judged f
  · exact Judged.decode_eq

/-- **The beginning of a frame has ended too early.** -/
theorem decode_of_beginning {f : Octets} {m : Message} (fits : m.Encodable)
    (begins : f <+: m.encode) (nonempty : f ≠ []) (proper : f ≠ m.encode) :
    decode f = .error .unexpectedEnd := by
  obtain ⟨more, whole⟩ := begins
  obtain ⟨tag, b, rfl⟩ := List.exists_cons_of_ne_nil nonempty
  rw [encode, List.cons_append, List.cons.injEq] at whole
  obtain ⟨rfl, fields⟩ := whole
  have read := Reader.fields_encodeFields fits []
  rw [List.append_nil, ← fields] at read
  refine decode_of_fields_error ?_
  rcases Reader.steadfast_fields m.kind b more with short | same
  · exact short
  · -- What is read from the beginning leaves nothing, so nothing is missing from it.
    rw [read] at same
    cases early : Reader.fields countFits m.kind b with
    | error e =>
        rw [early] at same
        cases same
    | ok found =>
        obtain ⟨m', rest⟩ := found
        rw [early] at same
        simp only [Except.map, Except.ok.injEq, Prod.mk.injEq, List.nil_eq,
          List.append_eq_nil_iff] at same
        obtain ⟨-, -, rfl⟩ := same
        refine absurd ?_ proper
        rw [encode, ← fields, List.append_nil]

/-! ### Several frames -/

/-- **A frame says itself where it ends.** -/
theorem encode_append_inj {m n : Message} {b c : Octets} (hm : m.Encodable) (hn : n.Encodable)
    (h : m.encode ++ b = n.encode ++ c) : m = n ∧ b = c := by
  obtain ⟨extra, read⟩ := fields_of_encode_prefix (b := n.encodeFields ++ c) hm ⟨b, h⟩
  rw [Reader.fields_encodeFields hn] at read
  cases read
  exact ⟨rfl, List.append_cancel_left h⟩

/-- **Frames one after the other can be told apart.** -/
theorem flatMap_encode_inj {ms ns : List Message} (hm : ∀ m ∈ ms, m.Encodable)
    (hn : ∀ n ∈ ns, n.Encodable) (h : ms.flatMap encode = ns.flatMap encode) : ms = ns := by
  induction ms generalizing ns with
  | nil =>
      cases ns with
      | nil => rfl
      | cons n ns => cases h
  | cons m ms ih =>
      cases ns with
      | nil => cases h
      | cons n ns =>
          rw [List.forall_mem_cons] at hm hn
          obtain ⟨rfl, rest⟩ := encode_append_inj hm.1 hn.1 h
          rw [ih hm.2 hn.2 rest]

end Message

/-- What an encoder was given is written after what it had written before. -/
theorem Encoder.written_foldl_push (e : Encoder) (ms : List Message) :
    (ms.foldl push e).written = e.written ++ ms.flatMap Message.encode := by
  induction ms generalizing e with
  | nil => exact (List.append_nil _).symm
  | cons m ms ih => simp [ih]

namespace Message

/-- **Why a frame does not decode.**  Every beginning of a frame but the empty one has ended too
early, and octets after a frame are counted.  Conversely each error has one cause: only the empty
frame is reported as empty; a first octet is unknown exactly if it is no kind's tag; octets are left
over exactly behind a whole message, and as many as reported; a text is reported as none exactly if
one that lies wholly inside the frame, as the first octet lays it out, is no encoding of a text; and
a frame has ended too early exactly if none of this is so and it has no message at its front.  So
what one encoder was given can be read off what it wrote. -/
theorem decode_errors_exact :
    (∀ m : Message, m.Encodable → ∀ f, f <+: m.encode → f ≠ [] → f ≠ m.encode →
      decode f = .error .unexpectedEnd) ∧
    (∀ m : Message, m.Encodable → ∀ extra ≠ [],
      decode (m.encode ++ extra) = .error (.trailing extra.length)) ∧
    (∀ f, decode f = .error .emptyFrame ↔ f = []) ∧
    (∀ f b, decode f = .error (.unknownTag b) ↔ f.head? = some b ∧ ∀ k : Kind, b ≠ k.tag) ∧
    (∀ f t, decode f = .error (.trailing t) ↔
      1 ≤ t ∧ ∃ (m : Message) (extra : Octets), m.Encodable ∧ f = m.encode ++ extra ∧
        extra.length = t) ∧
    (∀ f, decode f = .error .invalidText ↔
      ∃ (k : Kind) (rest raw : Octets), f = k.tag :: rest ∧ HoldsText k.layout rest raw ∧
        encodeBlob raw <:+: rest ∧ ∀ s, raw ≠ Octets.ofText s) ∧
    (∀ f, decode f = .error .unexpectedEnd ↔
      ∃ (k : Kind) (rest : Octets), f = k.tag :: rest ∧
        (∀ raw, HoldsText k.layout rest raw → ∃ s, raw = Octets.ofText s) ∧
        ∀ m : Message, m.Encodable → ¬ m.encode <+: f) ∧
    ∀ (e : Encoder) (ms ns : List Message), (∀ m ∈ ms, m.Encodable) → (∀ n ∈ ns, n.Encodable) →
      (ms.foldl Encoder.push e).written = (ns.foldl Encoder.push e).written → ms = ns := by
  refine ⟨fun m fits f => decode_of_beginning fits, fun m fits extra => decode_encode_append fits,
    fun f => ?_, fun f b => ?_, fun f t => ?_, fun f => ?_, fun f => ?_, ?_⟩
  · rw [decode_eq_iff]
    constructor
    · intro verdict
      cases verdict
      rfl
    · rintro rfl
      exact .empty
  · rw [decode_eq_iff]
    constructor
    · intro verdict
      cases verdict with
      | unknown strange => exact ⟨rfl, strange⟩
    · rintro ⟨first, strange⟩
      obtain ⟨rest, rfl⟩ := List.head?_eq_some_iff.1 first
      exact .unknown strange
  · rw [decode_eq_iff]
    constructor
    · intro verdict
      cases verdict with
      | trailing fits more => exact ⟨List.length_pos_iff.2 more, _, _, fits, rfl, rfl⟩
    · rintro ⟨some, m, extra, fits, rfl, rfl⟩
      exact .trailing fits (List.length_pos_iff.1 some)
  · simp only [← Octets.text?_eq_none_iff]
    rw [decode_eq_iff]
    constructor
    · intro verdict
      cases verdict with
      | invalid spoilt =>
          obtain ⟨raw, holds, none⟩ := spoilt
          exact ⟨_, _, raw, rfl, holds, holds.isInfix, none⟩
    · rintro ⟨k, rest, raw, rfl, holds, -, none⟩
      exact .invalid ⟨raw, holds, none⟩
  · rw [decode_eq_iff]
    constructor
    · intro verdict
      cases verdict with
      | short sound unfinished =>
          exact ⟨_, _, rfl, not_spoilt_iff.1 sound, unfinished⟩
    · rintro ⟨k, rest, rfl, sound, unfinished⟩
      exact .short (not_spoilt_iff.2 sound) unfinished
  · intro e ms ns hm hn same
    rw [Encoder.written_foldl_push, Encoder.written_foldl_push, List.append_cancel_left_eq] at same
    exact flatMap_encode_inj hm hn same

end Message

end Rendezvous
