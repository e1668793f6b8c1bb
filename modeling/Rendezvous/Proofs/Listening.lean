import Mathlib.Data.List.Infix
import Rendezvous.Net.BindAddress
import Rendezvous.Proofs.Addresses

/-!
# What an operator may write

Every address that is printed is taken for itself by whoever asks to listen on it: with a port as
it is, and without one at the default port.  The name "localhost" may stand wherever the loopback
could, and nothing but that is written out: neither is anything else of a text touched, nor does
the name come up again once it has been written out.

A text is tried as an address with a port first and as an address by itself after that.  Since no
text is both, the order does not matter.

The name is looked for from the front, and the search goes on behind it.  It could not be found
anywhere else: no end of the name is a beginning of it, so two places where it stands do not
overlap, and a text falls into pieces without it in one way only.

## Main Definitions

* `WrittenOut` — a text with every "localhost" written out

## Main Statements

* `writtenOut_iff` — what writing out comes to
* `not_infix_withLocalhostChars` — nothing is left to write out
* `bindAddress_eq_ok_iff` — which texts are accepted
* `addresses_read_back` — every address is read back, with or without a port, and writing out
  "localhost" by hand makes no difference
-/

namespace Rendezvous.Net

/-- **A text with every "localhost" written out**: the pieces without it stay as they are. -/
def WrittenOut (s t : String) : Prop :=
  ∃ pieces : List String, (∀ p ∈ pieces, ¬ "localhost".toList <:+: p.toList) ∧
    s = "localhost".intercalate pieces ∧ t = "127.0.0.1".intercalate pieces

variable {c : Char} {cs rest p q : List Char} {pieces : List (List Char)}

/-! ### Where the name stands -/

@[simp] theorem withLocalhostChars_nil : withLocalhostChars [] = [] := by
  rw [withLocalhostChars]

theorem withLocalhostChars_localhost (rest : List Char) :
    withLocalhostChars (localhostChars ++ rest) = loopbackChars ++ withLocalhostChars rest := by
  have there : localhostChars <+: 'l' :: ("ocalhost".toList ++ rest) := ⟨rest, rfl⟩
  calc withLocalhostChars (localhostChars ++ rest)
      = withLocalhostChars ('l' :: ("ocalhost".toList ++ rest)) := rfl
    _ = loopbackChars ++ withLocalhostChars
          (('l' :: ("ocalhost".toList ++ rest)).drop localhostChars.length) := by
        rw [withLocalhostChars, if_pos there]
    _ = loopbackChars ++ withLocalhostChars rest := rfl

theorem withLocalhostChars_cons (other : ¬ localhostChars <+: c :: rest) :
    withLocalhostChars (c :: rest) = c :: withLocalhostChars rest := by
  rw [withLocalhostChars, if_neg other]

/-- **No end of the name is a beginning of it**, but for all of it and nothing. -/
theorem localhost_border (begins : q <+: localhostChars) (ends : q <:+ localhostChars) :
    q = localhostChars ∨ q = [] := by
  have each : ∀ q ∈ localhostChars.tails, q <+: localhostChars → q = localhostChars ∨ q = [] := by
    decide
  exact each q ((List.mem_tails q localhostChars).2 ends) begins

/-- The name does not begin in a piece without it and end behind that piece. -/
theorem not_prefix_append (free : ¬ localhostChars <:+: c :: p)
    (next : rest = [] ∨ localhostChars <+: rest) : ¬ localhostChars <+: c :: (p ++ rest) := by
  rintro ⟨more, same⟩
  rw [← List.cons_append] at same
  rcases List.append_eq_append_iff.1 same with ⟨back, whole, -⟩ | ⟨back, whole, after⟩
  · exact free ⟨[], back, whole.symm⟩
  · -- The name would reach into what follows, which begins with the name as well.
    have ends : back <:+ localhostChars := ⟨c :: p, whole.symm⟩
    have begins : back <+: localhostChars := by
      rcases next with none | there
      · obtain ⟨rfl, -⟩ := List.append_eq_nil_iff.1 (after.symm.trans none)
        exact List.nil_prefix
      · exact List.prefix_of_prefix_length_le ⟨more, after.symm⟩ there ends.length_le
    rcases localhost_border begins ends with all | nothing
    · have sizes := congrArg List.length whole
      rw [all, List.length_append, List.length_cons] at sizes
      omega
    · exact free ⟨[], [], by simp [whole, nothing]⟩

/-- **A piece without the name stays as it is**, at the end or in front of the name. -/
theorem withLocalhostChars_append (free : ¬ localhostChars <:+: p)
    (next : rest = [] ∨ localhostChars <+: rest) :
    withLocalhostChars (p ++ rest) = p ++ withLocalhostChars rest := by
  induction p with
  | nil => rfl
  | cons c p ih =>
      have other : ¬ localhostChars <+: c :: (p ++ rest) := not_prefix_append free next
      rw [List.cons_append, withLocalhostChars_cons other, ih fun h => free (List.infix_cons h),
        List.cons_append]

/-- A text without the name stays as it is. -/
theorem withLocalhostChars_of_not_infix (free : ¬ localhostChars <:+: p) :
    withLocalhostChars p = p := by
  simpa using withLocalhostChars_append free (.inl rfl)

/-- Pieces without the name that are joined by it end up joined by the loopback. -/
theorem withLocalhostChars_intercalate (free : ∀ p ∈ pieces, ¬ localhostChars <:+: p) :
    withLocalhostChars (localhostChars.intercalate pieces) = loopbackChars.intercalate pieces := by
  induction pieces with
  | nil => exact withLocalhostChars_nil
  | cons p pieces ih =>
      obtain ⟨first, others⟩ := List.forall_mem_cons.1 free
      cases pieces with
      | nil =>
          rw [List.intercalate_singleton, List.intercalate_singleton,
            withLocalhostChars_of_not_infix first]
      | cons q pieces =>
          rw [List.intercalate_cons_cons, List.intercalate_cons_cons, List.append_assoc,
            withLocalhostChars_append first (.inr (List.prefix_append _ _)),
            withLocalhostChars_localhost, ih others, List.append_assoc]

/-! ### Pieces without the name -/

theorem intercalate_cons_head (c : Char) (sep p : List Char) (pieces : List (List Char)) :
    sep.intercalate ((c :: p) :: pieces) = c :: sep.intercalate (p :: pieces) := by
  cases pieces <;> rfl

theorem prefix_intercalate (sep p : List Char) (pieces : List (List Char)) :
    p <+: sep.intercalate (p :: pieces) := by
  cases pieces with
  | nil => rw [List.intercalate_singleton]
  | cons q pieces =>
      rw [List.intercalate_cons_cons, List.append_assoc]
      exact List.prefix_append _ _

/-- **Every text is made of pieces without the name**, joined by it. -/
theorem exists_pieces (cs : List Char) : ∃ p pieces,
    (∀ q ∈ p :: pieces, ¬ localhostChars <:+: q) ∧
      cs = localhostChars.intercalate (p :: pieces) := by
  fun_induction withLocalhostChars cs with
  | case1 => exact ⟨[], [], by decide, rfl⟩
  | case2 c rest there ih =>
      obtain ⟨p, pieces, free, whole⟩ := ih
      refine ⟨[], p :: pieces, List.forall_mem_cons.2 ⟨by decide, free⟩, ?_⟩
      rw [List.intercalate_cons_cons, ← whole, List.nil_append]
      exact (List.prefix_iff_eq_append.1 there).symm
  | case3 c rest other ih =>
      obtain ⟨p, pieces, free, whole⟩ := ih
      obtain ⟨first, others⟩ := List.forall_mem_cons.1 free
      refine ⟨c :: p, pieces, List.forall_mem_cons.2 ⟨fun there => ?_, others⟩, ?_⟩
      · rcases List.infix_cons_iff.1 there with front | later
        · have grows : c :: p <+: c :: rest :=
            List.cons_prefix_cons.2 ⟨rfl, whole ▸ prefix_intercalate localhostChars p pieces⟩
          exact other (front.trans grows)
        · exact first later
      · rw [intercalate_cons_head, ← whole]

/-- **There is one way to write out every "localhost"**, and it is taken. -/
theorem writtenOut_iff {s t : String} : WrittenOut s t ↔ t = withLocalhost s := by
  constructor
  · rintro ⟨pieces, free, rfl, rfl⟩
    have out := withLocalhostChars_intercalate (List.forall_mem_map.2 free)
    apply String.toList_injective
    rw [withLocalhost, String.toList_ofList, String.toList_intercalate, String.toList_intercalate]
    exact out.symm
  · rintro rfl
    obtain ⟨p, pieces, free, whole⟩ := exists_pieces s.toList
    have out := withLocalhostChars_intercalate free
    rw [← whole] at out
    have texts : ((p :: pieces).map String.ofList).map String.toList = p :: pieces := by simp
    have kept : ∀ q ∈ (p :: pieces).map String.ofList, ¬ localhostChars <:+: q.toList :=
      List.forall_mem_map.2 (by simpa using free)
    refine ⟨(p :: pieces).map String.ofList, kept, ?_, ?_⟩
    · apply String.toList_injective
      rw [String.toList_intercalate, texts]
      exact whole
    · apply String.toList_injective
      rw [withLocalhost, String.toList_ofList, String.toList_intercalate, texts]
      exact out

/-! ### Nothing is left -/

/-- What is written out begins like the text itself, or with a digit of the loopback. -/
theorem prefix_of_prefix_withLocalhostChars (noOne : '1' ∉ q)
    (front : q <+: withLocalhostChars cs) : q <+: cs := by
  fun_induction withLocalhostChars cs generalizing q with
  | case1 => exact front
  | case2 c rest there ih =>
      cases q with
      | nil => exact List.nil_prefix
      | cons d q =>
          have one : d = '1' := (List.cons_prefix_cons.1 front).1
          exact absurd one.symm (List.ne_of_not_mem_cons noOne)
  | case3 c rest other ih =>
      cases q with
      | nil => exact List.nil_prefix
      | cons d q =>
          obtain ⟨same, back⟩ := List.cons_prefix_cons.1 front
          exact List.cons_prefix_cons.2 ⟨same, ih (List.not_mem_of_not_mem_cons noOne) back⟩

theorem not_infix_of_notMem (noL : 'l' ∉ p) : ¬ localhostChars <:+: p := fun there =>
  noL (there.subset (by decide))

/-- The name does not begin where none of its first letters is. -/
theorem infix_of_infix_append (noL : 'l' ∉ p) (there : localhostChars <:+: p ++ rest) :
    localhostChars <:+: rest := by
  induction p with
  | nil => exact there
  | cons c p ih =>
      rcases List.infix_cons_iff.1 there with front | later
      · exact absurd (List.cons_prefix_cons.1 front).1 (List.ne_of_not_mem_cons noL)
      · exact ih (List.not_mem_of_not_mem_cons noL) later

/-- **Nothing is left to write out.** -/
theorem not_infix_withLocalhostChars (cs : List Char) :
    ¬ localhostChars <:+: withLocalhostChars cs := by
  fun_induction withLocalhostChars cs with
  | case1 => decide
  | case2 c rest there ih => exact fun left => ih (infix_of_infix_append (by decide) left)
  | case3 c rest other ih =>
      intro left
      rcases List.infix_cons_iff.1 left with front | later
      · rw [← withLocalhostChars_cons other] at front
        exact other (prefix_of_prefix_withLocalhostChars (by decide) front)
      · exact ih later

theorem withLocalhost_withLocalhost (s : String) :
    withLocalhost (withLocalhost s) = withLocalhost s := by
  have same := withLocalhostChars_of_not_infix (not_infix_withLocalhostChars s.toList)
  rw [withLocalhost, withLocalhost, String.toList_ofList, same]

/-- In a written address there is nothing to write out. -/
theorem withLocalhost_of_all {s : String} (all : s.toList.all isAddressChar = true) :
    withLocalhost s = s := by
  have noL : 'l' ∉ s.toList := fun mem => absurd (List.all_eq_true.1 all 'l' mem) (by decide)
  rw [withLocalhost, withLocalhostChars_of_not_infix (not_infix_of_notMem noL),
    String.ofList_toList]

/-! ### Addresses to listen on -/

/-- **What is accepted** is an address with a port, or an address by itself: since no text is both,
neither attempt hides the other. -/
theorem bindAddress_eq_ok_iff {s : String} {a : SocketAddress} :
    bindAddress s = .ok a ↔
      SocketAddress.ofText? (withLocalhost s) = some a ∨
        ∃ ip, IpAddress.ofText? (withLocalhost s) = some ip ∧ a = .ofIp ip Limits.defaultPort := by
  have never := SocketAddress.ofText?_eq_none_or (withLocalhost s)
  unfold bindAddress
  dsimp only
  cases withPort : SocketAddress.ofText? (withLocalhost s) with
  | some b =>
      have notAlone := never.resolve_left (by simp [withPort])
      simp [notAlone]
  | none =>
      cases alone : IpAddress.ofText? (withLocalhost s) with
      | some ip => simp [eq_comm]
      | none => simp

theorem bindAddress_socketText (a : SocketAddress) : bindAddress a.text = .ok a := by
  rw [bindAddress_eq_ok_iff, withLocalhost_of_all a.all_text]
  exact .inl a.ofText?_text

theorem bindAddress_ipText (ip : IpAddress) :
    bindAddress ip.text = .ok (.ofIp ip Limits.defaultPort) := by
  rw [bindAddress_eq_ok_iff, withLocalhost_of_all ip.all_text]
  exact .inr ⟨ip, ip.ofText?_text, rfl⟩

/-- **Every address is read back.**  What is printed for an address with a port is taken for that
address, and what is printed for an address by itself for that address at port 9001.  There is one
way to write out every "localhost" of a text, and the text that comes of it is taken for the same
address, if either is for any.  And no text is an address both with a port and by itself. -/
theorem addresses_read_back :
    (∀ a : SocketAddress, bindAddress a.text = .ok a) ∧
    (∀ ip : IpAddress, bindAddress ip.text = .ok (.ofIp ip 9001)) ∧
    (∀ s, (∀ t, WrittenOut s t ↔ t = withLocalhost s) ∧
      ∀ a, bindAddress s = .ok a ↔ bindAddress (withLocalhost s) = .ok a) ∧
    ∀ s, SocketAddress.ofText? s = none ∨ IpAddress.ofText? s = none := by
  refine ⟨bindAddress_socketText, bindAddress_ipText, fun s => ⟨fun _ => writtenOut_iff, ?_⟩,
    SocketAddress.ofText?_eq_none_or⟩
  intro a
  rw [bindAddress_eq_ok_iff, bindAddress_eq_ok_iff, withLocalhost_withLocalhost]

/-- The name may stand inside an address, too. -/
example : bindAddress "[::ffff:localhost]:81" =
    .ok (.v6 ⟨[0, 0, 0, 0, 0, 0xffff, 0x7f00, 1], rfl⟩ 81 0) := by
  decide +kernel

end Rendezvous.Net
