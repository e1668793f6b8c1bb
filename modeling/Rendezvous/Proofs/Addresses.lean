import Mathlib.Data.List.TakeWhile
import Rendezvous.Net.Address
import Rendezvous.Proofs.Numerals

/-!
# Addresses are read back

Every address is read back from its written form, and so is every address with a port and a scope.
The forms differ a good deal: an address of version 6 is written in full, with its longest run of
zeros left out, or with an address of version 4 in it, and it is read group by group without
knowing which of these it is.  The reader goes on as long as it can, and wherever two groups are
left it tries an address of version 4 first.

So each form is read back under a condition on what follows.  An address of version 4 ends where no
digit comes; groups end where there is neither a digit nor a colon with a digit behind it, and no
dot, which would make the last group a part of an address of version 4.  Two colons end the groups
in front of them, and brackets, scopes and the end of a text end all others.

An address by itself is never taken for one with a port, or the other way round: one of version 4
leaves the colon of the port over, and one of version 6 stands in brackets exactly if there is a
port.

## Main Definitions

* `Ipv6.Halts` — no group comes next
* `Ipv6.separatedChars` — groups as they are read
* `isAddressChar` — the characters of written addresses

## Main Statements

* `Ipv4.read_chars`, `Ipv6.read_chars` — a printed address is read back, whatever follows
* `IpAddress.ofText?_text`, `SocketAddress.ofText?_text` — whole texts
* `SocketAddress.ofText?_eq_none_or` — no text is an address both with a port and by itself
-/

namespace Rendezvous.Net

variable {c : Char} {cs rest : List Char}

/-! ### Forms of numbers -/

theorem ample_octet : octetNumeral.Ample :=
  ⟨by decide, by decide, by simp [octetNumeral]⟩

theorem ample_group : groupNumeral.Ample :=
  ⟨by decide, by decide, by simp [groupNumeral]⟩

theorem ample_port : portNumeral.Ample :=
  ⟨by decide, by decide, by simp [portNumeral]⟩

theorem ample_scope : scopeNumeral.Ample :=
  ⟨by decide, by decide, by simp [scopeNumeral]⟩

@[simp] theorem expect_cons (c : Char) (rest : List Char) : expect c (c :: rest) = some rest := by
  simp [expect]

theorem expect_eq_some_iff : expect c cs = some rest ↔ cs = c :: rest := by
  cases cs with
  | nil => simp [expect]
  | cons d cs => simp [expect, eq_comm]

/-! ### Addresses of version 4 -/

/-- **A printed address of version 4 is read back** where no digit follows. -/
theorem Ipv4.read_chars (ip : Ipv4) (ends : Ends 10 rest) :
    Ipv4.read (ip.chars ++ rest) = some (ip, rest) := by
  have part (x : UInt8) {rest : List Char} (ends : Ends 10 rest) :
      octetNumeral.read (octetNumeral.digits x.toNat ++ rest) = some (x.toNat, rest) :=
    ample_octet.read_digits x.toNat_lt ends
  have dot (rest : List Char) : Ends 10 ('.' :: rest) := ends_cons_iff.2 (by decide)
  simp [Ipv4.chars, Ipv4.read, part _ (dot _), part _ ends]

/-- An address of version 4 has a dot behind its first number. -/
theorem Ipv4.dot_of_read {ip : Ipv4} (taken : Ipv4.read cs = some (ip, rest)) :
    (cs.dropWhile (isDigitIn 10)).head? = some '.' := by
  simp only [Ipv4.read, Option.bind_eq_bind, Option.bind_eq_some_iff] at taken
  obtain ⟨⟨a, after⟩, first, dotted, dot, -⟩ := taken
  have front : after = cs.dropWhile (isDigitIn 10) := Numeral.rest_of_read first
  have next : after = '.' :: dotted := expect_eq_some_iff.1 dot
  rw [← front, next]
  rfl

/-- Without a digit there is no address of version 4. -/
theorem Ipv4.read_eq_none (ends : Ends 10 cs) : Ipv4.read cs = none := by
  simp [Ipv4.read, Numeral.read_eq_none (f := octetNumeral) ends]

/-! ### Groups of an address of version 6 -/

namespace Ipv6

variable {g : UInt16} {gs : List UInt16} {limit : Nat} {first : Bool}

/-- A group is not taken for the front of an address of version 4, where no dot follows. -/
theorem ipv4Read_digits (ends : Ends 16 rest) (noDot : rest.head? ≠ some '.') :
    Ipv4.read (groupNumeral.digits g.toNat ++ rest) = none := by
  refine Option.eq_none_iff_forall_ne_some.2 fun ⟨ip, _⟩ taken => ?_
  have dot := Ipv4.dot_of_read taken
  rw [List.dropWhile_append, (ends.mono (by decide)).dropWhile_eq_self] at dot
  cases left : (groupNumeral.digits g.toNat).dropWhile (isDigitIn 10) with
  | nil => exact noDot (by simpa [left] using dot)
  | cons c cs =>
      -- What is left of the group begins with one of its digits, which cannot be the dot.
      have mem : c ∈ groupNumeral.digits g.toNat :=
        (List.dropWhile_sublist _).subset (left ▸ List.mem_cons_self)
      have digit := (ample_group.spells g.toNat).isDigitIn_of_mem (by decide) c mem
      obtain rfl : c = '.' := by simpa [left] using dot
      exact absurd digit (by decide)

/-- **No group comes next**: neither a digit, nor a colon and a digit.  A dot would make the group
in front of it a part of an address of version 4. -/
structure Halts (rest : List Char) : Prop where
  ends : Ends 16 rest
  noDot : rest.head? ≠ some '.'
  last : ∀ more, rest = ':' :: more → Ends 16 more

theorem halts_nil : Halts [] := ⟨by simp, by simp, by simp⟩

theorem halts_cons (noDigit : isDigitIn 16 c = false) (noDot : c ≠ '.') (noColon : c ≠ ':') :
    Halts (c :: rest) :=
  ⟨by simpa using noDigit, by simpa using noDot, by simp [noColon]⟩

/-- No group comes where zeros are left out. -/
theorem halts_colons : Halts (':' :: ':' :: rest) where
  ends := ends_cons_iff.2 (by decide)
  noDot := by simp
  last more same := by
    obtain ⟨-, rfl⟩ := List.cons.inj same
    exact ends_cons_iff.2 (by decide)

/-- Nothing that begins with a digit is read where no group comes. -/
theorem Halts.separated_eq_none {α : Type} {r : Reader α} (halts : Halts rest)
    (digits : ∀ cs, Ends 16 cs → r cs = none) : separated first r rest = none := by
  unfold separated
  split
  · exact digits rest halts.ends
  · refine Option.bind_eq_none_iff.2 fun more colon => digits more ?_
    exact halts.last more (expect_eq_some_iff.1 colon)

theorem Halts.readGroups_eq_nil (halts : Halts rest) :
    readGroups limit first rest = ([], false, rest) := by
  cases limit with
  | zero => rfl
  | succ limit =>
      have noV4 : separated first Ipv4.read rest = none :=
        halts.separated_eq_none fun cs ends => Ipv4.read_eq_none (ends.mono (by decide))
      have noGroup : separated first groupNumeral.read rest = none :=
        halts.separated_eq_none fun cs ends => Numeral.read_eq_none ends
      simp [readGroups, noV4, noGroup]

/-- Groups as they are read: a colon is in front of each, but not of the first of all. -/
def separatedChars : Bool → List UInt16 → List Char
  | _, [] => []
  | first, g :: gs =>
    (if first then [] else [':']) ++ (groupNumeral.digits g.toNat ++ separatedChars false gs)

theorem groupChars_eq_separatedChars (gs : List UInt16) :
    groupChars gs = separatedChars true gs := by
  match gs with
  | [] => rfl
  | [g] => simp [groupChars, separatedChars]
  | g :: h :: gs => simp [groupChars, groupChars_eq_separatedChars (h :: gs), separatedChars]

@[simp] theorem separated_colon {α : Type} (first : Bool) (r : Reader α) (cs : List Char) :
    separated first r ((if first then [] else [':']) ++ cs) = r cs := by
  cases first <;> simp [separated]

/-- A group ends where others come, and then none. -/
theorem Halts.separatedChars_append (halts : Halts rest) (gs : List UInt16) :
    Ends 16 (separatedChars false gs ++ rest) ∧
      (separatedChars false gs ++ rest).head? ≠ some '.' := by
  cases gs with
  | nil => exact ⟨halts.ends, halts.noDot⟩
  | cons g gs => exact ⟨ends_cons_iff.2 (by decide), by simp [separatedChars]⟩

/-- A printed group is taken where it ends, and reading goes on behind it. -/
theorem readGroups_digits (ends : Ends 16 rest) (noDot : rest.head? ≠ some '.') :
    readGroups (limit + 1) first
        ((if first then [] else [':']) ++ (groupNumeral.digits g.toNat ++ rest)) =
      (g :: (readGroups limit false rest).1, (readGroups limit false rest).2) := by
  have group := ample_group.read_digits g.toNat_lt ends
  simp [readGroups, ipv4Read_digits ends noDot, group]

/-- **Printed groups are read back** where no other group comes. -/
theorem readGroups_separatedChars (halts : Halts rest) (few : gs.length ≤ limit) :
    readGroups limit first (separatedChars first gs ++ rest) = (gs, false, rest) := by
  induction gs generalizing limit first with
  | nil => exact halts.readGroups_eq_nil
  | cons g gs ih =>
      obtain ⟨limit, rfl⟩ := Nat.exists_eq_add_of_le' (Nat.le_trans (Nat.le_add_left 1 _) few)
      obtain ⟨ends, noDot⟩ := halts.separatedChars_append gs
      rw [separatedChars, List.append_assoc, List.append_assoc, readGroups_digits ends noDot,
        ih (Nat.le_of_succ_le_succ few)]

theorem readGroups_groupChars (halts : Halts rest) (few : gs.length ≤ limit) :
    readGroups limit true (groupChars gs ++ rest) = (gs, false, rest) := by
  rw [groupChars_eq_separatedChars]
  exact readGroups_separatedChars halts few

/-- Groups are not taken for an address of version 4. -/
theorem ipv4Read_groupChars (halts : Halts rest) : Ipv4.read (groupChars gs ++ rest) = none := by
  rw [groupChars_eq_separatedChars]
  cases gs with
  | nil => exact Ipv4.read_eq_none (halts.ends.mono (by decide))
  | cons g gs =>
      obtain ⟨ends, noDot⟩ := halts.separatedChars_append gs
      rw [separatedChars, List.append_assoc, List.append_assoc]
      exact ipv4Read_digits ends noDot

/-! ### Addresses of version 6 -/

variable {ip : Ipv6} {head tail : List UInt16} {v4 : Bool} {more : List Char}

theorem ofGroups?_eq_some (whole : ip.groups = gs) : ofGroups? gs = some ip := by
  subst whole
  exact dif_pos ip.length_eq

/-- Eight groups are an address. -/
theorem read_of_groups (front : readGroups 8 true cs = (ip.groups, v4, rest)) :
    read cs = some (ip, rest) := by
  have address : ofGroups? ip.groups = some ip := ofGroups?_eq_some rfl
  simp [read, front, ip.length_eq, address]

/-- Groups in front of two colons and behind them are an address, with zeros in between. -/
theorem read_of_colons (front : readGroups 8 true cs = (head, false, ':' :: ':' :: more))
    (back : readGroups (7 - head.length) true more = (tail, v4, rest)) (short : head.length < 8)
    (whole : ip.groups = head ++ (List.replicate (8 - head.length - tail.length) 0 ++ tail)) :
    read cs = some (ip, rest) := by
  simp [read, front, back, Nat.ne_of_lt short, ofGroups?_eq_some whole]

/-- A group is made of its two halves. -/
theorem halves (x : UInt16) : (x >>> 8).toUInt8.toUInt16 * 256 + x.toUInt8.toUInt16 = x := by
  apply UInt16.toNat_inj.1
  have small := x.toNat_lt
  simp only [UInt16.toUInt16_toUInt8, UInt16.toNat_add, UInt16.toNat_mul, UInt16.toNat_mod,
    UInt16.toNat_shiftRight, UInt16.reduceToNat, Nat.reduceMod, Nat.shiftRight_eq_div_pow,
    Nat.reducePow, Nat.mod_add_mod]
  omega

theorem groups_of_embedded? {inner : Ipv4} (embeds : ip.embedded? = some inner) :
    ip.groups = List.replicate 5 0 ++ 0xffff :: inner.groups := by
  unfold embedded? at embeds
  split at embeds
  · cases embeds
    simp only [Ipv4.groups, halves]
    assumption
  · cases embeds

/-- **What may be left out is a run of zeros.** -/
theorem longestZeros_spec (i : Nat) (gs : List UInt16) :
    ∃ before after, (longestZeros i gs).1 = i + before.length ∧
      gs = before ++ List.replicate (longestZeros i gs).2 0 ++ after := by
  induction gs generalizing i with
  | nil => exact ⟨[], [], by simp [longestZeros]⟩
  | cons g gs ih =>
      obtain ⟨before, after, start, whole⟩ := ih (i + 1)
      simp only [longestZeros]
      split
      · have zeros : (g :: gs).takeWhile (fun x => x == 0) =
            List.replicate ((g :: gs).takeWhile fun x => x == 0).length 0 :=
          List.eq_replicate_iff.2 ⟨rfl, fun x mem => by simpa using List.mem_takeWhile_imp mem⟩
        refine ⟨[], (g :: gs).dropWhile fun x => x == 0, rfl, ?_⟩
        rw [← zeros, List.nil_append, List.takeWhile_append_dropWhile]
      · refine ⟨g :: before, after, by simp [start]; omega, ?_⟩
        rw [List.cons_append, List.cons_append, ← whole]

/-- An address with another in it is read back: five zeros are left out, and the last group that is
written as one has the other behind it. -/
theorem read_embedded {inner : Ipv4} (embeds : ip.embedded? = some inner) (ends : Ends 10 rest) :
    read ("::ffff:".toList ++ inner.chars ++ rest) = some (ip, rest) := by
  have last : readGroups 6 false (':' :: (inner.chars ++ rest)) = (inner.groups, true, rest) := by
    simp [readGroups, separated, inner.read_chars ends]
  have back : readGroups 7 true ("ffff:".toList ++ (inner.chars ++ rest)) =
      (0xffff :: inner.groups, true, rest) := by
    have colon : Ends 16 (':' :: (inner.chars ++ rest)) := ends_cons_iff.2 (by decide)
    refine (readGroups_digits (g := 0xffff) colon (by simp)).trans ?_
    rw [last]
  exact read_of_colons halts_colons.readGroups_eq_nil back (by decide) (groups_of_embedded? embeds)

/-- **A printed address of version 6 is read back** where no group comes. -/
theorem read_chars (ip : Ipv6) (halts : Halts rest) :
    read (ip.chars ++ rest) = some (ip, rest) := by
  unfold chars
  cases embeds : ip.embedded? with
  | some inner => exact read_embedded embeds (halts.ends.mono (by decide))
  | none =>
      obtain ⟨before, after, start, whole⟩ := longestZeros_spec 0 ip.groups
      have eight := ip.length_eq
      dsimp only
      generalize longestZeros 0 ip.groups = run at start whole ⊢
      obtain ⟨_, length⟩ := run
      obtain rfl : _ = before.length := start.trans (Nat.zero_add _)
      split
      · have front : ip.groups.take before.length = before := by simp [whole]
        have back : ip.groups.drop (before.length + length) = after := by simp [whole]
        have sum : before.length + (length + after.length) = 8 := by simpa [whole] using eight
        rw [front, back, List.append_assoc]
        refine read_of_colons (readGroups_groupChars halts_colons (by omega))
          (readGroups_groupChars halts (by omega)) (by omega) ?_
        rw [whole, List.append_assoc, show 8 - before.length - after.length = length by omega]
      · exact read_of_groups (readGroups_groupChars halts (by omega))

/-- A printed address of version 6 is not taken for one of version 4. -/
theorem ipv4Read_chars (ip : Ipv6) (halts : Halts rest) : Ipv4.read (ip.chars ++ rest) = none := by
  unfold chars
  split
  · exact Ipv4.read_eq_none (ends_cons_iff.2 (by decide))
  · dsimp only
    split
    · rw [List.append_assoc]
      exact ipv4Read_groupChars halts_colons
    · exact ipv4Read_groupChars halts

end Ipv6

/-! ### Whole texts -/

theorem readAll_eq_some_iff {α : Type} {r : Reader α} {s : String} {x : α} :
    readAll r s = some x ↔ r s.toList = some (x, []) := by
  unfold readAll
  split
  · simp_all
  · exact iff_of_false (by simp) fun read => by simp_all

/-- **A printed address is read back.** -/
theorem IpAddress.ofText?_text (ip : IpAddress) : ofText? ip.text = some ip := by
  cases ip with
  | v4 ip =>
      have whole := ip.read_chars ends_nil
      rw [List.append_nil] at whole
      exact readAll_eq_some_iff.2 (by simp [read, text, whole])
  | v6 ip =>
      have noV4 := ip.ipv4Read_chars Ipv6.halts_nil
      have whole := ip.read_chars Ipv6.halts_nil
      rw [List.append_nil] at noV4 whole
      exact readAll_eq_some_iff.2 (by simp [read, text, noV4, whole])

namespace SocketAddress

theorem readPort_digits (port : UInt16) :
    readPort (':' :: portNumeral.digits port.toNat) = some (port, []) := by
  have whole := ample_port.read_digits port.toNat_lt ends_nil
  rw [List.append_nil] at whole
  simp [readPort, whole]

/-- What is written for a scope. -/
def zoneChars (scope : UInt32) : List Char :=
  if scope = 0 then [] else '%' :: scopeNumeral.digits scope.toNat

theorem chars_v6 (ip : Ipv6) (port : UInt16) (scope : UInt32) :
    (v6 ip port scope).chars = '[' ::
      (ip.chars ++ (zoneChars scope ++ ']' :: ':' :: portNumeral.digits port.toNat)) := by
  simp [chars, zoneChars]

theorem readScope_zoneChars (scope : UInt32) :
    readScope (zoneChars scope ++ ']' :: rest) = (scope, ']' :: rest) := by
  unfold zoneChars
  split
  · simp_all [readScope, expect]
  · have ends : Ends 10 (']' :: rest) := ends_cons_iff.2 (by decide)
    have whole := ample_scope.read_digits scope.toNat_lt ends
    simp [readScope, whole]

theorem halts_zoneChars (scope : UInt32) (rest : List Char) :
    Ipv6.Halts (zoneChars scope ++ ']' :: rest) := by
  unfold zoneChars
  split
  · exact Ipv6.halts_cons (by decide) (by decide) (by decide)
  · exact Ipv6.halts_cons (by decide) (by decide) (by decide)

theorem read_chars (a : SocketAddress) : read a.chars = some (a, []) := by
  cases a with
  | v4 ip port =>
      have colon : Ends 10 (':' :: portNumeral.digits port.toNat) := ends_cons_iff.2 (by decide)
      have front := ip.read_chars colon
      simp [read, readV4, chars, front, readPort_digits]
  | v6 ip port scope =>
      have noV4 : readV4 (v6 ip port scope).chars = none := by
        have bracket : Ipv4.read (v6 ip port scope).chars = none :=
          Ipv4.read_eq_none (ends_cons_iff.2 (by decide))
        simp [readV4, bracket]
      have front := ip.read_chars (halts_zoneChars scope (':' :: portNumeral.digits port.toNat))
      rw [read, noV4, Option.none_or, chars_v6]
      simp [readV6, front, readScope_zoneChars, readPort_digits]

/-- **A printed address with a port is read back.** -/
theorem ofText?_text (a : SocketAddress) : ofText? a.text = some a :=
  readAll_eq_some_iff.2 (by simpa [text] using a.read_chars)

/-- Of two runs of zeros that are as long as each other, the first is left out. -/
example : (v6 ⟨[0xfe80, 0, 0, 0, 1, 0, 0, 0], rfl⟩ 80 3).text = "[fe80::1:0:0:0%3]:80" := by
  decide +kernel

/-- What stands in brackets is no address by itself. -/
theorem ipRead_bracket (more : List Char) : IpAddress.read ('[' :: more) = none := by
  have noV4 : Ipv4.read ('[' :: more) = none := Ipv4.read_eq_none (ends_cons_iff.2 (by decide))
  have halts : Ipv6.Halts ('[' :: more) := Ipv6.halts_cons (by decide) (by decide) (by decide)
  have noV6 : Ipv6.read ('[' :: more) = none := by
    simp [Ipv6.read, halts.readGroups_eq_nil, expect]
  simp [IpAddress.read, noV4, noV6]

/-- Where there is an address with a port, an address by itself leaves something over. -/
theorem rest_ne_nil_of_read {a : SocketAddress} {ip : IpAddress} {left : List Char}
    (withPort : read cs = some (a, left)) (alone : IpAddress.read cs = some (ip, rest)) :
    rest ≠ [] := by
  rintro rfl
  rcases Option.or_eq_some_iff.1 withPort with v4 | ⟨-, v6⟩
  · simp only [readV4, Option.bind_eq_bind, Option.bind_eq_some_iff] at v4
    obtain ⟨⟨inner, after⟩, front, ⟨port, left⟩, back, -⟩ := v4
    have nothing : after = [] := by
      simpa [IpAddress.read, front] using congrArg (Option.map Prod.snd) alone
    rw [nothing] at back
    cases back
  · simp only [readV6, Option.bind_eq_bind, Option.bind_eq_some_iff] at v6
    obtain ⟨more, bracket, -⟩ := v6
    rw [expect_eq_some_iff.1 bracket, ipRead_bracket] at alone
    cases alone

/-- **No text is an address both with a port and by itself.** -/
theorem ofText?_eq_none_or (s : String) : ofText? s = none ∨ IpAddress.ofText? s = none := by
  cases withPort : ofText? s with
  | none => exact .inl rfl
  | some a =>
      refine .inr (Option.eq_none_iff_forall_ne_some.2 fun ip alone => ?_)
      exact rest_ne_nil_of_read (readAll_eq_some_iff.1 withPort) (readAll_eq_some_iff.1 alone) rfl

end SocketAddress

/-! ### Characters -/

/-- **The characters of written addresses**: digits, and what stands between numbers. -/
def isAddressChar (c : Char) : Bool := isDigitIn 16 c || ['.', ':', '[', ']', '%'].contains c

theorem Numeral.Ample.all_digits {f : Numeral} (ample : f.Ample) (n : Nat) :
    (f.digits n).all isAddressChar = true := by
  refine List.all_eq_true.2 fun c mem => ?_
  have digit := isDigitIn_mono ample.few ((ample.spells n).isDigitIn_of_mem ample.few c mem)
  simp [isAddressChar, digit]

theorem Ipv4.all_chars (ip : Ipv4) : ip.chars.all isAddressChar = true := by
  simp +decide [Ipv4.chars, ample_octet.all_digits]

namespace Ipv6

theorem all_separatedChars (first : Bool) (gs : List UInt16) :
    (separatedChars first gs).all isAddressChar = true := by
  induction gs generalizing first with
  | nil => rfl
  | cons g gs ih => cases first <;> simp +decide [separatedChars, ample_group.all_digits, ih]

theorem all_groupChars (gs : List UInt16) : (groupChars gs).all isAddressChar = true := by
  rw [groupChars_eq_separatedChars]
  exact all_separatedChars true gs

theorem all_chars (ip : Ipv6) : ip.chars.all isAddressChar = true := by
  unfold chars
  split
  · rename_i inner _
    simp +decide [inner.all_chars]
  · dsimp only
    split <;> simp +decide [all_groupChars]

end Ipv6

theorem IpAddress.all_text (ip : IpAddress) : ip.text.toList.all isAddressChar = true := by
  cases ip with
  | v4 ip => simpa [text] using ip.all_chars
  | v6 ip => simpa [text] using ip.all_chars

theorem SocketAddress.all_text (a : SocketAddress) : a.text.toList.all isAddressChar = true := by
  have port (p : UInt16) := ample_port.all_digits p.toNat
  cases a with
  | v4 ip p => simp +decide [text, chars, ip.all_chars, port]
  | v6 ip p scope =>
      have zone : (zoneChars scope).all isAddressChar = true := by
        unfold zoneChars
        split
        · rfl
        · simp +decide [ample_scope.all_digits]
      simp +decide [text, chars_v6, ip.all_chars, port, zone]

end Rendezvous.Net
