import TransferRouter.Bytes.Hex
import TransferRouter.Proofs.Text.Utf8

/-!
Hexadecimal text. Bytes are read from two digits each, of either case and mixed as one likes, and
from nothing else. Characters beyond ASCII cannot pass as digits, since none of their bytes is one.
-/

namespace TransferRouter.Hex

/-- A digit of either case, with its value. -/
def Digit (c : Char) (n : Nat) : Prop := n < 16 ∧ (c = digit n ∨ c = (digit n).toUpper)

instance (c : Char) (n : Nat) : Decidable (Digit c n) := inferInstanceAs (Decidable (_ ∧ _))

/-- Characters that are two digits for each byte, the higher one first. -/
inductive Spells : List Char → Bytes → Prop
  | nil : Spells [] []
  | cons {c d : Char} {m n : Nat} {cs : List Char} {s : Bytes} (hc : Digit c m) (hd : Digit d n)
      (h : Spells cs s) : Spells (c :: d :: cs) (UInt8.ofNat (16 * m + n) :: s)

variable {c : Char} {cs : List Char} {n : Nat} {s : Bytes}

/-! ## Digits -/

/-- A character that is ASCII, is read with a value, is lowered to what is written for it, and is
not the second one of a mark. -/
structure Legible (c : Char) (n : Nat) : Prop where
  ascii : c.toNat < 0x80
  value : value? (UInt8.ofNat c.toNat) = some n
  toLower : c.toLower = digit n
  ne_x : c ≠ 'x'

instance (c : Char) (n : Nat) : Decidable (Legible c n) :=
  decidable_of_iff (_ ∧ _ ∧ _ ∧ _) ⟨fun h => ⟨h.1, h.2.1, h.2.2.1, h.2.2.2⟩,
    fun h => ⟨h.ascii, h.value, h.toLower, h.ne_x⟩⟩

private theorem legible_digit : ∀ n < 16,
    Legible (digit n) n ∧ Legible (digit n).toUpper n := by
  decide +kernel

private theorem digit_of_value : ∀ k < 0x80, ∀ n ∈ value? (UInt8.ofNat k),
    Digit (Char.ofNat k) n := by
  decide +kernel

theorem Digit.legible (h : Digit c n) : Legible c n := by
  obtain ⟨hn, rfl | rfl⟩ := h
  · exact (legible_digit n hn).1
  · exact (legible_digit n hn).2

theorem Digit.unique {m : Nat} (h : Digit c m) (h' : Digit c n) : m = n :=
  Option.some.inj (h.legible.value.symm.trans h'.legible.value)

theorem digit_digit (h : n < 16) : Digit (digit n) n := ⟨h, .inl rfl⟩

theorem value?_of_le {b : UInt8} (h : 0x80 ≤ b.toNat) : value? b = none := by
  unfold value?
  dsimp only
  rw [if_neg (by omega), if_neg (by omega), if_neg (by omega)]

/-- A digit is one byte. -/
theorem Digit.encodeChars (h : Digit c n) :
    Utf8.encodeChars (c :: cs) = UInt8.ofNat c.toNat :: Utf8.encodeChars cs := by
  rw [Utf8.encodeChars_cons]
  rcases Utf8.encodeChar_ascii_or c with ⟨-, hchar⟩ | ⟨hc, -⟩
  · rw [hchar]
    rfl
  · exact absurd h.legible.ascii (Nat.not_lt.2 hc)

/-- The first byte of another character is no digit either. -/
theorem refused_of_not_digit (cs : List Char) (h : ∀ n, ¬ Digit c n) :
    ∃ b s, Utf8.encodeChars (c :: cs) = b :: s ∧ value? b = none := by
  rw [Utf8.encodeChars_cons]
  rcases Utf8.encodeChar_ascii_or c with ⟨hc, hchar⟩ | ⟨-, b, s, hchar, hb⟩
  · rw [hchar]
    refine ⟨_, _, rfl, Option.eq_none_iff_forall_ne_some.2 fun n hvalue => h n ?_⟩
    have hdigit := digit_of_value c.toNat hc n hvalue
    rwa [Char.ofNat_toNat] at hdigit
  · rw [hchar]
    exact ⟨_, _, rfl, value?_of_le hb⟩

/-! ## Pairs of digits -/

namespace Spells

theorem length_eq (h : Spells cs s) : cs.length = 2 * s.length := by
  induction h with
  | nil => rfl
  | cons _ _ _ ih =>
    simp only [List.length_cons, ih]
    omega

theorem digit_of_mem (h : Spells cs s) : ∀ c ∈ cs, ∃ n, Digit c n := by
  induction h with
  | nil => exact fun _ hc => absurd hc List.not_mem_nil
  | cons hc hd _ ih => exact List.forall_mem_cons.2 ⟨⟨_, hc⟩, List.forall_mem_cons.2 ⟨⟨_, hd⟩, ih⟩⟩

theorem x_not_mem (h : Spells cs s) : 'x' ∉ cs := by
  intro hmem
  obtain ⟨n, hdigit⟩ := h.digit_of_mem 'x' hmem
  exact hdigit.legible.ne_x rfl

theorem exists_of_digits (hcs : ∀ c ∈ cs, ∃ n, Digit c n) {k : Nat} (hlength : cs.length = 2 * k) :
    ∃ s, Spells cs s := by
  induction k generalizing cs with
  | zero =>
    obtain rfl := List.length_eq_zero_iff.1 hlength
    exact ⟨[], .nil⟩
  | succ k ih =>
    match cs with
    | [] => exact absurd hlength.symm (Nat.succ_ne_zero _)
    | [c] =>
      rw [List.length_singleton] at hlength
      omega
    | c :: d :: cs =>
      obtain ⟨⟨m, hc⟩, hcs⟩ := List.forall_mem_cons.1 hcs
      obtain ⟨⟨n, hd⟩, hcs⟩ := List.forall_mem_cons.1 hcs
      obtain ⟨s, hs⟩ := ih hcs (by simp only [List.length_cons] at hlength; omega)
      exact ⟨_, .cons hc hd hs⟩

private theorem toNat_pair {m n : Nat} (hm : m < 16) (hn : n < 16) :
    (UInt8.ofNat (16 * m + n)).toNat = 16 * m + n := by
  rw [UInt8.toNat_ofNat']
  omega

/-- What is written for the bytes is the text in lower case. -/
theorem map_toLower (h : Spells cs s) : cs.map Char.toLower = digits s := by
  induction h with
  | nil => rfl
  | @cons c d m n cs s hc hd _ ih =>
    have hbyte := toNat_pair hc.1 hd.1
    change _ = digit (_ / 16) :: digit (_ % 16) :: digits s
    rw [hbyte, List.map_cons, List.map_cons, hc.legible.toLower, hd.legible.toLower, ih]
    have hn := hd.1
    rw [show (16 * m + n) / 16 = m by omega, show (16 * m + n) % 16 = n by omega]

theorem of_digits (s : Bytes) : Spells (digits s) s := by
  induction s with
  | nil => exact .nil
  | cons b s ih =>
    have hb := b.toNat_lt
    have hpair := Spells.cons (digit_digit (n := b.toNat / 16) (by omega))
      (digit_digit (n := b.toNat % 16) (by omega)) ih
    rwa [Nat.div_add_mod, UInt8.ofNat_toNat] at hpair

theorem cons_iff {d : Char} {m : Nat} (hc : Digit c m) (hd : Digit d n) :
    Spells (c :: d :: cs) s ↔ ∃ rest, Spells cs rest ∧ s = UInt8.ofNat (16 * m + n) :: rest := by
  constructor
  · intro h
    cases h with
    | cons hc' hd' h =>
      rw [hc.unique hc', hd.unique hd']
      exact ⟨_, h, rfl⟩
  · rintro ⟨rest, h, rfl⟩
    exact .cons hc hd h

end Spells

theorem length_encodeChars (h : Spells cs s) : (Utf8.encodeChars cs).length = 2 * s.length := by
  induction h with
  | nil => rfl
  | cons hc hd _ ih =>
    rw [hc.encodeChars, hd.encodeChars]
    simp only [List.length_cons, ih]
    omega

/-! ## Decoding -/

section

variable {d : Char} {m : Nat} (index : Nat) (acc : Bytes)

theorem decodePairs_pair (hc : Digit c m) (hd : Digit d n) :
    decodePairs index acc (Utf8.encodeChars (c :: d :: cs)) =
      decodePairs (index + 2) (UInt8.ofNat (16 * m + n) :: acc) (Utf8.encodeChars cs) := by
  rw [hc.encodeChars, hd.encodeChars, decodePairs, hc.legible.value, hd.legible.value]

theorem decodePairs_single (hc : Digit c m) :
    decodePairs index acc (Utf8.encodeChars [c]) = .error .oddLength := by
  rw [hc.encodeChars]
  rfl

theorem decodePairs_first (hc : ∀ n, ¬ Digit c n) :
    ∃ fault, decodePairs index acc (Utf8.encodeChars (c :: cs)) = .error fault := by
  obtain ⟨b, s, hbytes, hnone⟩ := refused_of_not_digit cs hc
  rw [hbytes]
  cases s with
  | nil => exact ⟨_, rfl⟩
  | cons a s =>
    rw [decodePairs, hnone]
    exact ⟨_, rfl⟩

theorem decodePairs_second (hc : Digit c m) (hd : ∀ n, ¬ Digit d n) :
    ∃ fault, decodePairs index acc (Utf8.encodeChars (c :: d :: cs)) = .error fault := by
  obtain ⟨b, s, hbytes, hnone⟩ := refused_of_not_digit cs hd
  rw [hc.encodeChars, hbytes, decodePairs, hc.legible.value, hnone]
  exact ⟨_, rfl⟩

end

/-- Pairs of digits are read from the left, and what is no digit stops the reading wherever it
stands. -/
theorem decodePairs_eq_ok : ∀ (cs : List Char) (index : Nat) (acc r : Bytes),
    decodePairs index acc (Utf8.encodeChars cs) = .ok r ↔ ∃ s, Spells cs s ∧ r = acc.reverse ++ s
  | [], index, acc, r => by
    constructor
    · intro h
      obtain rfl := Except.ok.inj h
      exact ⟨[], .nil, (List.append_nil _).symm⟩
    · rintro ⟨s, hs, rfl⟩
      cases hs
      rw [List.append_nil]
      rfl
  | [c], index, acc, r => by
    have herror : ∃ fault, decodePairs index acc (Utf8.encodeChars [c]) = .error fault := by
      by_cases hc : ∃ m, Digit c m
      · exact ⟨_, decodePairs_single index acc hc.choose_spec⟩
      · exact decodePairs_first index acc (not_exists.1 hc)
    obtain ⟨fault, herror⟩ := herror
    rw [herror]
    exact iff_of_false nofun fun ⟨s, hs, _⟩ => nomatch hs
  | c :: d :: cs, index, acc, r => by
    by_cases hdigits : (∃ m, Digit c m) ∧ ∃ n, Digit d n
    · obtain ⟨⟨m, hc⟩, n, hd⟩ := hdigits
      rw [decodePairs_pair index acc hc hd, decodePairs_eq_ok cs]
      simp only [Spells.cons_iff hc hd, List.reverse_cons, List.append_assoc]
      constructor
      · rintro ⟨s, hs, rfl⟩
        exact ⟨_, ⟨s, hs, rfl⟩, rfl⟩
      · rintro ⟨_, ⟨s, hs, rfl⟩, rfl⟩
        exact ⟨s, hs, rfl⟩
    · have herror : ∃ fault,
          decodePairs index acc (Utf8.encodeChars (c :: d :: cs)) = .error fault := by
        by_cases hc : ∃ m, Digit c m
        · exact decodePairs_second index acc hc.choose_spec
            (not_exists.1 fun hd => hdigits ⟨hc, hd⟩)
        · exact decodePairs_first index acc (not_exists.1 hc)
      obtain ⟨fault, herror⟩ := herror
      rw [herror]
      refine iff_of_false nofun fun ⟨s, hs, _⟩ => hdigits ⟨?_, ?_⟩
      · exact hs.digit_of_mem c List.mem_cons_self
      · exact hs.digit_of_mem d (List.mem_cons_of_mem _ List.mem_cons_self)

/-- Bytes are decoded from the characters that spell them and from no others. -/
theorem decode_eq_ok : decode (Utf8.encodeChars cs) = .ok s ↔ Spells cs s := by
  have hpairs := decodePairs_eq_ok cs 0 [] s
  simp only [List.reverse_nil, List.nil_append, exists_eq_right'] at hpairs
  unfold decode
  split
  next => exact hpairs
  next hodd =>
    refine iff_of_false nofun fun h => hodd ?_
    rw [length_encodeChars h]
    omega

end TransferRouter.Hex
