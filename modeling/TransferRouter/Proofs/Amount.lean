import TransferRouter.Amount
import TransferRouter.Text.Utf8

/-!
Amounts are read back from their written form. The written form has between 1 and 64 digits and no
blanks, so none of the special rules for blanks apply to it.
-/

namespace TransferRouter.Amount

open Utf8

/-- A written digit is one byte, which is no blank and reads as the digit. -/
private theorem encodeChar_digitChar {d : Nat} (h : d < 16) :
    ∃ b, encodeChar d.digitChar = [b] ∧ isBlank b = false ∧ Hex.value? b = some d := by
  have hall : ∀ d : Fin 16, ∃ b ∈ (encodeChar d.val.digitChar).head?,
      encodeChar d.val.digitChar = [b] ∧ isBlank b = false ∧ Hex.value? b = some d.val := by
    decide
  obtain ⟨b, _, hb⟩ := hall ⟨d, h⟩
  exact ⟨b, hb⟩

private theorem encodeChars_append (cs ds : List Char) :
    encodeChars (cs ++ ds) = encodeChars cs ++ encodeChars ds := List.flatMap_append

private theorem readDigits_append {i acc m : Nat} {s t : Bytes} (h : readDigits i acc s = .ok m) :
    readDigits i acc (s ++ t) = readDigits (i + s.length) m t := by
  induction s generalizing i acc with
  | nil => simp_all [readDigits]
  | cons b s ih =>
    have hlen : i + (b :: s).length = i + 1 + s.length := by simp; omega
    rw [hlen]
    simp only [readDigits, List.cons_append] at h ⊢
    split at h
    next hb => rw [if_pos hb]; exact ih h
    next hb =>
      rw [if_neg hb]
      cases hv : Hex.value? b with
      | none => simp [hv] at h
      | some d => exact ih (by simpa [hv] using h)

/-- What the digits of a number look like to a reader: they spell it, and no byte is a blank. -/
private theorem readDigits_toDigits (n i : Nat) :
    readDigits i 0 (encodeChars (Nat.toDigits 16 n)) = .ok n ∧
      (encodeChars (Nat.toDigits 16 n)).length = (Nat.toDigits 16 n).length ∧
      (encodeChars (Nat.toDigits 16 n)).countP isBlank = 0 := by
  induction n using Nat.strongRecOn generalizing i with
  | ind n ih =>
    obtain ⟨b, hb, hblank, hvalue⟩ := encodeChar_digitChar (Nat.mod_lt n (by decide : 0 < 16))
    have hlast : encodeChars [(n % 16).digitChar] = [b] := by simp [encodeChars, hb]
    rw [Nat.toDigits_eq_if (by decide)]
    split
    next h =>
      rw [Nat.mod_eq_of_lt h] at hlast hvalue
      simp [hlast, readDigits, hblank, hvalue]
    next h =>
      obtain ⟨hread, hlen, hcount⟩ := ih (n / 16) (by omega) i
      rw [encodeChars_append, hlast]
      refine ⟨?_, by simp [hlen], by simp [hcount, hblank]⟩
      rw [readDigits_append hread]
      simp [readDigits, hblank, hvalue]
      omega

theorem encode_write (a : Amount) :
    encode a.write = 48 :: 120 :: encodeChars (Nat.toDigits 16 a.toNat) := by
  simp only [write, encode, String.toList_ofList]
  rfl

private theorem length_digits (a : Amount) :
    0 < (Nat.toDigits 16 a.toNat).length ∧ (Nat.toDigits 16 a.toNat).length ≤ 64 := by
  refine ⟨Nat.length_toDigits_pos, (Nat.length_toDigits_le_iff (by decide) (by decide)).2 ?_⟩
  exact a.isLt

theorem read_write (a : Amount) : read (encode a.write) = .ok a := by
  obtain ⟨hread, hlen, hcount⟩ := readDigits_toDigits a.toNat 2
  have hlength := length_digits a
  rw [← hlen] at hlength
  rw [encode_write, read, readAfterMark, if_pos hlength, hread]
  simp [Except.bind, hcount, ofNat?, a.isLt]

theorem length_encode_write (a : Amount) : (encode a.write).length ≤ 66 := by
  obtain ⟨-, hlen, -⟩ := readDigits_toDigits a.toNat 2
  have hlength := length_digits a
  rw [encode_write]
  simp only [List.length_cons, hlen]
  omega

end TransferRouter.Amount
