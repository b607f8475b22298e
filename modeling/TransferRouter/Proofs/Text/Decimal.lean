import TransferRouter.Text.Decimal

/-!
Decimal numerals. Reading accepts the digits of a number below the limit, with or without a plus
sign before them and with any number of zeros in front, and nothing else. What is printed for a
number is one of its numerals.
-/

namespace TransferRouter.Decimal

/-- One ASCII digit or more, with the number that they spell. -/
structure Digits (cs : List Char) (n : Nat) : Prop where
  ne_nil : cs ≠ []
  isDigit : ∀ c ∈ cs, c.isDigit = true
  value : Nat.ofDigitChars 10 cs 0 = n

/-- Digits after at most one plus sign. -/
inductive Numeral : List Char → Nat → Prop
  | plain {cs : List Char} {n : Nat} (h : Digits cs n) : Numeral cs n
  | signed {cs : List Char} {n : Nat} (h : Digits cs n) : Numeral ('+' :: cs) n

variable {c : Char} {cs : List Char} {n limit acc : Nat}

/-! ## Digits -/

theorem isDigit_iff : c.isDigit = true ↔ 48 ≤ c.toNat ∧ c.toNat ≤ 57 := by
  simp only [Char.isDigit, Bool.and_eq_true, decide_eq_true_eq]
  rfl

theorem value?_eq_some_iff {d : Nat} :
    value? c = some d ↔ c.isDigit = true ∧ d = c.toNat - '0'.toNat := by
  rw [isDigit_iff]
  unfold value?
  by_cases h : 48 ≤ c.toNat ∧ c.toNat ≤ 57
  · rw [if_pos h, Option.some.injEq, and_iff_right h]
    exact eq_comm
  · rw [if_neg h]
    exact iff_of_false nofun fun hdigit => h hdigit.1

theorem value?_eq_none_iff : value? c = none ↔ c.isDigit = false := by
  rw [Option.eq_none_iff_forall_ne_some, Bool.eq_false_iff]
  constructor
  · intro h hdigit
    exact h _ (value?_eq_some_iff.2 ⟨hdigit, rfl⟩)
  · intro h d hd
    exact h (value?_eq_some_iff.1 hd).1

theorem isDigit_plus : '+'.isDigit = false := rfl

theorem isDigit_colon : ':'.isDigit = false := rfl

/-- More digits make no smaller number. -/
theorem le_ofDigitChars (cs : List Char) (acc : Nat) : acc ≤ Nat.ofDigitChars 10 cs acc := by
  induction cs generalizing acc with
  | nil => exact Nat.le_refl _
  | cons c cs ih =>
    rw [Nat.ofDigitChars_cons]
    refine Nat.le_trans ?_ (ih _)
    omega

/-- Reading stops at the first digit that makes the number too large, and then no digits that follow
make it smaller again. -/
theorem readDigits_eq_ok (hacc : acc < limit) : readDigits limit acc cs = .ok n ↔
    (∀ c ∈ cs, c.isDigit = true) ∧ Nat.ofDigitChars 10 cs acc = n ∧ n < limit := by
  induction cs generalizing acc with
  | nil =>
    rw [readDigits, Except.ok.injEq]
    constructor
    · rintro rfl
      exact ⟨fun _ h => absurd h List.not_mem_nil, rfl, hacc⟩
    · exact fun h => h.2.1
  | cons c cs ih =>
    rw [readDigits, List.forall_mem_cons, Nat.ofDigitChars_cons]
    cases hvalue : value? c with
    | none =>
      rw [value?_eq_none_iff] at hvalue
      refine iff_of_false nofun fun h => ?_
      rw [hvalue] at h
      exact Bool.noConfusion h.1.1
    | some d =>
      obtain ⟨hdigit, rfl⟩ := value?_eq_some_iff.1 hvalue
      simp only [hdigit, true_and, Nat.mul_comm acc 10]
      split
      next hlt => exact ih hlt
      next hge =>
        refine iff_of_false nofun fun ⟨_, hn, hlt⟩ => hge ?_
        exact Nat.lt_of_le_of_lt (hn ▸ le_ofDigitChars cs _) hlt

theorem readDigits_zero (hlimit : 0 < limit) (hcs : cs ≠ []) :
    readDigits limit 0 cs = .ok n ↔ Digits cs n ∧ n < limit := by
  rw [readDigits_eq_ok hlimit, ← and_assoc]
  exact and_congr_left' ⟨fun h => ⟨hcs, h.1, h.2⟩, fun h => ⟨h.isDigit, h.value⟩⟩

/-! ## Numerals -/

theorem Digits.not_mem (h : Digits cs n) (hc : c.isDigit = false) : c ∉ cs := fun hmem =>
  Bool.noConfusion (hc.symm.trans (h.isDigit c hmem))

theorem numeral_plus_iff : Numeral ('+' :: cs) n ↔ Digits cs n := by
  refine ⟨fun h => ?_, .signed⟩
  cases h with
  | plain h => exact absurd List.mem_cons_self (h.not_mem isDigit_plus)
  | signed h => exact h

theorem numeral_iff_digits (h : ∀ ds, cs ≠ '+' :: ds) : Numeral cs n ↔ Digits cs n := by
  refine ⟨fun hcs => ?_, .plain⟩
  cases hcs with
  | plain hcs => exact hcs
  | signed hcs => exact absurd rfl (h _)

theorem Numeral.colon_not_mem (h : Numeral cs n) : ':' ∉ cs := by
  cases h with
  | plain h => exact h.not_mem isDigit_colon
  | signed h =>
    rw [List.mem_cons]
    exact not_or.2 ⟨by decide, h.not_mem isDigit_colon⟩

/-- A number is read from its numerals, if it is below the limit, and from nothing else. -/
theorem read_eq_ok (hlimit : 0 < limit) : read limit cs = .ok n ↔ Numeral cs n ∧ n < limit := by
  unfold read
  split
  next =>
    have hunsigned : ∀ ds, [] ≠ '+' :: ds := fun _ => nofun
    rw [numeral_iff_digits hunsigned]
    exact iff_of_false nofun fun h => h.1.ne_nil rfl
  next =>
    rw [numeral_plus_iff]
    exact iff_of_false nofun fun h => h.1.ne_nil rfl
  next cs hcs =>
    rw [numeral_plus_iff]
    exact readDigits_zero hlimit fun h => hcs (h ▸ rfl)
  next hne hplus hsigned =>
    rw [numeral_iff_digits hsigned]
    exact readDigits_zero hlimit hne

theorem numeral_print (n : Nat) : Numeral (print n).toList n := by
  rw [print, String.toList_ofList]
  have hdigits : ∀ c ∈ Nat.toDigits 10 n, c.isDigit = true := fun _ =>
    Nat.isDigit_of_mem_toDigits (by decide) (by decide)
  exact .plain ⟨Nat.toDigits_ne_nil, hdigits, Nat.ofDigitChars_ten_toDigits⟩

end TransferRouter.Decimal
