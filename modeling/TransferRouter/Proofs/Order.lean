import TransferRouter.Order

/-!
The tests of order agree with `<`: for characters and bytes, for lists of what agrees, and so for
byte strings and for text, which is in the order of its code points. What is listed in strictly
ascending order has one order only.
-/

namespace TransferRouter

namespace StrictOrder

variable {α : Type}

theorem before_nil [StrictOrder α] (s : List α) : before s [] = false := by
  cases s <;> rfl

theorem before_cons_self [StrictOrder α] (a : α) (s t : List α) :
    before (a :: s) (a :: t) = before s t := by
  change (before a a || (!before a a && before s t)) = _
  simp [irrefl]

theorem before_char {a b : Char} : before a b = true ↔ a < b := decide_eq_true_iff

theorem listBefore_iff [StrictOrder α] [LT α] (h : ∀ {a b : α}, before a b = true ↔ a < b)
    {s t : List α} : listBefore s t = true ↔ s < t := by
  induction s generalizing t with
  | nil => cases t <;> simp [listBefore]
  | cons a s ih =>
    cases t with
    | nil => simp [listBefore]
    | cons b t =>
      rw [listBefore, Bool.or_eq_true, Bool.and_eq_true, Bool.not_eq_true', ih, h,
        List.cons_lt_cons_iff]
      constructor
      · rintro (hab | ⟨hba, hst⟩)
        · exact .inl hab
        · cases hab : before a b with
          | true => exact .inl (h.1 hab)
          | false => exact .inr ⟨connex hab hba, hst⟩
      · rintro (hab | ⟨rfl, hst⟩)
        · exact .inl hab
        · exact .inr ⟨irrefl a, hst⟩

theorem before_string {s t : String} : before s t = true ↔ s < t :=
  (listBefore_iff before_char).trans String.lt_iff.symm

theorem before_byte {a b : UInt8} : before a b = true ↔ a < b :=
  decide_eq_true_iff.trans UInt8.lt_iff_toNat_lt.symm

theorem before_bytes {s t : List UInt8} : before s t = true ↔ s < t :=
  listBefore_iff before_byte

end StrictOrder

open StrictOrder

/-- A list in strictly ascending order of a key is told by its members. -/
theorem eq_of_ascending {α κ : Type} [StrictOrder κ] {key : α → κ} {xs ys : List α}
    (hx : xs.Pairwise fun a b => before (key a) (key b) = true)
    (hy : ys.Pairwise fun a b => before (key a) (key b) = true) (h : ∀ a, a ∈ xs ↔ a ∈ ys) :
    xs = ys := by
  have hne : ∀ {a b : α}, before (key a) (key b) = true → a ≠ b :=
    fun hab heq => ne_of_before hab (congrArg key heq)
  have hperm : xs.Perm ys := (List.perm_ext_iff_of_nodup (hx.imp hne) (hy.imp hne)).2 h
  refine hperm.eq_of_pairwise (fun a b _ _ hab hba => ?_) hx hy
  rw [asymm hab] at hba
  exact Bool.noConfusion hba

end TransferRouter
