/-!
Strict total orders given by a test. Lists are ordered lexicographically, pairs by their first part
and then by their second, text by its code points (which is the order of its UTF-8 bytes).
-/

namespace TransferRouter

/-- A decidable strict total order. -/
class StrictOrder (κ : Type) where
  before : κ → κ → Bool
  irrefl (a : κ) : before a a = false
  trans {a b c : κ} : before a b = true → before b c = true → before a c = true
  connex {a b : κ} : before a b = false → before b a = false → a = b

namespace StrictOrder

variable {α β : Type}

theorem asymm [StrictOrder α] {a b : α} (h : before a b = true) : before b a = false := by
  cases hba : before b a with
  | false => rfl
  | true => simpa [irrefl] using trans h hba

theorem ne_of_before [StrictOrder α] {a b : α} (h : before a b = true) : a ≠ b := by
  rintro rfl
  simp [irrefl] at h

/-- The order of a type whose values are told apart by a number. -/
@[reducible] def ofNumber (rank : α → Nat) (rank_inj : ∀ a b, rank a = rank b → a = b) :
    StrictOrder α where
  before a b := decide (rank a < rank b)
  irrefl a := by simp
  trans := by simp only [decide_eq_true_eq]; omega
  connex := by
    simp only [decide_eq_false_iff_not]
    intro a b h h'
    exact rank_inj a b (by omega)

instance : StrictOrder Nat := ofNumber id fun _ _ h => h

instance : StrictOrder UInt8 := ofNumber UInt8.toNat fun _ _ => UInt8.toNat_inj.1

instance : StrictOrder Char := ofNumber Char.toNat fun _ _ h => Char.ext (UInt32.toNat_inj.1 h)

/-- Lexicographic order on lists: a proper initial part comes first. -/
def listBefore [StrictOrder α] : List α → List α → Bool
  | _, [] => false
  | [], _ :: _ => true
  | a :: s, b :: t => before a b || (!before b a && listBefore s t)

theorem listBefore_irrefl [StrictOrder α] (s : List α) : listBefore s s = false := by
  induction s with
  | nil => rfl
  | cons a s ih => simp [listBefore, irrefl, ih]

theorem listBefore_trans [StrictOrder α] {r s t : List α} (h : listBefore r s = true)
    (h' : listBefore s t = true) : listBefore r t = true := by
  induction r generalizing s t with
  | nil => cases s <;> cases t <;> simp_all [listBefore]
  | cons a r ih =>
    match s, t with
    | [], _ => simp [listBefore] at h
    | _ :: _, [] => simp [listBefore] at h'
    | b :: s, c :: t =>
      simp only [listBefore, Bool.or_eq_true, Bool.and_eq_true, Bool.not_eq_true'] at h h' ⊢
      rcases h with h | ⟨hba, h⟩ <;> rcases h' with h' | ⟨hcb, h'⟩
      · exact .inl (trans h h')
      · refine .inl ?_
        cases hbc : before b c with
        | true => exact trans h hbc
        | false => rw [← connex hbc hcb]; exact h
      · refine .inl ?_
        cases hab : before a b with
        | true => exact trans hab h'
        | false => rw [connex hab hba]; exact h'
      · cases hac : before a c with
        | true => exact .inl rfl
        | false =>
          refine .inr ⟨?_, ih h h'⟩
          cases hca : before c a with
          | false => rfl
          | true =>
            cases hab : before a b with
            | true => exact absurd (trans hca hab) (by simp [hcb])
            | false =>
              have hab' := connex hab hba
              subst hab'
              exact absurd hca (by simp [hcb])

theorem listBefore_connex [StrictOrder α] {s t : List α} (h : listBefore s t = false)
    (h' : listBefore t s = false) : s = t := by
  induction s generalizing t with
  | nil => cases t <;> simp_all [listBefore]
  | cons a s ih =>
    match t with
    | [] => simp [listBefore] at h'
    | b :: t =>
      simp only [listBefore, Bool.or_eq_false_iff, Bool.and_eq_false_iff,
        Bool.not_eq_false'] at h h'
      have hab := connex h.1 h'.1
      subst hab
      simp only [irrefl, Bool.false_eq_true, false_or, true_and] at h h'
      rw [ih h h']

instance [StrictOrder α] : StrictOrder (List α) where
  before := listBefore
  irrefl := listBefore_irrefl
  trans := listBefore_trans
  connex := listBefore_connex

instance [StrictOrder α] [StrictOrder β] : StrictOrder (α × β) where
  before p q := before p.1 q.1 || (!before q.1 p.1 && before p.2 q.2)
  irrefl p := by simp [irrefl]
  trans := by
    rintro ⟨a, x⟩ ⟨b, y⟩ ⟨c, z⟩ h h'
    simp only [Bool.or_eq_true, Bool.and_eq_true, Bool.not_eq_true'] at h h' ⊢
    rcases h with h | ⟨hba, h⟩ <;> rcases h' with h' | ⟨hcb, h'⟩
    · exact .inl (trans h h')
    · cases hbc : before b c with
      | true => exact .inl (trans h hbc)
      | false => rw [← connex hbc hcb]; exact .inl h
    · cases hab : before a b with
      | true => exact .inl (trans hab h')
      | false => rw [connex hab hba]; exact .inl h'
    · cases hab : before a b with
      | true =>
        cases hbc : before b c with
        | true => exact .inl (trans hab hbc)
        | false => rw [← connex hbc hcb]; exact .inl hab
      | false =>
        have hab' := connex hab hba
        subst hab'
        exact .inr ⟨hcb, trans h h'⟩
  connex := by
    rintro ⟨a, x⟩ ⟨b, y⟩ h h'
    simp only [Bool.or_eq_false_iff, Bool.and_eq_false_iff, Bool.not_eq_false'] at h h'
    have hab := connex h.1 h'.1
    subst hab
    simp only [irrefl, Bool.false_eq_true, false_or, true_and] at h h'
    rw [connex h h']

/-- The order of a type whose values are told apart by a part of an ordered type. -/
@[reducible] def via [StrictOrder β] (key : α → β) (key_inj : ∀ a b, key a = key b → a = b) :
    StrictOrder α where
  before a b := before (key a) (key b)
  irrefl a := irrefl (key a)
  trans := fun h h' => trans (a := key _) (b := key _) h h'
  connex := fun h h' => key_inj _ _ (connex h h')

instance : StrictOrder String := via String.toList fun _ _ => String.toList_inj.1

/-- Sorts a list; equal elements are all kept. -/
def sort [StrictOrder α] (xs : List α) : List α :=
  xs.mergeSort fun a b => !before b a

end StrictOrder

end TransferRouter
