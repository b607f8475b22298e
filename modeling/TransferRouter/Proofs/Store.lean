import TransferRouter.Store

/-!
What is under a key after a batch of writes, and what scans list. A listing is ascending, so walking
it to the first key that is past what was asked for finds all that was asked for.
-/

namespace TransferRouter

open StrictOrder

namespace OrderedMap

variable {κ ν : Type} [StrictOrder κ]

theorem get?_eq_some_iff {m : OrderedMap κ ν} {k : κ} {v : ν} :
    m.get? k = some v ↔ (k, v) ∈ m.entries := by
  obtain ⟨es, hes⟩ := m
  simp only [get?]
  induction es with
  | nil => simp
  | cons e es ih =>
    obtain ⟨hlt, hes⟩ := List.pairwise_cons.1 hes
    rw [List.find?_cons, List.mem_cons]
    cases he : sameKey e.1 k with
    | true =>
      have hk := sameKey_iff.1 he
      constructor
      · intro h
        exact .inl (Prod.ext hk.symm (Option.some.inj h).symm)
      · rintro (h | h)
        · exact congrArg (some ·.2) h.symm
        · exact absurd hk (ne_of_before (hlt _ h))
    | false =>
      have hne : (k, v) ≠ e := by
        rintro rfl
        rw [sameKey_iff.2 rfl] at he
        exact Bool.noConfusion he
      simpa [hne] using ih hes

theorem contains_iff {m : OrderedMap κ ν} {k : κ} :
    m.contains k = true ↔ ∃ v, m.get? k = some v :=
  Option.isSome_iff_exists

theorem contains_eq_false_iff {m : OrderedMap κ ν} {k : κ} :
    m.contains k = false ↔ m.get? k = none := by
  rw [contains, Option.isSome_eq_false_iff, Option.isNone_iff_eq_none]

end OrderedMap

namespace Write

/-- The key that a write is about. -/
def key : Write → Bytes
  | put key _ | delete key => key

def value : Write → Option Bytes
  | put _ value => some value
  | delete _ => none

end Write

namespace Bytes

/-- What starts with a byte has it in front. -/
theorem head?_of_isPrefixOf {front : UInt8} {start key : Bytes}
    (h : (front :: start).isPrefixOf key = true) : key.head? = some front := by
  obtain ⟨rest, rfl⟩ := List.isPrefixOf_iff_prefix.1 h
  rfl

theorem isPrefixOf_singleton {front : UInt8} {key : Bytes} :
    [front].isPrefixOf key = true ↔ key.head? = some front := by
  refine ⟨head?_of_isPrefixOf, fun h => ?_⟩
  obtain ⟨rest, rfl⟩ := List.head?_eq_some_iff.1 h
  simp [List.isPrefixOf]

end Bytes

namespace Store

/-! ## Batches -/

theorem get?_apply (s : Store) (w : Write) (key : Bytes) :
    (s.apply w).get? key = if w.key = key then w.value else s.get? key := by
  cases w with
  | put k v =>
    by_cases h : k = key
    · subst h
      exact (s.get?_insert_self k v).trans (if_pos rfl).symm
    · exact (OrderedMap.get?_insert_ne h).trans (if_neg h).symm
  | delete k =>
    by_cases h : k = key
    · subst h
      exact (s.get?_erase_self k).trans (if_pos rfl).symm
    · exact (OrderedMap.get?_erase_ne h).trans (if_neg h).symm

theorem applyAll_nil (s : Store) : s.applyAll [] = s := rfl

theorem applyAll_cons (s : Store) (w : Write) (batch : List Write) :
    s.applyAll (w :: batch) = (s.apply w).applyAll batch := rfl

/-- A key that no write is about keeps what is under it. -/
theorem get?_applyAll_of_forall_ne {s : Store} {batch : List Write} {key : Bytes}
    (h : ∀ w ∈ batch, w.key ≠ key) : (s.applyAll batch).get? key = s.get? key := by
  induction batch generalizing s with
  | nil => rfl
  | cons w batch ih =>
    rw [applyAll_cons, ih fun w' hw' => h w' (List.mem_cons_of_mem _ hw'), get?_apply,
      if_neg (h w List.mem_cons_self)]

/-- What is not there is not there after writes that do not put it there. -/
theorem get?_applyAll_of_absent {s : Store} {batch : List Write} {key : Bytes}
    (hs : s.get? key = none) (h : ∀ w ∈ batch, w.key = key → w.value = none) :
    (s.applyAll batch).get? key = none := by
  induction batch generalizing s with
  | nil => exact hs
  | cons w batch ih =>
    refine ih ?_ fun w' hw' => h w' (List.mem_cons_of_mem _ hw')
    rw [get?_apply]
    by_cases hkey : w.key = key
    · rw [if_pos hkey, h w List.mem_cons_self hkey]
    · rw [if_neg hkey, hs]

/-- What the only write about a key puts there is there afterwards. -/
theorem get?_applyAll_of_mem {s : Store} {batch : List Write} {key value : Bytes}
    (hmem : .put key value ∈ batch) (honly : ∀ w ∈ batch, w.key = key → w = .put key value) :
    (s.applyAll batch).get? key = some value := by
  induction batch generalizing s with
  | nil => exact absurd hmem List.not_mem_nil
  | cons w batch ih =>
    have honly' : ∀ w ∈ batch, w.key = key → w = .put key value :=
      fun w' hw' => honly w' (List.mem_cons_of_mem _ hw')
    rw [applyAll_cons]
    by_cases hlater : .put key value ∈ batch
    · exact ih hlater honly'
    · obtain rfl : .put key value = w := (List.mem_cons.1 hmem).resolve_right hlater
      rw [get?_applyAll_of_forall_ne, get?_apply]
      · exact if_pos rfl
      · intro w' hw' hkey
        exact hlater (honly' w' hw' hkey ▸ hw')

/-- A batch does the same to a key wherever the same is under the key. -/
theorem get?_applyAll_congr {s t : Store} {key : Bytes} (h : s.get? key = t.get? key)
    (batch : List Write) : (s.applyAll batch).get? key = (t.applyAll batch).get? key := by
  induction batch generalizing s t with
  | nil => exact h
  | cons w batch ih =>
    rw [applyAll_cons, applyAll_cons]
    exact ih (by rw [get?_apply, get?_apply, h])

theorem get?_applyAll_deletes (s : Store) (keys : List Bytes) (key : Bytes) :
    (s.applyAll (keys.map .delete)).get? key = if key ∈ keys then none else s.get? key := by
  induction keys generalizing s with
  | nil => simp [applyAll]
  | cons k keys ih =>
    rw [List.map_cons, applyAll_cons, ih, get?_apply]
    by_cases hmem : key ∈ keys
    · rw [if_pos hmem, if_pos (List.mem_cons_of_mem _ hmem)]
    · by_cases hk : k = key
      · subst hk
        rw [if_neg hmem, if_pos List.mem_cons_self]
        exact if_pos rfl
      · have hmem' : key ∉ k :: keys := by
          simp only [List.mem_cons, not_or]
          exact ⟨fun h => hk h.symm, hmem⟩
        rw [if_neg hmem, if_neg hmem']
        exact if_neg hk

/-! ## Scans -/

theorem takeWhile_eq_filter {α : Type} {p : α → Bool} {l : List α}
    (h : l.Pairwise fun a b => p b = true → p a = true) : l.takeWhile p = l.filter p := by
  induction l with
  | nil => rfl
  | cons a l ih =>
    obtain ⟨ha, hl⟩ := List.pairwise_cons.1 h
    rw [List.takeWhile_cons, List.filter_cons, ih hl]
    split
    · rfl
    next hpa => exact (List.filter_eq_nil_iff.2 fun b hb hpb => hpa (ha b hb hpb)).symm

theorem dropWhile_eq_filter {α : Type} {p : α → Bool} {l : List α}
    (h : l.Pairwise fun a b => p b = true → p a = true) :
    l.dropWhile p = l.filter fun a => !p a := by
  induction l with
  | nil => rfl
  | cons a l ih =>
    obtain ⟨ha, hl⟩ := List.pairwise_cons.1 h
    rw [List.dropWhile_cons, List.filter_cons]
    cases hpa : p a with
    | true => simpa using ih hl
    | false =>
      have hall : ∀ b ∈ l, (!p b) = true := by
        intro b hb
        rw [Bool.not_eq_true', Bool.eq_false_iff]
        intro hpb
        rw [ha b hb hpb] at hpa
        exact Bool.noConfusion hpa
      simp [List.filter_eq_self.2 hall]

theorem dropWhile_before (s : Store) (start : Bytes) :
    (s.entries.dropWhile fun e => before e.1 start) =
      s.entries.filter fun e => !before e.1 start :=
  dropWhile_eq_filter (s.ascending.imp fun hab hb => StrictOrder.trans hab hb)

/-- A range holds the first of all entries between its bounds. -/
theorem range_eq (s : Store) (start stop : Bytes) (limit : Nat) :
    s.range start stop limit =
      (s.entries.filter fun e => before e.1 stop && !before e.1 start).take limit := by
  have h : (s.entries.filter fun e => !before e.1 start).Pairwise
      fun a b => before b.1 stop = true → before a.1 stop = true :=
    (s.ascending.filter _).imp fun hab hb => StrictOrder.trans hab hb
  rw [range, dropWhile_before, takeWhile_eq_filter h, List.filter_filter]

/-- A key between the beginning of a family and a key of the family belongs to the family. -/
theorem isPrefixOf_of_before {start a b : Bytes} (hab : listBefore a b = true)
    (ha : listBefore a start = false) (hb : start.isPrefixOf b = true) :
    start.isPrefixOf a = true := by
  induction start generalizing a b with
  | nil => rfl
  | cons x start ih =>
    match a, b with
    | [], _ => simp [listBefore] at ha
    | _ :: _, [] => simp [List.isPrefixOf] at hb
    | y :: a, z :: b =>
      simp only [List.isPrefixOf, Bool.and_eq_true, beq_iff_eq] at hb ⊢
      obtain ⟨rfl, hb⟩ := hb
      simp only [listBefore, Bool.or_eq_true, Bool.and_eq_true, Bool.not_eq_true',
        Bool.or_eq_false_iff, Bool.and_eq_false_iff, Bool.not_eq_false'] at hab ha
      obtain ⟨hyx, ha⟩ := ha
      obtain ⟨hxy, hab⟩ := hab.resolve_left (by simp [hyx])
      exact ⟨connex hxy hyx, ih hab (ha.resolve_left (by simp [hxy])) hb⟩

theorem before_eq_false_of_isPrefixOf {start key : Bytes} (h : start.isPrefixOf key = true) :
    before key start = false := by
  change listBefore key start = false
  induction start generalizing key with
  | nil => cases key <;> rfl
  | cons x start ih =>
    match key with
    | [] => simp [List.isPrefixOf] at h
    | y :: key =>
      simp only [List.isPrefixOf, Bool.and_eq_true, beq_iff_eq] at h
      obtain ⟨rfl, h⟩ := h
      simp [listBefore, StrictOrder.irrefl, ih h]

/-- The extensions of a beginning are all entries whose key starts with it. -/
theorem extensions_eq (s : Store) (start : Bytes) :
    s.extensions start = s.entries.filter fun e => start.isPrefixOf e.1 := by
  have h : (s.entries.filter fun e => !before e.1 start).Pairwise
      fun a b => start.isPrefixOf b.1 = true → start.isPrefixOf a.1 = true := by
    refine List.Pairwise.imp_of_mem (fun {a b} ha _ hab hb => ?_) (s.ascending.filter _)
    have ha : before a.1 start = false := by simpa using (List.mem_filter.1 ha).2
    exact isPrefixOf_of_before hab ha hb
  rw [extensions, dropWhile_before, takeWhile_eq_filter h, List.filter_filter]
  congr 1
  funext e
  cases hp : start.isPrefixOf e.1 with
  | false => rfl
  | true => simp [before_eq_false_of_isPrefixOf hp]

theorem nodup_keys (store : Store) : (store.entries.map (·.1)).Nodup :=
  List.pairwise_map.2 (store.ascending.imp fun h => StrictOrder.ne_of_before h)

theorem contains_iff_mem {store : Store} {key : Bytes} :
    store.contains key = true ↔ key ∈ store.entries.map (·.1) := by
  simp [OrderedMap.contains_iff, OrderedMap.get?_eq_some_iff]

/-- The keys of a listing are those in the store that start as asked. -/
theorem mem_extensions {store : Store} {start key : Bytes} :
    key ∈ (store.extensions start).map (·.1) ↔
      start.isPrefixOf key = true ∧ store.contains key = true := by
  rw [extensions_eq, contains_iff_mem]
  simp [and_comm]

theorem nodup_extensions (store : Store) (start : Bytes) :
    ((store.extensions start).map (·.1)).Nodup := by
  rw [extensions_eq]
  exact store.nodup_keys.sublist (List.filter_sublist.map _)

end Store

end TransferRouter
