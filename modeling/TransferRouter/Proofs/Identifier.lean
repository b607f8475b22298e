import Mathlib.Data.List.TakeDrop
import Mathlib.Data.List.TakeWhile
import TransferRouter.Proofs.Bytes.Hex
import TransferRouter.Proofs.Check
import TransferRouter.Proofs.Text.Decimal

/-!
The texts of endpoints and of hashes. What is read as an endpoint is a numeral of its protocol, a
colon, and its counterparty, which may have colons of its own, for only the numeral cannot. What is
read as a hash is its 64 digits after any number of marks; the marks end where the digits begin,
because the second character of a mark is no digit. Both are read back from what is written.
-/

namespace TransferRouter

theorem ProtocolId.ofNumber_eq_ok {n : Nat} {p : ProtocolId} :
    ofNumber n = .ok p ↔ p.number = n := by
  constructor
  · intro h
    match n with
    | 0 | 1 | 2 | 3 =>
      obtain rfl := Except.ok.inj h
      rfl
    | _ + 4 => exact absurd h nofun
  · rintro rfl
    rw [ofNumber, ofNumber?_number]

/-- A list is split before the first member that fails a test. -/
theorem span_eq_cons_iff {α : Type} {p : α → Bool} {l xs ys : List α} {y : α} :
    l.span p = (xs, y :: ys) ↔ (∀ x ∈ xs, p x = true) ∧ p y = false ∧ l = xs ++ y :: ys := by
  rw [List.span_eq_takeWhile_dropWhile, Prod.mk.injEq]
  constructor
  · rintro ⟨rfl, hdrop⟩
    refine ⟨fun x hx => List.mem_takeWhile_imp hx, ?_, ?_⟩
    · have hne : l.dropWhile p ≠ [] := by rw [hdrop]; nofun
      have hhead := List.head_dropWhile_not p hne
      simpa only [hdrop, List.head_cons] using hhead
    · rw [← hdrop, List.takeWhile_append_dropWhile]
  · rintro ⟨hxs, hy, rfl⟩
    rw [List.takeWhile_append_of_pos hxs, List.dropWhile_append_of_pos hxs,
      List.takeWhile_cons_of_neg (by simp [hy]), List.dropWhile_cons_of_neg (by simp [hy]),
      List.append_nil]
    exact ⟨rfl, rfl⟩

namespace CrossChainId

variable {id : CrossChainId} {text numeral : String} {n : Nat}

theorem span_colon_iff {c : Char} {cs number rest : List Char} :
    cs.span (· ≠ ':') = (number, c :: rest) ↔
      ':' ∉ number ∧ c = ':' ∧ cs = number ++ c :: rest := by
  rw [span_eq_cons_iff, decide_eq_false_iff_not, Decidable.not_not]
  refine and_congr_left' ⟨fun h hmem => ?_, fun h c hc => decide_eq_true ?_⟩
  · exact of_decide_eq_true (h _ hmem) rfl
  · rintro rfl
    exact h hc

/-! ## Reading -/

/-- A text spells an endpoint with a numeral of its protocol. -/
structure Spells (text numeral : String) (id : CrossChainId) : Prop where
  split : text = numeral ++ ":" ++ id.counterparty
  colonless : ':' ∉ numeral.toList
  numeral : Decimal.Numeral numeral.toList id.protocol.number
  protocol : id.protocol.number ∈ [1, 2, 3]
  counterparty : id.counterparty ≠ ""

theorem number_mem_iff {p : ProtocolId} : p.number ∈ [1, 2, 3] ↔ p.check = .ok () := by
  rw [ProtocolId.check_eq_ok]
  cases p <;> decide

theorem split_iff : text = numeral ++ ":" ++ id.counterparty ↔
    text.toList = numeral.toList ++ ':' :: id.counterparty.toList := by
  rw [← String.toList_inj, String.toList_append, String.toList_append, List.append_assoc]
  rfl

/-- What a text spells is told by what is before and after its first colon. -/
theorem exists_spells_iff {c : Char} {number rest : List Char}
    (hspan : text.toList.span (· ≠ ':') = (number, c :: rest)) :
    (∃ numeral, Spells text numeral id) ↔ Decimal.Numeral number id.protocol.number ∧
      id.counterparty = String.ofList rest ∧ id.check = .ok () := by
  rw [check_eq_ok, ← number_mem_iff]
  constructor
  · rintro ⟨numeral, h⟩
    have hsplit := span_colon_iff.2 ⟨h.colonless, rfl, split_iff.1 h.split⟩
    obtain ⟨rfl, hrest⟩ := Prod.mk.inj (hspan.symm.trans hsplit)
    obtain ⟨-, rfl⟩ := List.cons.inj hrest
    exact ⟨h.numeral, String.ofList_toList.symm, h.protocol, h.counterparty⟩
  · rintro ⟨hnumeral, hrest, hprotocol, hcounterparty⟩
    obtain ⟨hcolonless, rfl, hlist⟩ := span_colon_iff.1 hspan
    refine ⟨String.ofList number, split_iff.2 ?_, ?_, ?_, hprotocol, hcounterparty⟩
    · rw [hlist, hrest, String.toList_ofList, String.toList_ofList]
    · rwa [String.toList_ofList]
    · rwa [String.toList_ofList]

/-- The numbers of protocols are small. -/
theorem number_lt (p : ProtocolId) : p.number < UInt32.size := by
  cases p <;> decide

/-- The endpoint of a number and a counterparty. -/
theorem make_ofNumber_eq_ok {counterparty : String} :
    (do make (← ProtocolId.ofNumber n) counterparty) = .ok id ↔
      id.protocol.number = n ∧ id.counterparty = counterparty ∧ id.check = .ok () := by
  rw [except_bind_eq_ok]
  constructor
  · rintro ⟨p, hp, hmake⟩
    obtain ⟨rfl, hcheck⟩ := make_ok hmake
    exact ⟨ProtocolId.ofNumber_eq_ok.1 hp, rfl, hcheck⟩
  · rintro ⟨hnumber, rfl, hcheck⟩
    exact ⟨id.protocol, ProtocolId.ofNumber_eq_ok.2 hnumber, make_eq_ok hcheck⟩

/-- An endpoint is read from the texts that spell it and from no others. -/
theorem read_eq_ok : read text = .ok id ↔ ∃ numeral, Spells text numeral id := by
  unfold read
  split
  next number hspan =>
    refine iff_of_false nofun fun ⟨numeral, h⟩ => ?_
    rw [span_colon_iff.2 ⟨h.colonless, rfl, split_iff.1 h.split⟩] at hspan
    exact absurd hspan nofun
  next number colon rest hspan =>
    rw [exists_spells_iff hspan]
    have hlimit : 0 < UInt32.size := by decide
    have hread : Decimal.Numeral number id.protocol.number ↔
        Decimal.read UInt32.size number = .ok id.protocol.number := by
      rw [Decimal.read_eq_ok hlimit, and_iff_left (number_lt _)]
    rw [hread]
    cases hnumber : Decimal.read UInt32.size number with
    | error fault => exact iff_of_false nofun fun h => absurd h.1 nofun
    | ok n =>
      rw [Except.ok.injEq, eq_comm (a := n)]
      exact make_ofNumber_eq_ok

/-! ## Writing -/

theorem spells_write (h : id.check = .ok ()) :
    Spells id.write (Decimal.print id.protocol.number) id where
  split := rfl
  colonless := (Decimal.numeral_print _).colon_not_mem
  numeral := Decimal.numeral_print _
  protocol := number_mem_iff.2 (check_eq_ok.1 h).1
  counterparty := (check_eq_ok.1 h).2

theorem read_write (h : id.check = .ok ()) : read id.write = .ok id :=
  read_eq_ok.2 ⟨_, spells_write h⟩

theorem Spells.check (h : Spells text numeral id) : id.check = .ok () :=
  check_eq_ok.2 ⟨number_mem_iff.1 h.protocol, h.counterparty⟩

/-- The texts of endpoints: they are read by their grammar, which is a numeral with the value of a
protocol that may be routed, a colon, and a counterparty that is not empty. Reading inverts
writing. -/
structure Textual : Prop where
  accepts : ∀ text id, read text = .ok id ↔ ∃ numeral, Spells text numeral id
  refuses : ∀ text, (¬ ∃ id numeral, Spells text numeral id) → ∃ cause, read text = .error cause
  read_write : ∀ id : CrossChainId, id.check = .ok () → read id.write = .ok id
  write_inj : ∀ a b : CrossChainId, a.check = .ok () → b.check = .ok () → a.write = b.write → a = b
  again : ∀ text id, read text = .ok id → read id.write = .ok id

theorem textual_of_grammar : Textual where
  accepts _ _ := read_eq_ok
  refuses text h := by
    cases hread : read text with
    | error cause => exact ⟨cause, rfl⟩
    | ok id => exact absurd ⟨id, read_eq_ok.1 hread⟩ h
  read_write _ := read_write
  write_inj a b ha hb h := Except.ok.inj ((read_write ha).symm.trans (h ▸ read_write hb))
  again text id h := by
    obtain ⟨numeral, hspells⟩ := read_eq_ok.1 h
    exact read_write hspells.check

example : read "+002:a:b" = .ok ⟨.cctp, "a:b"⟩ := by decide +kernel

end CrossChainId

namespace PayloadHash

variable {hash : PayloadHash} {text : String}

theorem ofBytes?_eq_some_iff {s : Bytes} : ofBytes? s = some hash ↔ hash.bytes = s := by
  rw [ofBytes?, Option.dite_none_right_eq_some]
  constructor
  · rintro ⟨hlength, h⟩
    exact congrArg bytes (Option.some.inj h).symm
  · rintro rfl
    exact ⟨hash.length_eq, rfl⟩

/-! ## Marks -/

/-- Any number of marks and some characters after them. -/
def Marked (cs rest : List Char) : Prop := ∃ k, cs = (List.replicate k ['0', 'x']).flatten ++ rest

theorem Marked.cons {cs rest : List Char} (h : Marked cs rest) :
    Marked ('0' :: 'x' :: cs) rest := by
  obtain ⟨k, rfl⟩ := h
  exact ⟨k + 1, rfl⟩

theorem encodeChars_mark (cs : List Char) :
    Utf8.encodeChars ('0' :: 'x' :: cs) = 48 :: 120 :: Utf8.encodeChars cs := rfl

theorem dropMarks_of_unmarked {cs : List Char} (h : ∀ rest, cs ≠ '0' :: 'x' :: rest) :
    dropMarks (Utf8.encodeChars cs) = Utf8.encodeChars cs := by
  unfold dropMarks
  split
  next s hs =>
    obtain ⟨rest, rfl, hrest⟩ := Utf8.exists_of_encodeChars (by decide) hs
    obtain ⟨rest, rfl, -⟩ := Utf8.exists_of_encodeChars (by decide) hrest
    exact absurd rfl (h rest)
  next => rfl

/-- All marks in front are dropped, whatever comes after them. -/
theorem exists_dropMarks : ∀ cs : List Char, ∃ rest, Marked cs rest ∧
    dropMarks (Utf8.encodeChars cs) = Utf8.encodeChars rest
  | [] => ⟨[], ⟨0, rfl⟩, rfl⟩
  | [c] => ⟨[c], ⟨0, rfl⟩, dropMarks_of_unmarked fun _ => nofun⟩
  | c :: d :: cs => by
    by_cases hmark : c = '0' ∧ d = 'x'
    · obtain ⟨rfl, rfl⟩ := hmark
      obtain ⟨rest, hmarked, hdrop⟩ := exists_dropMarks cs
      refine ⟨rest, hmarked.cons, ?_⟩
      rw [encodeChars_mark, dropMarks, hdrop]
    · refine ⟨c :: d :: cs, ⟨0, rfl⟩, dropMarks_of_unmarked ?_⟩
      rintro rest ⟨⟩
      exact hmark ⟨rfl, rfl⟩

/-- The marks end at the digits, if these do not look like a mark. -/
theorem Marked.dropMarks_eq {cs rest : List Char} (h : Marked cs rest)
    (hrest : ∀ cs, rest ≠ '0' :: 'x' :: cs) :
    dropMarks (Utf8.encodeChars cs) = Utf8.encodeChars rest := by
  obtain ⟨k, rfl⟩ := h
  induction k with
  | zero => exact dropMarks_of_unmarked hrest
  | succ k ih => exact ih

/-! ## Reading -/

theorem read_iff_decode :
    read text = .ok hash ↔ Hex.decode (dropMarks (Utf8.encode text)) = .ok hash.bytes := by
  unfold read
  cases Hex.decode (dropMarks (Utf8.encode text)) with
  | error fault => exact iff_of_false nofun nofun
  | ok s =>
    rw [Except.ok.injEq, eq_comm (a := s), ← ofBytes?_eq_some_iff]
    dsimp only
    cases ofBytes? s with
    | none => simp
    | some hash' => simp

/-- A hash is read from the texts that spell it after marks and from no others. -/
theorem read_eq_ok : read text = .ok hash ↔
    ∃ digits, Marked text.toList digits ∧ Hex.Spells digits hash.bytes := by
  rw [read_iff_decode, Utf8.encode]
  constructor
  · intro h
    obtain ⟨digits, hmarked, hdrop⟩ := exists_dropMarks text.toList
    rw [hdrop] at h
    exact ⟨digits, hmarked, Hex.decode_eq_ok.1 h⟩
  · rintro ⟨digits, hmarked, hspells⟩
    have hunmarked : ∀ cs, digits ≠ '0' :: 'x' :: cs := by
      rintro cs rfl
      exact hspells.x_not_mem (List.mem_cons_of_mem _ List.mem_cons_self)
    rw [hmarked.dropMarks_eq hunmarked]
    exact Hex.decode_eq_ok.2 hspells

/-- The digits of a hash are the last 64 characters of its texts. -/
theorem digits_eq_drop {cs digits : List Char} (hmarked : Marked cs digits)
    (hspells : Hex.Spells digits hash.bytes) : digits = cs.drop (cs.length - 64) := by
  obtain ⟨k, rfl⟩ := hmarked
  have hlength : digits.length = 64 := by rw [hspells.length_eq, hash.length_eq]
  rw [List.length_append, hlength, Nat.add_sub_cancel, List.drop_left]

/-- Characters that spell a hash: 64 digits of either case after any number of marks. -/
def Format (cs : List Char) : Prop :=
  ∃ digits, Marked cs digits ∧ digits.length = 64 ∧ ∀ c ∈ digits, ∃ n, Hex.Digit c n

theorem format_iff : Format text.toList ↔ ∃ hash, read text = .ok hash := by
  constructor
  · rintro ⟨digits, hmarked, hlength, hdigits⟩
    obtain ⟨s, hspells⟩ := Hex.Spells.exists_of_digits hdigits (k := 32) hlength
    have hs : s.length = 32 := by
      have := hspells.length_eq
      omega
    exact ⟨⟨s, hs⟩, read_eq_ok.2 ⟨digits, hmarked, hspells⟩⟩
  · rintro ⟨hash, h⟩
    obtain ⟨digits, hmarked, hspells⟩ := read_eq_ok.1 h
    refine ⟨digits, hmarked, ?_, hspells.digit_of_mem⟩
    rw [hspells.length_eq, hash.length_eq]

theorem read_write (hash : PayloadHash) : read hash.write = .ok hash := by
  refine read_eq_ok.2 ⟨Hex.digits hash.bytes, ⟨0, ?_⟩, .of_digits _⟩
  exact String.toList_ofList

theorem write_of_read (h : read text = .ok hash) :
    hash.write = String.ofList ((text.toList.drop (text.toList.length - 64)).map Char.toLower) := by
  obtain ⟨digits, hmarked, hspells⟩ := read_eq_ok.1 h
  rw [← digits_eq_drop hmarked hspells, hspells.map_toLower]
  rfl

/-- The texts of hashes: they are read by their format, to the bytes that the digits spell, and what
is written again is their digits in lower case. Any other text is refused as invalid. -/
structure Textual : Prop where
  accepts : ∀ text : String, (∃ hash, read text = .ok hash) ↔ Format text.toList
  value : ∀ text hash, read text = .ok hash ↔
    ∃ digits, Marked text.toList digits ∧ Hex.Spells digits hash.bytes
  read_write : ∀ hash : PayloadHash, read hash.write = .ok hash
  write_of_read : ∀ text hash, read text = .ok hash → hash.write =
    String.ofList ((text.toList.drop (text.toList.length - 64)).map Char.toLower)
  refuses : ∀ text : String, ¬ Format text.toList → ∀ w : World, ∃ e,
    (checked (read text) : RouterM PayloadHash) w = .error e w ∧ e.kind = .validation

theorem textual_of_format : Textual where
  accepts _ := format_iff.symm
  value _ _ := read_eq_ok
  read_write := read_write
  write_of_read _ _ := write_of_read
  refuses text h w := by
    cases hread : read text with
    | error cause => exact ⟨.validation cause, rfl, rfl⟩
    | ok hash => exact absurd (format_iff.2 ⟨hash, hread⟩) h

end PayloadHash

end TransferRouter
