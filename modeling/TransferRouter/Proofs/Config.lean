import Mathlib.Data.List.TakeWhile
import TransferRouter.Config
import TransferRouter.Proofs.Check
import TransferRouter.Proofs.Text.Decimal

/-!
Configurations in variables. A number is read from its numerals with any blanks around them, so a
configuration is read back from variables that hold its texts and its numbers. What is read is laid
over the defaults and checked as a whole, and the first number that cannot be read is reported
before anything is checked.
-/

namespace TransferRouter

/-! ## Blanks -/

namespace Text

variable {lead core trail rest cs : List Char}

theorem dropWhile_blank (hlead : ∀ c ∈ lead, isBlank c = true)
    (hrest : ∀ c, rest.head? = some c → isBlank c = false) :
    (lead ++ rest).dropWhile isBlank = rest := by
  rw [List.dropWhile_append_of_pos hlead]
  cases rest with
  | nil => rfl
  | cons c rest => simp [hrest c rfl]

/-- Trimming takes off the blanks around a text that has none itself. -/
theorem trim_eq (hlead : ∀ c ∈ lead, isBlank c = true) (htrail : ∀ c ∈ trail, isBlank c = true)
    (hne : core ≠ []) (hcore : ∀ c ∈ core, isBlank c = false) :
    trim (lead ++ core ++ trail) = core := by
  have hhead : ∀ c, (core ++ trail).head? = some c → isBlank c = false := by
    obtain ⟨first, others, rfl⟩ := List.exists_cons_of_ne_nil hne
    intro c hc
    obtain rfl := Option.some.inj hc
    exact hcore _ List.mem_cons_self
  have hblank : ∀ c ∈ trail.reverse, isBlank c = true := fun c hc =>
    htrail c (List.mem_reverse.1 hc)
  have hlast : ∀ c, core.reverse.head? = some c → isBlank c = false := fun c hc =>
    hcore c (List.mem_reverse.1 (List.mem_of_head? hc))
  rw [trim, List.append_assoc, dropWhile_blank hlead hhead, List.reverse_append,
    dropWhile_blank hblank hlast, List.reverse_reverse]

/-- Only blanks are trimmed off. -/
theorem exists_trim (cs : List Char) : ∃ lead trail, cs = lead ++ trim cs ++ trail ∧
    (∀ c ∈ lead, isBlank c = true) ∧ ∀ c ∈ trail, isBlank c = true := by
  refine ⟨cs.takeWhile isBlank, ((cs.dropWhile isBlank).reverse.takeWhile isBlank).reverse, ?_,
    fun c hc => List.mem_takeWhile_imp hc,
    fun c hc => List.mem_takeWhile_imp (List.mem_reverse.1 hc)⟩
  rw [trim, List.append_assoc, ← List.reverse_append, List.takeWhile_append_dropWhile,
    List.reverse_reverse, List.takeWhile_append_dropWhile]

theorem isBlank_of_isDigit {c : Char} (h : c.isDigit = true) : isBlank c = false := by
  rw [Decimal.isDigit_iff] at h
  simp only [isBlank, Bool.or_eq_false_iff, Bool.and_eq_false_iff, decide_eq_false_iff_not,
    beq_eq_false_iff_ne]
  omega

end Text

namespace Decimal

theorem Numeral.ne_nil {cs : List Char} {n : Nat} (h : Numeral cs n) : cs ≠ [] := by
  cases h with
  | plain h => exact h.ne_nil
  | signed h => exact List.cons_ne_nil _ _

theorem Numeral.isBlank {cs : List Char} {n : Nat} (h : Numeral cs n) :
    ∀ c ∈ cs, Text.isBlank c = false := by
  cases h with
  | plain h => exact fun c hc => Text.isBlank_of_isDigit (h.isDigit c hc)
  | signed h =>
    intro c hc
    obtain rfl | hc := List.mem_cons.1 hc
    · rfl
    · exact Text.isBlank_of_isDigit (h.isDigit c hc)

end Decimal

namespace Config

variable {lookup : String → Option String} {field : ConfigField} {size default n : Nat}
  {raw : String} {c : Config}

/-! ## Numbers -/

/-- A text holds a number: a numeral of it, with any blanks around. -/
def Holds (raw : String) (n : Nat) : Prop :=
  ∃ lead numeral trail, raw.toList = lead ++ numeral ++ trail ∧
    (∀ c ∈ lead, Text.isBlank c = true) ∧ (∀ c ∈ trail, Text.isBlank c = true) ∧
    Decimal.Numeral numeral n

theorem read_trim_eq_ok (hsize : 0 < size) :
    Decimal.read size (Text.trim raw.toList) = .ok n ↔ Holds raw n ∧ n < size := by
  rw [Decimal.read_eq_ok hsize]
  apply and_congr_left'
  constructor
  · intro h
    obtain ⟨lead, trail, hraw, hlead, htrail⟩ := Text.exists_trim raw.toList
    exact ⟨lead, _, trail, hraw, hlead, htrail, h⟩
  · rintro ⟨lead, numeral, trail, hraw, hlead, htrail, h⟩
    rwa [hraw, Text.trim_eq hlead htrail h.ne_nil h.isBlank]

example : Decimal.read UInt32.size (Text.trim [' ', '+', '0', '7', '\n']) = .ok 7 := rfl

/-- What a variable says of a number below a size: the number that its text holds, or the default
if it is not set. -/
inductive Reads (lookup : String → Option String) (field : ConfigField) (size default : Nat) :
    Nat → Prop
  | unset (h : lookup field.variable = none) : Reads lookup field size default default
  | holds {raw : String} {n : Nat} (h : lookup field.variable = some raw) (hraw : Holds raw n)
    (hn : n < size) : Reads lookup field size default n

/-- A variable is set to a text that holds no number below a size. -/
def Malformed (lookup : String → Option String) (field : ConfigField) (size : Nat) : Prop :=
  ∃ raw, lookup field.variable = some raw ∧ ∀ n, Holds raw n → size ≤ n

theorem Reads.lt (h : Reads lookup field size default n) (hdefault : default < size) :
    n < size := by
  cases h with
  | unset => exact hdefault
  | holds h hraw hn => exact hn

/-- A number is read unless its variable is malformed. -/
theorem readNumber_of_reads (h : Reads lookup field size default n) :
    readNumber lookup field size default = .ok n := by
  unfold readNumber
  cases h with
  | unset h => rw [h]
  | holds h hraw hn =>
    rw [h]
    dsimp only
    rw [(read_trim_eq_ok (Nat.zero_lt_of_lt hn)).2 ⟨hraw, hn⟩]

theorem readNumber_of_malformed (h : Malformed lookup field size) (hsize : 0 < size) :
    ∃ raw fault, lookup field.variable = some raw ∧ ∀ default,
      readNumber lookup field size default = .error (.notNumeral field raw fault) := by
  obtain ⟨raw, hset, hnone⟩ := h
  unfold readNumber
  rw [hset]
  cases hread : Decimal.read size (Text.trim raw.toList) with
  | ok n =>
    obtain ⟨hraw, hn⟩ := (read_trim_eq_ok hsize).1 hread
    exact absurd hn (Nat.not_lt.2 (hnone n hraw))
  | error fault => exact ⟨raw, fault, rfl, fun default => by simp [hread]⟩

theorem exists_reads (h : ¬ Malformed lookup field size) (default : Nat) :
    ∃ n, Reads lookup field size default n := by
  cases hset : lookup field.variable with
  | none => exact ⟨default, .unset hset⟩
  | some raw =>
    apply Classical.byContradiction
    intro hnone
    refine h ⟨raw, hset, fun n hraw => Nat.not_lt.1 fun hn => ?_⟩
    exact hnone ⟨n, .holds hset hraw hn⟩

theorem holds_print (n : Nat) : Holds (Decimal.print n) n :=
  ⟨[], _, [], by simp, nofun, nofun, Decimal.numeral_print n⟩

/-! ## Configurations -/

/-- The variables of numbers in the order in which they are read, with the sizes that they are
below. -/
def numbers : List (ConfigField × Nat) :=
  [(.passthroughLimit, UInt32.size), (.pendingLifetime, UInt64.size), (.sweepLimit, UInt64.size)]

/-- A configuration is what variables make of the defaults. -/
structure Overlays (lookup : String → Option String) (c : Config) : Prop where
  authority : c.authority = (lookup ConfigField.authority.variable).getD initial.authority
  holding : c.accounts.holding =
    (lookup ConfigField.holding.variable).getD initial.accounts.holding
  dust : c.accounts.dust = (lookup ConfigField.dust.variable).getD initial.accounts.dust
  passthroughLimit : Reads lookup .passthroughLimit UInt32.size
    initial.params.passthroughLimit.toNat c.params.passthroughLimit.toNat
  lifetime : Reads lookup .pendingLifetime UInt64.size
    initial.pending.lifetime.toNat c.pending.lifetime.toNat
  sweepLimit : Reads lookup .sweepLimit UInt64.size
    initial.pending.sweepLimit.toNat c.pending.sweepLimit.toNat

/-- Every variable is set to a part of the configuration. -/
structure Describes (lookup : String → Option String) (c : Config) : Prop where
  authority : lookup ConfigField.authority.variable = some c.authority
  holding : lookup ConfigField.holding.variable = some c.accounts.holding
  dust : lookup ConfigField.dust.variable = some c.accounts.dust
  passthroughLimit : ∃ raw, lookup ConfigField.passthroughLimit.variable = some raw ∧
    Holds raw c.params.passthroughLimit.toNat
  lifetime : ∃ raw, lookup ConfigField.pendingLifetime.variable = some raw ∧
    Holds raw c.pending.lifetime.toNat
  sweepLimit : ∃ raw, lookup ConfigField.sweepLimit.variable = some raw ∧
    Holds raw c.pending.sweepLimit.toNat

theorem Describes.overlays (h : Describes lookup c) : Overlays lookup c where
  authority := by rw [h.authority, Option.getD_some]
  holding := by rw [h.holding, Option.getD_some]
  dust := by rw [h.dust, Option.getD_some]
  passthroughLimit :=
    have ⟨_, hset, hraw⟩ := h.passthroughLimit
    .holds hset hraw c.params.passthroughLimit.toNat_lt_size
  lifetime :=
    have ⟨_, hset, hraw⟩ := h.lifetime
    .holds hset hraw c.pending.lifetime.toNat_lt_size
  sweepLimit :=
    have ⟨_, hset, hraw⟩ := h.sweepLimit
    .holds hset hraw c.pending.sweepLimit.toNat_lt_size

/-- The text of a part, numbers in their shortest numerals. -/
def text (c : Config) : ConfigField → String
  | .authority => c.authority
  | .holding => c.accounts.holding
  | .dust => c.accounts.dust
  | .passthroughLimit => Decimal.print c.params.passthroughLimit.toNat
  | .pendingLifetime => Decimal.print c.pending.lifetime.toNat
  | .sweepLimit => Decimal.print c.pending.sweepLimit.toNat

/-- Variables that are set to the parts of a configuration. -/
def environment (c : Config) (name : String) : Option String :=
  let fields : List ConfigField :=
    [.authority, .holding, .dust, .passthroughLimit, .pendingLifetime, .sweepLimit]
  (fields.find? fun field => field.variable == name).map c.text

theorem environment_variable (c : Config) (field : ConfigField) :
    c.environment field.variable = some (c.text field) := by
  cases field <;> simp [environment, ConfigField.variable]

theorem describes_environment (c : Config) : Describes c.environment c where
  authority := c.environment_variable _
  holding := c.environment_variable _
  dust := c.environment_variable _
  passthroughLimit := ⟨_, c.environment_variable _, holds_print _⟩
  lifetime := ⟨_, c.environment_variable _, holds_print _⟩
  sweepLimit := ⟨_, c.environment_variable _, holds_print _⟩

/-- The configuration of three numbers and of the texts of variables. -/
def overlay (lookup : String → Option String) (passthrough lifetime sweepLimit : Nat) : Config where
  authority := (lookup ConfigField.authority.variable).getD initial.authority
  accounts := ⟨(lookup ConfigField.holding.variable).getD initial.accounts.holding,
    (lookup ConfigField.dust.variable).getD initial.accounts.dust⟩
  params := ⟨UInt32.ofNat passthrough⟩
  pending := ⟨UInt64.ofNat lifetime, UInt64.ofNat sweepLimit⟩

theorem Overlays.overlay_eq (h : Overlays lookup c) :
    overlay lookup c.params.passthroughLimit.toNat c.pending.lifetime.toNat
      c.pending.sweepLimit.toNat = c := by
  obtain ⟨authority, ⟨holding, dust⟩, ⟨passthrough⟩, ⟨lifetime, sweepLimit⟩⟩ := c
  simp only [overlay, UInt32.ofNat_toNat, UInt64.ofNat_toNat, ← h.authority, ← h.holding, ← h.dust]

/-- What is read is the whole of the configuration or, if it fails its check, nothing. -/
theorem ofVariables_of_overlays (h : Overlays lookup c) :
    ofVariables lookup = c.check.map fun _ => c := by
  unfold ofVariables
  rw [readNumber_of_reads h.passthroughLimit, readNumber_of_reads h.lifetime,
    readNumber_of_reads h.sweepLimit]
  change ((overlay lookup _ _ _).check >>= fun _ => .ok (overlay lookup _ _ _)) = _
  rw [h.overlay_eq]
  cases c.check <;> rfl

theorem exists_overlays (h : ∀ f ∈ numbers, ¬ Malformed lookup f.1 f.2) :
    ∃ c, Overlays lookup c := by
  simp only [numbers, List.forall_mem_cons] at h
  obtain ⟨passthrough, hpassthrough⟩ := exists_reads h.1 initial.params.passthroughLimit.toNat
  obtain ⟨lifetime, hlifetime⟩ := exists_reads h.2.1 initial.pending.lifetime.toNat
  obtain ⟨sweepLimit, hsweepLimit⟩ := exists_reads h.2.2.1 initial.pending.sweepLimit.toNat
  refine ⟨overlay lookup passthrough lifetime sweepLimit, rfl, rfl, rfl, ?_, ?_, ?_⟩
  · have hlt := hpassthrough.lt initial.params.passthroughLimit.toNat_lt_size
    exact (UInt32.toNat_ofNat_of_lt' hlt).symm ▸ hpassthrough
  · have hlt := hlifetime.lt initial.pending.lifetime.toNat_lt_size
    exact (UInt64.toNat_ofNat_of_lt' hlt).symm ▸ hlifetime
  · have hlt := hsweepLimit.lt initial.pending.sweepLimit.toNat_lt_size
    exact (UInt64.toNat_ofNat_of_lt' hlt).symm ▸ hsweepLimit

theorem size_pos : ∀ f ∈ numbers, 0 < f.2 := by decide

/-- The first malformed number is reported, before any check. -/
theorem ofVariables_of_malformed {earlier later : List (ConfigField × Nat)}
    (hsplit : numbers = earlier ++ (field, size) :: later)
    (hearlier : ∀ f ∈ earlier, ¬ Malformed lookup f.1 f.2) (h : Malformed lookup field size) :
    ∃ raw fault, lookup field.variable = some raw ∧
      ofVariables lookup = .error (.notNumeral field raw fault) := by
  have hmem : (field, size) ∈ numbers := hsplit ▸ List.mem_append_right _ List.mem_cons_self
  obtain ⟨raw, fault, hset, hread⟩ := readNumber_of_malformed h (size_pos _ hmem)
  have hread_earlier {field size} (hf : (field, size) ∈ earlier) (default : Nat) :
      ∃ n, readNumber lookup field size default = .ok n :=
    have ⟨n, hn⟩ := exists_reads (hearlier _ hf) default
    ⟨n, readNumber_of_reads hn⟩
  refine ⟨raw, fault, hset, ?_⟩
  unfold ofVariables
  unfold numbers at hsplit
  -- One case for each place in the order: what stands before is read.
  match earlier with
  | [] =>
    cases hsplit
    rw [hread]
    rfl
  | [_] =>
    cases hsplit
    obtain ⟨passthrough, hpassthrough⟩ := hread_earlier List.mem_cons_self
      initial.params.passthroughLimit.toNat
    rw [hpassthrough, hread]
    rfl
  | [_, _] =>
    cases hsplit
    obtain ⟨passthrough, hpassthrough⟩ := hread_earlier List.mem_cons_self
      initial.params.passthroughLimit.toNat
    obtain ⟨lifetime, hlifetime⟩ :=
      hread_earlier (List.mem_cons_of_mem _ List.mem_cons_self) initial.pending.lifetime.toNat
    rw [hpassthrough, hlifetime, hread]
    rfl
  | _ :: _ :: _ :: _ => simp at hsplit

/-- Some malformed number is the first. -/
theorem exists_error_of_malformed (h : ∃ f ∈ numbers, Malformed lookup f.1 f.2) :
    ∃ fault, ofVariables lookup = .error fault := by
  classical
  let malformed (f : ConfigField × Nat) : Bool := Malformed lookup f.1 f.2
  have hsome : (numbers.find? malformed).isSome :=
    List.find?_isSome.2 (by simpa [malformed] using h)
  obtain ⟨f, hf⟩ := Option.isSome_iff_exists.1 hsome
  obtain ⟨hmalformed, earlier, later, hsplit, hearlier⟩ := List.find?_eq_some_iff_append.1 hf
  obtain ⟨raw, fault, -, herror⟩ := ofVariables_of_malformed hsplit
    (fun f hf => by simpa [malformed] using hearlier f hf) (of_decide_eq_true hmalformed)
  exact ⟨_, herror⟩

theorem ofVariables_eq_ok :
    ofVariables lookup = .ok c ↔ Overlays lookup c ∧ c.check = .ok () := by
  constructor
  · intro h
    have hgood : ∀ f ∈ numbers, ¬ Malformed lookup f.1 f.2 := by
      intro f hf hmalformed
      obtain ⟨fault, herror⟩ := exists_error_of_malformed ⟨f, hf, hmalformed⟩
      exact absurd (h.symm.trans herror) nofun
    obtain ⟨d, hd⟩ := exists_overlays hgood
    rw [ofVariables_of_overlays hd] at h
    cases hcheck : d.check with
    | ok =>
      rw [hcheck] at h
      obtain rfl := Except.ok.inj h
      exact ⟨hd, hcheck⟩
    | error fault =>
      rw [hcheck] at h
      exact absurd h nofun
  · rintro ⟨hc, hcheck⟩
    rw [ofVariables_of_overlays hc, hcheck]
    rfl

theorem ofVariables_eq_error_of_check {fault : ConfigFault} (h : Overlays lookup c)
    (hcheck : c.check = .error fault) : ofVariables lookup = .error fault := by
  rw [ofVariables_of_overlays h, hcheck]
  rfl

/-- Configurations are read from variables that describe them, and nothing else is read. -/
structure Readable : Prop where
  /-- Every configuration has variables that describe it. -/
  describable (c : Config) : Describes c.environment c
  /-- What passes its check is read back from any variables that describe it. -/
  reads_back (lookup : String → Option String) (c : Config) (hcheck : c.check = .ok ())
    (h : Describes lookup c) : ofVariables lookup = .ok c
  /-- What is read is what the variables make of the defaults, and it passes its check. -/
  admits_iff (lookup : String → Option String) (c : Config) :
    ofVariables lookup = .ok c ↔ Overlays lookup c ∧ c.check = .ok ()
  refuses_iff (lookup : String → Option String) :
    (∃ fault, ofVariables lookup = .error fault) ↔
      (∃ f ∈ numbers, Malformed lookup f.1 f.2) ∨
        ∃ c fault, Overlays lookup c ∧ c.check = .error fault
  /-- The first malformed number is reported, whatever a check would say. -/
  first_malformed (lookup : String → Option String) (earlier later : List (ConfigField × Nat))
    (field : ConfigField) (size : Nat) (hsplit : numbers = earlier ++ (field, size) :: later)
    (hearlier : ∀ f ∈ earlier, ¬ Malformed lookup f.1 f.2) (h : Malformed lookup field size) :
    ∃ raw fault, lookup field.variable = some raw ∧
      ofVariables lookup = .error (.notNumeral field raw fault)
  /-- Otherwise the fault that the check finds is. -/
  checked (lookup : String → Option String) (c : Config) (fault : ConfigFault)
    (h : Overlays lookup c) (hcheck : c.check = .error fault) :
    ofVariables lookup = .error fault

theorem readable_of_variables : Readable where
  describable := describes_environment
  reads_back _ _ hcheck h := ofVariables_eq_ok.2 ⟨h.overlays, hcheck⟩
  admits_iff _ _ := ofVariables_eq_ok
  refuses_iff lookup := by
    constructor
    · rintro ⟨fault, herror⟩
      by_cases hmalformed : ∃ f ∈ numbers, Malformed lookup f.1 f.2
      · exact .inl hmalformed
      · obtain ⟨c, hc⟩ := exists_overlays fun f hf h => hmalformed ⟨f, hf, h⟩
        cases hcheck : c.check with
        | ok => exact absurd ((ofVariables_eq_ok.2 ⟨hc, hcheck⟩).symm.trans herror) nofun
        | error fault => exact .inr ⟨c, fault, hc, hcheck⟩
    · rintro (hmalformed | ⟨c, fault, hc, hcheck⟩)
      · exact exists_error_of_malformed hmalformed
      · exact ⟨fault, ofVariables_eq_error_of_check hc hcheck⟩
  first_malformed _ _ _ _ _ hsplit hearlier h := ofVariables_of_malformed hsplit hearlier h
  checked _ _ _ h hcheck := ofVariables_eq_error_of_check h hcheck

end Config

end TransferRouter
