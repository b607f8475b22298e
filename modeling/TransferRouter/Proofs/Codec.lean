import Mathlib.Algebra.Group.Nat.Defs
import TransferRouter.Codec.Records
import TransferRouter.Proofs.Amount
import TransferRouter.Proofs.Check
import TransferRouter.Proofs.Text.Utf8

/-!
Values are read back from their encoding. A layout can hold a value when the texts, byte strings and
lists in it are so short that their lengths are 64-bit numbers (`Fits`); such a value is decoded
from its encoding whatever bytes follow (`LawfulCodec`), so that encodings can be put side by side.
-/

namespace TransferRouter

/-- The values of a type that its layout can hold. -/
class Storable (α : Type) where
  Fits : α → Prop

export Storable (Fits)

/-- A layout from which every value that it can hold is read back. -/
class LawfulCodec (α : Type) [Codec α] [Storable α] : Prop where
  decode_encode : ∀ v : α, Fits v → ∀ rest : Bytes,
    Codec.decode (Codec.encode v ++ rest) = .ok (v, rest)

namespace LawfulCodec

open Codec

variable {α β : Type}

theorem decodeAt_append [Codec α] [Storable α] [LawfulCodec α] {v : α} (h : Fits v)
    (key rest : Bytes) : decodeAt α key (encode v ++ rest) = .ok v := by
  rw [decodeAt, decode_encode v h]

theorem decodeAt_encode [Codec α] [Storable α] [LawfulCodec α] {v : α} (h : Fits v) (key : Bytes) :
    decodeAt α key (encode v) = .ok v := by
  have := decodeAt_append h key []
  rwa [List.append_nil] at this

/-- Where an encoding ends does not depend on what follows it. -/
theorem append_inj [Codec α] [Storable α] [LawfulCodec α] {v w : α} (hv : Fits v) (hw : Fits w)
    {s t : Bytes} (h : encode v ++ s = encode w ++ t) : v = w ∧ s = t := by
  have hdecode := decode_encode v hv s
  rw [h, decode_encode w hw t] at hdecode
  obtain ⟨rfl, rfl⟩ := Prod.mk.inj (Except.ok.inj hdecode)
  exact ⟨rfl, rfl⟩

theorem encode_inj [Codec α] [Storable α] [LawfulCodec α] {v w : α} (hv : Fits v) (hw : Fits w)
    (h : encode v = encode w) : v = w :=
  (append_inj hv hw (congrArg (· ++ []) h)).1

/-- An encoding begins no other one. -/
theorem eq_of_isPrefix [Codec α] [Storable α] [LawfulCodec α] {v w : α} (hv : Fits v) (hw : Fits w)
    (h : encode v <+: encode w) : v = w := by
  obtain ⟨rest, hrest⟩ := h
  rw [← List.append_nil (encode w)] at hrest
  exact (append_inj hv hw hrest).1

/-! ## Numbers, lengths and byte strings -/

theorem decodeNumber_littleEndian {width n : Nat} (h : n < Bytes.count width) (rest : Bytes) :
    decodeNumber width (Bytes.littleEndian width n ++ rest) = .ok (n, rest) := by
  have hlen := Bytes.length_littleEndian width n
  rw [decodeNumber, List.take_left' hlen, List.drop_left' hlen, if_pos hlen,
    Bytes.ofLittleEndian_littleEndian h]

theorem decodeNumber_encodeLength {n : Nat} (h : n < 2 ^ 64) (rest : Bytes) :
    decodeNumber 8 (encodeLength n ++ rest) = .ok (n, rest) :=
  decodeNumber_littleEndian h rest

theorem decodeBytes_append (s rest : Bytes) (fault : DecodeFault) :
    decodeBytes s.length fault (s ++ rest) = .ok (s, rest) := by
  rw [decodeBytes, List.take_left' rfl, List.drop_left' rfl, if_pos rfl]

instance : Storable UInt32 := ⟨fun _ => True⟩

instance : LawfulCodec UInt32 where
  decode_encode n _ rest := by
    change (decodeNumber 4 (Bytes.littleEndian 4 n.toNat ++ rest) >>= _) = _
    rw [decodeNumber_littleEndian n.toNat_lt]
    simp [bind, Except.bind, pure, Except.pure]

instance : Storable UInt64 := ⟨fun _ => True⟩

instance : LawfulCodec UInt64 where
  decode_encode n _ rest := by
    change (decodeNumber 8 (Bytes.littleEndian 8 n.toNat ++ rest) >>= _) = _
    rw [decodeNumber_littleEndian n.toNat_lt]
    simp [bind, Except.bind, pure, Except.pure]

instance : Storable String := ⟨fun s => (Utf8.encode s).length < 2 ^ 64⟩

instance (s : String) : Decidable (Fits s) :=
  inferInstanceAs (Decidable ((Utf8.encode s).length < 2 ^ 64))

instance : LawfulCodec String where
  decode_encode s h rest := by
    change (decodeNumber 8 (encodeLength (Utf8.encode s).length ++ Utf8.encode s ++ rest) >>= _) = _
    rw [List.append_assoc, decodeNumber_encodeLength h]
    change (decodeBytes (Utf8.encode s).length .textOverrun (Utf8.encode s ++ rest) >>= _) = _
    rw [decodeBytes_append]
    simp [bind, Except.bind, pure, Except.pure, Utf8.decode_encode]

instance : Storable Bytes := ⟨fun s => s.length < 2 ^ 64⟩

instance : LawfulCodec Bytes where
  decode_encode s h rest := by
    change (decodeNumber 8 (encodeLength s.length ++ s ++ rest) >>= _) = _
    rw [List.append_assoc, decodeNumber_encodeLength h]
    exact decodeBytes_append s rest _

/-! ## Lists, options and pairs -/

instance (priority := low) [Storable α] : Storable (List α) :=
  ⟨fun vs => vs.length < 2 ^ 64 ∧ ∀ v ∈ vs, Fits v⟩

theorem decodeMany_flatMap [Codec α] [Storable α] [LawfulCodec α] {vs : List α}
    (h : ∀ v ∈ vs, Fits v) (rest : Bytes) :
    decodeMany vs.length (vs.flatMap encode ++ rest) = .ok (vs, rest) := by
  induction vs with
  | nil => rfl
  | cons v vs ih =>
    have hv := decode_encode v (h v List.mem_cons_self) (vs.flatMap encode ++ rest)
    rw [List.length_cons, decodeMany, List.flatMap_cons, List.append_assoc, hv]
    simp [bind, Except.bind, pure, Except.pure, ih fun w hw => h w (List.mem_cons_of_mem _ hw)]

instance (priority := low) [Codec α] [Storable α] [LawfulCodec α] : LawfulCodec (List α) where
  decode_encode vs h rest := by
    change (decodeNumber 8 (encodeLength vs.length ++ vs.flatMap encode ++ rest) >>= _) = _
    rw [List.append_assoc, decodeNumber_encodeLength h.1]
    exact decodeMany_flatMap h.2 rest

instance [Storable α] : Storable (Option α) := ⟨fun v => ∀ a ∈ v, Fits a⟩

instance [Codec α] [Storable α] [LawfulCodec α] : LawfulCodec (Option α) where
  decode_encode v h rest := by
    cases v with
    | none => rfl
    | some a =>
      change (decode (encode a ++ rest) >>= fun p => pure (some p.1, p.2)) = _
      rw [decode_encode a (h a rfl)]
      rfl

instance [Storable α] [Storable β] : Storable (α × β) := ⟨fun p => Fits p.1 ∧ Fits p.2⟩

instance [Codec α] [Storable α] [LawfulCodec α] [Codec β] [Storable β] [LawfulCodec β] :
    LawfulCodec (α × β) where
  decode_encode p h rest := by
    change (decode (encode p.1 ++ encode p.2 ++ rest) >>= fun q =>
      decode q.2 >>= fun q' => pure ((q.1, q'.1), q'.2)) = _
    rw [List.append_assoc, decode_encode p.1 h.1]
    change (decode (encode p.2 ++ rest) >>= fun q' => pure ((p.1, q'.1), q'.2)) = _
    rw [decode_encode p.2 h.2]
    rfl

/-! ## Records and alternatives -/

theorem via [Codec β] [Storable β] [LawfulCodec β] [Storable α] {view : α → β}
    {ofPart : β → Except DecodeFault α} (hfits : ∀ v : α, Fits v → Fits (view v))
    (hpart : ∀ v : α, Fits v → ofPart (view v) = .ok v) :
    @LawfulCodec α (Codec.via view ofPart) _ :=
  letI := Codec.via view ofPart
  { decode_encode v h rest := by
      change (decode (encode (view v) ++ rest) >>= fun p =>
        ofPart p.1 >>= fun v => pure (v, p.2)) = _
      rw [decode_encode (view v) (hfits v h)]
      change (ofPart (view v) >>= fun v => pure (v, rest)) = _
      rw [hpart v h]
      rfl }

/-- The content of an alternative is decoded by the decoder of its variant. -/
theorem decodeVariant_encodeVariant {contents : List (Bytes → Except DecodeFault (α × Bytes))}
    {content : Bytes → Except DecodeFault (α × Bytes)} (n : Nat) (h : n < 2 ^ 32)
    (hn : contents[n]? = some content) (s : Bytes) :
    decodeVariant contents (encodeVariant n ++ s) = content s := by
  change (decodeNumber 4 (Bytes.littleEndian 4 n ++ s) >>= _) = _
  rw [decodeNumber_littleEndian h]
  simp [bind, Except.bind, hn]

theorem carrying_encode [Codec β] [Storable β] [LawfulCodec β] (make : β → α) {w : β}
    (h : Fits w) (rest : Bytes) : carrying make (encode w ++ rest) = .ok (make w, rest) := by
  change (decode (encode w ++ rest) >>= fun p => pure (make p.1, p.2)) = _
  rw [decode_encode w h]
  rfl

instance : Storable ProtocolId := ⟨fun _ => True⟩

instance : LawfulCodec ProtocolId where
  decode_encode p _ rest := by
    have hn : p.number < 2 ^ 32 := by cases p <;> decide
    change decodeVariant _ (encodeVariant p.number ++ rest) = _
    cases p <;> rw [decodeVariant_encodeVariant _ hn rfl] <;> rfl

instance : Storable ActionId := ⟨fun _ => True⟩

instance : LawfulCodec ActionId where
  decode_encode a _ rest := by
    have hn : a.number < 2 ^ 32 := by cases a <;> decide
    change decodeVariant _ (encodeVariant a.number ++ rest) = _
    cases a <;> rw [decodeVariant_encodeVariant _ hn rfl] <;> rfl

instance : Storable Amount := ⟨fun _ => True⟩

instance : LawfulCodec Amount := by
  unfold instCodecAmount
  apply via
  · exact fun a _ => Nat.lt_of_le_of_lt a.length_encode_write (by decide)
  · intro a _
    simp only [Amount.read_write]

/-- An endpoint is checked when it is decoded, so that only one that may be routed is read back. -/
instance : Storable CrossChainId := ⟨fun id => id.check = .ok () ∧ Fits id.counterparty⟩

instance : LawfulCodec CrossChainId := by
  unfold instCodecCrossChainId
  apply via
  · exact fun _ h => ⟨trivial, h.2⟩
  · intro id h
    simp only [CrossChainId.make_eq_ok h.1]

instance : Storable Params := ⟨fun _ => True⟩

instance : LawfulCodec Params := by
  unfold instCodecParams
  apply via
  · exact fun _ _ => trivial
  · exact fun _ _ => rfl

/-- A record can be held when its parts can. -/
@[reducible] def storableVia [Storable β] (view : α → β) : Storable α := ⟨fun v => Fits (view v)⟩

instance : Storable FeeShare := storableVia fun f => (f.recipient, f.basisPoints)

instance : LawfulCodec FeeShare := by
  unfold instCodecFeeShare
  apply via
  · exact fun _ h => h
  · exact fun _ _ => rfl

instance : Storable FeeAttributes := storableVia (·.fees)

instance : LawfulCodec FeeAttributes := by
  unfold instCodecFeeAttributes
  apply via
  · exact fun _ h => h
  · exact fun _ _ => rfl

instance : Storable SwapAttributes :=
  storableVia fun a => (a.outputDenom, a.minimumOutput, a.recipient)

instance : LawfulCodec SwapAttributes := by
  unfold instCodecSwapAttributes
  apply via
  · exact fun _ h => h
  · exact fun _ _ => rfl

instance : Storable ActionAttributes where
  Fits
    | .fee a => Fits a
    | .swap a => Fits a

instance : LawfulCodec ActionAttributes where
  decode_encode v h rest := by
    cases v with
    | fee a =>
      change decodeVariant _ (encodeVariant 0 ++ encode a ++ rest) = _
      rw [List.append_assoc, decodeVariant_encodeVariant 0 (by decide) rfl]
      exact carrying_encode ActionAttributes.fee h rest
    | swap a =>
      change decodeVariant _ (encodeVariant 1 ++ encode a ++ rest) = _
      rw [List.append_assoc, decodeVariant_encodeVariant 1 (by decide) rfl]
      exact carrying_encode ActionAttributes.swap h rest

instance : Storable IbcAttributes := storableVia fun a => (a.channel, a.recipient, a.timeout)

instance : LawfulCodec IbcAttributes := by
  unfold instCodecIbcAttributes
  apply via
  · exact fun _ h => h
  · exact fun _ _ => rfl

instance : Storable CctpAttributes := storableVia fun a => (a.domain, a.mintRecipient, a.caller)

instance : LawfulCodec CctpAttributes := by
  unfold instCodecCctpAttributes
  apply via
  · exact fun _ h => h
  · exact fun _ _ => rfl

instance : Storable HyperlaneAttributes :=
  storableVia fun a => (a.token, a.domain, a.recipient, a.hook, a.gasLimit, a.maxFee)

instance : LawfulCodec HyperlaneAttributes := by
  unfold instCodecHyperlaneAttributes
  apply via
  · exact fun _ h => h
  · exact fun _ _ => rfl

instance : Storable ForwardingAttributes where
  Fits
    | .ibc a => Fits a
    | .cctp a => Fits a
    | .hyperlane a => Fits a

instance : LawfulCodec ForwardingAttributes where
  decode_encode v h rest := by
    cases v with
    | ibc a =>
      change decodeVariant _ (encodeVariant 0 ++ encode a ++ rest) = _
      rw [List.append_assoc, decodeVariant_encodeVariant 0 (by decide) rfl]
      exact carrying_encode ForwardingAttributes.ibc h rest
    | cctp a =>
      change decodeVariant _ (encodeVariant 1 ++ encode a ++ rest) = _
      rw [List.append_assoc, decodeVariant_encodeVariant 1 (by decide) rfl]
      exact carrying_encode ForwardingAttributes.cctp h rest
    | hyperlane a =>
      change decodeVariant _ (encodeVariant 2 ++ encode a ++ rest) = _
      rw [List.append_assoc, decodeVariant_encodeVariant 2 (by decide) rfl]
      exact carrying_encode ForwardingAttributes.hyperlane h rest

instance : Storable Action := storableVia fun a => (a.id, a.attributes)

instance : LawfulCodec Action := by
  unfold instCodecAction
  apply via
  · exact fun _ h => h
  · exact fun _ _ => rfl

instance : Storable Forwarding := storableVia fun f => (f.protocol, f.attributes, f.passthrough)

instance : LawfulCodec Forwarding := by
  unfold instCodecForwarding
  apply via
  · exact fun _ h => h
  · exact fun _ _ => rfl

instance : Storable Payload := storableVia fun p => (p.preActions, p.forwarding)

instance : LawfulCodec Payload := by
  unfold instCodecPayload
  apply via
  · exact fun _ h => h
  · exact fun _ _ => rfl

instance : Storable PendingEntry := storableVia fun e => (e.sequence, e.payload, e.timestamp)

instance : LawfulCodec PendingEntry := by
  unfold instCodecPendingEntry
  apply via
  · exact fun _ h => h
  · exact fun _ _ => rfl

instance : Storable Traffic := storableVia fun t => (t.incoming, t.outgoing)

instance : LawfulCodec Traffic := by
  unfold instCodecTraffic
  apply via
  · exact fun _ h => h
  · exact fun _ _ => rfl

end LawfulCodec

end TransferRouter
