import TransferRouter.Proofs.Codec
import TransferRouter.Store.Key

/-!
What is stored can be read in one way only. This goes for the values in the store and for what is
named in its keys, and so two recorded payloads that differ in anything are never hashed as the same
bytes.
-/

namespace TransferRouter

open Codec LawfulCodec

/-- Bytes are the encoding of one value at most, and it is seen in them where that value ends. -/
structure Unambiguous (α : Type) [Codec α] [Storable α] : Prop where
  /-- A value is read back whatever follows it, and what follows is all that is left. -/
  decode_encode : ∀ v : α, Fits v → ∀ rest : Bytes, decode (encode v ++ rest) = .ok (v, rest)
  /-- So it is when it is looked up under a key. -/
  decodeAt_encode : ∀ v : α, Fits v → ∀ key rest : Bytes,
    decodeAt α key (encode v ++ rest) = .ok v
  /-- No encoding begins another. -/
  eq_of_begins : ∀ v w : α, Fits v → Fits w → encode v <+: encode w → v = w
  eq_of_encode_eq : ∀ v w : α, Fits v → Fits w → encode v = encode w → v = w

theorem LawfulCodec.unambiguous (α : Type) [Codec α] [Storable α] [LawfulCodec α] :
    Unambiguous α where
  decode_encode := LawfulCodec.decode_encode
  decodeAt_encode _ := decodeAt_append
  eq_of_begins _ _ := eq_of_isPrefix
  eq_of_encode_eq _ _ := encode_inj

/-- Entries that are told apart by a part of theirs are hashed as different bytes. -/
theorem PendingEntry.encode_ne {e e' : PendingEntry} (he : Fits e) (he' : Fits e')
    (h : e.sequence ≠ e'.sequence ∨ e.payload ≠ e'.payload ∨ e.timestamp ≠ e'.timestamp) :
    encode e ≠ encode e' := by
  intro heq
  obtain rfl := encode_inj he he' heq
  rcases h with h | h | h <;> exact h rfl

/-- Everything that is stored, and everything that is named in a key, can be read in one way only:
the parameters, counters, totals of traffic and recorded payloads, and the actions, protocols,
routes, endpoints and denominations. The bytes of which the hash of a recorded payload is taken tell
its number, its content and its time. -/
theorem unambiguous_of_stored :
    Unambiguous Params ∧ Unambiguous UInt64 ∧ Unambiguous Traffic ∧ Unambiguous PendingEntry ∧
      Unambiguous ActionId ∧ Unambiguous ProtocolId ∧ Unambiguous (ProtocolId × String) ∧
      Unambiguous CrossChainId ∧ Unambiguous (ProtocolId × String × CrossChainId × String) ∧
      (∀ e : PendingEntry, e.hash.bytes = Sha256.digest (encode e)) ∧
      ∀ e e' : PendingEntry, Fits e → Fits e' →
        e.sequence ≠ e'.sequence ∨ e.payload ≠ e'.payload ∨ e.timestamp ≠ e'.timestamp →
          encode e ≠ encode e' :=
  ⟨unambiguous _, unambiguous _, unambiguous _, unambiguous _, unambiguous _, unambiguous _,
    unambiguous _, unambiguous _, unambiguous _, fun _ => rfl,
    fun _ _ he he' h => PendingEntry.encode_ne he he' h⟩

namespace Testbed

/-- A recorded payload with pre-actions of both kinds, forwarded to a recipient over a channel. -/
def entryTo (channel recipient : String) : PendingEntry where
  sequence := 7
  payload :=
    { preActions := [.ofAttributes (.fee ⟨[⟨"a:b", 1⟩, ⟨"é\x00", 9999⟩]⟩),
        .ofAttributes (.swap ⟨"uatom", ⟨Amount.size / 2, by decide⟩, some ""⟩)]
      forwarding := .ofAttributes (.ibc ⟨channel, recipient, 0⟩) [0, 0x31] }
  timestamp := 1700000000

theorem fits_entryTo {channel recipient : String} (hchannel : Fits channel)
    (hrecipient : Fits recipient) : Fits (entryTo channel recipient) := by
  have hcount : 2 < 2 ^ 64 := by decide
  have hshares : Fits [(⟨"a:b", 1⟩ : FeeShare), ⟨"é\x00", 9999⟩] := by
    refine ⟨hcount, List.forall_mem_cons.2 ⟨⟨?_, trivial⟩, List.forall_mem_singleton.2 ?_⟩⟩
    · decide +kernel
    · exact ⟨by decide +kernel, trivial⟩
  have hswap : Fits (⟨"uatom", ⟨Amount.size / 2, by decide⟩, some ""⟩ : SwapAttributes) := by
    refine ⟨by decide +kernel, trivial, fun recipient h => ?_⟩
    obtain rfl := Option.some.inj h
    decide
  have hactions : ∀ action ∈ (entryTo channel recipient).payload.preActions, Fits action :=
    List.forall_mem_cons.2 ⟨⟨trivial, hshares⟩, List.forall_mem_singleton.2 ⟨trivial, hswap⟩⟩
  exact ⟨trivial, ⟨⟨hcount, hactions⟩, trivial, ⟨hchannel, hrecipient, trivial⟩, hcount⟩, trivial⟩

/-- The texts of these two are the same but for where one ends and the next begins. -/
theorem unambiguous_entries :
    decodeAt PendingEntry [0x31]
        (encode (entryTo "channel-1" "0x") ++ encode (entryTo "channel-10" "x")) =
      .ok (entryTo "channel-1" "0x") ∧
    encode (entryTo "channel-1" "0x") ≠ encode (entryTo "channel-10" "x") := by
  have hleft : Fits (entryTo "channel-1" "0x") :=
    fits_entryTo (by decide +kernel) (by decide +kernel)
  have hright : Fits (entryTo "channel-10" "x") :=
    fits_entryTo (by decide +kernel) (by decide +kernel)
  obtain ⟨-, -, -, hentry, -, -, -, -, -, -, hdiffer⟩ := unambiguous_of_stored
  exact ⟨hentry.decodeAt_encode _ hleft _ _, hdiffer _ _ hleft hright (.inr (.inl (by decide)))⟩

end Testbed

end TransferRouter
