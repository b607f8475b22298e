import TransferRouter.Proofs.Codec
import TransferRouter.Proofs.Store.Key

/-!
Two things are never kept under one key, and a scan by the beginning of keys finds what it is meant
to find and nothing else. The byte in front separates the families of keys, and within a family the
encoding of what is named is read back, whatever texts stand in it, so that no text can pretend to
be the end of one part and the beginning of the next.
-/

namespace TransferRouter

open Codec LawfulCodec

namespace Key

/-- A key can be held when the texts in it can. -/
instance : Storable Key where
  Fits
    | pausedRoute _ counterparty => Fits counterparty
    | traffic source destination denom =>
      Fits source.counterparty ∧ Fits destination.counterparty ∧ Fits denom
    | dispatchCount source destination =>
      Fits source.counterparty ∧ Fits destination.counterparty
    | _ => True

theorem pausedAction_inj {a b : ActionId} (h : (pausedAction a).bytes = (pausedAction b).bytes) :
    a = b :=
  encode_inj (v := a) (w := b) trivial trivial (List.cons.inj h).2

theorem pausedProtocol_inj {p q : ProtocolId}
    (h : (pausedProtocol p).bytes = (pausedProtocol q).bytes) : p = q :=
  encode_inj (v := p) (w := q) trivial trivial (List.cons.inj h).2

/-- Texts of any length are told apart, because a counterparty is the last part of its key. -/
theorem pausedRoute_inj_of_any {p q : ProtocolId} {c d : String}
    (h : (pausedRoute p c).bytes = (pausedRoute q d).bytes) : p = q ∧ c = d := by
  obtain ⟨hprotocol, htext⟩ := append_inj (v := p) (w := q) trivial trivial (List.cons.inj h).2
  have hlength : (encodeLength (Utf8.encode c).length).length =
      (encodeLength (Utf8.encode d).length).length := by
    rw [encodeLength, encodeLength, Bytes.length_littleEndian, Bytes.length_littleEndian]
  obtain ⟨-, hutf8⟩ := List.append_inj htext hlength
  exact ⟨hprotocol, Utf8.encode_inj hutf8⟩

theorem dispatchCount_inj {source destination source' destination' : CrossChainId}
    (hfits : Fits (dispatchCount source destination))
    (hfits' : Fits (dispatchCount source' destination'))
    (h : (dispatchCount source destination).bytes = (dispatchCount source' destination').bytes) :
    source = source' ∧ destination = destination' := by
  obtain ⟨p, c⟩ := source
  obtain ⟨q, d⟩ := destination
  obtain ⟨p', c'⟩ := source'
  obtain ⟨q', d'⟩ := destination'
  have hparts := encode_inj (v := ((p, c), q, d)) (w := ((p', c'), q', d'))
    ⟨⟨trivial, hfits.1⟩, trivial, hfits.2⟩ ⟨⟨trivial, hfits'.1⟩, trivial, hfits'.2⟩
    (List.cons.inj h).2
  cases hparts
  exact ⟨rfl, rfl⟩

theorem traffic_inj {source destination source' destination' : CrossChainId}
    {denom denom' : String} (hfits : Fits (traffic source destination denom))
    (hfits' : Fits (traffic source' destination' denom'))
    (h : (traffic source destination denom).bytes = (traffic source' destination' denom').bytes) :
    source = source' ∧ destination = destination' ∧ denom = denom' := by
  obtain ⟨p, c⟩ := source
  obtain ⟨q, d⟩ := destination
  obtain ⟨p', c'⟩ := source'
  obtain ⟨q', d'⟩ := destination'
  have hparts := encode_inj (v := (p, c, (q, d), denom)) (w := (p', c', (q', d'), denom'))
    ⟨trivial, hfits.1, ⟨trivial, hfits.2.1⟩, hfits.2.2⟩
    ⟨trivial, hfits'.1, ⟨trivial, hfits'.2.1⟩, hfits'.2.2⟩ (List.cons.inj h).2
  cases hparts
  exact ⟨rfl, rfl, rfl⟩

/-- Different things have different keys. -/
theorem bytes_inj {k l : Key} (hk : Fits k) (hl : Fits l) (h : k.bytes = l.bytes) : k = l := by
  have hfamily : k.family = l.family :=
    Decidable.byContradiction fun hne => bytes_ne_of_family hne h
  -- Only the cases in which both are of one family are left.
  cases k <;> cases l <;> try (simp [family] at hfamily; done)
  case params.params => rfl
  case pausedAction.pausedAction => rw [pausedAction_inj h]
  case pausedProtocol.pausedProtocol => rw [pausedProtocol_inj h]
  case pausedRoute.pausedRoute =>
    obtain ⟨rfl, rfl⟩ := pausedRoute_inj_of_any h
    rfl
  case sequence.sequence => rfl
  case pending.pending => rw [pending_inj h]
  case pendingByTime.pendingByTime =>
    obtain ⟨rfl, rfl⟩ := pendingByTime_inj h
    rfl
  case traffic.traffic =>
    obtain ⟨rfl, rfl, rfl⟩ := traffic_inj hk hl h
    rfl
  case dispatchCount.dispatchCount =>
    obtain ⟨rfl, rfl⟩ := dispatchCount_inj hk hl h
    rfl

theorem bytes_ne {k l : Key} (hk : Fits k) (hl : Fits l) (h : k ≠ l) : k.bytes ≠ l.bytes :=
  fun hkl => h (bytes_inj hk hl hkl)

/-! ## Beginnings of keys -/

/-- The routes of one protocol have a beginning of their own. -/
theorem pausedRoutesOf_isPrefixOf {protocol protocol' : ProtocolId} {counterparty : String} :
    (pausedRoutesOf protocol).isPrefixOf (pausedRoute protocol' counterparty).bytes = true ↔
      protocol' = protocol := by
  rw [List.isPrefixOf_iff_prefix]
  constructor
  · rintro ⟨rest, hrest⟩
    change 0x21 :: (encode protocol ++ rest) = 0x21 :: (encode protocol' ++ encode counterparty)
      at hrest
    exact (append_inj (v := protocol) (w := protocol') trivial trivial
      (List.cons.inj hrest).2).1.symm
  · rintro rfl
    exact ⟨encode counterparty, rfl⟩

/-- The key of traffic is the beginning that belongs to its route, and the denomination. -/
theorem bytes_traffic (source destination : CrossChainId) (denom : String) :
    (traffic source destination denom).bytes = trafficOver source destination ++ encode denom := by
  change 0x40 :: (encode source.protocol ++ (encode source.counterparty ++
    (encode destination ++ encode denom))) = 0x40 :: ((encode source.protocol ++
      (encode source.counterparty ++ encode destination)) ++ encode denom)
  rw [List.append_assoc, List.append_assoc]

/-- The traffic over one route has a beginning of its own, whatever the endpoints are called. -/
theorem trafficOver_isPrefixOf {source destination source' destination' : CrossChainId}
    {denom : String} (hsource : Fits source.counterparty)
    (hdestination : Fits destination.counterparty) (hsource' : Fits source'.counterparty)
    (hdestination' : Fits destination'.counterparty) :
    (trafficOver source' destination').isPrefixOf (traffic source destination denom).bytes = true ↔
      source = source' ∧ destination = destination' := by
  rw [List.isPrefixOf_iff_prefix]
  constructor
  · rintro ⟨rest, hrest⟩
    rw [bytes_traffic] at hrest
    obtain ⟨p, c⟩ := source
    obtain ⟨q, d⟩ := destination
    obtain ⟨p', c'⟩ := source'
    obtain ⟨q', d'⟩ := destination'
    have hfits : Fits (p, c, q, d) := ⟨trivial, hsource, trivial, hdestination⟩
    have hfits' : Fits (p', c', q', d') := ⟨trivial, hsource', trivial, hdestination'⟩
    obtain ⟨hparts, -⟩ := append_inj hfits' hfits (List.cons.inj hrest).2
    cases hparts
    exact ⟨rfl, rfl⟩
  · rintro ⟨rfl, rfl⟩
    exact ⟨encode denom, (bytes_traffic ..).symm⟩

/-- Keys of one family. -/
inductive Alike : Key → Key → Prop
  | params : Alike params params
  | pausedAction (a b) : Alike (pausedAction a) (pausedAction b)
  | pausedProtocol (p q) : Alike (pausedProtocol p) (pausedProtocol q)
  | pausedRoute (p c q d) : Alike (pausedRoute p c) (pausedRoute q d)
  | sequence : Alike sequence sequence
  | pending (g h) : Alike (pending g) (pending h)
  | pendingByTime (t g u h) : Alike (pendingByTime t g) (pendingByTime u h)
  | traffic (s d x s' d' x') : Alike (traffic s d x) (traffic s' d' x')
  | dispatchCount (s d s' d') : Alike (dispatchCount s d) (dispatchCount s' d')

theorem family_eq_iff {k l : Key} : k.family = l.family ↔ Alike k l := by
  constructor
  · intro h
    cases k <;> cases l <;> first | (simp [family] at h; done) | constructor
  · intro h
    cases h <;> rfl

/-- The byte in front of a key begins the keys of its family and no others. -/
theorem family_isPrefixOf {k l : Key} :
    [l.family].isPrefixOf k.bytes = true ↔ Alike k l := by
  rw [Bytes.isPrefixOf_singleton, head?_bytes, Option.some.injEq, family_eq_iff]

/-- No two things share a key, and scans find what they are meant to find. The texts in keys may be
any that are so short that their lengths are 64-bit numbers. -/
structure Layout : Prop where
  eq_of_bytes_eq : ∀ k l : Key, Fits k → Fits l → k.bytes = l.bytes → k = l
  /-- A scan by a single byte finds one family. -/
  family : ∀ k l : Key, [l.family].isPrefixOf k.bytes = true ↔ Alike k l
  /-- The scans of the program by a single byte are of this kind. -/
  scans : (∀ a, pausedActions = [(pausedAction a).family]) ∧
    (∀ p, pausedProtocols = [(pausedProtocol p).family]) ∧
    (∀ p c, pausedRoutes = [(pausedRoute p c).family]) ∧
    (∀ h, pendingEntries = [(pending h).family]) ∧
    ∀ t h, timeIndex = [(pendingByTime t h).family]
  /-- A scan for the paused routes of a protocol finds just these. -/
  pausedRoutes : ∀ p q c, (pausedRoutesOf q).isPrefixOf (pausedRoute p c).bytes = true ↔ p = q
  /-- A scan for the traffic over a route finds just this. -/
  traffic : ∀ s d x s' d', Fits (traffic s d x) → Fits (dispatchCount s' d') →
    ((trafficOver s' d').isPrefixOf (traffic s d x).bytes = true ↔ s = s' ∧ d = d')

theorem layout_of_keys : Layout where
  eq_of_bytes_eq _ _ hk hl h := bytes_inj hk hl h
  family _ _ := family_isPrefixOf
  scans := ⟨fun _ => rfl, fun _ => rfl, fun _ _ => rfl, fun _ => rfl, fun _ _ => rfl⟩
  pausedRoutes _ _ _ := pausedRoutesOf_isPrefixOf
  traffic _ _ _ _ _ h h' := trafficOver_isPrefixOf h.1 h.2.1 h'.1 h'.2

/-- One domain begins the other, and what is a separator elsewhere stands in a text. -/
theorem layout_of_lookalikes :
    (trafficOver ⟨.ibc, "a"⟩ ⟨.cctp, "7"⟩).isPrefixOf
        (Key.traffic ⟨.ibc, "a"⟩ ⟨.cctp, "70"⟩ "uusdc").bytes = false ∧
      (Key.traffic ⟨.ibc, "a"⟩ ⟨.ibc, "b:c"⟩ "d\x00").bytes ≠
        (Key.traffic ⟨.ibc, "a:b"⟩ ⟨.ibc, "c"⟩ "\x00d").bytes := by
  constructor
  · have hscan := layout_of_keys.traffic ⟨.ibc, "a"⟩ ⟨.cctp, "70"⟩ "uusdc" ⟨.ibc, "a"⟩ ⟨.cctp, "7"⟩
      ⟨by decide +kernel, by decide +kernel, by decide +kernel⟩
      ⟨by decide +kernel, by decide +kernel⟩
    rw [Bool.eq_false_iff]
    exact fun h => absurd (hscan.1 h).2 (by decide)
  · intro h
    refine absurd (layout_of_keys.eq_of_bytes_eq _ _ ?_ ?_ h) (by decide)
    · exact ⟨by decide +kernel, by decide +kernel, by decide +kernel⟩
    · exact ⟨by decide +kernel, by decide +kernel, by decide +kernel⟩

end Key

end TransferRouter
