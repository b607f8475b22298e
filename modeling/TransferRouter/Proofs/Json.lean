import Mathlib.Data.List.Forall2
import Mathlib.Data.List.Nodup
import TransferRouter.Json.Records
import TransferRouter.Proofs.Amount
import TransferRouter.Proofs.Check
import TransferRouter.Proofs.Store.Key

/-!
Values are read back from their JSON form. A form is lawful when this holds of every value, and then
so are the forms of the lists and records built from it. Endpoints are the exception: one is checked
when it is read, so the bad ones are lost, and with them the states and the reports that hold one.
-/

namespace TransferRouter

open JsonForm

/-- What a reading of a whole list tells of its items. -/
theorem mapM_eq_some {α β : Type} {f : α → Option β} {as : List α} {bs : List β} :
    as.mapM f = some bs ↔ List.Forall₂ (fun a b => f a = some b) as bs := by
  induction as generalizing bs with
  | nil => simp [eq_comm]
  | cons a as ih =>
    simp only [List.mapM_cons, List.forall₂_cons_left_iff, ← ih]
    constructor
    · intro h
      obtain ⟨b, hb, bs', hbs', heq⟩ := by simpa [Option.bind_eq_some_iff] using h
      exact ⟨b, bs', hb, hbs', heq.symm⟩
    · rintro ⟨b, bs', hb, hbs', rfl⟩
      simp [hb, hbs']

namespace Json

/-- The members of an object are found under their names when no name stands twice. -/
theorem members?_object {names : List String} {members : List (String × Json)}
    (h : members.map (·.1) = names) (hnames : names.Nodup) :
    members? names (.object members) = some (members.map fun m => some m.2) := by
  subst h
  refine mapM_eq_some.2 (List.forall₂_map_left_iff.2 (List.forall₂_map_right_iff.2 ?_))
  refine List.forall₂_same.2 fun m hm => ?_
  have hfind : members.filter (fun m' => m'.1 == m.1) = [m] := by
    obtain ⟨before, after, rfl⟩ := List.append_of_mem hm
    simp only [List.map_append, List.map_cons] at hnames
    have hbefore : ∀ m' ∈ before, ¬ m'.1 = m.1 := by
      intro m' hm' heq
      exact (List.nodup_append.1 hnames).2.2 _ (List.mem_map_of_mem hm') _ List.mem_cons_self heq
    have hafter : ∀ m' ∈ after, ¬ m'.1 = m.1 := by
      intro m' hm' heq
      have hcons := (List.nodup_append.1 hnames).2.1
      exact (List.nodup_cons.1 hcons).1 (heq ▸ List.mem_map_of_mem hm')
    have hnone : before.filter (fun m' => m'.1 == m.1) = [] :=
      List.filter_eq_nil_iff.2 fun m' hm' => by simpa using hbefore m' hm'
    have hnone' : after.filter (fun m' => m'.1 == m.1) = [] :=
      List.filter_eq_nil_iff.2 fun m' hm' => by simpa using hafter m' hm'
    simp [hnone, hnone']
  simp only [hfind]

@[simp] theorem record?_object {names : List String} {members : List (String × Json)}
    (h : members.map (·.1) = names) (hnames : names.Nodup) :
    record? names (.object members) = some (members.map fun m => some m.2) :=
  members?_object h hnames

end Json

/-- A JSON form from which every value is read back. -/
class LawfulForm (α : Type) [JsonForm α] : Prop where
  ofJson?_toJson : ∀ v : α, ofJson? (toJson v) = some v

namespace LawfulForm

variable {α β : Type} [JsonForm α]

attribute [simp] ofJson?_toJson

theorem ofJson?_list {vs : List α} :
    ofJson? (toJson vs) = some vs ↔ ∀ v ∈ vs, ofJson? (toJson v) = some v := by
  change (vs.map toJson).mapM ofJson? = _ ↔ _
  rw [mapM_eq_some, List.forall₂_map_left_iff, List.forall₂_same]

@[simp] theorem part_toJson [LawfulForm α] (v : α) : part (some (toJson v)) = some v :=
  ofJson?_toJson v

/-- The content of an alternative is read back. -/
theorem bind_toJson [LawfulForm α] (make : α → β) (v : α) :
    ((ofJson? (toJson v)).bind fun v => some (make v)) = some (make v) := by
  rw [ofJson?_toJson, Option.bind_some]

/-- A part that may be missing is read back when its form is never null. -/
@[simp] theorem part?_toJson [LawfulForm α] (hnull : ∀ v : α, toJson v ≠ Json.null) (o : Option α) :
    part? (some (toJson o)) = some o := by
  cases o with
  | none => rfl
  | some v =>
    change part? (some (toJson v)) = some (some v)
    have hsome : part? (some (toJson v)) = (ofJson? (toJson v) : Option α).map some := by
      cases hv : toJson v with
      | null => exact absurd hv (hnull v)
      | _ => rfl
    rw [hsome, ofJson?_toJson, Option.map_some]

instance : LawfulForm UInt8 where
  ofJson?_toJson n := by
    change (Json.natural? _ (.int (.ofNat n.toNat))).map _ = _
    simp [Json.natural?, n.toNat_lt]

instance : LawfulForm UInt32 where
  ofJson?_toJson n := by
    change (Json.natural? _ (.int (.ofNat n.toNat))).map _ = _
    simp [Json.natural?, n.toNat_lt]

instance : LawfulForm UInt64 where
  ofJson?_toJson n := by
    change (Json.natural? _ (.int (.ofNat n.toNat))).map _ = _
    simp [Json.natural?, n.toNat_lt]

instance : LawfulForm String := ⟨fun _ => rfl⟩

instance : LawfulForm Amount where
  ofJson?_toJson a := by
    change (Amount.read (Utf8.encode a.write)).toOption = _
    rw [Amount.read_write]
    rfl

instance [LawfulForm α] : LawfulForm (List α) where
  ofJson?_toJson _ := ofJson?_list.2 fun v _ => ofJson?_toJson v

instance : LawfulForm ProtocolId := ⟨fun p => by cases p <;> rfl⟩

instance : LawfulForm ActionId := ⟨fun a => by cases a <;> rfl⟩

instance : LawfulForm PayloadHash where
  ofJson?_toJson h := by
    change (ofJson? (toJson h.bytes)).bind PayloadHash.ofBytes? = _
    rw [ofJson?_toJson, Option.bind_some, PayloadHash.ofBytes?_bytes]

/-! ## Records and alternatives -/

instance : LawfulForm Coin where
  ofJson?_toJson v := by
    change (Json.record? _ (.object _)).bind _ = _
    simp

instance : LawfulForm FeeShare where
  ofJson?_toJson v := by
    change (Json.record? _ (.object _)).bind _ = _
    simp

instance : LawfulForm FeeAttributes where
  ofJson?_toJson v := by
    change (Json.record? _ (.object _)).bind _ = _
    simp

instance : LawfulForm SwapAttributes where
  ofJson?_toJson v := by
    change (Json.record? _ (.object _)).bind _ = _
    simp [part?_toJson]

instance : LawfulForm ActionAttributes where
  ofJson?_toJson
    | .fee a => bind_toJson ActionAttributes.fee a
    | .swap a => bind_toJson ActionAttributes.swap a

instance : LawfulForm IbcAttributes where
  ofJson?_toJson v := by
    change (Json.record? _ (.object _)).bind _ = _
    simp

instance : LawfulForm CctpAttributes where
  ofJson?_toJson v := by
    change (Json.record? _ (.object _)).bind _ = _
    simp

instance : LawfulForm HyperlaneAttributes where
  ofJson?_toJson v := by
    change (Json.record? _ (.object _)).bind _ = _
    simp [part?_toJson]

instance : LawfulForm ForwardingAttributes where
  ofJson?_toJson
    | .ibc a => bind_toJson ForwardingAttributes.ibc a
    | .cctp a => bind_toJson ForwardingAttributes.cctp a
    | .hyperlane a => bind_toJson ForwardingAttributes.hyperlane a

instance : LawfulForm Action where
  ofJson?_toJson v := by
    change (Json.record? _ (.object _)).bind _ = _
    simp

instance : LawfulForm Forwarding where
  ofJson?_toJson v := by
    change (Json.record? _ (.object _)).bind _ = _
    simp

instance : LawfulForm Payload where
  ofJson?_toJson v := by
    change (Json.record? _ (.object _)).bind _ = _
    simp

instance : LawfulForm PacketPayload where
  ofJson?_toJson
    | .inline p => bind_toJson PacketPayload.inline p
    | .pending h => bind_toJson PacketPayload.pending h

instance : LawfulForm InboundPacket where
  ofJson?_toJson v := by
    change (Json.record? _ (.object _)).bind _ = _
    simp

instance : LawfulForm Transfer where
  ofJson?_toJson v := by
    change (Json.record? _ (.object _)).bind _ = _
    simp

instance : LawfulForm RoutedPacket where
  ofJson?_toJson v := by
    change (Json.record? _ (.object _)).bind _ = _
    simp

instance : LawfulForm PendingEntry where
  ofJson?_toJson v := by
    change (Json.record? _ (.object _)).bind _ = _
    simp

instance : LawfulForm Traffic where
  ofJson?_toJson v := by
    change (Json.record? _ (.object _)).bind _ = _
    simp

instance : LawfulForm Params where
  ofJson?_toJson v := by
    change (Json.record? _ (.object _)).bind _ = _
    simp

instance : LawfulForm Accounts where
  ofJson?_toJson v := by
    change (Json.record? _ (.object _)).bind _ = _
    simp

instance : LawfulForm PendingConfig where
  ofJson?_toJson v := by
    change (Json.record? _ (.object _)).bind _ = _
    simp

instance : LawfulForm Config where
  ofJson?_toJson v := by
    change (Json.record? _ (.object _)).bind _ = _
    simp

end LawfulForm

/-! ## Endpoints

A form is screened when it keeps the values whose endpoints can all be routed, and yields no others.
-/

/-- An endpoint that can be routed: of a supported protocol, and with a counterparty. -/
def CrossChainId.IsValid (id : CrossChainId) : Prop :=
  id.protocol ∈ ProtocolId.supported ∧ id.counterparty ≠ ""

theorem CrossChainId.isValid_iff {id : CrossChainId} : id.IsValid ↔ id.check = .ok () := by
  rw [check_eq_ok, ProtocolId.check_eq_ok, IsValid]
  cases id.protocol <;> simp [ProtocolId.supported]

/-- The endpoints that a report names as a whole. -/
def Event.endpoints : Event → List CrossChainId
  | payloadProcessed source destination .. => [source, destination]
  | _ => []

theorem CrossChainId.isValid_of_read {v : Json} {id : CrossChainId} (h : ofJson? v = some id) :
    id.IsValid := by
  obtain ⟨parts, -, hparts⟩ := Option.bind_eq_some_iff.1 h
  split at hparts
  next protocol counterparty =>
    obtain ⟨p, -, hp⟩ := Option.bind_eq_some_iff.1 hparts
    obtain ⟨c, -, hmake⟩ := Option.bind_eq_some_iff.1 hp
    cases hid : CrossChainId.make p c with
    | error e =>
      rw [hid] at hmake
      cases hmake
    | ok id' =>
      rw [hid] at hmake
      obtain rfl := Option.some.inj hmake
      exact isValid_iff.2 (make_ok hid).2
  next => cases hparts

theorem CrossChainId.read_written {id : CrossChainId} :
    ofJson? (toJson id) = some id ↔ id.IsValid := by
  refine ⟨isValid_of_read, fun h => ?_⟩
  change (Json.record? _ (.object _)).bind _ = _
  simp [CrossChainId.make_eq_ok (isValid_iff.1 h)]
  rfl

theorem CrossChainId.all_isValid_of_read {v : Json} {ids : List CrossChainId}
    (h : ofJson? v = some ids) : ∀ id ∈ ids, id.IsValid := by
  cases v with
  | list vs =>
    have hread := mapM_eq_some.1 h
    clear h
    induction hread with
    | nil => exact fun _ => nofun
    | cons hv _ ih => exact List.forall_mem_cons.2 ⟨isValid_of_read hv, ih⟩
  | _ => cases h

theorem Genesis.isValid_of_read {v : Json} {g : Genesis} (h : ofJson? v = some g) :
    ∀ id ∈ g.pausedRoutes, id.IsValid := by
  obtain ⟨parts, -, hparts⟩ := Option.bind_eq_some_iff.1 h
  split at hparts
  next params actions protocols routes =>
    simp only [Option.bind_eq_bind, Option.bind_eq_some_iff] at hparts
    obtain ⟨_, -, _, -, _, -, ids, hids, hg⟩ := hparts
    obtain rfl := Option.some.inj hg
    obtain ⟨written, -, hwritten⟩ := Option.bind_eq_some_iff.1 hids
    exact CrossChainId.all_isValid_of_read hwritten
  next => cases hparts

theorem Genesis.read_written {g : Genesis} :
    ofJson? (toJson g) = some g ↔ ∀ id ∈ g.pausedRoutes, id.IsValid := by
  refine ⟨isValid_of_read, fun h => ?_⟩
  have hroutes : part (some (toJson g.pausedRoutes)) = some g.pausedRoutes :=
    LawfulForm.ofJson?_list.2 fun id hid => CrossChainId.read_written.2 (h id hid)
  change (Json.record? _ (.object _)).bind _ = _
  simp [hroutes]

/-- Only the report of a dispatch names endpoints as a whole. -/
theorem Event.isValid_of_read_dispatch {v : Json} {source destination : CrossChainId}
    {incoming outgoing : Coin}
    (h : ofJson? v = some (payloadProcessed source destination incoming outgoing)) :
    source.IsValid ∧ destination.IsValid := by
  obtain ⟨parts, -, hparts⟩ := Option.bind_eq_some_iff.1 h
  split at hparts
  case h_1 content =>
    obtain ⟨parts, -, hparts⟩ := Option.bind_eq_some_iff.1 hparts
    split at hparts
    next =>
      simp only [Option.bind_eq_bind, Option.bind_eq_some_iff] at hparts
      obtain ⟨s, hs, d, hd, _, -, _, -, he⟩ := hparts
      cases he
      obtain ⟨_, -, hs⟩ := Option.bind_eq_some_iff.1 hs
      obtain ⟨_, -, hd⟩ := Option.bind_eq_some_iff.1 hd
      exact ⟨CrossChainId.isValid_of_read hs, CrossChainId.isValid_of_read hd⟩
    next => cases hparts
  all_goals simp [Option.bind_eq_some_iff] at hparts

theorem Event.isValid_of_read {v : Json} {e : Event} (h : ofJson? v = some e) :
    ∀ id ∈ e.endpoints, id.IsValid := by
  cases e
  case payloadProcessed source destination incoming outgoing =>
    obtain ⟨hs, hd⟩ := isValid_of_read_dispatch h
    simp [endpoints, hs, hd]
  all_goals exact fun _ => nofun

section

variable {α β : Type} [JsonForm α] [LawfulForm α] [JsonForm β] [LawfulForm β]

@[simp] theorem JsonForm.only_object (name : String) (v : α) :
    JsonForm.only name (.object [(name, toJson v)]) = some v := by
  simp [JsonForm.only, Json.members?_object]

@[simp] theorem JsonForm.both_object {first second : String} (h : first ≠ second) (v : α) (w : β) :
    JsonForm.both first second (.object [(first, toJson v), (second, toJson w)]) = some (v, w) := by
  simp [JsonForm.both, Json.members?_object, h]

end

theorem Event.read_written {e : Event} :
    ofJson? (toJson e) = some e ↔ ∀ id ∈ e.endpoints, id.IsValid := by
  refine ⟨isValid_of_read, fun h => ?_⟩
  cases e
  case payloadProcessed source destination incoming outgoing =>
    have hsource : part (some (toJson source)) = some source :=
      CrossChainId.read_written.2 (h source List.mem_cons_self)
    have hdestination : part (some (toJson destination)) = some destination :=
      CrossChainId.read_written.2 (h destination (List.mem_cons_of_mem _ List.mem_cons_self))
    change Option.bind (some ("PayloadProcessed", Json.object [("source", toJson source),
      ("destination", toJson destination), ("incoming", toJson incoming),
      ("outgoing", toJson outgoing)])) _ = _
    simp [hsource, hdestination, Json.members?_object]
  case feeCharged | counterpartyPaused | counterpartyUnpaused | pendingPayloadSubmitted =>
    change (JsonForm.both _ _ (.object _)).map _ = _
    simp
  all_goals
    change (JsonForm.only _ (.object _)).bind _ = _
    simp

/-- A form from which exactly the values are read back whose endpoints can be routed, and from which
no value is read that names another endpoint. -/
structure ScreenedForm (α : Type) [JsonForm α] (endpoints : α → List CrossChainId) : Prop where
  read_written : ∀ v : α, ofJson? (toJson v) = some v ↔ ∀ id ∈ endpoints v, id.IsValid
  valid_of_read : ∀ (json : Json) (v : α), ofJson? json = some v → ∀ id ∈ endpoints v, id.IsValid

/-- The JSON form loses nothing: every value is read back from its own form, with the exception of
endpoints that cannot be routed, which are never read at all. -/
theorem json_lossless :
    (LawfulForm Coin ∧ LawfulForm Transfer ∧ LawfulForm Action ∧ LawfulForm Forwarding ∧
      LawfulForm Payload ∧ LawfulForm RoutedPacket ∧ LawfulForm PacketPayload ∧
      LawfulForm InboundPacket ∧ LawfulForm PendingEntry ∧ LawfulForm Traffic ∧
      LawfulForm Config) ∧
    ScreenedForm CrossChainId (fun id => [id]) ∧ ScreenedForm Genesis (·.pausedRoutes) ∧
      ScreenedForm Event Event.endpoints := by
  refine ⟨?_, ?_, ?_, ?_⟩
  · refine ⟨?_, ?_, ?_, ?_, ?_, ?_, ?_, ?_, ?_, ?_, ?_⟩ <;> infer_instance
  · exact {
      read_written := fun id => by simpa using CrossChainId.read_written
      valid_of_read := fun _ id h => by simpa using CrossChainId.isValid_of_read h }
  · exact {
      read_written := fun _ => Genesis.read_written
      valid_of_read := fun _ _ => Genesis.isValid_of_read }
  · exact {
      read_written := fun _ => Event.read_written
      valid_of_read := fun _ _ => Event.isValid_of_read }

end TransferRouter
