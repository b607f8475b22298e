import TransferRouter.Proofs.Breaker
import TransferRouter.Proofs.Session

/-!
Calls that fail change nothing, whatever is in the store and whichever calls on it are refused. A
call first reads and checks, which leaves no trace; then it writes once; and what is left to do
after that, the reports, does not fail. Deliveries are the exception: they pass a packet on to
handlers, and what these did stays done.
-/

namespace TransferRouter

open Disk (AllowsReads)

variable {ε ε' σ τ α β : Type}

/-! ## Actions that fail without a trace -/

/-- The state that an action leaves when it fails is related to the one that it found. -/
def Reverts (R : σ → σ → Prop) (act : EStateM ε σ α) : Prop :=
  ∀ ⦃s e t⦄, act s = .error e t → R s t

namespace Reverts

variable {R : σ → σ → Prop} {act : EStateM ε σ α}

theorem of_keeps (h : Keeps R act) : Reverts R act := fun _ _ _ hs => h.error hs

/-- What comes before the step that may not fail halfway leaves a related state either way. -/
theorem bind [IsPreorder σ R] {f : α → EStateM ε σ β} (h : Keeps R act)
    (hf : ∀ a, Reverts R (f a)) : Reverts R (act >>= f) := by
  intro s e t hs
  rcases bind_eq_error.1 hs with hs | ⟨a, u, hact, hs⟩
  · exact h.error hs
  · exact trans_of R (h.ok hact) (hf a hs)

/-- What comes after that step does not fail. -/
theorem finish {f : α → EStateM ε σ β} (h : Reverts R act)
    (hf : ∀ a s e t, ¬ f a s = .error e t) : Reverts R (act >>= f) := by
  intro s e t hs
  rcases bind_eq_error.1 hs with hs | ⟨a, u, -, hs⟩
  · exact h hs
  · exact (hf a u e t hs).elim

theorem ite {act' : EStateM ε σ α} {p : Prop} [Decidable p] (h : Reverts R act)
    (h' : Reverts R act') : Reverts R (if p then act else act') := by
  split
  · exact h
  · exact h'

theorem zoom {view : σ → τ} {update : σ → τ → σ} {wrap : ε → ε'} {S : τ → τ → Prop}
    {act : EStateM ε τ α} (h : Reverts S act) (hR : ∀ s t, S (view s) t → R s (update s t)) :
    Reverts R (TransferRouter.zoom view update wrap act) := by
  intro s e s' hs
  obtain ⟨_, t, ht, _, rfl⟩ := zoom_eq_error.1 hs
  exact hR s t (h ht)

end Reverts

/-! ## The store and the world -/

namespace Disk

/-- The same content. What the medium has been asked meanwhile is left open. -/
def Unwritten (d d' : Disk) : Prop := d'.store = d.store

instance : AllowsReads Unwritten where
  refl _ := rfl
  trans _ _ _ h h' := h'.trans h
  permit call _ := (permit_keeps call).mono fun _ _ h => h.1

/-- A write of whatever kind is made when the medium allows it, and then does not fail. -/
theorem reverts_permit_modify (call : StoreCall) (f : Disk → Disk) :
    Reverts Unwritten (permit call >>= fun _ => modify f : DiskM Unit) :=
  (Reverts.of_keeps ((permit_keeps call).mono fun _ _ h => h.1)).finish fun _ _ _ _ =>
    modify_ne_error

theorem reverts_put (key value : Bytes) : Reverts Unwritten (put key value) :=
  reverts_permit_modify .put _

theorem reverts_delete (key : Bytes) : Reverts Unwritten (delete key) :=
  reverts_permit_modify .delete _

theorem reverts_write (batch : List Write) : Reverts Unwritten (write batch) :=
  reverts_permit_modify .batch _

end Disk

/-- The same content of the store, the same books and the same time. -/
abbrev World.Unchanged (w w' : World) : Prop := w.Within Disk.Unwritten Eq w'

theorem reverts_onDisk {act : DiskM α} (h : Reverts Disk.Unwritten act) :
    Reverts World.Unchanged (RouterM.onDisk act) :=
  h.zoom fun _ _ hd => ⟨hd, rfl, rfl⟩

/-! ## Recorded payloads -/

namespace Pending

theorem reverts_record (entry : PendingEntry) (next : UInt64) :
    Reverts World.Unchanged (record entry next) := by
  have hwrite : Reverts World.Unchanged (do
      RouterM.onDisk (Disk.write (recording entry next))
      RouterM.emit (.pendingPayloadSubmitted entry.hash entry.sequence)
      return entry.hash) := by
    refine (reverts_onDisk (Disk.reverts_write _)).finish fun _ _ _ _ h => ?_
    rcases bind_eq_error.1 h with h | ⟨_, _, -, h⟩
    · exact emit_ne_error h
    · exact pure_ne_error h
  exact .bind (keeps_onDisk (Disk.keeps_contains _)) fun taken =>
    .ite (.bind (Keeps.throw _) fun _ => hwrite) hwrite

theorem reverts_submit (payload : Payload) : Reverts World.Unchanged (submit payload) := by
  rw [submit_eq]
  exact .bind (draft_keeps payload) fun p => reverts_record p.1 p.2

theorem reverts_take (hash : PayloadHash) : Reverts World.Unchanged (take hash) := by
  refine .bind (get?_keeps hash) fun found => ?_
  cases found with
  | none => exact .of_keeps (Keeps.throw _)
  | some entry =>
    refine (reverts_onDisk (Disk.reverts_write _)).finish fun _ _ _ _ h => ?_
    rcases bind_eq_error.1 h with h | ⟨_, _, -, h⟩
    · exact emit_ne_error h
    · exact pure_ne_error h

theorem reverts_drop (limit cutoff : UInt64) : Reverts Disk.Unwritten (drop limit cutoff) := by
  refine .bind (Disk.keeps_range _ _ _) fun entries => .bind (Keeps.settle _ _) fun index => ?_
  exact .ite ((Disk.reverts_write _).finish fun _ _ _ _ => pure_ne_error)
    (.of_keeps (Keeps.pure _))

theorem reverts_sweep (limit cutoff : UInt64) :
    Reverts World.Unchanged (sweep limit cutoff) := by
  rw [sweep_eq]
  refine (reverts_onDisk (reverts_drop limit cutoff)).finish fun index _ _ _ h => ?_
  rcases bind_eq_error.1 h with h | ⟨_, _, -, h⟩
  · exact emits_ne_error h
  · exact pure_ne_error h

/-- A sweep that meets a key of the time index that it cannot read fails. -/
theorem sweep_of_unreadable {w : World} {limit cutoff : UInt64} {key value : Bytes}
    (hentry : (key, value) ∈ w.disk.store.range Key.timeIndex (Key.timeBound cutoff) limit.toNat)
    (hkey : ∀ parsed, Key.readTimeKey key ≠ .ok parsed) :
    ∃ e w', sweep limit cutoff w = .error e w' := by
  cases hrun : sweep limit cutoff w with
  | error e w' => exact ⟨e, w', rfl⟩
  | ok hashes w' =>
    rw [sweep_eq] at hrun
    obtain ⟨index, u, hdrop, -⟩ := bind_eq_ok.1 hrun
    obtain ⟨d, hdrop', -⟩ := onDisk_eq_ok.1 hdrop
    obtain ⟨entries, d₁, hrange, hrest⟩ := bind_eq_ok.1 hdrop'
    obtain ⟨index', d₂, hindex, -⟩ := bind_eq_ok.1 hrest
    obtain ⟨hread, -⟩ := settle_eq_ok.1 hindex
    rw [Disk.range_ok hrange] at hread
    obtain ⟨e, he⟩ := exists_of_mapM_eq_ok hread _ hentry
    cases hparsed : Key.readTimeKey key with
    | ok parsed => exact absurd hparsed (hkey parsed)
    | error fault =>
      rw [hparsed] at he
      exact absurd he nofun

end Pending

/-! ## Breakers, parameters and imports -/

theorem reverts_authorized (r : Router) (signer : String) {act : RouterM α}
    (h : Reverts World.Unchanged act) : Reverts World.Unchanged (r.authorized signer act) :=
  .bind (Keeps.settle _ _) fun _ => h

namespace Breaker

theorem reverts_set (key : Key) (paused : Bool) : Reverts World.Unchanged (set key paused) := by
  refine reverts_onDisk (.bind (Disk.keeps_contains _) fun present => ?_)
  match present, paused with
  | false, true => exact (Disk.reverts_put _ _).finish fun _ _ _ _ => pure_ne_error
  | true, false => exact (Disk.reverts_delete _).finish fun _ _ _ _ => pure_ne_error
  | true, true => exact .of_keeps (Keeps.pure _)
  | false, false => exact .of_keeps (Keeps.pure _)

/-- A breaker is set before the change is reported. -/
theorem reverts_set_then_emit (key : Key) (paused : Bool) (event : Event) :
    Reverts World.Unchanged
      (do if ← set key paused then RouterM.emit event : RouterM Unit) := by
  refine (reverts_set key paused).finish fun changed _ _ _ h => ?_
  cases changed with
  | true => exact emit_ne_error h
  | false => exact pure_ne_error h

theorem reverts_setRoutes (protocol : ProtocolId) (counterparties : List String) (paused : Bool) :
    Reverts World.Unchanged (setRoutes protocol counterparties paused) := by
  refine .bind (Keeps.checked _) fun routes => ?_
  refine (reverts_onDisk ?_).finish fun _ _ _ _ => emits_ne_error
  refine .bind (keeps_routesToChange paused routes) fun changed => ?_
  exact .ite ((Disk.reverts_write _).finish fun _ _ _ _ => pure_ne_error)
    (.of_keeps (Keeps.pure _))

end Breaker

theorem Toggle.reverts_perform (call : Toggle) : Reverts World.Unchanged call.perform := by
  match call with
  | action id paused =>
    exact .bind (Keeps.checked _) fun _ => Breaker.reverts_set_then_emit _ paused _
  | traffic protocol [] paused =>
    exact .bind (Keeps.checked _) fun _ => Breaker.reverts_set_then_emit _ paused _
  | traffic protocol (counterparty :: rest) paused =>
    exact .bind (Keeps.checked _) fun _ => Breaker.reverts_setRoutes protocol _ paused

theorem Router.reverts_updateParams (r : Router) (signer : String) (params : Params) :
    Reverts World.Unchanged (r.updateParams signer params) :=
  reverts_authorized r signer (.bind (Keeps.checked _) fun _ =>
    (reverts_onDisk (Disk.reverts_put _ _)).finish fun _ _ _ _ => emit_ne_error)

theorem Genesis.reverts_importState (g : Genesis) : Reverts World.Unchanged g.importState :=
  .bind (Keeps.checked _) fun _ => reverts_onDisk (Disk.reverts_write _)

theorem Genesis.importState_of_invalid {g : Genesis} (h : ¬ g.Valid) (w : World) :
    ∃ cause, g.importState w = .error (.validation cause) w := by
  cases hcheck : g.check with
  | ok _ => exact absurd (Genesis.check_eq_ok.1 hcheck) h
  | error cause =>
    refine ⟨cause, bind_of_error ?_⟩
    rw [checked, hcheck]
    rfl

theorem Router.reverts_accept (r : Router) (source : CrossChainId) (raw : Bytes) :
    Reverts World.Unchanged (r.accept source raw) := by
  refine .bind (keeps_resolve r source raw) fun p => ?_
  refine Reverts.finish ?_ fun _ _ _ _ => pure_ne_error
  cases p.2 with
  | none => exact .of_keeps (Keeps.pure _)
  | some hash => exact (Pending.reverts_take hash).finish fun _ _ _ _ => pure_ne_error

/-! ## Calls -/

namespace Call

/-- A call that carries a packet all the way. -/
def IsDelivery : Call → Prop
  | deliver .. => True
  | _ => False

/-- A call that cannot succeed for what it names, or for what a sweep finds in the index: a
counterparty that may not be routed, wherever it stands in the list, a key that cannot be read, or a
reserved or malformed name in an import. -/
def Flawed (r : Router) (w : World) : Call → Prop
  | setTraffic _ protocol counterparties _ =>
    ∃ counterparty ∈ counterparties, CrossChainId.check ⟨protocol, counterparty⟩ ≠ .ok ()
  | sweep cutoff => Unreadable cutoff
  | endBlock now => Unreadable (Pending.cutoffAt now r.config.pending.lifetime)
  | importState g => (∃ a ∈ g.pausedActions, a.check ≠ .ok ()) ∨
      (∃ p ∈ g.pausedProtocols, p.check ≠ .ok ()) ∨ ∃ route ∈ g.pausedRoutes, route.check ≠ .ok ()
  | _ => False
where
  Unreadable (cutoff : UInt64) : Prop :=
    ∃ e ∈ w.disk.store.range Key.timeIndex (Key.timeBound cutoff)
      r.config.pending.sweepLimit.toNat, ∀ parsed, Key.readTimeKey e.1 ≠ .ok parsed

variable {r : Router} {w : World} {call : Call}

theorem reverts_perform (h : ¬ call.IsDelivery) : Reverts World.Unchanged (call.perform r) := by
  have hanswer : ∀ {γ : Type} {act : RouterM γ} (f : γ → Answer), Reverts World.Unchanged act →
      Reverts World.Unchanged (act >>= fun c => pure (f c)) :=
    fun _ hact => hact.finish fun _ _ _ _ => pure_ne_error
  cases call with
  | submit signer payload => exact hanswer .hash (Pending.reverts_submit payload)
  | complete hash => exact hanswer .entry (Pending.reverts_take hash)
  | remove hash => exact hanswer (fun _ => .done) (Pending.reverts_take hash)
  | removePending signer hash =>
    refine hanswer (fun _ => .done) (reverts_authorized r signer ?_)
    exact (Pending.reverts_take hash).finish fun _ _ _ _ => pure_ne_error
  | sweep cutoff => exact hanswer .hashes (Pending.reverts_sweep _ cutoff)
  | endBlock now => exact hanswer .hashes (Pending.reverts_sweep _ _)
  | accept source raw => exact hanswer .packet (r.reverts_accept source raw)
  | deliver source raw receive => exact absurd trivial h
  | setAction signer action paused =>
    exact hanswer (fun _ => .done)
      (reverts_authorized r signer (Toggle.action action paused).reverts_perform)
  | setTraffic signer protocol counterparties paused =>
    exact hanswer (fun _ => .done) (reverts_authorized r signer
      (Toggle.traffic protocol counterparties paused).reverts_perform)
  | updateParams signer params =>
    exact hanswer (fun _ => .done) (r.reverts_updateParams signer params)
  | importState genesis => exact hanswer (fun _ => .done) genesis.reverts_importState

theorem fails_of_flawed (h : call.Flawed r w) : ∃ e w', call.perform r w = .error e w' := by
  cases call with
  | setTraffic signer protocol counterparties paused =>
    obtain ⟨counterparty, hmem, hbad⟩ := h
    have hinvalid : ¬ (Toggle.traffic protocol counterparties paused).Valid :=
      fun hvalid => hbad (hvalid.2 _ (List.mem_map_of_mem hmem))
    obtain ⟨e, he⟩ := Toggle.perform_of_invalid (w := w) hinvalid
    by_cases hsigner : signer = r.authority
    · exact ⟨e, w, bind_of_error ((congrFun (Router.authorized_of_eq hsigner _) w).trans he)⟩
    · exact ⟨_, w, bind_of_error (Router.authorized_of_ne hsigner _ w)⟩
  | sweep cutoff =>
    obtain ⟨⟨key, value⟩, hentry, hkey⟩ := h
    obtain ⟨e, w', he⟩ := Pending.sweep_of_unreadable hentry hkey
    exact ⟨e, w', bind_of_error he⟩
  | endBlock now =>
    obtain ⟨⟨key, value⟩, hentry, hkey⟩ := h
    obtain ⟨e, w', he⟩ := Pending.sweep_of_unreadable hentry hkey
    exact ⟨e, w', bind_of_error he⟩
  | importState g =>
    have hinvalid : ¬ g.Valid := by
      intro hvalid
      rcases h with ⟨a, ha, hbad⟩ | ⟨p, hp, hbad⟩ | ⟨route, hroute, hbad⟩
      · exact hbad (ActionId.check_eq_ok.2 (hvalid.actions a ha))
      · exact hbad (ProtocolId.check_eq_ok.2 (hvalid.protocols p hp))
      · obtain ⟨hprotocol, hcounterparty⟩ := hvalid.routes route hroute
        exact hbad (CrossChainId.check_eq_ok.2
          ⟨ProtocolId.check_eq_ok.2 hprotocol, hcounterparty⟩)
    obtain ⟨cause, hrun⟩ := Genesis.importState_of_invalid hinvalid w
    exact ⟨_, w, bind_of_error hrun⟩
  | _ => exact h.elim

end Call

/-- Whatever is in the store and whichever calls on it are refused: a call that fails, deliveries
apart, leaves the content of the store, the books and the time as they were, and a flawed call
fails. The same goes for the breakers when they are turned without a signer; there a call that names
something that may not be routed leaves the whole state as it was. -/
theorem unchanged_of_failed (r : Router) (w : World) :
    (∀ call : Call, ¬ call.IsDelivery →
      (∀ e w', call.perform r w = .error e w' → w.Unchanged w') ∧
        (call.Flawed r w → ∃ e w', call.perform r w = .error e w' ∧ w.Unchanged w')) ∧
    ∀ call : Toggle,
      (∀ e w', call.perform w = .error e w' → w.Unchanged w') ∧
        (¬ call.Valid → ∃ e, call.perform w = .error e w) := by
  refine ⟨fun call hcall => ?_, fun call => ?_⟩
  · have hreverts := Call.reverts_perform (r := r) hcall
    refine ⟨fun e w' h => hreverts h, fun hflawed => ?_⟩
    obtain ⟨e, w', hfails⟩ := Call.fails_of_flawed hflawed
    exact ⟨e, w', hfails, hreverts hfails⟩
  · exact ⟨fun e w' h => call.reverts_perform h, Toggle.perform_of_invalid⟩

namespace Testbed

/-- A state whose time index has a key that is too short, whose sequence counter stands at 7, and
whose medium refuses all batches. -/
def damaged : World :=
  let store := Store.applyAll .empty
    [.put [0x32, 0x00] [], .put Key.sequence.bytes (Codec.encode (7 : UInt64))]
  { world with disk := ⟨store, .after [.batch] 0 (.io "disk full")⟩ }

theorem unchanged_damaged :
    (∃ e w', (Call.endBlock damaged.clock).perform router damaged = .error e w' ∧
      damaged.Unchanged w') ∧
    (∃ e w', (Call.submit "alice" payload).perform router damaged = .error e w' ∧
      damaged.Unchanged w') ∧
    ∃ e w', (Call.setTraffic "gov" .ibc ["channel-0", "", "channel-1"] true).perform router
      damaged = .error e w' ∧ damaged.Unchanged w' := by
  have hunchanged := (unchanged_of_failed router damaged).1
  refine ⟨?_, ?_, ?_⟩
  · refine (hunchanged (.endBlock damaged.clock) id).2 ⟨([0x32, 0x00], []), ?_, ?_⟩
    · decide +kernel
    · rintro _ ⟨⟩
  · have hfails : succeeds ((Call.submit "alice" payload).perform router) damaged = false := by
      decide +kernel
    obtain ⟨e, w', hrun⟩ := exists_of_fails hfails
    exact ⟨e, w', hrun, (hunchanged _ id).1 e w' hrun⟩
  · exact (hunchanged (.setTraffic "gov" .ibc ["channel-0", "", "channel-1"] true) id).2
      ⟨"", by decide, by decide⟩

end Testbed

end TransferRouter
