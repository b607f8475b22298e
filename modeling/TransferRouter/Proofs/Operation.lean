import TransferRouter.Proofs.Breaker
import TransferRouter.Proofs.Candor
import TransferRouter.Proofs.Coherence
import TransferRouter.Proofs.Session

/-!
Everything that is ever asked of a store: routers are built on it, calls are made on them, single
stages of a dispatch are run, and questions are asked. In whatever order that happens, from an empty
store on, what is in the store can be read, no operation fails for what it finds there, and all
questions are answered.
-/

namespace TransferRouter

open Codec LawfulCodec
open RouterError (Blameless)

variable {founded : Prop} {E : RouterError → Prop} {α : Type}

/-! ## Questions -/

/-- What can be asked about what is in the store. -/
inductive Query where
  | params
  | isOpen (key : Key)
  | pausedActions
  | pausedProtocols
  | pausedRoutes (protocol : Option ProtocolId)
  | traffic (source destination : CrossChainId) (denom : String)
  | trafficOver (source destination : CrossChainId)
  | dispatches (source destination : CrossChainId)
  | pending (hash : PayloadHash)
  | pendingCount
  | nextSequence
  | state

/-- Asks a question and forgets the answer. -/
def Query.ask : Query → RouterM Unit
  | params => do let _ ← loadParams
  | isOpen key => do let _ ← Breaker.isOpen key
  | pausedActions => do let _ ← Breaker.pausedActions
  | pausedProtocols => do let _ ← Breaker.pausedProtocols
  | pausedRoutes protocol => do let _ ← Breaker.pausedRoutes protocol
  | traffic source destination denom => do let _ ← Statistics.traffic source destination denom
  | trafficOver source destination => do let _ ← Statistics.trafficOver source destination
  | dispatches source destination => do let _ ← Statistics.dispatches source destination
  | pending hash => do let _ ← Pending.get? hash
  | pendingCount => do let _ ← Pending.count
  | nextSequence => do let _ ← Pending.nextSequence
  | state => do let _ ← Genesis.exportState

/-- A listing decodes all that it finds when everything under keys that start as asked can be
decoded. -/
theorem upholds_mapM {f : Bytes × Bytes → Except StoreFault α} {Q : α → Prop} {front : UInt8}
    {start : Bytes} (h : ∀ (k : Key) (value : Bytes), k.family = front → k.MayHold value →
      ∃ a, f (k.bytes, value) = .ok a ∧ Q a) :
    Upholds (World.Sound founded) E
      (RouterM.onDisk do
        let entries ← Disk.extensions (front :: start)
        settle id (entries.mapM f))
      fun as => ∀ a ∈ as, Q a := by
  refine upholds_onDisk ((Disk.upholds_extensions _).bind fun entries hentries => ?_)
  have hread : ∀ e ∈ entries, ∃ a, f e = .ok a ∧ Q a := by
    rintro ⟨key, value⟩ he
    obtain ⟨hstart, k, hkey, hk⟩ := hentries _ he
    obtain rfl : k.bytes = key := hkey
    have hfamily := Bytes.head?_of_isPrefixOf hstart
    rw [Key.head?_bytes] at hfamily
    exact h k value (Option.some.inj hfamily) hk
  refine (Upholds.settled fun fault hfault => ?_).weaken fun as has a ha => ?_
  · obtain ⟨e, he, herror⟩ := exists_of_mapM_eq_error hfault
    obtain ⟨a, hok, -⟩ := hread e he
    rw [hok] at herror
    exact absurd herror nofun
  · obtain ⟨e, he, hok⟩ := exists_of_mem_mapM has a ha
    obtain ⟨b, hok', hb⟩ := hread e he
    rw [hok] at hok'
    exact Except.ok.inj hok' ▸ hb

namespace Breaker

theorem upholds_pausedActions : Upholds (World.Sound founded) E pausedActions fun _ => True := by
  refine (upholds_mapM (Q := fun _ => True) fun k value hfamily hk => ?_).any
  cases k <;> try (simp [Key.family] at hfamily; done)
  exact ⟨_, hk.readsAs.suffix, trivial⟩

theorem upholds_pausedProtocols :
    Upholds (World.Sound founded) E pausedProtocols fun _ => True := by
  refine (upholds_mapM (Q := fun _ => True) fun k value hfamily hk => ?_).any
  cases k <;> try (simp [Key.family] at hfamily; done)
  exact ⟨_, hk.readsAs.suffix, trivial⟩

theorem upholds_pausedRoutes (protocol : Option ProtocolId) :
    Upholds (World.Sound founded) E (pausedRoutes protocol) fun _ => True := by
  have hlisted : Upholds (World.Sound founded) E
      (listed (ProtocolId × String) (protocol.elim Key.pausedRoutes Key.pausedRoutesOf))
      fun pairs => ∀ pair ∈ pairs, CrossChainId.check ⟨pair.1, pair.2⟩ = .ok () := by
    cases protocol
    all_goals
      refine upholds_mapM fun k value hfamily hk => ?_
      cases k <;> try (simp [Key.family] at hfamily; done)
      exact ⟨_, hk.readsAs.suffix, hk.1.1⟩
  refine hlisted.bind fun pairs hpairs => (Upholds.settle fun cause hcause => ?_).any
  rw [mapM_make hpairs] at hcause
  cases hcause

end Breaker

theorem Statistics.upholds_trafficOver (source destination : CrossChainId) :
    Upholds (World.Sound founded) E (trafficOver source destination) fun _ => True := by
  refine (upholds_mapM (Q := fun _ => True) fun k value hfamily hk => ?_).any
  cases k <;> try (simp [Key.family] at hfamily; done)
  obtain ⟨t, ht⟩ := hk.legible
  refine ⟨_, except_bind_eq_ok.2 ⟨_, hk.readsAs.suffix, except_bind_eq_ok.2 ⟨t, ht, rfl⟩⟩, trivial⟩

theorem Pending.upholds_count : Upholds (World.Sound founded) E count fun _ => True :=
  (upholds_onDisk (Disk.upholds_extensions _)).bind fun _ _ => .pure trivial

theorem Genesis.upholds_exportState :
    Upholds (World.Sound founded) E exportState fun _ => True :=
  upholds_loadParams.bind fun _ _ => Breaker.upholds_pausedActions.bind fun _ _ =>
    Breaker.upholds_pausedProtocols.bind fun _ _ =>
      (Breaker.upholds_pausedRoutes none).bind fun _ _ => .pure trivial

/-- No question fails. -/
theorem Query.upholds_ask (q : Query) :
    Upholds (World.Sound founded) E q.ask fun _ => True := by
  cases q with
  | params => exact upholds_loadParams.bind fun _ _ => .done
  | isOpen key => exact (upholds_isOpen key).bind fun _ _ => .done
  | pausedActions => exact Breaker.upholds_pausedActions.bind fun _ _ => .done
  | pausedProtocols => exact Breaker.upholds_pausedProtocols.bind fun _ _ => .done
  | pausedRoutes protocol => exact (Breaker.upholds_pausedRoutes protocol).bind fun _ _ => .done
  | traffic source destination denom =>
    exact (Statistics.upholds_traffic source destination denom).bind fun _ _ => .done
  | trafficOver source destination =>
    exact (Statistics.upholds_trafficOver source destination).bind fun _ _ => .done
  | dispatches source destination =>
    exact (Statistics.upholds_dispatches source destination).bind fun _ _ => .done
  | pending hash => exact (Pending.upholds_get? hash).bind fun _ _ => .done
  | pendingCount => exact Pending.upholds_count.bind fun _ _ => .done
  | nextSequence => exact Pending.upholds_nextSequence.bind fun _ _ => .done
  | state => exact Genesis.upholds_exportState.bind fun _ _ => .done

/-! ## Builds -/

section

variable {κ ρ : Type} [DecidableEq κ] [RouteKey κ]

theorem Registry.failsIn_add [Lenient E] (r : Registry κ ρ) (key : κ) (handler : ρ) :
    FailsIn E (r.add key handler) := by
  unfold add
  split
  · exact .error (blameless rfl)
  · split
    · exact .error (blameless rfl)
    · split
      · exact .error (blameless rfl)
      · exact .ok

theorem Registry.upholds_ofList [Lenient E] (key : ρ → κ) (handlers : List ρ) :
    Upholds (World.Sound founded) E (settle id (ofList key handlers) : RouterM (Registry κ ρ))
      fun _ => True := by
  have hofList : FailsIn E (ofList key handlers) :=
    (FailsIn.foldlM (fun r h => failsIn_add r (key h) h) handlers empty).map
  exact (Upholds.settled hofList).any

end

namespace Blueprint

theorem upholds_storeParams [Lenient E] (b : Blueprint) :
    Upholds (World.Sound founded) E b.storeParams fun _ => True := by
  refine upholds_readParams.bind fun found _ => ?_
  cases found with
  | some p => exact .done
  | none => exact Genesis.upholds_importState fun _ h => absurd h List.not_mem_nil

theorem upholds_build [Lenient E] (b : Blueprint) :
    Upholds (World.Sound founded) E b.build fun _ => True := by
  refine Upholds.bind (.settle fun _ _ => blameless rfl) fun _ _ => ?_
  refine (upholds_storeParams b).bind fun _ _ => ?_
  refine (Registry.upholds_ofList _ _).bind fun _ _ => ?_
  refine (Registry.upholds_ofList _ _).bind fun _ _ => ?_
  exact (Registry.upholds_ofList _ _).bind fun _ _ => .pure trivial

end Blueprint

/-! ## Calls -/

namespace Call

/-- The texts of a call can be kept in the store. If it brings a packet, the handlers are candid,
and what moves the funds fails only in ways that are allowed, too. -/
def Proper (E : RouterError → Prop) (r : Router) : Call → Prop
  | submit _ payload => Fits payload
  | accept source raw => r.Candid E ∧ Fits source.counterparty ∧ r.Brief source raw
  | deliver source raw receive => (r.Candid E ∧ Fits source.counterparty ∧ r.Brief source raw) ∧
    ∀ packet, Upholds (fun _ => True) E (receive packet) fun _ => True
  | setTraffic _ protocol counterparties paused =>
    (Toggle.traffic protocol counterparties paused).Fits
  | importState genesis => genesis.Short
  | _ => True

theorem upholds_perform [Lenient E] {r : Router} {call : Call} (h : call.Proper E r) :
    Upholds (World.Sound founded) E (call.perform r) fun _ => True := by
  have hanswer : ∀ {γ : Type} {act : RouterM γ} (f : γ → Answer),
      (Upholds (World.Sound founded) E act fun _ => True) →
      Upholds (World.Sound founded) E (act >>= fun c => pure (f c)) fun _ => True :=
    fun _ hact => hact.bind fun _ _ => .pure trivial
  cases call with
  | submit signer payload => exact hanswer .hash (Pending.upholds_submit h)
  | complete hash => exact hanswer .entry (Pending.upholds_take hash)
  | remove hash => exact hanswer (fun _ => .done) (Pending.upholds_take hash)
  | removePending signer hash =>
    exact hanswer (fun _ => .done) (upholds_authorized r signer
      ((Pending.upholds_take hash).bind fun _ _ => .done))
  | sweep cutoff => exact hanswer .hashes (Pending.upholds_sweep _ cutoff)
  | endBlock now => exact hanswer .hashes (Pending.upholds_sweep _ _)
  | accept source raw =>
    obtain ⟨hr, hsource, hraw⟩ := h
    exact hanswer .packet (Router.upholds_accept hr hsource hraw)
  | deliver source raw receive =>
    obtain ⟨⟨hr, hsource, hraw⟩, hreceive⟩ := h
    exact hanswer .packet (Router.upholds_deliver hr hsource hraw hreceive)
  | setAction signer action paused =>
    exact hanswer (fun _ => .done)
      (upholds_authorized r signer (Breaker.upholds_setAction action paused))
  | setTraffic signer protocol counterparties paused =>
    exact hanswer (fun _ => .done)
      (upholds_authorized r signer (Breaker.upholds_setTraffic h paused))
  | updateParams signer params =>
    exact hanswer (fun _ => .done) (r.upholds_updateParams signer params)
  | importState genesis => exact hanswer (fun _ => .done) (Genesis.upholds_importState h)

end Call

theorem Toggle.upholds_perform [Lenient E] {call : Toggle} (h : call.Fits) :
    Upholds (World.Sound founded) E call.perform fun _ => True := by
  cases call with
  | action id paused => exact Breaker.upholds_setAction id paused
  | traffic protocol counterparties paused => exact Breaker.upholds_setTraffic h paused

/-! ## Operations -/

/-- What can be done with a store: to build a router on it, to make a call on a router or on the
breakers, to run a stage of a dispatch by itself, and to ask a question. In between the books may
change in any way. -/
inductive Operation where
  | build (b : Blueprint)
  | call (r : Router) (c : Call)
  | toggle (t : Toggle)
  | beforeArrival (r : Router) (packet : RoutedPacket)
  | afterArrival (r : Router) (packet : RoutedPacket)
  | process (r : Router) (packet : RoutedPacket)
  | dispatch (r : Router) (packet : RoutedPacket)
  | execute (r : Router) (packet : ActionPacket)
  | forward (r : Router) (packet : ForwardingPacket)
  | ask (q : Query)
  | replaceBooks (books : Books)

namespace Operation

def perform : Operation → RouterM Unit
  | build b => do let _ ← b.build
  | call r c => do let _ ← c.perform r
  | toggle t => t.perform
  | beforeArrival r packet => r.beforeArrival packet
  | afterArrival r packet => r.afterArrival packet
  | process r packet => do let _ ← RouterM.staged packet.transfer (r.process packet.payload)
  | dispatch r packet => do let _ ← RouterM.staged packet.transfer (r.dispatch packet.payload)
  | execute r packet => do let _ ← RouterM.staged packet.transfer (r.execute packet.action)
  | forward r packet => r.forward packet
  | ask q => q.ask
  | replaceBooks books => modify fun w => { w with books := books }

/-- The texts can be kept in the store, and handlers that are run are candid. -/
def Proper (E : RouterError → Prop) : Operation → Prop
  | call r c => c.Proper E r
  | toggle t => t.Fits
  | process r packet | dispatch r packet => r.Candid E ∧ packet.transfer.Short ∧ Fits packet.payload
  | execute r packet => r.Candid E ∧ packet.transfer.Short ∧ Fits packet.action
  | forward r _ => r.Candid E
  | _ => True

theorem upholds_perform [Lenient E] {op : Operation} (h : op.Proper E) :
    Upholds (World.Sound founded) E op.perform fun _ => True := by
  cases op with
  | build b => exact b.upholds_build.bind fun _ _ => .done
  | call r c => exact (Call.upholds_perform h).bind fun _ _ => .done
  | toggle t => exact Toggle.upholds_perform h
  | beforeArrival r packet => exact r.upholds_beforeArrival packet
  | afterArrival r packet => exact r.upholds_afterArrival packet
  | process r packet =>
    obtain ⟨hr, htransfer, hpayload⟩ := h
    exact (upholds_staged (Router.upholds_process hr hpayload) htransfer).bind fun _ _ => .done
  | dispatch r packet =>
    obtain ⟨hr, htransfer, hpayload⟩ := h
    exact (upholds_staged (Router.upholds_dispatch hr hpayload) htransfer).bind fun _ _ => .done
  | execute r packet =>
    obtain ⟨hr, htransfer, haction⟩ := h
    exact (upholds_staged (Router.upholds_execute hr haction) htransfer).bind fun _ _ => .done
  | forward r packet => exact Router.upholds_forward h packet
  | ask q => exact q.upholds_ask
  | replaceBooks books => exact .modify fun _ hw => hw

/-- The world after some operations, each at its own time, whatever came of them. -/
def run (w : World) : List (UInt64 × Operation) → World
  | [] => w
  | (now, op) :: rest => run (leaves op.perform { w with clock := now }) rest

theorem sound_run [Lenient E] {w : World} (hw : w.Sound founded)
    {ops : List (UInt64 × Operation)} (hops : ∀ op ∈ ops, op.2.Proper E) :
    (run w ops).Sound founded := by
  induction ops generalizing w with
  | nil => exact hw
  | cons op ops ih =>
    obtain ⟨hop, hops⟩ := List.forall_mem_cons.1 hops
    have hclock : World.Sound founded { w with clock := op.1 } := hw
    exact ih ((upholds_perform hop).leaves hclock) hops

end Operation

/-- Everything that is stored has a key of exactly one of the families, from which the thing that it
names is read back, and a value that is read as one of its family. -/
def Store.Legible (s : Store) : Prop :=
  ∀ key value, s.get? key = some value → ∃ k : Key, k.bytes = key ∧ Key.ReadsAs key k ∧
    (∀ l, Key.ReadsAs key l → l = k) ∧ k.Legible value

theorem Store.Orderly.legible {s : Store} (h : s.Orderly) : s.Legible := by
  intro key value hvalue
  obtain ⟨k, rfl, hk⟩ := h key value hvalue
  exact ⟨k, rfl, hk.readsAs, fun l hl => hl.unique hk.readsAs, hk.legible⟩

/-- From an empty store on, after any operations whose texts can be kept in a store, everything in
the store can be read and all questions are answered. The next operation does not fail for the
store, unless it runs a handler that says so. -/
theorem legible_of_run {w : World} (hw : w.disk.Reliable)
    (hempty : ∀ key, w.disk.store.get? key = none) {ops : List (UInt64 × Operation)}
    (hops : ∀ op ∈ ops, op.2.Proper fun _ => True) :
    let u := Operation.run w ops
    u.disk.store.Legible ∧
      (∀ op : Operation, op.Proper Blameless → ∀ now e u',
        op.perform { u with clock := now } = .error e u' → e.Blameless) ∧
      ∀ (q : Query) now, ∃ u', q.ask { u with clock := now } = .ok () u' := by
  have hstart : w.Sound False := ⟨hw, Store.orderly_of_absent hempty, False.elim⟩
  have hsound := Operation.sound_run hstart hops
  refine ⟨hsound.orderly.legible, fun op hop now e u' hrun => ?_, fun q now => ?_⟩
  · exact ((Operation.upholds_perform hop).error
      (s := { Operation.run w ops with clock := now }) hsound hrun).2
  · have hanswered : Upholds (World.Sound False) (fun _ => False) q.ask fun _ => True :=
      q.upholds_ask
    have hask := hanswered { Operation.run w ops with clock := now } hsound
    cases hrun : q.ask { Operation.run w ops with clock := now } with
    | ok _ u' => exact ⟨u', rfl⟩
    | error e u' =>
      rw [hrun] at hask
      exact hask.2.elim

namespace Testbed

/-- A router is built, a route with a colon in its name paused, a payload recorded and swept, a
packet delivered, and the state asked for. -/
def chores : List (UInt64 × Operation) :=
  [(10, .build (blueprint config)), (20, .call router (.setTraffic "gov" .ibc ["a:b"] true)),
    (30, .call router (.submit "alice" payload)), (40, .call router (.sweep 35)),
    (50, .call (carrier ⟨coin, .inline payload⟩) (.deliver origin [] receive)), (60, .ask .state)]

theorem brief_carrier {inbound : InboundPacket} (h : inbound.Short) (source : CrossChainId)
    (raw : Bytes) : (carrier inbound).Brief source raw := by
  intro parser inbound' hp hparse
  obtain ⟨_, hfound, rfl⟩ := Option.map_eq_some_iff.1 hp
  obtain rfl := List.mem_singleton.1 (List.mem_of_find?_eq_some hfound)
  exact Except.ok.inj hparse ▸ h

theorem proper_chores [Lenient E] : ∀ op ∈ chores, op.2.Proper E := by
  have hshort : InboundPacket.Short ⟨coin, .inline payload⟩ := by
    refine ⟨by decide +kernel, fun p hp => ?_⟩
    obtain rfl := PacketPayload.inline.inj hp
    exact fits_payload
  have hroute : Toggle.Fits (.traffic .ibc ["a:b"] true) := by decide +kernel
  have horigin : Fits origin.counterparty := by decide +kernel
  simp only [chores, List.forall_mem_cons]
  exact ⟨trivial, hroute, fits_payload, trivial,
    ⟨⟨candid_carrier _, horigin, brief_carrier hshort _ _⟩, fun _ => upholds_mint _ _⟩, trivial,
    fun _ hop => absurd hop List.not_mem_nil⟩

theorem legible_chores :
    (Operation.run world chores).disk.store.Legible ∧
      (Operation.run world chores).disk.store.entries.length = 5 ∧
      ∃ u, (Query.ask .state) { Operation.run world chores with clock := 70 } = .ok () u := by
  obtain ⟨hlegible, -, hasked⟩ := legible_of_run reliable_world get?_world proper_chores
  exact ⟨hlegible, by decide +kernel, hasked .state 70⟩

end Testbed

end TransferRouter
