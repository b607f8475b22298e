import TransferRouter.Proofs.Conservation
import TransferRouter.Proofs.Statistics
import TransferRouter.Proofs.Trace

/-!
Statistics have no influence on dispatches. Two runs of a dispatch over stores that differ in the
statistics only, and whose media may refuse to read or to write them, hand over the same, answer the
same, and leave the same transfer and the same books.
-/

namespace TransferRouter

open Disk (Apart)

/-- Media that answer what breakers ask, with the same content apart from statistics. -/
structure Disk.Aligned (d d' : Disk) : Prop where
  asked : d.faults.concerns .contains = false
  asked' : d'.faults.concerns .contains = false
  get? : ∀ key, ¬ Statistics.IsTotal key → d'.store.get? key = d.store.get? key

/-- Worlds with the same books whose stores differ in the statistics only. -/
structure World.Aligned (w w' : World) : Prop where
  disk : w.disk.Aligned w'.disk
  books : w.books = w'.books

/-- The same transfer in worlds that differ in the statistics only. -/
structure Stage.Aligned (s s' : Stage) : Prop where
  world : s.world.Aligned s'.world
  transfer : s.transfer = s'.transfer

/-- Changes of statistics keep media aligned, also when they are not the same on both. -/
theorem Disk.Aligned.of_apart {d d' e e' : Disk} (h : d.Aligned d')
    (he : Apart (fun key => ¬ Statistics.IsTotal key) d e)
    (he' : Apart (fun key => ¬ Statistics.IsTotal key) d' e') : e.Aligned e' where
  asked := he.later.concerns ▸ h.asked
  asked' := he'.later.concerns ▸ h.asked'
  get? key hkey := ((he'.get? key hkey).trans (h.get? key hkey)).trans (he.get? key hkey).symm

section

variable {α : Type}

theorem aligned_onBooks (act : BooksM α) : Respects World.Aligned (RouterM.onBooks act) := by
  apply (Respects.of_eq act).zoom
  · exact fun _ _ h => h.books
  · exact fun _ _ _ _ h hb => ⟨h.disk, hb⟩

theorem Stage.Aligned.over : Stage.Over World.Aligned Stage.Aligned where
  world h := h.world
  transfer h := h.transfer.symm
  withWorld h hw := ⟨hw, h.transfer⟩

/-- A controller sees nothing of the store. -/
theorem aligned_onWorkbench (act : WorkbenchM α) :
    Respects Stage.Aligned (StageM.onWorkbench act) := by
  apply (Respects.of_eq act).zoom
  · exact fun _ _ h => by rw [h.world.books, h.transfer]
  · exact fun _ _ _ _ h hb => ⟨⟨h.world.disk, congrArg Workbench.books hb⟩,
      congrArg Workbench.transfer hb⟩

/-- A question about a breaker has the same answer when the breaker is no total. -/
theorem aligned_isOpen {key : Key} (hkey : ¬ Statistics.IsTotal key.bytes) :
    Respects World.Aligned (Breaker.isOpen key) := by
  intro w w' h
  have hcontains : ∀ d : Disk, d.faults.concerns .contains = false →
      Disk.contains key.bytes d = .ok (d.store.contains key.bytes) d := by
    intro d hd
    rw [Disk.contains, bind_of_ok (Disk.permit_run hd)]
    rfl
  have hsame : w'.disk.store.contains key.bytes = w.disk.store.contains key.bytes :=
    congrArg Option.isSome (h.disk.get? key.bytes hkey)
  rw [Breaker.isOpen, onDisk_run (hcontains w.disk h.disk.asked),
    onDisk_run (hcontains w'.disk h.disk.asked'), hsame]
  exact .ok _ h

/-- Whatever becomes of the record of a dispatch, it is not noticed. -/
theorem aligned_record (transfer : Transfer) (destination : CrossChainId) :
    Respects World.Aligned (RouterM.attempt (Statistics.record transfer destination)) := by
  have hkeeps : Keeps (World.Within (Apart fun key => ¬ Statistics.IsTotal key) Eq)
      (RouterM.attempt (Statistics.record transfer destination)) :=
    Keeps.attempt (Statistics.keeps_record Statistics.aside_others transfer destination)
  intro w w' h
  cases hrun : RouterM.attempt (Statistics.record transfer destination) w with
  | error e v => exact (attempt_ne_error hrun).elim
  | ok _ v =>
    cases hrun' : RouterM.attempt (Statistics.record transfer destination) w' with
    | error e v' => exact (attempt_ne_error hrun').elim
    | ok _ v' =>
      have hkept := hkeeps.ok hrun
      have hkept' := hkeeps.ok hrun'
      refine .ok () ⟨h.disk.of_apart hkept.disk hkept'.disk, ?_⟩
      exact hkept.books.symm.trans (h.books.trans hkept'.books)

end

/-! ## Dispatches -/

section

variable (r : Router) (payload : Payload)

theorem aligned_execute (action : Action) : Respects Stage.Aligned (r.execute action) := by
  have hkey : ¬ Statistics.IsTotal (Key.pausedAction action.id).bytes := by
    simp [Statistics.isTotal_bytes, Key.family]
  exact Respects.execute Stage.Aligned.over (aligned_isOpen hkey) fun c _ => aligned_onWorkbench _

theorem aligned_forward (packet : ForwardingPacket) :
    Respects World.Aligned (r.forward packet) := by
  have hprotocol : ¬ Statistics.IsTotal (Key.pausedProtocol packet.forwarding.protocol).bytes := by
    simp [Statistics.isTotal_bytes, Key.family]
  have hroute : ∀ counterparty, ¬ Statistics.IsTotal
      (Key.pausedRoute packet.forwarding.protocol counterparty).bytes := by
    simp [Statistics.isTotal_bytes, Key.family]
  refine Respects.forward (aligned_isOpen hprotocol) (fun _ => aligned_isOpen (hroute _))
    (fun w w' h => ?_) fun c _ => aligned_onBooks _
  rw [h.books]

theorem aligned_trace :
    Traced.Respects Stage.Aligned (trace r.execute r.forward payload) := by
  have htransfer : ∀ s t : Stage, s.Aligned t → s.transfer = t.transfer := fun _ _ h => h.transfer
  have hactions : ∀ actions, Traced.Respects Stage.Aligned (traceAll r.execute actions) := by
    intro actions
    induction actions with
    | nil => exact .silent (Respects.pure _)
    | cons action rest ih =>
      have hexecute : Respects Stage.Aligned (executing r.execute action) :=
        ((aligned_execute r action).tentatively Stage.Aligned.over).wrapping
      exact (Traced.Respects.handing htransfer hexecute).andThen fun _ => ih
  have hscreening : Respects Stage.Aligned (screening payload) := by
    refine Respects.get_bind fun s t hst => ?_
    rw [hst.transfer]
    exact (Respects.checked _).bind (fun _ => (Respects.checked _).bind fun _ =>
      Respects.checked _) s t hst
  have hforwarding : Respects Stage.Aligned (forwarding r.forward payload) := by
    refine Respects.get_bind fun s t hst => ?_
    rw [hst.transfer]
    exact ((aligned_forward r _).onWorld Stage.Aligned.over).wrapping.bind
      (fun _ => Respects.pure _) s t hst
  exact (Traced.Respects.silent hscreening).andThen fun destination =>
    (hactions payload.preActions).andThen fun _ =>
      (Traced.Respects.handing htransfer hforwarding).andThen fun transfer =>
        .silent ((aligned_record transfer destination).onWorld Stage.Aligned.over)

theorem aligned_dispatch : Respects Stage.Aligned (r.dispatch payload) := by
  have herase : r.dispatch payload = (trace r.execute r.forward payload).erase :=
    (erase_trace r.execute r.forward payload).symm
  rw [herase]
  exact fun s t hst => (aligned_trace r payload s t hst).2

theorem aligned_process : Respects Stage.Aligned (r.process payload) :=
  Respects.process Stage.Aligned.over (aligned_dispatch r payload) fun _ => aligned_onBooks _

end

/-- The same transfer and payload, in worlds that differ in the statistics and in what becomes of
reads and batches: the same packets are handed to the same handlers in the same order, and dispatch
and processing have the same result and leave the same transfer and the same books. -/
theorem indifferent_of_aligned (r : Router) (payload : Payload) {s s' : Stage}
    (h : s.Aligned s') :
    (∃ calls, trace r.execute r.forward payload s = (calls, r.dispatch payload s) ∧
      trace r.execute r.forward payload s' = (calls, r.dispatch payload s')) ∧
    Parallel Stage.Aligned (r.dispatch payload s) (r.dispatch payload s') ∧
    Parallel Stage.Aligned (r.process payload s) (r.process payload s') := by
  have herase : ∀ t, (trace r.execute r.forward payload t).2 = r.dispatch payload t :=
    congrFun (erase_trace r.execute r.forward payload)
  refine ⟨⟨(trace r.execute r.forward payload s).1, ?_, ?_⟩, aligned_dispatch r payload s s' h,
    aligned_process r payload s s' h⟩
  · exact Prod.ext rfl (herase s)
  · exact Prod.ext (aligned_trace r payload s s' h).1.symm (herase s')

namespace Testbed

/-- The testbed with a coin in the holding account. -/
def stocked : World :=
  { world with books := { world.books with
      ledger := world.books.ledger.set holding coin.denom coin.amount } }

/-- The same with a count that is no number, on a medium that refuses reads and batches. -/
def spoiled : World :=
  { stocked with disk :=
      ⟨stocked.disk.store.insert (Key.dispatchCount origin ⟨.cctp, "6"⟩).bytes [1, 2, 3],
        .after [.get, .batch] 0 (.io "disk full")⟩ }

theorem aligned_spoiled (transfer : Transfer) :
    Stage.Aligned ⟨stocked, transfer⟩ ⟨spoiled, transfer⟩ := by
  refine ⟨⟨⟨rfl, rfl, fun key hkey => OrderedMap.get?_insert_ne ?_⟩, rfl⟩, rfl⟩
  rintro rfl
  exact hkey (Statistics.isTotal_bytes.2 (.inr rfl))

theorem succeeds_stocked :
    succeeds (router.process taxed) ⟨stocked, .fresh origin coin⟩ = true := by
  decide +kernel

theorem indifferent_spoiled : ∃ calls,
    trace router.execute router.forward taxed ⟨stocked, .fresh origin coin⟩ =
      (calls, router.dispatch taxed ⟨stocked, .fresh origin coin⟩) ∧
    trace router.execute router.forward taxed ⟨spoiled, .fresh origin coin⟩ =
      (calls, router.dispatch taxed ⟨spoiled, .fresh origin coin⟩) ∧ calls.length = 2 ∧
    succeeds (router.process taxed) ⟨spoiled, .fresh origin coin⟩ = true := by
  obtain ⟨⟨calls, hstocked, hspoiled⟩, -, hprocess⟩ :=
    indifferent_of_aligned router taxed (aligned_spoiled (.fresh origin coin))
  refine ⟨calls, hstocked, hspoiled, ?_, hprocess.succeeds_eq ▸ succeeds_stocked⟩
  have hcalls : (trace router.execute router.forward taxed ⟨stocked, .fresh origin coin⟩).1.length =
      2 := by
    decide +kernel
  rwa [hstocked] at hcalls

end Testbed

end TransferRouter
