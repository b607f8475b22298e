import TransferRouter.Proofs.Delivery

/-!
How often a recorded payload is executed. A delivery sends a packet and completes the payload that
the packet names in two steps; where the medium refuses the second, the payload is left behind. It
is executed again exactly when it is named again by a packet that comes as far.
-/

namespace TransferRouter

/-- True for the delivery of a packet that names the recorded payload of a hash. -/
def Call.delivers (r : Router) (h : PayloadHash) : Call → Bool
  | deliver source raw _ => r.named source raw == some h
  | _ => false

namespace Step

def sent (s : Step) : List Shipment := s.after.books.outbox.drop s.before.books.outbox.length

/-- The packets that a step sent for the recorded payload of a hash. -/
def sentFor (r : Router) (h : PayloadHash) (s : Step) : List Shipment :=
  if s.call.delivers r h then s.sent else []

/-- The medium was written to, or was asked to and refused. -/
def Touched (s : Step) : Prop := s.after.disk ≠ s.before.disk

/-- The medium refused the last batch that it was asked to write. -/
def Refused (s : Step) : Prop :=
  ∃ n, s.before.disk.faults.made ≤ n ∧ s.after.disk.faults.made = n + 1 ∧
    (s.before.disk.faults.verdict n).isSome = true

theorem Refused.touched {s : Step} (h : s.Refused) : s.Touched := by
  obtain ⟨n, hle, hmade, -⟩ := h
  intro hdisk
  rw [hdisk] at hmade
  omega

end Step

def shipments (r : Router) (h : PayloadHash) (steps : List Step) : List Shipment :=
  steps.flatMap (Step.sentFor r h)

/-! ## One delivery -/

/-- What the delivery of a packet that names a recorded payload can come to. -/
inductive Execution (h : PayloadHash) (s : Step) : Prop
  | idle (hsent : s.sent = []) (hdisk : s.after.disk = s.before.disk)
  | finished (hsent : s.sent.length = 1)
    (hbefore : s.before.disk.store.contains (Key.pending h).bytes = true)
    (hafter : s.after.disk.store.contains (Key.pending h).bytes = false)
  | halted (hsent : s.sent.length = 1)
    (hbefore : s.before.disk.store.contains (Key.pending h).bytes = true) (hrefused : s.Refused)

section

variable {r : Router} {w : World} {h : PayloadHash}

theorem sent_of_dispatched {source : CrossChainId} {packet : RoutedPacket} {u : World}
    (hsent : w.Dispatched source packet u) :
    u.books.outbox.drop w.books.outbox.length = [packet.shipment] := by
  rw [hsent.outbox, List.drop_left]

theorem Step.exists_ending (hr : r.Faithful) (hw : w.disk.Readable) (source : CrossChainId)
    (raw : Bytes) (receive : RoutedPacket → LedgerM Unit) :
    ∃ outcome, r.Ending source raw w outcome
      (Step.of r (.deliver source raw receive) w).after := by
  cases hrun : r.deliver source raw receive w with
  | ok packet w' =>
    have hperform : (Call.deliver source raw receive).perform r w = .ok (.packet packet) w' := by
      rw [Call.perform, bind_of_ok hrun]
      rfl
    rw [Step.of_ok hperform]
    exact ⟨_, Router.ending_of_ok hr hw hrun⟩
  | error e w' =>
    have hperform : (Call.deliver source raw receive).perform r w = .error e w' := by
      rw [Call.perform, bind_of_error hrun]
    rw [Step.of_error hperform]
    exact ⟨_, Router.ending_of_error hr hw hrun⟩

/-- A delivery sends at most one packet, and then its payload was recorded; afterwards the payload
is gone, or the medium has refused to let it go. -/
theorem Step.execution (hr : r.Faithful) (hw : w.disk.Readable) {call : Call}
    (hcall : call.delivers r h = true) : Execution h (Step.of r call w) := by
  cases call with
  | deliver source raw receive =>
    have hname : r.named source raw = some h := eq_of_beq hcall
    obtain ⟨outcome, hending⟩ := exists_ending hr hw source raw receive
    rw [Step.of_eq]
    generalize (Step.of r (.deliver source raw receive) w).after = w' at hending ⊢
    cases hending with
    | refused hkept =>
      refine .idle ?_ (hkept.disk hw)
      change List.drop w.books.outbox.length w'.books.outbox = []
      rw [hkept.books.outbox, List.drop_length]
    | carried hnamed hsent =>
      exact absurd (hnamed.symm.trans hname) nofun
    | @completed packet g entry u d hnamed hsent hget hwrite =>
      obtain rfl : g = h := Option.some.inj (hnamed.symm.trans hname)
      obtain ⟨⟨s, hs, -⟩, -⟩ := (read_eq_ok_some hw).1 hget
      refine .finished ?_ (OrderedMap.contains_iff.2 ⟨s, hs⟩) ?_
      · exact congrArg List.length (sent_of_dispatched hsent)
      · have hstore : d.store = _ := (Disk.write_ok hwrite).1
        exact hstore ▸ contains_removal _ _ g List.mem_cons_self
    | @interrupted e packet g entry u d fault hnamed hsent hget hwrite =>
      obtain rfl : g = h := Option.some.inj (hnamed.symm.trans hname)
      obtain ⟨⟨s, hs, -⟩, -⟩ := (read_eq_ok_some hw).1 hget
      obtain ⟨hverdict, hmade⟩ := Disk.concerned_of_write_error hwrite
      refine .halted ?_ (OrderedMap.contains_iff.2 ⟨s, hs⟩)
        ⟨u.disk.faults.made, hsent.disk.later.made, hmade, ?_⟩
      · exact congrArg List.length (sent_of_dispatched hsent)
      · have hplan := hsent.disk.later.verdict
        change (w.disk.faults.verdict _).isSome = true
        rw [← hplan, hverdict]
        rfl
  | _ => exact absurd hcall nofun

end

namespace Execution

variable {h : PayloadHash} {s : Step}

theorem sent_of_touched (he : Execution h s) (ht : s.Touched) : s.sent.length = 1 := by
  cases he with
  | idle hsent hdisk => exact absurd hdisk ht
  | finished hsent hbefore hafter => exact hsent
  | halted hsent hbefore hrefused => exact hsent

theorem sent_of_untouched (he : Execution h s) (ht : ¬ s.Touched) : s.sent = [] := by
  cases he with
  | idle hsent hdisk => exact hsent
  | finished hsent hbefore hafter =>
    refine absurd (fun hdisk => ?_) ht
    rw [hdisk, hbefore] at hafter
    exact absurd hafter nofun
  | halted hsent hbefore hrefused => exact absurd hrefused.touched ht

theorem sent_of_absent (he : Execution h s)
    (habsent : s.before.disk.store.contains (Key.pending h).bytes = false) : s.sent = [] := by
  cases he with
  | idle hsent hdisk => exact hsent
  | finished hsent hbefore hafter => exact absurd (hbefore.symm.trans habsent) nofun
  | halted hsent hbefore hrefused => exact absurd (hbefore.symm.trans habsent) nofun

end Execution

/-! ## What is not recorded -/

section

variable {r : Router} {w : World} {h : PayloadHash} {call : Call}

/-- Only a submission puts an entry under a hash. -/
theorem Effect.value_eq_none {outcome : Except RouterError Answer} {batch : List Write}
    {reports : List Event} (he : Effect r w call outcome batch reports)
    (hsubmits : h ∉ Step.submits ⟨call, w, outcome, w⟩) {x : Write} (hx : x ∈ batch)
    (hkey : x.key = (Key.pending h).bytes) : x.value = none := by
  cases he with
  | failed e => exact absurd hx List.not_mem_nil
  | idle hnamed hsubmits hsweeps => exact absurd hx List.not_mem_nil
  | @recorded signer e next hcall htime hcheck hsequence hnext hfree =>
    rcases List.mem_cons.1 hx with rfl | hx
    · refine absurd hkey (Key.bytes_ne_of_family (k := .sequence) ?_)
      exact (by decide : (0x30 : UInt8) ≠ 0x31)
    rcases List.mem_cons.1 hx with rfl | hx
    · obtain rfl := Key.pending_inj hkey
      exact absurd (List.mem_singleton.2 rfl) hsubmits
    · obtain rfl := List.mem_singleton.1 hx
      refine absurd hkey (Key.bytes_ne_of_family (k := .pendingByTime e.timestamp e.hash) ?_)
      exact (by decide : (0x32 : UInt8) ≠ 0x31)
  | taken hnamed hsubmits hsweeps hget =>
    rcases List.mem_cons.1 hx with rfl | hx
    · rfl
    · obtain rfl := List.mem_singleton.1 hx
      rfl
  | swept hnamed hindex =>
    obtain ⟨p, -, hx⟩ := List.mem_flatMap.1 hx
    rcases List.mem_cons.1 hx with rfl | hx
    · rfl
    · obtain rfl := List.mem_singleton.1 hx
      rfl

theorem Step.absent_after (hw : w.disk.Readable)
    (habsent : w.disk.store.contains (Key.pending h).bytes = false)
    (hsubmits : h ∉ (Step.of r call w).submits) :
    (Step.of r call w).after.disk.store.contains (Key.pending h).bytes = false := by
  obtain ⟨u, batch, reports, heffect, hu, hwrote⟩ :=
    Step.affects (actionsKeep_anything r) (forwardersKeep_anything r) hw call
  have hkept := hu.disk.get? (Key.pending h).bytes (Key.isRecord_bytes.2 (.inr (.inl rfl)))
  rw [OrderedMap.contains_eq_false_iff] at habsent ⊢
  rw [hwrote.store]
  refine Store.get?_applyAll_of_absent (hkept.trans habsent) fun x hx hkey => ?_
  exact heffect.value_eq_none hsubmits hx hkey

/-- A hash is submitted at most once from here on, and not at all if it is recorded now. -/
structure Single (s : Store) (h : PayloadHash) (n : Nat) : Prop where
  once : n ≤ 1
  spent : s.contains (Key.pending h).bytes = true → n = 0

theorem Step.single (hw : w.disk.Readable) {n : Nat}
    (hs : Single w.disk.store h ((Step.of r call w).submits.count h + n)) :
    Single (Step.of r call w).after.disk.store h n := by
  have honce := hs.once
  refine ⟨by omega, fun hpresent => ?_⟩
  by_cases hmem : h ∈ (Step.of r call w).submits
  · have hpos := List.count_pos_iff.2 hmem
    omega
  · cases hwas : w.disk.store.contains (Key.pending h).bytes with
    | true =>
      have hzero := hs.spent hwas
      omega
    | false =>
      have hafter := Step.absent_after hw hwas hmem
      exact absurd (hpresent.symm.trans hafter) nofun

end

/-! ## Sessions -/

section

variable {r : Router} {w : World} {h : PayloadHash} {calls : List (UInt64 × Call)}

theorem Step.sentFor_eq_nil {s : Step} (hs : s.call.delivers r h = true → s.sent = []) :
    s.sentFor r h = [] := by
  unfold Step.sentFor
  split
  · exact hs ‹_›
  · rfl

theorem Step.sentFor_of_delivers {s : Step} (hs : s.call.delivers r h = true) :
    s.sentFor r h = s.sent := if_pos hs

theorem Step.delivers_of_sentFor {s : Step} (hs : s.sentFor r h ≠ []) :
    s.call.delivers r h = true := by
  cases hcall : s.call.delivers r h with
  | true => rfl
  | false =>
    refine absurd (Step.sentFor_eq_nil fun hcall' => ?_) hs
    exact absurd (hcall'.symm.trans hcall) nofun

theorem length_shipments_cons (s : Step) (steps : List Step) :
    (shipments r h (s :: steps)).length =
      (s.sentFor r h).length + (shipments r h steps).length := by
  rw [shipments, List.flatMap_cons, List.length_append, shipments]

theorem executions_of_session (hr : r.Faithful) (hw : w.disk.Readable) :
    ∀ s ∈ session r w calls, s.call.delivers r h = true → Execution h s := by
  induction calls generalizing w with
  | nil => exact fun _ hs => absurd hs List.not_mem_nil
  | cons c rest ih =>
    obtain ⟨now, call⟩ := c
    have hw' := Step.readable (r := r) (w := { w with clock := now }) hw call
    refine List.forall_mem_cons.2 ⟨fun hcall => ?_, ih hw'⟩
    rw [Step.of_eq] at hcall
    exact Step.execution (w := { w with clock := now }) hr hw hcall

theorem shipments_of_absent (hr : r.Faithful) (hw : w.disk.Readable)
    (habsent : w.disk.store.contains (Key.pending h).bytes = false)
    (hsubmits : h ∉ (session r w calls).flatMap Step.submits) :
    shipments r h (session r w calls) = [] := by
  induction calls generalizing w with
  | nil => rfl
  | cons c rest ih =>
    obtain ⟨now, call⟩ := c
    have hsteps : ∀ s ∈ session r w ((now, call) :: rest), s.call.delivers r h = true →
        Execution h s := executions_of_session hr hw
    rw [session, List.flatMap_cons, List.mem_append, not_or] at hsubmits
    have hafter := Step.absent_after (w := { w with clock := now }) hw habsent hsubmits.1
    have hhead : (Step.of r call { w with clock := now }).sentFor r h = [] := by
      refine Step.sentFor_eq_nil fun hcall => ?_
      refine (hsteps _ List.mem_cons_self hcall).sent_of_absent ?_
      rw [Step.before_of]
      exact habsent
    rw [session, shipments, List.flatMap_cons, hhead]
    exact ih (Step.readable (w := { w with clock := now }) hw call) hafter hsubmits.2

/-- A delivery comes as far as an earlier one whose last batch was refused. -/
structure Repeats (r : Router) (h : PayloadHash) (s t : Step) : Prop where
  first : s.call.delivers r h = true
  refused : s.Refused
  second : t.call.delivers r h = true
  touched : t.Touched

/-- A payload that is executed once is not delivered again after an interruption. -/
theorem pairwise_of_shipments {steps : List Step}
    (hsteps : ∀ s ∈ steps, s.call.delivers r h = true → Execution h s)
    (hle : (shipments r h steps).length ≤ 1) :
    steps.Pairwise fun s t => ¬ Repeats r h s t := by
  induction steps with
  | nil => exact .nil
  | cons s steps ih =>
    obtain ⟨hs, hrest⟩ := List.forall_mem_cons.1 hsteps
    rw [length_shipments_cons] at hle
    refine List.pairwise_cons.2 ⟨fun t ht hrepeats => ?_, ih hrest (by omega)⟩
    have hfirst := (hs hrepeats.first).sent_of_touched hrepeats.refused.touched
    have hsecond := (hrest t ht hrepeats.second).sent_of_touched hrepeats.touched
    rw [← Step.sentFor_of_delivers hrepeats.first] at hfirst
    rw [← Step.sentFor_of_delivers hrepeats.second] at hsecond
    have hnone : shipments r h steps = [] := List.eq_nil_of_length_eq_zero (by omega)
    rw [List.flatMap_eq_nil_iff.1 hnone t ht] at hsecond
    exact absurd hsecond nofun

/-- A payload that is recorded at most once is executed at most once, unless it is delivered again
after an interruption. -/
theorem length_shipments_le_one (hr : r.Faithful) (hw : w.disk.Readable)
    (hsingle : Single w.disk.store h (((session r w calls).flatMap Step.submits).count h))
    (hpairwise : (session r w calls).Pairwise fun s t => ¬ Repeats r h s t) :
    (shipments r h (session r w calls)).length ≤ 1 := by
  induction calls generalizing w with
  | nil => exact Nat.zero_le 1
  | cons c rest ih =>
    obtain ⟨now, call⟩ := c
    have hsteps : ∀ s ∈ session r w ((now, call) :: rest), s.call.delivers r h = true →
        Execution h s := executions_of_session hr hw
    have hbefore := Step.before_of r call { w with clock := now }
    have hw' := Step.readable (r := r) (w := { w with clock := now }) hw call
    rw [session, List.flatMap_cons, List.count_append] at hsingle
    have hafter := Step.single (w := { w with clock := now }) hw hsingle
    rw [session] at hpairwise hsteps ⊢
    generalize Step.of r call { w with clock := now } = s at *
    obtain ⟨hs, hrest⟩ := List.forall_mem_cons.1 hsteps
    obtain ⟨hhead, htail⟩ := List.pairwise_cons.1 hpairwise
    rw [length_shipments_cons]
    by_cases hnil : s.sentFor r h = []
    · rw [hnil, List.length_nil, Nat.zero_add]
      exact ih hw' hafter htail
    have hcall := Step.delivers_of_sentFor hnil
    rw [Step.sentFor_of_delivers hcall] at hnil ⊢
    -- Either the payload is gone for good, or the interruption forbids what comes later.
    have hnone : s.sent.length = 1 ∧ shipments r h (session r s.after rest) = [] := by
      cases hs hcall with
      | idle hsent hdisk => exact absurd hsent hnil
      | finished hsent hwas hgone =>
        rw [hbefore] at hwas
        have hzero := hsingle.spent hwas
        refine ⟨hsent, shipments_of_absent hr hw' hgone fun hmem => ?_⟩
        have hpos := List.count_pos_iff.2 hmem
        omega
      | halted hsent hwas hrefused =>
        refine ⟨hsent, List.flatMap_eq_nil_iff.2 fun t ht => Step.sentFor_eq_nil fun hsecond => ?_⟩
        refine (hrest t ht hsecond).sent_of_untouched fun htouched => ?_
        exact hhead t ht ⟨hcall, hrefused, hsecond, htouched⟩
    rw [hnone.1, hnone.2]
    exact Nat.le_refl 1

/-- A recorded payload that is submitted once is executed at most once exactly when no packet that
names it comes as far as an earlier one whose last batch the medium refused. -/
theorem shipments_le_one_iff (r : Router) (w : World) (h : PayloadHash)
    (calls : List (UInt64 × Call)) (hr : r.Faithful) (hw : w.disk.Readable)
    (habsent : w.disk.store.contains (Key.pending h).bytes = false)
    (honce : ((session r w calls).flatMap Step.submits).count h ≤ 1) :
    (shipments r h (session r w calls)).length ≤ 1 ↔
      (session r w calls).Pairwise fun s t => ¬ Repeats r h s t := by
  constructor
  · exact pairwise_of_shipments (executions_of_session hr hw)
  · exact length_shipments_le_one hr hw ⟨honce, fun hc => absurd (hc.symm.trans habsent) nofun⟩

end

namespace Testbed

/-- A medium that refuses the third batch that it is asked to write, and nothing else. -/
def hiccup : Disk :=
  ⟨.empty, ⟨fun call => call == .batch, fun n => if n = 2 then some (.io "disk full") else none, 0⟩⟩

theorem readable_hiccup : hiccup.Readable := fun _ hcall => beq_eq_false_iff_ne.2 hcall

def flaky : World := { world with disk := hiccup }

/-- The payload as the first that is recorded, at time zero. -/
def entry : PendingEntry := ⟨0, payload, 0⟩

def redeemer : Router := carrier ⟨coin, .pending entry.hash⟩

def retrial : List (UInt64 × Call) :=
  [(0, .submit "alice" payload), (0, .deliver origin [] receive), (0, .deliver origin [] receive)]

theorem submits_retrial :
    ((session redeemer flaky retrial).flatMap Step.submits).count entry.hash = 1 := by
  decide +kernel

theorem length_shipments_retrial :
    (shipments redeemer entry.hash (session redeemer flaky retrial)).length = 2 := by
  decide +kernel

theorem repeats_of_retrial :
    ¬ (session redeemer flaky retrial).Pairwise fun s t => ¬ Repeats redeemer entry.hash s t := by
  intro hpairwise
  have hiff := shipments_le_one_iff redeemer flaky entry.hash retrial (wired_carrier _).faithful
    readable_hiccup rfl (Nat.le_of_eq submits_retrial)
  have hle := hiff.2 hpairwise
  rw [length_shipments_retrial] at hle
  exact absurd hle (by decide)

/-- The first delivery sends its packet and cannot complete the payload; the second sends again. -/
theorem executed_twice : redeemer.Wired ∧ flaky.disk.Readable ∧
    ((session redeemer flaky retrial).flatMap Step.submits).count entry.hash = 1 ∧
    (shipments redeemer entry.hash (session redeemer flaky retrial)).length = 2 :=
  ⟨wired_carrier _, readable_hiccup, submits_retrial, length_shipments_retrial⟩

end Testbed

end TransferRouter
