import TransferRouter.Proofs.Store.Key
import TransferRouter.Proofs.World

/-!
What the calls on recorded payloads do. A submission, a completion and a sweep each write one batch
and report it, or fail and leave the store and the books as they were.
-/

namespace TransferRouter.Pending

open Disk (AllowsReads)

variable {w w' : World}

section

variable {D : Disk → Disk → Prop} {B : Books → Books → Prop} [AllowsReads D] [IsPreorder Books B]

theorem nextSequence_keeps : Keeps (World.Within D B) nextSequence :=
  (keeps_read .sequence).bind fun _ => Keeps.pure _

theorem get?_keeps (h : PayloadHash) : Keeps (World.Within D B) (get? h) := keeps_read _

end

/-! ## Submission -/

/-- The last step of a submission: the entry is recorded unless its hash is taken. -/
def record (entry : PendingEntry) (next : UInt64) : RouterM PayloadHash := do
  if ← RouterM.onDisk (Disk.contains (Key.pending entry.hash).bytes) then
    throw (.alreadyExists (.pendingPayload entry.hash))
  RouterM.onDisk (Disk.write (recording entry next))
  RouterM.emit (.pendingPayloadSubmitted entry.hash entry.sequence)
  return entry.hash

theorem record_ok {entry : PendingEntry} {next : UInt64} {h : PayloadHash}
    (hw : w.disk.Readable) (hs : record entry next w = .ok h w') :
    entry.hash = h ∧ w.disk.store.contains (Key.pending h).bytes = false ∧
      w.Wrote (recording entry next) [.pendingPayloadSubmitted h entry.sequence] w' := by
  rw [record, bind_of_ok (contains_run hw _)] at hs
  cases hfree : w.disk.store.contains (Key.pending entry.hash).bytes with
  | true =>
    rw [hfree] at hs
    obtain ⟨_, _, hs, -⟩ := bind_eq_ok.1 hs
    exact (throw_ne_ok hs).elim
  | false =>
    rw [hfree] at hs
    obtain ⟨_, u, hwrite, hs⟩ := bind_eq_ok.1 hs
    obtain ⟨d, hwrite', rfl⟩ := onDisk_eq_ok.1 hwrite
    obtain ⟨_, v, hemit, hs⟩ := bind_eq_ok.1 hs
    obtain ⟨rfl, rfl⟩ := pure_eq_ok.1 hs
    exact ⟨rfl, hfree, (World.Wrote.of_write_ok hwrite').trans (.of_emit hemit)⟩

theorem record_error {entry : PendingEntry} {next : UInt64} {e : RouterError}
    (hw : w.disk.Readable) (hs : record entry next w = .error e w') : w.Wrote [] [] w' := by
  rw [record, bind_of_ok (contains_run hw _)] at hs
  cases hfree : w.disk.store.contains (Key.pending entry.hash).bytes with
  | true =>
    rw [hfree] at hs
    rcases bind_eq_error.1 hs with hs | ⟨_, _, hs, -⟩
    · obtain ⟨-, rfl⟩ := throw_eq_error.1 hs
      exact .nothing w
    · exact (throw_ne_ok hs).elim
  | false =>
    rw [hfree] at hs
    rcases bind_eq_error.1 hs with hs | ⟨_, u, -, hs⟩
    · obtain ⟨fault, d, hwrite, -, rfl⟩ := onDisk_eq_error.1 hs
      exact .of_write_error hwrite
    · rcases bind_eq_error.1 hs with hs | ⟨_, _, -, hs⟩
      · exact (emit_ne_error hs).elim
      · exact (pure_ne_error hs).elim

/-- All that comes before the last step of a submission. -/
def draft (payload : Payload) : RouterM (PendingEntry × UInt64) := do
  checked payload.check
  let params ← loadParams
  checked (checkPassthrough payload.forwarding.passthrough.length params.passthroughLimit)
  let now := (← get).clock
  let sequence ← nextSequence
  match successor? sequence with
  | none => throw (.overflow .sequence)
  | some next => return (⟨sequence, payload, now⟩, next)

theorem submit_eq (payload : Payload) :
    submit payload = draft payload >>= fun p => record p.1 p.2 := by
  unfold submit draft
  simp only [bind_assoc]
  congr 1
  funext _
  congr 1
  funext params
  congr 1
  funext _
  congr 1
  funext v
  congr 1
  funext sequence
  cases successor? sequence with
  | none => rfl
  | some next => rfl

theorem draft_keeps {D : Disk → Disk → Prop} {B : Books → Books → Prop} [AllowsReads D]
    [IsPreorder Books B] (payload : Payload) : Keeps (World.Within D B) (draft payload) := by
  refine (Keeps.checked _).bind fun _ => keeps_loadParams.bind fun _ => (Keeps.checked _).bind
    fun _ => Keeps.get.bind fun _ => nextSequence_keeps.bind fun sequence => ?_
  cases successor? sequence with
  | none => exact Keeps.throw _
  | some next => exact Keeps.pure _

theorem draft_ok (hw : w.disk.Readable) {payload : Payload} {p : PendingEntry × UInt64}
    (hs : draft payload w = .ok p w') :
    w' = w ∧ payload.check = .ok () ∧ p.1.payload = payload ∧ p.1.timestamp = w.clock ∧
      nextSequence w = .ok p.1.sequence w ∧ successor? p.1.sequence = some p.2 := by
  have heq := ((draft_keeps payload).ok hs).eq hw
  obtain ⟨_, u, hchecked, hs⟩ := bind_eq_ok.1 hs
  obtain ⟨hcheck, rfl⟩ := settle_eq_ok.1 hchecked
  obtain ⟨params, u₁, hparams, hs₁⟩ := bind_eq_ok.1 hs
  obtain rfl := ((keeps_loadParams (D := Disk.Still) (B := Eq)).ok hparams).eq hw
  obtain ⟨_, u₂, hlimit, hs₂⟩ := bind_eq_ok.1 hs₁
  obtain ⟨-, rfl⟩ := settle_eq_ok.1 hlimit
  obtain ⟨v, u₃, hget, hs₃⟩ := bind_eq_ok.1 hs₂
  obtain ⟨rfl, rfl⟩ := get_eq_ok.1 hget
  obtain ⟨sequence, u₄, hsequence, hs₄⟩ := bind_eq_ok.1 hs₃
  obtain rfl := (nextSequence_keeps.ok hsequence).eq hw
  cases hnext : successor? sequence with
  | none =>
    rw [hnext] at hs₄
    exact (throw_ne_ok hs₄).elim
  | some next =>
    rw [hnext] at hs₄
    obtain ⟨rfl, -⟩ := pure_eq_ok.1 hs₄
    exact ⟨heq, hcheck, rfl, rfl, hsequence, hnext⟩

/-- A submission records an entry of its own under a free hash. -/
theorem submit_ok (hw : w.disk.Readable) {payload : Payload} {h : PayloadHash}
    (hs : submit payload w = .ok h w') :
    ∃ entry : PendingEntry, ∃ next : UInt64, entry.hash = h ∧ entry.payload = payload ∧
      entry.timestamp = w.clock ∧ payload.check = .ok () ∧
      nextSequence w = .ok entry.sequence w ∧ successor? entry.sequence = some next ∧
      w.disk.store.contains (Key.pending h).bytes = false ∧
      w.Wrote (recording entry next) [.pendingPayloadSubmitted h entry.sequence] w' := by
  rw [submit_eq] at hs
  obtain ⟨p, u, hdraft, hrecord⟩ := bind_eq_ok.1 hs
  obtain ⟨rfl, hcheck, hpayload, htime, hsequence, hnext⟩ := draft_ok hw hdraft
  obtain ⟨hhash, hfree, hwrote⟩ := record_ok hw hrecord
  exact ⟨p.1, p.2, hhash, hpayload, htime, hcheck, hsequence, hnext, hfree, hwrote⟩

theorem submit_error (hw : w.disk.Readable) {payload : Payload} {e : RouterError}
    (hs : submit payload w = .error e w') : w.Wrote [] [] w' := by
  rw [submit_eq] at hs
  rcases bind_eq_error.1 hs with hdraft | ⟨p, u, hdraft, hrecord⟩
  · obtain rfl := ((draft_keeps payload).error hdraft).eq hw
    exact .nothing _
  · obtain ⟨rfl, -⟩ := draft_ok hw hdraft
    exact record_error hw hrecord

/-! ## Completion and removal -/

/-- What is taken was recorded. -/
theorem take_ok (hw : w.disk.Readable) {h : PayloadHash} {entry : PendingEntry}
    (hs : take h w = .ok entry w') :
    get? h w = .ok (some entry) w ∧
      w.Wrote (removal entry.timestamp h) [.pendingPayloadRemoved h] w' := by
  obtain ⟨found, u, hfound, hs₁⟩ := bind_eq_ok.1 hs
  obtain rfl := ((get?_keeps h).ok hfound).eq hw
  cases found with
  | none => exact (throw_ne_ok hs₁).elim
  | some entry' =>
    obtain ⟨_, u₂, hwrite, hs₂⟩ := bind_eq_ok.1 hs₁
    obtain ⟨d, hwrite', rfl⟩ := onDisk_eq_ok.1 hwrite
    obtain ⟨_, u₃, hemit, hs₃⟩ := bind_eq_ok.1 hs₂
    obtain ⟨rfl, rfl⟩ := pure_eq_ok.1 hs₃
    exact ⟨hfound, (World.Wrote.of_write_ok hwrite').trans (.of_emit hemit)⟩

theorem take_error (hw : w.disk.Readable) {h : PayloadHash} {e : RouterError}
    (hs : take h w = .error e w') : w.Wrote [] [] w' := by
  rcases bind_eq_error.1 hs with hfound | ⟨found, u, hfound, hs₁⟩
  · obtain rfl := ((get?_keeps h).error hfound).eq hw
    exact .nothing _
  · obtain rfl := ((get?_keeps h).ok hfound).eq hw
    cases found with
    | none =>
      obtain ⟨-, rfl⟩ := throw_eq_error.1 hs₁
      exact .nothing _
    | some entry =>
      rcases bind_eq_error.1 hs₁ with hwrite | ⟨_, u₂, -, hs₂⟩
      · obtain ⟨fault, d, hwrite', -, rfl⟩ := onDisk_eq_error.1 hwrite
        exact .of_write_error hwrite'
      · rcases bind_eq_error.1 hs₂ with hemit | ⟨_, u₃, -, hs₃⟩
        · exact (emit_ne_error hemit).elim
        · exact (pure_ne_error hs₃).elim

/-- The taking of what is recorded fails only where the medium refuses the batch. -/
theorem take_of_present {h : PayloadHash} {entry : PendingEntry}
    (hget : get? h w = .ok (some entry) w) :
    take h w =
      match Disk.write (removal entry.timestamp h) w.disk with
      | .ok _ d => .ok entry { w with
          disk := d
          books := { w.books with events := w.books.events ++ [.pendingPayloadRemoved h] } }
      | .error fault d => .error (.storage (.store fault)) { w with disk := d } := by
  rw [take, bind_of_ok hget]
  cases hwrite : Disk.write (removal entry.timestamp h) w.disk with
  | ok _ d =>
    exact bind_of_ok (onDisk_run hwrite)
  | error fault d =>
    exact bind_of_error (onDisk_eq_error.2 ⟨fault, d, hwrite, rfl, rfl⟩)

theorem take_of_absent (hw : w.disk.Readable) {h : PayloadHash}
    (habsent : w.disk.store.get? (Key.pending h).bytes = none) :
    take h w = .error (.notFound (.pendingPayload h)) w := by
  have hget : get? h w = .ok none w := read_of_absent hw habsent
  rw [take, bind_of_ok hget]
  rfl

/-! ## Sweeps -/

/-- The first step of a sweep: what is expired is read from the index and dropped. -/
def drop (limit cutoff : UInt64) : DiskM (List (Bytes × PayloadHash)) := do
  let entries ← Disk.range Key.timeIndex (Key.timeBound cutoff) limit.toNat
  let index ← settle id (readIndex entries)
  if index ≠ [] then Disk.write (expiry index)
  return index

theorem sweep_eq (limit cutoff : UInt64) :
    sweep limit cutoff = RouterM.onDisk (drop limit cutoff) >>= fun index => do
      (index.map (·.2)).forM fun hash => RouterM.emit (.pendingPayloadExpired hash)
      return index.map (·.2) := rfl

theorem drop_ok {d d' : Disk} (hd : d.Readable) {limit cutoff : UInt64}
    {index : List (Bytes × PayloadHash)} (hs : drop limit cutoff d = .ok index d') :
    readIndex (d.store.range Key.timeIndex (Key.timeBound cutoff) limit.toNat) = .ok index ∧
      d'.store = d.store.applyAll (expiry index) ∧ Disk.Later d.faults d'.faults := by
  rw [drop, bind_of_ok (Disk.range_run hd _ _ _)] at hs
  obtain ⟨index', d₁, hindex, hs₁⟩ := bind_eq_ok.1 hs
  obtain ⟨hindex', rfl⟩ := settle_eq_ok.1 hindex
  by_cases hnil : index' = []
  · subst hnil
    obtain ⟨rfl, rfl⟩ := pure_eq_ok.1 hs₁
    exact ⟨hindex', rfl, .refl _⟩
  · rw [if_pos hnil] at hs₁
    obtain ⟨_, d₂, hwrite, hs₂⟩ := bind_eq_ok.1 hs₁
    obtain ⟨rfl, rfl⟩ := pure_eq_ok.1 hs₂
    exact ⟨hindex', Disk.write_ok hwrite⟩

theorem drop_error {d d' : Disk} (hd : d.Readable) {limit cutoff : UInt64} {fault : StoreFault}
    (hs : drop limit cutoff d = .error fault d') :
    d'.store = d.store ∧ Disk.Later d.faults d'.faults := by
  rw [drop, bind_of_ok (Disk.range_run hd _ _ _)] at hs
  rcases bind_eq_error.1 hs with hindex | ⟨index, d₁, hindex, hs₁⟩
  · obtain ⟨-, rfl⟩ := settle_eq_error.1 hindex
    exact ⟨rfl, .refl _⟩
  · obtain ⟨hindex', rfl⟩ := settle_eq_ok.1 hindex
    by_cases hnil : index = []
    · subst hnil
      exact (pure_ne_error hs₁).elim
    · rw [if_pos hnil] at hs₁
      rcases bind_eq_error.1 hs₁ with hwrite | ⟨_, _, -, hs₂⟩
      · exact Disk.write_error hwrite
      · exact (pure_ne_error hs₂).elim

theorem drop_run {d : Disk} (hd : d.Reliable) {limit cutoff : UInt64}
    {index : List (Bytes × PayloadHash)}
    (hindex : readIndex (d.store.range Key.timeIndex (Key.timeBound cutoff) limit.toNat) =
      .ok index) :
    drop limit cutoff d = .ok index { d with store := d.store.applyAll (expiry index) } := by
  have hsettle : settle id (readIndex (d.store.range Key.timeIndex (Key.timeBound cutoff)
      limit.toNat)) d = .ok index d := settle_eq_ok.2 ⟨hindex, rfl⟩
  rw [drop, bind_of_ok (Disk.range_run hd.readable _ _ _), bind_of_ok hsettle]
  by_cases hnil : index = []
  · subst hnil
    rfl
  · rw [if_pos hnil]
    exact bind_of_ok (Disk.write_run (hd .batch) _)

/-- A sweep succeeds when nothing is refused and the index is in order. -/
theorem sweep_run (hw : w.disk.Reliable) {limit cutoff : UInt64}
    {index : List (Bytes × PayloadHash)}
    (hindex : readIndex (w.disk.store.range Key.timeIndex (Key.timeBound cutoff) limit.toNat) =
      .ok index) :
    sweep limit cutoff w = .ok (index.map (·.2)) { w with
      disk := { w.disk with store := w.disk.store.applyAll (expiry index) }
      books := { w.books with
        events := w.books.events ++ (index.map (·.2)).map .pendingPayloadExpired } } := by
  rw [sweep_eq, bind_of_ok (onDisk_run (drop_run hw hindex)), bind_of_ok (emits_run _ _ _)]
  rfl

theorem sweep_ok (hw : w.disk.Readable) {limit cutoff : UInt64} {hashes : List PayloadHash}
    (hs : sweep limit cutoff w = .ok hashes w') :
    ∃ index, readIndex (w.disk.store.range Key.timeIndex (Key.timeBound cutoff) limit.toNat) =
        .ok index ∧ hashes = index.map (·.2) ∧
      w.Wrote (expiry index) (hashes.map .pendingPayloadExpired) w' := by
  rw [sweep_eq] at hs
  obtain ⟨index, u, hdrop, hs₁⟩ := bind_eq_ok.1 hs
  obtain ⟨d, hdrop', rfl⟩ := onDisk_eq_ok.1 hdrop
  obtain ⟨hindex, hstore, hlater⟩ := drop_ok hw hdrop'
  obtain ⟨_, v, hemits, hs₂⟩ := bind_eq_ok.1 hs₁
  obtain ⟨rfl, rfl⟩ := pure_eq_ok.1 hs₂
  have hwrote : w.Wrote (expiry index) [] { w with disk := d } :=
    ⟨hstore, hlater, by rw [List.append_nil], rfl⟩
  have := hwrote.trans (.of_emits hemits)
  rw [List.append_nil, List.nil_append] at this
  exact ⟨index, hindex, rfl, this⟩

theorem sweep_error (hw : w.disk.Readable) {limit cutoff : UInt64} {e : RouterError}
    (hs : sweep limit cutoff w = .error e w') : w.Wrote [] [] w' := by
  rw [sweep_eq] at hs
  rcases bind_eq_error.1 hs with hdrop | ⟨index, u, -, hs₁⟩
  · obtain ⟨fault, d, hdrop', -, rfl⟩ := onDisk_eq_error.1 hdrop
    obtain ⟨hstore, hlater⟩ := drop_error hw hdrop'
    exact ⟨hstore, hlater, by rw [List.append_nil], rfl⟩
  · rcases bind_eq_error.1 hs₁ with hemits | ⟨_, _, -, hs₂⟩
    · exact (emits_ne_error hemits).elim
    · exact (pure_ne_error hs₂).elim

end TransferRouter.Pending
