import OpenSwap.Maker.LightningStore

/-!
# The three copies of a Lightning record

A swap's record is held by the map of live swaps, by the wallet in memory and by the wallet
file.  Every operation on a record saves the wallet, and the save may fail.
-/

namespace OpenSwap

open Btc AList

variable {P : Prims}

/-- The live swaps and the wallet's records, and the records of the saved file. -/
structure LnCopies (P : Prims) where
  shared : LnShared P
  file : AList fun _ : String => LnMakerSwapRecord P

inductive LnRecordOp (P : Prims)
  | store (id : String) (swap : LnMakerSwap P)
  | storeIfPhase (id : String) (phase : LnMakerPhase) (swap : LnMakerSwap P)
  | remove (id : String)
  | removeIfPhase (id : String) (phase : LnMakerPhase)
  | fillHeight (id : String) (phase : LnMakerPhase) (outpoint : OutPoint) (height : Nat)

def LnRecordOp.id : LnRecordOp P → String
  | .store id _ | .storeIfPhase id _ _ | .remove id | .removeIfPhase id _
  | .fillHeight id _ _ _ => id

/-- The map and the wallet hold the same record of a swap, or none. -/
def LnShared.Matches (sh : LnShared P) (id : String) : Prop :=
  (sh.lnSwaps.lookup id).map LnMakerSwap.toRecord = sh.lnMakerSwaps.lookup id

instance (sh : LnShared P) (id : String) [DecidableEq P.SecretKey] : Decidable (sh.Matches id) :=
  inferInstanceAs (Decidable (_ = _))

namespace LnCopies

variable (d : LnCopies P)

/-- The wallet in memory is this one now, and is written to the file whole. -/
def save (shared : LnShared P) (saved : Bool) : Except MakerError Bool × LnCopies P :=
  if saved then (.ok true, ⟨shared, shared.lnMakerSwaps⟩)
  else (.error (.wallet .io), ⟨shared, d.file⟩)

def commit : Option (Except MakerError (LnShared P)) → Except MakerError Bool × LnCopies P
  | none => (.ok false, d)
  | some (.ok shared) => (.ok true, ⟨shared, shared.lnMakerSwaps⟩)
  | some (.error e) => (.error e, d)

/-- `released` tells whether the swap held reserved inputs. -/
def apply (saved released : Bool) : LnRecordOp P → Except MakerError Bool × LnCopies P
  | .store id swap =>
    let shared := { d.shared with lnMakerSwaps := d.shared.lnMakerSwaps.insert id swap.toRecord }
    if saved then
      (.ok true, ⟨{ shared with lnSwaps := shared.lnSwaps.insert id swap }, shared.lnMakerSwaps⟩)
    else (.error (.wallet .io), ⟨shared, d.file⟩)
  | .storeIfPhase id phase swap => d.commit (d.shared.storeLnSwapIfPhase id phase swap saved)
  | .remove id =>
    let shared := { d.shared with
      lnSwaps := d.shared.lnSwaps.erase id
      lnMakerSwaps := d.shared.lnMakerSwaps.erase id }
    if (d.shared.lnMakerSwaps.lookup id).isSome || released then d.save shared saved
    else (.ok true, ⟨shared, d.file⟩)
  | .removeIfPhase id phase =>
    if d.shared.lnSwapInPhase id phase then d.save (d.shared.removeLnSwapIfPhase id phase) saved
    else (.ok false, d)
  | .fillHeight id phase outpoint height =>
    d.commit (d.shared.fillLnFundingHeight id phase outpoint height saved)

/-- The operations of a run with what they return, and the copies they leave. -/
def run : LnCopies P → List (LnRecordOp P × Bool × Bool) →
    List (LnRecordOp P × Except MakerError Bool) × LnCopies P
  | d, [] => ([], d)
  | d, (op, saved, released) :: rest =>
    let (result, next) := d.apply saved released op
    let (results, last) := run next rest
    ((op, result) :: results, last)

def Agree (id : String) : Prop :=
  d.shared.Matches id ∧ d.shared.lnMakerSwaps.lookup id = d.file.lookup id

instance (d : LnCopies P) (id : String) [DecidableEq P.SecretKey] : Decidable (d.Agree id) :=
  inferInstanceAs (Decidable (_ ∧ _))

/-- What a failed operation leaves: a plain store the new record in the wallet in memory, a
removal the record in the file, and the others all as it was. -/
def AfterError : LnRecordOp P → LnCopies P → Prop
  | .store id swap, d' => d' = { d with shared := { d.shared with
      lnMakerSwaps := d.shared.lnMakerSwaps.insert id swap.toRecord } }
  | .remove id, d' | .removeIfPhase id _, d' => d'.file = d.file ∧
      d'.shared.lnSwaps = d.shared.lnSwaps.erase id ∧
      d'.shared.lnMakerSwaps = d.shared.lnMakerSwaps.erase id
  | _, d' => d' = d

end LnCopies

/-- An operation that does not put the old record back. -/
def LnRecordOp.plain : LnRecordOp P → Bool
  | .store .. | .remove .. | .removeIfPhase .. => true
  | _ => false

variable {d d' : LnCopies P} {op : LnRecordOp P} {saved released : Bool} {id : String}
  {result : Except MakerError Bool} {sh shared : LnShared P} {key : String}

theorem LnCopies.afterError {e} (h : d.apply saved released op = (.error e, d')) :
    d.AfterError op d' := by
  have hcommit : ∀ {answer}, d.commit answer = (.error e, d') → d' = d := by
    intro answer h
    unfold commit at h
    split at h <;> cases h
    rfl
  have hsave : ∀ {shared}, d.save shared saved = (.error e, d') → d' = ⟨shared, d.file⟩ := by
    intro shared h
    unfold save at h
    split at h <;> cases h
    rfl
  cases op with
  | store id swap =>
    dsimp only [apply] at h
    split at h <;> cases h
    rfl
  | storeIfPhase id phase swap => exact hcommit h
  | remove id =>
    dsimp only [apply] at h
    split at h
    · rw [hsave h]
      exact ⟨rfl, rfl, rfl⟩
    · cases h
  | removeIfPhase id phase =>
    dsimp only [apply] at h
    split at h
    · rename_i hphase
      rw [hsave h, LnShared.removeLnSwapIfPhase, if_pos hphase]
      exact ⟨rfl, rfl, rfl⟩
    · cases h
  | fillHeight id phase outpoint height => exact hcommit h

theorem LnShared.matches_of_store {swap} (hswaps : shared.lnSwaps = sh.lnSwaps.insert key swap)
    (hrecords : shared.lnMakerSwaps = sh.lnMakerSwaps.insert key swap.toRecord)
    (h : sh.Matches id) :
    shared.Matches id := by
  unfold Matches at h ⊢
  rw [hswaps, hrecords]
  by_cases hid : id = key
  · subst hid
    rw [lookup_insert, lookup_insert]
    rfl
  · rwa [lookup_insert_ne hid, lookup_insert_ne hid]

theorem LnShared.matches_of_remove (hswaps : shared.lnSwaps = sh.lnSwaps.erase key)
    (hrecords : shared.lnMakerSwaps = sh.lnMakerSwaps.erase key) (h : sh.Matches id) :
    shared.Matches id := by
  unfold Matches at h ⊢
  rw [hswaps, hrecords]
  by_cases hid : id = key
  · subst hid
    rw [lookup_erase, lookup_erase]
    rfl
  · rwa [lookup_erase_ne hid, lookup_erase_ne hid]

/-- A step keeps the copies of a swap together unless it is a plain operation on it that
fails. -/
theorem LnCopies.agree_apply (h : d.apply saved released op = (result, d'))
    (hplain : op.id = id → op.plain → result.isOk) (hagree : d.Agree id) :
    d'.Agree id := by
  obtain ⟨hmap, hfile⟩ := hagree
  have hcommit : ∀ {answer}, d.commit answer = (result, d') →
      (∀ shared, answer = some (.ok shared) → shared.Matches id) → d'.Agree id := by
    intro answer h hok
    unfold commit at h
    split at h <;> cases h
    · exact ⟨hmap, hfile⟩
    · exact ⟨hok _ rfl, rfl⟩
    · exact ⟨hmap, hfile⟩
  have hremove : ∀ {shared key}, op.id = key → op.plain = true →
      d.save shared saved = (result, d') → shared.lnSwaps = d.shared.lnSwaps.erase key →
      shared.lnMakerSwaps = d.shared.lnMakerSwaps.erase key → d'.Agree id := by
    intro shared key hkey hop h hswaps hrecords
    have hmatches := LnShared.matches_of_remove hswaps hrecords hmap
    unfold save at h
    split at h <;> cases h
    · exact ⟨hmatches, rfl⟩
    · have hne : id ≠ key := fun hid => nomatch hplain (hkey.trans hid.symm) hop
      refine ⟨hmatches, ?_⟩
      rwa [hrecords, lookup_erase_ne hne]
  cases op with
  | store key swap =>
    dsimp only [apply] at h
    split at h <;> cases h
    · exact ⟨LnShared.matches_of_store rfl rfl hmap, rfl⟩
    · have hne : id ≠ key := fun hid => nomatch hplain hid.symm rfl
      unfold Agree LnShared.Matches
      rw [lookup_insert_ne hne]
      exact ⟨hmap, hfile⟩
  | storeIfPhase key phase swap =>
    refine hcommit h fun shared hok => ?_
    unfold LnShared.storeLnSwapIfPhase at hok
    split at hok
    · split at hok <;> cases hok
      exact LnShared.matches_of_store rfl rfl hmap
    · cases hok
  | remove key =>
    dsimp only [apply] at h
    split at h
    · exact hremove rfl rfl h rfl rfl
    · rename_i hnone
      cases h
      refine ⟨LnShared.matches_of_remove rfl rfl hmap, ?_⟩
      by_cases hid : id = key
      · subst hid
        rw [lookup_erase, ← hfile]
        cases hlookup : d.shared.lnMakerSwaps.lookup id with
        | none => rfl
        | some r => simp [hlookup] at hnone
      · rwa [lookup_erase_ne hid]
  | removeIfPhase key phase =>
    dsimp only [apply] at h
    split at h
    · rename_i hphase
      refine hremove rfl rfl h ?_ ?_ <;>
        simp [LnShared.removeLnSwapIfPhase, hphase, LnRecordOp.id]
    · cases h
      exact ⟨hmap, hfile⟩
  | fillHeight key phase outpoint height =>
    refine hcommit h fun shared hok => ?_
    unfold LnShared.fillLnFundingHeight at hok
    split at hok
    · split at hok <;> cases hok
      unfold LnShared.Matches
      rw [AList.lookup_modifyAt, AList.lookup_modifyAt, ← hmap]
      split
      · rw [Option.map_map, Option.map_map]
        rfl
      · rfl
    · cases hok

/-- **The copies of a record.**  With saves that may fail, map, wallet and file hold the same
record of every swap none of whose plain stores and removals failed to save, and a failed
operation leaves what `AfterError` says. -/
theorem lightning_copies_agree {start : LnCopies P} (hstart : ∀ id, start.Agree id)
    (ops : List (LnRecordOp P × Bool × Bool)) :
    (∀ id, (∀ entry ∈ (start.run ops).1, entry.1.id = id → entry.1.plain = true →
      entry.2.isOk = true) → (start.run ops).2.Agree id) ∧
    ∀ op saved released e d', (start.run ops).2.apply saved released op = (.error e, d') →
      (start.run ops).2.AfterError op d' := by
  refine ⟨fun id => ?_, fun op saved released e d' h => LnCopies.afterError h⟩
  have hrun : ∀ d : LnCopies P, d.Agree id → (∀ entry ∈ (d.run ops).1, entry.1.id = id →
      entry.1.plain = true → entry.2.isOk = true) → (d.run ops).2.Agree id := by
    induction ops with
    | nil => exact fun d hd _ => hd
    | cons entry rest ih =>
      intro d hd hok
      obtain ⟨hfirst, hrest⟩ := List.forall_mem_cons.mp hok
      exact ih _ (LnCopies.agree_apply rfl hfirst hd) hrest
  exact hrun start (hstart id)

namespace SampleLn

def swap : LnMakerSwap prims where
  direction := .swapIn
  phase := .inAccepted
  paymentHash := paymentHash
  amount := 100000
  fee := 1000
  locktime := 144
  minConfirmations := 1
  htlc := htlc 0 4
  privkey := (0 : Fin 15)
  invoice := invoice
  preimage := none
  refundTxid := none
  acceptedHeight := some 100
  payoutScript := none
  funding := none
  fundingHeight := none
  updatedAt := 0

def copies : LnCopies prims := ⟨(LnServer.start chain).shared, ∅⟩

def stored : List (LnRecordOp prims × Bool × Bool) :=
  [(.store swapId swap, true, false), (.storeIfPhase swapId .inAccepted swap, false, false)]

end SampleLn

open SampleLn in
theorem lightning_copies_stored :
    (copies.run stored).2.shared.lnSwaps.keys = [swapId] ∧ (copies.run stored).2.Agree swapId := by
  have hstart : ∀ id, copies.Agree id := fun id => ⟨rfl, rfl⟩
  exact ⟨by decide +kernel, (lightning_copies_agree hstart stored).1 swapId (by decide +kernel)⟩

open SampleLn in
/-- A store that is not saved leaves its record in the wallet alone.  A removal that is not
saved leaves the record in the file alone, and is not made up for by the next one. -/
theorem failed_writes_part_copies :
    ¬ (copies.run [(.store swapId swap, false, false)]).2.Agree swapId ∧
      ¬ (copies.run [(.store swapId swap, true, false), (.remove swapId, false, false),
        (.remove swapId, true, false)]).2.Agree swapId := by
  decide +kernel

end OpenSwap
