import OpenSwap.Base.Maps
import OpenSwap.Base.Run
import OpenSwap.Protocol.Common

/-!
# The taker's offer book

The makers a taker knows, visible or suppressed, and the file the book is kept in.
Discovery, polls, recorded violations, removal and restarts are the actions of one
machine; every write of the file may fail, which the code answers with a log line or an
error and the change in memory kept.

The machine is `OfferStore.step`; what it does to bans is in `OpenSwap.Taker.OfferBans`.
-/

namespace OpenSwap

open Btc

/-! ## Records -/

/-- A host name.  One read from a file need not be valid. -/
abbrev MakerAddress := String

def offerSyncInterval : Nat := 10 * 60

def offerMaxAgeBeforeRefresh : Nat := 30 * 60

def unresponsiveMakerBackoffStep : Nat := 30 * 60

def staleMakerAge : Nat := 2 * 24 * 60 * 60

inductive UnavailableReason where
  | awaitingOffer
  | noOfferResponse
  | bondUnconfirmed
  | bondExpired
  | bondReorged
  | bondUnverified
  | unpriceableOffer
  | legacyStatus
deriving DecidableEq, Repr

structure UnavailableState where
  reason : UnavailableReason
  sinceTs : Option Nat
  lastAttemptTs : Option Nat
  attempts : Nat
deriving DecidableEq, Repr

inductive BanReason where
  | provenViolation
  | invalidFidelityProof
  | fundingWithheld
  | legacyProvenViolation
deriving DecidableEq, Repr

structure BanRecord where
  reason : BanReason
  recordedAtTs : Nat
deriving DecidableEq, Repr

inductive MakerState where
  | good
  | unavailable (state : UnavailableState)
  | banned (ban : BanRecord)
deriving DecidableEq, Repr

def MakerState.isBanned : MakerState → Bool
  | .banned _ => true
  | _ => false

inductive MakerProtocol where
  | legacy
  | taproot
  | unified
deriving DecidableEq, Repr

def MakerProtocol.supports (self requested : MakerProtocol) : Bool :=
  match self with
  | .unified => true
  | .legacy => requested == .legacy
  | .taproot => requested == .taproot

section Records

-- the offers, which the book only keeps
variable (O : Type)

structure MakerOfferCandidate where
  address : MakerAddress
  fidelityOutpoint : Option OutPoint
  fidelityExpiryHeight : Option Nat
  offer : Option O
  state : MakerState
  /-- the violation flag of an older build: read, never written -/
  legacyProvenViolation : Bool
  protocol : Option MakerProtocol
  features : List String
  lastOfferUpdateTs : Option Nat
  firstSeenTs : Option Nat
  backendRetryPending : Bool
  nextOfferCheckTs : Option Nat
deriving DecidableEq, Repr

structure OfferAndAddress where
  offer : O
  address : MakerAddress
  state : MakerState
  protocol : MakerProtocol
  features : List String
deriving DecidableEq, Repr

end Records

structure SuppressedMaker where
  fidelityOutpoint : Option OutPoint
  fidelityExpiryHeight : Option Nat
  state : Option MakerState
  legacyProvenViolation : Bool
  retryAfterTs : Nat
deriving DecidableEq, Repr

def SuppressedMaker.isBanned (self : SuppressedMaker) : Bool := self.state.any (·.isBanned)

structure OfferBook (O : Type) where
  makers : List (MakerOfferCandidate O)
  suppressedMakers : AList fun _ : MakerAddress => SuppressedMaker
deriving DecidableEq

variable {O : Type}

namespace MakerOfferCandidate

def markSuccess (offer : O) (protocol : MakerProtocol) (features : List String) (now : Nat)
    (self : MakerOfferCandidate O) : MakerOfferCandidate O :=
  if self.state.isBanned then self
  else { self with
    offer := some offer
    protocol := some protocol
    features
    lastOfferUpdateTs := some now
    nextOfferCheckTs := none
    backendRetryPending := false
    state := .good }

/-- A failure goes on an unbroken run of failures, or starts one. -/
def markFailure (reason : UnavailableReason) (now : Nat) (self : MakerOfferCandidate O) :
    MakerOfferCandidate O :=
  if self.state.isBanned then self
  else { self with
    backendRetryPending := false
    nextOfferCheckTs := some
      (satAdd64 (max (self.nextOfferCheckTs.getD now) now) unresponsiveMakerBackoffStep)
    state := .unavailable (match self.state with
      | .unavailable previous =>
        ⟨reason, previous.sinceTs, some now, satAdd32 previous.attempts 1⟩
      | _ => ⟨reason, some now, some now, 1⟩) }

def asOfferAndAddress (self : MakerOfferCandidate O) : Option (OfferAndAddress O) :=
  match self.offer, self.protocol with
  | some offer, some protocol => some ⟨offer, self.address, self.state, protocol, self.features⟩
  | _, _ => none

end MakerOfferCandidate

def updateFirst {α : Type} (p : α → Bool) (f : α → α) : List α → List α
  | [] => []
  | x :: xs => if p x then f x :: xs else x :: updateFirst p f xs

/-! ## Operations of the book -/

inductive OfferCheckError where
  | proven (reason : BanReason)
  | lifecycle (reason : UnavailableReason)
  | backendDown
deriving DecidableEq, Repr

namespace OfferBook

def empty : OfferBook O := ⟨[], ∅⟩

def find (book : OfferBook O) (address : MakerAddress) : Option (MakerOfferCandidate O) :=
  book.makers.find? (·.address == address)

/-- `makers.retain` -/
def retainMakers (p : MakerOfferCandidate O → Bool) (book : OfferBook O) : OfferBook O :=
  { book with makers := book.makers.filter p }

/-- `suppressed_makers.retain` -/
def retainSuppressed (p : MakerAddress → SuppressedMaker → Bool) (book : OfferBook O) :
    OfferBook O :=
  { book with suppressedMakers := book.suppressedMakers.filterEntries p }

/-- Whether a change of the book took records out of a collection. -/
def lost (before after : OfferBook O) : Bool :=
  after.makers.length != before.makers.length ||
    after.suppressedMakers.entries.length != before.suppressedMakers.entries.length

def retainValidAddresses (valid : MakerAddress → Bool) (book : OfferBook O) : OfferBook O :=
  (book.retainMakers fun maker => valid maker.address).retainSuppressed
    fun address _ => valid address

variable (address : MakerAddress)

/-- `suppressed_makers.remove` -/
def removeSuppressed (book : OfferBook O) : OfferBook O :=
  { book with suppressedMakers := book.suppressedMakers.erase address }

/-- A restored ban or failure run survives; a restored `good` has no offer to show. -/
def restoredState (firstSeenTs : Nat) : Option MakerState → MakerState
  | some (.banned ban) => .banned ban
  | some (.unavailable unavailable) => .unavailable unavailable
  | _ => .unavailable ⟨.awaitingOffer, some firstSeenTs, none, 0⟩

def insertCandidate (outpoint : Option OutPoint) (expiryHeight : Option Nat) (firstSeenTs : Nat)
    (restored : Option MakerState) (book : OfferBook O) : OfferBook O :=
  { book with
    makers := book.makers ++ [{
      address
      fidelityOutpoint := outpoint
      fidelityExpiryHeight := expiryHeight
      offer := none
      state := restoredState firstSeenTs restored
      legacyProvenViolation := false
      protocol := none
      features := []
      lastOfferUpdateTs := none
      firstSeenTs := some firstSeenTs
      backendRetryPending := false
      nextOfferCheckTs := none }] }

def updateIf (p : MakerOfferCandidate O → Bool) (f : MakerOfferCandidate O → MakerOfferCandidate O)
    (book : OfferBook O) : OfferBook O :=
  { book with
    makers := updateFirst (fun maker => maker.address == address && p maker) f book.makers }

def update (f : MakerOfferCandidate O → MakerOfferCandidate O) (book : OfferBook O) : OfferBook O :=
  book.updateIf address (fun _ => true) f

def noteBond (outpoint : Option OutPoint) (expiryHeight : Option Nat)
    (existing : MakerOfferCandidate O) : MakerOfferCandidate O × Bool :=
  if existing.fidelityOutpoint.isSome && outpoint.isSome &&
      existing.fidelityOutpoint != outpoint then
    (existing, false)
  else
    let fillsBond := outpoint.isSome && existing.fidelityOutpoint.isNone
    let newExpiry := expiryHeight.isSome && existing.fidelityExpiryHeight != expiryHeight
    ({ existing with
        fidelityOutpoint := if fillsBond then outpoint else existing.fidelityOutpoint
        fidelityExpiryHeight := if newExpiry then expiryHeight else existing.fidelityExpiryHeight },
      fillsBond || newExpiry)

def upsertDiscovered (outpoint : Option OutPoint) (expiryHeight : Option Nat) (now : Nat)
    (book : OfferBook O) : OfferBook O × Bool :=
  match book.find address with
  | some existing =>
    (book.update address fun maker => (noteBond outpoint expiryHeight maker).1,
      (noteBond outpoint expiryHeight existing).2)
  | none =>
    match book.suppressedMakers.lookup address with
    | some suppressed =>
      let bondChanged :=
        suppressed.fidelityOutpoint.isSome && outpoint.isSome &&
          suppressed.fidelityOutpoint != outpoint
      if !bondChanged && now < suppressed.retryAfterTs then (book, false)
      else
        -- a retry for the same bond gets one probe: its age makes it stale at once
        let firstSeen := if bondChanged then now else now - staleMakerAge
        ((book.removeSuppressed address).insertCandidate address outpoint expiryHeight firstSeen
          suppressed.state, true)
    | none => (book.insertCandidate address outpoint expiryHeight now none, true)

variable (now : Nat)

def upsertForPoll (book : OfferBook O) : OfferBook O :=
  let suppressed := book.suppressedMakers.lookup address
  if book.makers.any (·.address == address) then book.removeSuppressed address
  else
    (book.removeSuppressed address).insertCandidate address
      (suppressed.bind (·.fidelityOutpoint)) (suppressed.bind (·.fidelityExpiryHeight)) now
      (suppressed.bind (·.state))

variable (maker : MakerOfferCandidate O)

/-- Whether a maker goes from the visible book to suppression. -/
def stale : Bool :=
  !maker.state.isBanned && !maker.backendRetryPending &&
    (maker.lastOfferUpdateTs.or maker.firstSeenTs).any fun timestamp =>
      staleMakerAge ≤ now - timestamp

def suppression : SuppressedMaker :=
  ⟨maker.fidelityOutpoint, maker.fidelityExpiryHeight, some maker.state, false,
    satAdd64 now staleMakerAge⟩

variable (book : OfferBook O)

def pruneStaleMakers : OfferBook O where
  makers := book.makers.filter (!stale now ·)
  suppressedMakers := ((book.makers.filter (stale now)).map
      fun maker => (maker.address, suppression now maker)).foldl
    (fun suppressed entry => suppressed.insert entry.1 entry.2) book.suppressedMakers

def pruneExpiredSuppressions (currentHeight : Nat) (book : OfferBook O) : OfferBook O :=
  if currentHeight = 0 then book
  else book.retainSuppressed fun _ suppressed =>
    suppressed.isBanned || suppressed.fidelityExpiryHeight.all (currentHeight < ·)

def backfillFirstSeen : MakerOfferCandidate O :=
  if maker.firstSeenTs.isSome then maker
  else { maker with firstSeenTs := some ((maker.lastOfferUpdateTs.or
    (maker.nextOfferCheckTs.map fun next =>
      min (next - unresponsiveMakerBackoffStep) now)).getD now) }

def backfillFirstSeenTimestamps : OfferBook O × Bool :=
  ({ book with makers := book.makers.map (backfillFirstSeen now) },
    book.makers.any (·.firstSeenTs.isNone))

def removeFidelityOutpoint (outpoint : OutPoint) (book : OfferBook O) : OfferBook O :=
  (book.retainMakers fun maker =>
      maker.state.isBanned || maker.fidelityOutpoint != some outpoint).retainSuppressed
    fun _ maker => maker.isBanned || maker.fidelityOutpoint != some outpoint

def migrateLegacyStates : OfferBook O × Bool :=
  let ban := MakerState.banned ⟨.legacyProvenViolation, now⟩
  ({ makers := book.makers.map fun maker =>
        if maker.legacyProvenViolation then
          { maker with legacyProvenViolation := false, state := ban }
        else maker
     suppressedMakers := book.suppressedMakers.mapValues fun _ suppressed =>
        if suppressed.legacyProvenViolation then
          { suppressed with legacyProvenViolation := false, state := some ban }
        else suppressed },
    book.makers.any (·.legacyProvenViolation) ||
      book.suppressedMakers.entries.any (·.2.legacyProvenViolation))

def markSuccess (offer : O) (protocol : MakerProtocol) (features : List String) (now : Nat)
    (book : OfferBook O) : OfferBook O :=
  book.update address (·.markSuccess offer protocol features now)

def markFailure (reason : UnavailableReason) (now : Nat) (book : OfferBook O) : OfferBook O :=
  book.update address (·.markFailure reason now)

/-- The first ban of a maker is the one that is kept. -/
def ban (reason : BanReason) (now : Nat) (book : OfferBook O) : OfferBook O :=
  book.update address fun maker =>
    if maker.state.isBanned then maker
    else { maker with state := .banned ⟨reason, now⟩, backendRetryPending := false }

/-- A failure of our own backend is no failure of the maker. -/
def recordOfferFailure (error : OfferCheckError) (now : Nat) (book : OfferBook O) : OfferBook O :=
  match error with
  | .proven reason => book.ban address reason now
  | .lifecycle reason => book.markFailure address reason now
  | .backendDown =>
    book.updateIf address (!·.state.isBanned) fun maker => { maker with
      backendRetryPending := true
      nextOfferCheckTs := some (satAdd64 now offerSyncInterval) }

/-! ### Selections -/

def isBanned (address : MakerAddress) : Bool :=
  book.makers.any (fun maker => maker.address == address && maker.state.isBanned) ||
    (book.suppressedMakers.lookup address).any (·.isBanned)

abbrev LiveCandidates := AList fun _ : MakerAddress => Option OutPoint

def makersToPoll (liveCandidates : LiveCandidates) (book : OfferBook O) : List MakerAddress :=
  (book.makers.filter fun maker =>
    !maker.state.isBanned &&
    maker.fidelityOutpoint.all (fun outpoint =>
      liveCandidates.lookup maker.address == some (some outpoint)) &&
    maker.nextOfferCheckTs.all (· ≤ now) &&
    maker.lastOfferUpdateTs.all (fun last => offerMaxAgeBeforeRefresh ≤ now - last)).map (·.address)

def activeMakers (protocol : MakerProtocol) (book : OfferBook O) : List (OfferAndAddress O) :=
  ((book.makers.filter fun maker =>
      maker.state == .good && maker.protocol.any (·.supports protocol)).filterMap
    (·.asOfferAndAddress)).mergeSort fun a b => !decide (b.address < a.address)

def goodMakers : List (OfferAndAddress O) :=
  (book.makers.filter (!·.state.isBanned)).filterMap (·.asOfferAndAddress)

end OfferBook

/-! ## Discovery -/

/-- An announcement of the registry, with what the backend said of its output: there,
spent, or no answer. -/
structure FidelityRecord where
  txid : Bytes
  onionAddress : MakerAddress
  expireHeight : Nat
  unspent : Option Bool
deriving DecidableEq, Repr

def FidelityRecord.outpoint (record : FidelityRecord) : OutPoint := ⟨record.txid, 0⟩

structure Registry where
  now : Nat
  height : Nat
  initialSyncComplete : Bool
  fidelities : List FidelityRecord
deriving DecidableEq, Repr

structure HashOrder where
  order : List (MakerAddress × Option OutPoint) → List (MakerAddress × Option OutPoint)
  perm : ∀ entries, (order entries).Perm entries

/-- One live bond of every address, or `none` if there are several. -/
def groupLiveFidelityCandidates (candidates : List (MakerAddress × OutPoint)) :
    OfferBook.LiveCandidates :=
  candidates.foldl (fun grouped candidate =>
    match grouped.lookup candidate.1 with
    | some current => grouped.insert candidate.1
        (if current.any (· != candidate.2) then none else current)
    | none => grouped.insert candidate.1 (some candidate.2)) ∅

section Discovery

variable (valid : MakerAddress → Bool)

namespace Registry

variable (view : Registry)

def usable : List FidelityRecord :=
  view.fidelities.filter fun record => valid record.onionAddress

def liveRecords : List FidelityRecord :=
  (view.usable valid).filter (·.unspent == some true)

def spentOutpoints : List OutPoint :=
  ((view.usable valid).filter (·.unspent == some false)).map (·.outpoint)

def liveCandidates : OfferBook.LiveCandidates :=
  groupLiveFidelityCandidates ((view.liveRecords valid).map fun record =>
    (record.onionAddress, record.outpoint))

def liveExpiry (outpoint : OutPoint) : Option Nat :=
  ((view.liveRecords valid).reverse.find? (·.outpoint == outpoint)).map (·.expireHeight)

/-- Several live bonds claim the address, or a visible record has another bond. -/
def conflicting (book : OfferBook O) (address : MakerAddress) : Option OutPoint → Bool
  | some outpoint => book.makers.any fun maker => maker.address == address &&
      !maker.state.isBanned && maker.fidelityOutpoint.any (· != outpoint)
  | none => true

/-- One live address: taken up, or put out of the visible book if its bonds conflict. -/
def admitCandidate (acc : OfferBook O × Bool) (candidate : MakerAddress × Option OutPoint) :
    OfferBook O × Bool :=
  if conflicting acc.1 candidate.1 candidate.2 then
    let book := acc.1.retainMakers fun maker =>
      maker.address != candidate.1 || maker.state.isBanned
    (book, acc.2 || acc.1.lost book)
  else
    let (book, changed) := acc.1.upsertDiscovered candidate.1 candidate.2
      (candidate.2.bind (view.liveExpiry valid)) view.now
    (book, acc.2 || changed)

/-- Until the registry has its first snapshot, absence from it says nothing. -/
def retainAnnounced (book : OfferBook O) : OfferBook O :=
  if view.initialSyncComplete then
    book.retainMakers fun maker => maker.state.isBanned || maker.fidelityOutpoint.all
      fun outpoint => (view.usable valid).any fun record =>
        record.onionAddress == maker.address && record.outpoint == outpoint
  else book

/-- The critical section of `run_once`: the book after it and whether it is written. -/
def discover (hash : HashOrder) (view : Registry) (book : OfferBook O) : OfferBook O × Bool :=
  let pruned := book.pruneStaleMakers view.now
  let current := pruned.pruneExpiredSuppressions view.height
  let announced := view.retainAnnounced valid current
  let unspent := (view.spentOutpoints valid).foldl
    (fun book outpoint => book.removeFidelityOutpoint outpoint) announced
  let changed := book.lost pruned || pruned.lost current || current.lost announced ||
    announced.lost unspent
  (hash.order ((view.liveCandidates valid).entries.map fun entry => (entry.1, entry.2))).foldl
    (view.admitCandidate valid) (unspent, changed)

end Registry

end Discovery

/-! ## The book and its file -/

inductive OfferDisk (O : Type) where
  | absent
  | unreadable
  | file (content : OfferBook O)

structure OfferStore (O : Type) where
  book : Option (OfferBook O)
  disk : OfferDisk O

def OfferBook.serialized (book : OfferBook O) : OfferBook O where
  makers := book.makers.map fun maker => { maker with legacyProvenViolation := false }
  suppressedMakers := book.suppressedMakers.mapValues fun _ suppressed =>
    { suppressed with legacyProvenViolation := false }

/-- `write_to_disk`: a failed write leaves the file as it is. -/
def OfferDisk.write (written : Bool) (book : OfferBook O) (disk : OfferDisk O) : OfferDisk O :=
  if written then .file book.serialized else disk

/-- The book a file gives, and whether it has to be written again. -/
def OfferBook.load (valid : MakerAddress → Bool) (now : Nat) (content : OfferBook O) :
    OfferBook O × Bool :=
  let (book, backfilled) := (content.retainValidAddresses valid).backfillFirstSeenTimestamps now
  let (book, migrated) := book.migrateLegacyStates now
  (book, backfilled || migrated)

/-- `load_or_create`, with the outcome of its first write (of a new or a cleaned book) and
of the one after the migration. -/
def loadOrCreate (valid : MakerAddress → Bool) (now : Nat) (first second : Bool) :
    OfferDisk O → OfferStore O
  | .absent => if first then ⟨some .empty, .file .empty⟩ else ⟨none, .absent⟩
  | .unreadable => ⟨none, .unreadable⟩
  | .file content =>
    let cleaned := content.retainValidAddresses valid
    -- a cleaned book that cannot be written is used all the same
    let disk := if content.lost cleaned then (OfferDisk.file content).write first cleaned
      else .file content
    let (book, changed) := content.load valid now
    if changed then
      if second then ⟨some book, .file book.serialized⟩ else ⟨none, disk⟩
    else ⟨some book, disk⟩

inductive PollOutcome (O : Type) where
  | offer (offer : O) (protocol : MakerProtocol) (features : List String)
  | failed (error : OfferCheckError)
  | noResponse

variable (address : MakerAddress)

def OfferBook.record (outcome : PollOutcome O) (now : Nat) (book : OfferBook O) : OfferBook O :=
  match outcome with
  | .offer offer protocol features => book.markSuccess address offer protocol features now
  | .failed error => book.recordOfferFailure address error now
  | .noResponse => book.markFailure address .noOfferResponse now

def OfferBook.recordProvenViolation (reason : BanReason) (now : Nat) (book : OfferBook O) :
    OfferBook O :=
  let taken := book.removeSuppressed address
  let inserted :=
    if taken.makers.any (·.address == address) then taken
    else taken.insertCandidate address none none now none
  inserted.ban address reason now

def OfferBook.remove (book : OfferBook O) : OfferBook O :=
  (book.retainMakers (·.address != address)).removeSuppressed address

/-- The critical sections of the taker on its book; `written` is the outcome of the write
a section ends with. -/
inductive OfferAction (O : Type) where
  /-- `run_once` -/
  | discover (view : Registry) (written : Bool)
  /-- `poll_one`, before the download: nothing is written -/
  | pollOne (address : MakerAddress) (now : Nat)
  /-- `fetch_and_record_one`, after the download -/
  | record (address : MakerAddress) (outcome : PollOutcome O) (now : Nat) (written : Bool)
  | recordProvenViolation (address : MakerAddress) (reason : BanReason) (now : Nat) (written : Bool)
  | remove (address : MakerAddress) (written : Bool)
  | persist (written : Bool)
  /-- the taker stops, at any point between two sections, and loads the book again -/
  | reload (now : Nat) (first second : Bool)

def OfferAction.written : OfferAction O → Bool
  | .discover _ written | .record _ _ _ written | .recordProvenViolation _ _ _ written
  | .remove _ written | .persist written => written
  | .pollOne .. => true
  | .reload _ first second => first && second

section Step

variable (valid : MakerAddress → Bool) (hash : HashOrder)

/-- The book after a section and whether the section writes it. -/
def OfferAction.apply (book : OfferBook O) : OfferAction O → OfferBook O × Bool
  | .discover view _ => view.discover valid hash book
  | .pollOne address now => (book.upsertForPoll address now, false)
  | .record address outcome now _ => (book.record address outcome now, true)
  | .recordProvenViolation address reason now _ =>
    (book.recordProvenViolation address reason now, true)
  | .remove address _ => (book.remove address, book.lost (book.remove address))
  | .persist _ => (book, true)
  | .reload .. => (book, false)

def OfferStore.step (s : OfferStore O) : OfferAction O → Option (OfferStore O)
  | .reload now first second => some (loadOrCreate valid now first second s.disk)
  | action => s.book.map fun book =>
    let (book', saves) := action.apply valid hash book
    ⟨some book', if saves then s.disk.write action.written book' else s.disk⟩

end Step

end OpenSwap
