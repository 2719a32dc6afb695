import OpenSwap.Lightning.SwapHtlc

/-!
# Messages of Lightning swaps

What taker and maker say to each other.  Directions are named from the taker's side: a
swap-in pays on the chain for a Lightning balance, a swap-out the other way round.  The
identifier of a swap is the payment hash in hexadecimal digits.
-/

namespace OpenSwap

open Btc

inductive LnDirection where
  | swapIn
  | swapOut
deriving DecidableEq, Repr

structure LightningOffer where
  swapIn : Bool
  swapOut : Bool
  /-- the flat and the relative fee of an amount, rounded up -/
  fee : Nat → Nat
  minSize : Nat
  maxSwapIn : Nat
  maxSwapOut : Nat

def LightningOffer.directionLimits (offer : LightningOffer) : LnDirection → Bool × Nat
  | .swapIn => (offer.swapIn, offer.maxSwapIn)
  | .swapOut => (offer.swapOut, offer.maxSwapOut)

/-! ## From the taker -/

structure LnSwapInRequest (P : Prims) where
  swapId : String
  invoice : String
  paymentHash : Bytes
  amount : Nat
  locktime : Nat
  minConfirmations : Nat
  takerTimelockPubkey : P.PublicKey
  features : List String

structure LnSwapOutRequest (P : Prims) where
  swapId : String
  paymentHash : Bytes
  amount : Nat
  locktime : Nat
  minConfirmations : Nat
  takerHashlockPubkey : P.PublicKey
  features : List String

/-- Where the contract of a swap is on the chain; the maker's announcement has the same form. -/
structure LnHtlcFunded where
  swapId : String
  outpoint : OutPoint
  value : Nat

/-! ## From the maker -/

structure LnSwapInAccept (P : Prims) where
  swapId : String
  makerHashlockPubkey : P.PublicKey
  fee : Nat
  locktime : Nat
  minConfirmations : Nat

structure LnSwapOutAccept (P : Prims) where
  swapId : String
  invoice : String
  fee : Nat
  makerTimelockPubkey : P.PublicKey
  locktime : Nat
  minConfirmations : Nat

inductive LightningMakerMessage (P : Prims) where
  | swapInAccept (accept : LnSwapInAccept P)
  | swapInComplete (swapId : String)
  | swapOutAccept (accept : LnSwapOutAccept P)
  | swapOutFunded (funded : LnHtlcFunded)
  | swapOutComplete (swapId : String)

end OpenSwap
