import OpenSwap.Base.Maps
import OpenSwap.Wallet.FundingPolicy

/-!
# The cached coins

The wallet keeps every unspent output it knows with what it needs to spend it, under its
outpoint.  A coin may be planned unless it is locked or held by a swap in flight; coins of
the seed and swept swap coins are two pools that never mix (`plannablePools`).
-/

namespace OpenSwap

open Btc List

inductive AddressType
  | p2wpkh
  | p2tr
deriving DecidableEq, Repr

/-- `UTXOSpendInfo`: what a coin is to the wallet. -/
inductive UtxoSpendInfo
  | seedCoin (addressType : AddressType)
  | incomingSwapCoin (multisigRedeemscript : Bytes)
  | outgoingSwapCoin (multisigRedeemscript : Bytes)
  | timelockContract (multisigRedeemscript : Bytes) (inputValue : Nat)
  | hashlockContract (multisigRedeemscript : Bytes) (inputValue : Nat)
  | fidelityBondCoin (index inputValue : Nat)
  | sweptCoin (addressType : AddressType)
deriving DecidableEq, Repr

def UtxoSpendInfo.isSeedCoin : UtxoSpendInfo → Bool
  | .seedCoin _ => true
  | _ => false

def UtxoSpendInfo.isSweptCoin : UtxoSpendInfo → Bool
  | .sweptCoin _ => true
  | _ => false

structure UtxoEntry where
  address : Option String
  scriptPubKey : Bytes
  amount : Nat
deriving DecidableEq, Repr

abbrev Coin := Sigma fun _ : OutPoint => UtxoEntry × UtxoSpendInfo

def Coin.entry (coin : Coin) : UtxoEntry := coin.2.1

def Coin.spendInfo (coin : Coin) : UtxoSpendInfo := coin.2.2

structure CoinStore where
  utxoCache : AList fun _ : OutPoint => UtxoEntry × UtxoSpendInfo
  lockedUtxos : List OutPoint
  swapLocks : AList fun _ : String => List OutPoint

namespace CoinStore

variable (w : CoinStore)

def isSwapReserved (outpoint : OutPoint) : Bool :=
  w.swapLocks.entries.any fun e => decide (outpoint ∈ e.2)

def listSpendInfo (kind : UtxoSpendInfo → Bool) : List Coin :=
  w.utxoCache.entries.filter fun e => kind e.2.2

def listDescriptorUtxoSpendInfo := w.listSpendInfo UtxoSpendInfo.isSeedCoin

def listSweptIncomingSwapUtxos := w.listSpendInfo UtxoSpendInfo.isSweptCoin

def isFree (outpoint : OutPoint) : Bool :=
  decide (outpoint ∉ w.lockedUtxos) && !w.isSwapReserved outpoint

def toPool (listing : List Coin) : List PoolCoin :=
  (listing.map fun coin => (coin.1, coin.entry.amount)).filter fun coin => w.isFree coin.1

def plannablePools : Pools :=
  ⟨w.toPool w.listDescriptorUtxoSpendInfo, w.toPool w.listSweptIncomingSwapUtxos⟩

theorem toPool_fst (listing : List Coin) :
    ((w.toPool listing).map Prod.fst).Sublist (listing.map Sigma.fst) := by
  have hsub := (filter_sublist (l := listing.map fun coin => (coin.1, coin.entry.amount))
    (p := fun coin => w.isFree coin.1)).map Prod.fst
  rwa [map_map] at hsub

theorem plannablePools_distinct : w.plannablePools.Distinct := by
  have hkeys : (w.utxoCache.entries.map Sigma.fst).Nodup := w.utxoCache.nodupKeys
  rw [Pools.Distinct, map_append, nodup_append]
  refine ⟨?_, ?_, ?_⟩
  · exact hkeys.sublist ((w.toPool_fst _).trans (filter_sublist.map _))
  · exact hkeys.sublist ((w.toPool_fst _).trans (filter_sublist.map _))
  · rintro outpoint hseed _ hswept rfl
    obtain ⟨e, he, heq⟩ := mem_map.mp ((w.toPool_fst _).subset hseed)
    obtain ⟨e', he', heq'⟩ := mem_map.mp ((w.toPool_fst _).subset hswept)
    obtain ⟨hmem, hkind⟩ := mem_filter.mp he
    obtain ⟨hmem', hkind'⟩ := mem_filter.mp he'
    obtain rfl := inj_on_of_nodup_map hkeys hmem hmem' (heq.trans heq'.symm)
    revert hkind hkind'
    cases e.2.2 <;> simp [UtxoSpendInfo.isSeedCoin, UtxoSpendInfo.isSweptCoin]

end CoinStore

end OpenSwap
