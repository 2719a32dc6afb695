import OpenSwap.Maker.Legacy

/-!
# The 2-of-2 script of an incoming coin

The template check leaves the order of the two keys open; every place that rebuilds
the script from the keys sorts them.

* `SampleSwap` is the data of a Legacy hop, for this and the following files.
-/

namespace OpenSwap

open Btc Checked

/-! ## A Legacy hop

A taker with the key `1` funds a maker with the tweakable key `3`, which forwards to
the keys `11` and `12`.  Hashes and identifiers are the real ones. -/

namespace SampleSwap

def keyBytes (k : Fin 15) : Bytes := TablePoint.serialize (.mul k)

/-- The hash of 32 times `0x11`. -/
def hash : Bytes := natBe 20 0x4d5209774e22ea63e2987579562d9a4ea3dab623

def multisig : Bytes := multisigScript (keyBytes 4) (keyBytes 0)
def multisigDescending : Bytes := multisigScript (keyBytes 0) (keyBytes 4)
def multisigHash : Bytes :=
  natBe 32 0xdee483e01682b6230edcf8947788873a48144f23786b2d8b7e7a1d9d30abe5b1
def multisigDescendingHash : Bytes :=
  natBe 32 0xc619de31cb4b0394e021215f07b202f8bec20e3daceb861c4cb179ca0f34ad14

def contract : Bytes := encode (contractInstrs (keyBytes 6) (keyBytes 8) hash 40)
def otherContract : Bytes := encode (contractInstrs (keyBytes 6) (keyBytes 9) hash 40)
def contractHash : Bytes :=
  natBe 32 0xd9ddc8a3c4a6fbbe676bfe41d2dd87dde4b040043ab0861b68962e6696f5fdd3
def otherContractHash : Bytes :=
  natBe 32 0x96085b7f0c6e90338e26872121713e582c645ec13ced96d586396c156e42f895

def nextMultisigHash : Bytes :=
  natBe 32 0xbdf90f81f6635d3f62fe00916348aa16a2a6d11270dab8ffc41b79639aff89ce
def nextContract : Bytes := encode (contractInstrs (keyBytes 11) (keyBytes 13) hash 20)
def nextContractHash : Bytes :=
  natBe 32 0xe9c58ae8c32912ef11f9661a00a58c02560e4bdac37db7cc1732a77bc2e46f9a

def scriptHash (h : Bytes) : Bytes := encode [.push [], .push h]

def payment (input : OutPoint) (output : TxOut) : Transaction where
  version := 2
  lockTime := 0
  input := [⟨input, [], 0xfffffffd, []⟩]
  output := [output]

def fundingTx : Transaction :=
  payment ⟨List.replicate 32 0xaa, 0⟩ ⟨100000, scriptHash multisigHash⟩
def fundingTxid : Bytes :=
  natBe 32 0xf94466ccd7626941c8c0de8ab1fa94617eb49b28c685a8e26932acdd8738b4d1

def descendingTx : Transaction :=
  payment ⟨List.replicate 32 0xaa, 0⟩ ⟨100000, scriptHash multisigDescendingHash⟩
def descendingTxid : Bytes :=
  natBe 32 0xcbc2d23663ec9d339238fce52a26b7468b517c8957ca1d2d7ea4257e589a8191

def contractTx (rate : Nat) : Transaction :=
  mkContractTx ⟨fundingTxid, 0⟩ (100000 - 150 * rate) (scriptHash contractHash)

def replaceableTx : Transaction :=
  payment ⟨fundingTxid, 0⟩ ⟨99850, scriptHash contractHash⟩

def otherContractTx : Transaction :=
  mkContractTx ⟨fundingTxid, 0⟩ 99850 (scriptHash otherContractHash)

/-- What the maker forwards at a rate: the incoming amount less the swap fee, the
sweep and the funding transaction. -/
def nextValue (rate : Nat) : Nat := 100000 - 1000 - 150 * rate - 165 * rate

def nextFundingTx (rate : Nat) : Transaction :=
  payment ⟨List.replicate 32 0xbb, rate⟩ ⟨nextValue rate, scriptHash nextMultisigHash⟩
def nextFundingTxid1 : Bytes :=
  natBe 32 0xf44b1dc150fc095ec56220db2b2f799add72e457de8b9617b14dcc0871ef63e8
def nextFundingTxid2 : Bytes :=
  natBe 32 0x624c168cd0b6c9a2b53b88317a2a48e70e9f157b70d4c5bf6e8780712c71ba34

def nextContractTx (txid : Bytes) (rate : Nat) : Transaction :=
  mkContractTx ⟨txid, 0⟩ (nextValue rate - 150 * rate) (scriptHash nextContractHash)

def tables : Tables :=
  { Tables.empty with
    sha256 := [(multisig, multisigHash), (multisigDescending, multisigDescendingHash),
      (contract, contractHash), (otherContract, otherContractHash),
      (nextContract, nextContractHash)]
    txid := [(fundingTx, fundingTxid), (descendingTx, descendingTxid),
      (contractTx 1,
        natBe 32 0x4dbd0d7e9f769f7cb3e119ad4e9959c3969fb29a8a43f938c7d153b273957eee),
      (contractTx 2,
        natBe 32 0xafc6ff5d1b977c6b4508735cdc9c7692c5b0012be4b946ee5a00ef65d88042bf),
      (replaceableTx,
        natBe 32 0x67f5fd0c3506e2896a5e796d849395156cf2650715085d65a7568933cec9c141),
      (otherContractTx,
        natBe 32 0x82748892a54c6e25f94d5d5d530fa31b3591f8285afd2515688ad0dcc5b09e3a),
      (mkContractTx ⟨descendingTxid, 0⟩ 99850 (scriptHash contractHash),
        natBe 32 0x6d2738f0cf37cb3112fbe92aff96b75c6a0ba051f7ce2a9b4e43f9ff83291c6f),
      (nextFundingTx 1, nextFundingTxid1), (nextFundingTx 2, nextFundingTxid2),
      (nextContractTx nextFundingTxid1 1,
        natBe 32 0x996592c2728d82791087f7a8b8a7fb8d57c79f90df7105b4bcdf5cc620d0831d),
      (nextContractTx nextFundingTxid2 2,
        natBe 32 0x704b699aca8343b37a664217b7d85320a8e488fe2d0cbb846701ba41e038c12e)] }

abbrev prims : Prims := tables.prims

def tweakablePrivkey : prims.SecretKey := (2 : Fin 15)

def entry (tx : Transaction) (redeemscript : Bytes) : FundingTxInfo prims where
  fundingTx := tx
  multisigRedeemscript := redeemscript
  multisigNonce := (1 : Fin 15)
  contractRedeemscript := contract
  hashlockNonce := (3 : Fin 15)

def accept (info : FundingTxInfo prims) :
    Except MakerError (IncomingSwapCoin prims × Bytes) := do
  let coin ← receiverCoin tweakablePrivkey 1 "00000000000000aa" info
  let hashvalue ← verifyFundingEntry (Prims.publicKey tweakablePrivkey)
    (fun _ => some (scriptHash contractHash)) 20 (.ok true) none info
  .ok (coin, hashvalue)

theorem accept_ok {info} (h : (accept info).toOption.isSome) :
    ∃ coin hashvalue, receiverCoin tweakablePrivkey 1 "00000000000000aa" info = .ok coin ∧
      verifyFundingEntry (Prims.publicKey tweakablePrivkey)
        (fun _ => some (scriptHash contractHash)) 20 (.ok true) none info = .ok hashvalue := by
  cases hacc : accept info with
  | error e =>
    rw [hacc] at h
    cases h
  | ok result =>
    simp only [accept, bind_ok_iff] at hacc
    obtain ⟨coin, hcoin, hashvalue, hentry, -⟩ := hacc
    exact ⟨coin, hashvalue, hcoin, hentry⟩

end SampleSwap

/-! ## The stored script -/

variable {P : Prims}

/-- **The script stored on the coin** is the one signature checks and the funding watch use, with
its keys in ascending order.  It is the peer's script, whose hash the funding output pays, exactly
when the peer wrote its keys in that order. -/
theorem stored_multisig_iff {tweakablePrivkey : P.SecretKey} {swapFeerate : Nat} {swapId : String}
    {prevoutToContract : OutPoint → Option Bytes} {refundLocktime : Nat}
    {unspent : Except MakerError Bool} {hashvalue : Option Bytes} {info : FundingTxInfo P}
    {thisHashvalue : Bytes} {coin : IncomingSwapCoin P}
    (hcoin : receiverCoin tweakablePrivkey swapFeerate swapId info = .ok coin)
    (hentry : verifyFundingEntry (Prims.publicKey tweakablePrivkey) prevoutToContract
      refundLocktime unspent hashvalue info = .ok thisHashvalue) :
    ∃ rebuilt outpoint output,
      coin.multisigRedeemscript = some rebuilt ∧ coin.rebuiltMultisig = some rebuilt ∧
      fundingWatch coin = some (outpoint, p2wsh P rebuilt) ∧
      fundingOutput info = .ok (outpoint, output) ∧
      output.scriptPubkey = p2wsh P info.multisigRedeemscript ∧
      (rebuilt = info.multisigRedeemscript ↔
        slice info.multisigRedeemscript pubkey1Offset pubkeyLength ≤
          slice info.multisigRedeemscript pubkey2Offset pubkeyLength) ∧
      (rebuilt = info.multisigRedeemscript → ∀ sig otherPubkey,
        coin.otherPubkey = some otherPubkey → verifyReceiverSig sig coin = .ok () →
        verifyContractTxSig coin.contractTx info.multisigRedeemscript coin.fundingAmount otherPubkey
          sig.signature = .ok ()) := by
  obtain ⟨pubkey1, pubkey2, multisigPrivkey, outpoint, output, fee, hkeys, hout, hpriv, -, -, -, -,
    -, htx, hmy, hother, hstored⟩ := receiverCoin_ok hcoin
  obtain ⟨-, htemplate, hhas, -⟩ := verifyFundingEntry_ok hentry
  obtain ⟨key1, key2, hlen1, hlen2, hscript⟩ := checkRedeemscriptIsMultisig_ok htemplate
  have hown := own_key_of_accepted hkeys hhas hpriv
  rw [hscript, readPubkeysFromMultisigRedeemscript_multisigScript hlen1 hlen2] at hkeys
  obtain ⟨hparse1, hparse2⟩ := hkeys
  have hc1 := Prims.PublicKey.compressed_of_fromSlice hparse1
  have hc2 := Prims.PublicKey.compressed_of_fromSlice hparse2
  -- whichever of the two keys is ours, the rebuilt script is the one over both
  have hrebuilt : createMultisigRedeemscript (Prims.publicKey multisigPrivkey)
      (if Prims.publicKey multisigPrivkey = pubkey1 then pubkey2 else pubkey1) =
      createMultisigRedeemscript pubkey1 pubkey2 := by
    split
    · rename_i heq
      rw [heq]
    · rename_i hne
      have heq : pubkey2 = Prims.publicKey multisigPrivkey :=
        hown.resolve_left fun h => hne h.symm
      rw [← heq, createMultisigRedeemscript_comm hc2 hc1]
  rw [hrebuilt] at hstored
  have hre : coin.rebuiltMultisig = some (createMultisigRedeemscript pubkey1 pubkey2) := by
    simp [IncomingSwapCoin.rebuiltMultisig, hmy, hother, hrebuilt]
  refine ⟨_, outpoint, output, hstored, hre, ?_, hout, (fundingOutput_ok hout).2.2.2, ?_, ?_⟩
  · simp [fundingWatch, IncomingSwapCoin.fundingOutpoint, htx, mkContractTx, hstored,
      redeemscriptToScriptpubkey]
  · rw [hscript, slice_multisigScript_key1 hlen1 hlen2, slice_multisigScript_key2 hlen1 hlen2]
    exact createMultisigRedeemscript_eq_iff hparse1 hparse2
  · intro heq sig otherPubkey hother' hsig
    simp only [verifyReceiverSig, bind_ok_iff, okOr_eq_ok, mapError_ok_iff, hre, hother',
      Option.some.injEq] at hsig
    obtain ⟨_, rfl, _, rfl, hsig⟩ := hsig
    rwa [heq] at hsig

open SampleSwap in
/-- A script with its keys in ascending order is the one on the coin. -/
theorem stored_multisig_ascending :
    ∃ coin hashvalue, receiverCoin tweakablePrivkey 1 "00000000000000aa"
        (entry fundingTx multisig) = .ok coin ∧
      verifyFundingEntry (Prims.publicKey tweakablePrivkey)
        (fun _ => some (scriptHash contractHash)) 20 (.ok true) none
        (entry fundingTx multisig) = .ok hashvalue ∧
      coin.multisigRedeemscript = some multisig := by
  obtain ⟨coin, hashvalue, hcoin, hentry⟩ := accept_ok (show (accept (entry fundingTx
      multisig)).toOption.isSome = true by decide +kernel)
  obtain ⟨rebuilt, -, -, hstored, -, -, -, -, hiff, -⟩ := stored_multisig_iff hcoin hentry
  refine ⟨coin, hashvalue, hcoin, hentry, ?_⟩
  rw [hstored, hiff.mpr (by decide +kernel)]
  rfl

open SampleSwap in
/-- With its keys in the other order an entry is accepted as well, and the script on
the coin, which the signature checks and the funding watch use, is another one: the
funding output does not pay its hash. -/
theorem descending_multisig_accepted :
    ∃ coin hashvalue rebuilt, receiverCoin tweakablePrivkey 1 "00000000000000aa"
        (entry descendingTx multisigDescending) = .ok coin ∧
      verifyFundingEntry (Prims.publicKey tweakablePrivkey)
        (fun _ => some (scriptHash contractHash)) 20 (.ok true) none
        (entry descendingTx multisigDescending) = .ok hashvalue ∧
      coin.multisigRedeemscript = some rebuilt ∧ rebuilt ≠ multisigDescending ∧
      ∀ output ∈ descendingTx.output, output.scriptPubkey ≠ p2wsh prims rebuilt := by
  obtain ⟨coin, hashvalue, hcoin, hentry⟩ := accept_ok (show (accept (entry descendingTx
      multisigDescending)).toOption.isSome = true by decide +kernel)
  have hcheck : ((receiverCoin tweakablePrivkey 1 "00000000000000aa"
      (entry descendingTx multisigDescending)).toOption.bind
        (·.multisigRedeemscript)) = some multisig := by decide +kernel
  rw [hcoin] at hcheck
  exact ⟨coin, hashvalue, multisig, hcoin, hentry, hcheck, by decide +kernel,
    by decide +kernel⟩

end OpenSwap
