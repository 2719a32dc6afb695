import OpenSwap.Protocol.Contract

/-!
# Taproot contract scripts

The two leaves of a Taproot contract and the functions that read a peer's leaves.

* `createHashlockScript_instructions` and `createTimelockScript_instructions`: the
  leaves this party builds decode to the templates.
-/

namespace OpenSwap

open Btc Checked

variable {P : Prims}

def createHashlockScript (hash pubkey : Bytes) : Bytes :=
  encode [.op Opcode.sha256, .push hash, .op Opcode.equalVerify, .push pubkey,
    .op Opcode.checkSig]

def createTimelockScript (locktime : Nat) (pubkey : Bytes) : Bytes :=
  encode [intInstr locktime, .op Opcode.cltv, .op Opcode.drop, .push pubkey,
    .op Opcode.checkSig]

/-- `LockTime::from_height`: values from the threshold on are times, not heights. -/
def lockTimeFromHeight (n : Nat) : Option Nat := if n < lockTimeThreshold then some n else none

def pushAt (script : Bytes) (i : Nat) : Option Bytes :=
  match (instructions script)[i]? with
  | some (.ok (.push data)) => some data
  | _ => none

def extractHashFromHashlock (script : Bytes) : Except ProtocolError Bytes := do
  ensure (5 ≤ (instructions script).length) (.general "Invalid hashlock script format")
  let hash ← okOr (pushAt script 1) (.general "Failed to extract hash from hashlock script")
  ensure (hash.length = 32) (.general "Failed to extract hash from hashlock script")
  .ok hash

def checkTaprootHashlockHasPubkey (hashlockScript : Bytes) (tweakablePoint : P.PublicKey)
    (nonce : P.SecretKey) : Except ProtocolError Unit := do
  let expected ← calculatePubkeyFromNonce tweakablePoint nonce
  ensure (pushAt hashlockScript 3 = some (Prims.xOnly expected.inner))
    (.general "Taproot hashlock pubkey doesn't match nonce-derived key")

/-! ## Leaves -/

variable {hash pubkey : Bytes}

theorem createHashlockScript_instructions (hh : hash.length = 32) (hp : pubkey.length = 32) :
    collect (instructions (createHashlockScript hash pubkey)) = .ok (hashLeaf hash pubkey) := by
  rw [collect_eq_ok]
  refine instructions_encode fun i hi => ?_
  simp only [List.mem_cons, List.not_mem_nil, or_false] at hi
  rcases hi with rfl | rfl | rfl | rfl | rfl
  · decide
  · show hash.length < 2 ^ 32
    omega
  · decide
  · show pubkey.length < 2 ^ 32
    omega
  · decide

theorem createTimelockScript_instructions {n} (hn : n < 2 ^ 32) (hp : pubkey.length = 32) :
    collect (instructions (createTimelockScript n pubkey)) =
      .ok (cltvLeaf (intInstr n) pubkey) := by
  rw [collect_eq_ok]
  refine instructions_encode fun i hi => ?_
  simp only [List.mem_cons, List.not_mem_nil, or_false] at hi
  rcases hi with rfl | rfl | rfl | rfl | rfl
  · exact intInstr_wellFormed hn
  · decide
  · decide
  · show pubkey.length < 2 ^ 32
    omega
  · decide

/-- On a script with the template's instructions the extracted hash is the one the
leaf compares with. -/
theorem extractHashFromHashlock_template {script}
    (h : collect (instructions script) = .ok (hashLeaf hash pubkey)) (hh : hash.length = 32) :
    extractHashFromHashlock script = .ok hash := by
  rw [collect_eq_ok] at h
  have hpush : pushAt script 1 = some hash := by
    rw [pushAt, h]
    rfl
  have hlen : 5 ≤ (instructions script).length := by
    rw [h]
    simp [hashLeaf]
  simp [extractHashFromHashlock, bind_ok_iff, hpush, hlen, hh]

end OpenSwap
