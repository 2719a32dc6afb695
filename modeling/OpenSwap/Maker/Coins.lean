import OpenSwap.Maker.ServerSteps

/-!
# Where the maker's incoming coins come from

Whatever the interleaving, every incoming coin the server holds, on a connection, in a
live swap or in the wallet, was built for an accepted proof of funding: its contract
spends the proved outpoint, pays the contract script that prevout is bound to, and is
priced at the rate the coin carries.

* `Vouched` is that statement about one coin, `ConnSound` and `SharedSound` about the
  coins of a connection and of the state all connections share.
* `Moves.sound` is the step of a handler, `Dispatched.sound` and `Admits.sound` the
  arrival of a message.
-/

namespace OpenSwap

open Btc Checked Run List

variable {P : Prims}

/-! ## Coins and where they come from -/

/-- The coin's contract spends an output of a proved funding transaction, pays what
the outpoint is bound to, and leaves the fee at the coin's rate. -/
def Bound (fundingTxs : List Transaction) (w : WalletStore P) (c : IncomingSwapCoin P) : Prop :=
  ∃ fundingTx ∈ fundingTxs, ∃ vout output fee scriptPubkey,
    fundingTx.output[vout]? = some output ∧ c.fundingAmount = output.value ∧
    feeAtRateSats contractTxVsize c.negotiatedFeerate = some fee ∧
    c.contractTx = mkContractTx ⟨P.txid fundingTx, vout⟩ (output.value - fee) scriptPubkey ∧
    w.prevoutToContractMap.lookup ⟨P.txid fundingTx, vout⟩ = some scriptPubkey

/-- A coin of a swap, built for an accepted proof of funding. -/
def Vouched (sh : Shared P) (swapId : String) (c : IncomingSwapCoin P) : Prop :=
  c.swapId = some swapId ∧ Bound sh.fundingTxs sh.wallet c

structure Grows (sh sh' : Shared P) : Prop where
  bindings : ∀ o spk, sh.wallet.prevoutToContractMap.lookup o = some spk →
    sh'.wallet.prevoutToContractMap.lookup o = some spk
  funding : ∀ tx ∈ sh.fundingTxs, tx ∈ sh'.fundingTxs

variable {funding : List Transaction} {w w' : WalletStore P} {c : IncomingSwapCoin P}
  {sh sh' : Shared P} {α : Type} {txid : Bytes} {id : String} {swapId : String} {conn : Conn P}
  {next : Next P} {clock : Nat}

theorem Grows.of_eq (hmap : sh'.wallet.prevoutToContractMap = sh.wallet.prevoutToContractMap)
    (hfunding : sh'.fundingTxs = sh.fundingTxs) : Grows sh sh' :=
  ⟨fun _ _ h => hmap ▸ h, fun _ h => hfunding ▸ h⟩

theorem Bound.mono {funding'} (hfunding : ∀ tx ∈ funding, tx ∈ funding')
    (hmap : ∀ o spk, w.prevoutToContractMap.lookup o = some spk →
      w'.prevoutToContractMap.lookup o = some spk) (h : Bound funding w c) :
    Bound funding' w' c := by
  obtain ⟨tx, htx, vout, output, fee, spk, hout, hamount, hfee, hcontract, hbound⟩ := h
  exact ⟨tx, hfunding tx htx, vout, output, fee, spk, hout, hamount, hfee, hcontract,
    hmap _ _ hbound⟩

theorem Vouched.mono (hg : Grows sh sh') (h : Vouched sh swapId c) :
    Vouched sh' swapId c :=
  ⟨h.1, h.2.mono hg.funding hg.bindings⟩

/-- Two copies of a coin that differ only in signatures, keys or preimage. -/
structure SameCoin (c c' : IncomingSwapCoin P) : Prop where
  contractTx : c'.contractTx = c.contractTx
  fundingAmount : c'.fundingAmount = c.fundingAmount
  negotiatedFeerate : c'.negotiatedFeerate = c.negotiatedFeerate
  swapId : c'.swapId = c.swapId

theorem Vouched.same {c'} (hsame : SameCoin c c') (h : Vouched sh swapId c) :
    Vouched sh swapId c' := by
  obtain ⟨hid, hbound⟩ := h
  refine ⟨hsame.swapId.trans hid, ?_⟩
  unfold Bound at hbound ⊢
  rwa [hsame.fundingAmount, hsame.negotiatedFeerate, hsame.contractTx]

theorem sameCoin_withContractSig (c : IncomingSwapCoin P) (sig : EcdsaSig) :
    SameCoin c (c.withContractSig sig) := ⟨rfl, rfl, rfl, rfl⟩

theorem sameCoin_withOtherPrivkey (c : IncomingSwapCoin P) (key : P.SecretKey) :
    SameCoin c (c.withOtherPrivkey key) := ⟨rfl, rfl, rfl, rfl⟩

/-- What holds of all coins and does not depend on the fields `f` sets still holds
after a list of values was attached to them. -/
theorem forall_mem_attach {f : IncomingSwapCoin P → α → IncomingSwapCoin P}
    {Q : IncomingSwapCoin P → Prop} {as coins} (hsame : ∀ c a, Q c → Q (f c a))
    (h : ∀ c ∈ coins, Q c) : ∀ c ∈ attach f as coins, Q c := by
  intro c hc
  rcases mem_attach hc with hmem | ⟨a, -, c', hc', rfl⟩
  · exact h c hmem
  · exact hsame c' a (h c' hc')

/-! ## Connections -/

def EntryBound (sh : Shared P) (info : FundingTxInfo P) : Prop :=
  ∃ index, findFundingOutputIndex info = .ok index ∧
    sh.wallet.prevoutToContractMap.lookup ⟨P.txid info.fundingTx, index⟩ =
      some (p2wsh P info.contractRedeemscript)

def TaskSound (maker : Maker P) (sh : Shared P) (state : ConnectionState P) : Task P → Prop
  | .seenLive pof todo built => BuiltUpTo maker state pof todo built
  | .seenWallet pof todo built coin => BuiltUpTo maker state pof todo (built ++ [coin])
  | .beginFunding pof coins | .claim pof coins | .confirm pof coins =>
      List.Forall₂ (BuiltFrom maker state pof) pof.confirmedFundingTxes coins
  | .verifyEntry pof coins todo _ =>
      List.Forall₂ (BuiltFrom maker state pof) pof.confirmedFundingTxes coins ∧
      Passed (∀ info ∈ ·, EntryBound sh info) pof.confirmedFundingTxes todo
  | .initializeSwap pof coins _ =>
      List.Forall₂ (BuiltFrom maker state pof) pof.confirmedFundingTxes coins ∧
      ∀ info ∈ pof.confirmedFundingTxes, EntryBound sh info
  | .storeFunded pof coins _ _ =>
      List.Forall₂ (BuiltFrom maker state pof) pof.confirmedFundingTxes coins ∧
      ∀ c ∈ coins, Vouched sh pof.id c
  | .handoverSave _ todo => ∀ c ∈ todo, c ∈ state.incomingSwapcoins
  | _ => True

structure ConnSound (maker : Maker P) (sh : Shared P) (conn : Conn P) : Prop where
  early : conn.state.phase.early → conn.state.incomingSwapcoins = []
  late : conn.state.phase.early = false → ∃ id, conn.state.swapId = some id
  coins : ∀ id, conn.state.swapId = some id → ∀ c ∈ conn.state.incomingSwapcoins, Vouched sh id c
  taskId : ∀ t, conn.task = some t → conn.state.swapId = some t.swapId ∧
    conn.state.phase.early = false
  task : ∀ t, conn.task = some t → TaskSound maker sh conn.state t

theorem EntryBound.mono {info} (hg : Grows sh sh') (h : EntryBound sh info) :
    EntryBound sh' info := by
  obtain ⟨index, hindex, hbound⟩ := h
  exact ⟨index, hindex, hg.bindings _ _ hbound⟩

theorem TaskSound.mono {maker state t} (hg : Grows sh sh') (h : TaskSound maker sh state t) :
    TaskSound maker sh' state t := by
  cases t with
  | verifyEntry pof coins todo hashvalue =>
    obtain ⟨hbuilt, done, hdone, hbound⟩ := h
    exact ⟨hbuilt, done, hdone, fun info hinfo => (hbound info hinfo).mono hg⟩
  | initializeSwap pof coins hashvalue =>
    exact ⟨h.1, fun info hinfo => (h.2 info hinfo).mono hg⟩
  | storeFunded pof coins outgoing fundingTxes =>
    exact ⟨h.1, fun c hc => (h.2 c hc).mono hg⟩
  | _ => exact h

theorem ConnSound.mono {maker} (hg : Grows sh sh') (h : ConnSound maker sh conn) :
    ConnSound maker sh' conn where
  early := h.early
  late := h.late
  coins id hid c hc := (h.coins id hid c hc).mono hg
  taskId := h.taskId
  task t ht := (h.task t ht).mono hg

section Late

variable {maker : Maker P} {state : ConnectionState P} {task : Task P}

theorem ConnSound.idle (hid : state.swapId = some id) (hlate : state.phase.early = false)
    (hcoins : ∀ c ∈ state.incomingSwapcoins, Vouched sh id c) :
    ConnSound maker sh ⟨state, none⟩ where
  early hearly := absurd hlate (by rw [hearly]; decide)
  late _ := ⟨id, hid⟩
  coins id' hid' := by
    cases hid.symm.trans hid'
    exact hcoins
  taskId t ht := by cases ht
  task t ht := by cases ht

theorem ConnSound.busy (hid : state.swapId = some task.swapId) (hlate : state.phase.early = false)
    (hcoins : ∀ c ∈ state.incomingSwapcoins, Vouched sh task.swapId c)
    (htask : TaskSound maker sh state task) : ConnSound maker sh ⟨state, some task⟩ where
  early hearly := absurd hlate (by rw [hearly]; decide)
  late _ := ⟨_, hid⟩
  coins id' hid' := by
    cases hid.symm.trans hid'
    exact hcoins
  taskId t ht := by
    cases ht
    exact ⟨hid, hlate⟩
  task t ht := by
    cases ht
    exact htask

end Late

/-! ## The shared state -/

def WalletSound (fundingTxs : List Transaction) (w : WalletStore P) : Prop :=
  ∀ txid c, w.incomingSwapcoins.lookup txid = some c →
    txid = c.contractTxid ∧ Bound fundingTxs w c

structure SharedSound (sh : Shared P) : Prop where
  swaps : ∀ id e, sh.ongoingSwaps.lookup id = some e →
    e.phase.early = false ∧ ∀ c ∈ e.incomingSwapcoins, Vouched sh id c
  built : ∀ r ∈ sh.built, Vouched sh r.swapId r.coin
  wallet : WalletSound sh.fundingTxs sh.wallet
  disk : WalletSound sh.fundingTxs sh.disk

def NextSound (maker : Maker P) (sh : Shared P) : Next P → Prop
  | .busy state task => ConnSound maker sh ⟨state, some task⟩
  | .idle state => ConnSound maker sh ⟨state, none⟩
  | .closed _ => True

structure StepSound (maker : Maker P) (sh : Shared P) (result : Shared P × Next P) : Prop where
  shared : SharedSound result.1
  grows : Grows sh result.1
  next : NextSound maker result.1 result.2

theorem NextSound.mono {maker} (hg : Grows sh sh') (h : NextSound maker sh next) :
    NextSound maker sh' next := by
  cases next with
  | busy state task => exact ConnSound.mono hg h
  | idle state => exact ConnSound.mono hg h
  | closed error => trivial

theorem StepSound.of_grows {maker} (hsh : SharedSound sh') (hg : Grows sh sh')
    (h : NextSound maker sh next) : StepSound maker sh (sh', next) :=
  ⟨hsh, hg, h.mono hg⟩

theorem StepSound.of_next {maker} (hsh : SharedSound sh) (h : NextSound maker sh next) :
    StepSound maker sh (sh, next) :=
  .of_grows hsh (.of_eq rfl rfl) h

/-! ## Sound changes of the shared state -/

section Changes

variable {d : WalletStore P} {mine : List (IncomingSwapCoin P)} {m : List String}
  {signed : List Transaction} {e : SwapState P}

theorem WalletSound.of_coins (h : WalletSound funding w)
    (hmap : ∀ o spk, w.prevoutToContractMap.lookup o = some spk →
      w'.prevoutToContractMap.lookup o = some spk)
    (hcoins : ∀ txid c, w'.incomingSwapcoins.lookup txid = some c →
      w.incomingSwapcoins.lookup txid = some c ∨
        (txid = c.contractTxid ∧ Bound funding w c)) : WalletSound funding w' := by
  intro txid c hc
  rcases hcoins txid c hc with hold | ⟨htxid, hbound⟩
  · obtain ⟨htxid, hbound⟩ := h txid c hold
    exact ⟨htxid, hbound.mono (fun _ h => h) hmap⟩
  · exact ⟨htxid, hbound.mono (fun _ h => h) hmap⟩

theorem SharedSound.withWallet (hsh : SharedSound sh)
    (hmap : ∀ o spk, sh.wallet.prevoutToContractMap.lookup o = some spk →
      w.prevoutToContractMap.lookup o = some spk)
    (hw : WalletSound sh.fundingTxs w) (hd : WalletSound sh.fundingTxs d) :
    SharedSound { sh with
      fundingInProgress := m, wallet := w, disk := d, signed := signed } := by
  have hg : Grows sh { sh with
      fundingInProgress := m, wallet := w, disk := d, signed := signed } := ⟨hmap, fun _ h => h⟩
  exact ⟨fun id e he => ⟨(hsh.swaps id e he).1, fun c hc => ((hsh.swaps id e he).2 c hc).mono hg⟩,
    fun r hr => (hsh.built r hr).mono hg, hw, hd⟩

theorem SharedSound.changed (hsh : SharedSound sh)
    (hmine : ∀ c ∈ mine, Bound sh.fundingTxs sh.wallet c) (hw : sh.wallet.Changed mine w)
    (hd : d = sh.disk ∨ sh.wallet.Changed mine d) :
    SharedSound { sh with fundingInProgress := m, wallet := w, disk := d } := by
  have hchanged : ∀ {w'}, sh.wallet.Changed mine w' → WalletSound sh.fundingTxs w' := fun h =>
    hsh.wallet.of_coins (fun _ _ hb => h.bindings ▸ hb) fun txid c hc =>
      (h.coins txid c hc).imp_right fun ⟨hmem, htxid⟩ => ⟨htxid, hmine c hmem⟩
  refine hsh.withWallet (fun _ _ hb => hw.bindings ▸ hb) (hchanged hw) ?_
  rcases hd with rfl | hd
  · exact hsh.disk
  · exact hchanged hd

theorem SharedSound.insert (hsh : SharedSound sh) (hlate : e.phase.early = false)
    (hcoins : ∀ c ∈ e.incomingSwapcoins, Vouched sh id c) :
    SharedSound { sh with ongoingSwaps := sh.ongoingSwaps.insert id e } := by
  exact ⟨AList.forall_lookup_insert ⟨hlate, hcoins⟩ hsh.swaps, hsh.built, hsh.wallet, hsh.disk⟩

theorem SharedSound.erase (hsh : SharedSound sh) :
    SharedSound { sh with ongoingSwaps := sh.ongoingSwaps.erase id } :=
  ⟨fun id e he => hsh.swaps id e (AList.lookup_of_lookup_erase he), hsh.built, hsh.wallet, hsh.disk⟩

end Changes

/-! ## Critical sections -/

section Steps

variable {maker : Maker P} {sh : Shared P} {state state' : ConnectionState P} {answers : Answers P}
  {task task' : Task P} {pof : ProofOfFunding P} {result : Shared P × Next P}
  {msg : LegacyMessage P} {next : Next P} {swapId : String}

theorem Proceeds.sound (h : Proceeds maker sh state answers task task')
    (ht : TaskSound maker sh state task) : TaskSound maker sh state task' := by
  cases h with
  | built => exact BuiltUpTo.all ht
  | notLive hcoin => exact BuiltUpTo.next ht hcoin
  | notSeen => exact ht
  | confirmed => exact ⟨ht, [], rfl, forall_mem_nil _⟩
  | @entryVerified pof coins info rest _ _ hentry =>
    have hbound : EntryBound sh info := (verifyFundingEntry_ok hentry).2.2.2
    exact ⟨ht.1, ht.2.next fun _ hdone =>
      forall_mem_append.mpr ⟨hdone, forall_mem_singleton.mpr hbound⟩⟩
  | verified => exact ⟨ht.1, ht.2.all⟩
  | coinSaved => exact fun c hc => ht c (mem_cons_of_mem _ hc)
  | _ => trivial

theorem GoesOn.sound (h : GoesOn maker sh state answers task next)
    (hconn : ConnSound maker sh ⟨state, some task⟩) : NextSound maker sh next := by
  cases next with
  | busy state' task' =>
    obtain ⟨rfl, hproceeds⟩ := h
    obtain ⟨hid, hlate⟩ := hconn.taskId _ rfl
    rw [← hproceeds.swapId_eq] at hid
    exact .busy hid hlate (hconn.coins _ hid) (hproceeds.sound (hconn.task _ rfl))
  | idle state' => exact h.elim
  | closed error => trivial

theorem ConnSound.saves (h : ConnSound maker sh ⟨state, some task⟩) :
    ∀ c ∈ task.saves state, c ∈ state.incomingSwapcoins := by
  have ht := h.task _ rfl
  cases task with
  | respSave resp => exact fun c hc => hc
  | handoverSave id todo => exact ht
  | _ => exact forall_mem_nil _

theorem vouched_of_built {info coin} (hcoin : BuiltFrom maker state pof info coin)
    (hbound : EntryBound sh info) (hfunding : info.fundingTx ∈ sh.fundingTxs) :
    Vouched sh pof.id coin := by
  obtain ⟨_, _, _, outpoint, output, fee, -, hout, -, hfee, -, hid, hamount, hrate, htx, -⟩ :=
    receiverCoin_ok hcoin
  obtain ⟨hindex, htxid, houtput, -⟩ := fundingOutput_ok hout
  obtain ⟨index, hindex', hmap⟩ := hbound
  obtain rfl : outpoint.vout = index := Except.ok.inj (hindex.symm.trans hindex')
  have hop : outpoint = ⟨P.txid info.fundingTx, outpoint.vout⟩ := by rw [← htxid]
  refine ⟨hid, info.fundingTx, hfunding, outpoint.vout, output, fee, _, houtput, hamount, ?_, ?_,
    hmap⟩
  · rw [hrate, castU64_of_priced hfee, hfee]
  · rw [htx]
    congr 1

theorem builds_sound {coins hashvalue outgoing fundingTxes} (hsh : SharedSound sh)
    (hconn : ConnSound maker sh ⟨state, some (.initializeSwap pof coins hashvalue)⟩) :
    StepSound maker sh
      ({ sh with
          built := sh.built ++ coins.map (⟨pof.id, state.swapStartTime, ·⟩)
          fundingTxs := sh.fundingTxs ++ pof.confirmedFundingTxes.map (·.fundingTx) },
        .busy state (.storeFunded pof coins outgoing fundingTxes)) := by
  obtain ⟨hid, hlate⟩ := hconn.taskId _ rfl
  obtain ⟨hbuilt, hbound⟩ := hconn.task _ rfl
  set sh' : Shared P := { sh with
    built := sh.built ++ coins.map (⟨pof.id, state.swapStartTime, ·⟩)
    fundingTxs := sh.fundingTxs ++ pof.confirmedFundingTxes.map (·.fundingTx) } with hsh'
  have hg : Grows sh sh' := ⟨fun _ _ h => h, fun tx htx => mem_append_left _ htx⟩
  have hvouched : ∀ c ∈ coins, Vouched sh' pof.id c := by
    intro c hc
    obtain ⟨info, hinfo, hcoin⟩ := exists_of_forall₂ hbuilt hc
    exact vouched_of_built hcoin (hbound info hinfo)
      (mem_append_right _ (mem_map_of_mem hinfo))
  have hwallet : ∀ w : WalletStore P, WalletSound sh.fundingTxs w → WalletSound sh'.fundingTxs w :=
    fun w hw txid c hc => ⟨(hw txid c hc).1, (hw txid c hc).2.mono hg.funding fun _ _ h => h⟩
  refine ⟨⟨fun id e he => ⟨(hsh.swaps id e he).1,
    fun c hc => ((hsh.swaps id e he).2 c hc).mono hg⟩, fun r hr => ?_, hwallet _ hsh.wallet,
    hwallet _ hsh.disk⟩, hg, .busy hid hlate (fun c hc => (hconn.coins _ hid c hc).mono hg)
    ⟨hbuilt, hvouched⟩⟩
  rcases mem_append.mp hr with hr | hr
  · exact (hsh.built r hr).mono hg
  · obtain ⟨c, hc, rfl⟩ := mem_map.mp hr
    exact hvouched c hc

/-- **Every critical section** leaves its connection and the shared state sound. -/
theorem Moves.sound (h : Moves maker sh state answers task result) (hsh : SharedSound sh)
    (hconn : ConnSound maker sh ⟨state, some task⟩) :
    StepSound maker sh result := by
  obtain ⟨hid, hlate⟩ := hconn.taskId _ rfl
  have hcoins := hconn.coins _ hid
  have htask := hconn.task _ rfl
  cases h with
  | writes hnext hwallet hdisk =>
    exact .of_grows (hsh.changed (fun c hc => (hcoins c (hconn.saves c hc)).2) hwallet hdisk)
      (.of_eq hwallet.bindings rfl) (hnext.sound hconn)
  | @binds _ _ wallet _ _ hnext hwallet hdisk =>
    obtain ⟨hincoming, hmap⟩ := cachePrevoutToContract_ok hwallet
    have hw : WalletSound sh.fundingTxs wallet :=
      hsh.wallet.of_coins hmap fun txid c hc => .inl (hincoming ▸ hc)
    refine .of_grows (hsh.withWallet hmap hw ?_) ⟨hmap, fun _ h => h⟩ (hnext.sound hconn)
    rcases hdisk with ⟨rfl, -⟩ | ⟨rfl | rfl, -⟩
    · exact hw
    · exact hsh.disk
    · exact hw
  | claims hswaps =>
    obtain ⟨-, stored, hstored, -, rfl⟩ := claimIncomingContractTxids_ok hswaps
    obtain ⟨hlate', hentry⟩ := hsh.swaps _ stored hstored
    exact .of_grows (hsh.insert hlate' hentry) (.of_eq rfl rfl) (.busy hid hlate hcoins htask)
  | builds => exact builds_sound hsh hconn
  | stores hstores hswaps hdisk =>
    obtain ⟨stored, rfl, -⟩ := storeConnectionState_ok hswaps
    have hsh' := hsh.changed (m := sh.fundingInProgress) (forall_mem_nil _) (.refl _) hdisk
    cases hstores with
    | signed =>
      exact .of_grows (hsh'.insert hlate hcoins) (.of_eq rfl rfl) (.idle hid hlate hcoins)
    | funded =>
      exact .of_grows (hsh'.insert rfl htask.2) (.of_eq rfl rfl) (.idle hid rfl htask.2)
    | answered =>
      exact .of_grows (hsh'.insert hlate hcoins) (.of_eq rfl rfl) (.busy hid hlate hcoins trivial)
    | finished => exact .of_grows (hsh'.insert rfl hcoins) (.of_eq rfl rfl) (.idle hid rfl hcoins)
    | putBack _ => exact .of_grows (hsh'.insert hlate hcoins) (.of_eq rfl rfl) trivial
  | refuses => exact .of_grows hsh.erase (.of_eq rfl rfl) trivial
  | removes => exact .of_grows hsh.erase (.of_eq rfl rfl) (.busy hid hlate hcoins trivial)
  | attaches =>
    exact .of_next hsh (.busy hid hlate (forall_mem_attach
      (fun c sig hc => hc.same (sameCoin_withContractSig c sig)) hcoins) trivial)
  | records hstored hwallet hdisk =>
    have hsh' := hsh.changed (m := sh.fundingInProgress) (forall_mem_nil _) hwallet hdisk
    obtain ⟨hlate', hentry⟩ := hsh'.swaps _ _ hstored
    exact .of_grows (hsh'.insert hlate' hentry) (.of_eq hwallet.bindings rfl)
      (.busy hid hlate hcoins trivial)
  | completes => exact .of_next hsh (.busy hid rfl hcoins trivial)

/-! ## Messages and admission -/

theorem restoreStateIfNeeded_sound (hsh : SharedSound sh) (hconn : ConnSound maker sh ⟨state, none⟩)
    (h : restoreStateIfNeeded sh.ongoingSwaps state swapId = .ok state') :
    ConnSound maker sh ⟨state', none⟩ := by
  rcases restoreStateIfNeeded_ok h with ⟨rfl, -⟩ | hget
  · exact hconn
  · obtain ⟨e, he, rfl⟩ := Option.map_eq_some_iff.mp hget
    obtain ⟨hlate, hcoins⟩ := hsh.swaps swapId e he
    exact .idle rfl hlate hcoins

theorem ConnSound.start {phases} (h : ConnSound maker sh ⟨state, none⟩)
    (hlate : ∀ p ∈ phases, p.early = false) (hphase : state.expectPhase phases = .ok ())
    (hid : state.checkSwapId swapId = .ok ()) :
    state.swapId = some swapId ∧ state.phase.early = false ∧
      ∀ c ∈ state.incomingSwapcoins, Vouched sh swapId c := by
  rw [ConnectionState.expectPhase, ensure_eq_ok] at hphase
  rw [ConnectionState.checkSwapId, ensure_eq_ok] at hid
  obtain ⟨id, hsome⟩ := h.late (hlate _ hphase)
  obtain rfl := hid id hsome
  exact ⟨hsome, hlate _ hphase, h.coins id hsome⟩

theorem Starts.sound (h : Starts maker state msg next) (hconn : ConnSound maker sh ⟨state, none⟩) :
    NextSound maker sh next := by
  cases h with
  | closes => trivial
  | request hphase hid =>
    obtain ⟨hid, hlate, hcoins⟩ := hconn.start (by decide) hphase hid
    exact .busy hid hlate hcoins trivial
  | proof hphase hid =>
    obtain ⟨hid, hlate, hcoins⟩ := hconn.start (by decide) hphase hid
    exact .busy hid hlate hcoins ⟨[], rfl, .nil⟩
  | signatures hphase hid =>
    obtain ⟨hid, hlate, hcoins⟩ := hconn.start (by decide) hphase hid
    exact .busy hid hlate hcoins trivial
  | handover hphase hid =>
    obtain ⟨hid, hlate, hcoins⟩ := hconn.start (by decide) hphase hid
    exact .busy hid hlate (forall_mem_attach
      (fun c key hc => hc.same (sameCoin_withOtherPrivkey c key)) hcoins) fun c hc => hc

theorem Dispatched.sound (h : Dispatched maker sh.ongoingSwaps state msg next)
    (hsh : SharedSound sh) (hconn : ConnSound maker sh ⟨state, none⟩) :
    NextSound maker sh next := by
  cases h with
  | closes => trivial
  | starts hrestored hstarts =>
    exact hstarts.sound (restoreStateIfNeeded_sound hsh hconn hrestored)

theorem ConnSound.of_fresh (hlate : state.phase.early = false → ∃ id, state.swapId = some id)
    (hcoins : state.incomingSwapcoins = []) : ConnSound maker sh ⟨state, none⟩ where
  early _ := hcoins
  late := hlate
  coins id _ c hc := by
    rw [hcoins] at hc
    cases hc
  taskId t ht := by cases ht
  task t ht := by cases ht

theorem Admits.sound {s d} (h : Admits s state d result) (hsh : SharedSound s.shared)
    (hconn : ConnSound maker s.shared ⟨state, none⟩) :
    StepSound maker s.shared result := by
  have hnone : state.phase = .awaitingSwapDetails → state.incomingSwapcoins = [] :=
    fun hphase => hconn.early (by rw [hphase]; rfl)
  cases h with
  | closes => exact .of_next hsh trivial
  | refused hphase => exact .of_next hsh hconn
  | notStored hphase hnow => exact .of_next hsh (.of_fresh (fun h => by cases h) (hnone hphase))
  | joins hphase he => exact .of_next hsh (.of_fresh (fun _ => ⟨_, rfl⟩) (hnone hphase))
  | opens hphase hnow _ =>
    refine .of_grows (hsh.insert rfl fun c hc => ?_) (.of_eq rfl rfl)
      (.of_fresh (fun _ => ⟨_, rfl⟩) (hnone hphase))
    change c ∈ state.incomingSwapcoins at hc
    rw [hnone hphase] at hc
    cases hc

end Steps

/-! ## The invariant -/

structure Sound (maker : Maker P) (s : Server P) : Prop where
  shared : SharedSound s.shared
  conns : ∀ n conn, s.conns.lookup n = some conn → ConnSound maker s.shared conn

variable {maker : Maker P} {s : Server P} {n : Nat} {sh : Shared P}

theorem settleConn_sound {task} (hs : Sound maker s) (h : StepSound maker s.shared (sh, next)) :
    Sound maker (s.settleConn n task sh next) := by
  obtain ⟨hshared, hg, hnext⟩ := h
  have hrelease : ∀ marks, SharedSound { sh with fundingInProgress := marks } :=
    fun _ => hshared.changed (forall_mem_nil _) (.refl _) (.inl rfl)
  have hmarks : ∀ marks, Grows sh { sh with fundingInProgress := marks } := fun _ => .of_eq rfl rfl
  have hothers : ∀ m conn, s.conns.lookup m = some conn → ConnSound maker sh conn :=
    fun m conn hm => (hs.conns m conn hm).mono hg
  cases next with
  | busy state task' =>
    exact ⟨hshared, AList.forall_lookup_insert hnext hothers⟩
  | idle state =>
    exact ⟨hrelease _, AList.forall_lookup_insert (ConnSound.mono (hmarks _) hnext)
      fun m conn hm => (hothers m conn hm).mono (hmarks _)⟩
  | closed error =>
    exact ⟨hrelease _, fun m conn hm =>
      (hothers m conn (AList.lookup_of_lookup_erase hm)).mono (hmarks _)⟩

theorem sound_init : Sound maker (Server.init : Server P) where
  shared := {
    swaps := fun id e he => by cases he
    built := fun r hr => by cases hr
    wallet := fun txid c hc => by cases hc
    disk := fun txid c hc => by cases hc }
  conns n conn hn := by cases hn

theorem Sound.withClock (hs : Sound maker s) :
    Sound maker { s with clock := clock } := ⟨hs.shared, hs.conns⟩

theorem Sound.withConn (hs : Sound maker s) (hconn : ConnSound maker s.shared conn) :
    Sound maker { s with conns := s.conns.insert n conn, clock := clock } where
  shared := hs.shared
  conns := AList.forall_lookup_insert hconn hs.conns

theorem Sound.withShared (hs : Sound maker s) (hsh : SharedSound sh) (hg : Grows s.shared sh) :
    Sound maker { s with shared := sh } where
  shared := hsh
  conns m c hm := (hs.conns m c hm).mono hg

/-- **Every step of the server keeps the invariant.** -/
theorem sound_step {s' a} (hs : Sound maker s) (h : s.step maker a = some s') : Sound maker s' := by
  cases Server.stepped_of_step h with
  | connects => exact hs.withConn (.of_fresh (fun h => by cases h) rfl)
  | greets hconn hearly hphase =>
    refine hs.withConn (.of_fresh (fun hlate => ?_) ((hs.conns _ _ hconn).early hearly))
    rw [hphase] at hlate
    cases hlate
  | leaves => exact ⟨hs.shared, fun m c hm => hs.conns m c (AList.lookup_of_lookup_erase hm)⟩
  | details hconn hadmits =>
    exact (settleConn_sound hs (hadmits.sound hs.shared (hs.conns _ _ hconn))).withClock
  | delivers hconn hdispatched =>
    exact settleConn_sound hs
      (.of_next hs.shared (hdispatched.sound hs.shared (hs.conns _ _ hconn)))
  | runs hconn hmoves => exact settleConn_sound hs (hmoves.sound hs.shared (hs.conns _ _ hconn))
  | drains => exact hs.withShared hs.shared.erase (.of_eq rfl rfl)
  | writes hwallet hdisk =>
    exact hs.withShared (hs.shared.changed (forall_mem_nil _) hwallet hdisk)
      (.of_eq hwallet.bindings rfl)
  | restarts =>
    -- nothing is left that rests on the wallet as it was before
    exact {
      shared := {
        swaps := fun id e he => by cases he
        built := fun r hr => by cases hr
        wallet := hs.shared.disk
        disk := hs.shared.disk }
      conns := fun n conn hn => by cases hn }

/-- **In every run the server's incoming coins are vouched for.** -/
theorem sound_of_reachable {ok : Server P → Action P → Prop}
    (h : Reachable (Server.step maker) ok Server.init s) : Sound maker s :=
  h.invariant sound_init fun _ _ _ hs _ hstep => sound_step hs hstep

end OpenSwap
