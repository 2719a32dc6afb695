import OpenSwap.Base.Checked
import OpenSwap.Base.Maps
import OpenSwap.Btc.Tables

/-!
# The blocklist of funding sources

One JSON file, shared by the maker and the taker of a data directory, lists addresses
whose coins are refused.  A change reads the file, indexes its entries by the script of
their address for the network at hand, changes the index and writes the file back from it.
-/

namespace OpenSwap

open Btc Checked List AList

/-! ## The file -/

section File

-- the values of fields this build does not know
variable (J : Type)

structure BlocklistEntry where
  address : String
  label : Option String
  /-- fields a newer build wrote -/
  extra : AList fun _ : String => J
deriving DecidableEq

structure BlocklistFile where
  requires : List String
  entries : List (BlocklistEntry J)
  extra : AList fun _ : String => J
deriving DecidableEq

inductive BlocklistDisk where
  | absent
  /-- a file that cannot be read or decoded -/
  | malformed
  | file (content : BlocklistFile J)
deriving DecidableEq

end File

variable {J : Type}

def BlocklistFile.default : BlocklistFile J := ⟨[], [], ∅⟩

inductive BlocklistIo where
  | malformed
  | needsNewerBuild (missing : List String)
  | lock
  | write
deriving DecidableEq, Repr

inductive BlocklistError where
  | io (reason : BlocklistIo)
  | invalidAddresses (rejected : List (String × String))
deriving DecidableEq, Repr

/-- What the list takes from outside: the address parser of the network, the features a file may
require, lock, write and the order of a hash map. -/
structure BlocklistEnv (J : Type) where
  parseCheckedAddress : String → Except String Bytes
  checkRequires : List String → Except (List String) Unit
  lock : Bool
  written : Bool
  values : List (BlocklistEntry J) → List (BlocklistEntry J)
  values_perm : ∀ entries, (values entries).Perm entries

variable (env : BlocklistEnv J)

def readBlocklist : BlocklistDisk J → Except BlocklistError (BlocklistFile J)
  | .absent => .ok .default
  | .malformed => .error (.io .malformed)
  | .file content => do
    (env.checkRequires content.requires).mapError fun missing => .io (.needsNewerBuild missing)
    .ok content

/-! ## The index -/

abbrev BlocklistIndex (J : Type) := AList fun _ : Bytes => BlocklistEntry J

/-- Put an entry under the script of its address; what does not parse is skipped. -/
def indexEntry (indexed : BlocklistIndex J) (entry : BlocklistEntry J) : BlocklistIndex J :=
  match env.parseCheckedAddress entry.address with
  | .ok script => indexed.insert script entry
  | .error _ => indexed

/-- The entries by script; of two with one script the last is kept. -/
def indexEntries (entries : List (BlocklistEntry J)) : BlocklistIndex J :=
  entries.foldl (indexEntry env) ∅

def rejection (address : String) : Option (String × String) :=
  match env.parseCheckedAddress address with
  | .ok _ => none
  | .error reason => some (address, reason)

def validateAll (addresses : List String) : Except BlocklistError (List Bytes) :=
  let rejected := addresses.filterMap (rejection env)
  if rejected = [] then .ok (addresses.filterMap fun a => (env.parseCheckedAddress a).toOption)
  else .error (.invalidAddresses rejected)

structure AddOutcome where
  added : Nat
  updated : Nat
deriving DecidableEq, Repr

/-- Put an entry under its script.  The fields of the one it replaces that it does not
have itself go over to it. -/
def addEntry (acc : BlocklistIndex J × AddOutcome) (entry : BlocklistEntry J × Bytes) :
    BlocklistIndex J × AddOutcome :=
  match acc.1.lookup entry.2 with
  | some old =>
    ((acc.1.erase entry.2).insert entry.2
        { entry.1 with
          extra := old.extra.entries.foldl
            (fun extra field => if field.1 ∈ extra then extra else extra.insert field.1 field.2)
            entry.1.extra },
      { acc.2 with updated := acc.2.updated + 1 })
  | none => (acc.1.insert entry.2 entry.1, { acc.2 with added := acc.2.added + 1 })

def removeEntry (acc : BlocklistIndex J × Nat) (script : Bytes) : BlocklistIndex J × Nat :=
  (acc.1.erase script, if script ∈ acc.1 then acc.2 + 1 else acc.2)

/-! ## Changes of the list -/

structure AddressBlocklist (J : Type) where
  inner : BlocklistIndex J
  disk : BlocklistDisk J

inductive BlocklistCall (J : Type) where
  | add (entries : List (BlocklistEntry J))
  | remove (addresses : List String)

inductive BlocklistReply where
  | added (outcome : AddOutcome)
  | removed (count : Nat)
deriving DecidableEq, Repr

namespace BlocklistCall

def addresses : BlocklistCall J → List String
  | .add entries => entries.map (·.address)
  | .remove addresses => addresses

def scripts (call : BlocklistCall J) : List Bytes :=
  call.addresses.filterMap fun address => (env.parseCheckedAddress address).toOption

def change (scripts : List Bytes) (current : BlocklistIndex J) :
    BlocklistCall J → BlocklistIndex J × BlocklistReply
  | .add entries =>
    let (current, outcome) := (entries.zip scripts).foldl addEntry (current, ⟨0, 0⟩)
    (current, .added outcome)
  | .remove _ =>
    let (current, count) := scripts.foldl removeEntry (current, 0)
    (current, .removed count)

/-- What a call writes: all of its addresses are checked first, then the file is read
under the lock. -/
def plan (disk : BlocklistDisk J) (call : BlocklistCall J) :
    Except BlocklistError (BlocklistFile J × BlocklistIndex J × BlocklistReply) := do
  let scripts ← validateAll env call.addresses
  ensure (env.lock = true) (.io .lock)
  let file ← readBlocklist env disk
  let (current, reply) := call.change scripts (indexEntries env file.entries)
  .ok ({ file with entries := env.values (current.entries.map (·.2)) }, current, reply)

/-- `AddressBlocklist::add` and `AddressBlocklist::remove` -/
def run (book : AddressBlocklist J) (call : BlocklistCall J) :
    Except BlocklistError BlocklistReply × AddressBlocklist J :=
  match call.plan env book.disk with
  | .error e => (.error e, book)
  | .ok (file, current, reply) =>
    if env.written then (.ok reply, ⟨current, .file file⟩) else (.error (.io .write), book)

end BlocklistCall

/-! ## Checked addresses -/

variable {env} {index : BlocklistIndex J} {script : Bytes} {entries : List (BlocklistEntry J)}
  {acc : BlocklistIndex J × AddOutcome} {call : BlocklistCall J} {before : BlocklistFile J}
  {entry : BlocklistEntry J} {disk : BlocklistDisk J}

theorem rejection_eq_none {address} :
    rejection env address = none ↔ ∃ script, env.parseCheckedAddress address = .ok script := by
  unfold rejection
  split <;> simp_all

theorem validateAll_ok {addresses scripts} (h : validateAll env addresses = .ok scripts) :
    List.Forall₂ (fun address script => env.parseCheckedAddress address = .ok script) addresses
      scripts := by
  simp only [validateAll] at h
  split at h
  · rename_i hnone
    rw [filterMap_eq_nil_iff] at hnone
    cases h
    induction addresses with
    | nil => exact .nil
    | cons address rest ih =>
      obtain ⟨script, hscript⟩ := rejection_eq_none.mp (hnone address mem_cons_self)
      rw [filterMap_cons_some (b := script) (by rw [hscript]; rfl)]
      exact .cons hscript (ih fun a ha => hnone a (mem_cons_of_mem _ ha))
  · cases h

theorem validateAll_error {addresses}
    (h : ∃ a ∈ addresses, ∀ script, env.parseCheckedAddress a ≠ .ok script) :
    validateAll env addresses =
      .error (.invalidAddresses (addresses.filterMap (rejection env))) := by
  obtain ⟨a, ha, hbad⟩ := h
  rw [validateAll, if_neg]
  intro hnil
  obtain ⟨script, hscript⟩ := rejection_eq_none.mp (filterMap_eq_nil_iff.mp hnil a ha)
  exact hbad script hscript

/-! ## What the index holds -/

/-- An index holds entries under their own scripts. -/
def Indexed (env : BlocklistEnv J) (index : BlocklistIndex J) : Prop :=
  ∀ script entry, index.lookup script = some entry →
    env.parseCheckedAddress entry.address = .ok script

theorem Indexed.insert {index script entry} (h : Indexed env index)
    (hentry : env.parseCheckedAddress entry.address = .ok script) :
    Indexed env (index.insert script entry) :=
  forall_lookup_insert hentry h

theorem Indexed.erase (h : Indexed env index) (script : Bytes) :
    Indexed env (index.erase script) :=
  fun script' entry hlookup => h script' entry (lookup_of_lookup_erase hlookup)

theorem lookup_indexEntry_ne (h : env.parseCheckedAddress entry.address ≠ .ok script) :
    (indexEntry env index entry).lookup script = index.lookup script := by
  unfold indexEntry
  split
  · rename_i script' hparse
    refine lookup_insert_ne fun heq => h ?_
    rw [hparse, heq]
  · rfl

theorem lookup_indexEntry_self (h : env.parseCheckedAddress entry.address = .ok script) :
    (indexEntry env index entry).lookup script = some entry := by
  simp [indexEntry, h]

theorem mem_of_lookup_indexEntries (h : (indexEntries env entries).lookup script = some entry) :
    entry ∈ entries ∧ env.parseCheckedAddress entry.address = .ok script := by
  induction entries using List.reverseRecOn with
  | nil => simp [indexEntries] at h
  | append_singleton entries last ih =>
    rw [indexEntries, foldl_append, foldl_cons, foldl_nil] at h
    by_cases hlast : env.parseCheckedAddress last.address = .ok script
    · rw [lookup_indexEntry_self hlast, Option.some.injEq] at h
      exact h ▸ ⟨by simp, hlast⟩
    · rw [lookup_indexEntry_ne hlast] at h
      obtain ⟨hmem, hparse⟩ := ih h
      exact ⟨mem_append_left _ hmem, hparse⟩

theorem exists_lookup_indexEntries (hmem : entry ∈ entries)
    (hparse : env.parseCheckedAddress entry.address = .ok script) :
    ∃ found, (indexEntries env entries).lookup script = some found := by
  induction entries using List.reverseRecOn with
  | nil => cases hmem
  | append_singleton entries last ih =>
    rw [indexEntries, foldl_append, foldl_cons, foldl_nil]
    by_cases hlast : env.parseCheckedAddress last.address = .ok script
    · exact ⟨last, lookup_indexEntry_self hlast⟩
    · rw [lookup_indexEntry_ne hlast]
      rcases mem_append.mp hmem with hmem | hmem
      · exact ih hmem
      · rw [mem_singleton.mp hmem] at hparse
        exact absurd hparse hlast

theorem indexed_indexEntries (entries : List (BlocklistEntry J)) :
    Indexed env (indexEntries env entries) :=
  fun _ _ h => (mem_of_lookup_indexEntries h).2

/-! ## What a change does to the index -/

theorem lookup_addEntry_ne {entry} (h : script ≠ entry.2) :
    (addEntry acc entry).1.lookup script = acc.1.lookup script := by
  unfold addEntry
  split
  · rw [lookup_insert_ne h, lookup_erase_ne h]
  · rw [lookup_insert_ne h]

theorem Indexed.addEntry {entry} (h : Indexed env acc.1)
    (hentry : env.parseCheckedAddress entry.1.address = .ok entry.2) :
    Indexed env (addEntry acc entry).1 := by
  unfold OpenSwap.addEntry
  split
  · exact (h.erase _).insert hentry
  · exact h.insert hentry

theorem lookup_foldl_addEntry {entries : List (BlocklistEntry J × Bytes)}
    (h : ∀ e ∈ entries, script ≠ e.2) :
    (entries.foldl addEntry acc).1.lookup script = acc.1.lookup script := by
  induction entries generalizing acc with
  | nil => rfl
  | cons e rest ih =>
    rw [foldl_cons, ih fun e' he' => h e' (mem_cons_of_mem _ he'),
      lookup_addEntry_ne (h e mem_cons_self)]

theorem Indexed.foldl_addEntry {entries : List (BlocklistEntry J × Bytes)} (h : Indexed env acc.1)
    (hentries : ∀ e ∈ entries, env.parseCheckedAddress e.1.address = .ok e.2) :
    Indexed env (entries.foldl OpenSwap.addEntry acc).1 := by
  induction entries generalizing acc with
  | nil => exact h
  | cons e rest ih =>
    exact ih (h.addEntry (hentries e mem_cons_self)) fun e' he' =>
      hentries e' (mem_cons_of_mem _ he')

theorem foldl_removeEntry (scripts : List Bytes) (acc : BlocklistIndex J × Nat) :
    (scripts.foldl removeEntry acc).1 = scripts.foldl (fun m script => m.erase script) acc.1 := by
  induction scripts generalizing acc with
  | nil => rfl
  | cons script rest ih => exact ih _

namespace BlocklistCall

variable {current : BlocklistIndex J}

theorem lookup_change {scripts : List Bytes} (h : script ∉ scripts) :
    (call.change scripts current).1.lookup script = current.lookup script := by
  cases call with
  | add entries =>
    refine lookup_foldl_addEntry fun e he heq => h ?_
    rw [heq]
    exact (of_mem_zip he).2
  | remove addresses =>
    show (scripts.foldl removeEntry (current, 0)).1.lookup script = _
    rw [foldl_removeEntry, lookup_foldl_erase_of_notMem h]

theorem indexed_change {scripts : List Bytes} (h : Indexed env current)
    (hscripts : List.Forall₂ (fun address script => env.parseCheckedAddress address = .ok script)
      call.addresses scripts) :
    Indexed env (call.change scripts current).1 := by
  cases call with
  | add entries =>
    have hstart : Indexed env ((current, ⟨0, 0⟩) : BlocklistIndex J × AddOutcome).1 := h
    refine hstart.foldl_addEntry fun e he => ?_
    exact forall₂_zip (forall₂_map_left_iff.mp hscripts) he
  | remove addresses =>
    intro script entry hlookup
    have hfold : (scripts.foldl removeEntry (current, 0)).1.lookup script = some entry := hlookup
    rw [foldl_removeEntry] at hfold
    exact h script entry (lookup_of_lookup_foldl_erase hfold)

end BlocklistCall

/-! ## What a change does to the file -/

/-- The entry is not one a call with these scripts names. -/
def Unnamed (env : BlocklistEnv J) (scripts : List Bytes) (entry : BlocklistEntry J) : Prop :=
  ∀ script ∈ scripts, env.parseCheckedAddress entry.address ≠ .ok script

def BlocklistDisk.content : BlocklistDisk J → Option (BlocklistFile J)
  | .absent => some .default
  | .malformed => none
  | .file content => some content

/-- From one content of the path to the next only entries with the scripts changed: every
other entry is still there, none came in, and the rest of the file is as it was. -/
structure OnlyNamedChanged (env : BlocklistEnv J) (scripts : List Bytes)
    (before after : BlocklistFile J) : Prop where
  kept : ∀ entry ∈ before.entries, Unnamed env scripts entry → entry ∈ after.entries
  introduced : ∀ entry ∈ after.entries, Unnamed env scripts entry → entry ∈ before.entries
  requires : after.requires = before.requires
  extra : after.extra = before.extra

/-- Every entry has a script on the network at hand, and entries a call does not name
have different ones. -/
def AllIndexed (env : BlocklistEnv J) (scripts : List Bytes) (entries : List (BlocklistEntry J)) :
    Prop :=
  (∀ entry ∈ entries, ∃ script, env.parseCheckedAddress entry.address = .ok script) ∧
    ∀ entry ∈ entries, ∀ entry' ∈ entries, Unnamed env scripts entry →
      env.parseCheckedAddress entry.address = env.parseCheckedAddress entry'.address →
      entry = entry'

theorem mem_values :
    entry ∈ env.values (index.entries.map (·.2)) ↔ ∃ script, index.lookup script = some entry := by
  rw [(env.values_perm _).mem_iff, mem_map]
  constructor
  · rintro ⟨⟨script, entry⟩, hmem, rfl⟩
    exact ⟨script, lookup_eq_some.mpr hmem⟩
  · rintro ⟨script, hlookup⟩
    exact ⟨⟨script, entry⟩, lookup_eq_some.mp hlookup, rfl⟩

theorem OnlyNamedChanged.of_allIndexed {scripts}
    (hscripts : List.Forall₂ (fun address script => env.parseCheckedAddress address = .ok script)
      call.addresses scripts) (hall : AllIndexed env scripts before.entries) :
    OnlyNamedChanged env scripts before { before with
      entries := env.values
        ((call.change scripts (indexEntries env before.entries)).1.entries.map (·.2)) } where
  kept entry hmem hunnamed := by
    obtain ⟨script, hparse⟩ := hall.1 entry hmem
    obtain ⟨found, hfound⟩ := exists_lookup_indexEntries hmem hparse
    obtain ⟨hfoundMem, hfoundParse⟩ := mem_of_lookup_indexEntries hfound
    have heq : entry = found :=
      hall.2 entry hmem found hfoundMem hunnamed (hparse.trans hfoundParse.symm)
    refine mem_values.mpr ⟨script, ?_⟩
    rw [BlocklistCall.lookup_change fun h => hunnamed script h hparse, hfound, heq]
  introduced entry hmem hunnamed := by
    obtain ⟨script, hlookup⟩ := mem_values.mp hmem
    have hparse := BlocklistCall.indexed_change (indexed_indexEntries _) hscripts _ _ hlookup
    rw [BlocklistCall.lookup_change fun h => hunnamed script h hparse] at hlookup
    exact (mem_of_lookup_indexEntries hlookup).1
  requires := rfl
  extra := rfl

theorem allIndexed_of_kept {scripts}
    (hscripts : List.Forall₂ (fun address script => env.parseCheckedAddress address = .ok script)
      call.addresses scripts)
    (hkept : ∀ entry ∈ entries, Unnamed env scripts entry → entry ∈ env.values
      ((call.change scripts (indexEntries env entries)).1.entries.map (·.2))) :
    AllIndexed env scripts entries := by
  have hindexed := BlocklistCall.indexed_change (indexed_indexEntries entries) hscripts
  constructor
  · intro entry hmem
    by_contra hbad
    obtain ⟨script, hlookup⟩ := mem_values.mp
      (hkept entry hmem fun script _ hparse => hbad ⟨script, hparse⟩)
    exact hbad ⟨script, hindexed _ _ hlookup⟩
  · intro entry hmem entry' hmem' hunnamed heq
    have hunnamed' : Unnamed env scripts entry' := fun script h hparse =>
      hunnamed script h (heq.trans hparse)
    obtain ⟨script, hlookup⟩ := mem_values.mp (hkept entry hmem hunnamed)
    obtain ⟨script', hlookup'⟩ := mem_values.mp (hkept entry' hmem' hunnamed')
    -- both are in the index, under one script
    have hscript : script = script' := by
      have h := (hindexed _ _ hlookup).symm.trans (heq.trans (hindexed _ _ hlookup'))
      injection h
    rw [hscript, hlookup'] at hlookup
    exact (Option.some.inj hlookup).symm

/-! ## The frame of a call -/

/-- The call gets to rewrite the file, which has this content. -/
structure Rewrites (env : BlocklistEnv J) (call : BlocklistCall J) (disk : BlocklistDisk J)
    (before : BlocklistFile J) : Prop where
  valid : ∀ address ∈ call.addresses, ∃ script, env.parseCheckedAddress address = .ok script
  lock : env.lock
  read : readBlocklist env disk = .ok before
  written : env.written

theorem readBlocklist_ok {file} (h : readBlocklist env disk = .ok file) :
    disk.content = some file := by
  cases disk with
  | absent =>
    cases h
    rfl
  | malformed => cases h
  | file content =>
    simp only [readBlocklist, bind_ok_iff] at h
    obtain ⟨-, -, h⟩ := h
    cases h
    rfl

/-- Nothing outside the named scripts changed on disk. -/
def OthersKept (env : BlocklistEnv J) (call : BlocklistCall J) (disk disk' : BlocklistDisk J) :
    Prop :=
  disk' = disk ∨ ∃ before after, disk.content = some before ∧ disk' = .file after ∧
    OnlyNamedChanged env (call.scripts env) before after

theorem BlocklistCall.validateAll_of_rewrites (h : Rewrites env call disk before) :
    validateAll env call.addresses = .ok (call.scripts env) := by
  rw [validateAll, if_pos]
  · rfl
  · exact filterMap_eq_nil_iff.mpr fun a ha => rejection_eq_none.mpr (h.valid a ha)

theorem BlocklistCall.disk_of_rewrites {book} (h : Rewrites env call book.disk before) :
    (call.run env book).2.disk = .file { before with
      entries := env.values
        ((call.change (call.scripts env) (indexEntries env before.entries)).1.entries.map
          (·.2)) } := by
  have hplan : call.plan env book.disk = .ok ({ before with
      entries := env.values
        ((call.change (call.scripts env) (indexEntries env before.entries)).1.entries.map
          (·.2)) },
      call.change (call.scripts env) (indexEntries env before.entries)) := by
    simp only [BlocklistCall.plan, bind_ok_iff, ensure_eq_ok]
    exact ⟨_, validateAll_of_rewrites h, (), h.lock, before, h.read, rfl⟩
  simp only [BlocklistCall.run, hplan, if_pos h.written]

theorem BlocklistCall.disk_cases (call : BlocklistCall J) (book : AddressBlocklist J) :
    (call.run env book).2 = book ∨ ∃ before, Rewrites env call book.disk before := by
  unfold BlocklistCall.run
  split
  · exact .inl rfl
  · rename_i hplan
    split
    · rename_i hwritten
      simp only [BlocklistCall.plan, bind_ok_iff, ensure_eq_ok] at hplan
      obtain ⟨scripts, hscripts, -, hlock, before, hread, -⟩ := hplan
      refine .inr ⟨before, fun address ha => ?_, hlock, hread, hwritten⟩
      by_contra hbad
      rw [validateAll_error ⟨address, ha, fun script h => hbad ⟨script, h⟩⟩] at hscripts
      cases hscripts
    · exact .inl rfl

/-- **What a change of the list leaves in the file**: every entry it does not name, and nothing
else changed, exactly if the file it rewrites has only entries with a script on this network, no
two of them with one script. -/
theorem others_kept_iff (env : BlocklistEnv J) (call : BlocklistCall J)
    (book : AddressBlocklist J) :
    ((∃ address ∈ call.addresses, ∀ script, env.parseCheckedAddress address ≠ .ok script) →
      call.run env book =
        (.error (.invalidAddresses (call.addresses.filterMap (rejection env))), book)) ∧
    (OthersKept env call book.disk (call.run env book).2.disk ↔
      ∀ before, Rewrites env call book.disk before →
        AllIndexed env (call.scripts env) before.entries) := by
  constructor
  · intro hbad
    simp only [BlocklistCall.run, BlocklistCall.plan, validateAll_error hbad]
    rfl
  constructor
  · intro hothers before hrewrites
    have hforall := validateAll_ok (BlocklistCall.validateAll_of_rewrites hrewrites)
    have hdisk := BlocklistCall.disk_of_rewrites hrewrites
    refine allIndexed_of_kept hforall fun entry hmem hunnamed => ?_
    have hcontent := readBlocklist_ok hrewrites.read
    rcases hothers with hsame | ⟨before', after, hbefore', hafter, hchanged⟩
    · -- the file is the same as before, so its entries are those of the index
      rw [← hsame, hdisk] at hcontent
      injection hcontent with hcontent
      rw [← hcontent] at hmem
      exact hmem
    · rw [hcontent] at hbefore'
      cases hbefore'
      rw [hdisk] at hafter
      injection hafter with hafter
      have := hchanged.kept entry hmem hunnamed
      rwa [← hafter] at this
  · intro hall
    have hcases : (call.run env book).2 = book ∨ ∃ before, Rewrites env call book.disk before :=
      call.disk_cases book
    rcases hcases with hsame | ⟨before, hrewrites⟩
    · exact .inl (by rw [hsame])
    · refine .inr ⟨before, _, readBlocklist_ok hrewrites.read,
        BlocklistCall.disk_of_rewrites hrewrites, ?_⟩
      exact .of_allIndexed (validateAll_ok (BlocklistCall.validateAll_of_rewrites hrewrites))
        (hall before hrewrites)

/-! ## A shared file -/

namespace SampleBlocklist

def mainAddress : String := "bc1qw508d6qejxtdg4y5r3zarvary0c5xw7kv8f3t4"
def testAddress : String := "bcrt1qw508d6qejxtdg4y5r3zarvary0c5xw7kygt080"
def otherAddress : String := "bcrt1qyg3zyg3zyg3zyg3zyg3zyg3zyg3zyg3zs4w3j0"

def testnet : BlocklistEnv Unit where
  parseCheckedAddress address :=
    if address = testAddress then
      .ok (0 :: 20 :: natBe 20 0x751e76e8199196d454941c45d1b3a323f1433bd6)
    else if address = otherAddress then .ok (0 :: 20 :: List.replicate 20 0x22)
    else .error "Address Network Mismatch"
  checkRequires required := if required = [] then .ok () else .error required
  lock := true
  written := true
  values := id
  values_perm _ := .refl _

def book : AddressBlocklist Unit :=
  ⟨∅, .file ⟨[], [⟨mainAddress, some "main", ∅⟩, ⟨otherAddress, none, ∅⟩], ∅⟩⟩

end SampleBlocklist

open SampleBlocklist in
/-- Adding an address of the test network takes the entry of the main network out of the
shared file. -/
theorem other_network_entry_dropped :
    let call := BlocklistCall.add [⟨testAddress, none, (∅ : AList fun _ => Unit)⟩]
    let after := call.run testnet book
    after.1 = .ok (.added ⟨1, 0⟩) ∧ after.2.disk = .file ⟨[], [⟨testAddress, none, ∅⟩,
        ⟨otherAddress, none, ∅⟩], ∅⟩ ∧
      ¬ OthersKept testnet call book.disk after.2.disk := by
  intro call after
  have hdisk : after.2.disk = .file ⟨[], [⟨testAddress, none, ∅⟩,
      ⟨otherAddress, none, ∅⟩], ∅⟩ := by rfl
  refine ⟨by rfl, hdisk, ?_⟩
  rw [hdisk]
  rintro (hsame | ⟨before, file, hbefore, hfile, hchanged⟩)
  · simp [book, testAddress, mainAddress] at hsame
  · cases hbefore
    cases hfile
    -- the entry of the main network has no script here, so the call does not name it
    have hunnamed : Unnamed testnet (call.scripts testnet) ⟨mainAddress, some "main", ∅⟩ := by
      intro script _ hparse
      cases (show Except.error "Address Network Mismatch" = Except.ok script from hparse)
    have hmem := hchanged.kept _ (.head _) hunnamed
    simp [mainAddress, testAddress, otherAddress] at hmem

end OpenSwap
