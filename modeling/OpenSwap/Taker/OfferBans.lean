import OpenSwap.Taker.OfferBook

/-!
# Bans in the taker's offer book

* `marks` are what the bans of a book depend on;
* `Rearranges` is what discovery and the start of a poll can do to the bans of a book,
  `Carries` what every operation but a removal can;
* `bans_kept`: addresses stay distinct and a banned address is out of every selection in
  all runs, and a ban lasts until a removal in the runs whose writes succeed;
* `ban_lost_after_failed_write`: a restart forgets a ban whose write failed.
-/

namespace OpenSwap

open Btc List AList

variable {O : Type}

/-! ## What a book says about an address -/

namespace OfferBook

def HoldsBan (book : OfferBook O) (address : MakerAddress) : Prop :=
  (∃ maker ∈ book.makers, maker.address = address ∧
    (maker.state.isBanned || maker.legacyProvenViolation) = true) ∨
  ∃ suppressed, book.suppressedMakers.lookup address = some suppressed ∧
    (suppressed.isBanned || suppressed.legacyProvenViolation) = true

/-- No address has two visible records, or a visible and a suppressed one. -/
structure Distinct (book : OfferBook O) : Prop where
  visible : (book.makers.map (·.address)).Nodup
  suppressed : ∀ maker ∈ book.makers, book.suppressedMakers.lookup maker.address = none

structure Sound (book : OfferBook O) : Prop extends Distinct book where
  makers : ∀ maker ∈ book.makers, maker.legacyProvenViolation = false
  suppressions : ∀ address suppressed, book.suppressedMakers.lookup address = some suppressed →
    suppressed.legacyProvenViolation = false

structure Rearranges (book book' : OfferBook O) : Prop where
  sound : book'.Sound
  same : ∀ address, book'.HoldsBan address ↔ book.HoldsBan address

variable {address x : MakerAddress} {p : MakerOfferCandidate O → Bool} {expiryHeight : Option Nat}
  {firstSeen : Nat} {restored : Option MakerState} {book book' : OfferBook O} {β : Type}
  {q : MakerAddress → SuppressedMaker → Bool} {outpoint : Option OutPoint}

theorem Rearranges.trans {a b c : OfferBook O} (h : Rearranges a b) (h' : Rearranges b c) :
    Rearranges a c :=
  ⟨h'.sound, fun address => (h'.same address).trans (h.same address)⟩

theorem Sound.rearranges (h : book.Sound) : Rearranges book book := ⟨h, fun _ => .rfl⟩

theorem Rearranges.foldl {f : OfferBook O → β → OfferBook O}
    (hf : ∀ book x, book.Sound → Rearranges book (f book x)) (xs : List β) (h : book.Sound) :
    Rearranges book (xs.foldl f book) := by
  induction xs generalizing book with
  | nil => exact h.rearranges
  | cons x rest ih => exact (hf book x h).trans (ih (hf book x h).sound)

/-! ### Marks -/

def profile (maker : MakerOfferCandidate O) : MakerAddress × Bool × Bool :=
  (maker.address, maker.state.isBanned, maker.legacyProvenViolation)

def marks (book : OfferBook O) : List (MakerAddress × Bool × Bool) :=
  book.makers.map profile ++ book.suppressedMakers.entries.map fun entry =>
    (entry.1, entry.2.isBanned, entry.2.legacyProvenViolation)

theorem map_fst_marks : book.marks.map Prod.fst =
    book.makers.map (·.address) ++ book.suppressedMakers.keys := by
  simp [marks, profile, AList.keys, List.keys, Function.comp_def]

theorem holdsBan_iff :
    book.HoldsBan address ↔ ∃ m ∈ book.marks, m.1 = address ∧ (m.2.1 || m.2.2) = true := by
  simp only [HoldsBan, marks, profile, mem_append, mem_map, lookup_eq_some]
  constructor
  · rintro (⟨maker, hmem, h⟩ | ⟨suppressed, hmem, h⟩)
    · exact ⟨_, .inl ⟨maker, hmem, rfl⟩, h⟩
    · exact ⟨_, .inr ⟨_, hmem, rfl⟩, rfl, h⟩
  · rintro ⟨_, ⟨maker, hmem, rfl⟩ | ⟨⟨_, suppressed⟩, hmem, rfl⟩, rfl, h⟩
    · exact .inl ⟨maker, hmem, rfl, h⟩
    · exact .inr ⟨suppressed, hmem, h⟩

theorem fresh_iff : address ∉ book.marks.map Prod.fst ↔
    (∀ maker ∈ book.makers, maker.address ≠ address) ∧
      book.suppressedMakers.lookup address = none := by
  simp [map_fst_marks, AList.lookup_eq_none, AList.mem_keys]

theorem distinct_iff : book.Distinct ↔ (book.marks.map Prod.fst).Nodup := by
  rw [map_fst_marks, nodup_append']
  constructor
  · intro h
    refine ⟨h.visible, book.suppressedMakers.keys_nodup, fun address hmem hkey => ?_⟩
    obtain ⟨maker, hmaker, rfl⟩ := mem_map.mp hmem
    exact lookup_eq_none.mp (h.suppressed maker hmaker) (mem_keys.mpr hkey)
  · rintro ⟨hvisible, -, hdisjoint⟩
    exact ⟨hvisible, fun maker hmem => lookup_eq_none.mpr fun hkey =>
      hdisjoint (mem_map_of_mem hmem) (mem_keys.mp hkey)⟩

theorem sound_iff : book.Sound ↔
    (book.marks.map Prod.fst).Nodup ∧ ∀ m ∈ book.marks, m.2.2 = false := by
  rw [← distinct_iff]
  constructor
  · refine fun h => ⟨h.toDistinct, fun m hm => ?_⟩
    rcases mem_append.mp hm with hm | hm <;> obtain ⟨_, hmem, rfl⟩ := mem_map.mp hm
    · exact h.makers _ hmem
    · exact h.suppressions _ _ (lookup_eq_some.mpr hmem)
  · rintro ⟨h, hflags⟩
    exact ⟨h, fun maker hmem => hflags _ (mem_append_left _ (mem_map_of_mem hmem)),
      fun _ _ hlookup => hflags _ (mem_append_right _
        (mem_map_of_mem (lookup_eq_some.mp hlookup)))⟩

theorem HoldsBan.of_subset (h : book'.HoldsBan address) (hsub : book'.marks ⊆ book.marks) :
    book.HoldsBan address := by
  obtain ⟨m, hm, hban⟩ := holdsBan_iff.mp h
  exact holdsBan_iff.mpr ⟨m, hsub hm, hban⟩

theorem Distinct.of_subperm (h : book.Distinct)
    (hsub : (book'.marks.map Prod.fst).Subperm (book.marks.map Prod.fst)) : book'.Distinct := by
  rw [distinct_iff] at h ⊢
  obtain ⟨l, hperm, hsub⟩ := hsub
  exact hperm.nodup_iff.mp (h.sublist hsub)

theorem Sound.of_subperm (h : book.Sound)
    (hsub : (book'.marks.map fun m => (m.1, m.2.2)).Subperm
      (book.marks.map fun m => (m.1, m.2.2))) : book'.Sound := by
  refine sound_iff.mpr ⟨distinct_iff.mp (h.toDistinct.of_subperm ?_), fun m hm => ?_⟩
  · obtain ⟨l, hperm, hsub⟩ := hsub
    exact ⟨l.map Prod.fst, by simpa [Function.comp_def] using hperm.map Prod.fst,
      by simpa [Function.comp_def] using hsub.map Prod.fst⟩
  · obtain ⟨m', hm', heq⟩ := mem_map.mp (hsub.subset (mem_map_of_mem hm))
    rw [← (Prod.mk.inj heq).2]
    exact (sound_iff.mp h).2 m' hm'

theorem Sound.of_perm (h : book.Sound) (hperm : book'.marks.Perm book.marks) :
    Rearranges book book' :=
  ⟨h.of_subperm (hperm.map _).subperm, fun _ => by simp only [holdsBan_iff, hperm.mem_iff]⟩

theorem Sound.of_cons (h : book.Sound) {ban}
    (hmarks : book'.marks.Perm ((address, ban, false) :: book.marks))
    (hvisible : ∀ maker ∈ book.makers, maker.address ≠ address)
    (hsuppressed : book.suppressedMakers.lookup address = none) :
    book'.Sound ∧ ∀ x, book'.HoldsBan x ↔ book.HoldsBan x ∨ (x = address ∧ ban) := by
  obtain ⟨hnodup, hflags⟩ := sound_iff.mp h
  refine ⟨sound_iff.mpr ⟨(hmarks.map _).nodup_iff.mpr ?_, fun m hm => ?_⟩, fun x => ?_⟩
  · exact nodup_cons.mpr ⟨fresh_iff.mpr ⟨hvisible, hsuppressed⟩, hnodup⟩
  · rcases mem_cons.mp (hmarks.mem_iff.mp hm) with rfl | hm
    · rfl
    · exact hflags m hm
  · simp only [holdsBan_iff, hmarks.mem_iff, mem_cons, or_and_right, exists_or,
      exists_eq_left, Bool.or_false]
    rw [or_comm, @eq_comm _ address]

/-! ### Selections -/

theorem Distinct.eq_of_address (h : book.Distinct) {maker maker'} (hm : maker ∈ book.makers)
    (hm' : maker' ∈ book.makers) (heq : maker.address = maker'.address) : maker = maker' :=
  inj_on_of_nodup_map h.visible hm hm' heq

theorem Sound.holdsBan_iff_isBanned (h : book.Sound) :
    book.HoldsBan address ↔ book.isBanned address = true := by
  simp only [HoldsBan, isBanned, Bool.or_eq_true, any_eq_true, Bool.and_eq_true, beq_iff_eq,
    Option.any_eq_true]
  refine or_congr (exists_congr fun maker => ?_) (exists_congr fun suppressed => ?_)
  · exact and_congr_right fun hmem => by simp [h.makers maker hmem]
  · exact and_congr_right fun hlookup => by simp [h.suppressions _ _ hlookup]

theorem Distinct.banned_of_isBanned (h : book.Distinct) {address}
    (hbanned : book.isBanned address) {maker} (hmem : maker ∈ book.makers)
    (haddress : maker.address = address) : maker.state.isBanned = true := by
  simp only [isBanned, Bool.or_eq_true, any_eq_true, Bool.and_eq_true, beq_iff_eq,
    Option.any_eq_true] at hbanned
  rcases hbanned with ⟨maker', hmem', haddress', hban⟩ | ⟨suppressed, hlookup, -⟩
  · rwa [h.eq_of_address hmem hmem' (haddress.trans haddress'.symm)]
  · have := h.suppressed maker hmem
    rw [haddress, hlookup] at this
    cases this

theorem address_of_asOfferAndAddress {maker : MakerOfferCandidate O} {offer : OfferAndAddress O}
    (h : maker.asOfferAndAddress = some offer) : maker.address = offer.address := by
  unfold MakerOfferCandidate.asOfferAndAddress at h
  split at h
  · cases h
    rfl
  · cases h

/-- **A banned address is in no selection.** -/
theorem Distinct.notMem_selections (h : book.Distinct)
    (hbanned : book.isBanned address) (now : Nat) (live : LiveCandidates)
    (protocol : MakerProtocol) :
    address ∉ book.makersToPoll now live ∧
      (∀ offer ∈ book.activeMakers protocol, offer.address ≠ address) ∧
      (∀ offer ∈ book.goodMakers, offer.address ≠ address) := by
  have hban := @Distinct.banned_of_isBanned O book h address hbanned
  refine ⟨fun hpoll => ?_, fun offer hoffer haddress => ?_, fun offer hoffer haddress => ?_⟩
  · obtain ⟨maker, hmem, haddress⟩ := mem_map.mp hpoll
    obtain ⟨hmem, hfilter⟩ := mem_filter.mp hmem
    rw [hban hmem haddress] at hfilter
    cases hfilter
  · rw [activeMakers, mem_mergeSort, mem_filterMap] at hoffer
    obtain ⟨maker, hmem, hmaker⟩ := hoffer
    obtain ⟨hmem, hfilter⟩ := mem_filter.mp hmem
    have := hban hmem ((address_of_asOfferAndAddress hmaker).trans haddress)
    rw [Bool.and_eq_true, beq_iff_eq] at hfilter
    rw [hfilter.1] at this
    cases this
  · rw [goodMakers, mem_filterMap] at hoffer
    obtain ⟨maker, hmem, hmaker⟩ := hoffer
    obtain ⟨hmem, hfilter⟩ := mem_filter.mp hmem
    rw [hban hmem ((address_of_asOfferAndAddress hmaker).trans haddress)] at hfilter
    cases hfilter

/-! ### Primitive changes -/

theorem marks_retain (book : OfferBook O) (p : MakerOfferCandidate O → Bool)
    (q : MakerAddress → SuppressedMaker → Bool) :
    ((book.retainMakers p).retainSuppressed q).marks.Sublist book.marks :=
  (filter_sublist.map _).append (filter_sublist.map _)

theorem Sound.retain (h : book.Sound) (hp : ∀ maker, maker.state.isBanned → p maker)
    (hq : ∀ address suppressed, suppressed.isBanned → q address suppressed) :
    Rearranges book ((book.retainMakers p).retainSuppressed q) := by
  have hsub := marks_retain book p q
  refine ⟨h.of_subperm (hsub.map _).subperm, fun address => ⟨(·.of_subset hsub.subset), ?_⟩⟩
  rintro (⟨maker, hmem, haddress, hban⟩ | ⟨suppressed, hlookup, hban⟩)
  · refine .inl ⟨maker, mem_filter.mpr ⟨hmem, hp maker ?_⟩, haddress, hban⟩
    rwa [h.makers maker hmem, Bool.or_false] at hban
  · refine .inr ⟨suppressed, lookup_filterEntries_eq_some.mpr ⟨hlookup, hq _ _ ?_⟩, hban⟩
    rwa [h.suppressions _ _ hlookup, Bool.or_false] at hban

theorem retainSuppressed_true (book : OfferBook O) :
    book.retainSuppressed (fun _ _ => true) = book := by
  simp [retainSuppressed, AList.filterEntries]

theorem retainMakers_true (book : OfferBook O) : book.retainMakers (fun _ => true) = book := by
  simp [retainMakers]

theorem Sound.retainMakers (h : book.Sound) (hp : ∀ maker, maker.state.isBanned → p maker) :
    Rearranges book (book.retainMakers p) := by
  have := h.retain (q := fun _ _ => true) hp fun _ _ _ => rfl
  rwa [retainSuppressed_true] at this

theorem Sound.retainSuppressed (h : book.Sound)
    (hq : ∀ address suppressed, suppressed.isBanned → q address suppressed) :
    Rearranges book (book.retainSuppressed q) := by
  have := h.retain (p := fun _ => true) (fun _ _ => rfl) hq
  rwa [retainMakers_true] at this

theorem map_updateFirst {α : Type} {p : α → Bool} {f : α → α} {g : α → β} (h : ∀ x, g (f x) = g x)
    (l : List α) : (updateFirst p f l).map g = l.map g := by
  induction l with
  | nil => rfl
  | cons x rest ih =>
    unfold updateFirst
    split
    · rw [map_cons, map_cons, h]
    · rw [map_cons, map_cons, ih]

theorem Sound.updateIf (h : book.Sound) {f : MakerOfferCandidate O → MakerOfferCandidate O}
    (hf : ∀ maker, profile (f maker) = profile maker) :
    Rearranges book (book.updateIf address p f) :=
  h.of_perm (.of_eq (congrArg (· ++ _) (map_updateFirst hf _)))

theorem marks_insertCandidate :
    (book.insertCandidate address outpoint expiryHeight firstSeen restored).marks.Perm
      ((address, restored.any (·.isBanned), false) :: book.marks) := by
  have hstate : (restoredState firstSeen restored).isBanned = restored.any (·.isBanned) := by
    rcases restored with - | - | - | - <;> rfl
  simp only [marks, insertCandidate, map_append, map_singleton, profile, hstate,
    append_assoc, singleton_append]
  exact perm_middle

theorem marks_removeSuppressed : (book.removeSuppressed address).marks.Sublist book.marks :=
  .append (.refl _) ((kerase_sublist ..).map _)

theorem holdsBan_removeSuppressed (hx : x ≠ address) :
    (book.removeSuppressed address).HoldsBan x ↔ book.HoldsBan x := by
  simp [HoldsBan, removeSuppressed, lookup_erase_ne hx]

theorem Sound.removeSuppressed (h : book.Sound) (address : MakerAddress) :
    (book.removeSuppressed address).Sound :=
  h.of_subperm (marks_removeSuppressed.map _).subperm

/-- A suppressed maker that comes back brings its ban along. -/
theorem Sound.restore (h : book.Sound) (hvisible : ∀ maker ∈ book.makers, maker.address ≠ address)
    (heq : (book.suppressedMakers.lookup address).bind (·.state) = restored) :
    Rearranges book ((book.removeSuppressed address).insertCandidate address outpoint expiryHeight
      firstSeen restored) := by
  subst heq
  cases hlookup : book.suppressedMakers.lookup address with
  | none =>
    obtain ⟨hsound, hban⟩ := (h.removeSuppressed address).of_cons marks_insertCandidate hvisible
      (lookup_erase ..)
    refine ⟨hsound, fun x => (hban x).trans ?_⟩
    rw [OfferBook.removeSuppressed, erase_of_lookup_eq_none hlookup]
    simp
  | some suppressed =>
    refine h.of_perm (marks_insertCandidate.trans ?_)
    have hentries := entries_perm_cons_erase hlookup
    refine List.Perm.symm (((hentries.map _).append_left _).trans ?_)
    rw [map_cons, h.suppressions _ _ hlookup]
    exact perm_middle

/-! ### Operations that make no ban -/

theorem find_eq_none (h : book.find address = none) :
    ∀ maker ∈ book.makers, maker.address ≠ address := by
  simpa [OfferBook.find] using h

theorem profile_noteBond (outpoint : Option OutPoint) (expiryHeight : Option Nat)
    (maker : MakerOfferCandidate O) :
    profile (noteBond outpoint expiryHeight maker).1 = profile maker := by
  unfold noteBond
  split <;> rfl

theorem Sound.upsertDiscovered (h : book.Sound) (address : MakerAddress)
    (outpoint : Option OutPoint) (expiryHeight : Option Nat) (now : Nat) :
    Rearranges book (book.upsertDiscovered address outpoint expiryHeight now).1 := by
  unfold OfferBook.upsertDiscovered
  split
  · exact h.updateIf fun maker => profile_noteBond outpoint expiryHeight maker
  · rename_i hfind
    split
    · rename_i suppressed hlookup
      dsimp only
      split
      · exact h.rearranges
      · exact h.restore (find_eq_none hfind) (by rw [hlookup]; rfl)
    · rename_i hlookup
      obtain ⟨hsound, hban⟩ := h.of_cons marks_insertCandidate (find_eq_none hfind) hlookup
      exact ⟨hsound, fun x => (hban x).trans (by simp)⟩

theorem Sound.upsertForPoll (h : book.Sound) (address : MakerAddress)
    (now : Nat) : Rearranges book (book.upsertForPoll address now) := by
  unfold OfferBook.upsertForPoll
  split
  · -- a visible maker has no suppression record to lose
    rename_i hany
    obtain ⟨maker, hmem, haddress⟩ := any_eq_true.mp hany
    rw [OfferBook.removeSuppressed, ← beq_iff_eq.mp haddress,
      erase_of_lookup_eq_none (h.suppressed maker hmem)]
    exact h.rearranges
  · rename_i hany
    exact h.restore (by simpa using hany) rfl

theorem Sound.pruneStaleMakers (h : book.Sound) (now : Nat) :
    Rearranges book (book.pruneStaleMakers now) := by
  have hnodup : (((book.makers.filter (stale now)).map
      fun maker => (maker.address, suppression now maker)).map Prod.fst).Nodup := by
    rw [map_map]
    exact h.visible.sublist (filter_sublist.map _)
  have hentries := (entries_foldl_insert_perm hnodup (m := book.suppressedMakers)
    fun b hb => ?_).map fun e => (e.1, e.2.isBanned, e.2.legacyProvenViolation)
  · rw [map_append, map_map, map_map, map_congr_left (g := profile)] at hentries
    · refine h.of_perm ((hentries.append_left _).trans ?_)
      rw [← append_assoc, ← map_append]
      exact .append_right _ ((perm_append_comm.trans (filter_append_perm ..)).map _)
    · intro maker hmem
      rw [profile, h.makers maker (mem_of_mem_filter hmem)]
      rfl
  · obtain ⟨maker, hmem, rfl⟩ := mem_map.mp hb
    exact h.suppressed maker (mem_of_mem_filter hmem)

theorem Sound.pruneExpiredSuppressions (h : book.Sound) (height : Nat) :
    Rearranges book (book.pruneExpiredSuppressions height) := by
  unfold OfferBook.pruneExpiredSuppressions
  split
  · exact h.rearranges
  · exact h.retainSuppressed fun _ _ hban => by rw [hban]; rfl

theorem Sound.removeFidelityOutpoint (h : book.Sound) (outpoint : OutPoint) :
    Rearranges book (book.removeFidelityOutpoint outpoint) :=
  h.retain (fun _ hban => by rw [hban]; rfl) fun _ _ hban => by rw [hban]; rfl

end OfferBook

namespace Registry

variable (valid : MakerAddress → Bool) {book : OfferBook O}

theorem rearranges_admitCandidate (view : Registry) {acc : OfferBook O × Bool} (h : acc.1.Sound)
    (candidate : MakerAddress × Option OutPoint) :
    acc.1.Rearranges (view.admitCandidate valid acc candidate).1 := by
  unfold admitCandidate
  split
  · exact h.retainMakers fun _ hban => by rw [hban, Bool.or_true]
  · exact h.upsertDiscovered ..

theorem rearranges_foldl_admitCandidate (view : Registry)
    (candidates : List (MakerAddress × Option OutPoint)) (acc : OfferBook O × Bool)
    (h : acc.1.Sound) : acc.1.Rearranges (candidates.foldl (view.admitCandidate valid) acc).1 := by
  induction candidates generalizing acc with
  | nil => exact h.rearranges
  | cons candidate rest ih =>
    have hadmitted := rearranges_admitCandidate valid view h candidate
    exact hadmitted.trans (ih _ hadmitted.sound)

theorem rearranges_retainAnnounced (view : Registry) (h : book.Sound) :
    book.Rearranges (view.retainAnnounced valid book) := by
  unfold retainAnnounced
  split
  · exact h.retainMakers fun _ hban => by rw [hban, Bool.true_or]
  · exact h.rearranges

/-- **Discovery neither makes nor loses a ban.** -/
theorem rearranges_discover (hash : HashOrder) (view : Registry) (h : book.Sound) :
    book.Rearranges (view.discover valid hash book).1 := by
  have hpruned := h.pruneStaleMakers view.now
  have hcurrent := hpruned.trans (hpruned.sound.pruneExpiredSuppressions view.height)
  have hannounced := hcurrent.trans (rearranges_retainAnnounced valid view hcurrent.sound)
  have hunspent := hannounced.trans (.foldl (fun _ outpoint h => h.removeFidelityOutpoint outpoint)
    (view.spentOutpoints valid) hannounced.sound)
  exact hunspent.trans (rearranges_foldl_admitCandidate valid view _ (_, _) hunspent.sound)

end Registry

namespace OfferBook

/-! ### Operations that may ban -/

structure Carries (book book' : OfferBook O) : Prop where
  sound : book'.Sound
  kept : ∀ address, book.HoldsBan address → book'.HoldsBan address

variable {address : MakerAddress} {book book' : OfferBook O} {α : Type} {content : OfferBook O}
  {p : α → Bool} {f : α → α} {l : List α} {x : α}

theorem Rearranges.carries (h : Rearranges book book') : Carries book book' :=
  ⟨h.sound, fun address => (h.same address).mpr⟩

theorem mem_updateFirst_of_mem (h : x ∈ l) :
    x ∈ updateFirst p f l ∨ f x ∈ updateFirst p f l := by
  induction l with
  | nil => cases h
  | cons y rest ih =>
    unfold updateFirst
    split
    · rcases mem_cons.mp h with rfl | h
      · exact .inr (.head _)
      · exact .inl (.tail _ h)
    · rcases mem_cons.mp h with rfl | h
      · exact .inl (.head _)
      · exact (ih h).imp (.tail _) (.tail _)

theorem exists_mem_updateFirst (h : x ∈ l) (hx : p x) :
    ∃ y ∈ l, p y ∧ f y ∈ updateFirst p f l := by
  induction l with
  | nil => cases h
  | cons y rest ih =>
    unfold updateFirst
    split
    · rename_i hy
      exact ⟨y, .head _, hy, .head _⟩
    · rename_i hy
      rcases mem_cons.mp h with rfl | h
      · exact absurd hx hy
      · obtain ⟨z, hz, hpz, hmem⟩ := ih h
        exact ⟨z, .tail _ hz, hpz, .tail _ hmem⟩

theorem Sound.update (h : book.Sound) {f : MakerOfferCandidate O → MakerOfferCandidate O}
    (hf : ∀ maker, (f maker).address = maker.address ∧
      (f maker).legacyProvenViolation = maker.legacyProvenViolation ∧
      (maker.state.isBanned → (f maker).state.isBanned)) :
    Carries book (book.update address f) := by
  refine ⟨h.of_subperm (List.Perm.of_eq ?_).subperm, fun x hx => ?_⟩
  · simp only [marks, map_append, map_map]
    exact congrArg (· ++ _) (map_updateFirst (fun maker => by simp [profile, hf]) _)
  · rcases hx with ⟨maker, hmem, hx, hbarred⟩ | hsuppressed
    · rcases mem_updateFirst_of_mem hmem with hmem' | hmem'
      · exact .inl ⟨maker, hmem', hx, hbarred⟩
      · rw [h.makers maker hmem, Bool.or_false] at hbarred
        obtain ⟨haddress, -, hban⟩ := hf maker
        exact .inl ⟨f maker, hmem', haddress.trans hx, by rw [hban hbarred]; rfl⟩
    · exact .inr hsuppressed

theorem profile_markSuccess (offer : O) (protocol : MakerProtocol) (features : List String)
    (now : Nat) (maker : MakerOfferCandidate O) :
    profile (maker.markSuccess offer protocol features now) = profile maker := by
  unfold MakerOfferCandidate.markSuccess
  split
  · rfl
  · rename_i hban
    simp only [Bool.not_eq_true] at hban
    rw [profile, profile, hban]
    rfl

theorem profile_markFailure (reason : UnavailableReason) (now : Nat)
    (maker : MakerOfferCandidate O) : profile (maker.markFailure reason now) = profile maker := by
  unfold MakerOfferCandidate.markFailure
  split
  · rfl
  · rename_i hban
    simp only [Bool.not_eq_true] at hban
    rw [profile, profile, hban]
    rfl

theorem Sound.ban (h : book.Sound) (address : MakerAddress)
    (reason : BanReason) (now : Nat) : Carries book (book.ban address reason now) := by
  refine h.update fun maker => ?_
  split
  · exact ⟨rfl, rfl, id⟩
  · exact ⟨rfl, rfl, fun _ => rfl⟩

theorem Sound.recordOfferFailure (h : book.Sound) (address : MakerAddress)
    (error : OfferCheckError) (now : Nat) :
    Carries book (book.recordOfferFailure address error now) := by
  cases error with
  | proven reason => exact h.ban address reason now
  | lifecycle reason => exact (h.updateIf (profile_markFailure reason now)).carries
  | backendDown =>
    refine Rearranges.carries (h.updateIf ?_)
    exact fun _ => rfl

theorem Sound.record (h : book.Sound) (address : MakerAddress)
    (outcome : PollOutcome O) (now : Nat) : Carries book (book.record address outcome now) := by
  cases outcome with
  | offer offer protocol features =>
    exact (h.updateIf (profile_markSuccess offer protocol features now)).carries
  | failed error => exact h.recordOfferFailure address error now
  | noResponse => exact (h.updateIf (profile_markFailure .noOfferResponse now)).carries

theorem holdsBan_ban (hvisible : ∃ maker ∈ book.makers, maker.address = address)
    (reason : BanReason) (now : Nat) : (book.ban address reason now).HoldsBan address := by
  obtain ⟨maker, hmem, rfl⟩ := hvisible
  obtain ⟨first, -, hfirst, hbanned⟩ := exists_mem_updateFirst
    (p := fun m => m.address == maker.address && true) (f := fun m =>
      if m.state.isBanned then m
      else { m with state := .banned ⟨reason, now⟩, backendRetryPending := false }) hmem (by simp)
  have haddress : first.address = maker.address := by simpa using hfirst
  refine .inl ⟨_, hbanned, ?_⟩
  split
  · rename_i hban
    exact ⟨haddress, by rw [hban]; rfl⟩
  · exact ⟨haddress, rfl⟩

/-- **A proven violation bans**, whatever the book had on the address. -/
theorem Sound.recordProvenViolation (h : book.Sound) (address : MakerAddress)
    (reason : BanReason) (now : Nat) :
    Carries book (book.recordProvenViolation address reason now) ∧
      (book.recordProvenViolation address reason now).HoldsBan address := by
  have htaken := h.removeSuppressed address
  -- the book the ban is put on has a visible record, and all bans but a suppressed one
  obtain ⟨inserted, hinserted, hsound, hvisible, hkept⟩ : ∃ inserted : OfferBook O,
      book.recordProvenViolation address reason now = inserted.ban address reason now ∧
      inserted.Sound ∧ (∃ maker ∈ inserted.makers, maker.address = address) ∧
      ∀ x, (book.removeSuppressed address).HoldsBan x → inserted.HoldsBan x := by
    refine ⟨_, rfl, ?_⟩
    split
    · rename_i hany
      obtain ⟨maker, hmem, haddress⟩ := any_eq_true.mp hany
      exact ⟨htaken, ⟨maker, hmem, beq_iff_eq.mp haddress⟩, fun _ => id⟩
    · rename_i hany
      obtain ⟨hsound, hban⟩ := htaken.of_cons marks_insertCandidate (by simpa using hany)
        (lookup_erase ..)
      exact ⟨hsound, ⟨_, mem_append_right _ (.head _), rfl⟩,
        fun x hx => (hban x).mpr (.inl hx)⟩
  have hban := holdsBan_ban hvisible reason now
  rw [hinserted]
  refine ⟨⟨(hsound.ban address reason now).sound, fun x hx => ?_⟩, hban⟩
  by_cases hxa : x = address
  · rw [hxa]
    exact hban
  · exact (hsound.ban address reason now).kept x (hkept x ((holdsBan_removeSuppressed hxa).mpr hx))

theorem Sound.remove (h : book.Sound) (address : MakerAddress) :
    (book.remove address).Sound ∧
      ∀ x, (book.remove address).HoldsBan x ↔ x ≠ address ∧ book.HoldsBan x := by
  have hsub : (book.retainMakers (·.address != address)).marks.Sublist book.marks :=
    .append (filter_sublist.map _) (.refl _)
  refine ⟨(h.of_subperm (hsub.map _).subperm).removeSuppressed address, fun x => ?_⟩
  by_cases hx : x = address
  · subst hx
    simp +contextual [HoldsBan, OfferBook.remove, OfferBook.removeSuppressed,
      OfferBook.retainMakers]
  · rw [OfferBook.remove, holdsBan_removeSuppressed hx]
    simp only [HoldsBan, OfferBook.retainMakers, mem_filter]
    refine (or_congr_left (exists_congr fun maker => ?_)).trans (and_iff_right hx).symm
    constructor
    · rintro ⟨⟨hmem, -⟩, hban⟩
      exact ⟨hmem, hban⟩
    · rintro ⟨hmem, rfl, hban⟩
      exact ⟨⟨hmem, by simpa using hx⟩, rfl, hban⟩

/-! ### Loading -/

theorem marks_retainValidAddresses {valid : MakerAddress → Bool} :
    (book.retainValidAddresses valid).marks = book.marks.filter fun m => valid m.1 := by
  simp only [marks, filter_append, filter_map]
  rfl

theorem marks_backfill (now : Nat) :
    (book.backfillFirstSeenTimestamps now).1.marks = book.marks := by
  simp only [marks, backfillFirstSeenTimestamps, map_map]
  refine congrArg (· ++ _) (map_congr_left fun maker _ => ?_)
  simp only [Function.comp_apply, backfillFirstSeen]
  split <;> rfl

/-- **Migration makes every flag a ban** and leaves no flag. -/
theorem marks_migrateLegacyStates (now : Nat) :
    (book.migrateLegacyStates now).1.marks =
      book.marks.map fun m => (m.1, m.2.1 || m.2.2, false) := by
  simp only [marks, migrateLegacyStates, AList.mapValues, map_append, map_map]
  refine congrArg₂ _ (map_congr_left fun maker _ => ?_) (map_congr_left fun e _ => ?_)
  · cases hflag : maker.legacyProvenViolation <;> simp [profile, hflag, MakerState.isBanned]
  · cases hflag : e.2.legacyProvenViolation <;>
      simp [Sigma.map, hflag, SuppressedMaker.isBanned, MakerState.isBanned]

theorem Sound.serialized (h : book.Sound) : book.serialized = book := by
  have hmakers : book.makers.map (fun maker => { maker with legacyProvenViolation := false }) =
      book.makers := by
    conv_rhs => rw [← map_id book.makers]
    refine map_congr_left fun maker hmem => ?_
    rw [← h.makers maker hmem]
    rfl
  have hsuppressed : book.suppressedMakers.mapValues
      (fun _ suppressed => { suppressed with legacyProvenViolation := false }) =
      book.suppressedMakers := by
    refine mapValues_eq_self fun address suppressed hlookup => ?_
    rw [← h.suppressions address suppressed hlookup]
  rw [OfferBook.serialized, hmakers, hsuppressed]

theorem Distinct.serialized (h : book.Distinct) : book.serialized.Distinct :=
  h.of_subperm (List.Perm.of_eq (by
    simp [map_fst_marks, OfferBook.serialized, Function.comp_def])).subperm

theorem Distinct.retainValidAddresses (h : book.Distinct) (valid : MakerAddress → Bool) :
    (book.retainValidAddresses valid).Distinct :=
  h.of_subperm ((marks_retain book _ _).map _).subperm

theorem holdsBan_retainValidAddresses {valid : MakerAddress → Bool} :
    (book.retainValidAddresses valid).HoldsBan address ↔
      valid address ∧ book.HoldsBan address := by
  simp only [holdsBan_iff, marks_retainValidAddresses, mem_filter]
  constructor
  · rintro ⟨m, ⟨hm, hvalid⟩, rfl, hban⟩
    exact ⟨hvalid, m, hm, rfl, hban⟩
  · rintro ⟨hvalid, m, hm, rfl, hban⟩
    exact ⟨m, ⟨hm, hvalid⟩, rfl, hban⟩

/-- **What a file gives**: the bans of its valid addresses, be they states or flags. -/
theorem Distinct.load (h : content.Distinct) (valid : MakerAddress → Bool) (now : Nat) :
    (content.load valid now).1.Sound ∧ ∀ address,
      (content.load valid now).1.HoldsBan address ↔
        valid address ∧ content.HoldsBan address := by
  have hmarks : (content.load valid now).1.marks = (content.retainValidAddresses valid).marks.map
      fun m => (m.1, m.2.1 || m.2.2, false) :=
    (marks_migrateLegacyStates now).trans (congrArg _ (marks_backfill now))
  refine ⟨sound_iff.mpr ⟨?_, fun m hm => ?_⟩, fun address => ?_⟩
  · rw [hmarks, map_map]
    exact distinct_iff.mp (h.retainValidAddresses valid)
  · rw [hmarks] at hm
    obtain ⟨m', -, rfl⟩ := mem_map.mp hm
    rfl
  · rw [← holdsBan_retainValidAddresses, holdsBan_iff, holdsBan_iff, hmarks]
    simp

theorem Distinct.sound_of_load (h : content.Distinct) {valid : MakerAddress → Bool} {now}
    (hunchanged : (content.load valid now).2 = false) :
    (content.retainValidAddresses valid).Sound := by
  refine sound_iff.mpr ⟨distinct_iff.mp (h.retainValidAddresses valid), fun m hm => ?_⟩
  have hmigrated : ((content.retainValidAddresses valid).backfillFirstSeenTimestamps
      now).1.marks.any (·.2.2) = false := by
    rw [← (Bool.or_eq_false_iff.mp hunchanged).2]
    simp [marks, backfillFirstSeenTimestamps, profile, Function.comp_def]
  rw [marks_backfill] at hmigrated
  simpa using any_eq_false.mp hmigrated m hm

end OfferBook

/-! ## Whole runs -/

namespace OfferDisk

def Distinct (disk : OfferDisk O) : Prop := ∀ content, disk = .file content → content.Distinct

def HoldsBan (disk : OfferDisk O) (address : MakerAddress) : Prop :=
  ∃ content, disk = .file content ∧ content.HoldsBan address

end OfferDisk

namespace OfferStore

structure Sound (s : OfferStore O) : Prop where
  book : ∀ book, s.book = some book → book.Sound
  disk : s.disk.Distinct

def Saved (s : OfferStore O) : Prop :=
  ∀ book, s.book = some book → ∀ address, book.HoldsBan address → s.disk.HoldsBan address

def Bans (s : OfferStore O) (address : MakerAddress) : Prop :=
  match s.book with
  | some book => book.isBanned address = true
  | none => s.disk.HoldsBan address

variable {s : OfferStore O} {address : MakerAddress}

theorem Sound.bans_iff (h : s.Sound) {book} (hbook : s.book = some book) :
    s.Bans address ↔ book.HoldsBan address := by
  rw [Bans, hbook]
  exact (h.book book hbook).holdsBan_iff_isBanned.symm

theorem Saved.holdsBan (h : s.Saved) (hsound : s.Sound) (hbans : s.Bans address) :
    s.disk.HoldsBan address := by
  cases hbook : s.book with
  | none => rwa [Bans, hbook] at hbans
  | some book => exact h book hbook address ((hsound.bans_iff hbook).mp hbans)

end OfferStore

theorem OfferBook.sound_empty : (OfferBook.empty : OfferBook O).Sound :=
  ⟨⟨nodup_nil, fun _ hmem => (nomatch hmem)⟩, fun _ hmem => (nomatch hmem),
    fun _ _ hlookup => (nomatch hlookup)⟩

section Load

variable (valid : MakerAddress → Bool) (now : Nat) {disk : OfferDisk O}

theorem sound_loadOrCreate (first second : Bool) (h : disk.Distinct) :
    (loadOrCreate valid now first second disk).Sound := by
  cases disk with
  | absent =>
    cases first with
    | true => exact ⟨fun _ hbook => by cases hbook; exact OfferBook.sound_empty,
        fun _ hfile => by cases hfile; exact OfferBook.sound_empty.toDistinct⟩
    | false => exact ⟨fun _ hbook => (nomatch hbook), h⟩
  | unreadable => exact ⟨fun _ hbook => (nomatch hbook), h⟩
  | file content =>
    have hcontent := h content rfl
    have hload := (hcontent.load valid now).1
    have hdisk : (if content.lost (content.retainValidAddresses valid) then
        (OfferDisk.file content).write first (content.retainValidAddresses valid)
        else .file content).Distinct := by
      unfold OfferDisk.write
      split
      · split
        · intro _ hfile
          cases hfile
          exact OfferBook.Distinct.serialized (hcontent.retainValidAddresses valid)
        · exact h
      · exact h
    unfold loadOrCreate
    dsimp only
    split
    · split
      · exact ⟨fun _ hbook => by cases hbook; exact hload,
          fun _ hfile => by cases hfile; exact hload.toDistinct.serialized⟩
      · exact ⟨fun _ hbook => (nomatch hbook), hdisk⟩
    · exact ⟨fun _ hbook => by cases hbook; exact hload, hdisk⟩

/-- A load whose writes succeed leaves the bans it took from the file in the file. -/
theorem saved_loadOrCreate (h : disk.Distinct) :
    (loadOrCreate valid now true true disk).Saved := by
  cases disk with
  | absent =>
    intro book hbook address hban
    cases hbook
    exact ⟨_, rfl, hban⟩
  | unreadable => exact fun _ hbook => (nomatch hbook)
  | file content =>
    have hcontent := h content rfl
    obtain ⟨hsound, hload⟩ := hcontent.load valid now
    unfold loadOrCreate
    dsimp only
    split
    · intro book hbook address hban
      cases hbook
      exact ⟨_, rfl, by rwa [hsound.serialized]⟩
    · rename_i hunchanged
      intro book hbook address hban
      cases hbook
      have hban := (hload address).mp hban
      split
      · refine ⟨_, rfl, ?_⟩
        rw [(hcontent.sound_of_load (by simpa using hunchanged)).serialized]
        exact OfferBook.holdsBan_retainValidAddresses.mpr hban
      · exact ⟨_, rfl, hban.2⟩

theorem bans_loadOrCreate (h : disk.Distinct) {address} (hvalid : valid address)
    (hban : disk.HoldsBan address) :
    (loadOrCreate valid now true true disk).Bans address := by
  obtain ⟨content, rfl, hban⟩ := hban
  have hbook : (loadOrCreate valid now true true (.file content)).book =
      some (content.load valid now).1 := by
    unfold loadOrCreate
    dsimp only
    split <;> rfl
  have hsound := sound_loadOrCreate valid now true true h
  have hload := ((h content rfl).load valid now).2 address
  exact (hsound.bans_iff hbook).mpr (hload.mpr ⟨hvalid, hban⟩)

end Load

/-! ### Steps -/

def OfferAction.Removes (address : MakerAddress) : OfferAction O → Prop
  | .remove removed _ => removed = address
  | _ => False

instance (address : MakerAddress) (action : OfferAction O) :
    Decidable (action.Removes address) := by
  unfold OfferAction.Removes
  split <;> infer_instance

def OfferAction.isReload : OfferAction O → Bool
  | .reload .. => true
  | _ => false

section Steps

variable {valid : MakerAddress → Bool} {hash : HashOrder} {s s' : OfferStore O}
  {action : OfferAction O}

/-- **What one operation can do to the bans**: all are kept but that of a removed address,
and a new one is written. -/
theorem OfferAction.apply_spec (valid : MakerAddress → Bool) (hash : HashOrder) {book}
    (h : book.Sound) (action : OfferAction O) :
    (action.apply valid hash book).1.Sound ∧
    (∀ address, ¬ action.Removes address → book.HoldsBan address →
      (action.apply valid hash book).1.HoldsBan address) ∧
    ((action.apply valid hash book).2 = false → ∀ address,
      (action.apply valid hash book).1.HoldsBan address → book.HoldsBan address) := by
  cases action with
  | discover view written =>
    have hdiscover := Registry.rearranges_discover valid hash view h
    exact ⟨hdiscover.sound, fun address _ => (hdiscover.same address).mpr,
      fun _ address => (hdiscover.same address).mp⟩
  | pollOne address now =>
    have hpoll := h.upsertForPoll address now
    exact ⟨hpoll.sound, fun address _ => (hpoll.same address).mpr,
      fun _ address => (hpoll.same address).mp⟩
  | record address outcome now written =>
    have hrecord := h.record address outcome now
    exact ⟨hrecord.sound, fun address _ => hrecord.kept address, fun hsaves => (nomatch hsaves)⟩
  | recordProvenViolation address reason now written =>
    have hviolation := (h.recordProvenViolation address reason now).1
    exact ⟨hviolation.sound, fun address _ => hviolation.kept address,
      fun hsaves => (nomatch hsaves)⟩
  | remove removed written =>
    obtain ⟨hsound, hremove⟩ := h.remove removed
    exact ⟨hsound,
      fun address hother hban => (hremove address).mpr ⟨fun heq => hother heq.symm, hban⟩,
      fun _ address hban => ((hremove address).mp hban).2⟩
  | persist written => exact ⟨h, fun _ _ => id, fun _ _ => id⟩
  | reload now first second => exact ⟨h, fun _ _ => id, fun _ _ => id⟩

/-- A step is a load of the file or an operation of the running taker. -/
theorem OfferStore.step_cases (h : s.step valid hash action = some s') :
    (∃ now first second, action = .reload now first second ∧
      s' = loadOrCreate valid now first second s.disk) ∨
    (action.isReload = false ∧ ∃ book, s.book = some book ∧
      s' = ⟨some (action.apply valid hash book).1,
        if (action.apply valid hash book).2 then
          s.disk.write action.written (action.apply valid hash book).1
        else s.disk⟩) := by
  cases action with
  | reload now first second =>
    cases h
    exact .inl ⟨now, first, second, rfl, rfl⟩
  | _ =>
    obtain ⟨book, hbook, rfl⟩ := Option.map_eq_some_iff.mp h
    exact .inr ⟨rfl, book, hbook, rfl⟩

/-- **Records stay distinct**, whatever becomes of the writes. -/
theorem OfferStore.Sound.step (h : s.Sound) (hstep : s.step valid hash action = some s') :
    s'.Sound := by
  rcases OfferStore.step_cases hstep with ⟨now, first, second, -, rfl⟩ | ⟨-, book, hbook, rfl⟩
  · exact sound_loadOrCreate valid now first second h.disk
  · have hsound := (action.apply_spec valid hash (h.book book hbook)).1
    refine ⟨fun _ hbook' => by cases hbook'; exact hsound, ?_⟩
    unfold OfferDisk.write
    split
    · split
      · intro content hfile
        cases hfile
        exact hsound.toDistinct.serialized
      · exact h.disk
    · exact h.disk

theorem OfferStore.Saved.step (h : s.Saved) (hsound : s.Sound) (hwritten : action.written)
    (hstep : s.step valid hash action = some s') : s'.Saved := by
  rcases OfferStore.step_cases hstep with ⟨now, first, second, rfl, rfl⟩ | ⟨-, book, hbook, rfl⟩
  · obtain ⟨rfl, rfl⟩ := (Bool.and_eq_true _ _).mp hwritten
    exact saved_loadOrCreate valid now hsound.disk
  · obtain ⟨hsound', -, hnew⟩ := action.apply_spec valid hash (hsound.book book hbook)
    intro book' hbook' address hban
    cases hbook'
    split
    · rw [OfferDisk.write, if_pos hwritten, hsound'.serialized]
      exact ⟨_, rfl, hban⟩
    · rename_i hsaves
      exact h book hbook address (hnew (by simpa using hsaves) address hban)

/-- **A ban outlives every operation but its removal**, also one whose write fails. -/
theorem OfferStore.Sound.bans_step (h : s.Sound) {address} (hreload : action.isReload = false)
    (hother : ¬ action.Removes address) (hstep : s.step valid hash action = some s')
    (hban : s.Bans address) : s'.Bans address := by
  have hsound' := h.step hstep
  rcases OfferStore.step_cases hstep with ⟨now, first, second, rfl, rfl⟩ | ⟨-, book, hbook, rfl⟩
  · cases hreload
  · refine (hsound'.bans_iff rfl).mpr ?_
    have hkept := (action.apply_spec valid hash (h.book book hbook)).2.1
    exact hkept address hother ((h.bans_iff hbook).mp hban)

/-- **Bans of the offer book.**  In every run a banned address is in no selection and an operation
other than a load or its removal keeps its ban; in a run whose writes succeed the ban of a valid
address lasts until a removal, restarts included. -/
theorem bans_kept (valid : MakerAddress → Bool) (hash : HashOrder) (start : OfferStore O)
    (hstart : start.Sound) (hsaved : start.Saved) :
    (∀ s, Run.Reachable (OfferStore.step valid hash) (fun _ _ => True) start s →
      s.disk.Distinct ∧
      (∀ book, s.book = some book → book.Distinct ∧ ∀ address, book.isBanned address = true →
        (∀ maker ∈ book.makers, maker.address = address → maker.state.isBanned = true) ∧
        ∀ now live protocol, address ∉ book.makersToPoll now live ∧
          (∀ offer ∈ book.activeMakers protocol, offer.address ≠ address) ∧
          (∀ offer ∈ book.goodMakers, offer.address ≠ address)) ∧
      ∀ action s' address, action.isReload = false → ¬ action.Removes address →
        s.step valid hash action = some s' → s.Bans address → s'.Bans address) ∧
    ∀ s, Run.Reachable (OfferStore.step valid hash) (fun _ action => action.written = true)
        start s →
      ∀ address, valid address = true → s.Bans address →
        ∀ s', Run.Reachable (OfferStore.step valid hash)
            (fun _ action => action.written = true ∧ ¬ action.Removes address) s s' →
          s'.Bans address := by
  constructor
  · intro s hreach
    have hsound : s.Sound := hreach.invariant (I := OfferStore.Sound) hstart
      fun _ _ _ hsound _ hstep => hsound.step hstep
    refine ⟨hsound.disk, fun book hbook => ?_, fun action s' address hreload hother hstep hban =>
      hsound.bans_step hreload hother hstep hban⟩
    have hdistinct := (hsound.book book hbook).toDistinct
    exact ⟨hdistinct, fun address hban =>
      ⟨fun maker hmem haddress => hdistinct.banned_of_isBanned hban hmem haddress,
        hdistinct.notMem_selections hban⟩⟩
  · intro s hreach address hvalid hban s' hreach'
    have hs : s.Sound ∧ s.Saved := hreach.invariant (I := fun s => s.Sound ∧ s.Saved)
      ⟨hstart, hsaved⟩ fun _ _ _ hs hwritten hstep =>
        ⟨hs.1.step hstep, hs.2.step hs.1 hwritten hstep⟩
    refine (hreach'.invariant (I := fun s => (s.Sound ∧ s.Saved) ∧ s.Bans address) ⟨hs, hban⟩ ?_).2
    intro t action t' ⟨ht, hban⟩ ⟨hwritten, hother⟩ hstep
    refine ⟨⟨ht.1.step hstep, ht.2.step ht.1 hwritten hstep⟩, ?_⟩
    cases hreload : action.isReload with
    | false => exact ht.1.bans_step hreload hother hstep hban
    | true =>
      -- the load finds in the file what the taker had in memory
      rcases OfferStore.step_cases hstep with ⟨now, first, second, rfl, rfl⟩ | ⟨hfalse, -⟩
      · obtain ⟨rfl, rfl⟩ := (Bool.and_eq_true _ _).mp hwritten
        exact bans_loadOrCreate valid now ht.1.disk hvalid (ht.2.holdsBan ht.1 hban)
      · rw [hreload] at hfalse
        cases hfalse

end Steps

namespace SampleOffers

def maker : MakerAddress := "25njqamcweflpvkl73j4szahhihoc4xt3ktcgjnpaingr5yhkenl5sid.onion"

/-- On the sample addresses, the strict check of an onion address. -/
def valid (address : MakerAddress) : Bool := address == maker

def hash : HashOrder := ⟨id, fun _ => .refl _⟩

/-- The file of an older build, with a violation flag on a suppressed maker and a record of
an address that is no onion address. -/
def olderFile : OfferBook Unit where
  makers := [⟨"203.0.113.7:6102", none, none, none, .good, false, none, [], none, none, false,
    none⟩]
  suppressedMakers := AList.singleton maker
    ⟨none, none, some (.unavailable ⟨.legacyStatus, none, none, 3⟩), true, 1700000000⟩

def run : List (OfferAction Unit) :=
  [.reload 1750000000 true true, .pollOne maker 1750000100,
    .discover ⟨1750000200, 900000, true, [⟨[1], maker, 950000, some true⟩]⟩ true,
    .record maker .noResponse 1750000300 true, .reload 1750000400 true true]

end SampleOffers

open SampleOffers in
/-- A violation an older build recorded is a ban for good. -/
theorem bans_kept_since_older_build :
    (⟨none, .file olderFile⟩ : OfferStore Unit).Sound ∧
    ∃ s, Run.Reachable (OfferStore.step valid hash)
        (fun _ action => action.written = true ∧ ¬ action.Removes maker)
        ⟨none, .file olderFile⟩ s ∧ s.book.isSome = true ∧
      s.Bans maker := by
  have hsound : (⟨none, .file olderFile⟩ : OfferStore Unit).Sound := by
    refine ⟨fun _ hbook => (nomatch hbook), fun content hfile => ?_⟩
    cases hfile
    exact ⟨by decide, fun m hm => by rw [mem_singleton.mp hm]; decide⟩
  have hban : (⟨none, .file olderFile⟩ : OfferStore Unit).Bans maker :=
    ⟨_, rfl, .inr ⟨⟨none, none, some (.unavailable ⟨.legacyStatus, none, none, 3⟩), true,
      1700000000⟩, by decide, by decide⟩⟩
  obtain ⟨s, hreach, hbook⟩ : ∃ s, Run.Reachable (OfferStore.step valid hash)
      (fun _ action => action.written = true ∧ ¬ action.Removes maker)
      ⟨none, .file olderFile⟩ s ∧ s.book.isSome = true :=
    Run.exists_reachable_of_exec run (by decide +kernel)
  exact ⟨hsound, s, hreach, hbook, (bans_kept valid hash _ hsound
    fun _ hbook => (nomatch hbook)).2 _ .init _ (by decide) hban s hreach⟩

open SampleOffers in
/-- A violation whose write failed is forgotten by a restart. -/
theorem ban_lost_after_failed_write :
    ∃ s s', Run.Reachable (OfferStore.step valid hash)
        (fun _ _ => True) (⟨none, .absent⟩ : OfferStore Unit) s ∧
      s.Bans maker ∧
      s.step valid hash (.reload 1750000400 true true) = some s' ∧
      s'.book.isSome = true ∧ ¬ s'.Bans maker := by
  -- the disk is full when the violation is recorded, and has room again at the restart
  let banned : OfferBook Unit :=
    OfferBook.empty.recordProvenViolation maker .provenViolation 1750000100
  have hcreated : OfferStore.step valid hash ⟨none, .absent⟩
      (.reload 1750000000 true true) = some (⟨some .empty, .file .empty⟩ : OfferStore Unit) := rfl
  have hviolation : OfferStore.step valid hash ⟨some .empty, .file .empty⟩
      (.recordProvenViolation maker .provenViolation 1750000100 false) =
      some ⟨some banned, .file .empty⟩ := rfl
  refine ⟨⟨some banned, .file .empty⟩, ⟨some .empty, .file .empty⟩,
    .step (.step .init trivial hcreated) trivial hviolation, ?_, rfl, rfl, ?_⟩
  · show banned.isBanned maker = true
    decide
  · show ¬ OfferBook.isBanned OfferBook.empty maker = true
    decide

end OpenSwap
