import OpenSwap.Blockchain.ConfirmedSpend

/-!
# The shared cache of Electrum answers

Threads share one backend.  A read that the cache does not serve notes the script generation,
asks the server without holding the cache, and keeps the answer only if the generation is the
same when it comes in; a changed tip and an own broadcast move the generation on.

`Events` counts the two, and an answer is kept with the count at its request.
`served_current`: whatever the interleaving, what the cache serves was asked for after the last
event that concerns it; no read is under way for `2 ^ 64` events, after which the generation would
be back where it was.
-/

namespace OpenSwap

open Btc

inductive ElectrumQuery
  | history (script : Bytes)
  | unspent (script : Bytes)
  | header (height : Nat)
deriving DecidableEq

def ElectrumQuery.isHeader : ElectrumQuery → Bool
  | .header _ => true
  | _ => false

/-- The changed tips noted, and the own broadcasts that returned. -/
structure Events where
  changes : Nat
  broadcasts : Nat

def Events.total (e : Events) : Nat := e.changes + e.broadcasts

/-- An answer, when it was kept, and the events before it was asked for. -/
structure KeptAnswer (A : Type) where
  keptAt : Nat
  answer : A
  asked : Events

/-- `Cache`; the histories, unspent lists and headers stand in one map. -/
structure ElectrumCache (A : Type) where
  kept : AList fun _ : ElectrumQuery => KeptAnswer A
  tip : Option (Nat × Bytes)
  scriptGeneration : Nat

def headerCacheDepth : Nat := 6

namespace ElectrumCache

variable {A : Type} (c : ElectrumCache A)

def forgetScripts : ElectrumCache A :=
  { c with
    scriptGeneration := (c.scriptGeneration + 1) % 2 ^ 64
    kept := c.kept.filterEntries fun q _ => q.isHeader }

def changesTip (height : Nat) (hash : Bytes) : Bool := c.tip.any (· ≠ (height, hash))

def noteTip (height : Nat) (hash : Bytes) : ElectrumCache A :=
  let forgotten := if c.changesTip height hash then { c.forgetScripts with kept := ∅ } else c
  { forgotten with tip := some (height, hash) }

/-- What a read is served: headers at once, answers about scripts while they are fresh. -/
def serve (q : ElectrumQuery) (now : Nat) : Option (KeptAnswer A) :=
  (c.kept.lookup q).filter fun k => q.isHeader || now - k.keptAt < scriptCacheTtl

/-- Headers are kept well below the known tip. -/
def keeps : ElectrumQuery → Bool
  | .header height => c.tip.any fun tip => min (height + headerCacheDepth) (2 ^ 64 - 1) ≤ tip.1
  | _ => true

/-- The end of a read that noted a generation. -/
def keep (q : ElectrumQuery) (generation : Nat) (k : KeptAnswer A) : ElectrumCache A :=
  if c.scriptGeneration = generation ∧ c.keeps q then { c with kept := c.kept.insert q k } else c

end ElectrumCache

/-- A read that asks the server, with the events before it started and before it last asked. -/
structure ElectrumRead where
  query : ElectrumQuery
  generation : Nat
  started : Events
  asked : Option Events

structure ElectrumShared (A : Type) where
  cache : ElectrumCache A
  reads : AList fun _ : Nat => ElectrumRead
  events : Events

inductive ElectrumStep (A : Type)
  | read (thread : Nat) (query : ElectrumQuery) (now : Nat)
  /-- the request goes out, also once more after a reconnect -/
  | ask (thread : Nat)
  | answer (thread : Nat) (answer : A) (now : Nat)
  | fail (thread : Nat)
  | noteTip (height : Nat) (hash : Bytes)
  | broadcast

namespace ElectrumShared

variable {A : Type}

def start : ElectrumShared A := ⟨⟨∅, none, 0⟩, ∅, ⟨0, 0⟩⟩

variable (s : ElectrumShared A)

def broadcast : ElectrumShared A :=
  { s with
    cache := s.cache.forgetScripts
    events := { s.events with broadcasts := s.events.broadcasts + 1 } }

def step : ElectrumStep A → Option (ElectrumShared A)
  | .read thread query now =>
    match s.reads.lookup thread, s.cache.serve query now with
    | some _, _ => none
    | none, some _ => some s
    | none, none => some { s with
        reads := s.reads.insert thread ⟨query, s.cache.scriptGeneration, s.events, none⟩ }
  | .ask thread => (s.reads.lookup thread).map fun r =>
    { s with reads := s.reads.insert thread { r with asked := some s.events } }
  | .answer thread answer now => (s.reads.lookup thread).bind fun r => r.asked.map fun asked =>
    { s with
      cache := s.cache.keep r.query r.generation ⟨now, answer, asked⟩
      reads := s.reads.erase thread }
  | .fail thread => some { s with reads := s.reads.erase thread }
  | .noteTip height hash => some { s with
      cache := s.cache.noteTip height hash
      events := { s.events with
        changes := s.events.changes + (s.cache.changesTip height hash).toNat } }
  | .broadcast => some s.broadcast

/-- Fewer than `2 ^ 64` events fall between the start of a read and its answer. -/
def InTime : ElectrumStep A → Prop
  | .answer thread _ _ => ∀ r, s.reads.lookup thread = some r →
    s.events.total < r.started.total + 2 ^ 64
  | _ => True

end ElectrumShared

/-! ## What the cache serves -/

/-- No event of the second count is missing from the first. -/
def Events.Le (e e' : Events) : Prop := e.changes ≤ e'.changes ∧ e.broadcasts ≤ e'.broadcasts

/-- The answer to a query was asked for after the last event that concerns it. -/
def ElectrumQuery.Current (q : ElectrumQuery) (asked events : Events) : Prop :=
  asked.changes = events.changes ∧ (q.isHeader = false → asked.broadcasts = events.broadcasts)

structure ElectrumRead.Ok (events : Events) (r : ElectrumRead) : Prop where
  generation : r.generation = r.started.total % 2 ^ 64
  started : r.started.Le events
  asked : ∀ asked ∈ r.asked, r.started.Le asked ∧ asked.Le events

theorem Events.Le.refl (e : Events) : e.Le e := ⟨le_rfl, le_rfl⟩

theorem Events.Le.trans {e e' e'' : Events} (h : e.Le e') (h' : e'.Le e'') : e.Le e'' :=
  ⟨h.1.trans h'.1, h.2.trans h'.2⟩

theorem ElectrumRead.Ok.mono {events events' : Events} {r : ElectrumRead} (h : r.Ok events)
    (hle : events.Le events') : r.Ok events' :=
  ⟨h.generation, h.started.trans hle, fun asked hasked =>
    ⟨(h.asked asked hasked).1, (h.asked asked hasked).2.trans hle⟩⟩

namespace ElectrumShared

variable {A : Type} {s s' : ElectrumShared A}

structure Ok (s : ElectrumShared A) : Prop where
  generation : s.cache.scriptGeneration = s.events.total % 2 ^ 64
  kept : ∀ q k, s.cache.kept.lookup q = some k → q.Current k.asked s.events
  reads : ∀ thread r, s.reads.lookup thread = some r → r.Ok s.events

variable {thread : Nat} {r : ElectrumRead} {asked : Events}

/-- An answer that comes in under the generation of its read was asked for after the last
event. -/
theorem Ok.current (h : s.Ok) (hr : s.reads.lookup thread = some r) (hasked : r.asked = some asked)
    (htime : s.events.total < r.started.total + 2 ^ 64)
    (hgeneration : s.cache.scriptGeneration = r.generation) : r.query.Current asked s.events := by
  have hread := h.reads thread r hr
  obtain ⟨hstarted, hle⟩ := hread.asked asked hasked
  rw [h.generation, hread.generation] at hgeneration
  unfold Events.Le at hstarted hle
  unfold Events.total at htime hgeneration
  -- two totals that differ by less than the modulus and agree up to it
  constructor
  · omega
  · intro
    omega

theorem Ok.answer {now answer} (h : s.Ok) (hr : s.reads.lookup thread = some r)
    (hasked : r.asked = some asked) (htime : s.events.total < r.started.total + 2 ^ 64) :
    Ok { s with
      cache := s.cache.keep r.query r.generation ⟨now, answer, asked⟩
      reads := s.reads.erase thread } := by
  have hreads := fun t r' hr' => h.reads t r' (AList.lookup_of_lookup_erase (k := thread) hr')
  unfold ElectrumCache.keep
  split
  · rename_i hkeeps
    have hcurrent := h.current hr hasked htime hkeeps.1
    exact ⟨h.generation, AList.forall_lookup_insert hcurrent h.kept, hreads⟩
  · exact ⟨h.generation, h.kept, hreads⟩

theorem Ok.broadcast (h : s.Ok) : s.broadcast.Ok := by
  refine ⟨?_, ?_, fun thread r hr => (h.reads thread r hr).mono ⟨le_rfl, Nat.le_succ _⟩⟩
  · have := h.generation
    simp only [ElectrumShared.broadcast, ElectrumCache.forgetScripts, Events.total] at this ⊢
    omega
  · intro q k hk
    obtain ⟨hk, hheader⟩ := AList.lookup_filterEntries_eq_some.mp hk
    exact ⟨(h.kept q k hk).1, fun hscript => by simp [hscript] at hheader⟩

theorem Ok.noteTip {height : Nat} {hash : Bytes} (h : s.Ok)
    (hstep : s.step (.noteTip height hash) = some s') : s'.Ok := by
  cases hstep
  cases hchanges : s.cache.changesTip height hash with
  | false => simpa [ElectrumCache.noteTip, hchanges] using ⟨h.generation, h.kept, h.reads⟩
  | true =>
    refine ⟨?_, ?_, fun thread r hr => (h.reads thread r hr).mono ⟨Nat.le_add_right .., le_rfl⟩⟩
    · have := h.generation
      simp only [ElectrumCache.noteTip, hchanges, if_true, ElectrumCache.forgetScripts,
        Events.total, Bool.toNat_true] at this ⊢
      omega
    · simp [ElectrumCache.noteTip, hchanges]

theorem Ok.step {a} (h : s.Ok) (htime : s.InTime a) (hstep : s.step a = some s') : s'.Ok := by
  cases a with
  | read thread query now =>
    simp only [ElectrumShared.step] at hstep
    split at hstep
    · cases hstep
    · cases hstep
      exact h
    · cases hstep
      exact ⟨h.generation, h.kept,
        AList.forall_lookup_insert ⟨h.generation, .refl _, by simp⟩ h.reads⟩
  | ask thread =>
    obtain ⟨r, hr, rfl⟩ := Option.map_eq_some_iff.mp hstep
    have hread := h.reads thread r hr
    refine ⟨h.generation, h.kept, AList.forall_lookup_insert ⟨hread.generation, hread.started, ?_⟩
      h.reads⟩
    intro asked hasked
    cases hasked
    exact ⟨hread.started, .refl _⟩
  | answer thread answer now =>
    obtain ⟨r, hr, hstep⟩ := Option.bind_eq_some_iff.mp hstep
    obtain ⟨asked, hasked, rfl⟩ := Option.map_eq_some_iff.mp hstep
    exact h.answer hr hasked (htime r hr)
  | fail thread =>
    cases hstep
    exact ⟨h.generation, h.kept, fun t r hr => h.reads t r (AList.lookup_of_lookup_erase hr)⟩
  | noteTip height hash => exact h.noteTip hstep
  | broadcast =>
    cases hstep
    exact h.broadcast

/-- **What the cache serves is current**: in every interleaving, no answer that was asked for
before a changed tip was noted is served after that, and no answer about a script that was
asked for before an own broadcast returned. -/
theorem served_current {q : ElectrumQuery} {k : KeptAnswer A} {now : Nat}
    (h : Run.Reachable step InTime start s) (hserved : s.cache.serve q now = some k) :
    q.Current k.asked s.events := by
  have hok : s.Ok := h.invariant (I := Ok)
    ⟨rfl, by simp [start], by simp [start]⟩ fun _ _ _ => Ok.step
  exact hok.kept q k (Option.filter_eq_some_iff.mp hserved).1

def answered : ElectrumShared Unit where
  cache := ⟨AList.insert (.history []) ⟨0, (), ⟨0, 0⟩⟩ ∅, none, 0⟩
  reads := ∅
  events := ⟨0, 0⟩

theorem reachable_answered : Run.Reachable step InTime start answered :=
  .step (a := .answer 0 () 0)
    (.step (a := .ask 0) (.step (a := .read 0 (.history []) 0) .init trivial rfl) trivial rfl)
    (by intro r hr; cases hr; decide) rfl

/-- While nothing happens the answer is served. -/
theorem served_current_once : answered.cache.serve (.history []) 1 = some ⟨0, (), ⟨0, 0⟩⟩ ∧
    (ElectrumQuery.history []).Current ⟨0, 0⟩ answered.events := by
  have hserved : answered.cache.serve (.history []) 1 = some ⟨0, (), ⟨0, 0⟩⟩ := rfl
  exact ⟨hserved, served_current reachable_answered hserved⟩

end ElectrumShared

end OpenSwap
