import Mathlib.Algebra.Order.Monoid.Defs
import Mathlib.Logic.Function.Basic
import NolagCore.Lib.Calls
import NolagCore.Lib.Transition

/-!
# Lib.ReadThrough

Instances that share one store, each with a cache of its own in front of it. A lookup that misses
reads the store, admits or rejects the row and caches what it admits; anything may happen between
these statements. No cache learns of a change to the store: an entry goes when it is dropped or when
its lifetime is over.

What a lookup answers was admitted from a read at most a lifetime and a delay before it began, where
the delay bounds the time from a read to the write of the cache (`answer_recent`). A store that has
settled is therefore seen as it is by every lookup that begins that much later (`answer_settled`).
-/

namespace NolagCore
namespace Lib

/-- A cache whose entries expire a lifetime after they were written. `WrittenBy W` says that each
entry it still answers was written at some instant under `W`. -/
structure ExpiringCache (γ κ ν τ : Type) [AddCommMonoid τ] [LE τ] where
  lifetime : τ
  lifetime_nonneg : 0 ≤ lifetime
  empty : γ
  get : γ → τ → κ → Option ν × γ
  set : γ → τ → κ → ν → γ
  delete : γ → κ → γ
  clear : γ → γ
  WrittenBy : (τ → κ → ν → Prop) → γ → Prop
  writtenBy_empty : ∀ W, WrittenBy W empty
  of_get : ∀ {W c now k v}, WrittenBy W c → (get c now k).1 = some v →
    ∃ u, now ≤ u + lifetime ∧ W u k v
  writtenBy_get : ∀ {W c}, WrittenBy W c → ∀ now k, WrittenBy W (get c now k).2
  writtenBy_set : ∀ {W c now k v}, WrittenBy W c → W now k v → WrittenBy W (set c now k v)
  writtenBy_delete : ∀ {W c}, WrittenBy W c → ∀ k, WrittenBy W (delete c k)
  writtenBy_clear : ∀ {W c}, WrittenBy W c → WrittenBy W (clear c)

/-- Lookups of `κ` in a store `σ` that changes by `δ`: the row that is read, and what is admitted
of it at an instant. -/
structure ReadThrough (σ δ κ ρ ν τ γ : Type) [AddCommMonoid τ] [LE τ] where
  cache : ExpiringCache γ κ ν τ
  change : τ → σ → δ → σ
  load : σ → κ → ρ
  accept : τ → κ → ρ → Option ν

namespace ReadThrough

/-! ## The machine -/

structure Request (ι κ τ : Type) where
  node : ι
  key : κ
  begun : τ

inductive Phase (ρ ν τ : Type) where
  /-- The cache had no entry. -/
  | missed
  | read (instant : τ) (row : ρ)
  | answered (value : Option ν)

structure Cluster (ι σ κ ρ ν τ γ : Type) where
  store : σ
  clock : τ
  cache : ι → γ
  calls : Pool (Request ι κ τ) (Phase ρ ν τ)

inductive Event (ι δ κ : Type) where
  | change (d : δ)
  | drop (i : ι) (k : κ)
  | clear (i : ι)
  | enter (c : Nat) (i : ι) (k : κ)
  | read (c : Nat)
  | fill (c : Nat)

variable {ι σ δ κ ρ ν τ γ : Type} [DecidableEq ι] [AddCommMonoid τ] [LinearOrder τ]

section

variable (R : ReadThrough σ δ κ ρ ν τ γ)

/-- Every cache empty and no lookup begun. -/
def start (now : τ) (s : σ) : Cluster ι σ κ ρ ν τ γ where
  store := s
  clock := now
  cache := fun _ => R.cache.empty
  calls := Pool.empty

/-- A lookup up to its first wait. -/
def entered (now : τ) (c : γ) (k : κ) : Phase ρ ν τ × γ :=
  match R.cache.get c now k with
  | (some v, c) => (.answered (some v), c)
  | (none, c) => (.missed, c)

/-- A lookup from its read on. -/
def filled (now : τ) (c : γ) (k : κ) (row : ρ) : Option ν × γ :=
  match R.accept now k row with
  | some v => (some v, R.cache.set c now k v)
  | none => (none, c)

/-- A lookup with nothing beside it. -/
def lookup (s : σ) (now : τ) (c : γ) (k : κ) : Option ν × γ :=
  match R.cache.get c now k with
  | (some v, c) => (some v, c)
  | (none, c) => R.filled now c k (R.load s k)

def handle (st : Cluster ι σ κ ρ ν τ γ) (now : τ) : Event ι δ κ → Option (Cluster ι σ κ ρ ν τ γ)
  | .change d => some { st with clock := now, store := R.change now st.store d }
  | .drop i k => some { st with
      clock := now
      cache := Function.update st.cache i (R.cache.delete (st.cache i) k) }
  | .clear i => some { st with
      clock := now
      cache := Function.update st.cache i (R.cache.clear (st.cache i)) }
  | .enter c i k =>
    match st.calls c with
    | some _ => none
    | none => some { st with
        clock := now
        cache := Function.update st.cache i (R.entered now (st.cache i) k).2
        calls := st.calls.move c ⟨i, k, now⟩ (R.entered now (st.cache i) k).1 }
  | .read c =>
    match st.calls c with
    | some (q, .missed) => some { st with
        clock := now
        calls := st.calls.move c q (.read now (R.load st.store q.key)) }
    | _ => none
  | .fill c =>
    match st.calls c with
    | some (q, .read _ row) => some { st with
        clock := now
        cache := Function.update st.cache q.node (R.filled now (st.cache q.node) q.key row).2
        calls := st.calls.move c q (.answered (R.filled now (st.cache q.node) q.key row).1) }
    | _ => none

/-- One event at its instant. The clock does not go back. -/
def step (st : Cluster ι σ κ ρ ν τ γ) (l : τ × Event ι δ κ) : Option (Cluster ι σ κ ρ ν τ γ) :=
  if st.clock ≤ l.1 then R.handle st l.1 l.2 else none

/-- What a step is, one constructor an event. -/
inductive Steps (st : Cluster ι σ κ ρ ν τ γ) (now : τ) :
    Event ι δ κ → Cluster ι σ κ ρ ν τ γ → Prop
  | change {d : δ} :
    Steps st now (.change d) { st with clock := now, store := R.change now st.store d }
  | drop {i : ι} {k : κ} : Steps st now (.drop i k) { st with
      clock := now
      cache := Function.update st.cache i (R.cache.delete (st.cache i) k) }
  | clear {i : ι} : Steps st now (.clear i) { st with
      clock := now
      cache := Function.update st.cache i (R.cache.clear (st.cache i)) }
  | enter {c : Nat} {i : ι} {k : κ} (hc : st.calls c = none) : Steps st now (.enter c i k) { st with
      clock := now
      cache := Function.update st.cache i (R.entered now (st.cache i) k).2
      calls := st.calls.move c ⟨i, k, now⟩ (R.entered now (st.cache i) k).1 }
  | read {c : Nat} {q : Request ι κ τ} (hc : st.calls c = some (q, .missed)) :
    Steps st now (.read c) { st with
      clock := now
      calls := st.calls.move c q (.read now (R.load st.store q.key)) }
  | fill {c : Nat} {q : Request ι κ τ} {r : τ} {row : ρ} (hc : st.calls c = some (q, .read r row)) :
    Steps st now (.fill c) { st with
      clock := now
      cache := Function.update st.cache q.node (R.filled now (st.cache q.node) q.key row).2
      calls := st.calls.move c q (.answered (R.filled now (st.cache q.node) q.key row).1) }

end

variable {R : ReadThrough σ δ κ ρ ν τ γ}

theorem of_step {st st' : Cluster ι σ κ ρ ν τ γ} {l : τ × Event ι δ κ}
    (h : R.step st l = some st') : st.clock ≤ l.1 ∧ R.Steps st l.1 l.2 st' := by
  unfold step at h
  split at h
  · rename_i hclock
    refine ⟨hclock, ?_⟩
    obtain ⟨now, e⟩ := l
    cases e with
    | change d => cases h; exact .change
    | drop i k => cases h; exact .drop
    | clear i => cases h; exact .clear
    | enter c i k =>
      simp only [handle] at h
      split at h
      · cases h
      · rename_i hc
        cases h
        exact .enter hc
    | read c =>
      simp only [handle] at h
      split at h
      · rename_i hc
        cases h
        exact .read hc
      · cases h
    | fill c =>
      simp only [handle] at h
      split at h
      · rename_i hc
        cases h
        exact .fill hc
      · cases h
  · cases h

/-- A lookup with nothing beside it goes through the steps to what `lookup` says. -/
theorem lookup_alone (st : Cluster ι σ κ ρ ν τ γ) {c : Nat} (hc : st.calls c = none) (i : ι)
    (k : κ) : ∃ run st', exec R.step st run = some st' ∧ st'.store = st.store ∧
      st'.cache = Function.update st.cache i (R.lookup st.store st.clock (st.cache i) k).2 ∧
      st'.calls c = some (⟨i, k, st.clock⟩,
        .answered (R.lookup st.store st.clock (st.cache i) k).1) := by
  rcases hget : R.cache.get (st.cache i) st.clock k with ⟨_ | v, cache⟩
  · refine ⟨[(st.clock, .enter c i k), (st.clock, .read c), (st.clock, .fill c)], ?_⟩
    simp [exec, step, handle, hc, entered, lookup, hget]
  · refine ⟨[(st.clock, .enter c i k)], ?_⟩
    simp [exec, step, handle, hc, entered, lookup, hget]

/-! ## The clock -/

theorem clock_of_step {st st' : Cluster ι σ κ ρ ν τ γ} {l : τ × Event ι δ κ}
    (h : R.step st l = some st') : st'.clock = l.1 := by
  obtain ⟨now, e⟩ := l
  obtain ⟨-, hstep⟩ := of_step h
  cases hstep <;> rfl

/-- No event of a run is later than the clock it leaves. -/
theorem clock_of_run {run : List (τ × Event ι δ κ)} {st st' : Cluster ι σ κ ρ ν τ γ}
    (hrun : exec R.step st run = some st') : st.clock ≤ st'.clock ∧ ∀ l ∈ run, l.1 ≤ st'.clock := by
  induction run generalizing st with
  | nil =>
    cases hrun
    exact ⟨le_rfl, fun l hl => absurd hl List.not_mem_nil⟩
  | cons l run ih =>
    obtain ⟨st₁, hstep, hrest⟩ := exec_cons hrun
    obtain ⟨hafter, hlater⟩ := ih hrest
    rw [clock_of_step hstep] at hafter
    refine ⟨(of_step hstep).1.trans hafter, fun l' hl' => ?_⟩
    rcases List.mem_cons.1 hl' with rfl | hl'
    · exact hafter
    · exact hlater l' hl'

/-! ## What lookups answer -/

/-- The cache is written within the delay of the read. -/
def Prompt (delay : τ) (st : Cluster ι σ κ ρ ν τ γ) (l : τ × Event ι δ κ) : Prop :=
  match l.2 with
  | .fill c => match st.calls c with
    | some (_, .read r _) => l.1 ≤ r + delay
    | _ => True
  | _ => True

instance (delay : τ) (st : Cluster ι σ κ ρ ν τ γ) (l : τ × Event ι δ κ) :
    Decidable (Prompt delay st l) := by
  unfold Prompt
  split
  · split <;> infer_instance
  · infer_instance

section

variable (R) (Held : τ → σ → Prop) (delay : τ)

/-- Admitted at `u` from a read, no more than the delay before, of a store that was held. -/
def FromRead (u : τ) (k : κ) (v : Option ν) : Prop :=
  ∃ r s, Held r s ∧ u ≤ r + delay ∧ R.accept u k (R.load s k) = v

/-- Every answer, and every entry an answer can come from, is from such a read. -/
structure Sound (st : Cluster ι σ κ ρ ν τ γ) : Prop where
  begun : ∀ c q phase, st.calls c = some (q, phase) → q.begun ≤ st.clock
  reads : ∀ c q r row, st.calls c = some (q, .read r row) → ∃ s, Held r s ∧ row = R.load s q.key
  answers : ∀ c q v, st.calls c = some (q, .answered v) →
    ∃ u, q.begun ≤ u + R.cache.lifetime ∧ R.FromRead Held delay u q.key v
  cached : ∀ i, R.cache.WrittenBy (fun u k v => R.FromRead Held delay u k (some v)) (st.cache i)

end

variable {Held : τ → σ → Prop} {delay : τ}

omit [DecidableEq ι] in
theorem sound_start (now : τ) (s : σ) :
    R.Sound Held delay (R.start now s : Cluster ι σ κ ρ ν τ γ) where
  begun := by
    intro c q phase hc
    cases hc
  reads := by
    intro c q r row hc
    cases hc
  answers := by
    intro c q v hc
    cases hc
  cached := fun _ => R.cache.writtenBy_empty _

/-- Only one cache changes. -/
theorem cached_update {W : τ → κ → ν → Prop} {cache : ι → γ} {i : ι} {c : γ}
    (h : ∀ i, R.cache.WrittenBy W (cache i)) (hc : R.cache.WrittenBy W c) :
    ∀ i', R.cache.WrittenBy W (Function.update cache i c i') := by
  intro i'
  by_cases heq : i' = i
  · subst heq
    rw [Function.update_self]
    exact hc
  · rw [Function.update_of_ne heq]
    exact h i'

omit [DecidableEq ι] in
/-- A step that moves no call. -/
theorem Sound.same {st : Cluster ι σ κ ρ ν τ γ} (h : R.Sound Held delay st) {now : τ}
    (hclock : st.clock ≤ now) {s : σ} {cache : ι → γ}
    (hcache : ∀ i, R.cache.WrittenBy (fun u k v => R.FromRead Held delay u k (some v)) (cache i)) :
    R.Sound Held delay { st with store := s, clock := now, cache := cache } where
  begun := fun c q phase hc => (h.begun c q phase hc).trans hclock
  reads := h.reads
  answers := h.answers
  cached := hcache

omit [DecidableEq ι] in
/-- A step that moves one call, to a phase that owes what such a phase owes. -/
theorem Sound.move {st : Cluster ι σ κ ρ ν τ γ} (h : R.Sound Held delay st) {now : τ}
    (hclock : st.clock ≤ now) {c : Nat} {q : Request ι κ τ} {phase : Phase ρ ν τ} {cache : ι → γ}
    (hbegun : q.begun ≤ now)
    (hreads : ∀ r row, phase = .read r row → ∃ s, Held r s ∧ row = R.load s q.key)
    (hanswers : ∀ v, phase = .answered v →
      ∃ u, q.begun ≤ u + R.cache.lifetime ∧ R.FromRead Held delay u q.key v)
    (hcache : ∀ i, R.cache.WrittenBy (fun u k v => R.FromRead Held delay u k (some v)) (cache i)) :
    R.Sound Held delay { st with
      clock := now, cache := cache, calls := st.calls.move c q phase } where
  begun := by
    intro c' q' phase' hc'
    rcases Pool.of_move hc' with ⟨-, rfl, -⟩ | ⟨-, hold⟩
    · exact hbegun
    · exact (h.begun c' q' phase' hold).trans hclock
  reads := by
    intro c' q' r row hc'
    rcases Pool.of_move hc' with ⟨-, rfl, hphase⟩ | ⟨-, hold⟩
    · exact hreads r row hphase.symm
    · exact h.reads c' q' r row hold
  answers := by
    intro c' q' v hc'
    rcases Pool.of_move hc' with ⟨-, rfl, hphase⟩ | ⟨-, hold⟩
    · exact hanswers v hphase.symm
    · exact h.answers c' q' v hold
  cached := hcache

/-- A lookup enters: it has its answer from an entry, or it has missed. -/
theorem Sound.enter {st : Cluster ι σ κ ρ ν τ γ} (h : R.Sound Held delay st) {now : τ}
    (hclock : st.clock ≤ now) {c : Nat} {i : ι} {k : κ} : R.Sound Held delay { st with
      clock := now
      cache := Function.update st.cache i (R.entered now (st.cache i) k).2
      calls := st.calls.move c ⟨i, k, now⟩ (R.entered now (st.cache i) k).1 } := by
  have hread := R.cache.writtenBy_get (h.cached i) now k
  unfold entered
  rcases hget : R.cache.get (st.cache i) now k with ⟨_ | v, cache⟩
  · rw [hget] at hread
    refine h.move hclock (le_refl now) ?_ ?_ (cached_update h.cached hread)
    · intro r row hphase
      cases hphase
    · intro v hphase
      cases hphase
  · rw [hget] at hread
    refine h.move hclock (le_refl now) ?_ ?_ (cached_update h.cached hread)
    · intro r row hphase
      cases hphase
    · intro v' hphase
      cases hphase
      exact R.cache.of_get (h.cached i) (congrArg Prod.fst hget)

omit [DecidableEq ι] in
theorem Sound.read {st : Cluster ι σ κ ρ ν τ γ} (h : R.Sound Held delay st) {now : τ}
    (hclock : st.clock ≤ now) (hheld : Held now st.store) {c : Nat} {q : Request ι κ τ}
    (hc : st.calls c = some (q, .missed)) : R.Sound Held delay { st with
      clock := now
      calls := st.calls.move c q (.read now (R.load st.store q.key)) } := by
  refine h.move hclock ((h.begun c q .missed hc).trans hclock) ?_ ?_ h.cached
  · intro r row hphase
    cases hphase
    exact ⟨st.store, hheld, rfl⟩
  · intro v hphase
    cases hphase

/-- What a lookup makes of its read is as recent as the read. -/
theorem Sound.fill [IsOrderedAddMonoid τ] {st : Cluster ι σ κ ρ ν τ γ} (h : R.Sound Held delay st)
    {now : τ} (hclock : st.clock ≤ now) {c : Nat} {q : Request ι κ τ} {r : τ} {row : ρ}
    (hc : st.calls c = some (q, .read r row)) (hprompt : now ≤ r + delay) :
    R.Sound Held delay { st with
      clock := now
      cache := Function.update st.cache q.node (R.filled now (st.cache q.node) q.key row).2
      calls := st.calls.move c q (.answered (R.filled now (st.cache q.node) q.key row).1) } := by
  have hbegun : q.begun ≤ now := (h.begun c q _ hc).trans hclock
  obtain ⟨s, hheld, rfl⟩ := h.reads c q r row hc
  have hfrom : R.FromRead Held delay now q.key (R.accept now q.key (R.load s q.key)) :=
    ⟨r, s, hheld, hprompt, rfl⟩
  unfold filled
  cases haccept : R.accept now q.key (R.load s q.key) with
  | none =>
    rw [haccept] at hfrom
    refine h.move hclock hbegun ?_ ?_ (cached_update h.cached (h.cached q.node))
    · intro r' row' hphase
      cases hphase
    · intro v hphase
      cases hphase
      exact ⟨now, le_add_of_le_of_nonneg hbegun R.cache.lifetime_nonneg, hfrom⟩
  | some v =>
    rw [haccept] at hfrom
    refine h.move hclock hbegun ?_ ?_
      (cached_update h.cached (R.cache.writtenBy_set (h.cached q.node) hfrom))
    · intro r' row' hphase
      cases hphase
    · intro v' hphase
      cases hphase
      exact ⟨now, le_add_of_le_of_nonneg hbegun R.cache.lifetime_nonneg, hfrom⟩

theorem Sound.step [IsOrderedAddMonoid τ] {st st' : Cluster ι σ κ ρ ν τ γ} {l : τ × Event ι δ κ}
    (h : R.Sound Held delay st) (hheld : Held l.1 st.store) (hprompt : Prompt delay st l)
    (hstep : R.step st l = some st') : R.Sound Held delay st' := by
  obtain ⟨now, e⟩ := l
  obtain ⟨hclock, hs⟩ := of_step hstep
  cases hs with
  | change => exact h.same hclock h.cached
  | drop => exact h.same hclock (cached_update h.cached (R.cache.writtenBy_delete (h.cached _) _))
  | clear => exact h.same hclock (cached_update h.cached (R.cache.writtenBy_clear (h.cached _)))
  | enter hc => exact h.enter hclock
  | read hc => exact h.read hclock hheld hc
  | fill hc =>
    simp only [Prompt, hc] at hprompt
    exact h.fill hclock hc hprompt

/-- In a run whose stores are held and whose lookups are prompt, every answer is recent. -/
theorem sound_of_run [IsOrderedAddMonoid τ] {run : List (τ × Event ι δ κ)} {now : τ} {s : σ}
    {st : Cluster ι σ κ ρ ν τ γ} (hrun : exec R.step (R.start now s) run = some st)
    (hheld : Meets R.step (fun st l => Held l.1 st.store) (R.start now s) run)
    (hprompt : Meets R.step (Prompt delay) (R.start now s) run) : R.Sound Held delay st :=
  exec_invariant (I := R.Sound Held delay) (fun _ _ _ hI hC hs => hI.step hC.1 hC.2 hs) run _ st
    (sound_start now s) (hheld.both hprompt) hrun

/-- `s` is what a step of the run at the instant `r` found in the store. -/
def Found (R : ReadThrough σ δ κ ρ ν τ γ) (st : Cluster ι σ κ ρ ν τ γ)
    (run : List (τ × Event ι δ κ)) (r : τ) (s : σ) : Prop :=
  ∃ before e later st', run = before ++ (r, e) :: later ∧ exec R.step st before = some st' ∧
    st'.store = s

/-- A lookup answers what was admitted, no more than a lifetime before it began, from a read of the
store no more than the delay before that. -/
theorem answer_recent [IsOrderedAddMonoid τ] {run : List (τ × Event ι δ κ)} {now : τ} {s : σ}
    {st : Cluster ι σ κ ρ ν τ γ} (hrun : exec R.step (R.start now s) run = some st)
    (hprompt : Meets R.step (Prompt delay) (R.start now s) run) {c : Nat} {q : Request ι κ τ}
    {v : Option ν} (hc : st.calls c = some (q, .answered v)) :
    ∃ u, q.begun ≤ u + R.cache.lifetime ∧
      R.FromRead (R.Found (R.start now s : Cluster ι σ κ ρ ν τ γ) run) delay u q.key v := by
  refine (sound_of_run hrun ?_ hprompt).answers c q v hc
  refine Meets.reached.mono fun st' l h => ?_
  obtain ⟨before, later, heq, hbefore⟩ := h
  exact ⟨before, l.2, later, st', heq, hbefore, rfl⟩

theorem settled_of_run {later : List (τ × Event ι δ κ)} {st : Cluster ι σ κ ρ ν τ γ}
    {Settled : σ → Prop} (hsettled : Settled st.store)
    (hkeeps : ∀ l ∈ later, ∀ d, l.2 = .change d → ∀ s, Settled s → Settled (R.change l.1 s d)) :
    Meets R.step (fun st _ => Settled st.store) st later := by
  refine Meets.of_invariant (I := fun st : Cluster ι σ κ ρ ν τ γ => Settled st.store) ?_ hsettled
    (.of_forall hkeeps)
  rintro st₁ ⟨now, e⟩ st₂ hI hkeep hstep
  obtain ⟨-, hs⟩ := of_step hstep
  cases hs with
  | change => exact hkeep _ rfl st₁.store hI
  | _ => exact hI

/-- Once the store is settled and every later change leaves it so, a lookup that begins more than a
delay and a lifetime later answers what is admitted of a settled store. -/
theorem answer_settled [IsOrderedAddMonoid τ] {before later : List (τ × Event ι δ κ)} {now : τ}
    {s : σ} {st st' : Cluster ι σ κ ρ ν τ γ} (Settled : σ → Prop)
    (hbefore : exec R.step (R.start now s) before = some st)
    (hlater : exec R.step st later = some st') (hsettled : Settled st.store)
    (hkeeps : ∀ l ∈ later, ∀ d, l.2 = .change d → ∀ s, Settled s → Settled (R.change l.1 s d))
    (hprompt : Meets R.step (Prompt delay) (R.start now s) (before ++ later)) {c : Nat}
    {q : Request ι κ τ} {v : Option ν} (hc : st'.calls c = some (q, .answered v))
    (hbegun : st.clock + delay + R.cache.lifetime < q.begun) :
    ∃ u s, Settled s ∧ q.begun ≤ u + R.cache.lifetime ∧ R.accept u q.key (R.load s q.key) = v := by
  have hrun := exec_append.2 ⟨st, hbefore, hlater⟩
  -- a read is settled, or no later than the moment
  have hheld : Meets R.step (fun st₁ l => l.1 ≤ st.clock ∨ Settled st₁.store) (R.start now s)
      (before ++ later) := by
    refine Meets.append ?_ ?_
    · exact (Meets.of_forall (clock_of_run hbefore).2).mono fun _ _ h => .inl h
    · intro st₁ h₁
      rw [hbefore] at h₁
      cases h₁
      exact (settled_of_run hsettled hkeeps).mono fun _ _ h => .inr h
  have hsound : R.Sound (fun r s => r ≤ st.clock ∨ Settled s) delay st' :=
    sound_of_run hrun hheld hprompt
  obtain ⟨u, hu, r, s', hread, hr, haccept⟩ := hsound.answers c q v hc
  rcases hread with hearly | hlate
  · have hlast : q.begun ≤ st.clock + delay + R.cache.lifetime :=
      hu.trans (add_le_add (hr.trans (add_le_add hearly le_rfl)) le_rfl)
    exact absurd hbegun (not_lt.2 hlast)
  · exact ⟨u, s', hlate, hu, haccept⟩

end ReadThrough
end Lib
end NolagCore
