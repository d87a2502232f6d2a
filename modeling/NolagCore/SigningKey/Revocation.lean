import NolagCore.Lib.Calls
import NolagCore.Lib.Transition
import NolagCore.SigningKey.Facade

/-!
# SigningKey.Revocation

Disabling or deleting a signing key beside the verifications of client tokens on the same instance,
statement by statement. The revoking transaction drops the key from the kid cache before it commits.
A verification reads the row, decrypts its secret and fills the cache in separate steps, so one that
read the row before the commit can fill the cache after the drop; the entry then serves every
verification until it expires.

The revoking call is the only writer of the row. Both its reads see the row as its lock holds it, and
no statement of a verification waits for that lock.
-/

namespace NolagCore
namespace SigningKeyFacade

open Lib SigningKeys

/-- A revoking call: an update to `disabled`, which may rename the key too, or a delete. -/
inductive Revocation where
  | disable (name : Option String)
  | delete (now : Int)

/-- The transaction of the call, and the row whose key id it drops from the cache. -/
def Revocation.apply (request : Revocation) (db : Database) (signingKeyId projectId : Uuid) :
    Outcome SigningKey :=
  match request with
  | .disable name => updateSigningKey db signingKeyId projectId { name, status := some .disabled }
  | .delete now => deleteSigningKey db now signingKeyId projectId

inductive RevokePhase where
  | idle
  /-- `updateLock` has found the row. -/
  | locked
  | loaded
  /-- The row is written, in this transaction only. -/
  | written (keyId : String) (db : Database)
  | invalidated (db : Database)
  | returned (ok : Bool)
deriving DecidableEq

/-- The cache entry has been dropped. -/
def RevokePhase.dropped : RevokePhase → Bool
  | .invalidated _ => true
  | .returned ok => ok
  | _ => false

inductive VerifyPhase where
  /-- The cache had no entry. -/
  | missed (kid : String)
  | read (kid : String) (row : Option SigningKey)
  | resolved (key : ResolvedSigningKey)
  | returned (result : Except Thrown (Option VerifiedClientToken))

structure Instance where
  db : Database
  revoke : RevokePhase
  kidCache : TtlCache ResolvedSigningKey
  /-- The verifications, by the token each was given. -/
  calls : Pool String VerifyPhase

def Instance.init (db : Database) (kidCache : TtlCache ResolvedSigningKey) : Instance where
  db := db
  revoke := .idle
  kidCache := kidCache
  calls := Pool.empty

inductive Statement where
  | lock
  | load
  | write
  | invalidate
  | commit
  | verify (c : Nat) (now : Int) (token : String)
  | select (c : Nat)
  | fill (c : Nat) (now : Int)
  | accept (c : Nat) (now : Int)

section

variable (lib : TokenLibrary) (config : CoreConfig)

/-- A verification up to its first wait: the shape checks and the cache lookup. -/
def entered (now : Int) (kidCache : TtlCache ResolvedSigningKey) (token : String) :
    VerifyPhase × TtlCache ResolvedSigningKey :=
  match clientTokenKid lib token with
  | .error e => (.returned (.error e), kidCache)
  | .ok (some (.text kid)) =>
    match kidCache.get now kid with
    | (some cached, cache) => (.resolved cached, cache)
    | (none, cache) => (.missed kid, cache)
  | .ok _ => (.returned (.ok none), kidCache)

/-- A verification after its read, up to the signature check. -/
def filled (now : Int) (kidCache : TtlCache ResolvedSigningKey) (kid : String)
    (row : Option SigningKey) : VerifyPhase × TtlCache ResolvedSigningKey :=
  match admitSigningKey lib config row with
  | none => (.returned (.ok none), kidCache)
  | some resolved => (.resolved resolved, kidCache.set now kid resolved)

variable (request : Revocation) (signingKeyId projectId : Uuid)

def step (st : Instance) : Statement → Option Instance
  | .lock =>
    match st.revoke with
    | .idle => match findByIdAndProject st.db.store signingKeyId projectId with
      | none => some { st with revoke := .returned false }
      | some _ => some { st with revoke := .locked }
    | _ => none
  | .load =>
    match st.revoke with
    | .locked => some { st with revoke := .loaded }
    | _ => none
  | .write =>
    match st.revoke with
    | .loaded => match request.apply st.db signingKeyId projectId with
      | .error _ => some { st with revoke := .returned false }
      | .ok (row, db) => some { st with revoke := .written row.keyId db }
    | _ => none
  | .invalidate =>
    match st.revoke with
    | .written keyId db =>
      some { st with revoke := .invalidated db, kidCache := st.kidCache.delete keyId }
    | _ => none
  | .commit =>
    match st.revoke with
    | .invalidated db => some { st with db := db, revoke := .returned true }
    | _ => none
  | .verify c now token =>
    match st.calls c with
    | some _ => none
    | none =>
      let (phase, kidCache) := entered lib now st.kidCache token
      some { st with kidCache := kidCache, calls := st.calls.move c token phase }
  | .select c =>
    match st.calls c with
    | some (token, .missed kid) =>
      let phase : VerifyPhase := .read kid (findByKeyId st.db.store kid)
      some { st with calls := st.calls.move c token phase }
    | _ => none
  | .fill c now =>
    match st.calls c with
    | some (token, .read kid row) =>
      let (phase, kidCache) := filled lib config now st.kidCache kid row
      some { st with kidCache := kidCache, calls := st.calls.move c token phase }
    | _ => none
  | .accept c now =>
    match st.calls c with
    | some (token, .resolved key) =>
      let phase : VerifyPhase := .returned (.ok (acceptClaims lib now token key))
      some { st with calls := st.calls.move c token phase }
    | _ => none

/-- What a step is, one constructor a branch. -/
inductive Steps (st : Instance) : Statement → Instance → Prop
  | missing (hr : st.revoke = .idle) : Steps st .lock { st with revoke := .returned false }
  | lock (hr : st.revoke = .idle) : Steps st .lock { st with revoke := .locked }
  | load (hr : st.revoke = .locked) : Steps st .load { st with revoke := .loaded }
  | refused (hr : st.revoke = .loaded) : Steps st .write { st with revoke := .returned false }
  | write {row : SigningKey} {db : Database} (hr : st.revoke = .loaded)
    (happly : request.apply st.db signingKeyId projectId = .ok (row, db)) :
    Steps st .write { st with revoke := .written row.keyId db }
  | invalidate {keyId : String} {db : Database} (hr : st.revoke = .written keyId db) :
    Steps st .invalidate { st with revoke := .invalidated db, kidCache := st.kidCache.delete keyId }
  | commit {db : Database} (hr : st.revoke = .invalidated db) :
    Steps st .commit { st with db := db, revoke := .returned true }
  | verify {c : Nat} {now : Int} {token : String} (hc : st.calls c = none) :
    Steps st (.verify c now token) { st with
      kidCache := (entered lib now st.kidCache token).2
      calls := st.calls.move c token (entered lib now st.kidCache token).1 }
  | select {c : Nat} {token kid : String} (hc : st.calls c = some (token, .missed kid)) :
    Steps st (.select c)
      { st with calls := st.calls.move c token <| .read kid (findByKeyId st.db.store kid) }
  | fill {c : Nat} {now : Int} {token kid : String} {row : Option SigningKey}
    (hc : st.calls c = some (token, .read kid row)) :
    Steps st (.fill c now) { st with
      kidCache := (filled lib config now st.kidCache kid row).2
      calls := st.calls.move c token (filled lib config now st.kidCache kid row).1 }
  | accept {c : Nat} {now : Int} {token : String} {key : ResolvedSigningKey}
    (hc : st.calls c = some (token, .resolved key)) :
    Steps st (.accept c now)
      { st with calls := st.calls.move c token <| .returned (.ok (acceptClaims lib now token key)) }

end

variable {lib : TokenLibrary} {config : CoreConfig} {request : Revocation}
  {signingKeyId projectId : Uuid}

theorem of_step {st st' : Instance} {l : Statement}
    (h : step lib config request signingKeyId projectId st l = some st') :
    Steps lib config request signingKeyId projectId st l st' := by
  cases l with
  | lock =>
    simp only [step] at h
    split at h
    · rename_i hr
      split at h
      · cases h
        exact .missing hr
      · cases h
        exact .lock hr
    · cases h
  | load =>
    simp only [step] at h
    split at h
    · rename_i hr
      cases h
      exact .load hr
    · cases h
  | write =>
    simp only [step] at h
    split at h
    · rename_i hr
      split at h
      · cases h
        exact .refused hr
      · rename_i happly
        cases h
        exact .write hr happly
    · cases h
  | invalidate =>
    simp only [step] at h
    split at h
    · rename_i hr
      cases h
      exact .invalidate hr
    · cases h
  | commit =>
    simp only [step] at h
    split at h
    · rename_i hr
      cases h
      exact .commit hr
    · cases h
  | verify c now token =>
    simp only [step] at h
    split at h
    · cases h
    · rename_i hc
      cases h
      exact .verify hc
  | select c =>
    simp only [step] at h
    split at h
    · rename_i hc
      cases h
      exact .select hc
    · cases h
  | fill c now =>
    simp only [step] at h
    split at h
    · rename_i hc
      cases h
      exact .fill hc
    · cases h
  | accept c now =>
    simp only [step] at h
    split at h
    · rename_i hc
      cases h
      exact .accept hc
    · cases h

/-! ## One verification on its own -/

/-- With nothing beside it, a verification goes through the steps to the result and the cache of
`verifyClientToken`. -/
theorem verify_alone (st : Instance) {c : Nat} (hc : st.calls c = none) (now : Int)
    (token : String) : ∃ run st',
    exec (step lib config request signingKeyId projectId) st run = some st' ∧
    st'.db = st.db ∧ st'.revoke = st.revoke ∧
    st'.kidCache = (verifyClientToken lib config st.db.store now st.kidCache token).2 ∧
    st'.calls c = some (token,
      .returned (verifyClientToken lib config st.db.store now st.kidCache token).1) := by
  unfold verifyClientToken
  cases hkid : clientTokenKid lib token with
  | error e =>
    refine ⟨[.verify c now token], ?_⟩
    simp [exec, step, hc, entered, hkid]
  | ok kid =>
    rcases kid with _ | ⟨kid⟩ | q | coerced
    · refine ⟨[.verify c now token], ?_⟩
      simp [exec, step, hc, entered, hkid]
    · unfold resolveSigningKey
      rcases hget : st.kidCache.get now kid with ⟨_ | cached, cache⟩
      · cases hadmits : admitSigningKey lib config (findByKeyId st.db.store kid) with
        | none =>
          refine ⟨[.verify c now token, .select c, .fill c now], ?_⟩
          simp [exec, step, hc, entered, hkid, hget, filled, hadmits]
        | some resolved =>
          refine ⟨[.verify c now token, .select c, .fill c now, .accept c now], ?_⟩
          simp [exec, step, hc, entered, hkid, hget, filled, hadmits]
      · refine ⟨[.verify c now token, .accept c now], ?_⟩
        simp [exec, step, hc, entered, hkid, hget]
    · refine ⟨[.verify c now token], ?_⟩
      simp [exec, step, hc, entered, hkid]
    · refine ⟨[.verify c now token], ?_⟩
      simp [exec, step, hc, entered, hkid]

end SigningKeyFacade
end NolagCore
