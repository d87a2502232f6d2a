import NolagCore.Common.Writes
import NolagCore.Facade.Frame
import NolagCore.Facade.Origin
import NolagCore.SigningKey.RevocationEffect

/-!
# SigningKey.Cluster

Verification of client tokens by many instances over one database. Each has a kid cache of its own,
and the revoking call drops the key from one of them only; the others serve their entry until it
expires. A key that is disabled or deleted is refused by every instance for verifications that begin
more than a minute, and the time a lookup takes from its read to its write of the cache, after the
transaction has committed.
-/

namespace NolagCore
namespace SigningKeys

open Lib Facade SigningKeyFacade
open ProjectConfig (Host)

/-- `_resolveSigningKey` beside the operations of the facades. -/
def kidLookup (lib : TokenLibrary) (host : Host) : ReadThrough Database Operation String
    (Option SigningKey) ResolvedSigningKey Int (TtlCache ResolvedSigningKey) where
  cache := TtlCache.expiring 60000 TtlCache.minute_nonneg id Function.injective_id
  change now db op := op.apply host now db
  load db kid := findByKeyId db.store kid
  accept _ _ row := admitSigningKey lib host.config row

/-- With nothing beside it, the lookup is the function. -/
theorem lookup_eq_resolve (lib : TokenLibrary) (host : Host) (db : Database) (now : Int)
    (kidCache : TtlCache ResolvedSigningKey) (kid : String) :
    (kidLookup lib host).lookup db now kidCache kid =
      resolveSigningKey lib host.config db.store now kidCache kid := by
  unfold ReadThrough.lookup ReadThrough.filled resolveSigningKey
  rcases hget : kidCache.get now kid with ⟨_ | cached, cache⟩
  · simp only [kidLookup, TtlCache.expiring, id, hget]
    split
    · rename_i haccept
      rw [haccept]
    · rename_i haccept
      rw [haccept]
  · simp only [kidLookup, TtlCache.expiring, id, hget]

/-- A verification looks its kid up, and checks the claims under what it has found. -/
theorem verify_eq_lookup (lib : TokenLibrary) (host : Host) (db : Database) (now : Int)
    (kidCache : TtlCache ResolvedSigningKey) {token kid : String}
    (hkid : clientTokenKid lib token = .ok (some (.text kid))) :
    verifyClientToken lib host.config db.store now kidCache token =
      let (resolved, cache) := (kidLookup lib host).lookup db now kidCache kid
      (.ok (resolved.bind (acceptClaims lib now token)), cache) := by
  unfold verifyClientToken
  rw [hkid, lookup_eq_resolve]

/-! ## Keys that are disabled or deleted -/

/-- The key with this key id, deleted or not active. -/
structure Refused (signingKeyId : Uuid) (kid : String) (key : SigningKey) : Prop where
  signingKeyId : key.signingKeyId = signingKeyId
  kid : key.keyId = kid
  off : live key = false ∨ key.status ≠ .active

/-- The key is stored, deleted or not active. -/
def Spent (signingKeyId : Uuid) (kid : String) (s : Store) : Prop :=
  ∃ key ∈ s.signingKeys, Refused signingKeyId kid key

/-- The operation neither makes the key active nor removes a project for good. -/
def LeavesSpent (signingKeyId : Uuid) (op : Operation) : Prop :=
  (∀ projectId, op ≠ .purgeProject projectId) ∧
    ∀ projectId data, op = .updateSigningKey signingKeyId projectId data → data.status ≠ some .active

theorem revoked_of_spent {db : Database} {signingKeyId : Uuid} {kid : String}
    (h : Spent signingKeyId kid db.store) : Revoked kid db.store := by
  obtain ⟨key, hkey, hrefused⟩ := h
  intro row hfind hactive
  obtain ⟨hrow, hlive, hkid⟩ := of_findByKeyId hfind
  rw [db.valid.signingKeyId.eq_of_key hrow hkey (hkid.trans hrefused.kid.symm)] at hlive hactive
  rcases hrefused.off with hdead | hnot
  · exact Bool.noConfusion (hdead.symm.trans hlive)
  · exact hnot hactive

section

variable {host : Host} {now : Int} {db db' : Database} {op : Operation} {signingKeyId : Uuid}
  {kid : String}

theorem create_leavesSpent {newId projectId : Uuid} {random : SigningKeyBytes}
    {data : SigningKeyCreateDto} (hspent : Spent signingKeyId kid db.store) :
    Leaves (createSigningKey host.crypto host.cipher host.config db newId random projectId data)
      (Spent signingKeyId kid) := by
  unfold createSigningKey
  dsimp only
  split
  · exact .error
  · exact .commit (exists_append hspent)

/-- A patch loads a live row. It is the refused one only where that is not active, and leaves it so. -/
theorem update_leavesSpent {updatedId projectId : Uuid} {data : SigningKeyPatchDto}
    (hop : LeavesSpent signingKeyId (.updateSigningKey updatedId projectId data))
    (hspent : Spent signingKeyId kid db.store) :
    Leaves (updateSigningKey db updatedId projectId data) (Spent signingKeyId kid) := by
  unfold updateSigningKey
  split
  · exact .error
  · unfold patchSigningKey
    split
    · exact .error
    · rename_i existing hfind
      obtain ⟨hrow, hlive, hp⟩ := of_findOne hfind
      simp only [Bool.and_eq_true, decide_eq_true_eq] at hp
      refine .commit (exists_saveRow db.valid.pkSigningKey hrow rfl (fun h => ?_) hspent)
      refine ⟨h.signingKeyId, h.kid, .inr ?_⟩
      have hnot : existing.status ≠ .active :=
        h.off.resolve_left fun hdead => Bool.noConfusion (hdead.symm.trans hlive)
      cases hdata : data.status with
      | none => exact hnot
      | some status =>
        have hactive := hop.2 projectId data (by rw [← hp.1, h.signingKeyId])
        rw [hdata] at hactive
        exact fun heq => hactive (congrArg some heq)

theorem delete_leavesSpent {deletedId projectId : Uuid}
    (hspent : Spent signingKeyId kid db.store) :
    Leaves (deleteSigningKey db now deletedId projectId) (Spent signingKeyId kid) := by
  unfold deleteSigningKey
  split
  · exact .error
  · exact .commit (exists_updateRows (fun key h => ⟨h.signingKeyId, h.kid, .inl rfl⟩) hspent)

theorem spent_step (h : op.run host now db = .ok db') (hop : LeavesSpent signingKeyId op)
    (hspent : Spent signingKeyId kid db.store) : Spent signingKeyId kid db'.store := by
  cases hwrites : op.writes .signingKey with
  | false =>
    have hsame : db'.store.signingKeys = db.store.signingKeys := run_only h .signingKey hwrites
    unfold Spent
    rwa [hsame]
  | true =>
    cases op with
    | createSigningKey newId random projectId data => exact (create_leavesSpent hspent).committed h
    | updateSigningKey updatedId projectId data =>
      exact (update_leavesSpent hop hspent).committed h
    | deleteSigningKey deletedId projectId => exact (delete_leavesSpent hspent).committed h
    | importProject draws doc =>
      obtain ⟨credentials, him⟩ := import_done h
      obtain ⟨d, _, hs⟩ := him.rows
      rw [hs]
      exact exists_append hspent
    | purgeProject projectId => exact absurd rfl (hop.1 projectId)
    | _ => cases hwrites

theorem spent_apply (hop : LeavesSpent signingKeyId op) (hspent : Spent signingKeyId kid db.store) :
    Spent signingKeyId kid (op.apply host now db).store := by
  unfold Operation.apply
  split
  · rename_i db' hrun
    exact spent_step hrun hop hspent
  · exact hspent

end

/-- A key is disabled or deleted, and not made active again: a lookup of it that begins, on any
instance, more than a delay and a minute later finds nothing. -/
theorem spent_key_refused {ι : Type} [DecidableEq ι] (lib : TokenLibrary) (host : Host)
    (db : Database) (now delay : Int) (signingKeyId : Uuid) (kid : String)
    (before later : List (Int × ReadThrough.Event ι Operation String))
    (st st' : ReadThrough.Cluster ι Database String (Option SigningKey) ResolvedSigningKey Int
      (TtlCache ResolvedSigningKey))
    (hbefore : exec (kidLookup lib host).step ((kidLookup lib host).start now db) before = some st)
    (hlater : exec (kidLookup lib host).step st later = some st')
    (hspent : Spent signingKeyId kid st.store.store)
    (hkept : ∀ l ∈ later, ∀ op, l.2 = .change op → LeavesSpent signingKeyId op)
    (hprompt : Meets (kidLookup lib host).step (ReadThrough.Prompt delay)
      ((kidLookup lib host).start now db) (before ++ later)) :
    ∀ c q v, st'.calls c = some (q, .answered v) → q.key = kid →
      st.clock + delay + 60000 < q.begun → v = none := by
  rintro c q v hc rfl hbegun
  obtain ⟨u, db', hdb, -, haccept⟩ :=
    ReadThrough.answer_settled (fun db => Spent signingKeyId q.key db.store) hbefore hlater hspent
      (fun l hl op heq _ h => spent_apply (hkept l hl op heq) h) hprompt hc hbegun
  rw [← haccept]
  exact admit_of_revoked (revoked_of_spent hdb)

/-! ## A key cached by one instance and deleted on another -/

def sampleKeyHost : Host := { ProjectConfig.sampleHost with config := sampleConfig }

def servedThenDeleted : List (Int × ReadThrough.Event Bool Operation String) :=
  [(0, .enter 0 false "sk_live_000000000000"), (1, .read 0), (2, .fill 0),
    (10, .change (.deleteSigningKey (.of "k") (.of "p"))), (10, .drop true "sk_live_000000000000")]

def askedAgain : List (Int × ReadThrough.Event Bool Operation String) :=
  [(60002, .enter 1 false "sk_live_000000000000"), (60016, .enter 2 false "sk_live_000000000000"),
    (60017, .read 2), (60018, .fill 2)]

/-- The key of the sample is cached by one instance and deleted on another. The first serves its entry
for a minute, and then refuses the key as well. -/
theorem spent_key_refused_deleted : ∃ st st',
    exec (kidLookup sampleLibrary sampleKeyHost).step
      ((kidLookup sampleLibrary sampleKeyHost).start 0 sampleKeys) servedThenDeleted = some st ∧
    exec (kidLookup sampleLibrary sampleKeyHost).step st askedAgain = some st' ∧
    ∀ c q v, st'.calls c = some (q, .answered v) → q.key = "sk_live_000000000000" →
      st.clock + 5 + 60000 < q.begun → v = none := by
  refine ⟨_, _, rfl, rfl, spent_key_refused sampleLibrary sampleKeyHost sampleKeys 0 5 (.of "k")
    "sk_live_000000000000" servedThenDeleted askedAgain _ _ rfl rfl ?_ ?_ ?_⟩
  · exact ⟨{ SigningKeyFacade.sampleKey with deletedAt := some 10 }, List.mem_singleton_self _, rfl,
      rfl, .inl rfl⟩
  · intro l hl op heq
    simp only [askedAgain, List.mem_cons, List.not_mem_nil, or_false] at hl
    rcases hl with rfl | rfl | rfl | rfl <;> cases heq
  · decide +kernel

end SigningKeys
end NolagCore
