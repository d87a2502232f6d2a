import NolagCore.ActorToken.History
import NolagCore.Common.Writes
import NolagCore.Facade.Effect

/-!
# ActorToken.Cluster

Authentication of opaque tokens by many instances over one database. No operation on an actor drops
an entry of any cache, its own instance's included: an actor that is disabled or deleted goes on
authenticating from what was cached before. A minute after the change, and the time a lookup takes
from its read to its write of the cache, no instance accepts a credential of it any more.
-/

namespace NolagCore
namespace ActorTokens

open Lib Facade
open ProjectConfig (Host)

/-- A string of two parts. Any other is refused before the cache is asked. -/
structure Presentable where
  accessToken : String
  keyId : String
  secret : String
  split : splitCredential accessToken = some (keyId, secret)

theorem accessToken_injective : Function.Injective Presentable.accessToken := by
  intro p p' h
  obtain ⟨accessToken, keyId, secret, hsplit⟩ := p
  obtain ⟨accessToken', keyId', secret', hsplit'⟩ := p'
  cases h
  rw [hsplit] at hsplit'
  cases hsplit'
  rfl

/-- What `authenticateActorToken` accepts of the row it has read. -/
def admitActorToken (crypto : Crypto) (now : Int) (p : Presentable) (row : Option ActorToken) :
    Option ActorToken :=
  row.filter fun a => verifySecretHash crypto a.secretHash p.secret && isUsable now a

/-- `authenticateActorToken` beside the operations of the facades. -/
def authLookup (host : Host) : ReadThrough Database Operation Presentable (Option ActorToken)
    ActorToken Int (TtlCache ActorToken) where
  cache := TtlCache.expiring 60000 TtlCache.minute_nonneg Presentable.accessToken
    accessToken_injective
  change now db op := op.apply host now db
  load db p := findByKeyId db.store p.keyId
  accept now p row := admitActorToken host.crypto now p row

/-- With nothing beside it, the lookup is the function. -/
theorem lookup_eq_authenticate (host : Host) (db : Database) (now : Int)
    (authCache : TtlCache ActorToken) (p : Presentable) :
    (authLookup host).lookup db now authCache p =
      authenticateActorToken host.crypto db.store now authCache p.accessToken := by
  unfold authenticateActorToken ReadThrough.lookup ReadThrough.filled
  rw [p.split]
  rcases hget : authCache.get now p.accessToken with ⟨_ | cached, cache⟩
  · simp only [authLookup, TtlCache.expiring, admitActorToken, hget]
    cases hfind : findByKeyId db.store p.keyId with
    | none => rfl
    | some a =>
      by_cases hvalid : verifySecretHash host.crypto a.secretHash p.secret = true
      · by_cases husable : isUsable now a = true
        · simp [Option.filter_some, hvalid, husable]
        · simp [Option.filter_some, hvalid, husable]
      · simp [Option.filter_some, hvalid]
  · simp only [authLookup, TtlCache.expiring, hget]

/-! ## Actors that are disabled or deleted -/

/-- The actor with this key id, deleted or not active. -/
structure Refused (actorTokenId : Uuid) (keyId : String) (a : ActorToken) : Prop where
  actorTokenId : a.actorTokenId = actorTokenId
  keyId : a.keyId = keyId
  off : live a = false ∨ a.status ≠ .active

/-- The actor is stored, deleted or not active. -/
def Spent (actorTokenId : Uuid) (keyId : String) (s : Store) : Prop :=
  ∃ a ∈ s.actorTokens, Refused actorTokenId keyId a

/-- The operation neither makes the actor active nor removes a project for good. -/
def LeavesSpent (actorTokenId : Uuid) (op : Operation) : Prop :=
  (∀ projectId, op ≠ .purgeProject projectId) ∧
    ∀ projectId data, op = .updateActorToken actorTokenId projectId data → data.status ≠ some .active

theorem status_of_assign {legacy : String → Option Int} {data : ActorTokenFacade.ActorTokenPatchDto}
    {existing entity : ActorToken}
    (h : ActorTokenFacade.assign legacy data existing = .ok entity) :
    entity.actorTokenId = existing.actorTokenId ∧ entity.keyId = existing.keyId ∧
      entity.status = patch data.status existing.status := by
  unfold ActorTokenFacade.assign at h
  split at h
  · cases h
  · cases h
    exact ⟨rfl, rfl, rfl⟩

section

variable {host : Host} {now : Int} {db db' : Database} {op : Operation} {actorTokenId : Uuid}
  {keyId : String}

/-- A patch loads a live row. It is the refused one only where that is not active, and leaves it so. -/
theorem refused_of_assign {data : ActorTokenFacade.ActorTokenPatchDto} {existing entity : ActorToken}
    {projectId updatedId : Uuid} (hop : LeavesSpent actorTokenId
      (.updateActorToken updatedId projectId data)) (hid : existing.actorTokenId = updatedId)
    (hlive : live existing = true)
    (hassign : ActorTokenFacade.assign host.legacy data existing = .ok entity)
    (h : Refused actorTokenId keyId existing) : Refused actorTokenId keyId entity := by
  obtain ⟨hid', hkey', hstatus⟩ := status_of_assign hassign
  refine ⟨hid'.trans h.actorTokenId, hkey'.trans h.keyId, .inr ?_⟩
  have hnot : existing.status ≠ .active :=
    h.off.resolve_left fun hdead => Bool.noConfusion (hdead.symm.trans hlive)
  rw [hstatus]
  cases hdata : data.status with
  | none => exact hnot
  | some status =>
    have hactive := hop.2 projectId data (by rw [← hid, h.actorTokenId])
    rw [hdata] at hactive
    exact fun heq => hactive (congrArg some heq)

theorem spent_step (h : op.run host now db = .ok db') (hop : LeavesSpent actorTokenId op)
    (hspent : Spent actorTokenId keyId db.store) : Spent actorTokenId keyId db'.store := by
  unfold Spent
  cases run_effect h with
  | same hsame => rwa [hsame.2]
  | projectSaved _ _ _ _ hactors => rwa [hactors]
  | projectDeleted _ hactors => rwa [hactors]
  | created _ _ _ hold =>
    obtain ⟨a, ha, hrefused⟩ := hspent
    exact ⟨a, hold a ha, hrefused⟩
  | actorCreated _ _ hactors =>
    rw [hactors]
    exact exists_append hspent
  | actorUpdated hf _ hassign _ hactors =>
    obtain ⟨hrow, hlive, hp⟩ := of_findOne hf
    simp only [Bool.and_eq_true, decide_eq_true_eq] at hp
    rw [hactors]
    exact exists_saveRow db.valid.pkActor hrow (status_of_assign hassign).1
      (refused_of_assign hop hp.1 hlive hassign) hspent
  | actorDeleted _ hactors =>
    rw [hactors]
    exact exists_updateRows (fun a ha => ⟨ha.actorTokenId, ha.keyId, .inl rfl⟩) hspent
  | purged => exact absurd rfl (hop.1 _)

theorem spent_apply (hop : LeavesSpent actorTokenId op) (hspent : Spent actorTokenId keyId db.store) :
    Spent actorTokenId keyId (op.apply host now db).store := by
  unfold Operation.apply
  split
  · rename_i db' hrun
    exact spent_step hrun hop hspent
  · exact hspent

theorem admit_of_spent {p : Presentable} (hspent : Spent actorTokenId p.keyId db.store) (u : Int) :
    admitActorToken host.crypto u p (findByKeyId db.store p.keyId) = none := by
  obtain ⟨a, ha, -, hkey, hdead⟩ := hspent
  unfold admitActorToken
  refine Option.filter_eq_none_iff.2 fun row hfind hok => ?_
  obtain ⟨hrow, hlive, hrowKey⟩ := of_findOne hfind
  rw [db.valid.actorKeyId.eq_of_key hrow ha ((of_decide_eq_true hrowKey).trans hkey.symm)]
    at hlive hok
  rw [Bool.and_eq_true] at hok
  rcases hdead with hd | hnot
  · exact Bool.noConfusion (hd.symm.trans hlive)
  · unfold isUsable at hok
    simp only [Bool.and_eq_true, decide_eq_true_eq] at hok
    exact hnot hok.2.1

end

/-- An actor is disabled or deleted, and not made active again: an authentication that begins, on any
instance and with any credential of it, more than a delay and a minute later is refused. -/
theorem spent_actor_refused {ι : Type} [DecidableEq ι] (host : Host) (db : Database)
    (now delay : Int) (actorTokenId : Uuid) (keyId : String)
    (before later : List (Int × ReadThrough.Event ι Operation Presentable))
    (st st' : ReadThrough.Cluster ι Database Presentable (Option ActorToken) ActorToken Int
      (TtlCache ActorToken))
    (hbefore : exec (authLookup host).step ((authLookup host).start now db) before = some st)
    (hlater : exec (authLookup host).step st later = some st')
    (hspent : Spent actorTokenId keyId st.store.store)
    (hkept : ∀ l ∈ later, ∀ op, l.2 = .change op → LeavesSpent actorTokenId op)
    (hprompt : Meets (authLookup host).step (ReadThrough.Prompt delay)
      ((authLookup host).start now db) (before ++ later)) :
    ∀ c q v, st'.calls c = some (q, .answered v) → q.key.keyId = keyId →
      st.clock + delay + 60000 < q.begun → v = none := by
  rintro c q v hc rfl hbegun
  obtain ⟨u, db', hdb, -, haccept⟩ :=
    ReadThrough.answer_settled (fun db => Spent actorTokenId q.key.keyId db.store) hbefore hlater hspent
      (fun l hl op heq _ h => spent_apply (hkept l hl op heq) h) hprompt hc hbegun
  rw [← haccept]
  exact admit_of_spent hdb u

/-! ## An actor cached by one instance and disabled on another -/

/-- Alice and her project. -/
def mintedActorDb : Database where
  store := { projects := [{ projectId := .of "p1", name := "Project" }], actorTokens := [mintedActor] }
  valid := by decide

def mintedCredential : Presentable where
  accessToken := minted.credential
  keyId := minted.keyId
  secret := minted.secret
  split := by decide +kernel

def sampleActorHost : Host := { ProjectConfig.sampleHost with crypto := sampleCrypto }

def servedThenDisabled : List (Int × ReadThrough.Event Bool Operation Presentable) :=
  [(0, .enter 0 false mintedCredential), (1, .read 0), (2, .fill 0),
    (10, .change (.updateActorToken (.of "t1") (.of "p1") { status := some .disabled }))]

def askedLater : List (Int × ReadThrough.Event Bool Operation Presentable) :=
  [(60002, .enter 1 false mintedCredential), (60016, .enter 2 false mintedCredential),
    (60017, .read 2), (60018, .fill 2)]

/-- Alice is cached and then disabled. She goes on authenticating to the end of her minute, and not
after it. -/
theorem spent_actor_refused_disabled : ∃ st st',
    exec (authLookup sampleActorHost).step ((authLookup sampleActorHost).start 0 mintedActorDb)
      servedThenDisabled = some st ∧
    exec (authLookup sampleActorHost).step st askedLater = some st' ∧
    ∀ c q v, st'.calls c = some (q, .answered v) → q.key.keyId = minted.keyId →
      st.clock + 5 + 60000 < q.begun → v = none := by
  refine ⟨_, _, rfl, rfl, spent_actor_refused sampleActorHost mintedActorDb 0 5 (.of "t1")
    minted.keyId servedThenDisabled askedLater _ _ rfl rfl ?_ ?_ ?_⟩
  · exact ⟨{ mintedActor with status := .disabled }, List.mem_singleton_self _, rfl, rfl,
      .inr (by decide)⟩
  · intro l hl op heq
    simp only [askedLater, List.mem_cons, List.not_mem_nil, or_false] at hl
    rcases hl with rfl | rfl | rfl | rfl <;> cases heq
  · decide +kernel

end ActorTokens
end NolagCore
