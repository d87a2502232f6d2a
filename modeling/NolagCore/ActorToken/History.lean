import NolagCore.ActorToken.Service

/-!
# ActorToken.History

The authentication cache over a whole history of calls. Every cached row was read, found usable and
compared with the very credential it is cached under, no longer ago than the lifetime of an entry;
the tables may change in any way from one call to the next.
-/

namespace NolagCore

open Lib

/-- A credential is its two parts around one dot. -/
theorem of_splitCredential {credential keyId secret : String}
    (h : splitCredential credential = some (keyId, secret)) :
    credential = keyId ++ "." ++ secret ∧ keyId ≠ "" ∧ secret ≠ "" ∧ '.' ∉ keyId.toList ∧
      '.' ∉ secret.toList := by
  unfold splitCredential at h
  split at h
  · rename_i k s hparts
    split at h
    · rename_i hne
      cases h
      have hkeyId : keyId ∈ splitOn '.' credential := by simp [hparts]
      have hsecret : secret ∈ splitOn '.' credential := by simp [hparts]
      have hk := notMem_of_splitOn hkeyId
      have hs := notMem_of_splitOn hsecret
      exact ⟨eq_of_splitOn_pair rfl hparts, hne.1, hne.2, hk, hs⟩
    · cases h
  · cases h

namespace ActorTokens

/-- One call: the clock and the tables it finds, and the string presented. -/
structure Presented where
  now : Int
  store : Store
  accessToken : String

/-- The cache of an instance after the calls of a history, oldest first. -/
def authCacheAfter (crypto : Crypto) (history : List Presented) : TtlCache ActorToken :=
  history.foldl (fun cache call =>
    (authenticateActorToken crypto call.store call.now cache call.accessToken).2) { ttlMs := 60000 }

/-- The tables of the call hold the row, usable then, and the secret is the row's. -/
structure Passes (crypto : Crypto) (call : Presented) (keyId secret : String) (e : ActorToken) :
    Prop where
  row : e ∈ call.store.actorTokens
  isLive : live e = true
  keyId : e.keyId = keyId
  active : e.status = .active
  unexpired : expired e.expiresAt call.now = false
  hash : verifySecretHash crypto e.secretHash secret = true

/-- A call of the history, made at `u` with this very string, read and compared the row. -/
def Vouched (crypto : Crypto) (history : List Presented) (u : Int) (accessToken : String)
    (e : ActorToken) : Prop :=
  ∃ call ∈ history, call.now = u ∧ call.accessToken = accessToken ∧
    ∃ keyId secret, splitCredential accessToken = some (keyId, secret) ∧
      Passes crypto call keyId secret e

theorem Vouched.append {crypto : Crypto} {history more : List Presented} {u : Int}
    {accessToken : String} {e : ActorToken} (h : Vouched crypto history u accessToken e) :
    Vouched crypto (history ++ more) u accessToken e := by
  obtain ⟨call, hmem, hrest⟩ := h
  exact ⟨call, List.mem_append_left more hmem, hrest⟩

theorem of_isUsable {now : Int} {actorToken : ActorToken} (h : isUsable now actorToken = true) :
    actorToken.status = .active ∧ expired actorToken.expiresAt now = false := by
  unfold isUsable at h
  simpa using h

/-- What one call returns was vouched for within the lifetime, and so is all it leaves cached. -/
theorem authenticate_vouched {crypto : Crypto} {history : List Presented}
    {cache : TtlCache ActorToken} (call : Presented)
    (hcache : cache.WrittenBy 60000 (Vouched crypto history)) :
    (∀ e, (authenticateActorToken crypto call.store call.now cache call.accessToken).1 = some e →
      ∃ u, call.now ≤ u + 60000 ∧ Vouched crypto (history ++ [call]) u call.accessToken e) ∧
    (authenticateActorToken crypto call.store call.now cache call.accessToken).2.WrittenBy 60000
      (Vouched crypto (history ++ [call])) := by
  have hcache' : cache.WrittenBy 60000 (Vouched crypto (history ++ [call])) :=
    hcache.mono fun u key v h => h.append
  have hread := hcache'.get call.now call.accessToken
  unfold authenticateActorToken
  split
  · exact ⟨fun e h => (nomatch h), hcache'⟩
  · rename_i keyId secret hparts
    split
    · rename_i cached cache₁ hget
      rw [hget] at hread
      refine ⟨fun e he => ?_, hread⟩
      cases he
      exact hcache'.written _ _ _ (TtlCache.get_eq_some (by rw [hget]))
    · rename_i cache₁ hget
      rw [hget] at hread
      dsimp only
      split
      · exact ⟨fun e h => (nomatch h), hread⟩
      · rename_i a hfind
        split
        · exact ⟨fun e h => (nomatch h), hread⟩
        · rename_i hvalid
          split
          · rename_i husable
            -- the only branch that writes: the row has just been read and compared
            obtain ⟨hrow, hlive, hkey⟩ := of_findOne hfind
            obtain ⟨hactive, hunexpired⟩ := of_isUsable husable
            have hhash : verifySecretHash crypto a.secretHash secret = true := by
              simpa [hfind] using hvalid
            have hvouched : Vouched crypto (history ++ [call]) call.now call.accessToken a :=
              ⟨call, by simp, rfl, rfl, keyId, secret, hparts, hrow, hlive, of_decide_eq_true hkey,
                hactive, hunexpired, hhash⟩
            refine ⟨fun e he => ?_, hread.set hvouched⟩
            cases he
            exact ⟨call.now, by omega, hvouched⟩
          · exact ⟨fun e h => (nomatch h), hread⟩

theorem authCacheAfter_append (crypto : Crypto) (history : List Presented) (call : Presented) :
    authCacheAfter crypto (history ++ [call]) =
      (authenticateActorToken crypto call.store call.now (authCacheAfter crypto history)
        call.accessToken).2 := by
  unfold authCacheAfter
  rw [List.foldl_append]
  rfl

/-- The cache invariant, over any history. -/
theorem authCache_vouched (crypto : Crypto) (history : List Presented) :
    (authCacheAfter crypto history).WrittenBy 60000 (Vouched crypto history) := by
  induction history using List.reverseRecOn with
  | nil => exact TtlCache.writtenBy_empty
  | append_singleton history call ih =>
    rw [authCacheAfter_append]
    exact (authenticate_vouched call ih).2

/-- Whoever authenticates has passed the hash comparison with that very string, against a row that
was in the tables, live, active and unexpired, at most a minute ago. -/
theorem authenticated_recently (crypto : Crypto) (history : List Presented) (call : Presented)
    (hclock : ((history ++ [call]).map (·.now)).Pairwise (· ≤ ·)) (e : ActorToken)
    (h : (authenticateActorToken crypto call.store call.now (authCacheAfter crypto history)
      call.accessToken).1 = some e) :
    ∃ keyId secret, call.accessToken = keyId ++ "." ++ secret ∧ keyId ≠ "" ∧ secret ≠ "" ∧
      '.' ∉ keyId.toList ∧ '.' ∉ secret.toList ∧
      ∃ past ∈ history ++ [call], past.accessToken = call.accessToken ∧
        call.now - 60000 ≤ past.now ∧ past.now ≤ call.now ∧ Passes crypto past keyId secret e := by
  obtain ⟨u, hu, past, hpast, rfl, htoken, keyId, secret, hparts, hpasses⟩ :=
    (authenticate_vouched call (authCache_vouched crypto history)).1 e h
  obtain ⟨heq, hk, hs, hk', hs'⟩ := of_splitCredential hparts
  have hle : past.now ≤ call.now := by
    rw [List.map_append, List.pairwise_append] at hclock
    rcases List.mem_append.1 hpast with hold | hnew
    · exact hclock.2.2 _ (List.mem_map_of_mem hold) _ (by simp)
    · cases List.mem_singleton.1 hnew
      exact Int.le_refl _
  exact ⟨keyId, secret, heq, hk, hs, hk', hs', past, hpast, htoken, by omega, hle, hpasses⟩

def minted : GeneratedCredential := generateCredential sampleCrypto "at_live" sampleBytes

def mintedActor : ActorToken where
  actorTokenId := .of "t1"
  projectId := .of "p1"
  keyId := minted.keyId
  secretHash := minted.secretHash
  name := "alice"
  actorType := .user

/-- A row cached at 0 and then hard-deleted still authenticates at the end of its minute. -/
theorem authenticated_recently_cached :
    ∃ keyId secret, minted.credential = keyId ++ "." ++ secret ∧ keyId ≠ "" ∧ secret ≠ "" ∧
      '.' ∉ keyId.toList ∧ '.' ∉ secret.toList ∧
      ∃ past ∈ ([⟨0, { actorTokens := [mintedActor] }, minted.credential⟩,
        ⟨60000, {}, minted.credential⟩] : List Presented),
        past.accessToken = minted.credential ∧ 60000 - 60000 ≤ past.now ∧ past.now ≤ 60000 ∧
          Passes sampleCrypto past keyId secret mintedActor :=
  authenticated_recently sampleCrypto [⟨0, { actorTokens := [mintedActor] }, minted.credential⟩]
    ⟨60000, {}, minted.credential⟩ (by decide) mintedActor (by decide +kernel)

end ActorTokens
end NolagCore
