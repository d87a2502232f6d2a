import NolagCore.Model.Reorder
import NolagCore.ProjectConfig.Normalise
import NolagCore.ProjectConfig.References

/-!
# ProjectConfig.ImportExport

An export of a project that has just been imported gives the document back, in its normal form. The
rows of the project are those the document made, in whatever order the database returns them.
-/

namespace NolagCore
namespace ProjectConfig

open Lib Store

/-- `Date.parse` on texts that `toISOString` does not print. -/
structure JsDates (legacy : String → Option Int) : Prop where
  range : ∀ text t, legacy text = some t → -maxTime ≤ t ∧ t ≤ maxTime
  empty : legacy "" = none

/-- Every date of the document is one JavaScript can parse. -/
def Parsable (legacy : String → Option Int) (doc : ProjectConfigDoc) : Prop :=
  ∀ text ∈ doc.dateTexts, ∀ date, text = some date → ∃ t, newDate legacy date = some t

section

variable {legacy : String → Option Int} (hjs : JsDates legacy)

include hjs

theorem JsDates.newDate_empty : newDate legacy "" = none := by
  unfold newDate
  rw [if_neg fun h => toISOString_ne_empty h rfl]
  exact hjs.empty

theorem JsDates.newDate_range {text : String} {t : Int} (h : newDate legacy text = some t) :
    ∃ iso, toISOString t = some iso := by
  unfold newDate at h
  split at h
  · rename_i hiso
    cases h
    exact ⟨text, hiso⟩
  · obtain ⟨h0, h1⟩ := hjs.range text t h
    exact ⟨_, if_pos ⟨h0, h1⟩⟩

/-- A date is exported in the notation of `toISOString`. -/
theorem isoColumn_storedDate {text : Option String}
    (hparse : ∀ date, text = some date → ∃ t, newDate legacy date = some t) :
    isoColumn (storedDate legacy text) = .ok (instantText legacy text) := by
  cases text with
  | none => rfl
  | some date =>
    obtain ⟨t, ht⟩ := hparse date rfl
    obtain ⟨iso, hiso⟩ := hjs.newDate_range ht
    have hne : date ≠ "" := by
      rintro rfl
      rw [hjs.newDate_empty] at ht
      cases ht
    have hstored : dateColumn legacy (some date) = .ok (some t) := by
      simp [dateColumn, hne, ht]
    rw [storedDate_of_ok hstored]
    simp [isoColumn, instantText, ht, hiso]

end

/-! ## Handles -/

theorem mintedKeyId_mapIdx {δ : Type} {ref : δ → String} {k c : Nat → String} {l : List δ}
    (hrefs : (l.map ref).Nodup) {i : Nat} {d : δ} (hi : l[i]? = some d) :
    mintedKeyId (l.mapIdx fun i d => { ref := ref d, keyId := k i, credential := c i }) (ref d) =
      k i := by
  unfold mintedKeyId
  cases hfind : (l.mapIdx fun i d => ({ ref := ref d, keyId := k i, credential := c i } :
      MintedCredential)).find? fun credential => decide (credential.ref = ref d) with
  | none =>
    have hnone := List.find?_eq_none.1 hfind _ (mem_mapIdx_iff.2 ⟨i, d, hi, rfl⟩)
    simp at hnone
  | some found =>
    obtain ⟨j, d', hj, rfl⟩ := mem_mapIdx_iff.1 (List.mem_of_find?_eq_some hfind)
    have hfound := List.find?_some hfind
    have href : ref d' = ref d := of_decide_eq_true hfound
    rw [index_eq_of_nodup_map hrefs hj hi href]
    rfl

/-! ## Grants -/

/-- Grants that are each exported as their normal form, in whatever order their rows come. -/
theorem grants_exported {α β δ ε : Type} {f : α → Except ε (Option β)} {rows : List α}
    {g : Nat → δ → List α} {l : List δ} {normal : δ → β} (hp : (blocks g l).Perm rows)
    (h : ∀ j d, l[j]? = some d → ∃ r, g j d = [r] ∧ f r = .ok (some (normal d))) :
    ∃ os, mapOk f rows = .ok os ∧ (os.filterMap id).Perm (l.map normal) := by
  have hrows : ∀ {g : Nat → δ → List α} {l : List δ},
      (∀ j d, l[j]? = some d → ∃ r, g j d = [r] ∧ f r = .ok (some (normal d))) →
      List.Forall₂ (fun r d => ∃ o, f r = .ok o ∧ o = some (normal d)) (blocks g l) l := by
    intro g l
    induction l generalizing g with
    | nil => exact fun _ => .nil
    | cons d l ih =>
      intro h
      obtain ⟨r, hr, hf⟩ := h 0 d rfl
      rw [blocks_cons, hr]
      exact .cons ⟨_, hf, rfl⟩ (ih fun j d hj => h (j + 1) d (by simpa using hj))
  obtain ⟨os, hos, hnormal⟩ := mapOk_forall₂ (hrows h)
  have hall : os.filterMap id = l.map normal := by
    clear hos hp h
    induction hnormal with
    | nil => rfl
    | cons hd _ ih =>
      rw [hd]
      exact congrArg (_ :: ·) ih
  obtain ⟨os', hos', hperm⟩ := mapOk_perm hp hos
  exact ⟨os', hos', hall ▸ (hperm.filterMap id).symm⟩

/-! ## Selecting the new rows -/

section

variable {α δ : Type} [SoftDelete α]

/-- A query that no old row answers is answered by the new rows. -/
theorem findAll_new {old new rows : List α} {p : α → Bool} (hp : (old ++ new).Perm rows)
    (hold : ∀ r ∈ old, p r = false) : (findAll new p).Perm (findAll rows p) := by
  have hnone : findAll old p = [] := by
    refine List.filter_eq_nil_iff.2 fun r hr => ?_
    rw [hold r hr]
    simp
  have hperm : (findAll (old ++ new) p).Perm (findAll rows p) := hp.filter _
  have hsplit : findAll (old ++ new) p = findAll old p ++ findAll new p := List.filter_append ..
  rwa [hsplit, hnone, List.nil_append] at hperm

theorem mapIdx_found {f : Nat → δ → α} {l : List δ} {old rows : List α} {p : α → Bool}
    (hp : (old ++ l.mapIdx f).Perm rows) (hold : ∀ r ∈ old, p r = false)
    (hnew : ∀ i d, live (f i d) = true ∧ p (f i d) = true) :
    (l.mapIdx f).Perm (findAll rows p) := by
  have hall : findAll (l.mapIdx f) p = l.mapIdx f := by
    refine List.filter_eq_self.2 fun r hr => ?_
    obtain ⟨i, d, -, rfl⟩ := mem_mapIdx_iff.1 hr
    rw [(hnew i d).1, (hnew i d).2]
    rfl
  have hfound := findAll_new hp hold
  rwa [hall] at hfound

theorem findAll_blocks {f : Nat → δ → List α} {l : List δ} {p : α → Bool} {i : Nat} {d : δ}
    (hi : l[i]? = some d) (hin : ∀ r ∈ f i d, live r = true ∧ p r = true)
    (hout : ∀ j e, l[j]? = some e → j ≠ i → ∀ r ∈ f j e, p r = false) :
    findAll (blocks f l) p = f i d := by
  refine filter_blocks_eq hi (fun r hr => ?_) fun j e hj hne r hr => ?_
  · rw [(hin r hr).1, (hin r hr).2]
    rfl
  · rw [hout j e hj hne r hr, Bool.and_false]

theorem block_found {f : Nat → δ → List α} {l : List δ} {old rows : List α} {p : α → Bool} {i : Nat}
    {d : δ} (hp : (old ++ blocks f l).Perm rows) (hold : ∀ r ∈ old, p r = false)
    (hi : l[i]? = some d) (hin : ∀ r ∈ f i d, live r = true ∧ p r = true)
    (hout : ∀ j e, l[j]? = some e → j ≠ i → ∀ r ∈ f j e, p r = false) :
    (f i d).Perm (findAll rows p) := by
  have hfound := findAll_new hp hold
  rwa [findAll_blocks hi hin hout] at hfound

/-- One block of a nested traversal is what a query finds that no other row answers. -/
theorem nested_found {ε : Type} {f : Nat → δ → Nat → ε → List α} {c : δ → List ε}
    {l : List δ} {old rest rows : List α} {p : α → Bool} {i j : Nat} {d : δ} {e : ε}
    (hp : (old ++ (blocks (fun i d => blocks (f i d) (c d)) l ++ rest)).Perm rows)
    (hold : ∀ r ∈ old, p r = false) (hrest : ∀ r ∈ rest, p r = false) (hi : l[i]? = some d)
    (hj : (c d)[j]? = some e) (hin : ∀ r ∈ f i d j e, live r = true ∧ p r = true)
    (hout : ∀ i' d' j' e', l[i']? = some d' → (c d')[j']? = some e' →
      ∀ r ∈ f i' d' j' e', p r = true → i' = i ∧ j' = j) :
    (f i d j e).Perm (findAll rows p) := by
  have hout' : ∀ {i' d' j' e'}, l[i']? = some d' → (c d')[j']? = some e' →
      ¬ (i' = i ∧ j' = j) → ∀ r ∈ f i' d' j' e', p r = false := by
    intro i' d' j' e' hi' hj' hne r hr
    rw [← Bool.not_eq_true]
    exact fun hpr => hne (hout i' d' j' e' hi' hj' r hr hpr)
  have hblock : findAll (blocks (f i d) (c d)) p = f i d j e :=
    findAll_blocks hj hin fun j' e' hj' hne r hr => hout' hi hj' (fun h => hne h.2) r hr
  have hall : findAll (blocks (fun i d => blocks (f i d) (c d)) l) p = f i d j e := by
    unfold findAll at hblock ⊢
    rw [filter_blocks, blocks_eq_block hi, hblock]
    intro i' d' hi' hne
    refine List.filter_eq_nil_iff.2 fun r hr => ?_
    obtain ⟨j', e', hj', hr⟩ := mem_blocks.1 hr
    rw [hout' hi' hj' (fun h => hne h.1) r hr]
    simp
  have hnone : findAll rest p = [] := by
    refine List.filter_eq_nil_iff.2 fun r hr => ?_
    rw [hrest r hr]
    simp
  have hfound := findAll_new hp hold
  have hsplit : findAll (blocks (fun i d => blocks (f i d) (c d)) l ++ rest) p =
      findAll (blocks (fun i d => blocks (f i d) (c d)) l) p ++ findAll rest p :=
    List.filter_append ..
  rwa [hsplit, hall, hnone, List.append_nil] at hfound

omit [SoftDelete α] in
/-- The rows of a table with a slug, in the order of their slugs. -/
theorem forall₂_orderBy {collate : String → String → Bool} (hcollate : TotalOrder collate)
    {rows : List α} {l : List δ} {f : Nat → δ → α} (slug : δ → String) (key : α → String)
    (hp : (l.mapIdx f).Perm rows) (hkey : ∀ i d, key (f i d) = slug d)
    (hslugs : (l.map slug).Nodup) :
    List.Forall₂ (fun r d => ∃ i : Nat, l[i]? = some d ∧ r = f i d) (orderBy collate key rows)
      (orderBy collate slug l) := by
  have hkeys : ((l.mapIdx f).map key).Nodup := by
    rw [map_mapIdx]
    simp only [hkey]
    rwa [mapIdx_const]
  rw [orderBy_eq, orderBy_eq, ← sortOn_eq_of_perm hcollate key hkeys hp]
  exact forall₂_sortOn_mapIdx collate hkey l

end

namespace Completed

variable {host : Host} {draws : Draws} {now : Int} {doc : ProjectConfigDoc} {s s' t : Store}
  {credentials : ImportedCredentials}

/-- What was drawn was new, or the import had not succeeded. -/
theorem fresh (h : Completed host draws now doc credentials s s') (hdto : doc.slugsValid = true) :
    FreshDraws host draws doc s := by
  have hv := h.valid
  rw [h.stored] at hv
  have hclosed := h.closedDoc hdto
  constructor
  · intro hmem
    obtain ⟨p, hp, hid⟩ := List.mem_map.1 hmem
    have hkey := hv.pkProject
    rw [projects_append, projects_created] at hkey
    exact UniqueOn.ne_of_append hkey hp List.mem_cons_self hid
  · have hkey := hv.pkScope
    rw [accessScopes_append, accessScopes_created] at hkey
    exact (unique_iff_ids (map_mapIdx _ _ _)).1 hkey
  · have hkey := hv.pkApp
    rw [apps_append, apps_created] at hkey
    exact (unique_iff_ids (map_mapIdx _ _ _)).1 hkey
  · exact (unique_iff_ids rooms_ids).1 hv.pkRoom
  · exact (unique_iff_ids (roomGrants_ids h.distinct hclosed hdto)).1 hv.pkRoomGrant
  · exact (unique_iff_ids lobbies_ids).1 hv.pkLobby
  · have hkey := hv.pkActor
    rw [actorTokens_append, actorTokens_created] at hkey
    exact (unique_iff_ids (map_mapIdx _ _ _)).1 hkey
  · have hkey := hv.actorKeyId
    rw [actorTokens_append, actorTokens_created] at hkey
    exact (unique_iff_ids (map_mapIdx _ _ _)).1 hkey
  · exact (unique_iff_ids (appGrants_ids h.distinct hclosed)).1 hv.pkAppGrant
  · have hkey := hv.pkSigningKey
    rw [signingKeys_append, signingKeys_created] at hkey
    exact (unique_iff_ids (map_mapIdx _ _ _)).1 hkey
  · have hkey := hv.signingKeyId
    rw [signingKeys_append, signingKeys_created] at hkey
    exact (unique_iff_ids (map_mapIdx _ _ _)).1 hkey

/-! ## The rows a document made, as queries find them -/

section

variable (h : Completed host draws now doc credentials s s') (hs : s.SchemaValid)
  (hdto : doc.slugsValid = true) (ht : s'.Reorder t)

include h ht

theorem valid_reordered : t.SchemaValid := ht.valid h.valid

include hs hdto

omit hs in
theorem project_found : findOne t.projects (fun p => decide (p.projectId = draws.project)) =
    some (projectRow draws now doc.project) := by
  have hperm := ht.projects
  rw [h.stored, projects_append, projects_created] at hperm
  have hfound : [projectRow draws now doc.project].Perm
      (findAll t.projects fun p => decide (p.projectId = draws.project)) :=
    mapIdx_found (f := fun _ => projectRow draws now) (l := [doc.project]) hperm
      (fun r hr => decide_eq_false fun hid => old_project_ne (h.fresh hdto) ⟨r, hr, hid⟩ rfl)
      fun _ _ => ⟨rfl, decide_eq_true rfl⟩
  rw [findOne_eq_head?, ← List.singleton_perm.1 hfound]
  rfl

theorem scopes_found : ((doc.accessScopes.getD []).mapIdx (scopeRow draws)).Perm
    (findAll t.accessScopes fun r => decide (r.projectId = draws.project)) := by
  have hperm := ht.accessScopes
  rw [h.stored, accessScopes_append, accessScopes_created] at hperm
  refine mapIdx_found hperm (fun r hr => decide_eq_false ?_) fun _ _ => ⟨rfl, decide_eq_true rfl⟩
  exact old_project_ne (h.fresh hdto) (hs.fkScopeProject r hr r.projectId rfl)

theorem apps_found : ((doc.apps.getD []).mapIdx (appRow draws)).Perm
    (findAll t.apps fun a => decide (a.projectId = draws.project)) := by
  have hperm := ht.apps
  rw [h.stored, apps_append, apps_created] at hperm
  refine mapIdx_found hperm (fun r hr => decide_eq_false ?_) fun _ _ => ⟨rfl, decide_eq_true rfl⟩
  exact old_project_ne (h.fresh hdto) (hs.fkAppProject r hr r.projectId rfl)

theorem actors_found : ((doc.actors.getD []).mapIdx (createdActorRow host draws doc)).Perm
    (findAll t.actorTokens fun a => decide (a.projectId = draws.project)) := by
  have hperm := ht.actorTokens
  rw [h.stored, actorTokens_append, actorTokens_created] at hperm
  refine mapIdx_found hperm (fun r hr => decide_eq_false ?_) fun _ _ => ⟨rfl, decide_eq_true rfl⟩
  exact old_project_ne (h.fresh hdto) (hs.fkActorProject r hr r.projectId rfl)

theorem keys_found : ((doc.signingKeys.getD []).mapIdx (createdKeyRow host draws)).Perm
    (findAll t.signingKeys fun k => decide (k.projectId = draws.project)) := by
  have hperm := ht.signingKeys
  rw [h.stored, signingKeys_append, signingKeys_created] at hperm
  refine mapIdx_found hperm (fun r hr => decide_eq_false ?_) fun _ _ => ⟨rfl, decide_eq_true rfl⟩
  exact old_project_ne (h.fresh hdto) (hs.fkKeyProject r hr r.projectId rfl)

omit hs ht in
theorem app_ne {i j : Nat} {app app' : AppDoc} (hi : (doc.apps.getD [])[i]? = some app)
    (hj : (doc.apps.getD [])[j]? = some app') (hne : j ≠ i) : draws.app j ≠ draws.app i :=
  fun hid => hne (index_eq_of_nodup_mapIdx (List.nodup_append'.1 (h.fresh hdto).app).2.1 hj hi hid)

theorem rooms_found {i : Nat} {app : AppDoc} (hi : (doc.apps.getD [])[i]? = some app) :
    ((app.rooms.getD []).mapIdx (roomRow draws i)).Perm
      (findAll t.rooms fun r => decide (r.appId = draws.app i)) := by
  have hperm := ht.rooms
  rw [h.stored, rooms_append, rooms_created] at hperm
  refine block_found hperm (fun r hr => decide_eq_false ?_) hi (fun r hr => ?_)
    fun j app' hj hne r hr => decide_eq_false ?_
  · exact old_app_ne (h.fresh hdto) (hs.fkRoomApp r hr r.appId rfl) hi
  · obtain ⟨j, room, -, rfl⟩ := mem_mapIdx_iff.1 hr
    exact ⟨rfl, decide_eq_true rfl⟩
  · obtain ⟨k, room, -, rfl⟩ := mem_mapIdx_iff.1 hr
    exact h.app_ne hdto hi hj hne

theorem lobbies_found {i : Nat} {app : AppDoc} (hi : (doc.apps.getD [])[i]? = some app) :
    ((app.lobbies.getD []).mapIdx (lobbyRow draws i)).Perm
      (findAll t.lobbies fun l => decide (l.appId = draws.app i)) := by
  have hperm := ht.lobbies
  rw [h.stored, lobbies_append, lobbies_created] at hperm
  refine block_found hperm (fun r hr => decide_eq_false ?_) hi (fun r hr => ?_)
    fun j app' hj hne r hr => decide_eq_false ?_
  · exact old_app_ne (h.fresh hdto) (hs.fkLobbyApp r hr r.appId rfl) hi
  · obtain ⟨j, lobby, -, rfl⟩ := mem_mapIdx_iff.1 hr
    exact ⟨rfl, decide_eq_true rfl⟩
  · obtain ⟨k, lobby, -, rfl⟩ := mem_mapIdx_iff.1 hr
    exact h.app_ne hdto hi hj hne

/-- The memberships of a lobby. -/
theorem links_found {i j : Nat} {app : AppDoc} {lobby : LobbyDoc}
    (hi : (doc.apps.getD [])[i]? = some app) (hj : (app.lobbies.getD [])[j]? = some lobby) :
    (createdLinks (roomIdByAppAndSlug draws ((doc.apps.getD []).take (i + 1))) app.slug
        (draws.lobby i j) lobby.rooms).Perm
      (findAll t.lobbyRooms fun l => decide (l.lobbyId = draws.lobby i j)) := by
  have hids := (h.fresh hdto).lobby
  have hperm := ht.lobbyRooms
  rw [h.stored, lobbyRooms_append, lobbyRooms_created] at hperm
  rw [← List.append_nil (blocks _ _)] at hperm
  refine nested_found (c := fun app : AppDoc => app.lobbies.getD [])
    (f := fun i (app : AppDoc) j (lobby : LobbyDoc) => createdLinks
      (roomIdByAppAndSlug draws ((doc.apps.getD []).take (i + 1))) app.slug (draws.lobby i j)
      lobby.rooms) (d := app) (e := lobby) hperm (fun r hr => decide_eq_false ?_) (fun r hr => absurd hr List.not_mem_nil) hi
      hj ?_ ?_
  · intro hid
    obtain ⟨l, hl, hlid⟩ := hs.fkMemberLobby r hr r.lobbyId rfl
    exact ne_of_ids hids hl (mem_blocks.2 ⟨i, app, hi, mem_mapIdx_iff.2 ⟨j, lobby, hj, rfl⟩⟩)
      (hlid.trans hid)
  · intro link hlink
    obtain ⟨_, _, _, _, rfl⟩ := mem_createdLinks.1 hlink
    exact ⟨rfl, decide_eq_true rfl⟩
  · intro i' app' j' lobby' hi' hj' link hlink hid
    have hlobby := of_decide_eq_true hid
    rw [lobbyId_of_createdLinks hlink] at hlobby
    exact place_eq_of_nodup (List.nodup_append'.1 hids).2.1 hi' hj' hi hj hlobby

theorem typeGrants_found {i j : Nat} {app : AppDoc} {room : RoomDoc}
    (hplace : RoomPlace (doc.apps.getD []) i j app room) :
    ((room.typeGrants.getD []).mapIdx (typeGrantRow draws i j)).Perm
      (typeGrantsOf t (roomRow draws i j room)) := by
  have hids := (h.fresh hdto).room
  have hperm := ht.roomActorAccess
  rw [h.stored, roomActorAccess_append, roomActorAccess_created] at hperm
  refine nested_found (c := fun app : AppDoc => app.rooms.getD [])
    (f := fun i _ j (room : RoomDoc) => (room.typeGrants.getD []).mapIdx (typeGrantRow draws i j))
    hperm (fun g hg => ?_) (fun g hg => ?_) hplace.atApp hplace.atRoom ?_ ?_
  · obtain ⟨r, hr, hid⟩ := hs.fkGrantRoom g hg g.roomId rfl
    have hne : g.roomId ≠ draws.room i j := fun heq => ne_of_ids hids hr (mem_blocks.2
      ⟨i, app, hplace.atApp, mem_mapIdx_iff.2 ⟨j, room, hplace.atRoom, rfl⟩⟩) (hid.trans heq)
    rw [Bool.and_eq_false_iff]
    exact .inl (decide_eq_false hne)
  · obtain ⟨i', actor, -, hg⟩ := mem_blocks.1 hg
    obtain ⟨j', grant, -, hg⟩ := mem_blocks.1 hg
    simp only [createdRoomGrant, List.mem_map, Option.mem_toList] at hg
    obtain ⟨roomId, -, rfl⟩ := hg
    simp [roomGrantRow]
  · intro g hg
    obtain ⟨k, grant, -, rfl⟩ := mem_mapIdx_iff.1 hg
    simp [typeGrantRow, roomRow, live, SoftDelete.deletedAt]
  · intro i' app' j' room' hi' hj' g hg hmatch
    obtain ⟨k, grant, -, rfl⟩ := mem_mapIdx_iff.1 hg
    have hid := of_decide_eq_true (Bool.and_eq_true_iff.1 hmatch).1
    exact place_eq_of_nodup (List.nodup_append'.1 hids).2.1 hi' hj' hplace.atApp hplace.atRoom hid

omit hs ht in
theorem actor_ne {i j : Nat} {actor actor' : ActorDoc} (hi : (doc.actors.getD [])[i]? = some actor)
    (hj : (doc.actors.getD [])[j]? = some actor') (hne : j ≠ i) : draws.actor j ≠ draws.actor i :=
  fun hid => hne (index_eq_of_nodup_mapIdx (List.nodup_append'.1 (h.fresh hdto).actor).2.1 hj hi hid)

omit hs ht in
theorem old_actor_ne {actorTokenId : Uuid} (hold : ∃ a ∈ s.actorTokens, a.actorTokenId = actorTokenId)
    {i : Nat} {actor : ActorDoc} (hi : (doc.actors.getD [])[i]? = some actor) :
    actorTokenId ≠ draws.actor i := by
  obtain ⟨a, ha, rfl⟩ := hold
  exact ne_of_ids (h.fresh hdto).actor ha (mem_mapIdx_iff.2 ⟨i, actor, hi, rfl⟩)

theorem appGrants_found {i : Nat} {actor : ActorDoc} (hi : (doc.actors.getD [])[i]? = some actor) :
    (blocks (fun j grant => (createdAppGrant host draws doc i j grant).actorAppAccess)
        (actor.appAccess.getD [])).Perm
      (appGrantsOf t (createdActorRow host draws doc i actor)) := by
  have hperm := ht.actorAppAccess
  rw [h.stored, actorAppAccess_append, actorAppAccess_created] at hperm
  have hrow : ∀ {i : Nat} {actor : ActorDoc} {g : ActorAppAccess}, g ∈ blocks (fun j grant =>
      (createdAppGrant host draws doc i j grant).actorAppAccess) (actor.appAccess.getD []) →
        live g = true ∧ g.actorTokenId = draws.actor i := by
    intro i actor g hg
    obtain ⟨j, grant, -, hg⟩ := mem_blocks.1 hg
    simp only [createdAppGrant, List.mem_map, Option.mem_toList] at hg
    obtain ⟨appId, -, rfl⟩ := hg
    exact ⟨rfl, rfl⟩
  refine block_found hperm (fun g hg => decide_eq_false ?_) hi (fun g hg => ?_)
    fun i' actor' hi' hne g hg => decide_eq_false ?_
  · exact h.old_actor_ne hdto (hs.fkAppGrantActor g hg g.actorTokenId rfl) hi
  · exact ⟨(hrow hg).1, decide_eq_true (hrow hg).2⟩
  · rw [(hrow hg).2]
    exact h.actor_ne hdto hi hi' hne

theorem roomGrants_found {i : Nat} {actor : ActorDoc} (hi : (doc.actors.getD [])[i]? = some actor) :
    (blocks (fun j grant => (createdRoomGrant host draws doc i j grant).roomActorAccess)
        (actor.roomAccess.getD [])).Perm
      (roomGrantsOf t (createdActorRow host draws doc i actor)) := by
  have hperm := ht.roomActorAccess
  rw [h.stored, roomActorAccess_append, roomActorAccess_created, ← List.append_assoc] at hperm
  have hrow : ∀ {i : Nat} {actor : ActorDoc} {g : RoomActorAccess}, g ∈ blocks (fun j grant =>
      (createdRoomGrant host draws doc i j grant).roomActorAccess) (actor.roomAccess.getD []) →
        live g = true ∧ g.actorTokenId = some (draws.actor i) := by
    intro i actor g hg
    obtain ⟨j, grant, -, hg⟩ := mem_blocks.1 hg
    simp only [createdRoomGrant, List.mem_map, Option.mem_toList] at hg
    obtain ⟨roomId, -, rfl⟩ := hg
    exact ⟨rfl, rfl⟩
  refine block_found hperm (fun g hg => decide_eq_false fun hid => ?_) hi (fun g hg => ?_)
    fun i' actor' hi' hne g hg => decide_eq_false ?_
  · rcases List.mem_append.1 hg with hg | hg
    · exact h.old_actor_ne hdto (hs.fkGrantActor g hg _ hid) hi rfl
    · obtain ⟨i', app, -, hg⟩ := mem_blocks.1 hg
      obtain ⟨j', room, -, hg⟩ := mem_blocks.1 hg
      obtain ⟨k, grant, -, rfl⟩ := mem_mapIdx_iff.1 hg
      cases hid
  · exact ⟨(hrow hg).1, decide_eq_true (hrow hg).2⟩
  · rw [(hrow hg).2]
    exact fun hid => h.actor_ne hdto hi hi' hne (Option.some.inj hid)

end

/-! ## The exported parts -/

section

variable {collate : String → String → Bool} (hcollate : TotalOrder collate)
  (h : Completed host draws now doc credentials s s') (hs : s.SchemaValid)
  (hdto : doc.slugsValid = true) (ht : s'.Reorder t)

include h hs hdto ht

theorem exportRoom_same {i j : Nat} {app : AppDoc} {room : RoomDoc}
    (hplace : RoomPlace (doc.apps.getD []) i j app room) :
    (exportRoom t (roomRow draws i j room)).Same room.normalise where
  typeGrants := by
    have hperm := (h.typeGrants_found hs hdto ht hplace).map exportTypeGrant
    rw [map_mapIdx] at hperm
    have hnormal : ((room.typeGrants.getD []).mapIdx fun k grant =>
        exportTypeGrant (typeGrantRow draws i j k grant)) =
          (room.typeGrants.getD []).map RoomTypeGrantDoc.normalise :=
      mapIdx_const RoomTypeGrantDoc.normalise _
    rw [hnormal] at hperm
    exact hperm.symm
  rest := rfl

variable (collate) in
theorem mem_roomsOf_appRow {i : Nat} {app : AppDoc} (hi : (doc.apps.getD [])[i]? = some app)
    {r : Room} : r ∈ roomsOf collate t (appRow draws i app) ↔
      ∃ (j : Nat) (room : RoomDoc), (app.rooms.getD [])[j]? = some room ∧ roomRow draws i j room = r := by
  rw [roomsOf, mem_orderBy]
  exact (h.rooms_found hs hdto ht hi).mem_iff.symm.trans mem_mapIdx_iff

theorem appOf_appRow {i : Nat} {app : AppDoc} (hi : (doc.apps.getD [])[i]? = some app) :
    AppOf t draws.project (appRow draws i app) := by
  have hmem := (h.apps_found hs hdto ht).mem_iff.1 (mem_mapIdx_iff.2 ⟨i, app, hi, rfl⟩)
  obtain ⟨hrow, hlive, hid⟩ := mem_findAll.1 hmem
  exact ⟨hrow, hlive, of_decide_eq_true hid⟩

/-- A room of an app that has been listed is found by its id. -/
theorem roomRef_of_place {seen : List PlatformApp}
    (hseen : ∀ app ∈ seen, AppOf t draws.project app) {i j : Nat} {app : AppDoc} {room : RoomDoc}
    (hplace : RoomPlace (doc.apps.getD []) i j app room) (hin : appRow draws i app ∈ seen) :
    (roomRefById collate t seen).get? (draws.room i j) = some (app.slug, room.slug) :=
  (roomRefById_seen_iff (h.valid_reordered ht) hseen).2 ⟨appRow draws i app, roomRow draws i j room,
    hin, (h.mem_roomsOf_appRow collate hs hdto ht hplace.atApp).2 ⟨j, room, hplace.atRoom, rfl⟩, rfl, rfl⟩

variable (collate) in
/-- The rooms of a lobby are listed once each. -/
theorem exportLobby_rooms {seen : List PlatformApp}
    (hseen : ∀ app ∈ seen, AppOf t draws.project app) {i j : Nat} {app : AppDoc} {lobby : LobbyDoc}
    (hi : (doc.apps.getD [])[i]? = some app) (hj : (app.lobbies.getD [])[j]? = some lobby)
    (hin : appRow draws i app ∈ seen) :
    (((createdLinks (roomIdByAppAndSlug draws ((doc.apps.getD []).take (i + 1))) app.slug
        (draws.lobby i j) lobby.rooms).filterMap fun l =>
          ((roomRefById collate t seen).get? l.roomId).map Prod.snd).filter
            fun slug => truthy (some slug)).Perm lobby.rooms.dedup := by
  have happ := List.mem_of_getElem? hi
  have hlink : ∀ link ∈ createdLinks (roomIdByAppAndSlug draws ((doc.apps.getD []).take (i + 1)))
      app.slug (draws.lobby i j) lobby.rooms, ∃ (k : Nat) (room : RoomDoc),
        (app.rooms.getD [])[k]? = some room ∧ room.slug ∈ lobby.rooms ∧
        link = { lobbyId := draws.lobby i j, roomId := draws.room i k } ∧
        ((roomRefById collate t seen).get? link.roomId).map Prod.snd = some room.slug := by
    intro link hmem
    obtain ⟨roomSlug, hslug, roomId, hid, rfl⟩ := mem_createdLinks.1 hmem
    obtain ⟨k, room, hk, rfl, rfl⟩ := h.link_place hdto hi hid
    exact ⟨k, room, hk, hslug, rfl, by rw [h.roomRef_of_place hs hdto ht hseen ⟨hi, hk⟩ hin]; rfl⟩
  refine (List.perm_ext_iff_of_nodup (List.Nodup.filter _ ?_) (List.nodup_dedup _)).2 fun slug => ?_
  · refine List.pairwise_filterMap.2 (List.Pairwise.imp_of_mem ?_
      (List.Nodup.of_map _ unique_createdLinks))
    intro link link' hmem hmem' hne slug hslug slug' hslug' heq
    obtain ⟨k, room, hk, -, rfl, hget⟩ := hlink link hmem
    obtain ⟨k', room', hk', -, rfl, hget'⟩ := hlink link' hmem'
    rw [hget] at hslug
    rw [hget'] at hslug'
    have hkk := index_eq_of_nodup_map (h.distinct.rooms app happ) hk hk'
      ((Option.some.inj hslug).trans (heq.trans (Option.some.inj hslug').symm))
    exact hne (by rw [hkk])
  · rw [List.mem_dedup, List.mem_filter, List.mem_filterMap]
    constructor
    · rintro ⟨⟨link, hmem, hslug⟩, -⟩
      obtain ⟨k, room, -, hnamed, rfl, hget⟩ := hlink link hmem
      rw [hget] at hslug
      cases hslug
      exact hnamed
    · intro hnamed
      obtain ⟨room, hroom, rfl⟩ := (h.closedDoc hdto).lobbyRoom app happ lobby
        (List.mem_of_getElem? hj) slug hnamed
      obtain ⟨k, hk⟩ := List.mem_iff_getElem?.1 hroom
      refine ⟨⟨{ lobbyId := draws.lobby i j, roomId := draws.room i k }, ?_, ?_⟩,
        truthy_some.2 (segment_roomSlug hdto happ hroom).1⟩
      · exact mem_createdLinks.2
          ⟨room.slug, hnamed, _, linkId_of_place h.distinct hdto ⟨hi, hk⟩, rfl⟩
      · rw [h.roomRef_of_place hs hdto ht hseen ⟨hi, hk⟩ hin]
        rfl

theorem exportLobby_eq {seen : List PlatformApp}
    (hseen : ∀ app ∈ seen, AppOf t draws.project app) {i j : Nat} {app : AppDoc} {lobby : LobbyDoc}
    (hi : (doc.apps.getD [])[i]? = some app) (hj : (app.lobbies.getD [])[j]? = some lobby)
    (hin : appRow draws i app ∈ seen) :
    exportLobby t (roomRefById collate t seen) (lobbyRow draws i j lobby) = lobby.normalise := by
  have hperm := ((h.links_found hs hdto ht hi hj).filterMap fun l =>
    ((roomRefById collate t seen).get? l.roomId).map Prod.snd).filter fun slug => truthy (some slug)
  have hrooms := (h.exportLobby_rooms collate hs hdto ht hseen hi hj hin).symm.trans hperm
  have hsorted := sortOn_eq_of_perm collateC_order id
    (by rw [List.map_id]; exact List.nodup_dedup _) hrooms
  unfold exportLobby LobbyDoc.normalise
  rw [orderBy_eq, hsorted]
  rfl

include hcollate in
theorem exportApp_same {seen : List PlatformApp}
    (hseen : ∀ app ∈ seen, AppOf t draws.project app) {i : Nat} {app : AppDoc}
    (hi : (doc.apps.getD [])[i]? = some app) (hin : appRow draws i app ∈ seen) :
    (exportApp collate t seen (appRow draws i app)).Same (app.normalise collate) where
  rooms := by
    have happ := List.mem_of_getElem? hi
    have hrooms := forall₂_orderBy hcollate (·.slug) (·.slug)
      (h.rooms_found hs hdto ht hi) (fun _ _ => rfl) (h.distinct.rooms app happ)
    refine List.forall₂_map_left_iff.2 (List.forall₂_map_right_iff.2 (hrooms.imp ?_))
    rintro r room ⟨j, hj, rfl⟩
    exact h.exportRoom_same hs hdto ht ⟨hi, hj⟩
  rest := by
    have happ := List.mem_of_getElem? hi
    have hlobbies := forall₂_orderBy hcollate (·.slug) (·.slug)
      (h.lobbies_found hs hdto ht hi) (fun _ _ => rfl) (h.distinct.lobbies app happ)
    have hmap : (orderBy collate (·.slug)
          (findAll t.lobbies fun l => decide (l.appId = (appRow draws i app).appId))).map
        (exportLobby t (roomRefById collate t seen)) =
          (orderBy collate (·.slug) (app.lobbies.getD [])).map LobbyDoc.normalise := by
      refine eq_of_forall₂_map (hlobbies.imp ?_)
      rintro r lobby ⟨j, hj, rfl⟩
      exact h.exportLobby_eq hs hdto ht hseen hi hj hin
    unfold exportApp AppDoc.normalise
    rw [hmap]
    rfl

include hcollate in
theorem exportApps_same : List.Forall₂ AppDoc.Same
    (exportApps collate t (appsOf collate t draws.project))
    ((orderBy collate (·.slug) (doc.apps.getD [])).map (AppDoc.normalise collate)) := by
  have happs := forall₂_orderBy hcollate (·.slug) (·.slug)
    (h.apps_found hs hdto ht) (fun _ _ => rfl) h.distinct.apps
  refine forall₂_mapIdx happs fun k a app hk ⟨i, hi, ha⟩ => ?_
  subst ha
  refine h.exportApp_same hcollate hs hdto ht (fun app' happ' => ?_) hi ?_
  · exact mem_appsOf.1 (List.mem_of_mem_take happ')
  · exact List.mem_of_getElem? (i := k) (by rw [List.getElem?_take, if_pos (Nat.lt_succ_self k)]; exact hk)

include hcollate in
theorem exportScopes_eq : (scopesOf collate t draws.project).map exportScope =
    (orderBy collate (·.slug) (doc.accessScopes.getD [])).map AccessScopeDoc.normalise := by
  have hscopes := forall₂_orderBy hcollate (·.slug) (·.slug)
    (h.scopes_found hs hdto ht) (fun _ _ => rfl) h.distinct.scopes
  refine eq_of_forall₂_map (hscopes.imp ?_)
  rintro r scope ⟨i, -, rfl⟩
  rfl

variable (hjs : JsDates host.legacy) (hparse : Parsable host.legacy doc)

include hjs hparse

variable (collate) in
theorem appAccess_exported {i : Nat} {actor : ActorDoc}
    (hi : (doc.actors.getD [])[i]? = some actor) :
    ∃ os, mapOk (exportAppGrant (OrderedMap.ofList (·.appId) (·.slug)
        (appsOf collate t draws.project))) (appGrantsOf t (createdActorRow host draws doc i actor)) =
          .ok os ∧
      (os.filterMap id).Perm
        ((actor.appAccess.getD []).map (ActorAppGrantDoc.normalise host.legacy)) := by
  have ha := List.mem_of_getElem? hi
  refine grants_exported (h.appGrants_found hs hdto ht hi) fun j grant hj => ?_
  have hg := List.mem_of_getElem? hj
  obtain ⟨k, app, hk, hslug, hid⟩ :=
    appId_of_closed draws h.distinct (h.closedDoc hdto) ha hg
  have htext : grant.expiresAt ∈ doc.dateTexts := List.mem_flatMap.2 ⟨actor, ha,
    List.mem_cons_of_mem _ (List.mem_append_left _ (List.mem_map_of_mem hg))⟩
  refine ⟨appGrantRow draws i j grant (draws.app k) (storedDate host.legacy grant.expiresAt), ?_, ?_⟩
  · rw [createdAppGrant, hid]
    rfl
  · refine (exportAppGrant_iff (h.valid_reordered ht)).2 ⟨appRow draws k app, _,
      h.appOf_appRow hs hdto ht hk, rfl, ?_, isoColumn_storedDate hjs (hparse _ htext), ?_⟩
    · exact (segment_appSlug hdto (List.mem_of_getElem? hk)).1
    · rw [appGrantDoc, ActorAppGrantDoc.normalise, ← hslug]
      rfl

variable (collate) in
theorem roomAccess_exported {i : Nat} {actor : ActorDoc}
    (hi : (doc.actors.getD [])[i]? = some actor) :
    ∃ os, mapOk (exportRoomGrant (roomRefById collate t (appsOf collate t draws.project)))
        (roomGrantsOf t (createdActorRow host draws doc i actor)) = .ok os ∧
      (os.filterMap id).Perm
        ((actor.roomAccess.getD []).map (ActorRoomGrantDoc.normalise host.legacy)) := by
  have ha := List.mem_of_getElem? hi
  refine grants_exported (h.roomGrants_found hs hdto ht hi) fun j grant hj => ?_
  have hg := List.mem_of_getElem? hj
  obtain ⟨k, app, l, room, hplace, happ, hroom, hid⟩ :=
    roomId_of_closed draws h.distinct (h.closedDoc hdto) hdto ha hg
  have htext : grant.expiresAt ∈ doc.dateTexts := List.mem_flatMap.2 ⟨actor, ha,
    List.mem_cons_of_mem _ (List.mem_append_right _ (List.mem_map_of_mem hg))⟩
  refine ⟨roomGrantRow draws i j grant (draws.room k l) (storedDate host.legacy grant.expiresAt),
    ?_, ?_⟩
  · rw [createdRoomGrant, hid]
    rfl
  · have hof := (h.mem_roomsOf_appRow collate hs hdto ht hplace.atApp).2
      ⟨l, room, hplace.atRoom, rfl⟩
    refine (exportRoomGrant_iff (h.valid_reordered ht)).2 ⟨appRow draws k app,
      roomRow draws k l room, _, ⟨h.appOf_appRow hs hdto ht hplace.atApp, mem_roomsOf.1 hof⟩, rfl,
      isoColumn_storedDate hjs (hparse _ htext), ?_⟩
    rw [roomGrantDoc, ActorRoomGrantDoc.normalise, ← happ, ← hroom]
    rfl

omit hjs hparse in
variable (collate) in
/-- The scope of an actor, by its slug. -/
theorem scopeSlug_exported {actor : ActorDoc} (ha : actor ∈ doc.actors.getD []) :
    (boundScope draws doc actor).bind (OrderedMap.ofList (·.accessScopeId) (·.slug)
        (scopesOf collate t draws.project)).get? =
      actor.scopeSlug.filter fun slug => truthy (some slug) := by
  rcases h.namesScope ha with ⟨hfalsy, hnone⟩ | ⟨k, scope, hk, hne, hslug, hsome⟩
  · rw [hnone]
    cases hslug : actor.scopeSlug with
    | none => rfl
    | some slug =>
      rw [hslug] at hfalsy
      rw [Option.filter_some, hfalsy]
      rfl
  · have hmem := (h.scopes_found hs hdto ht).mem_iff.1 (mem_mapIdx_iff.2 ⟨k, scope, hk, rfl⟩)
    obtain ⟨hrow, hlive, hid⟩ := mem_findAll.1 hmem
    have hget : (OrderedMap.ofList (·.accessScopeId) (·.slug)
        (scopesOf collate t draws.project)).get? (draws.scope k) = some scope.slug :=
      (scopeSlugById_iff (h.valid_reordered ht)).2
        ⟨scopeRow draws k scope, ⟨hrow, hlive, of_decide_eq_true hid⟩, rfl, rfl⟩
    rw [hsome, hslug, Option.bind_some, hget, Option.filter_some, if_pos (truthy_some.2 hne)]

theorem exportActor_same {i : Nat} {actor : ActorDoc} (hi : (doc.actors.getD [])[i]? = some actor) :
    ∃ e, exportActorOf collate t draws.project (createdActorRow host draws doc i actor) = .ok e ∧
      e.Same (actor.withoutEmptyScope.normalise host.legacy credentials.actors) := by
  have ha := List.mem_of_getElem? hi
  obtain ⟨apps, happs, happsPerm⟩ :=
    h.appAccess_exported collate hs hdto ht hjs hparse hi
  obtain ⟨rooms, hrooms, hroomsPerm⟩ :=
    h.roomAccess_exported collate hs hdto ht hjs hparse hi
  have htext : actor.expiresAt ∈ doc.dateTexts :=
    List.mem_flatMap.2 ⟨actor, ha, List.mem_cons_self⟩
  refine ⟨_, bind_ok.2 ⟨_, isoColumn_storedDate hjs (hparse _ htext), bind_ok.2 ⟨apps, happs,
    bind_ok.2 ⟨rooms, hrooms, rfl⟩⟩⟩, happsPerm, hroomsPerm, ?_⟩
  have href : mintedKeyId credentials.actors actor.ref = (credentialOf host draws i).keyId := by
    rw [h.minted]
    exact mintedKeyId_mapIdx h.distinct.actors hi
  have hscope := h.scopeSlug_exported collate hs hdto ht ha
  simp only [ActorDoc.normalise, ActorDoc.withoutEmptyScope, href, ← hscope]
  rfl

omit h hs hdto ht hjs hparse in
theorem limits_completed (project : ProjectDoc) :
    ({ name := (projectRow draws now project).name
       description := (projectRow draws now project).description
       organizationId := (projectRow draws now project).organizationId
       limits := (projectRow draws now project).limitsSyncedAt.map fun _ =>
         { maxConnections := (projectRow draws now project).maxConnections
           maxMessageSizeBytes := (projectRow draws now project).maxMessageSizeBytes
           sessionExpirySeconds := (projectRow draws now project).sessionExpirySeconds } } :
        ProjectDoc) = project := by
  cases project with
  | mk name description organizationId limits => cases limits <;> rfl

variable (collate) in
theorem exportActors_same : ∃ docs, mapOk (exportActorOf collate t draws.project)
      (actorsOf collate t draws.project) = .ok docs ∧
    ∃ actors, docs.Perm actors ∧ List.Forall₂ ActorDoc.Same actors
      ((doc.actors.getD []).map fun actor =>
        actor.withoutEmptyScope.normalise host.legacy credentials.actors) := by
  have hrows : List.Forall₂ (fun row d => ∃ e, exportActorOf collate t draws.project row = .ok e ∧
      e.Same d) ((doc.actors.getD []).mapIdx (createdActorRow host draws doc))
      ((doc.actors.getD []).map fun actor =>
        actor.withoutEmptyScope.normalise host.legacy credentials.actors) := by
    refine forall₂_mapIdx (R := Eq) (List.forall₂_refl _) fun i actor actor' hi heq => ?_
    subst heq
    exact h.exportActor_same hs hdto ht hjs hparse hi
  obtain ⟨actors, hactors, hsame⟩ := mapOk_forall₂ hrows
  have hperm := (h.actors_found hs hdto ht).trans (sortOn_perm collate (·.keyId) _).symm
  obtain ⟨docs, hdocs, hdocsPerm⟩ := mapOk_perm hperm hactors
  exact ⟨docs, hdocs, actors, hdocsPerm.symm, hsame⟩

omit hjs hparse in
theorem exportKeys_same : ((orderBy collate (·.keyId) (findAll t.signingKeys fun k =>
      decide (k.projectId = draws.project))).map fun k =>
        ({ ref := k.keyId, name := k.name } : SigningKeyDoc)).Perm
    ((doc.signingKeys.getD []).map (SigningKeyDoc.normalise credentials.signingKeys)) := by
  have hperm := ((sortOn_perm collate (·.keyId) _).trans
    (h.keys_found hs hdto ht).symm).map fun k : SigningKey =>
      ({ ref := k.keyId, name := k.name } : SigningKeyDoc)
  have hkeys : ((doc.signingKeys.getD []).mapIdx fun i key =>
      ({ ref := (createdKeyRow host draws i key).keyId, name := (createdKeyRow host draws i key).name } :
        SigningKeyDoc)) =
      (doc.signingKeys.getD []).map (SigningKeyDoc.normalise credentials.signingKeys) := by
    refine List.mapIdx_eq_iff.2 fun i => ?_
    rw [List.getElem?_map]
    cases hi : (doc.signingKeys.getD [])[i]? with
    | none => rfl
    | some key =>
      have href : mintedKeyId credentials.signingKeys key.ref = (generatedKey host draws i).keyId := by
        rw [h.minted]
        exact mintedKeyId_mapIdx h.distinct.signingKeys hi
      simp only [Option.map_some, SigningKeyDoc.normalise, href]
      rfl
  rw [map_mapIdx, hkeys] at hperm
  exact hperm

include hcollate in
theorem exportProject_same : ∃ e, exportProject collate t draws.project = .ok e ∧
    e.Same (doc.withoutEmptyScopes.normalise host.legacy collate credentials) := by
  obtain ⟨docs, hdocs, actors, hactors, hsame⟩ :=
    h.exportActors_same collate hs hdto ht hjs hparse
  have hlist : doc.withoutEmptyScopes.actors.getD [] =
      (doc.actors.getD []).map ActorDoc.withoutEmptyScope := by
    unfold ProjectConfigDoc.withoutEmptyScopes
    cases doc.actors <;> rfl
  have happs := h.exportApps_same hcollate hs hdto ht
  unfold exportProject
  rw [h.project_found hdto ht]
  refine ⟨_, bind_ok.2 ⟨docs, hdocs, rfl⟩, happs, ⟨actors, hactors, ?_⟩,
    h.exportKeys_same hs hdto ht, ?_⟩
  · simp only [ProjectConfigDoc.normalise, Option.getD_some, hlist, List.map_map]
    exact hsame
  · simp only [ProjectConfigDoc.normalise, ProjectConfigDoc.withoutEmptyScopes, h.version]
    rw [h.exportScopes_eq hcollate hs hdto ht, limits_completed]

end

end Completed

/-- Nothing a document says is lost: exporting the project an import created gives the document back
in its normal form, an empty scope slug counting as an absent one. -/
theorem export_of_imported (collate : String → String → Bool) (host : Host) (draws : Draws)
    (now : Int) (db db' : Database) (doc : ProjectConfigDoc) (credentials : ImportedCredentials)
    (t : Store) (hcollate : TotalOrder collate) (hjs : JsDates host.legacy)
    (hdto : doc.slugsValid = true) (hparse : Parsable host.legacy doc)
    (himport : ProjectConfigFacade.importProject host draws now db doc = .ok (credentials, db'))
    (ht : db'.store.Reorder t) :
    ∃ e, exportProject collate t credentials.projectId = .ok e ∧
      e.Same (doc.withoutEmptyScopes.normalise host.legacy collate credentials) := by
  have h := facade_completed himport
  have hproject : credentials.projectId = draws.project := by
    rw [h.minted]
    rfl
  rw [hproject]
  exact h.exportProject_same hcollate db.valid hdto ht hjs hparse

theorem noLegacy_jsDates : JsDates fun _ => none where
  range _ _ h := by cases h
  empty := rfl

/-- `keyedHost`, where a date may be written as a day too. -/
def datedHost : Host :=
  { keyedHost with legacy := fun text => if text = "2030-01-01" then some 1893456000000 else none }

theorem datedHost_jsDates : JsDates datedHost.legacy where
  range text t h := by
    unfold datedHost at h
    dsimp only at h
    split at h
    · cases h
      decide
    · cases h
  empty := by decide

/-- `sampleDoc` with an actor that expires on a day, and before it at an instant on its app. -/
def datedDoc : ProjectConfigDoc :=
  { sampleDoc with actors := some [
    { ref := "alice", name := "Alice", actorType := .user, scopeSlug := some "acme"
      expiresAt := some "2030-01-01"
      appAccess := some [{ appSlug := "chat", permission := .pubSub
                           expiresAt := some "2029-06-30T12:00:00.000Z" }]
      roomAccess := some [{ appSlug := "chat", roomSlug := "lounge", permission := .pubSub }] }] }

theorem datedDoc_parsable : Parsable datedHost.legacy datedDoc := by
  intro text htext date hdate
  have htexts : datedDoc.dateTexts =
      [some "2030-01-01", some "2029-06-30T12:00:00.000Z", none] := by decide
  rw [htexts] at htext
  simp only [List.mem_cons, List.not_mem_nil, or_false] at htext
  rcases htext with rfl | rfl | rfl
  · cases hdate
    exact ⟨1893456000000, by decide +kernel⟩
  · cases hdate
    exact ⟨1877515200000, by decide +kernel⟩
  · cases hdate

theorem export_of_imported_dated : ∃ credentials db' e,
    ProjectConfigFacade.importProject datedHost keyedDraws 0 Database.empty datedDoc =
      .ok (credentials, db') ∧
    exportProject collateC db'.store credentials.projectId = .ok e ∧
    e.Same (datedDoc.withoutEmptyScopes.normalise datedHost.legacy collateC credentials) := by
  have hok : (ProjectConfigFacade.importProject datedHost keyedDraws 0 Database.empty
      datedDoc).toOption.isSome = true := by decide +kernel
  cases himport : ProjectConfigFacade.importProject datedHost keyedDraws 0 Database.empty
      datedDoc with
  | error e =>
    rw [himport] at hok
    cases hok
  | ok result =>
    obtain ⟨e, he⟩ := export_of_imported collateC datedHost keyedDraws 0 Database.empty result.2
      datedDoc result.1 result.2.store collateC_order datedHost_jsDates (by decide)
      datedDoc_parsable himport (Reorder.refl _)
    exact ⟨result.1, result.2, e, rfl, he⟩

/-- An actor whose scope slug is given and empty. -/
def unscopedDoc : ProjectConfigDoc where
  version := 1
  project := { name := "Project" }
  actors := some [{ ref := "alice", name := "Alice", actorType := .user, scopeSlug := some "" }]

/-- The empty slug comes back as an absent one. -/
theorem export_loses_empty_scope : ¬ ∀ (collate : String → String → Bool) (host : Host)
    (draws : Draws) (now : Int) (db db' : Database) (doc : ProjectConfigDoc)
    (credentials : ImportedCredentials) (t : Store), TotalOrder collate → JsDates host.legacy →
    doc.slugsValid = true → Parsable host.legacy doc →
    ProjectConfigFacade.importProject host draws now db doc = .ok (credentials, db') →
    db'.store.Reorder t →
    ∃ e, exportProject collate t credentials.projectId = .ok e ∧
      e.Same (doc.normalise host.legacy collate credentials) := by
  intro hevery
  have hrun : (ProjectConfigFacade.importProject sampleHost sampleDraws 0 Database.empty
      unscopedDoc).toOption.all (fun result =>
        ((exportProject collateC result.2.store result.1.projectId).toOption.all fun e =>
          (e.actors.getD []).all fun actor => actor.scopeSlug.isNone)) = true ∧
      (ProjectConfigFacade.importProject sampleHost sampleDraws 0 Database.empty
        unscopedDoc).toOption.isSome = true := by decide +kernel
  cases himport : ProjectConfigFacade.importProject sampleHost sampleDraws 0 Database.empty
      unscopedDoc with
  | error e =>
    rw [himport] at hrun
    cases hrun.2
  | ok result =>
    have hparse : Parsable sampleHost.legacy unscopedDoc := by
      intro text htext date hdate
      have hnone : text = none := by
        simpa [unscopedDoc, ProjectConfigDoc.dateTexts] using htext
      rw [hnone] at hdate
      cases hdate
    obtain ⟨e, he, hsame⟩ := hevery collateC sampleHost sampleDraws 0 Database.empty result.2
      unscopedDoc result.1 result.2.store collateC_order noLegacy_jsDates (by decide) hparse himport
      (Reorder.refl _)
    have hall := hrun.1
    rw [himport] at hall
    simp only [Except.toOption, Option.all_some, he] at hall
    obtain ⟨actors, hperm, hactors⟩ := hsame.actors
    obtain ⟨actor, rest, hactor, -, rfl⟩ := List.forall₂_cons_right_iff.1 hactors
    have hscope : actor.scopeSlug = some "" := congrArg ActorDoc.scopeSlug hactor.rest
    have hnone := List.all_eq_true.1 hall actor (hperm.mem_iff.2 List.mem_cons_self)
    rw [hscope] at hnone
    cases hnone

end ProjectConfig
end NolagCore
