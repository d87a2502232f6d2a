import NolagCore.Common.SecretCipher
import NolagCore.Facade.Validation
import NolagCore.ProjectConfig.Created

/-!
# ProjectConfig.WellFormed

What makes a document one that can be imported: distinct slugs and handles, references that lead to
parts of the document itself, and a key to encrypt signing keys with. The slugs of a document that
passes validation contain no slash, so the address of a room leads to one room.
-/

namespace NolagCore
namespace ProjectConfig

open Lib Store

/-- A key of 32 bytes is configured. -/
def HasKey (lib : CipherLibrary) (config : CoreConfig) : Prop :=
  ∃ key, config.signingKeyEncryptionKey = some key ∧ key ≠ "" ∧ lib.IsKey key

/-- Why a document is refused. -/
inductive Malformed (lib : CipherLibrary) (config : CoreConfig) (doc : ProjectConfigDoc) : Prop
  | version (h : doc.version ≠ docVersion)
  | scopeSlug (h : ¬ ((doc.accessScopes.getD []).map (·.slug)).Nodup)
  | appSlug (h : ¬ ((doc.apps.getD []).map (·.slug)).Nodup)
  | actorRef (h : ¬ ((doc.actors.getD []).map (·.ref)).Nodup)
  | signingKeyRef (h : ¬ ((doc.signingKeys.getD []).map (·.ref)).Nodup)
  | roomSlug {app : AppDoc} (happ : app ∈ doc.apps.getD [])
    (h : ¬ ((app.rooms.getD []).map (·.slug)).Nodup)
  | lobbySlug {app : AppDoc} (happ : app ∈ doc.apps.getD [])
    (h : ¬ ((app.lobbies.getD []).map (·.slug)).Nodup)
  | lobbyRoom {app : AppDoc} {lobby : LobbyDoc} {roomSlug : String} (happ : app ∈ doc.apps.getD [])
    (hlobby : lobby ∈ app.lobbies.getD []) (hslug : roomSlug ∈ lobby.rooms)
    (h : ∀ room ∈ app.rooms.getD [], room.slug ≠ roomSlug)
  | actorScope {actor : ActorDoc} {slug : String} (ha : actor ∈ doc.actors.getD [])
    (hslug : actor.scopeSlug = some slug) (hne : slug ≠ "")
    (h : ∀ scope ∈ doc.accessScopes.getD [], scope.slug ≠ slug)
  | grantedApp {actor : ActorDoc} {grant : ActorAppGrantDoc} (ha : actor ∈ doc.actors.getD [])
    (hg : grant ∈ actor.appAccess.getD []) (h : ∀ app ∈ doc.apps.getD [], app.slug ≠ grant.appSlug)
  | grantedRoom {actor : ActorDoc} {grant : ActorRoomGrantDoc} (ha : actor ∈ doc.actors.getD [])
    (hg : grant ∈ actor.roomAccess.getD []) (h : ∀ app ∈ doc.apps.getD [],
      app.slug = grant.appSlug → ∀ room ∈ app.rooms.getD [], room.slug ≠ grant.roomSlug)
  | appGrants {actor : ActorDoc} (ha : actor ∈ doc.actors.getD [])
    (h : ¬ ((actor.appAccess.getD []).map (·.appSlug)).Nodup)
  | encryption (hkeys : doc.signingKeys.getD [] ≠ []) (h : ¬ HasKey lib config)

/-- The slugs and handles of a document are told apart. -/
structure Distinct (doc : ProjectConfigDoc) : Prop where
  scopes : ((doc.accessScopes.getD []).map (·.slug)).Nodup
  apps : ((doc.apps.getD []).map (·.slug)).Nodup
  actors : ((doc.actors.getD []).map (·.ref)).Nodup
  signingKeys : ((doc.signingKeys.getD []).map (·.ref)).Nodup
  rooms : ∀ app ∈ doc.apps.getD [], ((app.rooms.getD []).map (·.slug)).Nodup
  lobbies : ∀ app ∈ doc.apps.getD [], ((app.lobbies.getD []).map (·.slug)).Nodup

/-- The references of a document lead to its own parts. -/
structure Closed (doc : ProjectConfigDoc) : Prop where
  lobbyRoom : ∀ app ∈ doc.apps.getD [], ∀ lobby ∈ app.lobbies.getD [], ∀ roomSlug ∈ lobby.rooms,
    ∃ room ∈ app.rooms.getD [], room.slug = roomSlug
  scope : ∀ actor ∈ doc.actors.getD [], ∀ slug, actor.scopeSlug = some slug → slug ≠ "" →
    ∃ scope ∈ doc.accessScopes.getD [], scope.slug = slug
  app : ∀ actor ∈ doc.actors.getD [], ∀ grant ∈ actor.appAccess.getD [],
    ∃ app ∈ doc.apps.getD [], app.slug = grant.appSlug
  room : ∀ actor ∈ doc.actors.getD [], ∀ grant ∈ actor.roomAccess.getD [],
    ∃ app ∈ doc.apps.getD [], app.slug = grant.appSlug ∧
      ∃ room ∈ app.rooms.getD [], room.slug = grant.roomSlug

structure WellFormed (lib : CipherLibrary) (config : CoreConfig) (doc : ProjectConfigDoc) :
    Prop where
  version : doc.version = docVersion
  distinct : Distinct doc
  closed : Closed doc
  appGrants : ∀ actor ∈ doc.actors.getD [], ((actor.appAccess.getD []).map (·.appSlug)).Nodup
  encryption : doc.signingKeys.getD [] ≠ [] → HasKey lib config

theorem malformed_iff {lib : CipherLibrary} {config : CoreConfig} {doc : ProjectConfigDoc} :
    Malformed lib config doc ↔ ¬ WellFormed lib config doc := by
  constructor
  · intro h hw
    cases h with
    | version h => exact h hw.version
    | scopeSlug h => exact h hw.distinct.scopes
    | appSlug h => exact h hw.distinct.apps
    | actorRef h => exact h hw.distinct.actors
    | signingKeyRef h => exact h hw.distinct.signingKeys
    | roomSlug happ h => exact h (hw.distinct.rooms _ happ)
    | lobbySlug happ h => exact h (hw.distinct.lobbies _ happ)
    | lobbyRoom happ hlobby hslug h =>
      obtain ⟨room, hroom, heq⟩ := hw.closed.lobbyRoom _ happ _ hlobby _ hslug
      exact h room hroom heq
    | actorScope ha hslug hne h =>
      obtain ⟨scope, hscope, heq⟩ := hw.closed.scope _ ha _ hslug hne
      exact h scope hscope heq
    | grantedApp ha hg h =>
      obtain ⟨app, happ, heq⟩ := hw.closed.app _ ha _ hg
      exact h app happ heq
    | grantedRoom ha hg h =>
      obtain ⟨app, happ, heq, room, hroom, heq'⟩ := hw.closed.room _ ha _ hg
      exact h app happ heq room hroom heq'
    | appGrants ha h => exact h (hw.appGrants _ ha)
    | encryption hkeys h => exact h (hw.encryption hkeys)
  · intro h
    by_contra hm
    refine h ⟨by_contra fun hv => hm (.version hv), ⟨by_contra fun hd => hm (.scopeSlug hd),
      by_contra fun hd => hm (.appSlug hd), by_contra fun hd => hm (.actorRef hd),
      by_contra fun hd => hm (.signingKeyRef hd),
      fun app happ => by_contra fun hd => hm (.roomSlug happ hd),
      fun app happ => by_contra fun hd => hm (.lobbySlug happ hd)⟩, ⟨?_, ?_, ?_, ?_⟩,
      fun actor ha => by_contra fun hd => hm (.appGrants ha hd),
      fun hkeys => by_contra fun hk => hm (.encryption hkeys hk)⟩
    · intro app happ lobby hlobby roomSlug hslug
      by_contra hno
      exact hm (.lobbyRoom happ hlobby hslug fun room hroom heq => hno ⟨room, hroom, heq⟩)
    · intro actor ha slug hslug hne
      by_contra hno
      exact hm (.actorScope ha hslug hne fun scope hscope heq => hno ⟨scope, hscope, heq⟩)
    · intro actor ha grant hg
      by_contra hno
      exact hm (.grantedApp ha hg fun app happ heq => hno ⟨app, happ, heq⟩)
    · intro actor ha grant hg
      by_contra hno
      exact hm (.grantedRoom ha hg fun app happ heq room hroom heq' =>
        hno ⟨app, happ, heq, room, hroom, heq'⟩)

/-! ## The check of slugs -/

theorem firstRepeated_eq_none {l seen : List String} :
    firstRepeated seen l = none ↔ l.Nodup ∧ ∀ v ∈ l, v ∉ seen := by
  refine ⟨nodup_of_firstRepeated, ?_⟩
  induction l generalizing seen with
  | nil => exact fun _ => rfl
  | cons v l ih =>
    rintro ⟨hnodup, hnew⟩
    obtain ⟨hv, hl⟩ := List.nodup_cons.1 hnodup
    rw [firstRepeated, if_neg (hnew v List.mem_cons_self)]
    refine ih ⟨hl, fun w hw hseen => ?_⟩
    rcases List.mem_cons.1 hseen with rfl | hseen
    · exact hv hw
    · exact hnew w (List.mem_cons_of_mem _ hw) hseen

theorem checkUnique_ok {label : String} {values : List String} :
    checkUnique label values = .ok () ↔ values.Nodup := by
  refine ⟨nodup_of_checkUnique, fun h => ?_⟩
  have hnone : firstRepeated [] values = none := firstRepeated_eq_none.2 ⟨h, fun _ _ => nofun⟩
  rw [checkUnique, hnone]

/-- A loop that only checks succeeds exactly when every element passes. -/
theorem forEach_check {α : Type} {f : α → Except CoreError Unit} {l : List α} (i : Nat) :
    forEach (fun _ a _ => f a) i l () = .ok () ↔ ∀ a ∈ l, f a = .ok () := by
  induction l generalizing i with
  | nil => simp [forEach]
  | cons a l ih =>
    rw [forEach, bind_ok]
    constructor
    · rintro ⟨_, ha, hl⟩ b hb
      rcases List.mem_cons.1 hb with rfl | hb
      · exact ha
      · exact (ih (i + 1)).1 hl b hb
    · intro h
      exact ⟨(), h a List.mem_cons_self,
        (ih (i + 1)).2 fun b hb => h b (List.mem_cons_of_mem _ hb)⟩

/-- `_assertUniqueSlugs` throws exactly when two slugs or handles that must differ are equal. -/
theorem assertUniqueSlugs_ok {doc : ProjectConfigDoc} :
    assertUniqueSlugs doc = .ok () ↔ Distinct doc := by
  have happs := forEach_check (l := doc.apps.getD []) (f := fun app : AppDoc => do
    checkUnique ("room slug in app \"" ++ app.slug ++ "\"") ((app.rooms.getD []).map (·.slug))
    checkUnique ("lobby slug in app \"" ++ app.slug ++ "\"") ((app.lobbies.getD []).map (·.slug))) 0
  unfold assertUniqueSlugs
  simp only [bind_ok] at happs ⊢
  constructor
  · rintro ⟨_, h₁, _, h₂, _, h₃, _, h₄, h₅⟩
    refine ⟨checkUnique_ok.1 h₁, checkUnique_ok.1 h₂, checkUnique_ok.1 h₃, checkUnique_ok.1 h₄,
      fun app happ => ?_, fun app happ => ?_⟩
    · obtain ⟨_, hrooms, _⟩ := happs.1 h₅ app happ
      exact checkUnique_ok.1 hrooms
    · obtain ⟨_, _, hlobbies⟩ := happs.1 h₅ app happ
      exact checkUnique_ok.1 hlobbies
  · intro h
    exact ⟨(), checkUnique_ok.2 h.scopes, (), checkUnique_ok.2 h.apps, (),
      checkUnique_ok.2 h.actors, (), checkUnique_ok.2 h.signingKeys, happs.2 fun app happ =>
        ⟨(), checkUnique_ok.2 (h.rooms app happ), checkUnique_ok.2 (h.lobbies app happ)⟩⟩

/-! ## Addresses of rooms -/

theorem count_roomKey (a r : String) :
    (roomKey a r).toList.count '/' = a.toList.count '/' + 1 + r.toList.count '/' := by
  unfold roomKey
  rw [String.toList_append, String.toList_append, List.count_append, List.count_append]
  rfl

/-- The address of a room whose slugs contain no slash is that of no other pair of slugs. -/
theorem roomKey_eq_iff {a r a' r' : String} (ha : Segment a) (hr : Segment r) :
    roomKey a' r' = roomKey a r ↔ a' = a ∧ r' = r := by
  constructor
  · intro h
    have hcount := congrArg (fun key : String => key.toList.count '/') h
    simp only [count_roomKey, List.count_eq_zero_of_not_mem ha.2,
      List.count_eq_zero_of_not_mem hr.2] at hcount
    have ha' : '/' ∉ a'.toList := List.count_eq_zero.1 (by omega)
    have hr' : '/' ∉ r'.toList := List.count_eq_zero.1 (by omega)
    have hsplit := congrArg (splitOn '/') h
    unfold roomKey at hsplit
    rw [splitOn_append rfl ha', splitOn_append rfl ha.2, splitOn_of_notMem hr',
      splitOn_of_notMem hr.2] at hsplit
    simpa using hsplit
  · rintro ⟨rfl, rfl⟩
    rfl

section

variable {draws : Draws} {doc : ProjectConfigDoc}

theorem segment_appSlug (hdto : doc.slugsValid = true) {app : AppDoc}
    (happ : app ∈ doc.apps.getD []) : Segment app.slug := by
  have happs := (Bool.and_eq_true_iff.1 hdto).2
  have h := List.all_eq_true.1 happs app happ
  exact segment_of_isDocSlug (Bool.and_eq_true_iff.1 (Bool.and_eq_true_iff.1 h).1).1

theorem segment_roomSlug (hdto : doc.slugsValid = true) {app : AppDoc}
    (happ : app ∈ doc.apps.getD []) {room : RoomDoc} (hroom : room ∈ app.rooms.getD []) : Segment room.slug := by
  have happs := (Bool.and_eq_true_iff.1 hdto).2
  have h := List.all_eq_true.1 happs app happ
  have hrooms := (Bool.and_eq_true_iff.1 (Bool.and_eq_true_iff.1 h).1).2
  exact segment_of_isDocSlug (List.all_eq_true.1 hrooms room hroom)

/-- A place in the document where a room stands. -/
structure RoomPlace (apps : List AppDoc) (i j : Nat) (app : AppDoc) (room : RoomDoc) : Prop where
  atApp : apps[i]? = some app
  atRoom : (app.rooms.getD [])[j]? = some room

/-- The address of a room is not ambiguous. -/
theorem roomPlace_unique (hdto : doc.slugsValid = true) (hdoc : Distinct doc) {i j i' j' : Nat}
    {app app' : AppDoc} {room room' : RoomDoc} (h : RoomPlace (doc.apps.getD []) i j app room)
    (h' : RoomPlace (doc.apps.getD []) i' j' app' room')
    (hkey : roomKey app'.slug room'.slug = roomKey app.slug room.slug) : i = i' ∧ j = j' := by
  have happ := List.mem_of_getElem? h.atApp
  obtain ⟨hslug, hroomSlug⟩ := (roomKey_eq_iff (segment_appSlug hdto happ)
    (segment_roomSlug hdto happ (List.mem_of_getElem? h.atRoom))).1 hkey
  have hi := index_eq_of_nodup_map hdoc.apps h.atApp h'.atApp hslug.symm
  subst hi
  have heq : app = app' := Option.some.inj (h.atApp.symm.trans h'.atApp)
  subst heq
  exact ⟨rfl, index_eq_of_nodup_map (hdoc.rooms app happ) h.atRoom h'.atRoom hroomSlug.symm⟩

theorem mem_roomEntries {apps : List AppDoc} {e : String × Uuid} : e ∈ roomEntries draws apps ↔
    ∃ i app j room, RoomPlace apps i j app room ∧
      e = (roomKey app.slug room.slug, draws.room i j) := by
  unfold roomEntries
  rw [List.mem_flatten]
  constructor
  · rintro ⟨l, hl, he⟩
    obtain ⟨i, app, hi, rfl⟩ := mem_mapIdx_iff.1 hl
    obtain ⟨j, room, hj, rfl⟩ := mem_mapIdx_iff.1 he
    exact ⟨i, app, j, room, ⟨hi, hj⟩, rfl⟩
  · rintro ⟨i, app, j, room, hplace, rfl⟩
    exact ⟨_, mem_mapIdx_iff.2 ⟨i, app, hplace.atApp, rfl⟩, mem_mapIdx_iff.2 ⟨j, room, hplace.atRoom, rfl⟩⟩

/-- What the map of rooms holds, at any point of the traversal of the apps. -/
theorem roomId_iff (hdto : doc.slugsValid = true) (hdoc : Distinct doc) {n : Nat}
    {appSlug roomSlug : String} {roomId : Uuid} :
    (roomIdByAppAndSlug draws ((doc.apps.getD []).take n)).get? (roomKey appSlug roomSlug) =
        some roomId ↔
      ∃ i app j room, i < n ∧ RoomPlace (doc.apps.getD []) i j app room ∧ app.slug = appSlug ∧
        room.slug = roomSlug ∧ draws.room i j = roomId := by
  have hplace : ∀ {i j : Nat} {app : AppDoc} {room : RoomDoc},
      RoomPlace ((doc.apps.getD []).take n) i j app room ↔
        i < n ∧ RoomPlace (doc.apps.getD []) i j app room := by
    intro i j app room
    constructor
    · rintro ⟨happ, hroom⟩
      rw [List.getElem?_take] at happ
      split at happ
      · rename_i hi
        exact ⟨hi, happ, hroom⟩
      · cases happ
    · rintro ⟨hi, happ, hroom⟩
      exact ⟨by rw [List.getElem?_take, if_pos hi, happ], hroom⟩
  unfold roomIdByAppAndSlug
  rw [OrderedMap.get?_ofList_iff]
  · constructor
    · rintro ⟨e, he, hkey, hid⟩
      obtain ⟨i, app, j, room, hat, rfl⟩ := mem_roomEntries.1 he
      obtain ⟨hi, hat⟩ := hplace.1 hat
      have happ := List.mem_of_getElem? hat.atApp
      obtain ⟨rfl, rfl⟩ := (roomKey_eq_iff (segment_appSlug hdto happ)
        (segment_roomSlug hdto happ (List.mem_of_getElem? hat.atRoom))).1 hkey.symm
      exact ⟨i, app, j, room, hi, hat, rfl, rfl, hid⟩
    · rintro ⟨i, app, j, room, hi, hat, rfl, rfl, rfl⟩
      exact ⟨_, mem_roomEntries.2 ⟨i, app, j, room, hplace.2 ⟨hi, hat⟩, rfl⟩, rfl, rfl⟩
  · intro e he e' he' hkey
    obtain ⟨i, app, j, room, hat, rfl⟩ := mem_roomEntries.1 he
    obtain ⟨i', app', j', room', hat', rfl⟩ := mem_roomEntries.1 he'
    obtain ⟨rfl, rfl⟩ := roomPlace_unique hdto hdoc (hplace.1 hat).2 (hplace.1 hat').2 hkey.symm
    rfl

theorem roomId_iff_all (hdto : doc.slugsValid = true) (hdoc : Distinct doc)
    {appSlug roomSlug : String} {roomId : Uuid} :
    (roomIdByAppAndSlug draws (doc.apps.getD [])).get? (roomKey appSlug roomSlug) = some roomId ↔
      ∃ i app j room, RoomPlace (doc.apps.getD []) i j app room ∧ app.slug = appSlug ∧
        room.slug = roomSlug ∧ draws.room i j = roomId := by
  have h : (roomIdByAppAndSlug draws ((doc.apps.getD []).take (doc.apps.getD []).length)).get?
      (roomKey appSlug roomSlug) = some roomId ↔ _ := roomId_iff hdto hdoc
  rw [List.take_length] at h
  rw [h]
  constructor
  · rintro ⟨i, app, j, room, -, hrest⟩
    exact ⟨i, app, j, room, hrest⟩
  · rintro ⟨i, app, j, room, hat, hrest⟩
    have hi : i < (doc.apps.getD []).length := (List.getElem?_eq_some_iff.1 hat.atApp).1
    exact ⟨i, app, j, room, hi, hat, hrest⟩

theorem appId_iff (hdoc : Distinct doc) {slug : String} {appId : Uuid} :
    (appIdBySlug draws (doc.apps.getD [])).get? slug = some appId ↔
      ∃ (i : Nat) (app : AppDoc), (doc.apps.getD [])[i]? = some app ∧ app.slug = slug ∧
        draws.app i = appId := by
  unfold appIdBySlug
  rw [OrderedMap.get?_ofList_mapIdx]
  intro i app i' app' hi hi' hslug
  exact congrArg draws.app (index_eq_of_nodup_map hdoc.apps hi hi' hslug)

theorem scopeId_iff (hdoc : Distinct doc) {slug : String} {accessScopeId : Uuid} :
    (scopeIdBySlug draws (doc.accessScopes.getD [])).get? slug = some accessScopeId ↔
      ∃ (i : Nat) (scope : AccessScopeDoc), (doc.accessScopes.getD [])[i]? = some scope ∧
        scope.slug = slug ∧ draws.scope i = accessScopeId := by
  unfold scopeIdBySlug
  rw [OrderedMap.get?_ofList_mapIdx]
  intro i scope i' scope' hi hi' hslug
  exact congrArg draws.scope (index_eq_of_nodup_map hdoc.scopes hi hi' hslug)

end

end ProjectConfig
end NolagCore
