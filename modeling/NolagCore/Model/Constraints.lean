import NolagCore.Model.Fragment

/-!
# Model.Constraints

The constraints of the schema in two halves. The unique keys of a database hold of everything that
was there before its last rows, so they are a matter of the rows a transaction ends with. The foreign
keys are a matter of the order in which the rows come.
-/

namespace NolagCore
namespace Store

open Lib

/-- Primary keys and unique indexes. -/
structure Keys (s : Store) : Prop where
  pkProject : UniqueOn Project.projectId s.projects
  pkScope : UniqueOn AccessScope.accessScopeId s.accessScopes
  pkApp : UniqueOn PlatformApp.appId s.apps
  pkRoom : UniqueOn Room.roomId s.rooms
  pkRoomGrant : UniqueOn RoomActorAccess.roomActorAccessId s.roomActorAccess
  pkLobby : UniqueOn Lobby.lobbyId s.lobbies
  pkLobbyRoom : UniqueOn (fun lr => (lr.lobbyId, lr.roomId)) s.lobbyRooms
  pkActor : UniqueOn ActorToken.actorTokenId s.actorTokens
  pkState : UniqueOn ActorTokenState.actorTokenStateId s.actorTokenStates
  pkAppGrant : UniqueOn ActorAppAccess.actorAppAccessId s.actorAppAccess
  pkSigningKey : UniqueOn SigningKey.signingKeyId s.signingKeys
  actorKeyId : UniqueOn ActorToken.keyId s.actorTokens
  signingKeyId : UniqueOn SigningKey.keyId s.signingKeys
  scopeSlug : UniqueOn (fun r => (r.projectId, r.slug)) (s.accessScopes.filter live)
  appSlug : UniqueOn (fun r => (r.projectId, r.slug)) (s.apps.filter live)
  roomSlug : UniqueOn (fun r => (r.appId, r.slug)) (s.rooms.filter live)
  lobbySlug : UniqueOn (fun r => (r.appId, r.slug)) (s.lobbies.filter live)
  appGrant : UniqueOn (fun g => (g.actorTokenId, g.appId)) s.actorAppAccess

/-- The foreign keys of the rows of `d` lead to rows of `t`. A table without rows has none. -/
structure RefersInto (d t : Store) : Prop where
  scopeProject : References d.accessScopes (some ·.projectId) t.projects Project.projectId := by
    exact .nil
  appProject : References d.apps (some ·.projectId) t.projects Project.projectId := by
    exact .nil
  actorProject : References d.actorTokens (some ·.projectId) t.projects Project.projectId := by
    exact .nil
  actorScope :
    References d.actorTokens ActorToken.accessScopeId t.accessScopes AccessScope.accessScopeId := by
    exact .nil
  keyProject : References d.signingKeys (some ·.projectId) t.projects Project.projectId := by
    exact .nil
  roomApp : References d.rooms (some ·.appId) t.apps PlatformApp.appId := by
    exact .nil
  grantRoom : References d.roomActorAccess (some ·.roomId) t.rooms Room.roomId := by
    exact .nil
  grantActor : References d.roomActorAccess RoomActorAccess.actorTokenId t.actorTokens
    ActorToken.actorTokenId := by
    exact .nil
  lobbyApp : References d.lobbies (some ·.appId) t.apps PlatformApp.appId := by
    exact .nil
  memberLobby : References d.lobbyRooms (some ·.lobbyId) t.lobbies Lobby.lobbyId := by
    exact .nil
  memberRoom : References d.lobbyRooms (some ·.roomId) t.rooms Room.roomId := by
    exact .nil
  stateActor : References d.actorTokenStates (some ·.actorTokenId) t.actorTokens
    ActorToken.actorTokenId := by
    exact .nil
  appGrantActor : References d.actorAppAccess (some ·.actorTokenId) t.actorTokens
    ActorToken.actorTokenId := by
    exact .nil
  appGrantApp : References d.actorAppAccess (some ·.appId) t.apps PlatformApp.appId := by
    exact .nil

theorem schemaValid_iff {s : Store} : s.SchemaValid ↔ s.Keys ∧ s.RefersInto s := by
  constructor
  · intro h
    exact ⟨⟨h.pkProject, h.pkScope, h.pkApp, h.pkRoom, h.pkRoomGrant, h.pkLobby, h.pkLobbyRoom,
        h.pkActor, h.pkState, h.pkAppGrant, h.pkSigningKey, h.actorKeyId, h.signingKeyId,
        h.scopeSlug, h.appSlug, h.roomSlug, h.lobbySlug, h.appGrant⟩,
      ⟨h.fkScopeProject, h.fkAppProject, h.fkActorProject, h.fkActorScope, h.fkKeyProject,
        h.fkRoomApp, h.fkGrantRoom, h.fkGrantActor, h.fkLobbyApp, h.fkMemberLobby, h.fkMemberRoom,
        h.fkStateActor, h.fkAppGrantActor, h.fkAppGrantApp⟩⟩
  · rintro ⟨k, f⟩
    exact ⟨k.pkProject, k.pkScope, k.pkApp, k.pkRoom, k.pkRoomGrant, k.pkLobby, k.pkLobbyRoom,
      k.pkActor, k.pkState, k.pkAppGrant, k.pkSigningKey, k.actorKeyId, k.signingKeyId,
      k.scopeSlug, k.appSlug, k.roomSlug, k.lobbySlug, k.appGrant, f.scopeProject, f.appProject,
      f.actorProject, f.actorScope, f.keyProject, f.roomApp, f.grantRoom, f.grantActor, f.lobbyApp,
      f.memberLobby, f.memberRoom, f.stateActor, f.appGrantActor, f.appGrantApp⟩

section Keys

variable {s d : Store}

/-- Unique keys hold of the rows that were there first. -/
theorem Keys.of_append (h : (s.append d).Keys) : s.Keys where
  pkProject := h.pkProject.left
  pkScope := h.pkScope.left
  pkApp := h.pkApp.left
  pkRoom := h.pkRoom.left
  pkRoomGrant := h.pkRoomGrant.left
  pkLobby := h.pkLobby.left
  pkLobbyRoom := h.pkLobbyRoom.left
  pkActor := h.pkActor.left
  pkState := h.pkState.left
  pkAppGrant := h.pkAppGrant.left
  pkSigningKey := h.pkSigningKey.left
  actorKeyId := h.actorKeyId.left
  signingKeyId := h.signingKeyId.left
  scopeSlug := h.scopeSlug.left_filter
  appSlug := h.appSlug.left_filter
  roomSlug := h.roomSlug.left_filter
  lobbySlug := h.lobbySlug.left_filter
  appGrant := h.appGrant.left

/-- New rows that lead to rows of the extended store leave every foreign key in place. -/
theorem RefersInto.append (h : s.RefersInto s) (hd : d.RefersInto (s.append d)) :
    (s.append d).RefersInto (s.append d) where
  scopeProject := h.scopeProject.append hd.scopeProject
  appProject := h.appProject.append hd.appProject
  actorProject := h.actorProject.append hd.actorProject
  actorScope := h.actorScope.append hd.actorScope
  keyProject := h.keyProject.append hd.keyProject
  roomApp := h.roomApp.append hd.roomApp
  grantRoom := h.grantRoom.append hd.grantRoom
  grantActor := h.grantActor.append hd.grantActor
  lobbyApp := h.lobbyApp.append hd.lobbyApp
  memberLobby := h.memberLobby.append hd.memberLobby
  memberRoom := h.memberRoom.append hd.memberRoom
  stateActor := h.stateActor.append hd.stateActor
  appGrantActor := h.appGrantActor.append hd.appGrantActor
  appGrantApp := h.appGrantApp.append hd.appGrantApp

end Keys

/-! ## Growing toward a final store -/

/-- `final` is `s` with more rows. -/
def Extends (final s : Store) : Prop := ∃ rest, s.append rest = final

theorem Extends.of_append {final s d : Store} (h : final.Extends (s.append d)) : final.Extends s := by
  obtain ⟨rest, rfl⟩ := h
  exact ⟨d.append rest, (append_assoc s d rest).symm⟩

theorem Extends.keys {final s : Store} (hkeys : final.Keys) (h : final.Extends s) : s.Keys := by
  obtain ⟨rest, rfl⟩ := h
  exact hkeys.of_append

/-- Every row of `d` is one of `s`. -/
def Within (d s : Store) : Prop := ∀ row, d.Has row → s.Has row

theorem Within.append {d s : Store} (h : d.Within s) (e : Store) : d.Within (s.append e) :=
  fun row hrow => (has_append row).2 (.inl (h row hrow))

theorem within_append_right (s d : Store) : d.Within (s.append d) :=
  fun row hrow => (has_append row).2 (.inr hrow)

theorem Within.union {d e s : Store} (hd : d.Within s) (he : e.Within s) : (d.append e).Within s :=
  fun row hrow => ((has_append row).1 hrow).elim (hd row) (he row)

/-- On the way to a store with unique keys, a loop whose body succeeds wherever the rows of `base`
are in place appends all its fragments. -/
theorem forEach_extends {α ε : Type} {f : Nat → α → Store → Except ε Store} {R : Nat → α → Prop}
    (frag : Nat → α → Store) (base final : Store)
    (hf : ∀ i a s, R i a → s.SchemaValid → base.Within s → final.Extends (s.append (frag i a)) →
      f i a s = .ok (s.append (frag i a)) ∧ (s.append (frag i a)).SchemaValid) :
    ∀ (l : List α) (i : Nat) (s : Store), (∀ k a, l[k]? = some a → R (i + k) a) → s.SchemaValid →
      base.Within s → final.Extends (s.append (fragments frag i l)) →
      Lib.forEach f i l s = .ok (s.append (fragments frag i l)) ∧
        (s.append (fragments frag i l)).SchemaValid := by
  intro l
  induction l with
  | nil =>
    intro i s _ hs _ _
    rw [fragments, append_empty]
    exact ⟨rfl, hs⟩
  | cons a l ih =>
    intro i s hR hs hbase hext
    rw [fragments, ← append_assoc] at hext
    obtain ⟨hok, hs'⟩ := hf i a s (hR 0 a rfl) hs hbase hext.of_append
    have hR' : ∀ k b, l[k]? = some b → R (i + 1 + k) b := by
      intro k b hk
      rw [show i + 1 + k = i + (k + 1) by omega]
      exact hR (k + 1) b (by simpa using hk)
    obtain ⟨hok', hvalid⟩ := ih (i + 1) _ hR' hs' (hbase.append _) hext
    rw [fragments, ← append_assoc]
    refine ⟨?_, hvalid⟩
    rw [Lib.forEach, hok]
    exact hok'

end Store
end NolagCore
