import NolagCore.Facade.Operation
import NolagCore.Lobby.Presence

/-!
# Lobby.Cluster

Membership as many instances read it, each through caches of its own. A change of the members drops
the entries of the instance it is made on, and provisioning drops none; the other instances keep
theirs for two minutes. A list that is read was nevertheless that of the rows, at some moment no more
than two minutes, and the time a lookup takes from its read to its write of the cache, before the
read began.
-/

namespace NolagCore
namespace LobbyFacade

open Lib Facade
open ProjectConfig (Host)

/-- The two lists that are read through a cache. -/
inductive MembershipCache where
  | lobbiesForRoom
  | lobbyRooms

def MembershipCache.rows (m : MembershipCache) (s : Store) (id : Uuid) : List LobbyRoom :=
  match m with
  | .lobbiesForRoom => findByRoomId s id
  | .lobbyRooms => findByLobbyId s id

/-- `findLobbiesForRoom` or `listLobbyRoomsCached`, beside the operations of the facades. The cache
goes by the text of the id. -/
def membershipLookup (host : Host) (m : MembershipCache) : ReadThrough Database Operation IdText
    (List LobbyRoom) (List LobbyRoom) Int (TtlCache (List LobbyRoom)) where
  cache := TtlCache.expiring membershipCacheTtlMs (by decide) IdText.text fun _ _ => IdText.ext_text
  change now db op := op.apply host now db
  load db id := m.rows db.store id.uuid
  accept _ _ rows := some rows

/-- With nothing beside it, the lookup is the function. -/
theorem lookup_eq_findLobbiesForRoom (host : Host) (st : Instance) (now : Int) (roomId : IdText) :
    (membershipLookup host .lobbiesForRoom).lookup st.db now st.lobbiesForRoomCache roomId =
      (some (st.findLobbiesForRoom now roomId).1,
        (st.findLobbiesForRoom now roomId).2.lobbiesForRoomCache) := by
  unfold ReadThrough.lookup ReadThrough.filled Instance.findLobbiesForRoom
  rcases hget : st.lobbiesForRoomCache.get now roomId.text with ⟨_ | cached, cache⟩
  · simp only [membershipLookup, TtlCache.expiring, MembershipCache.rows, hget]
  · simp only [membershipLookup, TtlCache.expiring, hget]

theorem lookup_eq_listLobbyRoomsCached (host : Host) (st : Instance) (now : Int)
    (lobbyId : IdText) :
    (membershipLookup host .lobbyRooms).lookup st.db now st.lobbyRoomsCache lobbyId =
      (some (st.listLobbyRoomsCached now lobbyId).1,
        (st.listLobbyRoomsCached now lobbyId).2.lobbyRoomsCache) := by
  unfold ReadThrough.lookup ReadThrough.filled Instance.listLobbyRoomsCached
  rcases hget : st.lobbyRoomsCache.get now lobbyId.text with ⟨_ | cached, cache⟩
  · simp only [membershipLookup, TtlCache.expiring, MembershipCache.rows, hget]
  · simp only [membershipLookup, TtlCache.expiring, hget]

/-- Every list an instance reads was that of the rows, no more than a delay and two minutes before
the read began. -/
theorem membership_read_recent {ι : Type} [DecidableEq ι] (host : Host) (m : MembershipCache)
    (db : Database) (now delay : Int) (run : List (Int × ReadThrough.Event ι Operation IdText))
    (st : ReadThrough.Cluster ι Database IdText (List LobbyRoom) (List LobbyRoom) Int
      (TtlCache (List LobbyRoom)))
    (hrun : exec (membershipLookup host m).step ((membershipLookup host m).start now db) run =
      some st)
    (hprompt : Meets (membershipLookup host m).step (ReadThrough.Prompt delay)
      ((membershipLookup host m).start now db) run) :
    ∀ c q v, st.calls c = some (q, .answered v) → ∃ r db',
      (membershipLookup host m).Found
        ((membershipLookup host m).start now db : ReadThrough.Cluster ι _ _ _ _ _ _) run r db' ∧
      q.begun ≤ r + delay + 120000 ∧ v = some (m.rows db'.store q.key.uuid) := by
  intro c q v hc
  obtain ⟨u, hu, r, db', hfound, hr, haccept⟩ := ReadThrough.answer_recent hrun hprompt hc
  have hlife : (membershipLookup host m).cache.lifetime = 120000 := rfl
  rw [hlife] at hu
  exact ⟨r, db', hfound, by omega, haccept.symm⟩

/-- The room is listed, joins the hall by provisioning, and is listed again. -/
def listedBeside : List (Int × ReadThrough.Event Bool Operation IdText) :=
  [(0, .enter 0 false (.of "room")), (1, .read 0), (2, .fill 0),
    (5, .change (.createStaticLobbies (fun _ => .of "l0") (.of "app")
      [{ slug := "hall", name := "Hall", rooms := some ["lobby"] }] [(.of "room", "lobby")])),
    (7, .enter 1 false (.of "room")), (120003, .enter 2 false (.of "room")), (120004, .read 2),
    (120005, .fill 2)]

theorem membership_read_recent_hall : ∃ st,
    exec (membershipLookup ProjectConfig.sampleHost .lobbiesForRoom).step
      ((membershipLookup ProjectConfig.sampleHost .lobbiesForRoom).start 0 sampleRoom) listedBeside =
      some st ∧
    ∀ c q v, st.calls c = some (q, .answered v) → ∃ r db',
      (membershipLookup ProjectConfig.sampleHost .lobbiesForRoom).Found
        ((membershipLookup ProjectConfig.sampleHost .lobbiesForRoom).start 0 sampleRoom :
          ReadThrough.Cluster Bool _ _ _ _ _ _) listedBeside r db' ∧
      q.begun ≤ r + 1 + 120000 ∧
      v = some (MembershipCache.rows .lobbiesForRoom db'.store q.key.uuid) :=
  ⟨_, rfl, membership_read_recent ProjectConfig.sampleHost .lobbiesForRoom sampleRoom 0 1
    listedBeside _ rfl (by decide +kernel)⟩

end LobbyFacade
end NolagCore
