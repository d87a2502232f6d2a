import NolagCore.Common.Validators
import NolagCore.Facade.Operation

/-!
# Facade.Validation

What the validation of the DTOs lets through, as far as slugs and topic names go. The rules on names,
dates and limits are left out: a statement about every operation that passes the rules here covers
those that pass all of them.
-/

namespace NolagCore

open Lib

namespace ProjectConfig

/-- The slug rules of `ProjectConfigDocDto` and the documents in it. It has none for topic names. -/
def ProjectConfigDoc.slugsValid (doc : ProjectConfigDoc) : Bool :=
  (doc.accessScopes.getD []).all (fun scope => isDocSlug scope.slug) &&
    (doc.apps.getD []).all fun app => isDocSlug app.slug &&
      (app.rooms.getD []).all (fun room => isDocSlug room.slug) &&
      (app.lobbies.getD []).all fun lobby => isDocSlug lobby.slug

end ProjectConfig

namespace Facade

/-- The rules on the slugs and topic names of an operation's argument. Declared rooms and lobbies
have no DTO. -/
def Operation.dtoValid : Operation → Bool
  | .createScope _ _ dto => isScopeSlug dto.slug
  | .createApp _ _ dto => dto.slug.all isSlug && dto.topics.all isValidTopicName
  | .updateApp _ _ dto => dto.topics.all (·.all isValidTopicName)
  | .createRoom _ _ data | .ensureRoom _ _ data _ =>
    data.slug.all isSlug && data.topics.all (·.all isValidTopicName)
  | .updateRoom _ _ data => data.topics.all (·.all isValidTopicName)
  | .createRoomGrant _ _ dto => dto.topics.all (·.all isValidTopicName)
  | .updateRoomGrant _ dto => dto.topics.join.all (·.all isValidTopicName)
  | .createLobby _ _ data => data.slug.all isSlug
  | .importProject _ doc => doc.slugsValid
  | _ => true

end Facade
end NolagCore
