import NolagCore.Common.GeneratedSlug
import NolagCore.Facade.Linked

/-!
# Facade.Addressed

Every stored part of an address is a segment: the slugs of scopes, apps and rooms, and the topic names
of apps and grants. Each DTO that takes one checks it, but for the topic lists of an imported
document, which are any strings.
-/

namespace NolagCore

open Lib

namespace ProjectConfig

/-- The topic names of a document that authorization will read. -/
def ProjectConfigDoc.topicNames (doc : ProjectConfigDoc) : List String :=
  ((doc.apps.getD []).flatMap fun app => app.topics ++
    (app.rooms.getD []).flatMap fun room =>
      (room.typeGrants.getD []).flatMap fun grant => grant.topics.getD []) ++
  (doc.actors.getD []).flatMap fun actor =>
    ((actor.appAccess.getD []).flatMap fun grant => grant.topics.getD []) ++
      (actor.roomAccess.getD []).flatMap fun grant => grant.topics.getD []

end ProjectConfig

namespace Facade

open Store ProjectConfig
open Authz (configure)

def SegmentNames (topics : Option (List String)) : Prop := ∀ topicName ∈ topics.getD [],
  Segment topicName

/-- What a row contributes to addresses are segments. -/
def Addressed : Row → Prop
  | .accessScope r => Segment r.slug
  | .app r => Segment r.slug ∧ SegmentNames r.topics
  | .room r => Segment r.slug
  | .roomGrant r => SegmentNames r.topics
  | .appGrant r => SegmentNames r.topics
  | _ => True

/-- Every live row is addressed. -/
def AllAddressed (s : Store) : Prop :=
  ∀ row, row.isPlaced = true → row.isLive = true → s.Has row → Addressed row

/-- The names an operation stores without a DTO rule on them: the topic names of a document, and the
slugs of declared rooms, which have no DTO. -/
def Operation.uncheckedNames : Operation → List String
  | .importProject _ doc => doc.topicNames
  | .createStaticRooms _ _ rooms => rooms.map (·.slug)
  | _ => []

/-- Those names are segments all the same. -/
def PlainNames (op : Operation) : Prop := ∀ name ∈ op.uncheckedNames, Segment name

instance (op : Operation) : Decidable (PlainNames op) :=
  inferInstanceAs (Decidable (∀ name ∈ op.uncheckedNames, Segment name))

/-! ## What the DTOs let through -/

theorem segmentNames_of_dto {topics : Option (List String)}
    (h : topics.all (·.all isValidTopicName) = true) : SegmentNames topics := by
  intro topicName hmem
  cases topics with
  | none => cases hmem
  | some ts => exact segment_of_isValidTopicName (List.all_eq_true.1 h topicName hmem)

theorem segment_of_given {slug : Option String} {generated : String} (h : slug.all isSlug = true)
    (hgenerated : Segment generated) : Segment (slug.getD generated) := by
  cases slug with
  | none => exact hgenerated
  | some given => exact segment_of_isSlug h

/-- A room's slug is given and checked, or generated and not empty. -/
theorem segment_of_roomSlug {slug : Option String} {name : String} (h : slug.all isSlug = true)
    (hne : slug.getD (generateSlug name) ≠ "") : Segment (slug.getD (generateSlug name)) := by
  cases slug with
  | none => exact segment_of_generateSlug hne
  | some given => exact segment_of_isSlug h

/-! ## Imported rows -/

section

variable {host : Host} {draws : Draws} {now : Int} {doc : ProjectConfigDoc}

theorem segmentNames_of_docApp (h : ∀ name ∈ doc.topicNames, Segment name) {app : AppDoc}
    (happ : app ∈ doc.apps.getD []) : SegmentNames (some app.topics) := by
  intro topicName hmem
  refine h topicName (List.mem_append_left _ (List.mem_flatMap.2 ⟨app, happ, ?_⟩))
  exact List.mem_append_left _ hmem

theorem segmentNames_of_docTypeGrant (h : ∀ name ∈ doc.topicNames, Segment name) {app : AppDoc}
    (happ : app ∈ doc.apps.getD []) {room : RoomDoc} (hroom : room ∈ app.rooms.getD [])
    {grant : RoomTypeGrantDoc} (hgrant : grant ∈ room.typeGrants.getD []) :
    SegmentNames grant.topics := by
  intro topicName hmem
  refine h topicName (List.mem_append_left _ (List.mem_flatMap.2 ⟨app, happ, ?_⟩))
  exact List.mem_append_right _
    (List.mem_flatMap.2 ⟨room, hroom, List.mem_flatMap.2 ⟨grant, hgrant, hmem⟩⟩)

theorem segmentNames_of_docAppGrant (h : ∀ name ∈ doc.topicNames, Segment name) {actor : ActorDoc}
    (hactor : actor ∈ doc.actors.getD []) {grant : ActorAppGrantDoc}
    (hgrant : grant ∈ actor.appAccess.getD []) : SegmentNames grant.topics := by
  intro topicName hmem
  refine h topicName (List.mem_append_right _ (List.mem_flatMap.2 ⟨actor, hactor, ?_⟩))
  exact List.mem_append_left _ (List.mem_flatMap.2 ⟨grant, hgrant, hmem⟩)

theorem segmentNames_of_docRoomGrant (h : ∀ name ∈ doc.topicNames, Segment name) {actor : ActorDoc}
    (hactor : actor ∈ doc.actors.getD []) {grant : ActorRoomGrantDoc}
    (hgrant : grant ∈ actor.roomAccess.getD []) : SegmentNames grant.topics := by
  intro topicName hmem
  refine h topicName (List.mem_append_right _ (List.mem_flatMap.2 ⟨actor, hactor, ?_⟩))
  exact List.mem_append_right _ (List.mem_flatMap.2 ⟨grant, hgrant, hmem⟩)

theorem docRows_addressed (hdto : doc.slugsValid = true) (h : ∀ name ∈ doc.topicNames, Segment name)
    {row : Row} (hrow : DocRows host draws now doc row) : Addressed row := by
  simp only [ProjectConfigDoc.slugsValid, Bool.and_eq_true, List.all_eq_true] at hdto
  obtain ⟨hscopes, happs⟩ := hdto
  cases row with
  | accessScope r =>
    obtain ⟨i, scope, hi, rfl⟩ := docRows_scope.1 hrow
    exact segment_of_isDocSlug (hscopes scope (List.mem_of_getElem? hi))
  | app r =>
    obtain ⟨i, app, hi, rfl⟩ := docRows_app.1 hrow
    have happ := List.mem_of_getElem? hi
    exact ⟨segment_of_isDocSlug (happs app happ).1.1, segmentNames_of_docApp h happ⟩
  | room r =>
    obtain ⟨i, app, j, room, hi, hj, rfl⟩ := docRows_room.1 hrow
    have hslugs := (happs app (List.mem_of_getElem? hi)).1.2
    exact segment_of_isDocSlug (hslugs room (List.mem_of_getElem? hj))
  | roomGrant r =>
    rcases docRows_roomGrant.1 hrow with ⟨i, app, j, room, k, grant, hi, hj, hk, rfl⟩ |
      ⟨i, actor, j, grant, roomId, expiresAt, hi, hj, _, _, rfl⟩
    · exact segmentNames_of_docTypeGrant h (List.mem_of_getElem? hi) (List.mem_of_getElem? hj)
        (List.mem_of_getElem? hk)
    · exact segmentNames_of_docRoomGrant h (List.mem_of_getElem? hi) (List.mem_of_getElem? hj)
  | appGrant r =>
    obtain ⟨i, actor, j, grant, appId, expiresAt, hi, hj, _, _, rfl⟩ := docRows_appGrant.1 hrow
    exact segmentNames_of_docAppGrant h (List.mem_of_getElem? hi) (List.mem_of_getElem? hj)
  | _ => trivial

end

/-! ## Steps and runs -/

section

variable {host : Host} {now : Int} {op : Operation} {s : Store}

theorem addressed_created (hdto : op.dtoValid = true) (hplain : PlainNames op) {row : Row}
    (h : Creates host now s op row) : Addressed row := by
  cases h with
  | scope _ hslug =>
    show Segment _
    rw [hslug]
    exact segment_of_isScopeSlug hdto
  | app _ hslug htopics =>
    obtain ⟨hgiven, hnames⟩ := Bool.and_eq_true_iff.1 hdto
    show Segment _ ∧ SegmentNames _
    rw [hslug, htopics]
    exact ⟨segment_of_given hgiven (segment_of_generateAppSlug _),
      fun topicName hmem => segment_of_isValidTopicName (List.all_eq_true.1 hnames topicName hmem)⟩
  | room _ hslug hne =>
    show Segment _
    rw [hslug] at hne ⊢
    exact segment_of_roomSlug (Bool.and_eq_true_iff.1 hdto).1 hne
  | ensuredRoom _ hslug hne =>
    show Segment _
    rw [hslug] at hne ⊢
    exact segment_of_roomSlug (Bool.and_eq_true_iff.1 hdto).1 hne
  | staticRoom hmem _ hslug =>
    show Segment _
    rw [hslug]
    exact hplain _ (List.mem_map_of_mem hmem)
  | roomGrant _ _ htopics =>
    show SegmentNames _
    rw [htopics]
    exact segmentNames_of_dto hdto
  | imported hrow => exact docRows_addressed hdto hplain hrow
  | _ => trivial

/-- A patch keeps the slug, and replaces a topic list only by one its DTO has checked. -/
theorem addressed_patched (hdto : op.dtoValid = true) {row₀ row : Row} (h₀ : Addressed row₀)
    (hplace : row₀.SamePlace row) (h : Patches s op row₀ row) : Addressed row := by
  cases h with
  | scope =>
    show Segment _
    rw [hplace.2.2]
    exact h₀
  | @app _ _ dto r₀ r htopics =>
    show Segment _ ∧ SegmentNames _
    rw [hplace.2.2, htopics]
    refine ⟨h₀.1, ?_⟩
    cases hgiven : dto.topics with
    | none => exact h₀.2
    | some ts =>
      simp only [Operation.dtoValid, hgiven] at hdto
      exact segmentNames_of_dto hdto
  | room =>
    show Segment _
    rw [hplace.2.2]
    exact h₀
  | @roomGrant _ dto r₀ r htopics =>
    show SegmentNames _
    rw [htopics]
    cases hgiven : dto.topics with
    | none => exact h₀
    | some ts =>
      simp only [Operation.dtoValid, hgiven] at hdto
      exact segmentNames_of_dto hdto
  | _ => trivial

theorem allAddressed_step {db db' : Database} (hI : AllAddressed db.store)
    (hdto : op.dtoValid = true) (hplain : PlainNames op) (h : op.run host now db = .ok db') :
    AllAddressed db'.store := by
  intro row hrow hl hs
  have ho : Origin host now db.store op row := run_origin h hrow hs
  cases ho with
  | kept hkept => exact hI row hrow hl hkept
  | stamped _ _ hdead => exact absurd (hl.symm.trans hdead) (by simp)
  | @patched row₀ _ h₀ hl₀ hplace hpatch =>
    have hrow₀ : row₀.isPlaced = true := by
      cases row₀ <;> first | rfl | (cases row <;> cases hplace)
    exact addressed_patched hdto (hI row₀ hrow₀ hl₀ h₀) hplace hpatch
  | created _ hc => exact addressed_created hdto hplain hc

end

/-- What a run of checked operations leaves: parts of addresses are segments, and app grants stay
inside one project. -/
theorem addressed_run {host : Host} {run : List (Int × Operation)} {db : Database}
    (hrun : exec (configure host) Database.empty run = some db)
    (hdto : ∀ l ∈ run, l.2.dtoValid = true) (hplain : ∀ l ∈ run, PlainNames l.2) :
    AllAddressed db.store ∧ AppGrantsHome db.store := by
  have hmeets : Meets (configure host)
      (fun _ l => l.2.dtoValid = true ∧ PlainNames l.2) Database.empty run :=
    .of_forall fun l hl => ⟨hdto l hl, hplain l hl⟩
  refine exec_invariant (I := fun db => AllAddressed db.store ∧ AppGrantsHome db.store) ?_ run
    Database.empty db ⟨?_, appGrantsHome_empty⟩ hmeets hrun
  · intro db l db' hI hC hstep
    cases hstep
    unfold Operation.apply
    split
    · rename_i db' hok
      exact ⟨allAddressed_step hI.1 hC.1 hC.2 hok, appGrantsHome_step hI.2 hok⟩
    · exact hI
  · intro row _ _ hs
    exact absurd hs (not_has_empty row)

end Facade
end NolagCore
