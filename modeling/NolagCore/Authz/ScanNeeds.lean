import NolagCore.Authz.Restored
import NolagCore.Authz.ScanFree

/-!
# Authz.ScanNeeds

What an answer free of the order of the rows asks of them. Each row that may come first or last does so
in some scan: a grant that may decide its room decides it, a lobby loses the rooms that need not be
open, an entry that may come last stands for its pattern.
-/

namespace NolagCore
namespace Authz

open Lib AccessModel

/-! ## Two scans of one session -/

theorem SameAccess.trans {a a' a'' : AppAccess} (h : SameAccess a a') (h' : SameAccess a' a'') :
    SameAccess a a'' :=
  ⟨h.appId.trans h'.appId, h.appName.trans h'.appName, h.appSlug.trans h'.appSlug,
    h.hydrationWebhook.trans h'.hydrationWebhook, h.triggerWebhook.trans h'.triggerWebhook,
    h.topicWebhooks.trans h'.topicWebhooks, fun e => (h.allowedTopics e).trans (h'.allowedTopics e),
    fun l => (h.allowedLobbies l).trans (h'.allowedLobbies l),
    fun sub => (h.activeSubscriptions sub).trans (h'.activeSubscriptions sub)⟩

/-- The scope as the addresses of a session carry it. -/
def address (scope : ResolvedScope) : ResolvedScope where
  scopeId := scope.scopeId
  scopeSlug := scope.scopeSlug

section

variable {config : CoreConfig} {s s₁ s₂ : Store} {now : Int} {actorTokenId : IdText}
  {actorToken : ActorToken} {scope : ResolvedScope}

variable (config) in
theorem session_valid {actorTokenId : Uuid} (hg : Gates s now actorTokenId actorToken scope)
    (hp : ProjectLive s actorToken) : ∃ payload,
      revalidateActor config s now actorTokenId = .valid payload ∧
      payload.apps = buildAppAccess s now actorToken (address scope) := by
  obtain ⟨project, hproject⟩ := hp
  have hb : ∃ payload, buildSessionPayload config s now actorToken = .ok payload := by
    unfold buildSessionPayload
    simp only [hproject, hg.scope]
    exact ⟨_, rfl⟩
  obtain ⟨payload, hb⟩ := hb
  obtain ⟨_, scope', _, hscope, _, _, happs⟩ := of_buildSessionPayload hb
  cases hg.scope.symm.trans hscope
  exact ⟨payload, revalidateActor_eq_valid.2 ⟨actorToken, hg.row, hg.active, hg.unexpired, hb⟩, happs⟩

variable (hv : s.SchemaValid) (hfree : OrderFree config s now actorTokenId)
  (hg : Gates s now actorTokenId.uuid actorToken scope) (hp : ProjectLive s actorToken)

include hv

theorem gates_scans {actorTokenId : Uuid} (h : s.Scans s₁)
    (hg : Gates s now actorTokenId actorToken scope) :
    Gates s₁ now actorTokenId actorToken scope :=
  ⟨(findActor_reorder h.toReorder hv).trans hg.row, hg.active, hg.unexpired,
    (resolveScope_reorder h.toReorder hv actorToken).trans hg.scope⟩

include hfree hg hp

theorem sameAccess_of_scan (h : s.Scans s₁) {access : Access}
    (ha : access ∈ validAppAccess s now actorToken) :
    SameAccess (appAccessOf s now actorToken (address scope) access)
      (appAccessOf s₁ now actorToken (address scope) access) := by
  obtain ⟨payload, hvalid, happs⟩ := session_valid config hg hp
  obtain ⟨payload₁, hvalid₁, happs₁⟩ := session_valid config (gates_scans hv h hg)
    (projectLive_scans h hv hp)
  have hsame := hfree.session s₁ h
  rw [hvalid, hvalid₁] at hsame
  cases hsame with
  | valid hpayload =>
    rw [buildAppAccess_eq (nodup_validAppAccess hv now actorToken)] at happs
    rw [buildAppAccess_eq (nodup_validAppAccess (h.valid hv) now actorToken)] at happs₁
    obtain ⟨a', ha', hsame⟩ := hpayload.left _ (by rw [happs]; exact List.mem_map_of_mem ha)
    rw [happs₁] at ha'
    obtain ⟨access', hacc', rfl⟩ := List.mem_map.1 ha'
    have hid : access.app.appId = access'.app.appId := hsame.appId
    cases access_eq_of_appId (h.valid hv) (validAppAccess_scans h hv ha) hacc' hid
    exact hsame

/-- Any two scans give the same app access. -/
theorem sameAccess_of_scans (h₁ : s.Scans s₁) (h₂ : s.Scans s₂) {access : Access}
    (ha : access ∈ validAppAccess s now actorToken) :
    SameAccess (appAccessOf s₁ now actorToken (address scope) access)
      (appAccessOf s₂ now actorToken (address scope) access) :=
  (sameAccess_of_scan hv hfree hg hp h₁ ha).symm.trans (sameAccess_of_scan hv hfree hg hp h₂ ha)

end

/-! ## Grants that decide a room -/

theorem parsePattern_of_noSlash (scope : ResolvedScope) {appSlug roomSlug : String}
    (happ : '/' ∉ appSlug.toList) (hroom : '/' ∉ roomSlug.toList) :
    parsePattern scope (appSlug ++ "/" ++ roomSlug ++ "/" ++ "topic") = some (appSlug, roomSlug) := by
  have hsplit : splitOn '/' (appSlug ++ "/" ++ roomSlug ++ "/" ++ "topic") =
      [appSlug, roomSlug, "topic"] := by
    rw [splitOn_append_two rfl happ hroom, splitOn_of_notMem (by decide)]
  unfold parsePattern
  rw [hsplit]

theorem checkRoomAccess_eq {s : Store} {now : Int} {actorTokenId : IdText} {actorToken : ActorToken}
    {scope : ResolvedScope} (hg : Gates s now actorTokenId.uuid actorToken scope)
    {pattern appSlug roomSlug : String} (hparsed : parsePattern scope pattern = some (appSlug, roomSlug)) :
    checkRoomAccess s now actorTokenId pattern =
      checkRoom s now actorTokenId.text actorToken scope appSlug roomSlug := by
  exact checkRoomAccess_of_parsed hg.row hg.active hg.unexpired hg.scope hparsed

section

variable {config : CoreConfig} {s : Store} {now : Int} {actorTokenId : IdText}
  {actorToken : ActorToken} {scope : ResolvedScope} (hv : s.SchemaValid)
  (hfree : OrderFree config s now actorTokenId)
  (hg : Gates s now actorTokenId.uuid actorToken scope)
  {app : PlatformApp} {room : Room} (hroom : SessionRoom s now actorToken app room)

/-- A private room contributes what its effective grant lets through. -/
theorem outcome_of_contributed {text : String} {actorType : EActorType} {grants : RoomGrants}
    (hr : Reads s text actorType room grants) {access : Access} {g : RoomActorAccess}
    (heff : grants.effective = some g) {p : EAccessPermission} {topicName : String}
    (hc : ∃ ts, roomAccess now access grants = some (p, ts) ∧ topicName ∈ ts.getD []) :
    Outcome now access.app g p topicName := by
  rcases (roomAccess_iff hr).1 hc with ⟨hpub, _⟩ | ⟨g', heff', ho⟩
  · exact absurd (hr.sound g heff).on (hpub g)
  · rw [heff] at heff'
    cases heff'
    exact ho

include hv hfree hg hroom

theorem outcome_of_session (hp : ProjectLive s actorToken) {g g' : RoomActorAccess}
    (hd : Deciding s actorToken room g) (hd' : Deciding s actorToken room g') {p : EAccessPermission}
    {topicName : String} (ho : Outcome now app g p topicName) : Outcome now app g' p topicName := by
  obtain ⟨s₁, h₁, heff₁⟩ := exists_scan_batched hd
  obtain ⟨s₂, h₂, heff₂⟩ := exists_scan_batched hd'
  obtain ⟨access, ha, rfl, hactive⟩ := (sessionRoom_iff hv).1 hroom
  have hr₁ := reads_batched s₁ actorToken room
  obtain ⟨r1, r2, r4, r3⟩ := mem_activeRooms.1 hactive
  have he : buildAllowedTopic access.app.slug room topicName p (address scope) ∈
      (appAccessOf s₁ now actorToken (address scope) access).allowedTopics :=
    mem_allowedTopics.2 ⟨room, mem_activeRooms.2 ⟨h₁.rooms.subset r1, r2, r4, r3⟩, p, topicName,
      (roomAccess_iff hr₁).2 (.inr ⟨g, heff₁, ho⟩), rfl⟩
  rw [(sameAccess_of_scans hv hfree hg hp h₁ h₂ ha).allowedTopics] at he
  obtain ⟨room', hactive', p', topicName', hc, heq⟩ := mem_allowedTopics.1 he
  obtain ⟨hid, rfl, rfl⟩ := buildAllowedTopic_inj heq
  have hsame : room = room' := hv.pkRoom.eq_of_key r1
    (h₂.rooms.symm.subset (mem_activeRooms.1 hactive').1) hid
  subst hsame
  exact outcome_of_contributed (reads_batched s₂ actorToken room) heff₂ hc

/-- The same where a live check can address the room. -/
theorem outcome_of_check (haddr : Addressable actorToken app room) {g g' : RoomActorAccess}
    (hd : Decides s actorTokenId.text actorToken.actorType room g)
    (hd' : Decides s actorTokenId.text actorToken.actorType room g') {p : EAccessPermission}
    {topicName : String} (ho : Outcome now app g p topicName) : Outcome now app g' p topicName := by
  obtain ⟨s₁, h₁, heff₁⟩ := exists_scan_live hd
  obtain ⟨s₂, h₂, heff₂⟩ := exists_scan_live hd'
  obtain ⟨q, ts, hreached⟩ := hroom.reached
  obtain ⟨q', ts', hterms⟩ := OpenElseHeld_of haddr.home hreached
  have hhome : HomeRoom s actorToken.projectId app.slug room.slug app room :=
    ⟨⟨hroom.appRow, hroom.appLive, hroom.appActive, rfl, hroom.roomRow, hroom.roomLive,
      hroom.roomActive, hroom.roomApp, rfl⟩, haddr.home⟩
  have hchecked : ∀ s', s.Scans s' → ∀ e,
      e ∈ (checkRoom s now actorTokenId.text actorToken scope app.slug room.slug).allowedTopics ↔
        e ∈ (checkRoom s' now actorTokenId.text actorToken scope app.slug
          room.slug).allowedTopics := by
    intro s' h' e
    have hparsed := parsePattern_of_noSlash scope haddr.appSlug haddr.roomSlug
    have hsame := (hfree.check s' h' (app.slug ++ "/" ++ room.slug ++ "/" ++ "topic")).allowedTopics e
    rw [checkRoomAccess_eq hg hparsed, checkRoomAccess_eq (gates_scans hv h' hg) hparsed] at hsame
    exact hsame
  have he : buildAllowedTopic app.slug room topicName p scope ∈
      (checkRoom s₁ now actorTokenId.text actorToken scope app.slug room.slug).allowedTopics :=
    (mem_checkRoom_iff (h₁.valid hv)).2 ⟨⟨app, q', ts'⟩, room, p, topicName,
      homeRoom_reorder h₁.toReorder hhome, openElseHeld_reorder h₁.toReorder hterms,
      .inr ⟨g, heff₁, ho⟩, rfl⟩
  rw [← hchecked s₁ h₁, hchecked s₂ h₂] at he
  obtain ⟨access, room', p', topicName', hhome', _, hc, heq⟩ := (mem_checkRoom_iff (h₂.valid hv)).1 he
  obtain ⟨hid, rfl, rfl⟩ := buildAllowedTopic_inj heq
  have hsame : room = room' :=
    hv.pkRoom.eq_of_key hroom.roomRow (h₂.rooms.symm.subset hhome'.roomRow) hid
  subst hsame
  have happ : app = access.app := hv.pkApp.eq_of_key hroom.appRow
    (h₂.apps.symm.subset hhome'.appRow) (hroom.roomApp.symm.trans hhome'.roomApp)
  rw [happ]
  exact outcome_of_contributed (reads_live s₂ actorTokenId.text actorToken room) heff₂
    ((roomAccess_iff (reads_live s₂ actorTokenId.text actorToken room)).2 hc)

end

/-! ## Grants that name the actor -/

theorem length_le_one_of_ends {α : Type} {l : List α} (hn : l.Nodup) (h : l.getLast? = l.head?) :
    l.length ≤ 1 := by
  cases l with
  | nil => exact Nat.zero_le 1
  | cons x l =>
    cases l with
    | nil => exact le_refl 1
    | cons y l =>
      rw [List.getLast?_cons_cons, List.head?_cons] at h
      exact absurd (List.mem_of_getLast? h) (List.nodup_cons.1 hn).1

/-- With two grants that name the actor, the first is not the last, and neither is one on its
type. -/
theorem named_unique {config : CoreConfig} {s : Store} {now : Int} {actorTokenId : IdText}
    {actorToken : ActorToken} {scope : ResolvedScope} (hv : s.SchemaValid)
    (hfree : OrderFree config s now actorTokenId)
    (hg : Gates s now actorTokenId.uuid actorToken scope)
    (hp : ProjectLive s actorToken) {app : PlatformApp} {room : Room}
    (hroom : SessionRoom s now actorToken app room) (hhome : app.projectId = actorToken.projectId)
    {g g' : RoomActorAccess} (hon : OnRoom s room g) (hon' : OnRoom s room g')
    (hn : Names actorToken.actorTokenId.text g) (hn' : Names actorToken.actorTokenId.text g') :
    g = g' := by
  by_contra hne
  obtain ⟨payload, hvalid, _⟩ := session_valid config hg hp
  have hid := (of_findActor hg.row).2.2
  have hsame := hfree.sameGrant payload hvalid actorToken hg.row app room hroom hhome
    ⟨g, g', hne, hon, hon', hid ▸ hn, hid ▸ hn'⟩ s (.refl s)
  let named := (grantsOn s room).filter (namesActor actorToken.actorTokenId.text)
  have hm : g ∈ named := List.mem_filter.2 ⟨mem_grantsOn.2 hon, namesActor_iff.2 hn⟩
  have hm' : g' ∈ named := List.mem_filter.2 ⟨mem_grantsOn.2 hon', namesActor_iff.2 hn'⟩
  obtain ⟨last, hlast⟩ : ∃ last, named.getLast? = some last := by
    cases hl : named.getLast? with
    | none =>
      rw [List.getLast?_eq_none_iff.1 hl] at hm
      cases hm
    | some last => exact ⟨last, rfl⟩
  have hbatched : (batchedRoomGrants s actorToken room).effective = some last := by
    change named.getLast?.or _ = some last
    rw [hlast, Option.some_or]
  rw [hbatched] at hsame
  have hlastNamed : Names actorToken.actorTokenId.text last :=
    namesActor_iff.1 (List.mem_filter.1 (List.mem_of_getLast? hlast)).2
  cases (reads_live s actorTokenId.text actorToken room).sound last hsame.symm with
  | typed _ _ unnamed _ _ =>
    rw [Names, unnamed] at hlastNamed
    cases hlastNamed.1
  | named _ names =>
    have hstored : actorTokenId.text = actorToken.actorTokenId.text :=
      (stored_of_names names).trans (congrArg Uuid.text hid.symm)
    have hnodup : named.Nodup := ((List.Nodup.of_map _ hv.pkRoomGrant).filter _).filter _
    have hends : named.getLast? = named.head? := by
      have hlive : (liveRoomGrants s actorTokenId.text actorToken room).effective =
          named.head?.or ((grantsOn s room).find? (namesType actorToken)) := by
        rw [hstored, List.head?_filter]
        rfl
      rw [hlast, hsame, hlive]
      cases hl : named with
      | nil =>
        rw [hl] at hm
        cases hm
      | cons x l => rfl
    have hlen := length_le_one_of_ends hnodup hends
    obtain ⟨x, hx⟩ := List.length_eq_one_iff.1 (Nat.le_antisymm hlen (List.length_pos_of_mem hm))
    rw [hx, List.mem_singleton] at hm hm'
    exact hne (hm.trans hm'.symm)

/-! ## Rooms that need not be open -/

/-- The room grants in an order that lets an expired one decide wherever it may. -/
def lapsedDecide (now : Int) (actorToken : ActorToken) (l : List RoomActorAccess) :
    List RoomActorAccess :=
  let lapsed := l.filter fun ra => expired ra.expiresAt now
  (lapsed.filter fun ra => !namesActor actorToken.actorTokenId.text ra) ++
    ((l.filter fun ra => !expired ra.expiresAt now) ++
      lapsed.filter (namesActor actorToken.actorTokenId.text))

theorem perm_lapsedDecide (now : Int) (actorToken : ActorToken) (l : List RoomActorAccess) :
    l.Perm (lapsedDecide now actorToken l) := by
  refine List.Perm.symm ?_
  let lapsed := l.filter fun ra => expired ra.expiresAt now
  have hlapsed : (lapsed.filter (fun ra => !namesActor actorToken.actorTokenId.text ra) ++
      lapsed.filter (namesActor actorToken.actorTokenId.text)).Perm lapsed :=
    List.perm_append_comm.trans (List.filter_append_perm _ _)
  have hswap : (lapsedDecide now actorToken l).Perm
      ((lapsed.filter fun ra => !namesActor actorToken.actorTokenId.text ra) ++
      (lapsed.filter (namesActor actorToken.actorTokenId.text) ++
        l.filter fun ra => !expired ra.expiresAt now)) :=
    List.Perm.append_left _ List.perm_append_comm
  rw [← List.append_assoc] at hswap
  exact hswap.trans ((List.Perm.append_right _ hlapsed).trans (List.filter_append_perm _ l))

section

variable {s : Store} {now : Int} {actorToken : ActorToken} {room : Room}

theorem filter_lapsedDecide (q : RoomActorAccess → Bool) (l : List RoomActorAccess) :
    (lapsedDecide now actorToken l).filter q = lapsedDecide now actorToken (l.filter q) := by
  unfold lapsedDecide
  dsimp only
  rw [List.filter_append, List.filter_append,
    List.filter_comm q fun ra => !namesActor actorToken.actorTokenId.text ra,
    List.filter_comm q (namesActor actorToken.actorTokenId.text),
    List.filter_comm q fun ra => expired ra.expiresAt now,
    List.filter_comm q fun ra => !expired ra.expiresAt now]

/-- The last of the named grants in that order has expired, where one of them has. -/
theorem expired_of_last_named {l : List RoomActorAccess} {g g' : RoomActorAccess} (hm : g' ∈ l)
    (hx : expired g'.expiresAt now = true) (hn : namesActor actorToken.actorTokenId.text g' = true)
    (h : ((lapsedDecide now actorToken l).filter
      (namesActor actorToken.actorTokenId.text)).getLast? = some g) :
    expired g.expiresAt now = true := by
  let last := (l.filter fun ra => expired ra.expiresAt now).filter
    (namesActor actorToken.actorTokenId.text)
  have hm' : g' ∈ last.filter (namesActor actorToken.actorTokenId.text) :=
    List.mem_filter.2 ⟨List.mem_filter.2 ⟨List.mem_filter.2 ⟨hm, hx⟩, hn⟩, hn⟩
  have hlast : (last.filter (namesActor actorToken.actorTokenId.text)).getLast? = some g := by
    unfold lapsedDecide at h
    rw [← List.append_assoc, List.filter_append, List.getLast?_append] at h
    cases hl : (last.filter (namesActor actorToken.actorTokenId.text)).getLast? with
    | none =>
      rw [List.getLast?_eq_none_iff.1 hl] at hm'
      cases hm'
    | some x =>
      rw [hl, Option.some_or] at h
      exact h
  have hg := (List.mem_filter.1 (List.mem_of_getLast? hlast)).1
  exact (List.mem_filter.1 (List.mem_filter.1 hg).1).2

/-- And so has the first of the type grants. -/
theorem expired_of_first_typed {l : List RoomActorAccess} {g g' : RoomActorAccess} (hm : g' ∈ l)
    (hx : expired g'.expiresAt now = true) (ht : namesType actorToken g' = true)
    (h : (lapsedDecide now actorToken l).find? (namesType actorToken) = some g) :
    expired g.expiresAt now = true := by
  have hunnamed : namesActor actorToken.actorTokenId.text g' = false := by
    unfold namesActor
    rw [(namesType_iff.1 ht).1]
    rfl
  have hm' : g' ∈ (l.filter fun ra => expired ra.expiresAt now).filter
      fun ra => !namesActor actorToken.actorTokenId.text ra :=
    List.mem_filter.2 ⟨List.mem_filter.2 ⟨hm, hx⟩, by rw [hunnamed]; rfl⟩
  unfold lapsedDecide at h
  rw [List.find?_append] at h
  cases hf : ((l.filter fun ra => expired ra.expiresAt now).filter fun ra =>
      !namesActor actorToken.actorTokenId.text ra).find? (namesType actorToken) with
  | none => exact absurd ht (List.find?_eq_none.1 hf g' hm')
  | some x =>
    rw [hf, Option.some_or, Option.some.injEq] at h
    subst h
    exact (List.mem_filter.1 (List.mem_filter.1 (List.mem_of_find?_eq_some hf)).1).2

/-- In that order only the rooms are open that must be. -/
theorem mustOpen_of_lapsedDecide (h : Opened
    { s with roomActorAccess := lapsedDecide now actorToken s.roomActorAccess } now actorToken room) :
    MustOpen s now actorToken room := by
  have hscan := Store.Scans.ofRoomGrants (perm_lapsedDecide now actorToken s.roomActorAccess)
  rcases h with hpub | ⟨g, heff, hx⟩
  · exact .inl (isPublic_reorder hscan.symm.toReorder hpub)
  · have hd := deciding_reorder hscan.symm.toReorder ((reads_batched _ actorToken room).sound g heff)
    refine .inr ⟨⟨g, hd⟩, fun g' hd' => ?_⟩
    by_contra hexpired
    rw [Bool.not_eq_false] at hexpired
    have hlist : grantsOn { s with roomActorAccess := lapsedDecide now actorToken s.roomActorAccess }
        room = lapsedDecide now actorToken (grantsOn s room) := filter_lapsedDecide _ _
    unfold batchedRoomGrants at heff
    rw [hlist] at heff
    dsimp only at heff
    have hm := mem_grantsOn.2 hd'.on
    have hlapsed : expired g.expiresAt now = true := by
      cases hd' with
      | named on names =>
        have hn := namesActor_iff.2 names
        cases hlast : ((lapsedDecide now actorToken (grantsOn s room)).filter
            (namesActor actorToken.actorTokenId.text)).getLast? with
        | none =>
          have hmem := (perm_lapsedDecide now actorToken (grantsOn s room)).subset hm
          have hnil := List.filter_eq_nil_iff.1 (List.getLast?_eq_none_iff.1 hlast) g' hmem
          exact absurd hn hnil
        | some x =>
          rw [hlast, Option.some_or, Option.some.injEq] at heff
          rw [heff] at hlast
          exact expired_of_last_named hm hexpired hn hlast
      | typed on active unnamed type none_names =>
        have hnil : (lapsedDecide now actorToken (grantsOn s room)).filter
            (namesActor actorToken.actorTokenId.text) = [] := by
          rw [filter_lapsedDecide, find?_namesActor_of_typed none_names]
          rfl
        rw [hnil, List.getLast?_nil, Option.none_or] at heff
        exact expired_of_first_typed hm hexpired (namesType_iff.2 ⟨unnamed, type, active⟩) heff
    rw [hx] at hlapsed
    cases hlapsed

end

/-- A lobby that one scan shows is shown by all, and so has a room that must be open. -/
theorem lobby_of_orderFree {config : CoreConfig} {s : Store} {now : Int} {actorTokenId : IdText}
    {actorToken : ActorToken} {scope : ResolvedScope} (hv : s.SchemaValid)
    (hfree : OrderFree config s now actorTokenId)
    (hg : Gates s now actorTokenId.uuid actorToken scope)
    (hp : ProjectLive s actorToken) {lobby : Lobby} (hlobby : lobby ∈ s.lobbies)
    (hl : live lobby = true) {access : Access} (ha : access ∈ validAppAccess s now actorToken)
    (happ : lobby.appId = access.app.appId) {app : PlatformApp} {room : Room}
    (hroom : SessionRoom s now actorToken app room) (hin : InLobby s lobby room)
    (hmay : MayOpen s now actorToken room) :
    ∃ app room, SessionRoom s now actorToken app room ∧ InLobby s lobby room ∧
      MustOpen s now actorToken room := by
  rcases hmay with hpub | ⟨g, hd, hx⟩
  · exact ⟨app, room, hroom, hin, .inl hpub⟩
  · obtain ⟨s₁, h₁, heff₁⟩ := exists_scan_batched hd
    have h₂ := Store.Scans.ofRoomGrants (perm_lapsedDecide now actorToken s.roomActorAccess)
    have hshown : { lobbyId := lobby.lobbyId, lobbySlug := lobby.slug } ∈
        (appAccessOf s₁ now actorToken (address scope) access).allowedLobbies :=
      (mem_allowedLobbies (h₁.valid hv)).2 ⟨lobby, h₁.lobbies.subset hlobby, hl, happ, rfl, app, room,
        sessionRoom_reorder h₁.toReorder hroom, inLobby_reorder h₁.toReorder hin, .inr ⟨g, heff₁, hx⟩⟩
    rw [(sameAccess_of_scans hv hfree hg hp h₁ h₂ ha).allowedLobbies] at hshown
    obtain ⟨lobby', _, _, _, heq, app', room', hroom', ⟨lr, hlr, hll, hlid, hlroom⟩, hopen⟩ :=
      (mem_allowedLobbies (h₂.valid hv)).1 hshown
    have hid : lobby.lobbyId = lobby'.lobbyId := congrArg AllowedLobby.lobbyId heq
    exact ⟨app', room', sessionRoom_reorder h₂.symm.toReorder hroom',
      ⟨lr, h₂.lobbyRooms.symm.subset hlr, hll, hlid.trans hid.symm, hlroom⟩,
      mustOpen_of_lapsedDecide hopen⟩

/-! ## Entries that may come last -/

/-- The tables in an order that has an app, the grants on it and one of its rooms last. -/
def lastFor (s : Store) (app : PlatformApp) (room : Room) : Store :=
  { s with
    apps := moveLast (fun a => decide (a.appId = app.appId)) s.apps
    rooms := moveLast (fun r => decide (r.roomId = room.roomId)) s.rooms
    actorAppAccess := moveLast (fun g => decide (g.appId = app.appId)) s.actorAppAccess }

section

variable {s : Store} (hv : s.SchemaValid) {now : Int} {actorToken : ActorToken} {scope : ResolvedScope}
  {app : PlatformApp} {room : Room}

theorem scans_lastFor (s : Store) (app : PlatformApp) (room : Room) : s.Scans (lastFor s app room) :=
  ⟨{ Store.Reorder.refl s with
      apps := perm_moveLast _ _
      rooms := perm_moveLast _ _
      actorAppAccess := perm_moveLast _ _ }, rfl⟩

theorem activeRooms_lastFor (appId : Uuid) : activeRooms (lastFor s app room) appId =
    moveLast (fun r => decide (r.roomId = room.roomId)) (activeRooms s appId) :=
  filter_moveLast _ _ _

include hv

theorem appOf_lastFor (g : ActorAppAccess) : (lastFor s app room).appOf g = s.appOf g :=
  findOne_perm (perm_moveLast _ _) fun _ hr _ hr' _ _ hp hp' =>
    hv.pkApp.eq_of_key hr hr' ((of_decide_eq_true hp).trans (of_decide_eq_true hp').symm)

theorem explicitAppAccess_lastFor : explicitAppAccess (lastFor s app room) now actorToken =
    moveLast (fun access => decide (access.app.appId = app.appId))
      (explicitAppAccess s now actorToken) := by
  have hkeep : keepAccess (lastFor s app room) now = keepAccess s now := by
    funext g
    unfold keepAccess
    rw [appOf_lastFor hv]
  have hgrants : actorAppAccess (lastFor s app room) actorToken =
      moveLast (fun g => decide (g.appId = app.appId)) (actorAppAccess s actorToken) :=
    filter_moveLast _ _ _
  unfold explicitAppAccess
  rw [hkeep, hgrants]
  refine filterMap_moveLast (fun g access hg => ?_) _
  have happ : g.appId = access.app.appId := by
    unfold keepAccess at hg
    split at hg
    · cases hg
    · rename_i hof
      split at hg
      · split at hg
        · cases hg
        · cases hg
          exact (appOf_spec hof).2.2
      · cases hg
  rw [happ]

theorem openedAppAccess_lastFor : openedAppAccess (lastFor s app room) now actorToken =
    moveLast (fun access => decide (access.app.appId = app.appId))
      (openedAppAccess s now actorToken) := by
  have hids : ∀ id, id ∉ (explicitAppAccess (lastFor s app room) now actorToken).map (·.app.appId) ↔
      id ∉ (explicitAppAccess s now actorToken).map (·.app.appId) := by
    intro id
    rw [explicitAppAccess_lastFor hv]
    exact not_congr ((perm_moveLast _ _).map _).symm.mem_iff
  have hopen : openApps (lastFor s app room) actorToken =
      moveLast (fun a => decide (a.appId = app.appId)) (openApps s actorToken) :=
    filter_moveLast _ _ _
  unfold openedAppAccess
  simp only [hids, hopen, filter_moveLast]
  rw [← List.filterMap_eq_map, ← List.filterMap_eq_map]
  refine filterMap_moveLast (fun a access ha => ?_) _
  cases ha
  rfl

variable (app) in
/-- The entries of one app in that order, searched from the end, are those of the room. -/
theorem lastOf_app {access : Access} (ha : access ∈ validAppAccess s now actorToken)
    {p : EAccessPermission} {topicName : String}
    (he : SessionEntry s now actorToken access.app room p topicName)
    (hone : OneOutcome s now actorToken access.app room) {pattern : String}
    (hp : (buildAllowedTopic access.app.slug room topicName p scope).pattern = pattern) :
    ∃ p' topicName', (((buildOf (lastFor s app room) now actorToken scope access).allowedTopics.map
      fun e => (access.app.appId, e)).filter fun x => decide (x.2.pattern = pattern)).getLast? =
        some (access.app.appId, buildAllowedTopic access.app.slug room topicName' p' scope) := by
  let blockOf := fun room : Room =>
    (buildApp now scope [room] (batchedRoomGrants s actorToken) access).allowedTopics.map
      fun e => (access.app.appId, e)
  have hentries : (buildOf (lastFor s app room) now actorToken scope access).allowedTopics.map
      (fun e => (access.app.appId, e)) =
        (moveLast (fun r => decide (r.roomId = room.roomId)) (activeRooms s access.app.appId)).flatMap
          blockOf := by
    unfold buildOf buildApp
    dsimp only
    rw [activeRooms_lastFor, List.map_flatMap]
    refine List.flatMap_congr fun r _ => ?_
    simp only [blockOf, buildApp, List.flatMap_singleton]
    rfl
  obtain ⟨ts, hra, hmem⟩ := contributed_of_entry hv ha he hone
  have hblock : blockOf room = ((ts.getD []).map fun topicName =>
      buildAllowedTopic access.app.slug room topicName p scope).map
        fun e => (access.app.appId, e) := by
    simp only [blockOf, buildApp, List.flatMap_singleton, hra]
  have hne : (blockOf room).filter (fun x => decide (x.2.pattern = pattern)) ≠ [] := by
    have hin : (access.app.appId, buildAllowedTopic access.app.slug room topicName p scope) ∈
        blockOf room := by
      rw [hblock]
      exact List.mem_map_of_mem (List.mem_map_of_mem hmem)
    exact List.ne_nil_of_mem (List.mem_filter.2 ⟨hin, decide_eq_true hp⟩)
  have hroom : room ∈ activeRooms s access.app.appId :=
    mem_activeRooms.2 ⟨he.roomRow, he.roomLive, he.roomApp, he.roomActive⟩
  have hsame : ∀ r ∈ activeRooms s access.app.appId, decide (r.roomId = room.roomId) = true →
      blockOf r = blockOf room := by
    intro r hr hid
    rw [hv.pkRoom.eq_of_key (mem_activeRooms.1 hr).1 he.roomRow (of_decide_eq_true hid)]
  rw [hentries, getLast?_flatMap_moveLast ⟨room, hroom, decide_eq_true rfl⟩ hsame hne]
  cases hlast : ((blockOf room).filter fun x => decide (x.2.pattern = pattern)).getLast? with
  | none => exact absurd (List.getLast?_eq_none_iff.1 hlast) hne
  | some x =>
    have hx := (List.mem_filter.1 (List.mem_of_getLast? hlast)).1
    rw [hblock] at hx
    obtain ⟨_, he', rfl⟩ := List.mem_map.1 hx
    obtain ⟨topicName', _, rfl⟩ := List.mem_map.1 he'
    exact ⟨p, topicName', rfl⟩

/-- An entry that may come last stands for its pattern in that order, with another topic of its room
where that has the pattern too. -/
theorem standsFor_lastFor
    (hone : ∀ app room, SessionRoom s now actorToken app room → OneOutcome s now actorToken app room)
    {pattern : String} (he : EntryAt s now actorToken scope pattern app room)
    (hlast : ComesLast s now actorToken scope pattern app) :
    ∃ p topicName, standsFor (lastFor s app room) now actorToken scope pattern =
      some (app.appId, buildAllowedTopic app.slug room topicName p scope) := by
  obtain ⟨p, topicName, hentry, hp⟩ := he
  have hroom := sessionRoom_of_entry hentry
  obtain ⟨access, ha, rfl, _⟩ := (sessionRoom_iff hv).1 hroom
  obtain ⟨p', topicName', hends⟩ := lastOf_app hv access.app ha hentry (hone _ _ hroom) hp
  refine ⟨p', topicName', ?_⟩
  have hscan := scans_lastFor s access.app room
  let entriesOf := fun x : Access =>
    (buildOf (lastFor s access.app room) now actorToken scope x).allowedTopics.map
      fun e => (x.app.appId, e)
  let named := fun x : Uuid × AllowedTopic => decide (x.2.pattern = pattern)
  have hends' : ((entriesOf access).filter named).getLast? =
      some (access.app.appId, buildAllowedTopic access.app.slug room topicName' p' scope) := hends
  have hne : (entriesOf access).filter named ≠ [] := by
    intro hnil
    rw [hnil] at hends'
    cases hends'
  have hset : resolvedSet (lastFor s access.app room) now actorToken scope =
      (moveLast (fun x => decide (x.app.appId = access.app.appId))
        (explicitAppAccess s now actorToken)).flatMap entriesOf ++
      (moveLast (fun x => decide (x.app.appId = access.app.appId))
        (openedAppAccess s now actorToken)).flatMap entriesOf := by
    unfold resolvedSet
    rw [validAppAccess_eq, explicitAppAccess_lastFor hv, openedAppAccess_lastFor hv,
      List.flatMap_append]
  have hblocks : ∀ x ∈ validAppAccess s now actorToken,
      decide (x.app.appId = access.app.appId) = true → entriesOf x = entriesOf access := by
    intro x hx hid
    rw [access_eq_of_appId hv hx ha (of_decide_eq_true hid)]
  unfold standsFor
  rw [hset]
  by_cases hheld : Held s now actorToken access.app
  · -- No other open app has an entry of the pattern.
    have hnil : ((moveLast (fun x => decide (x.app.appId = access.app.appId))
        (openedAppAccess s now actorToken)).flatMap entriesOf).filter named = [] := by
      refine List.filter_eq_nil_iff.2 fun x hx hnamed => ?_
      obtain ⟨other, hother, hx⟩ := List.mem_flatMap.1 hx
      obtain ⟨e, he, rfl⟩ := List.mem_map.1 hx
      have hopened := (perm_moveLast _ _).symm.subset hother
      have hvalid : other ∈ validAppAccess s now actorToken := List.mem_append_right _ hopened
      obtain ⟨room', q, topic, hentry', rfl⟩ :=
        entry_of_mem (hscan.valid hv) (validAppAccess_scans hscan hv hvalid) he
      exact unheld_of_opened hv hopened (hlast hheld other.app room'
        ⟨q, topic, entry_reorder hscan.symm.toReorder hentry', of_decide_eq_true hnamed⟩)
    rw [List.filter_append, hnil, List.append_nil, getLast?_flatMap_moveLast
      ⟨access, explicit_of_held hv ha hheld, decide_eq_true rfl⟩
      (fun x hx => hblocks x (List.mem_append_left _ hx)) hne]
    exact hends
  · have hblock := getLast?_flatMap_moveLast
      ⟨access, opened_of_unheld ha hheld, decide_eq_true rfl⟩
      (fun x hx => hblocks x (List.mem_append_right _ hx)) hne
    rw [getLast?_filter_append, hblock]
    · exact hends
    · intro hnil
      rw [hnil, hends'] at hblock
      cases hblock

end

/-- Two rooms whose entries may come last would each be the topic of the subscription in some scan. -/
theorem room_of_orderFree {config : CoreConfig} {s : Store} {now : Int} {actorTokenId : IdText}
    {actorToken : ActorToken} {scope : ResolvedScope} (hv : s.SchemaValid)
    (hfree : OrderFree config s now actorTokenId)
    (hg : Gates s now actorTokenId.uuid actorToken scope)
    (hp : ProjectLive s actorToken) {record : TopicSubscription}
    (hrecord : record ∈ recordedSubscriptions s actorToken.actorTokenId) {app app' : PlatformApp}
    {room room' : Room} (he : EntryAt s now actorToken scope record.name app room)
    (he' : EntryAt s now actorToken scope record.name app' room')
    (hlast : ComesLast s now actorToken scope record.name app)
    (hlast' : ComesLast s now actorToken scope record.name app') : room = room' := by
  have hone : ∀ app room, SessionRoom s now actorToken app room →
      OneOutcome s now actorToken app room := fun app room hroom g g' hd hd' p topicName =>
    ⟨outcome_of_session hv hfree hg hroom hp hd hd', outcome_of_session hv hfree hg hroom hp hd' hd⟩
  have hea : EntryAt s now actorToken (address scope) record.name app room := he
  have hea' : EntryAt s now actorToken (address scope) record.name app' room' := he'
  obtain ⟨p, topicName, hstands⟩ := standsFor_lastFor hv hone hea hlast
  obtain ⟨p', topicName', hstands'⟩ := standsFor_lastFor hv hone hea' hlast'
  obtain ⟨_, _, hentry, _⟩ := he
  obtain ⟨_, _, hentry', _⟩ := he'
  obtain ⟨access, ha, rfl, _⟩ := (sessionRoom_iff hv).1 (sessionRoom_of_entry hentry)
  have h₁ := scans_lastFor s access.app room
  have h₂ := scans_lastFor s app' room'
  have hback : restored (buildAllowedTopic access.app.slug room topicName p (address scope)).topic
      record ∈ (appAccessOf (lastFor s access.app room) now actorToken (address scope)
        access).activeSubscriptions :=
    mem_activeSubscriptions.2 ⟨record, (recorded_scans h₁).symm ▸ hrecord, _, hstands, rfl⟩
  rw [(sameAccess_of_scans hv hfree hg hp h₁ h₂ ha).activeSubscriptions] at hback
  obtain ⟨record', _, e, hfound, heq⟩ := mem_activeSubscriptions.1 hback
  have hname : record.name = record'.name := congrArg ActiveSubscription.pattern heq
  have htopic : (buildAllowedTopic access.app.slug room topicName p (address scope)).topic = e.topic :=
    congrArg ActiveSubscription.topic heq
  rw [← hname, hstands', Option.some.injEq, Prod.mk.injEq] at hfound
  rw [← hfound.2] at htopic
  exact hv.pkRoom.eq_of_key hentry.roomRow hentry'.roomRow (roomId_of_topic htopic)

/-! ## Answers free of the order of the rows -/

theorem scanFree_of_orderFree {config : CoreConfig} {s : Store} {now : Int} {actorTokenId : IdText}
    {actorToken : ActorToken} {scope : ResolvedScope} (hv : s.SchemaValid)
    (hfree : OrderFree config s now actorTokenId)
    (hg : Gates s now actorTokenId.uuid actorToken scope) :
    ScanFree s now actorToken actorTokenId.text scope where
  oneNamed := fun hp _ _ hroom hhome _ _ hon hon' hn hn' =>
    named_unique hv hfree hg hp hroom hhome hon hon' hn hn'
  oneOutcome := fun hp _ _ hroom _ _ hd hd' _ _ =>
    ⟨outcome_of_session hv hfree hg hroom hp hd hd', outcome_of_session hv hfree hg hroom hp hd' hd⟩
  oneChecked := fun _ _ hroom haddr _ _ hd hd' _ _ =>
    ⟨outcome_of_check hv hfree hg hroom haddr hd hd',
      outcome_of_check hv hfree hg hroom haddr hd' hd⟩
  lobbies := by
    rintro hp lobby hlobby hl ⟨app, p, ts, h1, h2, h3, ht, happ⟩ ⟨app', room, hroom, hin, hmay⟩
    have ha : (⟨app, p, ts⟩ : Access) ∈ validAppAccess s now actorToken :=
      (mem_validAppAccess hv).2 ⟨h1, h2, h3, ht⟩
    exact lobby_of_orderFree hv hfree hg hp hlobby hl ha happ hroom hin hmay
  subscriptions := fun hp _ hrecord _ _ _ _ he he' hlast hlast' =>
    room_of_orderFree hv hfree hg hp hrecord he he' hlast hlast'

/-- Resolution does not depend on the order of the rows exactly where the rows that compete for one
place lead to the same, however the check's caller writes the id. -/
theorem orderFree_iff (config : CoreConfig) (db : Database) (now : Int) (actorTokenId : IdText) :
    OrderFree config db.store now actorTokenId ↔ ∀ actorToken scope,
      Gates db.store now actorTokenId.uuid actorToken scope →
        ScanFree db.store now actorToken actorTokenId.text scope :=
  ⟨fun hfree _ _ hg => scanFree_of_orderFree db.valid hfree hg, orderFree_of_scanFree db.valid⟩

/-! ## Two grants that name one actor -/

def rivalGrants : List RoomActorAccess :=
  [{ roomActorAccessId := .of "g1", roomId := .of "r1", actorTokenId := some (.of "t1"),
     permission := .pubSub },
   { roomActorAccessId := .of "g2", roomId := .of "r1", actorTokenId := some (.of "t1"),
     permission := .publish }]

/-- A private room whose two grants name the actor, with different permissions. -/
def rivalDb : Database where
  store := { (narrowedDb .pubSub).store with roomActorAccess := rivalGrants }
  valid := by decide

/-- The session has the permission of the grant that the query returns last. -/
theorem rival_grants_by_order :
    ¬ ∀ (config : CoreConfig) (db : Database) (now : Int) (actorTokenId : IdText),
      OrderFree config db.store now actorTokenId := by
  intro hevery
  have hvalid : revalidateActor {} rivalDb.store 0 (IdText.of "t1").uuid =
      .valid (restoredPayload .publish) := by decide
  have hswapped : revalidateActor {} { rivalDb.store with roomActorAccess := rivalGrants.reverse } 0
      (IdText.of "t1").uuid = .valid (restoredPayload .pubSub) := by decide
  have hsame := (hevery {} rivalDb 0 (.of "t1")).session _
    (Store.Scans.ofRoomGrants (List.reverse_perm rivalGrants).symm)
  rw [hvalid, hswapped] at hsame
  cases hsame with
  | valid hpayload =>
    obtain ⟨a, ha, hsame⟩ := hpayload.left _ (List.mem_singleton_self _)
    cases List.mem_singleton.1 ha
    have he := (hsame.allowedTopics _).1 (List.mem_singleton_self _)
    cases List.mem_singleton.1 he

end Authz
end NolagCore
