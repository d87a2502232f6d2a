import NolagCore.Lib.Indexed
import NolagCore.Model.Database

/-!
# Model.Fragment

Rows on their way into the database. A fragment is a store of new rows, and inserting it appends
them table by table.
-/

namespace NolagCore
namespace Store

def append (s d : Store) : Store where
  projects := s.projects ++ d.projects
  accessScopes := s.accessScopes ++ d.accessScopes
  apps := s.apps ++ d.apps
  rooms := s.rooms ++ d.rooms
  roomActorAccess := s.roomActorAccess ++ d.roomActorAccess
  lobbies := s.lobbies ++ d.lobbies
  lobbyRooms := s.lobbyRooms ++ d.lobbyRooms
  actorTokens := s.actorTokens ++ d.actorTokens
  actorTokenStates := s.actorTokenStates ++ d.actorTokenStates
  actorAppAccess := s.actorAppAccess ++ d.actorAppAccess
  signingKeys := s.signingKeys ++ d.signingKeys

@[simp] theorem projects_append (s d : Store) :
    (s.append d).projects = s.projects ++ d.projects := rfl
@[simp] theorem accessScopes_append (s d : Store) :
    (s.append d).accessScopes = s.accessScopes ++ d.accessScopes := rfl
@[simp] theorem apps_append (s d : Store) : (s.append d).apps = s.apps ++ d.apps := rfl
@[simp] theorem rooms_append (s d : Store) : (s.append d).rooms = s.rooms ++ d.rooms := rfl
@[simp] theorem roomActorAccess_append (s d : Store) :
    (s.append d).roomActorAccess = s.roomActorAccess ++ d.roomActorAccess := rfl
@[simp] theorem lobbies_append (s d : Store) : (s.append d).lobbies = s.lobbies ++ d.lobbies := rfl
@[simp] theorem lobbyRooms_append (s d : Store) :
    (s.append d).lobbyRooms = s.lobbyRooms ++ d.lobbyRooms := rfl
@[simp] theorem actorTokens_append (s d : Store) :
    (s.append d).actorTokens = s.actorTokens ++ d.actorTokens := rfl
@[simp] theorem actorTokenStates_append (s d : Store) :
    (s.append d).actorTokenStates = s.actorTokenStates ++ d.actorTokenStates := rfl
@[simp] theorem actorAppAccess_append (s d : Store) :
    (s.append d).actorAppAccess = s.actorAppAccess ++ d.actorAppAccess := rfl
@[simp] theorem signingKeys_append (s d : Store) :
    (s.append d).signingKeys = s.signingKeys ++ d.signingKeys := rfl

theorem append_empty (s : Store) : s.append {} = s := by
  cases s
  simp [append]

theorem append_assoc (s d e : Store) : (s.append d).append e = s.append (d.append e) := by
  simp [append]

/-! ## Rows of any table -/

inductive Row where
  | project (r : Project)
  | accessScope (r : AccessScope)
  | app (r : PlatformApp)
  | room (r : Room)
  | roomGrant (r : RoomActorAccess)
  | lobby (r : Lobby)
  | lobbyRoom (r : LobbyRoom)
  | actorToken (r : ActorToken)
  | actorTokenState (r : ActorTokenState)
  | appGrant (r : ActorAppAccess)
  | signingKey (r : SigningKey)

def Has (s : Store) : Row → Prop
  | .project r => r ∈ s.projects
  | .accessScope r => r ∈ s.accessScopes
  | .app r => r ∈ s.apps
  | .room r => r ∈ s.rooms
  | .roomGrant r => r ∈ s.roomActorAccess
  | .lobby r => r ∈ s.lobbies
  | .lobbyRoom r => r ∈ s.lobbyRooms
  | .actorToken r => r ∈ s.actorTokens
  | .actorTokenState r => r ∈ s.actorTokenStates
  | .appGrant r => r ∈ s.actorAppAccess
  | .signingKey r => r ∈ s.signingKeys

theorem not_has_empty (row : Row) : ¬ ({} : Store).Has row := by
  cases row <;> simp [Has]

theorem has_append {s d : Store} (row : Row) :
    (s.append d).Has row ↔ s.Has row ∨ d.Has row := by
  cases row <;> simp [Has, append]

/-! ## What a fragment holds -/

def Row.isLink : Row → Bool
  | .lobbyRoom _ => true
  | _ => false

/-- The rows of `d` are those of `Q`, but that a membership of `Q` may be stored already. -/
structure Yields (d : Store) (Q : Row → Prop) : Prop where
  sound : ∀ row, d.Has row → Q row
  complete : ∀ row, row.isLink = false → Q row → d.Has row

theorem Yields.iff_of_not_link {d : Store} {Q : Row → Prop} (h : Yields d Q) {row : Row}
    (hrow : row.isLink = false) : d.Has row ↔ Q row :=
  ⟨h.sound row, h.complete row hrow⟩

theorem Yields.empty : Yields {} fun _ => False where
  sound := fun row h => absurd h (not_has_empty row)
  complete := by intro row _ h; cases h

theorem Yields.append {d e : Store} {Q R : Row → Prop} (hd : Yields d Q) (he : Yields e R) :
    Yields (d.append e) fun row => Q row ∨ R row where
  sound := fun row h => ((has_append row).1 h).imp (hd.sound row) (he.sound row)
  complete := fun row hrow h => (has_append row).2 (h.imp (hd.complete row hrow) (he.complete row hrow))

theorem Yields.congr {d : Store} {Q R : Row → Prop} (h : Yields d Q) (hQR : ∀ row, Q row ↔ R row) :
    Yields d R where
  sound := fun row hrow => (hQR row).1 (h.sound row hrow)
  complete := fun row hl hr => h.complete row hl ((hQR row).2 hr)

/-- A loop whose every iteration appends a fragment with the rows `Q` appends one with the rows of
all its elements, and every element passed the checks `R` of the body. -/
theorem forEach_yields {α ε : Type} {f : Nat → α → Store → Except ε Store}
    {Q : Nat → α → Row → Prop} {R : Nat → α → Prop}
    (hf : ∀ i a s s', f i a s = .ok s' → R i a ∧ ∃ d, Yields d (Q i a) ∧ s' = s.append d) :
    ∀ (l : List α) (i : Nat) (s s' : Store), Lib.forEach f i l s = .ok s' →
      (∀ k a, l[k]? = some a → R (i + k) a) ∧
      ∃ d, Yields d (fun row => ∃ k a, l[k]? = some a ∧ Q (i + k) a row) ∧ s' = s.append d := by
  intro l
  induction l with
  | nil =>
    intro i s s' h
    cases h
    refine ⟨by intro k a hk; simp at hk, {}, Yields.empty.congr ?_, s.append_empty.symm⟩
    intro row
    simp
  | cons a l ih =>
    intro i s s' h
    obtain ⟨s₁, h₁, h₂⟩ := Lib.bind_ok.1 h
    obtain ⟨hR, d, hd, rfl⟩ := hf i a s s₁ h₁
    obtain ⟨hRs, e, he, rfl⟩ := ih (i + 1) _ s' h₂
    constructor
    · intro k b hk
      cases k with
      | zero => cases hk; exact hR
      | succ k =>
        have hb := hRs k b (by simpa using hk)
        rwa [show i + 1 + k = i + (k + 1) by omega] at hb
    · refine ⟨d.append e, (hd.append he).congr ?_, append_assoc s d e⟩
      intro row
      constructor
      · rintro (hrow | ⟨k, b, hk, hrow⟩)
        · exact ⟨0, a, rfl, hrow⟩
        · rw [show i + 1 + k = i + (k + 1) by omega] at hrow
          exact ⟨k + 1, b, by simpa using hk, hrow⟩
      · rintro ⟨k, b, hk, hrow⟩
        cases k with
        | zero => cases hk; exact .inl hrow
        | succ k =>
          refine .inr ⟨k, b, by simpa using hk, ?_⟩
          rwa [show i + 1 + k = i + (k + 1) by omega]

/-! ## Fragments a loop appends -/

section

variable {α : Type} (frag : Nat → α → Store)

/-- The fragments of the iterations of a loop, one after another. -/
def fragments : Nat → List α → Store
  | _, [] => {}
  | i, a :: l => (frag i a).append (fragments (i + 1) l)

/-- A table of the fragments is the table of each, in order. -/
theorem table_fragments {β : Type} {table : Store → List β} (hempty : table {} = [])
    (happend : ∀ s d, table (s.append d) = table s ++ table d) (i : Nat) (l : List α) :
    table (fragments frag i l) = Lib.blocks (fun k a => table (frag (i + k) a)) l := by
  induction l generalizing i with
  | nil => rw [fragments, hempty, Lib.blocks_nil]
  | cons a l ih =>
    rw [fragments, happend, ih, Lib.blocks_cons]
    congr 1
    refine Lib.blocks_congr fun k b _ => ?_
    rw [show i + 1 + k = i + (k + 1) by omega]

@[simp] theorem projects_fragments (i : Nat) (l : List α) : (fragments frag i l).projects =
    Lib.blocks (fun k a => (frag (i + k) a).projects) l :=
  table_fragments frag rfl projects_append i l

@[simp] theorem accessScopes_fragments (i : Nat) (l : List α) : (fragments frag i l).accessScopes =
    Lib.blocks (fun k a => (frag (i + k) a).accessScopes) l :=
  table_fragments frag rfl accessScopes_append i l

@[simp] theorem apps_fragments (i : Nat) (l : List α) : (fragments frag i l).apps =
    Lib.blocks (fun k a => (frag (i + k) a).apps) l :=
  table_fragments frag rfl apps_append i l

@[simp] theorem rooms_fragments (i : Nat) (l : List α) : (fragments frag i l).rooms =
    Lib.blocks (fun k a => (frag (i + k) a).rooms) l :=
  table_fragments frag rfl rooms_append i l

@[simp] theorem roomActorAccess_fragments (i : Nat) (l : List α) : (fragments frag i l).roomActorAccess =
    Lib.blocks (fun k a => (frag (i + k) a).roomActorAccess) l :=
  table_fragments frag rfl roomActorAccess_append i l

@[simp] theorem lobbies_fragments (i : Nat) (l : List α) : (fragments frag i l).lobbies =
    Lib.blocks (fun k a => (frag (i + k) a).lobbies) l :=
  table_fragments frag rfl lobbies_append i l

@[simp] theorem lobbyRooms_fragments (i : Nat) (l : List α) : (fragments frag i l).lobbyRooms =
    Lib.blocks (fun k a => (frag (i + k) a).lobbyRooms) l :=
  table_fragments frag rfl lobbyRooms_append i l

@[simp] theorem actorTokens_fragments (i : Nat) (l : List α) : (fragments frag i l).actorTokens =
    Lib.blocks (fun k a => (frag (i + k) a).actorTokens) l :=
  table_fragments frag rfl actorTokens_append i l

@[simp] theorem actorTokenStates_fragments (i : Nat) (l : List α) :
    (fragments frag i l).actorTokenStates =
      Lib.blocks (fun k a => (frag (i + k) a).actorTokenStates) l :=
  table_fragments frag rfl actorTokenStates_append i l

@[simp] theorem actorAppAccess_fragments (i : Nat) (l : List α) : (fragments frag i l).actorAppAccess =
    Lib.blocks (fun k a => (frag (i + k) a).actorAppAccess) l :=
  table_fragments frag rfl actorAppAccess_append i l

@[simp] theorem signingKeys_fragments (i : Nat) (l : List α) : (fragments frag i l).signingKeys =
    Lib.blocks (fun k a => (frag (i + k) a).signingKeys) l :=
  table_fragments frag rfl signingKeys_append i l

/-- A loop whose every iteration appends its fragment, the constraints kept, appends them all, and
every element passed the checks `R` of the body. -/
theorem forEach_fragments {ε : Type} {f : Nat → α → Store → Except ε Store} {R : Nat → α → Prop}
    (hf : ∀ i a s s', s.SchemaValid → f i a s = .ok s' →
      R i a ∧ s'.SchemaValid ∧ s' = s.append (frag i a)) :
    ∀ (l : List α) (i : Nat) (s s' : Store), s.SchemaValid → Lib.forEach f i l s = .ok s' →
      (∀ k a, l[k]? = some a → R (i + k) a) ∧ s'.SchemaValid ∧
        s' = s.append (fragments frag i l) := by
  intro l
  induction l with
  | nil =>
    intro i s s' hs h
    cases h
    exact ⟨fun k a hk => by simp at hk, hs, s.append_empty.symm⟩
  | cons a l ih =>
    intro i s s' hs h
    obtain ⟨s₁, h₁, h₂⟩ := Lib.bind_ok.1 h
    obtain ⟨hR, hs₁, rfl⟩ := hf i a s s₁ hs h₁
    obtain ⟨hRs, hs', rfl⟩ := ih (i + 1) _ s' hs₁ h₂
    refine ⟨?_, hs', append_assoc _ _ _⟩
    intro k b hk
    cases k with
    | zero => cases hk; exact hR
    | succ k =>
      have hb := hRs k b (by simpa using hk)
      rwa [show i + 1 + k = i + (k + 1) by omega] at hb

end

end Store
end NolagCore
