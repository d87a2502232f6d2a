import Mathlib.Data.List.Dedup
import NolagCore.Lib.Sorting
import NolagCore.ProjectConfig.RoundTrip

/-!
# ProjectConfig.Normalise

The form an export gives a document: defaults written out, slugs in order, instants in one notation,
and the key id that was minted in the place of every handle. Two documents in this form say the same
when they differ in the order of actors, signing keys and grants alone.
-/

namespace NolagCore
namespace ProjectConfig

open Lib

/-! ## Text in the order of code units -/

theorem lexLe_cons {x y : Nat} {a b : List Nat} :
    lexLe (x :: a) (y :: b) = true ↔ x < y ∨ x = y ∧ lexLe a b = true := by
  simp [lexLe]

theorem lexLe_order : TotalOrder lexLe where
  total a b := by
    induction a generalizing b with
    | nil => exact .inl rfl
    | cons x a ih =>
      cases b with
      | nil => exact .inr rfl
      | cons y b =>
        rw [lexLe_cons, lexLe_cons]
        rcases Nat.lt_trichotomy x y with h | rfl | h
        · exact .inl (.inl h)
        · exact (ih b).imp (fun h => .inr ⟨rfl, h⟩) fun h => .inr ⟨rfl, h⟩
        · exact .inr (.inl h)
  trans a b c := by
    induction a generalizing b c with
    | nil => exact fun _ _ => rfl
    | cons x a ih =>
      cases b with
      | nil => exact fun h => nomatch h
      | cons y b =>
        cases c with
        | nil => exact fun _ h => nomatch h
        | cons z c =>
          rw [lexLe_cons, lexLe_cons, lexLe_cons]
          rintro (h | ⟨rfl, h⟩) (h' | ⟨rfl, h'⟩)
          · exact .inl (Nat.lt_trans h h')
          · exact .inl h
          · exact .inl h'
          · exact .inr ⟨rfl, ih b c h h'⟩
  antisymm a b := by
    induction a generalizing b with
    | nil =>
      intro _ h
      cases b with
      | nil => rfl
      | cons y b => cases h
    | cons x a ih =>
      intro h h'
      cases b with
      | nil => cases h
      | cons y b =>
        rw [lexLe_cons] at h h'
        rcases h with h | ⟨rfl, h⟩ <;> rcases h' with h' | ⟨_, h'⟩
        · omega
        · omega
        · omega
        · rw [ih b h h']

/-- The code units of one character. -/
def charUnits (c : Char) : List Nat :=
  if c.toNat < 0x10000 then [c.toNat]
  else [0xD800 + (c.toNat - 0x10000) / 0x400, 0xDC00 + (c.toNat - 0x10000) % 0x400]

theorem charUnits_cases (c : Char) :
    (c.toNat < 0x10000 ∧ (c.toNat < 0xD800 ∨ 0xDFFF < c.toNat) ∧ charUnits c = [c.toNat]) ∨
    (0x10000 ≤ c.toNat ∧ c.toNat < 0x110000 ∧ charUnits c =
      [0xD800 + (c.toNat - 0x10000) / 0x400, 0xDC00 + (c.toNat - 0x10000) % 0x400]) := by
  have hvalid : c.toNat < 0xD800 ∨ 0xDFFF < c.toNat ∧ c.toNat < 0x110000 := c.valid
  unfold charUnits
  split
  · exact .inl ⟨by omega, by omega, rfl⟩
  · exact .inr ⟨by omega, by omega, rfl⟩

/-- No character's code units begin another's. -/
theorem charUnits_append_inj {c d : Char} {u v : List Nat}
    (h : charUnits c ++ u = charUnits d ++ v) : c = d ∧ u = v := by
  have hchar : c.toNat = d.toNat → c = d := fun hn => Char.toNat_inj.1 hn
  rcases charUnits_cases c with ⟨hc, hc', hcu⟩ | ⟨hc, hc', hcu⟩ <;>
    rcases charUnits_cases d with ⟨hd, hd', hdu⟩ | ⟨hd, hd', hdu⟩ <;>
    rw [hcu, hdu] at h <;>
    simp only [List.cons_append, List.nil_append, List.cons.injEq] at h
  · exact ⟨hchar h.1, h.2⟩
  · omega
  · omega
  · exact ⟨hchar (by omega), h.2.2⟩

theorem codeUnits_inj {a b : String} (h : codeUnits a = codeUnits b) : a = b := by
  have hlists : ∀ l l' : List Char, l.flatMap charUnits = l'.flatMap charUnits → l = l' := by
    intro l
    induction l with
    | nil =>
      intro l' h
      cases l' with
      | nil => rfl
      | cons d l' =>
        rcases charUnits_cases d with ⟨-, -, hd⟩ | ⟨-, -, hd⟩ <;> simp [hd] at h
    | cons c l ih =>
      intro l' h
      cases l' with
      | nil =>
        rcases charUnits_cases c with ⟨-, -, hc⟩ | ⟨-, -, hc⟩ <;> simp [hc] at h
      | cons d l' =>
        rw [List.flatMap_cons, List.flatMap_cons] at h
        obtain ⟨hcd, hrest⟩ := charUnits_append_inj h
        rw [hcd, ih l' hrest]
  exact String.toList_inj.1 (hlists _ _ h)

theorem collateC_order : TotalOrder collateC where
  total _ _ := lexLe_order.total _ _
  trans _ _ _ := lexLe_order.trans _ _ _
  antisymm _ _ h h' := codeUnits_inj (lexLe_order.antisymm _ _ h h')

theorem orderBy_eq {α : Type} (collate : String → String → Bool) (key : α → String)
    (rows : List α) : orderBy collate key rows = sortOn collate key rows := rfl

/-! ## The normal form -/

def AccessScopeDoc.normalise (scope : AccessScopeDoc) : AccessScopeDoc :=
  { scope with isActive := some (scope.isActive.getD true) }

def RoomTypeGrantDoc.normalise (grant : RoomTypeGrantDoc) : RoomTypeGrantDoc :=
  { grant with isActive := some (grant.isActive.getD true) }

def RoomDoc.normalise (room : RoomDoc) : RoomDoc :=
  { room with
    status := some (room.status.getD .active)
    typeGrants := some ((room.typeGrants.getD []).map RoomTypeGrantDoc.normalise) }

/-- Each room once, in the order of `Array.prototype.sort`. -/
def LobbyDoc.normalise (lobby : LobbyDoc) : LobbyDoc :=
  { lobby with rooms := orderBy collateC id lobby.rooms.dedup }

def AppDoc.normalise (collate : String → String → Bool) (app : AppDoc) : AppDoc :=
  { app with
    status := some (app.status.getD .active)
    accessMode := some (app.accessMode.getD .open)
    rooms := some ((orderBy collate (·.slug) (app.rooms.getD [])).map RoomDoc.normalise)
    lobbies := some ((orderBy collate (·.slug) (app.lobbies.getD [])).map LobbyDoc.normalise) }

/-- An expiry in the notation of `toISOString`. -/
def instantText (legacy : String → Option Int) (text : Option String) : Option String :=
  (text.bind (newDate legacy)).bind toISOString

section

variable (legacy : String → Option Int)

def ActorAppGrantDoc.normalise (grant : ActorAppGrantDoc) : ActorAppGrantDoc :=
  { grant with
    isActive := some (grant.isActive.getD true)
    expiresAt := instantText legacy grant.expiresAt }

def ActorRoomGrantDoc.normalise (grant : ActorRoomGrantDoc) : ActorRoomGrantDoc :=
  { grant with
    isActive := some (grant.isActive.getD true)
    expiresAt := instantText legacy grant.expiresAt }

/-- The key id minted for a handle. -/
def mintedKeyId (minted : List MintedCredential) (ref : String) : String :=
  ((minted.find? fun credential => decide (credential.ref = ref)).map (·.keyId)).getD ref

def ActorDoc.normalise (minted : List MintedCredential) (actor : ActorDoc) : ActorDoc :=
  { actor with
    ref := mintedKeyId minted actor.ref
    status := some (actor.status.getD .active)
    expiresAt := instantText legacy actor.expiresAt
    appAccess := some ((actor.appAccess.getD []).map (ActorAppGrantDoc.normalise legacy))
    roomAccess := some ((actor.roomAccess.getD []).map (ActorRoomGrantDoc.normalise legacy)) }

def SigningKeyDoc.normalise (minted : List MintedCredential) (key : SigningKeyDoc) :
    SigningKeyDoc :=
  { key with ref := mintedKeyId minted key.ref }

def ProjectConfigDoc.normalise (collate : String → String → Bool)
    (credentials : ImportedCredentials) (doc : ProjectConfigDoc) : ProjectConfigDoc :=
  { doc with
    accessScopes := some ((orderBy collate (·.slug) (doc.accessScopes.getD [])).map
      AccessScopeDoc.normalise)
    apps := some ((orderBy collate (·.slug) (doc.apps.getD [])).map (AppDoc.normalise collate))
    actors := some ((doc.actors.getD []).map (ActorDoc.normalise legacy credentials.actors))
    signingKeys := some ((doc.signingKeys.getD []).map
      (SigningKeyDoc.normalise credentials.signingKeys)) }

end

/-- An actor whose scope slug is empty names no scope. -/
def ActorDoc.withoutEmptyScope (actor : ActorDoc) : ActorDoc :=
  { actor with scopeSlug := actor.scopeSlug.filter fun slug => truthy (some slug) }

def ProjectConfigDoc.withoutEmptyScopes (doc : ProjectConfigDoc) : ProjectConfigDoc :=
  { doc with actors := doc.actors.map (·.map ActorDoc.withoutEmptyScope) }

/-! ## Documents that say the same -/

structure RoomDoc.Same (a b : RoomDoc) : Prop where
  typeGrants : (a.typeGrants.getD []).Perm (b.typeGrants.getD [])
  rest : { a with typeGrants := none } = { b with typeGrants := none }

structure AppDoc.Same (a b : AppDoc) : Prop where
  rooms : List.Forall₂ RoomDoc.Same (a.rooms.getD []) (b.rooms.getD [])
  rest : { a with rooms := none } = { b with rooms := none }

structure ActorDoc.Same (a b : ActorDoc) : Prop where
  appAccess : (a.appAccess.getD []).Perm (b.appAccess.getD [])
  roomAccess : (a.roomAccess.getD []).Perm (b.roomAccess.getD [])
  rest : { a with appAccess := none, roomAccess := none } =
    { b with appAccess := none, roomAccess := none }

/-- Equality, actors, signing keys and grants compared as multisets. -/
structure ProjectConfigDoc.Same (a b : ProjectConfigDoc) : Prop where
  apps : List.Forall₂ AppDoc.Same (a.apps.getD []) (b.apps.getD [])
  actors : ∃ actors, (a.actors.getD []).Perm actors ∧
    List.Forall₂ ActorDoc.Same actors (b.actors.getD [])
  signingKeys : (a.signingKeys.getD []).Perm (b.signingKeys.getD [])
  rest : { a with apps := none, actors := none, signingKeys := none } =
    { b with apps := none, actors := none, signingKeys := none }

end ProjectConfig
end NolagCore
