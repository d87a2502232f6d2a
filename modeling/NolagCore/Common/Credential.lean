import NolagCore.Common.SecretHash

/-!
# Common.Credential

The text of a minted credential. Minting, splitting and comparing agree on it for every value of the
random bytes.
-/

namespace NolagCore

open Lib

/-- `randomBytes(6)` and `randomBytes(32)`. -/
structure CredentialBytes.Drawn (random : CredentialBytes) : Prop where
  key : random.keyBytes.length = 6
  secret : random.secretBytes.length = 32

/-! ## Hexadecimal text -/

theorem length_hexEncode (bytes : List UInt8) : (hexEncode bytes).toList.length = 2 * bytes.length := by
  rw [hexEncode, String.toList_ofList]
  induction bytes with
  | nil => rfl
  | cons b bytes ih =>
    rw [List.flatMap_cons, List.length_append, ih, List.length_cons]
    simp only [List.length_cons, List.length_nil]
    omega

theorem mem_hexEncode {bytes : List UInt8} {c : Char} (h : c ∈ (hexEncode bytes).toList) :
    c ∈ hexDigits := by
  rw [hexEncode, String.toList_ofList, List.mem_flatMap] at h
  obtain ⟨b, -, hc⟩ := h
  simp only [List.mem_cons, List.not_mem_nil, or_false] at hc
  rcases hc with rfl | rfl <;> exact getD_mem (by decide) _

theorem dot_notMem_hexEncode (bytes : List UInt8) : '.' ∉ (hexEncode bytes).toList := fun h =>
  absurd (mem_hexEncode h) (by decide)

theorem base64url_ne_nil {bytes : List UInt8} (h : bytes ≠ []) : base64url bytes ≠ [] := by
  match bytes, h with
  | [_], _ => exact List.cons_ne_nil _ _
  | [_, _], _ => exact List.cons_ne_nil _ _
  | _ :: _ :: _ :: _, _ => exact List.cons_ne_nil _ _

/-! ## Minting -/

section

variable {crypto : Crypto} {kind : String} {random : CredentialBytes}

theorem dot_notMem_keyId (hkind : '.' ∉ kind.toList) :
    '.' ∉ (generateCredential crypto kind random).keyId.toList := by
  unfold generateCredential
  rw [String.toList_append, String.toList_append]
  simp only [List.mem_append, not_or]
  exact ⟨⟨hkind, by decide⟩, dot_notMem_hexEncode _⟩

theorem dot_notMem_secret : '.' ∉ (generateCredential crypto kind random).secret.toList := by
  unfold generateCredential
  rw [String.toList_ofList]
  exact dot_notMem_base64url _

theorem splitOn_credential (hkind : '.' ∉ kind.toList) :
    splitOn '.' (generateCredential crypto kind random).credential =
      [(generateCredential crypto kind random).keyId,
        (generateCredential crypto kind random).secret] := by
  have hdot : '.' ∉ (generateCredential crypto kind random).keyId.toList := dot_notMem_keyId hkind
  have hsecret : '.' ∉ (generateCredential crypto kind random).secret.toList := dot_notMem_secret
  show splitOn '.' ((generateCredential crypto kind random).keyId ++ "." ++
    (generateCredential crypto kind random).secret) = _
  rw [splitOn_append rfl hdot, splitOn_of_notMem hsecret]

variable (crypto kind) in
/-- A minted credential splits into the key id and the secret it was put together from. -/
theorem splitCredential_generated (hkind : '.' ∉ kind.toList) (hdrawn : random.Drawn) :
    splitCredential (generateCredential crypto kind random).credential =
      some ((generateCredential crypto kind random).keyId,
        (generateCredential crypto kind random).secret) := by
  have hkeyId : (generateCredential crypto kind random).keyId ≠ "" := by
    intro h
    have hlen := congrArg (fun text : String => text.toList.length) h
    simp [generateCredential] at hlen
  have hsecret : (generateCredential crypto kind random).secret ≠ "" := by
    intro h
    have hlist := congrArg String.toList h
    simp only [generateCredential, String.toList_ofList] at hlist
    refine base64url_ne_nil ?_ hlist
    intro hnil
    have hlen := hdrawn.secret
    rw [hnil] at hlen
    cases hlen
  unfold splitCredential
  rw [splitOn_credential hkind]
  exact if_pos ⟨hkeyId, hsecret⟩

/-- An actor credential has not the shape of a client token. -/
theorem not_clientTokenJwt (hkind : '.' ∉ kind.toList) :
    isClientTokenJwt (generateCredential crypto kind random).credential = false := by
  unfold isClientTokenJwt
  rw [splitOn_credential hkind]
  exact Bool.and_false _

theorem verifySecretHash_hashSecret (secret : String) :
    verifySecretHash crypto (hashSecret crypto secret) secret = true := by
  simp [verifySecretHash]

end

end NolagCore
