import NolagCore.Authz.Service

/-!
# Authz.TokenRefusal

Whether every presented text gets an answer. Verification has one `try`, around the signature check;
the header is decoded and its kid coerced before it. So a text can be thrown back before any key is
looked up: by `jwt.decode`, on a header of type JWT over a payload that is not JSON, or by the pattern
test, on a kid that has no string.
-/

namespace NolagCore
namespace Authz

open Lib SigningKeys

/-! ## What the library reads -/

structure JwsHeader where
  typ : Option Claim
  alg : Option Claim
  kid : Option Claim

/-- The two segments that `jws` decodes, as it reads them. -/
structure JwsReader where
  /-- The header segment; nothing where it does not decode to JSON. -/
  header : String → Option JwsHeader
  /-- Whether the payload segment decodes to JSON. -/
  payloadIsJson : String → Bool

/-- `[a-zA-Z0-9\-_]*`. -/
def urlSafe (segment : String) : Bool :=
  segment.toList.all fun c => c.isAlphanum || decide (c = '-') || decide (c = '_')

/-- `^[a-zA-Z0-9\-_]+?\.[a-zA-Z0-9\-_]+?\.([a-zA-Z0-9\-_]+)?$`, on the three segments. -/
def jwsShaped (header payload signature : String) : Bool :=
  decide (header ≠ "") && decide (payload ≠ "") && urlSafe header && urlSafe payload &&
    urlSafe signature

/-- `jwt.decode(token, { complete: true })` over `jws`: null on text that is not JWS-shaped, and a
payload is parsed where the header says that it is JSON. -/
def JwsReader.decode (reader : JwsReader) (token : String) : Decoded :=
  match splitOn '.' token with
  | [header, payload, signature] =>
    if jwsShaped header payload signature then
      match reader.header header with
      | none => .null
      | some h =>
        if h.typ = some (.text "JWT") ∧ reader.payloadIsJson payload = false then .throws
        else .token h.alg h.kid
    else .null
  | _ => .null

/-- The library gets as far as the header `h` of the token, which stands over the segment `payload`. -/
def JwsReader.Reads (reader : JwsReader) (token payload : String) (h : JwsHeader) : Prop :=
  ∃ header signature, splitOn '.' token = [header, payload, signature] ∧
    jwsShaped header payload signature = true ∧ reader.header header = some h

/-- A text with the shape of a client token whose header is read has JSON under a header of type JWT,
and no kid without a string in a header of algorithm HS256. -/
def Readable (reader : JwsReader) (token : String) : Prop :=
  isClientTokenJwt token = true → ∀ payload h, reader.Reads token payload h →
    (h.typ = some (.text "JWT") → reader.payloadIsJson payload = true) ∧
    (h.alg = some (.text "HS256") → ∀ kid, h.kid = some kid → kid.coerced ≠ none)

/-- Both calls come to a result, and a client token that is not accepted is denied. -/
structure Answers (env : Env) (s : Store) (now : Int) (caches : Caches) (token : String) : Prop where
  verify : ∃ verified,
    (verifyClientToken env.lib env.config s now caches.kid token).1 = .ok verified
  validate : ∃ response, (validateActor env s now caches token).1 = .ok response
  denied : isClientTokenJwt token = true →
    (verifyClientToken env.lib env.config s now caches.kid token).1 = .ok none →
      (validateActor env s now caches token).1 = .ok (.invalid .tokenInvalid)

/-! ## Decoding -/

section

variable {reader : JwsReader} {token : String}

theorem decode_of_reads {payload : String} {h : JwsHeader} (hr : reader.Reads token payload h) :
    reader.decode token =
      if h.typ = some (.text "JWT") ∧ reader.payloadIsJson payload = false then .throws
      else .token h.alg h.kid := by
  obtain ⟨header, signature, hsplit, hshaped, hheader⟩ := hr
  unfold JwsReader.decode
  simp only [hsplit, hshaped, hheader, if_true]

theorem decode_of_unread (hr : ∀ payload h, ¬ reader.Reads token payload h) :
    reader.decode token = .null := by
  unfold JwsReader.decode
  split
  · rename_i header payload signature hsplit
    split
    · rename_i hshaped
      split
      · rfl
      · rename_i h hheader
        exact absurd ⟨header, signature, hsplit, hshaped, hheader⟩ (hr payload h)
    · rfl
  · rfl

theorem JwsReader.Reads.unique {payload payload' : String} {h h' : JwsHeader}
    (hr : reader.Reads token payload h) (hr' : reader.Reads token payload' h') :
    payload = payload' ∧ h = h' := by
  obtain ⟨header, signature, hsplit, -, hheader⟩ := hr
  obtain ⟨header', signature', hsplit', -, hheader'⟩ := hr'
  cases hsplit.symm.trans hsplit'
  cases hheader.symm.trans hheader'
  exact ⟨rfl, rfl⟩

end

/-! ## Up to the kid -/

section

variable {reader : JwsReader} {lib : TokenLibrary} {token : String}

theorem isClientTokenJwt_iff : isClientTokenJwt token = true ↔
    ¬ ((splitOn '.' token).length ≠ 3 ∨ "eyJ".toList.isPrefixOf token.toList = false) := by
  unfold isClientTokenJwt
  rw [Bool.and_eq_true, decide_eq_true_eq, not_or, not_not, Bool.not_eq_false, and_comm]

theorem kid_of_shapeless (h : isClientTokenJwt token ≠ true) :
    clientTokenKid lib token = .ok none := by
  rw [ne_eq, isClientTokenJwt_iff, not_not] at h
  unfold clientTokenKid
  rw [if_pos h]

theorem kid_of_null (h : isClientTokenJwt token = true) (hd : lib.decode token = .null) :
    clientTokenKid lib token = .ok none := by
  unfold clientTokenKid
  rw [if_neg (isClientTokenJwt_iff.1 h), hd]

theorem kid_of_throws (h : isClientTokenJwt token = true) (hd : lib.decode token = .throws) :
    clientTokenKid lib token = .error .syntaxError := by
  unfold clientTokenKid
  rw [if_neg (isClientTokenJwt_iff.1 h), hd]

/-- A header that was read is passed on unless its kid has no string. -/
theorem kid_of_token (h : isClientTokenJwt token = true) {alg kid : Option Claim}
    (hd : lib.decode token = .token alg kid) :
    (∃ kid', clientTokenKid lib token = .ok kid') ↔
      (alg = some (.text "HS256") → ∀ k, kid = some k → k.coerced ≠ none) := by
  unfold clientTokenKid
  rw [if_neg (isClientTokenJwt_iff.1 h), hd]
  dsimp only
  by_cases halg : alg = some (.text "HS256")
  · rw [if_neg (not_not_intro halg)]
    cases kid with
    | none => simp
    | some k =>
      cases hk : k.coerced with
      | none => simp [halg, hk]
      | some text => by_cases hpattern : kidPattern text = true <;> simp [hk, hpattern]
  · rw [if_pos halg]
    simp [halg]

theorem kid_iff_readable (hdecode : ∀ token, lib.decode token = reader.decode token) :
    (∃ kid, clientTokenKid lib token = .ok kid) ↔ Readable reader token := by
  by_cases hshape : isClientTokenJwt token = true
  · by_cases hread : ∃ payload h, reader.Reads token payload h
    · obtain ⟨payload, h, hr⟩ := hread
      have hd := (hdecode token).trans (decode_of_reads hr)
      have hreadable : Readable reader token ↔
          (h.typ = some (.text "JWT") → reader.payloadIsJson payload = true) ∧
          (h.alg = some (.text "HS256") → ∀ kid, h.kid = some kid → kid.coerced ≠ none) := by
        refine ⟨fun hall => hall hshape payload h hr, fun hboth _ payload' h' hr' => ?_⟩
        obtain ⟨rfl, rfl⟩ := hr.unique hr'
        exact hboth
      rw [hreadable]
      by_cases hthrow : h.typ = some (.text "JWT") ∧ reader.payloadIsJson payload = false
      · rw [if_pos hthrow] at hd
        refine iff_of_false ?_ ?_
        · rw [kid_of_throws hshape hd]
          simp
        · intro hboth
          have hjson := hboth.1 hthrow.1
          rw [hthrow.2] at hjson
          cases hjson
      · rw [if_neg hthrow] at hd
        have hjson : h.typ = some (.text "JWT") → reader.payloadIsJson payload = true := by
          intro htyp
          by_contra hnot
          exact hthrow ⟨htyp, Bool.eq_false_iff.2 hnot⟩
        rw [kid_of_token hshape hd]
        exact ⟨fun hk => ⟨hjson, hk⟩, And.right⟩
    · have hunread : ∀ payload h, ¬ reader.Reads token payload h := fun payload h hr =>
        hread ⟨payload, h, hr⟩
      have hd := (hdecode token).trans (decode_of_unread hunread)
      exact iff_of_true ⟨none, kid_of_null hshape hd⟩ fun _ payload h hr =>
        absurd hr (hunread payload h)
  · exact iff_of_true ⟨none, kid_of_shapeless hshape⟩ fun h => absurd h hshape

end

/-! ## The two calls -/

section

variable {env : Env} {s : Store} {now : Int} {caches : Caches} {token : String}

/-- After the kid nothing is thrown. -/
theorem verify_iff_kid :
    (∃ verified, (verifyClientToken env.lib env.config s now caches.kid token).1 = .ok verified) ↔
      ∃ kid, clientTokenKid env.lib token = .ok kid := by
  unfold verifyClientToken
  cases hkid : clientTokenKid env.lib token with
  | error e => simp
  | ok kid =>
    refine iff_of_true ?_ ⟨kid, rfl⟩
    split
    · rename_i heq
      cases heq
    · exact ⟨_, rfl⟩
    · exact ⟨_, rfl⟩
    · exact ⟨_, rfl⟩

/-- The client token path throws only what verification throws, and denies what it refuses. -/
theorem validateClientToken_of_verify {verified : Option VerifiedClientToken}
    (h : (verifyClientToken env.lib env.config s now caches.kid token).1 = .ok verified) :
    (∃ response, (validateClientToken env s now caches token).1 = .ok response) ∧
      (verified = none → (validateClientToken env s now caches token).1 =
        .ok (.invalid .tokenInvalid)) := by
  unfold validateClientToken
  generalize verifyClientToken env.lib env.config s now caches.kid token = answer at h
  obtain ⟨result, kid⟩ := answer
  cases h
  dsimp only
  cases verified with
  | none => exact ⟨⟨_, rfl⟩, fun _ => rfl⟩
  | some verified =>
    refine ⟨?_, fun hn => by cases hn⟩
    dsimp only
    split
    · exact ⟨_, rfl⟩
    · split
      · exact ⟨_, rfl⟩
      · split
        · exact ⟨_, rfl⟩
        · exact ⟨_, rfl⟩

theorem answers_iff_kid : Answers env s now caches token ↔
    ∃ kid, clientTokenKid env.lib token = .ok kid := by
  constructor
  · exact fun h => verify_iff_kid.1 h.verify
  · intro hkid
    obtain ⟨verified, hverified⟩ := (verify_iff_kid (s := s)).2 hkid
    have hclient := validateClientToken_of_verify hverified
    refine ⟨⟨verified, hverified⟩, ?_, fun hshape hnone => ?_⟩
    · unfold validateActor
      split
      · exact hclient.1
      · exact ⟨_, rfl⟩
    · unfold validateActor
      rw [if_pos hshape]
      rw [hverified] at hnone
      cases hnone
      exact hclient.2 rfl

end

/-- Every text gets an answer from both calls exactly where it can be read. -/
theorem bad_tokens_answered_iff (reader : JwsReader) (env : Env)
    (hdecode : ∀ token, env.lib.decode token = reader.decode token) (s : Store) (now : Int)
    (caches : Caches) (token : String) :
    Answers env s now caches token ↔ Readable reader token := by
  rw [answers_iff_kid, kid_iff_readable hdecode]

/-- The header `{"alg":"HS256","typ":"JWT"}`. -/
def plainHeader : String := "eyJhbGciOiJIUzI1NiIsInR5cCI6IkpXVCJ9"

/-- A reader that knows this header and the payload `{}`. -/
def plainReader : JwsReader where
  header segment :=
    if segment = plainHeader then
      some { typ := some (.text "JWT"), alg := some (.text "HS256"), kid := none }
    else none
  payloadIsJson segment := decide (segment = "e30")

def plainEnv : Env where
  config := {}
  crypto := sampleCrypto
  lib :=
    { decode := plainReader.decode
      verify := fun _ _ _ _ _ => none
      decryptSecret := fun _ _ => none }

theorem reads_plain (payload : String) (hsafe : '.' ∉ payload.toList) (hne : payload ≠ "")
    (hurl : urlSafe payload = true) :
    plainReader.Reads (plainHeader ++ "." ++ (payload ++ "." ++ "AA")) payload
      { typ := some (.text "JWT"), alg := some (.text "HS256"), kid := none } := by
  refine ⟨plainHeader, "AA", ?_, ?_, rfl⟩
  · rw [splitOn_append rfl (by decide), splitOn_append rfl hsafe, splitOn_of_notMem (by decide)]
  · unfold jwsShaped
    rw [hurl, decide_eq_true hne]
    decide

/-- An empty payload object is read, and the token denied for its kid. -/
theorem bad_tokens_answered_iff_plain :
    (Answers plainEnv {} 0 {} (plainHeader ++ "." ++ ("e30" ++ "." ++ "AA")) ↔
      Readable plainReader (plainHeader ++ "." ++ ("e30" ++ "." ++ "AA"))) ∧
    Readable plainReader (plainHeader ++ "." ++ ("e30" ++ "." ++ "AA")) := by
  refine ⟨bad_tokens_answered_iff plainReader plainEnv (fun _ => rfl) {} 0 {} _, ?_⟩
  intro _ payload h hr
  obtain ⟨rfl, rfl⟩ := hr.unique (reads_plain "e30" (by decide) (by decide) (by decide))
  exact ⟨fun _ => rfl, fun _ kid hkid => by cases hkid⟩

/-- A payload of one zero byte under the same header is thrown back. -/
theorem bad_payload_thrown :
    ¬ ∀ (reader : JwsReader) (env : Env), (∀ token, env.lib.decode token = reader.decode token) →
      ∀ (s : Store) (now : Int) (caches : Caches) (token : String),
        Answers env s now caches token := by
  intro hevery
  have hanswers := hevery plainReader plainEnv (fun _ => rfl) {} 0 {}
    (plainHeader ++ "." ++ ("AA" ++ "." ++ "AA"))
  obtain ⟨kid, hkid⟩ := answers_iff_kid.1 hanswers
  have hdecode : plainEnv.lib.decode (plainHeader ++ "." ++ ("AA" ++ "." ++ "AA")) = .throws :=
    decode_of_reads (reads_plain "AA" (by decide) (by decide) (by decide))
  rw [kid_of_throws (by decide) hdecode] at hkid
  cases hkid

end Authz
end NolagCore
