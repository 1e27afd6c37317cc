import RealtimeAgnostic.Gateway.Handlers
import RealtimeAgnostic.Irc.Line

/-! # Token providers

A provider is built once from the configuration of the server and the environment. The
JWT provider checks a token with the current key and, if only the signature is wrong, with
the key that is being rotated out. All other checks are the same for both keys.
-/

namespace RealtimeAgnostic

/-! ## The library -/

inductive Algorithm where
  | hs256 | hs384 | hs512 | es256 | es384 | rs256 | rs384 | rs512 | ps256 | ps384 | ps512 | edDsa
deriving DecidableEq, Repr

def Algorithm.isHmac : Algorithm → Bool
  | .hs256 | .hs384 | .hs512 => true
  | _ => false

inductive DecodingKey where
  | secret (bytes : String)
  | rsaPem (pem : String)
deriving DecidableEq, Repr

def DecodingKey.isHmac : DecodingKey → Bool
  | .secret _ => true
  | .rsaPem _ => false

/-- `issuers` and `audience` are not checked when they are `none`. -/
structure Validation where
  algorithm : Algorithm
  requiredClaims : List String := ["exp"]
  issuers : Option (List String) := none
  audience : Option (List String) := none
  validateAud : Bool := true
deriving DecidableEq, Repr

/-- The payload of a token, with the defaults of what it leaves out. -/
structure JwtClaims where
  sub : String
  exp : Option Nat
  iat : Option Nat
  namespaces : List String
  canPublish : Bool
  canSubscribe : Bool
  metadata : List (String × Json)

structure DecodeError where
  invalidSignature : Bool
  text : String
deriving DecidableEq, Repr

/-- The JWT library: the checks on the shape and the algorithm, for which only the family
of the key counts, then the signature, then the payload. -/
structure JwtLibrary where
  pemError : String → Option String
  header : String → Bool → Validation → Except DecodeError Unit
  signedBy : DecodingKey → String → Bool
  payload : String → Validation → Except DecodeError JwtClaims

def JwtLibrary.decode (L : JwtLibrary) (token : String) (key : DecodingKey) (validation : Validation) :
    Except DecodeError JwtClaims := do
  L.header token key.isHmac validation
  if L.signedBy key token then L.payload token validation else .error ⟨true, "InvalidSignature"⟩

/-! ## The JWT provider -/

structure JwtConfig where
  secret : String
  previousSecret : Option String := none
  algorithm : Algorithm := .hs256
  issuer : Option String := none
  requireIssuer : Bool := true
  audience : Option String := none

def JwtConfig.hmac (secret : String) : JwtConfig := { secret := secret }

/-- `str::trim`. -/
def trimmed (s : String) : String :=
  String.ofList (((s.toList.dropWhile Irc.isWhitespace).reverse.dropWhile Irc.isWhitespace).reverse)

/-- The entries of a list that commas separate, trimmed, blanks dropped. -/
def commaSeparated (raw : String) : List String :=
  ((splitStr raw ',').map trimmed).filter (· ≠ "")

def JwtConfig.acceptedIssuers (config : JwtConfig) : List String := config.issuer.elim [] commaSeparated

/-- The variables of the environment that the providers read. -/
structure Environment where
  securityMode : Option String := none
  namespaceFallback : Option String := none
  protectedNamespaces : Option String := none
  allowNoauth : Option String := none

def fallbackPermissive (fallback mode : Option String) : Bool :=
  match fallback with
  | some "permissive" => true
  | some "deny" => false
  | _ => mode ≠ some "max"

def protectedNamespacesFromEnv (env : Environment) : List String :=
  env.protectedNamespaces.elim [] commaSeparated

/-- Both keys are of one family. -/
structure JwtAuthProvider where
  decodingKey : DecodingKey
  previousKey : Option DecodingKey
  validation : Validation
  protectedNamespaces : List String
  sameFamily : ∀ prev ∈ previousKey, prev.isHmac = decodingKey.isHmac

def buildDecodingKey (L : JwtLibrary) (config : JwtConfig) : Except String DecodingKey :=
  if config.algorithm.isHmac then .ok (.secret config.secret)
  else
    match L.pemError config.secret with
    | none => .ok (.rsaPem config.secret)
    | some e => .error ("Internal error: Invalid RSA public key PEM: " ++ e)

def buildPreviousKey (config : JwtConfig) : Option DecodingKey :=
  config.previousSecret.bind fun prev =>
    if config.algorithm.isHmac ∧ prev ≠ "" ∧ prev ≠ config.secret then some (.secret prev) else none

def buildValidation (config : JwtConfig) : Validation :=
  let issuers := config.acceptedIssuers
  let validation : Validation := { algorithm := config.algorithm }
  let validation :=
    if issuers ≠ [] then
      { validation with
        issuers := some issuers
        requiredClaims := if config.requireIssuer then ["exp", "iss"] else validation.requiredClaims }
    else validation
  match config.audience with
  | some audience => { validation with audience := some [audience] }
  | none => { validation with validateAud := false }

theorem mem_buildPreviousKey {config : JwtConfig} {key : DecodingKey} :
    key ∈ buildPreviousKey config ↔ ∃ prev, config.previousSecret = some prev ∧
      config.algorithm.isHmac = true ∧ prev ≠ "" ∧ prev ≠ config.secret ∧ key = .secret prev := by
  unfold buildPreviousKey
  rw [Option.mem_def, Option.bind_eq_some_iff]
  refine exists_congr fun prev => and_congr_right fun _ => ?_
  rw [Option.ite_none_right_eq_some, Option.some.injEq, and_assoc, and_assoc,
    @eq_comm _ (DecodingKey.secret prev)]

theorem sameFamily_build {L : JwtLibrary} {config : JwtConfig} {key : DecodingKey}
    (h : buildDecodingKey L config = .ok key) :
    ∀ prev ∈ buildPreviousKey config, prev.isHmac = key.isHmac := by
  intro prev hPrev
  obtain ⟨_, -, hHmac, -, -, rfl⟩ := mem_buildPreviousKey.mp hPrev
  rw [buildDecodingKey, if_pos hHmac] at h
  cases h
  rfl

namespace JwtAuthProvider

def new (L : JwtLibrary) (env : Environment) (config : JwtConfig) : Except String JwtAuthProvider :=
  match h : buildDecodingKey L config with
  | .ok decodingKey =>
    .ok ⟨decodingKey, buildPreviousKey config, buildValidation config, protectedNamespacesFromEnv env,
      sameFamily_build h⟩
  | .error e => .error e

variable (L : JwtLibrary) (env : Environment) (provider : JwtAuthProvider)

def decode (token : String) : Except DecodeError JwtClaims :=
  match L.decode token provider.decodingKey provider.validation with
  | .error e =>
    if e.invalidSignature then
      match provider.previousKey with
      | none => .error e
      | some prev => L.decode token prev provider.validation
    else .error e
  | .ok claims => .ok claims

end JwtAuthProvider

def buildAuthClaims (env : Environment) (claims : JwtClaims) : TokenClaims where
  sub := claims.sub
  namespaces :=
    if claims.namespaces.isEmpty && fallbackPermissive env.namespaceFallback env.securityMode then ["*"]
    else claims.namespaces
  canPublish := claims.canPublish
  canSubscribe := claims.canSubscribe
  metadata := claims.metadata

/-- `strip_prefix("Bearer ")`, or the whole text. -/
def bearerToken (token : String) : String :=
  if startsWith token "Bearer " then String.ofList (token.toList.drop "Bearer ".toList.length) else token

def JwtAuthProvider.verify (L : JwtLibrary) (env : Environment) (provider : JwtAuthProvider)
    (token : String) : Except String TokenClaims :=
  match provider.decode L (bearerToken token) with
  | .error e => .error ("Authentication failed: Invalid token: " ++ e.text)
  | .ok claims => .ok (buildAuthClaims env claims)

def JwtAuthProvider.provider (L : JwtLibrary) (env : Environment) (provider : JwtAuthProvider) :
    AuthProvider where
  verify := provider.verify L env
  authorizeSubscribe := fun claims topic => claims.canSubscribeToScoped topic provider.protectedNamespaces
  authorizePublish := fun claims topic => claims.canPublishToScoped topic provider.protectedNamespaces

/-! ## The provider of the server -/

def NoAuthProvider : AuthProvider where
  verify := fun token => .ok ⟨⟨if token = "" then "anonymous" else token, ["*"], true, true⟩, []⟩
  authorizeSubscribe := fun _ _ => true
  authorizePublish := fun _ _ => true

inductive AuthConfig where
  | noAuth
  | jwt (secret : String) (issuer audience : Option String) (allowNoIssuer : Bool)
      (previousSecret : Option String)

def jwtConfig (secret : String) (issuer audience : Option String) (allowNoIssuer : Bool)
    (previousSecret : Option String) : JwtConfig :=
  { JwtConfig.hmac secret with
    previousSecret := previousSecret
    issuer := issuer
    audience := audience
    requireIssuer := !allowNoIssuer }

def buildAuthProvider (L : JwtLibrary) (env : Environment) : AuthConfig → Except String AuthProvider
  | .noAuth =>
    if env.securityMode = some "max" ∧ env.allowNoauth ≠ some "1" then
      .error "NoAuth realtime provider refused under SECURITY_MODE=max — configure JWT, or set REALTIME_ALLOW_NOAUTH=1 to override"
    else .ok NoAuthProvider
  | .jwt secret issuer audience allowNoIssuer previousSecret => do
    let provider ← JwtAuthProvider.new L env
      (jwtConfig secret issuer audience allowNoIssuer previousSecret)
    return provider.provider L env

/-! ## What is accepted -/

/-- One of the keys of the provider signed the token. -/
def JwtAuthProvider.Signed (L : JwtLibrary) (provider : JwtAuthProvider) (token : String) : Prop :=
  L.signedBy provider.decodingKey token = true ∨
    ∃ prev ∈ provider.previousKey, L.signedBy prev token = true

section Accepted

variable {L : JwtLibrary} {env : Environment} {provider : JwtAuthProvider} {token : String}
  {claims : JwtClaims}

theorem JwtLibrary.decode_ok_iff {key : DecodingKey} {validation : Validation} :
    L.decode token key validation = .ok claims ↔ L.header token key.isHmac validation = .ok () ∧
      L.signedBy key token = true ∧ L.payload token validation = .ok claims := by
  unfold JwtLibrary.decode
  cases hHeader : L.header token key.isHmac validation with
  | error e =>
    apply iff_of_false
    · intro h
      cases h
    · rintro ⟨h, -⟩
      cases h
  | ok u =>
    change (if L.signedBy key token = true then L.payload token validation else _) = _ ↔ _
    split
    · rename_i hSigned
      exact ⟨fun h => ⟨rfl, hSigned, h⟩, fun h => h.2.2⟩
    · rename_i hSigned
      apply iff_of_false
      · intro h
        cases h
      · exact fun h => hSigned h.2.1

/-- An error that is not about the signature does not depend on the key. -/
theorem JwtLibrary.decode_final {key : DecodingKey} {validation : Validation} {e : DecodeError}
    (h : L.decode token key validation = .error e) (hFinal : e.invalidSignature = false)
    (hHeader : L.header token key.isHmac validation = .ok ()) :
    L.payload token validation ≠ .ok claims := by
  unfold JwtLibrary.decode at h
  rw [hHeader] at h
  change (if L.signedBy key token = true then L.payload token validation else _) = _ at h
  split at h
  · rw [h]
    intro hOk
    cases hOk
  · cases h
    cases hFinal

/-- The second key makes up for the signature alone. -/
theorem JwtAuthProvider.decode_ok_iff : provider.decode L token = .ok claims ↔
    L.header token provider.decodingKey.isHmac provider.validation = .ok () ∧
      provider.Signed L token ∧ L.payload token provider.validation = .ok claims := by
  unfold JwtAuthProvider.decode
  cases hFirst : L.decode token provider.decodingKey provider.validation with
  | ok first =>
    obtain ⟨hHeader, hSigned, hPayload⟩ := JwtLibrary.decode_ok_iff.mp hFirst
    rw [hPayload]
    exact ⟨fun h => ⟨hHeader, Or.inl hSigned, h⟩, fun h => h.2.2⟩
  | error e =>
    have hNotFirst : L.header token provider.decodingKey.isHmac provider.validation = .ok () →
        L.payload token provider.validation = .ok claims →
        ¬L.signedBy provider.decodingKey token = true := by
      intro hHeader hPayload hSigned
      rw [JwtLibrary.decode_ok_iff.mpr ⟨hHeader, hSigned, hPayload⟩] at hFirst
      cases hFirst
    dsimp only
    split
    · -- the signature was refused: whatever is accepted is accepted by the previous key
      constructor
      · intro h
        cases hPrev : provider.previousKey with
        | none =>
          rw [hPrev] at h
          cases h
        | some prev =>
          rw [hPrev] at h
          obtain ⟨hHeader, hSigned, hPayload⟩ := JwtLibrary.decode_ok_iff.mp h
          rw [provider.sameFamily prev hPrev] at hHeader
          exact ⟨hHeader, Or.inr ⟨prev, hPrev, hSigned⟩, hPayload⟩
      · rintro ⟨hHeader, hSigned, hPayload⟩
        obtain ⟨prev, hPrev, hSigned⟩ := hSigned.resolve_left (hNotFirst hHeader hPayload)
        rw [Option.mem_def.mp hPrev]
        rw [← provider.sameFamily prev hPrev] at hHeader
        exact JwtLibrary.decode_ok_iff.mpr ⟨hHeader, hSigned, hPayload⟩
    · rename_i hFinal
      apply iff_of_false
      · intro h
        cases h
      · rintro ⟨hHeader, -, hPayload⟩
        exact JwtLibrary.decode_final hFirst (Bool.eq_false_iff.mpr hFinal) hHeader hPayload

theorem JwtAuthProvider.verify_ok_iff {granted : TokenClaims} :
    provider.verify L env token = .ok granted ↔
      ∃ claims, provider.decode L (bearerToken token) = .ok claims ∧ buildAuthClaims env claims = granted := by
  unfold JwtAuthProvider.verify
  cases provider.decode L (bearerToken token) with
  | ok claims =>
    constructor
    · intro h
      cases h
      exact ⟨claims, rfl, rfl⟩
    · rintro ⟨_, hEq, rfl⟩
      cases hEq
      rfl
  | error e =>
    apply iff_of_false
    · intro h
      cases h
    · rintro ⟨_, h, -⟩
      cases h

/-- Nothing can go wrong with the key of an HMAC provider. -/
theorem JwtAuthProvider.new_hmac {config : JwtConfig} (h : config.algorithm.isHmac = true) :
    ∃ provider, JwtAuthProvider.new L env config = .ok provider ∧
      provider.decodingKey = .secret config.secret ∧
      provider.previousKey = buildPreviousKey config ∧
      provider.validation = buildValidation config ∧
      provider.protectedNamespaces = protectedNamespacesFromEnv env := by
  have hKey : buildDecodingKey L config = .ok (.secret config.secret) := if_pos h
  unfold JwtAuthProvider.new
  split
  · rename_i key hBuilt
    cases hKey.symm.trans hBuilt
    exact ⟨_, rfl, rfl, rfl, rfl, rfl⟩
  · rename_i e hBuilt
    cases hKey.symm.trans hBuilt

/-- What the JWT provider of the server accepts: one secret or the other signed it, and all
else is in order. -/
structure Accepts (L : JwtLibrary) (env : Environment) (config : JwtConfig) (token : String)
    (granted : TokenClaims) (claims : JwtClaims) : Prop where
  header : L.header (bearerToken token) true (buildValidation config) = .ok ()
  signed : L.signedBy (.secret config.secret) (bearerToken token) = true ∨
    ∃ prev, config.previousSecret = some prev ∧ prev ≠ "" ∧
      L.signedBy (.secret prev) (bearerToken token) = true
  payload : L.payload (bearerToken token) (buildValidation config) = .ok claims
  granted : buildAuthClaims env claims = granted

theorem accepts_iff {config : JwtConfig} (hHmac : config.algorithm.isHmac = true)
    (hKey : provider.decodingKey = .secret config.secret)
    (hPrevious : provider.previousKey = buildPreviousKey config)
    (hValidation : provider.validation = buildValidation config) {granted : TokenClaims} :
    provider.verify L env token = .ok granted ↔ ∃ claims, Accepts L env config token granted claims := by
  have hSigned : provider.Signed L (bearerToken token) ↔
      L.signedBy (.secret config.secret) (bearerToken token) = true ∨
        ∃ prev, config.previousSecret = some prev ∧ prev ≠ "" ∧
          L.signedBy (.secret prev) (bearerToken token) = true := by
    unfold JwtAuthProvider.Signed
    rw [hKey, hPrevious]
    constructor
    · rintro (hCurrent | ⟨key, hMem, hPrev⟩)
      · exact Or.inl hCurrent
      · obtain ⟨prev, hSome, -, hNonempty, -, rfl⟩ := mem_buildPreviousKey.mp hMem
        exact Or.inr ⟨prev, hSome, hNonempty, hPrev⟩
    · rintro (hCurrent | ⟨prev, hSome, hNonempty, hPrev⟩)
      · exact Or.inl hCurrent
      · by_cases hSame : prev = config.secret
        · rw [hSame] at hPrev
          exact Or.inl hPrev
        · exact Or.inr ⟨_, mem_buildPreviousKey.mpr ⟨prev, hSome, hHmac, hNonempty, hSame, rfl⟩, hPrev⟩
  rw [JwtAuthProvider.verify_ok_iff]
  refine exists_congr fun claims => ?_
  rw [JwtAuthProvider.decode_ok_iff, hSigned, hKey, hValidation]
  constructor
  · rintro ⟨⟨hHeader, hEither, hPayload⟩, hGranted⟩
    exact ⟨hHeader, hEither, hPayload, hGranted⟩
  · rintro ⟨hHeader, hEither, hPayload, hGranted⟩
    exact ⟨⟨hHeader, hEither, hPayload⟩, hGranted⟩

/-- The server gets its JWT provider, whatever the secrets are. -/
theorem buildAuthProvider_jwt (secret : String) (issuer audience : Option String) (allowNoIssuer : Bool)
    (previousSecret : Option String) : ∃ auth,
    buildAuthProvider L env (.jwt secret issuer audience allowNoIssuer previousSecret) = .ok auth ∧
      (∀ token granted, auth.verify token = .ok granted ↔ ∃ claims, Accepts L env
        (jwtConfig secret issuer audience allowNoIssuer previousSecret) token granted claims) ∧
      (∀ granted topic, auth.authorizeSubscribe granted topic =
        granted.canSubscribeToScoped topic (protectedNamespacesFromEnv env)) ∧
      ∀ granted topic, auth.authorizePublish granted topic =
        granted.canPublishToScoped topic (protectedNamespacesFromEnv env) := by
  obtain ⟨provider, hNew, hKey, hPrevious, hValidation, hProtected⟩ := @JwtAuthProvider.new_hmac L env
    (jwtConfig secret issuer audience allowNoIssuer previousSecret) rfl
  refine ⟨provider.provider L env, ?_, ?_, ?_, ?_⟩
  · rw [buildAuthProvider, hNew]
    rfl
  · exact fun token granted => accepts_iff rfl hKey hPrevious hValidation
  · intro granted topic
    rw [← hProtected]
    rfl
  · intro granted topic
    rw [← hProtected]
    rfl

end Accepted

/-- What one provider allows under some claims the other allows too. -/
structure SameRights (auth other : AuthProvider) : Prop where
  subscribe : ∀ granted topic, auth.authorizeSubscribe granted topic = other.authorizeSubscribe granted topic
  publish : ∀ granted topic, auth.authorizePublish granted topic = other.authorizePublish granted topic

/-- While a secret is rotated out, the server accepts what it would accept with the old one
or with the new one and nothing else, under the same claims and with the same rights. -/
theorem rotation_accepts_both (L : JwtLibrary) (env : Environment) (old new : String)
    (issuer audience : Option String) (allowNoIssuer : Bool) (hOld : old ≠ "") :
    ∃ before rotating after,
      buildAuthProvider L env (.jwt old issuer audience allowNoIssuer none) = .ok before ∧
      buildAuthProvider L env (.jwt new issuer audience allowNoIssuer (some old)) = .ok rotating ∧
      buildAuthProvider L env (.jwt new issuer audience allowNoIssuer none) = .ok after ∧
      (∀ token granted, rotating.verify token = .ok granted ↔
        before.verify token = .ok granted ∨ after.verify token = .ok granted) ∧
      SameRights rotating before ∧ SameRights after before := by
  obtain ⟨before, hBefore, hVerifyBefore, hSubscribeBefore, hPublishBefore⟩ :=
    @buildAuthProvider_jwt L env old issuer audience allowNoIssuer none
  obtain ⟨rotating, hRotating, hVerifyRotating, hSubscribeRotating, hPublishRotating⟩ :=
    @buildAuthProvider_jwt L env new issuer audience allowNoIssuer (some old)
  obtain ⟨after, hAfter, hVerifyAfter, hSubscribeAfter, hPublishAfter⟩ :=
    @buildAuthProvider_jwt L env new issuer audience allowNoIssuer none
  refine ⟨before, rotating, after, hBefore, hRotating, hAfter, ?_, ⟨?_, ?_⟩, ⟨?_, ?_⟩⟩
  · intro token granted
    rw [hVerifyRotating, hVerifyBefore, hVerifyAfter]
    constructor
    · rintro ⟨claims, hHeader, hSigned | ⟨prev, hPrev, -, hSigned⟩, hPayload, hGranted⟩
      · exact Or.inr ⟨claims, hHeader, Or.inl hSigned, hPayload, hGranted⟩
      · cases hPrev
        exact Or.inl ⟨claims, hHeader, Or.inl hSigned, hPayload, hGranted⟩
    · rintro (⟨claims, hHeader, hSigned, hPayload, hGranted⟩ | ⟨claims, hHeader, hSigned, hPayload, hGranted⟩)
      · obtain hSigned | ⟨prev, hNone, -⟩ := hSigned
        · exact ⟨claims, hHeader, Or.inr ⟨old, rfl, hOld, hSigned⟩, hPayload, hGranted⟩
        · cases hNone
      · obtain hSigned | ⟨prev, hNone, -⟩ := hSigned
        · exact ⟨claims, hHeader, Or.inl hSigned, hPayload, hGranted⟩
        · cases hNone
  · intro granted topic
    rw [hSubscribeRotating, hSubscribeBefore]
  · intro granted topic
    rw [hPublishRotating, hPublishBefore]
  · intro granted topic
    rw [hSubscribeAfter, hSubscribeBefore]
  · intro granted topic
    rw [hPublishAfter, hPublishBefore]

/-- Tokens that are the secret they are signed with, and that name a namespace. -/
def JwtLibrary.plain («namespace» : String) : JwtLibrary where
  pemError := fun _ => some "InvalidKeyFormat"
  header := fun _ hmac validation =>
    if validation.algorithm.isHmac = hmac then .ok () else .error ⟨false, "InvalidAlgorithm"⟩
  signedBy := fun key token => decide (key = .secret token)
  payload := fun token _ => .ok ⟨token, some 0, none, [«namespace»], true, true, []⟩

theorem rotation_accepts_both_old : ∃ rotating,
    buildAuthProvider (.plain "a") {} (.jwt "new" none none false (some "old")) = .ok rotating ∧
      ∃ granted, rotating.verify "old" = .ok granted := by
  obtain ⟨before, rotating, after, hBefore, hRotating, -, hVerify, -⟩ :=
    rotation_accepts_both (.plain "a") {} "old" "new" none none false (by decide)
  refine ⟨rotating, hRotating, ⟨⟨"old", ["a"], true, true⟩, []⟩, (hVerify _ _).mpr (Or.inl ?_)⟩
  cases hBefore
  rfl

end RealtimeAgnostic
