import RealtimeAgnostic.Auth.Jwt
import RealtimeAgnostic.Engine.Isolation
import RealtimeAgnostic.Gateway.Bracketing
import RealtimeAgnostic.Gateway.Entitlement

/-! # What a connection may see

Whatever is stored for a connection was asked for under claims that one of its tokens
carries. An event that reaches the connection was matched by what was stored for it then;
ids of connections are not used again, so it is within these claims wherever it is.
-/

namespace RealtimeAgnostic

namespace SubscriptionRegistry

variable {P : Platform} {limits : FilterIndexLimits}

/-- A registry that was built by calls which recycle slots safely. -/
def BuiltSafely (P : Platform) (limits : FilterIndexLimits) (r : SubscriptionRegistry) : Prop :=
  ∃ calls, RunMeets (step P) (RecyclesSafely P) (withLimits limits) calls ∧
    run (step P) (withLimits limits) calls = r

theorem BuiltSafely.step {r : SubscriptionRegistry} (h : BuiltSafely P limits r) {call : Call}
    (hCall : RecyclesSafely P r call) : BuiltSafely P limits (r.step P call) := by
  obtain ⟨calls, hSafe, rfl⟩ := h
  exact ⟨calls ++ [call], runMeets_append.mpr ⟨hSafe, hCall, trivial⟩, run_snoc _ _ _⟩

/-- What is reported is stored, under a pattern that matches. -/
theorem BuiltSafely.stored_of_reported {r : SubscriptionRegistry} (h : BuiltSafely P limits r)
    {event : EventEnvelope} {clock : EvalClock} {t : Target}
    (hReported : t ∈ (r.forEachMatch P event clock).1) :
    ∃ x ∈ r.stored, x.key = (t.1, t.2.1) ∧ x.topic.matches event.topic = true := by
  obtain ⟨calls, hSafe, rfl⟩ := h
  obtain ⟨-, ⟨hIso, hReg⟩, hSep⟩ := maintained_run
    (((FilterIndex.isolated_maintained.mono (fun _ _ _ => trivial) fun _ _ h => h).and
      (FilterIndex.registered_maintained.mono (fun _ _ h => h.1) fun _ _ _ => trivial)).and
      (FilterIndex.separated_maintained.mono (fun _ _ h => h.2) fun _ _ _ => trivial))
    (fun r hCons key entry hEntry => hCons.copyClears (by rw [(hCons.entry _ _ hEntry).1, hEntry])
      fun _ => rfl)
    (fun r connId hCons hAgree => hCons.runMeets_effects hAgree) hSafe
  obtain ⟨id, d, hHits, hSlot, rfl⟩ := FilterIndex.occupied_of_mem_forEachMatch hReported
  refine ⟨d.stored, ?_, rfl, FilterIndex.matches_of_hits hIso.sound hReg hSep hSlot hHits⟩
  exact mem_stored_iff.mpr (Or.inr (Or.inr ⟨d, FilterIndex.mem_slots_of_slotAt hSlot, rfl⟩))

end SubscriptionRegistry

/-! ## Whose it is -/

/-- The id is the one of the connection at place `n`. -/
def Mine (n : Nat) (w : Node) (connId : ConnectionId) : Prop :=
  ∃ s, w.threads[n]? = some (Party.session s) ∧ s.main.accepted = true ∧ s.connId = connId

/-- The id was handed out, and if the connection has it, what comes with it is granted. -/
structure Held (n : Nat) (w : Node) (connId : ConnectionId) (granted : Prop) : Prop where
  known : connId.id < w.shared.manager.nextConnId
  granted : Mine n w connId → granted

variable {S : Services} {n : Nat} {w : Node} {turn : NodeTurn} {p : Party} {connId : ConnectionId}

theorem Mine.step_cases (hParty : w.threads[turn.1]? = some p)
    (h : Mine n ((node S).step w turn) connId) :
    Mine n w connId ∨ connId.id = w.shared.manager.nextConnId := by
  obtain ⟨t, hThread, hAccepted, rfl⟩ := h
  obtain ⟨-, hOld⟩ | ⟨rfl, s, st, rfl, hMoves⟩ := session_cases hParty hThread
  · exact Or.inl ⟨t, hOld, hAccepted, rfl⟩
  · obtain ⟨-, -, hConn, -⟩ | ⟨hConn, hSame, -⟩ := hMoves.identity
    · exact Or.inr (by rw [hConn])
    · exact Or.inl ⟨s, hParty, hSame ▸ hAccepted, hConn.symm⟩

theorem Held.step {granted : Prop} (h : Held n w connId granted) (hParty : w.threads[turn.1]? = some p) :
    Held n ((node S).step w turn) connId granted := by
  constructor
  · rw [Program.step_of_some hParty]
    exact Nat.lt_of_lt_of_le h.known (nextConnId_perform S.platform w.shared _).1
  · intro hMine
    obtain hOld | hNew := hMine.step_cases hParty
    · exact h.granted hOld
    · exact absurd hNew (Nat.ne_of_lt h.known)

theorem Held.mono {granted weaker : Prop} (h : Held n w connId granted) (hWeaker : granted → weaker) :
    Held n w connId weaker :=
  ⟨h.known, fun hMine => hWeaker (h.granted hMine)⟩

/-! ## What is stored -/

/-- The claims are good, and allow the pattern that the client spelt. -/
def Backed (S : Services) (Good : TokenClaims → Prop) (topic : TopicPattern) : Prop :=
  ∃ claims text, Good claims ∧ topic = TopicPattern.parse text ∧
    S.auth.authorizeSubscribe claims topic = true

/-- The connection at place `n` is given good claims only. -/
def BringsGood (S : Services) (n : Nat) (Good : TokenClaims → Prop) (turn : NodeTurn) : Prop :=
  ∀ token now claims, turn = (n, .session (.frame (.text (some (.auth token))) now)) →
    S.auth.verify token = .ok claims → Good claims

structure Session.Vouched (S : Services) (Good : TokenClaims → Prop) (s : Session) : Prop where
  granted : s.Granted S
  claims : ∀ claims, s.reader.auth.claims = some claims → Good claims
  spelt : ∀ sub, .subscribe sub ∈ s.reader.pending → ∃ text, sub.topic = TopicPattern.parse text

variable {Good : TokenClaims → Prop}

theorem Session.Vouched.backed {s : Session} (h : s.Vouched S Good) {sub : Subscription}
    (hPending : .subscribe sub ∈ s.reader.pending) : Backed S Good sub.topic := by
  obtain ⟨claims, hClaims, hGrant⟩ := h.granted.tasks sub hPending
  obtain ⟨text, hText⟩ := h.spelt sub hPending
  exact ⟨claims, text, h.claims claims hClaims, hText, hGrant⟩

theorem Session.spelt_of_moves {s t : Session} {st : SessionTurn} {a : HubAccess}
    (h : Session.Moves S w.shared s st a t) {sub : Subscription}
    (hPending : .subscribe sub ∈ t.reader.pending) :
    .subscribe sub ∈ s.reader.pending ∨ ∃ text, sub.topic = TopicPattern.parse text := by
  cases h with
  | stay => exact Or.inl hPending
  | frame hSpawned =>
    obtain hOld | ⟨message, hNew⟩ := Session.pending_readFrame hPending
    · exact Or.inl hOld
    · obtain ⟨-, item, -, -, rfl⟩ := Session.subscribe_mem_dispatchText.mp hNew
      exact Or.inr ⟨item.topic, rfl⟩
  | work hSpawned hWorks => exact Or.inl (hWorks.pending hPending)
  | write hSpawned =>
    rw [(Session.write_frame w.shared s _).2.2] at hPending
    exact Or.inl hPending
  | main hSupervises =>
    rw [hSupervises.frame.1] at hPending
    exact Or.inl hPending

theorem Session.Vouched.next {s : Session} (h : s.Vouched S Good) {st : SessionTurn}
    (hTurn : BringsGood S n Good (n, .session st)) : (s.next S w.shared st).2.Vouched S Good := by
  have hMoves := Session.moves_next S w.shared s st
  refine ⟨h.granted.next hMoves, ?_, ?_⟩
  · intro claims hClaims
    obtain hSame | ⟨token, now, new, rfl, -, hVerify, -, -, hNew⟩ := Session.auth_of_moves hMoves
    · rw [hSame] at hClaims
      exact h.claims claims hClaims
    · rw [hNew] at hClaims
      cases hClaims
      exact hTurn token now claims rfl hVerify
  · intro sub hPending
    obtain hOld | hNew := Session.spelt_of_moves hMoves hPending
    · exact h.spelt sub hOld
    · exact hNew

structure Vouched (S : Services) (n : Nat) (Good : TokenClaims → Prop) (w : Node) : Prop where
  identified : Identified w
  session : ∀ s : Session, w.threads[n]? = some (Party.session s) → s.Vouched S Good
  stored : ∀ x ∈ w.shared.registry.stored, Held n w x.key.1 (Backed S Good x.topic)

/-- What is new in the registry was stored by the connection whose turn it is. -/
theorem Vouched.new_stored (h : Vouched S n Good w) (hParty : w.threads[turn.1]? = some p)
    {x : StoredSubscription} (hx : x ∈ ((node S).step w turn).shared.registry.stored) :
    x ∈ w.shared.registry.stored ∨ ∃ s, w.threads[turn.1]? = some (Party.session s) ∧
      s.main.accepted = true ∧ s.connId = x.key.1 ∧ (turn.1 = n → Backed S Good x.topic) := by
  rw [Program.step_of_some hParty] at hx
  obtain hOld | ⟨sub, gatewayNode, hCall, rfl⟩ := stored_perform hx
  · exact Or.inl hOld
  · have hAccess : (node S).access w turn = some (.call (.subscribe sub gatewayNode)) :=
      (Program.access_of_some hParty).trans (congrArg some hCall)
    have hCreates : (HubAccess.call (.subscribe sub gatewayNode)).Creates sub.connId := rfl
    obtain ⟨s, hThread, hConn, hAccepted⟩ := creates_of_access h.identified hAccess hCreates
    refine Or.inr ⟨s, hThread, hAccepted, hConn, ?_⟩
    rintro rfl
    rw [hParty] at hThread
    cases hThread
    have hIssued : (Party.next S turn.2 w.shared (.session s)).1 = .call (.subscribe sub gatewayNode) :=
      hCall
    obtain ⟨place, choice⟩ := turn
    cases choice with
    | session st =>
      have hMoves := Session.moves_next S w.shared s st
      rw [show (s.next S w.shared st).1 = _ from hIssued] at hMoves
      exact (h.session s hParty).backed hMoves.subscribes.1
    | _ => cases hIssued

theorem Vouched.step (h : Vouched S n Good w) (hTurn : BringsGood S n Good turn) :
    Vouched S n Good ((node S).step w turn) := by
  cases hParty : w.threads[turn.1]? with
  | none =>
    rw [Program.step_of_none hParty]
    exact h
  | some p =>
    refine ⟨h.identified.step turn, ?_, ?_⟩
    · intro t hThread
      obtain ⟨rfl, hNext⟩ | ⟨-, hOld⟩ := Program.thread_cases hParty hThread
      · obtain ⟨s, rfl, ⟨st, hChoice, -, rfl⟩ | ⟨-, rfl⟩⟩ := Party.session_turn hNext.symm
        · obtain ⟨place, choice⟩ := turn
          obtain rfl : choice = .session st := hChoice
          exact (h.session s hParty).next hTurn
        · exact h.session t hParty
      · exact h.session t hOld
    · intro x hx
      obtain hOld | ⟨s, hThread, hAccepted, hConn, hBacked⟩ := h.new_stored hParty hx
      · exact (h.stored x hOld).step hParty
      · have hKnown : x.key.1.id < w.shared.manager.nextConnId := by
          rw [← hConn]
          exact h.identified.below turn.1 s hThread hAccepted
        have hHeld : Held n w x.key.1 (Backed S Good x.topic) := by
          refine ⟨hKnown, ?_⟩
          rintro ⟨other, hOther, hOtherAccepted, hSame⟩
          exact hBacked (h.identified.distinct turn.1 n s other hThread hOther hAccepted hOtherAccepted
            (hConn.trans hSame.symm))
        exact hHeld.step hParty

theorem vouched_start (S : Services) (limits : FilterIndexLimits)
    (sendQueueCapacity busCapacity workers sessions n : Nat) (Good : TokenClaims → Prop) :
    Vouched S n Good (Node.start limits sendQueueCapacity busCapacity workers sessions) := by
  refine ⟨identified_start limits sendQueueCapacity busCapacity workers sessions, ?_, ?_⟩
  · intro s hThread
    rw [new_of_start hThread]
    refine ⟨Session.granted_new S, ?_, ?_⟩
    · intro claims hClaims
      cases hClaims
    · intro sub hPending
      cases hPending
  · intro x hx
    cases hx

/-! ## What arrives -/

/-- The event is on a topic of a pattern that good claims allow. -/
def Reached (S : Services) (Good : TokenClaims → Prop) (event : RoutedEvent) : Prop :=
  ∃ topic, Backed S Good topic ∧ topic.matches event.event.topic = true

def HubAccess.registryCall : HubAccess → Option SubscriptionRegistry.Call
  | .call c => some c
  | _ => none

/-- The registry recycles its slots safely. -/
def NodeRecyclesSafely (S : Services) (w : Node) (turn : NodeTurn) : Prop :=
  ∀ call ∈ ((node S).access w turn).bind HubAccess.registryCall,
    SubscriptionRegistry.RecyclesSafely S.platform w.shared.registry call

instance (S : Services) (w : Node) (turn : NodeTurn) : Decidable (NodeRecyclesSafely S w turn) :=
  inferInstanceAs (Decidable (∀ call ∈ ((node S).access w turn).bind HubAccess.registryCall, _))

structure Delivers (S : Services) (limits : FilterIndexLimits) (n : Nat) (Good : TokenClaims → Prop)
    (w : Node) : Prop where
  vouched : Vouched S n Good w
  registry : SubscriptionRegistry.BuiltSafely S.platform limits w.shared.registry
  flying : ∀ d ∈ inFlight w, Held n w d.connId (Reached S Good d.event)
  queued : ∀ connId, ∀ e ∈ w.shared.manager.queued connId, Held n w connId (Reached S Good e.2)
  wire : ∀ s : Session, w.threads[n]? = some (Party.session s) →
    ∀ subId event, .event subId event ∈ s.wire → Reached S Good event

variable {limits : FilterIndexLimits}

theorem Delivers.registry_step (h : Delivers S limits n Good w) (hParty : w.threads[turn.1]? = some p)
    (hTurn : NodeRecyclesSafely S w turn) :
    SubscriptionRegistry.BuiltSafely S.platform limits ((node S).step w turn).shared.registry := by
  unfold NodeRecyclesSafely at hTurn
  rw [Program.access_of_some hParty] at hTurn
  rw [Program.step_of_some hParty]
  change SubscriptionRegistry.BuiltSafely S.platform limits
    (w.shared.perform S.platform ((node S).next turn.2 w.shared p).1).registry
  generalize ((node S).next turn.2 w.shared p).1 = a at hTurn
  cases a with
  | call call => exact h.registry.step (hTurn call rfl)
  | _ => exact h.registry

theorem Delivers.matched (h : Delivers S limits n Good w) {choice : Choice} {d : LocalDispatch}
    (hMatch : Matches S w.shared p choice d) : Held n w d.connId (Reached S Good d.event) := by
  obtain ⟨event, clock, -, -, rfl, hKey⟩ := hMatch
  obtain ⟨t, hReported, hTarget⟩ := List.mem_map.mp hKey
  obtain ⟨x, hStored, hx, hMatches⟩ := h.registry.stored_of_reported hReported
  have hConn : x.key.1 = d.connId := by rw [hx, hTarget]
  rw [← hConn]
  exact (h.vouched.stored x hStored).mono fun hBacked => ⟨x.topic, hBacked, hMatches⟩

/-- What the writer sends next was in the queue. -/
theorem Session.wire_of_moves {s t : Session} {st : SessionTurn} {a : HubAccess}
    (h : Session.Moves S w.shared s st a t) {subId : SubscriptionId} {event : RoutedEvent}
    (hWire : .event subId event ∈ t.wire) : .event subId event ∈ s.wire ∨
      s.main.accepted = true ∧ (subId, event) ∈ w.shared.manager.queued s.connId := by
  cases h with
  | stay => exact Or.inl hWire
  | frame hSpawned =>
    rw [(Session.readFrame_wire S s _ _).1] at hWire
    exact Or.inl hWire
  | work hSpawned hWorks => cases hWorks <;> exact Or.inl hWire
  | @write outcome hSpawned =>
    have hWrites := Session.writes_write w.shared s outcome
    generalize (s.write w.shared outcome).2 = t at hWrites hWire
    cases hWrites with
    | idle => exact Or.inl hWire
    | ended hFrames hEnded =>
      obtain hOld | hNew := List.mem_append.mp hWire
      · exact Or.inl hOld
      · cases hFrames _ hNew
    | control hRunning hCtrl hFrame =>
      obtain hOld | hNew := List.mem_append.mp hWire
      · exact Or.inl hOld
      · cases List.mem_singleton.mp hNew
    | event hRunning hCtrl hQueue hFrame =>
      obtain hOld | hNew := List.mem_append.mp hWire
      · exact Or.inl hOld
      · cases List.mem_singleton.mp hNew
        rw [hQueue]
        exact Or.inr ⟨Session.accepted_of_spawned hSpawned, List.mem_cons_self⟩
  | main hSupervises =>
    cases hSupervises with
    | wait hMain hNext hFrames =>
      obtain ⟨frames, rfl, hClose⟩ := hFrames
      obtain hOld | hNew := List.mem_append.mp hWire
      · exact Or.inl hOld
      · cases hClose _ hNew
    | _ => exact Or.inl hWire

theorem Delivers.step (h : Delivers S limits n Good w) (hGood : BringsGood S n Good turn)
    (hSafe : NodeRecyclesSafely S w turn) : Delivers S limits n Good ((node S).step w turn) := by
  cases hParty : w.threads[turn.1]? with
  | none =>
    rw [Program.step_of_none hParty]
    exact h
  | some p =>
    refine ⟨h.vouched.step hGood, h.registry_step hParty hSafe, ?_, ?_, ?_⟩
    · intro d hd
      obtain hOld | hMatch := mem_inFlight_step hParty hd
      · exact (h.flying d hOld).step hParty
      · exact (h.matched hMatch).step hParty
    · intro connId e he
      rw [Program.shared_of_some hParty] at he
      obtain hSub | ⟨d, hSend, rfl, -, hQueued⟩ :=
        queued_perform S.platform w.shared (Party.next S turn.2 w.shared p).1 connId
      · exact (h.queued connId e (hSub.subset he)).step hParty
      · change e ∈ (w.shared.perform S.platform (Party.next S turn.2 w.shared p).1).manager.queued
          d.connId at he
        rw [hQueued, List.mem_append, List.mem_singleton] at he
        obtain hOld | rfl := he
        · exact (h.queued d.connId e hOld).step hParty
        · have hAccess : (node S).access w turn = some (.trySend d) :=
            (Program.access_of_some hParty).trans (congrArg some hSend)
          have hFlying := (inFlight_of_trySend hAccess).mem_iff.mpr List.mem_cons_self
          exact (h.flying d hFlying).step hParty
    · intro t hThread subId event hWire
      obtain ⟨-, hOld⟩ | ⟨rfl, s, st, rfl, hMoves⟩ := session_cases hParty hThread
      · exact h.wire t hOld subId event hWire
      · obtain hSent | ⟨hAccepted, hQueue⟩ := Session.wire_of_moves hMoves hWire
        · exact h.wire s hParty subId event hSent
        · exact (h.queued s.connId _ hQueue).granted ⟨s, hParty, hAccepted, rfl⟩

theorem delivers_start (S : Services) (limits : FilterIndexLimits)
    (sendQueueCapacity busCapacity workers sessions n : Nat) (Good : TokenClaims → Prop) :
    Delivers S limits n Good (Node.start limits sendQueueCapacity busCapacity workers sessions) := by
  refine ⟨vouched_start S limits sendQueueCapacity busCapacity workers sessions n Good,
    ⟨[], trivial, rfl⟩, ?_, ?_, ?_⟩
  · intro d hd
    rw [inFlight_start limits sendQueueCapacity busCapacity workers sessions] at hd
    cases hd
  · intro connId e he
    cases he
  · intro s hThread subId event hWire
    rw [new_of_start hThread] at hWire
    cases hWire

/-! ## The strict mode -/

/-- `SECURITY_MODE=max`, and none of the switches that undo it. -/
structure Environment.Max (env : Environment) : Prop where
  mode : env.securityMode = some "max"
  noauth : env.allowNoauth ≠ some "1"
  fallback : env.namespaceFallback ≠ some "permissive"

instance (env : Environment) : Decidable env.Max :=
  decidable_of_iff (env.securityMode = some "max" ∧ env.allowNoauth ≠ some "1" ∧
    env.namespaceFallback ≠ some "permissive") ⟨fun h => ⟨h.1, h.2.1, h.2.2⟩, fun h => ⟨h.1, h.2, h.3⟩⟩

/-- A secret of the configuration signed the token, and `claims` is what the token says. -/
def AuthConfig.Carries (L : JwtLibrary) (env : Environment) (token : String) (claims : JwtClaims) :
    AuthConfig → Prop
  | .noAuth => False
  | .jwt secret issuer audience allowNoIssuer previousSecret => ∃ granted,
      Accepts L env (jwtConfig secret issuer audience allowNoIssuer previousSecret) token granted claims

/-- The token names the namespace of the topic, or some wildcard. -/
def TokenGrants (L : JwtLibrary) (env : Environment) (config : AuthConfig) (token : String)
    (topic : TopicPath) : Prop :=
  ∃ claims, config.Carries L env token claims ∧ claims.canSubscribe = true ∧
    (topic.namespace ∈ claims.namespaces ∨ ∃ ns ∈ claims.namespaces, '*' ∈ ns.toList)

section Strict

variable {L : JwtLibrary} {env : Environment} {config : AuthConfig}

theorem Environment.Max.namespaces (h : env.Max) (claims : JwtClaims) :
    (buildAuthClaims env claims).namespaces = claims.namespaces := by
  have hDenied : fallbackPermissive env.namespaceFallback env.securityMode = false := by
    unfold fallbackPermissive
    split
    · exact absurd ‹_› h.fallback
    · rfl
    · exact decide_eq_false (not_not.mpr h.mode)
  change (if (claims.namespaces.isEmpty && _) = true then _ else _) = _
  rw [hDenied, Bool.and_false, if_neg Bool.false_ne_true]

/-- No provider is built but the JWT provider. -/
theorem Environment.Max.jwt {auth : AuthProvider} (h : env.Max)
    (hAuth : buildAuthProvider L env config = .ok auth) :
    (∀ token granted, auth.verify token = .ok granted →
      ∃ claims, config.Carries L env token claims ∧ buildAuthClaims env claims = granted) ∧
    ∀ granted topic, auth.authorizeSubscribe granted topic =
      granted.canSubscribeToScoped topic (protectedNamespacesFromEnv env) := by
  cases config with
  | noAuth =>
    rw [buildAuthProvider, if_pos ⟨h.mode, h.noauth⟩] at hAuth
    cases hAuth
  | jwt secret issuer audience allowNoIssuer previousSecret =>
    obtain ⟨built, hBuilt, hVerify, hSubscribe, -⟩ :=
      @buildAuthProvider_jwt L env secret issuer audience allowNoIssuer previousSecret
    cases hBuilt.symm.trans hAuth
    refine ⟨fun token granted hOk => ?_, hSubscribe⟩
    obtain ⟨claims, hAccepts⟩ := (hVerify token granted).mp hOk
    exact ⟨claims, ⟨granted, hAccepts⟩, hAccepts.granted⟩

/-- A pattern that the claims allow matches the topics of a namespace that they name, unless
they name a wildcard. -/
theorem granted_namespace {claims : AuthClaims} {protectedNs : List String} {text : String}
    {topic : TopicPath} (hGrant : claims.canSubscribeToScoped (TopicPattern.parse text) protectedNs = true)
    (hMatches : (TopicPattern.parse text).matches topic = true) :
    claims.canSubscribe = true ∧
      (topic.namespace ∈ claims.namespaces ∨ ∃ ns ∈ claims.namespaces, '*' ∈ ns.toList) := by
  obtain ⟨hSubscribe, hAllowed⟩ := (claims.canSubscribeToScoped_iff _ _).mp hGrant
  refine ⟨hSubscribe, ?_⟩
  obtain hNamed | ⟨hStar, -⟩ := (claims.namespaceAllowed_iff _ _).mp hAllowed
  · by_cases hWild : WildFirst text
    · rw [extractPatternNamespace_of_wildFirst hWild] at hNamed
      exact Or.inr ⟨_, hNamed, star_mem_wildNamespace hWild⟩
    · rw [namespace_of_matches hWild hMatches]
      exact Or.inl hNamed
  · exact Or.inr ⟨"*", hStar, by decide⟩

/-- A token that comes with the schedule of the connection at place `n`. -/
def Presented (schedule : List NodeTurn) (n : Nat) (token : String) : Prop :=
  ∃ now, (n, .session (.frame (.text (some (.auth token))) now)) ∈ schedule

/-- The claims of a token that is presented. -/
def OfPresented (S : Services) (schedule : List NodeTurn) (n : Nat) (claims : TokenClaims) : Prop :=
  ∃ token, Presented schedule n token ∧ S.auth.verify token = .ok claims

theorem bringsGood_presented (S : Services) (schedule : List NodeTurn) (n : Nat) (w : Node) :
    RunMeets (node S).step (fun _ => BringsGood S n (OfPresented S schedule n)) w schedule := by
  apply runMeets_of_mem
  rintro turn hTurn token now claims rfl hVerify
  exact ⟨token, ⟨now, hTurn⟩, hVerify⟩

theorem Environment.Max.grants (h : env.Max) {S : Services}
    (hAuth : buildAuthProvider L env config = .ok S.auth) {schedule : List NodeTurn} {n : Nat}
    {pattern : TopicPattern} (hBacked : Backed S (OfPresented S schedule n) pattern) :
    ∃ token, Presented schedule n token ∧
      ∀ topic, pattern.matches topic = true → TokenGrants L env config token topic := by
  obtain ⟨hVerified, hSubscribe⟩ := h.jwt hAuth
  obtain ⟨granted, text, ⟨token, hPresented, hVerify⟩, rfl, hGrant⟩ := hBacked
  obtain ⟨claims, hCarries, rfl⟩ := hVerified token granted hVerify
  refine ⟨token, hPresented, fun topic hMatches => ?_⟩
  rw [hSubscribe] at hGrant
  obtain ⟨hMay, hNamespace⟩ := granted_namespace hGrant hMatches
  rw [h.namespaces claims] at hNamespace
  exact ⟨claims, hCarries, hMay, hNamespace⟩

/-- The mode is strict, the secret is `t` and every token names the namespace `a`. -/
def Environment.strict : Environment := { securityMode := some "max" }

def AuthConfig.strict : AuthConfig := .jwt "t" none none false none

def Services.strict : Services :=
  { Services.admitting with
    auth := JwtAuthProvider.provider (.plain "a") .strict
      ⟨.secret "t", none, buildValidation (jwtConfig "t" none none false none), [], fun _ h => by cases h⟩ }

/-- In the strict mode no subscription of a connection reaches further than a token that the
connection presented. -/
theorem max_mode_confines_subscriptions (L : JwtLibrary) (env : Environment) (config : AuthConfig)
    (hMax : env.Max) (S : Services) (hAuth : buildAuthProvider L env config = .ok S.auth)
    (limits : FilterIndexLimits) (sendQueueCapacity busCapacity workers sessions n : Nat)
    (schedule : List NodeTurn) (s : Session) (hThread : (run (node S).step
      (Node.start limits sendQueueCapacity busCapacity workers sessions) schedule).threads[n]? =
        some (Party.session s)) (hAccepted : s.main.accepted = true)
    (x : StoredSubscription) (hStored : x ∈ (run (node S).step
      (Node.start limits sendQueueCapacity busCapacity workers sessions) schedule).shared.registry.stored)
    (hConn : x.key.1 = s.connId) : ∃ token, Presented schedule n token ∧
      ∀ topic, x.topic.matches topic = true → TokenGrants L env config token topic := by
  have hKeep : ∀ w turn, Vouched S n (OfPresented S schedule n) w →
      BringsGood S n (OfPresented S schedule n) turn →
      Vouched S n (OfPresented S schedule n) ((node S).step w turn) := fun _ _ h hTurn => h.step hTurn
  have hEnd := run_invariant hKeep
    (vouched_start S limits sendQueueCapacity busCapacity workers sessions n _)
    (bringsGood_presented S schedule n _)
  exact hMax.grants hAuth ((hEnd.stored x hStored).granted ⟨s, hThread, hAccepted, hConn.symm⟩)

theorem max_mode_confines_subscriptions_strict : ∃ token, Presented (subscriberAt 4) 4 token ∧
    ∀ topic, (TopicPattern.exact ⟨"a"⟩).matches topic = true →
      TokenGrants (.plain "a") .strict .strict token topic :=
  max_mode_confines_subscriptions (.plain "a") .strict .strict (by decide) .strict rfl {} 8 8 1 1 4
    (subscriberAt 4) _ rfl rfl ⟨(⟨1⟩, ⟨"s"⟩), .exact ⟨"a"⟩, none⟩ (by decide) rfl

/-- In the strict mode no event reaches a connection that a token it presented does not
grant, while the registry recycles its slots safely. -/
theorem max_mode_confines_events (L : JwtLibrary) (env : Environment) (config : AuthConfig)
    (hMax : env.Max) (S : Services) (hAuth : buildAuthProvider L env config = .ok S.auth)
    (limits : FilterIndexLimits) (sendQueueCapacity busCapacity workers sessions n : Nat)
    (schedule : List NodeTurn) (hSafe : RunMeets (node S).step (NodeRecyclesSafely S)
      (Node.start limits sendQueueCapacity busCapacity workers sessions) schedule)
    (s : Session) (hThread : (run (node S).step
      (Node.start limits sendQueueCapacity busCapacity workers sessions) schedule).threads[n]? =
        some (Party.session s)) (subId : SubscriptionId) (event : RoutedEvent)
    (hWire : .event subId event ∈ s.wire) :
    ∃ token, Presented schedule n token ∧ TokenGrants L env config token event.event.topic := by
  have hKeep : ∀ w turn, Delivers S limits n (OfPresented S schedule n) w →
      NodeRecyclesSafely S w turn ∧ BringsGood S n (OfPresented S schedule n) turn →
      Delivers S limits n (OfPresented S schedule n) ((node S).step w turn) :=
    fun _ _ h hTurn => h.step hTurn.2 hTurn.1
  have hEnd := run_invariant hKeep
    (delivers_start S limits sendQueueCapacity busCapacity workers sessions n _)
    (hSafe.and (bringsGood_presented S schedule n _))
  obtain ⟨pattern, hBacked, hMatches⟩ := hEnd.wire s hThread subId event hWire
  obtain ⟨token, hPresented, hGrants⟩ := hMax.grants hAuth hBacked
  exact ⟨token, hPresented, hGrants _ hMatches⟩

theorem max_mode_confines_events_strict : ∃ token, Presented (newsQueued ++ writerTurns 4 1) 4 token ∧
    TokenGrants (.plain "a") .strict .strict token ⟨"a"⟩ :=
  max_mode_confines_events (.plain "a") .strict .strict (by decide) .strict rfl {} 8 8 1 1 4
    (newsQueued ++ writerTurns 4 1) (by decide) _ rfl ⟨"s"⟩ ⟨1, newsOn "a", 0⟩
    (List.mem_cons_of_mem _ (List.mem_cons_of_mem _ List.mem_cons_self))

end Strict

end RealtimeAgnostic
