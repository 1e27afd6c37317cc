import RealtimeAgnostic.Engine.Stored
import RealtimeAgnostic.Gateway.Parties

/-! # Subscriptions and the identity of a connection

A subscription is admitted under the claims the connection holds at the time. It
stays within them as long as no later token takes away what was granted: a second
`AUTH` replaces the claims and leaves the subscriptions alone.
-/

namespace RealtimeAgnostic

def Session.reads (s : Session) : Bool :=
  s.main.spawned && s.reader.ending.isNone && s.reader.pending.isEmpty

/-- The claims of the connection are there and allow the topic. -/
def Services.grants (S : Services) (auth : AuthState) (topic : TopicPattern) : Prop :=
  ∃ claims, auth.claims = some claims ∧ S.auth.authorizeSubscribe claims topic = true

/-- A second token of the connection at place `n` is good for all it has stored. -/
def ReauthFits (S : Services) (n : Nat) (w : Node) (turn : NodeTurn) : Prop :=
  turn.1 = n →
    match w.threads[n]?, turn.2 with
    | some (.session s), .session (.frame (.text (some (.auth token))) _) =>
      s.reads = true → s.reader.auth.authenticated = true →
        match S.auth.verify token with
        | .ok claims => ∀ x ∈ w.shared.registry.stored, x.key.1 = s.connId →
          S.auth.authorizeSubscribe claims x.topic = true
        | .error _ => True
    | _, _ => True

instance (S : Services) (n : Nat) (w : Node) (turn : NodeTurn) : Decidable (ReauthFits S n w turn) := by
  unfold ReauthFits
  refine @instDecidableForall _ _ inferInstance ?_
  split
  · refine @instDecidableForall _ _ inferInstance (@instDecidableForall _ _ inferInstance ?_)
    split <;> infer_instance
  · infer_instance

namespace Session

variable {S : Services} {hub : Hub} {s t : Session} {turn : SessionTurn} {a : HubAccess}

/-- The claims of a session come with its authentication, and allow what it is
about to subscribe to. -/
structure Granted (S : Services) (s : Session) : Prop where
  claims : s.reader.auth.authenticated = s.reader.auth.claims.isSome
  tasks : ∀ sub, .subscribe sub ∈ s.reader.pending → S.grants s.reader.auth sub.topic

theorem granted_dispatchText {connId : ConnectionId} {auth : AuthState} {now : String}
    {message : ClientMessage} {sub : Subscription} (hClaims : auth.authenticated = auth.claims.isSome)
    (hMem : .subscribe sub ∈ (S.dispatchText connId auth now message).2) :
    S.grants auth sub.topic := by
  obtain ⟨hAuth, item, -, hMay, rfl⟩ := subscribe_mem_dispatchText.mp hMem
  rw [hAuth] at hClaims
  obtain ⟨claims, hSome⟩ := Option.isSome_iff_exists.mp hClaims.symm
  rw [Services.maySubscribe, hSome] at hMay
  exact ⟨claims, hSome, hMay⟩

theorem auth_dispatchText (S : Services) (connId : ConnectionId) (auth : AuthState) (now : String)
    (message : ClientMessage) : (S.dispatchText connId auth now message).1 = auth ∨
      ∃ token claims, message = .auth token ∧ S.auth.verify token = .ok claims ∧
        (S.dispatchText connId auth now message).1 = ⟨true, some claims⟩ := by
  cases message with
  | auth token =>
    simp only [Services.dispatchText, Services.handleAuth]
    cases hVerify : S.auth.verify token with
    | ok claims => exact Or.inr ⟨token, claims, rfl, hVerify, rfl⟩
    | error e => exact Or.inl rfl
  | _ => exact Or.inl rfl

theorem auth_of_moves (h : Moves S hub s turn a t) : t.reader.auth = s.reader.auth ∨
    ∃ token now claims, turn = .frame (.text (some (.auth token))) now ∧ s.reads = true ∧
      S.auth.verify token = .ok claims ∧ t.connId = s.connId ∧ a = .idle ∧
      t.reader.auth = ⟨true, some claims⟩ := by
  cases h with
  | stay => exact Or.inl rfl
  | @frame frame now hSpawned =>
    obtain ⟨message, rfl, hEnding, hPending, hAuth, -⟩ | ⟨hSame, -⟩ := readFrame_cases S s frame now
    · obtain hSame | ⟨token, claims, rfl, hVerify, hNew⟩ :=
        auth_dispatchText S s.connId s.reader.auth now message
      · exact Or.inl (hAuth.trans hSame)
      · have hReads : s.reads = true := by simp [reads, hSpawned, hEnding, hPending]
        exact Or.inr ⟨token, now, claims, rfl, hReads, hVerify, readFrame_connId S s _ _, rfl,
          hAuth.trans hNew⟩
    · exact Or.inl hSame
  | work hSpawned hWorks => cases hWorks <;> exact Or.inl rfl
  | write hSpawned =>
    obtain ⟨-, -, hReader⟩ := write_frame hub s _
    rw [hReader]
    exact Or.inl rfl
  | main hSupervises => exact Or.inl (congrArg Reader.auth hSupervises.frame.1)

theorem Granted.next (hGranted : s.Granted S) (h : Moves S hub s turn a t) : t.Granted S := by
  have hClaims : t.reader.auth.authenticated = t.reader.auth.claims.isSome := by
    obtain hSame | ⟨token, now, claims, -, -, -, -, -, hNew⟩ := auth_of_moves h
    · rw [hSame, hGranted.claims]
    · rw [hNew]
      rfl
  refine ⟨hClaims, fun sub hMem => ?_⟩
  have hOld : .subscribe sub ∈ s.reader.pending → t.reader.auth = s.reader.auth →
      S.grants t.reader.auth sub.topic := by
    intro hPending hSame
    rw [hSame]
    exact hGranted.tasks sub hPending
  cases h with
  | stay => exact hOld hMem rfl
  | @frame frame now hSpawned =>
    obtain ⟨message, rfl, -, -, hAuth, hPending⟩ | ⟨hSame, hPending⟩ :=
      readFrame_cases S s frame now
    · rw [hPending] at hMem
      obtain hSame | ⟨token, claims, rfl, -, -⟩ :=
        auth_dispatchText S s.connId s.reader.auth now message
      · rw [hAuth, hSame]
        exact granted_dispatchText hGranted.claims hMem
      · obtain ⟨-, item, hItem, -⟩ := subscribe_mem_dispatchText.mp hMem
        cases hItem
    · rw [hPending] at hMem
      exact hOld hMem hSame
  | work hSpawned hWorks =>
    have hPending := hWorks.pending hMem
    cases hWorks <;> exact hOld hPending rfl
  | write hSpawned =>
    obtain ⟨-, -, hReader⟩ := write_frame hub s _
    rw [hReader] at hMem hOld ⊢
    exact hOld hMem rfl
  | main hSupervises =>
    obtain ⟨hReader, -, -⟩ := hSupervises.frame
    rw [hReader] at hMem hOld ⊢
    exact hOld hMem rfl

theorem granted_new (S : Services) : Session.new.Granted S := ⟨rfl, fun _ h => by cases h⟩

end Session

theorem stored_perform {P : Platform} {hub : Hub} {a : HubAccess} {x : StoredSubscription}
    (h : x ∈ (hub.perform P a).registry.stored) : x ∈ hub.registry.stored ∨
      ∃ sub gatewayNode, a = .call (.subscribe sub gatewayNode) ∧ x = sub.stored := by
  cases a with
  | call call =>
    obtain hOld | ⟨sub, gatewayNode, rfl, -, hEq⟩ := SubscriptionRegistry.mem_stored_step h
    · exact Or.inl hOld
    · exact Or.inr ⟨sub, gatewayNode, rfl, hEq⟩
  | _ => exact Or.inl h

/-- What is stored belongs to connections that were handed out, and what is stored
for the connection at place `n` is within its claims. -/
structure Entitled (S : Services) (n : Nat) (w : Node) : Prop where
  identified : Identified w
  known : ∀ x ∈ w.shared.registry.stored, x.key.1.id < w.shared.manager.nextConnId
  granted : ∀ s : Session, w.threads[n]? = some (Party.session s) → s.Granted S
  stored : ∀ s : Session, w.threads[n]? = some (Party.session s) → s.main.accepted = true →
    ∀ x ∈ w.shared.registry.stored, x.key.1 = s.connId → S.grants s.reader.auth x.topic

variable {S : Services} {n : Nat} {w : Node} {turn : NodeTurn}

/-- What is new was stored by the connection whose turn it is. -/
theorem Entitled.stored_cases (h : Entitled S n w) {p : Party} (hParty : w.threads[turn.1]? = some p)
    {x : StoredSubscription} (hx : x ∈ ((node S).step w turn).shared.registry.stored) :
    x ∈ w.shared.registry.stored ∨
      ∃ s sub gatewayNode, p = .session s ∧ s.main.accepted = true ∧ x.key.1 = s.connId ∧
        x = sub.stored ∧ (Party.next S turn.2 w.shared p).1 = .call (.subscribe sub gatewayNode) := by
  rw [Program.step_of_some hParty] at hx
  obtain hOld | ⟨sub, gatewayNode, hCall, rfl⟩ := stored_perform hx
  · exact Or.inl hOld
  · have hCreates : (Party.next S turn.2 w.shared p).1.Creates sub.connId := by
      have hCall' : (Party.next S turn.2 w.shared p).1 = .call (.subscribe sub gatewayNode) := hCall
      rw [hCall']
      rfl
    obtain ⟨s, hThread, hConn, hAccepted⟩ :=
      creates_of_access h.identified (Program.access_of_some hParty) hCreates
    rw [hParty] at hThread
    exact Or.inr ⟨s, sub, gatewayNode, Option.some.inj hThread, hAccepted, hConn.symm, rfl, hCall⟩

/-- After its own turn the connection has claims for all that it has stored. -/
theorem Entitled.own_turn (h : Entitled S n w) {s : Session} (hParty : w.threads[n]? = some (.session s))
    {choice : SessionTurn} (hTurn : ReauthFits S n w (n, .session choice))
    (hAccepted : (s.next S w.shared choice).2.main.accepted = true) {x : StoredSubscription}
    (hx : x ∈ ((node S).step w (n, .session choice)).shared.registry.stored)
    (hConn : x.key.1 = (s.next S w.shared choice).2.connId) :
    S.grants (s.next S w.shared choice).2.reader.auth x.topic := by
  have hMoves := Session.moves_next S w.shared s choice
  have hTurnOf : w.threads[((n, .session choice) : NodeTurn).1]? = some (.session s) := hParty
  obtain hOldStored | ⟨s', sub, gatewayNode, hSame, -, -, rfl, hCall⟩ := h.stored_cases hTurnOf hx
  · obtain ⟨-, -, hConn', -⟩ | ⟨hConn', hAccepted', -⟩ := hMoves.identity
    · have hKnown := h.known x hOldStored
      rw [hConn, hConn'] at hKnown
      exact absurd hKnown (Nat.lt_irrefl _)
    · rw [hConn'] at hConn
      rw [hAccepted'] at hAccepted
      have hBefore := h.stored s hParty hAccepted x hOldStored hConn
      obtain hAuth | ⟨token, now, claims, rfl, hReads, hVerify, -, -, hAuth⟩ :=
        Session.auth_of_moves hMoves
      · rw [hAuth]
        exact hBefore
      · rw [hAuth]
        obtain ⟨old, hOldClaims, -⟩ := hBefore
        have hAuthenticated : s.reader.auth.authenticated = true := by
          rw [(h.granted s hParty).claims, hOldClaims]
          rfl
        have hFits := hTurn rfl
        rw [hParty] at hFits
        have hGood := hFits hReads hAuthenticated
        rw [hVerify] at hGood
        exact ⟨claims, rfl, hGood x hOldStored hConn⟩
  · have hIssued : (s.next S w.shared choice).1 = .call (.subscribe sub gatewayNode) := hCall
    rw [hIssued] at hMoves
    obtain ⟨hPending, hAuth⟩ := hMoves.subscribes
    rw [hAuth]
    exact (h.granted s hParty).tasks sub hPending

theorem Entitled.step (h : Entitled S n w) (hTurn : ReauthFits S n w turn) :
    Entitled S n ((node S).step w turn) := by
  cases hParty : w.threads[turn.1]? with
  | none =>
    rw [Program.step_of_none hParty]
    exact h
  | some p =>
    refine ⟨h.identified.step turn, ?_, ?_, ?_⟩
    · intro x hx
      have hGrow := nextConnId_perform S.platform w.shared (Party.next S turn.2 w.shared p).1
      have hBefore : x.key.1.id < w.shared.manager.nextConnId := by
        obtain hOld | ⟨s, sub, gatewayNode, rfl, hAccepted, hConn, -⟩ := h.stored_cases hParty hx
        · exact h.known x hOld
        · rw [hConn]
          exact h.identified.below turn.1 s hParty hAccepted
      rw [Program.step_of_some hParty]
      exact Nat.lt_of_lt_of_le hBefore hGrow.1
    · intro t hThread
      obtain ⟨-, hOld⟩ | ⟨rfl, s, st, rfl, hMoves⟩ := session_cases hParty hThread
      · exact h.granted t hOld
      · exact (h.granted s hParty).next hMoves
    · intro t hThread hAccepted x hx hConn
      obtain ⟨rfl, hNext⟩ | ⟨hNe, hOld⟩ := Program.thread_cases hParty hThread
      · obtain ⟨s, rfl, ⟨st, hChoice, hSame, rfl⟩ | ⟨hIdle, rfl⟩⟩ := Party.session_turn hNext.symm
        · obtain ⟨place, choice⟩ := turn
          obtain rfl : choice = .session st := hChoice
          exact h.own_turn hParty hTurn hAccepted hx hConn
        · obtain hOldStored | ⟨s, sub, gatewayNode, -, -, -, -, hCall⟩ := h.stored_cases hParty hx
          · exact h.stored t hParty hAccepted x hOldStored hConn
          · rw [hIdle] at hCall
            cases hCall
      · obtain hOldStored | ⟨s, sub, gatewayNode, rfl, hsAccepted, hsConn, -⟩ := h.stored_cases hParty hx
        · exact h.stored t hOld hAccepted x hOldStored hConn
        · exact absurd (h.identified.distinct n turn.1 t s hOld hParty hAccepted hsAccepted
            (hConn.symm.trans hsConn)) hNe

theorem entitled_start (S : Services) (limits : FilterIndexLimits)
    (sendQueueCapacity busCapacity workers sessions n : Nat) :
    Entitled S n (Node.start limits sendQueueCapacity busCapacity workers sessions) := by
  have hNone : ∀ x, x ∉ (Node.start limits sendQueueCapacity busCapacity workers
      sessions).shared.registry.stored := fun x hx => by cases hx
  refine ⟨identified_start limits sendQueueCapacity busCapacity workers sessions,
    fun x hx => absurd hx (hNone x), ?_, fun s _ _ x hx => absurd hx (hNone x)⟩
  intro s hThread
  rw [new_of_start hThread]
  exact Session.granted_new S

/-- In every state of every run, what the registry or its index holds for the
connection is within the claims it has then; before its first token is accepted
there is nothing. -/
theorem subscriptions_within_identity (S : Services) (limits : FilterIndexLimits)
    (sendQueueCapacity busCapacity workers sessions n : Nat) (schedule : List NodeTurn)
    (hMeets : RunMeets (node S).step (ReauthFits S n)
      (Node.start limits sendQueueCapacity busCapacity workers sessions) schedule)
    (s : Session)
    (hThread : (run (node S).step
      (Node.start limits sendQueueCapacity busCapacity workers sessions) schedule).threads[n]? =
        some (Party.session s))
    (hAccepted : s.main.accepted = true) :
    ∀ x ∈ (run (node S).step (Node.start limits sendQueueCapacity busCapacity workers sessions)
      schedule).shared.registry.stored, x.key.1 = s.connId →
      s.reader.auth.authenticated = true ∧ ∃ claims, s.reader.auth.claims = some claims ∧
        S.auth.authorizeSubscribe claims x.topic = true := by
  have hKeep : ∀ w turn, Entitled S n w → ReauthFits S n w turn → Entitled S n ((node S).step w turn) :=
    fun _ _ h hTurn => h.step hTurn
  have hEntitled := run_invariant hKeep
    (entitled_start S limits sendQueueCapacity busCapacity workers sessions n) hMeets
  intro x hx hConn
  obtain ⟨claims, hClaims, hGrant⟩ := hEntitled.stored s hThread hAccepted x hx hConn
  refine ⟨?_, claims, hClaims, hGrant⟩
  rw [(hEntitled.granted s hThread).claims, hClaims]
  rfl

def Services.scoped : Services :=
  { Services.admitting with
    auth :=
      { verify := fun token => .ok ⟨⟨token, [token], true, true⟩, []⟩
        authorizeSubscribe := fun claims pattern => claims.canSubscribeTo pattern
        authorizePublish := fun claims topic => claims.canPublishTo topic } }

def reauthenticating (first topic second : String) : List NodeTurn := sessionTurns 3
  [.main false true, .main false true,
    .frame (.text (some (.auth first))) "now", .work true,
    .frame (.text (some (.subscribe "s" topic none none))) "now", .work true, .work true,
    .frame (.text (some (.auth second))) "now"]

theorem subscriptions_within_identity_again :
    Services.scoped.auth.authorizeSubscribe ⟨⟨"a", ["a"], true, true⟩, []⟩ (.exact ⟨"a/b"⟩) = true := by
  obtain ⟨-, claims, hClaims, hGrant⟩ := subscriptions_within_identity .scoped {} 8 8 0 1 3
    (reauthenticating "a" "a/b" "a") (by decide) _ rfl rfl ⟨(⟨1⟩, ⟨"s"⟩), .exact ⟨"a/b"⟩, none⟩
    (by decide) rfl
  obtain rfl := Option.some.inj hClaims
  exact hGrant

/-- The second token is good for another namespace; the subscription stays. -/
theorem subscription_outlives_identity :
    ¬∀ (S : Services) (limits : FilterIndexLimits)
      (sendQueueCapacity busCapacity workers sessions n : Nat) (schedule : List NodeTurn)
      (s : Session),
      (run (node S).step (Node.start limits sendQueueCapacity busCapacity workers sessions)
        schedule).threads[n]? = some (Party.session s) →
      s.main.accepted = true →
      ∀ x ∈ (run (node S).step (Node.start limits sendQueueCapacity busCapacity workers sessions)
        schedule).shared.registry.stored, x.key.1 = s.connId →
        s.reader.auth.authenticated = true ∧ ∃ claims, s.reader.auth.claims = some claims ∧
          S.auth.authorizeSubscribe claims x.topic = true := by
  intro hClaim
  have hWithin := hClaim .scoped {} 8 8 0 1 3 (reauthenticating "a" "a/b" "c") _ rfl rfl
    ⟨(⟨1⟩, ⟨"s"⟩), .exact ⟨"a/b"⟩, none⟩ (by decide) rfl
  obtain ⟨-, claims, hClaims, hGrant⟩ := hWithin
  obtain rfl := Option.some.inj hClaims
  exact absurd hGrant (by decide)

end RealtimeAgnostic
