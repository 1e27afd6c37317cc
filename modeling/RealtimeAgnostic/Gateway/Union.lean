import RealtimeAgnostic.Gateway.Mirroring

/-! # The members on all gateways

The store has the entries of the connections and nothing else, from the first step on.
When no handler is at work these are the members of the trackers, each once.
-/

namespace RealtimeAgnostic

variable {n : Nat}

/-! ## Whose id it is -/

/-- Ids are handed out once on every gateway, and a tracker has only members that their
own connection is still to drop. -/
structure Named (w : Pool (Cluster n) (Client n)) : Prop where
  shaped : ∀ (k : Nat) (c : Client n), w.threads[k]? = some c → c.Shaped
  below : ∀ (k : Nat) (c : Client n), w.threads[k]? = some c → c.main.accepted = true →
    c.connId.id < (w.shared.gateways c.home).manager.nextConnId
  distinct : ∀ (j k : Nat) (c d : Client n), w.threads[j]? = some c → w.threads[k]? = some d →
    c.main.accepted = true → d.main.accepted = true → c.home = d.home → c.connId = d.connId → j = k
  owned : ∀ home topic connId member, w.shared.memberAt home topic connId = some member →
    ∃ (k : Nat) (c : Client n), w.threads[k]? = some c ∧ c.home = home ∧ c.connId = connId ∧
      c.main.accepted = true ∧ c.main.willUntrack topic = true

section Named

variable {S : Services} {sp : SharedPresence} {w : Pool (Cluster n) (Client n)}
  {turn : Turn ClientTurn} {c : Client n}

theorem Named.fresh (h : Named w) (home : Fin n) (topic : String) :
    w.shared.memberAt home topic ⟨(w.shared.gateways home).manager.nextConnId⟩ = none := by
  by_contra hSome
  obtain ⟨member, hMember⟩ := Option.ne_none_iff_exists'.mp hSome
  obtain ⟨k, d, hThread, rfl, hConn, hAccepted, -⟩ := h.owned _ _ _ _ hMember
  have hBelow := h.below k d hThread hAccepted
  rw [hConn] at hBelow
  exact absurd hBelow (Nat.lt_irrefl _)

theorem Client.Moves.memberAt {hub : Cluster n} {c' : Client n} {step : ClientTurn}
    {a : ClusterAccess n} (h : Client.Moves S sp hub c step a c') {home : Fin n} {topic : String}
    {connId : ConnectionId} {member : PresenceMember}
    (hAfter : (hub.perform a).memberAt home topic connId = some member) :
    hub.memberAt home topic connId = some member ∨
      (home = c.home ∧ connId = c.connId ∧ c.main.accepted = true ∧ c'.main = c.main ∧
        step = .work ∧ c.reader.pruning = none ∧
        ∃ source rest, c.reader.pending = .track topic member source :: rest) := by
  obtain hLeaves | ⟨hAccepted, ⟨other, _, source, rest, rfl, hMain, rfl, hPruning, hPending⟩ | ⟨other, rfl⟩⟩ :=
    h.trackers
  · rw [memberAt_of_leavesTrackers hLeaves] at hAfter
    exact Or.inl hAfter
  · rw [memberAt_track] at hAfter
    split at hAfter
    · rename_i hHere
      obtain ⟨rfl, rfl, rfl⟩ := hHere
      cases hAfter
      exact Or.inr ⟨rfl, rfl, hAccepted, hMain, rfl, hPruning, source, rest, hPending⟩
    · exact Or.inl hAfter
  · rw [memberAt_untrack] at hAfter
    split at hAfter
    · cases hAfter
    · exact Or.inl hAfter

structure Stepped (S : Services) (sp : SharedPresence) (w : Pool (Cluster n) (Client n))
    (turn : Turn ClientTurn) (c : Client n) (a : ClusterAccess n) (c' : Client n)
    (w' : Pool (Cluster n) (Client n)) : Prop where
  moves : Client.Moves S sp w.shared c turn.2 a c'
  shared : w'.shared = w.shared.perform a
  before : w.threads[turn.1]? = some c
  after : w'.threads[turn.1]? = some c'
  others : ∀ k, k ≠ turn.1 → w'.threads[k]? = w.threads[k]?

theorem cluster_step (S : Services) (sp : SharedPresence) (w : Pool (Cluster n) (Client n))
    (turn : Turn ClientTurn) : (cluster S sp n).step w turn = w ∨
      ∃ c a c', Stepped S sp w turn c a c' ((cluster S sp n).step w turn) := by
  cases hThread : w.threads[turn.1]? with
  | none => exact Or.inl (Program.step_of_none hThread)
  | some c =>
    exact Or.inr ⟨c, _, _, Client.moves_next S sp w.shared c turn.2, Program.shared_of_some hThread,
      hThread, Program.thread_self hThread, fun k hNe => Program.thread_other hNe⟩

variable {w' : Pool (Cluster n) (Client n)} {a : ClusterAccess n} {c' d : Client n} {k : Nat}

theorem Stepped.thread_cases (h : Stepped S sp w turn c a c' w') (hThread : w'.threads[k]? = some d) :
    (k = turn.1 ∧ d = c') ∨ (k ≠ turn.1 ∧ w.threads[k]? = some d) := by
  by_cases hPlace : k = turn.1
  · subst hPlace
    rw [h.after] at hThread
    exact Or.inl ⟨rfl, (Option.some.inj hThread).symm⟩
  · rw [h.others k hPlace] at hThread
    exact Or.inr ⟨hPlace, hThread⟩

theorem Stepped.nextConnId_le (h : Stepped S sp w turn c a c' w') (home : Fin n) :
    (w.shared.gateways home).manager.nextConnId ≤ (w'.shared.gateways home).manager.nextConnId := by
  rw [h.shared]
  exact (Client.nextConnId_perform w.shared a home).1

theorem Stepped.named (h : Stepped S sp w turn c a c' w') (hThread : w'.threads[k]? = some d)
    (hAccepted : d.main.accepted = true) :
    (∃ e, w.threads[k]? = some e ∧ e.main.accepted = true ∧ e.home = d.home ∧ e.connId = d.connId) ∨
      (k = turn.1 ∧ d.connId.id = (w.shared.gateways d.home).manager.nextConnId ∧
        (w'.shared.gateways d.home).manager.nextConnId =
          (w.shared.gateways d.home).manager.nextConnId + 1) := by
  obtain ⟨rfl, rfl⟩ | ⟨-, hOld⟩ := h.thread_cases hThread
  · obtain ⟨hHome, ⟨-, rfl, hConn, -, -⟩ | ⟨hConn, hSame⟩⟩ := h.moves.identity
    · refine Or.inr ⟨rfl, by rw [hConn, hHome], ?_⟩
      rw [h.shared, hHome]
      exact (Client.nextConnId_perform w.shared _ c.home).2 rfl
    · exact Or.inl ⟨c, h.before, by rw [← hSame]; exact hAccepted, hHome.symm, hConn.symm⟩
  · exact Or.inl ⟨d, hOld, hAccepted, rfl, rfl⟩

theorem Stepped.below (hNamed : Named w) (h : Stepped S sp w turn c a c' w')
    (hThread : w'.threads[k]? = some d) (hAccepted : d.main.accepted = true) :
    d.connId.id < (w'.shared.gateways d.home).manager.nextConnId := by
  obtain ⟨e, hOld, hOldAccepted, hHome, hConn⟩ | ⟨-, hConn, hNext⟩ := h.named hThread hAccepted
  · rw [← hConn, ← hHome]
    exact Nat.lt_of_lt_of_le (hNamed.below k e hOld hOldAccepted) (h.nextConnId_le e.home)
  · omega

theorem Stepped.distinct (hNamed : Named w) (h : Stepped S sp w turn c a c' w') {j : Nat}
    {e : Client n} (hFirst : w'.threads[j]? = some e) (hSecond : w'.threads[k]? = some d)
    (hFirstAccepted : e.main.accepted = true) (hSecondAccepted : d.main.accepted = true)
    (hHome : e.home = d.home) (hConn : e.connId = d.connId) : j = k := by
  obtain ⟨e', he, heAccepted, heHome, heConn⟩ | ⟨rfl, heConn, -⟩ := h.named hFirst hFirstAccepted
  · obtain ⟨d', hd, hdAccepted, hdHome, hdConn⟩ | ⟨-, hdConn, -⟩ := h.named hSecond hSecondAccepted
    · exact hNamed.distinct j k e' d' he hd heAccepted hdAccepted
        (heHome.trans (hHome.trans hdHome.symm)) (heConn.trans (hConn.trans hdConn.symm))
    · have hBelow := hNamed.below j e' he heAccepted
      rw [heConn, heHome, hConn, hHome] at hBelow
      omega
  · obtain ⟨d', hd, hdAccepted, hdHome, hdConn⟩ | ⟨rfl, hdConn, -⟩ := h.named hSecond hSecondAccepted
    · have hBelow := hNamed.below k d' hd hdAccepted
      rw [hdConn, hdHome, ← hConn, ← hHome] at hBelow
      omega
    · rfl

theorem Stepped.owned (hNamed : Named w) (h : Stepped S sp w turn c a c' w')
    (hApart : ActsAlone sp w turn.1 c turn.2) {home : Fin n} {topic : String} {connId : ConnectionId}
    {member : PresenceMember} (hAfter : w'.shared.memberAt home topic connId = some member) :
    ∃ (k : Nat) (d : Client n), w'.threads[k]? = some d ∧ d.home = home ∧ d.connId = connId ∧
      d.main.accepted = true ∧ d.main.willUntrack topic = true := by
  rw [h.shared] at hAfter
  obtain hBefore | ⟨rfl, rfl, hAccepted, hMain, hTurn, hPruning, source, rest, hPending⟩ :=
    h.moves.memberAt hAfter
  · obtain ⟨k, d, hOld, rfl, rfl, hAccepted, hWill⟩ := hNamed.owned _ _ _ _ hBefore
    by_cases hPlace : k = turn.1
    · subst hPlace
      rw [h.before] at hOld
      obtain rfl := Option.some.inj hOld
      obtain ⟨hHome, ⟨hNot, -, -, -, -⟩ | ⟨hConn, hSame⟩⟩ := h.moves.identity
      · rw [hAccepted] at hNot
        cases hNot
      · exact ⟨turn.1, c', h.after, hHome, hConn, by rw [hSame]; exact hAccepted,
          h.moves.willUntrack hWill hAfter⟩
    · exact ⟨k, d, by rw [h.others k hPlace]; exact hOld, rfl, rfl, hAccepted, hWill⟩
  · obtain ⟨hHome, ⟨hNot, -, -, -, -⟩ | ⟨hConn, hSame⟩⟩ := h.moves.identity
    · rw [hAccepted] at hNot
      cases hNot
    · rw [hTurn, ActsAlone, WorksAlone, hPruning, hPending] at hApart
      exact ⟨turn.1, c', h.after, hHome, hConn, by rw [hSame]; exact hAccepted,
        by rw [hMain]; exact hApart⟩

theorem Stepped.keepsNames (hNamed : Named w) (h : Stepped S sp w turn c a c' w')
    (hApart : ActsAlone sp w turn.1 c turn.2) : Named w' where
  shaped := by
    intro k d hThread
    obtain ⟨-, rfl⟩ | ⟨-, hOld⟩ := h.thread_cases hThread
    · exact h.moves.shaped (hNamed.shaped _ c h.before)
    · exact hNamed.shaped k d hOld
  below := fun _ _ hThread hAccepted => h.below hNamed hThread hAccepted
  distinct := fun _ _ _ _ hFirst hSecond hFirstAccepted hSecondAccepted hHome hConn =>
    h.distinct hNamed hFirst hSecond hFirstAccepted hSecondAccepted hHome hConn
  owned := fun _ _ _ _ hAfter => h.owned hNamed hApart hAfter

/-! ## What the store holds -/

theorem Client.entry_of_unaccepted {hub : Cluster n} (h : c.main.accepted = false) (topic : String) :
    c.entry sp hub topic = none := by
  cases hMain : c.main with
  | accept => simp [Client.entry, hMain, ClientPc.cleared]
  | _ =>
    rw [hMain] at h
    cases h

theorem Client.Moves.leavesTrackers {hub : Cluster n} {step : ClientTurn}
    (h : Client.Moves S sp hub c step a c') (hNot : c.main.accepted = false) :
    a.leavesTrackers = true := by
  obtain hLeaves | ⟨hAccepted, -⟩ := h.trackers
  · exact hLeaves
  · rw [hAccepted] at hNot
    cases hNot

/-- A turn of one connection leaves the entries of the others alone. -/
theorem Stepped.entry_other (hNamed : Named w) (h : Stepped S sp w turn c a c' w')
    (hNe : k ≠ turn.1) (hThread : w.threads[k]? = some d) (topic : String) :
    d.entry sp w'.shared topic = d.entry sp w.shared topic := by
  cases hAccepted : d.main.accepted with
  | false => rw [Client.entry_of_unaccepted hAccepted, Client.entry_of_unaccepted hAccepted]
  | true =>
    have hSame : (w.shared.perform a).memberAt d.home topic d.connId =
        w.shared.memberAt d.home topic d.connId := by
      cases hOwn : c.main.accepted with
      | false => exact memberAt_of_leavesTrackers (h.moves.leavesTrackers hOwn) _ _ _ _
      | true =>
        refine h.moves.memberAt_other (fun hEq => hNe ?_) topic
        exact hNamed.distinct k turn.1 d c hThread h.before hAccepted hOwn hEq.1 hEq.2
    rw [Client.entry, Client.entry, h.shared, hSame]

/-- The entries of the connections are in the store under their ids, and nothing else is;
no two connections have an entry in one place. -/
structure Mirrored (sp : SharedPresence) (w : Pool (Cluster n) (Client n)) : Prop where
  named : Named w
  stored : ∀ (k : Nat) (c : Client n) topic member, w.threads[k]? = some c →
    c.entry sp w.shared topic = some member →
    ∃ text, sp.Reads member text ∧ w.shared.store.hget (sp.key topic) c.connId.display = some text
  backed : ∀ key field text, w.shared.store.hget key field = some text →
    ∃ (k : Nat) (c : Client n) (topic : String), w.threads[k]? = some c ∧ sp.key topic = key ∧
      c.connId.display = field ∧ (c.entry sp w.shared topic).isSome = true
  sole : ∀ (j k : Nat) (c d : Client n) topic, w.threads[j]? = some c → w.threads[k]? = some d →
    c.connId = d.connId → (c.entry sp w.shared topic).isSome = true →
    (d.entry sp w.shared topic).isSome = true → j = k
  dated : w.shared.store.Dated
  scanned : ∀ (k : Nat) (c : Client n), w.threads[k]? = some c → c.Scanned sp w.shared

theorem Mirrored.mirrors (hMirrored : Mirrored sp w) (h : Stepped S sp w turn c a c' w')
    (hApart : ActsAlone sp w turn.1 c turn.2) : Client.Mirrors sp w turn.1 c a c' :=
  h.moves.mirrors (hMirrored.named.shaped turn.1 c h.before) hApart (hMirrored.named.fresh c.home)
    (hMirrored.scanned turn.1 c h.before)

theorem Alone.elim {topic : String} (hAlone : Alone sp w turn.1 c.connId topic) (hNe : k ≠ turn.1)
    (hThread : w.threads[k]? = some d) (hConn : d.connId = c.connId) :
    d.entry sp w.shared topic = none := by
  have hMem : d ∈ w.threads.eraseIdx turn.1 := by
    rw [List.mem_eraseIdx_iff_getElem?]
    exact ⟨k, hNe, hThread⟩
  simpa using hAlone d hMem hConn

theorem Stepped.connId_of_entry (h : Stepped S sp w turn c a c' w') {topic : String}
    (hSome : (c.entry sp w.shared topic).isSome = true) : c'.connId = c.connId := by
  obtain ⟨-, ⟨hNot, -, -, -, -⟩ | ⟨hConn, -⟩⟩ := h.moves.identity
  · rw [Client.entry_of_unaccepted hNot] at hSome
    cases hSome
  · exact hConn

theorem Client.Mirrors.entry_before (h : Client.Mirrors sp w turn.1 c a c') {topic : String}
    (hSome : (c'.entry sp (w.shared.perform a) topic).isSome = true) :
    (c.entry sp w.shared topic).isSome = true ∨ Alone sp w turn.1 c.connId topic ∧ c'.connId = c.connId := by
  cases h with
  | keeps hStore hEntry =>
    rw [hEntry] at hSome
    exact Or.inl hSome
  | sets hAlone hReads hOnline hConn hStore hEntry =>
    rw [hEntry] at hSome
    split at hSome
    · rename_i hTopic
      subst hTopic
      exact Or.inr ⟨hAlone, hConn⟩
    · exact Or.inl hSome
  | clears hAlone hConn hStore hEntry =>
    rw [hEntry] at hSome
    split at hSome
    · cases hSome
    · exact Or.inl hSome

theorem Stepped.stored (hMirrored : Mirrored sp w) (h : Stepped S sp w turn c a c' w')
    (hMirrors : Client.Mirrors sp w turn.1 c a c') {topic : String} {member : PresenceMember}
    (hThread : w'.threads[k]? = some d) (hEntry : d.entry sp w'.shared topic = some member) :
    ∃ text, sp.Reads member text ∧
      w'.shared.store.hget (sp.key topic) d.connId.display = some text := by
  obtain ⟨rfl, rfl⟩ | ⟨hNe, hOld⟩ := h.thread_cases hThread
  · rw [h.shared] at hEntry ⊢
    have hKept : c.entry sp w.shared topic = some member → d.connId = c.connId ∧
        ∃ text, sp.Reads member text ∧
          w.shared.store.hget (sp.key topic) c.connId.display = some text := fun hBefore =>
      ⟨h.connId_of_entry (by rw [hBefore]; rfl),
        hMirrored.stored turn.1 c topic member h.before hBefore⟩
    cases hMirrors with
    | keeps hStore hSame =>
      rw [hSame] at hEntry
      obtain ⟨hConn, hText⟩ := hKept hEntry
      rw [hStore, hConn]
      exact hText
    | @sets other written text hAlone hReads hOnline hConn hStore hSame =>
      rw [hSame] at hEntry
      rw [hStore, hConn]
      by_cases hTopic : topic = other
      · subst hTopic
        rw [if_pos rfl] at hEntry
        obtain rfl := Option.some.inj hEntry
        exact ⟨text, hReads, by rw [HashStore.hget_hset, if_pos ⟨rfl, rfl⟩]⟩
      · rw [if_neg hTopic] at hEntry
        obtain ⟨-, old, hOldReads, hOldText⟩ := hKept hEntry
        refine ⟨old, hOldReads, ?_⟩
        rw [HashStore.hget_hset, if_neg fun hEq => hTopic (sp.key_injective hEq.1), hOldText]
    | @clears key hAlone hConn hStore hSame =>
      rw [hSame] at hEntry
      rw [hStore, hConn]
      by_cases hKey : sp.key topic = key
      · rw [if_pos hKey] at hEntry
        cases hEntry
      · rw [if_neg hKey] at hEntry
        obtain ⟨-, old, hOldReads, hOldText⟩ := hKept hEntry
        refine ⟨old, hOldReads, ?_⟩
        rw [HashStore.hget_hdel, if_neg fun hEq => hKey hEq.1, hOldText]
  · rw [h.entry_other hMirrored.named hNe hOld] at hEntry
    obtain ⟨text, hReads, hText⟩ := hMirrored.stored k d topic member hOld hEntry
    refine ⟨text, hReads, ?_⟩
    rw [h.shared]
    cases hMirrors with
    | keeps hStore hSame => rw [hStore, hText]
    | @sets other written new hAlone hNewReads hOnline hConn hStore hSame =>
      have hElsewhere : ¬(sp.key topic = sp.key other ∧ d.connId.display = c.connId.display) := by
        rintro ⟨hKey, hField⟩
        obtain rfl := sp.key_injective hKey
        rw [hAlone.elim hNe hOld (ConnectionId.display_injective hField)] at hEntry
        cases hEntry
      rw [hStore, HashStore.hget_hset, if_neg hElsewhere, hText]
    | @clears key hAlone hConn hStore hSame =>
      have hElsewhere : ¬(sp.key topic = key ∧ d.connId.display = c.connId.display) := by
        rintro ⟨rfl, hField⟩
        rw [sp.topicOf_key] at hAlone
        rw [hAlone.elim hNe hOld (ConnectionId.display_injective hField)] at hEntry
        cases hEntry
      rw [hStore, HashStore.hget_hdel, if_neg hElsewhere, hText]

theorem Stepped.backed (hMirrored : Mirrored sp w) (h : Stepped S sp w turn c a c' w')
    (hMirrors : Client.Mirrors sp w turn.1 c a c') {key field text : String}
    (hText : w'.shared.store.hget key field = some text) :
    ∃ (k : Nat) (d : Client n) (topic : String), w'.threads[k]? = some d ∧ sp.key topic = key ∧
      d.connId.display = field ∧ (d.entry sp w'.shared topic).isSome = true := by
  -- an entry that was there before is still there, unless the connection gave it up
  have hKept : w.shared.store.hget key field = some text →
      (∀ topic, sp.key topic = key → c.connId.display = field →
        (c.entry sp w.shared topic).isSome = true →
        (c'.entry sp (w.shared.perform a) topic).isSome = true) →
      ∃ (k : Nat) (d : Client n) (topic : String), w'.threads[k]? = some d ∧ sp.key topic = key ∧
        d.connId.display = field ∧ (d.entry sp w'.shared topic).isSome = true := by
    intro hOld hStill
    obtain ⟨k, d, topic, hThread, hKey, hField, hSome⟩ := hMirrored.backed key field text hOld
    by_cases hPlace : k = turn.1
    · subst hPlace
      rw [h.before] at hThread
      obtain rfl := Option.some.inj hThread
      refine ⟨turn.1, c', topic, h.after, hKey, ?_, ?_⟩
      · rw [h.connId_of_entry hSome, hField]
      · rw [h.shared]
        exact hStill topic hKey hField hSome
    · refine ⟨k, d, topic, by rw [h.others k hPlace, hThread], hKey, hField, ?_⟩
      rw [h.entry_other hMirrored.named hPlace hThread, hSome]
  rw [h.shared] at hText
  cases hMirrors with
  | keeps hStore hSame =>
    rw [hStore] at hText
    exact hKept hText fun topic _ _ hSome => by rw [hSame, hSome]
  | @sets topic member new hAlone hReads hOnline hConn hStore hSame =>
    rw [hStore, HashStore.hget_hset] at hText
    split at hText
    · rename_i hHere
      refine ⟨turn.1, c', topic, h.after, hHere.1.symm, by rw [hConn, hHere.2], ?_⟩
      rw [h.shared, hSame, if_pos rfl]
      rfl
    · refine hKept hText fun other _ _ hSome => ?_
      rw [hSame]
      split
      · rfl
      · exact hSome
  | @clears gone hAlone hConn hStore hSame =>
    rw [hStore, HashStore.hget_hdel] at hText
    split at hText
    · cases hText
    · rename_i hElsewhere
      refine hKept hText fun topic hKey hField hSome => ?_
      rw [hSame, if_neg fun hGone => hElsewhere ⟨hKey.symm.trans hGone, hField.symm⟩, hSome]

theorem Stepped.sole (hMirrored : Mirrored sp w) (h : Stepped S sp w turn c a c' w')
    (hMirrors : Client.Mirrors sp w turn.1 c a c') {j : Nat} {e : Client n} {topic : String}
    (hFirst : w'.threads[j]? = some e) (hSecond : w'.threads[k]? = some d)
    (hConn : e.connId = d.connId) (hFirstSome : (e.entry sp w'.shared topic).isSome = true)
    (hSecondSome : (d.entry sp w'.shared topic).isSome = true) : j = k := by
  -- the connection that moved and another one cannot both have an entry
  have hApart : ∀ (i : Nat) (o : Client n), i ≠ turn.1 → w.threads[i]? = some o →
      o.connId = c'.connId → (o.entry sp w.shared topic).isSome = true →
      (c'.entry sp (w.shared.perform a) topic).isSome = true → False := by
    intro i o hNe hOld hSame hSome hOwn
    obtain hBefore | ⟨hAlone, hStays⟩ := hMirrors.entry_before hOwn
    · refine hNe (hMirrored.sole i turn.1 o c topic hOld h.before ?_ hSome hBefore)
      rw [hSame, h.connId_of_entry hBefore]
    · rw [hAlone.elim hNe hOld (hSame.trans hStays)] at hSome
      cases hSome
  obtain ⟨rfl, rfl⟩ | ⟨hFirstNe, hFirstOld⟩ := h.thread_cases hFirst
  · obtain ⟨rfl, -⟩ | ⟨hSecondNe, hSecondOld⟩ := h.thread_cases hSecond
    · rfl
    · rw [h.entry_other hMirrored.named hSecondNe hSecondOld] at hSecondSome
      rw [h.shared] at hFirstSome
      exact (hApart k d hSecondNe hSecondOld hConn.symm hSecondSome hFirstSome).elim
  · rw [h.entry_other hMirrored.named hFirstNe hFirstOld] at hFirstSome
    obtain ⟨rfl, rfl⟩ | ⟨hSecondNe, hSecondOld⟩ := h.thread_cases hSecond
    · rw [h.shared] at hSecondSome
      exact (hApart j e hFirstNe hFirstOld hConn hFirstSome hSecondSome).elim
    · rw [h.entry_other hMirrored.named hSecondNe hSecondOld] at hSecondSome
      exact hMirrored.sole j k e d topic hFirstOld hSecondOld hConn hFirstSome hSecondSome

theorem Client.Mirrors.dated (h : Client.Mirrors sp w turn.1 c a c') (hDated : w.shared.store.Dated) :
    (w.shared.perform a).store.Dated := by
  cases h with
  | keeps hStore hSame => rwa [hStore]
  | sets hAlone hReads hOnline hConn hStore hSame =>
    rw [hStore]
    exact hDated.hset
  | clears hAlone hConn hStore hSame =>
    rw [hStore]
    exact hDated.hdel

theorem Mirrored.createdAt (hMirrored : Mirrored sp w) (hMirrors : Client.Mirrors sp w turn.1 c a c')
    {topic : String} {time : Nat} (hThread : w.threads[k]? = some d)
    (hSome : (d.entry sp w.shared topic).isSome = true)
    (hTime : (w.shared.perform a).store.createdAt (sp.key topic) = some time) :
    w.shared.store.createdAt (sp.key topic) = some time := by
  cases hMirrors with
  | keeps hStore hSame => rwa [hStore] at hTime
  | sets hAlone hReads hOnline hConn hStore hSame =>
    obtain ⟨member, hMember⟩ := Option.isSome_iff_exists.mp hSome
    obtain ⟨text, -, hText⟩ := hMirrored.stored k d topic member hThread hMember
    obtain ⟨old, hOld⟩ := HashStore.createdAt_of_hget hText
    rw [hStore, HashStore.createdAt_hset] at hTime
    split at hTime
    · rename_i hKey
      rw [← hKey, hOld, Option.getD_some] at hTime
      rw [hOld, hTime]
    · exact hTime
  | clears hAlone hConn hStore hSame =>
    rw [hStore] at hTime
    exact HashStore.createdAt_hdel hTime

theorem Stepped.scanned (hMirrored : Mirrored sp w) (h : Stepped S sp w turn c a c' w')
    (hApart : ActsAlone sp w turn.1 c turn.2) (hMirrors : Client.Mirrors sp w turn.1 c a c')
    (hThread : w'.threads[k]? = some d) : d.Scanned sp w'.shared := by
  obtain ⟨-, rfl⟩ | ⟨hNe, hOld⟩ := h.thread_cases hThread
  · rw [h.shared]
    refine h.moves.scanned hApart hMirrors hMirrored.dated ?_ (hMirrored.scanned turn.1 c h.before)
    intro topic member hEntry
    obtain ⟨text, -, hText⟩ := hMirrored.stored turn.1 c topic member h.before hEntry
    exact ⟨text, hText⟩
  · have hBefore := hMirrored.scanned k d hOld
    have hSame := h.entry_other hMirrored.named hNe hOld
    rw [Client.Scanned] at hBefore ⊢
    split
    · rename_i hIteration
      rw [hIteration] at hBefore
      intro topic time hSome hTime
      rw [hSame] at hSome
      rw [h.shared] at hTime
      exact hBefore topic time hSome (hMirrored.createdAt hMirrors hOld hSome hTime)
    · rename_i hIteration
      rw [hIteration] at hBefore
      intro topic hSome
      rw [hSame] at hSome
      exact hBefore topic hSome
    · trivial

theorem Mirrored.step (h : Mirrored sp w) (hApart : KeepsApart sp w turn) :
    Mirrored sp ((cluster S sp n).step w turn) := by
  obtain hSame | ⟨c, a, c', hStepped⟩ := cluster_step S sp w turn
  · rw [hSame]
    exact h
  · have hAlone := hApart c hStepped.before
    have hMirrors := h.mirrors hStepped hAlone
    generalize (cluster S sp n).step w turn = w' at hStepped
    exact {
      named := hStepped.keepsNames h.named hAlone
      stored := fun _ _ _ _ hThread hEntry => hStepped.stored h hMirrors hThread hEntry
      backed := fun _ _ _ hText => hStepped.backed h hMirrors hText
      sole := fun _ _ _ _ _ hFirst hSecond hConn hFirstSome hSecondSome =>
        hStepped.sole h hMirrors hFirst hSecond hConn hFirstSome hSecondSome
      dated := by
        rw [hStepped.shared]
        exact hMirrors.dated h.dated
      scanned := fun _ _ hThread => hStepped.scanned h hAlone hMirrors hThread }

theorem mirrored_start (sp : SharedPresence) (sendQueueCapacity : Nat) (homes : List (Fin n)) :
    Mirrored sp (Cluster.start sendQueueCapacity homes) := by
  have hNew : ∀ (k : Nat) (c : Client n), (Cluster.start sendQueueCapacity homes).threads[k]? = some c →
      c.main = .accept ∧ c.reader = {} := by
    intro k c hThread
    obtain ⟨home, -, rfl⟩ := List.mem_map.mp (List.mem_of_getElem? hThread)
    exact ⟨rfl, rfl⟩
  have hUnaccepted : ∀ (k : Nat) (c : Client n),
      (Cluster.start sendQueueCapacity homes).threads[k]? = some c → c.main.accepted = false := by
    intro k c hThread
    rw [(hNew k c hThread).1]
    rfl
  have hNoEntry : ∀ (k : Nat) (c : Client n),
      (Cluster.start sendQueueCapacity homes).threads[k]? = some c → ∀ topic,
      c.entry sp (Cluster.start sendQueueCapacity homes).shared topic = none :=
    fun k c hThread topic => Client.entry_of_unaccepted (hUnaccepted k c hThread) topic
  refine ⟨⟨?_, ?_, ?_, nofun⟩, ?_, nofun, ?_, nofun, ?_⟩
  · intro k c hThread
    refine ⟨?_, fun _ => ?_⟩ <;> rw [(hNew k c hThread).2]
    · exact .other (by simp)
    · exact ⟨rfl, rfl⟩
  · intro k c hThread hAccepted
    rw [hUnaccepted k c hThread] at hAccepted
    cases hAccepted
  · intro j k c d hFirst _ hAccepted
    rw [hUnaccepted j c hFirst] at hAccepted
    cases hAccepted
  · intro k c topic member hThread hEntry
    rw [hNoEntry k c hThread] at hEntry
    cases hEntry
  · intro j k c d topic hFirst _ _ hSome
    rw [hNoEntry j c hFirst] at hSome
    cases hSome
  · intro k c hThread
    rw [Client.Scanned, (hNew k c hThread).1]
    trivial

end Named

/-! ## The union of the trackers -/

section Union

variable {sp : SharedPresence} {w : Pool (Cluster n) (Client n)} {c : Client n}

theorem Mirrored.entry_of_quiet (h : Mirrored sp w) {k : Nat} (hThread : w.threads[k]? = some c)
    (hQuiet : c.quiet = true) (hAccepted : c.main.accepted = true) (topic : String) :
    c.entry sp w.shared topic = w.shared.memberAt c.home topic c.connId := by
  simp only [Client.quiet, Bool.and_eq_true, List.isEmpty_iff] at hQuiet
  obtain ⟨⟨hPending, -⟩, hMain⟩ := hQuiet
  cases hPc : c.main with
  | online => simp [Client.entry, Client.ahead, hPending, hPc, ClientPc.cleared]
  | done =>
    have hNone : w.shared.memberAt c.home topic c.connId = none := by
      by_contra hSome
      obtain ⟨member, hMember⟩ := Option.ne_none_iff_exists'.mp hSome
      obtain ⟨j, d, hOther, hHome, hConn, hNamed, hWill⟩ := h.named.owned _ _ _ _ hMember
      obtain rfl := h.named.distinct j k d c hOther hThread hNamed hAccepted hHome hConn
      rw [hThread] at hOther
      obtain rfl := Option.some.inj hOther
      rw [hPc] at hWill
      cases hWill
    rw [hNone, Client.entry, hPc]
    rfl
  | accept =>
    rw [hPc] at hAccepted
    cases hAccepted
  | _ =>
    rw [hPc] at hMain
    cases hMain

/-- Of the connections that are on a topic the store has the members, and no others. -/
theorem Mirrored.hget_iff (h : Mirrored sp w) (hQuiet : ∀ c ∈ w.threads, c.quiet = true)
    (topic field text : String) : w.shared.store.hget (sp.key topic) field = some text ↔
      ∃ home connId member, w.shared.memberAt home topic connId = some member ∧
        connId.display = field ∧ sp.Reads member text := by
  constructor
  · intro hText
    obtain ⟨k, c, other, hThread, hKey, rfl, hSome⟩ := h.backed _ _ _ hText
    obtain rfl := sp.key_injective hKey
    obtain ⟨member, hMember⟩ := Option.isSome_iff_exists.mp hSome
    have hAccepted : c.main.accepted = true := by
      by_contra hNot
      rw [Client.entry_of_unaccepted (Bool.not_eq_true _ ▸ hNot)] at hMember
      cases hMember
    obtain ⟨text', hReads, hThere⟩ := h.stored k c other member hThread hMember
    rw [hText] at hThere
    obtain rfl := Option.some.inj hThere
    rw [h.entry_of_quiet hThread (hQuiet c (List.mem_of_getElem? hThread)) hAccepted] at hMember
    exact ⟨c.home, c.connId, member, hMember, rfl, hReads⟩
  · rintro ⟨home, connId, member, hMember, rfl, hReads⟩
    obtain ⟨k, c, hThread, rfl, rfl, hAccepted, -⟩ := h.named.owned _ _ _ _ hMember
    rw [← h.entry_of_quiet hThread (hQuiet c (List.mem_of_getElem? hThread)) hAccepted] at hMember
    obtain ⟨text', hReads', hThere⟩ := h.stored k c topic member hThread hMember
    rw [hThere, ← hReads'.1, hReads.1]

/-- No connection id is on a topic at two gateways. -/
theorem Mirrored.home_unique (h : Mirrored sp w) (hQuiet : ∀ c ∈ w.threads, c.quiet = true)
    {home other : Fin n} {topic : String} {connId : ConnectionId} {member member' : PresenceMember}
    (hFirst : w.shared.memberAt home topic connId = some member)
    (hSecond : w.shared.memberAt other topic connId = some member') : home = other := by
  obtain ⟨j, c, hc, rfl, rfl, hcAccepted, -⟩ := h.named.owned _ _ _ _ hFirst
  obtain ⟨k, d, hd, rfl, hConn, hdAccepted, -⟩ := h.named.owned _ _ _ _ hSecond
  have hcEntry := h.entry_of_quiet hc (hQuiet c (List.mem_of_getElem? hc)) hcAccepted topic
  have hdEntry := h.entry_of_quiet hd (hQuiet d (List.mem_of_getElem? hd)) hdAccepted topic
  rw [hConn, hSecond] at hdEntry
  rw [hFirst] at hcEntry
  obtain rfl := h.sole j k c d topic hc hd hConn.symm (by rw [hcEntry]; rfl) (by rw [hdEntry]; rfl)
  rw [hc] at hd
  rw [Option.some.inj hd]

def Cluster.pairs (hub : Cluster n) (topic : String) (home : Fin n) :
    List (Sigma fun _ : Nat => PresenceMember) :=
  ((hub.gateways home).presence.topics.lookup topic).elim [] AList.entries

theorem mem_pairs {hub : Cluster n} {topic : String} {home : Fin n} {id : Nat}
    {member : PresenceMember} : (⟨id, member⟩ : Sigma fun _ : Nat => PresenceMember) ∈
      hub.pairs topic home ↔ hub.memberAt home topic ⟨id⟩ = some member := by
  rw [Cluster.pairs, Cluster.memberAt, PresenceTracker.memberAt]
  cases (hub.gateways home).presence.topics.lookup topic with
  | none => simp
  | some entry => exact Table.mem_entries_iff

theorem localMembers_eq (hub : Cluster n) (topic : String) :
    hub.localMembers topic = ((List.finRange n).flatMap (hub.pairs topic)).map (·.2) := by
  rw [Cluster.localMembers, List.map_flatMap]
  refine congrArg (List.flatMap · (List.finRange n)) (funext fun home => ?_)
  rw [Cluster.pairs, PresenceTracker.members]
  cases (hub.gateways home).presence.topics.lookup topic <;> rfl

/-- The field and the value under which the store has a member. -/
def SharedPresence.mirrored (sp : SharedPresence) (x : Sigma fun _ : Nat => PresenceMember) :
    Sigma fun _ : String => String :=
  ⟨ConnectionId.display ⟨x.1⟩, (sp.toText x.2).getD ""⟩

theorem Mirrored.nodup_pairs (h : Mirrored sp w) (hQuiet : ∀ c ∈ w.threads, c.quiet = true)
    (topic : String) :
    (((List.finRange n).flatMap (w.shared.pairs topic)).map sp.mirrored).Nodup := by
  refine List.Nodup.of_map Sigma.fst ?_
  rw [List.map_map, List.map_flatMap, List.nodup_flatMap]
  constructor
  · intro home _
    have hKeys : ((w.shared.pairs topic home).map Sigma.fst).Nodup := by
      rw [Cluster.pairs]
      cases (w.shared.gateways home).presence.topics.lookup topic with
      | none => simp
      | some entry => exact entry.nodupKeys
    have hField : (w.shared.pairs topic home).map (Sigma.fst ∘ sp.mirrored) =
        ((w.shared.pairs topic home).map Sigma.fst).map fun id => ConnectionId.display ⟨id⟩ := by
      rw [List.map_map]
      rfl
    rw [hField]
    refine hKeys.map fun id id' hEq => ?_
    cases ConnectionId.display_injective hEq
    rfl
  · refine List.Pairwise.imp ?_ (List.nodup_finRange n)
    intro home other hNe field hFirst hSecond
    obtain ⟨⟨id, member⟩, hMem, rfl⟩ := List.mem_map.mp hFirst
    obtain ⟨⟨id', member'⟩, hMem', hEq⟩ := List.mem_map.mp hSecond
    cases ConnectionId.display_injective hEq
    exact hNe (h.home_unique hQuiet (mem_pairs.mp hMem) (mem_pairs.mp hMem'))

theorem Mirrored.reads (h : Mirrored sp w) (hQuiet : ∀ c ∈ w.threads, c.quiet = true)
    {home : Fin n} {topic : String} {connId : ConnectionId} {member : PresenceMember}
    (hMember : w.shared.memberAt home topic connId = some member) :
    ∃ text, sp.Reads member text := by
  obtain ⟨k, c, hThread, rfl, rfl, hAccepted, -⟩ := h.named.owned _ _ _ _ hMember
  rw [← h.entry_of_quiet hThread (hQuiet c (List.mem_of_getElem? hThread)) hAccepted] at hMember
  obtain ⟨text, hReads, -⟩ := h.stored k c topic member hThread hMember
  exact ⟨text, hReads⟩

theorem Mirrored.fields_perm (h : Mirrored sp w) (hQuiet : ∀ c ∈ w.threads, c.quiet = true)
    {topic : String} {hash : Hash String String}
    (hHash : w.shared.store.keys.lookup (sp.key topic) = some hash) :
    hash.fields.entries.Perm (((List.finRange n).flatMap (w.shared.pairs topic)).map sp.mirrored) := by
  have hNodup : hash.fields.entries.Nodup := List.Nodup.of_map Sigma.fst hash.fields.nodupKeys
  refine (List.perm_ext_iff_of_nodup hNodup (h.nodup_pairs hQuiet topic)).mpr ?_
  rintro ⟨field, text⟩
  have hText : w.shared.store.hget (sp.key topic) field = hash.fields.lookup field := by
    rw [HashStore.hget, hHash, Option.bind_some]
  rw [Table.mem_entries_iff, ← hText, h.hget_iff hQuiet, List.mem_map]
  constructor
  · rintro ⟨home, ⟨id⟩, member, hMember, rfl, hReads⟩
    refine ⟨⟨id, member⟩, List.mem_flatMap.mpr ⟨home, List.mem_finRange home, mem_pairs.mpr hMember⟩, ?_⟩
    rw [SharedPresence.mirrored, hReads.1]
    rfl
  · rintro ⟨⟨id, member⟩, hMem, hEq⟩
    obtain ⟨home, -, hHere⟩ := List.mem_flatMap.mp hMem
    have hMember := mem_pairs.mp hHere
    obtain ⟨text', hReads⟩ := h.reads hQuiet hMember
    rw [SharedPresence.mirrored, hReads.1] at hEq
    cases hEq
    exact ⟨home, ⟨id⟩, member, hMember, rfl, hReads⟩

theorem Mirrored.members_perm (h : Mirrored sp w) (hQuiet : ∀ c ∈ w.threads, c.quiet = true)
    (topic : String) : (sp.members w.shared.store topic).Perm (w.shared.localMembers topic) := by
  have hRead : (((List.finRange n).flatMap (w.shared.pairs topic)).map sp.mirrored).filterMap
      (fun x => sp.fromText x.2) = w.shared.localMembers topic := by
    rw [List.filterMap_map, localMembers_eq, ← List.filterMap_eq_map]
    refine List.filterMap_congr fun x hx => ?_
    obtain ⟨home, -, hHere⟩ := List.mem_flatMap.mp hx
    obtain ⟨text, hReads⟩ := h.reads hQuiet (mem_pairs.mp hHere)
    simp only [Function.comp_apply, SharedPresence.mirrored, hReads.1, Option.getD_some, hReads.2]
  rw [SharedPresence.members, HashStore.hvals]
  cases hHash : w.shared.store.keys.lookup (sp.key topic) with
  | none =>
    have hNone : w.shared.localMembers topic = [] := by
      rw [localMembers_eq, List.map_eq_nil_iff, List.eq_nil_iff_forall_not_mem]
      rintro ⟨id, member⟩ hMem
      obtain ⟨home, -, hHere⟩ := List.mem_flatMap.mp hMem
      have hMember := mem_pairs.mp hHere
      obtain ⟨text, hReads⟩ := h.reads hQuiet hMember
      have hText := (h.hget_iff hQuiet topic _ text).mpr ⟨home, ⟨id⟩, member, hMember, rfl, hReads⟩
      rw [HashStore.hget, hHash] at hText
      cases hText
    rw [hNone]
    rfl
  | some hash =>
    rw [← hRead, Option.elim_some, List.filterMap_map]
    exact (h.fields_perm hQuiet hHash).filterMap _

/-- In every state in which no handler is at work, the shared store has exactly the
members of all trackers together. -/
theorem presence_is_union (S : Services) (sp : SharedPresence) (n sendQueueCapacity : Nat)
    (homes : List (Fin n)) (schedule : List (Turn ClientTurn)) (topic : String)
    (hApart : RunMeets (cluster S sp n).step (KeepsApart sp)
      (Cluster.start sendQueueCapacity homes) schedule)
    (hQuiet : ∀ c ∈ (run (cluster S sp n).step (Cluster.start sendQueueCapacity homes)
      schedule).threads, c.quiet = true) :
    let hub := (run (cluster S sp n).step (Cluster.start sendQueueCapacity homes) schedule).shared
    (sp.members hub.store topic).Perm (hub.localMembers topic) := by
  have hKeep : ∀ w turn, Mirrored sp w → KeepsApart sp w turn →
      Mirrored sp ((cluster S sp n).step w turn) := fun _ _ h hTurn => h.step hTurn
  have hMirrored := run_invariant hKeep (mirrored_start sp sendQueueCapacity homes) hApart
  exact hMirrored.members_perm hQuiet topic

/-- `serde_json` on the members given, and patterns that end in `*`. -/
def SharedPresence.knowing (members : List PresenceMember) : SharedPresence where
  keyPrefix := "presence"
  toText member := some (String.ofList member.toJson.render)
  fromText text := members.find? fun m => decide (String.ofList m.toJson.render = text)
  globMatch pattern key := pattern.toList.dropLast.isPrefixOf key.toList

def twoClients : List PresenceMember := [⟨"conn-1", some "t", .null⟩, ⟨"conn-2", some "t", .null⟩]

def clientTurns (place : Nat) (turns : List ClientTurn) : List (Turn ClientTurn) :=
  turns.map fun turn => (place, turn)

def joins (place : Nat) : List (Turn ClientTurn) := clientTurns place
  [.main [] false, .message (.auth "t") "now", .work, .message (.track "a" .null) "now", .work, .work]

def differentIds : List (Turn ClientTurn) :=
  joins 0 ++ clientTurns 1 [.main [] false] ++ joins 2 ++
    clientTurns 0 [.message (.untrack "a") "now", .work, .work, .work,
      .message (.track "a" .null) "now", .work, .work,
      .main [] false, .main ["presence:a"] true, .main [] false, .main [] false, .main [] false,
      .main [] false, .main [] false, .main [] false]

theorem presence_is_union_differentIds :
    let hub := (run (cluster .admitting (.knowing twoClients) 2).step (Cluster.start 8 [0, 1, 1])
      differentIds).shared
    ((SharedPresence.knowing twoClients).members hub.store "a").Perm (hub.localMembers "a") :=
  presence_is_union .admitting (.knowing twoClients) 2 8 [0, 1, 1] differentIds "a" (by decide)
    (by decide)

def sameIds : List (Turn ClientTurn) := joins 0 ++ joins 1

theorem same_id_shares_field : ¬∀ (S : Services) (sp : SharedPresence) (n sendQueueCapacity : Nat)
    (homes : List (Fin n)) (schedule : List (Turn ClientTurn)) (topic : String),
    (∀ c ∈ (run (cluster S sp n).step (Cluster.start sendQueueCapacity homes) schedule).threads,
      c.quiet = true) →
    let hub := (run (cluster S sp n).step (Cluster.start sendQueueCapacity homes) schedule).shared
    (sp.members hub.store topic).Perm (hub.localMembers topic) := by
  intro hClaim
  have hUnion := hClaim .admitting (.knowing twoClients) 2 8 [0, 1] sameIds "a" (by decide)
  exact absurd hUnion (by decide)

end Union

end RealtimeAgnostic
