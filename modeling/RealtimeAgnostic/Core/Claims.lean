import Mathlib.Data.Set.Finite.Basic
import Mathlib.Data.Finset.Basic
import RealtimeAgnostic.Core.Topic

/-! # Token claims and namespace authorization

The authorizer reads the first segment of a pattern; the matcher reads all
segments of a topic. The results compare the two readings over every string a
pattern can be parsed from.
-/

namespace RealtimeAgnostic

structure AuthClaims where
  sub : String
  namespaces : List String
  canPublish : Bool
  canSubscribe : Bool
deriving Repr

def extractPatternNamespace : TopicPattern → String
  | .exact p => p.namespace
  | .prefixed p => firstSegment p
  | .glob p => if p = "**" then "*" else firstSegment p

/-- Some non-empty protected prefix starts the namespace. -/
def isProtected (topicNs : String) (protectedNs : List String) : Bool :=
  protectedNs.any fun pre => !(pre == "") && startsWith topicNs pre

namespace AuthClaims

def namespaceAllowed (c : AuthClaims) (topicNs : String) (protectedNs : List String) : Bool :=
  c.namespaces.any fun ns => ns == topicNs || (ns == "*" && !isProtected topicNs protectedNs)

def canSubscribeToScoped (c : AuthClaims) (topic : TopicPattern) (protectedNs : List String) : Bool :=
  if !c.canSubscribe || c.namespaces.isEmpty then false
  else c.namespaceAllowed (extractPatternNamespace topic) protectedNs

def canSubscribeTo (c : AuthClaims) (topic : TopicPattern) : Bool := c.canSubscribeToScoped topic []

def canPublishToScoped (c : AuthClaims) (topic : TopicPath) (protectedNs : List String) : Bool :=
  if !c.canPublish || c.namespaces.isEmpty then false
  else c.namespaceAllowed topic.namespace protectedNs

def canPublishTo (c : AuthClaims) (topic : TopicPath) : Bool := c.canPublishToScoped topic []

theorem namespaceAllowed_iff (c : AuthClaims) (topicNs : String) (protectedNs : List String) :
    c.namespaceAllowed topicNs protectedNs = true ↔
      topicNs ∈ c.namespaces ∨ ("*" ∈ c.namespaces ∧ isProtected topicNs protectedNs = false) := by
  simp only [namespaceAllowed, List.any_eq_true, Bool.or_eq_true, Bool.and_eq_true, beq_iff_eq,
    Bool.not_eq_true']
  constructor
  · rintro ⟨ns, hMem, rfl | ⟨rfl, hFree⟩⟩
    · exact Or.inl hMem
    · exact Or.inr ⟨hMem, hFree⟩
  · rintro (hMem | ⟨hMem, hFree⟩)
    · exact ⟨topicNs, hMem, Or.inl rfl⟩
    · exact ⟨"*", hMem, Or.inr ⟨rfl, hFree⟩⟩

theorem canSubscribeToScoped_iff (c : AuthClaims) (topic : TopicPattern) (protectedNs : List String) :
    c.canSubscribeToScoped topic protectedNs = true ↔ c.canSubscribe = true ∧
      c.namespaceAllowed (extractPatternNamespace topic) protectedNs = true := by
  unfold canSubscribeToScoped
  cases hNs : c.namespaces with
  | nil => simp [namespaceAllowed, hNs]
  | cons ns rest => simp

end AuthClaims

/-- The first segment of the pattern string is a wildcard by itself. -/
def WildFirst (s : String) : Prop := firstSegment s = "*" ∨ firstSegment s = "**"

instance (s : String) : Decidable (WildFirst s) := inferInstanceAs (Decidable (_ ∨ _))

theorem star_mem_of_wildFirst {s : String} (h : WildFirst s) : '*' ∈ s.toList := by
  refine Delimited.mem_of_mem_splitOn (firstSegment_mem s) ?_
  obtain h | h := h <;> rw [h] <;> decide

theorem parse_of_wildFirst {s : String} (h : WildFirst s) : TopicPattern.parse s = .glob s := by
  rw [TopicPattern.parse, if_pos (star_mem_of_wildFirst h)]

/-- The namespace the authorizer reads off a pattern whose first segment is wild. -/
def wildNamespace (s : String) : String := if s = "**" then "*" else firstSegment s

/-- Unless the first segment is wild, the matcher forces on the topic the very
namespace that the authorizer read: over all three kinds of pattern. -/
theorem namespace_of_matches {s : String} {topic : TopicPath} (hPlain : ¬WildFirst s)
    (h : (TopicPattern.parse s).matches topic = true) :
    topic.namespace = extractPatternNamespace (TopicPattern.parse s) := by
  obtain ⟨hOne, hAll⟩ := not_or.mp hPlain
  unfold TopicPattern.parse at h ⊢
  split at h
  · rename_i hStar
    have hNe : s ≠ "**" := by
      rintro rfl
      exact hAll (by decide)
    rw [if_pos hStar, extractPatternNamespace, if_neg hNe]
    exact firstSegment_of_globMatch h hOne hAll
  · rename_i hStar
    rw [if_neg hStar]
    split at h
    · rename_i hSlash
      rw [if_pos hSlash]
      exact firstSegment_of_startsWith hSlash h
    · rename_i hSlash
      rw [if_neg hSlash, extractPatternNamespace, of_decide_eq_true h]

theorem extractPatternNamespace_of_wildFirst {s : String} (h : WildFirst s) :
    extractPatternNamespace (TopicPattern.parse s) = wildNamespace s := by
  rw [parse_of_wildFirst h]
  rfl

theorem star_mem_wildNamespace {s : String} (h : WildFirst s) : '*' ∈ (wildNamespace s).toList := by
  unfold wildNamespace
  split
  · decide
  · obtain h | h := h <;> rw [h] <;> decide

/-! ## Tokens without a wildcard -/

/-- A token whose grants hold no `*` reaches only topics of its own namespaces,
through whatever pattern string the client sends. -/
theorem matches_within_namespaces (c : AuthClaims) (protectedNs : List String)
    (hPlain : ∀ ns ∈ c.namespaces, '*' ∉ ns.toList) :
    (∀ (s : String) (topic : TopicPath),
      c.canSubscribeToScoped (TopicPattern.parse s) protectedNs = true →
      (TopicPattern.parse s).matches topic = true →
      topic.namespace ∈ c.namespaces ∧ c.canSubscribe = true) ∧
    (c.namespaces = [] → ∀ (s : String) (topic : TopicPath),
      ¬(c.canSubscribeToScoped (TopicPattern.parse s) protectedNs = true ∧
        (TopicPattern.parse s).matches topic = true)) := by
  have hWithin : ∀ (s : String) (topic : TopicPath),
      c.canSubscribeToScoped (TopicPattern.parse s) protectedNs = true →
      (TopicPattern.parse s).matches topic = true →
      topic.namespace ∈ c.namespaces ∧ c.canSubscribe = true := by
    intro s topic hAuth hMatch
    obtain ⟨hSubscribe, hAllowed⟩ := (c.canSubscribeToScoped_iff _ _).mp hAuth
    have hStar : "*" ∉ c.namespaces := fun hMem => hPlain "*" hMem (by decide)
    have hGrant : extractPatternNamespace (TopicPattern.parse s) ∈ c.namespaces :=
      ((c.namespaceAllowed_iff _ _).mp hAllowed).resolve_right fun h => hStar h.1
    refine ⟨?_, hSubscribe⟩
    by_cases hWild : WildFirst s
    · rw [extractPatternNamespace_of_wildFirst hWild] at hGrant
      exact absurd (star_mem_wildNamespace hWild) (hPlain _ hGrant)
    · rw [namespace_of_matches hWild hMatch]
      exact hGrant
  refine ⟨hWithin, ?_⟩
  rintro hEmpty s topic ⟨hAuth, hMatch⟩
  have hMem := (hWithin s topic hAuth hMatch).1
  rw [hEmpty] at hMem
  cases hMem

theorem matches_within_namespaces_orders :
    (⟨"orders/created"⟩ : TopicPath).namespace ∈ ["orders", "users"] ∧ true = true :=
  (matches_within_namespaces ⟨"user1", ["orders", "users"], false, true⟩ ["collab:"]
    (by decide)).1 "orders/*" ⟨"orders/created"⟩ (by decide) (by decide)

/-! ## Wildcard tokens and protected namespaces -/

/-- No topic has a namespace that one of the prefixes protects. -/
def NothingProtected (protectedNs : List String) : Prop :=
  ∀ pre ∈ protectedNs, pre = "" ∨ '/' ∈ pre.toList

/-- When the subscription check of a pattern string is as strict as the check of
every topic the pattern reaches. -/
def PatternCheckStrict (c : AuthClaims) (protectedNs : List String) (s : String) : Prop :=
  c.canSubscribe = false ∨ ¬WildFirst s ∨
  (wildNamespace s ∉ c.namespaces ∧
    ("*" ∉ c.namespaces ∨ isProtected (wildNamespace s) protectedNs = true)) ∨
  ("*" ∈ c.namespaces ∧ NothingProtected protectedNs)

theorem isProtected_eq_false_of_nothing {protectedNs : List String} {topicNs : String}
    (h : NothingProtected protectedNs) (hNs : '/' ∉ topicNs.toList) :
    isProtected topicNs protectedNs = false := by
  rw [isProtected, List.any_eq_false]
  intro pre hPre hHit
  rw [Bool.and_eq_true] at hHit
  obtain ⟨hNe, hStart⟩ := hHit
  obtain rfl | hSlash := h pre hPre
  · cases hNe
  · exact hNs ((List.isPrefixOf_iff_prefix.mp hStart).subset hSlash)

theorem exists_extension_notMem (pre : String) (names : List String) :
    ∃ n : Nat, pre ++ String.ofList (List.replicate n 'a') ∉ names := by
  have hInj : Function.Injective fun n : Nat => pre ++ String.ofList (List.replicate n 'a') := by
    intro m n hEq
    have hLists := congrArg String.toList hEq
    simp only [String.toList_append, String.toList_ofList, List.append_cancel_left_eq] at hLists
    simpa using congrArg List.length hLists
  obtain ⟨_, ⟨n, rfl⟩, hn⟩ :=
    (Set.infinite_range_of_injective hInj).exists_notMem_finset names.toFinset
  exact ⟨n, fun hMem => hn (List.mem_toFinset.mpr hMem)⟩

theorem exists_name {pre : String} (hPre : '/' ∉ pre.toList) (names : List String) :
    ∃ name, '/' ∉ name.toList ∧ startsWith name pre = true ∧ name ∉ names := by
  obtain ⟨n, hn⟩ := exists_extension_notMem pre names
  refine ⟨_, ?_, ?_, hn⟩
  · rw [String.toList_append, String.toList_ofList, List.mem_append, not_or]
    exact ⟨hPre, fun h => absurd (List.eq_of_mem_replicate h) (by decide)⟩
  · rw [startsWith, String.toList_append]
    exact List.isPrefixOf_iff_prefix.mpr (List.prefix_append _ _)

theorem allowed_of_strict {c : AuthClaims} {protectedNs : List String} {s : String}
    (hWild : WildFirst s)
    (hAuth : c.canSubscribeToScoped (TopicPattern.parse s) protectedNs = true)
    (h : ∀ topic : TopicPath,
      c.canSubscribeToScoped (TopicPattern.parse s) protectedNs = true →
      (TopicPattern.parse s).matches topic = true →
      c.canSubscribeToScoped (.exact topic) protectedNs = true)
    {name : String} (hName : '/' ∉ name.toList) : c.namespaceAllowed name protectedNs = true := by
  obtain ⟨topic, hMatch, hFirst⟩ := globMatch_of_wild_first hWild hName
  have hExact := h ⟨topic⟩ hAuth (by rw [parse_of_wildFirst hWild]; exact hMatch)
  have hAllowed := ((c.canSubscribeToScoped_iff _ _).mp hExact).2
  rwa [extractPatternNamespace, TopicPath.namespace, hFirst] at hAllowed

/-- The claims reach by pattern only what they reach by name, exactly when the
pattern check is strict for that pattern. -/
theorem pattern_check_covers_topics_iff (c : AuthClaims) (protectedNs : List String) (s : String) :
    (∀ topic : TopicPath,
      c.canSubscribeToScoped (TopicPattern.parse s) protectedNs = true →
      (TopicPattern.parse s).matches topic = true →
      c.canSubscribeToScoped (.exact topic) protectedNs = true) ↔
    PatternCheckStrict c protectedNs s := by
  constructor
  · intro h
    by_contra hLoose
    simp only [PatternCheckStrict, not_or, Classical.not_not, Bool.not_eq_false] at hLoose
    obtain ⟨hSubscribe, hWild, hGrant, hScope⟩ := hLoose
    have hAllowed : c.namespaceAllowed (wildNamespace s) protectedNs = true := by
      rw [AuthClaims.namespaceAllowed_iff]
      by_cases hMem : wildNamespace s ∈ c.namespaces
      · exact Or.inl hMem
      · have hStar := not_or.mp fun hBad => hGrant ⟨hMem, hBad⟩
        exact Or.inr ⟨Classical.not_not.mp hStar.1, Bool.eq_false_iff.mpr hStar.2⟩
    have hAuth : c.canSubscribeToScoped (TopicPattern.parse s) protectedNs = true := by
      rw [AuthClaims.canSubscribeToScoped_iff, extractPatternNamespace_of_wildFirst hWild]
      exact ⟨hSubscribe, hAllowed⟩
    by_cases hStar : "*" ∈ c.namespaces
    · have hSome : ¬NothingProtected protectedNs := fun hNone => hScope ⟨hStar, hNone⟩
      simp only [NothingProtected, not_forall, not_or] at hSome
      obtain ⟨pre, hPre, hNe, hSlash⟩ := hSome
      obtain ⟨name, hName, hStart, hFresh⟩ := exists_name hSlash c.namespaces
      have hBad := (c.namespaceAllowed_iff _ _).mp (allowed_of_strict hWild hAuth h hName)
      have hProt : isProtected name protectedNs = true :=
        List.any_eq_true.mpr ⟨pre, hPre, by simp [hNe, hStart]⟩
      rw [hProt] at hBad
      exact hBad.elim hFresh fun hWild => Bool.noConfusion hWild.2
    · obtain ⟨name, hName, -, hFresh⟩ := exists_name (by decide : '/' ∉ "".toList) c.namespaces
      have hBad := (c.namespaceAllowed_iff _ _).mp (allowed_of_strict hWild hAuth h hName)
      exact hBad.elim hFresh fun hWild => hStar hWild.1
  · intro hStrict topic hAuth hMatch
    obtain ⟨hSubscribe, hAllowed⟩ := (c.canSubscribeToScoped_iff _ _).mp hAuth
    rw [AuthClaims.canSubscribeToScoped_iff]
    refine ⟨hSubscribe, ?_⟩
    obtain hOff | hPlain | ⟨hOut, hFree⟩ | ⟨hStar, hNone⟩ := hStrict
    · rw [hOff] at hSubscribe
      cases hSubscribe
    · rw [extractPatternNamespace, namespace_of_matches hPlain hMatch]
      exact hAllowed
    · by_cases hWild : WildFirst s
      · rw [extractPatternNamespace_of_wildFirst hWild, AuthClaims.namespaceAllowed_iff] at hAllowed
        obtain ⟨hStar, hUnprotected⟩ := hAllowed.resolve_left hOut
        obtain hFree | hFree := hFree
        · exact absurd hStar hFree
        · rw [hFree] at hUnprotected
          cases hUnprotected
      · rw [extractPatternNamespace, namespace_of_matches hWild hMatch]
        exact hAllowed
    · rw [AuthClaims.namespaceAllowed_iff]
      exact Or.inr ⟨hStar, isProtected_eq_false_of_nothing hNone (slash_notMem_firstSegment _)⟩

/-- A `*` token is authorized for the glob `*/doc`, which matches a topic in the
protected space that the same token may not name. -/
theorem wildcard_token_reaches_protected :
    let wild : AuthClaims := ⟨"u", ["*"], true, true⟩
    wild.canSubscribeToScoped (TopicPattern.parse "*/doc") ["collab:"] = true ∧
    (TopicPattern.parse "*/doc").matches ⟨"collab:abc/doc"⟩ = true ∧
    wild.canSubscribeToScoped (.exact ⟨"collab:abc/doc"⟩) ["collab:"] = false := by
  decide

end RealtimeAgnostic
