import RealtimeAgnostic.Library.Delimited

/-! # Topics, topic patterns and the glob matcher

A Rust `str` is a Lean `String`; `split`, `starts_with` and `ends_with` are
stated on its list of characters, where both languages agree.
-/

namespace RealtimeAgnostic

/-- `s.split(sep)`: the pieces between separators, empty ones included. -/
def splitStr (s : String) (sep : Char) : List String :=
  (s.toList.splitOn sep).map String.ofList

def firstSegment (s : String) : String := (splitStr s '/').head?.getD ""

def startsWith (s pre : String) : Bool := pre.toList.isPrefixOf s.toList

structure TopicPath where
  path : String
deriving DecidableEq, Repr

namespace TopicPath

def asStr (t : TopicPath) : String := t.path

def «namespace» (t : TopicPath) : String := firstSegment t.path

end TopicPath

inductive TopicPattern where
  | exact (path : TopicPath)
  | prefixed (pre : String)
  | glob (pattern : String)
deriving DecidableEq, Repr

/-- The loop of `glob_match` over both segment lists. The source walks them
with one index and compares the lengths at the end; here the tails are walked
together, so equal lengths mean that both lists end at the same time. -/
def globSegments : List String → List String → Bool
  | [], parts => parts.isEmpty
  | p :: pat, parts =>
    if p = "**" then true
    else
      match parts with
      | [] => false
      | part :: parts => if p ≠ "*" ∧ p ≠ part then false else globSegments pat parts

def globMatch (pattern topic : String) : Bool :=
  globSegments (splitStr pattern '/') (splitStr topic '/')

namespace TopicPattern

def «matches» : TopicPattern → TopicPath → Bool
  | .exact path, topic => decide (path = topic)
  | .prefixed pre, topic => startsWith topic.asStr pre
  | .glob pattern, topic => globMatch pattern topic.asStr

def parse (s : String) : TopicPattern :=
  if '*' ∈ s.toList then .glob s
  else if s.toList.getLast? = some '/' then .prefixed s
  else .exact ⟨s⟩

def asStr : TopicPattern → String
  | .exact path => path.asStr
  | .prefixed s => s
  | .glob s => s

@[simp] theorem asStr_parse (s : String) : (parse s).asStr = s := by
  unfold parse
  split
  · rfl
  · split <;> rfl

end TopicPattern

theorem splitStr_ne_nil (s : String) (sep : Char) : splitStr s sep ≠ [] :=
  fun h => List.splitOn_ne_nil sep s.toList (List.map_eq_nil_iff.mp h)

theorem splitStr_cons (s : String) : ∃ rest, splitStr s '/' = firstSegment s :: rest := by
  cases h : splitStr s '/' with
  | nil => exact absurd h (splitStr_ne_nil s '/')
  | cons head rest => exact ⟨rest, by simp [firstSegment, h]⟩

theorem firstSegment_mem (s : String) : (firstSegment s).toList ∈ s.toList.splitOn '/' := by
  obtain ⟨rest, hSplit⟩ := splitStr_cons s
  have hMem : firstSegment s ∈ splitStr s '/' := hSplit ▸ List.mem_cons_self
  obtain ⟨chars, hChars, hEq⟩ := List.mem_map.mp hMem
  rw [← hEq, String.toList_ofList]
  exact hChars

theorem slash_notMem_firstSegment (s : String) : '/' ∉ (firstSegment s).toList :=
  Delimited.not_mem_of_mem_splitOn (firstSegment_mem s)

theorem firstSegment_of_startsWith {s pre : String} (hSlash : pre.toList.getLast? = some '/')
    (h : startsWith s pre = true) : firstSegment s = firstSegment pre := by
  obtain ⟨rest, hRest⟩ := List.isPrefixOf_iff_prefix.mp h
  obtain ⟨init, hInit⟩ := List.getLast?_eq_some_iff.mp hSlash
  have hTopic : s.toList = init ++ '/' :: rest := by
    rw [← hRest, hInit, List.append_assoc, List.singleton_append]
  have hHead := Delimited.head?_splitOn_append init rest [] '/'
  simp only [firstSegment, splitStr, List.head?_map, hTopic, hInit, hHead]

/-- A glob whose first segment is a plain word forces that word on the topic. -/
theorem firstSegment_of_globMatch {pattern topic : String} (h : globMatch pattern topic = true)
    (hOne : firstSegment pattern ≠ "*") (hAll : firstSegment pattern ≠ "**") :
    firstSegment topic = firstSegment pattern := by
  obtain ⟨patRest, hPat⟩ := splitStr_cons pattern
  obtain ⟨topicRest, hTopic⟩ := splitStr_cons topic
  rw [globMatch, hPat, hTopic, globSegments, if_neg hAll] at h
  split at h
  · cases h
  · rename_i hSame
    by_contra hDiff
    exact hSame ⟨hOne, fun hEq => hDiff hEq.symm⟩

theorem globSegments_self (segments : List String) : globSegments segments segments = true := by
  induction segments with
  | nil => rfl
  | cons p rest ih =>
    rw [globSegments]
    split
    · rfl
    · simpa using ih

theorem globMatch_of_wild_first {pattern head : String}
    (hWild : firstSegment pattern = "*" ∨ firstSegment pattern = "**") (hHead : '/' ∉ head.toList) :
    ∃ topic, globMatch pattern topic = true ∧ firstSegment topic = head := by
  obtain ⟨rest, hPat⟩ := splitStr_cons pattern
  have hPieces : ∀ piece ∈ (head :: rest).map String.toList, '/' ∉ piece := by
    intro piece hPiece
    obtain rfl | hPiece := List.mem_cons.mp hPiece
    · exact hHead
    · obtain ⟨segment, hSegment, rfl⟩ := List.mem_map.mp hPiece
      have hMem : segment ∈ splitStr pattern '/' := hPat ▸ List.mem_cons_of_mem _ hSegment
      obtain ⟨chars, hChars, rfl⟩ := List.mem_map.mp hMem
      rw [String.toList_ofList]
      exact Delimited.not_mem_of_mem_splitOn hChars
  let topic := String.ofList (['/'].intercalate ((head :: rest).map String.toList))
  have hTopic : splitStr topic '/' = head :: rest := by
    rw [splitStr, String.toList_ofList, List.splitOn_intercalate '/' hPieces (by simp)]
    simp [Function.comp_def]
  refine ⟨topic, ?_, by simp [firstSegment, hTopic]⟩
  rw [globMatch, hPat, hTopic, globSegments]
  obtain hWild | hWild := hWild
  · simp [hWild, globSegments_self]
  · simp [hWild]

end RealtimeAgnostic
