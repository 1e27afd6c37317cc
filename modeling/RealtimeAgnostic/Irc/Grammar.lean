import RealtimeAgnostic.Irc.Line

/-! # Reading back a message

A message is written with a single space before each part. The parser cuts it at the first space
after the origin, at the first space with a colon, and at white space of any kind: it reads back
what holds none of these where it looks for them.
-/

namespace RealtimeAgnostic.Irc

variable {xs ys : List Char} {c : Char}

theorem splitTrailing_append (h : ' ' ∉ xs) : splitTrailing (xs ++ ys) =
    (splitTrailing ys).map fun found => (xs ++ found.1, found.2) := by
  induction xs with
  | nil =>
    rw [List.nil_append]
    cases splitTrailing ys <;> rfl
  | cons x xs ih =>
    obtain ⟨hx, hxs⟩ := not_or.mp (mt List.mem_cons.mpr h)
    rw [List.cons_append, splitTrailing.eq_2 x _ fun _ hEq _ => hx hEq.symm, ih hxs, Option.map_map]
    rfl

theorem splitTrailing_space (hc : c ≠ ':') : splitTrailing (' ' :: c :: ys) =
    (splitTrailing (c :: ys)).map fun found => (' ' :: found.1, found.2) :=
  splitTrailing.eq_2 ' ' _ fun _ _ hEq => hc (List.cons.inj hEq).1

def Spaceless (s : String) : Prop := ∀ c ∈ s.toList, isWhitespace c = false

instance (s : String) : Decidable (Spaceless s) := List.decidableBAll (isWhitespace · = false) s.toList

theorem Spaceless.not_mem {s : String} (h : Spaceless s) : ' ' ∉ s.toList :=
  fun hMem => absurd (h ' ' hMem) (by decide)

/-- What the parser takes for one command or parameter. -/
structure Word (s : String) : Prop where
  nonempty : s.toList ≠ []
  head : s.toList.head? ≠ some ':'
  spaceless : Spaceless s

namespace ParsedLine

def spaced (params : List String) : List Char := params.flatMap fun p => ' ' :: p.toList

/-- The message after its origin. -/
def body (line : ParsedLine) : List Char :=
  line.command.toList ++ spaced line.params ++
    line.trailing.elim [] fun text => ' ' :: ':' :: text.toList

/-- The message, its parts separated by single spaces. -/
def render (line : ParsedLine) : String :=
  String.ofList (line.origin.elim line.body fun p => ':' :: (p.toList ++ ' ' :: line.body))

theorem splitTrailing_spaced {params : List String}
    (h : ∀ p ∈ params, p.toList ≠ [] ∧ p.toList.head? ≠ some ':' ∧ ' ' ∉ p.toList) :
    splitTrailing (spaced params ++ ys) =
      (splitTrailing ys).map fun found => (spaced params ++ found.1, found.2) := by
  induction params with
  | nil =>
    rw [spaced, List.flatMap_nil, List.nil_append]
    cases splitTrailing ys <;> rfl
  | cons p params ih =>
    obtain ⟨hNonempty, hHead, hSpace⟩ := h p List.mem_cons_self
    obtain ⟨c, cs, hList⟩ := List.exists_cons_of_ne_nil hNonempty
    have hc : c ≠ ':' := by
      rw [hList, List.head?_cons] at hHead
      exact fun hEq => hHead (congrArg some hEq)
    have hRest : splitTrailing (p.toList ++ (spaced params ++ ys)) = _ := splitTrailing_append hSpace
    rw [ih fun q hMem => h q (List.mem_cons_of_mem p hMem), Option.map_map] at hRest
    have hSpaced : spaced (p :: params) ++ ys = ' ' :: (p.toList ++ (spaced params ++ ys)) := by
      simp only [spaced, List.flatMap_cons, List.cons_append, List.append_assoc]
    rw [hSpaced]
    rw [hList, List.cons_append] at hRest ⊢
    rw [splitTrailing_space hc, hRest, Option.map_map]
    congr 1
    funext found
    simp only [Function.comp_apply, spaced, List.flatMap_cons, hList, List.cons_append,
      List.append_assoc]

theorem splitWhitespace_spaced {command : String} {params : List String} (hCommand : Word command)
    (hParams : ∀ p ∈ params, Word p) :
    splitWhitespace (command.toList ++ spaced params) = command :: params := by
  induction params generalizing command with
  | nil =>
    rw [spaced, List.flatMap_nil, List.append_nil, splitWhitespace,
      Delimited.fields_of_forall hCommand.spaceless hCommand.nonempty, List.map_singleton,
      String.ofList_toList]
  | cons p params ih =>
    have hRest := ih (hParams p List.mem_cons_self) fun q hMem =>
      hParams q (List.mem_cons_of_mem p hMem)
    rw [splitWhitespace] at hRest ⊢
    have hSpaced : spaced (p :: params) = ' ' :: (p.toList ++ spaced params) := rfl
    rw [hSpaced, Delimited.fields_append_cons (by decide),
      Delimited.fields_of_forall hCommand.spaceless hCommand.nonempty, List.map_append, hRest,
      List.map_singleton, String.ofList_toList, List.singleton_append]

theorem splitOnceSpace_append (hxs : ' ' ∉ xs) (hys : ∀ c, ys.head? = some c → isWhitespace c = false) :
    splitOnceSpace (xs ++ ' ' :: ys) = (xs, ys) := by
  have hKeep : ∀ c ∈ xs, decide (c ≠ ' ') = true := fun c hc =>
    decide_eq_true fun hEq => hxs (hEq ▸ hc)
  have hStart : ys.dropWhile isWhitespace = ys := by
    cases ys with
    | nil => rfl
    | cons c rest => exact List.dropWhile_cons_of_neg (by simp [hys c rfl])
  rw [splitOnceSpace, List.takeWhile_append_of_pos hKeep, List.dropWhile_append_of_pos hKeep]
  simpa using hStart

theorem parseRest_body {line : ParsedLine} (hCommand : Word line.command)
    (hParams : ∀ p ∈ line.params, Word p) : parseRest line.origin line.body = line := by
  have hSplit : splitTrailing line.body = line.trailing.map fun text =>
      (line.command.toList ++ spaced line.params, text.toList) := by
    rw [body, List.append_assoc, splitTrailing_append hCommand.spaceless.not_mem,
      splitTrailing_spaced fun p hMem =>
        ⟨(hParams p hMem).nonempty, (hParams p hMem).head, (hParams p hMem).spaceless.not_mem⟩,
      Option.map_map]
    cases line.trailing with
    | none => rfl
    | some text => simp [splitTrailing]
  have hWords := splitWhitespace_spaced hCommand hParams
  rw [parseRest, hSplit]
  cases hTrailing : line.trailing with
  | none =>
    simp only [Option.map_none, Option.elim_none]
    rw [body, hTrailing, Option.elim_none, List.append_nil, hWords, ← hTrailing]
    rfl
  | some text =>
    simp only [Option.map_some, Option.elim_some, hWords, String.ofList_toList]
    rw [← hTrailing]
    rfl

/-- The parser reads back a message whose command and parameters are words. -/
theorem parse_render {line : ParsedLine} (hOrigin : ∀ p, line.origin = some p → ' ' ∉ p.toList)
    (hCommand : Word line.command) (hParams : ∀ p ∈ line.params, Word p) :
    parse line.render = line := by
  obtain ⟨c, cs, hList⟩ := List.exists_cons_of_ne_nil hCommand.nonempty
  have hBody : line.body.head? = some c := by
    rw [body, hList]
    rfl
  cases hSome : line.origin with
  | none =>
    have hNoColon : ∀ stripped, line.body ≠ ':' :: stripped := by
      intro stripped hEq
      rw [hEq, List.head?_cons] at hBody
      exact hCommand.head (by rw [hList, List.head?_cons, ← hBody])
    have hParse : parse line.render = parseRest none line.body := by
      rw [parse, render, hSome, Option.elim_none, String.toList_ofList]
      split
      · rename_i stripped hEq
        exact absurd hEq (hNoColon stripped)
      · rfl
    rw [hParse, ← hSome, parseRest_body hCommand hParams]
  | some p =>
    have hStart : ∀ d, line.body.head? = some d → isWhitespace d = false := by
      intro d hd
      rw [hBody, Option.some.injEq] at hd
      exact hCommand.spaceless d (hd ▸ hList ▸ List.mem_cons_self)
    rw [parse, render, hSome, Option.elim_some, String.toList_ofList]
    simp only [splitOnceSpace_append (hOrigin p hSome) hStart, String.ofList_toList]
    rw [← hSome, parseRest_body hCommand hParams]

end ParsedLine

end RealtimeAgnostic.Irc
