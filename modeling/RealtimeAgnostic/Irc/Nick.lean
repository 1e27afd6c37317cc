import RealtimeAgnostic.Irc.Line

/-! # Nicks

The nick of a user is what can stand in a nick of the handle, cut short, with a suffix hashed
from the user id.
-/

namespace RealtimeAgnostic.Irc

def isSpecial (c : Char) : Bool := "[]\\`_^\x7b|\x7d".toList.contains c

def isNickStart (c : Char) : Bool := c.isAlpha || isSpecial c

def isNickChar (c : Char) : Bool := c.isAlphanum || c == '-' || isSpecial c

/-- The multiplication wraps. -/
def fnv1a (s : String) : UInt64 :=
  s.toByteArray.data.toList.foldl (fun h b => (h ^^^ b.toUInt64) * 0x100000001b3) 0xcbf29ce484222325

def alphabet : List Char := "0123456789abcdefghijklmnopqrstuvwxyz".toList

/-- The last `len` digits. -/
def base36 (n : UInt64) : Nat → List Char
  | 0 => []
  | len + 1 => base36 (n / 36) len ++ [alphabet.getD (n % 36).toNat '0']

/-- `str::trim`. -/
def trim (s : List Char) : List Char :=
  ((s.dropWhile isWhitespace).reverse.dropWhile isWhitespace).reverse

def suffixLength (max : Nat) : Nat := if max ≤ 1 then 0 else if max ≤ 3 then 1 else 3

def toIrcNick (userId handle : String) (maxLen : Nat) : String :=
  let max := Nat.max maxLen 1
  let suffix := base36 (fnv1a userId) (suffixLength max)
  let base := if (trim handle.toList).isEmpty then userId else handle
  let nick := (base.toList.filter isNickChar).take (max - suffixLength max) ++ suffix
  let nick := if nick.isEmpty then "user".toList.take max else nick
  let first := nick.head?.getD 'u'
  String.ofList (if isNickStart first then nick else ('u' :: nick).take max)

/-- What the server accepts as a nick of at most `max` characters. -/
structure ValidNick (nick : String) (max : Nat) : Prop where
  nonempty : nick ≠ ""
  length : nick.length ≤ max
  start : ∀ c ∈ nick.toList.head?, isNickStart c = true
  chars : ∀ c ∈ nick.toList, isNickChar c = true

theorem isNickChar_base36 (n : UInt64) (len : Nat) : ∀ c ∈ base36 n len, isNickChar c = true := by
  have hAlphabet : ∀ digit < 36, isNickChar (alphabet.getD digit '0') = true := by decide
  induction len generalizing n with
  | zero => exact fun c hc => absurd hc List.not_mem_nil
  | succ len ih =>
    intro c hc
    obtain hOld | hNew := List.mem_append.mp hc
    · exact ih (n / 36) c hOld
    · rw [List.mem_singleton.mp hNew]
      refine hAlphabet _ ?_
      rw [UInt64.toNat_mod]
      exact Nat.mod_lt _ (by decide)

theorem length_base36 (n : UInt64) (len : Nat) : (base36 n len).length = len := by
  induction len generalizing n with
  | zero => rfl
  | succ len ih => rw [base36, List.length_append, ih, List.length_singleton]

theorem suffixLength_lt {max : Nat} (h : 1 ≤ max) : suffixLength max < max := by
  unfold suffixLength
  split
  · omega
  · split <;> omega

/-- The last step: a legal first character is put in front where there is none. -/
theorem validNick_of_chars {nick : List Char} {max : Nat} (hNonempty : nick ≠ []) (hMax : 1 ≤ max)
    (hLength : nick.length ≤ max) (hChars : ∀ c ∈ nick, isNickChar c = true) :
    ValidNick (String.ofList (if isNickStart (nick.head?.getD 'u') then nick
      else ('u' :: nick).take max)) max := by
  obtain ⟨c, rest, rfl⟩ := List.exists_cons_of_ne_nil hNonempty
  rw [List.head?_cons, Option.getD_some]
  split
  · rename_i hStart
    refine ⟨fun hEmpty => ?_, by rwa [String.length_ofList], ?_, by rwa [String.toList_ofList]⟩
    · rw [String.ofList_eq_empty_iff] at hEmpty
      cases hEmpty
    · rw [String.toList_ofList, List.head?_cons]
      rintro d ⟨rfl⟩
      exact hStart
  · obtain ⟨n, rfl⟩ := Nat.exists_eq_add_of_le' hMax
    rw [List.take_succ_cons]
    refine ⟨fun hEmpty => ?_, ?_, ?_, ?_⟩
    · rw [String.ofList_eq_empty_iff] at hEmpty
      cases hEmpty
    · rw [String.length_ofList, List.length_cons]
      exact Nat.succ_le_succ (List.length_take_le _ _)
    · rw [String.toList_ofList, List.head?_cons]
      rintro d ⟨rfl⟩
      decide
    · rw [String.toList_ofList]
      intro d hd
      obtain rfl | hOld := List.mem_cons.mp hd
      · decide
      · exact hChars d (List.mem_of_mem_take hOld)

/-- Whatever the user, the handle and the length. -/
theorem derived_nick_valid (userId handle : String) {maxLen : Nat} (h : 1 ≤ maxLen) :
    ValidNick (toIrcNick userId handle maxLen) maxLen := by
  have hMax : Nat.max maxLen 1 = maxLen := Nat.max_eq_left h
  have hUser : ∀ c ∈ "user".toList.take maxLen, isNickChar c = true := by
    have hAll : ∀ c ∈ ['u', 's', 'e', 'r'], isNickChar c = true := by simp; decide
    exact fun c hc => hAll c (List.mem_of_mem_take hc)
  rw [toIrcNick, hMax]
  generalize (if (trim handle.toList).isEmpty = true then userId else handle) = base
  have hLength : ((base.toList.filter isNickChar).take (maxLen - suffixLength maxLen) ++
      base36 (fnv1a userId) (suffixLength maxLen)).length ≤ maxLen := by
    rw [List.length_append, length_base36]
    have hHead := List.length_take_le (maxLen - suffixLength maxLen) (base.toList.filter isNickChar)
    have hSuffix := suffixLength_lt h
    omega
  have hChars : ∀ c ∈ (base.toList.filter isNickChar).take (maxLen - suffixLength maxLen) ++
      base36 (fnv1a userId) (suffixLength maxLen), isNickChar c = true := by
    intro c hc
    obtain hHead | hTail := List.mem_append.mp hc
    · exact (List.mem_filter.mp (List.mem_of_mem_take hHead)).2
    · exact isNickChar_base36 _ _ c hTail
  split
  · refine validNick_of_chars ?_ h (List.length_take_le _ _) hUser
    obtain ⟨n, rfl⟩ := Nat.exists_eq_add_of_le' h
    exact List.cons_ne_nil _ _
  · rename_i hSome
    exact validNick_of_chars (fun hNil => hSome (List.isEmpty_iff.mpr hNil)) h hLength hChars

theorem derived_nick_valid_digits : 1 ≤ 9 ∧ ValidNick (toIrcNick "u1" "9 lives" 9) 9 :=
  ⟨by decide, derived_nick_valid "u1" "9 lives" (by decide)⟩

end RealtimeAgnostic.Irc
