import Mathlib.Data.String.Basic
import OrgClient.Proofs.Http.Redaction

namespace OrgClient.Http

open String (utf8Len)
open String.Pos.Raw (IsValid)
set_option autoImplicit true

/-- Goes back from a position, byte by byte, to one between characters. None stands for a search
that would go back beyond the start. -/
def boundaryFrom? (s : String) : Nat → Option Nat
  | 0 => if IsValid s ⟨0⟩ then some 0 else none
  | n + 1 => if IsValid s ⟨n + 1⟩ then some (n + 1) else boundaryFrom? s n

/-- The search ends at the first position between characters that it meets. -/
theorem boundaryFrom?_eq_some (h : IsValid s ⟨m⟩) (hn : ∀ k, m < k → k ≤ n → ¬ IsValid s ⟨k⟩)
    (hm : m ≤ n) : boundaryFrom? s n = some m := by
  induction n with
  | zero =>
    obtain rfl := Nat.le_zero.mp hm
    rw [boundaryFrom?, if_pos h]
  | succ n ih =>
    rcases Nat.le_succ_iff.mp hm with hm | rfl
    · rw [boundaryFrom?, if_neg (hn (n + 1) (Nat.lt_succ_of_le hm) (Nat.le_refl _))]
      exact ih (fun k hk hkn => hn k hk (Nat.le_succ_of_le hkn)) hm
    · rw [boundaryFrom?, if_pos h]

/-- The positions between characters are the ends of initial parts. -/
theorem isValid_ofList_iff :
    IsValid (String.ofList cs) ⟨n⟩ ↔ ∃ pre, pre <+: cs ∧ utf8Len pre = n := by
  rw [String.Pos.Raw.isValid_iff_exists_append]
  constructor
  · rintro ⟨s, t, hst, hn⟩
    have hp : s.toList ++ t.toList = cs := by
      rw [← String.toList_append, ← hst, String.toList_ofList]
    refine ⟨s.toList, ⟨t.toList, hp⟩, ?_⟩
    rw [← String.utf8ByteSize_ofList, String.ofList_toList]
    exact (congrArg String.Pos.Raw.byteIdx hn).symm
  · rintro ⟨pre, ⟨rest, rfl⟩, rfl⟩
    refine ⟨String.ofList pre, String.ofList rest, String.ofList_append, ?_⟩
    rw [String.rawEndPos_ofList]

theorem utf8Len_takeBytes_le (limit : Nat) (cs : List Char) :
    utf8Len (takeBytes limit cs) ≤ limit := by
  induction cs generalizing limit with
  | nil => exact Nat.zero_le limit
  | cons c cs ih =>
    rw [takeBytes]
    split
    · have h := ih (limit - c.utf8Size)
      rw [String.utf8Len_cons]
      omega
    · exact Nat.zero_le limit

/-- What is initial and within the limit is taken. -/
theorem prefix_takeBytes (hp : pre <+: cs) (hl : utf8Len pre ≤ limit) :
    pre <+: takeBytes limit cs := by
  induction cs generalizing pre limit with
  | nil => exact hp
  | cons c cs ih =>
    cases pre with
    | nil => exact List.nil_prefix
    | cons d pre =>
      obtain ⟨rfl, hpre⟩ := List.cons_prefix_cons.mp hp
      rw [String.utf8Len_cons] at hl
      have hd : d.utf8Size ≤ limit := by omega
      rw [takeBytes, if_pos hd]
      exact List.cons_prefix_cons.mpr ⟨rfl, ih hpre (by omega)⟩

/-- What is left out begins with a character that does not fit, so that little room is lost. -/
theorem limit_le_utf8Len_takeBytes (h : limit < utf8Len cs) :
    limit ≤ utf8Len (takeBytes limit cs) + 3 := by
  induction cs generalizing limit with
  | nil => exact absurd h (Nat.not_lt_zero limit)
  | cons c cs ih =>
    rw [String.utf8Len_cons] at h
    rw [takeBytes]
    split
    · have hi : limit - c.utf8Size ≤ utf8Len (takeBytes (limit - c.utf8Size) cs) + 3 :=
        ih (by omega)
      rw [String.utf8Len_cons]
      omega
    · have hc := c.utf8Size_le_four
      omega

theorem boundaryFrom?_takeBytes (limit : Nat) (cs : List Char) :
    boundaryFrom? (String.ofList cs) limit = some (utf8Len (takeBytes limit cs)) := by
  refine boundaryFrom?_eq_some ?_ (fun k hk hkl hv => ?_) (utf8Len_takeBytes_le limit cs)
  · exact isValid_ofList_iff.mpr ⟨_, takeBytes_initial limit cs, rfl⟩
  · obtain ⟨pre, hp, rfl⟩ := isValid_ofList_iff.mp hv
    obtain ⟨rest, hr⟩ := prefix_takeBytes hp hkl
    rw [← hr, String.utf8Len_append] at hk
    omega

example : boundaryFrom? "aé" 2 = some 1 := by
  decide

/-- The longest initial part of a text with at most so many bytes. -/
structure IsLongestInitial (limit : Nat) (s kept : String) : Prop where
  initial : kept.toList <+: s.toList
  within : kept.utf8ByteSize ≤ limit
  longest : ∀ t : String, t.toList <+: s.toList → t.utf8ByteSize ≤ limit →
    t.toList <+: kept.toList

theorem isLongestInitial_takeBytes (limit : Nat) (cs : List Char) :
    IsLongestInitial limit (String.ofList cs) (String.ofList (takeBytes limit cs)) where
  initial := by
    rw [String.toList_ofList, String.toList_ofList]
    exact takeBytes_initial limit cs
  within := by
    rw [String.utf8ByteSize_ofList]
    exact utf8Len_takeBytes_le limit cs
  longest t ht hl := by
    rw [← t.ofList_toList, String.utf8ByteSize_ofList] at hl
    rw [String.toList_ofList] at ht ⊢
    exact prefix_takeBytes ht hl

theorem redact_of_short (h : utf8Len (withoutCredentials message.toList) ≤ 500) :
    redact message = String.ofList (withoutCredentials message.toList) := by
  rw [← String.utf8ByteSize_ofList] at h
  rw [redact, truncate, maxMessageBytes, if_pos h]

theorem redact_of_long (h : 500 < utf8Len (withoutCredentials message.toList)) :
    redact message =
      String.ofList (takeBytes 500 (withoutCredentials message.toList)) ++ "...[truncated]" := by
  rw [← String.utf8ByteSize_ofList] at h
  rw [redact, truncate, maxMessageBytes, if_neg (Nat.not_le.mpr h), String.ofList_append,
    String.ofList_toList]

/-- A message without its credentials is left as it is if it is short enough. Otherwise it is cut
where the search for a position between characters ends, three bytes below the limit at the most,
and says so. What is kept is the longest initial part within the limit. -/
theorem redact_cuts_between_characters (message : String) :
    let text := String.ofList (withoutCredentials message.toList)
    (text.utf8ByteSize ≤ 500 → redact message = text) ∧
      (500 < text.utf8ByteSize → ∃ cut kept, boundaryFrom? text 500 = some cut ∧
        497 ≤ cut ∧ cut ≤ 500 ∧ kept.utf8ByteSize = cut ∧ IsLongestInitial 500 text kept ∧
        redact message = kept ++ "...[truncated]") ∧
      (redact message).utf8ByteSize ≤ 514 := by
  intro text
  have hsize : text.utf8ByteSize = utf8Len (withoutCredentials message.toList) :=
    String.utf8ByteSize_ofList _
  have hwithin := utf8Len_takeBytes_le 500 (withoutCredentials message.toList)
  rw [hsize]
  refine ⟨redact_of_short, fun h => ?_, ?_⟩
  · have hroom := limit_le_utf8Len_takeBytes h
    exact ⟨_, _, boundaryFrom?_takeBytes 500 _, by omega, hwithin, String.utf8ByteSize_ofList _,
      isLongestInitial_takeBytes 500 _, redact_of_long h⟩
  · by_cases h : utf8Len (withoutCredentials message.toList) ≤ 500
    · rw [redact_of_short h, String.utf8ByteSize_ofList]
      omega
    · have hmark : "...[truncated]".utf8ByteSize = 14 := by decide
      rw [redact_of_long (Nat.not_le.mp h), String.utf8ByteSize_append,
        String.utf8ByteSize_ofList, hmark]
      omega

end OrgClient.Http
