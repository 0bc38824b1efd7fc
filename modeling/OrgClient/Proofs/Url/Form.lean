import OrgClient.Proofs.Text.Percent
import OrgClient.Url.Parser

namespace OrgClient

open Text
set_option autoImplicit true

namespace Text

/-- Plus signs stand for spaces in form data. -/
def spaced (cs : List Char) : List Char :=
  cs.map fun c => if c = '+' then ' ' else c

/-- The text of a name or value of form data. -/
def decodeForm (cs : List Char) : String :=
  ofUtf8Lossy (percentDecode (spaced cs))

/-- The characters of names and values of form data, besides coded bytes. -/
def isFormPlain (c : Char) : Bool :=
  isFormChar c || c == '+'

theorem coded_encodeForm (s : String) : Coded isFormPlain (encodeForm s).toList := by
  rw [encodeForm, String.toList_ofList]
  apply Coded.flatMap
  intro c _
  split
  · exact .kept rfl .nil
  · exact (coded_percentEncode isFormChar [c]).mono fun d hd => by simp [isFormPlain, hd]

theorem spaced_coded (h : Coded keep cs) (hk : keep '+' = false) : spaced cs = cs := by
  have hp := h.not_mem hk (by decide) (by decide)
  have hc : ∀ c ∈ cs, (if c = '+' then ' ' else c) = id c := by
    intro c hc
    have hne : c ≠ '+' := fun he => hp (he ▸ hc)
    exact if_neg hne
  rw [spaced, List.map_congr_left hc, List.map_id]

theorem percentDecode_spaced_form (cs : List Char) :
    percentDecode (spaced (cs.flatMap fun c =>
      if c == ' ' then ['+'] else percentEncode isFormChar [c])) = utf8Bytes cs := by
  have hk : isFormChar '%' = false := by decide
  induction cs with
  | nil => rfl
  | cons c cs ih =>
    rw [List.flatMap_cons, spaced, List.map_append, ← spaced, ← spaced, utf8Bytes,
      List.flatMap_cons, ← utf8Bytes]
    split
    · rename_i hc
      rw [beq_iff_eq.mp hc]
      change percentDecode (' ' :: spaced _) = _
      rw [percentDecode_cons (by decide), ih]
    · have hs := spaced_coded (coded_percentEncode isFormChar [c]) (by decide)
      rw [hs, percentDecode_percentEncode hk, ih]
      simp [utf8Bytes]

theorem decodeForm_encodeForm (s : String) : decodeForm (encodeForm s).toList = s := by
  rw [decodeForm, encodeForm, String.toList_ofList, percentDecode_spaced_form,
    ofUtf8Lossy_utf8Bytes]

theorem decodeForm_encodeComponent (s : String) : decodeForm (encodeComponent s).toList = s := by
  rw [decodeForm, spaced_coded (coded_encodeComponent s) (by decide),
    percentDecode_encodeComponent, ofUtf8Lossy_utf8Bytes]

end Text

namespace Url

variable {cs ds : List Char} {mark : Char}

theorem cut_of_not_mem (h : mark ∉ cs) : cut mark cs = (cs, none) := by
  have hd : cs.dropWhile (· != mark) = [] := by
    rw [← List.append_nil cs, List.dropWhile_append_of_pos, List.dropWhile_nil]
    intro c hc
    exact bne_iff_ne.mpr fun he => h (he ▸ hc)
  rw [cut, hd]

theorem cut_append (h : mark ∉ cs) (ds : List Char) :
    cut mark (cs ++ mark :: ds) = (cs, some ds) := by
  have hne : ∀ c ∈ cs, (c != mark) = true := fun c hc => bne_iff_ne.mpr fun he => h (he ▸ hc)
  rw [cut, List.dropWhile_append_of_pos hne, List.takeWhile_append_of_pos hne,
    List.dropWhile_cons_of_neg (by simp), List.takeWhile_cons_of_neg (by simp), List.append_nil]

/-- A name and a value around the first equals sign. -/
def formPair (cs : List Char) : String × String :=
  let (name, value) := cut '=' cs
  (decodeForm name, decodeForm (value.getD []))

/-- The pairs of form data, which ampersands part. -/
def formPairs (query : String) : List (String × String) :=
  ((query.toList.splitOn '&').filter fun cs => !cs.isEmpty).map formPair

theorem formPair_append (h : '=' ∉ cs) (ds : List Char) :
    formPair (cs ++ '=' :: ds) = (decodeForm cs, decodeForm ds) := by
  rw [formPair, cut_append h]
  rfl

theorem formPairs_of_parts {query : String} {parts : List (List Char)} (hne : parts ≠ [])
    (hp : ∀ cs ∈ parts, '&' ∉ cs ∧ cs ≠ []) (hq : query.toList = ['&'].intercalate parts) :
    formPairs query = parts.map formPair := by
  have hs : (parts.filter fun cs => !cs.isEmpty) = parts := by
    rw [List.filter_eq_self]
    intro cs hcs
    simpa using (hp cs hcs).2
  rw [formPairs, hq, List.splitOn_intercalate '&' (fun cs hcs => (hp cs hcs).1) hne, hs]

def pairText (p : String × String) : List Char :=
  (encodeForm p.1).toList ++ '=' :: (encodeForm p.2).toList

theorem formPair_pairText (p : String × String) : formPair (pairText p) = p := by
  have hn := (coded_encodeForm p.1).not_mem (c := '=') rfl (by decide) rfl
  rw [pairText, formPair_append hn, decodeForm_encodeForm, decodeForm_encodeForm]

theorem amp_not_mem_pairText (p : String × String) : '&' ∉ pairText p := by
  have hn := (coded_encodeForm p.1).not_mem (c := '&') rfl (by decide) rfl
  have hv := (coded_encodeForm p.2).not_mem (c := '&') rfl (by decide) rfl
  simp [pairText, hn, hv]

/-- A server reads the pairs that were written. -/
theorem formPairs_formText (ps : List (String × String)) : formPairs (formText ps) = ps := by
  by_cases hps : ps = []
  · rw [hps]
    rfl
  · have ht : ∀ p ∈ ps, (encodeForm p.1 ++ "=" ++ encodeForm p.2).toList = pairText p := by
      intro p _
      simp [pairText]
    have hq : (formText ps).toList = ['&'].intercalate (ps.map pairText) := by
      rw [formText, String.toList_intercalate, List.map_map, ← List.map_congr_left ht]
      rfl
    have hp : ∀ cs ∈ ps.map pairText, '&' ∉ cs ∧ cs ≠ [] := by
      intro cs hcs
      obtain ⟨p, -, rfl⟩ := List.mem_map.mp hcs
      exact ⟨amp_not_mem_pairText p, by simp [pairText]⟩
    have hi : ∀ p ∈ ps, (formPair ∘ pairText) p = id p := fun p _ => formPair_pairText p
    rw [formPairs_of_parts (by simpa using hps) hp hq, List.map_map, List.map_congr_left hi,
      List.map_id]

theorem query_addPairs {u : Url} {ps : List (String × String)} (h : u.query = none)
    (hps : ps ≠ []) : (u.addPairs ps).query = some (formText ps) := by
  rw [addPairs, if_neg (mt List.isEmpty_iff.mp hps), h]
  exact congrArg some String.empty_append

theorem formPairs_component (s : String) : formPairs ("q=" ++ encodeComponent s) = [("q", s)] := by
  have hc := (coded_encodeComponent s).not_mem (c := '&') rfl (by decide) rfl
  have hp : ∀ cs ∈ ['q' :: '=' :: (encodeComponent s).toList], '&' ∉ cs ∧ cs ≠ [] := by
    simp [hc]
  rw [formPairs_of_parts (List.cons_ne_nil _ _) hp (by simp)]
  change [formPair (['q'] ++ '=' :: (encodeComponent s).toList)] = _
  rw [formPair_append (by decide), decodeForm_encodeComponent]
  rfl

end Url

end OrgClient
