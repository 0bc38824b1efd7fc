import Mathlib.Data.List.TakeWhile
import OrgClient.Proofs.Client.Address
import OrgClient.Proofs.Url.Form

namespace OrgClient.Url

open Text
set_option autoImplicit true

/-- What is left of a text without tabs and line ends. -/
def unbroken (cs : List Char) : List Char :=
  cs.filter fun c => c != '\t' && c != '\n' && c != '\r'

theorem unbroken_append (cs ds : List Char) : unbroken (cs ++ ds) = unbroken cs ++ unbroken ds :=
  List.filter_append cs ds

theorem visible_of_all {cs : List Char} (h : cs.all (' ' < ·) = true) : ∀ c ∈ cs, ' ' < c := by
  intro c hc
  exact of_decide_eq_true (List.all_eq_true.mp h c hc)

theorem unbroken_of_visible (h : ∀ c ∈ cs, ' ' < c) : unbroken cs = cs := by
  rw [unbroken, List.filter_eq_self]
  intro c hc
  have hn : ∀ d, d ≤ ' ' → c ≠ d := fun d hd he => Char.not_le.mpr (h c hc) (he ▸ hd)
  simp [hn '\t' (by decide), hn '\n' (by decide), hn '\r' (by decide)]

/-- Only tabs and line ends are dropped from a text with visible ends. -/
theorem cleaned_eq (hh : ∀ c, s.toList.head? = some c → ' ' < c)
    (hl : ∀ c, s.toList.getLast? = some c → ' ' < c) : cleaned s = unbroken s.toList := by
  have hd : ∀ cs : List Char, (∀ c, cs.head? = some c → ' ' < c) →
      cs.dropWhile (· ≤ ' ') = cs := by
    intro cs hcs
    cases cs with
    | nil => rfl
    | cons c cs => exact List.dropWhile_cons_of_neg (by simpa using hcs c rfl)
  rw [cleaned, hd _ hh, dropEndWhile, hd, List.reverse_reverse]
  · rfl
  · simpa using hl

/-- The query of a text, with its mark. -/
def queryTail : Option (List Char) → List Char
  | none => []
  | some cs => '?' :: cs

theorem cut_queryTail (h : '?' ∉ cs) (query : Option (List Char)) :
    cut '?' (cs ++ queryTail query) = (cs, query) := by
  cases query with
  | none => rw [queryTail, List.append_nil, cut_of_not_mem h]
  | some ds => exact cut_append h ds

/-- The URL of the parts of a text that has no fragment. -/
def assembled (scheme : String) (query : Option (List Char)) (p : Option Authority × Path) :
    Url where
  scheme
  username := (p.1.map (·.username)).getD ""
  password := p.1.bind (·.password)
  host := p.1.map (·.host)
  port := p.1.bind (·.port)
  path := p.2
  query := query.map (encoded (isQueryChar (isWeb scheme)))
  fragment := none

theorem parse_eq_map {q : Option (List Char)}
    (hs : scheme? (cleaned s) = some (w, cs ++ queryTail q))
    (hc : '?' ∉ cs) (hn : '#' ∉ cs ++ queryTail q) : parse s = (body w cs).map (assembled w q) := by
  rw [parse, hs]
  simp only [cut_of_not_mem hn, cut_queryTail hc]
  cases body w cs <;> rfl

/-- The authority in a text behind the scheme of a URL of the web. -/
def authorityPart (cs : List Char) : List Char :=
  (cs.dropWhile (isSlash true)).takeWhile (!isSlash true ·)

theorem authorityPart_append (h : authorityPart cs ≠ []) (ds : List Char) :
    authorityPart (cs ++ '/' :: ds) = authorityPart cs := by
  have hd : (cs.dropWhile (isSlash true)).isEmpty = false := by
    rw [List.isEmpty_eq_false_iff]
    intro hd
    exact h (by rw [authorityPart, hd]; rfl)
  have ht : ('/' :: ds).takeWhile (!isSlash true ·) = [] := rfl
  rw [authorityPart, List.dropWhile_append, hd, if_neg Bool.false_ne_true, List.takeWhile_append,
    ht, List.append_nil, authorityPart]
  split
  · rename_i hl
    exact ((List.takeWhile_prefix _).eq_of_length hl).symm
  · rfl

section Web

variable {w : String} (hw : w = "http" ∨ w = "https")

include hw

theorem isWeb_of_http : isWeb w = true := by
  rcases hw with rfl | rfl <;> rfl

theorem authority_nil : authority w [] = .error .emptyHost := by
  rcases hw with rfl | rfl <;> rfl

theorem authorityPart_ne_nil (h : authority w (authorityPart cs) = .ok a) :
    authorityPart cs ≠ [] := by
  intro hn
  rw [hn, authority_nil hw] at h
  cases h

theorem body_web (cs : List Char) :
    body w cs = (authority w (authorityPart cs)).map fun a =>
      (a, pathBehind true ((cs.dropWhile (isSlash true)).dropWhile (!isSlash true ·))) := by
  have hb : body w cs = located w (cs.dropWhile (isSlash true)) := by
    rcases hw with rfl | rfl <;> rfl
  rw [hb, located, isWeb_of_http hw, authorityPart]
  cases authority w ((cs.dropWhile (isSlash true)).takeWhile (!isSlash true ·)) <;> rfl

/-- A text behind the scheme of the web is an authority and a path. -/
theorem body_eq_map (cs : List Char) : ∃ path,
    body w cs = (authority w (authorityPart cs)).map fun a => (a, path) :=
  ⟨_, body_web hw cs⟩

theorem scheme?_web (cs : List Char) : scheme? (w.toList ++ ':' :: cs) = some (w, cs) := by
  rcases hw with rfl | rfl
  · exact scheme?_append (c := 'h') (s := "ttp".toList) rfl (List.all_eq_true.mp rfl) cs
  · exact scheme?_append (c := 'h') (s := "ttps".toList) rfl (List.all_eq_true.mp rfl) cs

theorem visible_web : ∃ c cs, w.toList ++ [':'] = c :: cs ∧ ∀ d ∈ c :: cs, ' ' < d := by
  rcases hw with rfl | rfl
  · exact ⟨'h', "ttp:".toList, rfl, visible_of_all rfl⟩
  · exact ⟨'h', "ttps:".toList, rfl, visible_of_all rfl⟩

theorem cleaned_web (ht : t.toList = w.toList ++ ':' :: cs)
    (hl : ∀ c, t.toList.getLast? = some c → ' ' < c) :
    cleaned t = w.toList ++ ':' :: unbroken cs := by
  obtain ⟨c, ds, hc, hds⟩ := visible_web hw
  have hs : t.toList = c :: ds ++ cs := by
    rw [ht, ← hc, List.append_assoc, List.singleton_append]
  have hh : ∀ d, t.toList.head? = some d → ' ' < d := by
    intro d hd
    rw [hs] at hd
    cases hd
    exact hds c List.mem_cons_self
  rw [cleaned_eq hh hl, hs, unbroken_append, unbroken_of_visible hds, ← hc, List.append_assoc,
    List.singleton_append]

end Web

/-- A character that stays as it is in a query, also at its end. -/
structure PlainInQuery (c : Char) : Prop where
  visible : ' ' < c
  kept : isQueryChar true c

namespace PlainInQuery

theorem of_isAsciiAlnum (h : isAsciiAlnum c) : PlainInQuery c := by
  have hv : ' ' < c := visible_of_isSchemeChar (by simp [isSchemeChar, h])
  have hl : ' ' ≤ c := UInt32.le_of_lt hv
  have hb : ∀ d : Char, d.val ≤ '~'.val → c.val ≤ d.val → c ≤ '~' := fun d hd hc =>
    UInt32.le_trans hc hd
  have hg : c ≤ '~' := by
    rcases Bool.or_eq_true_iff.mp h with h | h
    · rcases Bool.or_eq_true_iff.mp h with h | h
      · exact hb 'Z' (by decide) (of_decide_eq_true h).2
      · exact hb 'z' (by decide) (of_decide_eq_true (Bool.and_eq_true_iff.mp h).2)
    · exact hb '9' (by decide) (of_decide_eq_true (Bool.and_eq_true_iff.mp h).2)
  have hne : ∀ d, isAsciiAlnum d = false → c ≠ d := fun d hd => Http.ne_of_class h hd
  refine ⟨hv, ?_⟩
  simp [isQueryChar, isBareChar, hl, hg, hne ' ' rfl, hne '"' rfl, hne '#' rfl, hne '<' rfl,
    hne '>' rfl, hne '\'' rfl]

theorem of_isUnreserved (h : isUnreserved c) : PlainInQuery c := by
  simp only [isUnreserved, Bool.or_eq_true, beq_iff_eq] at h
  rcases h with (((h | rfl) | rfl) | rfl) | rfl
  · exact of_isAsciiAlnum h
  all_goals exact ⟨by decide, by decide⟩

theorem of_isUpperHex (h : isUpperHex c) : PlainInQuery c := by
  apply of_isAsciiAlnum
  rcases Bool.or_eq_true_iff.mp h with h | h
  · simp [isAsciiAlnum, h]
  · obtain ⟨ha, hf⟩ := Bool.and_eq_true_iff.mp h
    have hu : c.isUpper :=
      decide_eq_true ⟨of_decide_eq_true ha, UInt32.le_trans (of_decide_eq_true hf) (by decide)⟩
    exact Bool.or_eq_true_iff.mpr (.inl (Bool.or_eq_true_iff.mpr (.inl hu)))

theorem of_coded (h : Coded isUnreserved cs) : ∀ c ∈ cs, PlainInQuery c :=
  h.forall_mem (fun _ => of_isUnreserved) ⟨by decide, by decide⟩ fun _ => of_isUpperHex

theorem ne_hash (h : PlainInQuery c) : c ≠ '#' := by
  rintro rfl
  exact absurd h.kept (by decide)

theorem encoded_eq (h : ∀ c ∈ cs, PlainInQuery c) :
    encoded (isQueryChar true) cs = String.ofList cs := by
  rw [encoded, percentEncode_of_kept fun c hc => (h c hc).kept]

end PlainInQuery

/-- A URL of HTTP that is spelled out and has no query and no fragment. -/
structure Base (w s : String) (rest : List Char) : Prop where
  scheme : w = "http" ∨ w = "https"
  text : s.toList = w.toList ++ ':' :: rest
  bare : '?' ∉ rest ∧ '#' ∉ rest

theorem Base.parse_eq_map (hb : Base w s rest) (hl : ∀ c, s.toList.getLast? = some c → ' ' < c) :
    parse s = (body w (unbroken rest)).map (assembled w none) := by
  have hs : scheme? (cleaned s) = some (w, unbroken rest ++ queryTail none) := by
    rw [cleaned_web hb.scheme hb.text hl, scheme?_web hb.scheme, queryTail, List.append_nil]
  refine Url.parse_eq_map hs (fun hm => hb.bare.1 (List.mem_of_mem_filter hm)) fun hm => ?_
  rw [queryTail, List.append_nil] at hm
  exact hb.bare.2 (List.mem_of_mem_filter hm)

/-- A text with a path, and maybe a query, behind a URL. -/
structure Joined (s : String) (ps : List Char) (q : Option (List Char)) (t : String) : Prop where
  text : t.toList = s.toList ++ '/' :: (ps ++ queryTail q)
  path : '?' ∉ ps ∧ '#' ∉ ps
  last : ∃ c, ps.getLast? = some c ∧ ' ' < c
  query : ∀ c ∈ q.getD [], PlainInQuery c

namespace Joined

theorem visible_queryTail (h : Joined s ps q t) : ∀ c ∈ queryTail q, ' ' < c := by
  cases q with
  | none => exact fun _ hc => nomatch hc
  | some cs => exact List.forall_mem_cons.mpr ⟨by decide, fun c hc => (h.query c hc).visible⟩

theorem visible_last (h : Joined s ps q t) : ∀ c, t.toList.getLast? = some c → ' ' < c := by
  obtain ⟨d, hd, hvd⟩ := h.last
  have ht : t.toList = s.toList ++ ['/'] ++ ps ++ queryTail q := by simp [h.text]
  intro c hc
  rw [ht, List.getLast?_append, List.getLast?_append, hd, Option.some_or] at hc
  cases hq : (queryTail q).getLast? with
  | none =>
    rw [hq] at hc
    cases hc
    exact hvd
  | some e =>
    rw [hq] at hc
    cases hc
    exact h.visible_queryTail c (List.mem_of_getLast? hq)

theorem cleaned (hb : Base w s rest) (h : Joined s ps q t) :
    cleaned t = w.toList ++ ':' :: (unbroken rest ++ '/' :: unbroken ps ++ queryTail q) := by
  have ht : t.toList = w.toList ++ ':' :: (rest ++ ['/'] ++ ps ++ queryTail q) := by
    simp [h.text, hb.text]
  rw [cleaned_web hb.scheme ht h.visible_last]
  simp only [unbroken_append, unbroken_of_visible h.visible_queryTail]
  simp [unbroken]

theorem parse_eq_map (hb : Base w s rest) (h : Joined s ps q t) :
    parse t = (body w (unbroken rest ++ '/' :: unbroken ps)).map (assembled w q) := by
  have hs : scheme? (Url.cleaned t) =
      some (w, unbroken rest ++ '/' :: unbroken ps ++ queryTail q) := by
    rw [cleaned hb h]
    exact scheme?_web hb.scheme _
  have hne : ∀ c, c ≠ '/' → c ∉ rest → c ∉ ps → c ∉ unbroken rest ++ '/' :: unbroken ps := by
    intro c hc hr hp hm
    rcases List.mem_append.mp hm with hm | hm
    · exact hr (List.mem_of_mem_filter hm)
    · rcases List.mem_cons.mp hm with hm | hm
      · exact hc hm
      · exact hp (List.mem_of_mem_filter hm)
  refine Url.parse_eq_map hs (hne '?' (by decide) hb.bare.1 h.path.1) fun hm => ?_
  rcases List.mem_append.mp hm with hm | hm
  · exact hne '#' (by decide) hb.bare.2 h.path.2 hm
  · cases q with
    | none => cases hm
    | some cs =>
      rcases List.mem_cons.mp hm with hm | hm
      · cases hm
      · exact (h.query '#' hm).ne_hash rfl

theorem encoded_query (h : Joined s ps q t) :
    q.map (encoded (isQueryChar true)) = q.map String.ofList := by
  cases q with
  | none => rfl
  | some cs => exact congrArg some (PlainInQuery.encoded_eq h.query)

/-- Whatever the URL of a joined text is, it has the query that stands there. -/
theorem query_of_parse (hb : Base w s rest) (h : Joined s ps q t) (ht : parse t = .ok u) :
    u.query = q.map String.ofList ∧ u.fragment = none := by
  rw [parse_eq_map hb h] at ht
  obtain ⟨p, -, rfl⟩ := map_eq_ok_iff.mp ht
  rw [assembled, isWeb_of_http hb.scheme, encoded_query h]
  exact ⟨rfl, rfl⟩

/-- If a URL that ends visibly can be read, so can what is joined to it, as a URL of its place. -/
theorem parse_of_base (hb : Base w s rest) (h : Joined s ps q t)
    (hl : ∀ c, s.toList.getLast? = some c → ' ' < c) (hs : parse s = .ok u) :
    ∃ path, parse t = .ok { u with path, query := q.map String.ofList, fragment := none } := by
  obtain ⟨before, hbefore⟩ := body_eq_map hb.scheme (unbroken rest)
  rw [hb.parse_eq_map hl, hbefore] at hs
  obtain ⟨p, hp, rfl⟩ := map_eq_ok_iff.mp hs
  obtain ⟨a, ha, rfl⟩ := map_eq_ok_iff.mp hp
  obtain ⟨path, hpath⟩ := body_eq_map hb.scheme (unbroken rest ++ '/' :: unbroken ps)
  rw [authorityPart_append (authorityPart_ne_nil hb.scheme ha), ha] at hpath
  refine ⟨path, ?_⟩
  rw [parse_eq_map hb h, hpath, ← encoded_query h, ← isWeb_of_http hb.scheme]
  rfl

end Joined

end OrgClient.Url
