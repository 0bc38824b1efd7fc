import Mathlib.Data.String.Basic
import OrgClient.Proofs.Soql.Naming
import OrgClient.Proofs.Url.Joined

namespace OrgClient

open Text
set_option autoImplicit true

namespace Text

/-- No letter becomes a mark when it is made small. -/
theorem le_toLower {c : Char} (h : c.isAlpha) : 'A' ≤ c.toLower := by
  have ha : 'A'.val ≤ c.val := by
    rcases Bool.or_eq_true_iff.mp h with h | h
    · exact (of_decide_eq_true h).1
    · exact UInt32.le_trans (by decide) (of_decide_eq_true (Bool.and_eq_true_iff.mp h).1)
  change 'A'.val ≤ c.toLower.val
  unfold Char.toLower
  split
  · rename_i hc
    have hz := UInt32.le_iff_toNat_le.mp hc.2
    rw [UInt32.le_iff_toNat_le] at ha ⊢
    simp at ha hz ⊢
    omega
  · exact ha

end Text

namespace Url

theorem PlainInQuery.of_isNameChar (h : isNameChar c) : PlainInQuery c := by
  rcases Bool.or_eq_true_iff.mp h with h | h
  · exact .of_isAsciiAlnum h
  · rw [eq_of_beq h]
    exact ⟨by decide, by decide⟩

theorem isPathChar_of_isNameChar (h : isNameChar c) : isPathChar c := by
  have hk : isQueryChar true c := (PlainInQuery.of_isNameChar h).kept
  have hb : isBareChar c := (Bool.and_eq_true_iff.mp (Bool.and_eq_true_iff.mp hk).1).1
  have hne : ∀ d, isNameChar d = false → c ≠ d := fun d hd => Http.ne_of_class h hd
  have hq : c.toNat ≠ 96 := fun he => hne (Char.ofNat 96) rfl (Char.toNat_inj.mp he)
  simp [isPathChar, isFragmentChar, hb, hq, hne ' ' rfl, hne '"' rfl, hne '<' rfl, hne '>' rfl,
    hne '#' rfl, hne '?' rfl, hne '^' rfl, hne '\x7b' rfl, hne '\x7d' rfl]

theorem isSlash_of_isNameChar (h : isNameChar c) : isSlash true c = false := by
  have hne : ∀ d, isNameChar d = false → c ≠ d := fun d hd => Http.ne_of_class h hd
  simp [isSlash, hne '/' rfl, hne '\\' rfl]

/-- Whether a text begins with a character that does not come before the letters. -/
def beginsHigh (s : String) : Bool :=
  s.toList.head?.any ('A' ≤ ·)

/-- A name begins with a letter, so that it is no dots in any spelling. -/
theorem beginsHigh_lowerAscii (h : isName s) : beginsHigh (lowerAscii s) := by
  rw [isName] at h
  cases hs : s.toList with
  | nil =>
    rw [hs] at h
    cases h
  | cons c cs =>
    rw [hs] at h
    rw [beginsHigh, lowerAscii, hs, String.toList_ofList]
    exact decide_eq_true (le_toLower (Bool.and_eq_true_iff.mp h).1)

theorem not_contains_lowerAscii (h : isName s) {dots : List String}
    (hd : ∀ d ∈ dots, beginsHigh d = false) : dots.contains (lowerAscii s) = false := by
  rw [Bool.eq_false_iff]
  intro hm
  exact Bool.eq_false_iff.mp (hd _ (List.contains_iff_mem.mp hm)) (beginsHigh_lowerAscii h)

theorem isDot_of_isName (h : isName s) : isDot s.toList = false := by
  rw [isDot, String.ofList_toList]
  exact not_contains_lowerAscii h (by decide)

theorem isDotDot_of_isName (h : isName s) : isDotDot s.toList = false := by
  rw [isDotDot, String.ofList_toList]
  exact not_contains_lowerAscii h (by decide)

/-- Names with a slash before each. -/
def slashed (names : List String) : List Char :=
  names.flatMap fun name => '/' :: name.toList

theorem slashed_cons (name : String) (names : List String) :
    slashed (name :: names) = '/' :: (name.toList ++ slashed names) :=
  List.flatMap_cons

theorem slashed_append (names names' : List String) :
    slashed (names ++ names') = slashed names ++ slashed names' :=
  List.flatMap_append

theorem toList_text_segments (names : List String) :
    (Path.text (.segments names)).toList = slashed names := by
  rw [Path.text, String.toList_join, List.flatMap_map, slashed]
  simp

theorem mem_slashed (h : ∀ name ∈ names, isName name) (hc : c ∈ slashed names) :
    c = '/' ∨ isNameChar c := by
  obtain ⟨name, hn, hc⟩ := List.mem_flatMap.mp hc
  rcases List.mem_cons.mp hc with rfl | hc
  · exact .inl rfl
  · exact .inr (Soql.isNameChar_of_isName (h name hn) c hc)

section Split

variable {p : Char → Bool} (hp : ∀ c, isNameChar c → p c = false)

include hp

theorem splitOnP_name (h : isName name) : name.toList.splitOnP p = [name.toList] :=
  List.splitOnP_eq_singleton fun c hc => hp c (Soql.isNameChar_of_isName h c hc)

/-- If a text is split at slashes and at no character of a name, names are parts of their own. -/
theorem splitOnP_slashed (hs : p '/' = true) (h : ∀ name ∈ names, isName name) (cs : List Char) :
    (cs ++ slashed names).splitOnP p = cs.splitOnP p ++ names.map String.toList := by
  induction names generalizing cs with
  | nil => rw [slashed, List.flatMap_nil, List.append_nil, List.map_nil, List.append_nil]
  | cons name names ih =>
    obtain ⟨hn, hns⟩ := List.forall_mem_cons.mp h
    rw [slashed_cons, List.splitOnP_append_cons _ _ hs, ih hns, splitOnP_name hp hn,
      List.singleton_append, List.map_cons]

end Split

/-- Between its slashes a text ends in names, each of which is whole. -/
def EndsIn (text : String) (names : List String) : Prop :=
  ∃ before, text.toList.splitOn '/' = before ++ names.map String.toList

theorem endsIn_of_suffix {text : String} (h : ∀ name ∈ names, isName name)
    (hs : slashed names <:+ text.toList) : EndsIn text names := by
  obtain ⟨cs, hcs⟩ := hs
  have hp : ∀ c, isNameChar c → (c == '/') = false := fun c hc =>
    beq_false_of_ne (Http.ne_of_class hc rfl)
  refine ⟨cs.splitOn '/', ?_⟩
  rw [← hcs]
  exact splitOnP_slashed hp rfl h cs

/-- What a walk does with a segment that is not the last one. -/
def stepped (walked : List String) (segment : List Char) : List String :=
  if isDotDot segment then walked.tail
  else if isDot segment then walked
  else encoded isPathChar segment :: walked

theorem walk_cons (walked : List String) (segment : List Char) (h : rest ≠ []) :
    walk walked (segment :: rest) = walk (stepped walked segment) rest := by
  rw [walk, List.isEmpty_eq_false_iff.mpr h, stepped]
  split
  · rfl
  · split <;> rfl

/-- What a walk has come to is all that the segments before leave to those behind. -/
theorem walk_append (h : rest ≠ []) (walked : List String) (segments : List (List Char)) :
    walk walked (segments ++ rest) = walk (segments.foldl stepped walked) rest := by
  induction segments generalizing walked with
  | nil => rfl
  | cons segment segments ih =>
    -- There is a rest, so that no segment before it is taken for the last one.
    rw [List.cons_append, walk_cons _ _ (List.append_ne_nil_of_right_ne_nil segments h), ih,
      List.foldl_cons]

theorem walk_names (h : ∀ name ∈ names, isName name) (walked : List String) :
    walk walked (names.map String.toList) = walked.reverse ++ names := by
  induction names generalizing walked with
  | nil => rw [List.map_nil, walk, List.append_nil]
  | cons name names ih =>
    obtain ⟨hn, hns⟩ := List.forall_mem_cons.mp h
    have he : encoded isPathChar name.toList = name := by
      rw [encoded, percentEncode_of_kept fun c hc =>
        isPathChar_of_isNameChar (Soql.isNameChar_of_isName hn c hc), String.ofList_toList]
    rw [List.map_cons, walk, isDotDot_of_isName hn, isDot_of_isName hn, he]
    exact (ih hns _).trans (by simp)

theorem pathBehind_slashed (cs : List Char) : ∃ before, ∀ names ≠ [],
    (∀ name ∈ names, isName name) →
      pathBehind true (cs ++ slashed names) = .segments (before ++ names) := by
  have hp : ∀ c, isNameChar c → isSlash true c = false := fun _ => isSlash_of_isNameChar
  cases cs with
  | nil =>
    refine ⟨[], fun names hne h => ?_⟩
    obtain ⟨name, names, rfl⟩ := List.exists_cons_of_ne_nil hne
    obtain ⟨hn, hns⟩ := List.forall_mem_cons.mp h
    rw [pathBehind, Bool.not_true, Bool.and_false, if_neg Bool.false_ne_true, pathSegments,
      List.nil_append, slashed_cons, List.drop_one, List.tail_cons, splitOnP_slashed hp rfl hns,
      splitOnP_name hp hn, List.singleton_append, ← List.map_cons, walk_names h]
    rfl
  | cons c cs =>
    refine ⟨((cs.splitOnP (isSlash true)).foldl stepped []).reverse, fun names hne h => ?_⟩
    have hm : names.map String.toList ≠ [] := mt List.map_eq_nil_iff.mp hne
    rw [pathBehind, Bool.not_true, Bool.and_false, if_neg Bool.false_ne_true, pathSegments,
      List.cons_append, List.drop_one, List.tail_cons, splitOnP_slashed hp rfl h, walk_append hm,
      walk_names h]

theorem dropWhile_append_slash (cs ds : List Char) :
    (cs ++ '/' :: ds).dropWhile (!isSlash true ·) =
      cs.dropWhile (!isSlash true ·) ++ '/' :: ds := by
  rw [List.dropWhile_append]
  split
  · rename_i h
    rw [List.isEmpty_iff.mp h]
    rfl
  · rfl

/-- A text that is more than slashes goes on from something else behind the first of them. -/
theorem exists_dropWhile_slash {front : List Char} (hf : ∃ c ∈ front, isSlash true c = false) :
    ∃ c cs, front.dropWhile (isSlash true) = c :: cs ∧ isSlash true c = false := by
  have hh := List.head?_dropWhile_not (isSlash true) front
  cases hd : front.dropWhile (isSlash true) with
  | nil =>
    obtain ⟨c, hc, hn⟩ := hf
    exact absurd (List.dropWhile_eq_nil_iff.mp hd c hc) (Bool.eq_false_iff.mp hn)
  | cons c cs =>
    rw [hd] at hh
    exact ⟨c, cs, rfl, hh⟩

/-- Names behind such a text end its path and do not change its authority. -/
theorem body_slashed (hw : w = "http" ∨ w = "https") {front : List Char}
    (hf : ∃ c ∈ front, isSlash true c = false) :
    ∃ before, ∀ names ≠ [], (∀ name ∈ names, isName name) →
      body w (front ++ slashed names) =
        (authority w (authorityPart front)).map fun a => (a, .segments (before ++ names)) := by
  obtain ⟨c, cs, hd, hc⟩ := exists_dropWhile_slash hf
  have ha : authorityPart front ≠ [] := by
    rw [authorityPart, hd, List.takeWhile_cons, hc]
    exact List.cons_ne_nil _ _
  obtain ⟨before, hb⟩ := pathBehind_slashed ((c :: cs).dropWhile (!isSlash true ·))
  refine ⟨before, fun names hne h => ?_⟩
  have hp := hb names hne h
  obtain ⟨name, names, rfl⟩ := List.exists_cons_of_ne_nil hne
  rw [slashed_cons] at hp ⊢
  rw [body_web hw, authorityPart_append ha, List.dropWhile_append, hd, List.isEmpty_cons,
    if_neg Bool.false_ne_true, dropWhile_append_slash, hp]

theorem isFragmentChar_slashed (h : ∀ name ∈ names, isName name) :
    ∀ c ∈ slashed names, isFragmentChar c := by
  intro c hc
  rcases mem_slashed h hc with rfl | hc
  · decide
  · exact (Bool.and_eq_true_iff.mp (isPathChar_of_isNameChar hc)).1

theorem plain_slashed (h : ∀ name ∈ names, isName name) : ∀ c ∈ slashed names, PlainInQuery c := by
  intro c hc
  rcases mem_slashed h hc with rfl | hc
  · exact ⟨by decide, by decide⟩
  · exact .of_isNameChar hc

/-- A text with names, and before them anything, behind a URL. -/
structure Named (s : String) (mid : List Char) (names : List String) (t : String) : Prop where
  eq_append : t.toList = s.toList ++ mid ++ slashed names
  ne_nil : names ≠ []
  all : ∀ name ∈ names, isName name

theorem toList_encoded_append (hk : ∀ c ∈ ds, keep c) (cs : List Char) :
    (encoded keep (cs ++ ds)).toList = percentEncode keep cs ++ ds := by
  rw [encoded, String.toList_ofList, percentEncode, List.flatMap_append, ← percentEncode,
    ← percentEncode, percentEncode_of_kept hk]

/-- The parts of a URL that was read are those between the marks in the text. -/
theorem parts_of_parse (hs : scheme? (cleaned t) = some (w, cs)) (h : parse t = .ok u) :
    u.fragment = (cut '#' cs).2.map (encoded isFragmentChar) ∧
      u.query = (cut '?' (cut '#' cs).1).2.map (encoded (isQueryChar (isWeb w))) ∧
      ∃ a, body w (cut '?' (cut '#' cs).1).1 = .ok (a, u.path) := by
  rw [parse, hs] at h
  obtain ⟨⟨a, path⟩, hb, h⟩ := bind_eq_ok_iff.mp h
  cases h
  exact ⟨rfl, rfl, a, hb⟩

theorem suffix_append (s t : String) : t.toList <:+ (s ++ t).toList := by
  rw [String.toList_append]
  exact List.suffix_append _ _

theorem fragment_suffix_text {u : Url} (h : u.fragment = some f) :
    f.toList <:+ u.text.toList := by
  rw [text, h, marked]
  exact (suffix_append _ _).trans (suffix_append _ _)

theorem target_suffix_text {u : Url} (h : u.fragment = none) :
    u.target.toList <:+ u.text.toList := by
  rw [text, h, marked, String.append_empty]
  exact suffix_append _ _

theorem query_suffix_target {u : Url} (h : u.query = some q) :
    q.toList <:+ u.target.toList := by
  rw [target, h, marked]
  exact (suffix_append _ _).trans (suffix_append _ _)

theorem target_eq_of_query {u : Url} (h : u.query = none) : u.target = u.path.text := by
  rw [target, h, marked, String.append_empty]

namespace Named

variable {w s t : String} {rest mid : List Char} {names : List String}

theorem scheme?_eq (hb : Base w s rest) (h : Named s mid names t) :
    scheme? (cleaned t) = some (w, unbroken (rest ++ mid) ++ slashed names) := by
  have hv : ∀ c ∈ slashed names, ' ' < c := fun c hc => (plain_slashed h.all c hc).visible
  have hl : ∀ c, t.toList.getLast? = some c → ' ' < c := by
    intro c hc
    obtain ⟨name, ns, hn⟩ := List.exists_cons_of_ne_nil h.ne_nil
    have hne : slashed names ≠ [] := by
      rw [hn, slashed_cons]
      exact List.cons_ne_nil _ _
    rw [h.eq_append, List.getLast?_append, List.getLast?_eq_some_getLast hne] at hc
    cases hc
    exact hv _ (List.getLast_mem hne)
  have ht : t.toList = w.toList ++ ':' :: (rest ++ mid ++ slashed names) := by
    rw [h.eq_append, hb.text]
    simp
  rw [cleaned_web hb.scheme ht hl, scheme?_web hb.scheme, unbroken_append, unbroken_of_visible hv]

theorem not_mem (h : Named s mid names t) (hc : c ≠ '/') (hn : isNameChar c = false) :
    c ∉ slashed names := by
  intro hm
  rcases mem_slashed h.all hm with he | hm
  · exact hc he
  · exact Http.ne_of_class hm hn rfl

/-- Without a mark before them, names are read with the path. -/
theorem parse_eq_map (hb : Base w s rest) (hm : '?' ∉ mid ∧ '#' ∉ mid)
    (h : Named s mid names t) :
    parse t = (body w (unbroken (rest ++ mid) ++ slashed names)).map (assembled w none) := by
  have hn : ∀ c, c ∉ rest → c ∉ mid → c ≠ '/' → isNameChar c = false →
      c ∉ unbroken (rest ++ mid) ++ slashed names := by
    intro c hr hm hc hn hmem
    rcases List.mem_append.mp hmem with hmem | hmem
    · rcases List.mem_append.mp (List.mem_of_mem_filter hmem) with hmem | hmem
      · exact hr hmem
      · exact hm hmem
    · exact h.not_mem hc hn hmem
  have hs : scheme? (cleaned t) =
      some (w, unbroken (rest ++ mid) ++ slashed names ++ queryTail none) := by
    rw [h.scheme?_eq hb, queryTail, List.append_nil]
  refine Url.parse_eq_map hs (hn '?' hb.bare.1 hm.1 (by decide) rfl) ?_
  rw [queryTail, List.append_nil]
  exact hn '#' hb.bare.2 hm.2 (by decide) rfl

theorem endsIn_text (h : Named s mid names t) : EndsIn t names :=
  endsIn_of_suffix h.all ⟨_, h.eq_append.symm⟩

/-- Whatever stands between a URL and names, what is read of the whole ends in the names. -/
theorem suffix_text {u : Url} (hb : Base w s rest)
    (hf : ∃ c ∈ unbroken (rest ++ mid), isSlash true c = false)
    (h : Named s mid names t) (hu : parse t = .ok u) : slashed names <:+ u.text.toList := by
  obtain ⟨hfrag, hquery, a, hbody⟩ := parts_of_parse (h.scheme?_eq hb) hu
  -- The first mark before the names decides in which part of the URL they come to stand.
  by_cases hmf : '#' ∈ unbroken (rest ++ mid)
  · obtain ⟨cs, ds, he, hcs⟩ := List.eq_append_cons_of_mem hmf
    rw [he, List.append_assoc, List.cons_append, cut_append hcs] at hfrag
    refine List.IsSuffix.trans ?_ (fragment_suffix_text hfrag)
    rw [toList_encoded_append (isFragmentChar_slashed h.all)]
    exact List.suffix_append _ _
  have hnf : '#' ∉ unbroken (rest ++ mid) ++ slashed names := by
    rw [List.mem_append, not_or]
    exact ⟨hmf, h.not_mem (by decide) rfl⟩
  rw [cut_of_not_mem hnf] at hfrag hquery hbody
  refine List.IsSuffix.trans ?_ (target_suffix_text hfrag)
  by_cases hmq : '?' ∈ unbroken (rest ++ mid)
  · obtain ⟨cs, ds, he, hcs⟩ := List.eq_append_cons_of_mem hmq
    rw [he, List.append_assoc, List.cons_append, cut_append hcs, isWeb_of_http hb.scheme] at hquery
    refine List.IsSuffix.trans ?_ (query_suffix_target hquery)
    rw [toList_encoded_append fun c hc => (plain_slashed h.all c hc).kept]
    exact List.suffix_append _ _
  · have hnq : '?' ∉ unbroken (rest ++ mid) ++ slashed names := by
      rw [List.mem_append, not_or]
      exact ⟨hmq, h.not_mem (by decide) rfl⟩
    rw [cut_of_not_mem hnq] at hquery hbody
    obtain ⟨before, hbefore⟩ := body_slashed hb.scheme hf
    rw [hbefore names h.ne_nil h.all] at hbody
    obtain ⟨_, -, hp⟩ := map_eq_ok_iff.mp hbody
    rw [target_eq_of_query hquery, ← (Prod.mk.inj hp).2, toList_text_segments, slashed_append]
    exact List.suffix_append _ _

end Named

/-- Without a mark before them, names are segments at the end of the path, and nothing else in the
URL depends on them. If the URL before them ends visibly, the whole can be read as it can. -/
theorem exists_place (hb : Base w s rest) (hm : '?' ∉ mid ∧ '#' ∉ mid)
    (hf : ∃ c ∈ unbroken (rest ++ '/' :: mid), isSlash true c = false) :
    ∃ (place : Except Defect Url) (before : List String),
      (∀ u, (∀ c, s.toList.getLast? = some c → ' ' < c) → parse s = .ok u →
        ∃ v, place = .ok v) ∧
      ∀ names t, Named s ('/' :: mid) names t →
        parse t = place.map fun u =>
          { u with path := .segments (before ++ names), query := none, fragment := none } := by
  have hfront : unbroken (rest ++ '/' :: mid) = unbroken rest ++ '/' :: unbroken mid :=
    unbroken_append _ _
  obtain ⟨before, hbefore⟩ := body_slashed hb.scheme hf
  refine ⟨(authority w (authorityPart (unbroken (rest ++ '/' :: mid)))).map fun a =>
    assembled w none (a, .bare ""), before, fun u hl hu => ?_, fun names t h => ?_⟩
  · obtain ⟨path, hpath⟩ := body_eq_map hb.scheme (unbroken rest)
    rw [hb.parse_eq_map hl, hpath] at hu
    obtain ⟨p, hp, -⟩ := map_eq_ok_iff.mp hu
    obtain ⟨a, ha, -⟩ := map_eq_ok_iff.mp hp
    rw [hfront, authorityPart_append (authorityPart_ne_nil hb.scheme ha), ha]
    exact ⟨_, rfl⟩
  · have hm' : '?' ∉ '/' :: mid ∧ '#' ∉ '/' :: mid := by simpa using hm
    rw [h.parse_eq_map hb hm', hbefore names h.ne_nil h.all]
    cases authority w (authorityPart (unbroken (rest ++ '/' :: mid))) <;> rfl

end Url

end OrgClient
