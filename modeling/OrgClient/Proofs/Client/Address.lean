import OrgClient.Client.Save
import OrgClient.Proofs.Http.Redaction
import OrgClient.Proofs.Outcome

namespace OrgClient

open Json (Decoder)
open Text
set_option autoImplicit true

namespace Text

theorem startsWith_iff : startsWith s pre = true ↔ pre.toList <+: s.toList :=
  List.isPrefixOf_iff_prefix

variable {p : Char → Bool} {cs : List Char}

theorem dropWhile_of_not (h : ∀ c ∈ cs, p c = false) : cs.dropWhile p = cs := by
  cases cs with
  | nil => rfl
  | cons c cs => rw [List.dropWhile_cons, h c List.mem_cons_self, if_neg Bool.false_ne_true]

theorem dropEndWhile_append (h : ∀ c ∈ cs, p c = false) (ds : List Char) :
    dropEndWhile p (cs ++ ds) = cs ++ dropEndWhile p ds := by
  have hr : cs.reverse.dropWhile p = cs.reverse :=
    dropWhile_of_not fun c hc => h c (List.mem_reverse.mp hc)
  rw [dropEndWhile, dropEndWhile, List.reverse_append, List.dropWhile_append]
  split
  · rename_i hd
    rw [hr, List.reverse_reverse, List.isEmpty_iff.mp hd, List.reverse_nil, List.append_nil]
  · rw [List.reverse_append, List.reverse_reverse]

theorem getLast?_dropEndWhile (hc : (dropEndWhile p cs).getLast? = some c) : p c = false := by
  rw [dropEndWhile, List.getLast?_reverse] at hc
  have hh := List.head?_dropWhile_not p cs.reverse
  rw [hc] at hh
  exact hh

end Text

namespace Url

/-- Cleaning a text leaves what is visible at its start alone. -/
theorem cleaned_of_visible (c : Char) (cs : List Char) (h : ∀ d ∈ c :: cs, ' ' < d)
    (hs : s.toList = c :: cs ++ ds) : ∃ es, cleaned s = c :: cs ++ es := by
  have hk : ∀ d ∈ c :: cs, decide (d ≤ ' ') = false := fun d hd =>
    decide_eq_false (Char.not_le.mpr (h d hd))
  have hf : (c :: cs).filter (fun d => d != '\t' && d != '\n' && d != '\r') = c :: cs := by
    refine List.filter_eq_self.mpr fun d hd => ?_
    have hn : ∀ e, e ≤ ' ' → d ≠ e := fun e he hde => Char.not_le.mpr (h d hd) (hde ▸ he)
    simp [hn '\t' (by decide), hn '\n' (by decide), hn '\r' (by decide)]
  have hd : (c :: cs ++ ds).dropWhile (· ≤ ' ') = c :: cs ++ ds := by
    rw [List.cons_append, List.dropWhile_cons, hk c List.mem_cons_self, if_neg Bool.false_ne_true]
  rw [cleaned, hs, hd, dropEndWhile_append hk, List.filter_append, hf]
  exact ⟨_, rfl⟩

theorem scheme?_append (hc : c.isAlpha) (h : ∀ d ∈ s, isSchemeChar d) (cs : List Char) :
    scheme? (c :: s ++ ':' :: cs) = some (lowerAscii (String.ofList (c :: s)), cs) := by
  have hm : isSchemeChar ':' = false := by decide
  rw [List.cons_append, scheme?, List.dropWhile_append_of_pos h, List.takeWhile_append_of_pos h,
    List.dropWhile_cons, List.takeWhile_cons, hm]
  simp [hc]

theorem scheme?_of_parse (h : parse s = .ok u) :
    ∃ rest, scheme? (cleaned s) = some (u.scheme, rest) := by
  rw [parse] at h
  split at h
  · cases h
  · rename_i scheme rest hs
    obtain ⟨⟨a, path⟩, -, h⟩ := bind_eq_ok_iff.mp h
    cases h
    exact ⟨rest, hs⟩

theorem visible_of_isSchemeChar (h : isSchemeChar c) : ' ' < c := by
  have hb : ∀ d : Char, 32 < d.val → d.val ≤ c.val → ' ' < c := fun d hd hc =>
    UInt32.lt_of_lt_of_le hd hc
  simp only [isSchemeChar, isAsciiAlnum, Bool.or_eq_true, beq_iff_eq] at h
  obtain ((((h | h) | rfl) | rfl) | rfl) := h
  · rcases Bool.or_eq_true_iff.mp h with h | h
    · exact hb 'A' (by decide) (of_decide_eq_true h).1
    · exact hb 'a' (by decide) (of_decide_eq_true (Bool.and_eq_true_iff.mp h).1)
  · exact hb '0' (by decide) (of_decide_eq_true (Bool.and_eq_true_iff.mp h).1)
  all_goals simp

/-- What stands before the colon at the start of a URL is its scheme, in small letters. -/
theorem scheme_of_parse (c : Char) (cs : List Char) (h : parse s = .ok u) (hc : c.isAlpha)
    (hcs : cs.all isSchemeChar) (hp : pre.toList = c :: cs ++ ':' :: ds) (hs : startsWith s pre) :
    u.scheme = lowerAscii (String.ofList (c :: cs)) := by
  have hcs := List.all_eq_true.mp hcs
  have hv : ∀ d ∈ c :: (cs ++ [':']), ' ' < d := by
    intro d hd
    rcases List.mem_cons.mp hd with rfl | hd
    · exact visible_of_isSchemeChar (by simp [isSchemeChar, isAsciiAlnum, hc])
    · rcases List.mem_append.mp hd with hd | hd
      · exact visible_of_isSchemeChar (hcs d hd)
      · rw [List.mem_singleton.mp hd]
        simp
  have ha : ∀ es, c :: (cs ++ [':']) ++ es = c :: cs ++ ':' :: es := fun es => by simp
  obtain ⟨fs, hf⟩ := startsWith_iff.mp hs
  rw [hp, ← ha, List.append_assoc] at hf
  obtain ⟨es, he⟩ := cleaned_of_visible _ _ hv hf.symm
  obtain ⟨rest, hr⟩ := scheme?_of_parse h
  rw [he, ha, scheme?_append hc hcs, Option.some.injEq, Prod.mk.injEq] at hr
  exact hr.1.symm

theorem not_slash_of_parse (h : parse s = .ok u) : startsWith s "/" = false := by
  refine Bool.eq_false_iff.mpr fun hs => ?_
  obtain ⟨ds, hs⟩ := startsWith_iff.mp hs
  obtain ⟨rest, hr⟩ := scheme?_of_parse h
  obtain ⟨es, he⟩ := cleaned_of_visible '/' [] (by simp) hs.symm
  rw [he, List.singleton_append, scheme?] at hr
  split at hr <;> cases hr

theorem ne_empty_of_parse (h : parse s = .ok u) : s ≠ "" := by
  rintro rfl
  cases h

end Url

namespace Connection

/-- A URL of HTTP is spelled out: it begins with its scheme in small letters and two slashes. -/
def IsSpelledOut (s : String) : Prop :=
  startsWith s "http://" ∨ startsWith s "https://"

theorem isSpelledOut_iff {s : String} (h : Url.parse s = .ok u)
    (hw : u.scheme = "http" ∨ u.scheme = "https") :
    IsSpelledOut s ↔ startsWith s (u.scheme ++ "://") := by
  constructor
  · rintro (hs | hs)
    · rw [Url.scheme_of_parse 'h' "ttp".toList h (by decide) (by decide) rfl hs]
      exact hs
    · rw [Url.scheme_of_parse 'h' "ttps".toList h (by decide) (by decide) rfl hs]
      exact hs
  · intro hs
    rcases hw with hw | hw
    · rw [hw] at hs
      exact .inl hs
    · rw [hw] at hs
      exact .inr hs

variable {text token path : String} {config : Http.Config} {c : Connection}

theorem parse_of_toInstance (h : toInstance text token config = .ok c) :
    ∃ u, Url.parse c.instanceUrl = .ok u ∧ (u.scheme = "http" ∨ u.scheme = "https") ∧
      c.instanceUrl = dropEndSlashes text := by
  rw [toInstance] at h
  split at h
  · cases h
  · rename_i u hu
    split at h
    · cases h
    · rename_i hw
      obtain ⟨config, -, rfl⟩ := map_eq_ok_iff.mp h
      exact ⟨u, hu, Decidable.or_iff_not_not_and_not.mpr hw, rfl⟩

theorem url_of_isSpelledOut (c : Connection) (h : IsSpelledOut path) : c.url path = path := by
  have hp : (startsWith path "http://" || startsWith path "https://") = true :=
    Bool.or_eq_true_iff.mpr h
  rw [url, hp]
  rfl

theorem url_of_not_isSpelledOut (c : Connection) (h : ¬ IsSpelledOut path)
    (hs : startsWith path "/" = false) : c.url path = c.instanceUrl ++ "/" ++ path := by
  have hn : (startsWith path "http://" || startsWith path "https://") = false :=
    Bool.eq_false_iff.mpr fun hp => h (Bool.or_eq_true_iff.mp hp)
  rw [url, hn, hs]
  rfl

theorem getLast?_dropEndSlashes (s : String) : (dropEndSlashes s).toList.getLast? ≠ some '/' := by
  rw [dropEndSlashes, String.toList_ofList]
  intro h
  exact absurd (getLast?_dropEndWhile h) (by decide)

theorem toList_restUrl (c : Connection) (path : String) :
    ∃ cs, (c.restUrl path).toList = c.instanceUrl.toList ++ ['/'] ++ ['s'] ++ 'e' :: cs := by
  refine ⟨("rvices/data/v" ++ c.version ++ "/" ++ dropStart '/' path).toList, ?_⟩
  have hs : "/services/data/v".toList = ['/'] ++ ['s'] ++ 'e' :: "rvices/data/v".toList := rfl
  simp only [restUrl, String.toList_append, hs, List.append_assoc, List.cons_append]

/-- What comes behind the URL of an org does not make up for what is missing at its start. -/
theorem startsWith_restUrl_iff (qs : List Char) (hi : c.instanceUrl.toList.getLast? ≠ some '/')
    (hp : pre.toList = qs ++ ['/'] ++ ['/']) (he : 'e' ∉ pre.toList) :
    startsWith (c.restUrl path) pre ↔ startsWith c.instanceUrl pre := by
  obtain ⟨cs, hr⟩ := c.toList_restUrl path
  rw [startsWith_iff, startsWith_iff, hr]
  constructor
  · intro h
    -- It ends in two slashes, but the URL of the org in none, and only one is put behind it.
    rcases List.prefix_concat_iff.mp (Http.prefix_of_prefix_append_cons he h) with h | h
    · rw [hp] at h
      cases List.append_inj_right' h rfl
    · rcases List.prefix_concat_iff.mp h with h | h
      · rw [hp, List.append_cancel_right_eq] at h
        rw [← h, List.getLast?_concat] at hi
        exact absurd rfl hi
      · exact h
  · intro h
    simp only [List.append_assoc]
    exact h.trans (List.prefix_append _ _)

theorem isSpelledOut_restUrl_iff (hi : c.instanceUrl.toList.getLast? ≠ some '/') :
    IsSpelledOut (c.restUrl path) ↔ IsSpelledOut c.instanceUrl :=
  or_congr (startsWith_restUrl_iff "http:".toList hi rfl (by decide))
    (startsWith_restUrl_iff "https:".toList hi rfl (by decide))

theorem startsWith_restUrl_slash (hne : c.instanceUrl ≠ "")
    (hs : startsWith c.instanceUrl "/" = false) : startsWith (c.restUrl path) "/" = false := by
  refine Bool.eq_false_iff.mpr fun h => Bool.eq_false_iff.mp hs ?_
  obtain ⟨cs, hr⟩ := c.toList_restUrl path
  rw [startsWith_iff, hr] at h
  rw [startsWith_iff]
  cases hl : c.instanceUrl.toList with
  | nil => exact absurd (String.toList_eq_nil_iff.mp hl) hne
  | cons d ds =>
    rw [hl, List.cons_append, List.cons_append, List.cons_append] at h
    exact List.cons_prefix_cons.mpr ⟨(List.cons_prefix_cons.mp h).1, List.nil_prefix⟩

theorem ne_joined (s path : String) : path ≠ s ++ "/" ++ path := by
  intro h
  have hs : "/".toList.length = 1 := rfl
  have hl := congrArg (fun t => t.toList.length) h
  simp only [String.toList_append, List.length_append, hs] at hl
  omega

/-- The URL at which the calls that read or write JSON ask for a path of the REST API. -/
structure AsksAt (c : Connection) (path target : String) : Prop where
  url : c.url (c.restUrl path) = target
  get : ∀ {α : Type} (d : Decoder α),
    c.restGet d path = c.sendJson d (c.request .get target)
  submit : ∀ {α : Type} (d : Decoder α) (method : Http.Method) (body : Json),
    c.restSubmit method d path body = c.sendJson d ((c.request method target).json body)

theorem asksAt_of_url (h : c.url (c.restUrl path) = target) : c.AsksAt path target := by
  subst h
  exact ⟨rfl, fun d => rfl, fun d method body => rfl⟩

/-- A connection that was accepted, asking for any version of the API, asks for the resources of the
REST API at their URL if its own begins with its scheme in small letters and two slashes, and joins
their URL to its own again if not. Deletions ask at the URL in any case. -/
theorem asks_at_joined_iff (h : toInstance text token config = .ok c) (version path : String) :
    ∃ u, Url.parse c.instanceUrl = .ok u ∧
      (AsksAt { c with version } path (restUrl { c with version } path) ↔
        startsWith c.instanceUrl (u.scheme ++ "://")) ∧
      (¬ startsWith c.instanceUrl (u.scheme ++ "://") →
        AsksAt { c with version } path
          (c.instanceUrl ++ "/" ++ restUrl { c with version } path)) ∧
      ∀ ids allOrNone, (deleteRequest { c with version } ids allOrNone).url =
        restUrl { c with version } batchPath := by
  obtain ⟨u, hu, hw, hc⟩ := parse_of_toInstance h
  have hl : c.instanceUrl.toList.getLast? ≠ some '/' := hc ▸ getLast?_dropEndSlashes text
  have hi : IsSpelledOut (restUrl { c with version } path) ↔ IsSpelledOut c.instanceUrl :=
    isSpelledOut_restUrl_iff (c := { c with version }) hl
  have hj : startsWith (restUrl { c with version } path) "/" = false :=
    startsWith_restUrl_slash (c := { c with version }) (Url.ne_empty_of_parse hu)
      (Url.not_slash_of_parse hu)
  have hn : ¬ IsSpelledOut c.instanceUrl →
      AsksAt { c with version } path (c.instanceUrl ++ "/" ++ restUrl { c with version } path) := by
    intro hs
    exact asksAt_of_url (url_of_not_isSpelledOut _ (mt hi.mp hs) hj)
  refine ⟨u, hu, ?_, ?_, fun ids allOrNone => rfl⟩
  · rw [← isSpelledOut_iff hu hw]
    constructor
    · intro ha
      by_contra hs
      exact ne_joined _ _ (ha.url.symm.trans (hn hs).url)
    · intro hs
      exact asksAt_of_url (url_of_isSpelledOut _ (hi.mpr hs))
  · rw [← isSpelledOut_iff hu hw]
    exact hn

/-- A connection to an org at a URL that is written as usual. -/
def plainOrg : Connection :=
  ⟨"https://org.test", "token", defaultVersion, {}⟩

theorem plainOrg_asks_at_joined :
    toInstance "https://org.test/" "token" {} = .ok plainOrg ∧
      AsksAt { plainOrg with version := "61.0" } "limits"
        "https://org.test/services/data/v61.0/limits" := by
  have h : toInstance "https://org.test/" "token" {} = .ok plainOrg := by rfl
  have hs : (Url.parse plainOrg.instanceUrl).toOption.map Url.scheme = some "https" := by rfl
  obtain ⟨u, hu, hj, -⟩ := asks_at_joined_iff h "61.0" "limits"
  rw [hu] at hs
  refine ⟨h, hj.mpr ?_⟩
  rw [Option.some.inj hs]
  rfl

/-- A connection to an org at a URL with its scheme in capitals. -/
def shoutedOrg : Connection :=
  ⟨"HTTPS://org.test", "token", defaultVersion, {}⟩

theorem shoutedOrg_joins_twice :
    toInstance "HTTPS://org.test" "token" {} = .ok shoutedOrg ∧
      shoutedOrg.restUrl "limits" = "HTTPS://org.test/services/data/v62.0/limits" ∧
      shoutedOrg.url (shoutedOrg.restUrl "limits") =
        "HTTPS://org.test/HTTPS://org.test/services/data/v62.0/limits" ∧
      shoutedOrg.url (shoutedOrg.restUrl "limits") ≠ shoutedOrg.restUrl "limits" := by
  have hj : shoutedOrg.url (shoutedOrg.restUrl "limits") =
      shoutedOrg.instanceUrl ++ "/" ++ shoutedOrg.restUrl "limits" := by rfl
  exact ⟨by rfl, by rfl, by rfl, hj ▸ (ne_joined _ _).symm⟩

end Connection

end OrgClient
