import Mathlib.Data.List.Infix
import OrgClient.Http.Redaction

namespace OrgClient.Http

open Text
set_option autoImplicit true

/-- What access tokens and session ids look like. -/
inductive IsCredential : List Char → Prop
  | token (hl : 13 ≤ org.length) (ho : ∀ c ∈ org, isAsciiAlnum c) (hne : key ≠ [])
    (hk : ∀ c ∈ key, isTokenChar c) : IsCredential ('0' :: '0' :: (org ++ '!' :: key))
  | session (hl : 20 ≤ key.length) (hk : ∀ c ∈ key, isAsciiAlnum c) :
    IsCredential ('s' :: 'i' :: 'd' :: '=' :: key)

/-- A text with a credential in it. -/
def Leaks (cs : List Char) : Prop :=
  ∃ secret, IsCredential secret ∧ secret <:+: cs

theorem Leaks.mono (h : Leaks cs) (hi : cs <:+: ds) : Leaks ds := by
  obtain ⟨secret, hs, hc⟩ := h
  exact ⟨secret, hs, hc.trans hi⟩

theorem ne_of_class {isIn : Char → Bool} (h : isIn c) (hx : isIn x = false) : c ≠ x := by
  rintro rfl
  rw [h] at hx
  cases hx

namespace IsCredential

/-- Blanks and brackets are in no credential. -/
theorem not_mem (h : IsCredential secret) (hx : x = ' ' ∨ x = '[') : x ∉ secret := by
  have ha : isAsciiAlnum x = false := by rcases hx with rfl | rfl <;> decide
  have ht : isTokenChar x = false := by rcases hx with rfl | rfl <;> decide
  cases h with
  | token hl ho hne hk =>
    have h₀ : x ≠ '0' := by rcases hx with rfl | rfl <;> decide
    have h₁ : x ≠ '!' := by rcases hx with rfl | rfl <;> decide
    simp only [List.mem_cons, List.mem_append, not_or]
    exact ⟨h₀, h₀, fun hm => ne_of_class (ho x hm) ha rfl, h₁,
      fun hm => ne_of_class (hk x hm) ht rfl⟩
  | session hl hk =>
    have hp : x ∉ "sid=".toList := by rcases hx with rfl | rfl <;> decide
    intro hm
    rcases List.mem_append.mp (show x ∈ "sid=".toList ++ _ from hm) with hm | hm
    · exact hp hm
    · exact ne_of_class (hk x hm) ha rfl

theorem ne_nil (h : IsCredential secret) : secret ≠ [] := by
  cases h <;> exact List.cons_ne_nil _ _

/-- An exclamation mark or an equals sign is in each credential. -/
theorem mem (h : IsCredential secret) : '!' ∈ secret ∨ '=' ∈ secret := by
  cases h <;> simp

end IsCredential

theorem not_leaks_of_plain (h : ∀ c ∈ cs, c ≠ '!' ∧ c ≠ '=') : ¬ Leaks cs := by
  rintro ⟨secret, hs, hi⟩
  rcases hs.mem with hm | hm
  · exact (h _ (hi.subset hm)).1 rfl
  · exact (h _ (hi.subset hm)).2 rfl

theorem prefix_of_prefix_append_cons (hx : x ∉ cs) (h : cs <+: ds ++ x :: es) : cs <+: ds := by
  have hd : ds ++ [x] <+: ds ++ x :: es := ⟨es, by rw [List.append_assoc, List.singleton_append]⟩
  have hm : x ∈ ds ++ [x] := List.mem_append_right _ List.mem_cons_self
  rcases List.prefix_or_prefix_of_prefix h hd with h | h
  · rcases List.prefix_concat_iff.mp h with rfl | h
    · exact absurd hm hx
    · exact h
  · exact absurd (h.subset hm) hx

theorem infix_of_infix_append_cons (hx : x ∉ cs) (h : cs <:+: ds ++ x :: es) :
    cs <:+: ds ∨ cs <:+: es := by
  induction ds with
  | nil =>
    rcases List.infix_cons_iff.mp h with h | h
    · exact .inl (prefix_of_prefix_append_cons hx h).isInfix
    · exact .inr h
  | cons d ds ih =>
    rcases List.infix_cons_iff.mp h with h | h
    · exact .inl (prefix_of_prefix_append_cons hx h).isInfix
    · exact (ih h).imp_left fun h => List.infix_cons_iff.mpr (.inr h)

/-- A blank keeps the texts around it apart. -/
theorem leaks_append_blank_iff : Leaks (cs ++ ' ' :: ds) ↔ Leaks cs ∨ Leaks ds := by
  constructor
  · rintro ⟨secret, hs, hi⟩
    have hb := hs.not_mem (.inl rfl)
    exact (infix_of_infix_append_cons hb hi).imp (⟨secret, hs, ·⟩) (⟨secret, hs, ·⟩)
  · rintro (h | h)
    · exact h.mono (List.prefix_append _ _).isInfix
    · exact h.mono (List.suffix_append_of_suffix (List.suffix_cons ' ' ds)).isInfix

theorem tokenLength_ne_zero (hl : 13 ≤ org.length) (ho : ∀ c ∈ org, isAsciiAlnum c)
    (hne : key ≠ []) (hk : ∀ c ∈ key, isTokenChar c)
    (h : '0' :: '0' :: (org ++ '!' :: key) <+: cs) : tokenLength cs ≠ 0 := by
  obtain ⟨rest, rfl⟩ := h
  have hb : ¬ isAsciiAlnum '!' := by decide
  have ht : (org ++ '!' :: (key ++ rest)).takeWhile isAsciiAlnum = org := by
    rw [List.takeWhile_append_of_pos ho, List.takeWhile_cons_of_neg hb, List.append_nil]
  have hd : (org ++ '!' :: (key ++ rest)).dropWhile isAsciiAlnum = '!' :: (key ++ rest) := by
    rw [List.dropWhile_append_of_pos ho, List.dropWhile_cons_of_neg hb]
  have hn : ((key ++ rest).takeWhile isTokenChar).isEmpty = false := by
    rw [List.takeWhile_append_of_pos hk, List.isEmpty_eq_false_iff]
    exact List.append_ne_nil_of_left_ne_nil hne _
  have hc : '0' :: '0' :: (org ++ '!' :: key) ++ rest =
      '0' :: '0' :: (org ++ '!' :: (key ++ rest)) := by
    simp
  rw [hc, tokenLength, hd]
  simp only [ht, hn, hl, decide_true, Bool.not_false, Bool.and_self, ↓reduceIte]
  omega

theorem sessionLength_ne_zero (hl : 20 ≤ key.length) (hk : ∀ c ∈ key, isAsciiAlnum c)
    (h : 's' :: 'i' :: 'd' :: '=' :: key <+: cs) : sessionLength cs ≠ 0 := by
  obtain ⟨rest, rfl⟩ := h
  have hn : 20 ≤ ((key ++ rest).takeWhile isAsciiAlnum).length := by
    rw [List.takeWhile_append_of_pos hk, List.length_append]
    omega
  change sessionLength ('s' :: 'i' :: 'd' :: '=' :: (key ++ rest)) ≠ 0
  rw [sessionLength, if_pos hn]
  omega

theorem prefix_of_sessionLength_ne_zero (h : sessionLength cs ≠ 0) : "sid=".toList <+: cs := by
  unfold sessionLength at h
  split at h
  · exact List.prefix_append "sid=".toList _
  · exact absurd rfl h

theorem replaceFound_kept (h : found (c :: cs) = 0) (mark : List Char) :
    replaceFound found mark 0 (c :: cs) = c :: replaceFound found mark 0 cs := by
  rw [replaceFound, h]

theorem replaceFound_found (h : found (c :: cs) = n + 1) (mark : List Char) :
    replaceFound found mark 0 (c :: cs) = mark ++ replaceFound found mark n cs := by
  rw [replaceFound, h]

section Replacing

variable {found : List Char → Nat} {start behind : List Char}

/-- Up to its first bracket, a mark is what all that it takes the place of starts with. So what is
without brackets is not put together from a mark and the text before it. -/
theorem prefix_of_prefix_replaceFound (hstart : ∀ cs, found cs ≠ 0 → start <+: cs)
    (hb : '[' ∉ secret) (h : secret <+: replaceFound found (start ++ '[' :: behind) 0 cs) :
    secret <+: cs := by
  induction cs generalizing secret with
  | nil =>
    rw [replaceFound] at h
    exact h
  | cons c cs ih =>
    cases hf : found (c :: cs) with
    | zero =>
      rw [replaceFound_kept hf] at h
      cases secret with
      | nil => exact List.nil_prefix
      | cons d secret =>
        rw [List.cons_prefix_cons] at h
        rw [List.mem_cons, not_or] at hb
        exact List.cons_prefix_cons.mpr ⟨h.1, ih hb.2 h.2⟩
    | succ n =>
      rw [replaceFound_found hf, List.append_assoc, List.cons_append] at h
      exact (prefix_of_prefix_append_cons hb h).trans (hstart _ (by omega))

theorem infix_of_infix_mark
    (hm : ∀ m, m <:+ mark → m ≠ [] → ∀ out, ¬ secret <+: m ++ out)
    (h : secret <:+: mark ++ out) : secret <:+: out := by
  induction mark with
  | nil => exact h
  | cons c mark ih =>
    rcases List.infix_cons_iff.mp h with h | h
    · exact absurd h (hm _ List.suffix_rfl (List.cons_ne_nil c mark) out)
    · exact ih (fun m hs => hm m (hs.trans (List.suffix_cons c mark))) h

/-- What is in a text behind a replacement and does not start within a mark was there before, at a
place where nothing was found. -/
theorem infix_of_infix_replaceFound (hstart : ∀ cs, found cs ≠ 0 → start <+: cs)
    (hne : secret ≠ []) (hb : '[' ∉ secret)
    (hm : ∀ m, m <:+ start ++ '[' :: behind → m ≠ [] → ∀ out, ¬ secret <+: m ++ out)
    (h : secret <:+: replaceFound found (start ++ '[' :: behind) n cs) :
    ∃ t, t <:+ cs ∧ found t = 0 ∧ secret <+: t := by
  induction cs generalizing n with
  | nil =>
    cases n <;> (rw [replaceFound] at h; exact absurd (List.infix_nil.mp h) hne)
  | cons c cs ih =>
    have hs {n : Nat} (h : secret <:+: replaceFound found (start ++ '[' :: behind) n cs) :
        ∃ t, t <:+ c :: cs ∧ found t = 0 ∧ secret <+: t := by
      obtain ⟨t, ht, h⟩ := ih h
      exact ⟨t, ht.trans (List.suffix_cons c cs), h⟩
    cases n with
    | succ n =>
      rw [replaceFound] at h
      exact hs h
    | zero =>
      cases hf : found (c :: cs) with
      | zero =>
        rw [replaceFound_kept hf] at h
        rcases List.infix_cons_iff.mp h with h | h
        · rw [← replaceFound_kept hf] at h
          exact ⟨_, List.suffix_rfl, hf, prefix_of_prefix_replaceFound hstart hb h⟩
        · exact hs h
      | succ n =>
        rw [replaceFound_found hf] at h
        exact hs (infix_of_infix_mark hm h)

end Replacing

theorem not_prefix_of_not_mem {secret mark : List Char} (h : d ∉ mark) :
    ∀ m, m <:+ mark → m ≠ [] → ∀ out, ¬ d :: secret <+: m ++ out := by
  intro m hs hne out hp
  cases m with
  | nil => exact hne rfl
  | cons c m =>
    rw [List.cons_append, List.cons_prefix_cons] at hp
    exact h (hp.1 ▸ hs.subset List.mem_cons_self)

/-- A session id does not start within the mark of one, which has a bracket where the key would
start. -/
theorem not_prefix_sessionMark (hne : key ≠ []) (hk : ∀ c ∈ key, isAsciiAlnum c) :
    ∀ m, m <:+ "sid=[REDACTED]".toList → m ≠ [] →
      ∀ out, ¬ 's' :: 'i' :: 'd' :: '=' :: key <+: m ++ out := by
  have hmark : ∀ m ∈ "sid=[REDACTED]".toList.tails, m.head? = some 's' →
      m = "sid=[REDACTED]".toList := by
    decide
  intro m hs hm out hp
  have hh : m.head? = some 's' := by
    cases m with
    | nil => exact absurd rfl hm
    | cons c m =>
      rw [List.cons_append, List.cons_prefix_cons] at hp
      rw [← hp.1]
      rfl
  rw [hmark m ((List.mem_tails _ _).mpr hs) hh] at hp
  cases key with
  | nil => exact hne rfl
  | cons k key =>
    have hmark : "sid=[REDACTED]".toList = 's' :: 'i' :: 'd' :: '=' :: '[' :: "REDACTED]".toList :=
      rfl
    simp only [hmark, List.cons_append, List.cons_prefix_cons, true_and] at hp
    exact ne_of_class (hk k List.mem_cons_self) (by decide) hp.1

/-- Nothing is left that looks like a credential. -/
theorem not_leaks_withoutCredentials (cs : List Char) : ¬ Leaks (withoutCredentials cs) := by
  rintro ⟨secret, hs, hi⟩
  have hb := hs.not_mem (.inr rfl)
  have hne := hs.ne_nil
  have hsid := fun cs (h : sessionLength cs ≠ 0) => prefix_of_sessionLength_ne_zero h
  cases hs with
  | token hl ho hkey hk =>
    have hall (cs : List Char) (_ : tokenLength cs ≠ 0) : [] <+: cs := List.nil_prefix
    -- Marks of sessions are no part of tokens, so the token is there before sessions are replaced.
    obtain ⟨t, ht, -, hp⟩ :=
      infix_of_infix_replaceFound hsid hne hb (not_prefix_of_not_mem (by decide)) hi
    obtain ⟨u, -, hz, hp⟩ :=
      infix_of_infix_replaceFound hall hne hb (not_prefix_of_not_mem (by decide))
        (hp.isInfix.trans ht.isInfix)
    exact tokenLength_ne_zero hl ho hkey hk hp hz
  | session hl hk =>
    have hkey := List.ne_nil_of_length_pos (Nat.lt_of_lt_of_le (by decide) hl)
    obtain ⟨t, -, hz, hp⟩ :=
      infix_of_infix_replaceFound hsid hne hb (not_prefix_sessionMark hkey hk) hi
    exact sessionLength_ne_zero hl hk hp hz

theorem takeBytes_initial (limit : Nat) (cs : List Char) : takeBytes limit cs <+: cs := by
  induction cs generalizing limit with
  | nil => exact List.nil_prefix
  | cons c cs ih =>
    rw [takeBytes]
    split
    · exact List.cons_prefix_cons.mpr ⟨rfl, ih _⟩
    · exact List.nil_prefix

/-- What is appended to a message that is cut. -/
def cutMark : List Char :=
  "...[truncated]".toList

/-- A text without the mark of a cut at its end. -/
def uncut (cs : List Char) : List Char :=
  if cutMark.isSuffixOf cs then cs.take (cs.length - cutMark.length) else cs

theorem uncut_append_cutMark (cs : List Char) : uncut (cs ++ cutMark) = cs := by
  have h : cutMark.isSuffixOf (cs ++ cutMark) :=
    List.isSuffixOf_iff_suffix.mpr (List.suffix_append cs cutMark)
  rw [uncut, if_pos h, List.length_append, Nat.add_sub_cancel, List.take_left]

theorem uncut_initial (cs : List Char) : uncut cs <+: cs := by
  unfold uncut
  split
  · exact List.take_prefix _ _
  · exact List.prefix_rfl

theorem cutMark_suffix_of_append_blank (h : cutMark <:+ cs ++ ' ' :: ds) : cutMark <:+ ds := by
  have hb : ' ' ∉ cutMark := by decide
  rcases List.suffix_or_suffix_of_suffix h (List.suffix_append cs (' ' :: ds)) with h | h
  · rcases List.suffix_cons_iff.mp h with h | h
    · exact absurd (h ▸ List.mem_cons_self) hb
    · exact h
  · exact absurd (h.subset List.mem_cons_self) hb

/-- The mark of a cut does not reach over a blank. -/
theorem uncut_append_blank (cs ds : List Char) :
    uncut (cs ++ ' ' :: ds) = cs ++ ' ' :: uncut ds := by
  by_cases h : cutMark <:+ ds
  · obtain ⟨ds, rfl⟩ := h
    rw [uncut_append_cutMark, ← List.cons_append, ← List.append_assoc, uncut_append_cutMark]
  · have h' : ¬ cutMark <:+ cs ++ ' ' :: ds := fun h' => h (cutMark_suffix_of_append_blank h')
    rw [uncut, uncut, if_neg, if_neg]
    · rwa [List.isSuffixOf_iff_suffix]
    · rwa [List.isSuffixOf_iff_suffix]

/-- Nothing in a redacted message looks like a credential, apart from the mark of a cut. -/
theorem not_leaks_redact (message : String) : ¬ Leaks (uncut (redact message).toList) := by
  have hw := not_leaks_withoutCredentials message.toList
  intro h
  rw [redact, String.toList_ofList, truncate] at h
  split at h
  · exact hw (h.mono (uncut_initial _).isInfix)
  · change Leaks (uncut (_ ++ cutMark)) at h
    rw [uncut_append_cutMark] at h
    exact hw (h.mono (takeBytes_initial _ _).isInfix)

end OrgClient.Http
