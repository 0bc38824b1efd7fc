import Mathlib.Data.Bool.AllAny
import Mathlib.Data.List.TakeWhile
import OrgClient.Proofs.Http.Redaction

namespace OrgClient.Http

open Text
set_option autoImplicit true

def tokenMark : List Char :=
  "[REDACTED_TOKEN]".toList

def sessionMark : List Char :=
  "sid=[REDACTED]".toList

/-- A text that does not start with a character of a class. -/
def Stops (isIn : Char → Bool) (cs : List Char) : Prop :=
  ∀ c ∈ cs.head?, isIn c = false

/-- A text, and the text with marks in the places of some credentials. No mark is followed by what
its credential could have gone on with. -/
inductive Marked : List Char → List Char → Prop
  | nil : Marked [] []
  | kept (c : Char) (h : Marked cs ds) : Marked (c :: cs) (c :: ds)
  | token (hs : IsCredential ('0' :: secret)) (hd : Stops isTokenChar ds) (h : Marked cs ds) :
    Marked ('0' :: secret ++ cs) (tokenMark ++ ds)
  | session (hs : IsCredential ('s' :: secret)) (hd : Stops isAsciiAlnum ds) (h : Marked cs ds) :
    Marked ('s' :: secret ++ cs) (sessionMark ++ ds)

theorem Marked.eq_of_not_leaks (h : Marked cs ds) (hn : ¬ Leaks cs) : ds = cs := by
  induction h with
  | nil => rfl
  | kept c _ ih => rw [ih fun h => hn (h.mono (List.suffix_cons c _).isInfix)]
  | token hs _ _ _ => exact absurd ⟨_, hs, (List.prefix_append _ _).isInfix⟩ hn
  | session hs _ _ _ => exact absurd ⟨_, hs, (List.prefix_append _ _).isInfix⟩ hn

theorem stops_dropWhile (isIn : Char → Bool) (cs : List Char) : Stops isIn (cs.dropWhile isIn) := by
  intro c hc
  have h := List.head?_dropWhile_not isIn cs
  rw [Option.mem_def.mp hc] at h
  exact h

theorem token_of_tokenLength (h : tokenLength cs ≠ 0) :
    ∃ secret rest, cs = '0' :: secret ++ rest ∧ IsCredential ('0' :: secret) ∧
      Stops isTokenChar rest ∧ tokenLength cs = ('0' :: secret).length := by
  unfold tokenLength at h ⊢
  split at h
  · rename_i cs
    simp only at h ⊢
    split at h
    · rename_i rest hrest
      split at h
      · rename_i hl
        simp only [Bool.and_eq_true, decide_eq_true_eq, Bool.not_eq_true'] at hl
        refine ⟨'0' :: (cs.takeWhile isAsciiAlnum ++ '!' :: rest.takeWhile isTokenChar),
          rest.dropWhile isTokenChar, ?_, ?_, stops_dropWhile _ _, ?_⟩
        · simp [← hrest]
        · apply IsCredential.token hl.1
          · intro c hc
            exact List.mem_takeWhile_imp hc
          · exact List.isEmpty_eq_false_iff.mp hl.2
          · intro c hc
            exact List.mem_takeWhile_imp hc
        · simp [hl]
          omega
      · exact absurd rfl h
    · exact absurd rfl h
  · exact absurd rfl h

theorem session_of_sessionLength (h : sessionLength cs ≠ 0) :
    ∃ secret rest, cs = 's' :: secret ++ rest ∧ IsCredential ('s' :: secret) ∧
      Stops isAsciiAlnum rest ∧ sessionLength cs = ('s' :: secret).length := by
  unfold sessionLength at h ⊢
  split at h
  · rename_i cs
    simp only at h ⊢
    split at h
    · rename_i hl
      refine ⟨'i' :: 'd' :: '=' :: cs.takeWhile isAsciiAlnum, cs.dropWhile isAsciiAlnum, ?_, ?_,
        stops_dropWhile _ _, ?_⟩
      · simp
      · apply IsCredential.session hl
        intro c hc
        exact List.mem_takeWhile_imp hc
      · simp [hl]
        omega
    · exact absurd rfl h
  · exact absurd rfl h

theorem tokenLength_eq_zero (h : c ≠ '0') (cs : List Char) : tokenLength (c :: cs) = 0 := by
  unfold tokenLength
  split
  · rename_i heq
    cases heq
    exact absurd rfl h
  · rfl

theorem sessionLength_eq_zero (h : c ≠ 's') (cs : List Char) : sessionLength (c :: cs) = 0 := by
  unfold sessionLength
  split
  · rename_i heq
    cases heq
    exact absurd rfl h
  · rfl

section Replacing

variable {found : List Char → Nat} {mark : List Char}

theorem replaceFound_skip (n : Nat) (cs : List Char) :
    replaceFound found mark n cs = replaceFound found mark 0 (cs.drop n) := by
  induction cs generalizing n with
  | nil => cases n <;> rfl
  | cons c cs ih =>
    cases n with
    | zero => rfl
    | succ n =>
      rw [replaceFound]
      exact ih n

theorem replaceFound_append (hne : secret ≠ [])
    (h : found (secret ++ rest) = secret.length) :
    replaceFound found mark 0 (secret ++ rest) = mark ++ replaceFound found mark 0 rest := by
  cases secret with
  | nil => exact absurd rfl hne
  | cons c secret =>
    rw [List.cons_append] at h ⊢
    rw [replaceFound_found h, replaceFound_skip, List.drop_left]

theorem replaceFound_pass (h : ∀ c ∈ pre, ∀ cs, found (c :: cs) = 0) (cs : List Char) :
    replaceFound found mark 0 (pre ++ cs) = pre ++ replaceFound found mark 0 cs := by
  induction pre with
  | nil => rfl
  | cons c pre ih =>
    rw [List.forall_mem_cons] at h
    rw [List.cons_append, replaceFound_kept (h.1 _), ih h.2, List.cons_append]

/-- What starts a text behind a replacement and has no character of the mark's start was there
before, and what follows it comes from what followed it. -/
theorem eq_append_of_replaceFound (hx : x ∉ secret)
    (h : replaceFound found (x :: mark) 0 cs = secret ++ rest) :
    ∃ cs', cs = secret ++ cs' ∧ replaceFound found (x :: mark) 0 cs' = rest := by
  induction secret generalizing cs with
  | nil => exact ⟨cs, rfl, h⟩
  | cons d secret ih =>
    rw [List.mem_cons, not_or] at hx
    cases cs with
    | nil => cases h
    | cons c cs =>
      cases hf : found (c :: cs) with
      | zero =>
        rw [replaceFound_kept hf] at h
        obtain ⟨hd, ht⟩ := List.cons_eq_cons.mp h
        obtain ⟨cs', rfl, hr⟩ := ih hx.2 ht
        exact ⟨cs', congrArg (· :: _) hd, hr⟩
      | succ n =>
        rw [replaceFound_found hf] at h
        exact absurd (List.cons.inj h).1 hx.1

end Replacing

def withoutTokens (cs : List Char) : List Char :=
  replaceFound tokenLength tokenMark 0 cs

def withoutSessions (cs : List Char) : List Char :=
  replaceFound sessionLength sessionMark 0 cs

theorem withoutCredentials_eq (cs : List Char) :
    withoutCredentials cs = withoutSessions (withoutTokens cs) :=
  rfl

theorem stops_withoutTokens (h : Stops isTokenChar cs) : Stops isTokenChar (withoutTokens cs) := by
  cases cs with
  | nil => exact h
  | cons c cs =>
    have hz : isTokenChar '0' = true := rfl
    have hc : '0' ≠ c := ne_of_class hz (h c rfl)
    rw [withoutTokens, replaceFound_kept (tokenLength_eq_zero hc.symm cs)]
    exact h

theorem stops_withoutSessions (hs : isIn 's' = true) (h : Stops isIn cs) :
    Stops isIn (withoutSessions cs) := by
  cases cs with
  | nil => exact h
  | cons c cs =>
    have hc : 's' ≠ c := ne_of_class hs (h c rfl)
    rw [withoutSessions, replaceFound_kept (sessionLength_eq_zero hc.symm cs)]
    exact h

theorem withoutCredentials_token
    (hs : tokenLength ('0' :: secret ++ rest) = ('0' :: secret).length) :
    withoutCredentials ('0' :: secret ++ rest) = tokenMark ++ withoutCredentials rest := by
  have hm : ∀ c ∈ tokenMark, c ≠ 's' := List.all_iff_forall_prop.mp (by decide)
  rw [withoutCredentials_eq, withoutTokens, replaceFound_append (List.cons_ne_nil _ _) hs,
    withoutSessions, replaceFound_pass fun c hc cs => sessionLength_eq_zero (hm c hc) cs]
  rfl

/-- A session id that is found when the tokens are replaced was there before. -/
theorem withoutCredentials_session (hb : '[' ∉ 's' :: secret)
    (ht : withoutTokens cs = 's' :: secret ++ rest)
    (hs : sessionLength ('s' :: secret ++ rest) = ('s' :: secret).length) :
    ∃ cs', cs = 's' :: secret ++ cs' ∧ withoutTokens cs' = rest ∧
      withoutCredentials cs = sessionMark ++ withoutCredentials cs' := by
  have hf : replaceFound tokenLength ('[' :: "REDACTED_TOKEN]".toList) 0 cs =
      's' :: secret ++ rest := ht
  obtain ⟨cs', rfl, hrest⟩ := eq_append_of_replaceFound hb hf
  refine ⟨cs', rfl, hrest, ?_⟩
  rw [withoutCredentials_eq, ht, withoutSessions, replaceFound_append (List.cons_ne_nil _ _) hs,
    withoutCredentials_eq]
  exact congrArg (fun cs => sessionMark ++ withoutSessions cs) hrest.symm

/-- Nothing but credentials gives way to marks. -/
theorem marked_withoutCredentials (cs : List Char) : Marked cs (withoutCredentials cs) := by
  match cs with
  | [] => exact .nil
  | c :: cs =>
    by_cases ht : tokenLength (c :: cs) = 0
    · have hk : withoutTokens (c :: cs) = c :: withoutTokens cs := replaceFound_kept ht _
      by_cases hs : sessionLength (c :: withoutTokens cs) = 0
      · rw [withoutCredentials_eq, hk, withoutSessions, replaceFound_kept hs]
        exact .kept c (marked_withoutCredentials cs)
      · obtain ⟨secret, rest, he, hc, hd, hl⟩ := session_of_sessionLength hs
        obtain ⟨cs', hcs, hrest, hw⟩ :=
          withoutCredentials_session (hc.not_mem (.inr rfl)) (hk.trans he) (he ▸ hl)
        have hlt : cs'.length < cs.length + 1 := by
          have := congrArg List.length hcs
          simp only [List.length_cons, List.length_append] at this
          omega
        rw [hw, hcs]
        apply Marked.session hc
        · rw [withoutCredentials_eq, hrest]
          exact stops_withoutSessions rfl hd
        · exact marked_withoutCredentials cs'
    · obtain ⟨secret, rest, he, hc, hd, hl⟩ := token_of_tokenLength ht
      have hlt : rest.length < cs.length + 1 := by
        have := congrArg List.length he
        simp only [List.length_cons, List.length_append] at this
        omega
      rw [he] at hl ⊢
      rw [withoutCredentials_token hl]
      apply Marked.token hc
      · exact stops_withoutSessions rfl (stops_withoutTokens hd)
      · exact marked_withoutCredentials rest
termination_by cs.length

example : withoutCredentials "sid=00abcdefghijklmnopqrstuv!k sid".toList =
    "sid=[REDACTED_TOKEN] sid".toList := by
  decide

/-- A redacted message is the message with marks in the places of credentials. If it is too long, it
is cut and says so. What is kept of it has no credential in it, and nothing of a message without
credentials is changed as long as it is short enough. -/
theorem redact_marks_credentials (message : String) :
    (∃ body kept, Marked message.toList body ∧ kept <+: body ∧ ¬ Leaks kept ∧
      ((String.ofList body).utf8ByteSize ≤ maxMessageBytes ∧ kept = body ∧
          (redact message).toList = kept ∨
        maxMessageBytes < (String.ofList body).utf8ByteSize ∧
          (redact message).toList = kept ++ cutMark)) ∧
      (¬ Leaks message.toList → message.utf8ByteSize ≤ maxMessageBytes →
        redact message = message) := by
  have hm := marked_withoutCredentials message.toList
  have hn := not_leaks_withoutCredentials message.toList
  constructor
  · by_cases hl : (String.ofList (withoutCredentials message.toList)).utf8ByteSize ≤ maxMessageBytes
    · refine ⟨_, _, hm, List.prefix_rfl, hn, .inl ⟨hl, rfl, ?_⟩⟩
      rw [redact, String.toList_ofList, truncate, if_pos hl]
    · have hp := takeBytes_initial maxMessageBytes (withoutCredentials message.toList)
      refine ⟨_, _, hm, hp, fun h => hn (h.mono hp.isInfix), .inr ⟨Nat.lt_of_not_le hl, ?_⟩⟩
      rw [redact, String.toList_ofList, truncate, if_neg hl]
      rfl
  · intro hc hl
    rw [redact, hm.eq_of_not_leaks hc, truncate, String.ofList_toList, if_pos hl,
      String.ofList_toList]

theorem plainMessage_kept :
    ¬ Leaks "Session expired or invalid".toList ∧
      "Session expired or invalid".utf8ByteSize ≤ maxMessageBytes ∧
      redact "Session expired or invalid" = "Session expired or invalid" := by
  have hn : ¬ Leaks "Session expired or invalid".toList :=
    not_leaks_of_plain (List.all_iff_forall_prop.mp (by decide))
  have hl : "Session expired or invalid".utf8ByteSize ≤ maxMessageBytes := by decide
  exact ⟨hn, hl, (redact_marks_credentials _).2 hn hl⟩

end OrgClient.Http
