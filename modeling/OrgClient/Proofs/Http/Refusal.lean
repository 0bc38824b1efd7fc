import OrgClient.Http.Response

namespace OrgClient.Http

set_option autoImplicit true

namespace Complaint

/-- A body that tells of a complaint: it is one, or a list of complaints that starts with one. -/
inductive Tells (body : String) (c : Complaint) : Prop
  | alone (h : Json.decodeText? decode body = some c)
  | first (h : Json.decodeText? (.list decode) body = some (c :: cs))

theorem string_eq_none (h : ∀ s, d ≠ .str s) : Json.Decoder.string d = none := by
  unfold Json.Decoder.string
  split
  · exact absurd rfl (h _)
  · rfl

/-- A complaint whose members are given by position starts with a string. -/
theorem decode_arr_cons (h : ∀ s, item ≠ .str s) (items : List Json.Document) :
    decode (.arr (item :: items)) = none := by
  have he (f : Json.Fields) (hf : f.entries.lookup "errorCode" = some item) :
      f.required "errorCode" .string = none := by
    rw [Json.Fields.required, hf]
    exact string_eq_none h
  unfold decode Json.Fields.read?
  dsimp only
  split
  · dsimp only [Option.bind_eq_bind, Option.bind_some]
    rw [he _ rfl]
    rfl
  · rfl

/-- A list of complaints is not a complaint as well. -/
theorem decode_eq_none_of_list (h : Json.Decoder.list decode d = some (c :: cs)) :
    decode d = none := by
  unfold Json.Decoder.list at h
  split at h
  · rename_i items
    cases items with
    | nil => cases h
    | cons item items =>
      rw [List.mapM_cons] at h
      obtain ⟨c', hc, -⟩ := Option.bind_eq_some_iff.mp h
      apply decode_arr_cons
      rintro s rfl
      cases hc
  · cases h

theorem decodeText?_list_head (h : Json.decodeText? decode body = some c) :
    (Json.decodeText? (.list decode) body).bind List.head? = none := by
  obtain ⟨d, hd, hc⟩ := Option.bind_eq_some_iff.mp h
  rw [Json.decodeText?, hd, Option.bind_some]
  cases hl : Json.Decoder.list decode d with
  | none => rfl
  | some cs =>
    cases cs with
    | nil => rfl
    | cons c' cs =>
      rw [decode_eq_none_of_list hl] at hc
      cases hc

theorem first?_eq_some_iff : first? body = some c ↔ Tells body c := by
  rw [first?, Option.orElse_eq_orElse, Option.orElse_eq_or, Option.or_eq_some_iff]
  constructor
  · rintro (h | ⟨-, h⟩)
    · obtain ⟨cs, hl, hc⟩ := Option.bind_eq_some_iff.mp h
      obtain ⟨cs, rfl⟩ := List.head?_eq_some_iff.mp hc
      exact .first hl
    · exact .alone h
  · rintro (h | h)
    · exact .inr ⟨decodeText?_list_head h, h⟩
    · left
      rw [h]
      rfl

/-- A body tells of one complaint at most. -/
theorem Tells.unique (h : Tells body c) (h' : Tells body c') : c = c' :=
  Option.some.inj ((first?_eq_some_iff.mpr h).symm.trans (first?_eq_some_iff.mpr h'))

theorem first?_eq_none_iff : first? body = none ↔ ¬ ∃ c, Tells body c := by
  rw [Option.eq_none_iff_forall_ne_some, not_exists]
  simp only [ne_eq, first?_eq_some_iff]

end Complaint

/-- The fault of a response that tells of no complaint. -/
def statusFault (status : Nat) (text : String) : Fault :=
  match status with
  | 401 => .authentication text
  | 403 => .authorization text
  | 404 => .notFound text
  | _ => .http status text

theorem refusal_eq (status : Nat) (retryAfter : Option Nat) (body : String) :
    refusal status retryAfter body =
      if status = 429 then .of (.rateLimited retryAfter)
      else
        match Complaint.first? body with
        | some c => .of (.api c.errorCode (redact c.message) (c.fields.getD []))
        | none => .of (statusFault status (redact body)) := by
  rfl

/-- Where the errors of responses come from. -/
theorem refusal_cases (status : Nat) (retryAfter : Option Nat) (body : String) :
    (status = 429 ∧ refusal status retryAfter body = .of (.rateLimited retryAfter)) ∨
    (status ≠ 429 ∧ ∃ c, Complaint.Tells body c ∧ refusal status retryAfter body =
      .of (.api c.errorCode (redact c.message) (c.fields.getD []))) ∨
    (status ≠ 429 ∧ (¬ ∃ c, Complaint.Tells body c) ∧
      refusal status retryAfter body = .of (statusFault status (redact body))) := by
  rw [refusal_eq]
  split
  · exact .inl ⟨‹_›, rfl⟩
  · right
    cases hc : Complaint.first? body with
    | some c => exact .inl ⟨‹_›, c, Complaint.first?_eq_some_iff.mp hc, rfl⟩
    | none => exact .inr ⟨‹_›, Complaint.first?_eq_none_iff.mp hc, rfl⟩

theorem status?_statusFault (status : Nat) (text : String) :
    (Error.of (statusFault status text)).status? = some status := by
  unfold statusFault
  split <;> rfl

theorem isAuthentication_statusFault_iff (status : Nat) (text : String) :
    (Error.of (statusFault status text)).isAuthentication ↔ status = 401 := by
  unfold statusFault
  split
  · exact ⟨fun _ => rfl, fun _ => rfl⟩
  · exact ⟨nofun, nofun⟩
  · exact ⟨nofun, nofun⟩
  · exact ⟨nofun, fun h => absurd h ‹_›⟩

theorem isRateLimited_statusFault (status : Nat) (text : String) :
    (Error.of (statusFault status text)).isRateLimited = false := by
  unfold statusFault
  split <;> rfl

/-- What callers learn from the error of a response. A limit is told of exactly for the status of
one, with the time to wait. Of the other statuses nothing is known if the body tells of a complaint,
not even that the org did not accept who asked. -/
structure Error.Answers (e : Error) (status : Nat) (retryAfter : Option Nat) (body : String) :
    Prop where
  status_iff : e.status? = some status ↔ status = 429 ∨ ¬ ∃ c, Complaint.Tells body c
  status_eq : ∀ n ∈ e.status?, n = status
  limited_iff : e.isRateLimited ↔ status = 429
  wait : status = 429 → e.retryAfter? = retryAfter
  authentication_iff : e.isAuthentication ↔ status = 401 ∧ ¬ ∃ c, Complaint.Tells body c

theorem Error.Answers.rateLimited (retryAfter : Option Nat) (body : String) :
    (Error.of (.rateLimited retryAfter)).Answers 429 retryAfter body where
  status_iff := ⟨fun _ => .inl rfl, fun _ => rfl⟩
  status_eq _ h := (Option.some.inj h).symm
  limited_iff := ⟨fun _ => rfl, fun _ => rfl⟩
  wait _ := rfl
  authentication_iff := ⟨nofun, nofun⟩

theorem Error.Answers.api (hs : status ≠ 429) (hc : Complaint.Tells body c)
    (retryAfter : Option Nat) (text : String) :
    (Error.of (.api c.errorCode text fields)).Answers status retryAfter body where
  status_iff := ⟨nofun, fun h => (h.elim hs (absurd ⟨c, hc⟩)).elim⟩
  status_eq := nofun
  limited_iff := ⟨nofun, fun h => absurd h hs⟩
  wait h := absurd h hs
  authentication_iff := ⟨nofun, fun h => absurd ⟨c, hc⟩ h.2⟩

theorem Error.Answers.raw (hs : status ≠ 429) (hc : ¬ ∃ c, Complaint.Tells body c)
    (retryAfter : Option Nat) (text : String) :
    (Error.of (statusFault status text)).Answers status retryAfter body where
  status_iff := ⟨fun _ => .inr hc, fun _ => status?_statusFault status text⟩
  status_eq n h := by
    rw [status?_statusFault] at h
    exact (Option.some.inj h).symm
  limited_iff := by
    rw [isRateLimited_statusFault]
    exact ⟨nofun, fun h => absurd h hs⟩
  wait h := absurd h hs
  authentication_iff := by
    rw [isAuthentication_statusFault_iff]
    exact ⟨fun h => ⟨h, hc⟩, fun h => h.1⟩

/-- The status of a response is kept by its error unless its body tells of a complaint. -/
theorem refusal_keeps_status_iff (status : Nat) (retryAfter : Option Nat) (body : String) :
    (refusal status retryAfter body).Answers status retryAfter body := by
  rcases refusal_cases status retryAfter body with ⟨rfl, he⟩ | ⟨hs, c, hc, he⟩ | ⟨hs, hc, he⟩
  · rw [he]
    exact .rateLimited retryAfter body
  · rw [he]
    exact .api hs hc retryAfter (redact c.message)
  · rw [he]
    exact .raw hs hc retryAfter (redact body)

/-- An answer to a request whose token has expired. -/
def expired : String :=
  "[\x7b\"message\":\"Session expired or invalid\",\"errorCode\":\"INVALID_SESSION_ID\"\x7d]"

theorem expired_has_no_status :
    (refusal 401 none expired).status? = none ∧
      (refusal 401 none expired).isAuthentication = false := by
  decide +kernel

end OrgClient.Http
