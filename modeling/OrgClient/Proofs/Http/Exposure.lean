import OrgClient.Error
import OrgClient.Proofs.Http.Redaction
import OrgClient.Proofs.Http.Refusal
import OrgClient.Proofs.Number.Figure

namespace OrgClient

open Number
set_option autoImplicit true

namespace Http

/-- What a fault says of itself. -/
def Fault.explanation? : Fault → Option String
  | .http _ text | .authentication text | .authorization text | .notFound text | .connection text
  | .json text | .invalidUrl text | .config text | .api _ text _ | .other text => some text
  | .rateLimited _ | .timeout => none

def Fault.errorCode? : Fault → Option String
  | .api errorCode _ _ => some errorCode
  | _ => none

def Fault.fields : Fault → List String
  | .api _ _ fields => fields
  | _ => []

/-- All texts of an error: its message, and those of its fault. -/
def Error.texts (e : Error) : List String :=
  e.message :: (e.fault.explanation?.toList ++ e.fault.errorCode?.toList ++ e.fault.fields)

/-- A text with a credential in it, apart from the mark of a cut at its end. -/
def Exposes (text : String) : Prop :=
  Leaks (uncut text.toList)

theorem Exposes.leaks (h : Exposes text) : Leaks text.toList :=
  h.mono (uncut_initial text.toList).isInfix

/-- A text without the signs of which each credential has one. -/
def Plain (text : String) : Prop :=
  ∀ c ∈ text.toList, c ≠ '!' ∧ c ≠ '='

instance : DecidablePred Plain :=
  fun text => List.decidableBAll (fun c => c ≠ '!' ∧ c ≠ '=') text.toList

namespace Plain

theorem append (h : Plain s) (h' : Plain t) : Plain (s ++ t) := by
  rw [Plain, String.toList_append]
  exact List.forall_mem_append.mpr ⟨h, h'⟩

theorem of_figures (h : Figures s.toList) : Plain s := by
  intro c hc
  have hf := h.figures c hc
  constructor <;> (rintro rfl; exact absurd hf (by decide))

theorem fractionText (millis : Nat) : Plain (fractionText millis) := by
  have hp := of_figures (.padded 3 millis)
  rw [Plain, Http.fractionText, String.toList_ofList]
  refine List.forall_mem_cons.mpr ⟨by decide, fun c hc => hp c ?_⟩
  rw [Text.dropEndWhile, List.mem_reverse] at hc
  exact List.mem_reverse.mp ((List.dropWhile_sublist _).subset hc)

theorem durationText (millis : Nat) : Plain (durationText millis) := by
  unfold Http.durationText
  split
  · decide
  · split
    · exact .append (.of_figures (.natText millis)) (by decide)
    · refine .append (.append (.of_figures (.natText _)) ?_) (by decide)
      split
      · decide
      · exact .fractionText _

theorem not_exposes (h : Plain text) : ¬ Exposes text :=
  fun he => not_leaks_of_plain h he.leaks

end Plain

theorem not_exposes_redact (message : String) : ¬ Exposes (redact message) :=
  not_leaks_redact message

/-- Behind a blank, a text exposes what it would expose alone. -/
theorem exposes_append_iff (h : s.toList.getLast? = some ' ') :
    Exposes (s ++ t) ↔ Leaks s.toList ∨ Exposes t := by
  obtain ⟨cs, hcs⟩ := List.getLast?_eq_some_iff.mp h
  have hn : ¬ Leaks [] := not_leaks_of_plain nofun
  rw [Exposes, Exposes, String.toList_append, hcs, List.append_assoc, List.singleton_append,
    uncut_append_blank, leaks_append_blank_iff, leaks_append_blank_iff, or_iff_left hn]

/-- What a message starts with: plain text up to a blank. -/
structure Label (text : String) : Prop where
  plain : Plain text
  blank : text.toList.getLast? = some ' '

instance : DecidablePred Label :=
  fun text =>
    decidable_of_iff (Plain text ∧ text.toList.getLast? = some ' ')
      ⟨fun h => ⟨h.1, h.2⟩, fun h => ⟨h.plain, h.blank⟩⟩

theorem getLast?_append_blank (s : String) (h : t.toList.getLast? = some ' ') :
    (s ++ t).toList.getLast? = some ' ' := by
  rw [String.toList_append, List.getLast?_append, h, Option.some_or]

theorem Label.exposes_iff (h : Label s) : Exposes (s ++ t) ↔ Exposes t := by
  rw [exposes_append_iff h.blank, or_iff_right (not_leaks_of_plain h.plain)]

theorem statusLabel (status : Nat) : Label ("HTTP error: " ++ natText status ++ " ") :=
  ⟨.append (.append (by decide) (.of_figures (.natText status))) (by decide),
    getLast?_append_blank _ rfl⟩

/-- The message of a complaint shows its code between blanks. -/
theorem exposes_complaint_iff (errorCode text : String) :
    Exposes ("Salesforce API error: " ++ errorCode ++ " - " ++ text) ↔
      Leaks errorCode.toList ∨ Exposes text := by
  have hs : "Salesforce API error: ".toList = "Salesforce API error:".toList ++ [' '] := by decide
  have hd : " - ".toList = ' ' :: "- ".toList := by decide
  have hl : Plain "Salesforce API error:" := by decide
  have hr : Plain "- " := by decide
  rw [exposes_append_iff (getLast?_append_blank _ rfl), String.toList_append,
    String.toList_append, hs, hd, List.append_assoc, List.append_assoc, List.singleton_append,
    leaks_append_blank_iff, leaks_append_blank_iff, or_iff_right (not_leaks_of_plain hl),
    or_iff_left (not_leaks_of_plain hr)]

/-- The message of an error exposes what its explanation does, and the code of a complaint. -/
theorem Fault.exposes_message_iff (f : Fault) :
    Exposes f.message ↔
      (∃ t ∈ f.explanation?, Exposes t) ∨ ∃ code ∈ f.errorCode?, Leaks code.toList := by
  -- Apart from complaints, messages are a label and the explanation, or say nothing of the answer.
  have labelled {label text : String} (h : Label label) :
      Exposes (label ++ text) ↔
        (∃ t ∈ some text, Exposes t) ∨ ∃ code ∈ (none : Option String), Leaks code.toList := by
    simp [h.exposes_iff]
  have plain {text : String} (h : Plain text) :
      Exposes text ↔ (∃ t ∈ (none : Option String), Exposes t) ∨
        ∃ code ∈ (none : Option String), Leaks code.toList := by
    simp [h.not_exposes]
  cases f with
  | http status text => exact labelled (statusLabel status)
  | rateLimited retryAfter =>
    cases retryAfter with
    | none => exact plain (by decide)
    | some millis => exact plain (.append (by decide) (.durationText millis))
  | authentication text => exact labelled (by decide)
  | authorization text => exact labelled (by decide)
  | notFound text => exact labelled (by decide)
  | timeout => exact plain (by decide)
  | connection text => exact labelled (by decide)
  | json text => exact labelled (by decide)
  | invalidUrl text => exact labelled (by decide)
  | config text => exact labelled (by decide)
  | api errorCode text fields =>
    refine (exposes_complaint_iff errorCode text).trans ?_
    simp only [explanation?, errorCode?, Option.mem_some_iff, exists_eq_left', or_comm]
  | other text =>
    change Exposes text ↔ _
    simp [explanation?, errorCode?]

theorem Error.exposes_iff (e : Error) :
    (∃ t ∈ e.texts, Exposes t) ↔
      Exposes e.message ∨ ∃ t ∈ e.fault.fields, Exposes t := by
  have hm := e.fault.exposes_message_iff
  rw [texts, List.exists_mem_cons_iff]
  constructor
  · rintro (h | ⟨t, ht, h⟩)
    · exact .inl h
    · rw [List.mem_append, List.mem_append, Option.mem_toList, Option.mem_toList] at ht
      rcases ht with (ht | ht) | ht
      · exact .inl (hm.mpr (.inl ⟨t, ht, h⟩))
      · exact .inl (hm.mpr (.inr ⟨t, ht, h.leaks⟩))
      · exact .inr ⟨t, ht, h⟩
  · rintro (h | ⟨t, ht, h⟩)
    · exact .inl h
    · exact .inr ⟨t, List.mem_append_right _ ht, h⟩

end Http

/-- The texts of a fault. -/
def Fault.texts : Fault → List String
  | .transport text | .query text | .invalidName text | .invalidRecordId _ text
  | .missingExternalId _ text | .serialization text | .other text => [text]
  | .invalidExternalIdField table field => [table, field]
  | .batchTooLarge .. | .missingRecordId _ | .resultCountMismatch .. => []

/-- All texts of an error: its message, and those of its fault. -/
def Error.texts (e : Error) : List String :=
  e.message :: e.fault.texts

namespace Http

theorem exposes_ofHttp_iff (e : Error) :
    (∃ t ∈ (OrgClient.Error.ofHttp e).texts, Exposes t) ↔ Exposes e.message := by
  have hm : Exposes (OrgClient.Error.ofHttp e).message ↔ Exposes e.message :=
    Label.exposes_iff (by decide)
  rw [OrgClient.Error.texts, List.exists_mem_cons_iff, hm]
  simp [OrgClient.Error.ofHttp, OrgClient.Fault.texts]

/-- A raw body goes into a message redacted. -/
theorem not_exposes_message_statusFault (status : Nat) (body : String) :
    ¬ Exposes (statusFault status (redact body)).message := by
  have ht : (statusFault status (redact body)).explanation? = some (redact body) ∧
      (statusFault status (redact body)).errorCode? = none := by
    unfold statusFault
    split <;> exact ⟨rfl, rfl⟩
  rw [Fault.exposes_message_iff, ht.1, ht.2]
  rintro (⟨t, h, hx⟩ | ⟨code, h, -⟩)
  · rw [← Option.some.inj h] at hx
    exact not_exposes_redact body hx
  · cases h

theorem exposes_message_api_iff (errorCode message : String) (fields : List String) :
    Exposes (Fault.api errorCode (redact message) fields).message ↔ Leaks errorCode.toList :=
  (exposes_complaint_iff errorCode (redact message)).trans
    (or_iff_left (not_exposes_redact message))

section

variable (status : Nat) (retryAfter : Option Nat) (body : String)

/-- What is true of the fault neither for a limit nor for a raw body is true of it only because of
what the body complains of. -/
theorem refusal_fault_iff {P : Fault → Prop} (hl : ¬ P (.rateLimited retryAfter))
    (hs : ¬ P (statusFault status (redact body))) :
    P (refusal status retryAfter body).fault ↔ status ≠ 429 ∧ ∃ c, Complaint.Tells body c ∧
      P (.api c.errorCode (redact c.message) (c.fields.getD [])) := by
  rcases refusal_cases status retryAfter body with ⟨h, he⟩ | ⟨h, c, hc, he⟩ | ⟨h, hc, he⟩
  · rw [he]
    exact ⟨fun hp => absurd hp hl, fun hp => absurd h hp.1⟩
  · rw [he]
    constructor
    · intro hp
      exact ⟨h, c, hc, hp⟩
    · rintro ⟨-, c', hc', hp⟩
      rwa [hc'.unique hc] at hp
  · rw [he]
    exact ⟨fun hp => absurd hp hs, fun ⟨_, c, hc', _⟩ => absurd ⟨c, hc'⟩ hc⟩

/-- Credentials in the texts of a response's error are from the code and the fields of the
complaint that its body tells of. Of the texts of errors about records, only the code has them. -/
theorem refusal_exposes_iff :
    ((∃ t ∈ (refusal status retryAfter body).texts, Exposes t) ↔
      status ≠ 429 ∧ ∃ c, Complaint.Tells body c ∧
        (Leaks c.errorCode.toList ∨ ∃ t ∈ c.fields.getD [], Exposes t)) ∧
    ((∃ t ∈ (OrgClient.Error.ofHttp (refusal status retryAfter body)).texts, Exposes t) ↔
      status ≠ 429 ∧ ∃ c, Complaint.Tells body c ∧ Leaks c.errorCode.toList) := by
  have hl : ¬ Exposes (Fault.rateLimited retryAfter).message := by
    rw [Fault.exposes_message_iff]
    rintro (⟨_, h, -⟩ | ⟨_, h, -⟩) <;> cases h
  have hs := not_exposes_message_statusFault status body
  have hf : (statusFault status (redact body)).fields = [] := by
    unfold statusFault
    split <;> rfl
  have hm := refusal_fault_iff status retryAfter body (P := fun f => Exposes f.message) hl hs
  have hd := refusal_fault_iff status retryAfter body
    (P := fun f => Exposes f.message ∨ ∃ t ∈ f.fields, Exposes t)
    (by simp [hl, Fault.fields]) (by simp [hs, hf])
  simp only [exposes_message_api_iff] at hm hd
  rw [Error.exposes_iff, exposes_ofHttp_iff]
  exact ⟨hd, hm⟩

end

/-- What looks like an access token. -/
def someToken : String :=
  "00Dxx0000001gEF!AQ.key_1"

/-- An answer with a token in the message of a complaint, and in its code. -/
def tokenTwice : String :=
  "[\x7b\"message\":\"" ++ someToken ++ "\",\"errorCode\":\"" ++ someToken ++ "\"\x7d]"

theorem exposes_someToken : Exposes someToken := by
  have h : IsCredential ('0' :: '0' :: ("Dxx0000001gEF".toList ++ '!' :: "AQ.key_1".toList)) :=
    .token (by decide) (List.all_eq_true.mp rfl) (by decide) (List.all_eq_true.mp rfl)
  exact ⟨_, h, List.infix_rfl⟩

/-- The token is redacted in the message only. -/
theorem refusal_tokenTwice :
    refusal 400 none tokenTwice = .of (.api someToken "[REDACTED_TOKEN]" []) := by
  decide +kernel

theorem tokenTwice_exposed :
    (∃ t ∈ (refusal 400 none tokenTwice).texts, Exposes t) ∧
      ∃ t ∈ (OrgClient.Error.ofHttp (refusal 400 none tokenTwice)).texts, Exposes t := by
  rw [exposes_ofHttp_iff, Error.message, Fault.exposes_message_iff, refusal_tokenTwice]
  constructor
  · refine ⟨someToken, ?_, exposes_someToken⟩
    exact .tail _ (.tail _ (.head _))
  · exact .inr ⟨someToken, rfl, exposes_someToken.leaks⟩

end Http

end OrgClient
