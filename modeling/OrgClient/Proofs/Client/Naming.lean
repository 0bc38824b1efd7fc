import OrgClient.Client.Resource
import OrgClient.Proofs.Client.Asking
import OrgClient.Proofs.Client.Sending
import OrgClient.Proofs.Url.Segment

namespace OrgClient

open Http (Exchange Network Request Session)
open Text
set_option autoImplicit true

namespace Connection

/-- An ASCII letter, and behind it ASCII letters, digits and underscores. -/
def IsApiName (name : String) : Prop :=
  ∃ c cs, name.toList = c :: cs ∧ c.isAlpha ∧ ∀ d ∈ cs, d.isAlpha ∨ d.isDigit ∨ d = '_'

theorem isName_iff : isName name = true ↔ IsApiName name := by
  rw [isName]
  constructor
  · intro h
    cases hn : name.toList with
    | nil =>
      rw [hn] at h
      cases h
    | cons c cs =>
      rw [hn, isNameChars, Bool.and_eq_true, List.all_eq_true] at h
      refine ⟨c, cs, hn, h.1, fun d hd => ?_⟩
      simpa [isNameChar, isAsciiAlnum, or_assoc] using h.2 d hd
  · rintro ⟨c, cs, hn, hc, hcs⟩
    rw [hn, isNameChars, Bool.and_eq_true, List.all_eq_true]
    refine ⟨hc, fun d hd => ?_⟩
    simpa [isNameChar, isAsciiAlnum, or_assoc] using hcs d hd

/-- The calls that put a name into the URL they ask for. -/
inductive Naming : Type 1 where
  | table
  | action {ι : Type} [Json.Serialize ι] (inputs : List ι)

namespace Naming

/-- What a name makes of the URL of the REST API. -/
def path (name : String) : Naming → String
  | table => "/sobjects/" ++ name ++ "/describe"
  | action _ => "/actions/custom/apex/" ++ name

theorem path_table (name : String) : path name table = "/sobjects/" ++ name ++ "/describe" :=
  rfl

theorem path_action [Json.Serialize ι] (name : String) (inputs : List ι) :
    path name (action inputs) = "/actions/custom/apex/" ++ name :=
  rfl

def segments (name : String) : Naming → List String
  | table => ["sobjects", name, "describe"]
  | action _ => ["actions", "custom", "apex", name]

def url (c : Connection) (name : String) (n : Naming) : String :=
  c.instanceUrl ++ "/services/data/v" ++ c.version ++ n.path name

/-- The URL that is asked for, if it can be read. -/
def target (c : Connection) (name : String) (n : Naming) : Except Http.Error Url :=
  (Url.parse (n.url c name)).mapError fun d => .causedBy (.invalidUrl d.message)

/-- The request of a call, unless an input has no form in JSON. -/
def request (c : Connection) (name : String) (n : Naming) : Except Http.Error Request :=
  match n with
  | table => .ok (c.request .get (n.url c name))
  | action inputs =>
    ((Org.actionInputs inputs).mapError fun text => Http.Error.causedBy (.json text)).map
      (c.request .post (n.url c name)).json

/-- How a call has ended: whether it failed, and the network behind it. -/
def ended (c : Connection) (name : String) (s : Session) : Naming → Except Error Unit × Network
  | table => (c.describeTable name).ended s
  | action inputs => (c.invoke name inputs).ended s

/-- A call is refused, and hands nothing over, if what it is given is no name. For a name it hands
over its request, if there is one. -/
structure Calls (n : Naming) (c : Connection) (name : String) (s : Session) : Prop where
  refused : ¬ IsApiName name →
    n.ended c name s = (.error (.of (.invalidName name)), s.network)
  accepted : IsApiName name → ∀ text, (n.ended c name s).1 ≠ .error (.of (.invalidName text))
  unwritten : IsApiName name → ∀ e, n.request c name = .error e →
    n.ended c name s = (.error (.ofHttp e), s.network)
  handed : IsApiName name → ∀ r, n.request c name = .ok r →
    (n.ended c name s).2.handed = s.network.handed ++ [r] ∧
      ∃ e : Exchange, e.request = r ∧ (∃ o, e.Ends c.config o) ∧
        (n.ended c name s).2.log = s.network.log ++ e.entries

theorem url_of_request {n : Naming} (h : n.request c name = .ok r) : r.url = n.url c name := by
  cases n with
  | table =>
    cases h
    rfl
  | action inputs =>
    obtain ⟨body, -, rfl⟩ := map_eq_ok_iff.mp h
    rfl

theorem target_of_request {n : Naming} (h : n.request c name = .ok r) :
    r.target = n.target c name := by
  have hp : r.pairs = [] := by
    cases n with
    | table =>
      cases h
      rfl
    | action inputs =>
      obtain ⟨body, -, rfl⟩ := map_eq_ok_iff.mp h
      rfl
  rw [Request.target, target, hp, url_of_request h]
  cases Url.parse (n.url c name) <;> rfl

theorem ended_of_not_name (h : ¬ isName name) (call : Http.Call β) (s : Session) :
    Work.ended (do checkName name; .ofCall call : Work β) s =
      (.error (.of (.invalidName name)), s.network) := by
  rw [Work.ended, run_bind_state, run_liftM_except, checkName, if_neg h]
  rfl

theorem ended_of_name (h : isName name) (call : Http.Call β) (s : Session) :
    Work.ended (do checkName name; .ofCall call : Work β) s = (Work.ofCall call).ended s := by
  rw [Work.ended, run_bind_state, run_liftM_except, checkName, if_pos h]
  rfl

theorem restUrl_eq (c : Connection) {path : String} (hs : isResource cs)
    (hp : path.toList = cs ++ ds) :
    c.restUrl path = c.instanceUrl ++ "/services/data/v" ++ c.version ++ ("/" ++ path) := by
  have hd : dropStart '/' path = path :=
    String.toList_inj.mp ((dropStart_slash hs hp).trans hp.symm)
  rw [restUrl, hd, String.append_assoc]

theorem restUrl_table (c : Connection) (name : String) :
    c.restUrl ("sobjects/" ++ name ++ "/describe") = table.url c name := by
  have hp : ("sobjects/" ++ name ++ "/describe").toList =
      "sobjects/".toList ++ (name ++ "/describe").toList := by
    simp
  have hs : "/sobjects/" = "/" ++ "sobjects/" := rfl
  rw [restUrl_eq c (by decide) hp, url, path_table, hs]
  simp only [String.append_assoc]

theorem restUrl_action [Json.Serialize ι] (c : Connection) (name : String) (inputs : List ι) :
    c.restUrl ("actions/custom/apex/" ++ name) = (action inputs).url c name := by
  have hs : "/actions/custom/apex/" = "/" ++ "actions/custom/apex/" := rfl
  rw [restUrl_eq c (by decide) String.toList_append, url, path_action, hs]
  simp only [String.append_assoc]

section Spelled

variable {c : Connection} (hs : IsSpelledOut c.instanceUrl)
  (hl : c.instanceUrl.toList.getLast? ≠ some '/')

include hs hl

/-- A call checks its name, and then sends its request if there is one. -/
theorem ended_eq (n : Naming) (name : String) : ∃ (β : Type) (d : Json.Decoder β), ∀ s,
    n.ended c name s = Work.ended (do
      checkName name
      .ofCall (do c.sendJson d (← n.request c name)) : Work β) s := by
  have hu : ∀ path, c.url (c.restUrl path) = c.restUrl path := fun path =>
    url_of_isSpelledOut c ((isSpelledOut_restUrl_iff hl).mpr hs)
  cases n with
  | table =>
    refine ⟨_, Org.Description.decode, fun s => ?_⟩
    rw [ended, describeTable, restGet, getJson, hu, restUrl_table]
    rfl
  | action inputs =>
    refine ⟨_, .list Org.ActionResult.decode, fun s => ?_⟩
    have ha : c.AsksAt ("actions/custom/apex/" ++ name) ((action inputs).url c name) :=
      asksAt_of_url (by rw [hu, restUrl_action c name inputs])
    rw [ended, invoke, request]
    simp only [ha.submit]
    cases Org.actionInputs inputs <;> rfl

theorem calls (n : Naming) (name : String) (s : Session) : n.Calls c name s := by
  obtain ⟨β, d, he⟩ := ended_eq hs hl n name
  constructor
  · intro hn
    rw [he, ended_of_not_name (mt isName_iff.mp hn)]
  · intro hn text ht
    rw [he, ended_of_name (isName_iff.mpr hn)] at ht
    have hr := Work.Unrefusing.ofCall _ s _ (map_eq_error_iff.mp ht)
    exact Bool.noConfusion hr
  · intro hn e hr
    rw [he, ended_of_name (isName_iff.mpr hn), hr]
    rfl
  · intro hn r hr
    have hnet : (n.ended c name s).2 = (s.network.exchange c.config r).2 := by
      rw [he, ended_of_name (isName_iff.mpr hn), hr]
      exact (c.sendJson_run d r s).2
    obtain ⟨e, hre, ho, hlog⟩ := s.network.exists_exchange c.config r
    rw [hnet]
    exact ⟨s.network.handed_exchange c.config r, e, hre, ⟨_, ho⟩, hlog⟩

end Spelled

theorem toList_path (n : Naming) (name : String) :
    (n.path name).toList = Url.slashed (n.segments name) := by
  cases n <;> simp [path_table, path_action, segments, Url.slashed]

theorem isName_segments (n : Naming) (h : IsApiName name) :
    ∀ segment ∈ n.segments name, isName segment := by
  have hn := isName_iff.mpr h
  cases n with
  | table =>
    simp only [segments, List.forall_mem_cons]
    exact ⟨rfl, hn, rfl, fun _ hm => nomatch hm⟩
  | action inputs =>
    simp only [segments, List.forall_mem_cons]
    exact ⟨rfl, rfl, rfl, hn, fun _ hm => nomatch hm⟩

theorem named (n : Naming) (c : Connection) (h : IsApiName name) :
    Url.Named c.instanceUrl ('/' :: ("services/data/v".toList ++ c.version.toList))
      (n.segments name) (n.url c name) := by
  refine ⟨?_, ?_, n.isName_segments h⟩
  · rw [url, ← toList_path]
    simp
  · cases n <;> exact List.cons_ne_nil _ _

/-- What is asked for with a name: the name is a segment of the path, and nothing else in the URL
depends on it. If the URL of the org ends visibly, there is a URL to ask. -/
structure InSegment (n : Naming) (c : Connection) (place : Except Http.Error Url)
    (before : List String) : Prop where
  target : ∀ name, IsApiName name → n.target c name = place.map fun u =>
    { u with path := .segments (before ++ n.segments name), query := none, fragment := none }
  message : ∀ name r m, IsApiName name → n.request c name = .ok r →
    r.prepared c.config = .ok m → m.url.path = .segments (before ++ n.segments name)
  readable : (∀ d, c.instanceUrl.toList.getLast? = some d → ' ' < d) → ∃ u, place = .ok u

variable {c : Connection}

theorem exists_not_slash (rest cs : List Char) :
    ∃ c ∈ Url.unbroken (rest ++ '/' :: ("services/data/v".toList ++ cs)),
      Url.isSlash true c = false :=
  ⟨'s', List.mem_filter.mpr ⟨by simp, by decide⟩, by decide⟩

theorem endsIn_target (n : Naming) (hs : IsSpelledOut c.instanceUrl)
    (hi : '?' ∉ c.instanceUrl.toList ∧ '#' ∉ c.instanceUrl.toList) (h : IsApiName name)
    (hu : n.target c name = .ok u) : Url.EndsIn u.text (n.segments name) := by
  obtain ⟨w, rest, hb⟩ := base_of_isSpelledOut hs hi
  rw [target] at hu
  cases hp : Url.parse (n.url c name) with
  | error d =>
    rw [hp] at hu
    cases hu
  | ok v =>
    rw [hp] at hu
    cases hu
    exact Url.endsIn_of_suffix (n.isName_segments h)
      ((n.named c h).suffix_text hb (exists_not_slash _ _) hp)

theorem exists_inSegment (n : Naming) (hs : IsSpelledOut c.instanceUrl)
    (hi : '?' ∉ c.instanceUrl.toList ∧ '#' ∉ c.instanceUrl.toList)
    (hv : '?' ∉ c.version.toList ∧ '#' ∉ c.version.toList)
    (hu : Url.parse c.instanceUrl = .ok u) : ∃ place before, n.InSegment c place before := by
  obtain ⟨w, rest, hb⟩ := base_of_isSpelledOut hs hi
  have hm : '?' ∉ "services/data/v".toList ++ c.version.toList ∧
      '#' ∉ "services/data/v".toList ++ c.version.toList := by
    simpa using hv
  obtain ⟨place, before, hread, hparse⟩ := Url.exists_place hb hm (exists_not_slash rest _)
  have ht : ∀ name, IsApiName name → n.target c name =
      (place.mapError fun d => .causedBy (.invalidUrl d.message)).map fun u =>
        { u with
          path := .segments (before ++ n.segments name), query := none, fragment := none } := by
    intro name hn
    rw [target, hparse _ _ (n.named c hn)]
    cases place <;> rfl
  refine ⟨_, before, ht, fun name r m hn hr hmsg => ?_, fun hl => ?_⟩
  · obtain ⟨v, hv, rfl⟩ := Request.message_of_prepared hmsg
    rw [target_of_request hr, ht name hn] at hv
    obtain ⟨v', -, rfl⟩ := map_eq_ok_iff.mp hv
    rfl
  · obtain ⟨v, rfl⟩ := hread u hl hu
    exact ⟨v, rfl⟩

end Naming

/-- A connection that was accepted, at a URL of HTTP that is spelled out and has no query and no
fragment, refuses to ask with what is no name, and hands over a request for the URL that is made
with a name. A name has none of the marks of a URL. It stands whole between slashes, in the text of
the URL and in what is read of it, whatever version of the API is asked for. If the version has no
mark of a query or a fragment, it is a segment of the path, and the rest of the URL does not depend
on it. -/
theorem names_stay_in_segment {text token : String} {config : Http.Config}
    (h : toInstance text token config = .ok c) (hs : IsSpelledOut c.instanceUrl)
    (hi : '?' ∉ c.instanceUrl.toList ∧ '#' ∉ c.instanceUrl.toList) (version : String)
    (n : Naming) :
    (∀ name s, n.Calls { c with version } name s) ∧
      (∀ name r, n.request { c with version } name = .ok r →
        r.url = c.instanceUrl ++ "/services/data/v" ++ version ++ n.path name ∧
          r.target = n.target { c with version } name) ∧
      (∀ name, IsApiName name → ∀ mark ∈ ['/', '.', '?', '#', '%'], mark ∉ name.toList) ∧
      (∀ name, IsApiName name →
        Url.EndsIn (n.url { c with version } name) (n.segments name) ∧
        ∀ u, n.target { c with version } name = .ok u → Url.EndsIn u.text (n.segments name)) ∧
      ('?' ∉ version.toList ∧ '#' ∉ version.toList →
        ∃ place before, n.InSegment { c with version } place before) := by
  obtain ⟨u, hu, -, hc⟩ := parse_of_toInstance h
  have hl : c.instanceUrl.toList.getLast? ≠ some '/' := hc ▸ getLast?_dropEndSlashes text
  refine ⟨fun name s => ?_, fun name r hr => ?_, fun name hn mark hm => ?_,
    fun name hn => ⟨?_, fun u ht => ?_⟩, fun hv => ?_⟩
  · exact Naming.calls (c := { c with version }) hs hl n name s
  · exact ⟨Naming.url_of_request hr, Naming.target_of_request hr⟩
  · intro hmark
    have hno : ['/', '.', '?', '#', '%'].all (!isNameChar ·) := rfl
    have hm := List.all_eq_true.mp hno mark hm
    rw [Soql.isNameChar_of_isName (isName_iff.mpr hn) mark hmark] at hm
    cases hm
  · exact (n.named { c with version } hn).endsIn_text
  · exact n.endsIn_target (c := { c with version }) hs hi hn ht
  · exact n.exists_inSegment (c := { c with version }) hs hi hv hu

theorem plainOrg_describes_account :
    toInstance "https://org.test/" "token" {} = .ok plainOrg ∧ IsSpelledOut plainOrg.instanceUrl ∧
      ('?' ∉ plainOrg.instanceUrl.toList ∧ '#' ∉ plainOrg.instanceUrl.toList) ∧
      IsApiName "Account" ∧ ('?' ∉ "61.0".toList ∧ '#' ∉ "61.0".toList) ∧
      (∃ r m before, Naming.table.request { plainOrg with version := "61.0" } "Account" = .ok r ∧
        r.prepared {} = .ok m ∧
        m.url.path = .segments (before ++ ["sobjects", "Account", "describe"]) ∧
        (Naming.table.ended { plainOrg with version := "61.0" } "Account" firstSession).2.handed =
          [r]) ∧
      ¬ IsApiName "Account/../User" ∧
      Naming.table.ended { plainOrg with version := "61.0" } "Account/../User" firstSession =
        (.error (.of (.invalidName "Account/../User")), firstSession.network) := by
  have h : toInstance "https://org.test/" "token" {} = .ok plainOrg := by rfl
  have hs : IsSpelledOut plainOrg.instanceUrl := .inr rfl
  have hi : '?' ∉ plainOrg.instanceUrl.toList ∧ '#' ∉ plainOrg.instanceUrl.toList := by decide
  have hv : '?' ∉ "61.0".toList ∧ '#' ∉ "61.0".toList := by decide
  have hn : IsApiName "Account" := isName_iff.mp rfl
  have hno : ¬ IsApiName "Account/../User" := mt isName_iff.mpr (by decide)
  obtain ⟨r, hr⟩ := exists_ok_of_toBool (x :=
    Naming.table.request { plainOrg with version := "61.0" } "Account") rfl
  obtain ⟨hcalls, -, -, -, hsegment⟩ := names_stay_in_segment h hs hi "61.0" .table
  obtain ⟨place, before, hp⟩ := hsegment hv
  have hm : ∀ r, Naming.table.request { plainOrg with version := "61.0" } "Account" = .ok r →
      (r.prepared {}).toBool := by
    rintro _ ⟨⟩
    decide +kernel
  obtain ⟨m, hm⟩ := exists_ok_of_toBool (hm r hr)
  refine ⟨h, hs, hi, hn, hv, ⟨r, m, before, hr, hm, hp.message "Account" r m hn hr hm, ?_⟩, hno,
    (hcalls "Account/../User" firstSession).refused hno⟩
  exact ((hcalls "Account" firstSession).handed hn r hr).1

/-- The call of an action with an input that has no form in JSON. -/
def unwrittenCall : Naming :=
  @Naming.action Unit ⟨fun _ => .error "key must be a string"⟩ [()]

/-- A version of the API may end in the mark of a query or a fragment. Then a name stands there, and
in no segment of the path. A call with an input that cannot be written is not refused for its name,
and hands nothing over. -/
theorem markedVersion_moves_name :
    toInstance "https://org.test/" "token" {} = .ok plainOrg ∧ IsSpelledOut plainOrg.instanceUrl ∧
      ('?' ∉ plainOrg.instanceUrl.toList ∧ '#' ∉ plainOrg.instanceUrl.toList) ∧
      IsApiName "Account" ∧
      (Naming.table.target { plainOrg with version := "62.0?" } "Account").toOption.map
        (fun u => (u.path, u.query)) =
          some (.segments ["services", "data", "v62.0"], some "/sobjects/Account/describe") ∧
      (Naming.table.target { plainOrg with version := "62.0#" } "Account").toOption.map
        (fun u => (u.path, u.fragment)) =
          some (.segments ["services", "data", "v62.0"], some "/sobjects/Account/describe") ∧
      unwrittenCall.ended plainOrg "Account" firstSession =
        (.error (.ofHttp (.causedBy (.json "key must be a string"))), firstSession.network) := by
  refine ⟨by rfl, .inr rfl, by decide, isName_iff.mp rfl, ?_, ?_, by rfl⟩
  · decide +kernel
  · decide +kernel

end Connection

end OrgClient
