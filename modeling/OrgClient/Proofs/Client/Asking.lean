import OrgClient.Client.Query
import OrgClient.Proofs.Client.Batch
import OrgClient.Proofs.Record.Body
import OrgClient.Proofs.Url.Joined

namespace OrgClient

open Http (Exchange Network Request Session)
open Text
set_option autoImplicit true

namespace Record

/-- A batch to be deleted is given by the ids of its records. -/
theorem ids_of_deleteIds {T : RecordType κ α} (h : T.deleteIds rs = .ok ids) :
    ∃ is, rs.map T.id? = is.map some ∧ ids = ",".intercalate is := by
  obtain ⟨_, -, h⟩ := bind_eq_ok_iff.mp h
  obtain ⟨is, his, h⟩ := bind_eq_ok_iff.mp h
  cases h
  exact ⟨is, map_of_mapIndexed id_of_recordId his, rfl⟩

end Record

namespace Connection

/-- The ways to ask an org with a text. -/
inductive Asking where
  | query
  | queryIncludingDeleted
  | search

namespace Asking

def resource : Asking → String
  | query => "query"
  | queryIncludingDeleted => "queryAll"
  | search => "search"

/-- The network behind a call that asks. -/
def network (c : Connection) (row : Json.Decoder β) (text : String) (s : Session) :
    Asking → Network
  | query => ((c.query row text).run s).2.network
  | queryIncludingDeleted => ((c.queryIncludingDeleted row text).run s).2.network
  | search => ((c.search row text).run s).2.network

def request (c : Connection) (text : String) (a : Asking) : Request :=
  c.request .get (c.url (c.askUrl a.resource text))

theorem network_ofCall (c : Connection) (d : Json.Decoder β) (r : Request) (s : Session) :
    ((Work.ofCall (c.sendJson d r)).run s).2.network = (s.network.exchange c.config r).2 := by
  rw [Work.run_ofCall]
  exact (c.sendJson_run d r s).2

theorem network_eq (a : Asking) (c : Connection) (row : Json.Decoder β) (text : String)
    (s : Session) :
    a.network c row text s = (s.network.exchange c.config (a.request c text)).2 := by
  cases a with
  | query => rw [network, Connection.query, getJson, network_ofCall, request, resource]
  | queryIncludingDeleted =>
    rw [network, Connection.queryIncludingDeleted, getJson, network_ofCall, request, resource]
  | search => rw [network, Connection.search, getJson, network_ofCall, request, resource]

end Asking

/-- A query of a URL that asks with a text: the text is coded, and is read as it was given. -/
structure AsksWith (text query : String) : Prop where
  coded : ∃ value, query = "q=" ++ value ∧ Coded isUnreserved value.toList ∧
    ofUtf8? (percentDecode value.toList) = some text
  pairs : Url.formPairs query = [("q", text)]

theorem asksWith (text : String) : AsksWith text ("q=" ++ encodeComponent text) := by
  refine ⟨⟨_, rfl, coded_encodeComponent text, ?_⟩, Url.formPairs_component text⟩
  rw [percentDecode_encodeComponent, ofUtf8?_utf8Bytes]

/-- A call hands over a request, and sends the message for it if there is one. What is asked for is
a URL with such a query. If the URL of the org ends visibly, the request has a URL. -/
structure Requests (c : Connection) (s : Session) (after : Network) (Q : String → Prop)
    (r : Request) : Prop where
  handed : after.handed = s.network.handed ++ [r]
  exchange : ∃ e : Exchange, e.request = r ∧ (∃ o, e.Ends c.config o) ∧
    after.log = s.network.log ++ e.entries
  target : ∀ u, r.target = .ok u → ∃ query, u.query = some query ∧ Q query
  message : ∀ m, r.prepared c.config = .ok m →
    (∃ rest, after.sent = s.network.sent ++ m :: rest) ∧
      ∃ query, m.url.query = some query ∧ Q query
  readable : (∀ d, c.instanceUrl.toList.getLast? = some d → ' ' < d) → ∃ u, r.target = .ok u

variable {c : Connection}

theorem base_of_isSpelledOut (h : IsSpelledOut c.instanceUrl)
    (hb : '?' ∉ c.instanceUrl.toList ∧ '#' ∉ c.instanceUrl.toList) :
    ∃ w rest, Url.Base w c.instanceUrl rest := by
  rcases h with h | h
  · obtain ⟨rest, hr⟩ := startsWith_iff.mp h
    rw [← hr] at hb
    exact ⟨"http", '/' :: '/' :: rest, .inl rfl, hr.symm, by simpa using hb⟩
  · obtain ⟨rest, hr⟩ := startsWith_iff.mp h
    rw [← hr] at hb
    exact ⟨"https", '/' :: '/' :: rest, .inr rfl, hr.symm, by simpa using hb⟩

/-- The path of a resource is visible, begins with no slash and has no query and no fragment. -/
def isResource : List Char → Bool
  | [] => false
  | c :: cs => c != '/' && (c :: cs).all fun d => ' ' < d && d != '?' && d != '#'

theorem forall_of_isResource (h : isResource cs) : ∀ c ∈ cs, ' ' < c ∧ c ≠ '?' ∧ c ≠ '#' := by
  cases cs with
  | nil => cases h
  | cons c cs =>
    simp only [isResource, Bool.and_eq_true, List.all_eq_true, decide_eq_true_eq, bne_iff_ne] at h
    intro d hd
    obtain ⟨⟨hv, hq⟩, hf⟩ := h.2 d hd
    exact ⟨hv, hq, hf⟩

theorem dropStart_slash (h : isResource cs) (hp : path.toList = cs ++ ds) :
    (dropStart '/' path).toList = cs ++ ds := by
  cases cs with
  | nil => cases h
  | cons c cs =>
    have hc : c ≠ '/' := bne_iff_ne.mp (Bool.and_eq_true_iff.mp h).1
    rw [dropStart, String.toList_ofList, hp, List.cons_append]
    exact List.dropWhile_cons_of_neg (by simpa using hc)

theorem joined_restUrl (hv : '?' ∉ c.version.toList ∧ '#' ∉ c.version.toList) {path : String}
    (hres : isResource cs) (hp : path.toList = cs ++ Url.queryTail q)
    (hq : ∀ d ∈ q.getD [], Url.PlainInQuery d) :
    Url.Joined c.instanceUrl ("services/data/v".toList ++ c.version.toList ++ '/' :: cs) q
      (c.restUrl path) := by
  have hcs := forall_of_isResource hres
  have hne : cs ≠ [] := by
    rintro rfl
    cases hres
  have hlast : ('/' :: cs).getLast? = some (cs.getLast hne) := by
    rw [List.getLast?_cons, List.getLast?_eq_some_getLast hne]
    rfl
  have hqs : '?' ∉ cs := fun hm => (hcs '?' hm).2.1 rfl
  have hfs : '#' ∉ cs := fun hm => (hcs '#' hm).2.2 rfl
  refine ⟨?_, ⟨?_, ?_⟩, ⟨_, ?_, (hcs _ (List.getLast_mem hne)).1⟩, hq⟩
  · simp [restUrl, dropStart_slash hres hp]
  · simp [hv.1, hqs]
  · simp [hv.2, hfs]
  · rw [List.getLast?_append, hlast, Option.some_or]

/-- A request to a joined URL has the query that stands there, or else that of its pairs. -/
theorem requests_of_joined {r : Request} (hb : Url.Base w c.instanceUrl rest)
    (hu : Url.parse c.instanceUrl = .ok u) (hj : Url.Joined c.instanceUrl ps q r.url)
    (hQ : ∀ u : Url, u.query = q.map String.ofList →
      ∃ query, (u.addPairs r.pairs).query = some query ∧ Q query)
    (hn : after = (s.network.exchange c.config r).2) : Requests c s after Q r := by
  have ht : ∀ u, r.target = .ok u → ∃ query, u.query = some query ∧ Q query := by
    intro u hu
    rw [Request.target] at hu
    split at hu
    · rename_i u' hu'
      cases hu
      exact hQ u' (hj.query_of_parse hb hu').1
    · cases hu
  subst hn
  refine ⟨s.network.handed_exchange c.config r, ?_, ht, fun m hm => ⟨?_, ?_⟩, ?_⟩
  · obtain ⟨e, he, ho, hl⟩ := s.network.exists_exchange c.config r
    exact ⟨e, he, ⟨_, ho⟩, hl⟩
  · exact Network.sent_exchange hm s.network
  · obtain ⟨u', hu', rfl⟩ := Request.message_of_prepared hm
    obtain ⟨query, hquery, hq⟩ := ht u' hu'
    exact ⟨query, hquery, hq⟩
  · intro hl
    obtain ⟨path, hp⟩ := hj.parse_of_base hb hl hu
    rw [Request.target, hp]
    exact ⟨_, rfl⟩

theorem isResource_resource (a : Asking) : isResource a.resource.toList := by
  cases a <;> rfl

theorem plain_asked (asked : String) :
    ∀ c ∈ ("q=" ++ encodeComponent asked).toList, Url.PlainInQuery c := by
  intro c hc
  rw [String.toList_append] at hc
  rcases List.mem_append.mp hc with hc | hc
  · exact ⟨Url.visible_of_all rfl c hc, List.all_eq_true.mp rfl c hc⟩
  · exact Url.PlainInQuery.of_coded (coded_encodeComponent asked) c hc

section Spelled

variable (hs : IsSpelledOut c.instanceUrl)
  (hi : '?' ∉ c.instanceUrl.toList ∧ '#' ∉ c.instanceUrl.toList)
  (hv : '?' ∉ c.version.toList ∧ '#' ∉ c.version.toList)
  (hu : Url.parse c.instanceUrl = .ok u)

include hs hi hv hu

theorem requests_asking (hl : c.instanceUrl.toList.getLast? ≠ some '/') (a : Asking)
    (row : Json.Decoder β) (asked : String) (s : Session) :
    Requests c s (a.network c row asked s) (AsksWith asked) (a.request c asked) := by
  obtain ⟨w, rest, hb⟩ := base_of_isSpelledOut hs hi
  have hp : (a.resource ++ "?q=" ++ encodeComponent asked).toList =
      a.resource.toList ++ Url.queryTail (some ("q=" ++ encodeComponent asked).toList) := by
    simp [Url.queryTail]
  have hj := joined_restUrl hv (isResource_resource a) hp (plain_asked asked)
  have hurl : (a.request c asked).url = c.restUrl (a.resource ++ "?q=" ++ encodeComponent asked) :=
    url_of_isSpelledOut c ((isSpelledOut_restUrl_iff hl).mpr hs)
  rw [← hurl] at hj
  refine requests_of_joined hb hu hj (fun u hu => ⟨_, hu.trans ?_, asksWith asked⟩)
    (a.network_eq c row asked s)
  exact congrArg some String.ofList_toList

theorem requests_delete (T : RecordType κ α) {rs : List α} (hne : rs ≠ [])
    (hd : T.deleteIds rs = .ok ids) (allOrNone : Bool) (s : Session) :
    Requests c s ((c.delete T allOrNone).run (rs, s)).2.2.network
      (fun query => Url.formPairs query = [("ids", ids), ("allOrNone", flagText allOrNone)])
      (c.deleteRequest ids allOrNone) := by
  obtain ⟨w, rest, hb⟩ := base_of_isSpelledOut hs hi
  have hp : batchPath.toList = batchPath.toList ++ Url.queryTail none := (List.append_nil _).symm
  have hj := joined_restUrl hv rfl hp (fun _ hd => nomatch hd)
  have hr : (BatchCall.delete allOrNone).request c T rs = .ok (c.deleteRequest ids allOrNone) := by
    rw [BatchCall.request, hd]
    rfl
  refine requests_of_joined (r := c.deleteRequest ids allOrNone) hb hu hj (fun u hu => ?_)
    (BatchCall.ends_of_ok s hne hr).network
  exact ⟨_, Url.query_addPairs hu (List.cons_ne_nil _ _), Url.formPairs_formText _⟩

end Spelled

/-- A connection that was accepted, at a URL of HTTP that is spelled out and has no query and no
fragment, asks with a text in a query of one pair that has the text, coded once. It deletes with the
ids and the choice of the caller, in a query of these two pairs. -/
theorem asked_text_coded_once {text token version : String} {config : Http.Config}
    (h : toInstance text token config = .ok c) (hs : IsSpelledOut c.instanceUrl)
    (hi : '?' ∉ c.instanceUrl.toList ∧ '#' ∉ c.instanceUrl.toList)
    (hv : '?' ∉ version.toList ∧ '#' ∉ version.toList) :
    (∀ {β : Type} (a : Asking) (row : Json.Decoder β) (asked : String) (s : Session),
      Requests { c with version } s (a.network { c with version } row asked s) (AsksWith asked)
        (a.request { c with version } asked)) ∧
    ∀ {κ α : Type} (T : RecordType κ α) (rs : List α) (ids : String) (allOrNone : Bool)
      (s : Session), rs ≠ [] → T.deleteIds rs = .ok ids →
        (∃ is, rs.map T.id? = is.map some ∧ ids = ",".intercalate is) ∧
        Requests { c with version } s
          ((delete { c with version } T allOrNone).run (rs, s)).2.2.network
          (fun query => Url.formPairs query = [("ids", ids), ("allOrNone", flagText allOrNone)])
          (deleteRequest { c with version } ids allOrNone) := by
  obtain ⟨u, hu, -, hc⟩ := parse_of_toInstance h
  have hl : c.instanceUrl.toList.getLast? ≠ some '/' := hc ▸ getLast?_dropEndSlashes text
  constructor
  · intro β a row asked s
    exact requests_asking (c := { c with version }) hs hi hv hu hl a row asked s
  · intro κ α T rs ids allOrNone s hne hd
    exact ⟨Record.ids_of_deleteIds hd,
      requests_delete (c := { c with version }) hs hi hv hu T hne hd allOrNone s⟩

/-- A search with the characters that have a meaning in queries of URLs. -/
def oddSearch : String :=
  "FIND \x7b50% + \"é\" & 'x'=#1\x7d"

def accountRows : RecordType Nat Record.Row :=
  Record.Row.type (Schema.ofList [⟨"Account", []⟩]) 0

def oldAccounts : List Record.Row :=
  [⟨.obj [("Id", .str "001000000000001AAA")], .empty⟩]

def firstSession : Session :=
  ⟨⟨fun _ => true, [], []⟩, [], none⟩

theorem plainOrg_codes_once :
    toInstance "https://org.test/" "token" {} = .ok plainOrg ∧ IsSpelledOut plainOrg.instanceUrl ∧
      ('?' ∉ plainOrg.instanceUrl.toList ∧ '#' ∉ plainOrg.instanceUrl.toList) ∧
      ('?' ∉ "61.0".toList ∧ '#' ∉ "61.0".toList) ∧
      (∃ m query,
        (Asking.search.request { plainOrg with version := "61.0" } oddSearch).prepared {} = .ok m ∧
        (∃ rest, (Asking.search.network { plainOrg with version := "61.0" } Record.Row.decode
          oddSearch firstSession).sent = m :: rest) ∧
        m.url.query = some query ∧ Url.formPairs query = [("q", oddSearch)]) ∧
      ∃ m query, (deleteRequest { plainOrg with version := "61.0" } "001000000000001AAA"
          true).prepared {} = .ok m ∧
        (∃ rest, ((delete { plainOrg with version := "61.0" } accountRows true).run
          (oldAccounts, firstSession)).2.2.network.sent = m :: rest) ∧
        m.url.query = some query ∧
        Url.formPairs query = [("ids", "001000000000001AAA"), ("allOrNone", flagText true)] := by
  have h : toInstance "https://org.test/" "token" {} = .ok plainOrg := by rfl
  have hs : IsSpelledOut plainOrg.instanceUrl := .inr rfl
  have hi : '?' ∉ plainOrg.instanceUrl.toList ∧ '#' ∉ plainOrg.instanceUrl.toList := by decide
  have hv : '?' ∉ "61.0".toList ∧ '#' ∉ "61.0".toList := by decide
  have hd : accountRows.deleteIds oldAccounts = .ok "001000000000001AAA" := by rfl
  obtain ⟨hask, hdelete⟩ := asked_text_coded_once h hs hi hv
  refine ⟨h, hs, hi, hv, ?_, ?_⟩
  · obtain ⟨m, hm⟩ := exists_ok_of_toBool (x :=
      (Asking.search.request { plainOrg with version := "61.0" } oddSearch).prepared {})
      (by decide +kernel)
    obtain ⟨hsent, query, hq, hasks⟩ :=
      (hask .search Record.Row.decode oddSearch firstSession).message m hm
    exact ⟨m, query, hm, hsent, hq, hasks.pairs⟩
  · obtain ⟨m, hm⟩ := exists_ok_of_toBool (x :=
      (deleteRequest { plainOrg with version := "61.0" } "001000000000001AAA" true).prepared {})
      (by decide +kernel)
    have hr := (hdelete accountRows oldAccounts _ true firstSession (List.cons_ne_nil _ _) hd).2
    obtain ⟨hsent, query, hq, hpairs⟩ := hr.message m hm
    dsimp only
    exact ⟨m, query, hm, hsent, hq, hpairs⟩

end Connection

end OrgClient
