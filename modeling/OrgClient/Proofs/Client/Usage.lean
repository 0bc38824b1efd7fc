import Mathlib.Data.List.Forall2
import OrgClient.Proofs.Client.Call

namespace OrgClient

open Http (Config Entry Exchange Network Request Response Sending Session Usage)
set_option autoImplicit true

namespace Http

/-- The answer to a message, if one has come. -/
def Sending.response? (s : Sending) : Option Response :=
  s.outcome.toOption

/-- The usage that an answer reports. -/
def Sending.usage? (s : Sending) : Option Usage :=
  s.response?.bind Response.usage?

/-- The usage that an answer of success reports. -/
def Sending.grantedUsage? (s : Sending) : Option Usage :=
  (s.response?.filter Response.isSuccess).bind Response.usage?

/-- What the latest sending tells that tells something. -/
def latest (told : Sending → Option Usage) (ss : List Sending) : Option Usage :=
  ss.reverse.findSome? told

theorem latest_append (told : Sending → Option Usage) (ss ts : List Sending) :
    latest told (ss ++ ts) = (latest told ts).or (latest told ss) := by
  rw [latest, List.reverse_append, List.findSome?_append]
  rfl

theorem latest_cons (told : Sending → Option Usage) (s : Sending) (ss : List Sending) :
    latest told (s :: ss) = (latest told ss).or (told s) := by
  have hs : latest told [s] = told s := by
    rw [latest, List.reverse_singleton, List.findSome?_singleton]
  rw [← List.singleton_append, latest_append, hs]

theorem Response.toOption_checked (r : Response) :
    r.checked.toOption = (some r).filter isSuccess := by
  rw [checked, Option.filter_some]
  split <;> rfl

theorem Sending.toOption_checked (s : Sending) :
    (s.outcome >>= Response.checked).toOption = s.response?.filter Response.isSuccess := by
  unfold response?
  cases s.outcome with
  | error e => rfl
  | ok r => exact r.toOption_checked

/-- Redirections are no answers, so only the last sending grants a usage. -/
theorem Course.latest_granted (h : Course m ss last) :
    latest Sending.grantedUsage? ss = last.grantedUsage? := by
  induction h with
  | once m d => exact latest_cons _ _ []
  | redirect r h ih =>
    rw [latest_cons, ih]
    exact Option.or_none

theorem Exchange.Ends.latest_granted {e : Exchange} (h : e.Ends c o) :
    latest Sending.grantedUsage? e.sendings = o.toOption.bind Response.usage? := by
  cases hp : e.request.prepared c with
  | error x =>
    obtain ⟨hs, rfl⟩ := h.unprepared x hp
    rw [hs]
    rfl
  | ok m =>
    obtain ⟨-, last, hc, rfl⟩ := h.prepared m hp
    rw [hc.latest_granted, Sending.toOption_checked, Sending.grantedUsage?]

def Entry.sending? : Entry → Option Sending
  | .request _ => none
  | .sending s => some s

/-- All sendings, in order. -/
def Network.sendings (n : Network) : List Sending :=
  n.log.filterMap Entry.sending?

namespace Config

theorem usage_note (c : Config) (level : Level) (message : String) (data : List (String × Datum))
    (s : Session) : ((c.note level message data).run s).2.usage = s.usage := by
  unfold Config.note
  split <;> rfl

theorem usage_noteResponse (c : Config) (r : Response) (s : Session) :
    ((c.noteResponse r).run s).2.usage = s.usage := by
  unfold noteResponse
  split
  · exact c.usage_note _ _ _ s
  · exact c.usage_note _ _ _ s

theorem usage_execute (c : Config) (r : Request) (s : Session) :
    ((c.execute r).run s).2.usage = s.usage := by
  have hn (s' : Session) : ((c.note .debug "Sending request" []).run s').2.usage = s'.usage :=
    c.usage_note _ _ _ s'
  unfold execute
  simp only [run_bind_state, run_liftM_except, run_liftM_state, hand_run, deliver_run]
  cases r.target with
  | error e => rfl
  | ok u =>
    dsimp only
    cases r.message c u with
    | error e => exact hn _
    | ok m =>
      dsimp only
      cases Sending.outcome _ with
      | error e => exact hn _
      | ok response => exact (c.usage_noteResponse response _).trans (hn _)

end Config

end Http

namespace Connection

theorem usage_keepUsage (c : Connection) (r : Response) (s : Session) :
    ((c.keepUsage r).run s).2.usage = r.usage?.or s.usage := by
  unfold keepUsage
  cases r.usage? <;> rfl

theorem usage_execute (c : Connection) (r : Request) (s : Session) :
    ((c.execute r).run s).2.usage =
      ((s.network.exchange c.config r).1.toOption.bind Response.usage?).or s.usage := by
  have hu := c.config.usage_execute r s
  -- The usage is kept of what comes back, and an answer of failure does not come back.
  rw [← (c.config.execute_run r s).1, execute, run_bind_state]
  rcases h : (c.config.execute r).run s with ⟨_ | response, s'⟩ <;> rw [h] at hu
  · exact hu
  · change ((c.keepUsage response).run s').2.usage = _
    rw [c.usage_keepUsage, hu]
    rfl

theorem session_sendJson (c : Connection) (d : Json.Decoder α) (r : Request) (s : Session) :
    ((c.sendJson d r).run s).2 = ((c.execute r).run s).2 := by
  rw [sendJson, run_bind_state]
  rcases (c.execute r).run s with ⟨_ | response, s'⟩ <;> rfl

end Connection

/-- A request over a connection, the answer to which is taken as it is or read. -/
inductive Ask : Type 1 where
  | execute (c : Connection) (r : Request)
  | sendJson {α : Type} (c : Connection) (d : Json.Decoder α) (r : Request)

namespace Ask

def connection : Ask → Connection
  | execute c _ => c
  | sendJson c _ _ => c

def request : Ask → Request
  | execute _ r => r
  | sendJson _ _ r => r

/-- The session behind a request. -/
def session (s : Session) : Ask → Session
  | execute c r => ((c.execute r).run s).2
  | sendJson c d r => ((c.sendJson d r).run s).2

/-- The session behind requests, one after the other. -/
def run (s : Session) (asks : List Ask) : Session :=
  asks.foldl session s

/-- The exchanges of requests between two sessions. The usage behind them is that of the latest
answer of success among them, or what it was before. -/
structure Transcript (s : Session) (asks : List Ask) (es : List Exchange) (s' : Session) :
    Prop where
  log : s'.network.log = s.network.log ++ es.flatMap Exchange.entries
  exchanges : List.Forall₂
    (fun a e => e.request = a.request ∧ ∃ o, e.Ends a.connection.config o) asks es
  usage : s'.usage =
    (Http.latest Sending.grantedUsage? (es.flatMap Exchange.sendings)).or s.usage

theorem Transcript.nil (s : Session) : Transcript s [] [] s :=
  ⟨(List.append_nil _).symm, .nil, rfl⟩

theorem Transcript.cons (h : Transcript s [a] [e] s') (h' : Transcript s' asks es s'') :
    Transcript s (a :: asks) (e :: es) s'' where
  log := by
    rw [h'.log, h.log, List.append_assoc, List.flatMap_singleton, List.flatMap_cons]
  exchanges := .cons (List.forall₂_cons.mp h.exchanges).1 h'.exchanges
  usage := by
    rw [h'.usage, h.usage, List.flatMap_singleton, List.flatMap_cons, Http.latest_append,
      Option.or_assoc]

theorem transcript_execute (c : Connection) (r : Request) (s : Session) :
    ∃ e, Transcript s [execute c r] [e] ((c.execute r).run s).2 := by
  obtain ⟨e, rfl, he, hl⟩ := s.network.exists_exchange c.config r
  refine ⟨e, ?_, .cons ⟨rfl, _, he⟩ .nil, ?_⟩
  · rw [(c.execute_run e.request s).2, hl, List.flatMap_singleton]
  · rw [c.usage_execute, List.flatMap_singleton, he.latest_granted]

theorem transcript_session (a : Ask) (s : Session) : ∃ e, Transcript s [a] [e] (a.session s) := by
  cases a with
  | execute c r => exact transcript_execute c r s
  | sendJson c d r =>
    obtain ⟨e, h⟩ := transcript_execute c r s
    rw [session, c.session_sendJson]
    exact ⟨e, h.log, .cons (List.forall₂_cons.mp h.exchanges).1 .nil, h.usage⟩

/-- After any requests over any connections of a session, the usage is that of the latest answer of
success that reported one, and as it was if there was none. -/
theorem usage_is_of_latest_success (asks : List Ask) (s : Session) :
    ∃ es, Transcript s asks es (run s asks) := by
  induction asks generalizing s with
  | nil => exact ⟨[], .nil s⟩
  | cons a asks ih =>
    obtain ⟨e, h⟩ := a.transcript_session s
    obtain ⟨es, h'⟩ := ih (a.session s)
    exact ⟨e :: es, h.cons h'⟩

/-- A session with an org that has no calls left and says so. -/
def exhausted : Session :=
  let body := Text.utf8Bytes "TotalRequests Limit exceeded.".toList
  ⟨⟨fun _ => true,
    [.answer ⟨403, [("Sforce-Limit-Info", "api-usage=15000/15000")], body⟩], []⟩, [], none⟩

/-- A request for the limits of an org. -/
def limits : Ask :=
  let c : Connection := ⟨"http://org.test", "token", Connection.defaultVersion, {}⟩
  .execute c (c.request .get (c.restUrl "limits"))

theorem exhausted_keeps_no_usage :
    (run exhausted [limits]).usage = none ∧
      Http.latest Sending.usage? (run exhausted [limits]).network.sendings =
        some ⟨15000, 15000⟩ := by
  decide +kernel

end Ask

end OrgClient
